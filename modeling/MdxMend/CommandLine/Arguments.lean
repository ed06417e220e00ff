import MdxMend.CommandLine.Flags

/-!
# Arguments

Arguments are read from the left. What starts with two dashes is an option with a long name,
perhaps with a value behind an equals sign; what starts with one dash is a cluster of options of one
letter; all else is a path, or the value that an option waits for. After a bare pair of dashes
everything is a path.

An option that waits for a value, or has just been given one, and paths in a row are *pending*: they
are only looked at when the next option or path comes, or at the end. So an argument that is not
known is complained about before a fault in what is pending.
-/

namespace MdxMend.CommandLine

/-- An option without a value. -/
inductive Switch where
  | write
  | check
  | repairCode
  | debug
  | listRules
  | json
  | statistics
  | saveSettings
deriving DecidableEq, Repr

/-- An option with a value. -/
inductive Setting where
  | enable
  | disable
  | settingsFile
deriving DecidableEq, Repr

/-- Something to be shown in place of a run. -/
inductive Question where
  | version
  | help
deriving DecidableEq, Repr

/-- An option. -/
inductive Flag where
  | switch (s : Switch)
  | setting (s : Setting)
  | question (q : Question)
deriving DecidableEq, Repr

namespace Switch

/-- A switch as complaints show it. -/
def label : Switch → String
  | write => "--write"
  | check => "--check"
  | repairCode => "--no-preserve-code"
  | debug => "--debug"
  | listRules => "--list-rules"
  | json => "--json"
  | statistics => "--stats"
  | saveSettings => "--save-config"

/-- All switches. -/
def all : List Switch :=
  [write, check, repairCode, debug, listRules, json, statistics, saveSettings]

end Switch

namespace Setting

/-- The name of an option with a value. -/
def name : Setting → String
  | enable => "--enable"
  | disable => "--disable"
  | settingsFile => "--config"

/-- An option with a value as complaints show it. -/
def label : Setting → String
  | enable => "--enable <ENABLE>"
  | disable => "--disable <DISABLE>"
  | settingsFile => "--config <CONFIG>"

/-- All options with a value. -/
def all : List Setting := [enable, disable, settingsFile]

end Setting

namespace Question

/-- A question as it is asked. -/
def label : Question → String
  | version => "--version"
  | help => "--help"

/-- All questions. -/
def all : List Question := [version, help]

end Question

namespace Flag

/-- The option of a long name, which includes its dashes. -/
def ofLong? (name : String) : Option Flag :=
  ((Switch.all.find? (·.label == name)).map switch).or
    (((Setting.all.find? (·.name == name)).map setting).or
      ((Question.all.find? (·.label == name)).map question))

/-- The option of a letter. -/
def ofLetter? (c : Char) : Option Flag :=
  if c == 'w' then some (switch .write)
  else if c == 'd' then some (switch .debug)
  else if c == 'V' then some (question .version)
  else if c == 'h' then some (question .help)
  else none

end Flag

/-- What is wrong with arguments. -/
inductive ArgumentFault where
  | unexpected (argument : String)
  | unexpectedValue (value option : String)
  | valueRequired (option : String)
  | repeated (option : String)
  | conflict (first second : String)
  | missingListRules
deriving DecidableEq, Repr

/-- A fault in words. -/
def ArgumentFault.message : ArgumentFault → String
  | unexpected argument => "unexpected argument '" ++ argument ++ "' found"
  | unexpectedValue value option =>
    "unexpected value '" ++ value ++ "' for '" ++ option ++ "' found; no more were expected"
  | valueRequired option => "a value is required for '" ++ option ++ "' but none was supplied"
  | repeated option => "the argument '" ++ option ++ "' cannot be used multiple times"
  | conflict first second =>
    "the argument '" ++ first ++ "' cannot be used with '" ++ second ++ "'"
  | missingListRules => "the following required arguments were not provided:"

/-- Why reading ends before a run. -/
inductive Stop where
  | fault (f : ArgumentFault)
  | question (q : Question)
deriving DecidableEq, Repr

/-- What has been taken in but not looked at. -/
inductive Pending where
  | nothing
  | awaiting (s : Setting)
  | value (s : Setting) (text : String)
  | paths (texts : List String)
deriving DecidableEq, Repr

/-- What has been read: the switches in their order, the values, and what is pending. -/
structure Reading where
  switches : List Switch := []
  enable : Option (List String) := none
  disable : List String := []
  settingsFile? : Option Path := none
  paths : List Path := []
  pending : Pending := .nothing
deriving DecidableEq, Repr

/-- The names in a list that is separated by commas. -/
def splitNames (s : String) : List String := (Text.split ',' s.toList).map String.ofList

namespace Reading

/-- Takes the value of an option. -/
def setValue (r : Reading) (s : Setting) (text : String) : Except Stop Reading :=
  match s with
  | .enable => .ok { r with enable := some (r.enable.getD [] ++ splitNames text) }
  | .disable => .ok { r with disable := r.disable ++ splitNames text }
  | .settingsFile =>
    if r.settingsFile?.isSome then .error (.fault (.repeated s.label))
    else if text.isEmpty then .error (.fault (.valueRequired s.label))
    else .ok { r with settingsFile? := some (.mk text) }

/-- Looks at what is pending. -/
def settle (r : Reading) : Except Stop Reading :=
  let settled := { r with pending := .nothing }
  match r.pending with
  | .nothing => .ok settled
  | .awaiting s => .error (.fault (.valueRequired s.label))
  | .value s text => settled.setValue s text
  | .paths texts =>
    if texts.any String.isEmpty then .error (.fault (.valueRequired "[PATHS]..."))
    else .ok { settled with paths := r.paths ++ texts.map Path.mk }

/-- Takes a switch or a question. -/
def takeFlag (r : Reading) (f : Flag) : Except Stop Reading := do
  let r ← r.settle
  match f with
  | .switch s =>
    if r.switches.contains s then .error (.fault (.repeated s.label))
    else .ok { r with switches := r.switches ++ [s] }
  | .setting s => .ok { r with pending := .awaiting s }
  | .question q => .error (.question q)

/-- Takes an option with a long name. `value?` is what stands behind its equals sign. -/
def takeLong (r : Reading) (name : String) (value? : Option String) : Except Stop Reading :=
  match Flag.ofLong? name, value? with
  | none, _ => .error (.fault (.unexpected name))
  | some f, none => r.takeFlag f
  | some (.setting s), some value => do (← r.settle).setValue s value
  | some (.switch s), some value => .error (.fault (.unexpectedValue value s.label))
  | some (.question q), some value => .error (.fault (.unexpectedValue value q.label))

/-- Takes a cluster of options of one letter. -/
def takeLetters (r : Reading) : List Char → Except Stop Reading
  | [] => .ok r
  | c :: letters =>
    match Flag.ofLetter? c with
    | none => .error (.fault (.unexpected (String.ofList ['-', c])))
    | some f => do (← r.takeFlag f).takeLetters letters

/-- Takes a path. -/
def takePath (r : Reading) (text : String) : Except Stop Reading :=
  match r.pending with
  | .paths texts => .ok { r with pending := .paths (texts ++ [text]) }
  | _ => do
    let r ← r.settle
    .ok { r with pending := .paths [text] }

/-- Takes an argument that is no option. -/
def takePlain (r : Reading) (text : String) : Except Stop Reading :=
  match r.pending with
  | .awaiting s => .ok { r with pending := .value s text }
  | _ => r.takePath text

/-- Takes all arguments. -/
def takeAll (r : Reading) : List String → Except Stop Reading
  | [] => .ok r
  | argument :: rest =>
    match argument.toList with
    | ['-', '-'] => rest.foldlM takePath r
    | '-' :: '-' :: option => do
      let name := String.ofList ('-' :: '-' :: option.takeWhile (· != '='))
      let value? :=
        match option.dropWhile (· != '=') with
        | _ :: value => some (String.ofList value)
        | [] => none
      (← r.takeLong name value?).takeAll rest
    | '-' :: c :: letters => do (← r.takeLetters (c :: letters)).takeAll rest
    | _ => do (← r.takePlain argument).takeAll rest

/-- The flags that have been read. -/
def flags (r : Reading) : Flags where
  paths := r.paths
  write := r.switches.contains .write
  check := r.switches.contains .check
  enable := r.enable
  disable := r.disable
  repairCode := r.switches.contains .repairCode
  debug := r.switches.contains .debug
  listRules := r.switches.contains .listRules
  json := r.switches.contains .json
  settingsFile? := r.settingsFile?
  statistics := r.switches.contains .statistics
  saveSettings := r.switches.contains .saveSettings

/-- Refuses switches that do not go together. -/
def validate (r : Reading) : Except Stop Flags :=
  match r.switches.filter fun s => s == .write || s == .check with
  | first :: second :: _ => .error (.fault (.conflict first.label second.label))
  | _ =>
    if r.switches.contains .json && !r.switches.contains .listRules then
      .error (.fault .missingListRules)
    else .ok r.flags

end Reading

/-- The flags that arguments give. `settingsFile?` names a file of settings in case they name
none. -/
def readArguments (settingsFile? : Option String) (arguments : List String) :
    Except Stop Flags := do
  let r ← (← ({} : Reading).takeAll arguments).settle
  match r.settingsFile?, settingsFile? with
  | none, some text => (← r.setValue .settingsFile text).validate
  | _, _ => r.validate

end MdxMend.CommandLine
