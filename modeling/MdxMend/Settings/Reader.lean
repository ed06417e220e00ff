import MdxMend.Settings.Basic
import MdxMend.Json.Skip
import MdxMend.Failure

/-!
# Reading settings

Settings are an object, whose fields may come in any order and may be missing, or a list of the
values of the fields in their order, which may end early. A field that is not known is passed over
and one that comes twice is a fault.
-/

namespace MdxMend

open Json Text

/-- A field of settings. -/
inductive Field where
  | enable
  | disable
  | keepCode
  | debug
  | extensions
  | ignored
deriving DecidableEq, Repr

namespace Field

/-- The fields in the order in which a list gives their values. -/
def all : List Field := [enable, disable, keepCode, debug, extensions, ignored]

/-- The name of a field in a document. -/
def name : Field → String
  | enable => "enable"
  | disable => "disable"
  | keepCode => "preserve_code_blocks"
  | debug => "debug"
  | extensions => "extensions"
  | ignored => "ignored"

/-- The field of a name. -/
def ofName? (name : String) : Option Field := all.find? (·.name == name)

/-- Reads the value of a field into settings. -/
def read (f : Field) (s : Settings) (t : Text) : Except Fault (Settings × Text) :=
  match f with
  | enable => do
    let (names, rest) ← readStrings? t
    .ok ({ s with enable := names }, rest)
  | disable => do
    let (names, rest) ← readStrings t
    .ok ({ s with disable := names }, rest)
  | keepCode => do
    let (keep, rest) ← readBool t
    .ok ({ s with keepCode := keep }, rest)
  | debug => do
    let (detail, rest) ← readBool t
    .ok ({ s with debug := detail }, rest)
  | extensions => do
    let (names, rest) ← readStrings t
    .ok ({ s with extensions := names }, rest)
  | ignored => do
    let (names, rest) ← readStrings t
    .ok ({ s with ignored := names }, rest)

end Field

namespace Settings

/-- The fault of a field that comes twice. It lies behind the name, the white space after it, and
a closing bracket if one follows. -/
def repeated (f : Field) (rest : Text) : Fault :=
  .before (.repeatedField f.name)
    (match skipSpace rest with
    | '\x7d' :: t => t
    | t => t)

/-- Reads the value behind the name of a field. -/
def readValue (name : String) (seen : List Field) (s : Settings) (t : Text) :
    Except Fault (List Field × Settings × Text) :=
  match Field.ofName? name with
  | some f => do
    if seen.contains f then .error (repeated f t)
    else
      let (s', rest) ← f.read s (← readColon t)
      .ok (f :: seen, s', rest)
  | none => do .ok (seen, s, ← skipValue (← readColon t))

/-- Reads the fields of an object from in front of a name. `seen` are the fields that have come. -/
def readFields (seen : List Field) (s : Settings) (t : Text) : Except Fault (Settings × Text) :=
  match t with
  | '"' :: t => do
    let (name, rest) ← readStringBody t
    let (seen, s, rest) ← readValue (String.ofList name) seen s rest
    match skipSpace (behind t rest) with
    | '\x7d' :: rest => .ok (s, rest)
    | ',' :: rest =>
      match skipSpace rest with
      | [] => .error (.on .endInValue [])
      | '\x7d' :: rest => .error (.on .trailingComma ('\x7d' :: rest))
      | rest => readFields seen s (behind t rest)
    | [] => .error (.on .endInObject [])
    | rest => .error (.on .expectedObjectComma rest)
  | t => .error (.on .keyNotString t)
termination_by t.length
decreasing_by
  have := behind_length t rest
  simp only [List.length_cons]
  omega

/-- Passes over the end of a list behind the last value that it may have. -/
def readListEnd (t : Text) : Except Fault Text :=
  match skipSpace t with
  | ']' :: rest => .ok rest
  | ',' :: rest =>
    match skipSpace rest with
    | ']' :: rest => .error (.on .trailingComma (']' :: rest))
    | rest => .error (.on .trailingCharacters rest)
  | [] => .error (.on .endInList [])
  | rest => .error (.on .trailingCharacters rest)

/-- Reads the values of the fields that are due from a list, and the end of the list. In front of
the first value there is no comma. -/
def readInOrder (first : Bool) (s : Settings) :
    List Field → Text → Except Fault (Settings × Text)
  | [], t => do .ok (s, ← readListEnd t)
  | f :: due, t =>
    match skipSpace t with
    | [] => .error (.on .endInList [])
    | ']' :: rest => .ok (s, rest)
    | t =>
      if first then do
        let (s, rest) ← f.read s t
        readInOrder false s due rest
      else
        match t with
        | ',' :: rest =>
          match skipSpace rest with
          | [] => .error (.on .endInValue [])
          | ']' :: rest => .error (.on .trailingComma (']' :: rest))
          | t => do
            let (s, rest) ← f.read s t
            readInOrder false s due rest
        | t => .error (.on .expectedListComma t)

/-- Reads settings. What is not given is as by default. -/
def read (t : Text) : Except Fault (Settings × Text) :=
  match skipSpace t with
  | [] => .error (.on .endInValue [])
  | '\x7b' :: t =>
    match skipSpace t with
    | [] => .error (.on .endInObject [])
    | '\x7d' :: rest => .ok ({}, rest)
    | t => readFields [] {} t
  | '[' :: t => readInOrder true {} Field.all t
  | t => wrongType .settings t

/-- The settings that a document holds, and nothing else. -/
def parse (t : Text) : Except Fault Settings := do
  let (s, rest) ← read t
  match skipSpace rest with
  | [] => .ok s
  | rest => .error (.on .trailingCharacters rest)

/-- The settings that a document holds, fit for use. -/
def parseSanitized (t : Text) : Except Fault Settings := sanitize <$> parse t

end Settings

/-- A fault in a document of settings as a failure. -/
def Failure.ofFault (source : Text) (f : Fault) : Failure :=
  .format (f.report source) (some (f.report source))

end MdxMend
