import MdxMend.CommandLine.Arguments
import MdxMend.CommandLine.LogFilter
import MdxMend.CommandLine.Report
import MdxMend.Discovery
import MdxMend.FileRepair
import MdxMend.Settings.Keep

/-!
# A run

A run has arguments, an environment, an input and a store, and ends with an exit code, an output,
notes and a store. Without paths it repairs its input; with paths it repairs files, or tells which
it would change. A file that cannot be read is noted and the others are repaired all the same.
-/

namespace MdxMend.CommandLine

/-- What the environment of a run says: where settings are kept, which file of settings to read in
place of the user's, and which log entries to show. -/
structure Environment extends Surroundings where
  settingsFile? : Option String := none
  logFilter? : Option String := none

/-- Something noted for the user: a log entry, or a line that is shown in any case. -/
inductive Note where
  | entry (e : Entry)
  | line (s : String)
deriving DecidableEq, Repr

/-- How a run ends. -/
structure Finished where
  exit : Nat
  output : Text
  notes : List Note
  store : Store

/-- The exit code of a run that went well. -/
def success : Nat := 0

/-- The exit code of a check that finds files to be changed. -/
def needsFixes : Nat := 1

/-- The exit code of a run with failures or with arguments that make no sense. -/
def failed : Nat := 2

/-- Log entries as notes. -/
def notesOf (log : Log) : List Note := log.map .entry

/-- A tally as a note, if statistics are wanted. -/
def statisticsNote (wanted : Bool) (t : Tally) : List Note :=
  if wanted then [.line (String.ofList t.toJson.compact)] else []

/-! ## One text -/

/-- Repairs the input of a run. -/
def runFilter (o : Options) (statistics : Bool) (input : ByteArray) (store : Store) : Finished :=
  match Text.ofBytes? input with
  | none =>
    ⟨failed, [], [.entry (.error .run ("Failed to read stdin: " ++ IoCause.notText.message))], store⟩
  | some t =>
    let r := repair o t
    ⟨success, r.text, notesOf r.log ++ statisticsNote statistics r.tally, store⟩

/-! ## Files -/

/-- The files that have been repaired so far: what they left in the store, what was fixed in all of
them, how many changed and how many failed, and what there is to show. -/
structure FilesRun where
  store : Store
  totals : Tally := .empty
  changed : Nat := 0
  failures : Nat := 0
  output : Text := []
  log : Log := []

/-- What is shown of a file that would be changed. -/
def wouldFix (f : FileRepaired) : Text :=
  ("would fix " ++ f.path.text ++ " (" ++ f.tally.summary ++ ")\n").toList

/-- Repairs one more file. -/
def FilesRun.next (o : Options) (write : Bool) (r : FilesRun) (p : Path) : FilesRun :=
  let ended := repairFile o write r.store p
  match ended.result with
  | .ok f =>
    { r with
      store := ended.store
      totals := r.totals.merge f.tally
      changed := if f.changed then r.changed + 1 else r.changed
      output := if f.changed && !f.written then r.output ++ wouldFix f else r.output
      log := r.log ++ ended.log }
  | .error e =>
    { r with
      store := ended.store
      failures := r.failures + 1
      log := r.log ++ ended.log ++ [.error .run e.message] }

/-- Repairs files one after the other. -/
def repairFiles (o : Options) (write : Bool) (store : Store) (files : List Path) : FilesRun :=
  files.foldl (FilesRun.next o write) { store }

/-- The closing line of a run over files. -/
def closingEntry (write : Bool) (count : Nat) (r : FilesRun) : Entry :=
  .info .run ("mdx-preflight: " ++ toString count ++ " file(s) checked, " ++ toString r.changed ++ " " ++
    (if write then "fixed" else "need fixes") ++ ", " ++ r.totals.summary)

/-- The exit code of a run over files. -/
def FilesRun.exit (check : Bool) (r : FilesRun) : Nat :=
  if r.failures > 0 then failed else if check && r.changed > 0 then needsFixes else success

/-- Repairs the files that the paths of a run stand for. -/
def runFiles (f : Flags) (settings : Settings) (store : Store) : Finished :=
  let (files, found) := collectFiles settings store f.paths
  let r := repairFiles settings.toOptions f.write store files
  ⟨r.exit f.check, r.output,
    notesOf (found ++ r.log ++ [closingEntry f.write files.length r]) ++
      statisticsNote f.statistics r.totals,
    r.store⟩

/-! ## The whole -/

/-- The settings that a run starts from: those of the file that is named, or else the user's. -/
def startingSettings (f : Flags) (env : Environment) (store : Store) :
    Except Failure Settings × Log :=
  match f.settingsFile? with
  | some p => Settings.load store p
  | none =>
    let (s, log) := Settings.loadDefault env.toSurroundings store
    (.ok s, log)

/-- Runs with settings: repairs the input or files. -/
def runWith (f : Flags) (settings : Settings) (input : ByteArray) (store : Store) : Finished :=
  if f.paths.isEmpty then runFilter settings.toOptions f.statistics input store
  else runFiles f settings store

/-- Runs with flags. -/
def runFlags (f : Flags) (env : Environment) (input : ByteArray) (store : Store) : Finished :=
  if f.listRules then ⟨success, ruleList f.json Builtin.rules, [], store⟩
  else
    match startingSettings f env store with
    | (.error e, log) => ⟨failed, [], notesOf (log ++ [.error .run e.message]), store⟩
    | (.ok loaded, log) =>
      let settings := f.applyTo loaded
      let saved : Ended Unit :=
        if f.saveSettings then settings.saveDefault env.toSurroundings store
        else ⟨.ok (), store, []⟩
      match saved.result with
      | .error e => ⟨failed, [], notesOf (log ++ saved.log ++ [.error .run e.message]), saved.store⟩
      | .ok () =>
        let finished := runWith f settings input saved.store
        { finished with notes := notesOf (log ++ saved.log) ++ finished.notes }

/-- The answer to a question. -/
def answer : Question → Text
  | .version => "mdx-preflight 0.1.0\n".toList
  | .help => "Usage: mdx-preflight [OPTIONS] [PATHS]...\n".toList

/-- Runs with arguments. -/
def run (arguments : List String) (env : Environment) (input : ByteArray) (store : Store) :
    Finished :=
  match readArguments env.settingsFile? arguments with
  | .ok f => runFlags f env input store
  | .error (.question q) => ⟨success, answer q, [], store⟩
  | .error (.fault fault) => ⟨failed, [], [.line ("error: " ++ fault.message)], store⟩

/-! ## Notes -/

/-- The filter on the log of a run, and what there is to say about how it is written. -/
def Environment.filter (env : Environment) : LogFilter × List String :=
  LogFilter.ofText (env.logFilter?.getD "info")

/-- The lines that a run shows: the warnings about its filter, which is read before anything else,
and the notes that pass the filter. -/
def shownLines (env : Environment) (notes : List Note) : List String :=
  let (filter, warnings) := env.filter
  warnings ++ notes.filterMap fun
    | .entry e => if filter.shows e then some e.display else none
    | .line s => some s

end MdxMend.CommandLine
