import MdxMend.CommandLine.Run

/-!
# The program

The program takes in the part of the file system that its arguments and its settings are about, runs
on it, and carries out what the run has changed. All decisions are made by the run.
-/

namespace MdxMend

/-- A location as a path from the root. -/
def pathTo (l : Location) : String := "/" ++ String.intercalate "/" (l.reverse.map RawText.shown)

/-- The location of a path that has no steps up. -/
def locationOf (folder : Location) (p : Path) : Location :=
  (Store.stepsOf p).foldl (fun l name => if Store.staysHere name then l else name :: l)
    (Store.startOf p folder)

/-- A store in which the file at a location cannot be read. -/
def Store.unreadable (s : Store) (l : Location) (cause : IoCause) : Store :=
  { s with faults.read := fun m => if m == l then some cause else s.faults.read m }

/-- Takes in what is at a location, and if `deep` is set what is below it. -/
partial def takeIn (deep : Bool) (s : Store) (l : Location) : IO Store := do
  let place := System.mkFilePath [pathTo l]
  match ← place.symlinkMetadata.toBaseIO with
  | .error _ => return s
  | .ok found =>
    match found.type with
    | .file =>
      match ← (IO.FS.readBinFile place).toBaseIO with
      | .ok bytes => return s.put l (.file bytes)
      | .error e => return (s.put l (.file .empty)).unreadable l (.other (toString e))
    | .dir =>
      let s := s.put l .folder
      if deep then
        (← place.readDir).foldlM (fun s entry => takeIn true s (entry.fileName :: l)) s
      else return s
    | .symlink =>
      match ← (IO.FS.realPath place).toBaseIO with
      | .ok target => return s.put l (.link (.mk target.toString))
      | .error _ => return s
    | .other => return s

/-- Takes in what is on the way to a path, where its links lead, and what is at its end, with all
below it if `deep` is set. -/
partial def takePath (deep : Bool) (s : Store) (p : Path) : IO Store := do
  let mut s := s
  let mut l := Store.startOf p s.here
  for name in Store.stepsOf p do
    if name == ".." then l := l.tail
    else if !Store.staysHere name then
      l := name :: l
      if (s.get? l).isNone then s ← takeIn false s l
      if let some (.link target) := s.get? l then
        s ← takePath false s target
        l := locationOf [] target
  if deep then takeIn true s l else return s

/-- Carries out the changes between two stores. `draft?` is where settings are written before they
are moved to the file that comes with it. -/
def carryOut (before after : Store) (draft? : Option (String × String)) : IO Unit := do
  for (l, n) in after.nodes.reverse do
    if before.get? l != some n then
      let place := pathTo l
      match n with
      | .folder => IO.FS.createDirAll place
      | .link _ => pure ()
      | .file bytes =>
        match draft? with
        | some (draft, file) =>
          if place == file then
            IO.FS.writeBinFile draft bytes
            IO.FS.rename draft file
          else IO.FS.writeBinFile place bytes
        | none => IO.FS.writeBinFile place bytes
  for (l, _) in before.nodes do
    if (after.get? l).isNone then IO.FS.removeFile (pathTo l)

/-- The environment of this run. -/
def readEnvironment : IO CommandLine.Environment := do
  return {
    home? := (← IO.getEnv "HOME").map Path.mk
    settingsHome? := (← IO.getEnv "XDG_CONFIG_HOME").map Path.mk
    settingsFile? := ← IO.getEnv "MDX_PREFLIGHT_CONFIG"
    logFilter? := ← IO.getEnv "RUST_LOG" }

/-- The paths that a run can touch. -/
def touched (env : CommandLine.Environment) (f : Flags) : List Path :=
  let settings := (Settings.file env.toSurroundings).toOption.toList
  f.paths ++ f.settingsFile?.toList ++ settings ++ settings.map Settings.draftFor

/-- The bytes that are left of an input, behind those that have been read. -/
partial def readInput (input : IO.FS.Stream) (bytes : ByteArray) : IO ByteArray := do
  let more ← input.read 65536
  if more.isEmpty then return bytes else readInput input (bytes ++ more)

/-- Whether a run reads its input. -/
def readsInput : Except CommandLine.Stop Flags → Bool
  | .ok f => f.paths.isEmpty && !f.listRules
  | .error _ => false

end MdxMend

open MdxMend in
/-- Runs the program. -/
def main (arguments : List String) : IO UInt32 := do
  let env ← readEnvironment
  let flags := CommandLine.readArguments env.settingsFile? arguments
  let input ← if readsInput flags then readInput (← IO.getStdin) .empty else pure .empty
  let folder : Path := .mk (← IO.currentDir).toString
  let store ← takePath false { here := locationOf [] folder } folder
  let paths := (flags.toOption.map (touched env)).getD []
  let store ← (paths.filter (!·.isEmpty)).foldlM (takePath true) store
  let finished := CommandLine.run arguments env input store
  let settings? := (Settings.file env.toSurroundings).toOption
  carryOut store finished.store (settings?.map fun p => ((Settings.draftFor p).text, p.text))
  (← IO.getStdout).putStr (String.ofList finished.output)
  for line in CommandLine.shownLines env finished.notes do
    IO.eprintln line
  return UInt32.ofNat finished.exit
