import MdxMend.Settings.Reader
import MdxMend.Store.Files

/-!
# Settings in a file

Settings are kept in a file in a folder of their own. A file that is missing or blank means default
settings. Settings are saved by writing them to a second file beside the first and moving that into
its place, so that a write that stops half way leaves half of the second file.
-/

namespace MdxMend

/-- What the surroundings say about where settings are kept: the user's own folder, and the folder
for settings if the user has chosen one. -/
structure Surroundings where
  home? : Option Path := none
  settingsHome? : Option Path := none

namespace Settings

/-- The name of the folder that settings are kept in. -/
def folderName : Path := ⟨"mdx-preflight"⟩

/-- The name of the file that settings are kept in. -/
def fileName : Path := ⟨"config.json"⟩

/-- The name of the file that settings are written to before they are moved into place. -/
def draftName : Path := ⟨"config.json.bak"⟩

/-- The folder that settings are kept in. A chosen folder counts only if it is given from the
root. -/
def folder (u : Surroundings) : Except Failure Path :=
  match u.settingsHome?.filter Path.isAbsolute, u.home? with
  | some base, _ => .ok (base.join folderName)
  | none, some home => .ok ((home.join ⟨".config"⟩).join folderName)
  | none, none => .error .noSettingsFolder

/-- The file that settings are kept in. -/
def file (u : Surroundings) : Except Failure Path := do .ok ((← folder u).join fileName)

/-- Reads settings from a file, and what there is to say about it. -/
def load (store : Store) (p : Path) : Except Failure Settings × Log :=
  if !store.isThere p then
    (.ok {}, [.debug .settings ("Config file not found at " ++ p.text ++ ", using defaults")])
  else
    let log : Log := [.debug .settings ("Loading config from: " ++ p.text)]
    match store.readText p with
    | .error cause => (.error (.load p.text cause), log)
    | .ok t =>
      if (Text.trim t).isEmpty then
        (.ok {}, log ++ [.debug .settings "Config file is empty, using defaults"])
      else
        match parseSanitized t with
        | .ok s => (.ok s, log ++ [.info .settings ("Configuration loaded successfully from " ++ p.text)])
        | .error fault =>
          (.error (.ofFault t fault), log ++ [.warn .settings ("Config file at " ++ p.text ++
            " contains invalid JSON: " ++ fault.report t)])

/-- The user's settings. If they cannot be had there is a warning and they are the default ones. -/
def loadDefault (u : Surroundings) (store : Store) : Settings × Log :=
  let (result, log) : Except Failure Settings × Log :=
    match file u with
    | .ok p => load store p
    | .error e => (.error e, [])
  let (s, warning) := orWarn ({} : Settings) "Failed to load configuration" result
  (s, log ++ warning)

/-- The file that settings are written to before they are moved to a path. -/
def draftFor (p : Path) : Path := (p.parent?.getD ⟨""⟩).join draftName

/-- Makes sure that the folder of a file is there. -/
def prepareFolder (store : Store) (dir : Path) : Ended Unit :=
  if dir.isEmpty || store.isThere dir then ⟨.ok (), store, []⟩
  else
    let (result, store) := store.ensureFolders dir
    ⟨result.mapError (.save dir.text), store,
      [.debug .settings ("Creating config directory: " ++ dir.text)]⟩

/-- Writes settings to a draft and moves it to a path. -/
def replaceFile (s : Settings) (store : Store) (p : Path) : Except Failure Unit × Store :=
  let draft := draftFor p
  let bytes := Text.toBytes s.print
  match store.write draft bytes with
  | .error cause => (.error (.save draft.text cause), store.torn draft bytes)
  | .ok written =>
    match written.moveFile draft p with
    | .error cause => (.error (.save p.text cause), written)
    | .ok moved => (.ok (), moved)

/-- Saves settings at a path. -/
def save (s : Settings) (store : Store) (p : Path) : Ended Unit :=
  match prepareFolder store (p.parent?.getD ⟨""⟩) with
  | ⟨.error e, store, log⟩ => ⟨.error e, store, log⟩
  | ⟨.ok (), store, log⟩ =>
    let log := log ++ [.debug .settings ("Saving config to: " ++ p.text)]
    match s.replaceFile store p with
    | (.error e, store) => ⟨.error e, store, log⟩
    | (.ok (), store) =>
      ⟨.ok (), store, log ++ [.info .settings ("Configuration saved successfully to " ++ p.text)]⟩

/-- Saves settings as the user's. -/
def saveDefault (s : Settings) (u : Surroundings) (store : Store) : Ended Unit :=
  match file u with
  | .ok p => s.save store p
  | .error e => ⟨.error e, store, []⟩

end Settings

end MdxMend
