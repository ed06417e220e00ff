import MdxMend.Settings.Basic
import MdxMend.Store.Resolve

/-!
# Discovery of files

A list of paths is turned into the list of files to repair. A path to a file stands for that file,
whatever its extension. A path to a folder stands for the files in it and below it that have an
extension that is looked at; names that are ignored are left out with all that is below them. Links
inside a folder are not followed, and a folder that cannot be listed is passed over with a warning.
The files come in the order of their paths, each once.

Patterns and extensions are strings. A name that is not UTF-8 is no string, so no pattern ignores
it; but its extension can be one.
-/

namespace MdxMend

/-- Whether a name is ignored by a pattern: the name itself, or a star and the end of the name. -/
def ignoredBy (name pattern : String) : Bool :=
  name == pattern ||
    match pattern.toList with
    | '*' :: ending => ending.reverse.isPrefixOf name.toList.reverse
    | _ => false

namespace Settings

/-- Whether a name is ignored. -/
def ignores (s : Settings) (name : RawText) : Bool :=
  name.string?.any fun name => s.ignored.any (ignoredBy name)

/-- Whether a file of a name is looked at. -/
def handlesName (s : Settings) (name : RawText) : Bool :=
  ((Path.extensionOf? name).bind RawText.string?).any s.handlesExtension

end Settings

/-- What was found in several places, and what there is to say about it. -/
def together (found : List (List Path × Log)) : List Path × Log :=
  (found.flatMap (·.1), found.flatMap (·.2))

/-- The warning about a folder that cannot be listed, when the files below `root` are looked for. -/
def unlisted (root p : Path) (cause : IoCause) : Entry :=
  .warn .discovery ("Error walking '" ++ root.text ++ "': IO error for operation on " ++ p.text ++
    ": " ++ cause.message)

/-- The files in a folder below `root` and below it, at most `depth` levels down, and warnings about
the folders that cannot be listed. `p` is the path of the folder. -/
def filesBelow (settings : Settings) (store : Store) (root : Path) :
    Nat → Location → Path → List Path × Log
  | 0, _, _ => ([], [])
  | depth + 1, folder, p =>
    match store.faults.read folder with
    | some cause => ([], [unlisted root p cause])
    | none =>
      together ((store.inside folder).map fun (name, node) =>
        if settings.ignores name then ([], [])
        else
          match node with
          | .file _ => (if settings.handlesName name then [p.join ⟨name⟩] else [], [])
          | .folder => filesBelow settings store root depth (name :: folder) (p.join ⟨name⟩)
          | .link _ => ([], []))

/-- The files that a path stands for, and warnings about folders that cannot be listed, or about the
path if there is nothing at it. -/
def filesAt (settings : Settings) (store : Store) (p : Path) : List Path × Log :=
  match store.resolve .follow p with
  | .ok (.taken _ (.file _)) => ([p], [])
  | .ok (.taken l .folder) => filesBelow settings store p (store.depth + 1) l p
  | _ => ([], [.warn .discovery ("Skipping '" ++ p.text ++ "': no such file or directory")])

/-- The files that paths stand for. -/
def collectFiles (settings : Settings) (store : Store) (paths : List Path) : List Path × Log :=
  let (found, log) := together (paths.map (filesAt settings store))
  let files := Path.sortDistinct found
  (files, log ++
    [.debug .discovery ("Collected " ++ toString files.length ++ " file(s) to process")])

end MdxMend
