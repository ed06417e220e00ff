import MdxMend.Repair
import MdxMend.Store.Files

/-!
# Repairing a file

A file is read, its text is repaired, and it is written back if that is wanted and the text is
another one. A file that is not text is left alone. A write that stops half way leaves half of the
new text.
-/

namespace MdxMend

/-- What has been done to a file. -/
structure FileRepaired where
  path : Path
  tally : Tally
  changed : Bool
  written : Bool

/-- Repairs the file at a path, and writes it back if `write` is set. -/
def repairFile (o : Options) (write : Bool) (store : Store) (p : Path) : Ended FileRepaired :=
  match store.readText p with
  | .error cause => ⟨.error (.read p.text cause), store, []⟩
  | .ok t =>
    let r := repair o t
    let changed := r.text != t
    let summary := p.text ++ ": " ++ r.tally.summary
    if changed && write then
      match store.write p (Text.toBytes r.text) with
      | .error cause =>
        ⟨.error (.write p.text cause), store.torn p (Text.toBytes r.text), r.log⟩
      | .ok store =>
        ⟨.ok ⟨p, r.tally, changed, true⟩, store, r.log ++ [.info .file ("Fixed " ++ summary)]⟩
    else ⟨.ok ⟨p, r.tally, changed, false⟩, store, r.log ++ [.debug .file summary]⟩

end MdxMend
