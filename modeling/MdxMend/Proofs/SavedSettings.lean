import MdxMend.Settings.Reader
import MdxMend.Text.Utf8
import MdxMend.Proofs.ReadBack

/-!
# Settings that were saved

The document of settings has all six fields, each once and under its name. So reading
it leaves nothing of the default settings that the reading starts from: every field is
read back over the default one, present or empty, and an absent list of names stays
apart from an empty one because it is written as a word.

The induction is on the fields that are still to come. What it needs of those that have
come is that none of them comes again.
-/

namespace MdxMend

open Json Text

namespace Field

/-- The value of a field in a document. -/
def value (s : Settings) : Field → Value
  | enable => (s.enable.map Value.strings).getD .null
  | disable => .strings s.disable
  | keepCode => .bool s.keepCode
  | debug => .bool s.debug
  | extensions => .strings s.extensions
  | ignored => .strings s.ignored

/-- Settings with one field taken from others. -/
def copy (s : Settings) (f : Field) (into : Settings) : Settings :=
  match f with
  | enable => { into with enable := s.enable }
  | disable => { into with disable := s.disable }
  | keepCode => { into with keepCode := s.keepCode }
  | debug => { into with debug := s.debug }
  | extensions => { into with extensions := s.extensions }
  | ignored => { into with ignored := s.ignored }

theorem ofName?_name (f : Field) : ofName? f.name = some f := by
  cases f <;> decide

/-- A field is read back, whatever the settings are that it is read into. -/
theorem read_value (s : Settings) (f : Field) (into : Settings) (level : Nat) (t : Text) :
    f.read into (' ' :: ((f.value s).wide level ++ t)) = .ok (f.copy s into, t) := by
  cases f with
  | enable =>
      show (readStrings? _ >>= _) = _
      rw [value, readStrings?_wide]
      rfl
  | keepCode | debug =>
      show (readBool _ >>= _) = _
      rw [value, readBool_wide]
      rfl
  | disable | extensions | ignored =>
      show (readStrings _ >>= _) = _
      rw [value, readStrings_wide]
      rfl

end Field

namespace Settings

theorem toJson_eq (s : Settings) :
    s.toJson = .object (Field.all.map fun f => (f.name, f.value s)) := rfl

theorem readValue_value (s into : Settings) {f : Field} {seen : List Field} (hf : f ∉ seen)
    (level : Nat) (t : Text) :
    readValue (String.ofList f.name.toList) seen into (':' :: ' ' :: ((f.value s).wide level ++ t)) =
      .ok (f :: seen, f.copy s into, t) := by
  have hseen : seen.contains f = false := by simpa using hf
  rw [String.ofList_toList, readValue, Field.ofName?_name]
  simp only [hseen, readColon_cons, bind, Except.bind, f.read_value, Bool.false_eq_true, if_false]

section Fields

variable {t u v rest rest' : Text} {name : Text} {seen seen' : List Field} {s s' : Settings}

theorem readFields_last (hname : readStringBody t = .ok (name, rest'))
    (hvalue : readValue (String.ofList name) seen s rest' = .ok (seen', s', rest))
    (hrest : rest <:+ t) (hend : skipSpace rest = '\x7d' :: u) :
    readFields seen s ('"' :: t) = .ok (s', u) := by
  rw [readFields, hname]
  simp only [bind, Except.bind, hvalue, behind_of_suffix hrest]
  rw [hend]
  rfl

theorem readFields_next (hname : readStringBody t = .ok (name, rest'))
    (hvalue : readValue (String.ofList name) seen s rest' = .ok (seen', s', rest))
    (hrest : rest <:+ t) (hcomma : skipSpace rest = ',' :: u) (hnext : skipSpace u = '"' :: v)
    (htail : '"' :: v <:+ t) :
    readFields seen s ('"' :: t) = readFields seen' s' ('"' :: v) := by
  rw [readFields, hname]
  simp only [bind, Except.bind, hvalue, behind_of_suffix hrest]
  rw [hcomma]
  simp [hnext, behind_of_suffix htail]

theorem read_object (h : skipSpace t = '"' :: u) :
    read ('\x7b' :: t) = readFields [] {} ('"' :: u) := by
  rw [read, skipSpace_cons rfl]
  simp [h]

end Fields

theorem suffix_field (s : Settings) (f : Field) (r : Text) :
    r <:+ f.name.toList.flatMap escapeChar ++
      '"' :: ':' :: ' ' :: ((f.value s).wide 1 ++ r) :=
  ⟨f.name.toList.flatMap escapeChar ++ '"' :: ':' :: ' ' :: (f.value s).wide 1, by simp⟩

/-- The fields that are still to come, to the closing bracket. -/
theorem readFields_wide (s into : Settings) (f : Field) (fs : List Field) {seen : List Field}
    (hfs : (f :: fs).Nodup) (hseen : ∀ g ∈ f :: fs, g ∉ seen) (t : Text) :
    readFields seen into (quoteText f.name.toList ++ ':' :: ' ' :: ((f.value s).wide 1 ++
      (Value.wideFields 1 (fs.map fun g => (g.name, g.value s)) ++
        (lineBreak 0 ++ '\x7d' :: t)))) =
      .ok ((f :: fs).foldl (fun into g => g.copy s into) into, t) := by
  induction fs generalizing f into seen with
  | nil =>
      rw [List.map_nil, Value.wideFields, List.nil_append, quoteText_append]
      refine readFields_last (readStringBody_flatMap _ _)
        (readValue_value s into (hseen f List.mem_cons_self) 1 _) (suffix_field s f _) ?_
      rw [skipSpace_lineBreak, skipSpace_cons rfl]
  | cons g gs ih =>
      obtain ⟨hf, hgs⟩ := List.nodup_cons.mp hfs
      have hseen' : ∀ h ∈ g :: gs, h ∉ f :: seen := by
        intro h hh hmem
        rcases List.mem_cons.mp hmem with rfl | hmem
        · exact hf hh
        · exact hseen h (List.mem_cons_of_mem f hh) hmem
      have hrest := ih (f.copy s into) g hgs hseen'
      rw [List.map_cons, Value.wideFields]
      simp only [List.append_assoc, List.cons_append, List.nil_append]
      rw [quoteText_append g.name.toList] at hrest ⊢
      rw [quoteText_append f.name.toList]
      refine (readFields_next (readStringBody_flatMap _ _)
        (readValue_value s into (hseen f List.mem_cons_self) 1 _) (suffix_field s f _)
        (skipSpace_cons rfl _) ?_ ?_).trans hrest
      · rw [skipSpace_lineBreak, skipSpace_cons rfl]
      · exact List.IsSuffix.trans ⟨',' :: lineBreak 1, by simp⟩ (suffix_field s f _)

/-- What is saved is read back as it was. -/
theorem parse_print (s : Settings) : parse s.print = .ok s := by
  have hread : read s.print = .ok (s, []) := by
    have hfields := readFields_wide s {} .enable
      [.disable, .keepCode, .debug, .extensions, .ignored] (by decide)
      (fun _ _ => List.not_mem_nil) []
    rw [quoteText_append] at hfields
    rw [print, toJson_eq]
    show read ((Value.object ((Field.enable.name, Field.enable.value s) :: _)).wide 0) = _
    rw [Value.wide]
    simp only [List.append_assoc, List.cons_append, List.nil_append]
    rw [read_object (by rw [skipSpace_lineBreak, quoteText_append, skipSpace_cons rfl])]
    exact hfields
  rw [parse, hread]
  rfl

/-- Settings that were saved are read back from the bytes of the file, fit for use. -/
theorem parseSanitized_print (s : Settings) :
    (ofBytes? (toBytes s.print)).map parseSanitized = some (.ok s.sanitize) := by
  rw [ofBytes?_toBytes, Option.map_some, parseSanitized, parse_print]
  rfl

end Settings

end MdxMend
