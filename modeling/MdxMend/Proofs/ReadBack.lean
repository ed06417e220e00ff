import MdxMend.Json.Reader
import MdxMend.Json.Value

/-!
# Reading back what was written

In front of the wide form of a value, the reader of its type gives the value and stops
where it ends, whatever follows. Strings carry the weight of this: what was written for
a character is either an escape that reads as the character, or the character itself,
and then it is none of those that a string cannot hold (`escapeChar_cases`). So a
string is read back character by character, and the first bare quote is the one that
ends it.

Lists come in two layouts, since an empty one stays on its line. The readers do not
know about layout at all: between the items they pass over white space.
-/

namespace MdxMend.Json

open Text

theorem behind_of_suffix {s rest : Text} (h : rest <:+ s) : behind s rest = rest := by
  obtain ⟨x, rfl⟩ := h
  exact behind_append x rest

/-! ## White space and words -/

theorem skipSpace_cons {c : Char} (hc : isSpace c = false) (s : Text) :
    skipSpace (c :: s) = c :: s := by
  rw [skipSpace, List.dropWhile_cons, hc]
  rfl

theorem skipSpace_lineBreak (level : Nat) (s : Text) :
    skipSpace (lineBreak level ++ s) = skipSpace s := by
  refine List.dropWhile_append_of_pos ?_
  intro c hc
  rcases List.mem_cons.mp hc with rfl | hc
  · rfl
  · rw [List.eq_of_mem_replicate hc]
    rfl

theorem readWord_append (word s : Text) : readWord word (word ++ s) = .ok s := by
  induction word with
  | nil => rw [List.nil_append, readWord]
  | cons c word ih => rw [List.cons_append, readWord, if_pos (beq_self_eq_true c), ih]

/-! ## Strings -/

theorem hexValue?_hexDigit : ∀ n < 16, hexValue? (hexDigit n) = some n := by decide

theorem readHex_hexDigit {a b : Nat} (ha : a < 16) (hb : b < 16) (s : Text) :
    readHex ('0' :: '0' :: hexDigit a :: hexDigit b :: s) = .ok (16 * a + b, s) := by
  have hbytes : ¬ byteLength ('0' :: '0' :: hexDigit a :: hexDigit b :: s) < 4 := by
    have hzero := Char.utf8Size_pos '0'
    have hpos := Char.utf8Size_pos (hexDigit a)
    have hpos' := Char.utf8Size_pos (hexDigit b)
    simp only [byteLength_cons]
    omega
  have hdigits : ['0', '0', hexDigit a, hexDigit b].mapM hexValue? = some [0, 0, a, b] := by
    have hzero : hexValue? '0' = some 0 := rfl
    simp [hzero, hexValue?_hexDigit a ha, hexValue?_hexDigit b hb]
  have hfour : List.take 4 ('0' :: '0' :: hexDigit a :: hexDigit b :: s) =
      ['0', '0', hexDigit a, hexDigit b] := rfl
  rw [readHex, if_neg hbytes, hfour, hdigits]
  simp

/-- What is written for a character: an escape, which reads as the character, or the
character, which may then stand in a string. -/
theorem escapeChar_cases (c : Char) :
    (∃ e, escapeChar c = '\\' :: e ∧ ∀ s, readEscape (e ++ s) = .ok (c, s)) ∨
      (escapeChar c = [c] ∧ c ≠ '"' ∧ c ≠ '\\' ∧ ¬ c.toNat < 0x20) := by
  -- A slash may be written with a backslash, but is not.
  have htable : ∀ p ∈ escapedLetters, p.1 ≠ '/' →
      escapeChar p.2 = ['\\', p.1] ∧ p.1 ≠ 'u' ∧ escapedLetters.lookup p.1 = some p.2 := by
    decide
  by_cases hletter : ∃ p ∈ escapedLetters, p.1 ≠ '/' ∧ p.2 = c
  · obtain ⟨⟨e, d⟩, hmem, hslash, rfl⟩ := hletter
    obtain ⟨hesc, hne, hlookup⟩ := htable _ hmem hslash
    refine .inl ⟨[e], hesc, fun s => ?_⟩
    rw [List.singleton_append, readEscape]
    · rw [hlookup]
    · exact hne
  · have hne : c ≠ '"' ∧ c ≠ '\\' ∧ c ≠ '\x08' ∧ c ≠ '\x0c' ∧ c ≠ '\n' ∧ c ≠ '\r' ∧
        c ≠ '\t' := by
      refine ⟨?_, ?_, ?_, ?_, ?_, ?_, ?_⟩ <;>
      · intro heq
        subst heq
        exact hletter (by decide)
    have hesc : escapeChar c = if c.toNat < 0x20 then
        ['\\', 'u', '0', '0', hexDigit (c.toNat / 16), hexDigit (c.toNat % 16)] else [c] := by
      simp [escapeChar, hne]
    rw [hesc]
    split
    · next hcontrol =>
        refine .inl ⟨_, rfl, fun s => ?_⟩
        have hhex := readHex_hexDigit (a := c.toNat / 16) (b := c.toNat % 16) (by omega)
          (by omega) s
        rw [Nat.div_add_mod] at hhex
        show (readHex ('0' :: '0' :: hexDigit (c.toNat / 16) :: hexDigit (c.toNat % 16) :: s)
          >>= _) = _
        rw [hhex]
        simp only [bind, Except.bind]
        rw [if_neg (by simp; omega), if_neg (by simp; omega), Char.ofNat_toNat]
    · next hcontrol => exact .inr ⟨rfl, hne.1, hne.2.1, hcontrol⟩

theorem readStringBody_escapeChar (c : Char) {s t rest : Text}
    (h : readStringBody s = .ok (t, rest)) :
    readStringBody (escapeChar c ++ s) = .ok (c :: t, rest) := by
  rcases escapeChar_cases c with ⟨e, he, hread⟩ | ⟨hc, hquote, hslash, hcontrol⟩
  · rw [he, List.cons_append, readStringBody, if_neg (by decide), if_pos (by decide), hread s]
    simp only [bind, Except.bind, behind_append, h]
  · rw [hc, List.singleton_append, readStringBody, if_neg (mt beq_iff_eq.mp hquote),
      if_neg (mt beq_iff_eq.mp hslash), if_neg hcontrol, h]
    rfl

/-- A string is read back from behind its opening quote. -/
theorem readStringBody_flatMap (t s : Text) :
    readStringBody (t.flatMap escapeChar ++ '"' :: s) = .ok (t, s) := by
  induction t with
  | nil => rw [List.flatMap_nil, List.nil_append, readStringBody, if_pos (by decide)]
  | cons c t ih =>
      rw [List.flatMap_cons, List.append_assoc]
      exact readStringBody_escapeChar c ih

theorem quoteText_append (t s : Text) :
    quoteText t ++ s = '"' :: (t.flatMap escapeChar ++ '"' :: s) := by
  simp [quoteText]

theorem readString_quoteText (x : String) (s : Text) :
    readString (quoteText x.toList ++ s) = .ok (x, s) := by
  rw [quoteText_append, readString, skipSpace_cons rfl]
  simp only [readStringBody_flatMap, bind, Except.bind, String.ofList_toList]

/-! ## Values, as they stand behind a colon -/

theorem readBool_wide (b : Bool) (level : Nat) (s : Text) :
    readBool (' ' :: ((Value.bool b).wide level ++ s)) = .ok (b, s) := by
  rw [Value.wide]
  cases b with
  | false =>
      show (readWord ['a', 'l', 's', 'e'] (['a', 'l', 's', 'e'] ++ s) >>= _) = _
      rw [readWord_append]
      rfl
  | true =>
      show (readWord ['r', 'u', 'e'] (['r', 'u', 'e'] ++ s) >>= _) = _
      rw [readWord_append]
      rfl

section Items

variable {c d : Char} {s t u rest rest' : Text} {item : String} {items : List String}

theorem readItems_last (h : readString (c :: t) = .ok (item, rest)) (hrest : rest <:+ t)
    (hend : skipSpace rest = ']' :: s) : readItems (c :: t) = .ok ([item], s) := by
  rw [readItems, h]
  simp only [bind, Except.bind, behind_of_suffix hrest]
  rw [hend]
  rfl

theorem readItems_next (h : readString (c :: t) = .ok (item, rest)) (hrest : rest <:+ t)
    (hcomma : skipSpace rest = ',' :: rest') (hnext : skipSpace rest' = d :: u) (hd : d ≠ ']')
    (htail : d :: u <:+ t) (hitems : readItems (d :: u) = .ok (items, s)) :
    readItems (c :: t) = .ok (item :: items, s) := by
  rw [readItems, h]
  simp only [bind, Except.bind, behind_of_suffix hrest]
  rw [hcomma]
  simp [hnext, hd, behind_of_suffix htail, hitems]

end Items

/-- The items of a list that is not empty, to its closing bracket. -/
theorem readItems_wide (level level' : Nat) (x : String) (xs : List String) (s : Text) :
    readItems (quoteText x.toList ++ (Value.wideItems level (xs.map .string) ++
      (lineBreak level' ++ ']' :: s))) = .ok (x :: xs, s) := by
  induction xs generalizing x with
  | nil =>
      have hread := readString_quoteText x (lineBreak level' ++ ']' :: s)
      rw [quoteText_append] at hread
      rw [List.map_nil, Value.wideItems, List.nil_append, quoteText_append]
      refine readItems_last hread ⟨x.toList.flatMap escapeChar ++ ['"'], by simp⟩ ?_
      rw [skipSpace_lineBreak, skipSpace_cons rfl]
  | cons y ys ih =>
      have hitems := ih y
      rw [quoteText_append] at hitems
      rw [List.map_cons, Value.wideItems, Value.wide]
      simp only [List.append_assoc, List.cons_append]
      have hread := readString_quoteText x (',' :: (lineBreak level ++ (quoteText y.toList ++
        (Value.wideItems level (ys.map .string) ++ (lineBreak level' ++ ']' :: s)))))
      rw [quoteText_append x.toList] at hread ⊢
      refine readItems_next hread ⟨x.toList.flatMap escapeChar ++ ['"'], by simp⟩
        (skipSpace_cons rfl _) ?_ (by decide) ?_ hitems
      · rw [skipSpace_lineBreak, quoteText_append, skipSpace_cons rfl]
      · rw [quoteText_append y.toList]
        exact ⟨x.toList.flatMap escapeChar ++ '"' :: ',' :: lineBreak level, by simp⟩

theorem readStrings_wide (l : List String) (level : Nat) (s : Text) :
    readStrings (' ' :: ((Value.strings l).wide level ++ s)) = .ok (l, s) := by
  cases l with
  | nil =>
      rw [Value.strings, List.map_nil, Value.wide]
      rfl
  | cons x xs =>
      have hitems := readItems_wide (level + 1) level x xs s
      rw [quoteText_append] at hitems
      rw [Value.strings, List.map_cons, Value.wide, Value.wide]
      simp only [List.append_assoc, List.cons_append, List.nil_append]
      have hopen (u : Text) : skipSpace (' ' :: '[' :: u) = '[' :: u := rfl
      simp only [readStrings, hopen, skipSpace_lineBreak, quoteText_append]
      rw [skipSpace_cons rfl]
      exact hitems

theorem wide_strings (l : List String) (level : Nat) :
    ∃ t, (Value.strings l).wide level = '[' :: t := by
  cases l with
  | nil => exact ⟨[']'], by rw [Value.strings, List.map_nil, Value.wide]⟩
  | cons x xs => exact ⟨_, by rw [Value.strings, List.map_cons, Value.wide]; rfl⟩

theorem readStrings?_wide (l? : Option (List String)) (level : Nat) (s : Text) :
    readStrings? (' ' :: (((l?.map Value.strings).getD .null).wide level ++ s)) =
      .ok (l?, s) := by
  cases l? with
  | none =>
      rw [Option.map_none, Option.getD_none, Value.wide]
      show (readWord ['u', 'l', 'l'] (['u', 'l', 'l'] ++ s) >>= _) = _
      rw [readWord_append]
      rfl
  | some l =>
      have hlist := readStrings_wide l level s
      obtain ⟨t, ht⟩ := wide_strings l level
      rw [Option.map_some, Option.getD_some, ht]
      rw [ht] at hlist
      show (readStrings (' ' :: ('[' :: t ++ s)) >>= _) = _
      rw [hlist]
      rfl

theorem readColon_cons (s : Text) : readColon (':' :: s) = .ok s := rfl

end MdxMend.Json
