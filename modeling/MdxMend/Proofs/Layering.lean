import MdxMend.CommandLine.Flags
import MdxMend.Proofs.Sanitized
import MdxMend.Proofs.Saving

/-!
# Flags layered over settings

What flags make of settings is sanitized, so the rules of a run are chosen by trimmed names, and a
name that is left empty chooses nothing, as no rule has it.

Flags can be layered a second time over what came out, as they are when a command that saves its
settings is repeated. What they replace they replace by the same, and what they add is there
already: cleaning keeps of a repeated name the first, so names that are added behind a list that
holds them leave no trace (`Clean.cleanNames_append`). Only extensions can still change, because
sanitizing them twice may.
-/

namespace MdxMend

open Text

/-- Whether a rule is asked for: among the rules that flags enable if they enable any, and otherwise
among those that settings enable. If neither do, every rule is. -/
def Flags.AsksFor (f : Flags) (s : Settings) (name : String) : Prop :=
  match f.enable, s.enable with
  | some names, _ => name ∈ names.map trimmed
  | none, some names => name ∈ names.map trimmed
  | none, none => True

/-- Settings that differ at most in their extensions. -/
def Settings.Alike (s s' : Settings) : Prop := s = { s' with extensions := s.extensions }

theorem mem_cleanNames_of_ne {names : List String} {n : String} (h : n ≠ "") :
    n ∈ cleanNames names ↔ n ∈ names.map trimmed := by
  rw [mem_cleanNames, List.mem_map]
  exact and_iff_right h

section Active

variable {r : Rule} {names disable : List String}

theorem Rule.isActive_some :
    r.isActive (some names) disable = true ↔ r.name ∈ names ∧ r.name ∉ disable := by
  simp [isActive]

theorem Rule.isActive_none (h : r.enabledByDefault = true) :
    r.isActive none disable = true ↔ r.name ∉ disable := by
  simp [isActive, h]

end Active

namespace Flags

variable (f : Flags) (s : Settings)

/-! ## The rules of a run -/

theorem disable_applyTo {n : String} (h : n ≠ "") :
    n ∉ (f.applyTo s).disable ↔ n ∉ s.disable.map trimmed ∧ n ∉ f.disable.map trimmed := by
  show n ∉ cleanNames (s.disable ++ f.disable) ↔ _
  rw [mem_cleanNames_of_ne h, List.map_append, List.mem_append, not_or]

theorem enable_applyTo : (f.applyTo s).enable = (f.enable.or s.enable).map cleanNames := rfl

theorem isActive_applyTo {r : Rule} (hname : r.name ≠ "") (hdefault : r.enabledByDefault = true) :
    r.isActive (f.applyTo s).enable (f.applyTo s).disable = true ↔
      f.AsksFor s r.name ∧ r.name ∉ s.disable.map trimmed ∧ r.name ∉ f.disable.map trimmed := by
  rw [← disable_applyTo f s hname, enable_applyTo]
  unfold AsksFor
  cases f.enable with
  | some names =>
      rw [Option.some_or, Option.map_some, Rule.isActive_some, mem_cleanNames_of_ne hname]
  | none =>
      rw [Option.none_or]
      cases s.enable with
      | some names => rw [Option.map_some, Rule.isActive_some, mem_cleanNames_of_ne hname]
      | none => rw [Option.map_none, Rule.isActive_none hdefault, true_and]

theorem name_ne_empty_of_builtin :
    ∀ r ∈ Builtin.rules, r.name ≠ "" ∧ r.enabledByDefault = true := by
  decide

/-- A built-in rule runs if it is asked for and neither settings nor flags take it away. -/
theorem mem_activeRules_iff {r : Rule} (hr : r ∈ Builtin.rules) :
    r ∈ (f.applyTo s).toOptions.activeRules ↔
      f.AsksFor s r.name ∧ r.name ∉ s.disable.map trimmed ∧ r.name ∉ f.disable.map trimmed := by
  obtain ⟨hname, hdefault⟩ := name_ne_empty_of_builtin r hr
  rw [← isActive_applyTo f s hname hdefault]
  exact List.mem_filter.trans (and_iff_right hr)

/-! ## Flags that are repeated -/

/-- Names that are added to the clean list that they are already in leave it as it is. -/
theorem cleanNames_append_again (names added : List String) :
    cleanNames (cleanNames (names ++ added) ++ added) = cleanNames (names ++ added) := by
  refine (clean_cleanNames _).cleanNames_append fun n hn => ?_
  by_cases hempty : trimmed n = ""
  · exact .inl hempty
  · exact .inr (mem_cleanNames.mpr ⟨hempty, n, List.mem_append_right _ hn, rfl⟩)

theorem enable_again (asked kept : Option (List String)) :
    (asked.or ((asked.or kept).map cleanNames)).map cleanNames =
      (asked.or kept).map cleanNames := by
  cases asked with
  | some names => rfl
  | none => exact map_cleanNames_again kept

variable {f s} in
/-- Flags change nothing in settings that they have been layered over, whatever has become of the
extensions in the meantime. -/
theorem applyTo_alike {n : Settings} (h : n.Alike (f.applyTo s)) :
    (f.applyTo n).Alike (f.applyTo s) := by
  unfold Settings.Alike at h
  generalize n.extensions = extensions at h
  subst h
  show Settings.mk _ _ _ _ _ _ = Settings.mk _ _ _ _ _ _
  rw [Settings.mk.injEq]
  refine ⟨enable_again f.enable s.enable, cleanNames_append_again s.disable f.disable, ?_, ?_, rfl,
    cleanNames_cleanNames s.ignored⟩
  · show (s.keepCode && !f.repairCode && !f.repairCode) = (s.keepCode && !f.repairCode)
    rw [Bool.and_assoc, Bool.and_self]
  · show (s.debug || f.debug || f.debug) = (s.debug || f.debug)
    rw [Bool.or_assoc, Bool.or_self]

theorem sanitize_alike : (f.applyTo s).sanitize.Alike (f.applyTo s) := by
  show Settings.mk _ _ _ _ _ _ = Settings.mk _ _ _ _ _ _
  rw [Settings.mk.injEq]
  exact ⟨map_cleanNames_again _, cleanNames_cleanNames _, rfl, rfl, rfl, cleanNames_cleanNames _⟩

/-- Flags layered over settings choose the built-in rules by trimmed names: those that are asked for
and not taken away. Layered once more, over what came out or over what is loaded from a file that it
was saved in, the same flags change nothing but extensions. -/
theorem applyTo_again (f : Flags) (s : Settings) :
    let n := f.applyTo s
    (∀ r ∈ Builtin.rules, r ∈ n.toOptions.activeRules ↔
      f.AsksFor s r.name ∧ r.name ∉ s.disable.map trimmed ∧ r.name ∉ f.disable.map trimmed) ∧
    (f.applyTo n).Alike n ∧
    ∀ (store : Store) (p : Path), store.readText p = .ok n.print →
      ∃ loaded, (Settings.load store p).1 = .ok loaded ∧ (f.applyTo loaded).Alike n := by
  intro n
  refine ⟨fun r hr => mem_activeRules_iff f s hr, applyTo_alike rfl, fun store p hp => ?_⟩
  exact ⟨n.sanitize, Settings.load_of_readText hp, applyTo_alike (sanitize_alike f s)⟩

/-- Names with blanks, repeated, unknown and empty ones, and a rule that is both asked for and taken
away. The extension that hides a dot is all that changes when the settings are saved and the flags
are given again. -/
theorem applyTo_again_blanks :
    let f : Flags := {
      enable := some [" less-than-digit", "greater-than-digit", "no-such-rule", ""]
      disable := ["greater-than-digit ", "\t"] }
    let s : Settings := {
      enable := some ["invalid-tag-names"]
      disable := [" invalid-tag-names", "greater-than-digit"], extensions := [". .md"] }
    let n := f.applyTo s
    let store : Store := { nodes := [(["config.json"], .file (toBytes n.print))] }
    Builtin.lessDigit ∈ n.toOptions.activeRules ∧ Builtin.greaterDigit ∉ n.toOptions.activeRules ∧
      n.disable = ["invalid-tag-names", "greater-than-digit"] ∧
      store.readText Settings.fileName = .ok n.print ∧
      ∃ loaded, (Settings.load store Settings.fileName).1 = .ok loaded ∧
        (f.applyTo loaded).Alike n ∧ f.applyTo n ≠ n := by
  intro f s n store
  obtain ⟨hrules, -, hload⟩ := applyTo_again f s
  have hless : Builtin.lessDigit ∈ Builtin.rules := .tail _ (.head _)
  have hgreater : Builtin.greaterDigit ∈ Builtin.rules := .tail _ (.tail _ (.tail _ (.head _)))
  have hfile : store.readText Settings.fileName = .ok n.print :=
    Store.readText_ok_iff.mpr
      ⟨_, Settings.isPlain_fileName.resolve_taken rfl rfl (by simp), rfl⟩
  obtain ⟨loaded, hloaded, hsame⟩ := hload store Settings.fileName hfile
  refine ⟨(hrules _ hless).mpr ?_, fun hmem => ?_, by decide, hfile, loaded, hloaded, hsame,
    by decide⟩
  · unfold AsksFor
    decide
  · exact absurd ((hrules _ hgreater).mp hmem).2.1 (by decide)

end Flags

end MdxMend
