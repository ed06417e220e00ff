import MdxMend.Settings.Basic
import MdxMend.Path

/-!
# Flags

Flags say what a single run is to do. They are layered over the user's settings: rules to run
replace those that are set, rules to skip are added to them, and a switch can only turn its setting
one way.
-/

namespace MdxMend

/-- What a single run is to do. -/
structure Flags where
  paths : List Path := []
  write : Bool := false
  check : Bool := false
  enable : Option (List String) := none
  disable : List String := []
  repairCode : Bool := false
  debug : Bool := false
  listRules : Bool := false
  json : Bool := false
  settingsFile? : Option Path := none
  statistics : Bool := false
  saveSettings : Bool := false
deriving DecidableEq, Repr

/-- Settings with flags layered over them, fit for use. -/
def Flags.applyTo (f : Flags) (s : Settings) : Settings :=
  { s with
    enable := f.enable.or s.enable
    disable := s.disable ++ f.disable
    keepCode := s.keepCode && !f.repairCode
    debug := s.debug || f.debug }.sanitize

end MdxMend
