import MdxMend.Repair
import MdxMend.Json.Value

/-!
# Settings

Settings hold what a user wants on every run: which rules run, whether code is kept, and which
files of a folder are looked at. They can be written by hand, so they are sanitized before use:
names are trimmed, empty and repeated ones are dropped, and an extension is written in lower case
and without its dot.
-/

namespace MdxMend

/-- The extensions of the files that are looked at in a folder, unless others are set. -/
def defaultExtensions : List String := ["md", "mdx", "markdown"]

/-- The names that are passed over in a folder, unless others are set. -/
def defaultIgnored : List String := ["node_modules", ".git", "target"]

/-- What a user wants on every run. -/
structure Settings where
  enable : Option (List String) := none
  disable : List String := []
  keepCode : Bool := true
  debug : Bool := false
  extensions : List String := defaultExtensions
  ignored : List String := defaultIgnored
deriving DecidableEq, Repr

/-- Names without the blanks around them, each once and none empty, in their order. -/
def cleanNames (names : List String) : List String :=
  ((names.map trimmed).filter (· != "")).eraseDups

/-- A string without the dots in front. -/
def withoutDots (s : String) : String := String.ofList (s.toList.dropWhile (· == '.'))

/-- A string in lower case. -/
def lowercased (s : String) : String := String.ofList (Text.lowercase s.toList)

namespace Settings

/-- Extensions as they are compared. If none is left the default ones are taken. -/
def cleanExtensions (extensions : List String) : List String :=
  let cleaned := cleanNames (extensions.map fun e => lowercased (withoutDots (trimmed e)))
  if cleaned.isEmpty then defaultExtensions else cleaned

/-- Settings made fit for use. -/
def sanitize (s : Settings) : Settings :=
  { s with
    enable := s.enable.map cleanNames
    disable := cleanNames s.disable
    extensions := cleanExtensions s.extensions
    ignored := cleanNames s.ignored }

/-- Whether files with an extension are looked at. The extension may be written in any case and
with a dot. -/
def handlesExtension (s : Settings) (extension : String) : Bool :=
  s.extensions.contains (lowercased (withoutDots extension))

/-- What a repair under the settings is to do. -/
def toOptions (s : Settings) : Options :=
  { enable := s.enable, disable := s.disable, keepCode := s.keepCode, debug := s.debug }

/-- Settings as a JSON value. -/
def toJson (s : Settings) : Json.Value :=
  .object [
    ("enable", (s.enable.map Json.Value.strings).getD .null),
    ("disable", .strings s.disable),
    ("preserve_code_blocks", .bool s.keepCode),
    ("debug", .bool s.debug),
    ("extensions", .strings s.extensions),
    ("ignored", .strings s.ignored)]

/-- Settings as they are kept in a file. -/
def print (s : Settings) : Text := s.toJson.wide 0

end Settings

end MdxMend
