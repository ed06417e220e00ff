import MdxMend.Pattern.Reader
import MdxMend.Rule.Basic
import MdxMend.Log

/-!
# Failures

Repairing a text never fails. What can fail is what surrounds it: reading and writing files,
keeping settings, and reading the pattern of a rule. A failure holds its cause; how it is reported
is decided here, once.
-/

namespace MdxMend

/-- Why a file operation failed. -/
inductive IoCause where
  | notFound
  | notAFolder
  | isAFolder
  | busy
  | alreadyThere
  | linkLoop
  | nameTooLong
  | nulInName
  | noAccess
  | noRoom
  | notText
  | other (text : String)
deriving DecidableEq, Repr

namespace IoCause

/-- The report of the operating system. -/
def message : IoCause → String
  | notFound => "No such file or directory (os error 2)"
  | notAFolder => "Not a directory (os error 20)"
  | isAFolder => "Is a directory (os error 21)"
  | busy => "Device or resource busy (os error 16)"
  | alreadyThere => "File exists (os error 17)"
  | linkLoop => "Too many levels of symbolic links (os error 40)"
  | nameTooLong => "File name too long (os error 36)"
  | nulInName => "file name contained an unexpected NUL byte"
  | noAccess => "Permission denied (os error 13)"
  | noRoom => "No space left on device (os error 28)"
  | notText => "stream did not contain valid UTF-8"
  | other text => text

end IoCause

/-- What can go wrong around a repair. -/
inductive Failure where
  | read (path : String) (cause : IoCause)
  | write (path : String) (cause : IoCause)
  | load (path : String) (cause : IoCause)
  | save (path : String) (cause : IoCause)
  | format (message : String) (source : Option String)
  | noSettingsFolder
  | badPattern (rule : String) (source : String) (flaw : Pattern.Flaw)
deriving DecidableEq, Repr

namespace Failure

/-- The report of a failure. -/
def message : Failure → String
  | read path cause => "Failed to read '" ++ path ++ "': " ++ cause.message
  | write path cause => "Failed to write '" ++ path ++ "': " ++ cause.message
  | load path cause => "Failed to load configuration from '" ++ path ++ "': " ++ cause.message
  | save path cause => "Failed to save configuration to '" ++ path ++ "': " ++ cause.message
  | format message _ => "Invalid configuration format: " ++ message
  | noSettingsFolder => "Configuration directory not found"
  | badPattern rule source flaw =>
    "Invalid pattern for rule '" ++ rule ++ "': " ++ flaw.report source.toList

/-- The report of the cause behind a failure, if there is one. -/
def source? : Failure → Option String
  | read _ cause | write _ cause | load _ cause | save _ cause => some cause.message
  | format _ source => source
  | noSettingsFolder => none
  | badPattern _ source flaw => some (flaw.report source.toList)

end Failure

/-- A result, or in place of a failure a default and a warning. -/
def orWarn {α : Type} (default : α) (context : String) : Except Failure α → α × Log
  | .ok a => (a, [])
  | .error e => (default, [.warn .failure (context ++ ": " ++ e.message ++ ". Using default.")])

/-- A rule with a pattern as written. -/
def Rule.ofSource (name description source : String) (replacement : Replacement) :
    Except Failure Rule :=
  match Pattern.ofSource source with
  | .ok pattern => .ok { name, description, pattern, replacement }
  | .error flaw => .error (.badPattern name source flaw)

end MdxMend
