/-!
# Log entries

What happens on the way to a result is part of the result: every operation that has something to
say gives a list of entries, in order. Which of them a reader sees is decided where they are shown,
by a filter on their level, on where they come from and on what they say.
-/

namespace MdxMend

/-- How important a log entry is. -/
inductive Level where
  | error
  | warn
  | info
  | debug
  | trace
deriving DecidableEq, Repr

namespace Level

/-- The level as it is written in a log. -/
def label : Level → String
  | error => "ERROR"
  | warn => "WARN"
  | info => "INFO"
  | debug => "DEBUG"
  | trace => "TRACE"

/-- The more important a level, the smaller its rank. -/
def rank : Level → Nat
  | error => 1
  | warn => 2
  | info => 3
  | debug => 4
  | trace => 5

end Level

/-- What an entry is about: the run as a whole, the repair of a text, the rules in it, the discovery
of files, one of them, settings, or a failure that was got over. -/
inductive Topic where
  | run
  | repair
  | rules
  | discovery
  | file
  | settings
  | failure
deriving DecidableEq, Repr

/-- A log entry. -/
structure Entry where
  level : Level
  topic : Topic
  message : String
deriving DecidableEq, Repr

/-- Entries in the order in which they arose. -/
abbrev Log := List Entry

namespace Entry

/-- The entry as one line. -/
def line (e : Entry) : String := e.level.label ++ " " ++ e.message

def error (topic : Topic) (message : String) : Entry := ⟨.error, topic, message⟩
def warn (topic : Topic) (message : String) : Entry := ⟨.warn, topic, message⟩
def info (topic : Topic) (message : String) : Entry := ⟨.info, topic, message⟩
def debug (topic : Topic) (message : String) : Entry := ⟨.debug, topic, message⟩

end Entry

end MdxMend
