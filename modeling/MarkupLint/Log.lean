import MarkupLint.File.Content

/-!
# The log

What a run tells about itself, apart from what it reports. Events are kept as data, in the order in
which they happen; which of them are shown depends on their levels.
-/

namespace MarkupLint

namespace Log

/-- How important an event is. -/
inductive Level where
  | debug
  | info
  | warning
  | error
deriving DecidableEq, Repr

namespace Level

/-- The rank of a level; the more important, the higher. -/
def rank : Level → Nat
  | debug => 0
  | info => 1
  | warning => 2
  | error => 3

/-- The name of a level. -/
def name : Level → String
  | debug => "DEBUG"
  | info => "INFO"
  | warning => "WARNING"
  | error => "ERROR"

end Level

/-- Something that happened in a run. -/
inductive Event where
  /-- A tag start was found that is never ended. -/
  | unterminated (tagStart : String) (offset : Nat)
  /-- A rule has reported as many diagnostics. -/
  | ruleDone (rule : String) (count : Nat)
  /-- A run gave up with as many diagnostics. -/
  | aborted (count : Nat)
  /-- A file could not be read. -/
  | unreadable (path : String) (cause : ReadFault)
deriving DecidableEq, Repr

namespace Event

/-- How important an event is. -/
def level : Event → Level
  | unterminated _ _ => .debug
  | ruleDone _ _ => .debug
  | aborted _ => .error
  | unreadable _ _ => .error

/-- The part of the program that an event comes from. -/
def channel : Event → String
  | unterminated _ _ => "htmlint.lexer.scanner"
  | ruleDone _ _ => "htmlint.lint.runner"
  | aborted _ => "htmlint.lint.runner"
  | unreadable _ _ => "htmlint.cli"

/-- What an event says. -/
def message : Event → String
  | unterminated tagStart offset =>
    "Unterminated tag `" ++ tagStart ++ "` at offset " ++ toString offset
  | ruleDone rule count => "Rule " ++ rule ++ " produced " ++ toString count ++ " diagnostic(s)"
  | aborted count =>
    "Validation aborted after " ++ toString count ++ " diagnostic(s); returning partial results"
  | unreadable path cause => "Cannot read " ++ path ++ ": " ++ cause.message path

/-- A line of the log with the given text. -/
def lineWith (event : Event) (text : String) : String :=
  event.level.name ++ " " ++ event.channel ++ ": " ++ text

/-- The line of an event in the log. -/
def line (event : Event) : String := event.lineWith event.message

end Event

/-- The events that are at least as important as `least`. -/
def atLeast (least : Level) (events : List Event) : List Event :=
  events.filter fun event => least.rank ≤ event.level.rank

end Log

end MarkupLint
