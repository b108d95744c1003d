import StreamTyping.Session.Pipeline

/-!
# What the command asks of its surroundings

The command reads a file, writes a file or to the standard output, reports
failures and diagnostics on the standard error, and makes entries in a log. A
`System` does these things in a monad of its own, so the command is written
once for all of them.

* Files may fail to be read and to be written, with an error in the words of
  the system. The standard output and the standard error may refuse a text.
* The log tells how a check proceeds, down to the passes and to what they raise;
  the single streams, edges and types have no entries. A system shows the
  entries from some level on, apart from the lines that report diagnostics.
-/

namespace StreamTyping

/-- Why a file can not be read or written. -/
inductive FileError where
  /-- The file can not be opened, read or written, in the words of the system. -/
  | system (words : String)
  /-- The content is no text. -/
  | notText
deriving DecidableEq, Repr

/-- The text of a file error. -/
def FileError.message : FileError → String
  | system words => words
  | notText => "stream did not contain valid UTF-8"

/-- How much an entry of the log matters. -/
inductive LogLevel where
  | debug
  | info
deriving DecidableEq, Repr

/-- A log that is kept from a level on shows the entries of another one. -/
def LogLevel.shows : (threshold level : LogLevel) → Bool
  | debug, _ => true
  | info, level => level = info

/-- An entry of the log. -/
inductive LogEntry where
  | loaded (events : Nat) (source : String)
  | raised (diagnostic : Diagnostic)
  | passed (pass : Pass) (streams edges : Nat)
  | converged (stats : PropagationStats)
  | finished (status : Status) (streams : Nat)

namespace LogEntry

/-- The level of an entry: only the end of a check is of general interest. -/
def level : LogEntry → LogLevel
  | loaded .. | raised .. | passed .. | converged .. => .debug
  | finished .. => .info

/-- The text of an entry. -/
def text : LogEntry → String
  | loaded events source => s!"loaded events events={events} source={source}"
  | raised diagnostic => s!"{diagnostic.message} code={diagnostic.kind.code}"
  | passed pass streams edges =>
    s!"{pass.name} complete ({streams} streams, {edges} edges) invariants=\"{pass.invariants}\""
  | converged stats =>
    s!"propagation converged iterations={stats.iterations} additions={stats.additions}"
  | finished status streams => s!"check finished status={status.name} streams={streams}"

end LogEntry

/-- What the command asks of its surroundings. -/
structure System (m : Type → Type) where
  /-- The content of a file. -/
  read : String → m (Except FileError ByteArray)
  /-- Puts a text into a file, which is made if it has to be. -/
  write : String → String → m (Except FileError Unit)
  /-- Puts a text on the standard output, unless that refuses it. -/
  print : String → m Bool
  /-- Puts a text on the standard error, unless that refuses it. -/
  complain : String → m Bool
  /-- Makes an entry in the log, which the command wants to be kept from a level on. -/
  log : LogLevel → LogEntry → m Unit

end StreamTyping
