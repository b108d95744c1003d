import StreamTyping.CommandLine.Options
import StreamTyping.CommandLine.System
import StreamTyping.Event.Wire
import StreamTyping.Graph.Drawing
import StreamTyping.Report.Basic

/-!
# Runs of the command

What the command prints and writes, and the code it exits with.

* `Options.plan` works out from the content of the event file what is to be
  said and written; nothing is written if the file can not be read or its
  events violate the protocol.
* `runCommand` carries a plan out in a `System`.

The exit code is 0 if nothing is wrong with the program that is checked or
only its graph is drawn, 1 if something is wrong with it, and 2 if the command
itself fails. A run is aborted with 101 as soon as the standard output or the
standard error refuses a text.
-/

namespace StreamTyping

/-- How the command names itself. -/
def commandName : String := "streamck"

/-- What `--version` prints. -/
def versionText : String := "streamck 0.1.0\n"

/-- What `-h` prints. -/
def helpText : String :=
  "Stream type checker: verifies one consistent type flows through every stream\n\n" ++
  "Usage: streamck [OPTIONS] <EVENTS>\n\n" ++
  "Arguments:\n" ++
  "  <EVENTS>  Scanner event file (JSON array of declare/invoke events)\n\n" ++
  "Options:\n" ++
  "  -o, --output <OUTPUT>  Output file path (`-` for stdout) [default: streams_types.json]\n" ++
  "      --emit <EMIT>      Output stage [default: report] " ++
    "[possible values: report, dot, summary]\n" ++
  "      --order <ORDER>    Propagation worklist discipline [default: lifo] " ++
    "[possible values: lifo, fifo]\n" ++
  "      --verbose          Log every phase at debug level\n" ++
  "  -h, --help             Print help (see more with '--help')\n" ++
  "  -V, --version          Print version\n"

/-- What `--help` prints. -/
def longHelpText : String :=
  "Stream type checker: verifies one consistent type flows through every stream\n\n" ++
  "Usage: streamck [OPTIONS] <EVENTS>\n\n" ++
  "Arguments:\n" ++
  "  <EVENTS>\n" ++
  "          Scanner event file (JSON array of declare/invoke events)\n\n" ++
  "Options:\n" ++
  "  -o, --output <OUTPUT>\n" ++
  "          Output file path (`-` for stdout)\n" ++
  "          \n" ++
  "          [default: streams_types.json]\n\n" ++
  "      --emit <EMIT>\n" ++
  "          Output stage\n\n" ++
  "          Possible values:\n" ++
  "          - report:  JSON report (status, errors, types, graph)\n" ++
  "          - dot:     Graphviz rendering of the propagated graph\n" ++
  "          - summary: Human-readable summary\n" ++
  "          \n" ++
  "          [default: report]\n\n" ++
  "      --order <ORDER>\n" ++
  "          Propagation worklist discipline\n" ++
  "          \n" ++
  "          [default: lifo]\n" ++
  "          [possible values: lifo, fifo]\n\n" ++
  "      --verbose\n" ++
  "          Log every phase at debug level\n\n" ++
  "  -h, --help\n" ++
  "          Print help (see a summary with '-h')\n\n" ++
  "  -V, --version\n" ++
  "          Print version\n"

/-- Why the command fails. -/
inductive CommandError where
  | file (path : String) (error : FileError)
  | events (path : String) (error : ReadError)
  | violation (violation : Violation)
deriving DecidableEq

/-- The text of a failure. -/
def CommandError.message : CommandError → String
  | file path error => s!"{path}: {error.message}"
  | events path error => s!"{path}: malformed event file: {error.message}"
  | violation v => s!"scanner protocol violation: {v.message}"

/-- The line that reports a failure. -/
def CommandError.line (e : CommandError) : String := s!"{commandName}: error: {e.message}\n"

/-- The line that reports a diagnostic. -/
def Diagnostic.line (d : Diagnostic) : String := s!"{commandName}: {d.text}\n"

/-- What the command says before it writes: a line of its own, or an entry of the log. -/
inductive Message where
  | line (text : String)
  | entry (entry : LogEntry)

/-- What is said about a pass: first the log tells what it raised and that it is complete, and
then every diagnostic is reported. -/
def PassRun.messages (g : Graph) (run : PassRun) : List Message :=
  run.raised.map (.entry <| .raised ·) ++
  .entry (.passed run.pass g.streams.length g.edges.length) ::
  run.raised.map (.line ·.line)

/-- What comes of a check. -/
structure Outcome where
  /-- What is to be written. -/
  text : String
  /-- What is logged when it has been written. -/
  closing : List LogEntry
  /-- The exit code, if the writing succeeds. -/
  exitCode : Nat

/-- What is to be said and written. -/
structure Plan where
  messages : List Message
  /-- Nothing is written after a failure. -/
  outcome : Except CommandError Outcome

namespace Options

/-- The last pass that has to run. -/
def terminal (o : Options) : Pass :=
  match o.emit with
  | .dot => .propagate
  | .report | .summary => .verify

/-- The level from which on the log is kept. -/
def logLevel (o : Options) : LogLevel := if o.verbose then .debug else .info

/-- What a session looks like in the form that is asked for. -/
def render (o : Options) (s : Session) : String :=
  match o.emit with
  | .dot => s.graph.drawing
  | .report => s.report.text ++ "\n"
  | .summary => s.report.summary

/-- The events in the content of a file. -/
def load (o : Options) (content : Except FileError ByteArray) : Except CommandError (List Event) :=
  match content with
  | .error error => .error (.file o.events error)
  | .ok bytes =>
    match String.fromUTF8? bytes with
    | none => .error (.file o.events .notText)
    | some text => (Event.parseList text).mapError (.events o.events)

/-- What is said about passes that have run, and about one that a violation has ended. -/
def messages (o : Options) (events : List Event) (s : Session) (runs : List PassRun) :
    List Message :=
  let unfinished := s.diagnostics.drop (runs.flatMap (·.raised)).length
  .entry (.loaded events.length o.events) :: runs.flatMap (·.messages s.graph) ++
    unfinished.map (.entry <| .raised ·)

/-- What comes of a check that ends with a session. -/
def outcome (o : Options) (s : Session) : Outcome where
  text := o.render s
  closing := (s.propagation.map .converged).toList ++ [.finished s.status s.graph.streams.length]
  exitCode := if o.emit = .dot ∨ s.diagnostics = [] then 0 else 1

/-- Works out what is to be said and written from what was read. -/
def plan (o : Options) (content : Except FileError ByteArray) : Plan :=
  match o.load content with
  | .error error => ⟨[], .error error⟩
  | .ok events =>
    match ({ order := o.order } : Session).pipeline events o.terminal with
    | (s, runs, some violation) => ⟨o.messages events s runs, .error (.violation violation)⟩
    | (s, runs, none) => ⟨o.messages events s runs, .ok (o.outcome s)⟩

end Options

/-! ## In a system -/

/-- The exit code of a run that is aborted. -/
def abortCode : Nat := 101

section Runs

variable {m : Type → Type} [Monad m]

/-- Goes on with a run if a text has been taken. -/
def unlessRefused (taken : m Bool) (next : m Nat) : m Nat := do
  if ← taken then next else return abortCode

namespace System

/-- Says one thing after another, unless the system refuses one of them. -/
def tell (system : System m) (level : LogLevel) : List Message → m Bool
  | [] => return true
  | .line text :: rest => do
    if ← system.complain text then system.tell level rest else return false
  | .entry entry :: rest => do
    system.log level entry
    system.tell level rest

/-- Reports a failure, and exits. -/
def fail (system : System m) (error : CommandError) : m Nat :=
  unlessRefused (system.complain error.line) (return 2)

/-- Gives the information that was asked for, whether or not it is taken. -/
def inform (system : System m) (text : String) : m Nat := do
  let _ ← system.print text
  return 0

/-- Ends a run before it starts. -/
def halt (system : System m) : Halt → m Nat
  | .help => system.inform helpText
  | .longHelp => system.inform longHelpText
  | .version => system.inform versionText
  | .usage error => do
    let _ ← system.complain <|
      s!"error: {error.message}\n\nUsage: {commandName} [OPTIONS] <EVENTS>\n\n" ++
        "For more information, try '--help'.\n"
    return 2

end System

namespace Options

/-- Ends a run that has written what was asked for. -/
def close (o : Options) (system : System m) (outcome : Outcome) : m Nat := do
  outcome.closing.forM (system.log o.logLevel)
  return outcome.exitCode

/-- Ends a run by what has come of the writing. -/
def settle (o : Options) (system : System m) (outcome : Outcome) : Except FileError Unit → m Nat
  | .error error => system.fail (.file o.output error)
  | .ok () => o.close system outcome

/-- Writes what was asked for to where it was asked for. -/
def deliver (o : Options) (system : System m) (outcome : Outcome) : m Nat :=
  if o.output = "-" then unlessRefused (system.print outcome.text) (o.close system outcome)
  else system.write o.output outcome.text >>= o.settle system outcome

/-- Carries a plan out. -/
def carryOut (o : Options) (system : System m) (plan : Plan) : m Nat :=
  unlessRefused (system.tell o.logLevel plan.messages) <|
    match plan.outcome with
    | .error error => system.fail error
    | .ok outcome => o.deliver system outcome

end Options

/-- Runs the command in a system, and gives the exit code. -/
def runCommand (system : System m) (arguments : List String) : m Nat := do
  match Options.parse arguments with
  | .error halt => system.halt halt
  | .ok o =>
    let content ← system.read o.events
    o.carryOut system (o.plan content)

end Runs

end StreamTyping
