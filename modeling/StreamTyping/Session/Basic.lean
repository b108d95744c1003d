import StreamTyping.Diagnostic
import StreamTyping.Graph.Propagation

/-!
# Sessions

A `Session` is the state of a check: the graph that has been built so far, the
diagnostics raised so far, and how far the check has come. Nothing that was
added to a session is ever taken away from it.
-/

namespace StreamTyping

/-- How a check stands. -/
inductive Status where
  /-- The graph has not been verified. -/
  | pending
  | fail
  | success
deriving DecidableEq, Repr

namespace Status

/-- The name of a status. -/
def name : Status → String
  | pending => "pending"
  | fail => "fail"
  | success => "success"

/-- All states, in the order in which messages list them. -/
def all : List Status := [pending, fail, success]

/-- The value that a status is written as. -/
def toJson (s : Status) : Json := .text s.name

/-- Reads a status. -/
def reader : Reader Status := .choice (all.map fun s => (s.name, s))

end Status

/-- The state of a check. -/
structure Session where
  /-- The order in which waiting streams have their turn. -/
  order : Order := .lifo
  graph : Graph := {}
  diagnostics : List Diagnostic := []
  status : Status := .pending
  /-- What the last propagation took, if the pipeline ran one. -/
  propagation : Option PropagationStats := none
deriving DecidableEq

namespace Session

/-- Adds diagnostics. -/
def raise (s : Session) (diagnostics : List Diagnostic) : Session :=
  { s with diagnostics := s.diagnostics ++ diagnostics }

/-- Adds a finding. -/
def note (s : Session) (finding : Finding) : Session := s.raise [finding.diagnostic]

end Session

end StreamTyping
