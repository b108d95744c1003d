import StreamTyping.Session.Basic

/-!
# Verdicts

`Session.verify` looks at every stream: it should take at least one type, and
no two different ones. It raises a diagnostic for every breach, and the check
succeeds if no diagnostic has been raised at all.
-/

namespace StreamTyping

/-- The pairs of different types in a list, in the order of their first and then of
their second place. -/
def conflicts : List Attribution → List (Attribution × Attribution)
  | [] => []
  | a :: rest =>
    ((rest.filter fun b => a.descriptor ≠ b.descriptor).map fun b => (a, b)) ++ conflicts rest

/-- What is wrong with a stream. -/
def Stream.findings (s : Stream) : List Finding :=
  ((conflicts s.inputs).map fun p => .mismatch s.name p.1 p.2) ++
    if s.inputs.isEmpty then [.untyped s.name s.locator] else []

/-- What is wrong with the streams of a graph, one stream after another. -/
def Graph.findings (g : Graph) : List Finding := g.streams.flatMap (·.findings)

/-- Raises what is wrong with the graph, and decides the check. -/
def Session.verify (s : Session) : Session :=
  let s := s.raise (s.graph.findings.map (·.diagnostic))
  { s with status := if s.diagnostics.isEmpty then .success else .fail }

end StreamTyping
