import StreamTyping.Session.Pipeline

/-!
# Reports

A `Report` is what a check tells the user: its status, its diagnostics, the
type of every stream and the edges out of every stream.

* `Session.report` collects it from a session.
* `Report.text` writes it as an indented data text, and `Report.summary` as
  lines for people.
* `check` runs a whole check on a list of events.
-/

namespace StreamTyping

/-- An edge as a report tells it: its operator and the name of its target. -/
structure EdgeRecord where
  operator : Operator
  weak : Bool
  child : String
deriving DecidableEq

/-- What a check tells the user. -/
@[ext] structure Report where
  status : Status
  /-- The headlines of the diagnostics. -/
  errors : List String
  /-- The types of the streams that have one. -/
  types : Dict Descriptor
  /-- The edges out of the streams that have some. -/
  graph : Dict (List EdgeRecord)
deriving DecidableEq

/-- The edges out of a stream, as a report tells them. -/
def Graph.edgeRecords (g : Graph) (s : Stream) : List EdgeRecord :=
  (g.childEdges s).filterMap fun e =>
    (g.stream? e.target).map fun t => ⟨e.operator, e.weak, t.name⟩

/-- The types of the streams of a graph. -/
def Graph.types (g : Graph) : Dict Descriptor :=
  Dict.ofList (g.streams.filterMap fun s => s.resolved?.map fun d => (s.name, d))

/-- The edges of a graph by the names of their sources. -/
def Graph.adjacency (g : Graph) : Dict (List EdgeRecord) :=
  Dict.ofList ((g.streams.map fun s => (s.name, g.edgeRecords s)).filter fun p => !p.2.isEmpty)

/-- The report of a session. -/
def Session.report (s : Session) : Report where
  status := s.status
  errors := s.diagnostics.map (·.headline)
  types := s.graph.types
  graph := s.graph.adjacency

/-- Runs a whole check on a list of events. -/
def check (events : List Event) (order : Order) : Except Violation Report :=
  match ({ order } : Session).pipeline events .verify with
  | (_, _, some violation) => .error violation
  | (s, _, none) => .ok s.report

namespace EdgeRecord

/-- The value that an edge is written as. -/
def toJson (e : EdgeRecord) : Json :=
  .object [("kind", e.operator.toJson), ("weak", .bool e.weak), ("child", .text e.child)]

end EdgeRecord

namespace Report

/-- The check found nothing wrong. -/
def isSuccess (r : Report) : Bool := r.status = .success

/-- The value that a report is written as. -/
def toJson (r : Report) : Json :=
  .object
    [ ("status", r.status.toJson),
      ("errors", .array (r.errors.map .text)),
      ("types", .ofEntries Descriptor.toJson r.types.entries),
      ("graph", .ofEntries (fun edges => .array (edges.map (·.toJson))) r.graph.entries) ]

/-- A report as an indented data text. -/
def text (r : Report) : String := r.toJson.render .indented

/-- A report as lines for people: the status, the diagnostics and the types. -/
def summary (r : Report) : String :=
  s!"status: {r.status.name} ({r.errors.length} errors, {r.types.size} typed streams)\n" ++
    String.join (r.errors.map fun e => s!"  {e}\n") ++
    String.join (r.types.entries.map fun p => s!"  {p.1}: {p.2.text}\n")

end Report

end StreamTyping
