import StreamTyping.Attribution
import StreamTyping.Operator

/-!
# Graphs of streams

A `Graph` holds streams and the edges between them, both in the order in which
they were added. A stream is known by its name and by its position, which is
its id; an edge is known by its position. Every stream lists the edges that
come in and go out, and an index leads from every name to an id.

* `Graph.lookup?` asks the index for a name.
* `Graph.intern` gives the stream of a name, which it adds to the streams and to
  the index if the name is new.
* `Graph.connect` adds an edge and lists it at both ends.
* `Graph.addInput` and `Graph.addOutput` attribute a type to a stream.

The operations that take ids change nothing where an id is out of range. The
forms with a question mark refuse such an id instead.

Ids are numbers without a bound. They stand for 32-bit words, so that graphs
with fewer than 2^32 streams and fewer than 2^32 edges are meant: no position in
such a graph is cut when it becomes an id.
-/

namespace StreamTyping

/-- The position of a stream in its graph. -/
abbrev StreamId := Nat

/-- The position of an edge in its graph. -/
abbrev EdgeId := Nat

/-- A stream: the types it takes and gives, and the edges at it. -/
structure Stream where
  id : StreamId
  name : String
  locator : Option Locator := none
  inputs : List Attribution := []
  outputs : List Attribution := []
  /-- The edges that come in. -/
  parents : List EdgeId := []
  /-- The edges that go out. -/
  children : List EdgeId := []
deriving DecidableEq

namespace Stream

/-- A type is among those the stream takes. -/
def hasInput (s : Stream) (d : Descriptor) : Bool :=
  s.inputs.any fun a => a.descriptor = d

/-- The type that a stream passes on: the first it gives, or else the first it takes. -/
def resolved? (s : Stream) : Option Descriptor :=
  (s.outputs.head? <|> s.inputs.head?).map (·.descriptor)

end Stream

/-- What an edge says beside its ends. -/
structure EdgeLabel where
  operator : Operator
  /-- A weak edge passes no types on. -/
  weak : Bool := false
  literal : Option Float := none
  locator : Option Locator := none
deriving DecidableEq

/-- An edge from a stream to a stream. -/
structure Edge extends EdgeLabel where
  id : EdgeId
  source : StreamId
  target : StreamId
deriving DecidableEq

/-- Streams and edges, in the order in which they were added, and an index of the streams. -/
structure Graph where
  streams : List Stream := []
  edges : List Edge := []
  /-- The ids of the streams by their names. -/
  index : Dict StreamId := {}
deriving DecidableEq

namespace Graph

/-- The stream with an id. -/
def stream? (g : Graph) (id : StreamId) : Option Stream := g.streams[id]?

/-- The edge with an id. -/
def edge? (g : Graph) (id : EdgeId) : Option Edge := g.edges[id]?

/-- The id of the stream with a name. -/
def lookup? (g : Graph) (name : String) : Option StreamId := g.index.get? name

/-- The stream with a name. -/
def byName? (g : Graph) (name : String) : Option Stream := g.lookup? name >>= g.stream?

/-- The stream with a name, which is added if there is none. A stream keeps the
place it was first added with. -/
def intern (g : Graph) (name : String) (locator : Option Locator) : Graph × StreamId :=
  match g.lookup? name with
  | some id => (g, id)
  | none =>
    let id := g.streams.length
    ({ g with
      streams := g.streams ++ [{ id, name, locator }]
      index := g.index.insert name id }, id)

/-- Changes the stream with an id. -/
def modify (g : Graph) (id : StreamId) (f : Stream → Stream) : Graph :=
  { g with streams := g.streams.modify id f }

/-- Adds an edge, and lists it at its source and its target. -/
def connect (g : Graph) (source target : StreamId) (label : EdgeLabel) : Graph :=
  let id := g.edges.length
  let edge : Edge := { toEdgeLabel := label, id, source, target }
  let g := { g with edges := g.edges ++ [edge] }
  let g := g.modify source fun s => { s with children := s.children ++ [id] }
  g.modify target fun s => { s with parents := s.parents ++ [id] }

/-- Attributes a type that the stream takes. -/
def addInput (g : Graph) (id : StreamId) (a : Attribution) : Graph :=
  g.modify id fun s => { s with inputs := s.inputs ++ [a] }

/-- Attributes a type that the stream gives. -/
def addOutput (g : Graph) (id : StreamId) (a : Attribution) : Graph :=
  g.modify id fun s => { s with outputs := s.outputs ++ [a] }

/-- The id is that of a stream. -/
def hasStream (g : Graph) (id : StreamId) : Bool := id < g.streams.length

/-- Adds an edge between two streams of the graph, and gives its id. -/
def connect? (g : Graph) (source target : StreamId) (label : EdgeLabel) :
    Option (Graph × EdgeId) :=
  if g.hasStream source ∧ g.hasStream target then
    some (g.connect source target label, g.edges.length)
  else none

/-- Attributes a type that a stream of the graph takes. -/
def addInput? (g : Graph) (id : StreamId) (a : Attribution) : Option Graph :=
  if g.hasStream id then some (g.addInput id a) else none

/-- Attributes a type that a stream of the graph gives. -/
def addOutput? (g : Graph) (id : StreamId) (a : Attribution) : Option Graph :=
  if g.hasStream id then some (g.addOutput id a) else none

/-- The edges that go out of a stream, in the order in which they were added. -/
def childEdges (g : Graph) (s : Stream) : List Edge := s.children.filterMap g.edge?

/-- The edges that come into a stream, in the order in which they were added. -/
def parentEdges (g : Graph) (s : Stream) : List Edge := s.parents.filterMap g.edge?

@[simp] theorem modify_edges (g : Graph) (id : StreamId) (f : Stream → Stream) :
    (g.modify id f).edges = g.edges := rfl

@[simp] theorem modify_index (g : Graph) (id : StreamId) (f : Stream → Stream) :
    (g.modify id f).index = g.index := rfl

@[simp] theorem length_modify (g : Graph) (id : StreamId) (f : Stream → Stream) :
    (g.modify id f).streams.length = g.streams.length := by
  simp [modify]

theorem stream?_modify (g : Graph) (id i : StreamId) (f : Stream → Stream) :
    (g.modify id f).stream? i = if id = i then (g.stream? i).map f else g.stream? i := by
  simp only [stream?, modify, List.getElem?_modify]
  split <;> simp

theorem stream?_addInput (g : Graph) (id i : StreamId) (a : Attribution) :
    (g.addInput id a).stream? i =
      if id = i then (g.stream? i).map fun s => { s with inputs := s.inputs ++ [a] }
      else g.stream? i :=
  stream?_modify g id i _

end Graph

end StreamTyping
