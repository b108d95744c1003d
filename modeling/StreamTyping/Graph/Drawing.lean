import StreamTyping.Graph.Basic

/-!
# Drawings of graphs

`Graph.drawing` writes a graph in the DOT language: a box for every stream,
coloured by whether its types agree, and an arrow for every edge, dashed if it
is weak.
-/

namespace StreamTyping

/-- The fill colour of a stream. -/
inductive Colour where
  /-- The stream takes no type. -/
  | gray
  /-- The stream takes one type. -/
  | blue
  /-- The stream takes different types. -/
  | salmon
deriving DecidableEq, Repr

/-- The name of a colour. -/
def Colour.name : Colour → String
  | gray => "lightgray"
  | blue => "lightblue"
  | salmon => "lightsalmon"

/-- The colour of a stream. -/
def Stream.colour (s : Stream) : Colour :=
  match s.inputs with
  | [] => .gray
  | first :: rest =>
    if rest.all fun a => a.descriptor = first.descriptor then .blue else .salmon

/-- Puts a backslash in front of every occurrence of a character. -/
def escapeChar (c : Char) (text : List Char) : List Char :=
  text.flatMap fun d => if d = c then ['\\', c] else [d]

/-- A text inside a label: backslashes are escaped, and then quotes. -/
def labelText (s : String) : String :=
  String.ofList (escapeChar '"' (escapeChar '\\' s.toList))

/-- The label of a stream: its name and, on a second line, its type. -/
def Stream.label (s : Stream) : String :=
  match s.resolved? with
  | none => labelText s.name
  | some d => labelText s.name ++ "\\n" ++ labelText d.text

/-- The line that draws a stream. -/
def Stream.drawing (s : Stream) : String :=
  s!"    n{s.id} [shape=box, style=filled, fillcolor={s.colour.name}, label=\"{s.label}\"];\n"

/-- A double without an exponent. -/
def literalText (x : Float) : String :=
  if x.isNaN then "NaN"
  else if x.isInf then (if signBit x then "-inf" else "inf")
  else String.ofList (Numeral.plain x).chars

/-- The label of an edge: its operator and its literal. -/
def Edge.label (e : Edge) : String :=
  match e.literal with
  | none => e.operator.name
  | some x => s!"{e.operator.name}({literalText x})"

/-- How the line of an edge is drawn. -/
def Edge.style (e : Edge) : String :=
  if e.weak then ", style=dashed"
  else if e.operator = .into then ", style=bold, color=blue"
  else ""

/-- The line that draws an edge. -/
def Edge.drawing (e : Edge) : String :=
  s!"    n{e.source} -> n{e.target} [label=\"{e.label}\"{e.style}];\n"

/-- A graph in the DOT language. -/
def Graph.drawing (g : Graph) : String :=
  "digraph streams \x7b\n" ++
  "    rankdir=LR;\n" ++
  "    node [fontname=\"Helvetica\", fontsize=10];\n" ++
  "    edge [fontname=\"Helvetica\", fontsize=9];\n" ++
  "\n" ++
  String.join (g.streams.map (·.drawing)) ++
  (if g.edges.isEmpty then "" else "\n") ++
  String.join (g.edges.map (·.drawing)) ++
  "\x7d\n"

end StreamTyping
