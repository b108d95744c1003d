import StreamTyping.Decimal.Shortest

/-!
# Data values and their text

`Json` is a value of the data format in which events and reports are written.
An object lists its members in order and may repeat a name.

* `Json.render` writes a value in a `Layout`: on one line without blanks, or
  indented by two blanks a level.
* `quoted` writes a string: only quotes, backslashes and control characters
  are escaped.
* `Json.depth` counts how deep arrays and objects nest.
-/

namespace StreamTyping

/-- A value of the data format. -/
inductive Json where
  | null
  | bool (value : Bool)
  | number (literal : Numeral)
  | text (content : String)
  | array (items : List Json)
  | object (members : List (String × Json))
deriving Repr, Inhabited

/-- A character inside a quoted string. -/
def escaped (c : Char) : List Char :=
  if c = '"' then ['\\', '"']
  else if c = '\\' then ['\\', '\\']
  else if c = '\x08' then ['\\', 'b']
  else if c = '\t' then ['\\', 't']
  else if c = '\n' then ['\\', 'n']
  else if c = '\x0c' then ['\\', 'f']
  else if c = '\r' then ['\\', 'r']
  else if c.toNat < 0x20 then
    ['\\', 'u', '0', '0', Nat.digitChar (c.toNat / 16), Nat.digitChar (c.toNat % 16)]
  else [c]

/-- A string between quotes. -/
def quoted (s : String) : List Char :=
  '"' :: (s.toList.flatMap escaped ++ ['"'])

/-- Joins texts with a separator between any two. -/
def separated (separator : List Char) : List (List Char) → List Char
  | [] => []
  | [text] => text
  | text :: rest => text ++ separator ++ separated separator rest

/-- Where blanks are put when a value is written. -/
inductive Layout where
  /-- No blanks at all. -/
  | compact
  /-- Every item on a line of its own, indented by two blanks a level. -/
  | indented
deriving DecidableEq, Repr

namespace Layout

/-- What stands before an item or a closing bracket at a level. -/
def newline : Layout → Nat → List Char
  | compact, _ => []
  | indented, level => '\n' :: List.replicate (2 * level) ' '

/-- What stands between the colon and the value of a member. -/
def gap : Layout → List Char
  | compact => []
  | indented => [' ']

/-- Brackets around the texts of the items inside them. -/
def enclose (layout : Layout) (level : Nat) (opening closing : Char) :
    List (List Char) → List Char
  | [] => [opening, closing]
  | texts =>
    opening :: (layout.newline (level + 1) ++
      separated (',' :: layout.newline (level + 1)) texts ++ layout.newline level ++ [closing])

end Layout

namespace Json

mutual

/-- The text of a value that stands at a level of indentation. -/
def chars (layout : Layout) (level : Nat) : Json → List Char
  | null => ['n', 'u', 'l', 'l']
  | bool true => ['t', 'r', 'u', 'e']
  | bool false => ['f', 'a', 'l', 's', 'e']
  | number literal => literal.chars
  | text content => quoted content
  | array items => layout.enclose level '[' ']' (itemTexts layout (level + 1) items)
  | object members =>
    layout.enclose level '\x7b' '\x7d' (memberTexts layout (level + 1) members)

/-- The texts of the items of an array. -/
def itemTexts (layout : Layout) (level : Nat) : List Json → List (List Char)
  | [] => []
  | item :: rest => chars layout level item :: itemTexts layout level rest

/-- The texts of the members of an object. -/
def memberTexts (layout : Layout) (level : Nat) : List (String × Json) → List (List Char)
  | [] => []
  | (name, value) :: rest =>
    (quoted name ++ ':' :: layout.gap ++ chars layout level value) ::
      memberTexts layout level rest

end

/-- The text of a value. -/
def render (layout : Layout) (value : Json) : String :=
  String.ofList (chars layout 0 value)

mutual

/-- How deep arrays and objects nest in a value. -/
def depth : Json → Nat
  | array items => depthItems items + 1
  | object members => depthMembers members + 1
  | null | bool _ | number _ | text _ => 0

/-- The depth of the deepest item. -/
def depthItems : List Json → Nat
  | [] => 0
  | item :: rest => max item.depth (depthItems rest)

/-- The depth of the deepest member. -/
def depthMembers : List (String × Json) → Nat
  | [] => 0
  | (_, value) :: rest => max value.depth (depthMembers rest)

end

/-- A natural number as a value. -/
def ofNat (n : Nat) : Json := number (.ofNat n)

/-- A double as a value. A value has no infinities and no undefined numbers. -/
def ofFloat (x : Float) : Json := if x.isFinite then number (.ofFloat x) else null

/-- A member for a value that is there, and none for one that is not. -/
def optional {α : Type} (name : String) (encode : α → Json) : Option α → List (String × Json)
  | none => []
  | some a => [(name, encode a)]

/-- A dictionary as an object. -/
def ofEntries {α : Type} (encode : α → Json) (entries : List (String × α)) : Json :=
  object (entries.map fun p => (p.1, encode p.2))

end Json

end StreamTyping
