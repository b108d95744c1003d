import StreamTyping.Json.Token

/-!
# What a data text says

A `Tree` is the value that a text writes, as far as the text keeps to the
grammar: where the grammar is broken the tree is cut short, and everything in
front of that place is still there. A reader that walks the tree from left to
right therefore meets problems in the order of the text.

* `Document.parse` reads a text in one pass over its tokens, with the arrays
  and objects that are still open on a stack.
* `Tree.complete` holds of trees that are not cut short.
-/

namespace StreamTyping

/-- A value as it is written, cut short where the text breaks the grammar. -/
inductive Tree where
  | null
  | bool (value : Bool)
  | number (literal : Numeral)
  /-- A string, without content if half a surrogate pair stands in it. -/
  | text (content : Option String)
  /-- The items read, and whether the closing bracket was reached. -/
  | array (items : List Tree) (closed : Bool)
  /-- The members read, and whether the closing bracket was reached. -/
  | object (members : List (Option String × Tree)) (closed : Bool)
  /-- A value should stand here. -/
  | broken
deriving Repr

namespace Tree

mutual

/-- The whole tree keeps to the grammar. -/
def complete : Tree → Bool
  | array items closed => completeItems items && closed
  | object members closed => completeMembers members && closed
  | broken => false
  | null | bool _ | number _ | text _ => true

/-- All items keep to the grammar. -/
def completeItems : List Tree → Bool
  | [] => true
  | item :: rest => item.complete && completeItems rest

/-- All members keep to the grammar. -/
def completeMembers : List (Option String × Tree) → Bool
  | [] => true
  | (_, value) :: rest => value.complete && completeMembers rest

end

end Tree

/-- An array or object that is still open, its parts newest first. -/
inductive Frame where
  | array (items : List Tree)
  /-- The members, and the name of a member whose value is still to come. -/
  | object (members : List (Option String × Tree)) (pending : Option (Option String))
deriving Repr

/-- What may come next inside the innermost open bracket. -/
inductive Expecting where
  | value
  /-- A value, or the end of an array without items. -/
  | firstItem
  /-- A name, or the end of an object without members. -/
  | firstName
  | name
  | colon
  /-- A comma or the closing bracket. -/
  | separator
deriving DecidableEq, Repr

/-- A tree that is being built from tokens. -/
inductive Builder where
  | growing (frames : List Frame) (expecting : Expecting)
  /-- The value is complete, and nothing has come after it. -/
  | whole (root : Tree)
  /-- The text breaks the grammar inside the value. -/
  | cut (root : Tree)
  /-- Something comes after the value. -/
  | trailed (root : Tree)
deriving Repr

namespace Builder

/-- Closes what is open where the text breaks off; `inner` is the value that was
being read. -/
def cutShort : List Frame → Option Tree → Tree
  | [], inner => inner.getD .broken
  | .array items :: frames, inner =>
    cutShort frames (some (.array (inner.toList ++ items).reverse false))
  | .object members none :: frames, _ =>
    cutShort frames (some (.object members.reverse false))
  | .object members (some name) :: frames, inner =>
    cutShort frames (some (.object ((name, inner.getD .broken) :: members).reverse false))

/-- Puts a value in its place. -/
def put (value : Tree) : List Frame → Builder
  | [] => .whole value
  | .array items :: frames => .growing (.array (value :: items) :: frames) .separator
  | .object members (some name) :: frames =>
    .growing (.object ((name, value) :: members) none :: frames) .separator
  | .object members none :: frames =>
    .cut (cutShort (.object members none :: frames) none)

/-- A value may come next. -/
def takesValue : Expecting → Bool
  | .value | .firstItem => true
  | .firstName | .name | .colon | .separator => false

/-- A value without parts. -/
def scalar (frames : List Frame) (expecting : Expecting) (value : Tree) : Builder :=
  if takesValue expecting then put value frames else .cut (cutShort frames none)

/-- Adds a token to a tree with open frames. -/
def grow (frames : List Frame) (expecting : Expecting) : Token → Builder
  | .null => scalar frames expecting .null
  | .bool value => scalar frames expecting (.bool value)
  | .number literal => scalar frames expecting (.number literal)
  | .text content =>
    match expecting, frames with
    | .firstName, .object members none :: frames
    | .name, .object members none :: frames =>
      .growing (.object members (some content) :: frames) .colon
    | _, _ => scalar frames expecting (.text content)
  | .opening .square =>
    if takesValue expecting then .growing (.array [] :: frames) .firstItem
    else .cut (cutShort frames none)
  | .opening .curly =>
    if takesValue expecting then .growing (.object [] none :: frames) .firstName
    else .cut (cutShort frames none)
  | .closing .square =>
    match expecting, frames with
    | .firstItem, .array items :: frames | .separator, .array items :: frames =>
      put (.array items.reverse true) frames
    | _, _ => .cut (cutShort frames none)
  | .closing .curly =>
    match expecting, frames with
    | .firstName, .object members none :: frames
    | .separator, .object members none :: frames =>
      put (.object members.reverse true) frames
    | _, _ => .cut (cutShort frames none)
  | .comma =>
    match expecting, frames with
    | .separator, .array items :: frames => .growing (.array items :: frames) .value
    | .separator, .object members none :: frames =>
      .growing (.object members none :: frames) .name
    | _, _ => .cut (cutShort frames none)
  | .colon =>
    match expecting with
    | .colon => .growing frames .value
    | _ => .cut (cutShort frames none)
  | .invalid => .cut (cutShort frames none)

/-- Adds a token. -/
def step : Builder → Token → Builder
  | .growing frames expecting, token => grow frames expecting token
  | .whole root, _ => .trailed root
  | .cut root, _ => .cut root
  | .trailed root, _ => .trailed root

end Builder

/-- A text: its value, and whether something other than blanks follows it. -/
structure Document where
  root : Tree
  trailing : Bool
deriving Repr

/-- The document, once the tokens have ended. -/
def Builder.finish : Builder → Document
  | .growing frames _ => ⟨cutShort frames none, false⟩
  | .whole root => ⟨root, false⟩
  | .cut root => ⟨root, false⟩
  | .trailed root => ⟨root, true⟩

/-- Reads a text. -/
def Document.parse (text : String) : Document :=
  ((lex text.toList).foldl Builder.step (.growing [] .value)).finish

end StreamTyping
