import StreamTyping.Dict
import StreamTyping.Json.Tree
import StreamTyping.Text.Shown

/-!
# Reading data texts

A `Reader` makes a value of a tree or says what is wrong with it. Readers walk
the tree from left to right and stop at the first problem.

* `ReadError.malformed` stands for every breach of the grammar. The other
  errors say that a value is not of the form that is read there.
* At most `nestingLimit` brackets may be open at once. `room` is how many more
  may be opened.
* `RecordFormat.reader` reads a record from an object, with its fields in any
  order, or from an array of its fields in order.
* `Reader.tagged` and `Reader.choice` read alternatives with and without
  content.
* `Reader.json` reads any value.
-/

namespace StreamTyping

/-- What stands where something else is expected. -/
inductive Found where
  | null
  | boolean (value : Bool)
  | integer (value : Int)
  | float (value : Float)
  | text (content : String)
  | sequence
  | map
  /-- The name of an alternative without its content. -/
  | bareName
deriving DecidableEq

/-- What is expected. -/
inductive Expected where
  | text
  | boolean
  | word32
  | double
  | sequence
  | map
  | record (title : String)
  /-- An alternative with its content. -/
  | content
  /-- The mark that stands for no content. -/
  | noContent
deriving DecidableEq

/-- Why a text can not be read. -/
inductive ReadError where
  /-- The text breaks the grammar, or one of its limits. -/
  | malformed
  | invalidType (found : Found) (expected : Expected)
  | invalidValue (found : Int) (expected : Expected)
  /-- A record is given as an array that is too short. -/
  | invalidLength (count : Nat) (title : String) (fields : Nat)
  | missingField (name : String)
  | duplicateField (name : String)
  | unknownVariant (name : String) (known : List String)
  /-- A value fits none of the forms that are tried. -/
  | noForm (title : String)
deriving DecidableEq

/-- How messages name what is found. -/
def Found.message : Found → String
  | null => "null"
  | boolean true => "boolean `true`"
  | boolean false => "boolean `false`"
  | integer n => s!"integer `{n}`"
  | float x => "floating point `" ++ String.ofList (Numeral.ofFloat x).chars ++ "`"
  | text s => "string " ++ shown s
  | sequence => "sequence"
  | map => "map"
  | bareName => "unit variant"

/-- How messages name what is expected. -/
def Expected.message : Expected → String
  | text => "a string"
  | boolean => "a boolean"
  | word32 => "u32"
  | double => "f64"
  | sequence => "a sequence"
  | map => "a map"
  | record title => s!"struct {title}"
  | content => "newtype variant"
  | noContent => "unit"

/-- A list of names, each between backticks. -/
def expectedNames : List String → String
  | [] => "there are no variants"
  | [a] => s!"expected `{a}`"
  | [a, b] => s!"expected `{a}` or `{b}`"
  | names => "expected one of " ++ ", ".intercalate (names.map fun n => s!"`{n}`")

/-- The text of an error. -/
def ReadError.message : ReadError → String
  | malformed => "malformed text"
  | invalidType found expected =>
    s!"invalid type: {found.message}, expected {expected.message}"
  | invalidValue found expected =>
    s!"invalid value: integer `{found}`, expected {expected.message}"
  | invalidLength count title fields =>
    s!"invalid length {count}, expected struct {title} with {fields} elements"
  | missingField name => s!"missing field `{name}`"
  | duplicateField name => s!"duplicate field `{name}`"
  | unknownVariant name known => s!"unknown variant `{name}`, {expectedNames known}"
  | noForm title => s!"data did not match any variant of untagged enum {title}"

/-- How many brackets may be open at once. -/
def nestingLimit : Nat := 127

/-- A reader makes a value of a tree, with `room` for so many open brackets. -/
def Reader (α : Type) : Type := (room : Nat) → Tree → Except ReadError α

/-- What a tree is, for a message; nothing if the tree breaks the grammar first.
Of an array or an object only the opening bracket has been looked at. -/
def Tree.found? : Tree → Option Found
  | null => some .null
  | bool value => some (.boolean value)
  | number literal =>
    match literal.integer? with
    | some n => some (.integer n)
    | none => literal.toFloat?.map .float
  | text content => content.map .text
  | array _ _ => some .sequence
  | object _ _ => some .map
  | broken => none

namespace Reader

variable {α β : Type}

/-- The tree is not of the form that is expected. -/
def mismatch (expected : Expected) (tree : Tree) : Except ReadError α :=
  match tree.found? with
  | some found => .error (.invalidType found expected)
  | none => .error .malformed

/-- Changes the value that is read. -/
def map (f : α → β) (reader : Reader α) : Reader β := fun room tree =>
  (reader room tree).map f

/-- Goes on only if the closing bracket was reached. -/
def close (closed : Bool) (value : α) : Except ReadError α :=
  if closed then .ok value else .error .malformed

/-- Reads a string. -/
def text : Reader String
  | _, .text (some content) => .ok content
  | _, tree => mismatch .text tree

/-- Reads a truth value. -/
def boolean : Reader Bool
  | _, .bool value => .ok value
  | _, tree => mismatch .boolean tree

/-- Reads an integer of 32 bits without sign. -/
def word32 : Reader UInt32
  | _, .number literal =>
    match literal.integer? with
    | some n =>
      if 0 ≤ n ∧ n.toNat < UInt32.size then .ok (UInt32.ofNat n.toNat)
      else .error (.invalidValue n .word32)
    | none => mismatch .word32 (.number literal)
  | _, tree => mismatch .word32 tree

/-- Reads any number as a double. -/
def double : Reader Float
  | _, .number literal =>
    match literal.toFloat? with
    | some x => .ok x
    | none => .error .malformed
  | _, tree => mismatch .double tree

/-- Reads nothing for the mark of an absent value. -/
def optional (reader : Reader α) : Reader (Option α)
  | _, .null => .ok none
  | room, tree => (reader room tree).map some

/-- Reads the items of an array. -/
def list (item : Reader α) : Reader (List α)
  | room + 1, .array items closed => do
    let values ← items.mapM (item room)
    close closed values
  | 0, .array _ _ => .error .malformed
  | _, tree => mismatch .sequence tree

/-- Reads the members of an object, whatever their names. -/
def members (value : Reader α) (room : Nat) :
    List (Option String × Tree) → Except ReadError (List (String × α))
  | [] => .ok []
  | (none, _) :: _ => .error .malformed
  | (some name, tree) :: rest => do
    let a ← value room tree
    let entries ← members value room rest
    return (name, a) :: entries

/-- Reads an object as a dictionary; of members with the same name the last counts. -/
def dict (value : Reader α) : Reader (Dict α)
  | room + 1, .object ms closed => do
    let entries ← members value room ms
    close closed (Dict.ofList entries)
  | 0, .object _ _ => .error .malformed
  | _, tree => mismatch .map tree

/-- The alternative of a name. -/
def variant? (name : String) (variants : List (String × α)) : Except ReadError α :=
  match variants.find? fun v => v.1 = name with
  | some v => .ok v.2
  | none => .error (.unknownVariant name (variants.map (·.1)))

/-- Reads an object with one member, whose name chooses how its value is read. -/
def single (choose : String → Except ReadError (Reader α)) (room : Nat) (closed : Bool) :
    List (Option String × Tree) → Except ReadError α
  | (some name, tree) :: rest => do
    let reader ← choose name
    let value ← reader room tree
    close (rest.isEmpty && closed) value
  | [] | (none, _) :: _ => .error .malformed

/-- Reads an alternative with content: an object with its name and its content. -/
def tagged (variants : List (String × Reader α)) : Reader α
  | room + 1, .object ms closed => single (variant? · variants) room closed ms
  | _, .text (some name) => do
    let _ ← variant? name variants
    .error (.invalidType .bareName .content)
  | _, _ => .error .malformed

/-- Reads the mark that stands for no content, and gives a value. -/
def noContent (value : α) : Reader α
  | _, .null => .ok value
  | _, tree => mismatch .noContent tree

/-- Reads an alternative without content: its name, or an object with its name and
the mark for no content. -/
def choice (variants : List (String × α)) : Reader α
  | room + 1, .object ms closed =>
    single (fun name => (variant? name variants).map noContent) room closed ms
  | _, .text (some name) => variant? name variants
  | _, _ => .error .malformed

end Reader

namespace Tree

mutual

/-- Reads any value: nothing in it may break the grammar, nest too deep, be out of
range or leave half a surrogate pair. -/
def json : Reader Json
  | _, null => .ok .null
  | _, bool value => .ok (.bool value)
  | _, number literal =>
    if literal.toFloat?.isSome then .ok (.number literal) else .error .malformed
  | _, text (some content) => .ok (.text content)
  | _, text none => .error .malformed
  | 0, array _ _ => .error .malformed
  | room + 1, array items closed => do
    let values ← jsonItems room items
    Reader.close closed (.array values)
  | 0, object _ _ => .error .malformed
  | room + 1, object members closed => do
    let entries ← jsonMembers room members
    Reader.close closed (.object entries)
  | _, broken => .error .malformed

/-- Reads the items of an array, whatever they are. -/
def jsonItems (room : Nat) : List Tree → Except ReadError (List Json)
  | [] => .ok []
  | item :: rest => do
    let value ← json room item
    let values ← jsonItems room rest
    return value :: values

/-- Reads the members of an object, whatever they are. -/
def jsonMembers (room : Nat) :
    List (Option String × Tree) → Except ReadError (List (String × Json))
  | [] => .ok []
  | (none, _) :: _ => .error .malformed
  | (some name, tree) :: rest => do
    let value ← json room tree
    let entries ← jsonMembers room rest
    return (name, value) :: entries

end

end Tree

/-- Reads any value. -/
def Reader.json : Reader Json := Tree.json

/-- A field of a record that is being filled: `σ` holds the fields read so far. -/
structure Field (σ : Type) where
  name : String
  /-- The field has been read. -/
  filled : σ → Bool
  /-- Reads the field and stores it. -/
  store : σ → Reader σ

/-- A field that is read by `reader`. -/
def Field.of {σ α : Type} (name : String) (reader : Reader α) (get : σ → Option α)
    (set : σ → α → σ) : Field σ where
  name := name
  filled s := (get s).isSome
  store s := reader.map (set s)

/-- How a record is written: its title, its fields in order, and how the fields
that were read make up the record. -/
structure RecordFormat (σ α : Type) where
  title : String
  fields : List (Field σ)
  /-- No field has been read. -/
  start : σ
  /-- The record, or the name of the first field that is missing. -/
  finish : σ → Except String α

namespace RecordFormat

variable {σ α : Type}

/-- Reads the members of an object: no field may come twice, and members that are no
field are checked for grammar only. -/
def readMembers (format : RecordFormat σ α) (room : Nat) :
    List (Option String × Tree) → σ → Except ReadError σ
  | [], s => .ok s
  | (none, _) :: _, _ => .error .malformed
  | (some name, tree) :: rest, s =>
    match format.fields.find? fun f => f.name = name with
    | some field =>
      if field.filled s then .error (.duplicateField name)
      else do
        let s ← field.store s room tree
        format.readMembers room rest s
    | none => if tree.complete then format.readMembers room rest s else .error .malformed

/-- Reads the items of an array as the fields in order. -/
def readItems (room : Nat) : List (Field σ) → List Tree → σ → Except ReadError σ
  | _, [], s => .ok s
  | [], _ :: _, _ => .error .malformed
  | field :: fields, item :: items, s => do
    let s ← field.store s room item
    readItems room fields items s

/-- Reads a record. -/
def reader (format : RecordFormat σ α) : Reader α
  | room + 1, .object members closed => do
    let s ← format.readMembers room members format.start
    let s ← Reader.close closed s
    match format.finish s with
    | .ok a => .ok a
    | .error name => .error (.missingField name)
  | room + 1, .array items closed => do
    let s ← readItems room format.fields items format.start
    let s ← Reader.close closed s
    match format.finish s with
    | .ok a => .ok a
    | .error _ => .error (.invalidLength items.length format.title format.fields.length)
  | 0, .object _ _ | 0, .array _ _ => .error .malformed
  | _, tree => Reader.mismatch (.record format.title) tree

/-- The value of a field, or its name if it is missing. -/
def required {β : Type} (name : String) : Option β → Except String β
  | some b => .ok b
  | none => .error name

end RecordFormat

/-- Reads a whole text: nothing but blanks may follow the value. -/
def Reader.read {α : Type} (reader : Reader α) (text : String) : Except ReadError α := do
  let document := Document.parse text
  let value ← reader nestingLimit document.root
  if document.trailing then .error .malformed else .ok value

end StreamTyping
