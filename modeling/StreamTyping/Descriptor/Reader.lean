import StreamTyping.Descriptor.Basic
import StreamTyping.Json.Reader

/-!
# Reading type descriptors

A descriptor is read in two steps. The text has to be a value without any
problem in it (`Reader.json`), and then the value has to be built of strings,
arrays and objects only (`Descriptor.ofJson?`).

* A string names a primitive type and an array lists the elements of a tuple.
* An object is a record of the last value of each name. It is an array type
  if `[]` is its only name.
-/

namespace StreamTyping.Descriptor

/-- The type of an object: an array type if `[]` is the only field. -/
def ofFields (fields : Dict Descriptor) : Descriptor :=
  match fields.entries with
  | [(name, element)] => if name = "[]" then array element else record fields
  | _ => record fields

mutual

/-- The descriptor that a value writes, if it is built of strings, arrays and
objects. -/
def ofJson? : Json → Option Descriptor
  | .text name => some (primitive name)
  | .array items => (ofItems? items).map tuple
  | .object members => (ofMembers? members).map fun fields => ofFields (Dict.ofList fields)
  | .null | .bool _ | .number _ => none

/-- The descriptors of the items of an array. -/
def ofItems? : List Json → Option (List Descriptor)
  | [] => some []
  | item :: rest => do
    let d ← ofJson? item
    let ds ← ofItems? rest
    return d :: ds

/-- The descriptors of the members of an object, repeated names included. -/
def ofMembers? : List (String × Json) → Option (List (String × Descriptor))
  | [] => some []
  | (name, value) :: rest => do
    let d ← ofJson? value
    let ds ← ofMembers? rest
    return (name, d) :: ds

end

/-- Reads a descriptor. -/
def reader : Reader Descriptor := fun room tree => do
  let value ← Reader.json room tree
  match ofJson? value with
  | some d => .ok d
  | none => .error (.noForm "DescriptorRepr")

/-- The descriptor that a text writes. -/
def parse (text : String) : Except ReadError Descriptor := reader.read text

end StreamTyping.Descriptor
