import StreamTyping.Dict
import StreamTyping.Json.Value

/-!
# Type descriptors

A `Descriptor` says which values a stream carries: values of a named type,
arrays, records with named fields, or tuples. The fields of a record have no
order, so a descriptor lists them by ascending name at every depth, and two
descriptors are the same type exactly if they are equal.

* `Shape` is the tree of a descriptor and `Shape.Canonical` the order of its
  fields.
* `Descriptor.text` writes a descriptor. An array is written as an object
  whose only member has the name `[]`, so a record with that one field has the
  same text as an array.
-/

namespace StreamTyping

/-- The tree of a type descriptor. -/
inductive Shape where
  | primitive (name : String)
  | array (element : Shape)
  | record (fields : List (String × Shape))
  | tuple (elements : List Shape)
deriving Repr

namespace Shape

mutual

/-- Decides whether two shapes are equal. -/
def decEq : (a b : Shape) → Decidable (a = b)
  | primitive m, primitive n =>
    if h : m = n then .isTrue (by rw [h]) else .isFalse (by simpa using h)
  | array a, array b =>
    match decEq a b with
    | .isTrue h => .isTrue (by rw [h])
    | .isFalse h => .isFalse (by simpa using h)
  | record a, record b =>
    match decEqFields a b with
    | .isTrue h => .isTrue (by rw [h])
    | .isFalse h => .isFalse (by simpa using h)
  | tuple a, tuple b =>
    match decEqElements a b with
    | .isTrue h => .isTrue (by rw [h])
    | .isFalse h => .isFalse (by simpa using h)
  | primitive _, array _ | primitive _, record _ | primitive _, tuple _
  | array _, primitive _ | array _, record _ | array _, tuple _
  | record _, primitive _ | record _, array _ | record _, tuple _
  | tuple _, primitive _ | tuple _, array _ | tuple _, record _ => .isFalse nofun

/-- Decides whether two lists of elements are equal. -/
def decEqElements : (a b : List Shape) → Decidable (a = b)
  | [], [] => .isTrue rfl
  | a :: as, b :: bs =>
    match decEq a b, decEqElements as bs with
    | .isTrue h, .isTrue hs => .isTrue (by rw [h, hs])
    | .isFalse h, _ => .isFalse fun e => h (List.cons.inj e).1
    | _, .isFalse hs => .isFalse fun e => hs (List.cons.inj e).2
  | [], _ :: _ | _ :: _, [] => .isFalse nofun

/-- Decides whether two lists of fields are equal. -/
def decEqFields : (a b : List (String × Shape)) → Decidable (a = b)
  | [], [] => .isTrue rfl
  | (m, a) :: as, (n, b) :: bs =>
    if hn : m = n then
      match decEq a b, decEqFields as bs with
      | .isTrue h, .isTrue hs => .isTrue (by rw [hn, h, hs])
      | .isFalse h, _ => .isFalse fun e => h (Prod.mk.inj (List.cons.inj e).1).2
      | _, .isFalse hs => .isFalse fun e => hs (List.cons.inj e).2
    else .isFalse fun e => hn (Prod.mk.inj (List.cons.inj e).1).1
  | [], _ :: _ | _ :: _, [] => .isFalse nofun

end

instance : DecidableEq Shape := decEq

mutual

/-- The fields of every record, at every depth, are listed by ascending name. -/
def Canonical : Shape → Prop
  | primitive _ => True
  | array element => Canonical element
  | record fields => Ascending fields ∧ CanonicalFields fields
  | tuple elements => CanonicalElements elements

/-- All elements are canonical. -/
def CanonicalElements : List Shape → Prop
  | [] => True
  | element :: rest => Canonical element ∧ CanonicalElements rest

/-- All fields are canonical. -/
def CanonicalFields : List (String × Shape) → Prop
  | [] => True
  | (_, shape) :: rest => Canonical shape ∧ CanonicalFields rest

end

theorem canonicalElements_iff {elements : List Shape} :
    CanonicalElements elements ↔ ∀ s ∈ elements, s.Canonical := by
  induction elements with
  | nil => simp [CanonicalElements]
  | cons s rest ih => simp [CanonicalElements, ih]

theorem canonicalFields_iff {fields : List (String × Shape)} :
    CanonicalFields fields ↔ ∀ p ∈ fields, p.2.Canonical := by
  induction fields with
  | nil => simp [CanonicalFields]
  | cons p rest ih => simp [CanonicalFields, ih]

mutual

/-- The value that a shape is written as. -/
def toJson : Shape → Json
  | primitive name => .text name
  | array element => .object [("[]", element.toJson)]
  | record fields => .object (toMembers fields)
  | tuple elements => .array (toItems elements)

/-- The values of the elements of a tuple. -/
def toItems : List Shape → List Json
  | [] => []
  | element :: rest => element.toJson :: toItems rest

/-- The members of the fields of a record. -/
def toMembers : List (String × Shape) → List (String × Json)
  | [] => []
  | (name, shape) :: rest => (name, shape.toJson) :: toMembers rest

end

end Shape

/-- A type descriptor: a shape whose fields are listed by ascending name. -/
@[ext] structure Descriptor where
  shape : Shape
  canonical : shape.Canonical
deriving DecidableEq

namespace Descriptor

/-- A type that is known by its name. -/
def primitive (name : String) : Descriptor := ⟨.primitive name, trivial⟩

/-- Arrays of one type. -/
def array (element : Descriptor) : Descriptor := ⟨.array element.shape, element.canonical⟩

/-- Tuples of the types of their elements. -/
def tuple (elements : List Descriptor) : Descriptor where
  shape := .tuple (elements.map (·.shape))
  canonical := by
    refine Shape.canonicalElements_iff.2 fun s hs => ?_
    obtain ⟨d, -, rfl⟩ := List.mem_map.1 hs
    exact d.canonical

/-- Records of the types of their fields. -/
def record (fields : Dict Descriptor) : Descriptor where
  shape := .record (fields.map (·.shape)).entries
  canonical := by
    refine ⟨(fields.map (·.shape)).ascending, Shape.canonicalFields_iff.2 fun p hp => ?_⟩
    obtain ⟨q, -, rfl⟩ := List.mem_map.1 hp
    exact q.2.canonical

instance : Inhabited Descriptor := ⟨primitive ""⟩

/-- The value that a descriptor is written as. -/
def toJson (d : Descriptor) : Json := d.shape.toJson

/-- The text of a descriptor. -/
def text (d : Descriptor) : String := d.toJson.render .compact

end Descriptor

end StreamTyping
