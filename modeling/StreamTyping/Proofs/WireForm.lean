import StreamTyping.Descriptor.Reader
import StreamTyping.Proofs.Dict
import StreamTyping.Proofs.Documents

/-!
# The text of a type descriptor

An array is written like a record whose only field is `[]`, and this is all
that the text of a descriptor leaves open.

* `Shape.norm` makes such records arrays, at every depth, and `Shape.Plain` says
  that there are none.
* `Descriptor.ofJson?_toJson`: the value that a descriptor is written as gives
  the descriptor back, up to `norm`. `Descriptor.fits_of_ofJson?`: what is read is
  always plain.
* `Descriptor.text_roundTrip`: writing and reading descriptors.
-/

namespace StreamTyping

namespace Shape

/-! ## Records that are written like arrays -/

/-- The record of the fields, or the array of the only field `[]`. -/
def collapse : List (String × Shape) → Shape
  | [(name, element)] => if name = "[]" then array element else record [(name, element)]
  | fields => record fields

mutual

/-- Every record whose only field is `[]` made an array, at every depth. -/
def norm : Shape → Shape
  | primitive name => primitive name
  | array element => array element.norm
  | record fields => collapse (normFields fields)
  | tuple elements => tuple (normElements elements)

/-- All elements of a tuple, with such records made arrays. -/
def normElements : List Shape → List Shape
  | [] => []
  | element :: rest => element.norm :: normElements rest

/-- All fields of a record, with such records made arrays. -/
def normFields : List (String × Shape) → List (String × Shape)
  | [] => []
  | (name, shape) :: rest => (name, shape.norm) :: normFields rest

end

mutual

/-- How deep arrays, records and tuples nest in a shape. -/
def depth : Shape → Nat
  | primitive _ => 0
  | array element => element.depth + 1
  | record fields => depthFields fields + 1
  | tuple elements => depthElements elements + 1

/-- The depth of the deepest element. -/
def depthElements : List Shape → Nat
  | [] => 0
  | element :: rest => max element.depth (depthElements rest)

/-- The depth of the deepest field. -/
def depthFields : List (String × Shape) → Nat
  | [] => 0
  | (_, shape) :: rest => max shape.depth (depthFields rest)

end

/-- A shape occurs in another one. -/
inductive Within (s : Shape) : Shape → Prop where
  | self : Within s s
  | array {element : Shape} (h : Within s element) : Within s (array element)
  | field {fields : List (String × Shape)} {p : String × Shape} (hp : p ∈ fields)
      (h : Within s p.2) : Within s (record fields)
  | element {elements : List Shape} {e : Shape} (he : e ∈ elements) (h : Within s e) :
      Within s (tuple elements)

/-- No record in the shape has `[]` as its only field. -/
def Plain (s : Shape) : Prop := ∀ element, ¬ Within (record [("[]", element)]) s

theorem normFields_eq_map (fields : List (String × Shape)) :
    normFields fields = fields.map fun p => (p.1, p.2.norm) := by
  induction fields with
  | nil => rfl
  | cons p rest ih => rw [normFields, ih, List.map_cons]

theorem depthElements_le_iff {elements : List Shape} {n : Nat} :
    depthElements elements ≤ n ↔ ∀ e ∈ elements, e.depth ≤ n := by
  induction elements with
  | nil => simp [depthElements]
  | cons element rest ih => rw [depthElements, Nat.max_le, ih, List.forall_mem_cons]

theorem depthFields_le_iff {fields : List (String × Shape)} {n : Nat} :
    depthFields fields ≤ n ↔ ∀ p ∈ fields, p.2.depth ≤ n := by
  induction fields with
  | nil => simp [depthFields]
  | cons p rest ih => rw [depthFields, Nat.max_le, ih, List.forall_mem_cons]

/-! ## What `collapse` keeps -/

/-- Either nothing is changed, or `[]` is the only field. -/
theorem collapse_cases (fields : List (String × Shape)) :
    (∃ element, fields = [("[]", element)] ∧ collapse fields = array element) ∨
      (∀ element, fields ≠ [("[]", element)]) ∧ collapse fields = record fields := by
  match fields with
  | [] => exact .inr ⟨nofun, rfl⟩
  | [(name, element)] =>
    by_cases hname : name = "[]"
    · exact .inl ⟨element, by rw [hname], if_pos hname⟩
    · refine .inr ⟨fun _ heq => ?_, if_neg hname⟩
      cases heq
      exact hname rfl
  | _ :: _ :: _ => exact .inr ⟨nofun, rfl⟩

theorem toJson_collapse (fields : List (String × Shape)) :
    (collapse fields).toJson = .object (toMembers fields) := by
  rcases collapse_cases fields with ⟨element, rfl, hcollapse⟩ | ⟨-, hcollapse⟩ <;>
    rw [hcollapse] <;> rfl

theorem depth_collapse (fields : List (String × Shape)) :
    (collapse fields).depth = depthFields fields + 1 := by
  rcases collapse_cases fields with ⟨element, rfl, hcollapse⟩ | ⟨-, hcollapse⟩
  · rw [hcollapse, depth, depthFields, depthFields, Nat.max_zero]
  · rw [hcollapse, depth]

theorem canonical_collapse {fields : List (String × Shape)} (hascending : Ascending fields)
    (hfields : ∀ p ∈ fields, p.2.Canonical) : (collapse fields).Canonical := by
  rcases collapse_cases fields with ⟨element, rfl, hcollapse⟩ | ⟨-, hcollapse⟩
  · rw [hcollapse]
    exact hfields ("[]", element) (.head _)
  · rw [hcollapse]
    exact ⟨hascending, canonicalFields_iff.2 hfields⟩

theorem plain_collapse {fields : List (String × Shape)} (hfields : ∀ p ∈ fields, p.2.Plain) :
    (collapse fields).Plain := by
  intro element hwithin
  rcases collapse_cases fields with ⟨only, rfl, hcollapse⟩ | ⟨hne, hcollapse⟩
  · rw [hcollapse] at hwithin
    cases hwithin with
    | array h => exact hfields ("[]", only) (.head _) element h
  · rw [hcollapse] at hwithin
    cases hwithin with
    | self => exact hne element rfl
    | field hp h => exact hfields _ hp element h

theorem plain_tuple {elements : List Shape} (h : ∀ e ∈ elements, e.Plain) :
    (tuple elements).Plain := by
  intro element hwithin
  cases hwithin with
  | element he hwithin => exact h _ he element hwithin

/-! ## What `norm` keeps -/

mutual

theorem toJson_norm : (s : Shape) → s.norm.toJson = s.toJson
  | primitive _ => rfl
  | array element => by rw [norm, toJson, toJson_norm element, toJson]
  | record fields => by rw [norm, toJson_collapse, toMembers_normFields fields, toJson]
  | tuple elements => by rw [norm, toJson, toItems_normElements elements, toJson]

theorem toItems_normElements : (elements : List Shape) →
    toItems (normElements elements) = toItems elements
  | [] => rfl
  | element :: rest => by
    rw [normElements, toItems, toJson_norm element, toItems_normElements rest, toItems]

theorem toMembers_normFields : (fields : List (String × Shape)) →
    toMembers (normFields fields) = toMembers fields
  | [] => rfl
  | (name, shape) :: rest => by
    rw [normFields, toMembers, toJson_norm shape, toMembers_normFields rest, toMembers]

end

theorem ascending_normFields {fields : List (String × Shape)} (h : Ascending fields) :
    Ascending (normFields fields) := by
  rw [normFields_eq_map]
  exact List.pairwise_map.2 h

mutual

theorem canonical_norm : (s : Shape) → s.Canonical → s.norm.Canonical
  | primitive _, _ => trivial
  | array element, h => canonical_norm element h
  | record fields, h =>
    canonical_collapse (ascending_normFields h.1) (canonical_normFields fields h.2)
  | tuple elements, h => canonicalElements_iff.2 (canonical_normElements elements h)

theorem canonical_normElements : (elements : List Shape) → CanonicalElements elements →
    ∀ e ∈ normElements elements, e.Canonical
  | [], _ => nofun
  | element :: rest, h =>
    List.forall_mem_cons.2 ⟨canonical_norm element h.1, canonical_normElements rest h.2⟩

theorem canonical_normFields : (fields : List (String × Shape)) → CanonicalFields fields →
    ∀ p ∈ normFields fields, p.2.Canonical
  | [], _ => nofun
  | (_, shape) :: rest, h =>
    List.forall_mem_cons.2 ⟨canonical_norm shape h.1, canonical_normFields rest h.2⟩

end

mutual

theorem plain_norm : (s : Shape) → s.norm.Plain
  | primitive _ => nofun
  | array element => fun r hwithin => by
    cases hwithin with
    | array h => exact plain_norm element r h
  | record fields => plain_collapse (plain_normFields fields)
  | tuple elements => plain_tuple (plain_normElements elements)

theorem plain_normElements : (elements : List Shape) → ∀ e ∈ normElements elements, e.Plain
  | [] => nofun
  | element :: rest => List.forall_mem_cons.2 ⟨plain_norm element, plain_normElements rest⟩

theorem plain_normFields : (fields : List (String × Shape)) → ∀ p ∈ normFields fields, p.2.Plain
  | [] => nofun
  | (_, shape) :: rest => List.forall_mem_cons.2 ⟨plain_norm shape, plain_normFields rest⟩

end

mutual

theorem Plain.norm_eq : {s : Shape} → s.Plain → s.norm = s
  | primitive _, _ => rfl
  | array element, h => by
    rw [norm, Plain.norm_eq fun r hwithin => h r (.array hwithin)]
  | record fields, h => by
    have hfields := normFields_eq_self fun p hp r hwithin => h r (.field hp hwithin)
    rcases collapse_cases fields with ⟨element, rfl, -⟩ | ⟨-, hcollapse⟩
    · exact absurd .self (h element)
    · rw [norm, hfields, hcollapse]
  | tuple elements, h => by
    rw [norm, normElements_eq_self fun e he r hwithin => h r (.element he hwithin)]

theorem normElements_eq_self : {elements : List Shape} → (∀ e ∈ elements, e.Plain) →
    normElements elements = elements
  | [], _ => rfl
  | _ :: _, h => by
    obtain ⟨helement, hrest⟩ := List.forall_mem_cons.1 h
    rw [normElements, Plain.norm_eq helement, normElements_eq_self hrest]

theorem normFields_eq_self : {fields : List (String × Shape)} → (∀ p ∈ fields, p.2.Plain) →
    normFields fields = fields
  | [], _ => rfl
  | (_, _) :: _, h => by
    obtain ⟨hfield, hrest⟩ := List.forall_mem_cons.1 h
    rw [normFields, Plain.norm_eq hfield, normFields_eq_self hrest]

end

/-- Nothing changes exactly if there is no record to be made an array. -/
theorem norm_eq_self_iff {s : Shape} : s.norm = s ↔ s.Plain :=
  ⟨fun h => h ▸ plain_norm s, Plain.norm_eq⟩

/-! ## The value that a shape is written as -/

mutual

theorem depth_toJson : (s : Shape) → s.toJson.depth = s.depth
  | primitive _ => rfl
  | array element => by
    rw [toJson, Json.depth, Json.depthMembers, Json.depthMembers, depth_toJson element, depth,
      Nat.max_zero]
  | record fields => by rw [toJson, Json.depth, depthMembers_toMembers fields, depth]
  | tuple elements => by rw [toJson, Json.depth, depthItems_toItems elements, depth]

theorem depthItems_toItems : (elements : List Shape) →
    Json.depthItems (toItems elements) = depthElements elements
  | [] => rfl
  | element :: rest => by
    rw [toItems, Json.depthItems, depth_toJson element, depthItems_toItems rest, depthElements]

theorem depthMembers_toMembers : (fields : List (String × Shape)) →
    Json.depthMembers (toMembers fields) = depthFields fields
  | [] => rfl
  | (_, shape) :: rest => by
    rw [toMembers, Json.depthMembers, depth_toJson shape, depthMembers_toMembers rest, depthFields]

end

mutual

/-- There are no numbers in it. -/
theorem inRange_toJson : (s : Shape) → s.toJson.InRange
  | primitive _ => trivial
  | array element => ⟨inRange_toJson element, trivial⟩
  | record fields => inRangeMembers_toMembers fields
  | tuple elements => inRangeItems_toItems elements

theorem inRangeItems_toItems : (elements : List Shape) → Json.InRangeItems (toItems elements)
  | [] => trivial
  | element :: rest => ⟨inRange_toJson element, inRangeItems_toItems rest⟩

theorem inRangeMembers_toMembers : (fields : List (String × Shape)) →
    Json.InRangeMembers (toMembers fields)
  | [] => trivial
  | (_, shape) :: rest => ⟨inRange_toJson shape, inRangeMembers_toMembers rest⟩

end

end Shape

namespace Descriptor

/-- Every record whose only field is `[]` made an array, at every depth. -/
def norm (d : Descriptor) : Descriptor := ⟨d.shape.norm, d.shape.canonical_norm d.canonical⟩

theorem norm_eq_self_iff {d : Descriptor} : d.norm = d ↔ d.shape.Plain :=
  Descriptor.ext_iff.trans Shape.norm_eq_self_iff

theorem shape_ofFields (fields : Dict Descriptor) :
    (ofFields fields).shape = Shape.collapse (fields.entries.map fun p => (p.1, p.2.shape)) := by
  match fields with
  | ⟨[], _⟩ | ⟨_ :: _ :: _, _⟩ => rfl
  | ⟨[(name, element)], _⟩ =>
    show (if name = "[]" then array element else record _).shape =
      if name = "[]" then Shape.array element.shape else Shape.record [(name, element.shape)]
    split <;> rfl

/-! ## From the value back to the descriptor -/

mutual

/-- The value that a shape is written as gives the shape back, up to `norm`. -/
theorem ofJson?_toJson : (s : Shape) → (hs : s.Canonical) →
    ofJson? s.toJson = some ⟨s.norm, s.canonical_norm hs⟩
  | .primitive _, _ => rfl
  | .array element, hs => by
    rw [Shape.toJson, ofJson?, ofMembers?, ofJson?_toJson element hs]
    rfl
  | .record fields, hs => by
    obtain ⟨ds, hds, hshapes⟩ := ofMembers?_toMembers fields hs.2
    have hascending : Ascending ds := by
      have hnorm := Shape.ascending_normFields hs.1
      rw [← hshapes, Ascending, List.pairwise_map] at hnorm
      exact hnorm
    have hofList : Dict.ofList ds = ⟨ds, hascending⟩ := Dict.ofList_entries ⟨ds, hascending⟩
    rw [Shape.toJson, ofJson?, hds, Option.map_some, hofList]
    refine congrArg some (Descriptor.ext ?_)
    exact (shape_ofFields _).trans (congrArg Shape.collapse hshapes)
  | .tuple elements, hs => by
    obtain ⟨ds, hds, hshapes⟩ := ofItems?_toItems elements hs
    rw [Shape.toJson, ofJson?, hds, Option.map_some]
    exact congrArg some (Descriptor.ext (congrArg Shape.tuple hshapes))

theorem ofItems?_toItems : (elements : List Shape) → Shape.CanonicalElements elements →
    ∃ ds, ofItems? (Shape.toItems elements) = some ds ∧
      ds.map (·.shape) = Shape.normElements elements
  | [], _ => ⟨[], rfl, rfl⟩
  | element :: rest, hs => by
    obtain ⟨ds, hds, hshapes⟩ := ofItems?_toItems rest hs.2
    refine ⟨⟨element.norm, element.canonical_norm hs.1⟩ :: ds, ?_, ?_⟩
    · rw [Shape.toItems, ofItems?, ofJson?_toJson element hs.1, hds]
      rfl
    · rw [List.map_cons, hshapes, Shape.normElements]

theorem ofMembers?_toMembers : (fields : List (String × Shape)) → Shape.CanonicalFields fields →
    ∃ ds, ofMembers? (Shape.toMembers fields) = some ds ∧
      ds.map (fun p => (p.1, p.2.shape)) = Shape.normFields fields
  | [], _ => ⟨[], rfl, rfl⟩
  | (name, shape) :: rest, hs => by
    obtain ⟨ds, hds, hshapes⟩ := ofMembers?_toMembers rest hs.2
    refine ⟨(name, ⟨shape.norm, shape.canonical_norm hs.1⟩) :: ds, ?_, ?_⟩
    · rw [Shape.toMembers, ofMembers?, ofJson?_toJson shape hs.1, hds]
      rfl
    · rw [List.map_cons, hshapes, Shape.normFields]

end

/-! ## What a value gives -/

/-- A descriptor has no record written like an array, and is not deeper than `n`. -/
def Fits (n : Nat) (d : Descriptor) : Prop := d.shape.Plain ∧ d.shape.depth ≤ n

mutual

theorem fits_of_ofJson? : (value : Json) → {d : Descriptor} → ofJson? value = some d →
    d.Fits value.depth
  | .text name, _, h => by
    cases h
    exact ⟨nofun, Nat.zero_le _⟩
  | .null, _, h | .bool _, _, h | .number _, _, h => by cases h
  | .array items, _, h => by
    rw [ofJson?] at h
    obtain ⟨ds, hds, rfl⟩ := Option.map_eq_some_iff.1 h
    have hfits := fits_of_ofItems? items hds
    constructor
    · refine Shape.plain_tuple fun e he => ?_
      obtain ⟨d, hd, rfl⟩ := List.mem_map.1 he
      exact (hfits d hd).1
    · refine Nat.succ_le_succ (Shape.depthElements_le_iff.2 fun e he => ?_)
      obtain ⟨d, hd, rfl⟩ := List.mem_map.1 he
      exact (hfits d hd).2
  | .object members, _, h => by
    rw [ofJson?] at h
    obtain ⟨ds, hds, rfl⟩ := Option.map_eq_some_iff.1 h
    have hfits := fits_of_ofMembers? members hds
    have hentries : ∀ p ∈ (Dict.ofList ds).entries.map (fun p => (p.1, p.2.shape)),
        p.2.Plain ∧ p.2.depth ≤ Json.depthMembers members := by
      intro p hp
      obtain ⟨q, hq, rfl⟩ := List.mem_map.1 hp
      exact hfits q (Dict.mem_of_mem_entries_ofList hq)
    rw [Fits, shape_ofFields, Shape.depth_collapse]
    exact ⟨Shape.plain_collapse fun p hp => (hentries p hp).1,
      Nat.succ_le_succ (Shape.depthFields_le_iff.2 fun p hp => (hentries p hp).2)⟩

theorem fits_of_ofItems? : (items : List Json) → {ds : List Descriptor} → ofItems? items = some ds →
    ∀ d ∈ ds, d.Fits (Json.depthItems items)
  | [], _, h => by
    cases h
    nofun
  | item :: rest, _, h => by
    rw [ofItems?] at h
    obtain ⟨d, hd, h⟩ := Option.bind_eq_some_iff.1 h
    obtain ⟨ds, hds, h⟩ := Option.bind_eq_some_iff.1 h
    cases h
    refine List.forall_mem_cons.2 ⟨?_, fun e he => ?_⟩
    · exact (fits_of_ofJson? item hd).imp_right (Nat.le_trans · (Nat.le_max_left _ _))
    · exact (fits_of_ofItems? rest hds e he).imp_right (Nat.le_trans · (Nat.le_max_right _ _))

theorem fits_of_ofMembers? : (members : List (String × Json)) → {ds : List (String × Descriptor)} →
    ofMembers? members = some ds → ∀ p ∈ ds, p.2.Fits (Json.depthMembers members)
  | [], _, h => by
    cases h
    nofun
  | (name, value) :: rest, _, h => by
    rw [ofMembers?] at h
    obtain ⟨d, hd, h⟩ := Option.bind_eq_some_iff.1 h
    obtain ⟨ds, hds, h⟩ := Option.bind_eq_some_iff.1 h
    cases h
    refine List.forall_mem_cons.2 ⟨?_, fun p hp => ?_⟩
    · exact (fits_of_ofJson? value hd).imp_right (Nat.le_trans · (Nat.le_max_left _ _))
    · exact (fits_of_ofMembers? rest hds p hp).imp_right (Nat.le_trans · (Nat.le_max_right _ _))

end

/-! ## Writing and reading -/

theorem reader_toTree {value : Json} {room : Nat} (hdepth : value.depth ≤ room)
    (hrange : value.InRange) {d : Descriptor} (hd : ofJson? value = some d) :
    reader room value.toTree = .ok d := by
  have hread : Reader.json room value.toTree = .ok value := value.json_toTree hdepth hrange
  rw [reader, hread]
  simp only [bind, Except.bind, hd]

theorem parse_text {d : Descriptor} (h : d.shape.depth ≤ nestingLimit) :
    parse d.text = .ok d.norm := by
  rw [parse, text, Reader.read_render]
  exact reader_toTree (d.shape.depth_toJson ▸ h) d.shape.inRange_toJson
    (ofJson?_toJson d.shape d.canonical)

theorem fits_of_reader {room : Nat} {tree : Tree} {d : Descriptor} (h : reader room tree = .ok d) :
    d.Fits room := by
  obtain ⟨value, hvalue, hmatch⟩ := exists_of_bind_eq_ok h
  split at hmatch
  · rename_i hd
    obtain rfl := Except.ok.inj hmatch
    obtain ⟨hplain, hdepth⟩ := fits_of_ofJson? value hd
    exact ⟨hplain, Nat.le_trans hdepth (Tree.depth_le_of_json _ hvalue)⟩
  · cases hmatch

theorem fits_of_parse {t : String} {d : Descriptor} (h : parse t = .ok d) : d.Fits nestingLimit :=
  fits_of_reader (Reader.root_of_read_eq_ok h)

theorem text_norm (d : Descriptor) : d.norm.text = d.text :=
  congrArg (Json.render .compact) d.shape.toJson_norm

/-- Two descriptors have the same text exactly if they differ in records written like arrays
only. -/
theorem text_eq_iff {d e : Descriptor} : d.text = e.text ↔ d.norm = e.norm := by
  constructor
  · intro h
    have hjson : d.toJson = e.toJson :=
      Json.eq_of_render_eq d.shape.inRange_toJson e.shape.inRange_toJson h
    have hread : ofJson? d.toJson = some d.norm := ofJson?_toJson d.shape d.canonical
    rw [hjson] at hread
    exact Option.some.inj (hread.symm.trans (ofJson?_toJson e.shape e.canonical))
  · intro h
    rw [← d.text_norm, h, e.text_norm]

/-- A descriptor of at most 127 levels is read back from its text, with records whose only field
is `[]` made arrays. What is read from any text has no such record, and is read back from its own
text as it is. And whatever their depth, two descriptors have the same text if they differ in such
records only. -/
theorem text_roundTrip :
    (∀ d : Descriptor, d.shape.depth ≤ 127 → parse d.text = .ok d.norm) ∧
    (∀ d : Descriptor, d.norm = d ↔
      ∀ element, ¬ (Shape.record [("[]", element)]).Within d.shape) ∧
    (∀ (t : String) (d : Descriptor), parse t = .ok d → d.norm = d ∧ parse d.text = .ok d) ∧
    ∀ d e : Descriptor, d.text = e.text ↔ d.norm = e.norm := by
  refine ⟨fun d => parse_text, fun d => norm_eq_self_iff, fun t d h => ?_, fun d e => text_eq_iff⟩
  obtain ⟨hplain, hdepth⟩ := fits_of_parse h
  have hnorm : d.norm = d := norm_eq_self_iff.2 hplain
  exact ⟨hnorm, (parse_text hdepth).trans (congrArg Except.ok hnorm)⟩

/-- A record like an array, around a name that needs escapes. -/
def quotedArray : Descriptor :=
  record (Dict.empty.insert "[]" (tuple [primitive "\"\\\n", array (primitive "é\x01")]))

theorem text_roundTrip_quotedArray :
    quotedArray.text = "\x7b\"[]\":[\"\\\"\\\\\\n\",\x7b\"[]\":\"é\\u0001\"\x7d]\x7d" ∧
    quotedArray.shape.depth ≤ 127 ∧ parse quotedArray.text = .ok quotedArray.norm ∧
    quotedArray.norm ≠ quotedArray ∧ parse quotedArray.norm.text = .ok quotedArray.norm ∧
    quotedArray.norm.text = quotedArray.text := by
  have hdepth : quotedArray.shape.depth ≤ 127 := by decide
  have hparse := text_roundTrip.1 quotedArray hdepth
  obtain ⟨hnorm, hagain⟩ := text_roundTrip.2.2.1 _ _ hparse
  have hne : quotedArray.norm ≠ quotedArray := by decide
  exact ⟨by decide, hdepth, hparse, hne, hagain,
    (text_roundTrip.2.2.2 quotedArray.norm quotedArray).2 hnorm⟩

end Descriptor

end StreamTyping
