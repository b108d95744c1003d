import Mathlib.Data.List.Forall2
import StreamTyping.Proofs.Readers
import StreamTyping.Proofs.WireForm

/-!
# Which values are read as descriptors

A descriptor is read from every value all of whose leaves are strings, and from
no other one. Members of an object may change places as long as those of one
name keep their order.

* `Descriptor.Describes`: the descriptor that a value writes, by one rule for
  strings, one for arrays and two for objects.
* `Descriptor.ofJson?_eq_some_iff`: a value gives the descriptor that it writes.
  `Descriptor.exists_ofJson?_iff`: it gives one if its leaves are strings.
* `Json.Reordered`: members change places, at any depth. `Descriptor.ofJson?_of_reordered`:
  this makes no difference.
* `Descriptor.parse_string_leaves`: what follows for texts and records.
-/

namespace StreamTyping

/-! ## Parts of a value -/

namespace Json

/-- A value stands in another one, also under a name that comes again later. -/
inductive Within (part : Json) : Json → Prop where
  | self : Within part part
  | item {items : List Json} {value : Json} (hvalue : value ∈ items) (h : Within part value) :
      Within part (array items)
  | member {members : List (String × Json)} {p : String × Json} (hp : p ∈ members)
      (h : Within part p.2) : Within part (object members)

/-- All leaves of a value are strings: nothing in it is null, a truth value or a number. -/
def StringLeaves (value : Json) : Prop :=
  ∀ part, Within part value → part ≠ null ∧ (∀ b, part ≠ bool b) ∧ ∀ literal, part ≠ number literal

theorem stringLeaves_text (content : String) : (text content).StringLeaves := by
  intro part h
  cases h
  simp

theorem stringLeaves_array_iff {items : List Json} :
    (array items).StringLeaves ↔ ∀ item ∈ items, item.StringLeaves := by
  constructor
  · exact fun h item hitem part hpart => h part (.item hitem hpart)
  · intro h part hpart
    cases hpart with
    | self => simp
    | item hvalue hpart => exact h _ hvalue part hpart

theorem stringLeaves_object_iff {members : List (String × Json)} :
    (object members).StringLeaves ↔ ∀ p ∈ members, p.2.StringLeaves := by
  constructor
  · exact fun h p hp part hpart => h part (.member hp hpart)
  · intro h part hpart
    cases hpart with
    | self => simp
    | member hp hpart => exact h _ hp part hpart

mutual

/-- Where there are no numbers, none is out of range. -/
theorem StringLeaves.inRange : {value : Json} → value.StringLeaves → value.InRange
  | null, _ | bool _, _ | text _, _ => trivial
  | number _, h => absurd rfl ((h _ .self).2.2 _)
  | array _, h => inRangeItems_of_stringLeaves (stringLeaves_array_iff.1 h)
  | object _, h => inRangeMembers_of_stringLeaves (stringLeaves_object_iff.1 h)

theorem inRangeItems_of_stringLeaves : {items : List Json} →
    (∀ item ∈ items, item.StringLeaves) → InRangeItems items
  | [], _ => trivial
  | _ :: _, h => by
    obtain ⟨hitem, hrest⟩ := List.forall_mem_cons.1 h
    exact ⟨hitem.inRange, inRangeItems_of_stringLeaves hrest⟩

theorem inRangeMembers_of_stringLeaves : {members : List (String × Json)} →
    (∀ p ∈ members, p.2.StringLeaves) → InRangeMembers members
  | [], _ => trivial
  | (_, _) :: _, h => by
    obtain ⟨hvalue, hrest⟩ := List.forall_mem_cons.1 h
    exact ⟨StringLeaves.inRange hvalue, inRangeMembers_of_stringLeaves hrest⟩

end

end Json

/-! ## The descriptor that a value writes -/

namespace Descriptor

/-- The descriptor that a value writes. Every value of a repeated name has to write one, and of
these the last one counts. -/
inductive Describes : Json → Descriptor → Prop where
  | text (name : String) : Describes (.text name) (primitive name)
  | tuple {items : List Json} {ds : List Descriptor} (h : List.Forall₂ Describes items ds) :
      Describes (.array items) (tuple ds)
  /-- The only name is `[]`. -/
  | array {members : List (String × Json)} {fields : List (String × Descriptor)}
      {element : Descriptor} (hnames : fields.map (·.1) = members.map (·.1))
      (hvalues : List.Forall₂ Describes (members.map (·.2)) (fields.map (·.2)))
      (honly : ∀ name, name ∈ members.map (·.1) ↔ name = "[]")
      (hlast : lastBound fields "[]" = some element) : Describes (.object members) (array element)
  | record {members : List (String × Json)} {fields : List (String × Descriptor)}
      {types : Dict Descriptor} (hnames : fields.map (·.1) = members.map (·.1))
      (hvalues : List.Forall₂ Describes (members.map (·.2)) (fields.map (·.2)))
      (hnot : ¬ ∀ name, name ∈ members.map (·.1) ↔ name = "[]")
      (hlast : ∀ name, types.get? name = lastBound fields name) :
      Describes (.object members) (record types)

theorem record_inj {types others : Dict Descriptor} :
    record types = record others ↔ types = others := by
  constructor
  · intro h
    have hentries : types.entries.map (fun p => (p.1, p.2.shape)) =
        others.entries.map fun p => (p.1, p.2.shape) :=
      Shape.record.inj (congrArg Descriptor.shape h)
    refine Dict.ext (List.map_injective_iff.2 (fun p q hpq => ?_) hentries)
    exact Prod.ext (Prod.mk.inj hpq).1 (Descriptor.ext (Prod.mk.inj hpq).2)
  · exact congrArg record

/-- The type of an object is an array type if `[]` is the only name. -/
theorem ofFields_ofList_of_only {fields : List (String × Descriptor)}
    (h : ∀ name, name ∈ fields.map (·.1) ↔ name = "[]") :
    ∃ element, lastBound fields "[]" = some element ∧
      ofFields (Dict.ofList fields) = array element := by
  obtain ⟨element, hentries⟩ := Dict.exists_entries_ofList_eq_iff.2 h
  refine ⟨element, ?_, ?_⟩
  · rw [← Dict.get?_ofList, Dict.get?_eq_some_iff, hentries]
    exact List.mem_singleton_self _
  · simp [ofFields, hentries]

/-- Any other object is a record. -/
theorem ofFields_ofList_of_not_only {fields : List (String × Descriptor)}
    (h : ¬ ∀ name, name ∈ fields.map (·.1) ↔ name = "[]") :
    ofFields (Dict.ofList fields) = record (Dict.ofList fields) := by
  rw [← Dict.exists_entries_ofList_eq_iff, not_exists] at h
  rw [ofFields]
  split
  · rename_i name element hentries
    refine if_neg fun hname => h element ?_
    rw [hentries, hname]
  · rfl

mutual

/-- A value gives the descriptor that it writes. -/
theorem ofJson?_eq_some_iff : (value : Json) → {d : Descriptor} →
    (ofJson? value = some d ↔ Describes value d)
  | .null, _ | .bool _, _ | .number _, _ => by
    constructor
    · intro h
      cases h
    · intro h
      cases h
  | .text name, _ => by
    constructor
    · intro h
      cases h
      exact .text name
    · intro h
      cases h
      rfl
  | .array items, _ => by
    rw [ofJson?, Option.map_eq_some_iff]
    simp only [ofItems?_eq_some_iff items]
    constructor
    · rintro ⟨ds, hds, rfl⟩
      exact .tuple hds
    · intro h
      cases h with
      | tuple hds => exact ⟨_, hds, rfl⟩
  | .object members, d => by
    rw [ofJson?, Option.map_eq_some_iff]
    simp only [ofMembers?_eq_some_iff members]
    constructor
    · rintro ⟨fields, ⟨hnames, hvalues⟩, rfl⟩
      by_cases honly : ∀ name, name ∈ members.map (·.1) ↔ name = "[]"
      · obtain ⟨element, hlast, heq⟩ := ofFields_ofList_of_only (hnames ▸ honly)
        rw [heq]
        exact .array hnames hvalues honly hlast
      · rw [ofFields_ofList_of_not_only (hnames ▸ honly)]
        exact .record hnames hvalues honly (Dict.get?_ofList fields)
    · intro h
      cases h with
      | array hnames hvalues honly hlast =>
        obtain ⟨element, hlast', heq⟩ := ofFields_ofList_of_only (hnames ▸ honly)
        rw [hlast] at hlast'
        obtain rfl := Option.some.inj hlast'
        exact ⟨_, ⟨hnames, hvalues⟩, heq⟩
      | @record _ fields types hnames hvalues hnot hlast =>
        have htypes : types = Dict.ofList fields :=
          Dict.ext_get? fun name => (hlast name).trans (Dict.get?_ofList fields name).symm
        refine ⟨fields, ⟨hnames, hvalues⟩, ?_⟩
        rw [ofFields_ofList_of_not_only (hnames ▸ hnot), htypes]

theorem ofItems?_eq_some_iff : (items : List Json) → {ds : List Descriptor} →
    (ofItems? items = some ds ↔ List.Forall₂ Describes items ds)
  | [], _ => by
    rw [ofItems?, List.forall₂_nil_left_iff, Option.some.injEq, eq_comm]
  | item :: rest, ds => by
    rw [ofItems?, Option.bind_eq_bind, Option.bind_eq_some_iff, List.forall₂_cons_left_iff]
    simp only [Option.bind_eq_bind, Option.bind_eq_some_iff, Option.pure_def, Option.some.injEq,
      ofJson?_eq_some_iff item, ofItems?_eq_some_iff rest]
    constructor
    · rintro ⟨d, hd, ds, hds, rfl⟩
      exact ⟨d, ds, hd, hds, rfl⟩
    · rintro ⟨d, ds, hd, hds, rfl⟩
      exact ⟨d, hd, ds, hds, rfl⟩

theorem ofMembers?_eq_some_iff : (members : List (String × Json)) →
    {fields : List (String × Descriptor)} →
    (ofMembers? members = some fields ↔ fields.map (·.1) = members.map (·.1) ∧
      List.Forall₂ Describes (members.map (·.2)) (fields.map (·.2)))
  | [], fields => by
    cases fields <;> simp [ofMembers?]
  | (name, value) :: rest, fields => by
    rw [ofMembers?, Option.bind_eq_bind, Option.bind_eq_some_iff]
    simp only [Option.bind_eq_bind, Option.bind_eq_some_iff, Option.pure_def, Option.some.injEq,
      ofJson?_eq_some_iff value, ofMembers?_eq_some_iff rest]
    constructor
    · rintro ⟨d, hd, fields, ⟨hnames, hvalues⟩, rfl⟩
      exact ⟨congrArg (name :: ·) hnames, .cons hd hvalues⟩
    · rintro ⟨hnames, hvalues⟩
      cases fields with
      | nil => cases hnames
      | cons field fields =>
        obtain ⟨rfl, htail⟩ := List.cons.inj hnames
        obtain ⟨hd, hvalues⟩ := List.forall₂_cons.1 hvalues
        exact ⟨field.2, hd, fields, ⟨htail, hvalues⟩, rfl⟩

end

/-! ## Which values write a descriptor -/

mutual

/-- A value gives a descriptor exactly if all of its leaves are strings. -/
theorem exists_ofJson?_iff : (value : Json) →
    ((∃ d, ofJson? value = some d) ↔ value.StringLeaves)
  | .null => by
    constructor
    · rintro ⟨_, ⟨⟩⟩
    · exact fun h => absurd rfl (h _ .self).1
  | .bool b => by
    constructor
    · rintro ⟨_, ⟨⟩⟩
    · exact fun h => absurd rfl ((h _ .self).2.1 b)
  | .number literal => by
    constructor
    · rintro ⟨_, ⟨⟩⟩
    · exact fun h => absurd rfl ((h _ .self).2.2 literal)
  | .text content => ⟨fun _ => Json.stringLeaves_text content, fun _ => ⟨_, rfl⟩⟩
  | .array items => by
    rw [Json.stringLeaves_array_iff, ← exists_ofItems?_iff items]
    simp [ofJson?]
  | .object members => by
    rw [Json.stringLeaves_object_iff, ← exists_ofMembers?_iff members]
    simp [ofJson?]

theorem exists_ofItems?_iff : (items : List Json) →
    ((∃ ds, ofItems? items = some ds) ↔ ∀ item ∈ items, item.StringLeaves)
  | [] => by simp [ofItems?]
  | item :: rest => by
    rw [List.forall_mem_cons, ← exists_ofJson?_iff item, ← exists_ofItems?_iff rest]
    simp [ofItems?, Option.bind_eq_some_iff]

theorem exists_ofMembers?_iff : (members : List (String × Json)) →
    ((∃ fields, ofMembers? members = some fields) ↔ ∀ p ∈ members, p.2.StringLeaves)
  | [] => by simp [ofMembers?]
  | (name, value) :: rest => by
    rw [List.forall_mem_cons, ← exists_ofJson?_iff value, ← exists_ofMembers?_iff rest]
    simp [ofMembers?, Option.bind_eq_some_iff]

end

theorem parse_render_eq_ok_iff {value : Json} (hdepth : value.depth ≤ nestingLimit)
    (layout : Layout) {d : Descriptor} :
    parse (value.render layout) = .ok d ↔ ofJson? value = some d := by
  rw [parse, Reader.read_render]
  constructor
  · intro h
    obtain ⟨read, hread, hmatch⟩ := exists_of_bind_eq_ok h
    rw [value.eq_of_json_toTree hread] at hmatch
    split at hmatch
    · rename_i hd
      rw [hd, Except.ok.inj hmatch]
    · cases hmatch
  · intro hd
    have hleaves := (exists_ofJson?_iff value).1 ⟨d, hd⟩
    exact reader_toTree hdepth hleaves.inRange hd

end Descriptor

/-! ## Members in another order -/

namespace Json

/-- Members change places in any object of a value, those of one name keeping their order. -/
inductive Reordered : Json → Json → Prop where
  | refl (value : Json) : Reordered value value
  | permute {members others : List (String × Json)} (hperm : members.Perm others)
      (hkeep : ∀ name, members.filter (fun p => p.1 = name) = others.filter fun p => p.1 = name) :
      Reordered (object members) (object others)
  | item (before after : List Json) {value other : Json} (h : Reordered value other) :
      Reordered (array (before ++ value :: after)) (array (before ++ other :: after))
  | member (before after : List (String × Json)) (name : String) {value other : Json}
      (h : Reordered value other) :
      Reordered (object (before ++ (name, value) :: after))
        (object (before ++ (name, other) :: after))
  | trans {value middle other : Json} (h : Reordered value middle) (h' : Reordered middle other) :
      Reordered value other

theorem Reordered.depth_le_iff {value other : Json} (h : Reordered value other) {n : Nat} :
    value.depth ≤ n ↔ other.depth ≤ n := by
  induction h generalizing n with
  | refl => exact Iff.rfl
  | permute hperm _ => simp only [depth_object_le_iff, hperm.mem_iff]
  | item before after _ ih =>
    simp only [depth_array_le_iff, List.forall_mem_append, List.forall_mem_cons, ih]
  | member before after name _ ih =>
    simp only [depth_object_le_iff, List.forall_mem_append, List.forall_mem_cons, ih]
  | trans _ _ ih ih' => exact ih.trans ih'

end Json

namespace Descriptor

/-- What an array gives depends on what its items give. -/
theorem ofItems?_eq_mapM (items : List Json) : ofItems? items = (items.map ofJson?).mapM id := by
  induction items with
  | nil => rfl
  | cons item rest ih =>
    rw [ofItems?, List.map_cons, List.mapM_cons, ih]
    rfl

/-- What an object gives depends on the names of its members and on what their values give. -/
theorem ofMembers?_eq_mapM (members : List (String × Json)) : ofMembers? members =
    (members.map fun p => (p.1, ofJson? p.2)).mapM fun p => p.2.map (p.1, ·) := by
  induction members with
  | nil => rfl
  | cons p rest ih =>
    rw [ofMembers?, List.map_cons, List.mapM_cons, ih]
    cases ofJson? p.2 <;> rfl

/-- The last field of a name is what the last member of that name gives. -/
theorem lastBound_of_ofMembers? {members : List (String × Json)}
    {fields : List (String × Descriptor)} (h : ofMembers? members = some fields) (name : String) :
    (lastBound fields name).map some = (lastBound members name).map ofJson? := by
  have hmap : fields.map (fun p => (p.1, some p.2)) = members.map fun p => (p.1, ofJson? p.2) := by
    induction members generalizing fields with
    | nil =>
      cases h
      rfl
    | cons p rest ih =>
      rw [ofMembers?] at h
      obtain ⟨d, hd, h⟩ := Option.bind_eq_some_iff.1 h
      obtain ⟨fields, hfields, h⟩ := Option.bind_eq_some_iff.1 h
      cases h
      rw [List.map_cons, List.map_cons, ih hfields, hd]
  rw [← lastBound_map, hmap, lastBound_map]

/-- A type does not depend on the places of members. -/
theorem ofJson?_of_permuted {members others : List (String × Json)} (hperm : members.Perm others)
    (hkeep : ∀ name, members.filter (fun p => p.1 = name) = others.filter fun p => p.1 = name) :
    ofJson? (.object members) = ofJson? (.object others) := by
  -- The same values are read on both sides, so that both give a type or none does.
  have hexists : (∃ fields, ofMembers? members = some fields) ↔
      ∃ fields, ofMembers? others = some fields := by
    simp only [exists_ofMembers?_iff, hperm.mem_iff]
  rw [ofJson?, ofJson?]
  cases hothers : ofMembers? others with
  | none =>
    have hnone : ofMembers? members = none :=
      Option.eq_none_iff_forall_ne_some.2 fun fields hfields => by
        obtain ⟨_, hsome⟩ := hexists.1 ⟨fields, hfields⟩
        rw [hothers] at hsome
        cases hsome
    rw [hnone]
  | some rest =>
    obtain ⟨fields, hfields⟩ := hexists.2 ⟨rest, hothers⟩
    have hlast : Dict.ofList fields = Dict.ofList rest := by
      refine Dict.ofList_eq_iff.2 fun name => ?_
      have hmembers : lastBound members name = lastBound others name := by
        rw [lastBound, hkeep name, lastBound]
      refine Option.map_injective (fun _ _ => Option.some.inj) ?_
      rw [lastBound_of_ofMembers? hfields, hmembers, lastBound_of_ofMembers? hothers]
    rw [hfields, Option.map_some, Option.map_some, hlast]

theorem ofJson?_of_reordered {value other : Json} (h : value.Reordered other) :
    ofJson? value = ofJson? other := by
  induction h with
  | refl => rfl
  | permute hperm hkeep => exact ofJson?_of_permuted hperm hkeep
  | item before after _ ih =>
    simp only [ofJson?, ofItems?_eq_mapM, List.map_append, List.map_cons, ih]
  | member before after name _ ih =>
    simp only [ofJson?, ofMembers?_eq_mapM, List.map_append, List.map_cons, ih]
  | trans _ _ ih ih' => exact ih.trans ih'

/-! ## Texts and records -/

/-- The text of a value of at most 127 levels is read exactly if no null, truth value or number
stands anywhere in the value, and gives the descriptor that the value writes. Members of different
names may change places at every depth: the descriptor and its text stay the same. And records are
equal exactly if the last bindings of every name are. -/
theorem parse_string_leaves :
    (∀ value : Json, value.depth ≤ 127 →
      ((∃ d, parse (value.render .compact) = .ok d) ↔
        ∀ part : Json, part.Within value →
          part ≠ .null ∧ (∀ b, part ≠ .bool b) ∧ ∀ literal, part ≠ .number literal) ∧
      ∀ d, parse (value.render .compact) = .ok d ↔ Describes value d) ∧
    (∀ value other : Json, value.depth ≤ 127 → value.Reordered other →
      (∀ d, parse (value.render .compact) = .ok d ↔ parse (other.render .compact) = .ok d) ∧
      ∀ d e, parse (value.render .compact) = .ok d → parse (other.render .compact) = .ok e →
        d = e ∧ d.text = e.text) ∧
    ∀ fields others : List (String × Descriptor),
      record (Dict.ofList fields) = record (Dict.ofList others) ↔
        ∀ name, lastBound fields name = lastBound others name := by
  refine ⟨fun value hdepth => ?_, fun value other hdepth hreordered => ?_, fun fields others => ?_⟩
  · have hparse : ∀ d, parse (value.render .compact) = .ok d ↔ ofJson? value = some d :=
      fun _ => parse_render_eq_ok_iff hdepth .compact
    simp only [hparse]
    exact ⟨exists_ofJson?_iff value, fun _ => ofJson?_eq_some_iff value⟩
  · have hsame : ∀ d, parse (value.render .compact) = .ok d ↔
        parse (other.render .compact) = .ok d := by
      intro d
      rw [parse_render_eq_ok_iff hdepth, ofJson?_of_reordered hreordered,
        parse_render_eq_ok_iff (hreordered.depth_le_iff.1 hdepth)]
    refine ⟨hsame, fun d e hd he => ?_⟩
    obtain rfl := Except.ok.inj (((hsame d).1 hd).symm.trans he)
    exact ⟨rfl, rfl⟩
  · rw [record_inj, Dict.ofList_eq_iff]

/-- A record with a field `[]`, whose other field comes twice, at last as an array. -/
def repeatedField : Json :=
  .object [("b", .text "number"), ("[]", .text "string"),
    ("b", .object [("[]", .text "number"), ("[]", .text "boolean")])]

/-- The field `[]` in front. -/
def movedField : Json :=
  .object [("[]", .text "string"), ("b", .text "number"),
    ("b", .object [("[]", .text "number"), ("[]", .text "boolean")])]

/-- A number under a name that comes again. -/
def hiddenNumber : Json := .object [("a", .ofNat 1), ("a", .text "number")]

theorem parse_string_leaves_repeated :
    repeatedField.depth ≤ 127 ∧ repeatedField.Reordered movedField ∧
    (∃ d, parse (repeatedField.render .compact) = .ok d ∧
      parse (movedField.render .compact) = .ok d ∧
      d.text = "\x7b\"[]\":\"string\",\"b\":\x7b\"[]\":\"boolean\"\x7d\x7d") ∧
    hiddenNumber.depth ≤ 127 ∧ (¬ ∃ d, parse (hiddenNumber.render .compact) = .ok d) ∧
    record (Dict.ofList [("a", primitive "x"), ("b", primitive "y"), ("a", primitive "z")]) =
      record (Dict.ofList [("a", primitive "z"), ("b", primitive "y")]) := by
  obtain ⟨hread, hplaces, hrecords⟩ := parse_string_leaves
  have hdepth : repeatedField.depth ≤ 127 := by decide
  have hreordered : repeatedField.Reordered movedField := by
    refine .permute (.swap _ _ _) fun name => ?_
    by_cases hb : "b" = name
    · simp [← hb]
    · simp [List.filter_cons, hb]
  have hdescribes : Describes repeatedField (record (Dict.ofList
      [("[]", primitive "string"), ("b", array (primitive "boolean"))])) :=
    (ofJson?_eq_some_iff repeatedField).1 (by decide)
  have hparse := ((hread repeatedField hdepth).2 _).2 hdescribes
  have hhidden : hiddenNumber.depth ≤ 127 := by decide
  refine ⟨hdepth, hreordered, ⟨_, hparse, ?_, by decide⟩, hhidden, fun hex => ?_, ?_⟩
  · exact ((hplaces _ _ hdepth hreordered).1 _).1 hparse
  · exact (((hread hiddenNumber hhidden).1.1 hex) (.ofNat 1)
      (.member (List.mem_cons_self) .self)).2.2 _ rfl
  · refine (hrecords _ _).2 fun name => ?_
    by_cases ha : "a" = name
    · simp [lastBound, ← ha]
    · simp [lastBound, List.filter_cons, ha]

end Descriptor

end StreamTyping
