import StreamTyping.Proofs.Dict
import StreamTyping.Proofs.Documents

/-!
# Readers and what they give

A reader is looked at from two sides. `Reader.Recovers` says that it gives a
value back from what is written of it, and the lemmas about it follow the ways
in which readers are put together. `Reader.Ensures` says what is known of
anything that a reader gives, and its lemmas follow the same ways.

* `Json.depth_array_le_iff`, `Json.depth_object_le_iff`: room for a value is
  room for its parts.
* `Reader.Recovers.list`, `Reader.Recovers.dict`, `Reader.Recovers.tagged`:
  reading back lists, dictionaries and alternatives.
* `RecordFormat.Fills`: what the members of an object add to the fields that were
  read before. A record is read back once its members are
  (`RecordFormat.Fills.recovers`).
* `Reader.Ensures.list`, `Reader.Ensures.tagged`, `RecordFormat.ensures`: what is
  known of lists, alternatives and records, from what is known of their parts one
  bracket further inside.
-/

namespace StreamTyping

/-! ## Room for a value -/

namespace Json

theorem depthItems_le_iff {items : List Json} {n : Nat} :
    depthItems items ≤ n ↔ ∀ item ∈ items, item.depth ≤ n := by
  induction items with
  | nil => simp [depthItems]
  | cons item rest ih => rw [depthItems, Nat.max_le, ih, List.forall_mem_cons]

theorem depthMembers_le_iff {members : List (String × Json)} {n : Nat} :
    depthMembers members ≤ n ↔ ∀ p ∈ members, p.2.depth ≤ n := by
  induction members with
  | nil => simp [depthMembers]
  | cons p rest ih => rw [depthMembers, Nat.max_le, ih, List.forall_mem_cons]

/-- An array takes one bracket, and leaves the rest of the room to its items. -/
theorem depth_array_le_iff {items : List Json} {room : Nat} :
    (array items).depth ≤ room ↔
      ∃ inside, room = inside + 1 ∧ ∀ item ∈ items, item.depth ≤ inside := by
  rw [depth]
  constructor
  · intro h
    obtain ⟨inside, rfl⟩ : ∃ inside, room = inside + 1 := ⟨room - 1, by omega⟩
    exact ⟨inside, rfl, depthItems_le_iff.1 (by omega)⟩
  · rintro ⟨inside, rfl, h⟩
    have hitems := depthItems_le_iff.2 h
    omega

/-- An object takes one bracket, and leaves the rest of the room to its members. -/
theorem depth_object_le_iff {members : List (String × Json)} {room : Nat} :
    (object members).depth ≤ room ↔
      ∃ inside, room = inside + 1 ∧ ∀ p ∈ members, p.2.depth ≤ inside := by
  rw [depth]
  constructor
  · intro h
    obtain ⟨inside, rfl⟩ : ∃ inside, room = inside + 1 := ⟨room - 1, by omega⟩
    exact ⟨inside, rfl, depthMembers_le_iff.1 (by omega)⟩
  · rintro ⟨inside, rfl, h⟩
    have hmembers := depthMembers_le_iff.2 h
    omega

theorem forall_mem_optional {α : Type} {name : String} {encode : α → Json} {o : Option α}
    {P : String × Json → Prop} :
    (∀ p ∈ optional name encode o, P p) ↔ ∀ a ∈ o, P (name, encode a) := by
  cases o <;> simp [optional]

theorem itemTrees_eq_map (items : List Json) : itemTrees items = items.map toTree := by
  induction items with
  | nil => rfl
  | cons item rest ih => rw [itemTrees, ih, List.map_cons]

theorem memberTrees_append (front back : List (String × Json)) :
    memberTrees (front ++ back) = memberTrees front ++ memberTrees back := by
  induction front with
  | nil => rfl
  | cons p front ih => rw [List.cons_append, memberTrees, ih, memberTrees, List.cons_append]

end Json

/-! ## Reading back -/

namespace Reader

variable {α β : Type}

/-- The reader gives `a` back from what is written as `value`, with room for so many open
brackets. -/
def Recovers (reader : Reader α) (room : Nat) (value : Json) (a : α) : Prop :=
  reader room value.toTree = .ok a

theorem recovers_text (room : Nat) (content : String) :
    Reader.text.Recovers room (.text content) content := rfl

theorem recovers_boolean (room : Nat) (value : Bool) :
    Reader.boolean.Recovers room (.bool value) value := rfl

theorem recovers_word32 (room : Nat) (n : UInt32) :
    Reader.word32.Recovers room (.ofNat n.toNat) n := by
  have hsize : n.toNat < UInt32.size := n.toNat_lt_size
  have hinteger : (Numeral.ofNat n.toNat).integer? = some (n.toNat : Int) := by
    have hfits : n.toNat < UInt64.size := Nat.lt_trans hsize (by decide)
    simp [Numeral.integer?, Numeral.ofNat, hfits]
  show Reader.word32 room (.number (Numeral.ofNat n.toNat)) = .ok n
  simp only [word32, hinteger]
  rw [if_pos (by simpa using hsize), Int.toNat_natCast, UInt32.ofNat_toNat]

theorem mapM_map {f : β → Tree} {read : Tree → Except ReadError α} {g : β → α} {l : List β}
    (h : ∀ b ∈ l, read (f b) = .ok (g b)) : (l.map f).mapM read = .ok (l.map g) := by
  induction l with
  | nil => rfl
  | cons b l ih =>
    obtain ⟨hb, hl⟩ := List.forall_mem_cons.1 h
    rw [List.map_cons, List.mapM_cons, hb, ih hl]
    rfl

theorem members_memberTrees {value : Reader α} {room : Nat} {encode : β → Json} {f : β → α}
    {entries : List (String × β)}
    (h : ∀ p ∈ entries, value.Recovers room (encode p.2) (f p.2)) :
    members value room (Json.memberTrees (entries.map fun p => (p.1, encode p.2))) =
      .ok (entries.map fun p => (p.1, f p.2)) := by
  induction entries with
  | nil => rfl
  | cons p entries ih =>
    obtain ⟨hp, hentries⟩ := List.forall_mem_cons.1 h
    rw [Recovers] at hp
    rw [List.map_cons, Json.memberTrees, members, hp, ih hentries]
    rfl

/-- The alternative of a name is the first one with it. -/
theorem variant?_eq_ok {name : String} {variants : List (String × α)} {v : String × α}
    (h : variants.find? (fun v => v.1 = name) = some v) : variant? name variants = .ok v.2 := by
  rw [variant?, h]

namespace Recovers

variable {reader : Reader α} {room : Nat} {value : Json} {a : α}

theorem map (h : reader.Recovers room value a) (f : α → β) :
    (reader.map f).Recovers room value (f a) := by
  rw [Recovers] at h ⊢
  rw [Reader.map, h]
  rfl

/-- A value that is there is not written as the mark of an absent one. -/
theorem optional (h : reader.Recovers room value a) (hnull : value ≠ .null) :
    (Reader.optional reader).Recovers room value (some a) := by
  have hsome : Reader.optional reader room value.toTree = (reader room value.toTree).map some := by
    cases value with
    | null => exact absurd rfl hnull
    | bool | number | text | array | object => rfl
  rw [Recovers] at h ⊢
  rw [hsome, h]
  rfl

theorem list {encode : β → Json} {f : β → α} {l : List β}
    (h : ∀ b ∈ l, reader.Recovers room (encode b) (f b)) :
    (Reader.list reader).Recovers (room + 1) (.array (l.map encode)) (l.map f) := by
  have hitems : (Json.itemTrees (l.map encode)).mapM (reader room) = .ok (l.map f) := by
    rw [Json.itemTrees_eq_map, List.map_map]
    exact mapM_map h
  rw [Recovers, Json.toTree, Reader.list, hitems]
  rfl

theorem dict {encode : β → Json} {f : β → α} {d : Dict β}
    (h : ∀ p ∈ d.entries, reader.Recovers room (encode p.2) (f p.2)) :
    (Reader.dict reader).Recovers (room + 1) (.ofEntries encode d.entries) (d.map f) := by
  have hentries := members_memberTrees h
  have hdict : Dict.ofList (d.entries.map fun p => (p.1, f p.2)) = d.map f := by
    rw [← Dict.map_ofList, Dict.ofList_entries]
  rw [Recovers, Json.ofEntries, Json.toTree, Reader.dict, hentries, ← hdict]
  rfl

theorem tagged {variants : List (String × Reader α)} {name : String}
    (h : reader.Recovers room value a)
    (hvariant : variants.find? (fun v => v.1 = name) = some (name, reader)) :
    (Reader.tagged variants).Recovers (room + 1) (.object [(name, value)]) a := by
  rw [Recovers] at h
  show (variant? name variants >>= fun read => read room value.toTree >>= close true) = .ok a
  rw [variant?_eq_ok hvariant]
  show reader room value.toTree >>= close true = .ok a
  rw [h]
  rfl

theorem choice {variants : List (String × α)} {name : String}
    (h : variants.find? (fun v => v.1 = name) = some (name, a)) :
    (Reader.choice variants).Recovers room (.text name) a := by
  have hvariant : Reader.choice variants room (.text (some name)) = variant? name variants := by
    cases room <;> rfl
  exact hvariant.trans (variant?_eq_ok h)

end Recovers

end Reader

/-! ## Records -/

namespace RecordFormat

variable {σ α β : Type}

/-- Reading the members leads from the fields that were read before to those that then are. -/
def Fills (format : RecordFormat σ α) (room : Nat) (members : List (String × Json)) (s t : σ) :
    Prop :=
  format.readMembers room (Json.memberTrees members) s = .ok t

theorem readMembers_append (format : RecordFormat σ α) (room : Nat)
    (front back : List (Option String × Tree)) (s : σ) :
    format.readMembers room (front ++ back) s =
      format.readMembers room front s >>= format.readMembers room back := by
  induction front generalizing s with
  | nil => rfl
  | cons p front ih =>
    obtain ⟨_ | name, tree⟩ := p
    · rfl
    · rw [List.cons_append, readMembers, readMembers]
      split
      · split
        · rfl
        · rw [bind_assoc]
          exact bind_congr fun t => ih t
      · split
        · exact ih s
        · rfl

namespace Fills

variable {format : RecordFormat σ α} {room : Nat} {s t : σ}

theorem append {front back : List (String × Json)} {u : σ} (hfront : format.Fills room front s t)
    (hback : format.Fills room back t u) : format.Fills room (front ++ back) s u := by
  rw [Fills] at hfront hback ⊢
  rw [Json.memberTrees_append, readMembers_append, hfront]
  exact hback

theorem nil : format.Fills room [] s s := rfl

section Member

variable {name : String} {reader : Reader β} {get : σ → Option β} {set : σ → β → σ}

/-- A member of a field that has not been read yet. -/
theorem cons {value : Json} {b : β} {rest : List (String × Json)}
    (hfield : format.fields.find? (fun f => f.name = name) = some (.of name reader get set))
    (hnew : get s = none) (hread : reader.Recovers room value b)
    (hrest : format.Fills room rest (set s b) t) :
    format.Fills room ((name, value) :: rest) s t := by
  have hfilled : (Field.of name reader get set).filled s = false := by simp [Field.of, hnew]
  have hstore : (Field.of name reader get set).store s room value.toTree = .ok (set s b) :=
    hread.map (set s)
  rw [Fills] at hrest ⊢
  rw [Json.memberTrees, readMembers, hfield]
  simp only [hfilled, hstore]
  exact hrest

end Member

/-- A member that is left out if there is nothing to write. -/
theorem optional {γ : Type} {name : String} {reader : Reader β} {get : σ → Option (Option β)}
    {set : σ → Option β → σ} {encode : γ → Json} {f : γ → β} {o : Option γ}
    (hfield : format.fields.find? (fun f => f.name = name) =
      some (.of name (Reader.optional reader) get set))
    (hnew : get s = none)
    (hread : ∀ c ∈ o, reader.Recovers room (encode c) (f c) ∧ encode c ≠ .null) :
    format.Fills room (Json.optional name encode o) s (o.elim s fun c => set s (some (f c))) := by
  cases o with
  | none => exact nil
  | some c =>
    obtain ⟨hread, hnull⟩ := hread c rfl
    exact cons hfield hnew (hread.optional hnull) nil

/-- A record is read back once its members are. -/
theorem recovers {members : List (String × Json)} {a : α}
    (h : format.Fills room members format.start s) (hfinish : format.finish s = .ok a) :
    format.reader.Recovers (room + 1) (.object members) a := by
  rw [Fills] at h
  rw [Reader.Recovers, Json.toTree, RecordFormat.reader, h]
  simp [bind, Except.bind, Reader.close, hfinish]

end Fills

end RecordFormat

/-! ## What is known of what is read -/

namespace Reader

variable {α β : Type}

/-- Whatever the reader gives, from a tree of any kind, has the property. -/
def Ensures (reader : Reader α) (room : Nat) (P : α → Prop) : Prop :=
  ∀ tree a, reader room tree = .ok a → P a

theorem mismatch_ne_ok (expected : Expected) (tree : Tree) (a : α) :
    mismatch expected tree ≠ .ok a := by
  rw [mismatch]
  split <;> simp

theorem exists_of_map_eq_ok {reader : Reader α} {f : α → β} {room : Nat} {tree : Tree} {b : β}
    (h : reader.map f room tree = .ok b) : ∃ a, reader room tree = .ok a ∧ f a = b := by
  rw [Reader.map] at h
  cases hread : reader room tree with
  | error e => rw [hread] at h; cases h
  | ok a =>
    rw [hread] at h
    exact ⟨a, rfl, Except.ok.inj h⟩

theorem exists_of_variant?_eq_ok {name : String} {variants : List (String × β)} {b : β}
    (h : variant? name variants = .ok b) : ∃ v ∈ variants, v.2 = b := by
  rw [variant?] at h
  split at h
  · rename_i v hv
    exact ⟨v, List.mem_of_find?_eq_some hv, Except.ok.inj h⟩
  · cases h

namespace Ensures

variable {reader : Reader α} {room : Nat} {P : α → Prop}

theorem trivial : reader.Ensures room fun _ => True := fun _ _ _ => .intro

theorem map {f : α → β} {Q : β → Prop} (h : reader.Ensures room fun a => Q (f a)) :
    (reader.map f).Ensures room Q := by
  intro tree b hread
  obtain ⟨a, ha, rfl⟩ := exists_of_map_eq_ok hread
  exact h tree a ha

theorem optional (h : reader.Ensures room P) :
    (Reader.optional reader).Ensures room fun o => ∀ a ∈ o, P a := by
  rintro tree _ hread a rfl
  cases tree with
  | null => cases hread
  | bool | number | text | array | object | broken =>
    obtain ⟨b, hb, heq⟩ := exists_of_map_eq_ok (f := some) hread
    exact Option.some.inj heq ▸ h _ b hb

theorem mapM {items : List Tree} {l : List α} (h : reader.Ensures room P)
    (hread : items.mapM (reader room) = .ok l) : ∀ a ∈ l, P a := by
  induction items generalizing l with
  | nil =>
    cases hread
    simp
  | cons item items ih =>
    rw [List.mapM_cons] at hread
    obtain ⟨a, ha, hread⟩ := exists_of_bind_eq_ok hread
    obtain ⟨rest, hrest, hread⟩ := exists_of_bind_eq_ok hread
    cases hread
    exact List.forall_mem_cons.2 ⟨h item a ha, ih hrest⟩

theorem list (h : reader.Ensures room P) :
    (Reader.list reader).Ensures (room + 1) fun l => ∀ a ∈ l, P a := by
  intro tree l hread
  cases tree with
  | array items closed =>
    obtain ⟨values, hvalues, hclose⟩ := exists_of_bind_eq_ok hread
    rw [← eq_of_close_eq_ok hclose]
    exact h.mapM hvalues
  | null | bool | number | text | object | broken => simp [Reader.list, mismatch_ne_ok] at hread

/-- An alternative is read by one of the readers, one bracket further inside. -/
theorem tagged {variants : List (String × Reader α)}
    (h : ∀ v ∈ variants, v.2.Ensures room P) : (Reader.tagged variants).Ensures (room + 1) P := by
  intro tree a hread
  cases tree with
  | object ms closed =>
    match ms with
    | [] | (none, _) :: _ => cases hread
    | (some name, t) :: rest =>
      obtain ⟨read, hvariant, hread⟩ := exists_of_bind_eq_ok hread
      obtain ⟨b, hb, hclose⟩ := exists_of_bind_eq_ok hread
      obtain ⟨v, hv, rfl⟩ := exists_of_variant?_eq_ok hvariant
      exact eq_of_close_eq_ok hclose ▸ h v hv t b hb
  | text content =>
    cases content with
    | none => cases hread
    | some name =>
      obtain ⟨_, -, hread⟩ := exists_of_bind_eq_ok hread
      cases hread
  | null | bool | number | array | broken => cases hread

/-- What is known of anything that the reader gives is known of what it gives for a text. -/
theorem of_read (h : reader.Ensures nestingLimit P) {text : String} {a : α}
    (hread : reader.read text = .ok a) : P a :=
  h _ a (root_of_read_eq_ok hread)

end Ensures

end Reader

/-- Reading the field keeps what was known of the fields before. -/
def Field.Keeps {σ : Type} (field : Field σ) (room : Nat) (I : σ → Prop) : Prop :=
  ∀ s, I s → (field.store s).Ensures room I

theorem Field.Keeps.of {σ α : Type} {name : String} {reader : Reader α} {get : σ → Option α}
    {set : σ → α → σ} {room : Nat} {I : σ → Prop} {P : α → Prop} (h : reader.Ensures room P)
    (hset : ∀ s a, I s → P a → I (set s a)) : (Field.of name reader get set).Keeps room I :=
  fun s hs => .map fun tree a ha => hset s a hs (h tree a ha)

namespace RecordFormat

variable {σ α : Type}

theorem eq_some_of_required {name : String} {o : Option α} {a : α}
    (h : required name o = .ok a) : o = some a := by
  cases o with
  | none => cases h
  | some b => exact congrArg some (Except.ok.inj h)

variable {format : RecordFormat σ α} {room : Nat} {I : σ → Prop}
  (hkeeps : ∀ field ∈ format.fields, field.Keeps room I)

include hkeeps

/-- What every field keeps is kept by the members of an object. -/
theorem readMembers_keeps {members : List (Option String × Tree)} {s t : σ} (hs : I s)
    (h : format.readMembers room members s = .ok t) : I t := by
  induction members generalizing s with
  | nil => exact Except.ok.inj h ▸ hs
  | cons p members ih =>
    obtain ⟨_ | name, tree⟩ := p
    · cases h
    · rw [readMembers] at h
      split at h
      · rename_i field hfield
        split at h
        · cases h
        · obtain ⟨u, hu, h⟩ := exists_of_bind_eq_ok h
          exact ih (hkeeps field (List.mem_of_find?_eq_some hfield) s hs tree u hu) h
      · split at h
        · exact ih hs h
        · cases h

/-- What every field keeps is kept by the items of an array. -/
theorem readItems_keeps {fields : List (Field σ)} (hfields : fields ⊆ format.fields)
    {items : List Tree} {s t : σ} (hs : I s) (h : readItems room fields items s = .ok t) : I t := by
  induction items generalizing fields s with
  | nil =>
    rw [readItems] at h
    exact Except.ok.inj h ▸ hs
  | cons item items ih =>
    cases fields with
    | nil => cases h
    | cons field fields =>
      obtain ⟨hfield, hrest⟩ := List.cons_subset.1 hfields
      rw [readItems] at h
      obtain ⟨u, hu, h⟩ := exists_of_bind_eq_ok h
      exact ih hrest (hkeeps field hfield s hs item u hu) h

/-- A record is made of fields that were read one after another, one bracket further inside. -/
theorem ensures {P : α → Prop} (hstart : I format.start)
    (hfinish : ∀ s a, I s → format.finish s = .ok a → P a) :
    format.reader.Ensures (room + 1) P := by
  intro tree a h
  cases tree with
  | object members closed =>
    obtain ⟨s, hs, h⟩ := exists_of_bind_eq_ok h
    obtain ⟨t, ht, h⟩ := exists_of_bind_eq_ok h
    have hkept : I t := Reader.eq_of_close_eq_ok ht ▸ readMembers_keeps hkeeps hstart hs
    split at h
    · rename_i b hb
      exact Except.ok.inj h ▸ hfinish t b hkept hb
    · cases h
  | array items closed =>
    obtain ⟨s, hs, h⟩ := exists_of_bind_eq_ok h
    obtain ⟨t, ht, h⟩ := exists_of_bind_eq_ok h
    have hkept : I t :=
      Reader.eq_of_close_eq_ok ht ▸ readItems_keeps hkeeps (fun _ hf => hf) hstart hs
    split at h
    · rename_i b hb
      exact Except.ok.inj h ▸ hfinish t b hkept hb
    · cases h
  | null | bool | number | text | broken => simp [RecordFormat.reader, Reader.mismatch_ne_ok] at h

end RecordFormat

end StreamTyping
