/-!
# Finite maps listed by name

A `Dict` is a list of named entries in strictly ascending order of names
(by code point). The order is part of the type, so two dictionaries with the
same bindings are equal, and listing one gives its entries in order.

* `Dict.insert` binds a name, replacing an earlier binding of it.
* `Dict.ofList` binds the pairs of a list from left to right: of several
  bindings of a name the last one stays.
* `Dict.get?_insert` says what `insert` does to every look-up.
-/

namespace StreamTyping

/-- Entries in strictly ascending order of their names. -/
def Ascending {α : Type} (entries : List (String × α)) : Prop :=
  entries.Pairwise fun a b => a.1 < b.1

instance {α : Type} (entries : List (String × α)) : Decidable (Ascending entries) :=
  inferInstanceAs (Decidable (entries.Pairwise _))

/-- Puts a binding at its place in ascending entries, over an earlier binding
of the same name. -/
def insertEntry {α : Type} (name : String) (value : α) :
    List (String × α) → List (String × α)
  | [] => [(name, value)]
  | (n, v) :: rest =>
    if name < n then (name, value) :: (n, v) :: rest
    else if name = n then (name, value) :: rest
    else (n, v) :: insertEntry name value rest

theorem mem_insertEntry {α : Type} {name : String} {value : α} {p : String × α}
    {entries : List (String × α)} (h : p ∈ insertEntry name value entries) :
    p = (name, value) ∨ p ∈ entries := by
  induction entries with
  | nil => simpa [insertEntry] using h
  | cons e rest ih =>
    obtain ⟨n, v⟩ := e
    unfold insertEntry at h
    split at h
    · simpa using h
    · split at h
      · rcases List.mem_cons.1 h with h | h
        · exact .inl h
        · exact .inr (List.mem_cons_of_mem _ h)
      · rcases List.mem_cons.1 h with h | h
        · exact .inr (h ▸ List.mem_cons_self)
        · exact (ih h).imp_right (List.mem_cons_of_mem _)

theorem Ascending.insertEntry {α : Type} {entries : List (String × α)} (h : Ascending entries)
    (name : String) (value : α) : Ascending (insertEntry name value entries) := by
  induction entries with
  | nil => simp [StreamTyping.insertEntry, Ascending]
  | cons e rest ih =>
    obtain ⟨n, v⟩ := e
    obtain ⟨hn, hrest⟩ := List.pairwise_cons.1 h
    unfold StreamTyping.insertEntry
    split
    · rename_i hlt
      refine List.pairwise_cons.2 ⟨fun p hp => ?_, h⟩
      rcases List.mem_cons.1 hp with rfl | hp
      · exact hlt
      · exact String.lt_trans hlt (hn p hp)
    · rename_i hlt
      split
      · rename_i heq
        exact List.pairwise_cons.2 ⟨fun p hp => heq ▸ hn p hp, hrest⟩
      · rename_i hne
        refine List.pairwise_cons.2 ⟨fun p hp => ?_, ih hrest⟩
        rcases mem_insertEntry hp with rfl | hp
        · have hle : n ≤ name := String.not_lt.1 hlt
          exact Decidable.byContradiction fun hnot =>
            hne (String.le_antisymm (String.not_lt.1 hnot) hle)
        · exact hn p hp

/-- A finite map from names to values, listed by ascending name. -/
@[ext] structure Dict (α : Type) where
  entries : List (String × α)
  ascending : Ascending entries
deriving DecidableEq

namespace Dict

variable {α β : Type}

/-- The map without entries. -/
def empty : Dict α := ⟨[], List.Pairwise.nil⟩

instance : EmptyCollection (Dict α) := ⟨empty⟩
instance : Inhabited (Dict α) := ⟨empty⟩

/-- Binds a name, over an earlier binding of it. -/
def insert (d : Dict α) (name : String) (value : α) : Dict α :=
  ⟨insertEntry name value d.entries, d.ascending.insertEntry name value⟩

/-- Binds the pairs from left to right, so that the last binding of a name stays. -/
def ofList (pairs : List (String × α)) : Dict α :=
  pairs.foldl (fun d p => d.insert p.1 p.2) empty

/-- The value bound to a name. -/
def get? (d : Dict α) (name : String) : Option α :=
  (d.entries.find? fun p => p.1 = name).map (·.2)

/-- The number of names bound. -/
def size (d : Dict α) : Nat := d.entries.length

/-- The same names, each value changed by `f`. -/
def map (f : α → β) (d : Dict α) : Dict β :=
  ⟨d.entries.map fun p => (p.1, f p.2), by
    have h := d.ascending
    simpa only [Ascending, List.pairwise_map] using h⟩

theorem find?_insertEntry (name n : String) (value : α) (entries : List (String × α)) :
    (insertEntry name value entries).find? (fun p => p.1 = n) =
      if n = name then some (name, value) else entries.find? fun p => p.1 = n := by
  induction entries with
  | nil => by_cases h : n = name <;> simp [insertEntry, h, Ne.symm, eq_comm]
  | cons e rest ih => grind [insertEntry]

theorem get?_insert (d : Dict α) (name n : String) (value : α) :
    (d.insert name value).get? n = if n = name then some value else d.get? n := by
  simp only [get?, insert, find?_insertEntry]
  split <;> rfl

@[simp] theorem get?_empty (n : String) : (empty : Dict α).get? n = none := rfl

end Dict

end StreamTyping
