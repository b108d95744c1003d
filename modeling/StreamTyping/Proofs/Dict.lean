import Mathlib.Data.List.Induction
import Mathlib.Data.List.Nodup
import StreamTyping.Dict

/-!
# Dictionaries made from lists

* `Dict.map_ofList`: changing the values of a dictionary is changing them in
  the list that it is made from.
* `Dict.get?_ofList_eq_some_iff`: a list without repeated names binds its pairs.
* `Dict.ofList_entries`: a dictionary is made from its own entries.
* `Dict.entries_insert_perm`: binding a new name adds one entry.
* `Dict.entries_ofList_perm`: a list without repeated names is only put into order.
* `Dict.ext_get?`: dictionaries with the same bindings are equal.
* `Dict.get?_ofList`: of several pairs with one name the last one is bound, so that
  two lists make the same dictionary if their last bindings agree
  (`Dict.ofList_eq_iff`).
-/

namespace StreamTyping

theorem map_insertEntry {α β : Type} (f : α → β) (name : String) (value : α)
    (entries : List (String × α)) :
    (insertEntry name value entries).map (fun p => (p.1, f p.2)) =
      insertEntry name (f value) (entries.map fun p => (p.1, f p.2)) := by
  induction entries with
  | nil => rfl
  | cons e rest ih =>
    rw [insertEntry, List.map_cons, insertEntry]
    split
    · rfl
    · split
      · rfl
      · rw [List.map_cons, ih]

/-- A name behind all others is put at the end. -/
theorem insertEntry_of_lt {α : Type} {name : String} {entries : List (String × α)}
    (h : ∀ p ∈ entries, p.1 < name) (value : α) :
    insertEntry name value entries = entries ++ [(name, value)] := by
  induction entries with
  | nil => rfl
  | cons e rest ih =>
    have he : e.1 < name := h e (.head _)
    rw [insertEntry, if_neg (String.lt_asymm he), if_neg (Ne.symm (String.ne_of_lt he)),
      ih fun p hp => h p (.tail _ hp), List.cons_append]

/-- The value of the last pair with a name. -/
def lastBound {α : Type} (pairs : List (String × α)) (name : String) : Option α :=
  (pairs.filter fun p => p.1 = name).getLast?.map (·.2)

theorem lastBound_concat {α : Type} (pairs : List (String × α)) (p : String × α) (name : String) :
    lastBound (pairs ++ [p]) name = if p.1 = name then some p.2 else lastBound pairs name := by
  by_cases h : p.1 = name <;> simp [lastBound, h]

theorem lastBound_map {α β : Type} (f : α → β) (pairs : List (String × α)) (name : String) :
    lastBound (pairs.map fun p => (p.1, f p.2)) name = (lastBound pairs name).map f := by
  simp [lastBound, List.filter_map, List.getLast?_map, Function.comp_def]

namespace Dict

variable {α β : Type}

theorem map_insert (f : α → β) (d : Dict α) (name : String) (value : α) :
    (d.insert name value).map f = (d.map f).insert name (f value) :=
  Dict.ext (map_insertEntry f name value d.entries)

theorem map_ofList (f : α → β) (pairs : List (String × α)) :
    (ofList pairs).map f = ofList (pairs.map fun p => (p.1, f p.2)) := by
  have hfold : ∀ d : Dict α, (pairs.foldl (fun d p => d.insert p.1 p.2) d).map f =
      (pairs.map fun p => (p.1, f p.2)).foldl (fun d p => d.insert p.1 p.2) (d.map f) := by
    induction pairs with
    | nil => exact fun _ => rfl
    | cons p pairs ih =>
      intro d
      rw [List.foldl_cons, List.map_cons, List.foldl_cons, ih, map_insert]
  exact hfold empty

/-- A list without repeated names binds exactly its pairs. -/
theorem get?_ofList_eq_some_iff {pairs : List (String × α)} (h : (pairs.map (·.1)).Nodup)
    {name : String} {value : α} :
    (ofList pairs).get? name = some value ↔ (name, value) ∈ pairs := by
  -- Bindings that are there before the pairs stay if no pair has their name.
  have hfold : ∀ d : Dict α, (pairs.foldl (fun d p => d.insert p.1 p.2) d).get? name = some value ↔
      (name, value) ∈ pairs ∨ name ∉ pairs.map (·.1) ∧ d.get? name = some value := by
    induction pairs with
    | nil => simp
    | cons p pairs ih =>
      obtain ⟨hp, hpairs⟩ := List.nodup_cons.1 h
      intro d
      rw [List.foldl_cons, ih hpairs, get?_insert, List.mem_cons, List.map_cons, List.mem_cons,
        not_or, Prod.ext_iff]
      by_cases hname : name = p.1
      · have hnot : (p.1, value) ∉ pairs := fun hmem => hp (List.mem_map.2 ⟨_, hmem, rfl⟩)
        simp [hname, hnot, hp, eq_comm]
      · simp [hname]
  refine (hfold empty).trans (or_iff_left ?_)
  rintro ⟨-, hempty⟩
  cases hempty

theorem ofList_entries (d : Dict α) : ofList d.entries = d := by
  have hfold : ∀ (back : List (String × α)) (front : Dict α), Ascending (front.entries ++ back) →
      (back.foldl (fun d p => d.insert p.1 p.2) front).entries = front.entries ++ back := by
    intro back
    induction back with
    | nil => exact fun front _ => (List.append_nil front.entries).symm
    | cons p back ih =>
      intro front hall
      have hlast : ∀ q ∈ front.entries, q.1 < p.1 := fun q hq =>
        (List.pairwise_append.1 hall).2.2 q hq p (.head _)
      have hinsert : (front.insert p.1 p.2).entries = front.entries ++ [p] :=
        insertEntry_of_lt hlast p.2
      rw [List.foldl_cons, ih, hinsert, List.append_assoc, List.singleton_append]
      rwa [hinsert, List.append_assoc, List.singleton_append]
  exact Dict.ext (hfold d.entries empty d.ascending)

/-- Nothing is bound that is not among the pairs. -/
theorem mem_of_mem_entries_ofList {pairs : List (String × α)} {p : String × α}
    (h : p ∈ (ofList pairs).entries) : p ∈ pairs := by
  have hfold : ∀ (l : List (String × α)) (d : Dict α),
      p ∈ (l.foldl (fun d p => d.insert p.1 p.2) d).entries → p ∈ l ∨ p ∈ d.entries := by
    intro l
    induction l with
    | nil => exact fun _ => .inr
    | cons q l ih =>
      intro d hp
      rcases ih (d.insert q.1 q.2) hp with hp | hp
      · exact .inl (.tail _ hp)
      · rcases mem_insertEntry hp with rfl | hp
        · exact .inl (.head _)
        · exact .inr hp
  exact (hfold pairs empty h).resolve_right nofun

/-- No two entries have the same name. -/
theorem nodup_names (d : Dict α) : (d.entries.map (·.1)).Nodup :=
  List.pairwise_map.2 (d.ascending.imp String.ne_of_lt)

theorem get?_eq_some_iff {d : Dict α} {name : String} {value : α} :
    d.get? name = some value ↔ (name, value) ∈ d.entries := by
  rw [← get?_ofList_eq_some_iff d.nodup_names, ofList_entries]

/-- Binding a new name adds one entry. -/
theorem entries_insert_perm {d : Dict α} {name : String} (h : d.get? name = none) (value : α) :
    (d.insert name value).entries.Perm ((name, value) :: d.entries) := by
  have hnew : name ∉ d.entries.map (·.1) := by
    intro hmem
    obtain ⟨⟨_, old⟩, hold, rfl⟩ := List.mem_map.1 hmem
    rw [get?_eq_some_iff.2 hold] at h
    cases h
  have hnodup : (((name, value) :: d.entries).map (·.1)).Nodup :=
    List.nodup_cons.2 ⟨hnew, d.nodup_names⟩
  refine (List.perm_ext_iff_of_nodup (nodup_names _).of_map hnodup.of_map).2 fun ⟨n, v⟩ => ?_
  rw [← get?_eq_some_iff, get?_insert, List.mem_cons, ← get?_eq_some_iff]
  by_cases hn : n = name
  · simp [hn, h, eq_comm]
  · simp [hn]

/-- A list without repeated names is put into order, and nothing else is done to it. -/
theorem entries_ofList_perm {pairs : List (String × α)} (h : (pairs.map (·.1)).Nodup) :
    (ofList pairs).entries.Perm pairs := by
  refine (List.perm_ext_iff_of_nodup (ofList pairs).nodup_names.of_map h.of_map).2 fun p => ?_
  rw [← get?_ofList_eq_some_iff h, get?_eq_some_iff]

/-- Dictionaries with the same bindings are equal. -/
theorem ext_get? {d e : Dict α} (h : ∀ name, d.get? name = e.get? name) : d = e := by
  have hmem : ∀ p, p ∈ d.entries ↔ p ∈ e.entries := fun p => by
    rw [← get?_eq_some_iff, ← get?_eq_some_iff, h]
  have hperm :=
    (List.perm_ext_iff_of_nodup d.nodup_names.of_map e.nodup_names.of_map).2 hmem
  refine Dict.ext (hperm.eq_of_pairwise (fun a b _ _ hab hba => ?_) d.ascending e.ascending)
  exact absurd hba (String.lt_asymm hab)

/-- Of several pairs with one name the last one is bound. -/
theorem get?_ofList (pairs : List (String × α)) (name : String) :
    (ofList pairs).get? name = lastBound pairs name := by
  induction pairs using List.reverseRecOn with
  | nil => rfl
  | append_singleton pairs p ih =>
    have hinsert : ofList (pairs ++ [p]) = (ofList pairs).insert p.1 p.2 := List.foldl_append
    rw [hinsert, get?_insert, lastBound_concat, ih]
    simp only [eq_comm]

theorem ofList_eq_iff {pairs others : List (String × α)} :
    ofList pairs = ofList others ↔ ∀ name, lastBound pairs name = lastBound others name := by
  constructor
  · intro h name
    rw [← get?_ofList, h, get?_ofList]
  · intro h
    exact ext_get? fun name => by rw [get?_ofList, get?_ofList, h]

theorem mem_names_ofList {pairs : List (String × α)} {name : String} :
    name ∈ (ofList pairs).entries.map (·.1) ↔ name ∈ pairs.map (·.1) := by
  constructor
  · intro h
    obtain ⟨p, hp, rfl⟩ := List.mem_map.1 h
    exact List.mem_map_of_mem (mem_of_mem_entries_ofList hp)
  · intro h
    obtain ⟨value, hvalue⟩ : ∃ value, lastBound pairs name = some value := by
      rw [← Option.isSome_iff_exists]
      simpa [lastBound, List.filter_eq_nil_iff] using h
    rw [← get?_ofList, get?_eq_some_iff] at hvalue
    exact List.mem_map_of_mem hvalue

/-- Pairs with one name make a dictionary with one entry. -/
theorem exists_entries_ofList_eq_iff {pairs : List (String × α)} {only : String} :
    (∃ value, (ofList pairs).entries = [(only, value)]) ↔
      ∀ name, name ∈ pairs.map (·.1) ↔ name = only := by
  simp only [← @mem_names_ofList α pairs]
  constructor
  · rintro ⟨value, h⟩ name
    simp [h]
  · intro h
    have hperm : ((ofList pairs).entries.map (·.1)).Perm [only] :=
      (List.perm_ext_iff_of_nodup (nodup_names _) (List.nodup_singleton only)).2 (by simpa using h)
    obtain ⟨⟨name, value⟩, hentries, rfl⟩ :=
      List.map_eq_singleton_iff.1 (List.perm_singleton.1 hperm)
    exact ⟨value, hentries⟩

end Dict

end StreamTyping
