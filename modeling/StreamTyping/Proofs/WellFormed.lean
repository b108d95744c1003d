import Mathlib.Data.List.Induction
import StreamTyping.Graph.Basic
import StreamTyping.Proofs.Dict

/-!
# Well-formed graphs

The graphs that come about by adding streams, edges and types to the empty one:
the id of a stream or an edge is its position, no two streams have the same
name, the index leads from the names of the streams to their positions and from
no other name anywhere, the ends of every edge are streams, and every stream
lists the edges at it in the order in which they were added
(`Graph.WellFormed`).

* `Graph.names`: the names in the index, which are those of the streams
  (`Graph.WellFormed.mem_names`).
* `Graph.WellFormed.childEdges_eq`: the list of children of a stream leads to
  the edges that go out of it.
* `Graph.wellFormed_empty`, and `intern`, `connect`, `addInput` and `addOutput`
  under `Graph.WellFormed`: every way of adding to a graph keeps it well-formed.
-/

namespace StreamTyping

/-! ## Lists without repeats -/

theorem eraseDups_concat {α : Type} [BEq α] [LawfulBEq α] (l : List α) (a : α) :
    (l ++ [a]).eraseDups = if a ∈ l then l.eraseDups else l.eraseDups ++ [a] := by
  rw [List.eraseDups_append, List.removeAll]
  by_cases h : a ∈ l <;> simp [h, List.eraseDups_cons]

theorem nodup_eraseDups {α : Type} [BEq α] [LawfulBEq α] (l : List α) : l.eraseDups.Nodup := by
  induction l using List.reverseRecOn with
  | nil => simp
  | append_singleton l a ih =>
    rw [eraseDups_concat]
    split
    · exact ih
    · rename_i h
      rw [List.nodup_append]
      refine ⟨ih, by simp, fun x hx y hy hxy => h ?_⟩
      rw [← List.mem_singleton.1 hy, ← hxy]
      exact List.mem_eraseDups.1 hx

theorem eraseDups_of_nodup {α : Type} [BEq α] [LawfulBEq α] {l : List α} (h : l.Nodup) :
    l.eraseDups = l := by
  induction l with
  | nil => rfl
  | cons a l ih =>
    obtain ⟨ha, hl⟩ := List.nodup_cons.1 h
    have hfilter : l.filter (fun b => !b == a) = l := by
      refine List.filter_eq_self.2 fun b hb => ?_
      have hne : b ≠ a := fun hba => ha (hba ▸ hb)
      simpa using hne
    rw [List.eraseDups_cons, hfilter, ih hl]

namespace Graph

/-- The edges that go out of a stream. -/
def edgesFrom (g : Graph) (id : StreamId) : List Edge := g.edges.filter fun e => e.source = id

/-- The edges that come into a stream. -/
def edgesInto (g : Graph) (id : StreamId) : List Edge := g.edges.filter fun e => e.target = id

/-- The name of the stream with an id. -/
def nameOf? (g : Graph) (id : StreamId) : Option String := (g.stream? id).map (·.name)

/-- The names that lead to an id. -/
def names (g : Graph) : List String := g.index.entries.map (·.1)

/-- Ids are positions, names are different, the index lists the streams, edges end at streams,
and every stream lists the edges at it. -/
structure WellFormed (g : Graph) : Prop where
  stream_ids : g.streams.map (·.id) = List.range g.streams.length
  edge_ids : g.edges.map (·.id) = List.range g.edges.length
  names_nodup : (g.streams.map (·.name)).Nodup
  /-- The index has one entry for every stream, and no others. -/
  index_perm : g.index.entries.Perm (g.streams.map fun s => (s.name, s.id))
  ends : ∀ e ∈ g.edges, e.source < g.streams.length ∧ e.target < g.streams.length
  children_eq : ∀ s ∈ g.streams, s.children = (g.edgesFrom s.id).map (·.id)
  parents_eq : ∀ s ∈ g.streams, s.parents = (g.edgesInto s.id).map (·.id)

instance (g : Graph) : Decidable g.WellFormed :=
  decidable_of_iff
    ((g.streams.map (·.id) = List.range g.streams.length ∧
        g.edges.map (·.id) = List.range g.edges.length ∧ (g.streams.map (·.name)).Nodup ∧
        g.index.entries.Perm (g.streams.map fun s => (s.name, s.id))) ∧
      (∀ e ∈ g.edges, e.source < g.streams.length ∧ e.target < g.streams.length) ∧
      (∀ s ∈ g.streams, s.children = (g.edgesFrom s.id).map (·.id)) ∧
      ∀ s ∈ g.streams, s.parents = (g.edgesInto s.id).map (·.id))
    ⟨fun ⟨⟨hs, he, hn, hi⟩, hends, hc, hp⟩ => ⟨hs, he, hn, hi, hends, hc, hp⟩,
      fun h => ⟨⟨h.stream_ids, h.edge_ids, h.names_nodup, h.index_perm⟩, h.ends, h.children_eq,
        h.parents_eq⟩⟩

theorem exists_stream? {g : Graph} {i : StreamId} (h : i < g.streams.length) :
    ∃ s, g.stream? i = some s := ⟨g.streams[i], List.getElem?_eq_getElem h⟩

theorem lt_of_stream? {g : Graph} {i : StreamId} {s : Stream} (h : g.stream? i = some s) :
    i < g.streams.length := (List.getElem?_eq_some_iff.1 h).1

theorem mem_of_stream? {g : Graph} {i : StreamId} {s : Stream} (h : g.stream? i = some s) :
    s ∈ g.streams := List.mem_of_getElem? h

theorem exists_stream?_of_mem {g : Graph} {s : Stream} (h : s ∈ g.streams) :
    ∃ i, g.stream? i = some s := List.mem_iff_getElem?.1 h

/-- Two graphs with the same edges, the same index and the same stream at every position are
equal. -/
theorem ext_stream? {g h : Graph} (hedges : g.edges = h.edges) (hindex : g.index = h.index)
    (hstreams : ∀ i, g.stream? i = h.stream? i) : g = h := by
  obtain ⟨gs, ge, gi⟩ := g
  obtain ⟨hs, he, hi⟩ := h
  obtain rfl : gs = hs := List.ext_getElem? hstreams
  obtain rfl : ge = he := hedges
  obtain rfl : gi = hi := hindex
  rfl

theorem map_eq_of_stream? {α : Type} {g h : Graph} {f : Stream → α}
    (hstreams : ∀ t, (g.stream? t).map f = (h.stream? t).map f) :
    g.streams.map f = h.streams.map f := by
  refine List.ext_getElem? fun t => ?_
  rw [List.getElem?_map, List.getElem?_map]
  exact hstreams t

theorem map_stream?_of_map {α : Type} {g h : Graph} {f : Stream → α}
    (hstreams : g.streams.map f = h.streams.map f) (t : StreamId) :
    (g.stream? t).map f = (h.stream? t).map f := by
  rw [stream?, stream?, ← List.getElem?_map, ← List.getElem?_map, hstreams]

theorem nameOf?_eq_some_iff {g : Graph} {i : StreamId} {name : String} :
    g.nameOf? i = some name ↔ ∃ s, g.stream? i = some s ∧ s.name = name := by
  rw [nameOf?, Option.map_eq_some_iff]

theorem lt_of_nameOf? {g : Graph} {i : StreamId} {name : String} (h : g.nameOf? i = some name) :
    i < g.streams.length := by
  obtain ⟨s, hs, -⟩ := nameOf?_eq_some_iff.1 h
  exact lt_of_stream? hs

theorem nameOf?_eq_getElem? (g : Graph) (i : StreamId) :
    g.nameOf? i = (g.streams.map (·.name))[i]? := by
  rw [nameOf?, List.getElem?_map]
  rfl

theorem mem_names_iff {g : Graph} {name : String} :
    name ∈ g.names ↔ ∃ id, g.lookup? name = some id := by
  simp [names, lookup?, Dict.get?_eq_some_iff]

theorem lookup?_eq_none_iff {g : Graph} {name : String} :
    g.lookup? name = none ↔ name ∉ g.names := by
  rw [mem_names_iff, ← Option.ne_none_iff_exists', not_not]

/-! ## What a well-formed graph says -/

namespace WellFormed

variable {g : Graph} (hg : g.WellFormed)

include hg

theorem id_eq {i : StreamId} {s : Stream} (h : g.stream? i = some s) : s.id = i := by
  have hi := lt_of_stream? h
  have hids : (g.streams.map (·.id))[i]? = some s.id := by
    rw [List.getElem?_map, ← stream?, h]
    rfl
  rw [hg.stream_ids, List.getElem?_range hi] at hids
  exact (Option.some.inj hids).symm

theorem stream?_id {s : Stream} (h : s ∈ g.streams) : g.stream? s.id = some s := by
  obtain ⟨i, hi⟩ := exists_stream?_of_mem h
  rw [hg.id_eq hi]
  exact hi

theorem edge?_id {e : Edge} (h : e ∈ g.edges) : g.edge? e.id = some e := by
  obtain ⟨i, hi⟩ := List.mem_iff_getElem?.1 h
  have hlt := (List.getElem?_eq_some_iff.1 hi).1
  have hids : (g.edges.map (·.id))[i]? = some e.id := by
    rw [List.getElem?_map, hi]
    rfl
  rw [hg.edge_ids, List.getElem?_range hlt] at hids
  rw [← Option.some.inj hids]
  exact hi

/-- A name belongs to one position only. -/
theorem nameOf?_inj {i j : StreamId} {name : String} (hi : g.nameOf? i = some name)
    (hj : g.nameOf? j = some name) : i = j := by
  have hlt : i < (g.streams.map (·.name)).length := by
    rw [List.length_map]
    exact lt_of_nameOf? hi
  rw [nameOf?_eq_getElem?] at hi hj
  exact (List.getElem?_inj hlt hg.names_nodup).1 (hi.trans hj.symm)

/-- The id that a name leads to is the position of the stream with that name. -/
theorem lookup?_eq_some_iff {i : StreamId} {name : String} :
    g.lookup? name = some i ↔ g.nameOf? i = some name := by
  rw [lookup?, Dict.get?_eq_some_iff, hg.index_perm.mem_iff, List.mem_map, nameOf?_eq_some_iff]
  constructor
  · rintro ⟨s, hs, ⟨⟩⟩
    exact ⟨s, hg.stream?_id hs, rfl⟩
  · rintro ⟨s, hs, rfl⟩
    exact ⟨s, mem_of_stream? hs, by rw [hg.id_eq hs]⟩

/-- The names in the index are those of the streams. -/
theorem mem_names {name : String} : name ∈ g.names ↔ name ∈ g.streams.map (·.name) := by
  have hperm := hg.index_perm.map (·.1)
  rw [List.map_map] at hperm
  exact hperm.mem_iff

theorem children_of_stream? {i : StreamId} {s : Stream} (h : g.stream? i = some s) :
    s.children = (g.edgesFrom i).map (·.id) := by
  rw [hg.children_eq s (mem_of_stream? h), hg.id_eq h]

theorem parents_of_stream? {i : StreamId} {s : Stream} (h : g.stream? i = some s) :
    s.parents = (g.edgesInto i).map (·.id) := by
  rw [hg.parents_eq s (mem_of_stream? h), hg.id_eq h]

/-- The ids of edges lead to these edges. -/
theorem filterMap_edge? {edges : List Edge} (h : ∀ e ∈ edges, e ∈ g.edges) :
    (edges.map (·.id)).filterMap g.edge? = edges := by
  induction edges with
  | nil => rfl
  | cons e edges ih =>
    rw [List.map_cons, List.filterMap_cons_some (hg.edge?_id (h e List.mem_cons_self)),
      ih fun f hf => h f (List.mem_cons_of_mem _ hf)]

theorem childEdges_eq {i : StreamId} {s : Stream} (h : g.stream? i = some s) :
    g.childEdges s = g.edgesFrom i := by
  rw [childEdges, hg.children_of_stream? h]
  exact hg.filterMap_edge? fun e he => (List.mem_filter.1 he).1

end WellFormed

/-! ## Adding to a well-formed graph -/

theorem intern_of_lookup? {g : Graph} {name : String} {id : StreamId}
    (h : g.lookup? name = some id) (locator : Option Locator) : g.intern name locator = (g, id) := by
  rw [intern, h]

theorem intern_of_lookup?_none {g : Graph} {name : String} (h : g.lookup? name = none)
    (locator : Option Locator) :
    g.intern name locator =
      ({ g with
          streams := g.streams ++ [{ id := g.streams.length, name, locator }]
          index := g.index.insert name g.streams.length },
        g.streams.length) := by
  rw [intern, h]

/-- A stream after a name has been added is one from before, or the new one. -/
theorem stream?_intern {g : Graph} {name : String} (h : g.lookup? name = none)
    {locator : Option Locator} {i : StreamId} {s : Stream}
    (hs : (g.intern name locator).1.stream? i = some s) :
    g.stream? i = some s ∨ s = { id := g.streams.length, name, locator } := by
  rw [intern_of_lookup?_none h] at hs
  by_cases hi : i < g.streams.length
  · refine .inl ?_
    rwa [stream?, List.getElem?_append_left hi] at hs
  · rw [stream?, List.getElem?_append_right (Nat.le_of_not_lt hi)] at hs
    exact .inr (List.mem_singleton.1 (List.mem_of_getElem? hs))

theorem nameOf?_intern {g : Graph} {i : StreamId} {n : String} (h : g.nameOf? i = some n)
    (name : String) (locator : Option Locator) :
    (g.intern name locator).1.nameOf? i = some n := by
  cases hl : g.lookup? name with
  | some id => rw [intern_of_lookup? hl, h]
  | none =>
    rw [intern_of_lookup?_none hl, nameOf?, stream?, List.getElem?_append_left (lt_of_nameOf? h)]
    exact h

theorem WellFormed.nameOf?_intern_self {g : Graph} (hg : g.WellFormed) (name : String)
    (locator : Option Locator) :
    (g.intern name locator).1.nameOf? (g.intern name locator).2 = some name := by
  cases hl : g.lookup? name with
  | some id =>
    rw [intern_of_lookup? hl]
    exact hg.lookup?_eq_some_iff.1 hl
  | none =>
    rw [intern_of_lookup?_none hl, nameOf?, stream?, List.getElem?_append_right (Nat.le_refl _)]
    simp

/-- What adding an edge does to the stream at a position. -/
theorem stream?_connect (g : Graph) (source target i : StreamId) (label : EdgeLabel) :
    (g.connect source target label).stream? i = (g.stream? i).map fun s =>
      { s with
        children := s.children ++ if source = i then [g.edges.length] else []
        parents := s.parents ++ if target = i then [g.edges.length] else [] } := by
  simp only [connect, stream?_modify]
  rw [show ({ g with edges := g.edges ++ _ } : Graph).stream? i = g.stream? i from rfl]
  by_cases hs : source = i <;> by_cases ht : target = i <;> simp [hs, ht, Function.comp_def]

@[simp] theorem connect_edges (g : Graph) (source target : StreamId) (label : EdgeLabel) :
    (g.connect source target label).edges =
      g.edges ++ [{ toEdgeLabel := label, id := g.edges.length, source, target }] := rfl

@[simp] theorem length_connect (g : Graph) (source target : StreamId) (label : EdgeLabel) :
    (g.connect source target label).streams.length = g.streams.length := by
  rw [connect, length_modify, length_modify]

@[simp] theorem nameOf?_connect (g : Graph) (source target i : StreamId) (label : EdgeLabel) :
    (g.connect source target label).nameOf? i = g.nameOf? i := by
  rw [nameOf?, nameOf?, stream?_connect]
  cases g.stream? i <;> rfl

theorem nameOf?_modify {f : Stream → Stream} (h : ∀ s, (f s).name = s.name) (g : Graph)
    (id i : StreamId) : (g.modify id f).nameOf? i = g.nameOf? i := by
  rw [nameOf?, nameOf?, stream?_modify]
  split
  · cases g.stream? i with
    | none => rfl
    | some s => exact congrArg some (h s)
  · rfl

@[simp] theorem nameOf?_addInput (g : Graph) (id i : StreamId) (a : Attribution) :
    (g.addInput id a).nameOf? i = g.nameOf? i := by
  refine nameOf?_modify ?_ g id i
  exact fun _ => rfl

/-- A change that leaves some part of every stream alone leaves the list of these parts alone. -/
theorem map_streams_modify {α : Type} {part : Stream → α} {f : Stream → Stream}
    (h : ∀ s, part (f s) = part s) (g : Graph) (id : StreamId) :
    (g.modify id f).streams.map part = g.streams.map part := by
  refine List.ext_getElem? fun i => ?_
  simp only [List.getElem?_map, modify, List.getElem?_modify]
  cases g.streams[i]? with
  | none => rfl
  | some s => by_cases hi : id = i <;> simp [hi, h]

theorem map_streams_connect {α : Type} {part : Stream → α}
    (h : ∀ s children parents, part { s with children, parents } = part s) (g : Graph)
    (source target : StreamId) (label : EdgeLabel) :
    (g.connect source target label).streams.map part = g.streams.map part := by
  rw [connect, map_streams_modify fun s => h s s.children _, map_streams_modify fun s => h s _ s.parents]

theorem wellFormed_empty : WellFormed {} := by decide

namespace WellFormed

variable {g : Graph} (hg : g.WellFormed)

include hg

theorem edgesFrom_eq_nil {i : StreamId} (h : g.streams.length ≤ i) : g.edgesFrom i = [] := by
  refine List.filter_eq_nil_iff.2 fun e he => ?_
  have hends := (hg.ends e he).1
  rw [decide_eq_true_eq]
  exact Nat.ne_of_lt (Nat.lt_of_lt_of_le hends h)

theorem edgesInto_eq_nil {i : StreamId} (h : g.streams.length ≤ i) : g.edgesInto i = [] := by
  refine List.filter_eq_nil_iff.2 fun e he => ?_
  have hends := (hg.ends e he).2
  rw [decide_eq_true_eq]
  exact Nat.ne_of_lt (Nat.lt_of_lt_of_le hends h)

theorem intern (name : String) (locator : Option Locator) : (g.intern name locator).1.WellFormed := by
  cases h : g.lookup? name with
  | some id =>
    rw [intern_of_lookup? h]
    exact hg
  | none =>
    rw [intern_of_lookup?_none h]
    constructor
    · simp [hg.stream_ids, List.range_succ]
    · exact hg.edge_ids
    · have hnew := mt hg.mem_names.2 (lookup?_eq_none_iff.1 h)
      rw [List.map_append, List.nodup_append]
      refine ⟨hg.names_nodup, by simp, fun a ha b hb hab => hnew ?_⟩
      rw [List.map_singleton, List.mem_singleton] at hb
      rwa [hab, hb] at ha
    · rw [List.map_append]
      exact ((Dict.entries_insert_perm h _).trans (hg.index_perm.cons _)).trans
        (List.perm_append_singleton _ _).symm
    · intro e he
      have hends := hg.ends e he
      rw [List.length_append]
      exact ⟨Nat.lt_add_right _ hends.1, Nat.lt_add_right _ hends.2⟩
    · intro s hs
      rcases List.mem_append.1 hs with hs | hs
      · exact hg.children_eq s hs
      · rw [List.mem_singleton.1 hs]
        exact (congrArg (List.map _) (hg.edgesFrom_eq_nil (Nat.le_refl _))).symm
    · intro s hs
      rcases List.mem_append.1 hs with hs | hs
      · exact hg.parents_eq s hs
      · rw [List.mem_singleton.1 hs]
        exact (congrArg (List.map _) (hg.edgesInto_eq_nil (Nat.le_refl _))).symm

theorem connect {source target : StreamId} (hs : source < g.streams.length)
    (ht : target < g.streams.length) (label : EdgeLabel) :
    (g.connect source target label).WellFormed := by
  constructor
  · rw [map_streams_connect fun _ _ _ => rfl, length_connect, hg.stream_ids]
  · simp [hg.edge_ids, List.range_succ]
  · rw [map_streams_connect fun _ _ _ => rfl]
    exact hg.names_nodup
  · rw [map_streams_connect fun _ _ _ => rfl]
    exact hg.index_perm
  · intro e he
    rw [length_connect]
    rcases List.mem_append.1 he with he | he
    · exact hg.ends e he
    · rw [List.mem_singleton.1 he]
      exact ⟨hs, ht⟩
  · intro s hmem
    obtain ⟨i, hi⟩ := exists_stream?_of_mem hmem
    rw [stream?_connect] at hi
    obtain ⟨t, ht, rfl⟩ := Option.map_eq_some_iff.1 hi
    simp only [edgesFrom, connect_edges, List.filter_append, List.map_append, hg.id_eq ht,
      hg.children_of_stream? ht]
    by_cases h : source = i <;> simp [h]
  · intro s hmem
    obtain ⟨i, hi⟩ := exists_stream?_of_mem hmem
    rw [stream?_connect] at hi
    obtain ⟨t, ht, rfl⟩ := Option.map_eq_some_iff.1 hi
    simp only [edgesInto, connect_edges, List.filter_append, List.map_append, hg.id_eq ht,
      hg.parents_of_stream? ht]
    by_cases h : target = i <;> simp [h]

/-- A change to the types of a stream keeps the graph well-formed. -/
theorem modify {f : Stream → Stream}
    (h : ∀ s, (f s).id = s.id ∧ (f s).name = s.name ∧ (f s).children = s.children ∧
      (f s).parents = s.parents) (id : StreamId) : (g.modify id f).WellFormed := by
  have hlist : ∀ s ∈ (g.modify id f).streams, ∃ t ∈ g.streams,
      s.id = t.id ∧ s.children = t.children ∧ s.parents = t.parents := by
    intro s hs
    obtain ⟨i, hi⟩ := exists_stream?_of_mem hs
    rw [stream?_modify] at hi
    split at hi
    · obtain ⟨t, ht, rfl⟩ := Option.map_eq_some_iff.1 hi
      exact ⟨t, mem_of_stream? ht, (h t).1, (h t).2.2⟩
    · exact ⟨s, mem_of_stream? hi, rfl, rfl, rfl⟩
  constructor
  · rw [map_streams_modify fun s => (h s).1, length_modify, hg.stream_ids]
  · exact hg.edge_ids
  · rw [map_streams_modify fun s => (h s).2.1]
    exact hg.names_nodup
  · rw [map_streams_modify fun s => Prod.ext (h s).2.1 (h s).1]
    exact hg.index_perm
  · rw [length_modify]
    exact hg.ends
  · intro s hs
    obtain ⟨t, ht, hid, hc, -⟩ := hlist s hs
    rw [hc, hid]
    exact hg.children_eq t ht
  · intro s hs
    obtain ⟨t, ht, hid, -, hp⟩ := hlist s hs
    rw [hp, hid]
    exact hg.parents_eq t ht

theorem addInput (id : StreamId) (a : Attribution) : (g.addInput id a).WellFormed := by
  refine hg.modify ?_ id
  exact fun _ => ⟨rfl, rfl, rfl, rfl⟩

theorem addOutput (id : StreamId) (a : Attribution) : (g.addOutput id a).WellFormed := by
  refine hg.modify ?_ id
  exact fun _ => ⟨rfl, rfl, rfl, rfl⟩

end WellFormed

end Graph

end StreamTyping
