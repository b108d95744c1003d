import StreamTyping.Proofs.Lockstep
import StreamTyping.Proofs.Staged

/-!
# Graphs, read off an account

A graph that follows an account is known from it: its names and ids from the
mentions, the types from what the account tells of each name, and the edges
from its links. So what depends on some part of a graph only depends on some
part of the account.

* `Graph.adjacency_eq_of_map`, `Graph.types_eq_of_map`: the parts of a graph that a
  report reads.
* `Account.flows`: the strong links, along which types are passed on.
  `Graph.Follows.strongChildren_eq` reads the strong edges off them.
* `Account.linksFrom`: the links out of a stream. `Graph.Follows.get?_adjacency`
  reads the edges that a report tells off them.
* `Account.Abreast`: accounts that tell the same but for repeats. Graphs that
  follow them are abreast (`Graph.Follows.abreast`).
-/

namespace StreamTyping

/-- A list that a partial function maps as a whole, read through what it maps to. -/
theorem filterMap_eq_of_map {α β γ : Type} {l : List α} {m : List β} {p : α → Option β}
    (h : l.map p = m.map some) {u : α → Option γ} {v : β → Option γ}
    (huv : ∀ x y, p x = some y → u x = v y) : l.filterMap u = m.filterMap v := by
  induction l generalizing m with
  | nil =>
    obtain rfl := List.map_eq_nil_iff.1 h.symm
    rfl
  | cons x l ih =>
    obtain ⟨y, m, rfl, hy, hm⟩ := List.map_eq_cons_iff.1 h.symm
    rw [List.filterMap_cons, List.filterMap_cons, huv x y hy.symm, ih hm.symm]

/-- An edge as a report tells it. -/
def Link.record (link : Link) : EdgeRecord := ⟨link.operator, link.weak, link.target⟩

namespace Account

/-- The strong links, told by the names of their ends. -/
def flows (a : Account) : List (String × String) :=
  (a.links.filter fun link => !link.weak).map fun link => (link.source, link.target)

/-- The links out of a stream. -/
def linksFrom (a : Account) (name : String) : List Link :=
  a.links.filter fun link => link.source = name

/-- The types that streams take, without the reasons for them. -/
def typesTaken (a : Account) : List (String × Descriptor) :=
  a.takes.map fun p => (p.1, p.2.descriptor)

/-- The types that streams give, without the reasons for them. -/
def typesGiven (a : Account) : List (String × Descriptor) :=
  a.gives.map fun p => (p.1, p.2.descriptor)

/-- Accounts that mention the same streams, tell the same types of them and draw the same strong
links, in the same order of first occurrences. -/
structure Abreast (a b : Account) : Prop where
  mentions : SameFirsts (a.mentions.map (·.1)) (b.mentions.map (·.1))
  takes : SameFirsts a.typesTaken b.typesTaken
  gives : SameFirsts a.typesGiven b.typesGiven
  flows : SameFirsts a.flows b.flows

end Account

/-- The edges that a report tells of a stream; it tells nothing of a stream without any. -/
def recordsOf (links : List Link) : Option (List EdgeRecord) :=
  if links = [] then none else some (links.map Link.record)

theorem map_descriptor_entriesOf (name : String) (l : List (String × Attribution)) :
    (entriesOf name l).map (·.descriptor) =
      (l.map fun p => (p.1, p.2.descriptor)).filterMap fun p => if p.1 = name then some p.2 else none := by
  rw [entriesOf, List.map_map, ← List.filterMap_eq_map, List.filterMap_filter, List.filterMap_map]
  refine List.filterMap_congr fun p _ => ?_
  by_cases hp : p.1 = name <;> simp [hp]

namespace Graph

theorem strongChildren_eq_filterMap (g : Graph) (i : StreamId) :
    g.strongChildren i = g.edges.filterMap fun e =>
      if e.source = i then if e.weak then none else some e.target else none := by
  rw [strongChildren, edgesFrom, ← List.filterMap_eq_map, List.filterMap_filter,
    List.filterMap_filter]
  refine List.filterMap_congr fun e _ => ?_
  by_cases hs : e.source = i <;> cases hw : e.weak <;> simp [hs]

/-- An edge as a report tells it. -/
def record? (g : Graph) (j : EdgeId) : Option EdgeRecord :=
  (g.edges.map fun e => (e.operator, e.weak, e.target))[j]?.bind fun p =>
    (g.nameOf? p.2.2).map fun name => ⟨p.1, p.2.1, name⟩

theorem edgeRecords_eq_filterMap (g : Graph) (s : Stream) :
    g.edgeRecords s = s.children.filterMap g.record? := by
  rw [edgeRecords, childEdges, List.filterMap_filterMap]
  refine List.filterMap_congr fun j _ => ?_
  rw [record?, List.getElem?_map, edge?, Option.bind_map]
  refine Option.bind_congr fun e _ => ?_
  rw [Function.comp, nameOf?, Option.map_map]
  rfl

/-- The edges that a report tells are read off the names and the children of streams, and off the
operators and the targets of edges. -/
theorem adjacency_eq_of_map {g h : Graph}
    (hstreams : g.streams.map (fun s => (s.name, s.children)) =
      h.streams.map fun s => (s.name, s.children))
    (hedges : g.edges.map (fun e => (e.operator, e.weak, e.target)) =
      h.edges.map fun e => (e.operator, e.weak, e.target)) : g.adjacency = h.adjacency := by
  have hname : ∀ t, g.nameOf? t = h.nameOf? t := by
    intro t
    have hpair := congrArg (Option.map Prod.fst) (map_stream?_of_map hstreams t)
    rwa [Option.map_map, Option.map_map] at hpair
  have hrecord : g.record? = h.record? := by
    funext j
    simp only [record?, hedges, hname]
  have hlist := congrArg (List.map fun p => (p.1, p.2.filterMap g.record?)) hstreams
  rw [List.map_map, List.map_map] at hlist
  simp only [adjacency, edgeRecords_eq_filterMap, ← hrecord]
  exact congrArg (fun l => Dict.ofList (l.filter fun p => !p.2.isEmpty)) hlist

/-- The types that a report tells are read off the names and the types of streams. -/
theorem types_eq_of_map {g h : Graph} (hstreams : g.streams.map (fun s => (s.name, s.resolved?)) =
    h.streams.map fun s => (s.name, s.resolved?)) : g.types = h.types := by
  have hread : ∀ k : Graph, k.types = Dict.ofList
      ((k.streams.map fun s => (s.name, s.resolved?)).filterMap fun p =>
        p.2.map fun d => (p.1, d)) := by
    intro k
    rw [List.filterMap_map]
    rfl
  rw [hread, hread, hstreams]

/-- The names of the streams that have edges, as they are gathered for a report. -/
theorem WellFormed.nodup_names_records {g : Graph} (hg : g.WellFormed) :
    (((g.streams.map fun s => (s.name, g.edgeRecords s)).filter
      fun p => !p.2.isEmpty).map (·.1)).Nodup := by
  refine List.Sublist.nodup (List.filter_sublist.map _) ?_
  rw [List.map_map]
  exact hg.names_nodup

/-- A report tells the edges of the streams that have some. -/
theorem WellFormed.get?_adjacency_eq_some_iff {g : Graph} (hg : g.WellFormed) {name : String}
    {records : List EdgeRecord} : g.adjacency.get? name = some records ↔
      ∃ s ∈ g.streams, s.name = name ∧ g.edgeRecords s = records ∧ records ≠ [] := by
  rw [adjacency, Dict.get?_ofList_eq_some_iff hg.nodup_names_records, List.mem_filter, List.mem_map]
  constructor
  · rintro ⟨⟨s, hs, hpair⟩, hsome⟩
    obtain ⟨rfl, rfl⟩ := Prod.mk.inj hpair
    exact ⟨s, hs, rfl, rfl, by simpa using hsome⟩
  · rintro ⟨s, hs, rfl, rfl, hsome⟩
    exact ⟨⟨s, hs, rfl⟩, by simpa using hsome⟩

theorem Closure.adjacency_eq {g h : Graph} {new : StreamId → List Attribution}
    (hclosure : Closure g h new) : h.adjacency = g.adjacency := by
  refine adjacency_eq_of_map (map_eq_of_stream? fun t => ?_) ?_
  · rw [hclosure.streams t, Option.map_map]
    rfl
  · rw [hclosure.edges]

namespace Follows

variable {g : Graph} {a : Account} (h : g.Follows a)

include h

theorem nameOf?_eq (i : StreamId) : g.nameOf? i = (a.mentions.map (·.1)).eraseDups[i]? := by
  rw [nameOf?_eq_getElem?, h.names]

theorem inputsOf_eq (i : StreamId) :
    g.inputsOf i = ((g.nameOf? i).map fun name => entriesOf name a.takes).getD [] := by
  rw [inputsOf, nameOf?]
  cases hs : g.stream? i with
  | none => rfl
  | some s => exact h.inputs i s hs

theorem outputsOf_eq (i : StreamId) :
    g.outputsOf i = ((g.nameOf? i).map fun name => entriesOf name a.gives).getD [] := by
  rw [outputsOf, nameOf?]
  cases hs : g.stream? i with
  | none => rfl
  | some s => exact h.outputs i s hs

/-- An edge starts at a stream if its link starts at the name. -/
theorem source_eq_iff {i : StreamId} {e : Edge} {link : Link} (he : g.link? e = some link) :
    e.source = i ↔ g.nameOf? i = some link.source := by
  have hsource := (link?_eq_some_iff.1 he).1
  constructor
  · rintro rfl
    exact hsource
  · exact h.wellFormed.nameOf?_inj hsource

/-- The strong edges out of a stream are the strong links out of its name. -/
theorem strongChildren_eq (i : StreamId) : g.strongChildren i =
    a.flows.filterMap fun p => if g.nameOf? i = some p.1 then g.lookup? p.2 else none := by
  rw [strongChildren_eq_filterMap, Account.flows, List.filterMap_map, List.filterMap_filter]
  refine filterMap_eq_of_map h.links fun e link he => ?_
  obtain ⟨-, htarget, hlabel⟩ := link?_eq_some_iff.1 he
  have hlookup := h.wellFormed.lookup?_eq_some_iff.2 htarget
  have hweak : e.weak = link.weak := congrArg EdgeLabel.weak hlabel
  simp only [h.source_eq_iff he, hweak]
  cases link.weak <;> simp [hlookup]

theorem edgeRecords_eq {i : StreamId} {s : Stream} (hs : g.stream? i = some s) :
    g.edgeRecords s = (a.linksFrom s.name).map Link.record := by
  have hi : g.nameOf? i = some s.name := nameOf?_eq_some_iff.2 ⟨s, hs, rfl⟩
  rw [edgeRecords, h.wellFormed.childEdges_eq hs, edgesFrom, Account.linksFrom,
    ← List.filterMap_eq_map, List.filterMap_filter, List.filterMap_filter]
  refine filterMap_eq_of_map h.links fun e link he => ?_
  obtain ⟨-, htarget, hlabel⟩ := link?_eq_some_iff.1 he
  obtain ⟨t, ht, hname⟩ := nameOf?_eq_some_iff.1 htarget
  have hoperator : e.operator = link.operator := congrArg EdgeLabel.operator hlabel
  have hweak : e.weak = link.weak := congrArg EdgeLabel.weak hlabel
  simp [h.source_eq_iff he, hi, ht, hname, hoperator, hweak, Link.record, eq_comm]

/-- The edges that a report tells of a stream are the links out of its name. -/
theorem get?_adjacency (name : String) : g.adjacency.get? name = recordsOf (a.linksFrom name) := by
  refine Option.ext fun records => ?_
  rw [h.wellFormed.get?_adjacency_eq_some_iff, recordsOf]
  constructor
  · rintro ⟨s, hs, rfl, rfl, hsome⟩
    obtain ⟨i, hi⟩ := exists_stream?_of_mem hs
    rw [h.edgeRecords_eq hi] at hsome ⊢
    rw [if_neg fun hnone => hsome (by rw [hnone, List.map_nil])]
  · intro hrecords
    split at hrecords
    · cases hrecords
    · rename_i hsome
      obtain ⟨link, hlink⟩ := List.exists_mem_of_ne_nil _ hsome
      obtain ⟨hlink, hsource⟩ := List.mem_filter.1 hlink
      obtain ⟨e, -, hname, -, -⟩ := h.exists_edge hlink
      obtain ⟨s, hs, hsname⟩ := nameOf?_eq_some_iff.1 hname
      obtain rfl : link.source = name := of_decide_eq_true hsource
      refine ⟨s, mem_of_stream? hs, hsname, ?_, ?_⟩
      · rw [h.edgeRecords_eq hs, hsname, Option.some.inj hrecords]
      · rw [← Option.some.inj hrecords]
        simpa using hsome

variable {k : Graph} {b : Account} (h' : k.Follows b)
  (hnames : SameFirsts (a.mentions.map (·.1)) (b.mentions.map (·.1)))

include h' hnames

theorem nameOf?_congr (i : StreamId) : g.nameOf? i = k.nameOf? i := by
  rw [h.nameOf?_eq, h'.nameOf?_eq, hnames]

theorem lookup?_congr (name : String) : g.lookup? name = k.lookup? name := by
  refine Option.ext fun i => ?_
  rw [h.wellFormed.lookup?_eq_some_iff, h'.wellFormed.lookup?_eq_some_iff,
    h.nameOf?_congr h' hnames]

theorem length_congr : g.streams.length = k.streams.length := by
  have hlength := congrArg List.length ((h.names.trans hnames).trans h'.names.symm)
  rwa [List.length_map, List.length_map] at hlength

/-- Graphs that follow accounts which tell the same types and strong links. -/
theorem sameThrough (htakes : a.takes = b.takes) (hgives : a.gives = b.gives)
    (hflows : a.flows = b.flows) : g.SameThrough id k := by
  refine ⟨h.length_congr h' hnames, fun t => ?_, fun t => ?_, fun t => ?_⟩
  · rw [h.inputsOf_eq, h'.inputsOf_eq, htakes, h.nameOf?_congr h' hnames]
  · rw [h.outputsOf_eq, h'.outputsOf_eq, hgives, h.nameOf?_congr h' hnames]
  · rw [h.strongChildren_eq, h'.strongChildren_eq, hflows]
    simp only [h.nameOf?_congr h' hnames, h.lookup?_congr h' hnames]

omit hnames in
/-- Graphs that follow accounts abreast are abreast. -/
theorem abreast (habreast : a.Abreast b) : g.Abreast k := by
  have hentries : ∀ {l m : List (String × Attribution)} (name? : Option String),
      SameFirsts (l.map fun p => (p.1, p.2.descriptor)) (m.map fun p => (p.1, p.2.descriptor)) →
      SameFirsts (((name?.map fun name => entriesOf name l).getD []).map (·.descriptor))
        (((name?.map fun name => entriesOf name m).getD []).map (·.descriptor)) := by
    intro l m name? hlm
    cases name? with
    | none => rfl
    | some name =>
      rw [Option.map_some, Option.map_some, Option.getD_some, Option.getD_some,
        map_descriptor_entriesOf, map_descriptor_entriesOf]
      exact hlm.filterMap _
  have hname := h.nameOf?_congr h' habreast.mentions
  refine ⟨h.length_congr h' habreast.mentions, fun t => ?_, fun t => ?_, fun t => ?_⟩
  · rw [h.inputsOf_eq, h'.inputsOf_eq, hname]
    exact hentries _ habreast.takes
  · rw [h.outputsOf_eq, h'.outputsOf_eq, hname]
    exact hentries _ habreast.gives
  · rw [h.strongChildren_eq, h'.strongChildren_eq]
    simp only [hname, h.lookup?_congr h' habreast.mentions]
    exact habreast.flows.filterMap _

end Follows

end Graph

end StreamTyping
