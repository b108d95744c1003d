import Mathlib.Data.List.Nodup
import StreamTyping.Proofs.Guarded

/-!
# Sessions that can be reached

A session is reached from a fresh one by adding events, whether or not they are
violations, by adding streams, edges and types one at a time, by passing types
on, by verifying and by running passes. All of these keep the graph
well-formed.

* `Session.Step` and `Session.Reachable`.
* `Session.Step.wellFormed`: one step. `Session.Reachable.wellFormed`: any
  number of them.
* `Graph.Registry`: what a well-formed graph promises to whoever asks it for
  streams and edges.
* `Session.Reachable.registry_inRange`: the promises are kept in every session that can
  be reached, and no position is ever out of range there.
-/

namespace StreamTyping

namespace Session

/-- One thing that is done to a session. Ids have to be those of streams. -/
inductive Step : Session → Session → Prop where
  | apply (s : Session) (event : Event) : Step s (s.apply event).1
  | intern (s : Session) (name : String) (locator : Option Locator) :
      Step s { s with graph := (s.graph.intern name locator).1 }
  | connect {s : Session} {source target : StreamId} {label : EdgeLabel} {g : Graph} {id : EdgeId}
      (h : s.graph.connect? source target label = some (g, id)) : Step s { s with graph := g }
  | addInput {s : Session} {id : StreamId} {a : Attribution} {g : Graph}
      (h : s.graph.addInput? id a = some g) : Step s { s with graph := g }
  | addOutput {s : Session} {id : StreamId} {a : Attribution} {g : Graph}
      (h : s.graph.addOutput? id a = some g) : Step s { s with graph := g }
  | raise (s : Session) (diagnostic : Diagnostic) : Step s (s.raise [diagnostic])
  | propagate {s : Session} {order : Order} {seed : List StreamId} {g : Graph}
      {stats : PropagationStats} (h : s.graph.propagateFrom? order seed = some (g, stats)) :
      Step s { s with graph := g }
  | verify (s : Session) : Step s s.verify
  | pipeline (s : Session) (events : List Event) (terminal : Pass) :
      Step s (s.pipeline events terminal).1

/-- A session that any number of steps lead to from a fresh one. -/
inductive Reachable : Session → Prop where
  | fresh (order : Order) : Reachable { order }
  | step {s t : Session} (h : Reachable s) (hstep : s.Step t) : Reachable t

end Session

/-! ## Every step keeps the graph well-formed -/

theorem Graph.WellFormed.propagateFrom? {g k : Graph} (hg : g.WellFormed) {order : Order}
    {seed : List StreamId} {stats : PropagationStats}
    (h : g.propagateFrom? order seed = some (k, stats)) : k.WellFormed := by
  obtain ⟨hseed, hrun⟩ := Graph.propagateFrom?_eq_some h
  obtain ⟨rfl, -⟩ := Prod.mk.inj hrun
  show ((g.start order seed).run order).graph.WellFormed
  rw [hg.run_graph order hseed]
  exact hg.sweep _

namespace Session

theorem runPass_wellFormed {s : Session} (hs : s.graph.WellFormed) (events : List Event)
    (pass : Pass) : (s.runPass events pass).1.graph.WellFormed := by
  cases pass with
  | build => exact (build?_eq hs events).2
  | propagate =>
    have hvalid : ∀ id ∈ ([] : List StreamId), id < s.graph.streams.length := by simp
    exact hs.propagateFrom? (Graph.propagateFrom?_of_valid hvalid s.order)
  | verify => exact hs

theorem runPasses_wellFormed {s : Session} (hs : s.graph.WellFormed) (events : List Event)
    (passes : List Pass) : (s.runPasses events passes).1.graph.WellFormed := by
  induction passes generalizing s with
  | nil => exact hs
  | cons pass passes ih =>
    have hpass := runPass_wellFormed hs events pass
    rw [runPasses]
    cases hrun : s.runPass events pass with
    | mk t violation =>
      rw [hrun] at hpass
      cases violation with
      | some _ => exact hpass
      | none => exact ih hpass

theorem Step.wellFormed {s t : Session} (h : s.Step t) (hs : s.graph.WellFormed) :
    t.graph.WellFormed := by
  cases h with
  | apply event => exact (addEvent?_eq hs event).2
  | intern name locator => exact hs.intern name locator
  | @connect source target label g id h =>
    obtain ⟨hsource, htarget, rfl⟩ := Graph.connect?_eq_some h
    exact hs.connect hsource htarget label
  | @addInput id a g h =>
    obtain rfl := Graph.addInput?_eq_some h
    exact hs.addInput id a
  | @addOutput id a g h =>
    obtain rfl := Graph.addOutput?_eq_some h
    exact hs.addOutput id a
  | raise _ => exact hs
  | propagate h => exact hs.propagateFrom? h
  | verify => exact hs
  | pipeline events terminal => exact runPasses_wellFormed hs events terminal.required

theorem Reachable.wellFormed {s : Session} (h : s.Reachable) : s.graph.WellFormed := by
  induction h with
  | fresh order => exact Graph.wellFormed_empty
  | step _ hstep ih => exact hstep.wellFormed ih

end Session

/-! ## What a well-formed graph promises -/

namespace Graph

/-- What a graph promises to whoever asks it for streams and edges. -/
structure Registry (g : Graph) : Prop where
  stream_id : ∀ i s, g.stream? i = some s → s.id = i
  edge_id : ∀ j e, g.edge? j = some e → e.id = j
  /-- A name leads to the stream with exactly that name. -/
  lookup_iff : ∀ name id, g.lookup? name = some id ↔ ∃ s, g.stream? id = some s ∧ s.name = name
  names_nodup : (g.streams.map (·.name)).Nodup
  /-- The index has one entry for every stream, and no other. -/
  index_perm : g.index.entries.Perm (g.streams.map fun s => (s.name, s.id))
  ends : ∀ e ∈ g.edges, ∃ s t, g.stream? e.source = some s ∧ g.stream? e.target = some t
  /-- A stream lists the edges that go out of it by ascending id. -/
  children : ∀ i s, g.stream? i = some s → s.children =
    (List.range g.edges.length).filter fun j => (g.edge? j).any fun e => e.source = i
  /-- A stream lists the edges that come into it by ascending id. -/
  parents : ∀ i s, g.stream? i = some s → s.parents =
    (List.range g.edges.length).filter fun j => (g.edge? j).any fun e => e.target = i
  /-- Every edge stands once among the children of all streams. -/
  children_perm : (g.streams.flatMap (·.children)).Perm (List.range g.edges.length)
  /-- Every edge stands once among the parents of all streams. -/
  parents_perm : (g.streams.flatMap (·.parents)).Perm (List.range g.edges.length)

namespace WellFormed

variable {g : Graph} (hg : g.WellFormed)

include hg

theorem edge_id {j : EdgeId} {e : Edge} (h : g.edge? j = some e) : e.id = j := by
  have hj := (List.getElem?_eq_some_iff.1 h).1
  have hids : (g.edges.map (·.id))[j]? = some e.id := by
    rw [List.getElem?_map, ← edge?, h]
    rfl
  rw [hg.edge_ids, List.getElem?_range hj] at hids
  exact (Option.some.inj hids).symm

/-- The ids of the edges of a kind, by ascending id. -/
theorem map_id_filter (kind : Edge → Bool) : (g.edges.filter kind).map (·.id) =
    (List.range g.edges.length).filter fun j => (g.edge? j).any kind := by
  have hids : ∀ e ∈ g.edges, (g.edge? e.id).any kind = kind e := fun e he => by
    rw [hg.edge?_id he]
    rfl
  rw [← hg.edge_ids, List.filter_map]
  exact congrArg (List.map _) (List.filter_congr fun e he => (hids e he).symm)

/-- Lists of the edges at one end of every stream hold every edge once. -/
theorem flatMap_perm {part : Stream → List EdgeId} {side : Edge → StreamId}
    (hpart : ∀ i s, g.stream? i = some s → part s =
      (List.range g.edges.length).filter fun j => (g.edge? j).any fun e => side e = i)
    (hside : ∀ e ∈ g.edges, side e < g.streams.length) :
    (g.streams.flatMap part).Perm (List.range g.edges.length) := by
  have hmem : ∀ s ∈ g.streams, ∀ j, j ∈ part s ↔
      ∃ e, g.edge? j = some e ∧ side e = s.id := by
    intro s hs j
    rw [hpart s.id s (hg.stream?_id hs), List.mem_filter, List.mem_range, Option.any_eq_true]
    simp only [decide_eq_true_eq]
    refine and_iff_right_of_imp ?_
    rintro ⟨e, he, -⟩
    exact (List.getElem?_eq_some_iff.1 he).1
  refine (List.perm_ext_iff_of_nodup ?_ List.nodup_range).2 fun j => ?_
  · rw [List.nodup_flatMap]
    constructor
    · intro s hs
      rw [hpart s.id s (hg.stream?_id hs)]
      exact List.nodup_range.filter _
    · -- An edge has one end on each side, and no two streams have the same id.
      have hids : (g.streams.map (·.id)).Nodup := hg.stream_ids ▸ List.nodup_range
      refine (List.pairwise_map.1 hids).imp_of_mem fun {s t} hs ht hne j hjs hjt => hne ?_
      obtain ⟨e, he, hes⟩ := (hmem s hs j).1 hjs
      obtain ⟨f, hf, hft⟩ := (hmem t ht j).1 hjt
      obtain rfl := Option.some.inj (he.symm.trans hf)
      exact hes.symm.trans hft
  · rw [List.mem_flatMap, List.mem_range]
    constructor
    · rintro ⟨s, hs, hj⟩
      obtain ⟨e, he, -⟩ := (hmem s hs j).1 hj
      exact (List.getElem?_eq_some_iff.1 he).1
    · intro hj
      have he : g.edge? j = some g.edges[j] := List.getElem?_eq_getElem hj
      obtain ⟨s, hs⟩ := exists_stream? (hside _ (List.getElem_mem hj))
      refine ⟨s, mem_of_stream? hs, (hmem s (mem_of_stream? hs) j).2 ⟨_, he, ?_⟩⟩
      exact (hg.id_eq hs).symm

theorem registry : g.Registry := by
  have hchildren : ∀ i s, g.stream? i = some s → s.children =
      (List.range g.edges.length).filter fun j => (g.edge? j).any fun e => e.source = i :=
    fun i s hs => (hg.children_of_stream? hs).trans (hg.map_id_filter _)
  have hparents : ∀ i s, g.stream? i = some s → s.parents =
      (List.range g.edges.length).filter fun j => (g.edge? j).any fun e => e.target = i :=
    fun i s hs => (hg.parents_of_stream? hs).trans (hg.map_id_filter _)
  refine ⟨fun _ _ => hg.id_eq, fun _ _ => hg.edge_id, fun name id => ?_, hg.names_nodup,
    hg.index_perm, fun e he => ?_, hchildren, hparents, ?_, ?_⟩
  · rw [hg.lookup?_eq_some_iff, nameOf?_eq_some_iff]
  · obtain ⟨s, hs⟩ := exists_stream? (hg.ends e he).1
    obtain ⟨t, ht⟩ := exists_stream? (hg.ends e he).2
    exact ⟨s, t, hs, ht⟩
  · exact hg.flatMap_perm hchildren fun e he => (hg.ends e he).1
  · exact hg.flatMap_perm hparents fun e he => (hg.ends e he).2

end WellFormed

end Graph

/-! ## Every session that can be reached -/

namespace Session

/-- Nothing that is done to a session comes upon a position out of range. -/
structure InRange (s : Session) : Prop where
  build : ∀ events, s.build? events = some (s.build events)
  /-- Neither putting streams on the agenda nor any turn of a propagation does. -/
  propagation : ∀ order seed, (∀ id ∈ seed, id < s.graph.streams.length) →
    s.graph.agenda? order seed = some (s.graph.agenda order seed) ∧
    ∀ had p id agenda, Propagation.Reaches order (s.graph.start order seed) had p →
      p.agenda.pop? = some (id, agenda) → p.turn? order id agenda = p.next? order
  verdict : s.verify? = some s.verify
  report : s.graph.adjacency? = some s.graph.adjacency
  /-- The boxes of a drawing can be coloured. -/
  drawing : ∀ t ∈ s.graph.streams, t.colour? = some t.colour

/-- Every session that can be reached keeps the promises of a registry, and nothing that is done
to it comes upon a position out of range. -/
theorem Reachable.registry_inRange {s : Session} (h : s.Reachable) :
    s.graph.Registry ∧ s.InRange := by
  have hs := h.wellFormed
  refine ⟨hs.registry, fun events => (build?_eq hs events).1, fun order seed hseed => ?_,
    s.verify?_eq, hs.adjacency?_eq, fun t _ => t.colour?_eq⟩
  exact ⟨hs.agenda?_eq hseed order, fun _ _ _ _ hreach hpop => hs.turn?_eq hseed hreach hpop⟩

/-- The stream `b` of the second event is there although the event is a violation. -/
def halfDone : Session :=
  let dangling : Invocation :=
    { source := "a", token := "any", arguments := [.name "b", .stream "c"] }
  (pipeline {} [.declare { name := "a" }, .invoke dangling] .build).1

/-- An edge is added from a stream to itself. -/
def selfFed : Session :=
  { halfDone with graph := halfDone.graph.connect 0 0 { operator := .into } }

theorem registry_inRange_selfFed :
    selfFed.Reachable ∧ selfFed.graph.Registry ∧ selfFed.InRange ∧
      selfFed.graph.streams.map (fun s => (s.name, s.children, s.parents)) =
        [("a", [0], [0]), ("b", [], [])] := by
  have hbuild : halfDone.Reachable := .step (.fresh .lifo) (.pipeline _ _ .build)
  have h : selfFed.Reachable := .step hbuild
    (.connect (Graph.connect?_of_lt (by decide +kernel) (by decide +kernel) { operator := .into }))
  exact ⟨h, h.registry_inRange.1, h.registry_inRange.2, by decide +kernel⟩

end Session

end StreamTyping
