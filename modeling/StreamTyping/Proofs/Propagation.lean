import Mathlib.Algebra.BigOperators.Group.List.Basic
import Mathlib.Algebra.GroupWithZero.Nat
import StreamTyping.Proofs.Agenda
import StreamTyping.Proofs.Sweep

/-!
# Propagation is a sweep

A propagation gives streams turns until none waits, and a stream may have many
turns. Only the first turn of a stream counts: the graph that is left is that
of one sweep over the streams, in the order of their first turns.

* `Propagation.Reaches`: the states of a propagation, each with the streams
  that have had their turns so far.
* `Propagation.Progress`: the invariant of these states. The streams that have
  had a turn and those that still wait for their first one are all streams, in
  the order of `Graph.turns`, and the graph is that of a sweep over the former.
* `Graph.WellFormed.propagation_eq_sweep`: the graph that is left, and that
  no later turn of a stream adds a type.
* `Graph.WellFormed.propagation_closure`: which types the streams take in
  the end.
-/

namespace StreamTyping

/-! ## What a turn does -/

namespace Graph

theorem WellFormed.strongTargets_eq {g : Graph} (hg : g.WellFormed) {id : StreamId} {s : Stream}
    (h : g.stream? id = some s) : g.strongTargets s = g.strongChildren id := by
  rw [strongTargets, strongChildren, hg.childEdges_eq h]

theorem WellFormed.routes_eq {g : Graph} (hg : g.WellFormed) (id : StreamId) :
    g.routes id = g.offersOf id := by
  rw [routes, offersOf, outputsOf]
  split
  · rename_i h
    rw [h]
    rfl
  · rename_i s h
    rw [h, hg.strongTargets_eq h]
    rfl

theorem lacks_eq_true_iff {g : Graph} {r : Attribution × StreamId} :
    g.lacks r = true ↔ ∃ s, g.stream? r.2 = some s ∧ s.hasInput r.1.descriptor = false := by
  rw [lacks]
  cases g.stream? r.2 <;> simp

theorem lacks_eq_false_iff {g : Graph} {r : Attribution × StreamId} :
    g.lacks r = false ↔ ∀ s, g.stream? r.2 = some s → s.hasInput r.1.descriptor = true := by
  rw [lacks]
  cases g.stream? r.2 <;> simp

/-- Where the type is missing, it is added. -/
theorem offer_of_lacks {g : Graph} {r : Attribution × StreamId} (h : g.lacks r = true) :
    g.offer r.1 r.2 = g.addInput r.2 r.1 := by
  obtain ⟨s, hs, hnew⟩ := lacks_eq_true_iff.1 h
  refine ext_stream? rfl rfl fun i => ?_
  rw [stream?_offer, stream?_addInput]
  split
  · rename_i hi
    rw [← hi, hs, Option.map_some, Option.map_some, Stream.accept_of_not_hasInput hnew]
  · rfl

/-- How many types the streams take, all together. -/
def inputCount (g : Graph) : Nat := (g.streams.map (·.inputs.length)).sum

theorem inputCount_addInput {g : Graph} {id : StreamId} (h : id < g.streams.length)
    (a : Attribution) : (g.addInput id a).inputCount = g.inputCount + 1 := by
  obtain ⟨streams, edges⟩ := g
  simp only [inputCount, addInput, modify]
  induction streams generalizing id with
  | nil => exact absurd h (Nat.not_lt_zero _)
  | cons s streams ih =>
    cases id with
    | zero =>
      simp only [List.modify_zero_cons, List.map_cons, List.sum_cons, List.length_append,
        List.length_singleton]
      omega
    | succ id =>
      have hrest := ih (Nat.lt_of_succ_lt_succ h)
      simp only [List.modify_succ_cons, List.map_cons, List.sum_cons]
      omega

end Graph

namespace Propagation

theorem offer_of_lacks {order : Order} {p : Propagation} {r : Attribution × StreamId}
    (h : p.graph.lacks r = true) :
    p.offer order r =
      { graph := p.graph.addInput r.2 r.1
        agenda := p.agenda.push order r.2
        stats := { p.stats with additions := p.stats.additions + 1 } } := if_pos h

theorem offer_of_not_lacks {order : Order} {p : Propagation} {r : Attribution × StreamId}
    (h : p.graph.lacks r = false) : p.offer order r = p := by
  rw [offer, if_neg (Bool.eq_false_iff.1 h)]

theorem offer_graph (order : Order) (p : Propagation) (r : Attribution × StreamId) :
    (p.offer order r).graph = p.graph.offer r.1 r.2 := by
  cases h : p.graph.lacks r with
  | true => rw [offer_of_lacks h, Graph.offer_of_lacks h]
  | false => rw [offer_of_not_lacks h, Graph.offer_of_hasInput (Graph.lacks_eq_false_iff.1 h)]

/-- What every offer keeps true stays true in a turn. -/
theorem visit_induction {P : Propagation → Prop} {order : Order}
    (h : ∀ p r, P p → P (p.offer order r)) {p : Propagation} (hp : P p) (id : StreamId) :
    P (p.visit order id) := by
  rw [visit]
  generalize p.graph.routes id = routes
  induction routes generalizing p with
  | nil => exact hp
  | cons r routes ih => exact ih (h p r hp)

theorem visit_graph {p : Propagation} (hp : p.graph.WellFormed) (order : Order) (id : StreamId) :
    (p.visit order id).graph = p.graph.emit id := by
  rw [visit, hp.routes_eq, Graph.emit_eq_foldl]
  generalize p.graph.offersOf id = offers
  clear hp
  induction offers generalizing p with
  | nil => rfl
  | cons r offers ih => rw [List.foldl_cons, List.foldl_cons, ih, offer_graph]

/-- A turn of a stream with nothing left to pass on changes nothing at all. -/
theorem visit_of_settled {p : Propagation} (hp : p.graph.WellFormed) {id : StreamId}
    (h : p.graph.Settled id) (order : Order) : p.visit order id = p := by
  have hnone : ∀ r ∈ p.graph.offersOf id, p.offer order r = p := fun r hr =>
    offer_of_not_lacks (Graph.lacks_eq_false_iff.2
      (h r.1 (Graph.mem_offersOf.1 hr).1 r.2 (Graph.mem_offersOf.1 hr).2))
  rw [visit, hp.routes_eq]
  generalize p.graph.offersOf id = offers at hnone
  induction offers with
  | nil => rfl
  | cons r offers ih =>
    rw [List.foldl_cons, hnone r List.mem_cons_self]
    exact ih fun r hr => hnone r (List.mem_cons_of_mem _ hr)

/-- A turn keeps the agenda sound, and does not move waiting streams of a kind of which
all streams wait. -/
theorem visit_agenda {p : Propagation} {count : Nat} (hp : p.agenda.Sound count)
    {keep : StreamId → Bool} (hkeep : ∀ t < count, keep t = true → t ∈ p.agenda.items)
    (order : Order) (id : StreamId) :
    (p.visit order id).agenda.Sound count ∧
      (p.visit order id).agenda.items.filter keep = p.agenda.items.filter keep := by
  have hvisit : (p.visit order id).agenda.Sound count ∧
      (∀ t < count, keep t = true → t ∈ (p.visit order id).agenda.items) ∧
      (p.visit order id).agenda.items.filter keep = p.agenda.items.filter keep := by
    refine visit_induction (P := fun q => q.agenda.Sound count ∧
      (∀ t < count, keep t = true → t ∈ q.agenda.items) ∧
      q.agenda.items.filter keep = p.agenda.items.filter keep) ?_ ⟨hp, hkeep, rfl⟩ id
    rintro q r ⟨hsound, hwait, hfilter⟩
    cases hr : q.graph.lacks r with
    | false =>
      rw [offer_of_not_lacks hr]
      exact ⟨hsound, hwait, hfilter⟩
    | true =>
      rw [offer_of_lacks hr]
      refine ⟨hsound.push order r.2, fun t ht hk => ?_, ?_⟩
      · by_cases hr2 : r.2 < count
        · exact (hsound.mem_items_push hr2 order).2 (.inl (hwait t ht hk))
        · show t ∈ (q.agenda.push order r.2).items
          rw [hsound.push_of_le (Nat.le_of_not_lt hr2)]
          exact hwait t ht hk
      · show (q.agenda.push order r.2).items.filter keep = _
        rw [hsound.filter_items_push (hwait r.2), hfilter]
  exact ⟨hvisit.1, hvisit.2.2⟩

theorem next?_eq_none_iff {order : Order} {p : Propagation} :
    p.next? order = none ↔ p.agenda.items = [] := by
  rw [next?, Agenda.pop?]
  cases p.agenda.items <;> simp

/-- A turn begins: the agenda is what is left, and the turn is counted. -/
def begin (p : Propagation) (agenda : Agenda) : Propagation :=
  { p with agenda, stats := { p.stats with iterations := p.stats.iterations + 1 } }

theorem next?_of_pop? {order : Order} {p q : Propagation} {id : StreamId} {agenda : Agenda}
    (hpop : p.agenda.pop? = some (id, agenda)) (hnext : p.next? order = some q) :
    (p.begin agenda).visit order id = q := by
  rw [next?, hpop] at hnext
  exact Option.some.inj hnext

/-! ## Runs -/

/-- The propagation `q` is `p` after turns of the streams of a list, one after another. -/
inductive Reaches (order : Order) (p : Propagation) : List StreamId → Propagation → Prop where
  | start : Reaches order p [] p
  | turn {ids : List StreamId} {q r : Propagation} {id : StreamId} {agenda : Agenda} :
    Reaches order p ids q → q.agenda.pop? = some (id, agenda) → q.next? order = some r →
    Reaches order p (ids ++ [id]) r

theorem Reaches.head {order : Order} {p q r : Propagation} {id : StreamId} {agenda : Agenda}
    {ids : List StreamId} (hpop : p.agenda.pop? = some (id, agenda)) (hnext : p.next? order = some q)
    (h : Reaches order q ids r) : Reaches order p (id :: ids) r := by
  induction h with
  | start => exact .turn .start hpop hnext
  | turn _ hpop' hnext' ih => exact .turn ih hpop' hnext'

/-- A run takes turns until none waits. -/
theorem reaches_run (order : Order) (p : Propagation) :
    ∃ ids, Reaches order p ids (p.run order) ∧ (p.run order).agenda.items = [] := by
  induction p using run.induct order with
  | case1 p h =>
    rw [run, h]
    exact ⟨[], .start, next?_eq_none_iff.1 h⟩
  | case2 p q h ih =>
    obtain ⟨ids, hreach, hend⟩ := ih
    obtain ⟨⟨id, agenda⟩, hpop⟩ : ∃ x, p.agenda.pop? = some x := by
      cases hpop : p.agenda.pop? with
      | none =>
        rw [next?, hpop] at h
        cases h
      | some x => exact ⟨x, rfl⟩
    rw [run, h]
    exact ⟨id :: ids, hreach.head hpop h, hend⟩

/-- The types that are passed on are counted. -/
theorem Reaches.additions {order : Order} {p q : Propagation} {ids : List StreamId}
    (h : Reaches order p ids q) :
    q.stats.additions + p.graph.inputCount = p.stats.additions + q.graph.inputCount := by
  induction h with
  | start => rfl
  | @turn ids q r id agenda _ hpop hnext ih =>
    rw [← next?_of_pop? hpop hnext]
    refine visit_induction (p := q.begin agenda) (P := fun k =>
      k.stats.additions + p.graph.inputCount = p.stats.additions + k.graph.inputCount) ?_ ih id
    intro k route hk
    cases hroute : k.graph.lacks route with
    | false =>
      rw [offer_of_not_lacks hroute]
      exact hk
    | true =>
      obtain ⟨s, hs, -⟩ := Graph.lacks_eq_true_iff.1 hroute
      rw [offer_of_lacks hroute]
      show k.stats.additions + 1 + _ = _ + (k.graph.addInput route.2 route.1).inputCount
      rw [Graph.inputCount_addInput (Graph.lt_of_stream? hs)]
      omega

end Propagation

/-- The propagation before the first turn. -/
def Graph.start (g : Graph) (order : Order) (seed : List StreamId) : Propagation :=
  { graph := g, agenda := g.agenda order seed }

namespace Propagation

/-- How far a propagation has come when the streams of a list have had turns: the graph is
that of a sweep over these streams, and they and the streams that wait for a first turn
are all streams, in the order of first turns. -/
structure Progress (g : Graph) (order : Order) (seed had : List StreamId) (p : Propagation) :
    Prop where
  sound : p.agenda.Sound g.streams.length
  graph_eq : p.graph = g.sweep had.eraseDups
  waiting : had.eraseDups ++ p.agenda.items.filter (fun id => id ∉ had) = g.turns order seed

namespace Progress

variable {g : Graph} (hg : g.WellFormed) {order : Order} {seed : List StreamId}
  (hseed : ∀ id ∈ seed, id < g.streams.length)

include hg hseed

theorem start : Progress g order seed [] (g.start order seed) where
  sound := (hg.agenda_items hseed order).1
  graph_eq := rfl
  waiting := by
    rw [← (hg.agenda_items hseed order).2]
    simp [Graph.start]

variable {had : List StreamId} {p : Propagation} (hp : Progress g order seed had p)

include hp

/-- A stream that has had no turn waits. -/
theorem mem_items {t : StreamId} (ht : t < g.streams.length) (hnew : t ∉ had) :
    t ∈ p.agenda.items := by
  have hmem : t ∈ g.turns order seed :=
    (hg.turns_perm hseed order).mem_iff.2 (List.mem_range.2 ht)
  rw [← hp.waiting, List.mem_append, List.mem_eraseDups] at hmem
  exact (List.mem_filter.1 (hmem.resolve_left hnew)).1

omit hseed in
theorem wellFormed : p.graph.WellFormed := by
  rw [hp.graph_eq]
  exact hg.sweep _

omit hg hseed in
theorem settled {id : StreamId} (hid : id ∈ had) : p.graph.Settled id := by
  rw [hp.graph_eq]
  exact g.settled_sweep (List.mem_eraseDups.2 hid)

/-- Every turn keeps the progress. -/
theorem turn {id : StreamId} {agenda : Agenda} {q : Propagation}
    (hpop : p.agenda.pop? = some (id, agenda)) (hnext : p.next? order = some q) :
    Progress g order seed (had ++ [id]) q := by
  obtain ⟨hsound, hitems, -⟩ := hp.sound.pop? hpop
  rw [← next?_of_pop? hpop hnext]
  -- Only the streams without a turn matter for the order, and none of them is pushed: they wait.
  have hwait : ∀ t < g.streams.length, decide (t ∉ had ++ [id]) = true → t ∈ agenda.items := by
    intro t ht hnew
    rw [decide_eq_true_eq, List.mem_append, not_or, List.mem_singleton] at hnew
    have hmem := hp.mem_items hg hseed ht hnew.1
    rw [hitems, List.mem_cons] at hmem
    exact hmem.resolve_left hnew.2
  obtain ⟨hsound', hfilter⟩ := visit_agenda (p := p.begin agenda) hsound hwait order id
  have hgraph := visit_graph (p := p.begin agenda) (hp.wellFormed hg) order id
  have hrest : agenda.items.filter (fun t => t ∉ had ++ [id]) =
      agenda.items.filter fun t => t ∉ had := by
    have hnodup := hp.sound.nodup
    rw [hitems, List.nodup_cons] at hnodup
    refine List.filter_congr fun t ht => ?_
    have hne : t ≠ id := fun h => hnodup.1 (h ▸ ht)
    simp [hne]
  have hwaiting := hp.waiting
  rw [hitems] at hwaiting
  refine ⟨hsound', hgraph.trans ?_, ?_⟩
  · show p.graph.emit id = _
    rw [eraseDups_concat]
    split
    · rename_i hid
      rw [Graph.emit_of_settled (hp.settled hid), hp.graph_eq]
    · rw [Graph.sweep_concat, hp.graph_eq]
  · rw [hfilter, show (p.begin agenda).agenda = agenda from rfl, hrest, ← hwaiting, eraseDups_concat]
    by_cases hid : id ∈ had <;> simp [hid]

omit hg hseed in
/-- When none waits, the sweep is complete. -/
theorem graph_of_items_nil (hend : p.agenda.items = []) :
    p.graph = g.sweep (g.turns order seed) := by
  rw [hp.graph_eq, ← hp.waiting, hend, List.filter_nil, List.append_nil]

end Progress

/-- The invariant holds all along a propagation. -/
theorem Reaches.progress {g : Graph} (hg : g.WellFormed) {order : Order} {seed : List StreamId}
    (hseed : ∀ id ∈ seed, id < g.streams.length) {had : List StreamId} {p : Propagation}
    (h : Reaches order (g.start order seed) had p) : Progress g order seed had p := by
  induction h with
  | start => exact Progress.start hg hseed
  | turn _ hpop hnext ih => exact ih.turn hg hseed hpop hnext

end Propagation

/-! ## What a propagation leaves -/

namespace Graph

/-- The types that a stream takes. -/
def inputsOf (g : Graph) (id : StreamId) : List Attribution :=
  ((g.stream? id).map (·.inputs)).getD []

/-- The types that a sweep adds to those that a stream takes. -/
def gained (g : Graph) (ids : List StreamId) (id : StreamId) : List Attribution :=
  newTypes (g.inputsOf id) (g.offeredTo ids id)

theorem inputsOf_of_stream? {g : Graph} {id : StreamId} {s : Stream} (h : g.stream? id = some s) :
    g.inputsOf id = s.inputs := by
  rw [inputsOf, h]
  rfl

theorem inputsOf_of_le {g : Graph} {id : StreamId} (h : g.streams.length ≤ id) :
    g.inputsOf id = [] := by
  rw [inputsOf, stream?, List.getElem?_eq_none h]
  rfl

theorem stream?_sweep_gained (g : Graph) (ids : List StreamId) (t : StreamId) :
    (g.sweep ids).stream? t =
      (g.stream? t).map fun s => { s with inputs := s.inputs ++ g.gained ids t } := by
  rw [stream?_sweep]
  cases h : g.stream? t with
  | none => rfl
  | some s => rw [Option.map_some, Option.map_some, gained, inputsOf_of_stream? h]

theorem inputsOf_sweep (g : Graph) (ids : List StreamId) {t : StreamId}
    (ht : t < g.streams.length) : (g.sweep ids).inputsOf t = g.inputsOf t ++ g.gained ids t := by
  obtain ⟨s, hs⟩ := exists_stream? ht
  rw [inputsOf_of_stream? hs, inputsOf, stream?_sweep_gained, hs]
  rfl

theorem lookup?_sweep (g : Graph) (ids : List StreamId) (name : String) :
    (g.sweep ids).lookup? name = g.lookup? name := by
  rw [lookup?, lookup?, index_sweep]

theorem inputCount_eq_sum (g : Graph) :
    g.inputCount = ((List.range g.streams.length).map fun t => (g.inputsOf t).length).sum := by
  rw [inputCount]
  congr 1
  refine List.ext_getElem? fun i => ?_
  rw [List.getElem?_map, List.getElem?_map]
  by_cases hi : i < g.streams.length
  · rw [List.getElem?_range hi, List.getElem?_eq_getElem hi, Option.map_some, Option.map_some,
      inputsOf_of_stream? (List.getElem?_eq_getElem hi)]
  · have hle := Nat.le_of_not_lt hi
    rw [List.getElem?_eq_none hle, List.getElem?_eq_none (by rwa [List.length_range])]
    rfl

theorem inputCount_sweep (g : Graph) (ids : List StreamId) :
    (g.sweep ids).inputCount =
      g.inputCount + ((List.range g.streams.length).map fun t => (g.gained ids t).length).sum := by
  rw [inputCount_eq_sum, inputCount_eq_sum, length_sweep, ← List.sum_map_add]
  congr 1
  refine List.map_congr_left fun t ht => ?_
  rw [inputsOf_sweep g ids (List.mem_range.1 ht), List.length_append]

theorem propagateFrom?_of_valid {g : Graph} {seed : List StreamId}
    (hseed : ∀ id ∈ seed, id < g.streams.length) (order : Order) :
    g.propagateFrom? order seed =
      some (((g.start order seed).run order).graph, ((g.start order seed).run order).stats) := by
  rw [propagateFrom?, if_pos]
  · rfl
  · exact List.all_eq_true.2 fun id hid => decide_eq_true (hseed id hid)

theorem propagateFrom?_eq_some {g k : Graph} {order : Order} {seed : List StreamId}
    {stats : PropagationStats} (h : g.propagateFrom? order seed = some (k, stats)) :
    (∀ id ∈ seed, id < g.streams.length) ∧ g.propagateFrom order seed = (k, stats) := by
  simp only [propagateFrom?, Option.ite_none_right_eq_some, Option.some.injEq] at h
  exact ⟨fun id hid => of_decide_eq_true (List.all_eq_true.1 h.1 id hid), h.2⟩

open Propagation

/-- The graph `h` is `g` with all types passed on, and `new` tells which types every stream
has come to take. -/
structure Closure (g h : Graph) (new : StreamId → List Attribution) : Prop where
  /-- Streams have come to take more types, and nothing else about them has changed. -/
  streams : ∀ t, h.stream? t = (g.stream? t).map fun s => { s with inputs := s.inputs ++ new t }
  edges : h.edges = g.edges
  lookup : ∀ name, h.lookup? name = g.lookup? name
  /-- No type comes twice. -/
  distinct : ∀ t, ((new t).map (·.descriptor)).Nodup
  /-- Exactly those types come that the stream did not take and that it is fed. -/
  mem_iff : ∀ t s, g.stream? t = some s → ∀ d, d ∈ (new t).map (·.descriptor) ↔
    d ∉ s.inputs.map (·.descriptor) ∧ ∃ a, g.Feeds a t ∧ a.descriptor = d
  /-- Every type comes with the reason that the stream which feeds it has for it. -/
  origin : ∀ t, ∀ a ∈ new t, g.Feeds a t
  /-- Every type that a stream gives is taken at the end of each of its strong edges. -/
  complete : ∀ e ∈ h.edges, e.weak = false → ∀ s t, h.stream? e.source = some s →
    h.stream? e.target = some t → ∀ a ∈ s.outputs, t.hasInput a.descriptor = true

/-- A sweep over all streams passes all types on. -/
theorem closure_sweep {g : Graph} {ids : List StreamId}
    (hids : ids.Perm (List.range g.streams.length)) : Closure g (g.sweep ids) (g.gained ids) := by
  have hall : ∀ id, id < g.streams.length → id ∈ ids := fun id hid =>
    hids.mem_iff.2 (List.mem_range.2 hid)
  constructor
  · exact g.stream?_sweep_gained ids
  · exact g.edges_sweep ids
  · exact g.lookup?_sweep ids
  · exact fun t => nodup_map_newTypes _ _
  · intro t s hs d
    rw [gained, mem_map_newTypes, inputsOf_of_stream? hs]
    refine and_congr_right fun _ => ?_
    rw [List.mem_map]
    exact exists_congr fun a => and_congr_left fun _ => mem_offeredTo_iff_feeds hall
  · exact fun t a ha => (mem_offeredTo_iff_feeds hall).1 (mem_of_mem_newTypes ha)
  · intro e he hweak s t hs ht a ha
    have hsource : e.source ∈ ids := hall _ (by simpa using lt_of_stream? hs)
    refine g.settled_sweep hsource a (mem_outputsOf.2 ⟨s, hs, ha⟩) e.target ?_ t ht
    exact mem_strongChildren.2 ⟨e, he, rfl, hweak, rfl⟩

/-- A stream takes in the end what it took in the beginning and what it is fed. -/
theorem Closure.takes_iff {g h : Graph} {new : StreamId → List Attribution} (hc : Closure g h new)
    {t : StreamId} {s r : Stream} (hs : g.stream? t = some s) (hr : h.stream? t = some r)
    {d : Descriptor} :
    d ∈ r.inputs.map (·.descriptor) ↔
      d ∈ s.inputs.map (·.descriptor) ∨ ∃ a, g.Feeds a t ∧ a.descriptor = d := by
  rw [hc.streams t, hs] at hr
  obtain rfl := Option.some.inj hr
  rw [List.map_append, List.mem_append, hc.mem_iff t s hs d]
  by_cases hd : d ∈ s.inputs.map (·.descriptor) <;> simp [hd]

/-- The turns of a propagation, taken to the end, are a sweep. -/
theorem WellFormed.run_graph {g : Graph} (hg : g.WellFormed) (order : Order) {seed : List StreamId}
    (hseed : ∀ id ∈ seed, id < g.streams.length) :
    ((g.start order seed).run order).graph = g.sweep (g.turns order seed) := by
  obtain ⟨had, hreach, hend⟩ := reaches_run order (g.start order seed)
  exact (hreach.progress hg hseed).graph_of_items_nil hend

/-- A propagation passes all types on. -/
theorem WellFormed.closure_run {g : Graph} (hg : g.WellFormed) (order : Order)
    {seed : List StreamId} (hseed : ∀ id ∈ seed, id < g.streams.length) :
    Closure g ((g.start order seed).run order).graph (g.gained (g.turns order seed)) := by
  rw [hg.run_graph order hseed]
  exact closure_sweep (hg.turns_perm hseed order)

/-- Two streams that feed each other, the second of which also feeds itself, and a third one
that it does not feed. -/
def feedback : Graph :=
  let (g, source) := ({} : Graph).intern "a" none
  let (g, mapped) := g.intern "a.map" none
  let (g, other) := g.intern "b" none
  let g := g.addOutput mapped ⟨.primitive "string", .callbackOutput, none⟩
  let g := g.connect source mapped { operator := .map }
  let g := g.connect mapped source { operator := .into }
  let g := g.connect mapped mapped { operator := .into }
  g.connect mapped other { operator := .withLatest, weak := true }

/-- A propagation comes to an end, and leaves the graph of one sweep over all streams, in the
order of their first turns. A turn of a stream that has had one before adds nothing. -/
theorem WellFormed.propagation_eq_sweep {g : Graph} (hg : g.WellFormed) (order : Order)
    {seed : List StreamId} (hseed : ∀ id ∈ seed, id < g.streams.length) :
    (g.turns order seed).Perm (List.range g.streams.length) ∧
    (∃ had p, Reaches order (g.start order seed) had p ∧ p.agenda.items = [] ∧
      had.eraseDups = g.turns order seed ∧ p.graph = g.sweep (g.turns order seed) ∧
      g.propagateFrom? order seed = some (p.graph, p.stats)) ∧
    ∀ had p id agenda q, Reaches order (g.start order seed) had p →
      p.agenda.pop? = some (id, agenda) → p.next? order = some q → id ∈ had →
      q.graph = p.graph ∧ q.stats.additions = p.stats.additions := by
  refine ⟨hg.turns_perm hseed order, ?_, ?_⟩
  · obtain ⟨had, hreach, hend⟩ := reaches_run order (g.start order seed)
    have hprogress := hreach.progress hg hseed
    have hwaiting := hprogress.waiting
    rw [hend, List.filter_nil, List.append_nil] at hwaiting
    exact ⟨had, _, hreach, hend, hwaiting, hg.run_graph order hseed,
      propagateFrom?_of_valid hseed order⟩
  · intro had p id agenda q hreach hpop hnext hid
    have hprogress := hreach.progress hg hseed
    have hvisit : (p.begin agenda).visit order id = p.begin agenda :=
      visit_of_settled (p := p.begin agenda) (hprogress.wellFormed hg) (hprogress.settled hid) order
    rw [← next?_of_pop? hpop hnext, hvisit]
    exact ⟨rfl, rfl⟩

/-- After the turns of 2, 0 and 1, the streams 1 and 0 have another one, which adds nothing. -/
theorem propagation_eq_sweep_feedback :
    feedback.WellFormed ∧ (∀ id ∈ [1, 1], id < feedback.streams.length) ∧
      ∃ stats, feedback.propagateFrom? .lifo [1, 1] = some (feedback.sweep [2, 0, 1], stats) := by
  have hg : feedback.WellFormed := by decide
  have hseed : ∀ id ∈ [1, 1], id < feedback.streams.length := by decide
  have hturns : feedback.turns .lifo [1, 1] = [2, 0, 1] := by decide
  obtain ⟨-, ⟨_, p, -, -, -, hgraph, hrun⟩, -⟩ := hg.propagation_eq_sweep .lifo hseed
  rw [hgraph, hturns] at hrun
  exact ⟨hg, hseed, p.stats, hrun⟩

/-- A propagation comes to an end with all types passed on, and counts the types that were. -/
theorem WellFormed.propagation_closure {g : Graph} (hg : g.WellFormed) (order : Order)
    {seed : List StreamId} (hseed : ∀ id ∈ seed, id < g.streams.length) :
    ∃ had p new, Reaches order (g.start order seed) had p ∧ p.agenda.items = [] ∧
      g.propagateFrom? order seed = some (p.graph, p.stats) ∧ Closure g p.graph new ∧
      p.stats.additions =
        ((List.range g.streams.length).map fun t => (new t).length).sum := by
  obtain ⟨had, hreach, hend⟩ := reaches_run order (g.start order seed)
  refine ⟨had, _, g.gained (g.turns order seed), hreach, hend, propagateFrom?_of_valid hseed order,
    hg.closure_run order hseed, ?_⟩
  have hcount := hreach.additions
  rw [hg.run_graph order hseed, inputCount_sweep] at hcount
  have hstart : (g.start order seed).graph.inputCount = g.inputCount := rfl
  have hzero : (g.start order seed).stats.additions = 0 := rfl
  omega

theorem propagation_closure_feedback :
    feedback.WellFormed ∧ (∀ id ∈ [1, 1], id < feedback.streams.length) ∧
      ∃ h stats new, feedback.propagateFrom? .fifo [1, 1] = some (h, stats) ∧
        Closure feedback h new ∧
        stats.additions =
          ((List.range feedback.streams.length).map fun t => (new t).length).sum := by
  have hg : feedback.WellFormed := by decide
  have hseed : ∀ id ∈ [1, 1], id < feedback.streams.length := by decide
  obtain ⟨_, p, new, -, -, hrun, hclosure, hcount⟩ := hg.propagation_closure .fifo hseed
  exact ⟨hg, hseed, p.graph, p.stats, new, hrun, hclosure, hcount⟩

end Graph

end StreamTyping
