import StreamTyping.Proofs.Propagation

/-!
# Propagation is idempotent

A graph is closed if no type is left to be passed on. A propagation leaves a
closed graph, and one that starts from a closed graph gives every stream one
turn and does nothing else, whatever its order and its seed.

* `Propagation.next?_of_settled`: a turn where no stream has anything left to
  pass on. `Propagation.run_of_settled`: all turns from there on.
* `Graph.WellFormed.propagateFrom?_of_closed`: a propagation that starts from a
  closed graph.
* `Graph.WellFormed.additions_eq_zero_iff`: only there nothing is passed on.
* `Graph.WellFormed.propagation_idempotent`: one propagation after another.
-/

namespace StreamTyping

namespace Propagation

/-- Where no stream has anything left to pass on, a turn takes a stream off the agenda. -/
theorem next?_of_settled {order : Order} {p q : Propagation} (hp : p.graph.WellFormed)
    (hsettled : ∀ id, p.graph.Settled id) (hnext : p.next? order = some q) :
    ∃ id agenda, p.agenda.pop? = some (id, agenda) ∧ q = p.begin agenda := by
  cases hpop : p.agenda.pop? with
  | none => simp [next?, hpop] at hnext
  | some popped =>
    obtain ⟨id, agenda⟩ := popped
    have hvisit : (p.begin agenda).visit order id = p.begin agenda :=
      visit_of_settled (p := p.begin agenda) hp (hsettled id) order
    exact ⟨id, agenda, rfl, by rw [← next?_of_pop? hpop hnext, hvisit]⟩

/-- Where no stream has anything left to pass on, the streams that wait have one turn each. -/
theorem run_of_settled (order : Order) {p : Propagation} (hp : p.graph.WellFormed)
    (hsettled : ∀ id, p.graph.Settled id) :
    (p.run order).graph = p.graph ∧ (p.run order).stats =
      { p.stats with iterations := p.stats.iterations + p.agenda.items.length } := by
  induction p using run.induct order with
  | case1 p hnone =>
    have hitems : p.agenda.items = [] := next?_eq_none_iff.1 hnone
    rw [run, hnone]
    simp [hitems]
  | case2 p q hnext ih =>
    obtain ⟨id, agenda, hpop, rfl⟩ := next?_of_settled hp hsettled hnext
    obtain ⟨hgraph, hstats⟩ := ih hp hsettled
    have hlength := Agenda.length_of_pop? hpop
    rw [run, hnext]
    refine ⟨hgraph, hstats.trans ?_⟩
    simp only [begin, PropagationStats.mk.injEq, and_true]
    omega

end Propagation

namespace Graph

/-- Every type that a stream gives is taken at the end of each of its strong edges. -/
def Closed (g : Graph) : Prop :=
  ∀ e ∈ g.edges, e.weak = false → ∀ s t, g.stream? e.source = some s →
    g.stream? e.target = some t → ∀ a ∈ s.outputs, t.hasInput a.descriptor = true

theorem Closed.settled {g : Graph} (h : g.Closed) (id : StreamId) : g.Settled id := by
  intro a ha t ht r hr
  obtain ⟨e, he, rfl, hweak, rfl⟩ := mem_strongChildren.1 ht
  obtain ⟨s, hs, ha⟩ := mem_outputsOf.1 ha
  exact h e he hweak s r hs hr a ha

namespace WellFormed

variable {g : Graph} (hg : g.WellFormed) {order : Order} {seed : List StreamId}

include hg

section Run

variable (hseed : ∀ id ∈ seed, id < g.streams.length)

include hseed

variable (order) in
theorem closed_run : ((g.start order seed).run order).graph.Closed :=
  (hg.closure_run order hseed).complete

/-- The types that are passed on are those that the streams have come to take. -/
theorem additions_run : ((g.start order seed).run order).stats.additions =
    ((List.range g.streams.length).map fun t => (g.gained (g.turns order seed) t).length).sum := by
  obtain ⟨had, hreach, -⟩ := Propagation.reaches_run order (g.start order seed)
  have hcount := hreach.additions
  rw [hg.run_graph order hseed, inputCount_sweep] at hcount
  have hstart : (g.start order seed).graph.inputCount = g.inputCount := rfl
  have hzero : (g.start order seed).stats.additions = 0 := rfl
  omega

theorem length_agenda : (g.agenda order seed).items.length = g.streams.length := by
  rw [(hg.agenda_items hseed order).2, (hg.turns_perm hseed order).length_eq, List.length_range]

/-- If nothing has been passed on, the graph is as it was. -/
theorem run_graph_of_additions
    (h : ((g.start order seed).run order).stats.additions = 0) :
    ((g.start order seed).run order).graph = g := by
  rw [hg.additions_run hseed, List.sum_eq_zero_iff_forall_eq_nat] at h
  rw [hg.run_graph order hseed]
  refine ext_stream? (g.edges_sweep _) (g.index_sweep _) fun t => ?_
  rw [stream?_sweep_gained]
  cases hs : g.stream? t with
  | none => rfl
  | some s =>
    have hnone : (g.gained (g.turns order seed) t).length = 0 :=
      h _ (List.mem_map.2 ⟨t, List.mem_range.2 (lt_of_stream? hs), rfl⟩)
    rw [Option.map_some, List.length_eq_zero_iff.1 hnone, List.append_nil]

/-- A propagation that starts from a closed graph gives every stream one turn. -/
theorem propagateFrom?_of_closed (hclosed : g.Closed) :
    g.propagateFrom? order seed = some (g, { iterations := g.streams.length, additions := 0 }) := by
  obtain ⟨hgraph, hstats⟩ :=
    Propagation.run_of_settled order (p := g.start order seed) hg hclosed.settled
  rw [propagateFrom?_of_valid hseed, hgraph, hstats]
  simp [start, hg.length_agenda hseed]

end Run

/-- Nothing is passed on exactly if the graph is closed. -/
theorem additions_eq_zero_iff {h : Graph} {stats : PropagationStats}
    (hrun : g.propagateFrom? order seed = some (h, stats)) : stats.additions = 0 ↔ g.Closed := by
  obtain ⟨hseed, -⟩ := propagateFrom?_eq_some hrun
  constructor
  · intro hzero
    rw [propagateFrom?_of_valid hseed] at hrun
    obtain ⟨rfl, rfl⟩ := Prod.mk.inj (Option.some.inj hrun)
    have hclosed := hg.closed_run order hseed
    rwa [hg.run_graph_of_additions hseed hzero] at hclosed
  · intro hclosed
    rw [hg.propagateFrom?_of_closed hseed hclosed] at hrun
    obtain ⟨rfl, rfl⟩ := Prod.mk.inj (Option.some.inj hrun)
    rfl

/-- A propagation comes to an end, and another one after it, in whichever orders and from
whichever seeds, leaves the graph as it is, passes nothing on and gives every stream one turn. A
propagation that passes nothing on has started from a closed graph. -/
theorem propagation_idempotent :
    (∀ first second seed again, (∀ id ∈ seed, id < g.streams.length) →
      (∀ id ∈ again, id < g.streams.length) →
      ∃ h stats, g.propagateFrom? first seed = some (h, stats) ∧
        h.propagateFrom? second again =
          some (h, { iterations := g.streams.length, additions := 0 })) ∧
    ∀ order seed h stats, g.propagateFrom? order seed = some (h, stats) →
      (stats.additions = 0 ↔ g.Closed) := by
  refine ⟨fun first second seed again hseed hagain => ?_, fun order seed h stats hrun =>
    hg.additions_eq_zero_iff hrun⟩
  have hlength : ((g.start first seed).run first).graph.streams.length = g.streams.length := by
    rw [hg.run_graph first hseed, length_sweep]
  have hleft : ((g.start first seed).run first).graph.WellFormed := by
    rw [hg.run_graph first hseed]
    exact hg.sweep _
  refine ⟨_, _, propagateFrom?_of_valid hseed first, ?_⟩
  rw [hleft.propagateFrom?_of_closed (by rwa [hlength]) (hg.closed_run first hseed), hlength]

end WellFormed

/-- The first propagation passes two types on, so that the graph was not closed. -/
theorem propagation_idempotent_feedback :
    feedback.WellFormed ∧ (∀ id ∈ [1, 1], id < feedback.streams.length) ∧
      (∀ id ∈ [2, 1], id < feedback.streams.length) ∧
      ∃ h stats, feedback.propagateFrom? .fifo [1, 1] = some (h, stats) ∧
        h.propagateFrom? .lifo [2, 1] = some (h, { iterations := 3, additions := 0 }) ∧
        stats.additions = 2 ∧ ¬ feedback.Closed := by
  have hg : feedback.WellFormed := by decide
  have hseed : ∀ id ∈ [1, 1], id < feedback.streams.length := by decide
  have hagain : ∀ id ∈ [2, 1], id < feedback.streams.length := by decide
  obtain ⟨hidempotent, hclosed⟩ := hg.propagation_idempotent
  obtain ⟨h, stats, hrun, hrerun⟩ := hidempotent .fifo .lifo [1, 1] [2, 1] hseed hagain
  have hadditions : (feedback.propagateFrom? .fifo [1, 1]).map (·.2.additions) = some 2 := by
    decide +kernel
  rw [hrun] at hadditions
  have htwo : stats.additions = 2 := Option.some.inj hadditions
  refine ⟨hg, hseed, hagain, h, stats, hrun, hrerun, htwo, ?_⟩
  rw [← hclosed .fifo [1, 1] h stats hrun, htwo]
  decide

end Graph

end StreamTyping
