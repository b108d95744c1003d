import Mathlib.Algebra.BigOperators.Group.List.Basic
import Mathlib.Algebra.Order.Group.Nat
import StreamTyping.Proofs.Guarded
import StreamTyping.Proofs.Idempotence

/-!
# How long a propagation takes

A propagation is looked at after each thing that it does: while streams are put
on its agenda, when a turn begins, and after every offer of a turn.

* `Graph.Filling`: the agenda while it is being filled. `Graph.filling_iff`: the
  streams are put on in order, up to the first id that is out of range.
* `Propagation.Moment`: what a propagation is like at any time after that, and the
  offers that the turn under way still has to make.
* `Propagation.Ledger`: the invariant of the moments. A turn takes a stream off
  the agenda, an offer puts at most one back on, and each type that is passed on
  is missing no more.
* `Graph.WellFormed.length_allRoutes`: how many offers there are at most.
* `Graph.WellFormed.propagation_bounded`: how many turns a propagation takes, and
  what becomes of one whose seed is out of range.
-/

namespace StreamTyping

/-! ## Filling the agenda -/

namespace Agenda

theorem length_le_push (order : Order) (a : Agenda) (id : StreamId) :
    a.items.length ≤ (a.push order id).items.length := by
  unfold push
  split
  · exact Nat.le_refl _
  · cases order <;> simp

theorem push?_eq_none_iff {order : Order} {a : Agenda} {id : StreamId} :
    a.push? order id = none ↔ a.queued.length ≤ id := by
  simp [push?]

theorem push?_eq_some {order : Order} {a b : Agenda} {id : StreamId}
    (h : a.push? order id = some b) : id < a.queued.length ∧ b = a.push order id := by
  simp only [push?, Option.ite_none_right_eq_some, Option.some.injEq] at h
  exact ⟨h.1, h.2.symm⟩

/-- The flags of an agenda, read off the streams that wait. -/
theorem Sound.count_items {count : Nat} {a : Agenda} (h : a.Sound count) (id : StreamId) :
    a.items.count id = if a.queued[id]? = some true then 1 else 0 := by
  rw [h.nodup.count]
  simp only [h.mem_iff]

end Agenda

namespace Graph

/-- The agenda while it is being filled, and the streams that are still to be put on. There is
no going on from an id that has no flag. -/
inductive Filling (g : Graph) (order : Order) (seed : List StreamId) :
    List StreamId → Agenda → Prop where
  | start : Filling g order seed (seed ++ g.streams.map (·.id)) (Agenda.empty g.streams.length)
  | push {id : StreamId} {ids : List StreamId} {a b : Agenda} :
    Filling g order seed (id :: ids) a → a.push? order id = some b → Filling g order seed ids b

theorem Filling.sound {g : Graph} {order : Order} {seed ids : List StreamId} {a : Agenda}
    (h : g.Filling order seed ids a) : a.Sound g.streams.length := by
  induction h with
  | start => exact Agenda.sound_empty _
  | push _ hpush ih =>
    obtain ⟨-, rfl⟩ := Agenda.push?_eq_some hpush
    exact ih.push order _

/-- Streams that are in range are put on. -/
theorem Filling.pushAll {g : Graph} {order : Order} {seed rest : List StreamId} {a : Agenda}
    {ids : List StreamId} (h : g.Filling order seed (ids ++ rest) a)
    (hids : ∀ id ∈ ids, id < g.streams.length) :
    g.Filling order seed rest (ids.foldl (Agenda.push order) a) := by
  induction ids generalizing a with
  | nil => exact h
  | cons id ids ih =>
    obtain ⟨hid, hids⟩ := List.forall_mem_cons.1 hids
    have hflag : id < a.queued.length := by rwa [h.sound.length_queued]
    exact ih (.push h (Agenda.push?_of_lt hflag order)) hids

/-- The agenda is filled from the left, with ids that are in range. -/
theorem filling_iff {g : Graph} {order : Order} {seed ids : List StreamId} {a : Agenda} :
    g.Filling order seed ids a ↔
      ∃ done, seed ++ g.streams.map (·.id) = done ++ ids ∧ (∀ id ∈ done, id < g.streams.length) ∧
        a = done.foldl (Agenda.push order) (Agenda.empty g.streams.length) := by
  constructor
  · intro h
    induction h with
    | start => exact ⟨[], rfl, by simp, rfl⟩
    | @push id ids a b h hpush ih =>
      obtain ⟨done, hsplit, hdone, rfl⟩ := ih
      obtain ⟨hid, rfl⟩ := Agenda.push?_eq_some hpush
      rw [h.sound.length_queued] at hid
      refine ⟨done ++ [id], by simp [hsplit], ?_, by simp⟩
      simpa [or_imp, forall_and] using ⟨hdone, hid⟩
  · rintro ⟨done, hsplit, hdone, rfl⟩
    have hstart : g.Filling order seed (done ++ ids) (Agenda.empty g.streams.length) := by
      rw [← hsplit]
      exact .start
    exact hstart.pushAll hdone

/-- The agenda is full once all streams are put on, which takes a seed that is in range. -/
theorem filling_nil_iff {g : Graph} (hg : g.WellFormed) {order : Order} {seed : List StreamId}
    {a : Agenda} : g.Filling order seed [] a ↔
      (∀ id ∈ seed, id < g.streams.length) ∧ a = g.agenda order seed := by
  have hstreams : ∀ id ∈ g.streams.map (·.id), id < g.streams.length := fun id hid => by
    rwa [hg.stream_ids, List.mem_range] at hid
  rw [filling_iff]
  simp only [List.append_nil]
  constructor
  · rintro ⟨_, rfl, hdone, rfl⟩
    exact ⟨fun id hid => hdone id (List.mem_append_left _ hid), rfl⟩
  · rintro ⟨hseed, rfl⟩
    exact ⟨_, rfl, List.forall_mem_append.2 ⟨hseed, hstreams⟩, rfl⟩

/-- The agenda can not be filled beyond the first id of the seed that is out of range. -/
theorem exists_filling_stuck {g : Graph} (order : Order) {seed : List StreamId}
    (hseed : ∃ id ∈ seed, g.streams.length ≤ id) :
    ∃ id ids a, g.Filling order seed (id :: ids) a ∧ a.push? order id = none := by
  have hfind : (seed.find? fun id => g.streams.length ≤ id).isSome := by
    simpa [List.find?_isSome] using hseed
  obtain ⟨id, hid⟩ := Option.isSome_iff_exists.1 hfind
  obtain ⟨hout, front, back, rfl, hfront⟩ := List.find?_eq_some_iff_append.1 hid
  have hfill : g.Filling order (front ++ id :: back) (id :: (back ++ g.streams.map (·.id))) _ :=
    filling_iff.2 ⟨front, by simp, by simpa using hfront, rfl⟩
  refine ⟨id, _, _, hfill, Agenda.push?_eq_none_iff.2 ?_⟩
  rw [hfill.sound.length_queued]
  exact of_decide_eq_true hout

end Graph

/-! ## Moments of a propagation -/

namespace Propagation

/-- A propagation between two things that it does, with the offers that the turn under way has
still to make. -/
inductive Moment (g : Graph) (order : Order) (seed : List StreamId) :
    List (Attribution × StreamId) → Propagation → Prop where
  | start {a : Agenda} : g.Filling order seed [] a →
    Moment g order seed [] { graph := g, agenda := a }
  | turn {p : Propagation} {id : StreamId} {agenda : Agenda} :
    Moment g order seed [] p → p.agenda.pop? = some (id, agenda) →
    Moment g order seed (p.graph.routes id) (p.begin agenda)
  | offer {p : Propagation} {route : Attribution × StreamId}
    {rest : List (Attribution × StreamId)} :
    Moment g order seed (route :: rest) p → Moment g order seed rest (p.offer order route)

variable {g : Graph} {order : Order} {seed : List StreamId}

/-- A turn is made to its end. -/
theorem Moment.offers {routes : List (Attribution × StreamId)} {p : Propagation}
    (h : Moment g order seed routes p) :
    Moment g order seed [] (routes.foldl (Propagation.offer order) p) := by
  induction routes generalizing p with
  | nil => exact h
  | cons route routes ih => exact ih h.offer

/-- The states between turns are moments. -/
theorem Reaches.moment (hfill : g.Filling order seed [] (g.agenda order seed))
    {had : List StreamId} {p : Propagation} (h : Reaches order (g.start order seed) had p) :
    Moment g order seed [] p := by
  induction h with
  | start => exact .start hfill
  | @turn ids q r id agenda _ hpop hnext ih =>
    rw [← next?_of_pop? hpop hnext]
    exact (ih.turn hpop).offers

/-- What has been done and what is left to do, added up. Every stream waits or has had a turn,
every turn beyond the first ones is owed to a type that was passed on, and every type that was
passed on was missing before. -/
structure Ledger (g : Graph) (rest : List (Attribution × StreamId)) (p : Propagation) : Prop where
  sound : p.agenda.Sound g.streams.length
  le_turns : g.streams.length ≤ p.stats.iterations + p.agenda.items.length
  turns_le : p.stats.iterations + p.agenda.items.length ≤ g.streams.length + p.stats.additions
  additions_le : p.stats.additions + p.graph.missing ≤ g.missing
  routes_eq : p.graph.allRoutes = g.allRoutes
  rest_subset : ∀ route ∈ rest, route ∈ g.allRoutes

namespace Ledger

variable {p : Propagation} {rest : List (Attribution × StreamId)}

theorem start {a : Agenda} (hsound : a.Sound g.streams.length)
    (hlength : a.items.length = g.streams.length) :
    Ledger g [] { graph := g, agenda := a } where
  sound := hsound
  le_turns := by simp [hlength]
  turns_le := by simp [hlength]
  additions_le := by simp
  routes_eq := rfl
  rest_subset := by simp

theorem turn (h : Ledger g [] p) {id : StreamId} {agenda : Agenda}
    (hpop : p.agenda.pop? = some (id, agenda)) : Ledger g (p.graph.routes id) (p.begin agenda) := by
  have hlength := Agenda.length_of_pop? hpop
  have hge := h.le_turns
  have hle := h.turns_le
  exact {
    sound := (h.sound.pop? hpop).1
    le_turns := by
      simp only [begin]
      omega
    turns_le := by
      simp only [begin]
      omega
    additions_le := h.additions_le
    routes_eq := h.routes_eq
    rest_subset := fun route hroute => h.routes_eq ▸ Graph.mem_allRoutes hroute }

/-- The stream that takes the type may be the one whose turn it is: it has been taken off the
agenda, so that it is put on again like any other. -/
theorem offer {route : Attribution × StreamId} (h : Ledger g (route :: rest) p) (order : Order) :
    Ledger g rest (p.offer order route) := by
  obtain ⟨hroute, hrest⟩ := List.forall_mem_cons.1 h.rest_subset
  cases hlacks : p.graph.lacks route with
  | false =>
    rw [offer_of_not_lacks hlacks]
    exact { h with rest_subset := hrest }
  | true =>
    have hmissing := Graph.missing_addInput_lt (h.routes_eq ▸ hroute) hlacks
    have hgrown := p.agenda.length_le_push order route.2
    have hbound := p.agenda.length_push_le order route.2
    have hge := h.le_turns
    have hle := h.turns_le
    have hadditions := h.additions_le
    rw [offer_of_lacks hlacks]
    exact {
      sound := h.sound.push order _
      le_turns := by
        simp only
        omega
      turns_le := by
        simp only
        omega
      additions_le := by
        simp only
        omega
      routes_eq := (Graph.allRoutes_addInput _ _ _).trans h.routes_eq
      rest_subset := hrest }

end Ledger

theorem Moment.ledger (hg : g.WellFormed) {rest : List (Attribution × StreamId)} {p : Propagation}
    (h : Moment g order seed rest p) : Ledger g rest p := by
  induction h with
  | @start a hfill =>
    obtain ⟨hseed, rfl⟩ := (Graph.filling_nil_iff hg).1 hfill
    exact .start hfill.sound (hg.length_agenda hseed)
  | turn _ hpop ih => exact ih.turn hpop
  | offer _ ih => exact ih.offer order

end Propagation

/-! ## How many types can be passed on -/

namespace Graph

/-- A sum to which one position alone adds anything. -/
theorem sum_map_range_ite (weight : Nat → Nat) (i n : Nat) :
    ((List.range n).map fun j => if i = j then weight j else 0).sum =
      if i < n then weight i else 0 := by
  induction n with
  | zero => simp
  | succ n ih =>
    rw [List.range_succ, List.map_append, List.sum_append, ih, List.map_singleton,
      List.sum_singleton]
    by_cases hi : i = n
    · simp [hi]
    · have hiff : i < n + 1 ↔ i < n := by omega
      simp [hi, hiff]

/-- A sum over edges, gathered by the streams that they go out of. -/
theorem sum_map_source (weight : StreamId → Nat) {edges : List Edge} {count : Nat}
    (h : ∀ e ∈ edges, e.source < count) :
    ((List.range count).map fun id =>
      weight id * (edges.filter fun e => e.source = id).length).sum =
        (edges.map fun e => weight e.source).sum := by
  induction edges with
  | nil => simp
  | cons e edges ih =>
    obtain ⟨he, hedges⟩ := List.forall_mem_cons.1 h
    have hsplit : ∀ id, weight id * ((e :: edges).filter fun e => e.source = id).length =
        (if e.source = id then weight id else 0) +
          weight id * (edges.filter fun e => e.source = id).length := by
      intro id
      by_cases hid : e.source = id
      · simp [hid, Nat.mul_add, Nat.add_comm]
      · simp [hid]
    simp only [hsplit, List.sum_map_add, sum_map_range_ite, ih hedges, List.map_cons,
      List.sum_cons]
    rw [if_pos he]

/-- Every strong edge can carry each type that its source gives. -/
theorem WellFormed.length_allRoutes {g : Graph} (hg : g.WellFormed) : g.allRoutes.length =
    ((g.edges.filter fun e => !e.weak).map fun e => (g.outputsOf e.source).length).sum := by
  have hsource : ∀ e ∈ g.edges.filter (fun e => !e.weak), e.source < g.streams.length :=
    fun e he => (hg.ends e (List.mem_filter.1 he).1).1
  have hroutes : ∀ id, (g.routes id).length = (g.outputsOf id).length *
      ((g.edges.filter fun e => !e.weak).filter fun e => e.source = id).length := by
    intro id
    rw [hg.routes_eq, offersOf, List.length_flatMap, strongChildren, edgesFrom, List.filter_comm]
    simp
  rw [allRoutes, List.length_flatMap, ← sum_map_source (fun id => (g.outputsOf id).length) hsource]
  simp only [hroutes]

theorem propagateFrom?_eq_none {g : Graph} {order : Order} {seed : List StreamId}
    (h : ∃ id ∈ seed, g.streams.length ≤ id) : g.propagateFrom? order seed = none := by
  rw [propagateFrom?, if_neg]
  simpa [hasStream] using h

open Propagation

/-- A seed that is out of range leaves no moment to a propagation. -/
theorem WellFormed.not_moment {g : Graph} (hg : g.WellFormed) {order : Order} {seed : List StreamId}
    (hseed : ∃ id ∈ seed, g.streams.length ≤ id) (rest : List (Attribution × StreamId))
    (p : Propagation) : ¬ Moment g order seed rest p := by
  intro h
  induction h with
  | start hfill =>
    obtain ⟨id, hid, hout⟩ := hseed
    exact Nat.not_lt.2 hout (((filling_nil_iff hg).1 hfill).1 id hid)
  | turn _ _ ih | offer _ ih => exact ih

/-- All along, while the agenda is filled, between turns and within them, the flags tell which
streams wait, and none waits twice. A seed that is in range fills the agenda with every stream once,
and the turns come to an end when none waits. There is a turn for every stream, and at most one more
for every type that is passed on. A strong edge passes on at most the types that its source gives.
A seed that is out of range is met while the agenda is filled, and no turn begins. -/
theorem WellFormed.propagation_bounded {g : Graph} (hg : g.WellFormed) (order : Order)
    (seed : List StreamId) :
    (∀ ids a, g.Filling order seed ids a →
      ∀ id, a.items.count id = if a.queued[id]? = some true then 1 else 0) ∧
    (∀ rest p, Moment g order seed rest p →
      ∀ id, p.agenda.items.count id = if p.agenda.queued[id]? = some true then 1 else 0) ∧
    ((∀ id ∈ seed, id < g.streams.length) →
      (∀ a, g.Filling order seed [] a → a.items.Perm (List.range g.streams.length)) ∧
      ∃ p, Moment g order seed [] p ∧ p.agenda.items = [] ∧
        g.propagateFrom? order seed = some (p.graph, p.stats) ∧
        g.streams.length ≤ p.stats.iterations ∧
        p.stats.iterations ≤ g.streams.length + p.stats.additions ∧
        p.stats.additions ≤
          ((g.edges.filter fun e => !e.weak).map fun e => (g.outputsOf e.source).length).sum) ∧
    ((∃ id ∈ seed, g.streams.length ≤ id) → g.propagateFrom? order seed = none ∧
      (∃ id ids a, g.Filling order seed (id :: ids) a ∧ a.push? order id = none) ∧
      ∀ rest p, ¬ Moment g order seed rest p) := by
  refine ⟨fun ids a h => h.sound.count_items, fun rest p h => (h.ledger hg).sound.count_items,
    fun hseed => ?_, fun hseed =>
      ⟨propagateFrom?_eq_none hseed, exists_filling_stuck order hseed, hg.not_moment hseed⟩⟩
  constructor
  · intro a hfill
    obtain ⟨-, rfl⟩ := (filling_nil_iff hg).1 hfill
    rw [(hg.agenda_items hseed order).2]
    exact hg.turns_perm hseed order
  · obtain ⟨had, hreach, hend⟩ := reaches_run order (g.start order seed)
    have hmoment := hreach.moment ((filling_nil_iff hg).2 ⟨hseed, rfl⟩)
    -- At the end none waits, so that the ledger counts turns alone.
    have hledger := hmoment.ledger hg
    have hge := hledger.le_turns
    have hle := hledger.turns_le
    have hadditions : ((g.start order seed).run order).stats.additions ≤ g.allRoutes.length :=
      calc ((g.start order seed).run order).stats.additions
        _ ≤ g.missing := Nat.le_of_add_right_le hledger.additions_le
        _ ≤ g.allRoutes.length := List.countP_le_length
    rw [hend, List.length_nil, Nat.add_zero] at hge hle
    rw [hg.length_allRoutes] at hadditions
    exact ⟨_, hmoment, hend, propagateFrom?_of_valid hseed order, hge, hle, hadditions⟩

/-- The two types that the last of three streams passes on, to itself and to one that has had its
turn, cost two more turns. -/
theorem propagation_bounded_feedback :
    feedback.WellFormed ∧
    (∃ p, Moment feedback .lifo [1, 1] [] p ∧ p.agenda.items = [] ∧
      feedback.propagateFrom? .lifo [1, 1] = some (p.graph, p.stats) ∧
      p.stats = { iterations := 5, additions := 2 }) ∧
    feedback.propagateFrom? .lifo [1, 3] = none ∧
      ∀ rest p, ¬ Moment feedback .lifo [1, 3] rest p := by
  have hg : feedback.WellFormed := by decide
  obtain ⟨-, -, hvalid, -⟩ := hg.propagation_bounded .lifo [1, 1]
  obtain ⟨-, p, hmoment, hend, hrun, -⟩ := hvalid (by decide)
  obtain ⟨-, -, -, hout⟩ := hg.propagation_bounded .lifo [1, 3]
  obtain ⟨hnone, -, hmoments⟩ := hout (by decide)
  have hstats : (feedback.propagateFrom? .lifo [1, 1]).map (·.2) =
      some { iterations := 5, additions := 2 } := by decide +kernel
  rw [hrun] at hstats
  exact ⟨hg, ⟨p, hmoment, hend, hrun, Option.some.inj hstats⟩, hnone, hmoments⟩

end Graph

end StreamTyping
