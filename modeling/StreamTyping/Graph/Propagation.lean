import StreamTyping.Graph.Basic

/-!
# Propagation of types

Every type that a stream gives is passed on to the streams at the ends of its
strong edges, unless they take that type already. Streams wait for their turn
on an `Agenda`; a stream that takes a new type goes back on it.

* `Agenda.push` never puts a stream on the agenda twice. The `order` says at
  which end it goes on; the next stream is always the first one.
* `Graph.propagateFrom` starts from an agenda with the streams of a seed first
  and then all others.
* `Propagation.next?` gives one stream its turn and `Propagation.run` all of
  them, until none waits.
* `Propagation.work` counts the types that are still to be passed on and the
  streams that wait. Every turn makes it smaller, so the propagation ends.
-/

namespace StreamTyping

/-- Which of the waiting streams is next: the one that came last, or the one that
came first. -/
inductive Order where
  | lifo
  | fifo
deriving DecidableEq, Repr

/-- What a propagation took. -/
structure PropagationStats where
  /-- How many times a stream had its turn. -/
  iterations : Nat := 0
  /-- How many types were passed on. -/
  additions : Nat := 0
deriving DecidableEq, Repr

/-- The streams that wait for their turn. -/
structure Agenda where
  /-- The waiting streams, the next one first. -/
  items : List StreamId
  /-- For every stream of the graph, whether it waits. -/
  queued : List Bool
deriving DecidableEq, Repr

namespace Agenda

/-- Nothing waits. -/
def empty (count : Nat) : Agenda := ⟨[], List.replicate count false⟩

/-- Lets a stream wait, unless it waits already. -/
def push (order : Order) (a : Agenda) (id : StreamId) : Agenda :=
  if a.queued.getD id true then a
  else
    { items :=
        match order with
        | .lifo => id :: a.items
        | .fifo => a.items ++ [id]
      queued := a.queued.set id true }

/-- Takes the next stream off, if one waits. -/
def pop? (a : Agenda) : Option (StreamId × Agenda) :=
  match a.items with
  | [] => none
  | id :: rest => some (id, ⟨rest, a.queued.set id false⟩)

theorem length_push_le (order : Order) (a : Agenda) (id : StreamId) :
    (a.push order id).items.length ≤ a.items.length + 1 := by
  unfold push
  split
  · exact Nat.le_succ _
  · cases order <;> simp

theorem length_of_pop? {a b : Agenda} {id : StreamId} (h : a.pop? = some (id, b)) :
    b.items.length + 1 = a.items.length := by
  unfold pop? at h
  split at h
  · exact absurd h (by simp)
  · rename_i rest hitems
    simp only [Option.some.injEq, Prod.mk.injEq] at h
    rw [← h.2, hitems]
    rfl

end Agenda

namespace Graph

/-- The streams at the ends of the strong edges that go out of a stream. -/
def strongTargets (g : Graph) (s : Stream) : List StreamId :=
  ((g.childEdges s).filter fun e => !e.weak).map (·.target)

/-- What a stream has to pass on, and to which stream, in the order in which it does:
the first type to every target, then the second, and so on. -/
def routes (g : Graph) (id : StreamId) : List (Attribution × StreamId) :=
  match g.stream? id with
  | none => []
  | some s => s.outputs.flatMap fun a => (g.strongTargets s).map fun t => (a, t)

/-- The target of a route does not take its type yet. -/
def lacks (g : Graph) (route : Attribution × StreamId) : Bool :=
  match g.stream? route.2 with
  | none => false
  | some s => !s.hasInput route.1.descriptor

/-- The routes of all streams. -/
def allRoutes (g : Graph) : List (Attribution × StreamId) :=
  (List.range g.streams.length).flatMap g.routes

/-- How many routes still have something to pass on. -/
def missing (g : Graph) : Nat := g.allRoutes.countP g.lacks

@[simp] theorem strongTargets_addInput (g : Graph) (id : StreamId) (a : Attribution) :
    (g.addInput id a).strongTargets = g.strongTargets := rfl

@[simp] theorem routes_addInput (g : Graph) (id i : StreamId) (a : Attribution) :
    (g.addInput id a).routes i = g.routes i := by
  simp only [routes, stream?_addInput, strongTargets_addInput]
  by_cases h : id = i
  · rw [if_pos h]
    cases g.stream? i <;> rfl
  · rw [if_neg h]

@[simp] theorem allRoutes_addInput (g : Graph) (id : StreamId) (a : Attribution) :
    (g.addInput id a).allRoutes = g.allRoutes := by
  have hlen : (g.addInput id a).streams.length = g.streams.length := length_modify g id _
  have hroutes : (g.addInput id a).routes = g.routes := funext fun i => routes_addInput g id i a
  rw [allRoutes, allRoutes, hlen, hroutes]

theorem mem_allRoutes {g : Graph} {id : StreamId} {route : Attribution × StreamId}
    (h : route ∈ g.routes id) : route ∈ g.allRoutes := by
  refine List.mem_flatMap.2 ⟨id, List.mem_range.2 ?_, h⟩
  refine Nat.lt_of_not_le fun hle => ?_
  simp [routes, stream?, List.getElem?_eq_none hle] at h

theorem lacks_of_lacks_addInput {g : Graph} {id : StreamId} {a : Attribution}
    {route : Attribution × StreamId} (h : (g.addInput id a).lacks route = true) :
    g.lacks route = true := by
  simp only [lacks, stream?_addInput] at h ⊢
  cases hs : g.stream? route.2 with
  | none => simp [hs] at h
  | some s =>
    rw [hs] at h
    split at h
    · exact absurd h (by simp)
    · rename_i t ht
      by_cases hid : id = route.2
      · simp only [hid, if_true, Option.map_some, Option.some.injEq] at ht
        subst ht
        simp only [Stream.hasInput, List.any_append, Bool.not_eq_true', Bool.or_eq_false_iff] at h ⊢
        exact h.1
      · simp only [hid, if_false, Option.some.injEq] at ht
        subst ht
        exact h

theorem lacks_addInput_self (g : Graph) (route : Attribution × StreamId) :
    (g.addInput route.2 route.1).lacks route = false := by
  simp only [lacks, stream?_addInput, if_true]
  cases g.stream? route.2 <;> simp [Stream.hasInput]

theorem countP_lt_countP {α : Type} {p q : α → Bool} {l : List α}
    (hpq : ∀ x, p x = true → q x = true) {a : α} (ha : a ∈ l) (hp : p a = false)
    (hq : q a = true) : l.countP p < l.countP q := by
  induction l with
  | nil => exact absurd ha List.not_mem_nil
  | cons x l ih =>
    rw [List.countP_cons, List.countP_cons]
    rcases List.mem_cons.1 ha with rfl | ha
    · have hle : l.countP p ≤ l.countP q := List.countP_mono_left fun y _ h => hpq y h
      rw [if_neg (Bool.eq_false_iff.1 hp), if_pos hq]
      omega
    · have hlt := ih ha
      by_cases hx : p x = true
      · rw [if_pos hx, if_pos (hpq x hx)]
        omega
      · rw [if_neg hx]
        omega

/-- Passing a missing type on makes fewer types missing. -/
theorem missing_addInput_lt {g : Graph} {route : Attribution × StreamId}
    (hmem : route ∈ g.allRoutes) (hlacks : g.lacks route = true) :
    (g.addInput route.2 route.1).missing < g.missing := by
  rw [missing, missing, allRoutes_addInput]
  exact countP_lt_countP (fun _ => lacks_of_lacks_addInput) hmem (lacks_addInput_self g route) hlacks

end Graph

/-- A propagation under way. -/
structure Propagation where
  graph : Graph
  agenda : Agenda
  stats : PropagationStats := {}
deriving DecidableEq

namespace Propagation

/-- Passes a type on, unless the target takes it already. -/
def offer (order : Order) (p : Propagation) (route : Attribution × StreamId) : Propagation :=
  if p.graph.lacks route then
    { graph := p.graph.addInput route.2 route.1
      agenda := p.agenda.push order route.2
      stats := { p.stats with additions := p.stats.additions + 1 } }
  else p

/-- Passes on what a stream has to pass on. -/
def visit (order : Order) (p : Propagation) (id : StreamId) : Propagation :=
  (p.graph.routes id).foldl (offer order) p

/-- Gives the next stream its turn, if one waits. -/
def next? (order : Order) (p : Propagation) : Option Propagation :=
  match p.agenda.pop? with
  | none => none
  | some (id, agenda) =>
    some (visit order
      { p with agenda, stats := { p.stats with iterations := p.stats.iterations + 1 } } id)

/-- The types that are still to be passed on and the streams that wait, counted together. -/
def work (p : Propagation) : Nat := p.graph.missing + p.agenda.items.length

theorem allRoutes_offer (order : Order) (p : Propagation) (route : Attribution × StreamId) :
    (p.offer order route).graph.allRoutes = p.graph.allRoutes := by
  unfold offer
  split
  · exact Graph.allRoutes_addInput _ _ _
  · rfl

/-- A type that is passed on makes up for the stream that waits because of it. -/
theorem work_offer_le {order : Order} {p : Propagation} {route : Attribution × StreamId}
    (hmem : route ∈ p.graph.allRoutes) : (p.offer order route).work ≤ p.work := by
  unfold offer
  split
  · rename_i hlacks
    have hmissing := Graph.missing_addInput_lt hmem hlacks
    have hlength := p.agenda.length_push_le order route.2
    simp only [work]
    omega
  · exact Nat.le_refl _

theorem work_foldl_offer_le (order : Order) (routes : List (Attribution × StreamId))
    (p : Propagation) (h : ∀ route ∈ routes, route ∈ p.graph.allRoutes) :
    (routes.foldl (offer order) p).work ≤ p.work := by
  induction routes generalizing p with
  | nil => exact Nat.le_refl _
  | cons route routes ih =>
    rw [List.foldl_cons]
    refine Nat.le_trans (ih _ fun r hr => ?_) (work_offer_le (h route List.mem_cons_self))
    rw [allRoutes_offer]
    exact h r (List.mem_cons_of_mem _ hr)

theorem work_visit_le (order : Order) (p : Propagation) (id : StreamId) :
    (p.visit order id).work ≤ p.work :=
  work_foldl_offer_le order _ p fun _ => Graph.mem_allRoutes

/-- Every turn leaves less work. -/
theorem work_lt_of_next? {order : Order} {p q : Propagation} (h : p.next? order = some q) :
    q.work < p.work := by
  unfold next? at h
  split at h
  · exact absurd h (by simp)
  · rename_i id agenda hpop
    obtain rfl := Option.some.inj h
    have hlength := Agenda.length_of_pop? hpop
    refine Nat.lt_of_le_of_lt (work_visit_le order _ id) ?_
    simp only [work]
    omega

/-- Gives the waiting streams their turns until none waits. -/
def run (order : Order) (p : Propagation) : Propagation :=
  match _h : p.next? order with
  | none => p
  | some q => run order q
termination_by p.work
decreasing_by exact work_lt_of_next? _h

end Propagation

namespace Graph

/-- The agenda at the start: the streams of the seed, and then all others. -/
def agenda (g : Graph) (order : Order) (seed : List StreamId) : Agenda :=
  (seed ++ g.streams.map (·.id)).foldl (Agenda.push order) (Agenda.empty g.streams.length)

/-- Passes all types on, starting with the streams of a seed. -/
def propagateFrom (g : Graph) (order : Order) (seed : List StreamId) :
    Graph × PropagationStats :=
  let p := Propagation.run order { graph := g, agenda := g.agenda order seed }
  (p.graph, p.stats)

/-- Passes all types on. -/
def propagate (g : Graph) (order : Order) : Graph × PropagationStats :=
  g.propagateFrom order []

/-- Passes all types on, if the seed holds streams of the graph only. -/
def propagateFrom? (g : Graph) (order : Order) (seed : List StreamId) :
    Option (Graph × PropagationStats) :=
  if seed.all g.hasStream then some (g.propagateFrom order seed) else none

end Graph

end StreamTyping
