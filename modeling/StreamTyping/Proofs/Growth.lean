import Mathlib.Data.List.Infix
import Mathlib.Logic.Relation
import StreamTyping.Proofs.Downstream
import StreamTyping.Proofs.Provenance
import StreamTyping.Proofs.Reachable

/-!
# Sessions only grow

Nothing that was added to a session is ever changed or taken away. A stream
keeps its id, its name and its place, and every list that a session holds is
only ever added to at its end.

* `Session.Change`: all that events and passes do to a session, in small
  changes. `Session.Changes`: any number of them. Events and passes, whether or
  not they come to a violation, are nothing else (`Session.Changes.apply`,
  `Session.Changes.runPasses`).
* `Stream.Extends`, `Graph.Extends` and `Session.Extends`: something has been
  added, and nothing else has changed.
* `Session.Step.extends`: one step, and `Session.Steps.extends`: any number of them.
* `Session.steps_append_only`: what follows for diagnostics and for ids.
-/

namespace StreamTyping

/-! ## What passing types on can do -/

/-- What every added type keeps true is still true after a run. -/
theorem Propagation.run_induction {P : Graph → Prop}
    (hadd : ∀ g id a, P g → P (g.addInput id a)) (order : Order) {p : Propagation}
    (hp : P p.graph) : P (p.run order).graph := by
  have hoffer : ∀ (q : Propagation) (r : Attribution × StreamId), P q.graph →
      P (q.offer order r).graph := by
    intro q r hq
    cases hr : q.graph.lacks r with
    | false => rwa [offer_of_not_lacks hr]
    | true =>
      rw [offer_of_lacks hr]
      exact hadd _ _ _ hq
  obtain ⟨ids, hreach, -⟩ := reaches_run order p
  generalize p.run order = last at hreach
  induction hreach with
  | start => exact hp
  | @turn ids q r id agenda _ hpop hnext ih =>
    rw [← next?_of_pop? hpop hnext]
    exact visit_induction (P := fun k => P k.graph) hoffer (p := q.begin agenda) ih id

/-- Passing types on leaves everything alone but the types that streams take. -/
theorem Graph.skeleton_propagateFrom (g : Graph) (order : Order) (seed : List StreamId) :
    (g.propagateFrom order seed).1.skeleton = g.skeleton := by
  refine Propagation.run_induction (P := fun k => k.skeleton = g.skeleton) ?_ order rfl
  intro k id a hk
  rw [skeleton_addInput, hk]

/-! ## What events and passes can do -/

namespace Session

/-- A small change that an event or a pass makes to a session. -/
inductive Change : Session → Session → Prop where
  /-- Streams are added that take and give no types. -/
  | widen {s : Session} {g : Graph} (h : s.graph.Widens g) : Change s { s with graph := g }
  | connect (s : Session) (source target : StreamId) (label : EdgeLabel) :
      Change s { s with graph := s.graph.connect source target label }
  /-- A type is declared or passed on. -/
  | take (s : Session) (id : StreamId) (a : Attribution) :
      Change s { s with graph := s.graph.addInput id a }
  /-- A callback says what a stream takes and gives. -/
  | typed (s : Session) (id : StreamId) (takes gives : Descriptor) (locator : Option Locator) :
      Change s (s.attributeTypes id takes gives locator)
  | raise (s : Session) (diagnostics : List Diagnostic) : Change s (s.raise diagnostics)
  /-- It is noted how the check stands. -/
  | settle (s : Session) (status : Status) (propagation : Option PropagationStats) :
      Change s { s with status, propagation }

/-- Any number of small changes. -/
def Changes : Session → Session → Prop := Relation.ReflTransGen Change

namespace Changes

theorem refl (s : Session) : s.Changes s := Relation.ReflTransGen.refl

theorem single {s t : Session} (h : s.Change t) : s.Changes t := Relation.ReflTransGen.single h

theorem trans {s t u : Session} (hst : s.Changes t) (htu : t.Changes u) : s.Changes u :=
  Relation.ReflTransGen.trans hst htu

theorem connectAll (s : Session) (call : Invocation) (operator : Operator)
    (source target : StreamId) (arguments : List StreamId) :
    s.Changes { s with graph := s.graph.connectAll call operator source target arguments } := by
  have hfold : ∀ (label : EdgeLabel) (g : Graph), s.Changes { s with graph := g } →
      s.Changes { s with
        graph := arguments.foldl (fun g argument => g.connect argument target label) g } := by
    intro label
    induction arguments with
    | nil => exact fun g hg => hg
    | cons argument rest ih =>
      intro g hg
      exact ih _ (hg.trans (single (.connect { s with graph := g } argument target label)))
  exact hfold _ _ (single (.connect s source target _))

theorem typeTarget (s : Session) (call : Invocation) (operator : Operator) (target : StreamId) :
    s.Changes (s.typeTarget call operator target) := by
  rw [typeTarget_eq]
  cases call.typing? operator with
  | some typing => exact single (.typed s target typing.takes typing.gives typing.locator)
  | none => exact single (.raise s _)

theorem declare (s : Session) (declaration : Declaration) :
    s.Changes (s.declare declaration) := by
  have hintern : s.Changes
      { s with graph := (s.graph.intern declaration.name declaration.locator).1 } :=
    single (.widen (.intern _ _ _))
  rw [Session.declare]
  cases declaration.descriptor with
  | none => exact hintern
  | some descriptor => exact hintern.trans (single (.take _ _ _))

theorem spawn (s : Session) (call : Invocation) (operator : Operator) (source : StreamId)
    (arguments : List StreamId) : s.Changes (s.spawn call operator source arguments).1 := by
  have hintern : s.Changes { s with graph :=
      (s.graph.intern (operator.targetName call.source) call.locator).1 } :=
    single (.widen (.intern _ _ _))
  exact (hintern.trans (connectAll _ call operator source _ arguments)).trans
    (typeTarget _ call operator _)

/-- An invocation is a sequence of small changes, also where it is a violation. -/
theorem invoke (s : Session) (call : Invocation) : s.Changes (s.invoke call).1 := by
  rw [Session.invoke]
  split
  · exact refl s
  split
  · exact single (.raise s _)
  · rename_i operator _
    have hwidens := Graph.Widens.resolveArguments s.graph call operator call.arguments
    split
    · rename_i g _ hresolve
      rw [hresolve] at hwidens
      exact single (.widen hwidens)
    · rename_i g arguments hresolve
      rw [hresolve] at hwidens
      have hresolved : s.Changes { s with graph := g } := single (.widen hwidens)
      split
      · cases arguments with
        | nil => exact hresolved
        | cons target rest => exact hresolved.trans (single (.connect _ _ target _))
      · exact hresolved.trans (spawn _ call operator _ arguments)

theorem apply (s : Session) (event : Event) : s.Changes (s.apply event).1 := by
  cases event with
  | declare declaration => exact declare s declaration
  | invoke call => exact invoke s call

theorem build (s : Session) (events : List Event) : s.Changes (s.build events).1 := by
  induction events generalizing s with
  | nil => exact refl s
  | cons event events ih =>
    have happly := apply s event
    rw [Session.build]
    split
    · rename_i t _ heq
      rw [heq] at happly
      exact happly.trans (ih t)
    · rename_i t _ heq
      rw [heq] at happly
      exact happly

theorem propagateFrom (s : Session) (order : Order) (seed : List StreamId) :
    s.Changes { s with graph := (s.graph.propagateFrom order seed).1 } := by
  refine Propagation.run_induction (P := fun g => s.Changes { s with graph := g }) ?_ order (refl s)
  intro g id a hg
  exact hg.trans (single (.take { s with graph := g } id a))

theorem verify (s : Session) : s.Changes s.verify :=
  (single (.raise s _)).trans (single (.settle _ _ _))

theorem runPass (s : Session) (events : List Event) (pass : Pass) :
    s.Changes (s.runPass events pass).1 := by
  cases pass with
  | build => exact build s events
  | propagate => exact (propagateFrom s s.order []).trans (single (.settle _ _ _))
  | verify => exact verify s

theorem runPasses (s : Session) (events : List Event) (passes : List Pass) :
    s.Changes (s.runPasses events passes).1 := by
  induction passes generalizing s with
  | nil => exact refl s
  | cons pass passes ih =>
    have hpass := runPass s events pass
    rw [Session.runPasses]
    split
    · rename_i t _ heq
      rw [heq] at hpass
      exact hpass
    · rename_i t heq
      rw [heq] at hpass
      exact hpass.trans (ih t)

end Changes

end Session

/-! ## Adding and nothing else -/

/-- The stream `t` is `s` with more types and more edges listed. -/
structure Stream.Extends (s t : Stream) : Prop where
  id : t.id = s.id
  name : t.name = s.name
  /-- A stream keeps the place it was first added with. -/
  locator : t.locator = s.locator
  inputs : s.inputs <+: t.inputs
  outputs : s.outputs <+: t.outputs
  parents : s.parents <+: t.parents
  children : s.children <+: t.children

theorem Stream.Extends.refl (s : Stream) : s.Extends s :=
  ⟨rfl, rfl, rfl, List.prefix_rfl, List.prefix_rfl, List.prefix_rfl, List.prefix_rfl⟩

theorem Stream.Extends.trans {s t u : Stream} (hst : s.Extends t) (htu : t.Extends u) :
    s.Extends u where
  id := htu.id.trans hst.id
  name := htu.name.trans hst.name
  locator := htu.locator.trans hst.locator
  inputs := hst.inputs.trans htu.inputs
  outputs := hst.outputs.trans htu.outputs
  parents := hst.parents.trans htu.parents
  children := hst.children.trans htu.children

namespace Graph

/-- Every stream of `g` is still at its position in `h`, and so is every edge. -/
structure Extends (g h : Graph) : Prop where
  streams : ∀ i s, g.stream? i = some s → ∃ t, h.stream? i = some t ∧ s.Extends t
  edges : g.edges <+: h.edges
  /-- A name leads to the same id as before. -/
  lookup : ∀ {name id}, g.lookup? name = some id → h.lookup? name = some id

namespace Extends

theorem refl (g : Graph) : g.Extends g :=
  ⟨fun _ s hs => ⟨s, hs, .refl s⟩, List.prefix_rfl, id⟩

theorem trans {g h k : Graph} (hgh : g.Extends h) (hhk : h.Extends k) : g.Extends k := by
  refine ⟨fun i s hs => ?_, hgh.edges.trans hhk.edges, fun hid => hhk.lookup (hgh.lookup hid)⟩
  obtain ⟨t, ht, hst⟩ := hgh.streams i s hs
  obtain ⟨u, hu, htu⟩ := hhk.streams i t ht
  exact ⟨u, hu, hst.trans htu⟩

theorem modify {f : Stream → Stream} (hf : ∀ s : Stream, s.Extends (f s)) (g : Graph)
    (id : StreamId) : g.Extends (g.modify id f) := by
  refine ⟨fun i s hs => ?_, List.prefix_rfl, fun hid => hid⟩
  rw [stream?_modify, hs]
  split
  · exact ⟨f s, rfl, hf s⟩
  · exact ⟨s, rfl, .refl s⟩

theorem addInput (g : Graph) (id : StreamId) (a : Attribution) :
    g.Extends (g.addInput id a) := by
  refine modify (fun s => ?_) g id
  exact { Stream.Extends.refl s with inputs := List.prefix_append _ _ }

theorem addOutput (g : Graph) (id : StreamId) (a : Attribution) :
    g.Extends (g.addOutput id a) := by
  refine modify (fun s => ?_) g id
  exact { Stream.Extends.refl s with outputs := List.prefix_append _ _ }

theorem connect (g : Graph) (source target : StreamId) (label : EdgeLabel) :
    g.Extends (g.connect source target label) := by
  refine ⟨fun i s hs => ?_, List.prefix_append _ _, fun hid => hid⟩
  rw [stream?_connect, hs]
  exact ⟨_, rfl, { Stream.Extends.refl s with
    parents := List.prefix_append _ _, children := List.prefix_append _ _ }⟩

theorem widens {g h : Graph} (hwidens : g.Widens h) : g.Extends h := by
  refine ⟨fun i s hs => ⟨s, ?_, .refl s⟩, hwidens.edges_eq ▸ List.prefix_rfl, hwidens.lookup⟩
  rcases hwidens.stream?_cases i with heq | ⟨hnone, -⟩
  · rw [heq, hs]
  · rw [hs] at hnone
    cases hnone

end Extends

/-- A name that was added leads to the id that was given for it. -/
theorem lookup?_intern_self (g : Graph) (name : String) (locator : Option Locator) :
    (g.intern name locator).1.lookup? name = some (g.intern name locator).2 := by
  cases hl : g.lookup? name with
  | some id => rw [intern_of_lookup? hl, hl]
  | none =>
    rw [intern_of_lookup?_none hl, lookup?, Dict.get?_insert, if_pos rfl]

end Graph

namespace Session

/-- Streams, edges and diagnostics of `s` are still in `t`, at their positions. -/
structure Extends (s t : Session) : Prop where
  graph : s.graph.Extends t.graph
  diagnostics : s.diagnostics <+: t.diagnostics

theorem Extends.refl (s : Session) : s.Extends s := ⟨.refl _, List.prefix_rfl⟩

theorem Extends.trans {s t u : Session} (hst : s.Extends t) (htu : t.Extends u) : s.Extends u :=
  ⟨hst.graph.trans htu.graph, hst.diagnostics.trans htu.diagnostics⟩

theorem Extends.of_graph {s : Session} {g : Graph} (h : s.graph.Extends g) :
    s.Extends { s with graph := g } := ⟨h, List.prefix_rfl⟩

theorem Change.extends {s t : Session} (h : s.Change t) : s.Extends t := by
  cases h with
  | widen h => exact .of_graph (.widens h)
  | connect source target label => exact .of_graph (.connect _ _ _ _)
  | take id a => exact .of_graph (.addInput _ _ _)
  | typed id takes gives locator =>
    exact .of_graph ((Graph.Extends.addInput _ _ _).trans (.addOutput _ _ _))
  | raise diagnostics => exact ⟨.refl _, List.prefix_append _ _⟩
  | settle status propagation => exact ⟨.refl _, List.prefix_rfl⟩

theorem Changes.extends {s t : Session} (h : s.Changes t) : s.Extends t := by
  induction h with
  | refl => exact .refl s
  | tail _ hchange ih => exact ih.trans hchange.extends

/-! ## Every step, and every run -/

theorem Step.extends {s t : Session} (h : s.Step t) : s.Extends t := by
  cases h with
  | apply event => exact (Changes.apply s event).extends
  | intern name locator => exact .of_graph (.widens (.intern _ _ _))
  | @connect source target label g id h =>
    obtain ⟨-, -, rfl⟩ := Graph.connect?_eq_some h
    exact .of_graph (.connect _ _ _ _)
  | @addInput id a g h =>
    obtain rfl := Graph.addInput?_eq_some h
    exact .of_graph (.addInput _ _ _)
  | @addOutput id a g h =>
    obtain rfl := Graph.addOutput?_eq_some h
    exact .of_graph (.addOutput _ _ _)
  | raise diagnostic => exact (Changes.single (.raise s _)).extends
  | @propagate order seed g stats h =>
    have hchanges := Changes.propagateFrom s order seed
    rw [(Graph.propagateFrom?_eq_some h).2] at hchanges
    exact hchanges.extends
  | verify => exact (Changes.verify s).extends
  | pipeline events terminal => exact (Changes.runPasses s events _).extends

/-- Any number of steps. -/
def Steps : Session → Session → Prop := Relation.ReflTransGen Step

theorem Steps.extends {s t : Session} (h : s.Steps t) : s.Extends t := by
  induction h with
  | refl => exact .refl s
  | tail _ hstep ih => exact ih.trans hstep.extends

theorem Extends.diagnostics_ne_nil {s t : Session} (h : s.Extends t) (hs : s.diagnostics ≠ []) :
    t.diagnostics ≠ [] := by
  intro ht
  have hprefix := h.diagnostics
  rw [ht] at hprefix
  exact hs (List.prefix_nil.1 hprefix)

theorem verify_status_of_ne_nil {s : Session} (h : s.diagnostics ≠ []) :
    s.verify.status = .fail := by
  rw [verify_status, if_neg]
  exact fun hnone => h hnone.1

/-- A pipeline that comes to an end has verified a session in which nothing has been lost. -/
theorem pipeline_verify {s : Session} {events : List Event}
    (h : (s.pipeline events .verify).2.2 = none) :
    ∃ t, s.Extends t ∧ (s.pipeline events .verify).1 = t.verify := by
  obtain ⟨built, hbuild⟩ := build_of_pipeline h
  have hbuilt := (Changes.build s events).extends
  rw [hbuild] at hbuilt
  exact ⟨built.propagated, hbuilt.trans (Changes.runPass built [] .propagate).extends,
    pipeline_of_build hbuild⟩

/-- An id that a name leads to is given for it ever after. -/
theorem Extends.intern_eq {s t : Session} (h : s.Extends t) {name : String} {id : StreamId}
    (hid : s.graph.lookup? name = some id) (locator : Option Locator) :
    t.graph.intern name locator = (t.graph, id) :=
  Graph.intern_of_lookup? (h.graph.lookup hid) locator

/-- Every step only adds to a session: passing types on adds nothing but types that streams take,
and a verdict adds nothing but diagnostics and decides the status. So every run only adds, a
diagnostic once raised makes every later verdict a failure, and an id once given for a name is
given for it ever after. -/
theorem steps_append_only (s : Session) :
    (∀ t, s.Step t → s.Extends t) ∧
    (∀ order seed g stats, s.graph.propagateFrom? order seed = some (g, stats) →
      s.graph.Extends g ∧ g.skeleton = s.graph.skeleton) ∧
    (∃ found status, s.verify = { s with diagnostics := s.diagnostics ++ found, status }) ∧
    (∀ t, s.Steps t → s.Extends t ∧
      (s.diagnostics ≠ [] → t.verify.status = .fail ∧ ∀ events,
        (t.pipeline events .verify).2.2 = none → (t.pipeline events .verify).1.status = .fail) ∧
      ∀ name id, s.graph.lookup? name = some id →
        t.graph.lookup? name = some id ∧ ∀ locator, t.graph.intern name locator = (t.graph, id)) ∧
    ∀ name first t, Steps { s with graph := (s.graph.intern name first).1 } t →
      ∀ later, t.graph.intern name later = (t.graph, (s.graph.intern name first).2) := by
  refine ⟨fun t h => h.extends, fun order seed g stats h => ?_, ⟨_, _, rfl⟩, fun t h => ?_,
    fun name first t h => ?_⟩
  · have hstep : s.Step { s with graph := g } := .propagate h
    have hskeleton := s.graph.skeleton_propagateFrom order seed
    rw [(Graph.propagateFrom?_eq_some h).2] at hskeleton
    exact ⟨hstep.extends.graph, hskeleton⟩
  · refine ⟨h.extends, fun hs => ?_, fun name id hid => ?_⟩
    · have ht := h.extends.diagnostics_ne_nil hs
      refine ⟨verify_status_of_ne_nil ht, fun events hend => ?_⟩
      obtain ⟨u, hu, heq⟩ := pipeline_verify hend
      rw [heq]
      exact verify_status_of_ne_nil (hu.diagnostics_ne_nil ht)
    · exact ⟨h.extends.graph.lookup hid, h.extends.intern_eq hid⟩
  · exact h.extends.intern_eq (s.graph.lookup?_intern_self name first)

/-- An operator is unknown, and a diagnostic has been raised for it. -/
def warned : Session :=
  (build {} [.declare { name := "a" }, .invoke { source := "a", token := "zip" }]).1

/-- A pipeline that comes to a violation when it has added the streams `b` and `c`. -/
def warnedAgain : Session :=
  let dangling : Invocation :=
    { source := "a", token := "any", arguments := [.name "c", .stream "d"] }
  (warned.pipeline [.declare { name := "b" }, .invoke dangling] .verify).1

theorem steps_append_only_warned :
    warned.Steps warnedAgain ∧ warned.Extends warnedAgain ∧
      warnedAgain.graph.streams.map (·.name) = ["a", "b", "c"] ∧
      warned.diagnostics.map (·.kind) = [.unknownOperator] ∧ warnedAgain.verify.status = .fail ∧
      ∀ locator, warnedAgain.graph.intern "a" locator = (warnedAgain.graph, 0) := by
  have hsteps : warned.Steps warnedAgain := .single (.pipeline warned _ .verify)
  obtain ⟨-, -, -, hrun, -⟩ := steps_append_only warned
  obtain ⟨hextends, hfail, hlookup⟩ := hrun warnedAgain hsteps
  have hkinds : warned.diagnostics.map (·.kind) = [.unknownOperator] := by decide
  have hraised : warned.diagnostics ≠ [] := by decide
  exact ⟨hsteps, hextends, by decide +kernel, hkinds, (hfail hraised).1,
    (hlookup "a" 0 (by decide)).2⟩

end Session

end StreamTyping
