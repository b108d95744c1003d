import StreamTyping.Proofs.Guarded

/-!
# Two builds side by side

A build only ever adds to a graph: a stream, an edge, or a type of a stream. So
a relation between two graphs that holds on as the same is added to both of
them holds all along two builds, and the builds come to the same violation. The
same is said of builds that differ in what hardly matters: in the places that
events cite, and in the numbers among the arguments.

* `Event.essence`: an event without places and numbers.
* `SameUpTo`: things with the same essence, or, in strict terms, the same things.
* `Graph.Simulation`: a relation that each way of adding to a graph keeps. With a
  relation between the diagnostics raised it makes a `Session.Simulation`.
  Nothing else is asked of them.
* `Session.Beside.apply` and `Session.Beside.build`: what the relations say of two
  builds.
-/

namespace StreamTyping

/-! ## What matters of an event -/

/-- The things have the same essence, and are the same if this is meant strictly. -/
def SameUpTo (strict : Prop) {α β : Type} (essence : α → β) (x y : α) : Prop :=
  essence x = essence y ∧ (strict → x = y)

theorem SameUpTo.refl (strict : Prop) {α β : Type} (essence : α → β) (x : α) :
    SameUpTo strict essence x x := ⟨rfl, fun _ => rfl⟩

/-- What a thing determines, so does its essence. -/
theorem SameUpTo.congr {strict : Prop} {α β γ δ : Type} {essence : α → β} {x y : α}
    (h : SameUpTo strict essence x y) {f : α → γ} {view : γ → δ}
    (hf : essence x = essence y → view (f x) = view (f y)) :
    SameUpTo strict view (f x) (f y) := ⟨hf h.1, fun hstrict => congrArg f (h.2 hstrict)⟩

/-- Lists of things with the same essence agree in the first and in the others. -/
theorem SameUpTo.cons {strict : Prop} {α β : Type} {essence : α → β} {x : α} {l m : List α}
    (h : SameUpTo strict (List.map essence) (x :: l) m) :
    ∃ y m', m = y :: m' ∧ SameUpTo strict essence x y ∧ SameUpTo strict (List.map essence) l m' := by
  obtain ⟨y, m', rfl, hy, hm⟩ := List.map_eq_cons_iff.1 h.1.symm
  exact ⟨y, m', rfl, ⟨hy.symm, fun hstrict => (List.cons.inj (h.2 hstrict)).1⟩,
    hm.symm, fun hstrict => (List.cons.inj (h.2 hstrict)).2⟩

/-- A callback without its place. -/
def Callback.essence (callback : Callback) : Callback := { callback with locator := none }

/-- An argument without a place; of a number nothing is left. -/
def Argument.essence? : Argument → Option Argument
  | .stream n => some (.stream n)
  | .name n => some (.name n)
  | .number _ => none
  | .callback signature => some (.callback signature.essence)

/-- A declaration without its place. -/
def Declaration.essence (declaration : Declaration) : Declaration :=
  { declaration with locator := none }

/-- An invocation without places and numbers. -/
def Invocation.essence (call : Invocation) : Invocation :=
  { call with arguments := call.arguments.filterMap (·.essence?), locator := none }

/-- An event without places and numbers. -/
def Event.essence : Event → Event
  | .declare declaration => .declare declaration.essence
  | .invoke call => .invoke call.essence

/-- A violation without its place. -/
def Violation.essence : Violation → Violation
  | .unresolvedSource stream token _ => .unresolvedSource stream token none
  | .unresolvedArgument stream token _ => .unresolvedArgument stream token none
  | .missingTarget token _ => .missingTarget token none

/-- A type and the kind of reason for it, without the place. -/
def Attribution.essence (a : Attribution) : Attribution := { a with locator := none }

/-- What an edge says, without its number and its place. -/
def EdgeLabel.essence (label : EdgeLabel) : EdgeLabel :=
  { label with literal := none, locator := none }

/-- A result of a build, with the essence of a violation. -/
def outcome {α : Type} (r : Except Violation α) : Except Violation α := r.mapError (·.essence)

namespace Invocation

variable {call call' : Invocation} (h : call.essence = call'.essence)

include h

theorem source_of_essence : call.source = call'.source := by
  show call.essence.source = call'.essence.source
  rw [h]

theorem token_of_essence : call.token = call'.token := by
  show call.essence.token = call'.essence.token
  rw [h]

/-- What is read from the arguments one by one, and not from places or numbers. -/
theorem filterMap_of_essence {α : Type} {f : Argument → Option α}
    (hf : ∀ argument : Argument, argument.essence?.bind f = f argument) :
    call.arguments.filterMap f = call'.arguments.filterMap f := by
  have hread : ∀ c : Invocation, c.arguments.filterMap f = c.essence.arguments.filterMap f := by
    intro c
    rw [essence, List.filterMap_filterMap]
    exact List.filterMap_congr fun argument _ => (hf argument).symm
  rw [hread call, hread call', h]

theorem map_callbacks_of_essence :
    call.callbacks.map (·.essence) = call'.callbacks.map (·.essence) := by
  rw [callbacks, callbacks, List.map_filterMap, List.map_filterMap]
  refine filterMap_of_essence h fun argument => ?_
  cases argument <;> rfl

/-- There is no callback in either invocation, or one of the same types, or as many others. -/
theorem callbacks_of_essence : (call.callbacks = [] ∧ call'.callbacks = []) ∨
    (∃ c c', call.callbacks = [c] ∧ call'.callbacks = [c'] ∧ c.params = c'.params ∧
      c.returns = c'.returns) ∨
    ∃ c d rest c' d' rest', call.callbacks = c :: d :: rest ∧
      call'.callbacks = c' :: d' :: rest' ∧ rest.length = rest'.length := by
  have hmap := map_callbacks_of_essence h
  have hlength := congrArg List.length hmap
  simp only [List.length_map] at hlength
  cases hc : call.callbacks with
  | nil =>
    rw [hc] at hlength
    exact .inl ⟨rfl, List.length_eq_zero_iff.1 hlength.symm⟩
  | cons c rest =>
    cases hc' : call'.callbacks with
    | nil => rw [hc, hc'] at hlength; cases hlength
    | cons c' rest' =>
      rw [hc, hc', List.map_cons, List.map_cons] at hmap
      rw [hc, hc', List.length_cons, List.length_cons, Nat.add_right_cancel_iff] at hlength
      obtain ⟨hparams, hreturns, -⟩ := Callback.mk.inj (List.cons.inj hmap).1
      cases rest with
      | nil =>
        obtain rfl := List.length_eq_zero_iff.1 hlength.symm
        exact .inr (.inl ⟨c, c', rfl, rfl, hparams, hreturns⟩)
      | cons d rest =>
        cases rest' with
        | nil => cases hlength
        | cons d' rest' =>
          exact .inr (.inr ⟨c, d, rest, c', d', rest', rfl, rfl, Nat.succ.inj hlength⟩)

theorem typing?_of_essence (operator : Operator) :
    (call.typing? operator).map (fun t => (t.takes, t.gives)) =
      (call'.typing? operator).map fun t => (t.takes, t.gives) := by
  obtain ⟨hc, hc'⟩ | ⟨c, c', hc, hc', hparams, hreturns⟩ | ⟨_, _, _, _, _, _, hc, hc', -⟩ :=
    callbacks_of_essence h
  · cases operator <;> simp [typing?, hc, hc']
  · cases operator with
    | map =>
      simp only [typing?, hc, hc', hparams, hreturns]
      split <;> rfl
    | withLatest | combineLatest => simp [typing?, hc, hc', hparams, hreturns]
    | into | observe | filter | delay => rfl
  · cases operator <;> simp [typing?, hc, hc']

theorem fault?_of_essence (operator : Operator) :
    (call.fault? operator).map (·.kind) = (call'.fault? operator).map (·.kind) := by
  obtain ⟨hc, hc'⟩ | ⟨c, c', hc, hc', hparams, -⟩ | ⟨_, _, _, _, _, _, hc, hc', hlength⟩ :=
    callbacks_of_essence h
  · cases operator <;> simp [fault?, extraCallbacks?, hc, hc', Finding.kind]
  · cases operator with
    | map =>
      simp only [fault?, hc, hc', hparams]
      split <;> rfl
    | withLatest | combineLatest => simp [fault?, extraCallbacks?, hc, hc']
    | into | observe | filter | delay => rfl
  · cases operator <;> simp [fault?, extraCallbacks?, hc, hc', Finding.kind]

end Invocation

/-- The stream or the name that an argument is. -/
def Argument.reference? : Argument → Option Argument
  | .stream n => some (.stream n)
  | .name n => some (.name n)
  | .number _ | .callback _ => none

theorem Invocation.references_of_essence {call call' : Invocation}
    (h : call.essence = call'.essence) :
    call.arguments.filterMap (·.reference?) = call'.arguments.filterMap (·.reference?) := by
  refine filterMap_of_essence h fun argument => ?_
  cases argument <;> rfl

/-- Only streams and names are looked at for the streams among the arguments. -/
theorem Graph.resolveArguments_references (g : Graph) (call : Invocation) (operator : Operator)
    (arguments : List Argument) : g.resolveArguments call operator arguments =
      g.resolveArguments call operator (arguments.filterMap (·.reference?)) := by
  induction arguments generalizing g with
  | nil => rfl
  | cons argument rest ih =>
    have hstream : ∀ n, g.resolveArguments call operator (.stream n :: rest) =
        g.resolveArguments call operator (.stream n :: rest.filterMap (·.reference?)) := by
      intro n
      cases hn : g.resolve call n with
      | error v =>
        rw [resolveArguments_stream_of_error _ _ _ _ _ hn,
          resolveArguments_stream_of_error _ _ _ _ _ hn]
      | ok id =>
        rw [resolveArguments_stream_of_ok _ _ _ _ _ hn, resolveArguments_stream_of_ok _ _ _ _ _ hn,
          ih]
    cases argument with
    | number _ | callback _ => exact ih g
    | stream n => exact hstream n
    | name n =>
      rw [List.filterMap_cons_some (show (Argument.name n).reference? = some (.name n) from rfl)]
      by_cases hinto : operator = .into
      · subst hinto
        exact hstream n
      · rw [resolveArguments_name _ _ _ _ hinto, resolveArguments_name _ _ _ _ hinto, ih]

/-! ## What is kept as graphs are added to -/

namespace Graph

/-- Graphs in the relation lead from names to the same streams and the other way round, and are
still in the relation when a stream, an edge or a type is added to both. What is added may differ
beside its essence, unless this is meant strictly. -/
structure Simulation (strict : Prop) (R : Graph → Graph → Prop) : Prop where
  lookup : ∀ {g h}, R g h → ∀ name, g.lookup? name = h.lookup? name
  nameOf : ∀ {g h}, R g h → ∀ id, g.nameOf? id = h.nameOf? id
  intern : ∀ {g h}, R g h → ∀ name {l l'}, (strict → l = l') →
    R (g.intern name l).1 (h.intern name l').1 ∧ (g.intern name l).2 = (h.intern name l').2
  connect : ∀ {g h}, R g h → ∀ source target {label label'},
    SameUpTo strict EdgeLabel.essence label label' →
    R (g.connect source target label) (h.connect source target label')
  addInput : ∀ {g h}, R g h → ∀ id {a a'}, SameUpTo strict Attribution.essence a a' →
    R (g.addInput id a) (h.addInput id a')
  addOutput : ∀ {g h}, R g h → ∀ id {a a'}, SameUpTo strict Attribution.essence a a' →
    R (g.addOutput id a) (h.addOutput id a')

namespace Simulation

variable {strict : Prop} {R : Graph → Graph → Prop} (hsim : Simulation strict R)

include hsim

/-- The streams among the same arguments are the same. -/
theorem resolveArguments {call call' : Invocation} (htoken : call.token = call'.token)
    (hlocator : strict → call.locator = call'.locator) (operator : Operator)
    (arguments : List Argument) {g h : Graph} (hR : R g h) :
    R (g.resolveArguments call operator arguments).1
        (h.resolveArguments call' operator arguments).1 ∧
      SameUpTo strict outcome (g.resolveArguments call operator arguments).2
        (h.resolveArguments call' operator arguments).2 := by
  induction arguments generalizing g h with
  | nil => exact ⟨hR, .refl strict outcome _⟩
  | cons argument rest ih =>
    -- Another stream in front makes no difference to what is the same.
    have hprepend : ∀ (id : StreamId) {k m : Graph}, R k m →
        R (prepend id (k.resolveArguments call operator rest)).1
            (prepend id (m.resolveArguments call' operator rest)).1 ∧
          SameUpTo strict outcome (prepend id (k.resolveArguments call operator rest)).2
            (prepend id (m.resolveArguments call' operator rest)).2 := by
      intro id k m hkm
      obtain ⟨hgraph, hids⟩ := ih hkm
      refine ⟨hgraph, hids.congr (f := fun r : Except Violation (List StreamId) =>
        r.map (id :: ·)) fun hids => ?_⟩
      generalize (k.resolveArguments call operator rest).2 = r at hids
      generalize (m.resolveArguments call' operator rest).2 = r' at hids
      have hmap : ∀ x : Except Violation (List StreamId),
          outcome (x.map (id :: ·)) = (outcome x).map (id :: ·) := by
        rintro (_ | _) <;> rfl
      rw [hmap, hmap, hids]
    have hstream : ∀ n, R (g.resolveArguments call operator (.stream n :: rest)).1
        (h.resolveArguments call' operator (.stream n :: rest)).1 ∧
          SameUpTo strict outcome (g.resolveArguments call operator (.stream n :: rest)).2
            (h.resolveArguments call' operator (.stream n :: rest)).2 := by
      intro n
      have hlookup := hsim.lookup hR n
      cases hn : g.lookup? n with
      | none =>
        rw [resolveArguments_stream_of_error _ _ _ _ _ (by rw [resolve, hn]),
          resolveArguments_stream_of_error _ _ _ _ _ (by rw [resolve, ← hlookup, hn])]
        refine ⟨hR, ?_, fun hstrict => ?_⟩
        · rw [htoken]
          rfl
        · rw [htoken, hlocator hstrict]
      | some id =>
        rw [resolveArguments_stream_of_ok _ _ _ _ _ (by rw [resolve, hn]),
          resolveArguments_stream_of_ok _ _ _ _ _ (by rw [resolve, ← hlookup, hn])]
        exact hprepend id hR
    cases argument with
    | number _ | callback _ => exact ih hR
    | stream n => exact hstream n
    | name n =>
      by_cases hinto : operator = .into
      · subst hinto
        exact hstream n
      · obtain ⟨hintern, hid⟩ := hsim.intern hR n hlocator
        rw [resolveArguments_name _ _ _ _ hinto, resolveArguments_name _ _ _ _ hinto, hid]
        exact hprepend _ hintern

theorem connectAll {call call' : Invocation} (hcall : SameUpTo strict Invocation.essence call call')
    (operator : Operator) (source target : StreamId) (arguments : List StreamId) {g h : Graph}
    (hR : R g h) : R (g.connectAll call operator source target arguments)
      (h.connectAll call' operator source target arguments) := by
  have hlabel : ∀ weak, SameUpTo strict EdgeLabel.essence
      { operator, weak, literal := call.literal, locator := call.locator }
      { operator, weak, literal := call'.literal, locator := call'.locator } := by
    intro weak
    refine ⟨rfl, fun hstrict => ?_⟩
    rw [hcall.2 hstrict]
  have hfold : ∀ {g h : Graph}, R g h → ∀ {label label' : EdgeLabel},
      SameUpTo strict EdgeLabel.essence label label' →
      R (arguments.foldl (fun k argument => k.connect argument target label) g)
        (arguments.foldl (fun k argument => k.connect argument target label') h) := by
    induction arguments with
    | nil => exact fun hR _ _ _ => hR
    | cons argument rest ih =>
      exact fun hR _ _ hlabel => ih (hsim.connect hR argument target hlabel) hlabel
  exact hfold (hsim.connect hR source target (hlabel false)) (hlabel _)

end Simulation

end Graph

/-! ## Builds -/

/-- A relation between graphs and one between diagnostics that are kept as a session is added
to. -/
structure Session.Simulation (strict : Prop) (R : Graph → Graph → Prop)
    (Q : List Diagnostic → List Diagnostic → Prop) : Prop extends Graph.Simulation strict R where
  raise : ∀ {raised raised'}, Q raised raised' → ∀ {found found' : List Finding},
    SameUpTo strict (List.map Finding.kind) found found' →
    Q (raised ++ found.map (·.diagnostic)) (raised' ++ found'.map (·.diagnostic))

/-- Sessions with graphs and diagnostics in the relations. -/
structure Session.Beside (R : Graph → Graph → Prop) (Q : List Diagnostic → List Diagnostic → Prop)
    (s t : Session) : Prop where
  graph : R s.graph t.graph
  diagnostics : Q s.diagnostics t.diagnostics

namespace Session.Beside

variable {strict : Prop} {R : Graph → Graph → Prop} {Q : List Diagnostic → List Diagnostic → Prop}
  {s t : Session} (h : s.Beside R Q t)

include h

theorem withGraph {g k : Graph} (hR : R g k) :
    ({ s with graph := g } : Session).Beside R Q { t with graph := k } := ⟨hR, h.diagnostics⟩

variable (hsim : Session.Simulation strict R Q)

include hsim

theorem raise {found found' : List Finding}
    (hfound : SameUpTo strict (List.map Finding.kind) found found') :
    (s.raise (found.map (·.diagnostic))).Beside R Q (t.raise (found'.map (·.diagnostic))) :=
  ⟨h.graph, hsim.raise h.diagnostics hfound⟩

theorem note {finding finding' : Finding} (hfinding : SameUpTo strict Finding.kind finding finding') :
    (s.note finding).Beside R Q (t.note finding') := by
  have hsingle : SameUpTo strict (List.map Finding.kind) [finding] [finding'] :=
    hfinding.congr (f := fun finding => [finding]) fun hkind => congrArg (fun kind => [kind]) hkind
  exact h.raise hsim hsingle

theorem declare {declaration declaration' : Declaration}
    (hdeclaration : SameUpTo strict Declaration.essence declaration declaration') :
    (s.declare declaration).Beside R Q (t.declare declaration') := by
  obtain ⟨hname, hdescriptor, -⟩ := Declaration.mk.inj hdeclaration.1
  have hlocator : strict → declaration.locator = declaration'.locator := fun hstrict => by
    rw [hdeclaration.2 hstrict]
  obtain ⟨hintern, hid⟩ := hsim.intern h.graph declaration.name hlocator
  rw [Session.declare, Session.declare, ← hname, ← hdescriptor]
  cases declaration.descriptor with
  | none => exact h.withGraph hintern
  | some descriptor =>
    simp only [hid]
    refine h.withGraph (hsim.addInput hintern _ ⟨rfl, fun hstrict => ?_⟩)
    rw [hlocator hstrict]

variable {call call' : Invocation} (hcall : SameUpTo strict Invocation.essence call call')

include hcall

theorem typeTarget (operator : Operator) (target : StreamId) :
    (s.typeTarget call operator target).Beside R Q (t.typeTarget call' operator target) := by
  have htyping := Invocation.typing?_of_essence hcall.1 operator
  have htypings : strict → call.typing? operator = call'.typing? operator := fun hstrict => by
    rw [hcall.2 hstrict]
  rw [typeTarget_eq, typeTarget_eq]
  cases hfirst : call.typing? operator with
  | none =>
    rw [hfirst] at htyping
    rw [Option.map_eq_none_iff.1 htyping.symm]
    refine h.raise hsim (hcall.congr (f := fun call => (call.fault? operator).toList) fun hessence => ?_)
    have hkind := congrArg Option.toList (Invocation.fault?_of_essence hessence operator)
    rwa [Option.toList_map, Option.toList_map] at hkind
  | some typing =>
    rw [hfirst] at htyping htypings
    obtain ⟨typing', hsecond, hpair⟩ := Option.map_eq_some_iff.1 htyping.symm
    obtain ⟨htakes, hgives⟩ := Prod.mk.inj hpair
    rw [hsecond] at htypings ⊢
    have hsame : ∀ descriptor provenance, SameUpTo strict Attribution.essence
        ⟨descriptor, provenance, typing.locator⟩ ⟨descriptor, provenance, typing'.locator⟩ := by
      refine fun descriptor provenance => ⟨rfl, fun hstrict => ?_⟩
      rw [Option.some.inj (htypings hstrict)]
    simp only [attributeTypes, htakes, hgives]
    exact h.withGraph (hsim.addOutput (hsim.addInput h.graph target (hsame _ _)) target (hsame _ _))

theorem spawn (operator : Operator) (source : StreamId) (arguments : List StreamId) :
    (s.spawn call operator source arguments).1.Beside R Q
      (t.spawn call' operator source arguments).1 := by
  have hlocator : strict → call.locator = call'.locator := fun hstrict => by rw [hcall.2 hstrict]
  obtain ⟨hintern, hid⟩ := hsim.intern h.graph (operator.targetName call.source) hlocator
  simp only [Session.spawn, ← Invocation.source_of_essence hcall.1, hid]
  refine (h.withGraph ?_).typeTarget hsim hcall operator _
  exact hsim.toSimulation.connectAll hcall operator source _ arguments hintern

theorem feed (source : StreamId) (arguments : List StreamId) :
    (s.feed call source arguments).1.Beside R Q (t.feed call' source arguments).1 ∧
      SameUpTo strict outcome (s.feed call source arguments).2 (t.feed call' source arguments).2 := by
  have htoken := Invocation.token_of_essence hcall.1
  cases arguments with
  | nil =>
    refine ⟨h, ?_, fun hstrict => ?_⟩
    · rw [Session.feed, Session.feed, htoken]
      rfl
    · rw [Session.feed, Session.feed, hcall.2 hstrict]
  | cons target rest =>
    have hname : (s.graph.stream? target).map (·.name) = (t.graph.stream? target).map (·.name) :=
      hsim.nameOf h.graph target
    refine ⟨h.withGraph (hsim.connect h.graph source target ⟨rfl, fun hstrict => ?_⟩), ?_,
      fun _ => ?_⟩
    · rw [hcall.2 hstrict]
    all_goals rw [Session.feed, Session.feed, hname]

/-- Invocations with the same essence come to the same result. -/
theorem invoke : (s.invoke call).1.Beside R Q (t.invoke call').1 ∧
    SameUpTo strict outcome (s.invoke call).2 (t.invoke call').2 := by
  have hsource := Invocation.source_of_essence hcall.1
  have htoken := Invocation.token_of_essence hcall.1
  have hlocator : strict → call.locator = call'.locator := fun hstrict => by rw [hcall.2 hstrict]
  rw [Session.invoke, Session.invoke, ← hsource, ← htoken, ← hsim.lookup h.graph]
  cases s.graph.lookup? call.source with
  | none =>
    refine ⟨h, rfl, fun hstrict => ?_⟩
    rw [hlocator hstrict]
  | some source =>
    cases Operator.ofToken? call.token with
    | none =>
      refine ⟨h.note hsim ⟨rfl, fun hstrict => ?_⟩, .refl strict outcome _⟩
      rw [hlocator hstrict]
    | some operator =>
      have hreferences := Invocation.references_of_essence hcall.1
      obtain ⟨hgraph, hids⟩ := hsim.toSimulation.resolveArguments htoken hlocator operator
        (call.arguments.filterMap (·.reference?)) h.graph
      dsimp only
      rw [Graph.resolveArguments_references s.graph, Graph.resolveArguments_references t.graph,
        ← hreferences]
      generalize s.graph.resolveArguments call operator _ = first at hgraph hids
      generalize t.graph.resolveArguments call' operator _ = second at hgraph hids
      obtain ⟨g, r⟩ := first
      obtain ⟨k, r'⟩ := second
      rcases r with v | ids
      · rcases r' with w | ids'
        · refine ⟨h.withGraph hgraph, ?_, fun hstrict => ?_⟩
          · exact congrArg Except.error (Except.error.inj hids.1)
          · exact congrArg Except.error (Except.error.inj (hids.2 hstrict))
        · cases hids.1
      · rcases r' with w | ids'
        · cases hids.1
        · obtain rfl : ids = ids' := Except.ok.inj hids.1
          by_cases hinto : operator = .into
          · simp only [if_pos hinto]
            exact (h.withGraph hgraph).feed hsim hcall source ids
          · simp only [if_neg hinto]
            refine ⟨(h.withGraph hgraph).spawn hsim hcall operator source ids, ?_, fun _ => ?_⟩
            all_goals rw [Session.spawn, Session.spawn, hsource]

omit hcall in
/-- Events with the same essence come to the same result. -/
theorem apply {event event' : Event} (hevent : SameUpTo strict Event.essence event event') :
    (s.apply event).1.Beside R Q (t.apply event').1 ∧
      SameUpTo strict outcome (s.apply event).2 (t.apply event').2 := by
  cases event with
  | declare declaration =>
    cases event' with
    | invoke _ => cases hevent.1
    | declare declaration' =>
      have hdeclaration : SameUpTo strict Declaration.essence declaration declaration' :=
        ⟨Event.declare.inj hevent.1, fun hstrict => Event.declare.inj (hevent.2 hstrict)⟩
      obtain ⟨hname, -, -⟩ := Declaration.mk.inj hdeclaration.1
      refine ⟨h.declare hsim hdeclaration, ?_, fun _ => ?_⟩
      all_goals rw [Session.apply, Session.apply, hname]
  | invoke call =>
    cases event' with
    | declare _ => cases hevent.1
    | invoke call' =>
      exact h.invoke hsim
        ⟨Event.invoke.inj hevent.1, fun hstrict => Event.invoke.inj (hevent.2 hstrict)⟩

omit hcall in
/-- Builds of events with the same essences stay side by side, and come to the same violation. -/
theorem build {events events' : List Event}
    (hevents : SameUpTo strict (List.map Event.essence) events events') :
    (s.build events).1.Beside R Q (t.build events').1 ∧
      SameUpTo strict (Option.map Violation.essence) (s.build events).2 (t.build events').2 := by
  induction events generalizing s t events' with
  | nil =>
    obtain rfl := List.map_eq_nil_iff.1 hevents.1.symm
    exact ⟨h, .refl strict _ _⟩
  | cons event events ih =>
    obtain ⟨event', rest, rfl, hevent, hrest⟩ := hevents.cons
    obtain ⟨hsession, hresult⟩ := h.apply hsim hevent
    rw [Session.build, Session.build]
    generalize s.apply event = first at hsession hresult
    generalize t.apply event' = second at hsession hresult
    obtain ⟨s', v | name⟩ := first
    all_goals obtain ⟨t', w | name'⟩ := second
    · refine ⟨hsession, ?_, fun hstrict => ?_⟩
      · exact congrArg some (Except.error.inj hresult.1)
      · exact congrArg some (Except.error.inj (hresult.2 hstrict))
    · cases hresult.1
    · cases hresult.1
    · exact ih hsession hrest

end Session.Beside

end StreamTyping
