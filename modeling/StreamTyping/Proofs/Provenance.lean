import StreamTyping.Proofs.Staged

/-!
# Where types come from

Every type that a stream takes or gives says why it is there and where the
reason stands. What it says is true: it was declared there, or a callback
there takes or gives it, or it was passed on as it is by a stream which gives
it. This holds whichever pass a check ends with, and also after a violation.

* `Attached`: a callback at a place, which a stream takes and gives types for.
* `Stream.Accounts`: what has to be the case for a type that a stream takes.
* `Graph.Truthful`: all types come from events, or are passed on. An event that
  is a violation adds no type (`Session.apply_error`), and passing types on
  keeps the graph truthful.
* `Session.pipeline_accounted`: all types after any pass, and the places that
  mismatches cite.
-/

namespace StreamTyping

/-! ## What events tell, in words -/

/-- An invocation that makes a stream has a callback which its operator takes: a `map` takes a
single one with a single parameter, `with` and `any` take a single one. The stream takes the one
type and gives the other, and the place is that of the callback, or else of the invocation. -/
inductive Attached (events : List Event) :
    String → Descriptor → Descriptor → Option Locator → Prop where
  | map {call : Invocation} {callback : Callback} {param : Descriptor}
      (hcall : .invoke call ∈ events) (hop : Operator.ofToken? call.token = some .map)
      (hcallback : call.callbacks = [callback]) (hparam : callback.params = [param]) :
      Attached events (Operator.map.targetName call.source) param callback.returns
        (callback.locator <|> call.locator)
  | combined {call : Invocation} {operator : Operator} {callback : Callback}
      (hcall : .invoke call ∈ events) (hop : Operator.ofToken? call.token = some operator)
      (hcombined : operator = .withLatest ∨ operator = .combineLatest)
      (hcallback : call.callbacks = [callback]) :
      Attached events (operator.targetName call.source) (.tuple callback.params) callback.returns
        (callback.locator <|> call.locator)

theorem attached_of_typing? {events : List Event} {event : Event} (hevent : event ∈ events)
    {name : String} {typing : Typing} (h : event.typing? = some (name, typing)) :
    Attached events name typing.takes typing.gives typing.locator := by
  cases event with
  | declare _ => cases h
  | invoke call =>
    obtain ⟨operator, hop, hmap⟩ := Option.bind_eq_some_iff.1 h
    obtain ⟨t, ht, hpair⟩ := Option.map_eq_some_iff.1 hmap
    obtain ⟨rfl, rfl⟩ := Prod.mk.inj hpair
    obtain ⟨callback, hcallback, hgives, hlocator, ⟨rfl, hparam⟩ | ⟨hcombined, htakes⟩⟩ :=
      Invocation.typing?_eq_some ht
    · rw [hgives, hlocator]
      exact .map hevent hop hcallback hparam
    · rw [hgives, hlocator, htakes]
      exact .combined hevent hop hcombined hcallback

/-- A type that a stream takes is there for the reason that it names: it was declared, or a
callback takes it, or a stream gives it and passes it on. There are no other reasons. -/
def Stream.Accounts (s : Stream) (events : List Event) (g : Graph) (a : Attribution) : Prop :=
  match a.provenance with
  | .explicitDeclaration =>
    .declare { name := s.name, descriptor := some a.descriptor, locator := a.locator } ∈ events
  | .callbackInput => ∃ gives, Attached events s.name a.descriptor gives a.locator
  | .callbackOutput => g.Feeds a s.id
  | .inferredByPropagation | .transformedByOperator => False

/-- An event attributes a type, at the place that is cited for it. -/
def Attributed (events : List Event) (a : Attribution) : Prop :=
  (∃ name, .declare { name, descriptor := some a.descriptor, locator := a.locator } ∈ events) ∨
    ∃ name takes gives, Attached events name takes gives a.locator ∧
      (a.descriptor = takes ∨ a.descriptor = gives)

theorem attached_of_mem_gives {events : List Event} {name : String} {a : Attribution}
    (h : (name, a) ∈ events.flatMap (·.gives)) :
    a.provenance = .callbackOutput ∧
      ∃ takes, Attached events name takes a.descriptor a.locator := by
  obtain ⟨event, hevent, hmem⟩ := List.mem_flatMap.1 h
  obtain ⟨⟨n, typing⟩, htyping, hpair⟩ := List.mem_map.1 hmem
  obtain ⟨rfl, rfl⟩ := Prod.mk.inj hpair
  exact ⟨rfl, typing.takes, attached_of_typing? hevent (Option.mem_toList.1 htyping)⟩

theorem Stream.accounts_of_mem_takes {events : List Event} {s : Stream} {a : Attribution}
    (h : (s.name, a) ∈ events.flatMap (·.takes)) (g : Graph) :
    s.Accounts events g a ∧ Attributed events a := by
  obtain ⟨event, hevent, hmem⟩ := List.mem_flatMap.1 h
  cases event with
  | declare declaration =>
    obtain ⟨descriptor, hdescriptor, hpair⟩ := List.mem_map.1 hmem
    obtain ⟨hname, rfl⟩ := Prod.mk.inj hpair
    obtain ⟨name, _, locator⟩ := declaration
    obtain rfl : name = s.name := hname
    obtain rfl := Option.mem_toList.1 hdescriptor
    exact ⟨hevent, .inl ⟨s.name, hevent⟩⟩
  | invoke call =>
    obtain ⟨⟨n, typing⟩, htyping, hpair⟩ := List.mem_map.1 hmem
    obtain ⟨rfl, rfl⟩ := Prod.mk.inj hpair
    have hattached := attached_of_typing? hevent (Option.mem_toList.1 htyping)
    exact ⟨⟨typing.gives, hattached⟩, .inr ⟨s.name, _, _, hattached, .inl rfl⟩⟩

/-! ## Graphs whose types come from events -/

namespace Graph

/-- All types come from events, or are passed on. -/
structure Truthful (g : Graph) (events : List Event) : Prop where
  inputs : ∀ t s, g.stream? t = some s → ∀ a ∈ s.inputs,
    (s.name, a) ∈ events.flatMap (·.takes) ∨ g.Feeds a t
  outputs : ∀ t s, g.stream? t = some s → ∀ a ∈ s.outputs, (s.name, a) ∈ events.flatMap (·.gives)

theorem Follows.truthful {g : Graph} {events : List Event} (h : g.Follows (.ofEvents events)) :
    g.Truthful events := by
  refine ⟨fun t s hs a ha => .inl ?_, fun t s hs a ha => ?_⟩
  · rwa [h.inputs t s hs, mem_entriesOf, Account.ofEvents_takes] at ha
  · rwa [h.outputs t s hs, mem_entriesOf, Account.ofEvents_gives] at ha

namespace Widens

theorem trans {g h k : Graph} (hgh : g.Widens h) (hhk : h.Widens k) : g.Widens k := by
  obtain ⟨added, hadd, hadded⟩ := hgh.streams
  obtain ⟨more, hadd', hmore⟩ := hhk.streams
  refine ⟨⟨added ++ more, by rw [hadd', hadd, List.append_assoc], fun s hs => ?_⟩,
    hhk.edges_eq.trans hgh.edges_eq, fun hid => hhk.lookup (hgh.lookup hid)⟩
  exact (List.mem_append.1 hs).elim (hadded s) (hmore s)

/-- Arguments bring in streams, and nothing else, whether or not they come to a violation. -/
theorem resolveArguments (g : Graph) (call : Invocation) (operator : Operator)
    (arguments : List Argument) : g.Widens (g.resolveArguments call operator arguments).1 := by
  induction arguments generalizing g with
  | nil => exact refl g
  | cons argument rest ih =>
    have hstream : ∀ name,
        g.Widens (g.resolveArguments call operator (.stream name :: rest)).1 := by
      intro name
      cases hg : g.resolve call name with
      | error v =>
        rw [resolveArguments_stream_of_error _ _ _ _ _ hg]
        exact refl g
      | ok id =>
        rw [resolveArguments_stream_of_ok _ _ _ _ _ hg]
        exact ih g
    cases argument with
    | number _ | callback _ => exact ih g
    | stream name => exact hstream name
    | name name =>
      by_cases hinto : operator = .into
      · subst hinto
        exact hstream name
      · rw [resolveArguments_name _ _ _ _ hinto]
        exact (intern g name call.locator).trans (ih _)

end Widens

namespace Truthful

variable {g h : Graph} {events : List Event} (htruthful : g.Truthful events)

include htruthful

theorem widens (hwidens : g.Widens h) : h.Truthful events := by
  refine ⟨fun t s hs a ha => ?_, fun t s hs a ha => ?_⟩
  · rcases hwidens.stream?_cases t with heq | ⟨-, hnew⟩
    · exact (htruthful.inputs t s (heq ▸ hs) a ha).imp_right hwidens.feeds
    · simp [(hnew s hs).1] at ha
  · rcases hwidens.stream?_cases t with heq | ⟨-, hnew⟩
    · exact htruthful.outputs t s (heq ▸ hs) a ha
    · simp [(hnew s hs).2] at ha

theorem closure {new : StreamId → List Attribution} (hclosure : Closure g h new) :
    h.Truthful events := by
  refine ⟨fun t r hr a ha => ?_, fun t r hr a ha => ?_⟩
  all_goals
    rw [hclosure.streams t] at hr
    obtain ⟨s, hs, rfl⟩ := Option.map_eq_some_iff.1 hr
  · rcases List.mem_append.1 ha with ha | ha
    · exact (htruthful.inputs t s hs a ha).imp_right hclosure.feeds_iff.2
    · exact .inr (hclosure.feeds_iff.2 (hclosure.origin t a ha))
  · exact htruthful.outputs t s hs a ha

/-- What a stream is fed is what a callback gives. -/
theorem of_feeds {a : Attribution} {t : StreamId} (hfeeds : g.Feeds a t) :
    a.provenance = .callbackOutput ∧ Attributed events a := by
  obtain ⟨e, -, -, -, s, hs, ha⟩ := hfeeds
  obtain ⟨hprovenance, takes, hattached⟩ :=
    attached_of_mem_gives (htruthful.outputs _ s hs a ha)
  exact ⟨hprovenance, .inr ⟨_, _, _, hattached, .inr rfl⟩⟩

theorem accounts (hg : g.WellFormed) {s : Stream} (hs : s ∈ g.streams) {a : Attribution}
    (ha : a ∈ s.inputs) : s.Accounts events g a ∧ Attributed events a := by
  rcases htruthful.inputs s.id s (hg.stream?_id hs) a ha with htakes | hfeeds
  · exact Stream.accounts_of_mem_takes htakes g
  · obtain ⟨hprovenance, hattributed⟩ := htruthful.of_feeds hfeeds
    refine ⟨?_, hattributed⟩
    rw [Stream.Accounts, hprovenance]
    exact hfeeds

end Truthful

end Graph

/-! ## Passes -/

theorem Invocation.kind_fault? {call : Invocation} {operator : Operator} {f : Finding}
    (h : call.fault? operator = some f) : f.kind = .missingCallback ∨ f.kind = .arityMismatch := by
  cases operator with
  | into | observe | filter | delay => cases h
  | map =>
    rw [Invocation.fault?] at h
    split at h
    · obtain rfl := Option.some.inj h
      exact .inl rfl
    · split at h
      · cases h
      · obtain rfl := Option.some.inj h
        exact .inr rfl
    · obtain rfl := Option.some.inj h
      exact .inr rfl
  | withLatest | combineLatest =>
    rw [Invocation.fault?, Invocation.extraCallbacks?] at h
    split at h
    · cases h
    · obtain rfl := Option.some.inj h
      exact .inr rfl

/-- What is wrong with an event is no mismatch. -/
theorem Event.kind_ne_of_mem_faults {event : Event} {f : Finding} (h : f ∈ event.faults) :
    f.kind ≠ .typeMismatch := by
  cases event with
  | declare _ => cases h
  | invoke call =>
    rw [Event.faults] at h
    split at h
    · obtain rfl := List.mem_singleton.1 h
      simp [Finding.kind]
    · have hkind := Invocation.kind_fault? (Option.mem_toList.1 h)
      rcases hkind with hkind | hkind <;> simp [hkind]

/-- A mismatch is about two different types that one stream takes. -/
theorem mem_of_mem_conflicts {l : List Attribution} {a b : Attribution}
    (h : (a, b) ∈ conflicts l) : a ∈ l ∧ b ∈ l ∧ a.descriptor ≠ b.descriptor := by
  induction l with
  | nil => cases h
  | cons c l ih =>
    rw [conflicts, List.mem_append] at h
    rcases h with h | h
    · obtain ⟨d, hd, hpair⟩ := List.mem_map.1 h
      obtain ⟨rfl, rfl⟩ := Prod.mk.inj hpair
      obtain ⟨hmem, hne⟩ := List.mem_filter.1 hd
      exact ⟨.head _, .tail _ hmem, of_decide_eq_true hne⟩
    · obtain ⟨ha, hb, hne⟩ := ih h
      exact ⟨.tail _ ha, .tail _ hb, hne⟩

theorem Graph.exists_of_mem_findings {g : Graph} {f : Finding} (h : f ∈ g.findings)
    (hkind : f.kind = .typeMismatch) : ∃ s ∈ g.streams, ∃ a ∈ s.inputs, ∃ b ∈ s.inputs,
      a.descriptor ≠ b.descriptor ∧ f = .mismatch s.name a b := by
  obtain ⟨s, hs, hmem⟩ := List.mem_flatMap.1 h
  cases f with
  | mismatch name a b =>
    obtain ⟨rfl, hpair⟩ := Stream.mismatch_mem_findings_iff.1 hmem
    obtain ⟨ha, hb, hne⟩ := mem_of_mem_conflicts hpair
    exact ⟨s, hs, a, ha, b, hb, hne, rfl⟩
  | unknownOperator | missingCallback | extraCallbacks | parameterCount | untyped => cases hkind

namespace Session

/-- A violation adds no types and raises nothing. -/
theorem apply_error {s t : Session} {event : Event} {v : Violation}
    (h : s.apply event = (t, .error v)) :
    s.graph.Widens t.graph ∧ t.diagnostics = s.diagnostics := by
  cases event with
  | declare _ => cases h
  | invoke call =>
    rw [apply, invoke] at h
    split at h
    · obtain rfl := (Prod.mk.inj h).1
      exact ⟨.refl _, rfl⟩
    split at h
    · cases h
    · rename_i operator _
      have hwidens := Graph.Widens.resolveArguments s.graph call operator call.arguments
      split at h
      · rename_i g _ hresolve
        rw [hresolve] at hwidens
        obtain rfl := (Prod.mk.inj h).1
        exact ⟨hwidens, rfl⟩
      · rename_i g arguments hresolve
        rw [hresolve] at hwidens
        split at h
        · cases arguments with
          | nil =>
            obtain rfl := (Prod.mk.inj h).1
            exact ⟨hwidens, rfl⟩
          | cons target rest => cases h
        · cases h

/-- What a build from the start leaves: types that come from the events which were added, and
diagnostics about these. -/
theorem build_truthful (order : Order) (events : List Event) :
    (build { order } events).1.graph.Truthful (events.take (applied { order } events)) ∧
      ∀ d ∈ (build { order } events).1.diagnostics, d.kind ≠ .typeMismatch := by
  -- A build without a violation follows the account of its events.
  have hnone : ∀ (built : List Event) (s : Session), build { order } built = (s, none) →
      s.graph.Truthful built ∧ ∀ d ∈ s.diagnostics, d.kind ≠ .typeMismatch := by
    intro built s hbuild
    have hfollows := (follows_fresh order).build hbuild
    rw [Account.empty_append] at hfollows
    refine ⟨hfollows.graph.truthful, fun d hd => ?_⟩
    rw [hfollows.diagnostics, Account.ofEvents_faults] at hd
    obtain ⟨f, hf, rfl⟩ := List.mem_map.1 hd
    obtain ⟨event, -, hmem⟩ := List.mem_flatMap.1 hf
    exact Event.kind_ne_of_mem_faults hmem
  cases hbuild : build { order } events with
  | mk s violation =>
    cases violation with
    | none =>
      rw [applied_of_none hbuild, List.take_length]
      exact hnone events s hbuild
    | some v =>
      obtain ⟨last, event, hlast, -, hfail⟩ := exists_of_build_eq_some hbuild
      obtain ⟨hwidens, hdiagnostics⟩ := apply_error hfail
      obtain ⟨htruthful, hkinds⟩ := hnone _ last hlast
      exact ⟨htruthful.widens hwidens, hdiagnostics ▸ hkinds⟩

/-- The session that a pipeline leaves is that of the build, with types passed on and verified as
far as it goes. -/
theorem pipeline_cases (order : Order) (events : List Event) (terminal : Pass) :
    (pipeline { order } events terminal).1 = (build { order } events).1 ∨
      (pipeline { order } events terminal).1 = (build { order } events).1.propagated ∨
      (pipeline { order } events terminal).1 = (build { order } events).1.propagated.verify := by
  cases hbuild : build { order } events with
  | mk s violation =>
    cases violation with
    | some v => exact .inl (by rw [pipeline_eq_of_violation hbuild])
    | none =>
      obtain ⟨hbuilt, hpropagated, hverified⟩ := pipeline_eq_of_build hbuild
      cases terminal with
      | build => exact .inl (by rw [hbuilt])
      | propagate => exact .inr (.inl (by rw [hpropagated]))
      | verify => exact .inr (.inr (by rw [hverified]))

/-- The types of all streams, and the types that mismatches are about, come from events. -/
structure Accounted (s : Session) (events : List Event) : Prop where
  inputs : ∀ t ∈ s.graph.streams, ∀ a ∈ t.inputs, t.Accounts events s.graph a
  outputs : ∀ t ∈ s.graph.streams, ∀ a ∈ t.outputs, a.provenance = .callbackOutput ∧
    ∃ takes, Attached events t.name takes a.descriptor a.locator
  /-- A mismatch cites the places of two types that a stream takes, and these are the places
  where events attribute the types. -/
  mismatches : ∀ d ∈ s.diagnostics, d.kind = .typeMismatch →
    ∃ t ∈ s.graph.streams, ∃ a ∈ t.inputs, ∃ b ∈ t.inputs, a.descriptor ≠ b.descriptor ∧
      d = (Finding.mismatch t.name a b).diagnostic ∧ d.locator = a.locator ∧
      d.related.map (·.locator) = [b.locator] ∧ Attributed events a ∧ Attributed events b

theorem accounted_of_truthful {s : Session} {events : List Event} (hs : s.graph.WellFormed)
    (h : s.graph.Truthful events)
    (hdiagnostics : ∀ d ∈ s.diagnostics, d.kind = .typeMismatch →
      ∃ f ∈ s.graph.findings, d = f.diagnostic) : s.Accounted events := by
  refine ⟨fun t ht a ha => (h.accounts hs ht ha).1, fun t ht a ha => ?_, fun d hd hkind => ?_⟩
  · exact attached_of_mem_gives (h.outputs t.id t (hs.stream?_id ht) a ha)
  · obtain ⟨f, hf, rfl⟩ := hdiagnostics d hd hkind
    obtain ⟨t, ht, a, ha, b, hb, hne, rfl⟩ := Graph.exists_of_mem_findings hf hkind
    exact ⟨t, ht, a, ha, b, hb, hne, rfl, rfl, rfl, (h.accounts hs ht ha).2,
      (h.accounts hs ht hb).2⟩

/-- Whatever the events and the last pass, and also after a violation, all types come from the
events that were added, for the reasons that they name. -/
theorem pipeline_accounted (order : Order) (events : List Event) (terminal : Pass) :
    (pipeline { order } events terminal).1.Accounted (events.take (applied { order } events)) := by
  obtain ⟨htruthful, hkinds⟩ := build_truthful order events
  have hs := (build?_eq (s := { order }) Graph.wellFormed_empty events).2
  have hvalid : ∀ id ∈ ([] : List StreamId),
      id < (build { order } events).1.graph.streams.length := by simp
  have hclosure := hs.closure_run (build { order } events).1.order hvalid
  have hpropagated := hs.propagateFrom? (Graph.propagateFrom?_of_valid hvalid
    (build { order } events).1.order)
  have hpassed := htruthful.closure hclosure
  rcases pipeline_cases order events terminal with heq | heq | heq <;> rw [heq]
  · exact accounted_of_truthful hs htruthful fun d hd hkind => absurd hkind (hkinds d hd)
  · exact accounted_of_truthful hpropagated hpassed fun d hd hkind => absurd hkind (hkinds d hd)
  · refine accounted_of_truthful hpropagated hpassed fun d hd hkind => ?_
    rcases List.mem_append.1 hd with hd | hd
    · exact absurd hkind (hkinds d hd)
    · obtain ⟨f, hf, rfl⟩ := List.mem_map.1 hd
      exact ⟨f, hf, rfl⟩

/-- The stream `a` is declared with one type, and is fed another one by a callback further down. -/
theorem pipeline_accounted_feedback :
    ∃ d ∈ (pipeline {} feedbackEvents .verify).1.diagnostics, d.kind = .typeMismatch ∧
      d.locator = some ⟨"app.ts", 1, 1⟩ ∧
      d.related.map (·.locator) = [some ⟨"app.ts", 2, 1⟩] ∧
      ∃ t ∈ (pipeline {} feedbackEvents .verify).1.graph.streams, ∃ a ∈ t.inputs, ∃ b ∈ t.inputs,
        d = (Finding.mismatch t.name a b).diagnostic ∧
        t.Accounts feedbackEvents (pipeline {} feedbackEvents .verify).1.graph a ∧
        t.Accounts feedbackEvents (pipeline {} feedbackEvents .verify).1.graph b ∧
        Attributed feedbackEvents a ∧ Attributed feedbackEvents b := by
  have haccounted := pipeline_accounted .lifo feedbackEvents .verify
  have hall : feedbackEvents.take (applied {} feedbackEvents) = feedbackEvents := by
    decide +kernel
  rw [hall] at haccounted
  have hmismatch : ∃ d ∈ (pipeline {} feedbackEvents .verify).1.diagnostics,
      d.kind = .typeMismatch ∧ d.locator = some ⟨"app.ts", 1, 1⟩ ∧
      d.related.map (·.locator) = [some ⟨"app.ts", 2, 1⟩] := by decide +kernel
  obtain ⟨d, hd, hkind, hlocator, hrelated⟩ := hmismatch
  obtain ⟨t, ht, a, ha, b, hb, -, hd', -, -, hfirst, hsecond⟩ :=
    haccounted.mismatches d hd hkind
  exact ⟨d, hd, hkind, hlocator, hrelated, t, ht, a, ha, b, hb, hd', haccounted.inputs t ht a ha,
    haccounted.inputs t ht b hb, hfirst, hsecond⟩

end Session

end StreamTyping
