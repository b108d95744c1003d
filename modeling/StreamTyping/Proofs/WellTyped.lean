import StreamTyping.Proofs.Account

/-!
# Well-typed programs

The events of a program require streams to have types: a declaration does, the
parameters of a callback do, and what a callback gives is required wherever a
strong edge leads from its stream, be the edge drawn before or after. A program
is well typed if there is a type for every stream that is all that is required
of it. All of this is said of the events alone, in whatever order they come.

* `Flows`, `HasCallback`, `Requires`: the rules.
* `WellTyped`: the streams can be typed by the rules.
* `requires_iff_tells`, `Event.faults_eq_nil_iff`: the rules, read off the
  account of the events.
-/

namespace StreamTyping

/-! ## The rules -/

/-- The events draw a strong edge from one stream to another. -/
inductive Flows (events : List Event) : String → String → Prop where
  /-- `to` leads from its source to its first stream argument. -/
  | into {call : Invocation} {target : String} (hcall : .invoke call ∈ events)
      (hop : Operator.ofToken? call.token = some .into)
      (htarget : call.streamNames.head? = some target) : Flows events call.source target
  /-- Any other operator leads from its source to the stream that it makes. -/
  | source {call : Invocation} {operator : Operator} (hcall : .invoke call ∈ events)
      (hop : Operator.ofToken? call.token = some operator) (hinto : operator ≠ .into) :
      Flows events call.source (operator.targetName call.source)
  /-- It also leads there from its stream arguments, unless it is `with`. -/
  | argument {call : Invocation} {operator : Operator} {name : String}
      (hcall : .invoke call ∈ events) (hop : Operator.ofToken? call.token = some operator)
      (hinto : operator ≠ .into) (hwith : operator ≠ .withLatest) (hname : name ∈ call.streamNames) :
      Flows events name (operator.targetName call.source)

/-- The events attach a callback to a stream, which takes the one type and gives the other. -/
inductive HasCallback (events : List Event) : String → Descriptor → Descriptor → Prop where
  | map {call : Invocation} {callback : Callback} {param : Descriptor}
      (hcall : .invoke call ∈ events) (hop : Operator.ofToken? call.token = some .map)
      (hcallback : call.callbacks = [callback]) (hparam : callback.params = [param]) :
      HasCallback events (Operator.map.targetName call.source) param callback.returns
  | combined {call : Invocation} {operator : Operator} {callback : Callback}
      (hcall : .invoke call ∈ events) (hop : Operator.ofToken? call.token = some operator)
      (hcombined : operator = .withLatest ∨ operator = .combineLatest)
      (hcallback : call.callbacks = [callback]) :
      HasCallback events (operator.targetName call.source) (.tuple callback.params) callback.returns

/-- The events require a stream to have a type. -/
inductive Requires (events : List Event) : String → Descriptor → Prop where
  | declared {declaration : Declaration} {d : Descriptor} (hmem : .declare declaration ∈ events)
      (hd : declaration.descriptor = some d) : Requires events declaration.name d
  | callback {name : String} {d r : Descriptor} (hcallback : HasCallback events name d r) :
      Requires events name d
  | flow {u v : String} {d r : Descriptor} (hflow : Flows events u v)
      (hcallback : HasCallback events u d r) : Requires events v r

/-- An event invokes known operators only, with the callbacks that they take. -/
def Event.Regular : Event → Prop
  | .declare _ => True
  | .invoke call => ∃ operator, Operator.ofToken? call.token = some operator ∧
      (operator = .map → ∃ callback param, call.callbacks = [callback] ∧ callback.params = [param]) ∧
      (operator = .withLatest ∨ operator = .combineLatest → call.callbacks.length ≤ 1)

/-- The streams of a program can be typed. -/
structure WellTyped (events : List Event) : Prop where
  regular : ∀ event ∈ events, event.Regular
  /-- There is a type for every stream that is all that is required of it. -/
  assignment : ∃ ty : String → Descriptor, ∀ name d, Requires events name d → d = ty name
  /-- Something is required of every stream. -/
  typed : ∀ event ∈ events, ∀ name ∈ event.mentions, ∃ d, Requires events name d

/-- There is a type for every stream as soon as no two different ones are required of it. -/
theorem exists_assignment_iff {events : List Event} :
    (∃ ty : String → Descriptor, ∀ name d, Requires events name d → d = ty name) ↔
      ∀ name d d', Requires events name d → Requires events name d' → d = d' := by
  constructor
  · rintro ⟨ty, hty⟩ name d d' hd hd'
    rw [hty name d hd, hty name d' hd']
  · intro hunique
    have hchoice : ∀ name, ∃ t, ∀ d, Requires events name d → d = t := by
      intro name
      by_cases h : ∃ d, Requires events name d
      · obtain ⟨d, hd⟩ := h
        exact ⟨d, fun d' hd' => hunique name d' d hd' hd⟩
      · exact ⟨.tuple [], fun d hd => absurd ⟨d, hd⟩ h⟩
    exact Classical.skolem.1 hchoice

/-! ## The rules and the accounts of events -/

/-- The account tells that a stream takes a type, or that it is fed one. -/
def Account.Tells (a : Account) (name : String) (d : Descriptor) : Prop :=
  (∃ x, (name, x) ∈ a.takes ∧ x.descriptor = d) ∨
    ∃ link ∈ a.links, link.weak = false ∧ link.target = name ∧
      ∃ x, (link.source, x) ∈ a.gives ∧ x.descriptor = d

theorem Event.mem_links_invoke {call : Invocation} {link : Link} :
    link ∈ (Event.invoke call).links ↔
      ∃ operator, Operator.ofToken? call.token = some operator ∧ link ∈ call.links operator := by
  rw [Event.links]
  cases Operator.ofToken? call.token <;> simp

theorem Invocation.mem_links_into {call : Invocation} {link : Link} :
    link ∈ call.links .into ↔ ∃ target, call.streamNames.head? = some target ∧
      link = { operator := .into, locator := call.locator, source := call.source, target } := by
  rw [Invocation.links, if_pos rfl]
  cases call.streamNames <;> simp

theorem Invocation.mem_links {call : Invocation} {operator : Operator} (hinto : operator ≠ .into)
    {link : Link} :
    link ∈ call.links operator ↔ ∃ source weak, link =
        { operator, literal := call.literal, locator := call.locator, weak, source,
          target := operator.targetName call.source } ∧
      (source = call.source ∧ weak = false ∨
        source ∈ call.streamNames ∧ weak = decide (operator = .withLatest)) := by
  rw [Invocation.links, if_neg hinto, List.mem_cons, List.mem_map]
  constructor
  · rintro (rfl | ⟨source, hsource, rfl⟩)
    · exact ⟨call.source, false, rfl, .inl ⟨rfl, rfl⟩⟩
    · exact ⟨source, _, rfl, .inr ⟨hsource, rfl⟩⟩
  · rintro ⟨source, weak, rfl, ⟨rfl, rfl⟩ | ⟨hsource, rfl⟩⟩
    · exact .inl rfl
    · exact .inr ⟨source, hsource, rfl⟩

theorem flows_iff {events : List Event} {u v : String} :
    Flows events u v ↔ ∃ link ∈ events.flatMap (·.links),
      link.weak = false ∧ link.source = u ∧ link.target = v := by
  constructor
  · intro h
    -- All three rules are about one invocation and one of its links.
    have hlink : ∀ call operator link, .invoke call ∈ events →
        Operator.ofToken? call.token = some operator → link ∈ call.links operator →
        link ∈ events.flatMap (·.links) := fun call operator link hcall hop hmem =>
      List.mem_flatMap.2 ⟨_, hcall, Event.mem_links_invoke.2 ⟨operator, hop, hmem⟩⟩
    cases h with
    | into hcall hop htarget =>
      exact ⟨_, hlink _ _ _ hcall hop (Invocation.mem_links_into.2 ⟨v, htarget, rfl⟩), rfl, rfl, rfl⟩
    | source hcall hop hinto =>
      exact ⟨_, hlink _ _ _ hcall hop
        ((Invocation.mem_links hinto).2 ⟨_, false, rfl, .inl ⟨rfl, rfl⟩⟩), rfl, rfl, rfl⟩
    | argument hcall hop hinto hwith hname =>
      exact ⟨_, hlink _ _ _ hcall hop ((Invocation.mem_links hinto).2
        ⟨u, false, rfl, .inr ⟨hname, (decide_eq_false hwith).symm⟩⟩), rfl, rfl, rfl⟩
  · rintro ⟨link, hlink, hweak, rfl, rfl⟩
    obtain ⟨event, hevent, hmem⟩ := List.mem_flatMap.1 hlink
    cases event with
    | declare _ => cases hmem
    | invoke call =>
      obtain ⟨operator, hop, hmem⟩ := Event.mem_links_invoke.1 hmem
      by_cases hinto : operator = .into
      · subst hinto
        obtain ⟨target, htarget, rfl⟩ := Invocation.mem_links_into.1 hmem
        exact .into hevent hop htarget
      · obtain ⟨source, weak, rfl, ⟨rfl, -⟩ | ⟨hsource, rfl⟩⟩ := (Invocation.mem_links hinto).1 hmem
        · exact .source hevent hop hinto
        · exact .argument hevent hop hinto (of_decide_eq_false hweak) hsource

/-- What is known of an invocation whose callback is taken. -/
theorem Invocation.typing?_eq_some {call : Invocation} {operator : Operator} {typing : Typing}
    (h : call.typing? operator = some typing) :
    ∃ callback, call.callbacks = [callback] ∧ typing.gives = callback.returns ∧
      typing.locator = call.callbackLocator callback ∧
      (operator = .map ∧ callback.params = [typing.takes] ∨
        (operator = .withLatest ∨ operator = .combineLatest) ∧
          typing.takes = .tuple callback.params) := by
  cases operator with
  | into | observe | filter | delay => cases h
  | map =>
    rw [Invocation.typing?] at h
    split at h
    · rename_i callback hcallback
      split at h
      · rename_i param hparam
        obtain rfl := Option.some.inj h
        exact ⟨callback, hcallback, rfl, rfl, .inl ⟨rfl, hparam⟩⟩
      · cases h
    · cases h
  | withLatest | combineLatest =>
    rw [Invocation.typing?] at h
    split at h
    · rename_i callback hcallback
      obtain rfl := Option.some.inj h
      exact ⟨callback, hcallback, rfl, rfl, .inr ⟨by simp, rfl⟩⟩
    · cases h

theorem hasCallback_iff {events : List Event} {name : String} {d r : Descriptor} :
    HasCallback events name d r ↔ ∃ event ∈ events, ∃ typing,
      event.typing? = some (name, typing) ∧ typing.takes = d ∧ typing.gives = r := by
  constructor
  · intro h
    cases h with
    | @map call callback param hcall hop hcallback hparam =>
      refine ⟨_, hcall, ⟨_, _, call.callbackLocator callback⟩, ?_, rfl, rfl⟩
      simp [Event.typing?, hop, Invocation.typing?, hcallback, hparam]
    | @combined call operator callback hcall hop hcombined hcallback =>
      refine ⟨_, hcall, ⟨.tuple callback.params, _, call.callbackLocator callback⟩, ?_, rfl, rfl⟩
      rcases hcombined with rfl | rfl <;> simp [Event.typing?, hop, Invocation.typing?, hcallback]
  · rintro ⟨event, hevent, typing, htyping, rfl, rfl⟩
    cases event with
    | declare _ => cases htyping
    | invoke call =>
      obtain ⟨operator, hop, hmap⟩ := Option.bind_eq_some_iff.1 htyping
      obtain ⟨t, ht, hpair⟩ := Option.map_eq_some_iff.1 hmap
      obtain ⟨rfl, rfl⟩ := Prod.mk.inj hpair
      obtain ⟨callback, hcallback, hgives, -, ⟨rfl, hparam⟩ | ⟨hcombined, htakes⟩⟩ :=
        Invocation.typing?_eq_some ht
      · rw [hgives]
        exact .map hevent hop hcallback hparam
      · rw [hgives, htakes]
        exact .combined hevent hop hcombined hcallback

/-- What streams give is what callbacks attached to them give. -/
theorem mem_gives_iff {events : List Event} {name : String} {r : Descriptor} :
    (∃ x, (name, x) ∈ events.flatMap (·.gives) ∧ x.descriptor = r) ↔
      ∃ d, HasCallback events name d r := by
  constructor
  · rintro ⟨x, hx, rfl⟩
    obtain ⟨event, hevent, hmem⟩ := List.mem_flatMap.1 hx
    obtain ⟨⟨n, typing⟩, htyping, hpair⟩ := List.mem_map.1 hmem
    obtain ⟨rfl, rfl⟩ := Prod.mk.inj hpair
    exact ⟨typing.takes, hasCallback_iff.2
      ⟨event, hevent, typing, Option.mem_toList.1 htyping, rfl, rfl⟩⟩
  · rintro ⟨d, hd⟩
    obtain ⟨event, hevent, typing, htyping, -, rfl⟩ := hasCallback_iff.1 hd
    exact ⟨_, List.mem_flatMap.2 ⟨event, hevent,
      List.mem_map_of_mem (Option.mem_toList.2 htyping)⟩, rfl⟩

/-- What streams take is what declarations and callbacks say. -/
theorem mem_takes_iff {events : List Event} {name : String} {d : Descriptor} :
    (∃ x, (name, x) ∈ events.flatMap (·.takes) ∧ x.descriptor = d) ↔
      (∃ declaration, .declare declaration ∈ events ∧ declaration.name = name ∧
        declaration.descriptor = some d) ∨ ∃ r, HasCallback events name d r := by
  constructor
  · rintro ⟨x, hx, rfl⟩
    obtain ⟨event, hevent, hmem⟩ := List.mem_flatMap.1 hx
    cases event with
    | declare declaration =>
      obtain ⟨descriptor, hdescriptor, hpair⟩ := List.mem_map.1 hmem
      obtain ⟨rfl, rfl⟩ := Prod.mk.inj hpair
      exact .inl ⟨declaration, hevent, rfl, Option.mem_toList.1 hdescriptor⟩
    | invoke call =>
      obtain ⟨⟨n, typing⟩, htyping, hpair⟩ := List.mem_map.1 hmem
      obtain ⟨rfl, rfl⟩ := Prod.mk.inj hpair
      exact .inr ⟨typing.gives, hasCallback_iff.2
        ⟨_, hevent, typing, Option.mem_toList.1 htyping, rfl, rfl⟩⟩
  · rintro (⟨declaration, hevent, rfl, hdescriptor⟩ | ⟨r, hr⟩)
    · exact ⟨_, List.mem_flatMap.2 ⟨_, hevent,
        List.mem_map_of_mem (Option.mem_toList.2 hdescriptor)⟩, rfl⟩
    · obtain ⟨event, hevent, typing, htyping, rfl, -⟩ := hasCallback_iff.1 hr
      cases event with
      | declare _ => cases htyping
      | invoke call =>
        exact ⟨_, List.mem_flatMap.2 ⟨_, hevent,
          List.mem_map_of_mem (Option.mem_toList.2 htyping)⟩, rfl⟩

/-- The events require what their account tells. -/
theorem requires_iff_tells {events : List Event} {name : String} {d : Descriptor} :
    Requires events name d ↔ (Account.ofEvents events).Tells name d := by
  rw [Account.Tells, Account.ofEvents_takes, Account.ofEvents_links, Account.ofEvents_gives,
    mem_takes_iff]
  constructor
  · intro h
    cases h with
    | declared hmem hd => exact .inl (.inl ⟨_, hmem, rfl, hd⟩)
    | callback hcallback => exact .inl (.inr ⟨_, hcallback⟩)
    | flow hflow hcallback =>
      obtain ⟨link, hlink, hweak, rfl, rfl⟩ := flows_iff.1 hflow
      exact .inr ⟨link, hlink, hweak, rfl, mem_gives_iff.2 ⟨_, hcallback⟩⟩
  · rintro ((⟨declaration, hmem, rfl, hd⟩ | ⟨r, hr⟩) | ⟨link, hlink, hweak, rfl, hgives⟩)
    · exact .declared hmem hd
    · exact .callback hr
    · obtain ⟨takes, htakes⟩ := mem_gives_iff.1 hgives
      exact .flow (flows_iff.2 ⟨link, hlink, hweak, rfl, rfl⟩) htakes

theorem Invocation.extraCallbacks?_eq_none_iff {call : Invocation} {operator : Operator} :
    call.extraCallbacks? operator = none ↔ call.callbacks.length ≤ 1 := by
  rw [Invocation.extraCallbacks?]
  split <;> simp_all

/-- Nothing is wrong with an event if it is regular, and only then. -/
theorem Event.faults_eq_nil_iff {event : Event} : event.faults = [] ↔ event.Regular := by
  cases event with
  | declare _ => exact iff_of_true rfl trivial
  | invoke call =>
    rw [Event.faults, Event.Regular]
    cases Operator.ofToken? call.token with
    | none => simp
    | some operator =>
      simp only [Option.some.injEq, exists_eq_left', Option.toList_eq_nil_iff]
      cases operator with
      | into | observe | filter | delay => simp [Invocation.fault?]
      | withLatest | combineLatest =>
        simpa [Invocation.fault?] using Invocation.extraCallbacks?_eq_none_iff
      | map =>
        rw [Invocation.fault?]
        split
        · rename_i hcallbacks
          simp [hcallbacks]
        · rename_i callback hcallback
          simp [hcallback, List.length_eq_one_iff]
        · rename_i hnil hone
          simp only [reduceCtorEq, false_iff, forall_const, not_and]
          intro h
          obtain ⟨callback, _, hcallback, -⟩ := h
          exact absurd hcallback (hone callback)

end StreamTyping
