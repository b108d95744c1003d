import StreamTyping.Proofs.Downstream
import StreamTyping.Proofs.Provenance
import StreamTyping.Proofs.Reading
import StreamTyping.Proofs.Rejection

/-!
# Weak arguments carry no types

The stream arguments of a `with` draw weak edges, and a weak edge passes no
types on. So any of these arguments may be left out: the check tells the same
but for the edges of the arguments that are missing.

* `Argument.prune`, `Event.prune` and `pruneAll`: stream arguments of `with` are
  left out, at any positions.
* `Event.drawn` and `drawnAll`: the edges that events draw, each with whether it is
  drawn for an argument that is left out.
* `Session.Follows.build_pruneAll`: what can be built can be built without them.
* `Graph.WellFormed.propagateFrom?_congr`: graphs that differ in their weak edges
  propagate alike.
* `weak_arguments_carry_nothing`: what a check tells without the arguments.
-/

namespace StreamTyping

/-! ## Leaving arguments out -/

/-- Arguments without the stream arguments at the positions to drop. -/
def Argument.prune (drop : Nat → Bool) : List Argument → List Argument
  | [] => []
  | .stream n :: rest =>
    if drop 0 then prune (fun k => drop (k + 1)) rest
    else .stream n :: prune (fun k => drop (k + 1)) rest
  | argument :: rest => argument :: prune (fun k => drop (k + 1)) rest

/-- The streams that arguments speak of, each with whether the argument is a stream argument to
drop. -/
def Argument.marked (drop : Nat → Bool) : List Argument → List (String × Bool)
  | [] => []
  | .stream n :: rest => (n, drop 0) :: marked (fun k => drop (k + 1)) rest
  | .name n :: rest => (n, false) :: marked (fun k => drop (k + 1)) rest
  | .number _ :: rest | .callback _ :: rest => marked (fun k => drop (k + 1)) rest

/-- An invocation without the stream arguments to drop, if it is one of `with`. -/
def Invocation.prune (drop : Nat → Bool) (call : Invocation) : Invocation :=
  if Operator.ofToken? call.token = some .withLatest then
    { call with arguments := Argument.prune drop call.arguments }
  else call

/-- An event without the stream arguments to drop. -/
def Event.prune (drop : Nat → Bool) : Event → Event
  | .declare declaration => .declare declaration
  | .invoke call => .invoke (call.prune drop)

/-- Events without stream arguments of `with`: `drop i k` says whether the argument at the position
`k` of the event at the position `i` is left out. -/
def pruneAll (drop : Nat → Nat → Bool) (events : List Event) : List Event :=
  events.mapIdx fun i event => event.prune (drop i)

/-- An edge of a `with`: that of its source is strong, those of its arguments are weak. -/
def Invocation.withLink (call : Invocation) (weak : Bool) (source : String) : Link where
  operator := .withLatest
  weak := weak
  literal := call.literal
  locator := call.locator
  source := source
  target := Operator.withLatest.targetName call.source

/-- The edges that an event draws, each with whether it is drawn for an argument to drop. -/
def Event.drawn (drop : Nat → Bool) : Event → List (Link × Bool)
  | .declare _ => []
  | .invoke call =>
    if Operator.ofToken? call.token = some .withLatest then
      (call.withLink false call.source, false) ::
        (Argument.marked drop call.arguments).map fun p => (call.withLink true p.1, p.2)
    else (Event.invoke call).links.map fun link => (link, false)

/-- The edges that events draw, each with whether it is drawn for an argument to drop. -/
def drawnAll (drop : Nat → Nat → Bool) (events : List Event) : List (Link × Bool) :=
  (events.mapIdx fun i event => event.drawn (drop i)).flatten

namespace Argument

theorem filterMap_prune {α : Type} {f : Argument → Option α} (hf : ∀ n, f (.stream n) = none)
    (drop : Nat → Bool) (arguments : List Argument) :
    (prune drop arguments).filterMap f = arguments.filterMap f := by
  induction drop, arguments using prune.induct with
  | case1 drop => rfl
  | case2 drop n rest hdrop ih => rw [prune, if_pos hdrop, ih, List.filterMap_cons_none (hf n)]
  | case3 drop n rest hdrop ih =>
    rw [prune, if_neg hdrop, List.filterMap_cons_none (hf n), List.filterMap_cons_none (hf n), ih]
  | case4 drop argument rest hother ih =>
    rw [prune.eq_3 _ _ _ hother, List.filterMap_cons, List.filterMap_cons, ih]

theorem map_marked (drop : Nat → Bool) (arguments : List Argument) :
    (marked drop arguments).map (·.1) = arguments.filterMap (·.streamName?) := by
  induction arguments generalizing drop with
  | nil => rfl
  | cons argument rest ih =>
    cases argument with
    | stream n | name n => exact congrArg (n :: ·) (ih _)
    | number _ | callback _ => exact ih _

theorem streamName?_prune (drop : Nat → Bool) (arguments : List Argument) :
    (prune drop arguments).filterMap (·.streamName?) =
      ((marked drop arguments).filter fun p => !p.2).map (·.1) := by
  induction arguments generalizing drop with
  | nil => rfl
  | cons argument rest ih =>
    cases argument with
    | stream n =>
      rw [prune, marked]
      by_cases hdrop : drop 0 = true
      · rw [if_pos hdrop, ih, List.filter_cons_of_neg (by simpa using hdrop)]
      · rw [if_neg hdrop, List.filter_cons_of_pos (by simpa using hdrop), List.map_cons, ← ih]
        rfl
    | name n => exact congrArg (n :: ·) (ih _)
    | number _ | callback _ => exact ih _

end Argument

/-- Some argument dangles if the first one does, or one of the others. -/
theorem exists_dangling_cons {known : List String} {operator : Operator} {argument : Argument}
    {rest : List Argument} : (∃ k name, Dangling known operator (argument :: rest) k name) ↔
      (∃ name, argument.needs? operator = some name ∧ name ∉ known) ∨
      ∃ k name, Dangling (known ++ Graph.broughtIn operator [argument]) operator rest k name := by
  constructor
  · rintro ⟨k, name, h⟩
    cases k with
    | zero => exact .inl ⟨name, dangling_zero_iff.1 h⟩
    | succ k => exact .inr ⟨k, name, dangling_succ_iff.1 h⟩
  · rintro (⟨name, h⟩ | ⟨k, name, h⟩)
    · exact ⟨0, name, dangling_zero_iff.2 h⟩
    · exact ⟨k + 1, name, dangling_succ_iff.2 h⟩

/-- An argument that is there without others dangles with them too, as stream arguments bring
nothing in. -/
theorem exists_dangling_of_prune {known : List String} {operator : Operator} {drop : Nat → Bool}
    {arguments : List Argument}
    (h : ∃ k name, Dangling known operator (Argument.prune drop arguments) k name) :
    ∃ k name, Dangling known operator arguments k name := by
  induction drop, arguments using Argument.prune.induct generalizing known with
  | case1 drop => exact h
  | case2 drop n rest hdrop ih =>
    rw [Argument.prune, if_pos hdrop] at h
    refine exists_dangling_cons.2 (.inr ?_)
    rw [Graph.broughtIn_singleton rfl, List.append_nil]
    exact ih h
  | case3 drop n rest hdrop ih =>
    rw [Argument.prune, if_neg hdrop, exists_dangling_cons] at h
    exact exists_dangling_cons.2 (h.imp_right ih)
  | case4 drop argument rest hother ih =>
    rw [Argument.prune.eq_3 _ _ _ hother, exists_dangling_cons] at h
    exact exists_dangling_cons.2 (h.imp_right ih)

/-! ## What is told without the arguments -/

namespace Invocation

variable (drop : Nat → Bool) (call : Invocation)

theorem prune_of_withLatest (h : Operator.ofToken? call.token = some .withLatest) :
    call.prune drop = { call with arguments := Argument.prune drop call.arguments } := if_pos h

theorem prune_of_ne (h : Operator.ofToken? call.token ≠ some .withLatest) :
    call.prune drop = call := if_neg h

theorem links_withLatest : call.links .withLatest =
    call.withLink false call.source :: call.streamNames.map (call.withLink true) := by
  rw [links, if_neg (by decide)]
  rfl

theorem withLink_prune : (call.prune drop).withLink = call.withLink := by
  by_cases hop : Operator.ofToken? call.token = some .withLatest
  · have hliteral : Invocation.literal { call with arguments := Argument.prune drop call.arguments } =
        call.literal :=
      congrArg List.getLast? (Argument.filterMap_prune (fun _ => rfl) drop call.arguments)
    rw [prune_of_withLatest drop call hop]
    funext weak source
    rw [withLink, withLink, hliteral]
  · rw [prune_of_ne drop call hop]

/-- An invocation at fault is at fault with more stream arguments as well. -/
theorem faulty_of_prune {known : List String} (h : (call.prune drop).Faulty known) :
    call.Faulty known := by
  by_cases hop : Operator.ofToken? call.token = some .withLatest
  · rw [prune_of_withLatest drop call hop] at h
    rcases h with hsource | ⟨operator, hop', hdangling⟩ | ⟨hinto, -⟩
    · exact .inl hsource
    · exact .inr (.inl ⟨operator, hop', exists_dangling_of_prune hdangling⟩)
    · exact absurd (hop.symm.trans hinto) (by decide)
  · rwa [prune_of_ne drop call hop] at h

end Invocation

namespace Event

variable (drop : Nat → Bool) (event : Event)

/-- Without the arguments, an event tells the same but for the edges that they draw. -/
theorem ofEvent_prune : Account.ofEvent (event.prune drop) =
    { Account.ofEvent event with links := (event.prune drop).links } := by
  cases event with
  | declare _ => rfl
  | invoke call =>
    by_cases hop : Operator.ofToken? call.token = some .withLatest
    · have hcallbacks : (call.prune drop).callbacks = call.callbacks := by
        rw [Invocation.prune_of_withLatest drop call hop]
        exact Argument.filterMap_prune (fun _ => rfl) drop call.arguments
      have hnames : (call.prune drop).newNames = call.newNames := by
        rw [Invocation.prune_of_withLatest drop call hop]
        exact Argument.filterMap_prune (fun _ => rfl) drop call.arguments
      have hsame : (call.prune drop).token = call.token ∧ (call.prune drop).source = call.source ∧
          (call.prune drop).locator = call.locator := by
        rw [Invocation.prune_of_withLatest drop call hop]
        exact ⟨rfl, rfl, rfl⟩
      obtain ⟨htoken, hsource, hlocator⟩ := hsame
      rw [Event.prune, Account.ofEvent_spawn (htoken ▸ hop) (by decide),
        Account.ofEvent_spawn hop (by decide), hnames, hsource, hlocator]
      simp only [Invocation.typing?, Invocation.fault?, Invocation.extraCallbacks?,
        Invocation.callbackLocator, hcallbacks, hlocator, Event.links, htoken, hop,
        Option.elim_some]
    · rw [Event.prune, Invocation.prune_of_ne drop call hop]
      rfl

theorem map_drawn : (event.drawn drop).map (·.1) = event.links := by
  cases event with
  | declare _ => rfl
  | invoke call =>
    rw [drawn]
    split
    · rename_i hop
      rw [links, hop, Option.elim_some, Invocation.links_withLatest, List.map_cons, List.map_map,
        Invocation.streamNames, ← Argument.map_marked drop, List.map_map]
      rfl
    · rw [List.map_map]
      exact List.map_id _

theorem links_prune :
    (event.prune drop).links = ((event.drawn drop).filter fun p => !p.2).map (·.1) := by
  cases event with
  | declare _ => rfl
  | invoke call =>
    rw [prune, drawn]
    split
    · rename_i hop
      have hlinks : (call.prune drop).links .withLatest = call.withLink false call.source ::
          (Argument.prune drop call.arguments |>.filterMap (·.streamName?)).map
            (call.withLink true) := by
        rw [Invocation.links_withLatest, Invocation.withLink_prune,
          Invocation.prune_of_withLatest drop call hop]
        rfl
      have htoken : (call.prune drop).token = call.token := by
        rw [Invocation.prune_of_withLatest drop call hop]
      rw [links, htoken, hop, Option.elim_some, hlinks, Argument.streamName?_prune,
        List.filter_cons_of_pos rfl, List.map_cons, List.filter_map, List.map_map, List.map_map]
      rfl
    · rename_i hop
      have hnone : ∀ p ∈ (Event.invoke call).links.map (fun link => (link, false)),
          (!p.2) = true := by
        intro p hp
        obtain ⟨link, -, rfl⟩ := List.mem_map.1 hp
        rfl
      rw [Invocation.prune_of_ne drop call hop, List.filter_eq_self.2 hnone, List.map_map]
      exact (List.map_id _).symm

/-- The edges of arguments that are left out are weak edges of `with`. -/
theorem weak_of_mem_drawn {p : Link × Bool} (hp : p ∈ event.drawn drop) (hdrop : p.2 = true) :
    p.1.operator = .withLatest ∧ p.1.weak = true := by
  cases event with
  | declare _ => cases hp
  | invoke call =>
    rw [drawn] at hp
    split at hp
    · rcases List.mem_cons.1 hp with rfl | hp
      · cases hdrop
      · obtain ⟨q, -, rfl⟩ := List.mem_map.1 hp
        exact ⟨rfl, rfl⟩
    · obtain ⟨link, -, rfl⟩ := List.mem_map.1 hp
      cases hdrop

end Event

section All

variable (drop : Nat → Nat → Bool) (events : List Event)

theorem pruneAll_cons (event : Event) : pruneAll drop (event :: events) =
    event.prune (drop 0) :: pruneAll (fun i => drop (i + 1)) events := List.mapIdx_cons

theorem drawnAll_cons (event : Event) : drawnAll drop (event :: events) =
    event.drawn (drop 0) ++ drawnAll (fun i => drop (i + 1)) events := by
  rw [drawnAll, List.mapIdx_cons, List.flatten_cons]
  rfl

theorem weak_of_mem_drawnAll {p : Link × Bool} (hp : p ∈ drawnAll drop events)
    (hdrop : p.2 = true) : p.1.operator = .withLatest ∧ p.1.weak = true := by
  obtain ⟨l, hl, hp⟩ := List.mem_flatten.1 hp
  obtain ⟨i, hi, rfl⟩ := List.mem_mapIdx.1 hl
  exact Event.weak_of_mem_drawn _ _ hp hdrop

theorem map_drawnAll : (drawnAll drop events).map (·.1) = (Account.ofEvents events).links := by
  induction events generalizing drop with
  | nil => rfl
  | cons event events ih =>
    rw [drawnAll_cons, List.map_append, Event.map_drawn, ih, Account.ofEvents]
    rfl

/-- Without the arguments, the events tell the same but for the edges that they draw. -/
theorem ofEvents_pruneAll : Account.ofEvents (pruneAll drop events) =
    { Account.ofEvents events with
      links := ((drawnAll drop events).filter fun p => !p.2).map (·.1) } := by
  induction events generalizing drop with
  | nil => rfl
  | cons event events ih =>
    rw [pruneAll_cons, Account.ofEvents, ih, Event.ofEvent_prune, Event.links_prune, drawnAll_cons,
      List.filter_append, List.map_append]
    rfl

/-- Without the arguments, the strong links are the same. -/
theorem flows_pruneAll : (Account.ofEvents (pruneAll drop events)).flows =
    (Account.ofEvents events).flows := by
  have hweak := fun p hp => weak_of_mem_drawnAll drop events (p := p) hp
  rw [ofEvents_pruneAll, Account.flows, Account.flows, ← map_drawnAll drop, List.filter_map,
    List.filter_map, List.filter_filter]
  refine congrArg (List.map _) (congrArg (List.map _) (List.filter_congr fun p hp => ?_))
  have hp := hweak p hp
  cases hdrop : p.2 with
  | false => simp
  | true => simp [(hp hdrop).2]

end All

/-- What can be built can be built without the arguments. -/
theorem Session.Follows.build_pruneAll {s s' t : Session} {a b : Account} (hs : s.Follows a)
    (ht : t.Follows b) (hnames : a.mentions.map (·.1) = b.mentions.map (·.1)) {events : List Event}
    (hbuild : s.build events = (s', none)) (drop : Nat → Nat → Bool) :
    ∃ t', t.build (pruneAll drop events) = (t', none) := by
  induction events generalizing s t a b drop with
  | nil => exact ⟨t, rfl⟩
  | cons event events ih =>
    rw [Session.build] at hbuild
    cases happly : s.apply event with
    | mk s₁ result =>
      rw [happly] at hbuild
      cases result with
      | error v => cases hbuild
      | ok name =>
        cases happly' : t.apply (event.prune (drop 0)) with
        | mk t₁ result =>
          cases result with
          | error v =>
            -- The invocation would be at fault with all its arguments.
            obtain ⟨call', hcall', hreject⟩ :=
              (ht.apply_eq_error_iff _ v).1 (congrArg Prod.snd happly')
            have hfaulty := Invocation.faulty_iff.2 ⟨v, _, hreject⟩
            cases event with
            | declare _ => cases hcall'
            | invoke call =>
              obtain rfl := Event.invoke.inj hcall'
              obtain ⟨w, text, hw⟩ :=
                Invocation.faulty_iff.1 (Invocation.faulty_of_prune (drop 0) call hfaulty)
              rw [← hnames] at hw
              have herror := (hs.apply_eq_error_iff _ w).2 ⟨call, rfl, hw.text_eq ▸ hw⟩
              rw [happly] at herror
              cases herror
          | ok name' =>
            rw [pruneAll_cons, Session.build, happly']
            refine ih (hs.apply happly) (ht.apply happly') ?_ hbuild _
            rw [Account.append_mentions, Account.append_mentions, List.map_append, List.map_append,
              hnames, Event.ofEvent_prune]

/-! ## Graphs that differ in weak edges -/

/-- A stream without the edges at it. -/
def Stream.bare (s : Stream) : Stream := { s with parents := [], children := [] }

namespace Graph

theorem map_inputs_stream? (g : Graph) (t : StreamId) :
    (g.stream? t).map (·.inputs) = if t < g.streams.length then some (g.inputsOf t) else none := by
  split
  · rename_i ht
    obtain ⟨s, hs⟩ := exists_stream? ht
    rw [inputsOf_of_stream? hs, hs]
    rfl
  · rename_i ht
    rw [stream?, List.getElem?_eq_none (Nat.le_of_not_lt ht)]
    rfl

/-- Graphs with the same streams but for the edges at them tell the same findings and types. -/
theorem findings_types_of_bare {g h : Graph} (hbare : g.streams.map (·.bare) = h.streams.map (·.bare)) :
    g.findings = h.findings ∧ g.types = h.types := by
  have hfindings : ∀ k : Graph, k.findings = (k.streams.map (·.bare)).flatMap (·.findings) := by
    intro k
    rw [List.flatMap_map]
    rfl
  have htypes := congrArg (List.map fun s => (s.name, s.resolved?)) hbare
  rw [List.map_map, List.map_map] at htypes
  refine ⟨?_, types_eq_of_map htypes⟩
  rw [hfindings, hfindings, hbare]

/-- Graphs with the same types and strong edges have the same types after a propagation, and it
takes as much. -/
theorem WellFormed.propagateFrom?_congr {g h : Graph} (hg : g.WellFormed) (hh : h.WellFormed)
    (htypes : g.streams.map (fun s => (s.inputs, s.outputs)) =
      h.streams.map fun s => (s.inputs, s.outputs))
    (hstrong : g.streams.map g.strongTargets = h.streams.map h.strongTargets) (order : Order)
    (seed : List StreamId) :
    (g.propagateFrom? order seed).map (fun r => (r.1.streams.map (·.inputs), r.2)) =
      (h.propagateFrom? order seed).map fun r => (r.1.streams.map (·.inputs), r.2) := by
  have hlength : g.streams.length = h.streams.length := by
    have hlength := congrArg List.length htypes
    rwa [List.length_map, List.length_map] at hlength
  have hchildren : ∀ k : Graph, k.WellFormed → ∀ t, k.strongChildren t =
      ((k.streams.map k.strongTargets)[t]?).getD [] := by
    intro k hk t
    rw [List.getElem?_map]
    cases hs : k.streams[t]? with
    | none =>
      rw [strongChildren, hk.edgesFrom_eq_nil (List.getElem?_eq_none_iff.1 hs)]
      rfl
    | some s => exact (hk.strongTargets_eq hs).symm
  have hsame : g.SameThrough id h := by
    refine ⟨hlength, fun t => ?_, fun t => ?_, fun t => ?_⟩
    · have ht := congrArg (Option.map Prod.fst) (map_stream?_of_map htypes t)
      rw [Option.map_map, Option.map_map] at ht
      exact congrArg (fun l => (Option.getD l []).map id) ht
    · have ht := congrArg (Option.map Prod.snd) (map_stream?_of_map htypes t)
      rw [Option.map_map, Option.map_map] at ht
      exact congrArg (fun l => (Option.getD l []).map id) ht
    · rw [hchildren g hg, hchildren h hh, hstrong]
  have hid : ∀ {a b : Attribution}, id a = id b → a.descriptor = b.descriptor := congrArg _
  have hvalid : h.hasStream = g.hasStream := funext fun i => by rw [hasStream, hasStream, hlength]
  rw [Graph.propagateFrom?, Graph.propagateFrom?, hvalid]
  split
  · rename_i hseed
    have hseed : ∀ i ∈ seed, i < g.streams.length := fun i hi =>
      of_decide_eq_true (List.all_eq_true.1 hseed i hi)
    have hrun := hsame.run hid hg hh order hseed
    have hstats := (hsame.abreast hid).stats_run hg hh order seed
    refine congrArg some (Prod.ext (map_eq_of_stream? fun t => ?_) hstats)
    show Option.map _ (((g.start order seed).run order).graph.stream? t) =
      Option.map _ (((h.start order seed).run order).graph.stream? t)
    have hinputs := hrun.inputs t
    rw [List.map_id, List.map_id] at hinputs
    rw [map_inputs_stream?, map_inputs_stream?, hrun.length, hinputs]
  · rfl

/-- Graphs that follow accounts with the same mentions and types have the same streams but for the
edges at them. -/
theorem Follows.map_bare {g k : Graph} {a b : Account} (h : g.Follows a) (h' : k.Follows b)
    (hmentions : a.mentions = b.mentions) (htakes : a.takes = b.takes)
    (hgives : a.gives = b.gives) : g.streams.map (·.bare) = k.streams.map (·.bare) := by
  have hname := h.nameOf?_congr h' (.of_eq (congrArg _ hmentions))
  refine map_eq_of_stream? fun t => ?_
  have ht := hname t
  rw [nameOf?, nameOf?] at ht
  cases hs : g.stream? t with
  | none =>
    rw [hs] at ht
    rw [Option.map_eq_none_iff.1 ht.symm]
  | some s =>
    rw [hs] at ht
    obtain ⟨r, hr, hsr⟩ := Option.map_eq_some_iff.1 ht.symm
    have hlocator : some s.locator = some r.locator := by
      rw [← h.locators t s hs, ← h'.locators t r hr, hmentions, hsr]
    rw [hr, Option.map_some, Option.map_some, Stream.bare, Stream.bare, h.inputs t s hs,
      h.outputs t s hs, h'.inputs t r hr, h'.outputs t r hr, h.wellFormed.id_eq hs,
      h'.wellFormed.id_eq hr, hsr, htakes, hgives, Option.some.inj hlocator]

theorem Closure.stream?_eq {g h : Graph} {new : StreamId → List Attribution}
    (hc : Closure g h new) (t : StreamId) :
    h.stream? t = (g.stream? t).map fun s => { s with inputs := h.inputsOf t } := by
  rw [inputsOf, hc.streams t]
  cases g.stream? t <;> rfl

/-- When types are passed on, streams differ in what they differed in before, and in the types
that they take. -/
theorem Closure.map_bare {g h g' h' : Graph} {new new' : StreamId → List Attribution}
    (hc : Closure g h new) (hc' : Closure g' h' new')
    (hbare : g.streams.map (·.bare) = g'.streams.map (·.bare))
    (hinputs : ∀ t, h.inputsOf t = h'.inputsOf t) :
    h.streams.map (·.bare) = h'.streams.map (·.bare) := by
  have hafter : ∀ (k : Graph) (inputs : List Attribution) (t : StreamId),
      ((k.stream? t).map fun s => { s with inputs }).map (·.bare) =
        ((k.stream? t).map (·.bare)).map fun s => { s with inputs } := by
    intro k inputs t
    rw [Option.map_map, Option.map_map]
    rfl
  refine map_eq_of_stream? fun t => ?_
  rw [hc.stream?_eq, hc'.stream?_eq, hafter, hafter, hinputs, map_stream?_of_map hbare]

end Graph

/-! ## Checks without the arguments -/

/-- Verdicts on graphs with the same streams but for the edges at them, after the same
diagnostics. -/
theorem Session.report_of_bare {s t : Session} (hdiagnostics : s.diagnostics = t.diagnostics)
    (hbare : s.graph.streams.map (·.bare) = t.graph.streams.map (·.bare)) :
    s.verify.report.status = t.verify.report.status ∧
      s.verify.report.errors = t.verify.report.errors ∧
      s.verify.report.types = t.verify.report.types := by
  obtain ⟨hfindings, htypes⟩ := Graph.findings_types_of_bare hbare
  have hstatus : s.verify.status = t.verify.status := by
    rw [s.verify_status, t.verify_status, hdiagnostics, hfindings]
  refine ⟨hstatus, ?_, htypes⟩
  rw [s.errors_verify, t.errors_verify, hdiagnostics, hfindings]

/-- The edges that a report tells are the links that the events draw. -/
theorem Session.Follows.get?_graph {s : Session} {a : Account} (h : s.Follows a) (name : String) :
    s.propagated.verify.report.graph.get? name = recordsOf (a.linksFrom name) := by
  have hclosure := h.graph.wellFormed.closure_run s.order (List.forall_mem_nil _)
  have hgraph : s.propagated.verify.report.graph = s.graph.adjacency := hclosure.adjacency_eq
  rw [hgraph, h.graph.get?_adjacency]

/-- Stream arguments of `with` carry no types. If events can be built, they can be built without
any of these arguments. The check then tells the same but for the edges that the missing arguments
draw, takes as much and leaves the same streams with the same types. For graphs this says that a
propagation takes no notice of weak edges. -/
theorem weak_arguments_carry_nothing :
    (∀ (events : List Event) (order : Order) (s : Session),
      Session.build { order } events = (s, none) → ∀ drop : Nat → Nat → Bool,
      ∃ r q, check events order = .ok r ∧ check (pruneAll drop events) order = .ok q ∧
        q.status = r.status ∧ q.errors = r.errors ∧ q.types = r.types ∧
        (Session.pipeline { order } (pruneAll drop events) .verify).1.propagation =
          (Session.pipeline { order } events .verify).1.propagation ∧
        (checkedGraph (pruneAll drop events) order).streams.map (·.bare) =
          (checkedGraph events order).streams.map (·.bare) ∧
        (∀ p ∈ drawnAll drop events, p.2 = true → p.1.operator = .withLatest ∧ p.1.weak = true) ∧
        ∀ name,
          r.graph.get? name = recordsOf
            (((drawnAll drop events).filter fun p => p.1.source = name).map (·.1)) ∧
          q.graph.get? name = recordsOf
            (((drawnAll drop events).filter fun p => p.1.source = name && !p.2).map (·.1))) ∧
    ∀ g h : Graph, g.WellFormed → h.WellFormed →
      g.streams.map (fun s => (s.name, s.inputs, s.outputs)) =
        h.streams.map (fun s => (s.name, s.inputs, s.outputs)) →
      g.streams.map g.strongTargets = h.streams.map h.strongTargets →
      ∀ (order : Order) (seed : List StreamId),
        (g.propagateFrom? order seed).map (fun r => (r.1.streams.map (·.inputs), r.2)) =
          (h.propagateFrom? order seed).map fun r => (r.1.streams.map (·.inputs), r.2) := by
  refine ⟨fun events order s hbuild drop => ?_, fun g h hg hh htypes hstrong order seed => ?_⟩
  · have hfresh := Session.follows_fresh order
    obtain ⟨t, hbuild'⟩ := hfresh.build_pruneAll hfresh rfl hbuild drop
    have hs := hfresh.build hbuild
    have ht := hfresh.build hbuild'
    have hflows := flows_pruneAll drop events
    rw [Account.empty_append] at hs ht
    rw [ofEvents_pruneAll] at ht hflows
    have hid : ∀ {a b : Attribution}, id a = id b → a.descriptor = b.descriptor := congrArg _
    have hsame : t.graph.SameThrough id s.graph :=
      ht.graph.sameThrough hs.graph (.of_eq rfl) rfl rfl hflows
    have hrun := hsame.run hid ht.graph.wellFormed hs.graph.wellFormed order (List.forall_mem_nil _)
    have hstats := (hsame.abreast hid).stats_run ht.graph.wellFormed hs.graph.wellFormed order []
    obtain ⟨hgraph, hpropagation⟩ := (Session.built hbuild).propagated
    obtain ⟨hgraph', hpropagation'⟩ := (Session.built hbuild').propagated
    have hbare : t.propagated.graph.streams.map (·.bare) =
        s.propagated.graph.streams.map (·.bare) := by
      rw [hgraph, hgraph']
      refine (ht.graph.wellFormed.closure_run order (List.forall_mem_nil _)).map_bare
        (hs.graph.wellFormed.closure_run order (List.forall_mem_nil _))
        (ht.graph.map_bare hs.graph rfl rfl rfl) fun i => ?_
      simpa using hrun.inputs i
    have hdiagnostics : t.propagated.diagnostics = s.propagated.diagnostics :=
      ht.diagnostics.trans hs.diagnostics.symm
    obtain ⟨hstatus, herrors, htypes⟩ := Session.report_of_bare hdiagnostics hbare
    refine ⟨_, _, check_of_build hbuild, check_of_build hbuild', hstatus, herrors, htypes, ?_, ?_,
      fun p hp => weak_of_mem_drawnAll drop events hp, fun name => ⟨?_, ?_⟩⟩
    · rw [Session.pipeline_of_build hbuild, Session.pipeline_of_build hbuild']
      exact hpropagation'.trans ((congrArg some hstats).trans hpropagation.symm)
    · rw [checkedGraph_of_build hbuild, checkedGraph_of_build hbuild', hbare]
    · rw [hs.get?_graph, Account.linksFrom, ← map_drawnAll drop, List.filter_map]
      rfl
    · rw [ht.get?_graph, Account.linksFrom, List.filter_map, List.filter_filter]
      rfl
  · refine hg.propagateFrom?_congr hh ?_ hstrong order seed
    have hpairs := congrArg (List.map Prod.snd) htypes
    rwa [List.map_map, List.map_map] at hpairs

/-- Events in which a weak and a strong edge lead from `a.map` to `b.with`. -/
def latestEvents : List Event :=
  mappedEvents [.primitive "string"] ++
    [ .declare { name := "b", descriptor := some (.primitive "string") },
      .invoke
        { source := "b"
          token := "withLatestFrom"
          arguments := [.stream "a", .name "c", .number 2, .stream "a.map"] },
      .invoke { source := "a.map", token := "to", arguments := [.stream "b.with"] } ]

/-- Without the last stream argument, the weak edge from `a.map` is missing and the strong one is
still there; and one weak edge more makes no difference to a propagation. -/
theorem weak_arguments_carry_nothing_latest :
    let drop : Nat → Nat → Bool := fun i k => i = 3 && k = 3
    let more := Graph.feedback.connect 0 1 { operator := .withLatest, weak := true }
    (∃ r q, check latestEvents .lifo = .ok r ∧ check (pruneAll drop latestEvents) .lifo = .ok q ∧
      q.status = r.status ∧ q.errors = r.errors ∧ q.types = r.types ∧
      r.graph.get? "a.map" = some [⟨.withLatest, true, "b.with"⟩, ⟨.into, false, "b.with"⟩] ∧
      q.graph.get? "a.map" = some [⟨.into, false, "b.with"⟩]) ∧
    (more.propagateFrom? .fifo [1, 1]).map (fun r => (r.1.streams.map (·.inputs), r.2)) =
      (Graph.feedback.propagateFrom? .fifo [1, 1]).map
        fun r => (r.1.streams.map (·.inputs), r.2) := by
  intro drop more
  obtain ⟨hevents, hgraphs⟩ := weak_arguments_carry_nothing
  constructor
  · have hbuild : Session.build { order := .lifo } latestEvents =
        ((Session.build { order := .lifo } latestEvents).1, none) := Prod.ext rfl (by decide +kernel)
    obtain ⟨r, q, hr, hq, hstatus, herrors, htypes, -, -, -, hedges⟩ :=
      hevents latestEvents .lifo _ hbuild drop
    refine ⟨r, q, hr, hq, hstatus, herrors, htypes, ?_, ?_⟩
    · rw [(hedges "a.map").1]
      decide +kernel
    · rw [(hedges "a.map").2]
      decide +kernel
  · exact hgraphs more Graph.feedback (by decide) (by decide) (by decide) (by decide) .fifo [1, 1]

end StreamTyping
