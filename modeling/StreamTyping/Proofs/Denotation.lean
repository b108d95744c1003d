import StreamTyping.Proofs.Account

/-!
# The build follows the events

The session that a list of events builds is what the events tell, put one
after another. Names that come up again, and names of new streams that are
those of declared ones, make no difference: what an event adds never depends on
the session that it is added to.

* `Session.Follows`: a session is what an account tells.
* `Session.Follows.apply`: an event that is no violation adds its account.
* `Session.build_denotation`: what a build leaves, as a function of the events.
-/

namespace StreamTyping

namespace Graph

/-- The streams that the arguments of an invocation bring in; those of `to` bring in none. -/
def broughtIn (operator : Operator) (arguments : List Argument) : List String :=
  if operator = .into then [] else arguments.filterMap (·.newName?)

theorem broughtIn_of_none {operator : Operator} {argument : Argument} (h : argument.newName? = none)
    (rest : List Argument) : broughtIn operator (argument :: rest) = broughtIn operator rest := by
  rw [broughtIn, broughtIn, List.filterMap_cons_none h]

theorem broughtIn_into (arguments : List Argument) : broughtIn .into arguments = [] := if_pos rfl

theorem broughtIn_name {operator : Operator} (h : operator ≠ .into) (n : String)
    (rest : List Argument) :
    broughtIn operator (.name n :: rest) = n :: broughtIn operator rest := by
  rw [broughtIn, broughtIn, if_neg h, if_neg h]
  rfl

/-- The streams of a list of arguments are that of the first one and those of the others. -/
theorem ok_of_prepend {r : Graph × Except Violation (List StreamId)} {id : StreamId} {k : Graph}
    {ids : List StreamId} (h : prepend id r = (k, .ok ids)) :
    ∃ rest, r = (k, .ok rest) ∧ ids = id :: rest := by
  obtain ⟨g, rest⟩ := r
  obtain ⟨rfl, hids⟩ := Prod.mk.inj h
  cases rest with
  | error _ => cases hids
  | ok rest => exact ⟨rest, rfl, (Except.ok.inj hids).symm⟩

namespace Follows

/-- The arguments of an invocation bring in their streams, and lead to streams with the names
that they speak of. -/
theorem resolveArguments {call : Invocation} {operator : Operator} {arguments : List Argument}
    {g k : Graph} {a : Account} {ids : List StreamId} (h : g.Follows a)
    (hr : g.resolveArguments call operator arguments = (k, .ok ids)) :
    k.Follows { a with
      mentions := a.mentions ++ (broughtIn operator arguments).map fun n => (n, call.locator) } ∧
    (∀ i n, g.nameOf? i = some n → k.nameOf? i = some n) ∧
    ids.map k.nameOf? = (arguments.filterMap (·.streamName?)).map some := by
  induction arguments generalizing g a ids with
  | nil =>
    cases hr
    refine ⟨?_, fun _ _ hi => hi, rfl⟩
    simpa [broughtIn] using h
  | cons argument rest ih =>
    -- An argument that speaks of a known stream brings nothing in.
    have hknown : ∀ n, argument.streamName? = some n →
        broughtIn operator (argument :: rest) = broughtIn operator rest →
        g.resolveArguments call operator (.stream n :: rest) = (k, .ok ids) →
        k.Follows { a with mentions := a.mentions ++
          (broughtIn operator (argument :: rest)).map fun n => (n, call.locator) } ∧
        (∀ i n, g.nameOf? i = some n → k.nameOf? i = some n) ∧
        ids.map k.nameOf? = ((argument :: rest).filterMap (·.streamName?)).map some := by
      intro n hn hbrought hrest
      cases hid : g.resolve call n with
      | error _ =>
        rw [resolveArguments_stream_of_error _ _ _ _ _ hid] at hrest
        cases hrest
      | ok id =>
        rw [resolveArguments_stream_of_ok _ _ _ _ _ hid] at hrest
        obtain ⟨ids, hids, rfl⟩ := ok_of_prepend hrest
        obtain ⟨hk, hext, hnames⟩ := ih h hids
        have hname := hext id n (h.wellFormed.resolve_ok hid)
        rw [hbrought, List.filterMap_cons_some hn, List.map_cons, List.map_cons, hname, hnames]
        exact ⟨hk, hext, rfl⟩
    cases argument with
    | number _ =>
      rw [broughtIn_of_none rfl]
      exact ih h hr
    | callback _ =>
      rw [broughtIn_of_none rfl]
      exact ih h hr
    | stream n => exact hknown n rfl (broughtIn_of_none rfl rest) hr
    | name n =>
      by_cases hinto : operator = .into
      · subst hinto
        rw [resolveArguments_name_into] at hr
        exact hknown n rfl rfl hr
      · rw [resolveArguments_name _ _ _ _ hinto] at hr
        obtain ⟨ids, hids, rfl⟩ := ok_of_prepend hr
        obtain ⟨hk, hext, hnames⟩ := ih (h.intern n call.locator) hids
        have hname := hext _ n (h.wellFormed.nameOf?_intern_self n call.locator)
        refine ⟨?_, fun i m hi => hext i m (nameOf?_intern hi n call.locator), ?_⟩
        · rw [broughtIn_name hinto, List.map_cons, List.append_cons]
          exact hk
        · rw [List.filterMap_cons_some (show (Argument.name n).streamName? = some n from rfl),
            List.map_cons, List.map_cons, hname, hnames]

/-- Edges from streams of given names to one stream. -/
theorem foldl_connect {target : StreamId} {v : String} (label : EdgeLabel) {ids : List StreamId}
    {names : List String} {g : Graph} {a : Account} (h : g.Follows a)
    (ht : g.nameOf? target = some v) (hids : ids.map g.nameOf? = names.map some) :
    (ids.foldl (fun g id => g.connect id target label) g).Follows { a with
      links := a.links ++ names.map fun source => { label with source, target := v } } ∧
    ∀ i, (ids.foldl (fun g id => g.connect id target label) g).nameOf? i = g.nameOf? i := by
  induction ids generalizing names g a with
  | nil =>
    obtain rfl : names = [] := List.map_eq_nil_iff.1 hids.symm
    refine ⟨?_, fun _ => rfl⟩
    simpa using h
  | cons id ids ih =>
    cases names with
    | nil => cases hids
    | cons n names =>
      rw [List.map_cons, List.map_cons] at hids
      obtain ⟨hid, hids⟩ := List.cons.inj hids
      have hname : ∀ i, (g.connect id target label).nameOf? i = g.nameOf? i :=
        fun i => nameOf?_connect g id target i label
      obtain ⟨hfollows, hkeep⟩ := ih (h.connect hid ht label) ((hname target).trans ht)
        ((congrArg ids.map (funext hname)).trans hids)
      refine ⟨?_, fun i => (hkeep i).trans (hname i)⟩
      rw [List.map_cons, List.append_cons]
      exact hfollows

/-- The edges of an operator that makes a stream. -/
theorem connectAll {call : Invocation} {operator : Operator} (hop : operator ≠ .into)
    {source target : StreamId} {ids : List StreamId} {g : Graph} {a : Account} (h : g.Follows a)
    (hs : g.nameOf? source = some call.source)
    (ht : g.nameOf? target = some (operator.targetName call.source))
    (hids : ids.map g.nameOf? = call.streamNames.map some) :
    (g.connectAll call operator source target ids).Follows
      { a with links := a.links ++ call.links operator } ∧
    ∀ i, (g.connectAll call operator source target ids).nameOf? i = g.nameOf? i := by
  have hfirst := h.connect hs ht
    { operator, literal := call.literal, locator := call.locator }
  have hname := fun i => nameOf?_connect g source target i
    { operator, literal := call.literal, locator := call.locator }
  obtain ⟨hfollows, hkeep⟩ := hfirst.foldl_connect
    { operator, literal := call.literal, locator := call.locator, weak := operator = .withLatest }
    ((hname target).trans ht) ((congrArg ids.map (funext hname)).trans hids)
  refine ⟨?_, fun i => (hkeep i).trans (hname i)⟩
  rw [Invocation.links, if_neg hop, List.append_cons]
  exact hfollows

end Follows

end Graph

namespace Account

/-- An account to which the callbacks of an invocation are added, with what they say of a
stream and what is wrong with them. -/
def addTyping (a : Account) (name : String) (typing : Option Typing) (fault : Option Finding) :
    Account :=
  { a with
    takes := a.takes ++ typing.toList.map fun t => (name, ⟨t.takes, .callbackInput, t.locator⟩)
    gives := a.gives ++ typing.toList.map fun t => (name, ⟨t.gives, .callbackOutput, t.locator⟩)
    faults := a.faults ++ fault.toList }

/-- What an invocation of an operator that makes a stream tells. -/
theorem ofEvent_spawn {call : Invocation} {operator : Operator}
    (hop : Operator.ofToken? call.token = some operator) (hinto : operator ≠ .into) :
    ofEvent (.invoke call) =
      { mentions := (call.newNames ++ [operator.targetName call.source]).map
          fun name => (name, call.locator)
        links := call.links operator
        takes := (call.typing? operator).toList.map fun t =>
          (operator.targetName call.source, ⟨t.takes, .callbackInput, t.locator⟩)
        gives := (call.typing? operator).toList.map fun t =>
          (operator.targetName call.source, ⟨t.gives, .callbackOutput, t.locator⟩)
        faults := (call.fault? operator).toList } := by
  have hmentions : (Event.invoke call).mentions =
      call.newNames ++ [operator.targetName call.source] := by
    simp only [Event.mentions, hop]
  ext1
  · simp only [ofEvent, hmentions, Event.locator]
  · simp only [ofEvent, Event.links, hop, Option.elim_some]
  · simp only [ofEvent, Event.takes, Event.typing?, hop, Option.bind_some]
    cases call.typing? operator <;> rfl
  · simp only [ofEvent, Event.gives, Event.typing?, hop, Option.bind_some]
    cases call.typing? operator <;> rfl
  · simp only [ofEvent, Event.faults, hop]

/-- What a `to` tells. -/
theorem ofEvent_into {call : Invocation} (hop : Operator.ofToken? call.token = some .into) :
    ofEvent (.invoke call) = { links := call.links .into } := by
  simp only [ofEvent, Event.mentions, Event.links, Event.takes, Event.gives, Event.typing?,
    Event.faults, hop]
  rfl

/-- What an invocation of an unknown operator tells. -/
theorem ofEvent_unknown {call : Invocation} (hop : Operator.ofToken? call.token = none) :
    ofEvent (.invoke call) = { faults := [.unknownOperator call.token call.locator] } := by
  simp only [ofEvent, Event.mentions, Event.links, Event.takes, Event.gives, Event.typing?,
    Event.faults, hop]
  rfl

end Account

namespace Session

/-- A session is what an account tells. -/
structure Follows (s : Session) (a : Account) : Prop where
  graph : s.graph.Follows a
  diagnostics : s.diagnostics = a.faults.map (·.diagnostic)

namespace Follows

variable {s : Session} {a : Account} (h : s.Follows a)

include h

theorem note (finding : Finding) :
    (s.note finding).Follows { a with faults := a.faults ++ [finding] } where
  graph := h.graph.withFaults _
  diagnostics := by
    rw [Session.note, raise, List.map_append, ← h.diagnostics]
    rfl

theorem attributeTypes {target : StreamId} {v : String} (ht : s.graph.nameOf? target = some v)
    (takes gives : Descriptor) (locator : Option Locator) :
    (s.attributeTypes target takes gives locator).Follows
      { a with
        takes := a.takes ++ [(v, ⟨takes, .callbackInput, locator⟩)]
        gives := a.gives ++ [(v, ⟨gives, .callbackOutput, locator⟩)] } := by
  have hin := h.graph.addInput ht ⟨takes, .callbackInput, locator⟩
  have hout := hin.addOutput (i := target) (by rw [Graph.nameOf?_addInput, ht])
    ⟨gives, .callbackOutput, locator⟩
  exact ⟨hout, h.diagnostics⟩

theorem typeMap (call : Invocation) {target : StreamId} {v : String}
    (ht : s.graph.nameOf? target = some v) :
    (s.typeMap call target).Follows (a.addTyping v (call.typing? .map) (call.fault? .map)) := by
  rw [Session.typeMap, Invocation.typing?, Invocation.fault?]
  cases call.callbacks with
  | nil => simpa [Account.addTyping] using h.note (.missingCallback call.locator)
  | cons callback rest =>
    cases rest with
    | nil =>
      cases hparams : callback.params with
      | nil =>
        simpa [Account.addTyping, hparams] using
          h.note (.parameterCount 0 (call.callbackLocator callback))
      | cons param params =>
        cases params with
        | nil =>
          simpa [Account.addTyping, hparams] using
            h.attributeTypes ht param callback.returns (call.callbackLocator callback)
        | cons p ps =>
          simpa [Account.addTyping, hparams] using
            h.note (.parameterCount (ps.length + 2) (call.callbackLocator callback))
    | cons second rest =>
      simpa [Account.addTyping] using h.note (.extraCallbacks .map (rest.length + 2) call.locator)

theorem typeCombined (call : Invocation) {operator : Operator}
    (hop : operator = .withLatest ∨ operator = .combineLatest) {target : StreamId} {v : String}
    (ht : s.graph.nameOf? target = some v) :
    (s.typeCombined call operator target).Follows
      (a.addTyping v (call.typing? operator) (call.fault? operator)) := by
  rw [Session.typeCombined]
  rcases hop with rfl | rfl
  all_goals
    rw [Invocation.typing?, Invocation.fault?, Invocation.extraCallbacks?]
    cases call.callbacks with
    | nil => simpa [Account.addTyping] using h
    | cons callback rest =>
      cases rest with
      | nil =>
        simpa [Account.addTyping] using
          h.attributeTypes ht (.tuple callback.params) callback.returns (call.callbackLocator callback)
      | cons second rest =>
        simpa [Account.addTyping] using h.note (.extraCallbacks _ (rest.length + 2) call.locator)

/-- The callbacks of an invocation attribute types, or something is wrong with them, or
neither. -/
theorem typeTarget (call : Invocation) (operator : Operator) {target : StreamId} {v : String}
    (ht : s.graph.nameOf? target = some v) :
    (s.typeTarget call operator target).Follows
      (a.addTyping v (call.typing? operator) (call.fault? operator)) := by
  cases operator with
  | into | observe | filter | delay =>
    simpa [Account.addTyping, Session.typeTarget, Invocation.typing?, Invocation.fault?] using h
  | map => exact h.typeMap call ht
  | withLatest => exact h.typeCombined call (.inl rfl) ht
  | combineLatest => exact h.typeCombined call (.inr rfl) ht

theorem declare (declaration : Declaration) :
    (s.declare declaration).Follows (a ++ .ofEvent (.declare declaration)) := by
  have hintern := h.graph.intern declaration.name declaration.locator
  have hself := h.graph.wellFormed.nameOf?_intern_self declaration.name declaration.locator
  rw [Session.declare]
  generalize s.graph.intern declaration.name declaration.locator = r at hintern hself
  obtain ⟨g, id⟩ := r
  cases hd : declaration.descriptor with
  | none =>
    have haccount : a ++ .ofEvent (.declare declaration) =
        { a with mentions := a.mentions ++ [(declaration.name, declaration.locator)] } := by
      ext1 <;> simp [Account.ofEvent, Event.mentions, Event.locator, Event.links, Event.takes,
        Event.gives, Event.typing?, Event.faults, hd]
    rw [haccount]
    exact ⟨hintern, h.diagnostics⟩
  | some descriptor =>
    have haccount : a ++ .ofEvent (.declare declaration) =
        { a with
          mentions := a.mentions ++ [(declaration.name, declaration.locator)]
          takes := a.takes ++ [(declaration.name,
            ⟨descriptor, .explicitDeclaration, declaration.locator⟩)] } := by
      ext1 <;> simp [Account.ofEvent, Event.mentions, Event.locator, Event.links, Event.takes,
        Event.gives, Event.typing?, Event.faults, hd]
    rw [haccount]
    exact ⟨hintern.addInput hself _, h.diagnostics⟩

/-- A `to` draws one edge, if it has a target. -/
theorem feed {call : Invocation} {source : StreamId} {ids : List StreamId} {t : Session}
    {r : Option String} (hs : s.graph.nameOf? source = some call.source)
    (hids : ids.map s.graph.nameOf? = call.streamNames.map some)
    (hr : s.feed call source ids = (t, .ok r)) :
    t.Follows { a with links := a.links ++ call.links .into } := by
  cases ids with
  | nil => cases hr
  | cons target ids =>
    cases hnames : call.streamNames with
    | nil =>
      rw [hnames] at hids
      cases hids
    | cons name names =>
      rw [hnames, List.map_cons, List.map_cons] at hids
      obtain ⟨ht, -⟩ := List.cons.inj hids
      obtain ⟨rfl, -⟩ := Prod.mk.inj hr
      have hlinks : call.links .into =
          [{ operator := .into, locator := call.locator, source := call.source, target := name }] := by
        rw [Invocation.links, if_pos rfl, hnames]
        rfl
      rw [hlinks]
      exact ⟨h.graph.connect hs ht _, h.diagnostics⟩

/-- An operator that makes a stream adds it, the edges to it and what the callbacks say. -/
theorem spawn {call : Invocation} {operator : Operator} (hop : operator ≠ .into)
    {source : StreamId} {ids : List StreamId} (hs : s.graph.nameOf? source = some call.source)
    (hids : ids.map s.graph.nameOf? = call.streamNames.map some) :
    (s.spawn call operator source ids).1.Follows
      (Account.addTyping
        { a with
          mentions := a.mentions ++ [(operator.targetName call.source, call.locator)]
          links := a.links ++ call.links operator }
        (operator.targetName call.source) (call.typing? operator) (call.fault? operator)) := by
  have hintern := h.graph.intern (operator.targetName call.source) call.locator
  have hself := h.graph.wellFormed.nameOf?_intern_self (operator.targetName call.source) call.locator
  have hold := fun i n (hi : s.graph.nameOf? i = some n) =>
    Graph.nameOf?_intern hi (operator.targetName call.source) call.locator
  rw [Session.spawn]
  generalize s.graph.intern (operator.targetName call.source) call.locator = r at hintern hself hold
  obtain ⟨g, target⟩ := r
  have hids' := map_eq_of_extends hold hids
  obtain ⟨hall, hkeep⟩ := hintern.connectAll hop (hold source _ hs) hself hids'
  have hsession : Follows { s with graph := g.connectAll call operator source target ids } _ :=
    ⟨hall, h.diagnostics⟩
  exact hsession.typeTarget call operator ((hkeep target).trans hself)

/-- An invocation that is no violation adds its account. -/
theorem invoke {call : Invocation} {t : Session} {r : Option String}
    (hr : s.invoke call = (t, .ok r)) : t.Follows (a ++ .ofEvent (.invoke call)) := by
  rw [Session.invoke] at hr
  cases hlookup : s.graph.lookup? call.source with
  | none =>
    rw [hlookup] at hr
    cases hr
  | some source =>
    have hs := h.graph.wellFormed.lookup?_eq_some_iff.1 hlookup
    simp only [hlookup] at hr
    cases hop : Operator.ofToken? call.token with
    | none =>
      simp only [hop] at hr
      obtain ⟨rfl, -⟩ := Prod.mk.inj hr
      have haccount : a ++ .ofEvent (.invoke call) =
          { a with faults := a.faults ++ [.unknownOperator call.token call.locator] } := by
        rw [Account.ofEvent_unknown hop]
        ext1 <;> simp
      rw [haccount]
      exact h.note _
    | some operator =>
      simp only [hop] at hr
      cases hres : s.graph.resolveArguments call operator call.arguments with
      | mk g ids =>
        simp only [hres] at hr
        cases ids with
        | error _ => cases hr
        | ok ids =>
          obtain ⟨hg, hext, hids⟩ := h.graph.resolveArguments hres
          have hsession : Follows { s with graph := g } _ := ⟨hg, h.diagnostics⟩
          by_cases hinto : operator = .into
          · subst hinto
            simp only [if_true] at hr
            have hfeed := hsession.feed (hext source _ hs) hids hr
            have haccount : a ++ .ofEvent (.invoke call) =
                { a with links := a.links ++ call.links .into } := by
              rw [Account.ofEvent_into hop]
              ext1 <;> simp
            rw [haccount]
            simpa [Graph.broughtIn_into] using hfeed
          · simp only [if_neg hinto] at hr
            obtain ⟨rfl, -⟩ := Prod.mk.inj hr
            have hspawn := hsession.spawn hinto (hext source _ hs) hids
            have haccount : a ++ .ofEvent (.invoke call) = Account.addTyping
                { a with
                  mentions := a.mentions ++ ((Graph.broughtIn operator call.arguments).map
                    fun n => (n, call.locator)) ++ [(operator.targetName call.source, call.locator)]
                  links := a.links ++ call.links operator }
                (operator.targetName call.source) (call.typing? operator) (call.fault? operator) := by
              rw [Account.ofEvent_spawn hop hinto]
              ext1 <;> simp [Account.addTyping, Graph.broughtIn, hinto, Invocation.newNames]
            rw [haccount]
            exact hspawn

/-- An event that is no violation adds its account. -/
theorem apply {event : Event} {t : Session} {r : Option String}
    (hr : s.apply event = (t, .ok r)) : t.Follows (a ++ .ofEvent event) := by
  cases event with
  | declare declaration =>
    obtain ⟨rfl, -⟩ := Prod.mk.inj hr
    exact h.declare declaration
  | invoke call => exact h.invoke hr

/-- Events without a violation add their accounts. -/
theorem build {events : List Event} {t : Session} (hr : s.build events = (t, none)) :
    t.Follows (a ++ .ofEvents events) := by
  induction events generalizing s a with
  | nil =>
    obtain ⟨rfl, -⟩ := Prod.mk.inj hr
    rw [Account.ofEvents, Account.append_empty]
    exact h
  | cons event events ih =>
    rw [Session.build] at hr
    split at hr
    · rename_i s' r happly
      rw [Account.ofEvents, ← Account.append_assoc]
      exact ih (h.apply happly) hr
    · cases hr

end Follows

theorem follows_fresh (order : Order) : Follows { order } {} := ⟨Graph.follows_empty, rfl⟩

/-! ## What an event leaves alone -/

/-- Two sessions differ at most in their graphs and diagnostics. -/
def SameFrame (s t : Session) : Prop :=
  t.order = s.order ∧ t.status = s.status ∧ t.propagation = s.propagation

theorem typeTarget_frame (s : Session) (call : Invocation) (operator : Operator)
    (target : StreamId) : SameFrame s (s.typeTarget call operator target) := by
  unfold typeTarget typeMap typeCombined
  repeat' split
  all_goals exact ⟨rfl, rfl, rfl⟩

theorem spawn_frame (s : Session) (call : Invocation) (operator : Operator) (source : StreamId)
    (arguments : List StreamId) : SameFrame s (s.spawn call operator source arguments).1 := by
  unfold spawn
  exact typeTarget_frame _ call operator _

theorem apply_frame (s : Session) (event : Event) : SameFrame s (s.apply event).1 := by
  cases event with
  | declare declaration =>
    rw [apply, declare]
    split
    split <;> exact ⟨rfl, rfl, rfl⟩
  | invoke call =>
    rw [apply, invoke]
    split
    · exact ⟨rfl, rfl, rfl⟩
    split
    · exact ⟨rfl, rfl, rfl⟩
    split
    · exact ⟨rfl, rfl, rfl⟩
    split
    · unfold feed
      split <;> exact ⟨rfl, rfl, rfl⟩
    · exact spawn_frame _ call _ _ _

theorem build_frame (s : Session) (events : List Event) : SameFrame s (s.build events).1 := by
  induction events generalizing s with
  | nil => exact ⟨rfl, rfl, rfl⟩
  | cons event events ih =>
    have happly := s.apply_frame event
    rw [build]
    split
    · rename_i t r heq
      rw [heq] at happly
      obtain ⟨ho, hs, hp⟩ := ih t
      exact ⟨ho.trans happly.1, hs.trans happly.2.1, hp.trans happly.2.2⟩
    · rename_i t v heq
      rw [heq] at happly
      exact happly

/-! ## What a build leaves -/

/-- The session that events build is what each of them tells, one after another: a function
of the events alone, in which a stream stands where it is first mentioned. -/
theorem build_denotation {order : Order} {events : List Event} {s : Session}
    (h : Session.build { order } events = (s, none)) :
    s.graph.streams.map (·.name) = (events.flatMap (·.mentions)).eraseDups ∧
    (∀ t ∈ s.graph.streams, ∃ event,
      events.find? (fun e => t.name ∈ e.mentions) = some event ∧ t.locator = event.locator) ∧
    s.graph.edges.map s.graph.link? = (events.flatMap (·.links)).map some ∧
    (∀ t ∈ s.graph.streams, t.inputs = entriesOf t.name (events.flatMap (·.takes)) ∧
      t.outputs = entriesOf t.name (events.flatMap (·.gives))) ∧
    (∀ p ∈ events.flatMap (·.takes) ++ events.flatMap (·.gives),
      p.1 ∈ s.graph.streams.map (·.name)) ∧
    s.diagnostics = (events.flatMap (·.faults)).map (·.diagnostic) ∧
    s.graph.WellFormed ∧ s.order = order ∧ s.status = .pending ∧ s.propagation = none := by
  have hfollows := (follows_fresh order).build h
  rw [Account.empty_append] at hfollows
  obtain ⟨hg, hdiagnostics⟩ := hfollows
  have hnames := hg.names
  rw [Account.map_ofEvents_mentions] at hnames
  have hframe := build_frame { order } events
  rw [h] at hframe
  refine ⟨hnames, fun t ht => ?_, ?_, fun t ht => ?_, fun p hp => ?_, ?_, hg.wellFormed, hframe⟩
  · obtain ⟨i, hi⟩ := Graph.exists_stream?_of_mem ht
    exact Account.find?_of_lookup_mentions (hg.locators i t hi)
  · rw [hg.links, Account.ofEvents_links]
  · obtain ⟨i, hi⟩ := Graph.exists_stream?_of_mem ht
    rw [hg.inputs i t hi, hg.outputs i t hi, Account.ofEvents_takes, Account.ofEvents_gives]
    exact ⟨rfl, rfl⟩
  · rw [hnames, List.mem_eraseDups, ← Account.map_ofEvents_mentions]
    rw [← Account.ofEvents_takes, ← Account.ofEvents_gives] at hp
    rcases List.mem_append.1 hp with hp | hp
    · exact hg.takes_mentioned p hp
    · exact hg.gives_mentioned p hp
  · rw [hdiagnostics, Account.ofEvents_faults]

/-- Events in which the derived stream `a.map` is fed back, and `b` is brought in by name. -/
def feedbackEvents : List Event :=
  [ .declare { name := "a", descriptor := some (.primitive "number"), locator := some ⟨"app.ts", 1, 1⟩ },
    .invoke
      { source := "a"
        token := "map"
        arguments := [.callback { params := [.primitive "number"], returns := .primitive "string" }]
        locator := some ⟨"app.ts", 2, 1⟩ },
    .invoke { source := "a.map", token := "withLatestFrom", arguments := [.name "b", .stream "a"] },
    .declare { name := "a.map.with", descriptor := some (.primitive "string") },
    .invoke { source := "a.map", token := "to", arguments := [.stream "a"] },
    .invoke { source := "b", token := "scan" } ]

theorem build_denotation_feedback :
    Session.build {} feedbackEvents = ((Session.build {} feedbackEvents).1, none) ∧
      (Session.build {} feedbackEvents).1.graph.streams.map (·.name) =
        ["a", "a.map", "b", "a.map.with"] ∧
      (Session.build {} feedbackEvents).1.diagnostics.map (·.kind) = [.unknownOperator] := by
  have h : Session.build {} feedbackEvents = ((Session.build {} feedbackEvents).1, none) :=
    Prod.ext rfl (by decide +kernel)
  obtain ⟨hnames, -, -, -, -, hdiagnostics, -⟩ := build_denotation h
  refine ⟨h, hnames.trans (by decide +kernel), ?_⟩
  rw [hdiagnostics]
  decide +kernel

end Session

end StreamTyping
