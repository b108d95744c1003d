import StreamTyping.Graph.Drawing
import StreamTyping.Proofs.Account
import StreamTyping.Proofs.Propagation
import StreamTyping.Report.Basic
import StreamTyping.Session.Verdict

/-!
# Positions stay in range

The operations on sessions pass over a position that is out of range. Here they
are written once more in a form that gives up at the first such position, be it
the id of a stream, of an edge or of a flag of the agenda, or a place in a list
of types. On a well-formed graph the two forms agree, so no operation ever comes
upon a position that is out of range.

* `Session.addEvent?` and `Session.build?`: adding events. Their agreement with
  `Session.apply` and `Session.build` comes together with the fact that events,
  also those that are violations, keep the graph well-formed.
* `Graph.agenda?` and `Propagation.turn?`: passing types on.
* `Session.verify?`: looking for conflicts, where every type is compared with
  those behind it.
* `Graph.adjacency?`: gathering the edges for a report.
* `Stream.colour?`: drawing a stream, where every type is compared with the
  first one.
-/

namespace StreamTyping

/-- Where a partial function is defined all along a list, mapping it gives all its values. -/
theorem mapM_eq_some_map {α β : Type} {f : α → Option β} {f' : α → β} {l : List α}
    (h : ∀ x ∈ l, f x = some (f' x)) : l.mapM f = some (l.map f') := by
  induction l with
  | nil => rfl
  | cons x l ih =>
    obtain ⟨hx, hl⟩ := List.forall_mem_cons.1 h
    rw [List.mapM_cons, hx, ih hl]
    rfl

/-- Where a partial function is defined all along a list, mapping it passes over nothing. -/
theorem mapM_eq_some_filterMap {α β : Type} {f : α → Option β} {l : List α}
    (h : ∀ x ∈ l, (f x).isSome) : l.mapM f = some (l.filterMap f) := by
  induction l with
  | nil => rfl
  | cons x l ih =>
    obtain ⟨hx, hl⟩ := List.forall_mem_cons.1 h
    obtain ⟨y, hy⟩ := Option.isSome_iff_exists.1 hx
    rw [List.mapM_cons, hy, ih hl, List.filterMap_cons_some hy]
    rfl

/-! ## Adding events -/

namespace Graph

/-- `Graph.connectAll`, unless an id is out of range. -/
def connectAll? (g : Graph) (call : Invocation) (operator : Operator) (source target : StreamId)
    (arguments : List StreamId) : Option Graph := do
  let label : EdgeLabel := { operator, literal := call.literal, locator := call.locator }
  let (g, _) ← g.connect? source target label
  arguments.foldlM (fun g argument =>
    (g.connect? argument target { label with weak := operator = .withLatest }).map (·.1)) g

theorem connect?_of_lt {g : Graph} {source target : StreamId} (hs : source < g.streams.length)
    (ht : target < g.streams.length) (label : EdgeLabel) :
    g.connect? source target label = some (g.connect source target label, g.edges.length) :=
  if_pos ⟨decide_eq_true hs, decide_eq_true ht⟩

theorem addInput?_of_lt {g : Graph} {id : StreamId} (h : id < g.streams.length) (a : Attribution) :
    g.addInput? id a = some (g.addInput id a) := if_pos (decide_eq_true h)

theorem addOutput?_of_lt {g : Graph} {id : StreamId} (h : id < g.streams.length) (a : Attribution) :
    g.addOutput? id a = some (g.addOutput id a) := if_pos (decide_eq_true h)

theorem connect?_eq_some {g k : Graph} {source target : StreamId} {label : EdgeLabel} {id : EdgeId}
    (h : g.connect? source target label = some (k, id)) :
    source < g.streams.length ∧ target < g.streams.length ∧ k = g.connect source target label := by
  simp only [connect?, Option.ite_none_right_eq_some, Option.some.injEq, Prod.mk.injEq] at h
  exact ⟨of_decide_eq_true h.1.1, of_decide_eq_true h.1.2, h.2.1.symm⟩

theorem addInput?_eq_some {g k : Graph} {id : StreamId} {a : Attribution}
    (h : g.addInput? id a = some k) : k = g.addInput id a := by
  simp only [addInput?, Option.ite_none_right_eq_some, Option.some.injEq] at h
  exact h.2.symm

theorem addOutput?_eq_some {g k : Graph} {id : StreamId} {a : Attribution}
    (h : g.addOutput? id a = some k) : k = g.addOutput id a := by
  simp only [addOutput?, Option.ite_none_right_eq_some, Option.some.injEq] at h
  exact h.2.symm

@[simp] theorem nameOf?_addOutput (g : Graph) (id i : StreamId) (a : Attribution) :
    (g.addOutput id a).nameOf? i = g.nameOf? i := by
  refine nameOf?_modify ?_ g id i
  exact fun _ => rfl

namespace WellFormed

/-- The arguments of an invocation lead to streams of the graph, and streams keep their names.
What has been added before an argument that is a violation stays well-formed. -/
theorem resolveArguments {call : Invocation} {operator : Operator} {arguments : List Argument}
    {g k : Graph} {result : Except Violation (List StreamId)} (hg : g.WellFormed)
    (hr : g.resolveArguments call operator arguments = (k, result)) :
    k.WellFormed ∧ (∀ i n, g.nameOf? i = some n → k.nameOf? i = some n) ∧
      ∀ ids, result = .ok ids → ∀ id ∈ ids, id < k.streams.length := by
  induction arguments generalizing g result with
  | nil =>
    obtain ⟨rfl, rfl⟩ := Prod.mk.inj hr
    refine ⟨hg, fun _ _ hi => hi, fun ids hids => ?_⟩
    obtain rfl := Except.ok.inj hids
    exact List.forall_mem_nil _
  | cons argument rest ih =>
    -- The id of the first argument is in range before the others are looked at.
    have hcons : ∀ (h : Graph) (id : StreamId) (n : String), h.WellFormed →
        (∀ i n, g.nameOf? i = some n → h.nameOf? i = some n) → h.nameOf? id = some n →
        prepend id (h.resolveArguments call operator rest) = (k, result) →
        k.WellFormed ∧ (∀ i n, g.nameOf? i = some n → k.nameOf? i = some n) ∧
          ∀ ids, result = .ok ids → ∀ id ∈ ids, id < k.streams.length := by
      intro h id n hh hext hid heq
      cases hrest : h.resolveArguments call operator rest with
      | mk k' result' =>
        rw [hrest] at heq
        obtain ⟨rfl, rfl⟩ := Prod.mk.inj heq
        obtain ⟨hk, hext', hlt⟩ := ih hh hrest
        refine ⟨hk, fun i m hi => hext' i m (hext i m hi), fun ids hids => ?_⟩
        cases result' with
        | error _ => cases hids
        | ok tail =>
          obtain rfl := Except.ok.inj hids
          exact List.forall_mem_cons.2 ⟨lt_of_nameOf? (hext' id n hid), hlt tail rfl⟩
    have hknown : ∀ n, g.resolveArguments call operator (.stream n :: rest) = (k, result) →
        k.WellFormed ∧ (∀ i n, g.nameOf? i = some n → k.nameOf? i = some n) ∧
          ∀ ids, result = .ok ids → ∀ id ∈ ids, id < k.streams.length := by
      intro n heq
      cases hid : g.resolve call n with
      | error _ =>
        rw [resolveArguments_stream_of_error _ _ _ _ _ hid] at heq
        obtain ⟨rfl, rfl⟩ := Prod.mk.inj heq
        refine ⟨hg, fun _ _ hi => hi, fun ids hids => ?_⟩
        cases hids
      | ok id =>
        rw [resolveArguments_stream_of_ok _ _ _ _ _ hid] at heq
        exact hcons g id n hg (fun _ _ hi => hi) (hg.resolve_ok hid) heq
    cases argument with
    | number _ => exact ih hg hr
    | callback _ => exact ih hg hr
    | stream n => exact hknown n hr
    | name n =>
      by_cases hinto : operator = .into
      · subst hinto
        exact hknown n hr
      · rw [resolveArguments_name _ _ _ _ hinto] at hr
        exact hcons _ _ n (hg.intern n call.locator)
          (fun i m hi => nameOf?_intern hi n call.locator)
          (hg.nameOf?_intern_self n call.locator) hr

theorem foldlM_connect? {target : StreamId} (label : EdgeLabel) {ids : List StreamId} {g : Graph}
    (hg : g.WellFormed) (ht : target < g.streams.length)
    (hids : ∀ id ∈ ids, id < g.streams.length) :
    ids.foldlM (fun g id => (g.connect? id target label).map (·.1)) g =
        some (ids.foldl (fun g id => g.connect id target label) g) ∧
      (ids.foldl (fun g id => g.connect id target label) g).WellFormed ∧
      (ids.foldl (fun g id => g.connect id target label) g).streams.length = g.streams.length := by
  induction ids generalizing g with
  | nil => exact ⟨rfl, hg, rfl⟩
  | cons id ids ih =>
    obtain ⟨hid, hids⟩ := List.forall_mem_cons.1 hids
    have hlength := g.length_connect id target label
    obtain ⟨hfold, hwf, hlen⟩ := ih (hg.connect hid ht label) (hlength ▸ ht) (hlength ▸ hids)
    refine ⟨?_, hwf, hlen.trans hlength⟩
    rw [List.foldlM_cons, connect?_of_lt hid ht]
    exact hfold

theorem connectAll? (call : Invocation) (operator : Operator) {source target : StreamId}
    {ids : List StreamId} {g : Graph} (hg : g.WellFormed) (hs : source < g.streams.length)
    (ht : target < g.streams.length) (hids : ∀ id ∈ ids, id < g.streams.length) :
    g.connectAll? call operator source target ids =
        some (g.connectAll call operator source target ids) ∧
      (g.connectAll call operator source target ids).WellFormed ∧
      (g.connectAll call operator source target ids).streams.length = g.streams.length := by
  have hlength := g.length_connect source target
    { operator, literal := call.literal, locator := call.locator }
  obtain ⟨hfold, hwf, hlen⟩ := foldlM_connect?
    { operator, literal := call.literal, locator := call.locator, weak := operator = .withLatest }
    (hg.connect hs ht { operator, literal := call.literal, locator := call.locator })
    (hlength ▸ ht) (hlength ▸ hids)
  refine ⟨?_, hwf, hlen.trans hlength⟩
  rw [Graph.connectAll?, connect?_of_lt hs ht]
  exact hfold

end WellFormed

theorem nameOf?_connectAll (g : Graph) (call : Invocation) (operator : Operator)
    (source target : StreamId) (ids : List StreamId) (i : StreamId) :
    (g.connectAll call operator source target ids).nameOf? i = g.nameOf? i := by
  rw [connectAll]
  generalize hfirst : g.connect source target _ = k
  have hk : k.nameOf? i = g.nameOf? i := hfirst ▸ g.nameOf?_connect source target i _
  clear hfirst
  induction ids generalizing k with
  | nil => exact hk
  | cons id ids ih => exact ih _ ((k.nameOf?_connect id target i _).trans hk)

end Graph

namespace Session

/-- `Session.attributeTypes`, unless the id is out of range. -/
def attributeTypes? (s : Session) (target : StreamId) (takes gives : Descriptor)
    (locator : Option Locator) : Option Session := do
  let graph ← s.graph.addInput? target ⟨takes, .callbackInput, locator⟩
  let graph ← graph.addOutput? target ⟨gives, .callbackOutput, locator⟩
  return { s with graph }

/-- `Session.typeMap`, unless the id is out of range or there is no first parameter. -/
def typeMap? (s : Session) (call : Invocation) (target : StreamId) : Option Session :=
  match call.callbacks with
  | [] => some (s.note (.missingCallback call.locator))
  | [callback] =>
    let locator := call.callbackLocator callback
    if callback.params.length = 1 then do
      let takes ← callback.params[0]?
      s.attributeTypes? target takes callback.returns locator
    else some (s.note (.parameterCount callback.params.length locator))
  | callbacks => some (s.note (.extraCallbacks .map callbacks.length call.locator))

/-- `Session.typeCombined`, unless the id is out of range. -/
def typeCombined? (s : Session) (call : Invocation) (operator : Operator) (target : StreamId) :
    Option Session :=
  match call.callbacks with
  | [] => some s
  | [callback] =>
    s.attributeTypes? target (.tuple callback.params) callback.returns
      (call.callbackLocator callback)
  | callbacks => some (s.note (.extraCallbacks operator callbacks.length call.locator))

/-- `Session.typeTarget`, unless the id is out of range or there is no first parameter. -/
def typeTarget? (s : Session) (call : Invocation) (operator : Operator) (target : StreamId) :
    Option Session :=
  match operator with
  | .map => s.typeMap? call target
  | .withLatest | .combineLatest => s.typeCombined? call operator target
  | .into | .observe | .filter | .delay => some s

/-- `Session.feed`, unless an id is out of range. -/
def feed? (s : Session) (call : Invocation) (source : StreamId) :
    List StreamId → Option (Session × Except Violation (Option String))
  | [] => some (s, .error (.missingTarget call.token call.locator))
  | target :: _ => do
    let (graph, _) ← s.graph.connect? source target { operator := .into, locator := call.locator }
    let stream ← graph.stream? target
    return ({ s with graph }, .ok (some stream.name))

/-- `Session.spawn`, unless an id is out of range. Both names are looked up by the ids. -/
def spawn? (s : Session) (call : Invocation) (operator : Operator) (source : StreamId)
    (arguments : List StreamId) : Option (Session × String) := do
  let stream ← s.graph.stream? source
  let (graph, target) := s.graph.intern (operator.targetName stream.name) call.locator
  let graph ← graph.connectAll? call operator source target arguments
  let s ← { s with graph }.typeTarget? call operator target
  let stream ← s.graph.stream? target
  return (s, stream.name)

/-- `Session.declare`, unless an id is out of range. -/
def declare? (s : Session) (declaration : Declaration) : Option Session :=
  let (graph, id) := s.graph.intern declaration.name declaration.locator
  match declaration.descriptor with
  | none => some { s with graph }
  | some descriptor => do
    let graph ← graph.addInput? id ⟨descriptor, .explicitDeclaration, declaration.locator⟩
    return { s with graph }

/-- `Session.invoke`, unless an id is out of range. -/
def invoke? (s : Session) (call : Invocation) :
    Option (Session × Except Violation (Option String)) :=
  match s.graph.lookup? call.source with
  | none => some (s, .error (.unresolvedSource call.source call.token call.locator))
  | some source =>
    match Operator.ofToken? call.token with
    | none => some (s.note (.unknownOperator call.token call.locator), .ok none)
    | some operator =>
      match s.graph.resolveArguments call operator call.arguments with
      | (graph, .error violation) => some ({ s with graph }, .error violation)
      | (graph, .ok arguments) =>
        if operator = .into then { s with graph }.feed? call source arguments
        else do
          let (s, name) ← { s with graph }.spawn? call operator source arguments
          return (s, .ok (some name))

/-- `Session.apply`, unless an id is out of range. -/
def addEvent? (s : Session) : Event → Option (Session × Except Violation (Option String))
  | .declare declaration => do
    let s ← s.declare? declaration
    return (s, .ok (some declaration.name))
  | .invoke call => s.invoke? call

/-- `Session.build`, unless an id is out of range. -/
def build? (s : Session) : List Event → Option (Session × Option Violation)
  | [] => some (s, none)
  | event :: events => do
    match ← s.addEvent? event with
    | (s, .ok _) => s.build? events
    | (s, .error violation) => some (s, some violation)

theorem attributeTypes?_of_lt {s : Session} {target : StreamId}
    (ht : target < s.graph.streams.length) (takes gives : Descriptor) (locator : Option Locator) :
    s.attributeTypes? target takes gives locator =
      some (s.attributeTypes target takes gives locator) := by
  have ht' :
      target < (s.graph.addInput target ⟨takes, .callbackInput, locator⟩).streams.length := by
    rwa [Graph.addInput, Graph.length_modify]
  rw [attributeTypes?, Graph.addInput?_of_lt ht, Option.bind_eq_bind, Option.bind_some,
    Graph.addOutput?_of_lt ht']
  rfl

/-- The first parameter of a callback is asked for only where there is one. -/
theorem typeMap?_of_lt {s : Session} {target : StreamId} (ht : target < s.graph.streams.length)
    (call : Invocation) : s.typeMap? call target = some (s.typeMap call target) := by
  rw [typeMap?, typeMap]
  cases call.callbacks with
  | nil => rfl
  | cons callback rest =>
    cases rest with
    | cons second rest => rfl
    | nil =>
      cases hparams : callback.params with
      | nil => simp [hparams]
      | cons param params =>
        cases params with
        | nil => simp [hparams, attributeTypes?_of_lt ht]
        | cons second params => simp [hparams]

theorem typeCombined?_of_lt {s : Session} {target : StreamId} (ht : target < s.graph.streams.length)
    (call : Invocation) (operator : Operator) :
    s.typeCombined? call operator target = some (s.typeCombined call operator target) := by
  rw [typeCombined?, typeCombined]
  cases call.callbacks with
  | nil => rfl
  | cons callback rest =>
    cases rest with
    | nil => exact attributeTypes?_of_lt ht _ _ _
    | cons second rest => rfl

/-- Callbacks attribute types by the rules, or else only raise what is wrong with them. -/
theorem typeTarget_eq (s : Session) (call : Invocation) (operator : Operator) (target : StreamId) :
    s.typeTarget call operator target =
      match call.typing? operator with
      | some typing => s.attributeTypes target typing.takes typing.gives typing.locator
      | none => s.raise ((call.fault? operator).toList.map (·.diagnostic)) := by
  have hraise : s.raise [] = s := by
    rw [raise, List.append_nil]
  cases operator with
  | into | observe | filter | delay => exact hraise.symm
  | map =>
    rw [typeTarget, typeMap, Invocation.typing?, Invocation.fault?]
    cases call.callbacks with
    | nil => rfl
    | cons callback rest =>
      cases rest with
      | nil =>
        cases hparams : callback.params with
        | nil => simp [hparams, note]
        | cons param params => cases params <;> simp [hparams, note]
      | cons second rest => rfl
  | withLatest | combineLatest =>
    rw [typeTarget, typeCombined, Invocation.typing?, Invocation.fault?, Invocation.extraCallbacks?]
    cases call.callbacks with
    | nil => exact hraise.symm
    | cons callback rest =>
      cases rest with
      | nil => rfl
      | cons second rest => simp [note]

section WellFormed

variable {s : Session} (hs : s.graph.WellFormed)

include hs

theorem typeTarget?_eq (call : Invocation) (operator : Operator) {target : StreamId}
    (ht : target < s.graph.streams.length) :
    s.typeTarget? call operator target = some (s.typeTarget call operator target) ∧
      (s.typeTarget call operator target).graph.WellFormed ∧
      ∀ i, (s.typeTarget call operator target).graph.nameOf? i = s.graph.nameOf? i := by
  have heq : s.typeTarget? call operator target = some (s.typeTarget call operator target) := by
    cases operator with
    | map => exact typeMap?_of_lt ht call
    | withLatest | combineLatest => exact typeCombined?_of_lt ht call _
    | into | observe | filter | delay => rfl
  refine ⟨heq, ?_⟩
  rw [typeTarget_eq]
  cases call.typing? operator with
  | none => exact ⟨hs, fun _ => rfl⟩
  | some typing => exact ⟨(hs.addInput _ _).addOutput _ _, fun i => by simp [attributeTypes]⟩

theorem feed?_eq (call : Invocation) {source : StreamId} {ids : List StreamId}
    (hsource : source < s.graph.streams.length) (hids : ∀ id ∈ ids, id < s.graph.streams.length) :
    s.feed? call source ids = some (s.feed call source ids) ∧
      (s.feed call source ids).1.graph.WellFormed := by
  cases ids with
  | nil => exact ⟨rfl, hs⟩
  | cons target ids =>
    have ht := hids target List.mem_cons_self
    refine ⟨?_, hs.connect hsource ht _⟩
    obtain ⟨t, hstream⟩ := Graph.exists_stream? ht
    rw [feed?, feed, Graph.connect?_of_lt hsource ht, hstream]
    simp [Graph.stream?_connect, hstream]

theorem spawn?_eq (call : Invocation) (operator : Operator) {source : StreamId}
    {ids : List StreamId} (hsource : s.graph.nameOf? source = some call.source)
    (hids : ∀ id ∈ ids, id < s.graph.streams.length) :
    s.spawn? call operator source ids = some (s.spawn call operator source ids) ∧
      (s.spawn call operator source ids).1.graph.WellFormed := by
  obtain ⟨t, hstream, hname⟩ := Graph.nameOf?_eq_some_iff.1 hsource
  have hwf := hs.intern (operator.targetName call.source) call.locator
  have hself := hs.nameOf?_intern_self (operator.targetName call.source) call.locator
  have hold : ∀ i, i < s.graph.streams.length →
      i < (s.graph.intern (operator.targetName call.source) call.locator).1.streams.length := by
    intro i hi
    obtain ⟨r, hr⟩ := Graph.exists_stream? hi
    exact Graph.lt_of_nameOf? (Graph.nameOf?_intern (Graph.nameOf?_eq_some_iff.2 ⟨r, hr, rfl⟩) _ _)
  rw [spawn?, spawn, hstream, Option.bind_eq_bind, Option.bind_some, hname]
  generalize s.graph.intern (operator.targetName call.source) call.locator = r at hwf hself hold
  obtain ⟨g, target⟩ := r
  have ht : target < g.streams.length := Graph.lt_of_nameOf? hself
  obtain ⟨hall, hwf', hlen⟩ := hwf.connectAll? call operator
    (hold source (Graph.lt_of_stream? hstream)) ht fun id hid => hold id (hids id hid)
  have hkeep := g.nameOf?_connectAll call operator source target ids target
  obtain ⟨htype, hwf'', hnames⟩ := typeTarget?_eq
    (s := { s with graph := g.connectAll call operator source target ids }) hwf' call operator
    (hlen ▸ ht)
  obtain ⟨r, hr, hrname⟩ := Graph.nameOf?_eq_some_iff.1 ((hnames target).trans (hkeep.trans hself))
  refine ⟨?_, hwf''⟩
  simp only [hall, htype, hr, hrname, Option.bind_eq_bind, Option.bind_some, Option.pure_def]

theorem declare?_eq (declaration : Declaration) :
    s.declare? declaration = some (s.declare declaration) ∧
      (s.declare declaration).graph.WellFormed := by
  have hwf := hs.intern declaration.name declaration.locator
  have hlt := Graph.lt_of_nameOf? (hs.nameOf?_intern_self declaration.name declaration.locator)
  rw [declare?, declare]
  cases declaration.descriptor with
  | none => exact ⟨rfl, hwf⟩
  | some descriptor =>
    refine ⟨?_, hwf.addInput _ _⟩
    simp only [Graph.addInput?_of_lt hlt]
    rfl

/-- An invocation never comes upon an id out of range, and keeps the graph well-formed. -/
theorem invoke?_eq (call : Invocation) :
    s.invoke? call = some (s.invoke call) ∧ (s.invoke call).1.graph.WellFormed := by
  rw [invoke?, invoke]
  cases hlookup : s.graph.lookup? call.source with
  | none => exact ⟨rfl, hs⟩
  | some source =>
    have hsource := hs.lookup?_eq_some_iff.1 hlookup
    cases Operator.ofToken? call.token with
    | none => exact ⟨rfl, hs⟩
    | some operator =>
      cases hres : s.graph.resolveArguments call operator call.arguments with
      | mk g result =>
        obtain ⟨hwf, hext, hids⟩ := hs.resolveArguments hres
        simp only [hres]
        cases result with
        | error _ => exact ⟨rfl, hwf⟩
        | ok ids =>
          simp only
          split
          · exact feed?_eq (s := { s with graph := g }) hwf call
              (Graph.lt_of_nameOf? (hext _ _ hsource)) (hids ids rfl)
          · obtain ⟨hspawn, hwf'⟩ := spawn?_eq (s := { s with graph := g }) hwf call operator
              (hext _ _ hsource) (hids ids rfl)
            rw [hspawn]
            exact ⟨rfl, hwf'⟩

theorem addEvent?_eq (event : Event) :
    s.addEvent? event = some (s.apply event) ∧ (s.apply event).1.graph.WellFormed := by
  cases event with
  | declare declaration =>
    obtain ⟨hdeclare, hwf⟩ := declare?_eq hs declaration
    rw [addEvent?, hdeclare]
    exact ⟨rfl, hwf⟩
  | invoke call => exact invoke?_eq hs call

/-- Events never come upon an id out of range, up to the first violation and including it. -/
theorem build?_eq (events : List Event) :
    s.build? events = some (s.build events) ∧ (s.build events).1.graph.WellFormed := by
  induction events generalizing s with
  | nil => exact ⟨rfl, hs⟩
  | cons event events ih =>
    obtain ⟨happly, hwf⟩ := addEvent?_eq hs event
    rw [build?, build, happly]
    cases hresult : s.apply event with
    | mk t result =>
      rw [hresult] at hwf
      cases result with
      | error _ => exact ⟨rfl, hwf⟩
      | ok _ => exact ih hwf

end WellFormed

end Session

/-! ## Passing types on -/

/-- `Agenda.push`, unless there is no flag for the id. -/
def Agenda.push? (order : Order) (a : Agenda) (id : StreamId) : Option Agenda :=
  if id < a.queued.length then some (a.push order id) else none

namespace Graph

/-- `Graph.childEdges`, unless the id of an edge is out of range. -/
def childEdges? (g : Graph) (s : Stream) : Option (List Edge) := s.children.mapM g.edge?

/-- `Graph.routes`, unless an id is out of range. -/
def routes? (g : Graph) (id : StreamId) : Option (List (Attribution × StreamId)) := do
  let s ← g.stream? id
  let edges ← g.childEdges? s
  let targets := (edges.filter fun e => !e.weak).map (·.target)
  return s.outputs.flatMap fun a => targets.map fun t => (a, t)

/-- `Graph.agenda`, unless an id is out of range. -/
def agenda? (g : Graph) (order : Order) (seed : List StreamId) : Option Agenda :=
  (seed ++ g.streams.map (·.id)).foldlM (Agenda.push? order) (Agenda.empty g.streams.length)

end Graph

namespace Propagation

/-- `Propagation.offer`, unless an id is out of range. -/
def offer? (order : Order) (p : Propagation) (route : Attribution × StreamId) :
    Option Propagation := do
  let s ← p.graph.stream? route.2
  if s.hasInput route.1.descriptor then return p
  else
    let graph ← p.graph.addInput? route.2 route.1
    let agenda ← p.agenda.push? order route.2
    return { graph, agenda, stats := { p.stats with additions := p.stats.additions + 1 } }

/-- The turn of the stream that has been taken off the agenda, unless an id is out of range. -/
def turn? (order : Order) (p : Propagation) (id : StreamId) (agenda : Agenda) :
    Option Propagation := do
  if id < p.agenda.queued.length then
    let routes ← p.graph.routes? id
    routes.foldlM (offer? order) (p.begin agenda)
  else none

end Propagation

@[simp] theorem Agenda.length_queued_push (order : Order) (a : Agenda) (id : StreamId) :
    (a.push order id).queued.length = a.queued.length := by
  unfold Agenda.push
  split
  · rfl
  · exact List.length_set

theorem Agenda.push?_of_lt {a : Agenda} {id : StreamId} (h : id < a.queued.length) (order : Order) :
    a.push? order id = some (a.push order id) := if_pos h

theorem Agenda.foldlM_push? {ids : List StreamId} {a : Agenda}
    (h : ∀ id ∈ ids, id < a.queued.length) (order : Order) :
    ids.foldlM (Agenda.push? order) a = some (ids.foldl (Agenda.push order) a) := by
  induction ids generalizing a with
  | nil => rfl
  | cons id ids ih =>
    obtain ⟨hid, hids⟩ := List.forall_mem_cons.1 h
    rw [List.foldlM_cons, Agenda.push?_of_lt hid]
    exact ih (by simpa using hids)

namespace Propagation

theorem offer?_eq {p : Propagation} {route : Attribution × StreamId}
    (hgraph : route.2 < p.graph.streams.length) (hagenda : route.2 < p.agenda.queued.length)
    (order : Order) : p.offer? order route = some (p.offer order route) := by
  obtain ⟨s, hs⟩ := Graph.exists_stream? hgraph
  rw [offer?, offer, Graph.lacks, hs]
  cases h : s.hasInput route.1.descriptor with
  | true => simp [h]
  | false => simp [h, Graph.addInput?_of_lt hgraph, Agenda.push?_of_lt hagenda]

theorem offer_lengths (order : Order) (p : Propagation) (route : Attribution × StreamId) :
    (p.offer order route).graph.streams.length = p.graph.streams.length ∧
      (p.offer order route).agenda.queued.length = p.agenda.queued.length := by
  rw [offer]
  split
  · exact ⟨Graph.length_modify _ _ _, Agenda.length_queued_push _ _ _⟩
  · exact ⟨rfl, rfl⟩

theorem foldlM_offer? {routes : List (Attribution × StreamId)} {p : Propagation}
    (hgraph : ∀ r ∈ routes, r.2 < p.graph.streams.length)
    (hagenda : ∀ r ∈ routes, r.2 < p.agenda.queued.length) (order : Order) :
    routes.foldlM (offer? order) p = some (routes.foldl (offer order) p) := by
  induction routes generalizing p with
  | nil => rfl
  | cons r routes ih =>
    obtain ⟨hr, hgraph⟩ := List.forall_mem_cons.1 hgraph
    obtain ⟨hr', hagenda⟩ := List.forall_mem_cons.1 hagenda
    obtain ⟨hlen, hlen'⟩ := p.offer_lengths order r
    rw [List.foldlM_cons, offer?_eq hr hr']
    exact ih (hlen ▸ hgraph) (hlen' ▸ hagenda)

end Propagation

namespace Graph.WellFormed

variable {g : Graph} (hg : g.WellFormed)

include hg

theorem childEdges?_eq {i : StreamId} {s : Stream} (h : g.stream? i = some s) :
    g.childEdges? s = some (g.childEdges s) := by
  refine mapM_eq_some_filterMap fun j hj => ?_
  rw [hg.children_of_stream? h] at hj
  obtain ⟨e, he, rfl⟩ := List.mem_map.1 hj
  rw [hg.edge?_id (List.mem_filter.1 he).1]
  rfl

theorem routes?_eq {id : StreamId} (h : id < g.streams.length) :
    g.routes? id = some (g.routes id) := by
  obtain ⟨s, hs⟩ := exists_stream? h
  rw [routes?, routes, hs, Option.bind_eq_bind, Option.bind_some, hg.childEdges?_eq hs]
  rfl

theorem lt_of_mem_routes {id : StreamId} {route : Attribution × StreamId}
    (h : route ∈ g.routes id) : route.2 < g.streams.length := by
  rw [hg.routes_eq] at h
  obtain ⟨e, he, -, -, htarget⟩ := mem_strongChildren.1 (mem_offersOf.1 h).2
  exact htarget ▸ (hg.ends e he).2

/-- The agenda at the start never asks for a flag that is not there. -/
theorem agenda?_eq {seed : List StreamId} (hseed : ∀ id ∈ seed, id < g.streams.length)
    (order : Order) : g.agenda? order seed = some (g.agenda order seed) := by
  refine Agenda.foldlM_push? (fun id hid => ?_) order
  rw [Agenda.empty, List.length_replicate]
  rcases List.mem_append.1 hid with hid | hid
  · exact hseed id hid
  · rw [hg.stream_ids] at hid
    exact List.mem_range.1 hid

/-- No turn of a propagation comes upon an id out of range. -/
theorem turn?_eq {order : Order} {seed had : List StreamId} {p : Propagation} {id : StreamId}
    {agenda : Agenda} (hseed : ∀ id ∈ seed, id < g.streams.length)
    (hreach : Propagation.Reaches order (g.start order seed) had p)
    (hpop : p.agenda.pop? = some (id, agenda)) : p.turn? order id agenda = p.next? order := by
  have hprogress := hreach.progress hg hseed
  have hwf := hprogress.wellFormed hg
  have hlen : p.graph.streams.length = g.streams.length := by
    rw [hprogress.graph_eq, length_sweep]
  obtain ⟨hsound, -, hid⟩ := hprogress.sound.pop? hpop
  have hnext : p.next? order = some ((p.begin agenda).visit order id) := by
    rw [Propagation.next?, hpop]
    rfl
  rw [Propagation.turn?, hnext, if_pos (by rwa [hprogress.sound.length_queued]),
    hwf.routes?_eq (by rwa [hlen])]
  refine Propagation.foldlM_offer? (p := p.begin agenda) (fun r hr => hwf.lt_of_mem_routes hr)
    (fun r hr => ?_) order
  show r.2 < agenda.queued.length
  rw [hsound.length_queued, ← hlen]
  exact hwf.lt_of_mem_routes hr

end Graph.WellFormed

/-! ## Looking for conflicts -/

/-- The part of a list from a position on, unless the list ends before it. -/
def suffix? {α : Type} (l : List α) (i : Nat) : Option (List α) :=
  if i ≤ l.length then some (l.drop i) else none

/-- The pairs of a type with the different ones among those behind it. -/
def conflictsWith (a : Attribution) (rest : List Attribution) : List (Attribution × Attribution) :=
  (rest.filter fun b => a.descriptor ≠ b.descriptor).map fun b => (a, b)

/-- `conflicts`, unless the types behind a position are asked for where the list ends before it. -/
def conflicts? (l : List Attribution) : Option (List (Attribution × Attribution)) := do
  let found ← l.zipIdx.mapM fun p => (suffix? l (p.2 + 1)).map (conflictsWith p.1)
  return found.flatten

/-- `Stream.findings`, unless a position is out of range. -/
def Stream.findings? (s : Stream) : Option (List Finding) := do
  let found ← conflicts? s.inputs
  return (found.map fun p => .mismatch s.name p.1 p.2) ++
    if s.inputs.isEmpty then [.untyped s.name s.locator] else []

/-- `Graph.findings`, unless a position is out of range. -/
def Graph.findings? (g : Graph) : Option (List Finding) := do
  let found ← g.streams.mapM (·.findings?)
  return found.flatten

/-- `Session.verify`, unless a position is out of range. -/
def Session.verify? (s : Session) : Option Session := do
  let found ← s.graph.findings?
  let s := s.raise (found.map (·.diagnostic))
  return { s with status := if s.diagnostics.isEmpty then .success else .fail }

theorem suffix?_of_le {α : Type} {l : List α} {i : Nat} (h : i ≤ l.length) :
    suffix? l i = some (l.drop i) := if_pos h

/-- The conflicts are those of every position with the positions behind it. -/
theorem conflicts_eq_flatMap (l : List Attribution) :
    conflicts l = l.zipIdx.flatMap fun p => conflictsWith p.1 (l.drop (p.2 + 1)) := by
  induction l with
  | nil => rfl
  | cons a l ih =>
    rw [conflicts, ih, List.zipIdx_cons, List.flatMap_cons, Nat.zero_add, List.zipIdx_succ,
      List.flatMap_map]
    rfl

theorem conflicts?_eq (l : List Attribution) : conflicts? l = some (conflicts l) := by
  have hfound : ∀ p ∈ l.zipIdx, (suffix? l (p.2 + 1)).map (conflictsWith p.1) =
      some (conflictsWith p.1 (l.drop (p.2 + 1))) := by
    intro p hp
    rw [suffix?_of_le (List.snd_lt_of_mem_zipIdx hp)]
    rfl
  rw [conflicts?, mapM_eq_some_map hfound, conflicts_eq_flatMap, List.flatMap_def]
  rfl

theorem Stream.findings?_eq (s : Stream) : s.findings? = some s.findings := by
  rw [findings?, conflicts?_eq]
  rfl

/-- No verdict comes upon a position out of range. -/
theorem Session.verify?_eq (s : Session) : s.verify? = some s.verify := by
  have hfound : s.graph.findings? = some s.graph.findings := by
    rw [Graph.findings?, mapM_eq_some_map fun t _ => t.findings?_eq, Graph.findings,
      List.flatMap_def]
    rfl
  rw [verify?, hfound]
  rfl

/-! ## Gathering the edges for a report -/

namespace Graph

/-- `Graph.edgeRecords`, unless an id is out of range. -/
def edgeRecords? (g : Graph) (s : Stream) : Option (List EdgeRecord) := do
  let s ← g.stream? s.id
  let edges ← g.childEdges? s
  edges.mapM fun e => (g.stream? e.target).map fun t => ⟨e.operator, e.weak, t.name⟩

/-- `Graph.adjacency`, unless an id is out of range. -/
def adjacency? (g : Graph) : Option (Dict (List EdgeRecord)) := do
  let entries ← g.streams.mapM fun s => (g.edgeRecords? s).map fun records => (s.name, records)
  return Dict.ofList (entries.filter fun p => !p.2.isEmpty)

namespace WellFormed

variable {g : Graph} (hg : g.WellFormed)

include hg

theorem edgeRecords?_eq {s : Stream} (h : s ∈ g.streams) :
    g.edgeRecords? s = some (g.edgeRecords s) := by
  have hs := hg.stream?_id h
  rw [edgeRecords?, hs, Option.bind_eq_bind, Option.bind_some, hg.childEdges?_eq hs]
  refine mapM_eq_some_filterMap fun e he => ?_
  rw [hg.childEdges_eq hs] at he
  obtain ⟨t, ht⟩ := exists_stream? (hg.ends e (List.mem_filter.1 he).1).2
  rw [ht]
  rfl

theorem adjacency?_eq : g.adjacency? = some g.adjacency := by
  have hentries :
      g.streams.mapM (fun s => (g.edgeRecords? s).map fun records => (s.name, records)) =
        some (g.streams.map fun s => (s.name, g.edgeRecords s)) := by
    refine mapM_eq_some_map fun s hs => ?_
    rw [hg.edgeRecords?_eq hs]
    rfl
  rw [adjacency?, hentries]
  rfl

end WellFormed

end Graph

/-! ## Drawing a stream -/

/-- `Stream.colour`, unless the first type is asked for where there is none. Every type asks for
it. -/
def Stream.colour? (s : Stream) : Option Colour := do
  let agree ← s.inputs.mapM fun a =>
    (s.inputs[0]?).map fun first => decide (a.descriptor = first.descriptor)
  return if s.inputs.isEmpty then .gray else if agree.all (· = true) then .blue else .salmon

theorem Stream.colour?_eq (s : Stream) : s.colour? = some s.colour := by
  rw [colour?, colour]
  cases s.inputs with
  | nil => rfl
  | cons first rest =>
    have hagree : ∀ a ∈ first :: rest, ((first :: rest)[0]?).map
        (fun first => decide (a.descriptor = first.descriptor)) =
        some (decide (a.descriptor = first.descriptor)) := fun _ _ => rfl
    -- The first type agrees with itself.
    have hall : ((first :: rest).map fun a => decide (a.descriptor = first.descriptor)).all
        (· = true) = rest.all fun a => a.descriptor = first.descriptor := by
      simp [List.all_map, Function.comp_def]
    rw [mapM_eq_some_map hagree, Option.bind_eq_bind, Option.bind_some, hall]
    rfl

end StreamTyping
