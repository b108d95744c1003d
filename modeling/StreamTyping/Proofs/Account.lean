import StreamTyping.Proofs.WellFormed
import StreamTyping.Session.Build

/-!
# What events tell

An event tells the same whatever was told before it: which streams it speaks
of, which edges it draws between streams of which names, which types it
attributes to them and what is wrong with it. An `Account` gathers this, and
the accounts of events are put together by appending them.

* `Event.mentions`, `Event.links`, `Event.takes`, `Event.gives` and
  `Event.faults`: what one event tells.
* `Account.ofEvents`: what a list of events tells.
* `Graph.Follows`: a graph is what an account tells. Adding a stream, an edge or
  a type to a graph adds it to the account that the graph follows.
-/

namespace StreamTyping

/-! ## One event -/

/-- The stream that an argument speaks of. -/
def Argument.streamName? : Argument → Option String
  | .stream n | .name n => some n
  | .number _ | .callback _ => none

/-- The stream that an argument may bring in. -/
def Argument.newName? : Argument → Option String
  | .name n => some n
  | .stream _ | .number _ | .callback _ => none

/-- An edge, told by the names of its ends. -/
structure Link extends EdgeLabel where
  source : String
  target : String
deriving DecidableEq

/-- The types that a callback attributes to the stream that an invocation makes. -/
structure Typing where
  takes : Descriptor
  gives : Descriptor
  locator : Option Locator
deriving DecidableEq

namespace Invocation

/-- The streams that the arguments of an invocation speak of. -/
def streamNames (call : Invocation) : List String := call.arguments.filterMap (·.streamName?)

/-- The streams that the arguments of an invocation may bring in. -/
def newNames (call : Invocation) : List String := call.arguments.filterMap (·.newName?)

/-- What the callback of an invocation says, if the operator takes it: `map` takes a single
callback with a single parameter, `with` and `any` a single callback. -/
def typing? (call : Invocation) : Operator → Option Typing
  | .map =>
    match call.callbacks with
    | [callback] =>
      match callback.params with
      | [param] => some ⟨param, callback.returns, call.callbackLocator callback⟩
      | _ => none
    | _ => none
  | .withLatest | .combineLatest =>
    match call.callbacks with
    | [callback] =>
      some ⟨.tuple callback.params, callback.returns, call.callbackLocator callback⟩
    | _ => none
  | .into | .observe | .filter | .delay => none

/-- What is wrong with an invocation of an operator that takes one callback or none. -/
def extraCallbacks? (call : Invocation) (operator : Operator) : Option Finding :=
  if call.callbacks.length ≤ 1 then none
  else some (.extraCallbacks operator call.callbacks.length call.locator)

/-- What is wrong with the callbacks of an invocation. -/
def fault? (call : Invocation) : Operator → Option Finding
  | .map =>
    match call.callbacks with
    | [] => some (.missingCallback call.locator)
    | [callback] =>
      if callback.params.length = 1 then none
      else some (.parameterCount callback.params.length (call.callbackLocator callback))
    | callbacks => some (.extraCallbacks .map callbacks.length call.locator)
  | .withLatest => call.extraCallbacks? .withLatest
  | .combineLatest => call.extraCallbacks? .combineLatest
  | .into | .observe | .filter | .delay => none

/-- The edges of an invocation: that of `to` leads to its first stream argument, those of
another operator lead to the stream that it makes. -/
def links (call : Invocation) (operator : Operator) : List Link :=
  if operator = .into then
    (call.streamNames.take 1).map fun target =>
      { operator := .into, locator := call.locator, source := call.source, target }
  else
    let target := operator.targetName call.source
    let label : EdgeLabel := { operator, literal := call.literal, locator := call.locator }
    { label with source := call.source, target } :: call.streamNames.map fun source =>
      { label with weak := operator = .withLatest, source, target }

end Invocation

namespace Event

/-- Where an event is. -/
def locator : Event → Option Locator
  | .declare declaration => declaration.locator
  | .invoke call => call.locator

/-- The streams that an event adds if they are new. -/
def mentions : Event → List String
  | .declare declaration => [declaration.name]
  | .invoke call =>
    match Operator.ofToken? call.token with
    | none | some .into => []
    | some operator => call.newNames ++ [operator.targetName call.source]

/-- The edges that an event draws. -/
def links : Event → List Link
  | .declare _ => []
  | .invoke call => (Operator.ofToken? call.token).elim [] call.links

/-- The callback that an event takes, and the stream that it is about. -/
def typing? : Event → Option (String × Typing)
  | .declare _ => none
  | .invoke call =>
    (Operator.ofToken? call.token).bind fun operator =>
      (call.typing? operator).map fun typing => (operator.targetName call.source, typing)

/-- The types that streams take because of an event. -/
def takes : Event → List (String × Attribution)
  | .declare declaration =>
    declaration.descriptor.toList.map fun descriptor =>
      (declaration.name, ⟨descriptor, .explicitDeclaration, declaration.locator⟩)
  | event =>
    event.typing?.toList.map fun p => (p.1, ⟨p.2.takes, .callbackInput, p.2.locator⟩)

/-- The types that streams give because of an event. -/
def gives (event : Event) : List (String × Attribution) :=
  event.typing?.toList.map fun p => (p.1, ⟨p.2.gives, .callbackOutput, p.2.locator⟩)

/-- What is wrong with an event. -/
def faults : Event → List Finding
  | .declare _ => []
  | .invoke call =>
    match Operator.ofToken? call.token with
    | none => [.unknownOperator call.token call.locator]
    | some operator => (call.fault? operator).toList

end Event

/-! ## Many events -/

/-- What events tell: the streams they mention, each with the place of the mention, the edges
they draw, the types that streams take and give, and what is wrong with the events. -/
@[ext] structure Account where
  mentions : List (String × Option Locator) := []
  links : List Link := []
  takes : List (String × Attribution) := []
  gives : List (String × Attribution) := []
  faults : List Finding := []

/-- The entries of one stream. -/
def entriesOf (name : String) (entries : List (String × Attribution)) : List Attribution :=
  (entries.filter fun p => p.1 = name).map (·.2)

namespace Account

instance : Append Account where
  append a b :=
    { mentions := a.mentions ++ b.mentions
      links := a.links ++ b.links
      takes := a.takes ++ b.takes
      gives := a.gives ++ b.gives
      faults := a.faults ++ b.faults }

@[simp] theorem append_mentions (a b : Account) :
    (a ++ b).mentions = a.mentions ++ b.mentions := rfl
@[simp] theorem append_links (a b : Account) : (a ++ b).links = a.links ++ b.links := rfl
@[simp] theorem append_takes (a b : Account) : (a ++ b).takes = a.takes ++ b.takes := rfl
@[simp] theorem append_gives (a b : Account) : (a ++ b).gives = a.gives ++ b.gives := rfl
@[simp] theorem append_faults (a b : Account) : (a ++ b).faults = a.faults ++ b.faults := rfl

theorem append_assoc (a b c : Account) : a ++ b ++ c = a ++ (b ++ c) := by
  ext1 <;> simp

theorem append_empty (a : Account) : a ++ {} = a := by
  ext1 <;> simp

theorem empty_append (a : Account) : {} ++ a = a := by
  ext1 <;> simp

/-- What one event tells. -/
def ofEvent (event : Event) : Account where
  mentions := event.mentions.map fun name => (name, event.locator)
  links := event.links
  takes := event.takes
  gives := event.gives
  faults := event.faults

/-- What a list of events tells. -/
def ofEvents : List Event → Account
  | [] => {}
  | event :: events => ofEvent event ++ ofEvents events

/-- A list that accounts append to is gathered from the events one by one. -/
theorem ofEvents_gather {α : Type} {f : Account → List α} (hempty : f {} = [])
    (happend : ∀ a b, f (a ++ b) = f a ++ f b) (events : List Event) :
    f (ofEvents events) = events.flatMap fun event => f (ofEvent event) := by
  induction events with
  | nil => exact hempty
  | cons event events ih => rw [ofEvents, happend, ih, List.flatMap_cons]

theorem ofEvents_links (events : List Event) :
    (ofEvents events).links = events.flatMap (·.links) :=
  ofEvents_gather rfl append_links events

theorem ofEvents_takes (events : List Event) :
    (ofEvents events).takes = events.flatMap (·.takes) :=
  ofEvents_gather rfl append_takes events

theorem ofEvents_gives (events : List Event) :
    (ofEvents events).gives = events.flatMap (·.gives) :=
  ofEvents_gather rfl append_gives events

theorem ofEvents_faults (events : List Event) :
    (ofEvents events).faults = events.flatMap (·.faults) :=
  ofEvents_gather rfl append_faults events

theorem map_ofEvents_mentions (events : List Event) :
    (ofEvents events).mentions.map (·.1) = events.flatMap (·.mentions) := by
  rw [ofEvents_gather (f := fun a => a.mentions.map (·.1)) rfl fun a b => List.map_append]
  simp [ofEvent, Function.comp_def]

theorem lookup_ofEvent_mentions (event : Event) (name : String) :
    (ofEvent event).mentions.lookup name =
      if name ∈ event.mentions then some event.locator else none := by
  rw [ofEvent]
  induction event.mentions with
  | nil => rfl
  | cons n names ih =>
    rw [List.map_cons, List.lookup_cons, ih]
    by_cases h : name = n
    · simp [h]
    · simp [h, beq_eq_false_iff_ne.2 h]

/-- The place of the first mention of a stream is that of the first event that mentions it. -/
theorem find?_of_lookup_mentions {events : List Event} {name : String} {locator : Option Locator}
    (h : (ofEvents events).mentions.lookup name = some locator) :
    ∃ event, events.find? (fun e => name ∈ e.mentions) = some event ∧ locator = event.locator := by
  induction events with
  | nil => cases h
  | cons event events ih =>
    rw [ofEvents, append_mentions, List.lookup_append, lookup_ofEvent_mentions] at h
    by_cases hmem : name ∈ event.mentions
    · rw [if_pos hmem] at h
      exact ⟨event, List.find?_cons_of_pos (decide_eq_true hmem), (Option.some.inj h).symm⟩
    · rw [if_neg hmem, Option.none_or] at h
      rw [List.find?_cons_of_neg (by simpa using hmem)]
      exact ih h

end Account

/-! ## Graphs that follow an account -/

theorem entriesOf_concat (name n : String) (l : List (String × Attribution)) (a : Attribution) :
    entriesOf name (l ++ [(n, a)]) = entriesOf name l ++ if n = name then [a] else [] := by
  rw [entriesOf, entriesOf, List.filter_append, List.map_append]
  by_cases h : n = name <;> simp [h]

theorem entriesOf_eq_nil {name : String} {l : List (String × Attribution)}
    (h : ∀ p ∈ l, p.1 ≠ name) : entriesOf name l = [] := by
  rw [entriesOf, List.filter_eq_nil_iff.2 fun p hp => by simpa using h p hp, List.map_nil]

/-- A list that a partial function maps as a whole is mapped alike by what extends it. -/
theorem map_eq_of_extends {α β : Type} {f k : α → Option β} {l : List α} {r : List β}
    (hk : ∀ x y, f x = some y → k x = some y) (h : l.map f = r.map some) :
    l.map k = r.map some := by
  rw [← h]
  refine List.map_congr_left fun x hx => ?_
  have hmem : f x ∈ r.map some := h ▸ List.mem_map_of_mem hx
  obtain ⟨y, -, hy⟩ := List.mem_map.1 hmem
  rw [← hy, hk x y hy.symm]

namespace Graph

/-- An edge, told by the names of its ends. -/
def link? (g : Graph) (e : Edge) : Option Link :=
  (g.nameOf? e.source).bind fun source =>
    (g.nameOf? e.target).map fun target => { e.toEdgeLabel with source, target }

theorem link?_eq_some {g : Graph} {e : Edge} {source target : String}
    (hs : g.nameOf? e.source = some source) (ht : g.nameOf? e.target = some target) :
    g.link? e = some { e.toEdgeLabel with source, target } := by
  rw [link?, hs, ht]
  rfl

theorem link?_eq_some_iff {g : Graph} {e : Edge} {link : Link} :
    g.link? e = some link ↔ g.nameOf? e.source = some link.source ∧
      g.nameOf? e.target = some link.target ∧ e.toEdgeLabel = link.toEdgeLabel := by
  constructor
  · intro h
    obtain ⟨source, hs, h⟩ := Option.bind_eq_some_iff.1 h
    obtain ⟨target, ht, rfl⟩ := Option.map_eq_some_iff.1 h
    exact ⟨hs, ht, rfl⟩
  · rintro ⟨hs, ht, hlabel⟩
    rw [link?_eq_some hs ht, hlabel]

/-- A graph is what an account tells: its streams are those mentioned, in the order of their
first mentions, with the places of these and the types told of them, and its edges are
those told. -/
structure Follows (g : Graph) (a : Account) : Prop where
  wellFormed : g.WellFormed
  names : g.streams.map (·.name) = (a.mentions.map (·.1)).eraseDups
  locators : ∀ i s, g.stream? i = some s → a.mentions.lookup s.name = some s.locator
  inputs : ∀ i s, g.stream? i = some s → s.inputs = entriesOf s.name a.takes
  outputs : ∀ i s, g.stream? i = some s → s.outputs = entriesOf s.name a.gives
  links : g.edges.map g.link? = a.links.map some
  takes_mentioned : ∀ p ∈ a.takes, p.1 ∈ a.mentions.map (·.1)
  gives_mentioned : ∀ p ∈ a.gives, p.1 ∈ a.mentions.map (·.1)

theorem follows_empty : Follows {} {} := by
  constructor <;> simp [wellFormed_empty, stream?]

namespace Follows

variable {g : Graph} {a : Account} (h : g.Follows a)

include h

theorem mem_names {name : String} : name ∈ g.names ↔ name ∈ a.mentions.map (·.1) := by
  rw [h.wellFormed.mem_names, h.names, List.mem_eraseDups]

theorem lookup?_eq_none_iff {name : String} :
    g.lookup? name = none ↔ name ∉ a.mentions.map (·.1) := by
  rw [Graph.lookup?_eq_none_iff, h.mem_names]

theorem mentioned {i : StreamId} {name : String} (hi : g.nameOf? i = some name) :
    name ∈ a.mentions.map (·.1) := by
  rw [nameOf?_eq_getElem?, h.names] at hi
  exact List.mem_eraseDups.1 (List.mem_of_getElem? hi)

/-- What is wrong with the events does not show in the graph. -/
theorem withFaults (faults : List Finding) : g.Follows { a with faults } :=
  ⟨h.wellFormed, h.names, h.locators, h.inputs, h.outputs, h.links, h.takes_mentioned,
    h.gives_mentioned⟩

/-- Every edge is a link that is told. -/
theorem exists_link {e : Edge} (he : e ∈ g.edges) :
    ∃ link ∈ a.links, g.nameOf? e.source = some link.source ∧
      g.nameOf? e.target = some link.target ∧ e.toEdgeLabel = link.toEdgeLabel := by
  have hmem : g.link? e ∈ a.links.map some := h.links ▸ List.mem_map_of_mem he
  obtain ⟨link, hlink, heq⟩ := List.mem_map.1 hmem
  exact ⟨link, hlink, link?_eq_some_iff.1 heq.symm⟩

/-- Every link that is told is an edge. -/
theorem exists_edge {link : Link} (hlink : link ∈ a.links) :
    ∃ e ∈ g.edges, g.nameOf? e.source = some link.source ∧
      g.nameOf? e.target = some link.target ∧ e.toEdgeLabel = link.toEdgeLabel := by
  have hmem : some link ∈ g.edges.map g.link? := h.links ▸ List.mem_map_of_mem hlink
  obtain ⟨e, he, heq⟩ := List.mem_map.1 hmem
  exact ⟨e, he, link?_eq_some_iff.1 heq⟩

/-- The edges read the same in a graph in which their ends have the same names. -/
theorem map_link? {k : Graph} (hk : ∀ i name, g.nameOf? i = some name → k.nameOf? i = some name) :
    g.edges.map k.link? = a.links.map some := by
  refine map_eq_of_extends (fun e link he => ?_) h.links
  obtain ⟨hs, ht, hlabel⟩ := link?_eq_some_iff.1 he
  exact link?_eq_some_iff.2 ⟨hk _ _ hs, hk _ _ ht, hlabel⟩

/-- Adding a stream adds a mention. -/
theorem intern (name : String) (locator : Option Locator) :
    (g.intern name locator).1.Follows { a with mentions := a.mentions ++ [(name, locator)] } := by
  have hwf := h.wellFormed.intern name locator
  have hlinks := h.map_link? fun i n hi => nameOf?_intern hi name locator
  have hsub : ∀ n ∈ a.mentions.map (·.1), n ∈ (a.mentions ++ [(name, locator)]).map (·.1) := by
    intro n hn
    rw [List.map_append]
    exact List.mem_append_left _ hn
  have hold : ∀ i s, g.stream? i = some s →
      (a.mentions ++ [(name, locator)]).lookup s.name = some s.locator := by
    intro i s hs
    rw [List.lookup_append, h.locators i s hs]
    rfl
  have htakes := fun p hp => hsub _ (h.takes_mentioned p hp)
  have hgives := fun p hp => hsub _ (h.gives_mentioned p hp)
  have hnames : (g.intern name locator).1.streams.map (·.name) =
      ((a.mentions ++ [(name, locator)]).map (·.1)).eraseDups := by
    rw [List.map_append, List.map_singleton, eraseDups_concat, ← h.names]
    cases hl : g.lookup? name with
    | some id =>
      rw [intern_of_lookup? hl, if_pos (h.mentioned (h.wellFormed.lookup?_eq_some_iff.1 hl))]
    | none =>
      rw [intern_of_lookup?_none hl, if_neg (h.lookup?_eq_none_iff.1 hl), List.map_append]
      rfl
  cases hl : g.lookup? name with
  | some id =>
    rw [intern_of_lookup? hl] at hwf hlinks hnames ⊢
    exact ⟨hwf, hnames, hold, h.inputs, h.outputs, hlinks, htakes, hgives⟩
  | none =>
    have hnew := h.lookup?_eq_none_iff.1 hl
    refine ⟨hwf, hnames, fun i s hs => ?_, fun i s hs => ?_, fun i s hs => ?_, ?_, htakes, hgives⟩
    · rcases stream?_intern hl hs with hs | rfl
      · exact hold i s hs
      · have hnone : a.mentions.lookup name = none :=
          List.lookup_eq_none_iff.2 fun p hp => bne_iff_ne.2 fun heq => hnew (by
            rw [heq]
            exact List.mem_map_of_mem hp)
        rw [List.lookup_append, hnone]
        simp
    · rcases stream?_intern hl hs with hs | rfl
      · exact h.inputs i s hs
      · have hnone : ∀ p ∈ a.takes, p.1 ≠ name := fun p hp heq => hnew (heq ▸ h.takes_mentioned p hp)
        exact (entriesOf_eq_nil hnone).symm
    · rcases stream?_intern hl hs with hs | rfl
      · exact h.outputs i s hs
      · have hnone : ∀ p ∈ a.gives, p.1 ≠ name := fun p hp heq => hnew (heq ▸ h.gives_mentioned p hp)
        exact (entriesOf_eq_nil hnone).symm
    · rw [intern_of_lookup?_none hl] at hlinks ⊢
      exact hlinks

/-- Adding an edge adds a link. -/
theorem connect {i j : StreamId} {source target : String} (hi : g.nameOf? i = some source)
    (hj : g.nameOf? j = some target) (label : EdgeLabel) :
    (g.connect i j label).Follows
      { a with links := a.links ++ [{ label with source, target }] } := by
  have hname : ∀ k name, g.nameOf? k = some name → (g.connect i j label).nameOf? k = some name :=
    fun k name hk => by rw [nameOf?_connect, hk]
  refine ⟨h.wellFormed.connect (lt_of_nameOf? hi) (lt_of_nameOf? hj) label, ?_,
    fun k s hs => ?_, fun k s hs => ?_, fun k s hs => ?_, ?_, h.takes_mentioned, h.gives_mentioned⟩
  · rw [map_streams_connect fun _ _ _ => rfl]
    exact h.names
  · rw [stream?_connect] at hs
    obtain ⟨r, hr, rfl⟩ := Option.map_eq_some_iff.1 hs
    exact h.locators k r hr
  · rw [stream?_connect] at hs
    obtain ⟨r, hr, rfl⟩ := Option.map_eq_some_iff.1 hs
    exact h.inputs k r hr
  · rw [stream?_connect] at hs
    obtain ⟨r, hr, rfl⟩ := Option.map_eq_some_iff.1 hs
    exact h.outputs k r hr
  · rw [connect_edges, List.map_append, List.map_append, h.map_link? hname, List.map_singleton,
      List.map_singleton, link?_eq_some (hname i source hi) (hname j target hj)]

theorem name_eq_iff {i k : StreamId} {name : String} {s : Stream} (hi : g.nameOf? i = some name)
    (hs : g.stream? k = some s) : name = s.name ↔ i = k := by
  have hk : g.nameOf? k = some s.name := nameOf?_eq_some_iff.2 ⟨s, hs, rfl⟩
  constructor
  · intro heq
    exact h.wellFormed.nameOf?_inj hi (heq ▸ hk)
  · intro heq
    rw [heq, hk] at hi
    exact (Option.some.inj hi).symm

/-- A change to the types of one stream is followed by an account that tells these types. -/
theorem modify {f : Stream → Stream} {i : StreamId} {b : Account}
    (hf : ∀ s, ∃ inputs outputs, f s = { s with inputs, outputs })
    (hb : b.mentions = a.mentions ∧ b.links = a.links)
    (hin : ∀ k s, g.stream? k = some s →
      (if i = k then f s else s).inputs = entriesOf s.name b.takes)
    (hout : ∀ k s, g.stream? k = some s →
      (if i = k then f s else s).outputs = entriesOf s.name b.gives)
    (htakes : ∀ p ∈ b.takes, p.1 ∈ a.mentions.map (·.1))
    (hgives : ∀ p ∈ b.gives, p.1 ∈ a.mentions.map (·.1)) : (g.modify i f).Follows b := by
  have hkeep : ∀ s, (f s).id = s.id ∧ (f s).name = s.name ∧ (f s).locator = s.locator ∧
      (f s).children = s.children ∧ (f s).parents = s.parents := by
    intro s
    obtain ⟨inputs, outputs, hs⟩ := hf s
    rw [hs]
    exact ⟨rfl, rfl, rfl, rfl, rfl⟩
  have hstream : ∀ k s, (g.modify i f).stream? k = some s → ∃ r, g.stream? k = some r ∧
      s = if i = k then f r else r := by
    intro k s hs
    rw [stream?_modify] at hs
    split at hs
    · rename_i hik
      obtain ⟨r, hr, rfl⟩ := Option.map_eq_some_iff.1 hs
      exact ⟨r, hr, (if_pos hik).symm⟩
    · rename_i hik
      exact ⟨s, hs, (if_neg hik).symm⟩
  have hsame : ∀ k r, (if i = k then f r else r).name = r.name ∧
      (if i = k then f r else r).locator = r.locator := by
    intro k r
    split
    · exact ⟨(hkeep r).2.1, (hkeep r).2.2.1⟩
    · exact ⟨rfl, rfl⟩
  refine ⟨h.wellFormed.modify (fun s => ⟨(hkeep s).1, (hkeep s).2.1, (hkeep s).2.2.2⟩) i, ?_,
    fun k s hs => ?_, fun k s hs => ?_, fun k s hs => ?_, ?_, hb.1 ▸ htakes, hb.1 ▸ hgives⟩
  · rw [map_streams_modify fun s => (hkeep s).2.1, hb.1]
    exact h.names
  · obtain ⟨r, hr, rfl⟩ := hstream k s hs
    rw [(hsame k r).1, (hsame k r).2, hb.1]
    exact h.locators k r hr
  · obtain ⟨r, hr, rfl⟩ := hstream k s hs
    rw [(hsame k r).1]
    exact hin k r hr
  · obtain ⟨r, hr, rfl⟩ := hstream k s hs
    rw [(hsame k r).1]
    exact hout k r hr
  · rw [hb.2]
    exact h.map_link? fun k n hk => by rw [nameOf?_modify fun s => (hkeep s).2.1, hk]

/-- Attributing a type that a stream takes adds it to what streams take. -/
theorem addInput {i : StreamId} {name : String} (hi : g.nameOf? i = some name) (x : Attribution) :
    (g.addInput i x).Follows { a with takes := a.takes ++ [(name, x)] } := by
  refine h.modify ?_ ⟨rfl, rfl⟩ (fun k s hs => ?_) (fun k s hs => ?_) (fun p hp => ?_)
    h.gives_mentioned
  · exact fun s => ⟨s.inputs ++ [x], s.outputs, rfl⟩
  · rw [entriesOf_concat, ← h.inputs k s hs]
    by_cases hik : i = k
    · rw [if_pos hik, if_pos ((h.name_eq_iff hi hs).2 hik)]
    · rw [if_neg hik, if_neg (mt (h.name_eq_iff hi hs).1 hik), List.append_nil]
  · rw [← h.outputs k s hs]
    split <;> rfl
  · rcases List.mem_append.1 hp with hp | hp
    · exact h.takes_mentioned p hp
    · rw [List.mem_singleton.1 hp]
      exact h.mentioned hi

/-- Attributing a type that a stream gives adds it to what streams give. -/
theorem addOutput {i : StreamId} {name : String} (hi : g.nameOf? i = some name) (x : Attribution) :
    (g.addOutput i x).Follows { a with gives := a.gives ++ [(name, x)] } := by
  refine h.modify ?_ ⟨rfl, rfl⟩ (fun k s hs => ?_) (fun k s hs => ?_) h.takes_mentioned
    (fun p hp => ?_)
  · exact fun s => ⟨s.inputs, s.outputs ++ [x], rfl⟩
  · rw [← h.inputs k s hs]
    split <;> rfl
  · rw [entriesOf_concat, ← h.outputs k s hs]
    by_cases hik : i = k
    · rw [if_pos hik, if_pos ((h.name_eq_iff hi hs).2 hik)]
    · rw [if_neg hik, if_neg (mt (h.name_eq_iff hi hs).1 hik), List.append_nil]
  · rcases List.mem_append.1 hp with hp | hp
    · exact h.gives_mentioned p hp
    · rw [List.mem_singleton.1 hp]
      exact h.mentioned hi

end Follows

/-! ## The arguments of an invocation -/

/-- What the arguments behind one that leads to the stream `id` give, with that stream first. -/
def prepend (id : StreamId) (r : Graph × Except Violation (List StreamId)) :
    Graph × Except Violation (List StreamId) :=
  (r.1, r.2.map (id :: ·))

theorem WellFormed.resolve_ok {g : Graph} (hg : g.WellFormed) {call : Invocation} {name : String}
    {id : StreamId} (h : g.resolve call name = .ok id) : g.nameOf? id = some name := by
  rw [resolve] at h
  split at h
  · rename_i i hi
    cases h
    exact hg.lookup?_eq_some_iff.1 hi
  · cases h

section ResolveArguments

variable (g : Graph) (call : Invocation) (operator : Operator) (n : String) (rest : List Argument)

theorem resolveArguments_stream_of_ok {id : StreamId} (h : g.resolve call n = .ok id) :
    g.resolveArguments call operator (.stream n :: rest) =
      prepend id (g.resolveArguments call operator rest) := by
  rw [resolveArguments, h]
  rfl

theorem resolveArguments_stream_of_error {v : Violation} (h : g.resolve call n = .error v) :
    g.resolveArguments call operator (.stream n :: rest) = (g, .error v) := by
  rw [resolveArguments, h]

/-- A name that may not bring its stream in is like the stream itself. -/
theorem resolveArguments_name_into :
    g.resolveArguments call .into (.name n :: rest) =
      g.resolveArguments call .into (.stream n :: rest) := rfl

theorem resolveArguments_name {operator : Operator} (h : operator ≠ .into) :
    g.resolveArguments call operator (.name n :: rest) =
      prepend (g.intern n call.locator).2
        ((g.intern n call.locator).1.resolveArguments call operator rest) := by
  rw [resolveArguments, if_neg h]
  rfl

end ResolveArguments

end Graph

end StreamTyping
