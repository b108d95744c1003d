import StreamTyping.Proofs.Confluence
import StreamTyping.Proofs.Simulation

/-!
# Propagating early

A list of events may be built in chunks, and types may be passed on after each
chunk. This does no harm. A build does not look at the types that streams take,
and a type that is passed on early would have been passed on in the end, as the
edges and the types that streams give are still there.

* `Graph.skeleton`: a graph without the types that its streams take. All ways
  of adding to a graph can be seen on it.
* `Graph.Ahead`: a graph in which some types have been passed on early.
  `Session.Ahead.build`: a build keeps it, and comes to the same violation.
* `Session.applied`: how many events are added before a violation.
* `Session.buildStaged`: the build in chunks, and `Session.Ahead.buildStaged`: it
  only gets ahead.
* `Session.buildStaged_agree`: what it has in common with a build of all events.
-/

namespace StreamTyping

/-! ## Graphs without the types that streams take -/

/-- A stream without the types that it takes. -/
def Stream.skeleton (s : Stream) : Stream := { s with inputs := [] }

namespace Graph

/-- A graph without the types that its streams take. -/
def skeleton (g : Graph) : Graph := { g with streams := g.streams.map (·.skeleton) }

theorem stream?_skeleton (g : Graph) (t : StreamId) :
    g.skeleton.stream? t = (g.stream? t).map (·.skeleton) := List.getElem?_map

theorem length_skeleton (g : Graph) : g.skeleton.streams.length = g.streams.length :=
  List.length_map _

theorem nameOf?_skeleton (g : Graph) (t : StreamId) : g.skeleton.nameOf? t = g.nameOf? t := by
  rw [nameOf?, nameOf?, stream?_skeleton, Option.map_map]
  rfl

theorem outputsOf_skeleton (g : Graph) (t : StreamId) : g.skeleton.outputsOf t = g.outputsOf t := by
  rw [outputsOf, outputsOf, stream?_skeleton, Option.map_map]
  rfl

theorem lookup?_skeleton (g : Graph) (name : String) :
    g.skeleton.lookup? name = g.lookup? name := rfl

theorem intern_skeleton (g : Graph) (name : String) (locator : Option Locator) :
    g.skeleton.intern name locator =
      ((g.intern name locator).1.skeleton, (g.intern name locator).2) := by
  cases hl : g.lookup? name with
  | some id =>
    rw [intern_of_lookup? hl, intern_of_lookup? (g.lookup?_skeleton name ▸ hl)]
  | none =>
    rw [intern_of_lookup?_none hl, intern_of_lookup?_none (g.lookup?_skeleton name ▸ hl),
      length_skeleton]
    simp [skeleton, Stream.skeleton]

theorem connect_skeleton (g : Graph) (source target : StreamId) (label : EdgeLabel) :
    g.skeleton.connect source target label = (g.connect source target label).skeleton := by
  refine ext_stream? rfl rfl fun i => ?_
  rw [stream?_connect, stream?_skeleton, stream?_skeleton, stream?_connect, Option.map_map,
    Option.map_map]
  rfl

theorem addOutput_skeleton (g : Graph) (id : StreamId) (a : Attribution) :
    g.skeleton.addOutput id a = (g.addOutput id a).skeleton := by
  refine ext_stream? rfl rfl fun i => ?_
  rw [addOutput, stream?_modify, stream?_skeleton, stream?_skeleton, addOutput, stream?_modify]
  cases g.stream? i <;> by_cases hi : id = i <;> simp [hi, Stream.skeleton]

theorem skeleton_addInput (g : Graph) (id : StreamId) (a : Attribution) :
    (g.addInput id a).skeleton = g.skeleton := by
  refine ext_stream? rfl rfl fun i => ?_
  rw [stream?_skeleton, stream?_skeleton, stream?_addInput]
  cases g.stream? i <;> by_cases hi : id = i <;> simp [hi, Stream.skeleton]

/-! ## What streams take and are fed -/

/-- The graph `h` has more streams than `g`, but these take and give no types. -/
structure Widens (g h : Graph) : Prop where
  streams : ∃ added : List Stream, h.streams = g.streams ++ added ∧
    ∀ s ∈ added, s.inputs = [] ∧ s.outputs = []
  edges_eq : h.edges = g.edges
  /-- A name leads to the same id as before. -/
  lookup : ∀ {name id}, g.lookup? name = some id → h.lookup? name = some id

namespace Widens

theorem refl (g : Graph) : g.Widens g := ⟨⟨[], (List.append_nil _).symm, by simp⟩, rfl, id⟩

theorem intern (g : Graph) (name : String) (locator : Option Locator) :
    g.Widens (g.intern name locator).1 := by
  cases hl : g.lookup? name with
  | some id =>
    rw [intern_of_lookup? hl]
    exact refl g
  | none =>
    rw [intern_of_lookup?_none hl]
    refine ⟨⟨[{ id := g.streams.length, name, locator }], rfl, by simp⟩, rfl, fun {n id} hid => ?_⟩
    have hne : n ≠ name := by
      rintro rfl
      rw [hl] at hid
      cases hid
    rwa [lookup?, Dict.get?_insert, if_neg hne]

variable {g h : Graph} (hwidens : g.Widens h)

include hwidens

/-- A stream is an old one, or takes and gives no types. -/
theorem stream?_cases (t : StreamId) : h.stream? t = g.stream? t ∨
    g.stream? t = none ∧ ∀ s, h.stream? t = some s → s.inputs = [] ∧ s.outputs = [] := by
  obtain ⟨added, hstreams, hadded⟩ := hwidens.streams
  rw [stream?, stream?, hstreams]
  by_cases ht : t < g.streams.length
  · exact .inl (List.getElem?_append_left ht)
  · have hle := Nat.le_of_not_lt ht
    refine .inr ⟨List.getElem?_eq_none hle, fun s hs => hadded s ?_⟩
    rw [List.getElem?_append_right hle] at hs
    exact List.mem_of_getElem? hs

theorem inputsOf_eq (t : StreamId) : h.inputsOf t = g.inputsOf t := by
  rcases hwidens.stream?_cases t with heq | ⟨hnone, hnew⟩
  · rw [inputsOf, inputsOf, heq]
  · rw [inputsOf, inputsOf, hnone]
    cases hs : h.stream? t with
    | none => rfl
    | some s => exact (hnew s hs).1

theorem outputsOf_eq (t : StreamId) : h.outputsOf t = g.outputsOf t := by
  rcases hwidens.stream?_cases t with heq | ⟨hnone, hnew⟩
  · rw [outputsOf, outputsOf, heq]
  · rw [outputsOf, outputsOf, hnone]
    cases hs : h.stream? t with
    | none => rfl
    | some s => exact (hnew s hs).2

end Widens

theorem inputsOf_connect (g : Graph) (source target : StreamId) (label : EdgeLabel)
    (t : StreamId) : (g.connect source target label).inputsOf t = g.inputsOf t := by
  rw [inputsOf, inputsOf, stream?_connect, Option.map_map]
  rfl

theorem outputsOf_connect (g : Graph) (source target : StreamId) (label : EdgeLabel)
    (t : StreamId) : (g.connect source target label).outputsOf t = g.outputsOf t := by
  rw [outputsOf, outputsOf, stream?_connect, Option.map_map]
  rfl

theorem inputsOf_addOutput (g : Graph) (id : StreamId) (a : Attribution) (t : StreamId) :
    (g.addOutput id a).inputsOf t = g.inputsOf t := by
  rw [inputsOf, inputsOf, addOutput, stream?_modify]
  cases g.stream? t <;> by_cases hi : id = t <;> simp [hi]

theorem inputsOf_addInput (g : Graph) (id : StreamId) (a : Attribution) (t : StreamId) :
    (g.addInput id a).inputsOf t =
      g.inputsOf t ++ if id = t ∧ t < g.streams.length then [a] else [] := by
  rw [inputsOf, inputsOf, stream?_addInput]
  by_cases ht : t < g.streams.length
  · obtain ⟨s, hs⟩ := exists_stream? ht
    by_cases hi : id = t <;> simp [hi, hs, ht]
  · have hnone : g.stream? t = none := List.getElem?_eq_none (Nat.le_of_not_lt ht)
    simp [hnone, ht]

theorem outputsOf_addOutput (g : Graph) (id : StreamId) (a : Attribution) (t : StreamId) :
    (g.addOutput id a).outputsOf t =
      g.outputsOf t ++ if id = t ∧ t < g.streams.length then [a] else [] := by
  rw [outputsOf, outputsOf, addOutput, stream?_modify]
  by_cases ht : t < g.streams.length
  · obtain ⟨s, hs⟩ := exists_stream? ht
    by_cases hi : id = t <;> simp [hi, hs, ht]
  · have hnone : g.stream? t = none := List.getElem?_eq_none (Nat.le_of_not_lt ht)
    simp [hnone, ht]

theorem outputsOf_addInput (g : Graph) (id : StreamId) (a : Attribution) (t : StreamId) :
    (g.addInput id a).outputsOf t = g.outputsOf t := by
  rw [← outputsOf_skeleton, skeleton_addInput, outputsOf_skeleton]

theorem feeds_iff_outputsOf {g : Graph} {a : Attribution} {t : StreamId} :
    g.Feeds a t ↔ ∃ e ∈ g.edges, e.weak = false ∧ e.target = t ∧ a ∈ g.outputsOf e.source := by
  simp only [Feeds, mem_outputsOf]

theorem feeds_skeleton {g : Graph} {a : Attribution} {t : StreamId} :
    g.skeleton.Feeds a t ↔ g.Feeds a t := by
  simp only [feeds_iff_outputsOf, outputsOf_skeleton]
  rfl

/-- More edges and more types given feed more. -/
theorem Feeds.mono {g h : Graph} {a : Attribution} {t : StreamId} (hfeeds : g.Feeds a t)
    (hedges : ∀ e ∈ g.edges, e ∈ h.edges)
    (houtputs : ∀ id, ∀ b ∈ g.outputsOf id, b ∈ h.outputsOf id) : h.Feeds a t := by
  obtain ⟨e, he, hweak, htarget, ha⟩ := feeds_iff_outputsOf.1 hfeeds
  exact feeds_iff_outputsOf.2 ⟨e, hedges e he, hweak, htarget, houtputs _ a ha⟩

theorem Widens.feeds {g h : Graph} (hwidens : g.Widens h) {a : Attribution} {t : StreamId}
    (hfeeds : g.Feeds a t) : h.Feeds a t := by
  refine hfeeds.mono (fun e he => ?_) fun id b hb => ?_
  · rwa [hwidens.edges_eq]
  · rwa [hwidens.outputsOf_eq]

/-- Every stream takes the types that it is fed. -/
def PassedOn (g : Graph) : Prop :=
  ∀ a t, g.Feeds a t → a.descriptor ∈ (g.inputsOf t).map (·.descriptor)

namespace Closure

variable {g h : Graph} {new : StreamId → List Attribution} (hclosure : Closure g h new)

include hclosure

theorem index_eq : h.index = g.index := Dict.ext_get? hclosure.lookup

theorem skeleton : h.skeleton = g.skeleton := by
  refine ext_stream? hclosure.edges hclosure.index_eq fun t => ?_
  rw [stream?_skeleton, stream?_skeleton, hclosure.streams t, Option.map_map]
  rfl

theorem mem_inputsOf {t : StreamId} {a : Attribution} (ha : a ∈ g.inputsOf t) :
    a ∈ h.inputsOf t := by
  rw [inputsOf] at ha ⊢
  rw [hclosure.streams t]
  cases hs : g.stream? t with
  | none => simp [hs] at ha
  | some s => simp_all

theorem mem_inputsOf_or {t : StreamId} {a : Attribution} (ha : a ∈ h.inputsOf t) :
    a ∈ g.inputsOf t ∨ g.Feeds a t := by
  rw [inputsOf, hclosure.streams t] at ha
  cases hs : g.stream? t with
  | none => simp [hs] at ha
  | some s =>
    rw [hs] at ha
    rw [inputsOf_of_stream? hs]
    exact (List.mem_append.1 ha).imp_right (hclosure.origin t a)

theorem feeds_iff {a : Attribution} {t : StreamId} : h.Feeds a t ↔ g.Feeds a t := by
  rw [← feeds_skeleton, hclosure.skeleton, feeds_skeleton]

theorem passedOn (hg : g.WellFormed) : h.PassedOn := by
  intro a t hfeeds
  have hfed := hclosure.feeds_iff.1 hfeeds
  obtain ⟨e, he, -, rfl, -⟩ := hfed
  obtain ⟨s, hs⟩ := exists_stream? (hg.ends e he).2
  have hr := hclosure.streams e.target
  rw [hs, Option.map_some] at hr
  rw [inputsOf_of_stream? hr]
  exact (hclosure.takes_iff hs hr).2 (.inr ⟨a, hclosure.feeds_iff.1 hfeeds, rfl⟩)

end Closure

/-! ## Graphs that are ahead -/

/-- The graph `h` is `g` but for types that streams of `h` have been passed already. -/
structure Ahead (g h : Graph) : Prop where
  skeleton : h.skeleton = g.skeleton
  keeps : ∀ t, ∀ a ∈ g.inputsOf t, a ∈ h.inputsOf t
  origin : ∀ t, ∀ a ∈ h.inputsOf t, a ∈ g.inputsOf t ∨ g.Feeds a t

theorem Ahead.refl (g : Graph) : g.Ahead g := ⟨rfl, fun _ _ => id, fun _ _ => .inl⟩

namespace Ahead

variable {g h : Graph} (hahead : g.Ahead h)

include hahead

theorem length_streams : h.streams.length = g.streams.length := by
  rw [← length_skeleton, hahead.skeleton, length_skeleton]

theorem nameOf? (t : StreamId) : h.nameOf? t = g.nameOf? t := by
  rw [← nameOf?_skeleton, hahead.skeleton, nameOf?_skeleton]

theorem lookup? (name : String) : h.lookup? name = g.lookup? name := by
  rw [← lookup?_skeleton, hahead.skeleton, lookup?_skeleton]

theorem feeds_iff {a : Attribution} {t : StreamId} : h.Feeds a t ↔ g.Feeds a t := by
  rw [← feeds_skeleton, hahead.skeleton, feeds_skeleton]

/-- Something is added to both graphs, but nothing to what streams take. -/
theorem of_inputsOf {g' h' : Graph} (hskeleton : h'.skeleton = g'.skeleton)
    (hg : ∀ t, g'.inputsOf t = g.inputsOf t) (hh : ∀ t, h'.inputsOf t = h.inputsOf t)
    (hfeeds : ∀ a t, g.Feeds a t → g'.Feeds a t) : g'.Ahead h' := by
  refine ⟨hskeleton, fun t => ?_, fun t => ?_⟩
  · rw [hg, hh]
    exact hahead.keeps t
  · rw [hg, hh]
    exact fun a ha => (hahead.origin t a ha).imp_right (hfeeds a t)

theorem intern (name : String) (locator : Option Locator) :
    (g.intern name locator).1.Ahead (h.intern name locator).1 ∧
      (h.intern name locator).2 = (g.intern name locator).2 := by
  have hintern := congrArg (fun k => Graph.intern k name locator) hahead.skeleton
  simp only [intern_skeleton, Prod.mk.injEq] at hintern
  have hg := Widens.intern g name locator
  have hh := Widens.intern h name locator
  exact ⟨hahead.of_inputsOf hintern.1 hg.inputsOf_eq hh.inputsOf_eq fun _ _ => hg.feeds, hintern.2⟩

theorem connect (source target : StreamId) (label : EdgeLabel) :
    (g.connect source target label).Ahead (h.connect source target label) := by
  refine hahead.of_inputsOf ?_ (g.inputsOf_connect source target label)
    (h.inputsOf_connect source target label) fun a t hfeeds => ?_
  · rw [← connect_skeleton, hahead.skeleton, connect_skeleton]
  · refine hfeeds.mono (fun e he => List.mem_append_left _ he) fun id b hb => ?_
    rwa [outputsOf_connect]

theorem addOutput (id : StreamId) (a : Attribution) :
    (g.addOutput id a).Ahead (h.addOutput id a) := by
  refine hahead.of_inputsOf ?_ (g.inputsOf_addOutput id a) (h.inputsOf_addOutput id a)
    fun b t hfeeds => hfeeds.mono (fun e he => he) fun i c hc => ?_
  · rw [← addOutput_skeleton, hahead.skeleton, addOutput_skeleton]
  · rw [outputsOf_addOutput]
    exact List.mem_append_left _ hc

theorem addInput (id : StreamId) (a : Attribution) :
    (g.addInput id a).Ahead (h.addInput id a) := by
  have hfeeds : ∀ b t, g.Feeds b t → (g.addInput id a).Feeds b t := fun b t hb =>
    hb.mono (fun e he => he) fun i c hc => by rwa [outputsOf_addInput]
  refine ⟨?_, fun t b hb => ?_, fun t b hb => ?_⟩
  · rw [skeleton_addInput, skeleton_addInput, hahead.skeleton]
  · rw [inputsOf_addInput, List.mem_append] at hb ⊢
    rw [hahead.length_streams]
    exact hb.imp_left (hahead.keeps t b)
  · rw [inputsOf_addInput, List.mem_append, hahead.length_streams] at hb
    rw [inputsOf_addInput, List.mem_append]
    rcases hb with hb | hb
    · exact (hahead.origin t b hb).imp .inl (hfeeds b t)
    · exact .inl (.inr hb)

/-- Passing types on gets further ahead. -/
theorem closure {k : Graph} {new : StreamId → List Attribution} (hclosure : Closure h k new) :
    g.Ahead k := by
  refine ⟨hclosure.skeleton.trans hahead.skeleton, fun t a ha => ?_, fun t a ha => ?_⟩
  · exact hclosure.mem_inputsOf (hahead.keeps t a ha)
  · rcases hclosure.mem_inputsOf_or ha with ha | hfed
    · exact hahead.origin t a ha
    · exact .inr (hahead.feeds_iff.1 hfed)

/-- A graph that is ahead and has nothing left to pass on has the types that passing on leaves. -/
theorem types_iff {k : Graph} {new : StreamId → List Attribution} (hclosure : Closure g k new)
    (hg : g.WellFormed) (hdone : h.PassedOn) (t : StreamId) (d : Descriptor) :
    d ∈ (h.inputsOf t).map (·.descriptor) ↔ d ∈ (k.inputsOf t).map (·.descriptor) := by
  simp only [List.mem_map]
  constructor
  · rintro ⟨a, ha, rfl⟩
    rcases hahead.origin t a ha with ha | hfed
    · exact ⟨a, hclosure.mem_inputsOf ha, rfl⟩
    · exact List.mem_map.1 (hclosure.passedOn hg a t (hclosure.feeds_iff.2 hfed))
  · rintro ⟨a, ha, rfl⟩
    rcases hclosure.mem_inputsOf_or ha with ha | hfed
    · exact ⟨a, hahead.keeps t a ha, rfl⟩
    · exact List.mem_map.1 (hdone a t (hahead.feeds_iff.2 hfed))

end Ahead

/-- What is added to both graphs keeps the one ahead of the other. -/
theorem simulation_ahead : Simulation True Ahead where
  lookup hahead name := (hahead.lookup? name).symm
  nameOf hahead id := (hahead.nameOf? id).symm
  intern hahead name l l' hl := by
    obtain rfl := hl trivial
    obtain ⟨hintern, hid⟩ := hahead.intern name l
    exact ⟨hintern, hid.symm⟩
  connect hahead source target label label' hlabel := by
    obtain rfl := hlabel.2 trivial
    exact hahead.connect source target label
  addInput hahead id a a' ha := by
    obtain rfl := ha.2 trivial
    exact hahead.addInput id a
  addOutput hahead id a a' ha := by
    obtain rfl := ha.2 trivial
    exact hahead.addOutput id a

end Graph

/-! ## Builds -/

/-- A session that differs from another one in that its graph is ahead. -/
structure Session.Ahead (s t : Session) : Prop where
  graph : s.graph.Ahead t.graph
  diagnostics : t.diagnostics = s.diagnostics

theorem Session.simulation_ahead : Session.Simulation True Graph.Ahead Eq where
  toSimulation := Graph.simulation_ahead
  raise hraised _ _ hfound := by rw [hraised, hfound.2 trivial]

namespace Session.Ahead

variable {s t : Session} (h : s.Ahead t)

include h

theorem withGraph {g k : Graph} (hahead : g.Ahead k) :
    ({ s with graph := g } : Session).Ahead { t with graph := k } := ⟨hahead, h.diagnostics⟩

theorem beside : s.Beside Graph.Ahead Eq t := ⟨h.graph, h.diagnostics.symm⟩

/-- A build comes to the same violation, if any. -/
theorem build (events : List Event) :
    ∃ s' t' violation, s.build events = (s', violation) ∧ t.build events = (t', violation) ∧
      s'.Ahead t' := by
  obtain ⟨hbeside, -, hviolation⟩ :=
    h.beside.build Session.simulation_ahead (.refl True _ events)
  exact ⟨(s.build events).1, (t.build events).1, (s.build events).2, rfl,
    Prod.ext rfl (hviolation trivial).symm, hbeside.graph, hbeside.diagnostics.symm⟩

end Session.Ahead

/-! ## Builds in stages -/

/-- A chunk of events, and how types are passed on after it. -/
structure Stage where
  events : List Event
  order : Order
  seed : List StreamId

namespace Session

/-- How many events are added before the first violation. -/
def applied (s : Session) : List Event → Nat
  | [] => 0
  | event :: events =>
    match s.apply event with
    | (s, .ok _) => s.applied events + 1
    | (_, .error _) => 0

/-- Adds the events of one stage after another, up to the first violation, and passes types on
after each stage. Tells how many events were added, and the violation. There is no result if an
id in a seed is out of range. -/
def buildStaged (s : Session) : List Stage → Option (Session × Nat × Option Violation)
  | [] => some (s, 0, none)
  | stage :: stages =>
    let (built, violation) := s.build stage.events
    (built.graph.propagateFrom? stage.order stage.seed).bind fun (graph, _) =>
      if violation.isSome then some ({ built with graph }, s.applied stage.events, violation)
      else ({ built with graph }.buildStaged stages).map fun (last, count, violation) =>
        (last, s.applied stage.events + count, violation)

/-- The seeds of all stages are ids of streams that have been built when their turn comes. -/
def seedsValid (s : Session) : List Stage → Bool
  | [] => true
  | stage :: stages =>
    let (built, violation) := s.build stage.events
    stage.seed.all built.graph.hasStream && (violation.isSome || built.seedsValid stages)

theorem applied_of_none {s t : Session} {events : List Event} (h : s.build events = (t, none)) :
    s.applied events = events.length := by
  induction s, events using build.induct with
  | case1 s => rfl
  | case2 s event events next name happly ih =>
    rw [build, happly] at h
    rw [applied, happly]
    exact congrArg (· + 1) (ih h)
  | case3 s event events next w happly =>
    rw [build, happly] at h
    cases h

/-- A violation comes from the event behind those that were added. -/
theorem exists_of_build_eq_some {s t : Session} {events : List Event} {v : Violation}
    (h : s.build events = (t, some v)) :
    ∃ last event, s.build (events.take (s.applied events)) = (last, none) ∧
      events[s.applied events]? = some event ∧ last.apply event = (t, .error v) := by
  induction s, events using build.induct with
  | case1 s => cases h
  | case2 s event events next name happly ih =>
    rw [build, happly] at h
    rw [applied, happly]
    obtain ⟨last, failed, hbuild, hevent, hfail⟩ := ih h
    refine ⟨last, failed, ?_, hevent, hfail⟩
    rw [List.take_succ_cons, build, happly]
    exact hbuild
  | case3 s event events next w happly =>
    rw [build, happly] at h
    rw [applied, happly]
    obtain ⟨rfl, hw⟩ := Prod.mk.inj h
    obtain rfl := Option.some.inj hw
    exact ⟨s, event, rfl, rfl, happly⟩

theorem build_append_of_none {s t : Session} {events : List Event}
    (h : s.build events = (t, none)) (rest : List Event) :
    s.build (events ++ rest) = t.build rest ∧
      s.applied (events ++ rest) = s.applied events + t.applied rest := by
  induction s, events using build.induct with
  | case1 s =>
    obtain rfl := (Prod.mk.inj h).1
    exact ⟨rfl, (Nat.zero_add _).symm⟩
  | case2 s event events next name happly ih =>
    rw [build, happly] at h
    rw [List.cons_append, build, applied, applied, happly]
    obtain ⟨hbuild, happlied⟩ := ih h
    refine ⟨hbuild, ?_⟩
    dsimp only
    omega
  | case3 s event events next w happly =>
    rw [build, happly] at h
    cases h

theorem build_append_of_some {s t : Session} {events : List Event} {v : Violation}
    (h : s.build events = (t, some v)) (rest : List Event) :
    s.build (events ++ rest) = (t, some v) ∧ s.applied (events ++ rest) = s.applied events := by
  induction s, events using build.induct with
  | case1 s => cases h
  | case2 s event events next name happly ih =>
    rw [build, happly] at h
    rw [List.cons_append, build, applied, applied, happly]
    obtain ⟨hbuild, happlied⟩ := ih h
    exact ⟨hbuild, congrArg (· + 1) happlied⟩
  | case3 s event events next w happly =>
    rw [build, happly] at h
    rw [List.cons_append, build, applied, applied, happly]
    exact ⟨h, rfl⟩

/-- Builds side by side come to a violation at the same event. -/
theorem Beside.applied {strict : Prop} {R : Graph → Graph → Prop}
    {Q : List Diagnostic → List Diagnostic → Prop} {s t : Session} (h : s.Beside R Q t)
    (hsim : Session.Simulation strict R Q) {events events' : List Event}
    (hevents : SameUpTo strict (List.map Event.essence) events events') :
    s.applied events = t.applied events' := by
  induction events generalizing s t events' with
  | nil =>
    obtain rfl := List.map_eq_nil_iff.1 hevents.1.symm
    rfl
  | cons event events ih =>
    obtain ⟨event', rest, rfl, hevent, hrest⟩ := hevents.cons
    obtain ⟨hsession, hresult, -⟩ := h.apply hsim hevent
    rw [Session.applied, Session.applied]
    generalize s.apply event = first at hsession hresult
    generalize t.apply event' = second at hsession hresult
    obtain ⟨s', v | name⟩ := first
    all_goals obtain ⟨t', w | name'⟩ := second
    · rfl
    · cases hresult
    · cases hresult
    · exact congrArg (· + 1) (ih hsession hrest)

theorem Ahead.applied {s t : Session} (h : s.Ahead t) (events : List Event) :
    t.applied events = s.applied events :=
  (h.beside.applied simulation_ahead (.refl True _ events)).symm

/-- A build in stages comes to the same violation at the same event, and is only ahead. -/
theorem Ahead.buildStaged {s t : Session} (h : s.Ahead t) (hs : s.graph.WellFormed)
    (ht : t.graph.WellFormed) (hdone : t.graph.PassedOn) {stages : List Stage}
    (hseeds : s.seedsValid stages = true) :
    ∃ s' t' violation, s.build (stages.flatMap (·.events)) = (s', violation) ∧
      t.buildStaged stages = some (t', s.applied (stages.flatMap (·.events)), violation) ∧
      s'.Ahead t' ∧ t'.graph.PassedOn := by
  induction stages generalizing s t with
  | nil => exact ⟨s, t, none, rfl, rfl, h, hdone⟩
  | cons stage stages ih =>
    obtain ⟨s', t', violation, hbuild, hbuild', hahead⟩ := h.build stage.events
    have hs' := (build?_eq hs stage.events).2
    have ht' := (build?_eq ht stage.events).2
    rw [hbuild] at hs'
    rw [hbuild'] at ht'
    rw [seedsValid, hbuild, Bool.and_eq_true] at hseeds
    have hvalid : ∀ id ∈ stage.seed, id < t'.graph.streams.length := by
      intro id hid
      rw [hahead.graph.length_streams]
      exact of_decide_eq_true (List.all_eq_true.1 hseeds.1 id hid)
    have hrun := Graph.propagateFrom?_of_valid hvalid stage.order
    have hclosure := ht'.closure_run stage.order hvalid
    have hpassed := hahead.withGraph (hahead.graph.closure hclosure)
    rw [List.flatMap_cons, Session.buildStaged, hbuild', h.applied]
    simp only [hrun, Option.bind_some]
    cases violation with
    | some v =>
      obtain ⟨hall, happlied⟩ := build_append_of_some hbuild (stages.flatMap (·.events))
      rw [hall, happlied]
      exact ⟨_, _, _, rfl, rfl, hpassed, hclosure.passedOn ht'⟩
    | none =>
      obtain ⟨hall, happlied⟩ := build_append_of_none hbuild (stages.flatMap (·.events))
      obtain ⟨last, last', violation, hlast, hlast', hend⟩ :=
        ih hpassed hs' (ht'.propagateFrom? hrun) (hclosure.passedOn ht') (by simpa using hseeds.2)
      refine ⟨last, last', violation, hall.trans hlast, ?_, hend⟩
      rw [happlied]
      simp [hlast']

end Session

/-! ## Verdicts -/

/-- Nothing is wrong with a graph if every stream takes one type. -/
theorem Graph.findings_eq_nil_iff_inputsOf {g : Graph} :
    g.findings = [] ↔ ∀ t < g.streams.length, (∃ d, d ∈ (g.inputsOf t).map (·.descriptor)) ∧
      ∀ d ∈ (g.inputsOf t).map (·.descriptor),
        ∀ d' ∈ (g.inputsOf t).map (·.descriptor), d = d' := by
  rw [findings, List.flatMap_eq_nil_iff]
  constructor
  · intro hall t ht
    obtain ⟨s, hs⟩ := exists_stream? ht
    rw [inputsOf_of_stream? hs]
    exact Stream.findings_eq_nil_iff.1 (hall s (mem_of_stream? hs))
  · intro hall s hmem
    obtain ⟨t, hs⟩ := exists_stream?_of_mem hmem
    have ht := hall t (lt_of_stream? hs)
    rw [inputsOf_of_stream? hs] at ht
    exact Stream.findings_eq_nil_iff.2 ht

/-- Verdicts on graphs whose streams take the same types, with diagnostics raised before for both
or for neither. -/
theorem Session.verify_status_eq {s t : Session}
    (hdiagnostics : s.diagnostics = [] ↔ t.diagnostics = [])
    (hlength : s.graph.streams.length = t.graph.streams.length)
    (htypes : ∀ id d, d ∈ (s.graph.inputsOf id).map (·.descriptor) ↔
      d ∈ (t.graph.inputsOf id).map (·.descriptor)) : s.verify.status = t.verify.status := by
  have hfindings : s.graph.findings = [] ↔ t.graph.findings = [] := by
    simp only [Graph.findings_eq_nil_iff_inputsOf, htypes, hlength]
  rw [s.verify_status, t.verify_status]
  exact if_congr (and_congr hdiagnostics hfindings) rfl rfl

/-- A build in stages, with types passed on after each stage in whatever order and from whatever
valid seed, comes to the same violation at the same event as a build of all events. It leaves
the same streams, edges and types given. And as soon as types are passed on after the build of all
events, in whatever order and from whatever seed, streams take the same types, and the verdicts are
the same. -/
theorem Session.buildStaged_agree (order : Order) {stages : List Stage}
    (hseeds : seedsValid { order } stages = true) :
    ∃ s t violation, build { order } (stages.flatMap (·.events)) = (s, violation) ∧
      buildStaged { order } stages =
        some (t, applied { order } (stages.flatMap (·.events)), violation) ∧
      t.graph.skeleton = s.graph.skeleton ∧ t.diagnostics = s.diagnostics ∧
      ∀ (last : Order) (seed : List StreamId), (∀ id ∈ seed, id < s.graph.streams.length) →
        ∃ k stats, s.graph.propagateFrom? last seed = some (k, stats) ∧
          (∀ id d, d ∈ (t.graph.inputsOf id).map (·.descriptor) ↔
            d ∈ (k.inputsOf id).map (·.descriptor)) ∧
          t.verify.status = { s with graph := k }.verify.status := by
  have hfresh : ({ order } : Session).Ahead { order } := ⟨.refl _, rfl⟩
  have hempty : ({} : Graph).PassedOn := by
    rintro a t ⟨e, he, -⟩
    cases he
  obtain ⟨s, t, violation, hbuild, hstaged, hahead, hdone⟩ :=
    hfresh.buildStaged Graph.wellFormed_empty Graph.wellFormed_empty hempty hseeds
  refine ⟨s, t, violation, hbuild, hstaged, hahead.graph.skeleton, hahead.diagnostics, ?_⟩
  intro last seed hseed
  have hs : s.graph.WellFormed := by
    have hwf := (build?_eq (s := { order }) Graph.wellFormed_empty (stages.flatMap (·.events))).2
    rwa [hbuild] at hwf
  have hclosure := hs.closure_run last hseed
  have htypes := hahead.graph.types_iff hclosure hs hdone
  refine ⟨_, _, Graph.propagateFrom?_of_valid hseed last, htypes, ?_⟩
  refine verify_status_eq (by rw [hahead.diagnostics]) ?_ htypes
  rw [hahead.graph.length_streams]
  exact hclosure.length_streams.symm

/-- The stream `c` is fed a type, then declared with it, and then fed another one. -/
def stagedRival : List Stage :=
  [ { events := rivalEvents.take 6, order := .fifo, seed := [3, 3] },
    { events := [.declare { name := "c", descriptor := some (.primitive "number") }]
      order := .lifo
      seed := [] },
    { events := rivalEvents.drop 6, order := .lifo, seed := [0] } ]

/-- In stages, `c` comes to take its first type twice. -/
theorem Session.buildStaged_agree_rival :
    seedsValid {} stagedRival = true ∧
    ∃ s t, build {} (stagedRival.flatMap (·.events)) = (s, none) ∧
      buildStaged {} stagedRival = some (t, 8, none) ∧
      t.graph.skeleton = s.graph.skeleton ∧ (t.graph.inputsOf 2).length = 3 ∧
      ∃ k stats, s.graph.propagateFrom? .fifo [] = some (k, stats) ∧ (k.inputsOf 2).length = 2 ∧
        (∀ d, d ∈ (t.graph.inputsOf 2).map (·.descriptor) ↔
          d ∈ (k.inputsOf 2).map (·.descriptor)) ∧
        t.verify.status = .fail ∧ { s with graph := k }.verify.status = .fail := by
  have hseeds : seedsValid {} stagedRival = true := by decide +kernel
  obtain ⟨s, t, violation, hbuild, hstaged, hskeleton, -, hpass⟩ := buildStaged_agree .lifo hseeds
  obtain ⟨k, stats, hrun, htypes, hstatus⟩ := hpass .fifo [] (by simp)
  have hcount : applied {} (stagedRival.flatMap (·.events)) = 8 ∧
      (build {} (stagedRival.flatMap (·.events))).2 = none := by decide +kernel
  have hearly : (buildStaged {} stagedRival).map (fun r =>
      ((r.1.graph.inputsOf 2).length, r.1.verify.status)) = some (3, .fail) := by decide +kernel
  have hlate : ((build {} (stagedRival.flatMap (·.events))).1.graph.propagateFrom? .fifo []).map
      (fun r => (r.1.inputsOf 2).length) = some 2 := by decide +kernel
  rw [hbuild] at hcount hlate
  rw [hstaged] at hearly
  rw [hrun] at hlate
  obtain ⟨hthree, hfail⟩ := Prod.mk.inj (Option.some.inj hearly)
  obtain rfl : violation = none := hcount.2
  exact ⟨hseeds, s, t, hbuild, hcount.1 ▸ hstaged, hskeleton, hthree, k, stats, hrun,
    Option.some.inj hlate, htypes 2, hfail, hstatus.symm.trans hfail⟩

end StreamTyping
