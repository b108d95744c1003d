import StreamTyping.Proofs.Downstream
import StreamTyping.Proofs.Reading
import StreamTyping.Proofs.Rejection

/-!
# Repeated events

An event that is told once more mentions no new stream, and the types and the
edges that it tells are there already. So it can be added again, and what comes
of the events differs in how often a type or an edge is there, and in nothing
else.

* `Session.Follows.apply_again`: an event that was added can be added again.
* `Graph.UpToRepeats`: graphs that differ in repeats. This is kept as graphs are
  added to (`Graph.simulation_upToRepeats`) and as types are passed on
  (`Graph.UpToRepeats.run`).
* `check_repeat`: whole checks.
-/

namespace StreamTyping

/-! ## What can be added again -/

/-- An invocation that is at fault is so if fewer streams are known. -/
theorem Invocation.Faulty.of_subset {known more : List String} {call : Invocation}
    (h : call.Faulty more) (hsub : known ⊆ more) : call.Faulty known := by
  rcases h with hsource | ⟨operator, hop, k, name, hdangling⟩ | hnone
  · exact .inl fun hknown => hsource (hsub hknown)
  · exact .inr (.inl ⟨operator, hop, k, name, hdangling.of_subset hsub⟩)
  · exact .inr (.inr hnone)

namespace Session.Follows

variable {s : Session} {a : Account} (h : s.Follows a)

include h

theorem apply_error_iff (event : Event) : (∃ v, (s.apply event).2 = .error v) ↔
    ∃ call, event = .invoke call ∧ call.Faulty (a.mentions.map (·.1)) := by
  simp only [h.apply_eq_error_iff, Invocation.faulty_iff]
  constructor
  · rintro ⟨v, call, hevent, hrejects⟩
    exact ⟨call, hevent, v, _, hrejects⟩
  · rintro ⟨call, hevent, v, text, hrejects⟩
    exact ⟨v, call, hevent, hrejects.text_eq ▸ hrejects⟩

/-- An event that was added can be added again. -/
theorem apply_again {events : List Event} {event : Event} {last : Session}
    (hbuild : s.build events = (last, none)) (hmem : event ∈ events) :
    ∃ t name, last.apply event = (t, .ok name) := by
  induction events generalizing s a with
  | nil => cases hmem
  | cons first events ih =>
    have hlast := h.build hbuild
    rw [Session.build] at hbuild
    cases happly : s.apply first with
    | mk next result =>
      rw [happly] at hbuild
      cases result with
      | error v => cases hbuild
      | ok name =>
        rcases List.mem_cons.1 hmem with rfl | hrest
        · cases hagain : last.apply event with
          | mk t result =>
            cases result with
            | ok again => exact ⟨t, again, rfl⟩
            | error v =>
              -- It would have been rejected before, when fewer streams were known.
              obtain ⟨call, hcall, hfaulty⟩ :=
                (hlast.apply_error_iff event).1 ⟨v, congrArg Prod.snd hagain⟩
              have hsub : a.mentions.map (·.1) ⊆
                  (a ++ .ofEvents (event :: events)).mentions.map (·.1) := by
                rw [Account.append_mentions, List.map_append]
                exact List.subset_append_left _ _
              obtain ⟨w, hw⟩ := (h.apply_error_iff event).2 ⟨call, hcall, hfaulty.of_subset hsub⟩
              rw [happly] at hw
              cases hw
        · exact ih (h.apply happly) hbuild hrest

end Session.Follows

/-! ## Accounts of repeated events -/

namespace Account

variable {events : List Event} {event : Event} (hmem : event ∈ events)

include hmem

theorem subset_ofEvents {α : Type} {f : Account → List α} (hempty : f {} = [])
    (happend : ∀ a b, f (a ++ b) = f a ++ f b) : f (ofEvent event) ⊆ f (ofEvents events) := by
  rw [ofEvents_gather hempty happend]
  exact fun x hx => List.mem_flatMap.2 ⟨event, hmem, hx⟩

theorem absorb {α : Type} [BEq α] [LawfulBEq α] {f : Account → List α} (hempty : f {} = [])
    (happend : ∀ a b, f (a ++ b) = f a ++ f b) :
    SameFirsts (f (ofEvents events ++ ofEvent event)) (f (ofEvents events)) := by
  rw [happend]
  exact .absorb (subset_ofEvents hmem hempty happend)

/-- An event that is told once more tells nothing new. -/
theorem abreast_ofEvents : (ofEvents events ++ ofEvent event).Abreast (ofEvents events) where
  mentions := absorb hmem (f := fun a => a.mentions.map (·.1)) rfl fun _ _ => List.map_append
  takes := absorb hmem rfl fun _ _ => List.map_append
  gives := absorb hmem rfl fun _ _ => List.map_append
  flows := absorb hmem rfl fun _ _ => by
    rw [flows, append_links, List.filter_append, List.map_append]
    rfl

theorem faults_eq_nil_iff :
    (ofEvents events ++ ofEvent event).faults = [] ↔ (ofEvents events).faults = [] := by
  rw [append_faults, List.append_eq_nil_iff, and_iff_left_iff_imp]
  intro hnone
  have hsub := subset_ofEvents hmem (f := faults) rfl append_faults
  rw [hnone] at hsub
  exact List.eq_nil_of_subset_nil hsub

end Account

/-! ## Graphs that differ in repeats -/

/-- What tells a stream from others: its position, its name and its place. -/
def Stream.title (s : Stream) : StreamId × String × Option Locator := (s.id, s.name, s.locator)

namespace Graph

/-- Graphs with the same streams, in which the same types are taken and given and the same
streams are strong children, some of them more often than others. -/
structure UpToRepeats (g h : Graph) : Prop where
  titles : g.streams.map (·.title) = h.streams.map (·.title)
  index : g.index = h.index
  inputs : ∀ t, SameFirsts ((g.inputsOf t).map (·.descriptor)) ((h.inputsOf t).map (·.descriptor))
  outputs : ∀ t,
    SameFirsts ((g.outputsOf t).map (·.descriptor)) ((h.outputsOf t).map (·.descriptor))
  children : ∀ t, SameFirsts (g.strongChildren t) (h.strongChildren t)

theorem strongChildren_connect (g : Graph) (source target : StreamId) (label : EdgeLabel)
    (t : StreamId) : (g.connect source target label).strongChildren t =
      g.strongChildren t ++ if source = t ∧ label.weak = false then [target] else [] := by
  rw [strongChildren_eq_filterMap, strongChildren_eq_filterMap, connect_edges, List.filterMap_append]
  by_cases hs : source = t <;> cases hw : label.weak <;> simp [hs, hw]

namespace UpToRepeats

variable {g h : Graph} (hgh : g.UpToRepeats h)

include hgh

theorem length : g.streams.length = h.streams.length := by
  have hlength := congrArg List.length hgh.titles
  rwa [List.length_map, List.length_map] at hlength

theorem abreast : g.Abreast h := ⟨hgh.length, hgh.inputs, hgh.outputs, hgh.children⟩

theorem lookup? (name : String) : g.lookup? name = h.lookup? name := by
  rw [Graph.lookup?, Graph.lookup?, hgh.index]

theorem nameOf? (t : StreamId) : g.nameOf? t = h.nameOf? t := by
  have htitle := congrArg (Option.map fun p => p.2.1) (map_stream?_of_map hgh.titles t)
  rwa [Option.map_map, Option.map_map] at htitle

theorem intern (name : String) (locator : Option Locator) :
    (g.intern name locator).1.UpToRepeats (h.intern name locator).1 ∧
      (g.intern name locator).2 = (h.intern name locator).2 := by
  have hlookup := hgh.lookup? name
  cases hl : g.lookup? name with
  | some id =>
    rw [hl] at hlookup
    rw [intern_of_lookup? hl, intern_of_lookup? hlookup.symm]
    exact ⟨hgh, rfl⟩
  | none =>
    rw [hl] at hlookup
    have hg := Widens.intern g name locator
    have hh := Widens.intern h name locator
    rw [intern_of_lookup?_none hl] at hg ⊢
    rw [intern_of_lookup?_none hlookup.symm] at hh ⊢
    refine ⟨⟨?_, ?_, fun t => ?_, fun t => ?_, hgh.children⟩, hgh.length⟩
    · rw [List.map_append, List.map_append, hgh.titles, hgh.length]
    · rw [hgh.index, hgh.length]
    · rw [hg.inputsOf_eq, hh.inputsOf_eq]
      exact hgh.inputs t
    · rw [hg.outputsOf_eq, hh.outputsOf_eq]
      exact hgh.outputs t

theorem connect (source target : StreamId) (label : EdgeLabel) :
    (g.connect source target label).UpToRepeats (h.connect source target label) := by
  have htitle : ∀ (s : Stream) (children parents : List EdgeId),
      Stream.title { s with children, parents } = s.title := fun _ _ _ => rfl
  refine ⟨?_, hgh.index, fun t => ?_, fun t => ?_, fun t => ?_⟩
  · rw [map_streams_connect htitle, map_streams_connect htitle, hgh.titles]
  · rw [inputsOf_connect, inputsOf_connect]
    exact hgh.inputs t
  · rw [outputsOf_connect, outputsOf_connect]
    exact hgh.outputs t
  · rw [strongChildren_connect, strongChildren_connect]
    exact (hgh.children t).append_right _

theorem addInput (id : StreamId) (a : Attribution) :
    (g.addInput id a).UpToRepeats (h.addInput id a) := by
  have htitle : ∀ s : Stream, Stream.title { s with inputs := s.inputs ++ [a] } = s.title :=
    fun _ => rfl
  refine ⟨?_, hgh.index, fun t => ?_, fun t => ?_, hgh.children⟩
  · rw [Graph.addInput, Graph.addInput, map_streams_modify htitle, map_streams_modify htitle,
      hgh.titles]
  · rw [inputsOf_addInput, inputsOf_addInput, hgh.length, List.map_append, List.map_append]
    exact (hgh.inputs t).append_right _
  · rw [outputsOf_addInput, outputsOf_addInput]
    exact hgh.outputs t

theorem addOutput (id : StreamId) (a : Attribution) :
    (g.addOutput id a).UpToRepeats (h.addOutput id a) := by
  have htitle : ∀ s : Stream, Stream.title { s with outputs := s.outputs ++ [a] } = s.title :=
    fun _ => rfl
  refine ⟨?_, hgh.index, fun t => ?_, fun t => ?_, hgh.children⟩
  · rw [Graph.addOutput, Graph.addOutput, map_streams_modify htitle, map_streams_modify htitle,
      hgh.titles]
  · rw [inputsOf_addOutput, inputsOf_addOutput]
    exact hgh.inputs t
  · rw [outputsOf_addOutput, outputsOf_addOutput, hgh.length, List.map_append, List.map_append]
    exact (hgh.outputs t).append_right _

/-- Passing types on leaves graphs that differ in repeats, and takes as much. -/
theorem run (hg : g.WellFormed) (hh : h.WellFormed) (order : Order) :
    ((g.start order []).run order).graph.UpToRepeats ((h.start order []).run order).graph ∧
      ((g.start order []).run order).stats = ((h.start order []).run order).stats := by
  have hrun := hgh.abreast.run hg hh order (List.forall_mem_nil _)
  have htitles : ∀ {k m : Graph} {new : StreamId → List Attribution}, Closure k m new →
      m.streams.map (·.title) = k.streams.map (·.title) := by
    intro k m new hclosure
    refine map_eq_of_stream? fun t => ?_
    rw [hclosure.streams t, Option.map_map]
    rfl
  have hclosure := hg.closure_run order (List.forall_mem_nil _)
  have hclosure' := hh.closure_run order (List.forall_mem_nil _)
  refine ⟨⟨?_, ?_, hrun.inputs, hrun.outputs, hrun.children⟩,
    hgh.abreast.stats_run hg hh order []⟩
  · rw [htitles hclosure, htitles hclosure', hgh.titles]
  · rw [hclosure.index_eq, hclosure'.index_eq, hgh.index]

/-- A stream has the same type, which is the first that it gives or takes. -/
theorem types_eq : g.types = h.types := by
  refine types_eq_of_map (map_eq_of_stream? fun t => ?_)
  have htitle := map_stream?_of_map hgh.titles t
  have houtputs := hgh.outputs t
  have hinputs := hgh.inputs t
  rw [outputsOf, outputsOf] at houtputs
  rw [inputsOf, inputsOf] at hinputs
  cases hs : g.stream? t with
  | none =>
    rw [hs] at htitle
    rw [Option.map_eq_none_iff.1 htitle.symm]
  | some s =>
    rw [hs] at htitle houtputs hinputs
    obtain ⟨r, hr, hsr⟩ := Option.map_eq_some_iff.1 htitle.symm
    rw [hr] at houtputs hinputs ⊢
    have hname : s.name = r.name := congrArg (fun p => p.2.1) hsr.symm
    have hresolved : s.resolved? = r.resolved? := by
      rw [Stream.resolved?_eq, Stream.resolved?_eq]
      exact (houtputs.append hinputs).head?_eq
    rw [Option.map_some, Option.map_some, hname, hresolved]

end UpToRepeats

/-- What is added to both graphs leaves them the same up to repeats. -/
theorem simulation_upToRepeats : Simulation True UpToRepeats where
  lookup hgh name := hgh.lookup? name
  nameOf hgh id := hgh.nameOf? id
  intern hgh name l l' hl := by
    obtain rfl := hl trivial
    exact hgh.intern name l
  connect hgh source target label label' hlabel := by
    obtain rfl := hlabel.2 trivial
    exact hgh.connect source target label
  addInput hgh id a a' ha := by
    obtain rfl := ha.2 trivial
    exact hgh.addInput id a
  addOutput hgh id a a' ha := by
    obtain rfl := ha.2 trivial
    exact hgh.addOutput id a

/-- Graphs that follow accounts abreast, with the same place at the first mention of a stream. -/
theorem Follows.upToRepeats {g h : Graph} {a b : Account} (hg : g.Follows a) (hh : h.Follows b)
    (habreast : a.Abreast b)
    (hplaces : ∀ name l, b.mentions.lookup name = some l → a.mentions.lookup name = some l) :
    g.UpToRepeats h := by
  have hgraphs := hg.abreast hh habreast
  refine ⟨map_eq_of_stream? fun t => ?_,
    Dict.ext_get? (hg.lookup?_congr hh habreast.mentions), hgraphs.inputs, hgraphs.outputs,
    hgraphs.children⟩
  have hname := hg.nameOf?_congr hh habreast.mentions t
  rw [nameOf?, nameOf?] at hname
  cases hr : h.stream? t with
  | none =>
    rw [hr] at hname
    rw [Option.map_eq_none_iff.1 hname]
  | some r =>
    rw [hr] at hname
    obtain ⟨s, hs, hsr⟩ := Option.map_eq_some_iff.1 hname
    have hplace := hg.locators t s hs
    rw [hsr, hplaces r.name r.locator (hh.locators t r hr)] at hplace
    rw [hs, Option.map_some, Option.map_some, Stream.title, Stream.title, hsr,
      ← Option.some.inj hplace, hg.wellFormed.id_eq hs, hh.wellFormed.id_eq hr]

end Graph

/-! ## Whole checks -/

namespace Session

theorem simulation_upToRepeats :
    Session.Simulation True Graph.UpToRepeats (fun l l' => l = [] ↔ l' = []) where
  toSimulation := Graph.simulation_upToRepeats
  raise hraised found found' hfound := by
    rw [hfound.2 trivial, List.append_eq_nil_iff, List.append_eq_nil_iff, hraised]

/-- An event that is added once more makes a difference to repeats alone. -/
theorem Follows.beside_repeat {s t : Session} {events : List Event} {event : Event}
    (hs : s.Follows (.ofEvents events)) (hmem : event ∈ events)
    (ht : t.Follows (.ofEvents events ++ .ofEvent event)) :
    t.Beside Graph.UpToRepeats (fun l l' => l = [] ↔ l' = []) s where
  graph := by
    refine ht.graph.upToRepeats hs.graph (Account.abreast_ofEvents hmem) fun name l hname => ?_
    rw [Account.append_mentions, List.lookup_append, hname, Option.some_or]
  diagnostics := by
    rw [ht.diagnostics, hs.diagnostics, List.map_eq_nil_iff, List.map_eq_nil_iff,
      Account.faults_eq_nil_iff hmem]

/-- An event that is told once more makes a difference to repeats alone, whatever comes after
it. -/
theorem build_repeat {order : Order} {before : List Event} {event : Event}
    (hbefore : (build { order } before).2 = none) (hmem : event ∈ before) (after : List Event) :
    (build { order } (before ++ [event] ++ after)).1.Beside Graph.UpToRepeats
        (fun l l' => l = [] ↔ l' = []) (build { order } (before ++ after)).1 ∧
      (build { order } (before ++ [event] ++ after)).2 =
        (build { order } (before ++ after)).2 := by
  cases hbuild : build { order } before with
  | mk s violation =>
    rw [hbuild] at hbefore
    obtain rfl : violation = none := hbefore
    have hfresh := follows_fresh order
    have hs := hfresh.build hbuild
    obtain ⟨t, name, happly⟩ := hfresh.apply_again hbuild hmem
    rw [Account.empty_append] at hs
    have hbeside := hs.beside_repeat hmem (hs.apply happly)
    have hagain : s.build ([event] ++ after) = t.build after := by
      rw [List.singleton_append, build, happly]
    rw [List.append_assoc, (build_append_of_none hbuild _).1, (build_append_of_none hbuild _).1,
      hagain]
    obtain ⟨hbuilt, -, hviolation⟩ := hbeside.build simulation_upToRepeats (.refl True _ after)
    exact ⟨hbuilt, hviolation trivial⟩

end Session

/-- An event that is told once more changes nothing but how often things are there. The check
comes to the same violation, or to the same verdict and the same types. It leaves the same streams
in the same order, and each of them takes the same types and gives the same types. The propagation
takes as many turns and passes on as many types. -/
theorem check_repeat {order : Order} {before : List Event} {event : Event}
    (hbefore : (Session.build { order } before).2 = none) (hmem : event ∈ before)
    (after : List Event) :
    ((∃ v, check (before ++ [event] ++ after) order = .error v ∧
        check (before ++ after) order = .error v) ∨
      ∃ r q, check (before ++ [event] ++ after) order = .ok r ∧
        check (before ++ after) order = .ok q ∧ r.status = q.status ∧ r.types = q.types) ∧
    ∃ s t, (Session.pipeline { order } (before ++ [event] ++ after) .verify).1 = s ∧
      (Session.pipeline { order } (before ++ after) .verify).1 = t ∧
      s.graph.streams.map (·.title) = t.graph.streams.map (·.title) ∧
      (∀ id d, d ∈ (s.graph.inputsOf id).map (·.descriptor) ↔
        d ∈ (t.graph.inputsOf id).map (·.descriptor)) ∧
      (∀ id d, d ∈ (s.graph.outputsOf id).map (·.descriptor) ↔
        d ∈ (t.graph.outputsOf id).map (·.descriptor)) ∧
      s.propagation = t.propagation := by
  obtain ⟨⟨hgraph, hnone⟩, hviolation⟩ := Session.build_repeat hbefore hmem after
  cases hbuild : Session.build { order } (before ++ [event] ++ after) with
  | mk s violation =>
  cases hbuild' : Session.build { order } (before ++ after) with
  | mk t violation' =>
  rw [hbuild] at hgraph hnone hviolation
  rw [hbuild'] at hgraph hnone hviolation
  have hs := Session.built hbuild
  have ht := Session.built hbuild'
  obtain rfl : violation = violation' := hviolation
  cases violation with
  | some v =>
    refine ⟨.inl ⟨v, check_of_violation hbuild, check_of_violation hbuild'⟩, s, t,
      Session.pipeline_of_violation hbuild, Session.pipeline_of_violation hbuild', hgraph.titles,
      fun id d => (hgraph.inputs id).mem_iff, fun id d => (hgraph.outputs id).mem_iff, ?_⟩
    rw [hs.propagation, ht.propagation]
  | none =>
    obtain ⟨hend, hstats⟩ := hgraph.run hs.wellFormed ht.wellFormed order
    obtain ⟨hrun, hpropagation⟩ := hs.propagated
    obtain ⟨hrun', hpropagation'⟩ := ht.propagated
    rw [← hrun, ← hrun'] at hend
    have hstatus : s.propagated.verify.status = t.propagated.verify.status :=
      Session.verify_status_eq hnone hend.length fun id d => (hend.inputs id).mem_iff
    refine ⟨.inr ⟨_, _, check_of_build hbuild, check_of_build hbuild', hstatus, hend.types_eq⟩,
      _, _, Session.pipeline_of_build hbuild, Session.pipeline_of_build hbuild', hend.titles,
      fun id d => (hend.inputs id).mem_iff, fun id d => (hend.outputs id).mem_iff, ?_⟩
    exact hpropagation.trans ((congrArg some hstats).trans hpropagation'.symm)

/-- Two callbacks give `a.map` two types. If the first is told once more, `a.map` gives three, and
nothing else comes of it: neither if the types are passed on nor if the events end in a
violation. -/
theorem check_repeat_mapped :
    let before := mappedEvents [.primitive "string", .primitive "number"]
    let event : Event := .invoke
      { source := "a"
        token := "map"
        arguments :=
          [.callback { params := [.primitive "number"], returns := .primitive "string" }] }
    let on : String → Event := fun source => .invoke { source, token := "on" }
    ((checkedGraph (before ++ [event] ++ [on "a.map"]) .lifo).outputsOf 1).length = 3 ∧
    ((checkedGraph (before ++ [on "a.map"]) .lifo).outputsOf 1).length = 2 ∧
    (∃ r q, check (before ++ [event] ++ [on "a.map"]) .lifo = .ok r ∧
      check (before ++ [on "a.map"]) .lifo = .ok q ∧ r.status = q.status ∧ r.types = q.types ∧
      (Session.pipeline {} (before ++ [event] ++ [on "a.map"]) .verify).1.propagation =
        (Session.pipeline {} (before ++ [on "a.map"]) .verify).1.propagation) ∧
    ∃ v, check (before ++ [event] ++ [on "z"]) .fifo = .error v ∧
      check (before ++ [on "z"]) .fifo = .error v := by
  intro before event on
  have hmem : event ∈ before := by decide
  have hbefore : ∀ order, (Session.build { order } before).2 = none := by
    rintro (_ | _) <;> decide +kernel
  refine ⟨by decide +kernel, by decide +kernel, ?_, ?_⟩
  · have hstatus : (check (before ++ [on "a.map"]) .lifo).map (·.status) = .ok .fail := by
      decide +kernel
    obtain ⟨⟨v, -, hv⟩ | ⟨r, q, hr, hq, hsame⟩, s, t, rfl, rfl, -, -, -, hpropagation⟩ :=
      check_repeat (hbefore .lifo) hmem [on "a.map"]
    · rw [hv] at hstatus
      cases hstatus
    · exact ⟨r, q, hr, hq, hsame.1, hsame.2, hpropagation⟩
  · have hfail : (check (before ++ [on "z"]) .fifo).map (·.status) =
        .error (.unresolvedSource "z" "on" none) := by decide +kernel
    obtain ⟨hviolation | ⟨r, q, -, hq, -⟩, -⟩ := check_repeat (hbefore .fifo) hmem [on "z"]
    · exact hviolation
    · rw [hq] at hfail
      cases hfail

end StreamTyping
