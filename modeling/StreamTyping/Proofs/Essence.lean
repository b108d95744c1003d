import StreamTyping.Proofs.Downstream
import StreamTyping.Proofs.Reading

/-!
# Places and numbers decide nothing

Events cite places, for themselves and for their callbacks, and an invocation
may have numbers among its arguments. A check carries both along, and shows
places in its messages, but decides nothing by them: checks of events with the
same essences have the same verdict, types and edges.

* `Graph.essence`: a graph without places and numbers. All ways of adding to a
  graph can be seen on it (`Graph.simulation_essence`).
* `Graph.sameThrough_of_essence`: graphs with the same essence propagate alike, and
  a propagation leaves graphs with the same essence
  (`Graph.WellFormed.essence_run`).
* `check_of_essence`: whole checks.
-/

namespace StreamTyping

/-! ## Graphs without places and numbers -/

/-- A stream without places. -/
def Stream.essence (s : Stream) : Stream :=
  { s with
    locator := none
    inputs := s.inputs.map (·.essence)
    outputs := s.outputs.map (·.essence) }

/-- An edge without its number and its place. -/
def Edge.essence (e : Edge) : Edge := { e with toEdgeLabel := e.toEdgeLabel.essence }

namespace Graph

/-- A graph without places and numbers. -/
def essence (g : Graph) : Graph :=
  { g with streams := g.streams.map (·.essence), edges := g.edges.map (·.essence) }

theorem stream?_essence (g : Graph) (t : StreamId) :
    g.essence.stream? t = (g.stream? t).map (·.essence) := List.getElem?_map

theorem length_streams_essence (g : Graph) : g.essence.streams.length = g.streams.length :=
  List.length_map _

theorem nameOf?_essence (g : Graph) (t : StreamId) : g.essence.nameOf? t = g.nameOf? t := by
  rw [nameOf?, nameOf?, stream?_essence, Option.map_map]
  rfl

theorem lookup?_essence (g : Graph) (name : String) :
    g.essence.lookup? name = g.lookup? name := rfl

theorem intern_essence (g : Graph) (name : String) (locator : Option Locator) :
    g.essence.intern name none =
      ((g.intern name locator).1.essence, (g.intern name locator).2) := by
  cases hl : g.lookup? name with
  | some id =>
    rw [intern_of_lookup? hl, intern_of_lookup? (g.lookup?_essence name ▸ hl)]
  | none =>
    rw [intern_of_lookup?_none hl, intern_of_lookup?_none (g.lookup?_essence name ▸ hl),
      length_streams_essence]
    simp [essence, Stream.essence]

theorem connect_essence (g : Graph) (source target : StreamId) (label : EdgeLabel) :
    (g.connect source target label).essence = g.essence.connect source target label.essence := by
  have hlength : g.essence.edges.length = g.edges.length := List.length_map _
  refine ext_stream? ?_ rfl fun i => ?_
  · rw [connect_edges, hlength]
    exact List.map_append
  · rw [stream?_essence, stream?_connect, stream?_connect, stream?_essence, Option.map_map,
      Option.map_map, hlength]
    rfl

theorem addInput_essence (g : Graph) (id : StreamId) (a : Attribution) :
    (g.addInput id a).essence = g.essence.addInput id a.essence := by
  refine ext_stream? rfl rfl fun i => ?_
  rw [stream?_essence, stream?_addInput, stream?_addInput, stream?_essence]
  cases g.stream? i <;> by_cases hi : id = i <;> simp [hi, Stream.essence]

theorem addOutput_essence (g : Graph) (id : StreamId) (a : Attribution) :
    (g.addOutput id a).essence = g.essence.addOutput id a.essence := by
  refine ext_stream? rfl rfl fun i => ?_
  rw [stream?_essence, addOutput, stream?_modify, addOutput, stream?_modify, stream?_essence]
  cases g.stream? i <;> by_cases hi : id = i <;> simp [hi, Stream.essence]

/-- What is added with the same essence to graphs with the same essence. -/
theorem simulation_essence : Simulation False fun g h => g.essence = h.essence where
  lookup hessence name := by rw [← lookup?_essence, hessence, lookup?_essence]
  nameOf hessence id := by rw [← nameOf?_essence, hessence, nameOf?_essence]
  intern {g h} hessence name l l' _ := by
    have hintern := congrArg (fun k => Graph.intern k name none) hessence
    simp only [intern_essence g name l, intern_essence h name l'] at hintern
    exact Prod.mk.inj hintern
  connect hessence source target label label' hlabel := by
    rw [connect_essence, connect_essence, hessence, hlabel.1]
  addInput hessence id a a' ha := by rw [addInput_essence, addInput_essence, hessence, ha.1]
  addOutput hessence id a a' ha := by rw [addOutput_essence, addOutput_essence, hessence, ha.1]

/-! ## What is told of a graph -/

theorem adjacency_of_essence {g h : Graph} (hessence : g.essence = h.essence) :
    g.adjacency = h.adjacency := by
  have hself : ∀ k : Graph, k.essence.adjacency = k.adjacency := by
    intro k
    refine adjacency_eq_of_map ?_ ?_ <;> rw [essence, List.map_map] <;> rfl
  rw [← hself, hessence, hself]

end Graph

theorem map_descriptor_essence (l : List Attribution) :
    (l.map (·.essence)).map (·.descriptor) = l.map (·.descriptor) := by
  rw [List.map_map]
  rfl

theorem Stream.resolved?_essence (s : Stream) : s.essence.resolved? = s.resolved? := by
  rw [Stream.resolved?_eq, Stream.resolved?_eq, Stream.types, Stream.types, Stream.essence,
    map_descriptor_essence, map_descriptor_essence]

namespace Graph

theorem types_essence (g : Graph) : g.essence.types = g.types := by
  refine types_eq_of_map ?_
  rw [essence, List.map_map]
  exact List.map_congr_left fun s _ => Prod.ext rfl s.resolved?_essence

theorem map_kind_findings_essence (g : Graph) :
    g.essence.findings.map (·.kind) = g.findings.map (·.kind) := by
  rw [findings, findings, essence, List.flatMap_map, List.map_flatMap, List.map_flatMap]
  refine List.flatMap_congr fun s _ => ?_
  rw [Stream.map_kind_findings, Stream.map_kind_findings, Stream.types, Stream.types,
    Stream.essence, map_descriptor_essence]

/-! ## Propagations -/

/-- Graphs with the same essence look the same to a propagation. -/
theorem sameThrough_of_essence {g h : Graph} (hessence : g.essence = h.essence) :
    g.SameThrough Attribution.essence h := by
  have hstream : ∀ t, (g.stream? t).map (·.essence) = (h.stream? t).map (·.essence) := fun t => by
    rw [← stream?_essence, hessence, stream?_essence]
  have hread : ∀ (k : Graph) (part : Stream → List Attribution),
      (∀ s, part s.essence = (part s).map (·.essence)) → ∀ t,
      (((k.stream? t).map part).getD []).map (·.essence) =
        (((k.stream? t).map (·.essence)).map part).getD [] := by
    intro k part hpart t
    cases k.stream? t with
    | none => rfl
    | some s => exact (hpart s).symm
  have hchildren : ∀ k : Graph, ∀ t, k.strongChildren t = k.essence.strongChildren t := by
    intro k t
    rw [strongChildren, strongChildren, edgesFrom, edgesFrom, essence, List.filter_map,
      List.filter_map, List.map_map]
    rfl
  refine ⟨?_, fun t => ?_, fun t => ?_, fun t => ?_⟩
  · rw [← length_streams_essence, hessence, length_streams_essence]
  · rw [inputsOf, inputsOf, hread g _ (fun _ => rfl), hread h _ (fun _ => rfl), hstream]
  · rw [outputsOf, outputsOf, hread g _ (fun _ => rfl), hread h _ (fun _ => rfl), hstream]
  · rw [hchildren g, hchildren h, hessence]

theorem Closure.stream?_essence {g h : Graph} {new : StreamId → List Attribution}
    (hc : Closure g h new) (t : StreamId) : h.essence.stream? t =
      (g.essence.stream? t).map fun s => { s with inputs := (h.inputsOf t).map (·.essence) } := by
  rw [Graph.stream?_essence, Graph.stream?_essence, inputsOf, hc.streams t]
  cases g.stream? t <;> rfl

/-- Propagations of graphs with the same essence leave graphs with the same essence, and take as
much. -/
theorem WellFormed.essence_run {g h : Graph} (hg : g.WellFormed) (hh : h.WellFormed)
    (hessence : g.essence = h.essence) (order : Order) :
    ((g.start order []).run order).graph.essence = ((h.start order []).run order).graph.essence ∧
      ((g.start order []).run order).stats = ((h.start order []).run order).stats := by
  have hdescriptor : ∀ {a b : Attribution}, a.essence = b.essence → a.descriptor = b.descriptor :=
    fun hab => (Attribution.mk.inj hab).1
  have hsame := sameThrough_of_essence hessence
  have hclosure := hg.closure_run order (List.forall_mem_nil _)
  have hclosure' := hh.closure_run order (List.forall_mem_nil _)
  refine ⟨ext_stream? ?_ ?_ fun t => ?_, (hsame.abreast hdescriptor).stats_run hg hh order []⟩
  · have hedges := congrArg Graph.edges hessence
    rw [essence, essence, hclosure.edges, hclosure'.edges]
    exact hedges
  · have hindex := congrArg Graph.index hessence
    rw [essence, essence, hclosure.index_eq, hclosure'.index_eq]
    exact hindex
  · rw [hclosure.stream?_essence, hclosure'.stream?_essence, hessence,
      (hsame.run hdescriptor hg hh order (List.forall_mem_nil _)).inputs t]

end Graph

/-! ## Whole checks -/

namespace Session

theorem simulation_essence : Session.Simulation False (fun g h => g.essence = h.essence)
    (fun l l' => l.map (·.kind) = l'.map (·.kind)) where
  toSimulation := Graph.simulation_essence
  raise hraised found found' hfound := by
    have hkinds : ∀ l : List Finding,
        (l.map (·.diagnostic)).map Diagnostic.kind = l.map Finding.kind := fun l => List.map_map
    rw [List.map_append, List.map_append, hkinds, hkinds, hraised, hfound.1]

/-- What a verdict on a graph decides is decided by the essence of the graph. -/
theorem verify_of_essence {s t : Session}
    (hkinds : s.diagnostics.map (·.kind) = t.diagnostics.map (·.kind))
    (hessence : s.graph.essence = t.graph.essence) :
    s.verify.diagnostics.map (·.kind) = t.verify.diagnostics.map (·.kind) ∧
      s.verify.status = t.verify.status := by
  have hfindings : s.graph.findings.map (·.kind) = t.graph.findings.map (·.kind) := by
    rw [← Graph.map_kind_findings_essence, hessence, Graph.map_kind_findings_essence]
  have hraised : s.verify.diagnostics.map (·.kind) = t.verify.diagnostics.map (·.kind) :=
    simulation_essence.raise hkinds ⟨hfindings, False.elim⟩
  refine ⟨hraised, ?_⟩
  have hstatus : ∀ u : Session, u.verify.status =
      if (u.verify.diagnostics.map (·.kind)).isEmpty then .success else .fail := by
    intro u
    rw [List.isEmpty_map]
    rfl
  rw [hstatus, hstatus, hraised]

/-- Reports on graphs with the same essence. -/
theorem report_of_essence {s t : Session}
    (hkinds : s.diagnostics.map (·.kind) = t.diagnostics.map (·.kind))
    (hessence : s.graph.essence = t.graph.essence) : s.report.types = t.report.types ∧
      s.report.graph = t.report.graph ∧
      s.report.errors.map headlineCode = t.report.errors.map headlineCode := by
  refine ⟨?_, ?_, ?_⟩
  · show s.graph.types = t.graph.types
    rw [← Graph.types_essence, hessence, Graph.types_essence]
  · exact Graph.adjacency_of_essence hessence
  · have hcodes : ∀ u : Session,
        u.report.errors.map headlineCode = (u.diagnostics.map (·.kind)).map (·.code) := by
      intro u
      rw [report, List.map_map, List.map_map]
      exact List.map_congr_left fun d _ => headlineCode_headline d
    rw [hcodes, hcodes, hkinds]

end Session

/-- Checks of events that differ in the places that they cite and in the numbers among the
arguments, and in nothing else, come to the same violation at the same event, or tell the same but
for the texts of the errors. They leave the same streams, edges and types, in the same places,
with the same provenances. -/
theorem check_of_essence {events others : List Event}
    (h : events.map Event.essence = others.map Event.essence) (order : Order) :
    ((∃ v w, check events order = .error v ∧ check others order = .error w ∧
        v.essence = w.essence ∧
        Session.applied { order } events = Session.applied { order } others) ∨
      ∃ r q, check events order = .ok r ∧ check others order = .ok q ∧
        r.status = q.status ∧ r.types = q.types ∧ r.graph = q.graph ∧
        r.errors.map headlineCode = q.errors.map headlineCode) ∧
    ∃ s t, (Session.pipeline { order } events .verify).1 = s ∧
      (Session.pipeline { order } others .verify).1 = t ∧
      s.graph.essence = t.graph.essence ∧ s.graph.adjacency = t.graph.adjacency ∧
      s.propagation = t.propagation ∧ s.status = t.status ∧
      s.diagnostics.map (·.kind) = t.diagnostics.map (·.kind) := by
  have hevents : SameUpTo False (List.map Event.essence) events others := ⟨h, False.elim⟩
  have hfresh : ({ order } : Session).Beside (fun g h => g.essence = h.essence)
      (fun l l' => l.map (·.kind) = l'.map (·.kind)) { order } := ⟨rfl, rfl⟩
  have happlied := hfresh.applied Session.simulation_essence hevents
  obtain ⟨⟨hgraph, hkinds⟩, hviolation, -⟩ := hfresh.build Session.simulation_essence hevents
  cases hbuild : Session.build { order } events with
  | mk s violation =>
  cases hbuild' : Session.build { order } others with
  | mk t violation' =>
  rw [hbuild] at hgraph hkinds hviolation
  rw [hbuild'] at hgraph hkinds hviolation
  have hs := Session.built hbuild
  have ht := Session.built hbuild'
  cases violation with
  | some v =>
    obtain ⟨w, rfl, hw⟩ := Option.map_eq_some_iff.1 hviolation.symm
    refine ⟨.inl ⟨v, w, check_of_violation hbuild, check_of_violation hbuild', hw.symm, happlied⟩,
      s, t, Session.pipeline_of_violation hbuild, Session.pipeline_of_violation hbuild', hgraph,
      Graph.adjacency_of_essence hgraph, ?_, ?_, hkinds⟩
    · rw [hs.propagation, ht.propagation]
    · rw [hs.status, ht.status]
  | none =>
    obtain rfl := Option.map_eq_none_iff.1 hviolation.symm
    obtain ⟨hend, hstats⟩ := hs.wellFormed.essence_run ht.wellFormed hgraph order
    obtain ⟨hrun, hpropagation⟩ := hs.propagated
    obtain ⟨hrun', hpropagation'⟩ := ht.propagated
    rw [← hrun, ← hrun'] at hend
    have hraised : s.propagated.diagnostics.map (·.kind) = t.propagated.diagnostics.map (·.kind) :=
      hkinds
    obtain ⟨hraised, hstatus⟩ := Session.verify_of_essence hraised hend
    refine ⟨.inr ⟨_, _, check_of_build hbuild, check_of_build hbuild', hstatus,
        Session.report_of_essence hraised hend⟩,
      _, _, Session.pipeline_of_build hbuild, Session.pipeline_of_build hbuild', hend,
      Graph.adjacency_of_essence hend, ?_, hstatus, hraised⟩
    exact hpropagation.trans ((congrArg some hstats).trans hpropagation'.symm)

/-- Events with given places and numbers, and two things wrong with them: an operator is unknown, and
`a` takes two types. -/
def placedEvents (place callback : Option Locator) (numbers : List Argument) : List Event :=
  [ .declare { name := "a", descriptor := some (.primitive "number"), locator := place },
    .invoke
      { source := "a"
        token := "map"
        arguments :=
          .callback
              { params := [.primitive "number"]
                returns := .primitive "string"
                locator := callback } ::
            numbers
        locator := place },
    .invoke { source := "a", token := "scan", arguments := numbers, locator := place },
    .invoke { source := "a.map", token := "to", arguments := numbers ++ [.stream "a"] } ]

/-- Places and numbers make a difference to the texts of the errors alone, and to the place of a
violation. -/
theorem check_of_essence_placed :
    let place : Option Locator := some ⟨"main.ts", 3, 7⟩
    let stray : Option Locator → Event := fun l => .invoke { source := "z", token := "on", locator := l }
    let events := placedEvents place none []
    let others := placedEvents none place [.number 2, .number 0.5]
    (∃ r q, check events .fifo = .ok r ∧ check others .fifo = .ok q ∧ r.errors ≠ q.errors ∧
      r.status = q.status ∧ r.types = q.types ∧ r.graph = q.graph ∧
      r.errors.map headlineCode = q.errors.map headlineCode) ∧
    ∃ v w, check (events ++ [stray place]) .lifo = .error v ∧
      check (others ++ [stray none]) .lifo = .error w ∧ v ≠ w ∧ v.essence = w.essence ∧
      Session.applied {} (events ++ [stray place]) = 4 ∧
      Session.applied {} (others ++ [stray none]) = 4 := by
  intro place stray events others
  have hevents : events.map Event.essence = others.map Event.essence := rfl
  have hmore : (events ++ [stray place]).map Event.essence =
      (others ++ [stray none]).map Event.essence := rfl
  constructor
  · have htexts : (check events .fifo).map (·.errors) ≠ (check others .fifo).map (·.errors) := by
      decide +kernel
    have hcount : (check events .fifo).map (·.errors.length) = .ok 2 := by decide +kernel
    obtain ⟨⟨v, w, hv, -⟩ | ⟨r, q, hr, hq, hsame⟩, -⟩ := check_of_essence hevents .fifo
    · rw [hv] at hcount
      cases hcount
    · refine ⟨r, q, hr, hq, fun htext => htexts ?_, hsame⟩
      rw [hr, hq]
      exact congrArg Except.ok htext
  · have hplaces : check (events ++ [stray place]) .lifo ≠ check (others ++ [stray none]) .lifo := by
      decide +kernel
    have hcount : Session.applied {} (events ++ [stray place]) = 4 := by decide +kernel
    have hfail : (check (events ++ [stray place]) .lifo).map (·.status) =
        .error (.unresolvedSource "z" "on" place) := by decide +kernel
    obtain ⟨⟨v, w, hv, hw, hessence, happlied⟩ | ⟨r, q, hr, -⟩, -⟩ := check_of_essence hmore .lifo
    · refine ⟨v, w, hv, hw, fun hvw => hplaces ?_, hessence, hcount, happlied.symm.trans hcount⟩
      rw [hv, hw, hvw]
    · rw [hr] at hfail
      cases hfail

end StreamTyping
