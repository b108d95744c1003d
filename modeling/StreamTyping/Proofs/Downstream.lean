import StreamTyping.Proofs.Confluence

/-!
# What a success says of the types passed on

The types that a stream gives are passed on along its strong edges, and a
verdict looks at the types that streams take. So a success says much of what
comes along a strong edge from a stream that gives a type, and little else: it
says nothing of the types that a stream gives without passing them on, nor of
the types that a stream takes and, as it gives none, does not pass on either.

* `checkedGraph`: the graph that a check leaves. `Checked` says how it belongs to
  the events and to the report.
* `Checked.passed_on`: on success, a strong edge has one type at both ends.
* `outputs_eq_reported`, `inputs_eq_reported`: what a report of success tells of
  a stream is what the stream gives, and what its strong children take.
-/

namespace StreamTyping

/-- The graph that a check leaves. -/
def checkedGraph (events : List Event) (order : Order) : Graph :=
  (({ order } : Session).pipeline events .verify).1.graph

theorem Session.pipeline_of_build {start s : Session} {events : List Event}
    (h : start.build events = (s, none)) :
    (start.pipeline events .verify).1 = s.propagated.verify := by
  rw [(Session.pipeline_eq_of_build h).2.2]

theorem Session.pipeline_of_violation {start s : Session} {events : List Event} {v : Violation}
    (h : start.build events = (s, some v)) : (start.pipeline events .verify).1 = s := by
  rw [Session.pipeline_eq_of_violation h]

/-- A session in which a graph has been built for a check in the given order, and nothing else has
been done. -/
structure Session.Built (order : Order) (s : Session) : Prop where
  wellFormed : s.graph.WellFormed
  order_eq : s.order = order
  status : s.status = .pending
  propagation : s.propagation = none

theorem Session.built {order : Order} {events : List Event} {s : Session}
    {violation : Option Violation} (h : Session.build { order } events = (s, violation)) :
    s.Built order := by
  have hframe := Session.build_frame { order } events
  have hwf := (Session.build?_eq (s := { order }) Graph.wellFormed_empty events).2
  rw [h] at hframe hwf
  exact ⟨hwf, hframe.1, hframe.2.1, hframe.2.2⟩

theorem Session.Built.propagated {order : Order} {s : Session} (h : s.Built order) :
    s.propagated.graph = ((s.graph.start order []).run order).graph ∧
      s.propagated.propagation = some ((s.graph.start order []).run order).stats := by
  obtain rfl := h.order_eq
  exact ⟨rfl, rfl⟩

theorem checkedGraph_of_build {order : Order} {events : List Event} {s : Session}
    (h : Session.build { order } events = (s, none)) :
    checkedGraph events order = s.propagated.graph := by
  rw [checkedGraph, Session.pipeline_of_build h]
  rfl

/-- A report on the events tells of a graph with all types passed on. -/
structure Checked (events : List Event) (report : Report) (k : Graph) : Prop where
  /-- The types are those that the events tell, or are passed on. -/
  closure : ∃ (g : Graph) (new : _), g.Follows (.ofEvents events) ∧ g.Closure k new
  wellFormed : k.WellFormed
  types : report.types = k.types
  findings : report.status = .success → k.findings = []

theorem checked_of_check {events : List Event} {order : Order} {report : Report}
    (h : check events order = .ok report) : Checked events report (checkedGraph events order) := by
  obtain ⟨s, hbuild, rfl⟩ := check_eq_ok h
  have hfollows := (Session.follows_fresh order).build hbuild
  rw [Account.empty_append] at hfollows
  have hseed : ∀ id ∈ ([] : List StreamId), id < s.graph.streams.length := by simp
  have hwf := hfollows.graph.wellFormed
  rw [checkedGraph_of_build hbuild]
  refine ⟨⟨s.graph, _, hfollows.graph, hwf.closure_run s.order hseed⟩,
    hwf.propagateFrom? (Graph.propagateFrom?_of_valid hseed s.order), rfl, fun hsuccess => ?_⟩
  have hstatus := s.propagated.verify_status.symm.trans hsuccess
  split at hstatus
  · rename_i hnone
    exact hnone.2
  · cases hstatus

theorem Stream.resolved?_of_outputs {s : Stream} {a : Attribution} (ha : a ∈ s.outputs)
    (hall : ∀ b ∈ s.outputs, b.descriptor = a.descriptor) : s.resolved? = some a.descriptor := by
  obtain ⟨b, rest, houtputs⟩ := List.exists_cons_of_ne_nil (List.ne_nil_of_mem ha)
  have hb : b.descriptor = a.descriptor := hall b (houtputs ▸ .head _)
  rw [Stream.resolved?_eq, houtputs, List.map_cons, List.cons_append, List.head?_cons, hb]

namespace Checked

variable {events : List Event} {report : Report} {k : Graph} (h : Checked events report k)

include h

variable (hsuccess : report.status = .success) {e : Edge} (he : e ∈ k.edges)
  (hweak : e.weak = false) {s t : Stream} (hs : k.stream? e.source = some s)
  (ht : k.stream? e.target = some t)

include hsuccess he hweak hs ht

/-- A type that is given at the start of a strong edge is all that is taken at its end. -/
theorem passed_on {a b : Attribution} (ha : a ∈ s.outputs) (hb : b ∈ t.inputs) :
    b.descriptor = a.descriptor := by
  obtain ⟨g, new, -, hclosure⟩ := h.closure
  have hfindings := List.flatMap_eq_nil_iff.1 (h.findings hsuccess) t (Graph.mem_of_stream? ht)
  have htaken : a.descriptor ∈ t.types :=
    Stream.hasInput_iff.1 (hclosure.complete e he hweak s t hs ht a ha)
  exact (Stream.findings_eq_nil_iff.1 hfindings).2 _ (List.mem_map_of_mem hb) _ htaken

/-- All types that are given at the start of a strong edge are the same. -/
theorem outputs_eq {a b : Attribution} (ha : a ∈ s.outputs) (hb : b ∈ s.outputs) :
    b.descriptor = a.descriptor := by
  have hfindings := List.flatMap_eq_nil_iff.1 (h.findings hsuccess) t (Graph.mem_of_stream? ht)
  obtain ⟨⟨d, hd⟩, -⟩ := Stream.findings_eq_nil_iff.1 hfindings
  obtain ⟨x, hx, rfl⟩ := List.mem_map.1 hd
  rw [← h.passed_on hsuccess he hweak hs ht ha hx, ← h.passed_on hsuccess he hweak hs ht hb hx]

theorem get?_types_of_outputs {a : Attribution} (ha : a ∈ s.outputs) :
    report.types.get? s.name = some a.descriptor := by
  rw [h.types, h.wellFormed.get?_types (Graph.mem_of_stream? hs)]
  exact Stream.resolved?_of_outputs ha fun b hb => h.outputs_eq hsuccess he hweak hs ht ha hb

end Checked

/-! ## The types that a stream gives -/

/-- On success, a stream with a strong edge gives at most one type, however often, and it is the
type that the report tells. -/
theorem outputs_eq_reported {events : List Event} {order : Order} {report : Report}
    (h : check events order = .ok report) (hsuccess : report.status = .success) :
    ∀ s ∈ (checkedGraph events order).streams,
      (∃ e ∈ (checkedGraph events order).edges, e.source = s.id ∧ e.weak = false) →
      (∀ a ∈ s.outputs, ∀ b ∈ s.outputs, a.descriptor = b.descriptor) ∧
      ∀ a ∈ s.outputs, report.types.get? s.name = some a.descriptor := by
  rintro s hs ⟨e, he, hsource, hweak⟩
  have hchecked := checked_of_check h
  have hsource : (checkedGraph events order).stream? e.source = some s :=
    hsource ▸ hchecked.wellFormed.stream?_id hs
  obtain ⟨t, ht⟩ := Graph.exists_stream? (hchecked.wellFormed.ends e he).2
  exact ⟨fun a ha b hb => hchecked.outputs_eq hsuccess he hweak hsource ht hb ha,
    fun a ha => hchecked.get?_types_of_outputs hsuccess he hweak hsource ht ha⟩

/-- A stream that is mapped by each of the callbacks in turn. -/
def mappedEvents (results : List Descriptor) : List Event :=
  .declare { name := "a", descriptor := some (.primitive "number") } :: results.map fun result =>
    .invoke
      { source := "a"
        token := "map"
        arguments := [.callback { params := [.primitive "number"], returns := result }] }

/-- A stream gives a type twice, and passes it on. -/
def twiceMapped : List Event :=
  mappedEvents [.primitive "string", .primitive "string"] ++
    [.invoke { source := "a.map", token := "on" }]

theorem outputs_eq_reported_twice :
    ∃ report, check twiceMapped .fifo = .ok report ∧ report.status = .success ∧
      ∃ s ∈ (checkedGraph twiceMapped .fifo).streams, s.outputs.length = 2 ∧
        (∃ e ∈ (checkedGraph twiceMapped .fifo).edges, e.source = s.id ∧ e.weak = false) ∧
        ∀ a ∈ s.outputs, report.types.get? s.name = some a.descriptor := by
  have hcheck : check twiceMapped .fifo = .ok
      { status := .success
        errors := []
        types := .ofList [("a", .primitive "number"), ("a.map", .primitive "string"),
          ("a.map.on", .primitive "string")]
        graph := .ofList [("a", [⟨.map, false, "a.map"⟩, ⟨.map, false, "a.map"⟩]),
          ("a.map", [⟨.observe, false, "a.map.on"⟩])] } := by decide +kernel
  have hstream : ∃ s ∈ (checkedGraph twiceMapped .fifo).streams, s.outputs.length = 2 ∧
      ∃ e ∈ (checkedGraph twiceMapped .fifo).edges, e.source = s.id ∧ e.weak = false := by
    decide +kernel
  obtain ⟨s, hs, htwo, hedge⟩ := hstream
  exact ⟨_, hcheck, rfl, s, hs, htwo, hedge, (outputs_eq_reported hcheck rfl s hs hedge).2⟩

/-- The types that a stream gives may differ in a check that succeeds, if they are not passed
on: the report tells the first only. -/
theorem success_of_rival_outputs :
    let events := mappedEvents [.primitive "string", .primitive "boolean"]
    check events .lifo = .ok
      { status := .success
        errors := []
        types := .ofList [("a", .primitive "number"), ("a.map", .primitive "string")]
        graph := .ofList [("a", [⟨.map, false, "a.map"⟩, ⟨.map, false, "a.map"⟩])] } ∧
    ∃ s ∈ (checkedGraph events .lifo).streams, ∃ a ∈ s.outputs, ∃ b ∈ s.outputs,
      a.descriptor ≠ b.descriptor := by
  decide +kernel

/-! ## The types at the ends of an edge -/

/-- On success, all that is taken at the end of a strong edge is the type that the report tells
of its start, if a type is given there. -/
theorem inputs_eq_reported {events : List Event} {order : Order} {report : Report}
    (h : check events order = .ok report) (hsuccess : report.status = .success) :
    ∀ e ∈ (checkedGraph events order).edges, e.weak = false → ∀ s t,
      (checkedGraph events order).stream? e.source = some s →
      (checkedGraph events order).stream? e.target = some t → s.outputs ≠ [] →
      ∀ b ∈ t.inputs, report.types.get? s.name = some b.descriptor := by
  intro e he hweak s t hs ht houtputs b hb
  have hchecked := checked_of_check h
  obtain ⟨a, ha⟩ := List.exists_mem_of_ne_nil _ houtputs
  rw [hchecked.passed_on hsuccess he hweak hs ht ha hb]
  exact hchecked.get?_types_of_outputs hsuccess he hweak hs ht ha

theorem inputs_eq_reported_loop :
    ∃ report, check loopEvents .lifo = .ok report ∧ report.status = .success ∧
      ∃ e ∈ (checkedGraph loopEvents .lifo).edges, e.weak = false ∧
        ∃ s ∈ (checkedGraph loopEvents .lifo).stream? e.source,
        ∃ t ∈ (checkedGraph loopEvents .lifo).stream? e.target, s.outputs ≠ [] ∧
          ∀ b ∈ t.inputs, report.types.get? s.name = some b.descriptor := by
  have hcheck : check loopEvents .lifo = .ok
      { status := .success
        errors := []
        types := .ofList [("a", .primitive "number"), ("a.map", .primitive "number"),
          ("b", .primitive "string"), ("b.with", .primitive "boolean")]
        graph := .ofList [("a", [⟨.map, false, "a.map"⟩]),
          ("a.map", [⟨.withLatest, true, "b.with"⟩, ⟨.into, false, "a"⟩]),
          ("b", [⟨.withLatest, false, "b.with"⟩])] } := by decide +kernel
  have hedge : ∃ e ∈ (checkedGraph loopEvents .lifo).edges, e.weak = false ∧
      ∃ s ∈ (checkedGraph loopEvents .lifo).stream? e.source,
      ∃ t ∈ (checkedGraph loopEvents .lifo).stream? e.target, s.outputs ≠ [] := by
    decide +kernel
  obtain ⟨e, he, hweak, s, hs, t, ht, houtputs⟩ := hedge
  exact ⟨_, hcheck, rfl, e, he, hweak, s, hs, t, ht, houtputs,
    inputs_eq_reported hcheck rfl e he hweak s t hs ht houtputs⟩

/-- A stream of a declared type, and a callback that takes another one. -/
def unlikeDeclared : List Event :=
  [ .declare { name := "a", descriptor := some (.primitive "number") },
    .invoke
      { source := "a"
        token := "map"
        arguments :=
          [.callback { params := [.primitive "string"], returns := .primitive "boolean" }] } ]

/-- A type that is declared is not passed on, so that a check may succeed although something
else is taken at the end of a strong edge. -/
theorem success_of_unlike_declared :
    ∃ report, check unlikeDeclared .lifo = .ok report ∧ report.status = .success ∧
      ∃ e ∈ (checkedGraph unlikeDeclared .lifo).edges, e.weak = false ∧ e.operator = .map ∧
        ∃ s ∈ (checkedGraph unlikeDeclared .lifo).stream? e.source,
        ∃ t ∈ (checkedGraph unlikeDeclared .lifo).stream? e.target,
        ∃ b ∈ t.inputs, report.types.get? s.name ≠ some b.descriptor := by
  refine ⟨{ status := .success, errors := [], types := ?_, graph := ?_ }, ?_⟩
  · exact .ofList [("a", .primitive "number"), ("a.map", .primitive "boolean")]
  · exact .ofList [("a", [⟨.map, false, "a.map"⟩])]
  · decide +kernel

end StreamTyping
