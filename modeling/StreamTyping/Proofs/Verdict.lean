import StreamTyping.Proofs.Denotation
import StreamTyping.Proofs.Propagation
import StreamTyping.Proofs.WellTyped
import StreamTyping.Report.Basic

/-!
# The verdict is exact

A check that comes to a report succeeds if the program is well typed, and fails
if it is not. The build makes the graph that the events tell, the propagation
gives every stream the types that are required of it, and the verdict is about
these types.

* `Session.verify_status`: when a verdict is a success.
* `Session.pipeline_eq_of_violation` and `Session.pipeline_eq_of_build`: what all
  the passes of a check come to.
* `Graph.Follows.types_iff_tells`: the types of a stream after the propagation.
* `check_status_iff`: the verdict of a whole check.
-/

namespace StreamTyping

/-! ## What a verdict looks at -/

/-- The types that a stream takes, without the reasons for them. -/
def Stream.types (s : Stream) : List Descriptor := s.inputs.map (·.descriptor)

theorem conflicts_eq_nil_iff {l : List Attribution} :
    conflicts l = [] ↔ ∀ d ∈ l.map (·.descriptor), ∀ d' ∈ l.map (·.descriptor), d = d' := by
  induction l with
  | nil => simp [conflicts]
  | cons a l ih =>
    rw [conflicts, List.append_eq_nil_iff, List.map_eq_nil_iff, List.filter_eq_nil_iff, ih,
      List.map_cons]
    constructor
    · rintro ⟨hfirst, -⟩
      -- All types are the first one.
      have hall : ∀ d ∈ a.descriptor :: l.map (·.descriptor), d = a.descriptor := by
        intro d hd
        rcases List.mem_cons.1 hd with rfl | hd
        · rfl
        · obtain ⟨b, hb, rfl⟩ := List.mem_map.1 hd
          have hab : a.descriptor = b.descriptor := by simpa using hfirst b hb
          exact hab.symm
      intro d hd d' hd'
      rw [hall d hd, hall d' hd']
    · intro h
      refine ⟨fun b hb => ?_, fun d hd d' hd' => h d (.tail _ hd) d' (.tail _ hd')⟩
      have hab := h a.descriptor (.head _) b.descriptor (.tail _ (List.mem_map_of_mem hb))
      simp [hab]

/-- Nothing is wrong with a stream that takes one type. -/
theorem Stream.findings_eq_nil_iff {s : Stream} :
    s.findings = [] ↔ (∃ d, d ∈ s.types) ∧ ∀ d ∈ s.types, ∀ d' ∈ s.types, d = d' := by
  rw [Stream.findings, List.append_eq_nil_iff, List.map_eq_nil_iff, conflicts_eq_nil_iff, and_comm]
  refine and_congr_left fun _ => ?_
  rw [Stream.types]
  cases s.inputs with
  | nil => simp
  | cons a rest => exact iff_of_true rfl ⟨a.descriptor, .head _⟩

theorem Stream.mismatch_mem_findings_iff {s : Stream} {name : String} {a b : Attribution} :
    .mismatch name a b ∈ s.findings ↔ s.name = name ∧ (a, b) ∈ conflicts s.inputs := by
  have huntyped : .mismatch name a b ∉
      if s.inputs.isEmpty then [Finding.untyped s.name s.locator] else [] := by
    split <;> simp
  rw [Stream.findings, List.mem_append, or_iff_left huntyped, List.mem_map]
  constructor
  · rintro ⟨p, hp, heq⟩
    cases heq
    exact ⟨rfl, hp⟩
  · rintro ⟨rfl, hp⟩
    exact ⟨(a, b), hp, rfl⟩

theorem Session.verify_status (s : Session) :
    s.verify.status = if s.diagnostics = [] ∧ s.graph.findings = [] then .success else .fail := by
  have hnil : (s.raise (s.graph.findings.map (·.diagnostic))).diagnostics.isEmpty = true ↔
      s.diagnostics = [] ∧ s.graph.findings = [] := by
    rw [List.isEmpty_iff, Session.raise, List.append_eq_nil_iff, List.map_eq_nil_iff]
  exact if_congr hnil rfl rfl

/-- The session of a check after types have been passed on. -/
def Session.propagated (s : Session) : Session := (s.runPass [] .propagate).1

/-- A violation ends a pipeline within the build, whichever pass it was to end with. -/
theorem Session.pipeline_eq_of_violation {start s : Session} {events : List Event} {v : Violation}
    (h : start.build events = (s, some v)) (terminal : Pass) :
    start.pipeline events terminal = (s, [], some v) := by
  cases terminal <;> simp [pipeline, runPasses, runPass, h]

/-- A pipeline that comes to its end has built a graph without a violation. -/
theorem Session.build_of_pipeline {start : Session} {events : List Event} {terminal : Pass}
    (h : (start.pipeline events terminal).2.2 = none) :
    ∃ s, start.build events = (s, none) := by
  cases hbuild : start.build events with
  | mk s violation =>
    cases violation with
    | none => exact ⟨s, rfl⟩
    | some v =>
      rw [pipeline_eq_of_violation hbuild] at h
      cases h

/-- A pipeline without a violation, and what each of its passes raises: the build what is wrong
with events, and the verdict what is wrong with streams. -/
theorem Session.pipeline_eq_of_build {start s : Session} {events : List Event}
    (h : start.build events = (s, none)) :
    let built : PassRun := ⟨.build, s.diagnostics.drop start.diagnostics.length⟩
    start.pipeline events .build = (s, [built], none) ∧
    start.pipeline events .propagate = (s.propagated, [built, ⟨.propagate, []⟩], none) ∧
    start.pipeline events .verify = (s.propagated.verify, [built, ⟨.propagate, []⟩,
      ⟨.verify, s.propagated.graph.findings.map (·.diagnostic)⟩], none) := by
  have hpropagate : s.propagated.diagnostics.drop s.diagnostics.length = [] := List.drop_length
  have hverify : s.propagated.verify.diagnostics.drop s.propagated.diagnostics.length =
      s.propagated.graph.findings.map (·.diagnostic) := List.drop_left
  have hbuild : ∀ terminal passes, terminal.required = .build :: passes →
      start.pipeline events terminal =
        ((s.runPasses events passes).1,
          ⟨.build, s.diagnostics.drop start.diagnostics.length⟩ ::
            (s.runPasses events passes).2.1, (s.runPasses events passes).2.2) := by
    intro terminal passes hrequired
    rw [pipeline, hrequired, runPasses, runPass, h]
  rw [hbuild _ _ Pass.required_build, hbuild _ _ Pass.required_propagate,
    hbuild _ _ Pass.required_verify, ← hverify, ← hpropagate]
  exact ⟨rfl, rfl, rfl⟩

theorem check_of_build {events : List Event} {order : Order} {s : Session}
    (h : Session.build { order } events = (s, none)) :
    check events order = .ok s.propagated.verify.report := by
  rw [check, (Session.pipeline_eq_of_build h).2.2]

theorem check_of_violation {events : List Event} {order : Order} {s : Session} {v : Violation}
    (h : Session.build { order } events = (s, some v)) : check events order = .error v := by
  rw [check, Session.pipeline_eq_of_violation h]

/-- A report is that of the session which the events build, after types have been passed on. -/
theorem check_eq_ok {events : List Event} {order : Order} {report : Report}
    (h : check events order = .ok report) :
    ∃ s, Session.build { order } events = (s, none) ∧ report = s.propagated.verify.report := by
  cases hbuild : Session.build { order } events with
  | mk s violation =>
    cases violation with
    | some _ =>
      rw [check_of_violation hbuild] at h
      cases h
    | none =>
      rw [check_of_build hbuild] at h
      exact ⟨s, rfl, (Except.ok.inj h).symm⟩

/-- What is known of the outcome of a check holds of a report. -/
theorem exists_report_of_map {α : Type} {events : List Event} {order : Order} {f : Report → α}
    {a : α} (h : (check events order).map f = .ok a) :
    ∃ report, check events order = .ok report ∧ f report = a := by
  cases hcheck : check events order with
  | error v =>
    rw [hcheck] at h
    cases h
  | ok report =>
    rw [hcheck] at h
    exact ⟨report, rfl, Except.ok.inj h⟩

/-! ## The types of streams after the propagation -/

theorem mem_entriesOf {name : String} {x : Attribution} {l : List (String × Attribution)} :
    x ∈ entriesOf name l ↔ (name, x) ∈ l := by
  simp [entriesOf]

namespace Graph

namespace Follows

variable {g : Graph} {a : Account} (h : g.Follows a)

include h

theorem exists_stream? {name : String} (hname : name ∈ a.mentions.map (·.1)) :
    ∃ t s, g.stream? t = some s ∧ s.name = name := by
  rw [← List.mem_eraseDups, ← h.names] at hname
  obtain ⟨s, hs, rfl⟩ := List.mem_map.1 hname
  obtain ⟨t, ht⟩ := exists_stream?_of_mem hs
  exact ⟨t, s, ht, rfl⟩

/-- A stream is fed by the strong links to it. -/
theorem feeds_iff {t : StreamId} {s : Stream} (hs : g.stream? t = some s) {x : Attribution} :
    g.Feeds x t ↔ ∃ link ∈ a.links, link.weak = false ∧ link.target = s.name ∧
      (link.source, x) ∈ a.gives := by
  have hname : g.nameOf? t = some s.name := nameOf?_eq_some_iff.2 ⟨s, hs, rfl⟩
  constructor
  · rintro ⟨e, he, hweak, rfl, r, hr, hx⟩
    obtain ⟨link, hlink, hsource, htarget, hlabel⟩ := h.exists_link he
    rw [nameOf?_eq_some_iff.2 ⟨r, hr, rfl⟩] at hsource
    rw [hname] at htarget
    refine ⟨link, hlink, hlabel ▸ hweak, (Option.some.inj htarget).symm, ?_⟩
    rw [h.outputs _ r hr] at hx
    rw [← Option.some.inj hsource]
    exact mem_entriesOf.1 hx
  · rintro ⟨link, hlink, hweak, htarget, hx⟩
    obtain ⟨e, he, hsource, ht, hlabel⟩ := h.exists_edge hlink
    rw [htarget] at ht
    obtain ⟨r, hr, hrname⟩ := nameOf?_eq_some_iff.1 hsource
    refine ⟨e, he, hlabel ▸ hweak, h.wellFormed.nameOf?_inj ht hname, r, hr, ?_⟩
    rw [h.outputs _ r hr, mem_entriesOf, hrname]
    exact hx

variable {k : Graph} {new : StreamId → List Attribution} (hc : Closure g k new)

include hc

/-- When all types are passed on, a stream takes the types that the account tells. -/
theorem types_iff_tells {t : StreamId} {s r : Stream} (hs : g.stream? t = some s)
    (hr : k.stream? t = some r) {d : Descriptor} : d ∈ r.types ↔ a.Tells s.name d := by
  rw [Stream.types, hc.takes_iff hs hr, h.inputs t s hs, Account.Tells, List.mem_map]
  refine or_congr (exists_congr fun x => and_congr_left fun _ => mem_entriesOf) ?_
  constructor
  · rintro ⟨x, hx, rfl⟩
    obtain ⟨link, hlink, hweak, htarget, hgives⟩ := (h.feeds_iff hs).1 hx
    exact ⟨link, hlink, hweak, htarget, x, hgives, rfl⟩
  · rintro ⟨link, hlink, hweak, htarget, x, hgives, rfl⟩
    exact ⟨x, (h.feeds_iff hs).2 ⟨link, hlink, hweak, htarget, hgives⟩, rfl⟩

/-- Nothing is wrong with the streams if the account tells one type of each of them. -/
theorem findings_eq_nil_iff : k.findings = [] ↔ ∀ name ∈ a.mentions.map (·.1),
    (∃ d, a.Tells name d) ∧ ∀ d d', a.Tells name d → a.Tells name d' → d = d' := by
  rw [Graph.findings, List.flatMap_eq_nil_iff]
  constructor
  · intro hall name hname
    obtain ⟨t, s, hs, rfl⟩ := h.exists_stream? hname
    have hr := hc.streams t
    rw [hs, Option.map_some] at hr
    obtain ⟨⟨d, hd⟩, hunique⟩ := Stream.findings_eq_nil_iff.1 (hall _ (mem_of_stream? hr))
    have htells := fun d => h.types_iff_tells hc hs hr (d := d)
    exact ⟨⟨d, (htells d).1 hd⟩,
      fun d d' hd hd' => hunique d ((htells d).2 hd) d' ((htells d').2 hd')⟩
  · intro hall r hmem
    obtain ⟨t, hr⟩ := exists_stream?_of_mem hmem
    obtain ⟨s, hs, -⟩ := Option.map_eq_some_iff.1 ((hc.streams t).symm.trans hr)
    have htells := fun d => h.types_iff_tells hc hs hr (d := d)
    obtain ⟨⟨d, hd⟩, hunique⟩ := hall s.name
      (h.mentioned (nameOf?_eq_some_iff.2 ⟨s, hs, rfl⟩))
    exact Stream.findings_eq_nil_iff.2 ⟨⟨d, (htells d).2 hd⟩,
      fun d hd d' hd' => hunique d d' ((htells d).1 hd) ((htells d').1 hd')⟩

omit hc in
/-- An account tells types of the streams that it mentions. -/
theorem mentioned_of_tells {name : String} {d : Descriptor} (htells : a.Tells name d) :
    name ∈ a.mentions.map (·.1) := by
  rcases htells with ⟨x, hx, -⟩ | ⟨link, hlink, -, rfl, -⟩
  · exact h.takes_mentioned _ hx
  · obtain ⟨e, -, -, htarget, -⟩ := h.exists_edge hlink
    exact h.mentioned htarget

end Follows

end Graph

/-! ## Whole checks -/

/-- The streams can be typed by the rules if the account of the events tells one type of each
stream that it mentions, and nothing wrong. -/
theorem wellTyped_iff_tells {events : List Event} {g : Graph}
    (h : g.Follows (.ofEvents events)) :
    WellTyped events ↔ events.flatMap (·.faults) = [] ∧
      ∀ name ∈ (Account.ofEvents events).mentions.map (·.1),
        (∃ d, (Account.ofEvents events).Tells name d) ∧ ∀ d d',
          (Account.ofEvents events).Tells name d → (Account.ofEvents events).Tells name d' →
          d = d' := by
  have hmentions : ∀ name, name ∈ (Account.ofEvents events).mentions.map (·.1) ↔
      ∃ event ∈ events, name ∈ event.mentions := by
    intro name
    rw [Account.map_ofEvents_mentions, List.mem_flatMap]
  simp only [← requires_iff_tells, List.flatMap_eq_nil_iff, Event.faults_eq_nil_iff]
  constructor
  · rintro ⟨hregular, hassignment, htyped⟩
    refine ⟨hregular, fun name hname => ?_⟩
    obtain ⟨event, hevent, hmem⟩ := (hmentions name).1 hname
    exact ⟨htyped event hevent name hmem, exists_assignment_iff.1 hassignment name⟩
  · rintro ⟨hregular, hall⟩
    refine ⟨hregular, exists_assignment_iff.2 fun name d d' hd hd' => ?_,
      fun event hevent name hmem => ?_⟩
    · exact (hall name (h.mentioned_of_tells (requires_iff_tells.1 hd))).2 d d' hd hd'
    · exact (hall name ((hmentions name).2 ⟨event, hevent, hmem⟩)).1

/-- A check that comes to a report succeeds if the program is well typed, and fails if it is
not. -/
theorem check_status_iff {events : List Event} {order : Order} {report : Report}
    (h : check events order = .ok report) :
    (report.status = .success ↔ WellTyped events) ∧
      (report.status = .fail ↔ ¬ WellTyped events) := by
  obtain ⟨s, hbuild, rfl⟩ := check_eq_ok h
  have hfollows := (Session.follows_fresh order).build hbuild
  rw [Account.empty_append] at hfollows
  have hseed : ∀ id ∈ ([] : List StreamId), id < s.graph.streams.length := by simp
  have hclosure : s.graph.Closure s.propagated.graph _ :=
    hfollows.graph.wellFormed.closure_run s.order hseed
  have hdiagnostics : s.propagated.diagnostics = [] ↔ events.flatMap (·.faults) = [] := by
    show s.diagnostics = [] ↔ _
    rw [hfollows.diagnostics, List.map_eq_nil_iff, Account.ofEvents_faults]
  have hwell : WellTyped events ↔
      s.propagated.diagnostics = [] ∧ s.propagated.graph.findings = [] := by
    rw [wellTyped_iff_tells hfollows.graph, hdiagnostics,
      hfollows.graph.findings_eq_nil_iff hclosure]
  have hstatus : s.propagated.verify.report.status =
      if s.propagated.diagnostics = [] ∧ s.propagated.graph.findings = [] then .success else .fail :=
    s.propagated.verify_status
  rw [hstatus, hwell]
  split
  · rename_i hnone
    exact ⟨iff_of_true rfl hnone, iff_of_false nofun (not_not_intro hnone)⟩
  · rename_i hsome
    exact ⟨iff_of_false nofun hsome, iff_of_true rfl hsome⟩

/-- Events of a well-typed program: the only type of `a` is what `a.map` gives, which goes to
`a` but not to `b.with`. -/
def loopEvents : List Event :=
  [ .declare { name := "a" },
    .invoke
      { source := "a"
        token := "map"
        arguments := [.callback { params := [.primitive "number"], returns := .primitive "number" }] },
    .declare { name := "b", descriptor := some (.primitive "string") },
    .invoke
      { source := "b"
        token := "withLatestFrom"
        arguments :=
          [ .stream "a.map",
            .callback
              { params := [.primitive "string", .primitive "number"]
                returns := .primitive "boolean" } ] },
    .invoke { source := "a.map", token := "to", arguments := [.stream "a"] } ]

theorem check_status_iff_loop :
    (∃ report, check loopEvents .lifo = .ok report ∧ report.status = .success ∧
      WellTyped loopEvents) ∧
    ∃ report, check Session.feedbackEvents .fifo = .ok report ∧ report.status = .fail ∧
      ¬ WellTyped Session.feedbackEvents := by
  have hloop : (check loopEvents .lifo).map (·.status) = .ok .success := by decide +kernel
  have hfeedback : (check Session.feedbackEvents .fifo).map (·.status) = .ok .fail := by
    decide +kernel
  constructor
  · cases h : check loopEvents .lifo with
    | error _ => rw [h] at hloop; cases hloop
    | ok report =>
      rw [h] at hloop
      have hstatus : report.status = .success := Except.ok.inj hloop
      exact ⟨report, rfl, hstatus, (check_status_iff h).1.1 hstatus⟩
  · cases h : check Session.feedbackEvents .fifo with
    | error _ => rw [h] at hfeedback; cases hfeedback
    | ok report =>
      rw [h] at hfeedback
      have hstatus : report.status = .fail := Except.ok.inj hfeedback
      exact ⟨report, rfl, hstatus, (check_status_iff h).2.1 hstatus⟩

end StreamTyping
