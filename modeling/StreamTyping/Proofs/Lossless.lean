import StreamTyping.Proofs.Arrival
import StreamTyping.Proofs.Growth
import StreamTyping.Proofs.Reading

/-!
# Reports lose nothing

A report lists types and edges by the names of streams. As no two streams have
the same name, nothing is lost by that: the edges out of a stream are all
there, in the order in which they were added, and a type is missing only where
the verdict says that there is none.

* `Session.Driven`: a session that events and passes lead to.
* `Graph.Grounded`: no stream gives a type without taking one. Events and passes
  keep this true (`Session.Change.grounded`), so a stream without a type is one
  that takes none.
* `Session.Told`: a report tells all of a session.
* `Session.report_told`: every report of such a session does, and what is more
  after a whole check.
-/

namespace StreamTyping

/-! ## Edges by name -/

namespace Graph

namespace WellFormed

variable {g : Graph} (hg : g.WellFormed)

include hg

/-- The edges that a report tells of a stream, with the names of their targets. -/
theorem map_edgeRecords {s : Stream} (hs : s ∈ g.streams) :
    (g.edgeRecords s).map (fun r => (r.operator, r.weak, some r.child)) =
      (g.edgesFrom s.id).map fun e => (e.operator, e.weak, g.nameOf? e.target) := by
  have hends : ∀ e ∈ g.edgesFrom s.id, e.target < g.streams.length := fun e he =>
    (hg.ends e (List.mem_filter.1 he).1).2
  rw [edgeRecords, hg.childEdges_eq (hg.stream?_id hs)]
  generalize g.edgesFrom s.id = edges at hends
  induction edges with
  | nil => rfl
  | cons e edges ih =>
    obtain ⟨t, ht⟩ := exists_stream? (hends e (.head _))
    have hrest := ih fun f hf => hends f (.tail _ hf)
    simp only [List.filterMap_cons, ht, Option.map_some, List.map_cons, hrest, nameOf?]

/-- A report tells the edges of every stream, and tells nothing of a stream without any. -/
theorem getD_adjacency {s : Stream} (hs : s ∈ g.streams) :
    (g.adjacency.get? s.name).getD [] = g.edgeRecords s := by
  cases hget : g.adjacency.get? s.name with
  | some records =>
    obtain ⟨r, hr, hname, hrecords, -⟩ := hg.get?_adjacency_eq_some_iff.1 hget
    obtain rfl := List.inj_on_of_nodup_map hg.names_nodup hr hs hname
    exact hrecords.symm
  | none =>
    by_contra hsome
    have hbound := hg.get?_adjacency_eq_some_iff.2 ⟨s, hs, rfl, rfl, Ne.symm hsome⟩
    rw [hget] at hbound
    cases hbound

theorem mem_adjacency {p : String × List EdgeRecord} (hp : p ∈ g.adjacency.entries) :
    ∃ s ∈ g.streams, s.name = p.1 ∧ g.edgeRecords s = p.2 := by
  obtain ⟨s, hs, hname, hrecords, -⟩ :=
    hg.get?_adjacency_eq_some_iff.1 (Dict.get?_eq_some_iff.2 hp)
  exact ⟨s, hs, hname, hrecords⟩

/-- A report tells as many edges as there are. -/
theorem sum_length_adjacency :
    (g.adjacency.entries.map (·.2.length)).sum = g.edges.length := by
  -- Streams without edges are left out, but would not count.
  have hfilter : ∀ l : List (String × List EdgeRecord),
      ((l.filter fun p => !p.2.isEmpty).map (·.2.length)).sum = (l.map (·.2.length)).sum := by
    intro l
    induction l with
    | nil => rfl
    | cons p l ih => cases hp : p.2 <;> simp [hp, ih]
  have hrecords : ∀ s ∈ g.streams, (g.edgeRecords s).length = s.children.length := by
    intro s hs
    have hmap := congrArg List.length (hg.map_edgeRecords hs)
    rw [hg.children_eq s hs]
    simpa using hmap
  have hperm := (Dict.entries_ofList_perm hg.nodup_names_records).map (·.2.length)
  calc (g.adjacency.entries.map (·.2.length)).sum
      = (g.streams.map fun s => (g.edgeRecords s).length).sum := by
        rw [adjacency, hperm.sum_eq, hfilter, List.map_map]
        rfl
    _ = (g.streams.map fun s => s.children.length).sum := by
        rw [List.map_congr_left hrecords]
    _ = (g.streams.flatMap (·.children)).length := List.length_flatMap.symm
    _ = g.edges.length := by
        rw [hg.registry.children_perm.length_eq, List.length_range]

end WellFormed

/-! ## No type is given without one being taken -/

/-- A stream that gives a type takes one. -/
def Grounded (g : Graph) : Prop := ∀ s ∈ g.streams, s.outputs ≠ [] → s.inputs ≠ []

namespace Grounded

variable {g : Graph} (hg : g.Grounded)

include hg

theorem widens {h : Graph} (hwidens : g.Widens h) : h.Grounded := by
  obtain ⟨added, hstreams, hadded⟩ := hwidens.streams
  intro s hs houtputs
  rw [hstreams] at hs
  rcases List.mem_append.1 hs with hs | hs
  · exact hg s hs houtputs
  · exact absurd (hadded s hs).2 houtputs

theorem connect (source target : StreamId) (label : EdgeLabel) :
    (g.connect source target label).Grounded := by
  intro s hs
  obtain ⟨i, hi⟩ := exists_stream?_of_mem hs
  rw [stream?_connect] at hi
  obtain ⟨t, ht, rfl⟩ := Option.map_eq_some_iff.1 hi
  exact hg t (mem_of_stream? ht)

/-- A type that is taken grounds its stream, whatever types it gives. -/
theorem modify {f : Stream → Stream} (hf : ∀ s, (f s).inputs ≠ []) (id : StreamId) :
    (g.modify id f).Grounded := by
  intro s hs
  obtain ⟨i, hi⟩ := exists_stream?_of_mem hs
  rw [stream?_modify] at hi
  split at hi
  · obtain ⟨t, -, rfl⟩ := Option.map_eq_some_iff.1 hi
    exact fun _ => hf t
  · exact hg s (mem_of_stream? hi)

end Grounded

theorem modify_modify (g : Graph) (id : StreamId) (f k : Stream → Stream) :
    (g.modify id f).modify id k = g.modify id (k ∘ f) := by
  refine ext_stream? rfl rfl fun i => ?_
  rw [stream?_modify, stream?_modify, stream?_modify]
  by_cases hi : id = i <;> simp [hi]

end Graph

namespace Session

theorem Change.grounded {s t : Session} (h : s.Change t) (hs : s.graph.Grounded) :
    t.graph.Grounded := by
  cases h with
  | widen h => exact hs.widens h
  | connect source target label => exact hs.connect source target label
  | take id a => exact hs.modify (fun s => by simp) id
  | typed id takes gives locator =>
    show (((s.graph.modify id _).modify id _).Grounded)
    rw [Graph.modify_modify]
    exact hs.modify (fun s => by simp) id
  | raise diagnostics => exact hs
  | settle status propagation => exact hs

theorem Changes.grounded {s t : Session} (h : s.Changes t) (hs : s.graph.Grounded) :
    t.graph.Grounded := by
  induction h with
  | refl => exact hs
  | tail _ hchange ih => exact hchange.grounded ih

/-! ## Sessions that events and passes lead to -/

/-- A session that events and passes lead to from a fresh one. Types may also be passed on in
another order, or starting from some streams. -/
inductive Driven : Session → Prop where
  | fresh (order : Order) : Driven { order }
  | apply {s : Session} (h : Driven s) (event : Event) : Driven (s.apply event).1
  | pass {s : Session} (h : Driven s) (events : List Event) (pass : Pass) :
      Driven (s.runPass events pass).1
  | propagate {s : Session} (h : Driven s) {order : Order} {seed : List StreamId} {g : Graph}
      {stats : PropagationStats} (hg : s.graph.propagateFrom? order seed = some (g, stats)) :
      Driven { s with graph := g }

theorem Driven.wellFormed {s : Session} (h : s.Driven) : s.graph.WellFormed := by
  induction h with
  | fresh order => exact Graph.wellFormed_empty
  | apply _ event ih => exact (addEvent?_eq ih event).2
  | pass _ events pass ih => exact runPass_wellFormed ih events pass
  | propagate _ hg ih => exact ih.propagateFrom? hg

theorem Driven.grounded {s : Session} (h : s.Driven) : s.graph.Grounded := by
  induction h with
  | fresh order =>
    intro s hs
    cases hs
  | @apply s _ event ih => exact (Changes.apply s event).grounded ih
  | @pass s _ events pass ih => exact (Changes.runPass s events pass).grounded ih
  | @propagate s _ order seed g stats hg ih =>
    have hchanges := Changes.propagateFrom s order seed
    rw [(Graph.propagateFrom?_eq_some hg).2] at hchanges
    exact hchanges.grounded ih

theorem Driven.runPasses {s : Session} (h : s.Driven) (events : List Event) (passes : List Pass) :
    (s.runPasses events passes).1.Driven := by
  induction passes generalizing s with
  | nil => exact h
  | cons pass passes ih =>
    have hpass := h.pass events pass
    rw [Session.runPasses]
    split
    · rename_i t _ heq
      rw [heq] at hpass
      exact hpass
    · rename_i t heq
      rw [heq] at hpass
      exact ih hpass

/-- A report tells all of a session. -/
structure Told (s : Session) (r : Report) : Prop where
  /-- All edges out of a stream, in the order in which they were added. -/
  edges : ∀ t ∈ s.graph.streams,
    ((r.graph.get? t.name).getD []).map (fun e => (e.operator, e.weak, some e.child)) =
      (s.graph.edges.filter fun e => e.source = t.id).map
        fun e => (e.operator, e.weak, s.graph.nameOf? e.target)
  edge_count : (r.graph.entries.map (·.2.length)).sum = s.graph.edges.length
  /-- Both ends of an edge are streams. -/
  names : ∀ p ∈ r.graph.entries, p.1 ∈ s.graph.streams.map (·.name) ∧
    ∀ e ∈ p.2, e.child ∈ s.graph.streams.map (·.name)
  types : ∀ t ∈ s.graph.streams, r.types.get? t.name = t.resolved?
  type_names : ∀ p ∈ r.types.entries, p.1 ∈ s.graph.streams.map (·.name)
  errors : r.errors = s.diagnostics.map (·.headline)

theorem Driven.told {s : Session} (h : s.Driven) : s.Told s.report := by
  have hs := h.wellFormed
  refine ⟨fun t ht => ?_, hs.sum_length_adjacency, fun p hp => ?_, fun t ht => hs.get?_types ht,
    fun p hp => Graph.mem_names_of_get?_types (Dict.get?_eq_some_iff.2 hp), rfl⟩
  · show ((s.graph.adjacency.get? t.name).getD []).map _ = _
    rw [hs.getD_adjacency ht, hs.map_edgeRecords ht]
    rfl
  · obtain ⟨t, ht, hname, hrecords⟩ := hs.mem_adjacency hp
    refine ⟨List.mem_map.2 ⟨t, ht, hname⟩, fun e he => ?_⟩
    rw [← hrecords, Graph.edgeRecords] at he
    obtain ⟨edge, -, hedge⟩ := List.mem_filterMap.1 he
    obtain ⟨target, htarget, rfl⟩ := Option.map_eq_some_iff.1 hedge
    exact List.mem_map_of_mem (Graph.mem_of_stream? htarget)

end Session

/-! ## Streams without a type -/

theorem Finding.message_untyped_inj {a b : String} {l m : Option Locator}
    (h : (untyped a l).message = (untyped b m).message) : a = b := by
  unfold message at h
  rw [String.append_left_inj, String.append_right_inj] at h
  exact h

/-- The words for a stream without types tell its name and its place. -/
theorem Finding.eq_untyped_of_diagnostic {f : Finding} {name : String} {locator : Option Locator}
    (h : f.diagnostic = (untyped name locator).diagnostic) : f = untyped name locator := by
  obtain ⟨hkind, hlocator, hmessage, -, -⟩ := Diagnostic.mk.inj h
  cases f with
  | untyped other place =>
    rw [message_untyped_inj hmessage, show place = locator from hlocator]
  | unknownOperator | missingCallback | extraCallbacks | parameterCount | mismatch => cases hkind

theorem Stream.untyped_mem_findings_iff {s : Stream} {name : String} {locator : Option Locator} :
    .untyped name locator ∈ s.findings ↔ s.inputs = [] ∧ s.name = name ∧ s.locator = locator := by
  have hmismatch : .untyped name locator ∉
      (conflicts s.inputs).map fun p => Finding.mismatch s.name p.1 p.2 := by simp
  rw [Stream.findings, List.mem_append, or_iff_right hmismatch]
  by_cases hs : s.inputs = []
  · simp [hs, eq_comm (a := name), eq_comm (a := locator)]
  · simp [hs]

/-- A stream of a grounded graph has no type if it takes none, and this is what the verdict says. -/
theorem Graph.Grounded.resolved?_eq_none_iff {g : Graph} (hgrounded : g.Grounded)
    (hg : g.WellFormed) {t : Stream} (ht : t ∈ g.streams) : t.resolved? = none ↔
      (Finding.untyped t.name t.locator).diagnostic ∈ g.findings.map (·.diagnostic) := by
  rw [Stream.resolved?_eq_none_iff]
  constructor
  · rintro ⟨hinputs, -⟩
    have hfinding : .untyped t.name t.locator ∈ t.findings :=
      Stream.untyped_mem_findings_iff.2 ⟨hinputs, rfl, rfl⟩
    exact List.mem_map_of_mem (List.mem_flatMap.2 ⟨t, ht, hfinding⟩)
  · intro hraised
    obtain ⟨f, hf, hdiagnostic⟩ := List.mem_map.1 hraised
    obtain rfl := Finding.eq_untyped_of_diagnostic hdiagnostic
    obtain ⟨r, hr, hfinding⟩ := List.mem_flatMap.1 hf
    obtain ⟨hinputs, hname, -⟩ := Stream.untyped_mem_findings_iff.1 hfinding
    obtain rfl := List.inj_on_of_nodup_map hg.names_nodup hr ht hname
    exact ⟨hinputs, by_contra fun houtputs => hgrounded r ht houtputs hinputs⟩

namespace Session

theorem verify_status_eq_success_iff (s : Session) :
    s.verify.report.status = .success ↔ s.verify.report.errors = [] := by
  have hstatus : s.verify.report.status = s.verify.status := rfl
  rw [hstatus, verify_status, errors_verify, List.map_eq_nil_iff, List.append_eq_nil_iff,
    List.map_eq_nil_iff]
  split <;> simp [*]

/-- The report of a session that events and passes lead to tells all of it. After a whole check,
it tells no type of exactly those streams that the verdict says have none; on success there are no
such streams. The check succeeds if the report tells no error. -/
theorem report_told :
    (∀ s : Session, s.Driven → s.Told s.report ∧ s.graph.Grounded) ∧
    ∀ order events s runs, pipeline { order } events .verify = (s, runs, none) →
      check events order = .ok s.report ∧ s.Driven ∧
      (∀ t ∈ s.graph.streams, s.report.types.get? t.name = none ↔ ∃ run ∈ runs,
        run.pass = .verify ∧ (Finding.untyped t.name t.locator).diagnostic ∈ run.raised) ∧
      (s.report.status = .success →
        ∀ t ∈ s.graph.streams, ∃ d, s.report.types.get? t.name = some d) ∧
      (s.report.status = .success ↔ s.report.errors = []) := by
  refine ⟨fun s hs => ⟨hs.told, hs.grounded⟩, fun order events s runs h => ?_⟩
  have hdriven : s.Driven := by
    have hruns := (Driven.fresh order).runPasses events Pass.verify.required
    rwa [show runPasses { order } events Pass.verify.required = (s, runs, none) from h] at hruns
  obtain ⟨built, hbuild⟩ := build_of_pipeline (congrArg (·.2.2) h)
  rw [(pipeline_eq_of_build hbuild).2.2] at h
  obtain ⟨rfl, hrest⟩ := Prod.mk.inj h
  obtain ⟨rfl, -⟩ := Prod.mk.inj hrest
  have huntyped : ∀ t ∈ built.propagated.graph.streams,
      built.propagated.verify.report.types.get? t.name = none ↔
        (Finding.untyped t.name t.locator).diagnostic ∈
          built.propagated.graph.findings.map (·.diagnostic) := fun t ht => by
    rw [hdriven.told.types t ht]
    exact hdriven.grounded.resolved?_eq_none_iff hdriven.wellFormed ht
  refine ⟨check_of_build hbuild, hdriven, fun t ht => ?_, fun hsuccess t ht => ?_,
    verify_status_eq_success_iff _⟩
  · rw [huntyped t ht]
    simp
  · have herrors := (verify_status_eq_success_iff _).1 hsuccess
    rw [errors_verify, List.map_eq_nil_iff, List.append_eq_nil_iff] at herrors
    refine Option.ne_none_iff_exists'.1 fun hnone => ?_
    have hraised := (huntyped t ht).1 hnone
    rw [herrors.2] at hraised
    cases hraised

/-- The stream `b` has no type, and neither has `b.with`, which the typed stream `a` is weakly
connected with. -/
def looseEvents : List Event :=
  [ .declare { name := "a", descriptor := some (.primitive "number") },
    .declare { name := "b" },
    .invoke { source := "b", token := "withLatestFrom", arguments := [.name "a"] } ]

theorem report_told_loose :
    (∃ s runs, pipeline {} looseEvents .verify = (s, runs, none) ∧ s.Told s.report ∧
      s.report.graph.get? "a" = some [⟨.withLatest, true, "b.with"⟩] ∧
      s.report.types.get? "b" = none ∧ ∃ run ∈ runs, run.pass = .verify ∧
        (Finding.untyped "b" none).diagnostic ∈ run.raised) ∧
    ∃ s runs, pipeline {} loopEvents .verify = (s, runs, none) ∧ s.report.status = .success ∧
      ∀ t ∈ s.graph.streams, ∃ d, s.report.types.get? t.name = some d := by
  obtain ⟨htold, hcheck⟩ := report_told
  constructor
  · have hend : pipeline {} looseEvents .verify = ((pipeline {} looseEvents .verify).1,
        (pipeline {} looseEvents .verify).2.1, none) :=
      Prod.ext rfl (Prod.ext rfl (by decide +kernel))
    obtain ⟨-, hdriven, huntyped, -, -⟩ := hcheck .lifo looseEvents _ _ hend
    have hloose : ∃ t ∈ (pipeline {} looseEvents .verify).1.graph.streams,
        t.name = "b" ∧ t.locator = none ∧
        (pipeline {} looseEvents .verify).1.report.types.get? t.name = none := by decide +kernel
    obtain ⟨t, ht, hname, hlocator, hnone⟩ := hloose
    have hraised := (huntyped t ht).1 hnone
    rw [hname, hlocator] at hraised
    rw [hname] at hnone
    exact ⟨_, _, hend, (htold _ hdriven).1, by decide +kernel, hnone, hraised⟩
  · have hend : pipeline {} loopEvents .verify = ((pipeline {} loopEvents .verify).1,
        (pipeline {} loopEvents .verify).2.1, none) :=
      Prod.ext rfl (Prod.ext rfl (by decide +kernel))
    have hsuccess : (pipeline {} loopEvents .verify).1.report.status = .success := by
      decide +kernel
    obtain ⟨-, -, -, htyped, -⟩ := hcheck .lifo loopEvents _ _ hend
    exact ⟨_, _, hend, hsuccess, htyped hsuccess⟩

end Session

end StreamTyping
