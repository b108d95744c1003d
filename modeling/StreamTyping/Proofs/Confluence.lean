import Mathlib.Data.List.Forall2
import Mathlib.Data.List.Nodup
import StreamTyping.Proofs.Dict
import StreamTyping.Proofs.Reachable
import StreamTyping.Proofs.Verdict

/-!
# What the order of turns can not change

The order in which streams have their turns, and the seed that a propagation
begins with, decide in which order a stream comes to take its types, and from
which of several streams it takes a type. They decide nothing else: the types
themselves are the same, and so is all that a report tells but the types of
streams which got none in the build, and the words of the errors.

* `Graph.Alike`: graphs that differ in the order of the types their streams
  take, and what reports on such graphs have in common.
* `Graph.WellFormed.propagation_alike`: propagations leave graphs alike.
* `Session.build_withOrder`: a build takes no notice of the order.
* `check_confluent`: the reports of checks in different orders.
-/

namespace StreamTyping

/-! ## Graphs that differ in the order of types -/

/-- Streams that differ at most in the order in which they take their types, and in the reasons
for them. -/
structure Stream.Alike (s r : Stream) : Prop where
  eq : r = { s with inputs := r.inputs }
  types : s.types.Perm r.types

/-- Graphs with the same edges whose streams are alike, one by one. -/
structure Graph.Alike (g h : Graph) : Prop where
  edges : g.edges = h.edges
  streams : List.Forall₂ Stream.Alike g.streams h.streams

/-- How many pairs of different types there are in a list. -/
def clashes : List Descriptor → Nat
  | [] => 0
  | d :: ds => ds.countP (fun e => d ≠ e) + clashes ds

theorem length_conflicts (l : List Attribution) :
    (conflicts l).length = clashes (l.map (·.descriptor)) := by
  induction l with
  | nil => rfl
  | cons a l ih =>
    rw [conflicts, List.length_append, List.length_map, ih, List.map_cons, clashes,
      List.countP_map, List.countP_eq_length_filter]
    rfl

theorem clashes_perm {ds es : List Descriptor} (h : ds.Perm es) : clashes ds = clashes es := by
  induction h with
  | nil => rfl
  | cons d h ih => rw [clashes, clashes, ih, h.countP_eq]
  | swap d e ds =>
    simp only [clashes, List.countP_cons, ne_comm (a := d) (b := e)]
    omega
  | trans _ _ ih₁ ih₂ => exact ih₁.trans ih₂

/-- What is wrong with a stream: a mismatch for every clash, and that it takes no type. -/
theorem Stream.map_kind_findings (s : Stream) :
    s.findings.map (·.kind) = List.replicate (clashes s.types) .typeMismatch ++
      if s.types.isEmpty then [.untyped] else [] := by
  rw [Stream.findings, List.map_append, Stream.types, ← length_conflicts, List.isEmpty_map]
  congr 1
  · rw [List.map_map]
    exact List.map_const'
  · split <;> rfl

namespace Stream.Alike

variable {s r : Stream} (h : s.Alike r)

include h

theorem map_kind_findings : s.findings.map (·.kind) = r.findings.map (·.kind) := by
  rw [s.map_kind_findings, r.map_kind_findings, clashes_perm h.types, h.types.isEmpty_eq]

theorem name_eq : s.name = r.name := by
  rw [h.eq]

theorem outputs_eq : s.outputs = r.outputs := by
  rw [h.eq]

theorem children_eq : s.children = r.children := by
  rw [h.eq]

theorem length_inputs : s.inputs.length = r.inputs.length := by
  have hlength := h.types.length_eq
  rwa [Stream.types, Stream.types, List.length_map, List.length_map] at hlength

end Stream.Alike

theorem Stream.resolved?_eq (s : Stream) :
    s.resolved? = (s.outputs.map (·.descriptor) ++ s.types).head? := by
  rw [Stream.resolved?, Stream.types, ← List.map_append, List.head?_map, List.head?_append]
  cases s.outputs.head? <;> rfl

/-- Either both of two streams alike have a type to pass on, or none of them has. -/
theorem Stream.Alike.map_unit_resolved? {s r : Stream} (h : s.Alike r) :
    s.resolved?.map (fun _ => ()) = r.resolved?.map fun _ => () := by
  rw [s.resolved?_eq, r.resolved?_eq, h.outputs_eq, ← List.head?_map, ← List.head?_map,
    List.map_const', List.map_const', (h.types.append_left _).length_eq]

/-- Streams alike that take one type only pass the same type on. -/
theorem Stream.Alike.resolved?_eq_of_findings_eq_nil {s r : Stream} (h : s.Alike r)
    (hs : s.findings = []) : s.resolved? = r.resolved? := by
  obtain ⟨⟨d, hd⟩, hall⟩ := Stream.findings_eq_nil_iff.1 hs
  have hsame : s.types = List.replicate s.types.length d :=
    List.eq_replicate_of_mem fun e he => hall e he d hd
  have htypes : s.types = r.types := by
    have hperm := h.types
    rw [hsame] at hperm ⊢
    exact List.replicate_perm.1 hperm
  rw [s.resolved?_eq, r.resolved?_eq, h.outputs_eq, htypes]

/-- What is the same for streams alike is the same for lists of them. -/
theorem map_eq_of_alike {α : Type} {l m : List Stream} (h : List.Forall₂ Stream.Alike l m)
    {f f' : Stream → α} (hf : ∀ s ∈ l, ∀ r, s.Alike r → f s = f' r) : l.map f = m.map f' := by
  induction h with
  | nil => rfl
  | cons halike _ ih =>
    rw [List.map_cons, List.map_cons, hf _ (.head _) _ halike,
      ih fun s hs => hf s (.tail _ hs)]

namespace Graph.Alike

variable {g k : Graph} (h : g.Alike k)

include h

theorem map_kind_findings : g.findings.map (·.kind) = k.findings.map (·.kind) := by
  rw [Graph.findings, Graph.findings, List.map_flatMap, List.map_flatMap, List.flatMap_def,
    List.flatMap_def, map_eq_of_alike h.streams fun _ _ _ halike => halike.map_kind_findings]

theorem inputCount_eq : g.inputCount = k.inputCount := by
  rw [inputCount, inputCount, map_eq_of_alike h.streams fun _ _ _ halike => halike.length_inputs]

/-- A stream takes the same types. -/
theorem perm_inputsOf (t : StreamId) :
    ((g.inputsOf t).map (·.descriptor)).Perm ((k.inputsOf t).map (·.descriptor)) := by
  obtain ⟨hlength, hget⟩ := List.forall₂_iff_get.1 h.streams
  by_cases ht : t < g.streams.length
  · have hs : g.stream? t = some g.streams[t] := List.getElem?_eq_getElem ht
    have hr : k.stream? t = some k.streams[t] := List.getElem?_eq_getElem (hlength ▸ ht)
    rw [inputsOf_of_stream? hs, inputsOf_of_stream? hr]
    exact (hget t ht (hlength ▸ ht)).types
  · have hs : g.stream? t = none := List.getElem?_eq_none (Nat.le_of_not_lt ht)
    have hr : k.stream? t = none := List.getElem?_eq_none (hlength ▸ Nat.le_of_not_lt ht)
    rw [inputsOf, inputsOf, hs, hr]

theorem nameOf?_eq (t : StreamId) : g.nameOf? t = k.nameOf? t := by
  rw [nameOf?, nameOf?, stream?, stream?, ← List.getElem?_map, ← List.getElem?_map,
    map_eq_of_alike h.streams fun _ _ _ halike => halike.name_eq]

theorem edgeRecords_eq {s r : Stream} (halike : s.Alike r) : g.edgeRecords s = k.edgeRecords r := by
  have hedge : g.edge? = k.edge? := funext fun j => by rw [edge?, edge?, h.edges]
  have hrecord : ∀ e : Edge,
      (g.stream? e.target).map (fun t => (⟨e.operator, e.weak, t.name⟩ : EdgeRecord)) =
        (k.stream? e.target).map fun t => ⟨e.operator, e.weak, t.name⟩ := fun e => by
    have hname := congrArg (Option.map fun name => (⟨e.operator, e.weak, name⟩ : EdgeRecord))
      (h.nameOf?_eq e.target)
    rwa [nameOf?, nameOf?, Option.map_map, Option.map_map] at hname
  rw [edgeRecords, edgeRecords, childEdges, childEdges, halike.children_eq, hedge]
  exact List.filterMap_congr fun e _ => hrecord e

theorem adjacency_eq : g.adjacency = k.adjacency := by
  have hrecords : g.streams.map (fun s => (s.name, g.edgeRecords s)) =
      k.streams.map fun s => (s.name, k.edgeRecords s) :=
    map_eq_of_alike h.streams fun _ _ _ halike =>
      Prod.ext halike.name_eq (h.edgeRecords_eq halike)
  rw [adjacency, adjacency, hrecords]

/-- What depends on the names of streams and on what `f` tells about their types. -/
theorem map_types {α : Type} {f : Descriptor → α}
    (hf : ∀ s ∈ g.streams, ∀ r, s.Alike r → s.resolved?.map f = r.resolved?.map f) :
    g.types.map f = k.types.map f := by
  have hpairs : ∀ l : List Stream,
      (l.filterMap fun s => s.resolved?.map fun d => (s.name, d)).map (fun p => (p.1, f p.2)) =
        (l.map fun s => (s.resolved?.map f).map fun x => (s.name, x)).filterMap id := fun l => by
    rw [List.map_filterMap, List.filterMap_map]
    refine List.filterMap_congr fun s _ => ?_
    rw [Function.comp, Option.map_map, Option.map_map]
    rfl
  have hstreams : (g.streams.map fun s => (s.resolved?.map f).map fun x => (s.name, x)) =
      k.streams.map fun s => (s.resolved?.map f).map fun x => (s.name, x) :=
    map_eq_of_alike h.streams fun s hs r halike => by rw [hf s hs r halike, halike.name_eq]
  rw [types, types, Dict.map_ofList, Dict.map_ofList, hpairs, hpairs, hstreams]

/-- The same streams have a type. -/
theorem names_types : g.types.entries.map (·.1) = k.types.entries.map (·.1) := by
  have hunit := h.map_types (f := fun _ => ()) fun _ _ _ halike => halike.map_unit_resolved?
  have hnames := congrArg (fun d : Dict Unit => d.entries.map (·.1)) hunit
  simp only [Dict.map, List.map_map] at hnames
  exact hnames

/-- If nothing is wrong with the streams, they have the same types. -/
theorem types_eq_of_findings_eq_nil (hnone : g.findings = []) : g.types = k.types := by
  have hid := h.map_types (f := id) fun s hs r halike => by
    rw [halike.resolved?_eq_of_findings_eq_nil (List.flatMap_eq_nil_iff.1 hnone s hs)]
  exact Dict.ext (by simpa [Dict.map] using hid)

end Graph.Alike

/-! ## Propagations leave graphs alike -/

namespace Graph

namespace Closure

variable {g h k : Graph} {new fresh : StreamId → List Attribution}

theorem length_streams (hh : Closure g h new) : h.streams.length = g.streams.length := by
  have hle : ∀ t, h.streams.length ≤ t ↔ g.streams.length ≤ t := fun t => by
    have ht := hh.streams t
    rw [stream?, stream?] at ht
    rw [← List.getElem?_eq_none_iff, ← List.getElem?_eq_none_iff, ht, Option.map_eq_none_iff]
  exact Nat.le_antisymm ((hle _).2 (Nat.le_refl _)) ((hle _).1 (Nat.le_refl _))

/-- Streams come to take the same types, in whatever order. -/
theorem perm (hh : Closure g h new) (hk : Closure g k fresh) {t : StreamId} {s : Stream}
    (hs : g.stream? t = some s) :
    ((new t).map (·.descriptor)).Perm ((fresh t).map (·.descriptor)) :=
  (List.perm_ext_iff_of_nodup (hh.distinct t) (hk.distinct t)).2 fun d =>
    (hh.mem_iff t s hs d).trans (hk.mem_iff t s hs d).symm

theorem alike (hh : Closure g h new) (hk : Closure g k fresh) : h.Alike k := by
  refine ⟨hh.edges.trans hk.edges.symm, List.forall₂_iff_get.2
    ⟨hh.length_streams.trans hk.length_streams.symm, fun t ht ht' => ?_⟩⟩
  obtain ⟨s, hs⟩ := exists_stream? (hh.length_streams ▸ ht)
  have hsh := hh.streams t
  have hsk := hk.streams t
  rw [hs, stream?, List.getElem?_eq_getElem ht] at hsh
  rw [hs, stream?, List.getElem?_eq_getElem ht'] at hsk
  rw [List.get_eq_getElem, List.get_eq_getElem, Option.some.inj hsh, Option.some.inj hsk]
  refine ⟨rfl, ?_⟩
  rw [Stream.types, Stream.types, List.map_append, List.map_append]
  exact (hh.perm hk hs).append_left _

end Closure

/-- Propagations in whatever orders and from whatever seeds leave graphs alike, and add as many
types. -/
theorem WellFormed.propagation_alike {g : Graph} (hg : g.WellFormed) (first second : Order)
    {seed reseed : List StreamId} (hseed : ∀ id ∈ seed, id < g.streams.length)
    (hreseed : ∀ id ∈ reseed, id < g.streams.length) :
    ((g.start first seed).run first).graph.Alike ((g.start second reseed).run second).graph ∧
      ((g.start first seed).run first).stats.additions =
        ((g.start second reseed).run second).stats.additions := by
  have halike := (hg.closure_run first hseed).alike (hg.closure_run second hreseed)
  obtain ⟨_, hfirst, -⟩ := Propagation.reaches_run first (g.start first seed)
  obtain ⟨_, hsecond, -⟩ := Propagation.reaches_run second (g.start second reseed)
  have hcount : g.inputCount + ((g.start first seed).run first).stats.additions =
      g.inputCount + ((g.start second reseed).run second).stats.additions := by
    have h₁ : _ + g.inputCount = 0 + _ := hfirst.additions
    have h₂ : _ + g.inputCount = 0 + _ := hsecond.additions
    have hinputs := halike.inputCount_eq
    omega
  exact ⟨halike, Nat.add_left_cancel hcount⟩

/-- The types of a report by the names of the streams. -/
theorem WellFormed.get?_types {g : Graph} (hg : g.WellFormed) {s : Stream} (hs : s ∈ g.streams) :
    g.types.get? s.name = s.resolved? := by
  have hnodup : ((g.streams.filterMap fun s => s.resolved?.map fun d => (s.name, d)).map
      (·.1)).Nodup := by
    refine List.pairwise_map.2 (List.pairwise_filterMap.2 ?_)
    refine (List.pairwise_map.1 hg.names_nodup).imp fun hne p hp q hq => ?_
    obtain ⟨_, -, rfl⟩ := Option.map_eq_some_iff.1 hp
    obtain ⟨_, -, rfl⟩ := Option.map_eq_some_iff.1 hq
    exact hne
  refine Option.ext fun d => ?_
  rw [types, Dict.get?_ofList_eq_some_iff hnodup, List.mem_filterMap]
  constructor
  · rintro ⟨r, hr, hpair⟩
    obtain ⟨e, he, hpair⟩ := Option.map_eq_some_iff.1 hpair
    obtain ⟨hname, rfl⟩ := Prod.mk.inj hpair
    obtain rfl := List.inj_on_of_nodup_map hg.names_nodup hr hs hname
    exact he
  · intro hd
    exact ⟨s, hs, Option.map_eq_some_iff.2 ⟨d, hd, rfl⟩⟩

/-- A stream that takes or gives a type before a propagation has the same type after it. -/
theorem Closure.get?_types {g h : Graph} {new : StreamId → List Attribution} (hc : Closure g h new)
    (hg : g.WellFormed) (hh : h.WellFormed) {s : Stream} (hs : s ∈ g.streams)
    (htyped : s.inputs ≠ [] ∨ s.outputs ≠ []) : h.types.get? s.name = s.resolved? := by
  have hafter := hc.streams s.id
  rw [hg.stream?_id hs, Option.map_some] at hafter
  rw [show s.name = ({ s with inputs := s.inputs ++ new s.id } : Stream).name from rfl,
    hh.get?_types (mem_of_stream? hafter), Stream.resolved?, Stream.resolved?]
  rcases htyped with hinputs | houtputs
  · rw [List.head?_append_of_ne_nil _ hinputs]
  · obtain ⟨a, rest, houtputs⟩ := List.exists_cons_of_ne_nil houtputs
    simp [houtputs]

end Graph

/-! ## A build takes no notice of the order -/

namespace Session

/-- A session that lets streams have their turns in another order. -/
def withOrder (s : Session) (order : Order) : Session := { s with order }

theorem typeTarget_withOrder (s : Session) (order : Order) (call : Invocation) (operator : Operator)
    (target : StreamId) : (s.withOrder order).typeTarget call operator target =
      (s.typeTarget call operator target).withOrder order := by
  unfold typeTarget typeMap typeCombined
  repeat' split
  all_goals rfl

theorem invoke_withOrder (s : Session) (order : Order) (call : Invocation) :
    (s.withOrder order).invoke call =
      ((s.invoke call).1.withOrder order, (s.invoke call).2) := by
  have hgraph : (s.withOrder order).graph = s.graph := rfl
  rw [invoke, invoke, hgraph]
  cases s.graph.lookup? call.source with
  | none => rfl
  | some source =>
    cases Operator.ofToken? call.token with
    | none => rfl
    | some operator =>
      dsimp only
      rcases s.graph.resolveArguments call operator call.arguments with ⟨graph, _ | arguments⟩
      · rfl
      · by_cases hinto : operator = .into
        · simp only [if_pos hinto]
          cases arguments <;> rfl
        · simp only [if_neg hinto, spawn]
          exact Prod.ext (typeTarget_withOrder { s with graph := _ } order call operator _) rfl

theorem apply_withOrder (s : Session) (order : Order) (event : Event) :
    (s.withOrder order).apply event = ((s.apply event).1.withOrder order, (s.apply event).2) := by
  cases event with
  | declare declaration =>
    rw [apply, apply, declare, declare]
    cases declaration.descriptor <;> rfl
  | invoke call => exact s.invoke_withOrder order call

theorem build_withOrder (s : Session) (order : Order) (events : List Event) :
    (s.withOrder order).build events =
      ((s.build events).1.withOrder order, (s.build events).2) := by
  induction events generalizing s with
  | nil => rfl
  | cons event events ih =>
    rw [build, build, apply_withOrder]
    rcases s.apply event with ⟨t, _ | name⟩
    · rfl
    · exact ih t

/-- The graph that events build from the start, up to the first violation. -/
def builtGraph (events : List Event) : Graph := (build {} events).1.graph

theorem wellFormed_builtGraph (events : List Event) : (builtGraph events).WellFormed :=
  (build?_eq Graph.wellFormed_empty events).2

theorem build_eq (order : Order) (events : List Event) : build { order } events =
    ((build {} events).1.withOrder order, (build {} events).2) :=
  build_withOrder {} order events

end Session

/-! ## The reports of checks in different orders -/

/-- The code in a headline. -/
def headlineCode (headline : String) : String :=
  String.ofList ((headline.toList.drop "error[".toList.length).takeWhile (· ≠ ']'))

theorem headlineCode_headline (d : Diagnostic) : headlineCode d.headline = d.kind.code := by
  have htext : d.headline = "error[" ++ d.kind.code ++ "]: " ++ d.message := rfl
  have hcode : d.kind.code.toList.all (· ≠ ']') = true := by
    cases d.kind <;> rfl
  have hrest : ("]: ".toList ++ d.message.toList).takeWhile (· ≠ ']') = [] := rfl
  rw [headlineCode, htext, String.toList_append, String.toList_append, String.toList_append,
    List.append_assoc, List.append_assoc, List.drop_left, List.takeWhile_append_of_pos
    (List.all_eq_true.1 hcode), hrest, List.append_nil, String.ofList_toList]

/-- Reports on a program, `built` being its graph before types were passed on, that agree in
what the order of turns can not change. -/
structure Report.Agree (built : Graph) (r q : Report) : Prop where
  status : r.status = q.status
  graph : r.graph = q.graph
  /-- The same streams have a type. -/
  names : r.types.entries.map (·.1) = q.types.entries.map (·.1)
  /-- There are as many errors, and they have the same codes one by one. -/
  codes : r.errors.map headlineCode = q.errors.map headlineCode
  /-- A stream has the same type if it got one in the build. -/
  types : ∀ s ∈ built.streams, s.inputs ≠ [] ∨ s.outputs ≠ [] →
    r.types.get? s.name = q.types.get? s.name
  eq_of_success : r.status = .success → r = q

theorem Session.errors_verify (s : Session) : s.verify.report.errors =
    (s.diagnostics ++ s.graph.findings.map (·.diagnostic)).map (·.headline) := rfl

theorem Session.map_code_errors_verify (s : Session) :
    s.verify.report.errors.map headlineCode =
      (s.diagnostics.map (·.kind) ++ s.graph.findings.map (·.kind)).map (·.code) := by
  have hcode : headlineCode ∘ Diagnostic.headline = fun d => d.kind.code :=
    funext headlineCode_headline
  rw [s.errors_verify, List.map_map, hcode, List.map_append, List.map_append, List.map_map,
    List.map_map, List.map_map]
  rfl

/-- Verdicts on graphs alike, after the same diagnostics. -/
theorem Session.report_agree {s t : Session} (hdiagnostics : s.diagnostics = t.diagnostics)
    (halike : s.graph.Alike t.graph) {built : Graph}
    (htypes : ∀ r ∈ built.streams, r.inputs ≠ [] ∨ r.outputs ≠ [] →
      s.graph.types.get? r.name = t.graph.types.get? r.name) :
    Report.Agree built s.verify.report t.verify.report := by
  have hfindings : s.graph.findings = [] ↔ t.graph.findings = [] := by
    rw [← List.map_eq_nil_iff (f := Finding.kind), halike.map_kind_findings, List.map_eq_nil_iff]
  have hstatus : s.verify.status = t.verify.status := by
    rw [s.verify_status, t.verify_status, hdiagnostics]
    exact if_congr (and_congr_right fun _ => hfindings) rfl rfl
  have hcodes : s.verify.report.errors.map headlineCode =
      t.verify.report.errors.map headlineCode := by
    rw [s.map_code_errors_verify, t.map_code_errors_verify, hdiagnostics, halike.map_kind_findings]
  refine ⟨hstatus, halike.adjacency_eq, halike.names_types, hcodes, htypes, fun hsuccess => ?_⟩
  have hnone : s.diagnostics = [] ∧ s.graph.findings = [] := by
    have hif := s.verify_status.symm.trans hsuccess
    split at hif
    · assumption
    · cases hif
  have herrors : s.verify.report.errors = t.verify.report.errors := by
    rw [s.errors_verify, t.errors_verify, ← hdiagnostics, hnone.2, hfindings.1 hnone.2]
  exact Report.ext hstatus herrors (halike.types_eq_of_findings_eq_nil hnone.2) halike.adjacency_eq

/-- The reports of a session that has been built, in different orders. -/
theorem Session.propagated_agree {s : Session} (hs : s.graph.WellFormed) (first second : Order) :
    Report.Agree s.graph (s.withOrder first).propagated.verify.report
      (s.withOrder second).propagated.verify.report := by
  have hvalid : ∀ id ∈ ([] : List StreamId), id < s.graph.streams.length := by simp
  have htypes : ∀ order, ∀ r ∈ s.graph.streams, r.inputs ≠ [] ∨ r.outputs ≠ [] →
      (s.withOrder order).propagated.graph.types.get? r.name = r.resolved? := fun order r hr =>
    (hs.closure_run order hvalid).get?_types hs
      (hs.propagateFrom? (Graph.propagateFrom?_of_valid hvalid order)) hr
  have hdiagnostics : (s.withOrder first).propagated.diagnostics =
      (s.withOrder second).propagated.diagnostics := rfl
  refine report_agree hdiagnostics (hs.propagation_alike first second hvalid hvalid).1 ?_
  exact fun r hr htyped => (htypes first r hr htyped).trans (htypes second r hr htyped).symm

/-- Checks in different orders end with the same violation, or with reports that agree in all
but the types of streams which got none in the build, and the words of the errors. And whatever
the order and the seed, a propagation of what was built makes every stream take the same types,
and counts as many of them. -/
theorem check_confluent (events : List Event) (first second : Order) :
    ((∃ v, check events first = .error v ∧ check events second = .error v) ∨
      ∃ r q, check events first = .ok r ∧ check events second = .ok q ∧
        r.Agree (Session.builtGraph events) q) ∧
    ∀ seed reseed : List StreamId,
      (∀ id ∈ seed, id < (Session.builtGraph events).streams.length) →
      (∀ id ∈ reseed, id < (Session.builtGraph events).streams.length) →
      ∃ h k stats stats', (Session.builtGraph events).propagateFrom? first seed = some (h, stats) ∧
        (Session.builtGraph events).propagateFrom? second reseed = some (k, stats') ∧
        stats.additions = stats'.additions ∧
        ∀ t, ((h.inputsOf t).map (·.descriptor)).Perm ((k.inputsOf t).map (·.descriptor)) := by
  have hg := Session.wellFormed_builtGraph events
  constructor
  · have hfirst := Session.build_eq first events
    have hsecond := Session.build_eq second events
    rw [Session.builtGraph] at hg ⊢
    cases hbuild : Session.build {} events with
    | mk s violation =>
      rw [hbuild] at hfirst hsecond hg
      cases violation with
      | some v => exact .inl ⟨v, check_of_violation hfirst, check_of_violation hsecond⟩
      | none =>
        exact .inr ⟨_, _, check_of_build hfirst, check_of_build hsecond,
          Session.propagated_agree hg first second⟩
  · intro seed reseed hseed hreseed
    obtain ⟨halike, hadditions⟩ := hg.propagation_alike first second hseed hreseed
    exact ⟨_, _, _, _, Graph.propagateFrom?_of_valid hseed first,
      Graph.propagateFrom?_of_valid hreseed second, hadditions, halike.perm_inputsOf⟩

/-- Events of a program in which `c` takes two types, in an order that depends on the turns. -/
def rivalEvents : List Event :=
  let through (type : Descriptor) : Argument := .callback { params := [type], returns := type }
  [ .declare { name := "a", descriptor := some (.primitive "number") },
    .declare { name := "b", descriptor := some (.primitive "string") },
    .declare { name := "c" },
    .invoke { source := "a", token := "map", arguments := [through (.primitive "number")] },
    .invoke { source := "b", token := "map", arguments := [through (.primitive "string")] },
    .invoke { source := "a.map", token := "to", arguments := [.stream "c"] },
    .invoke { source := "b.map", token := "to", arguments := [.stream "c"] } ]

theorem check_confluent_rival :
    check rivalEvents .lifo ≠ check rivalEvents .fifo ∧
    (∃ r q, check rivalEvents .lifo = .ok r ∧ check rivalEvents .fifo = .ok q ∧
      r.Agree (Session.builtGraph rivalEvents) q) ∧
    ∃ h k stats stats',
      (Session.builtGraph rivalEvents).propagateFrom? .lifo [0] = some (h, stats) ∧
      (Session.builtGraph rivalEvents).propagateFrom? .fifo [2, 2] = some (k, stats') ∧
      stats.additions = stats'.additions ∧
      ∀ t, ((h.inputsOf t).map (·.descriptor)).Perm ((k.inputsOf t).map (·.descriptor)) := by
  obtain ⟨hcheck, hseeds⟩ := check_confluent rivalEvents .lifo .fifo
  have htypes : (check rivalEvents .lifo).map (·.types) ≠
      (check rivalEvents .fifo).map (·.types) := by decide +kernel
  have hne : check rivalEvents .lifo ≠ check rivalEvents .fifo := fun heq =>
    htypes (congrArg (Except.map (·.types)) heq)
  refine ⟨hne, hcheck.resolve_left ?_, hseeds [0] [2, 2] (by decide +kernel) (by decide +kernel)⟩
  rintro ⟨v, hlifo, hfifo⟩
  exact hne (hlifo.trans hfifo.symm)

end StreamTyping
