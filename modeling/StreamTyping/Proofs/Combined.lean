import StreamTyping.Proofs.Downstream

/-!
# Callbacks over several streams

The callback of a `with` or an `any` takes the types of several streams at
once, and the stream that is made takes their tuple. The strong edges to this
stream however pass on the type of one stream, which is no tuple that it is a
member of. So a callback that fits its streams is accepted exactly if none of
the strong edges passes a type on: the source of the invocation gives none, and
neither does an argument, unless the operator is `with`.

* `Event.LeadsTo`: an event declares a stream, feeds it or makes it.
* `Coherent`: the only event that leads to a stream has a callback that fits.
* `Coherent.requires_iff`: what is required of such a stream.
* `mismatch_free_iff`: when such a callback is accepted.
-/

namespace StreamTyping

/-- A type is no tuple that it is a member of. -/
theorem Descriptor.ne_tuple_of_mem {d : Descriptor} {ds : List Descriptor} (h : d ∈ ds) :
    d ≠ .tuple ds := by
  intro heq
  have hshape : d.shape = .tuple (ds.map (·.shape)) := congrArg Descriptor.shape heq
  have hmember : d.shape ∈ ds.map (·.shape) := List.mem_map_of_mem h
  have hlt := List.sizeOf_lt_of_mem hmember
  have hsize := congrArg sizeOf hshape
  rw [Shape.tuple.sizeOf_spec] at hsize
  omega

/-- The stream that an event declares, feeds or makes. -/
def Event.target? : Event → Option String
  | .declare declaration => some declaration.name
  | .invoke call => (Operator.ofToken? call.token).bind fun operator =>
      if operator = .into then call.streamNames.head? else some (operator.targetName call.source)

/-- A callback is attached to a stream, so that the stream gives a type. -/
def Gives (events : List Event) (name : String) : Prop := ∃ d r, HasCallback events name d r

/-- Among other events, none of which leads to the stream that it makes, an invocation of `with`
or `any` has one callback, whose parameters are the types that its source and its arguments have
in a report. -/
structure Coherent (before after : List Event) (report : Report) (call : Invocation)
    (operator : Operator) (callback : Callback) : Prop where
  operator_eq : Operator.ofToken? call.token = some operator
  combines : operator = .withLatest ∨ operator = .combineLatest
  callbacks_eq : call.callbacks = [callback]
  others : ∀ e ∈ before ++ after, e.target? ≠ some (operator.targetName call.source)
  params_eq : callback.params.map some = (call.source :: call.streamNames).map report.types.get?

namespace Coherent

variable {before after : List Event} {report : Report} {call : Invocation} {operator : Operator}
  {callback : Callback} (h : Coherent before after report call operator callback)

include h

theorem operator_ne_into : operator ≠ .into := by
  rcases h.combines with rfl | rfl <;> decide

theorem eq_of_target? {e : Event} (he : e ∈ before ++ .invoke call :: after)
    (htarget : e.target? = some (operator.targetName call.source)) : e = .invoke call := by
  rcases List.mem_append.1 he with he | he
  · exact absurd htarget (h.others e (List.mem_append_left _ he))
  · rcases List.mem_cons.1 he with he | he
    · exact he
    · exact absurd htarget (h.others e (List.mem_append_right _ he))

/-- An event that leads to the stream is the invocation itself. -/
theorem invocation_eq {other : Invocation} {op : Operator}
    (he : .invoke other ∈ before ++ .invoke call :: after)
    (hop : Operator.ofToken? other.token = some op) (hinto : op ≠ .into)
    (hname : op.targetName other.source = operator.targetName call.source) :
    other = call ∧ op = operator := by
  have htarget : (Event.invoke other).target? = some (operator.targetName call.source) := by
    rw [Event.target?, hop, ← hname]
    exact if_neg hinto
  obtain rfl := Event.invoke.inj (h.eq_of_target? he htarget)
  exact ⟨rfl, Option.some.inj (hop.symm.trans h.operator_eq)⟩

/-- The strong edges to the stream come from the source, and in case of `any` from the
arguments. -/
theorem flows_iff {u : String} :
    Flows (before ++ .invoke call :: after) u (operator.targetName call.source) ↔
      u = call.source ∨ operator = .combineLatest ∧ u ∈ call.streamNames := by
  constructor
  · intro hflow
    generalize hname : operator.targetName call.source = target at hflow
    cases hflow with
    | @into other _ hother hop hfirst =>
      have htarget : (Event.invoke other).target? = some (operator.targetName call.source) := by
        rw [Event.target?, hop, hname, ← hfirst]
        rfl
      obtain rfl := Event.invoke.inj (h.eq_of_target? hother htarget)
      exact absurd (Option.some.inj (h.operator_eq.symm.trans hop)) h.operator_ne_into
    | source hother hop hinto =>
      obtain ⟨rfl, rfl⟩ := h.invocation_eq hother hop hinto hname.symm
      exact .inl rfl
    | argument hother hop hinto hwith hmem =>
      obtain ⟨rfl, rfl⟩ := h.invocation_eq hother hop hinto hname.symm
      exact .inr ⟨h.combines.resolve_left hwith, hmem⟩
  · rintro (rfl | ⟨hany, hmem⟩)
    · exact .source List.mem_append_cons_self h.operator_eq h.operator_ne_into
    · have hwith : operator ≠ .withLatest := by simp [hany]
      exact .argument List.mem_append_cons_self h.operator_eq h.operator_ne_into hwith hmem

/-- The only callback at the stream is that of the invocation. -/
theorem takes_eq_tuple {d r : Descriptor}
    (hcallback : HasCallback (before ++ .invoke call :: after)
      (operator.targetName call.source) d r) : d = .tuple callback.params := by
  generalize hname : operator.targetName call.source = target at hcallback
  cases hcallback with
  | map hother hop hone hparam =>
    obtain ⟨-, rfl⟩ := h.invocation_eq hother hop (by decide) hname.symm
    rcases h.combines with hmap | hmap <;> cases hmap
  | @combined _ op _ hother hop hcombined hone =>
    have hinto : op ≠ .into := by rcases hcombined with rfl | rfl <;> decide
    obtain ⟨rfl, rfl⟩ := h.invocation_eq hother hop hinto hname.symm
    rw [h.callbacks_eq] at hone
    rw [(List.cons.inj hone).1]

/-- What is required of the stream: the tuple of the parameters, and what its strong edges pass
on. -/
theorem requires_iff {d : Descriptor} :
    Requires (before ++ .invoke call :: after) (operator.targetName call.source) d ↔
      d = .tuple callback.params ∨
        ∃ u, (u = call.source ∨ operator = .combineLatest ∧ u ∈ call.streamNames) ∧
          ∃ t, HasCallback (before ++ .invoke call :: after) u t d := by
  constructor
  · intro hrequires
    generalize hname : operator.targetName call.source = target at hrequires
    cases hrequires with
    | declared hmem hd =>
      have hevent := h.eq_of_target? hmem (congrArg some hname.symm)
      cases hevent
    | callback hcallback =>
      subst hname
      exact .inl (h.takes_eq_tuple hcallback)
    | flow hflow hcallback =>
      subst hname
      exact .inr ⟨_, h.flows_iff.1 hflow, _, hcallback⟩
  · rintro (rfl | ⟨u, hu, t, ht⟩)
    · exact .callback (.combined List.mem_append_cons_self h.operator_eq h.combines h.callbacks_eq)
    · exact .flow (h.flows_iff.2 hu) ht

end Coherent

/-! ## Verdicts on such streams -/

/-- There is no mismatch at a stream if all types that it takes are the same. -/
theorem Graph.WellFormed.mismatch_free_iff_types {g : Graph} (hg : g.WellFormed) {s : Stream}
    (hs : s ∈ g.streams) : (∀ a b, .mismatch s.name a b ∉ g.findings) ↔
      ∀ d ∈ s.types, ∀ d' ∈ s.types, d = d' := by
  rw [Stream.types, ← conflicts_eq_nil_iff, List.eq_nil_iff_forall_not_mem, Prod.forall]
  refine forall₂_congr fun a b => not_congr ?_
  rw [Graph.findings, List.mem_flatMap]
  constructor
  · rintro ⟨r, hr, hmem⟩
    obtain ⟨hname, hpair⟩ := Stream.mismatch_mem_findings_iff.1 hmem
    obtain rfl := List.inj_on_of_nodup_map hg.names_nodup hr hs hname
    exact hpair
  · exact fun hpair => ⟨s, hs, Stream.mismatch_mem_findings_iff.2 ⟨rfl, hpair⟩⟩

namespace Checked

variable {events : List Event} {report : Report} {k : Graph} (h : Checked events report k)

include h

/-- A stream has no mismatch if no two different types are required of it. -/
theorem mismatch_free_iff_requires {name : String}
    (hname : name ∈ (Account.ofEvents events).mentions.map (·.1)) :
    (∀ a b, .mismatch name a b ∉ k.findings) ↔
      ∀ d d', Requires events name d → Requires events name d' → d = d' := by
  obtain ⟨g, new, hfollows, hclosure⟩ := h.closure
  obtain ⟨t, s, hs, rfl⟩ := hfollows.exists_stream? hname
  have hr := hclosure.streams t
  rw [hs, Option.map_some] at hr
  have htypes := fun d => hfollows.types_iff_tells hclosure hs hr (d := d)
  have hfree := h.wellFormed.mismatch_free_iff_types (Graph.mem_of_stream? hr)
  rw [hfree]
  simp only [htypes, ← requires_iff_tells]
  exact ⟨fun hall d d' hd hd' => hall d hd d' hd', fun hall d hd d' hd' => hall d d' hd hd'⟩

/-- A stream with a callback has a type in the report that one of its callbacks gives. -/
theorem get?_types_of_gives {name : String} (hgives : Gives events name) :
    ∃ d r, HasCallback events name d r ∧ report.types.get? name = some r := by
  obtain ⟨g, new, hfollows, hclosure⟩ := h.closure
  obtain ⟨d, r, hcallback⟩ := hgives
  obtain ⟨x, hx, -⟩ := mem_gives_iff.2 ⟨d, hcallback⟩
  rw [← Account.ofEvents_gives] at hx
  obtain ⟨t, s, hs, rfl⟩ := hfollows.exists_stream? (hfollows.gives_mentioned _ hx)
  -- The first type that the stream gives is the one reported, and comes from a callback too.
  have hmem : x ∈ s.outputs := by rwa [hfollows.outputs t s hs, mem_entriesOf]
  obtain ⟨y, rest, houtputs⟩ := List.exists_cons_of_ne_nil (List.ne_nil_of_mem hmem)
  have hy : (s.name, y) ∈ (Account.ofEvents events).gives := by
    rw [← mem_entriesOf, ← hfollows.outputs t s hs, houtputs]
    exact .head _
  rw [Account.ofEvents_gives] at hy
  obtain ⟨takes, htakes⟩ := mem_gives_iff.1 ⟨y, hy, rfl⟩
  have hk := hclosure.streams t
  rw [hs, Option.map_some] at hk
  refine ⟨takes, y.descriptor, htakes, ?_⟩
  rw [h.types, show s.name = ({ s with inputs := s.inputs ++ new t } : Stream).name from rfl,
    h.wellFormed.get?_types (Graph.mem_of_stream? hk), Stream.resolved?]
  simp [houtputs]

end Checked

/-- A callback of `with` or `any` that fits the types of its streams is accepted exactly if the
source of the invocation gives no type, and in case of `any` no argument does either. -/
theorem mismatch_free_iff {before after : List Event} {order : Order} {report : Report}
    {call : Invocation} {operator : Operator} {callback : Callback}
    (hcheck : check (before ++ .invoke call :: after) order = .ok report)
    (hcoherent : Coherent before after report call operator callback) :
    (∀ a b, .mismatch (operator.targetName call.source) a b ∉
      (checkedGraph (before ++ .invoke call :: after) order).findings) ↔
    ¬ Gives (before ++ .invoke call :: after) call.source ∧
      (operator = .combineLatest → ∀ name ∈ call.streamNames,
        ¬ Gives (before ++ .invoke call :: after) name) := by
  have hchecked := checked_of_check hcheck
  have htuple := hcoherent.requires_iff.2 (.inl rfl)
  have hmentioned : operator.targetName call.source ∈
      (Account.ofEvents (before ++ .invoke call :: after)).mentions.map (·.1) := by
    obtain ⟨g, new, hfollows, -⟩ := hchecked.closure
    exact hfollows.mentioned_of_tells (requires_iff_tells.1 htuple)
  rw [hchecked.mismatch_free_iff_requires hmentioned]
  constructor
  · intro hunique
    -- What a strong edge passes on is a parameter, which is not the tuple of all of them.
    have hnone : ∀ u ∈ call.source :: call.streamNames,
        u = call.source ∨ operator = .combineLatest ∧ u ∈ call.streamNames →
        ¬ Gives (before ++ .invoke call :: after) u := by
      intro u hmem hstrong hgives
      obtain ⟨d, r, hcallback, htype⟩ := hchecked.get?_types_of_gives hgives
      have hparam : some r ∈ callback.params.map some := by
        rw [hcoherent.params_eq, ← htype]
        exact List.mem_map_of_mem hmem
      have hmember : r ∈ callback.params := by simpa using hparam
      refine Descriptor.ne_tuple_of_mem hmember (hunique _ _ ?_ htuple)
      exact hcoherent.requires_iff.2 (.inr ⟨u, hstrong, d, hcallback⟩)
    exact ⟨hnone _ (.head _) (.inl rfl), fun hany name hname =>
      hnone name (.tail _ hname) (.inr ⟨hany, hname⟩)⟩
  · rintro ⟨hsource, harguments⟩
    have hall : ∀ d, Requires (before ++ .invoke call :: after)
        (operator.targetName call.source) d → d = .tuple callback.params := by
      intro d hd
      rcases hcoherent.requires_iff.1 hd with rfl | ⟨u, rfl | ⟨hany, hu⟩, t, ht⟩
      · rfl
      · exact absurd ⟨t, d, ht⟩ hsource
      · exact absurd ⟨t, d, ht⟩ (harguments hany u hu)
    exact fun d d' hd hd' => (hall d hd).trans (hall d' hd').symm

/-- Two streams of one type, of which `a.map` gives it and `b` does not. -/
def likeStreams : List Event :=
  [ .declare { name := "a", descriptor := some (.primitive "number") },
    .invoke
      { source := "a"
        token := "map"
        arguments :=
          [.callback { params := [.primitive "number"], returns := .primitive "string" }] },
    .declare { name := "b", descriptor := some (.primitive "string") } ]

/-- Compares two such streams. -/
def comparison : Callback :=
  { params := [.primitive "string", .primitive "string"], returns := .primitive "boolean" }

/-- Adds the latest value of a stream to another one, and compares them. -/
def comparing (source argument : String) : Invocation :=
  { source, token := "with", arguments := [.stream argument, .callback comparison] }

theorem coherent_comparing {source argument : String} {report : Report}
    (htypes : ∀ name ∈ [source, argument], report.types.get? name = some (.primitive "string"))
    (hothers : ∀ e ∈ likeStreams, e.target? ≠ some (Operator.withLatest.targetName source)) :
    Coherent likeStreams [] report (comparing source argument) .withLatest comparison where
  operator_eq := by
    show Operator.ofToken? "with" = some .withLatest
    decide +kernel
  combines := .inl rfl
  callbacks_eq := rfl
  others := by rwa [List.append_nil]
  params_eq := by
    have hsource := htypes source (.head _)
    have hargument := htypes argument (.tail _ (.head _))
    simp [comparing, comparison, Invocation.streamNames, Argument.streamName?, hsource, hargument]

/-- The argument `a.map` gives a type, but its edge is weak. -/
theorem mismatch_free_iff_comparing :
    ∃ report, check (likeStreams ++ [.invoke (comparing "b" "a.map")]) .lifo = .ok report ∧
      Coherent likeStreams [] report (comparing "b" "a.map") .withLatest comparison ∧
      report.status = .success ∧
      ¬ Gives (likeStreams ++ [.invoke (comparing "b" "a.map")]) "b" := by
  have hreport : (check (likeStreams ++ [.invoke (comparing "b" "a.map")]) .lifo).map
      (fun r => (r.status, ["b", "a.map"].map r.types.get?)) =
        .ok (.success, [some (.primitive "string"), some (.primitive "string")]) := by
    decide +kernel
  obtain ⟨report, hcheck, hreport⟩ := exists_report_of_map hreport
  obtain ⟨hstatus, htypes⟩ := Prod.mk.inj hreport
  have hcoherent : Coherent likeStreams [] report (comparing "b" "a.map") .withLatest comparison :=
    coherent_comparing (by simpa using htypes) (by decide +kernel)
  have hfree : ∀ a b, .mismatch "b.with" a b ∉
      (checkedGraph (likeStreams ++ [.invoke (comparing "b" "a.map")]) .lifo).findings := by
    have hnone : (checkedGraph (likeStreams ++ [.invoke (comparing "b" "a.map")])
        .lifo).findings = [] := by decide +kernel
    simp [hnone]
  exact ⟨report, hcheck, hcoherent, hstatus, ((mismatch_free_iff hcheck hcoherent).1 hfree).1⟩

/-- A callback that fits the types of its streams is not accepted if the source of the
invocation gives a type. -/
theorem mismatch_of_coherent :
    ∃ report, check (likeStreams ++ [.invoke (comparing "a.map" "b")]) .lifo = .ok report ∧
      Coherent likeStreams [] report (comparing "a.map" "b") .withLatest comparison ∧
      report.status = .fail ∧ ∃ a b, .mismatch "a.map.with" a b ∈
        (checkedGraph (likeStreams ++ [.invoke (comparing "a.map" "b")]) .lifo).findings := by
  have hreport : (check (likeStreams ++ [.invoke (comparing "a.map" "b")]) .lifo).map
      (fun r => (r.status, ["a.map", "b"].map r.types.get?)) =
        .ok (.fail, [some (.primitive "string"), some (.primitive "string")]) := by
    decide +kernel
  have hmismatch : .mismatch "a.map.with" ⟨.tuple comparison.params, .callbackInput, none⟩
      ⟨.primitive "string", .callbackOutput, none⟩ ∈
        (checkedGraph (likeStreams ++ [.invoke (comparing "a.map" "b")]) .lifo).findings := by
    decide +kernel
  obtain ⟨report, hcheck, hreport⟩ := exists_report_of_map hreport
  obtain ⟨hstatus, htypes⟩ := Prod.mk.inj hreport
  exact ⟨report, hcheck, coherent_comparing (by simpa using htypes) (by decide +kernel), hstatus,
    _, _, hmismatch⟩

end StreamTyping
