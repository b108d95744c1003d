import StreamTyping.Proofs.Downstream
import StreamTyping.Proofs.Provenance

/-!
# More events

Events that come behind others take nothing back: what was told is still told,
so that a stream takes all the types that it took without them. What is wrong
with an event or with the types of a stream is wrong for good. Only a stream
that takes no type at all may be put right, by events that give it one.

* `Account.Tells.append`: what an account tells, a longer one tells as well.
* `Checked.types_iff`: the types that a stream takes, by what the events tell.
* `errors_of_check`: the errors of a report.
* `check_append_keeps`: a check, and the check of more events.
-/

namespace StreamTyping

/-! ## What longer accounts tell -/

namespace Account

theorem ofEvents_append (events more : List Event) :
    ofEvents (events ++ more) = ofEvents events ++ ofEvents more := by
  induction events with
  | nil => rw [List.nil_append, ofEvents, empty_append]
  | cons event events ih => rw [List.cons_append, ofEvents, ofEvents, ih, append_assoc]

/-- What an account tells is still told when another one follows. -/
theorem Tells.append {a : Account} {name : String} {d : Descriptor} (h : a.Tells name d)
    (b : Account) : (a ++ b).Tells name d := by
  rcases h with ⟨x, hx, hd⟩ | ⟨link, hlink, hweak, htarget, x, hx, hd⟩
  · exact .inl ⟨x, List.mem_append_left _ hx, hd⟩
  · exact .inr ⟨link, List.mem_append_left _ hlink, hweak, htarget, x,
      List.mem_append_left _ hx, hd⟩

end Account

/-! ## What a check leaves -/

namespace Checked

variable {events : List Event} {report : Report} {k : Graph} (h : Checked events report k)

include h

/-- The streams of a check are those that the events mention. -/
theorem exists_stream_iff {name : String} : (∃ s ∈ k.streams, s.name = name) ↔
    name ∈ (Account.ofEvents events).mentions.map (·.1) := by
  obtain ⟨g, new, hfollows, hclosure⟩ := h.closure
  constructor
  · rintro ⟨r, hr, rfl⟩
    obtain ⟨t, ht⟩ := Graph.exists_stream?_of_mem hr
    obtain ⟨s, hs, rfl⟩ := Option.map_eq_some_iff.1 ((hclosure.streams t).symm.trans ht)
    exact hfollows.mentioned (Graph.nameOf?_eq_some_iff.2 ⟨s, hs, rfl⟩)
  · intro hname
    obtain ⟨t, s, hs, rfl⟩ := hfollows.exists_stream? hname
    have hr := hclosure.streams t
    rw [hs, Option.map_some] at hr
    exact ⟨_, Graph.mem_of_stream? hr, rfl⟩

/-- In the end a stream takes the types that the events tell. -/
theorem types_iff {r : Stream} (hr : r ∈ k.streams) {d : Descriptor} :
    d ∈ r.types ↔ (Account.ofEvents events).Tells r.name d := by
  obtain ⟨g, new, hfollows, hclosure⟩ := h.closure
  obtain ⟨t, ht⟩ := Graph.exists_stream?_of_mem hr
  obtain ⟨s, hs, rfl⟩ := Option.map_eq_some_iff.1 ((hclosure.streams t).symm.trans ht)
  exact hfollows.types_iff_tells hclosure hs ht

/-- After more events there is still a stream of that name, which takes the types and perhaps
more. -/
theorem exists_stream_append {more : List Event} {report' : Report} {k' : Graph}
    (h' : Checked (events ++ more) report' k') {s : Stream} (hs : s ∈ k.streams) :
    ∃ t ∈ k'.streams, t.name = s.name ∧ ∀ d ∈ s.types, d ∈ t.types := by
  have hname : s.name ∈ (Account.ofEvents (events ++ more)).mentions.map (·.1) := by
    rw [Account.ofEvents_append, Account.append_mentions, List.map_append]
    exact List.mem_append_left _ (h.exists_stream_iff.1 ⟨s, hs, rfl⟩)
  obtain ⟨t, ht, htname⟩ := h'.exists_stream_iff.2 hname
  refine ⟨t, ht, htname, fun d hd => ?_⟩
  rw [h'.types_iff ht, htname, Account.ofEvents_append]
  exact ((h.types_iff hs).1 hd).append _

end Checked

/-! ## The errors of a report -/

/-- A report tells what is wrong with the events, and then what is wrong with the streams. -/
theorem errors_of_check {events : List Event} {order : Order} {report : Report}
    (h : check events order = .ok report) :
    report.errors = (events.flatMap (·.faults) ++ (checkedGraph events order).findings).map
      (·.diagnostic.headline) := by
  obtain ⟨s, hbuild, rfl⟩ := check_eq_ok h
  have hfollows := (Session.follows_fresh order).build hbuild
  rw [Account.empty_append] at hfollows
  have hdiagnostics : s.propagated.diagnostics =
      (events.flatMap (·.faults)).map (·.diagnostic) := by
    rw [← Account.ofEvents_faults]
    exact hfollows.diagnostics
  rw [Session.errors_verify, hdiagnostics, checkedGraph_of_build hbuild, ← List.map_append, List.map_map]
  rfl

theorem status_of_check {events : List Event} {order : Order} {report : Report}
    (h : check events order = .ok report) (herrors : report.errors ≠ []) :
    report.status = .fail := by
  obtain ⟨s, -, rfl⟩ := check_eq_ok h
  have hstatus : s.propagated.verify.report.status =
      if s.propagated.diagnostics = [] ∧ s.propagated.graph.findings = [] then .success else .fail :=
    s.propagated.verify_status
  rw [hstatus, if_neg]
  rintro ⟨hdiagnostics, hfindings⟩
  rw [Session.errors_verify, hdiagnostics, hfindings] at herrors
  exact herrors rfl

/-- Something is wrong with a stream because it takes different types, or none. -/
theorem Graph.kind_of_mem_findings {g : Graph} {f : Finding} (h : f ∈ g.findings) :
    f.kind = .typeMismatch ∨ f.kind = .untyped := by
  obtain ⟨s, -, hf⟩ := List.mem_flatMap.1 h
  have hkind : f.kind ∈ s.findings.map (·.kind) := List.mem_map_of_mem hf
  rw [s.map_kind_findings, List.mem_append] at hkind
  refine hkind.imp List.eq_of_mem_replicate fun huntyped => ?_
  split at huntyped
  · exact List.mem_singleton.1 huntyped
  · cases huntyped

theorem DiagnosticKind.code_inj {a b : DiagnosticKind} (h : a.code = b.code) : a = b := by
  revert h
  cases a <;> cases b <;> decide

/-- Of two different types in a list, one comes before the other. -/
theorem exists_conflict {l : List Attribution} {d d' : Descriptor}
    (hd : d ∈ l.map (·.descriptor)) (hd' : d' ∈ l.map (·.descriptor)) (hne : d ≠ d') :
    ∃ a b, (a, b) ∈ conflicts l ∧ [a.descriptor, b.descriptor].Perm [d, d'] := by
  induction l with
  | nil => cases hd
  | cons c l ih =>
    have hfirst : ∀ b ∈ l, c.descriptor ≠ b.descriptor → (c, b) ∈ conflicts (c :: l) := by
      intro b hb hcb
      rw [conflicts, List.mem_append]
      exact .inl (List.mem_map_of_mem (List.mem_filter.2 ⟨hb, decide_eq_true hcb⟩))
    rcases List.mem_cons.1 hd with rfl | hd
    · rcases List.mem_cons.1 hd' with rfl | hd'
      · exact absurd rfl hne
      · obtain ⟨b, hb, rfl⟩ := List.mem_map.1 hd'
        exact ⟨c, b, hfirst b hb hne, .refl _⟩
    · rcases List.mem_cons.1 hd' with rfl | hd'
      · obtain ⟨b, hb, rfl⟩ := List.mem_map.1 hd
        exact ⟨c, b, hfirst b hb (Ne.symm hne), .swap _ _ _⟩
      · obtain ⟨a, b, hmem, hperm⟩ := ih hd hd'
        exact ⟨a, b, by rw [conflicts]; exact List.mem_append_right _ hmem, hperm⟩

/-- A stream that takes two different types does so after more events as well. -/
theorem Checked.mismatch_append {events more : List Event} {report report' : Report}
    {k k' : Graph} (h : Checked events report k) (h' : Checked (events ++ more) report' k')
    {name : String} {a b : Attribution} (hf : .mismatch name a b ∈ k.findings) :
    ∃ a' b', .mismatch name a' b' ∈ k'.findings ∧
      [a'.descriptor, b'.descriptor].Perm [a.descriptor, b.descriptor] := by
  obtain ⟨s, hs, x, hx, y, hy, hne, heq⟩ := Graph.exists_of_mem_findings hf rfl
  obtain ⟨rfl, rfl, rfl⟩ := Finding.mismatch.inj heq
  obtain ⟨t, ht, hname, htypes⟩ := h.exists_stream_append h' hs
  obtain ⟨a', b', hconflict, hperm⟩ := exists_conflict
    (htypes _ (List.mem_map_of_mem hx)) (htypes _ (List.mem_map_of_mem hy)) hne
  refine ⟨a', b', List.mem_flatMap.2 ⟨t, ht, ?_⟩, hperm⟩
  exact Stream.mismatch_mem_findings_iff.2 ⟨hname, hconflict⟩

/-! ## A check of more events -/

/-- If more events follow, and in whatever orders, then every stream still takes the types that
it took, and all errors but those about untyped streams have their like: those about events are
the same, and a mismatch is one of the same stream between the same two types. -/
theorem check_append_keeps {events more : List Event} {first second : Order} {r q : Report}
    (hr : check events first = .ok r) (hq : check (events ++ more) second = .ok q) :
    (∀ s ∈ (checkedGraph events first).streams,
      ∃ t ∈ (checkedGraph (events ++ more) second).streams,
        t.name = s.name ∧ ∀ d ∈ s.types, d ∈ t.types) ∧
    (∀ e ∈ r.errors, headlineCode e ∈ ["E0100", "E0101", "E0102"] →
      q.status = .fail ∧ e ∈ q.errors) ∧
    (∀ e ∈ r.errors, headlineCode e = "E0200" → q.status = .fail ∧
      ∃ name a b, .mismatch name a b ∈ (checkedGraph events first).findings ∧
        e = (Finding.mismatch name a b).diagnostic.headline) ∧
    ∀ name a b, .mismatch name a b ∈ (checkedGraph events first).findings → ∃ a' b',
      .mismatch name a' b' ∈ (checkedGraph (events ++ more) second).findings ∧
      (Finding.mismatch name a' b').diagnostic.headline ∈ q.errors ∧
      [a'.descriptor, b'.descriptor].Perm [a.descriptor, b.descriptor] := by
  have hfirst := checked_of_check hr
  have hsecond := checked_of_check hq
  have hcode : ∀ f : Finding, headlineCode f.diagnostic.headline = f.kind.code :=
    fun f => headlineCode_headline f.diagnostic
  -- An error is about an event or about a stream.
  have hcases : ∀ e ∈ r.errors, ∃ f : Finding, e = f.diagnostic.headline ∧
      (f ∈ events.flatMap (·.faults) ∨ f ∈ (checkedGraph events first).findings) := by
    intro e he
    rw [errors_of_check hr] at he
    obtain ⟨f, hf, rfl⟩ := List.mem_map.1 he
    exact ⟨f, rfl, List.mem_append.1 hf⟩
  have hkept : ∀ f ∈ events.flatMap (·.faults), f.diagnostic.headline ∈ q.errors := by
    intro f hf
    rw [errors_of_check hq, List.flatMap_append]
    exact List.mem_map_of_mem (List.mem_append_left _ (List.mem_append_left _ hf))
  have hmismatch : ∀ name a b, .mismatch name a b ∈ (checkedGraph events first).findings →
      ∃ a' b', .mismatch name a' b' ∈ (checkedGraph (events ++ more) second).findings ∧
        (Finding.mismatch name a' b').diagnostic.headline ∈ q.errors ∧
        [a'.descriptor, b'.descriptor].Perm [a.descriptor, b.descriptor] := by
    intro name a b hf
    obtain ⟨a', b', hmem, hperm⟩ := hfirst.mismatch_append hsecond hf
    refine ⟨a', b', hmem, ?_, hperm⟩
    rw [errors_of_check hq]
    exact List.mem_map_of_mem (f := fun f : Finding => f.diagnostic.headline)
      (List.mem_append_right _ hmem)
  refine ⟨fun s hs => hfirst.exists_stream_append hsecond hs, fun e he hcodes => ?_,
    fun e he hmism => ?_, hmismatch⟩
  · obtain ⟨f, rfl, hf | hf⟩ := hcases e he
    · exact ⟨status_of_check hq (List.ne_nil_of_mem (hkept f hf)), hkept f hf⟩
    · rw [hcode] at hcodes
      rcases Graph.kind_of_mem_findings hf with hkind | hkind
      all_goals
        rw [hkind] at hcodes
        exact absurd hcodes (by decide)
  · obtain ⟨f, rfl, hf⟩ := hcases e he
    have hkind : f.kind = .typeMismatch := DiagnosticKind.code_inj ((hcode f).symm.trans hmism)
    have hfound : f ∈ (checkedGraph events first).findings := by
      refine hf.resolve_left fun hfault => ?_
      obtain ⟨event, -, hmem⟩ := List.mem_flatMap.1 hfault
      exact Event.kind_ne_of_mem_faults hmem hkind
    obtain ⟨s, -, a, -, b, -, -, rfl⟩ := Graph.exists_of_mem_findings hfound hkind
    obtain ⟨a', b', -, herror, -⟩ := hmismatch _ _ _ hfound
    exact ⟨status_of_check hq (List.ne_nil_of_mem herror), s.name, a, b, hfound, rfl⟩

/-- Events with an unknown operator, a stream `c` of two types and a stream `d` of none. -/
def brokenEvents : List Event :=
  rivalEvents ++ [.declare { name := "d" }, .invoke { source := "d", token := "scan" }]

/-- What was wrong is still wrong when `d` gets a type and `c` gets a third one, but for the error
about `d`. -/
theorem check_append_keeps_broken :
    let more : List Event :=
      [ .declare { name := "d", descriptor := some (.primitive "number") },
        .declare { name := "c", descriptor := some (.primitive "boolean") } ]
    ∃ r q, check brokenEvents .fifo = .ok r ∧ check (brokenEvents ++ more) .lifo = .ok q ∧
      r.errors.map headlineCode = ["E0100", "E0200", "E0201"] ∧
      q.errors.map headlineCode = ["E0100", "E0200", "E0200", "E0200"] ∧ q.status = .fail ∧
      (∃ e ∈ r.errors, headlineCode e = "E0100" ∧ e ∈ q.errors) ∧
      ∃ a b, .mismatch "c" a b ∈ (checkedGraph brokenEvents .fifo).findings ∧ ∃ a' b',
        (Finding.mismatch "c" a' b').diagnostic.headline ∈ q.errors ∧
        [a'.descriptor, b'.descriptor].Perm [a.descriptor, b.descriptor] := by
  intro more
  have hfirst : (check brokenEvents .fifo).map (fun r => r.errors.map headlineCode) =
      .ok ["E0100", "E0200", "E0201"] := by decide +kernel
  have hsecond : (check (brokenEvents ++ more) .lifo).map (fun q => q.errors.map headlineCode) =
      .ok ["E0100", "E0200", "E0200", "E0200"] := by decide +kernel
  have hclash : .mismatch "c" ⟨.primitive "number", .callbackOutput, none⟩
      ⟨.primitive "string", .callbackOutput, none⟩ ∈ (checkedGraph brokenEvents .fifo).findings := by
    decide +kernel
  obtain ⟨r, hr, hrcodes⟩ := exists_report_of_map hfirst
  obtain ⟨q, hq, hqcodes⟩ := exists_report_of_map hsecond
  obtain ⟨-, hevents, -, hmismatch⟩ := check_append_keeps hr hq
  obtain ⟨e, he, hcode⟩ : ∃ e ∈ r.errors, headlineCode e = "E0100" := by
    have hmem : "E0100" ∈ r.errors.map headlineCode := by
      rw [hrcodes]
      exact .head _
    exact List.mem_map.1 hmem
  obtain ⟨hstatus, hkept⟩ := hevents e he (by rw [hcode]; exact .head _)
  obtain ⟨a', b', -, herror, hperm⟩ := hmismatch _ _ _ hclash
  exact ⟨r, q, hr, hq, hrcodes, hqcodes, hstatus, ⟨e, he, hcode, hkept⟩, _, _, hclash, a', b',
    herror, hperm⟩

end StreamTyping
