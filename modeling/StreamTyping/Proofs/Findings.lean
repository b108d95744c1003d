import Mathlib.Algebra.BigOperators.Group.Finset.Piecewise
import Mathlib.Data.List.FinRange
import Mathlib.Data.Nat.Choose.Basic
import StreamTyping.Proofs.Confluence

/-!
# What a verdict raises

A verdict goes over the streams in the order in which they were added. For
each of them it raises one diagnostic for every two positions at which the
stream takes different types, and one if the stream takes no type.

* `rivals`: the pairs of such positions, told by the positions alone. They
  ascend (`pairwise_rivals`), and no pair is missing (`mem_rivals`).
* `Stream.verdict`: the diagnostics of one stream, in words.
  `Graph.map_diagnostic_findings`: the findings in a graph are put into these.
* `clashes_add_sum`: a pair of positions either clashes, or belongs to one of
  the types that the stream takes.
* `Session.verify_raises_exactly`: what is raised, how much of it, and when the
  check succeeds.
-/

namespace StreamTyping

/-! ## Pairs of positions -/

/-- The positions of a list at which two different types stand, the first before the second. -/
def rivals (l : List Attribution) : List (Fin l.length × Fin l.length) :=
  (List.finRange l.length).flatMap fun i =>
    ((List.finRange l.length).filter fun j => i < j ∧ l[i].descriptor ≠ l[j].descriptor).map
      fun j => (i, j)

theorem mem_rivals {l : List Attribution} {i j : Fin l.length} :
    (i, j) ∈ rivals l ↔ i < j ∧ l[i].descriptor ≠ l[j].descriptor := by
  simp [rivals]

/-- The first position ascends, and the second one as long as the first is the same. -/
theorem pairwise_rivals (l : List Attribution) :
    (rivals l).Pairwise fun p q => p.1 < q.1 ∨ p.1 = q.1 ∧ p.2 < q.2 := by
  have hascend := List.pairwise_lt_finRange l.length
  rw [rivals, List.pairwise_flatMap]
  constructor
  · intro i _
    rw [List.pairwise_map]
    exact (hascend.filter _).imp fun hlt => .inr ⟨rfl, hlt⟩
  · refine hascend.imp fun {i k} hlt p hp q hq => .inl ?_
    obtain ⟨_, -, rfl⟩ := List.mem_map.1 hp
    obtain ⟨_, -, rfl⟩ := List.mem_map.1 hq
    exact hlt

/-- The rivals of the first position, and those of the other positions among themselves. -/
theorem rivals_cons (a : Attribution) (l : List Attribution) :
    rivals (a :: l) =
      ((List.finRange l.length).filter fun j => a.descriptor ≠ l[j].descriptor).map
        (fun j => (0, j.succ)) ++
      (rivals l).map fun p => (p.1.succ, p.2.succ) := by
  simp [rivals, List.finRange_succ, List.map_flatMap, List.flatMap_map, List.filter_map,
    Function.comp_def]
  rfl

theorem conflicts_eq_map_rivals (l : List Attribution) :
    conflicts l = (rivals l).map fun p => (l[p.1], l[p.2]) := by
  induction l with
  | nil => rfl
  | cons a l ih =>
    have hfirst : l.filter (fun b => a.descriptor ≠ b.descriptor) =
        ((List.finRange l.length).filter fun j => a.descriptor ≠ l[j].descriptor).map
          fun j => l[j] := by
      conv_lhs => rw [← List.map_getElem_finRange l, List.filter_map]
      rfl
    rw [conflicts, ih, hfirst, rivals_cons, List.map_append, List.map_map, List.map_map,
      List.map_map]
    rfl

theorem length_rivals (l : List Attribution) :
    (rivals l).length = clashes (l.map (·.descriptor)) := by
  rw [← length_conflicts, conflicts_eq_map_rivals, List.length_map]

/-! ## The verdict on a stream -/

namespace Stream

/-- What is said of two types that a stream takes: the place of the first one leads, and that of
the second one is related. -/
def mismatchDiagnostic (t : Stream) (a b : Attribution) : Diagnostic where
  kind := .typeMismatch
  locator := a.locator
  message := s!"stream \"{t.name}\" type {a.descriptor.text} at {place a.locator} " ++
    s!"conflicts with type {b.descriptor.text} at {place b.locator}"
  related := [⟨b.locator, s!"{b.descriptor.text} ({b.provenance.text})"⟩]

/-- What is said of a stream that takes no type. -/
def untypedDiagnostic (t : Stream) : Diagnostic where
  kind := .untyped
  locator := t.locator
  message := s!"stream \"{t.name}\" has no types at all"
  hint := some "declare its type or feed it from a typed operator"

/-- What a verdict says about a stream. -/
def verdict (t : Stream) : List Diagnostic :=
  (rivals t.inputs).map (fun p => t.mismatchDiagnostic t.inputs[p.1] t.inputs[p.2]) ++
    if t.inputs = [] then [t.untypedDiagnostic] else []

/-- How many mismatches a verdict says there are at a stream. -/
def mismatchCount (t : Stream) : Nat := t.verdict.countP fun d => d.kind = .typeMismatch

theorem map_diagnostic_findings (t : Stream) : t.findings.map (·.diagnostic) = t.verdict := by
  rw [findings, verdict, List.map_append, conflicts_eq_map_rivals, List.map_map, List.map_map,
    apply_ite (List.map _)]
  simp only [List.isEmpty_iff]
  rfl

/-- All types that the stream takes are the same. -/
def Uniform (t : Stream) : Prop := ∀ a ∈ t.inputs, ∀ b ∈ t.inputs, a.descriptor = b.descriptor

theorem verdict_eq_nil_iff {t : Stream} : t.verdict = [] ↔ t.inputs ≠ [] ∧ t.Uniform := by
  rw [← map_diagnostic_findings, List.map_eq_nil_iff, findings_eq_nil_iff, types, Uniform]
  simp [List.eq_nil_iff_forall_not_mem]

theorem mismatchCount_eq (t : Stream) : t.mismatchCount = clashes t.types := by
  have hpairs : (rivals t.inputs).countP (fun _ => true) = clashes t.types := by
    rw [List.countP_true, length_rivals, types]
  have huntyped : (if t.inputs = [] then [t.untypedDiagnostic] else []).countP
      (fun d => d.kind = .typeMismatch) = 0 := by
    split <;> simp [untypedDiagnostic]
  rw [mismatchCount, verdict, List.countP_append, List.countP_map, huntyped, ← hpairs]
  rfl

theorem mismatchCount_eq_zero_iff {t : Stream} : t.mismatchCount = 0 ↔ t.Uniform := by
  rw [mismatchCount_eq, types, ← length_conflicts, List.length_eq_zero_iff, conflicts_eq_nil_iff,
    Uniform]
  simp

end Stream

/-! ## How many mismatches there are -/

/-- Two positions either clash, or the same type stands at both. -/
theorem clashes_add_sum (ds : List Descriptor) {shapes : Finset Descriptor}
    (hshapes : ∀ d ∈ ds, d ∈ shapes) :
    clashes ds + ∑ d ∈ shapes, (ds.count d).choose 2 = ds.length.choose 2 := by
  have hpascal : ∀ n : Nat, (n + 1).choose 2 = n.choose 2 + n := fun n => by
    rw [Nat.choose_succ_succ' n 1, Nat.choose_one_right, Nat.add_comm]
  induction ds with
  | nil => simp [clashes]
  | cons d ds ih =>
    have hrest := ih fun e he => hshapes e (List.mem_cons_of_mem d he)
    -- The new position makes a pair with every old one: of the same type, or of another.
    have hsplit : ds.length = ds.countP (fun e => d ≠ e) + ds.count d := by
      rw [List.length_eq_countP_add_countP (fun e => d ≠ e)]
      congr 1
      refine List.countP_congr fun e _ => ?_
      simp [eq_comm (a := d)]
    have hcount : ∀ e, ((d :: ds).count e).choose 2 =
        (ds.count e).choose 2 + if d = e then ds.count e else 0 := by
      intro e
      by_cases hde : d = e
      · simp [hde, hpascal]
      · simp [hde]
    have hsum : ∑ e ∈ shapes, ((d :: ds).count e).choose 2 =
        ∑ e ∈ shapes, (ds.count e).choose 2 + ds.count d := by
      simp only [hcount, Finset.sum_add_distrib, Finset.sum_ite_eq, hshapes d List.mem_cons_self,
        if_true]
    rw [clashes, hsum, List.length_cons, hpascal]
    omega

theorem Stream.mismatchCount_add_sum (t : Stream) :
    t.mismatchCount + ∑ d ∈ t.types.toFinset, t.types.count d * (t.types.count d - 1) / 2 =
      t.inputs.length * (t.inputs.length - 1) / 2 := by
  have hsum := clashes_add_sum t.types fun d hd => List.mem_toFinset.2 hd
  have hlength : t.types.length = t.inputs.length := List.length_map _
  rw [hlength] at hsum
  simp only [Nat.choose_two_right] at hsum
  rw [mismatchCount_eq, hsum]

theorem Stream.mismatchCount_of_perm {t : Stream} {inputs : List Attribution}
    (h : inputs.Perm t.inputs) : { t with inputs }.mismatchCount = t.mismatchCount := by
  rw [mismatchCount_eq, mismatchCount_eq]
  exact clashes_perm (h.map _)

/-! ## The verdict on a session -/

/-- How the mismatches of a stream come about, and how many there are. -/
structure Stream.Judged (t : Stream) : Prop where
  /-- They come by their first positions, and then by their second ones. -/
  ordered : (rivals t.inputs).Pairwise fun p q => p.1 < q.1 ∨ p.1 = q.1 ∧ p.2 < q.2
  /-- There is one for every two positions with different types, and no other. -/
  mem_iff : ∀ i j, (i, j) ∈ rivals t.inputs ↔
    i < j ∧ t.inputs[i].descriptor ≠ t.inputs[j].descriptor
  /-- Of all pairs of positions, those do not count at which the same type stands twice. -/
  count : t.mismatchCount + ∑ d ∈ t.types.toFinset, t.types.count d * (t.types.count d - 1) / 2 =
    t.inputs.length * (t.inputs.length - 1) / 2
  /-- The order in which a stream takes its types does not matter for their number. -/
  count_perm : ∀ inputs : List Attribution, inputs.Perm t.inputs →
    { t with inputs }.mismatchCount = t.mismatchCount
  count_eq_zero_iff : t.mismatchCount = 0 ↔ t.Uniform

theorem Stream.judged (t : Stream) : t.Judged where
  ordered := pairwise_rivals t.inputs
  mem_iff _ _ := mem_rivals
  count := t.mismatchCount_add_sum
  count_perm _ := mismatchCount_of_perm
  count_eq_zero_iff := mismatchCount_eq_zero_iff

theorem Graph.map_diagnostic_findings (g : Graph) :
    g.findings.map (·.diagnostic) = g.streams.flatMap (·.verdict) := by
  rw [findings, List.map_flatMap]
  simp only [Stream.map_diagnostic_findings]

theorem Graph.findings_eq_nil_iff_uniform {g : Graph} :
    g.findings = [] ↔ ∀ t ∈ g.streams, t.inputs ≠ [] ∧ t.Uniform := by
  rw [← List.map_eq_nil_iff (f := Finding.diagnostic), map_diagnostic_findings,
    List.flatMap_eq_nil_iff]
  simp only [Stream.verdict_eq_nil_iff]

theorem Session.verify_status_eq_success_iff_uniform (s : Session) :
    s.verify.status = .success ↔
      s.diagnostics = [] ∧ ∀ t ∈ s.graph.streams, t.inputs ≠ [] ∧ t.Uniform := by
  rw [verify_status, ← Graph.findings_eq_nil_iff_uniform]
  split <;> simp [*]

theorem Session.verify_eq_verdicts (s : Session) :
    s.verify =
      { s with
        diagnostics := s.diagnostics ++ s.graph.streams.flatMap (·.verdict)
        status := s.verify.status } := by
  rw [← Graph.map_diagnostic_findings]
  rfl

/-- A verdict changes nothing but the diagnostics and the status. It adds what it says about every
stream, one stream after another: the mismatches, in the order of the positions of the two types
that each of them is about, and that the stream takes no type, if this is so. The check succeeds if
nothing was raised before and every stream takes one type; otherwise it fails. -/
theorem Session.verify_raises_exactly (s : Session) :
    s.verify =
      { s with
        diagnostics := s.diagnostics ++ s.graph.streams.flatMap (·.verdict)
        status := s.verify.status } ∧
    (∀ t : Stream, t.Judged) ∧
    (s.verify.status = .success ↔
      s.diagnostics = [] ∧ ∀ t ∈ s.graph.streams, t.inputs ≠ [] ∧ t.Uniform) ∧
    (s.verify.status ≠ .success ↔ s.verify.status = .fail) := by
  refine ⟨s.verify_eq_verdicts, Stream.judged, s.verify_status_eq_success_iff_uniform, ?_⟩
  rw [verify_status]
  split <;> simp

-- Of three types the first and the last are the same: the middle one clashes with both of them.
example :
    let number : Attribution := ⟨.primitive "number", .explicitDeclaration, none⟩
    let string : Attribution := ⟨.primitive "string", .callbackInput, none⟩
    rivals [number, string, number] = [(0, 1), (1, 2)] := by
  decide

end StreamTyping
