import Mathlib.Data.Nat.Find
import StreamTyping.Proofs.Refusal

/-!
# Which builds are rejected

A build is rejected at the first event that speaks of a stream which nothing
before has brought in, or that is a `to` without a target. Whether an event is
at fault depends on the streams that the events before it mention, and within
an invocation also on the names to the left of an argument.

* `knownBefore`: the streams that the events before an index mention.
* `Invocation.Faulty` and `Invocation.Rejects`: the invocations that are at
  fault, and the violation and the text that each of them is rejected with.
* `Session.exists_refusal_iff`: these are the invocations that are refused.
* `Session.build_rejection`: a whole build.
-/

namespace StreamTyping

/-! ## The rules -/

/-- The streams that the events before an index mention. -/
def knownBefore (events : List Event) (i : Nat) : List String :=
  (events.take i).flatMap (·.mentions)

/-- The leftmost argument that dangles needs this stream. -/
def FirstDangling (known : List String) (operator : Operator) (arguments : List Argument)
    (name : String) : Prop :=
  ∃ k, LeftmostDangling known operator arguments k name

namespace Invocation

/-- An invocation is at fault: its source is not known, or its operator is known and one of the
arguments dangles, or it is a `to` without a target. -/
def Faulty (known : List String) (call : Invocation) : Prop :=
  call.source ∉ known ∨
  (∃ operator, Operator.ofToken? call.token = some operator ∧
    ∃ k name, Dangling known operator call.arguments k name) ∨
  (Operator.ofToken? call.token = some .into ∧ call.streamNames = [])

/-- The violation that an invocation is rejected with, and its text. The source comes before
the operator, and the operator before the arguments. -/
inductive Rejects (known : List String) (call : Invocation) : Violation → String → Prop where
  | source (hsource : call.source ∉ known) :
      Rejects known call (.unresolvedSource call.source call.token call.locator)
        s!"\"{call.token}\" at {place call.locator} is invoked on unknown stream \"{call.source}\""
  | argument {operator : Operator} {name : String} (hsource : call.source ∈ known)
      (hop : Operator.ofToken? call.token = some operator)
      (hname : FirstDangling known operator call.arguments name) :
      Rejects known call (.unresolvedArgument name call.token call.locator)
        s!"argument of \"{call.token}\" at {place call.locator} references unknown stream \"{name}\""
  | target (hsource : call.source ∈ known) (hop : Operator.ofToken? call.token = some .into)
      (hnone : call.streamNames = []) :
      Rejects known call (.missingTarget call.token call.locator)
        s!"\"{call.token}\" at {place call.locator} has no target stream argument"

end Invocation

/-! ## Invocations at fault are refused -/

/-- If some argument dangles, one of them is the first. -/
theorem exists_firstDangling {known : List String} {operator : Operator}
    {arguments : List Argument} :
    (∃ name, FirstDangling known operator arguments name) ↔
      ∃ k name, Dangling known operator arguments k name := by
  classical
  constructor
  · rintro ⟨name, k, hk, -⟩
    exact ⟨k, name, hk⟩
  · intro h
    obtain ⟨name, hname⟩ := Nat.find_spec h
    exact ⟨name, Nat.find h, hname, fun j hj n hjn => Nat.find_min h hj ⟨n, hjn⟩⟩

namespace Invocation

variable {known : List String} {call : Invocation}

theorem faulty_iff : call.Faulty known ↔ ∃ v text, call.Rejects known v text := by
  constructor
  · intro h
    by_cases hsource : call.source ∈ known
    · rcases h with h | ⟨operator, hop, hdangling⟩ | ⟨hop, hnone⟩
      · exact absurd hsource h
      · obtain ⟨name, hname⟩ := exists_firstDangling.2 hdangling
        exact ⟨_, _, .argument hsource hop hname⟩
      · exact ⟨_, _, .target hsource hop hnone⟩
    · exact ⟨_, _, .source hsource⟩
  · rintro ⟨v, text, h⟩
    cases h with
    | source hsource => exact .inl hsource
    | argument _ hop hname =>
      exact .inr (.inl ⟨_, hop, exists_firstDangling.1 ⟨_, hname⟩⟩)
    | target _ hop hnone => exact .inr (.inr ⟨hop, hnone⟩)

theorem Rejects.text_eq {v : Violation} {text : String} (h : call.Rejects known v text) :
    text = v.message := by
  cases h <;> rfl

end Invocation

theorem Dangling.of_subset {known more : List String} {operator : Operator}
    {arguments : List Argument} {k : Nat} {name : String}
    (h : Dangling more operator arguments k name) (hsub : known ⊆ more) :
    Dangling known operator arguments k name :=
  ⟨h.needed, fun hname => h.unknown (hsub hname), h.not_broughtIn⟩

theorem LeftmostDangling.congr {known others : List String} {operator : Operator}
    {arguments : List Argument} {k : Nat} {name : String}
    (h : LeftmostDangling known operator arguments k name)
    (hothers : ∀ n, n ∈ known ↔ n ∈ others) :
    LeftmostDangling others operator arguments k name :=
  ⟨h.1.of_subset fun n => (hothers n).2,
    fun j hj n hn => h.2 j hj n (hn.of_subset fun n => (hothers n).1)⟩

/-- The invocations that are refused are those that the rules reject, whatever is left of the
session. -/
theorem Session.exists_refusal_iff {s : Session} {call : Invocation} {v : Violation}
    {known : List String} (hknown : ∀ n, n ∈ s.graph.names ↔ n ∈ known) :
    (∃ t, s.Refusal call v t) ↔ call.Rejects known v v.message := by
  constructor
  · rintro ⟨t, h⟩
    cases h with
    | source hsource => exact .source (mt (hknown _).2 hsource)
    | target hsource hop hnone => exact .target ((hknown _).1 hsource) hop hnone
    | feed hsource hop hname => exact .argument ((hknown _).1 hsource) hop ⟨_, hname.congr hknown⟩
    | spawn hsource hop _ hname =>
      exact .argument ((hknown _).1 hsource) hop ⟨_, hname.congr hknown⟩
  · intro h
    cases h with
    | source hsource => exact ⟨s, .source (mt (hknown _).1 hsource)⟩
    | @argument operator name hsource hop hname =>
      obtain ⟨k, hk⟩ := hname
      have hleft := hk.congr fun n => (hknown n).symm
      by_cases hinto : operator = .into
      · subst hinto
        exact ⟨s, .feed ((hknown _).2 hsource) hop hleft⟩
      · exact ⟨_, .spawn ((hknown _).2 hsource) hop hinto hleft⟩
    | target hsource hop hnone => exact ⟨s, .target ((hknown _).2 hsource) hop hnone⟩

/-! ## What the build does -/

theorem knownBefore_zero (events : List Event) : knownBefore events 0 = [] := rfl

theorem knownBefore_succ (event : Event) (events : List Event) (i : Nat) :
    knownBefore (event :: events) (i + 1) = event.mentions ++ knownBefore events i := rfl

theorem Account.map_ofEvent_mentions (event : Event) :
    (ofEvent event).mentions.map (·.1) = event.mentions := by
  simp [ofEvent, Function.comp_def]

namespace Session.Follows

variable {s : Session} {a : Account} (h : s.Follows a)

include h

/-- An event is rejected if it is an invocation at fault. -/
theorem apply_eq_error_iff (event : Event) (v : Violation) :
    (s.apply event).2 = .error v ↔
      ∃ call, event = .invoke call ∧ call.Rejects (a.mentions.map (·.1)) v v.message := by
  have hresult : (s.apply event).2 = .error v ↔ ∃ t, s.apply event = (t, .error v) := by
    constructor
    · exact fun hv => ⟨_, Prod.ext rfl hv⟩
    · rintro ⟨t, ht⟩
      rw [ht]
  simp only [hresult, Session.apply_eq_error_iff, ← exists_refusal_iff fun n => h.graph.mem_names]
  constructor
  · rintro ⟨t, call, hevent, hrefusal⟩
    exact ⟨call, hevent, t, hrefusal⟩
  · rintro ⟨call, hevent, t, hrefusal⟩
    exact ⟨t, call, hevent, hrefusal⟩

/-- A build is rejected at the first invocation at fault. -/
theorem build_eq_some_iff (events : List Event) (v : Violation) :
    (s.build events).2 = some v ↔ ∃ i call, events[i]? = some (Event.invoke call) ∧
      (∀ j < i, ∀ earlier, events[j]? = some (Event.invoke earlier) →
        ¬ earlier.Faulty (a.mentions.map (·.1) ++ knownBefore events j)) ∧
      call.Rejects (a.mentions.map (·.1) ++ knownBefore events i) v v.message := by
  induction events generalizing s a with
  | nil =>
    refine iff_of_false (by rintro ⟨⟩) ?_
    rintro ⟨i, call, hcall, -⟩
    cases hcall
  | cons event events ih =>
    have happly := h.apply_eq_error_iff event
    rw [Session.build]
    cases hresult : s.apply event with
    | mk t result =>
      rw [hresult] at happly
      cases result with
      | error w =>
        obtain ⟨call, rfl, hreject⟩ := (happly w).1 rfl
        constructor
        · intro hv
          obtain rfl := Option.some.inj hv
          refine ⟨0, call, rfl, fun j hj => absurd hj (Nat.not_lt_zero j), ?_⟩
          rwa [knownBefore_zero, List.append_nil]
        · rintro ⟨i, later, hlater, hfirst, hv⟩
          cases i with
          | zero =>
            rw [knownBefore_zero, List.append_nil] at hv
            have herror := (happly v).2 ⟨later, Option.some.inj hlater, hv⟩
            exact congrArg some (Except.error.inj herror)
          | succ i =>
            refine absurd (Invocation.faulty_iff.2 ⟨w, w.message, ?_⟩)
              (hfirst 0 (Nat.succ_pos i) call rfl)
            rwa [knownBefore_zero, List.append_nil]
      | ok r =>
        have hnames : (a ++ .ofEvent event).mentions.map (·.1) =
            a.mentions.map (·.1) ++ event.mentions := by
          rw [Account.append_mentions, List.map_append, Account.map_ofEvent_mentions]
        -- What comes later sees the streams that this event mentions.
        have hknown : ∀ i, a.mentions.map (·.1) ++ knownBefore (event :: events) (i + 1) =
            (a ++ .ofEvent event).mentions.map (·.1) ++ knownBefore events i := by
          intro i
          rw [hnames, knownBefore_succ, List.append_assoc]
        have hfine : ∀ call, event = .invoke call →
            ¬ call.Faulty (a.mentions.map (·.1) ++ knownBefore (event :: events) 0) := by
          intro call hcall hfaulty
          rw [knownBefore_zero, List.append_nil] at hfaulty
          obtain ⟨w, text, hw⟩ := Invocation.faulty_iff.1 hfaulty
          cases (happly w).2 ⟨call, hcall, hw.text_eq ▸ hw⟩
        refine (ih (h.apply hresult)).trans ⟨?_, ?_⟩
        · rintro ⟨i, call, hcall, hfirst, hv⟩
          refine ⟨i + 1, call, hcall, fun j hj earlier hearlier => ?_, hknown i ▸ hv⟩
          cases j with
          | zero => exact hfine earlier (Option.some.inj hearlier)
          | succ j => exact hknown j ▸ hfirst j (Nat.lt_of_succ_lt_succ hj) earlier hearlier
        · rintro ⟨i, call, hcall, hfirst, hv⟩
          cases i with
          | zero =>
            exact absurd (Invocation.faulty_iff.2 ⟨v, _, hv⟩) (hfine call (Option.some.inj hcall))
          | succ i =>
            refine ⟨i, call, hcall, fun j hj earlier hearlier => ?_, hknown i ▸ hv⟩
            exact hknown j ▸ hfirst (j + 1) (Nat.succ_lt_succ hj) earlier hearlier

end Session.Follows

/-- A build from the start is rejected if some invocation is at fault, given the streams that
the events before it mention, and then with the violation of the first such invocation. -/
theorem Session.build_rejection (order : Order) (events : List Event) :
    ((∃ v, (Session.build { order } events).2 = some v) ↔
      ∃ i call, events[i]? = some (Event.invoke call) ∧ call.Faulty (knownBefore events i)) ∧
    ∀ v, (Session.build { order } events).2 = some v ↔
      ∃ i call, events[i]? = some (Event.invoke call) ∧
        (∀ j < i, ∀ earlier, events[j]? = some (Event.invoke earlier) →
          ¬ earlier.Faulty (knownBefore events j)) ∧
        call.Rejects (knownBefore events i) v v.message := by
  classical
  have hbuild := (Session.follows_fresh order).build_eq_some_iff events
  refine ⟨⟨?_, fun hfaulty => ?_⟩, hbuild⟩
  · rintro ⟨v, hv⟩
    obtain ⟨i, call, hcall, -, hreject⟩ := (hbuild v).1 hv
    exact ⟨i, call, hcall, Invocation.faulty_iff.2 ⟨_, _, hreject⟩⟩
  · obtain ⟨call, hcall, hfault⟩ := Nat.find_spec hfaulty
    obtain ⟨v, text, hreject⟩ := Invocation.faulty_iff.1 hfault
    refine ⟨v, (hbuild v).2 ⟨Nat.find hfaulty, call, hcall, fun j hj earlier hearlier hj' => ?_,
      hreject.text_eq ▸ hreject⟩⟩
    exact Nat.find_min hfaulty hj ⟨earlier, hearlier, hj'⟩

-- The name brings `b` in for the argument behind it, but the invocation does not bring in `a.any`.
example :
    let arguments : List Argument := [.name "b", .stream "b", .stream "a.any"]
    (Session.build {} [.declare { name := "a" },
      .invoke { source := "a", token := "any", arguments }]).2 =
        some (.unresolvedArgument "a.any" "any" none) := by
  decide +kernel

end StreamTyping
