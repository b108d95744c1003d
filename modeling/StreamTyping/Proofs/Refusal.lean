import StreamTyping.Proofs.Staged
import StreamTyping.Proofs.Verdict

/-!
# What a refused event leaves behind

An event is refused if it speaks of a stream that is not there, or if it is a
`to` without a target. It has no effect then, with one exception: the names to
the left of an argument that dangles have brought their streams in by then.
These streams stay, without types and edges.

* `Dangling` and `LeftmostDangling`: an argument speaks of a stream that is not
  there, and none to its left does.
* `Graph.register`: streams with some names are added at the end.
  `Graph.internAll_eq_register`: this is what names bring in one by one, each
  name once and only if it is new (`Graph.unregistered`).
* `Graph.ArgumentsOutcome`: what arguments lead to, and the graph that they
  leave. `Graph.argumentsOutcome`: they are gone through from left to right.
* `Session.Refusal`: the invocations that are refused, with the violation and
  the session that each of them leaves. `Session.apply_eq_error_iff`: these are
  all that are refused.
* `Session.refusal_leaves_bare`: every event in every session, and every
  pipeline.
-/

namespace StreamTyping

/-! ## Arguments that dangle -/

/-- The stream that has to be there for an argument. A name makes a stream if it has to, unless
the operator is `to`. -/
def Argument.needs? (operator : Operator) : Argument → Option String
  | .stream n => some n
  | .name n => if operator = .into then some n else none
  | .number _ | .callback _ => none

/-- The argument at a position needs a stream that is not known, and that no name to its left
brings in. -/
structure Dangling (known : List String) (operator : Operator) (arguments : List Argument)
    (k : Nat) (name : String) : Prop where
  needed : ∃ argument, arguments[k]? = some argument ∧ argument.needs? operator = some name
  unknown : name ∉ known
  not_broughtIn : name ∉ Graph.broughtIn operator (arguments.take k)

/-- The argument at a position dangles, and none to its left does. -/
def LeftmostDangling (known : List String) (operator : Operator) (arguments : List Argument)
    (k : Nat) (name : String) : Prop :=
  Dangling known operator arguments k name ∧ ∀ j < k, ∀ n, ¬ Dangling known operator arguments j n

theorem LeftmostDangling.eq {known : List String} {operator : Operator} {arguments : List Argument}
    {j k : Nat} {m n : String} (hj : LeftmostDangling known operator arguments j m)
    (hk : LeftmostDangling known operator arguments k n) : j = k ∧ m = n := by
  obtain rfl : j = k := by
    rcases Nat.lt_trichotomy j k with hlt | heq | hlt
    · exact absurd hj.1 (hk.2 j hlt m)
    · exact heq
    · exact absurd hk.1 (hj.2 k hlt n)
  obtain ⟨a, ha, hm⟩ := hj.1.needed
  obtain ⟨b, hb, hn⟩ := hk.1.needed
  obtain rfl := Option.some.inj (ha.symm.trans hb)
  exact ⟨rfl, Option.some.inj (hm.symm.trans hn)⟩

/-! ## Arguments from left to right -/

theorem Graph.broughtIn_nil (operator : Operator) : broughtIn operator [] = [] := by
  simp [broughtIn]

theorem Graph.broughtIn_singleton {operator : Operator} {argument : Argument}
    (h : argument.newName? = none) : broughtIn operator [argument] = [] := by
  rw [broughtIn_of_none h, broughtIn_nil]

theorem Graph.broughtIn_cons (operator : Operator) (argument : Argument) (rest : List Argument) :
    broughtIn operator (argument :: rest) =
      broughtIn operator [argument] ++ broughtIn operator rest := by
  rw [broughtIn, broughtIn, broughtIn]
  split
  · rfl
  · exact List.filterMap_append (l := [argument])

theorem not_dangling_nil {known : List String} {operator : Operator} {k : Nat} {name : String} :
    ¬ Dangling known operator [] k name := by
  rintro ⟨⟨argument, hmem, -⟩, -, -⟩
  simp at hmem

section Cons

variable {known : List String} {operator : Operator} {argument : Argument}
  {rest : List Argument} {name : String}

theorem dangling_zero_iff :
    Dangling known operator (argument :: rest) 0 name ↔
      argument.needs? operator = some name ∧ name ∉ known := by
  constructor
  · rintro ⟨⟨a, ha, hneeds⟩, hunknown, -⟩
    obtain rfl := Option.some.inj ha
    exact ⟨hneeds, hunknown⟩
  · rintro ⟨hneeds, hunknown⟩
    refine ⟨⟨argument, rfl, hneeds⟩, hunknown, ?_⟩
    simp [Graph.broughtIn]

/-- What an argument brings in is known to the ones to its right. -/
theorem dangling_succ_iff {k : Nat} :
    Dangling known operator (argument :: rest) (k + 1) name ↔
      Dangling (known ++ Graph.broughtIn operator [argument]) operator rest k name := by
  constructor
  · rintro ⟨hneeded, hunknown, hnew⟩
    rw [List.take_succ_cons, Graph.broughtIn_cons, List.mem_append, not_or] at hnew
    refine ⟨hneeded, ?_, hnew.2⟩
    rw [List.mem_append, not_or]
    exact ⟨hunknown, hnew.1⟩
  · rintro ⟨hneeded, hunknown, hnew⟩
    rw [List.mem_append, not_or] at hunknown
    refine ⟨hneeded, hunknown.1, ?_⟩
    rw [List.take_succ_cons, Graph.broughtIn_cons, List.mem_append, not_or]
    exact ⟨hunknown.2, hnew⟩

end Cons

/-- No argument dangles if none speaks of a stream. -/
theorem not_dangling_of_streamNames {known : List String} {operator : Operator}
    {arguments : List Argument} (h : arguments.filterMap (·.streamName?) = []) {k : Nat}
    {name : String} : ¬ Dangling known operator arguments k name := by
  rintro ⟨⟨argument, hmem, hneeds⟩, -, -⟩
  have hnone := List.filterMap_eq_nil_iff.1 h argument (List.mem_of_getElem? hmem)
  cases argument with
  | stream _ | name _ => cases hnone
  | number _ | callback _ => cases hneeds

namespace Graph

/-! ## Names that bring streams in -/

/-- Streams with the names of a list are added, without types and edges, and the index leads
from these names to them. -/
def register (g : Graph) (locator : Option Locator) (names : List String) : Graph :=
  { g with
    streams := g.streams ++
      names.mapIdx fun i name => { id := g.streams.length + i, name, locator }
    index := (names.zipIdx g.streams.length).foldl (fun index p => index.insert p.1 p.2) g.index }

/-- Those names of a list that lead nowhere, each where it stands first. -/
def unregistered (g : Graph) (names : List String) : List String :=
  (names.filter fun name => name ∉ g.names).eraseDups

/-- The names of a list bring their streams in, one after another. -/
def internAll (g : Graph) (locator : Option Locator) (names : List String) : Graph :=
  names.foldl (fun g name => (g.intern name locator).1) g

theorem mem_names_insert {g : Graph} {streams : List Stream} {name n : String} {id : StreamId} :
    n ∈ names { g with streams, index := g.index.insert name id } ↔ n ∈ g.names ∨ n = name := by
  rw [mem_names_iff, mem_names_iff, lookup?, Dict.get?_insert]
  by_cases hn : n = name <;> simp [hn, lookup?]

section Names

variable (g : Graph) (locator : Option Locator) (names : List String) (name : String)

theorem register_concat :
    g.register locator (names ++ [name]) =
      { g.register locator names with
        streams := (g.register locator names).streams ++
          [{ id := (g.register locator names).streams.length, name, locator }]
        index := (g.register locator names).index.insert name
          (g.register locator names).streams.length } := by
  simp [register, List.mapIdx_append, List.zipIdx_append]

variable {g locator names} in
theorem mem_names_register {n : String} :
    n ∈ (g.register locator names).names ↔ n ∈ g.names ++ names := by
  induction names using List.reverseRecOn with
  | nil => simp [register, Graph.names]
  | append_singleton names name ih =>
    rw [register_concat, mem_names_insert, ih]
    simp [or_assoc]

theorem unregistered_concat :
    g.unregistered (names ++ [name]) =
      if name ∈ g.names ++ g.unregistered names then g.unregistered names
      else g.unregistered names ++ [name] := by
  rw [unregistered, List.filter_append, List.filter_singleton]
  by_cases hold : name ∈ g.names
  · rw [if_pos (List.mem_append_left _ hold), decide_eq_false (not_not.2 hold), cond_false,
      List.append_nil, unregistered]
  · rw [decide_eq_true hold, cond_true, eraseDups_concat]
    simp only [unregistered, List.mem_append, List.mem_eraseDups, hold, false_or]

theorem internAll_append (more : List String) :
    g.internAll locator (names ++ more) = (g.internAll locator names).internAll locator more :=
  List.foldl_append

/-- Bringing names in adds the new ones among them, in order. -/
theorem internAll_eq_register :
    g.internAll locator names = g.register locator (g.unregistered names) := by
  induction names using List.reverseRecOn with
  | nil => simp [internAll, unregistered, register]
  | append_singleton names name ih =>
    rw [internAll_append, ih, unregistered_concat]
    show (Graph.intern _ name locator).1 = _
    split
    · rename_i hmem
      obtain ⟨id, hl⟩ := mem_names_iff.1 (mem_names_register.2 hmem)
      rw [intern_of_lookup? hl]
    · rename_i hnew
      rw [intern_of_lookup?_none (lookup?_eq_none_iff.2 (mt mem_names_register.1 hnew)),
        register_concat]

variable {g name} in
theorem mem_names_intern {n : String} :
    n ∈ (g.intern name locator).1.names ↔ n ∈ g.names ∨ n = name := by
  by_cases hmem : name ∈ g.names
  · obtain ⟨id, hl⟩ := mem_names_iff.1 hmem
    rw [intern_of_lookup? hl, or_iff_left_of_imp]
    rintro rfl
    exact hmem
  · rw [intern_of_lookup?_none (lookup?_eq_none_iff.2 hmem)]
    exact mem_names_insert

end Names

/-! ## Arguments that are refused -/

/-- What the arguments of an invocation lead to, if streams of these names are there: the first
one that dangles is refused, and those to its left have brought their streams in. -/
inductive ArgumentsOutcome (known : List String) (g : Graph) (call : Invocation)
    (operator : Operator) (arguments : List Argument) :
    Graph × Except Violation (List StreamId) → Prop where
  | dangling {k : Nat} {name : String} (h : LeftmostDangling known operator arguments k name) :
      ArgumentsOutcome known g call operator arguments
        (g.internAll call.locator (broughtIn operator (arguments.take k)),
          .error (.unresolvedArgument name call.token call.locator))
  | resolved {ids : List StreamId} (hnone : ∀ k n, ¬ Dangling known operator arguments k n)
      (hids : ids.length = (arguments.filterMap (·.streamName?)).length) :
      ArgumentsOutcome known g call operator arguments
        (g.internAll call.locator (broughtIn operator arguments), .ok ids)

section Arguments

variable {known : List String} {g : Graph} {call : Invocation} {operator : Operator}
  {argument : Argument} {rest : List Argument}

/-- An argument that is not refused leaves the outcome to those on its right, which know what it
brings in. -/
theorem ArgumentsOutcome.cons {r : Graph × Except Violation (List StreamId)}
    (hneeds : ∀ n, argument.needs? operator = some n → n ∈ known)
    (h : ArgumentsOutcome (known ++ broughtIn operator [argument])
      (g.internAll call.locator (broughtIn operator [argument])) call operator rest r)
    {f : List StreamId → List StreamId}
    (hf : ∀ ids, (f ids).length = argument.streamName?.toList.length + ids.length) :
    ArgumentsOutcome known g call operator (argument :: rest) (r.1, r.2.map f) := by
  have hzero : ∀ n, ¬ Dangling known operator (argument :: rest) 0 n := by
    intro n hn
    obtain ⟨hneed, hunknown⟩ := dangling_zero_iff.1 hn
    exact hunknown (hneeds n hneed)
  cases h with
  | @dangling k name hk =>
    rw [← internAll_append, ← broughtIn_cons, ← List.take_succ_cons]
    refine .dangling ⟨dangling_succ_iff.2 hk.1, fun j hj n hn => ?_⟩
    cases j with
    | zero => exact hzero n hn
    | succ j => exact hk.2 j (by omega) n (dangling_succ_iff.1 hn)
  | @resolved ids hnone hids =>
    rw [← internAll_append, ← broughtIn_cons]
    refine .resolved (fun k n hn => ?_) ?_
    · cases k with
      | zero => exact hzero n hn
      | succ k => exact hnone k n (dangling_succ_iff.1 hn)
    · rw [hf, hids]
      cases hname : argument.streamName? <;> simp [hname, Nat.add_comm]

theorem ArgumentsOutcome.refused {n : String} (hneeds : argument.needs? operator = some n)
    (hn : n ∉ known) :
    ArgumentsOutcome known g call operator (argument :: rest)
      (g, .error (.unresolvedArgument n call.token call.locator)) := by
  have h : ArgumentsOutcome known g call operator (argument :: rest)
      (g.internAll call.locator (broughtIn operator ((argument :: rest).take 0)),
        .error (.unresolvedArgument n call.token call.locator)) :=
    .dangling ⟨dangling_zero_iff.2 ⟨hneeds, hn⟩, fun j hj => absurd hj (Nat.not_lt_zero j)⟩
  rw [List.take_zero, broughtIn_nil] at h
  exact h

end Arguments

/-- The arguments of an invocation have the outcome that they should have. -/
theorem argumentsOutcome {known : List String} {g : Graph} (call : Invocation)
    (operator : Operator) (arguments : List Argument)
    (hknown : ∀ n, n ∈ known ↔ n ∈ g.names) :
    ArgumentsOutcome known g call operator arguments
      (g.resolveArguments call operator arguments) := by
  induction arguments generalizing known g with
  | nil =>
    have h : ArgumentsOutcome known g call operator []
        (g.internAll call.locator (broughtIn operator []), .ok []) :=
      .resolved (fun k n => not_dangling_nil) rfl
    rw [broughtIn_nil] at h
    exact h
  | cons argument rest ih =>
    have hskip : argument.needs? operator = none → broughtIn operator [argument] = [] →
        argument.streamName? = none →
        ArgumentsOutcome known g call operator (argument :: rest)
          (g.resolveArguments call operator rest) := by
      intro hneeds hbrought hname
      have h : ArgumentsOutcome known g call operator (argument :: rest)
          ((g.resolveArguments call operator rest).1,
            (g.resolveArguments call operator rest).2.map id) := by
        refine .cons (by simp [hneeds]) ?_ (by simp [hname])
        rw [hbrought, List.append_nil]
        exact ih hknown
      rwa [Except.map_id] at h
    have hneed : ∀ n, argument.needs? operator = some n → broughtIn operator [argument] = [] →
        argument.streamName? = some n →
        ArgumentsOutcome known g call operator (argument :: rest)
          (g.resolveArguments call operator (.stream n :: rest)) := by
      intro n hneeds hbrought hname
      by_cases hn : n ∈ known
      · obtain ⟨id, hid⟩ := mem_names_iff.1 ((hknown n).1 hn)
        rw [resolveArguments_stream_of_ok g call operator n rest (by rw [resolve, hid])]
        refine .cons ?_ ?_ (by simp [hname, Nat.add_comm])
        · intro m hm
          rw [hneeds] at hm
          exact Option.some.inj hm ▸ hn
        · rw [hbrought, List.append_nil]
          exact ih hknown
      · have hnone := lookup?_eq_none_iff.2 (mt (hknown n).2 hn)
        rw [resolveArguments_stream_of_error g call operator n rest (by rw [resolve, hnone])]
        exact .refused hneeds hn
    cases argument with
    | number _ => exact hskip rfl (broughtIn_singleton rfl) rfl
    | callback _ => exact hskip rfl (broughtIn_singleton rfl) rfl
    | stream n => exact hneed n rfl (broughtIn_singleton rfl) rfl
    | name n =>
      by_cases hinto : operator = .into
      · subst hinto
        rw [resolveArguments_name_into]
        exact hneed n rfl (broughtIn_into _) rfl
      · have hbrought : broughtIn operator [.name n] = [n] := by
          rw [broughtIn_name hinto, broughtIn_nil]
        rw [resolveArguments_name g call n rest hinto]
        refine .cons (by simp [Argument.needs?, hinto]) ?_
          (by simp [Argument.streamName?, Nat.add_comm])
        rw [hbrought]
        refine ih fun m => ?_
        rw [List.mem_append, List.mem_singleton, hknown]
        exact (mem_names_intern call.locator).symm

end Graph

namespace Session

/-! ## Invocations that are refused -/

/-- An invocation is refused with a violation, and leaves this session. It is the session from
before, unless an argument dangles and the operator is not `to`: streams for the new names to
the left of that argument are there then, and they are all that is new. -/
inductive Refusal (s : Session) (call : Invocation) : Violation → Session → Prop where
  | source (hsource : call.source ∉ s.graph.names) :
      Refusal s call (.unresolvedSource call.source call.token call.locator) s
  | target (hsource : call.source ∈ s.graph.names)
      (hop : Operator.ofToken? call.token = some .into) (hnone : call.streamNames = []) :
      Refusal s call (.missingTarget call.token call.locator) s
  | feed {k : Nat} {name : String} (hsource : call.source ∈ s.graph.names)
      (hop : Operator.ofToken? call.token = some .into)
      (hname : LeftmostDangling (s.graph.names) .into call.arguments k name) :
      Refusal s call (.unresolvedArgument name call.token call.locator) s
  | spawn {operator : Operator} {k : Nat} {name : String}
      (hsource : call.source ∈ s.graph.names)
      (hop : Operator.ofToken? call.token = some operator) (hinto : operator ≠ .into)
      (hname : LeftmostDangling (s.graph.names) operator call.arguments k name) :
      Refusal s call (.unresolvedArgument name call.token call.locator)
        { s with
          graph := s.graph.register call.locator
            (s.graph.unregistered ((call.arguments.take k).filterMap (·.newName?))) }

section Refusal

variable {s t : Session} {call : Invocation} {v : Violation}

theorem refusal_of_unknown (hsource : call.source ∉ s.graph.names) :
    s.Refusal call v t ↔
      t = s ∧ v = .unresolvedSource call.source call.token call.locator := by
  constructor
  · intro h
    cases h with
    | source _ => exact ⟨rfl, rfl⟩
    | target hknown _ _ | feed hknown _ _ | spawn hknown _ _ _ => exact absurd hknown hsource
  · rintro ⟨rfl, rfl⟩
    exact .source hsource

theorem not_refusal_of_token (hsource : call.source ∈ s.graph.names)
    (hop : Operator.ofToken? call.token = none) : ¬ s.Refusal call v t := by
  intro h
  cases h with
  | source hunknown => exact hunknown hsource
  | target _ hop' _ | feed _ hop' _ | spawn _ hop' _ _ =>
    rw [hop] at hop'
    cases hop'

/-- Of a known operator on a known stream, `to` differs only in that no name brings a stream
in, and in that it needs a target. -/
theorem refusal_of_known {operator : Operator}
    (hsource : call.source ∈ s.graph.names)
    (hop : Operator.ofToken? call.token = some operator) :
    s.Refusal call v t ↔
      (∃ k name, LeftmostDangling (s.graph.names) operator call.arguments k name ∧
        t = { s with
          graph := s.graph.internAll call.locator
            (Graph.broughtIn operator (call.arguments.take k)) } ∧
        v = .unresolvedArgument name call.token call.locator) ∨
      (operator = .into ∧ call.streamNames = [] ∧ t = s ∧
        v = .missingTarget call.token call.locator) := by
  constructor
  · intro h
    cases h with
    | source hunknown => exact absurd hsource hunknown
    | target _ hop' hnone =>
      exact .inr ⟨Option.some.inj (hop.symm.trans hop'), hnone, rfl, rfl⟩
    | feed _ hop' hname =>
      obtain rfl := Option.some.inj (hop.symm.trans hop')
      exact .inl ⟨_, _, hname, rfl, rfl⟩
    | spawn _ hop' hinto hname =>
      obtain rfl := Option.some.inj (hop.symm.trans hop')
      refine .inl ⟨_, _, hname, ?_, rfl⟩
      rw [Graph.internAll_eq_register, Graph.broughtIn, if_neg hinto]
  · rintro (⟨k, name, hname, rfl, rfl⟩ | ⟨rfl, hnone, rfl, rfl⟩)
    · by_cases hinto : operator = .into
      · subst hinto
        exact .feed hsource hop hname
      · rw [Graph.internAll_eq_register, Graph.broughtIn, if_neg hinto]
        exact .spawn hsource hop hinto hname
    · exact .target hsource hop hnone

/-- An invocation is refused by the rules, and leaves what they say. -/
theorem invoke_eq_error_iff : s.invoke call = (t, .error v) ↔ s.Refusal call v t := by
  rw [invoke]
  by_cases hsource : call.source ∈ s.graph.names
  · obtain ⟨source, hlookup⟩ := Graph.mem_names_iff.1 hsource
    rw [hlookup]
    cases hop : Operator.ofToken? call.token with
    | none => exact iff_of_false (by rintro ⟨⟩) (not_refusal_of_token hsource hop)
    | some operator =>
      rw [refusal_of_known hsource hop]
      dsimp only
      have houtcome := Graph.argumentsOutcome (g := s.graph) call operator call.arguments
        fun n => Iff.rfl
      generalize s.graph.resolveArguments call operator call.arguments = r at houtcome ⊢
      cases houtcome with
      | @dangling k name hk =>
        -- Some argument dangles, so that a `to` without stream arguments is ruled out.
        refine Iff.trans ?_ (or_iff_left ?_).symm
        · constructor
          · rintro ⟨⟩
            exact ⟨k, name, hk, rfl, rfl⟩
          · rintro ⟨j, n, hj, rfl, rfl⟩
            obtain ⟨rfl, rfl⟩ := hk.eq hj
            rfl
        · rintro ⟨-, hnone, -⟩
          exact not_dangling_of_streamNames hnone hk.1
      | @resolved ids hnone hids =>
        refine Iff.trans ?_ (or_iff_right ?_).symm
        · by_cases hinto : operator = .into
          · subst hinto
            cases ids with
            | nil =>
              have hnames : call.streamNames = [] := List.length_eq_zero_iff.1 hids.symm
              simp only [feed, hnames, true_and, if_true, Prod.mk.injEq, Except.error.injEq]
              exact and_congr eq_comm eq_comm
            | cons id ids =>
              refine iff_of_false (by rintro ⟨⟩) ?_
              rintro ⟨-, hnames, -⟩
              rw [show call.arguments.filterMap (·.streamName?) = [] from hnames] at hids
              cases hids
          · refine iff_of_false ?_ fun h => hinto h.1
            simp only [if_neg hinto]
            rintro ⟨⟩
        · rintro ⟨k, name, hk, -⟩
          exact hnone k name hk.1
  · rw [Graph.lookup?_eq_none_iff.2 hsource, refusal_of_unknown hsource]
    simp only [Prod.mk.injEq, Except.error.injEq]
    exact and_congr eq_comm eq_comm

end Refusal

theorem apply_eq_error_iff {s t : Session} {event : Event} {v : Violation} :
    s.apply event = (t, .error v) ↔ ∃ call, event = .invoke call ∧ s.Refusal call v t := by
  cases event with
  | declare _ =>
    refine iff_of_false (by rintro ⟨⟩) ?_
    rintro ⟨call, ⟨⟩, -⟩
  | invoke call =>
    rw [apply, invoke_eq_error_iff]
    constructor
    · exact fun h => ⟨call, rfl, h⟩
    · rintro ⟨_, ⟨⟩, h⟩
      exact h

/-- A pipeline that fails has failed in the build, at the event behind those that were added. -/
theorem exists_of_pipeline_eq_some {s t : Session} {events : List Event} {terminal : Pass}
    {runs : List PassRun} {v : Violation} (h : s.pipeline events terminal = (t, runs, some v)) :
    runs = [] ∧ ∃ last event, s.build (events.take (s.applied events)) = (last, none) ∧
      events[s.applied events]? = some event ∧ last.apply event = (t, .error v) := by
  cases hbuild : s.build events with
  | mk built violation =>
    cases violation with
    | none =>
      obtain ⟨hbuilt, hpropagated, hverified⟩ := pipeline_eq_of_build hbuild
      cases terminal with
      | build => rw [hbuilt] at h; cases h
      | propagate => rw [hpropagated] at h; cases h
      | verify => rw [hverified] at h; cases h
    | some w =>
      rw [pipeline_eq_of_violation hbuild] at h
      obtain ⟨rfl, hrest⟩ := Prod.mk.inj h
      obtain ⟨rfl, hw⟩ := Prod.mk.inj hrest
      obtain rfl := Option.some.inj hw
      exact ⟨rfl, exists_of_build_eq_some hbuild⟩

/-- In every session, the events that are refused are the invocations at fault, and all that one
leaves behind are streams without types and edges for the new names to the left of the argument
that dangles. In a session that can be reached, a name is new if no stream has it. A pipeline that
is refused has come to the end of no pass: it leaves what the refused event leaves of the session
that the events before it have built, with the status and the statistics that it has started
with. -/
theorem refusal_leaves_bare (s : Session) :
    (∀ event t v, s.apply event = (t, .error v) ↔
      ∃ call, event = .invoke call ∧ s.Refusal call v t) ∧
    (s.Reachable → ∀ name, name ∈ s.graph.names ↔ name ∈ s.graph.streams.map (·.name)) ∧
    ∀ events terminal t runs v, s.pipeline events terminal = (t, runs, some v) →
      runs = [] ∧ t.status = s.status ∧ t.propagation = s.propagation ∧
      ∃ last call, s.build (events.take (s.applied events)) = (last, none) ∧
        events[s.applied events]? = some (.invoke call) ∧ last.Refusal call v t := by
  refine ⟨fun event t v => apply_eq_error_iff, fun h name => h.wellFormed.mem_names,
    fun events terminal t runs v h => ?_⟩
  obtain ⟨hruns, last, event, hlast, hevent, hfail⟩ := exists_of_pipeline_eq_some h
  obtain ⟨-, hstatus, hpropagation⟩ := s.build_frame (events.take (s.applied events))
  obtain ⟨-, hstatus', hpropagation'⟩ := last.apply_frame event
  rw [hlast] at hstatus hpropagation
  rw [hfail] at hstatus' hpropagation'
  obtain ⟨call, rfl, hrefusal⟩ := apply_eq_error_iff.1 hfail
  exact ⟨hruns, hstatus'.trans hstatus, hpropagation'.trans hpropagation,
    last, call, hlast, hevent, hrefusal⟩

/-- A session that has passed its verification. -/
def checkedSession : Session :=
  (pipeline {} [.declare { name := "a", descriptor := some (.primitive "number") }] .verify).1

/-- An invocation with new names to the left of an unknown stream, one of them twice. -/
def danglingCall : Invocation where
  source := "a"
  token := "any"
  arguments := [.name "c", .name "b", .name "c", .name "d", .stream "e", .name "f"]

theorem refusal_leaves_bare_rerun :
    ∃ t last, checkedSession.pipeline [.declare { name := "b" }, .invoke danglingCall] .verify =
        (t, [], some (.unresolvedArgument "e" "any" none)) ∧
      Refusal last danglingCall (.unresolvedArgument "e" "any" none) t ∧
      t.graph.streams.map (·.name) = ["a", "b", "c", "d"] ∧
      t.status = .success ∧ t.propagation = checkedSession.propagation := by
  have hviolation : (checkedSession.pipeline [.declare { name := "b" }, .invoke danglingCall]
      .verify).2.2 = some (.unresolvedArgument "e" "any" none) := by decide +kernel
  obtain ⟨hruns, hstatus, hpropagation, last, call, -, hcall, hrefusal⟩ :=
    (refusal_leaves_bare checkedSession).2.2 _ _ _ _ _ (Prod.ext rfl (Prod.ext rfl hviolation))
  have happlied : checkedSession.applied [.declare { name := "b" }, .invoke danglingCall] = 1 := by
    decide +kernel
  rw [happlied] at hcall
  obtain rfl := Event.invoke.inj (Option.some.inj hcall)
  exact ⟨_, last, Prod.ext rfl (Prod.ext hruns hviolation), hrefusal, by decide +kernel,
    hstatus.trans (by decide +kernel), hpropagation⟩

end Session

end StreamTyping
