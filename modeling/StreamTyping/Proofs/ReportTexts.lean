import StreamTyping.Proofs.Downstream
import StreamTyping.Proofs.EventTexts
import StreamTyping.Report.Reader

/-!
# The text of a report

A report is read back from its text, up to records that are written like arrays
in the types it tells. Such records do not occur in the report on events that
were read from a text, and the types of these events are not too deep for the
report: there are at least as many brackets around a type in an event as there
are around it in a report.

* `Report.recovers`: a report is read back from what is written of it, if there
  is room for its types.
* `Checked.exists_told`: every type of a report was told by an event.
* `Report.text_readBack`: writing and reading reports.
-/

namespace StreamTyping

/-! ## Reading back what is written -/

theorem Status.recovers (room : Nat) (s : Status) : reader.Recovers room s.toJson s :=
  .choice (by cases s <;> decide)

theorem Operator.recovers (room : Nat) (op : Operator) : reader.Recovers room op.toJson op :=
  .choice (by cases op <;> decide)

theorem EdgeRecord.recovers (room : Nat) (e : EdgeRecord) :
    reader.Recovers (room + 1) e.toJson e := by
  refine RecordFormat.Fills.recovers (s := ⟨some e.operator, some e.weak, some e.child⟩) ?_ rfl
  exact .cons rfl rfl (e.operator.recovers room)
    (.cons rfl rfl (Reader.recovers_boolean room e.weak)
      (.cons rfl rfl (Reader.recovers_text room e.child) .nil))

/-- There are two brackets around a type, and four around an edge. -/
theorem Report.recovers {r : Report} {room : Nat}
    (h : ∀ p ∈ r.types.entries, p.2.shape.depth ≤ room + 2) :
    reader.Recovers (room + 4) r.toJson { r with types := r.types.map (·.norm) } := by
  have herrors : (Reader.list Reader.text).Recovers (room + 3) (.array (r.errors.map .text))
      (r.errors.map id) := .list fun e _ => Reader.recovers_text _ e
  have htypes : (Reader.dict Descriptor.reader).Recovers (room + 3)
      (.ofEntries Descriptor.toJson r.types.entries) (r.types.map (·.norm)) :=
    .dict fun p hp => Descriptor.recovers (p.2.shape.depth_toJson ▸ h p hp)
  have hgraph : (Reader.dict (Reader.list EdgeRecord.reader)).Recovers (room + 3)
      (.ofEntries (fun edges => .array (edges.map (·.toJson))) r.graph.entries)
      (r.graph.map fun edges => edges.map id) :=
    .dict fun p _ => .list fun e _ => e.recovers room
  have hsame : (r.graph.map fun edges => edges.map id) = r.graph :=
    Dict.ext (by simp [Dict.map])
  rw [List.map_id] at herrors
  rw [hsame] at hgraph
  refine RecordFormat.Fills.recovers
    (s := ⟨some r.status, some r.errors, some (r.types.map (·.norm)), some r.graph⟩) ?_ rfl
  exact .cons rfl rfl (r.status.recovers _)
    (.cons rfl rfl herrors (.cons rfl rfl htypes (.cons rfl rfl hgraph .nil)))

/-! ## The types that events tell -/

namespace Descriptor.Fits

variable {n m : Nat} {d : Descriptor}

theorem mono (h : d.Fits n) (hle : n ≤ m) : d.Fits m := ⟨h.1, Nat.le_trans h.2 hle⟩

theorem tuple {ds : List Descriptor} (h : ∀ d ∈ ds, d.Fits n) :
    (Descriptor.tuple ds).Fits (n + 1) := by
  constructor
  · refine Shape.plain_tuple fun e he => ?_
    obtain ⟨d, hd, rfl⟩ := List.mem_map.1 he
    exact (h d hd).1
  · refine Nat.succ_le_succ (Shape.depthElements_le_iff.2 fun e he => ?_)
    obtain ⟨d, hd, rfl⟩ := List.mem_map.1 he
    exact (h d hd).2

end Descriptor.Fits

theorem Invocation.callback_mem_arguments {call : Invocation} {c : Callback}
    (h : c ∈ call.callbacks) : .callback c ∈ call.arguments := by
  obtain ⟨a, ha, hc⟩ := List.mem_filterMap.1 h
  split at hc
  · rw [← Option.some.inj hc]
    exact ha
  · cases hc

/-- The parameters of a callback come to be a type of their own, or a tuple. -/
theorem Invocation.typing?_fits {call : Invocation} {n : Nat}
    (h : ∀ c ∈ call.callbacks, c.Fits n) {operator : Operator} {typing : Typing}
    (htyping : call.typing? operator = some typing) :
    typing.takes.Fits (n + 1) ∧ typing.gives.Fits (n + 1) := by
  obtain ⟨c, hc, hgives, -, htakes⟩ := typing?_eq_some htyping
  have hfits := h c (hc ▸ .head _)
  rw [hgives]
  rcases htakes with ⟨-, hparam⟩ | ⟨-, htakes⟩
  · exact ⟨(hfits.1 _ (hparam ▸ .head _)).mono (by omega), hfits.2⟩
  · rw [htakes]
    exact ⟨.tuple hfits.1, hfits.2⟩

namespace Event.Fits

variable {n : Nat} {e : Event} (h : e.Fits n)

include h

theorem typing? {name : String} {typing : Typing} (htyping : e.typing? = some (name, typing)) :
    typing.takes.Fits (n + 1) ∧ typing.gives.Fits (n + 1) := by
  cases e with
  | declare => cases htyping
  | invoke call =>
    obtain ⟨operator, -, hsome⟩ := Option.bind_eq_some_iff.1 htyping
    obtain ⟨t, ht, heq⟩ := Option.map_eq_some_iff.1 hsome
    obtain ⟨-, rfl⟩ := Prod.mk.inj heq
    exact Invocation.typing?_fits (fun c hc => h c (call.callback_mem_arguments hc)) ht

theorem gives {p : String × Attribution} (hp : p ∈ e.gives) : p.2.descriptor.Fits (n + 4) := by
  obtain ⟨q, hq, rfl⟩ := List.mem_map.1 hp
  exact (h.typing? (Option.mem_toList.1 hq)).2.mono (by omega)

theorem takes {p : String × Attribution} (hp : p ∈ e.takes) : p.2.descriptor.Fits (n + 4) := by
  cases e with
  | declare declaration =>
    obtain ⟨d, hd, rfl⟩ := List.mem_map.1 hp
    exact h d (Option.mem_toList.1 hd)
  | invoke call =>
    obtain ⟨q, hq, rfl⟩ := List.mem_map.1 hp
    exact (h.typing? (Option.mem_toList.1 hq)).1.mono (by omega)

end Event.Fits

/-- Every type of a report was told by an event. -/
theorem Checked.exists_told {events : List Event} {report : Report} {k : Graph}
    (h : Checked events report k) {p : String × Descriptor} (hp : p ∈ report.types.entries) :
    ∃ e ∈ events, ∃ q, (q ∈ e.takes ∨ q ∈ e.gives) ∧ q.2.descriptor = p.2 := by
  obtain ⟨g, new, hfollows, hclosure⟩ := h.closure
  have htakes : ∀ q ∈ (Account.ofEvents events).takes, ∃ e ∈ events, q ∈ e.takes := fun q hq =>
    List.mem_flatMap.1 (Account.ofEvents_takes events ▸ hq)
  have hgives : ∀ q ∈ (Account.ofEvents events).gives, ∃ e ∈ events, q ∈ e.gives := fun q hq =>
    List.mem_flatMap.1 (Account.ofEvents_gives events ▸ hq)
  rw [h.types, Graph.types] at hp
  obtain ⟨r, hr, hpair⟩ := List.mem_filterMap.1 (Dict.mem_of_mem_entries_ofList hp)
  obtain ⟨d, hd, rfl⟩ := Option.map_eq_some_iff.1 hpair
  obtain ⟨t, ht⟩ := Graph.exists_stream?_of_mem hr
  obtain ⟨s, hs, hsr⟩ := Option.map_eq_some_iff.1 ((hclosure.streams t).symm.trans ht)
  rw [Stream.resolved?_eq] at hd
  rcases List.mem_append.1 (List.mem_of_head? hd) with hd | hd
  · obtain ⟨x, hx, rfl⟩ := List.mem_map.1 hd
    have houtputs : r.outputs = s.outputs := by rw [← hsr]
    rw [houtputs, hfollows.outputs t s hs, mem_entriesOf] at hx
    obtain ⟨e, he, hq⟩ := hgives _ hx
    exact ⟨e, he, _, .inr hq, rfl⟩
  · rcases (hfollows.types_iff_tells hclosure hs ht).1 hd with
      ⟨x, hx, rfl⟩ | ⟨_, -, -, -, x, hx, rfl⟩
    · obtain ⟨e, he, hq⟩ := htakes _ hx
      exact ⟨e, he, _, .inl hq, rfl⟩
    · obtain ⟨e, he, hq⟩ := hgives _ hx
      exact ⟨e, he, _, .inr hq, rfl⟩

/-! ## Writing and reading -/

namespace Report

theorem parse_text_append {r : Report} (h : ∀ p ∈ r.types.entries, p.2.shape.depth ≤ 125)
    (blanks : String) (hblanks : ∀ c ∈ blanks.toList, isBlank c = true) :
    parse (r.text ++ blanks) = .ok { r with types := r.types.map (·.norm) } := by
  rw [parse, text, Reader.read_render_append _ _ _ _ hblanks]
  show reader (123 + 4) r.toJson.toTree = _
  exact recovers h

theorem parse_text {r : Report} (h : ∀ p ∈ r.types.entries, p.2.shape.depth ≤ 125) :
    parse r.text = .ok { r with types := r.types.map (·.norm) } := by
  simpa using parse_text_append h "" (by simp)

/-- The types of a report on events that were read leave room for the brackets around them. -/
theorem fits_of_check {t : String} {events : List Event} {order : Order} {r : Report}
    (hparse : Event.parseList t = .ok events) (hcheck : check events order = .ok r) :
    ∀ p ∈ r.types.entries, p.2.Fits 124 := by
  intro p hp
  obtain ⟨e, he, q, hq, hdescriptor⟩ := (checked_of_check hcheck).exists_told hp
  have hfits : e.Fits 120 := Event.fits_of_parseList hparse e he
  rw [← hdescriptor]
  rcases hq with hq | hq
  · exact hfits.takes hq
  · exact hfits.gives hq

theorem map_norm_eq {d : Dict Descriptor} {n : Nat} (h : ∀ p ∈ d.entries, p.2.Fits n) :
    d.map (·.norm) = d := by
  refine Dict.ext ((List.map_congr_left fun p hp => ?_).trans (List.map_id _))
  exact Prod.ext rfl (h p hp).norm_eq

/-- A report whose types have at most 125 levels is read back from its text, with records whose
only field is `[]` made arrays. The report on events that were read from any text is read back as
it is, also from a text that ends its line. -/
theorem text_readBack :
    (∀ r : Report, (∀ p ∈ r.types.entries, p.2.shape.depth ≤ 125) →
      parse r.text = .ok { r with types := r.types.map (·.norm) }) ∧
    ∀ (t : String) (events : List Event) (order : Order) (r : Report),
      Event.parseList t = .ok events → check events order = .ok r →
      parse r.text = .ok r ∧ parse (r.text ++ "\n") = .ok r := by
  refine ⟨fun r h => parse_text h, fun t events order r hparse hcheck => ?_⟩
  have hfits := fits_of_check hparse hcheck
  have hdepth : ∀ p ∈ r.types.entries, p.2.shape.depth ≤ 125 := fun p hp =>
    ((hfits p hp).mono (by omega)).2
  have hsame : { r with types := r.types.map (·.norm) } = r := by rw [map_norm_eq hfits]
  have hnewline : ∀ c ∈ "\n".toList, isBlank c = true := by simp [isBlank]
  exact ⟨(parse_text hdepth).trans (congrArg _ hsame),
    (parse_text_append hdepth "\n" hnewline).trans (congrArg _ hsame)⟩

/-- A report that tells a record written like an array. -/
def arrayLike : Report where
  status := .fail
  errors := ["error[E0200]: \"a\""]
  types := .ofList [("a", .record (Dict.empty.insert "[]" (.primitive "number")))]
  graph := .ofList [("a", [⟨.withLatest, true, "é"⟩])]

/-- A stream of arrays that feeds itself. -/
def arrayEvents : List Event :=
  [ .declare { name := "a", descriptor := some (.array (.tuple [.primitive "number"])) },
    .invoke { source := "a", token := "to", arguments := [.name "a"] } ]

def arrayEventsText : String :=
  "[\x7b\"declare\":\x7b\"name\":\"a\",\"descriptor\":" ++
  "\x7b\"[]\":[\"number\"]\x7d\x7d\x7d," ++
  "\x7b\"invoke\":\x7b\"source\":\"a\",\"operator\":\"to\"," ++
  "\"arguments\":[\x7b\"name\":\"a\"\x7d]\x7d\x7d]"

theorem text_readBack_arrayLike :
    ((∀ p ∈ arrayLike.types.entries, p.2.shape.depth ≤ 125) ∧
      parse arrayLike.text = .ok { arrayLike with types := arrayLike.types.map (·.norm) } ∧
      arrayLike.types.map (·.norm) ≠ arrayLike.types) ∧
    ∃ r, Event.parseList arrayEventsText = .ok arrayEvents ∧
      check arrayEvents .lifo = .ok r ∧ parse r.text = .ok r ∧ parse (r.text ++ "\n") = .ok r := by
  have hdepth : ∀ p ∈ arrayLike.types.entries, p.2.shape.depth ≤ 125 := by decide +kernel
  have hparse : Event.parseList arrayEventsText = .ok arrayEvents := by decide +kernel
  have hcheck : check arrayEvents .lifo = .ok
      { status := .success
        errors := []
        types := .ofList [("a", .array (.tuple [.primitive "number"]))]
        graph := .ofList [("a", [⟨.into, false, "a"⟩])] } := by decide +kernel
  exact ⟨⟨hdepth, text_readBack.1 arrayLike hdepth, by decide +kernel⟩, _, hparse, hcheck,
    text_readBack.2 _ _ _ _ hparse hcheck⟩

end Report

end StreamTyping
