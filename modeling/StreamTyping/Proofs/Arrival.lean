import StreamTyping.Proofs.Confluence

/-!
# Which type comes first

A report tells one type of a stream, the first that it gives or else the first
that it takes. So the type of a stream that got one in the build is settled
before any turn. A stream that got none has the type that reaches it first,
and this is where the order of turns shows: the type comes from the stream
that was added first, or last, among those that feed it.

* `Graph.feeders`: the streams that feed a stream, in the order in which they
  were added.
* `Graph.WellFormed.head?_offeredTo_turns`: the first type that is offered is the
  first that the first feeder gives.
* `Graph.WellFormed.get?_types_run`: the types after a propagation.
* `types_eq_iff_feeders_agree`: when the order of turns does not change the
  types of a report.
-/

namespace StreamTyping

namespace Order

variable {α β : Type}

theorem filter_arrange (order : Order) (keep : α → Bool) (l : List α) :
    (order.arrange l).filter keep = order.arrange (l.filter keep) := by
  cases order
  · exact List.filter_reverse
  · rfl

theorem map_arrange (order : Order) (f : α → β) (l : List α) :
    (order.arrange l).map f = order.arrange (l.map f) := by
  cases order
  · exact List.map_reverse
  · rfl

end Order

/-- The first of the types offered to a stream that takes none is new to it. -/
theorem head?_newTypes_nil (offered : List Attribution) :
    (newTypes [] offered).head? = offered.head? := by
  cases offered <;> simp [newTypes]

namespace Graph

/-- The streams that pass types on to a stream, in the order in which they were added. -/
def feeders (g : Graph) (t : StreamId) : List Stream :=
  g.streams.filter fun s => t ∈ g.strongChildren s.id ∧ s.outputs ≠ []

/-- A type is offered once for every strong edge. -/
theorem offeredTo_eq (g : Graph) (ids : List StreamId) (t : StreamId) :
    g.offeredTo ids t = ids.flatMap fun id => (g.outputsOf id).flatMap fun a =>
      List.replicate ((g.strongChildren id).count t) a := by
  have hone : ∀ (a : Attribution) (children : List StreamId),
      ((children.map fun t => (a, t)).filter fun r => r.2 = t).map (·.1) =
        List.replicate (children.count t) a := by
    intro a children
    induction children with
    | nil => rfl
    | cons u children ih =>
      by_cases hu : u = t
      · simp [hu, ih, List.replicate_succ]
      · simp [hu, ih]
  simp only [offeredTo, offersOf, List.filter_flatMap, List.map_flatMap, hone]

/-- The first type that a stream offers to another one, if there is a strong edge. -/
theorem head?_offeredTo (g : Graph) (ids : List StreamId) (t : StreamId) :
    (g.offeredTo ids t).head? = ids.findSome? fun id =>
      if t ∈ g.strongChildren id then (g.outputsOf id).head? else none := by
  rw [offeredTo_eq, List.head?_flatMap]
  congr 1
  funext id
  rw [List.head?_flatMap]
  split
  · rename_i ht
    have hcount := Nat.ne_of_gt (List.count_pos_iff.2 ht)
    cases g.outputsOf id <;> simp [List.head?_replicate, hcount]
  · rename_i ht
    rw [List.findSome?_eq_none_iff]
    intro a _
    rw [List.count_eq_zero.2 ht]
    rfl

/-- The first type offered, when all streams have their turns in an order, is the first that
the first feeder gives. -/
theorem WellFormed.head?_offeredTo_turns {g : Graph} (hg : g.WellFormed) (order : Order)
    (t : StreamId) : (g.offeredTo (g.turns order []) t).head? =
      (order.arrange (g.feeders t)).head?.bind (·.outputs.head?) := by
  have hturns : g.turns order [] = (order.arrange g.streams).map (·.id) := by
    simp [turns, order.map_arrange]
  have hstreams : ∀ s ∈ order.arrange g.streams, g.outputsOf s.id = s.outputs := fun s hs => by
    rw [outputsOf, hg.stream?_id (Order.mem_arrange.1 hs)]
    rfl
  rw [hturns, head?_offeredTo, feeders, ← order.filter_arrange]
  -- Any other stream is passed over on both sides.
  generalize order.arrange g.streams = streams at hstreams ⊢
  induction streams with
  | nil => rfl
  | cons s streams ih =>
    have hrest := ih fun r hr => hstreams r (.tail _ hr)
    rw [List.map_cons, List.findSome?_cons, hstreams s (.head _), hrest, List.filter_cons]
    by_cases ht : t ∈ g.strongChildren s.id
    · cases houtputs : s.outputs <;> simp [ht, houtputs]
    · simp [ht]

end Graph

/-- A stream that gives a type passes on the first one. -/
theorem Stream.head?_outputs_of_ne_nil {s : Stream} (h : s.outputs ≠ []) :
    s.outputs.head?.map (·.descriptor) = s.resolved? := by
  obtain ⟨a, rest, houtputs⟩ := List.exists_cons_of_ne_nil h
  simp [Stream.resolved?, houtputs]

theorem Stream.resolved?_eq_none_iff {s : Stream} :
    s.resolved? = none ↔ s.inputs = [] ∧ s.outputs = [] := by
  rw [s.resolved?_eq, List.head?_eq_none_iff, List.append_eq_nil_iff, List.map_eq_nil_iff,
    Stream.types, List.map_eq_nil_iff]
  exact and_comm

namespace Graph

/-- The types after a propagation: a stream keeps the type that it has, and one without has the
type of its first feeder. -/
theorem WellFormed.get?_types_run {g : Graph} (hg : g.WellFormed) (order : Order) {s : Stream}
    (hs : s ∈ g.streams) :
    ((g.start order []).run order).graph.types.get? s.name =
      (s.resolved? <|> (order.arrange (g.feeders s.id)).head?.bind Stream.resolved?) := by
  have hseed : ∀ id ∈ ([] : List StreamId), id < g.streams.length := by simp
  have hclosure := hg.closure_run order hseed
  have hh := hg.propagateFrom? (propagateFrom?_of_valid hseed order)
  cases hresolved : s.resolved? with
  | some d =>
    have htyped : s.inputs ≠ [] ∨ s.outputs ≠ [] := by
      by_contra hnone
      rw [Stream.resolved?_eq_none_iff.2 (by simpa using hnone)] at hresolved
      cases hresolved
    rw [hclosure.get?_types hg hh hs htyped, hresolved]
    rfl
  | none =>
    obtain ⟨hinputs, houtputs⟩ := Stream.resolved?_eq_none_iff.1 hresolved
    have hafter := hclosure.streams s.id
    rw [hg.stream?_id hs, Option.map_some, hinputs, List.nil_append, gained,
      inputsOf_of_stream? (hg.stream?_id hs), hinputs] at hafter
    have hfirst : ∀ r ∈ (order.arrange (g.feeders s.id)).head?,
        r.outputs.head?.map (·.descriptor) = r.resolved? := fun r hr => by
      have hr := Order.mem_arrange.1 (List.mem_of_head? hr)
      exact Stream.head?_outputs_of_ne_nil (of_decide_eq_true (List.mem_filter.1 hr).2).2
    have hname := hh.get?_types (mem_of_stream? hafter)
    rw [show s.name = ({ s with inputs := newTypes [] _ } : Stream).name from rfl, hname,
      Stream.resolved?, houtputs]
    show ((newTypes [] _).head?).map _ = _
    rw [head?_newTypes_nil, hg.head?_offeredTo_turns, Option.map_bind]
    exact Option.bind_congr hfirst

/-- Only streams have a type. -/
theorem mem_names_of_get?_types {g : Graph} {name : String} {d : Descriptor}
    (h : g.types.get? name = some d) : name ∈ g.streams.map (·.name) := by
  have hmem := Dict.mem_of_mem_entries_ofList (Dict.get?_eq_some_iff.1 h)
  obtain ⟨s, hs, hpair⟩ := List.mem_filterMap.1 hmem
  obtain ⟨e, -, hpair⟩ := Option.map_eq_some_iff.1 hpair
  exact List.mem_map.2 ⟨s, hs, congrArg Prod.fst hpair⟩

theorem Closure.map_name_streams {g h : Graph} {new : StreamId → List Attribution}
    (hc : Closure g h new) : h.streams.map (·.name) = g.streams.map (·.name) := by
  refine List.ext_getElem? fun t => ?_
  have ht := hc.streams t
  rw [stream?, stream?] at ht
  rw [List.getElem?_map, List.getElem?_map, ht, Option.map_map]
  rfl

/-- Graphs that are left by propagations of one graph have the same types if every stream has
the same type in them. -/
theorem Closure.types_eq_iff {g h k : Graph} {new fresh : StreamId → List Attribution}
    (hh : Closure g h new) (hk : Closure g k fresh) :
    h.types = k.types ↔ ∀ s ∈ g.streams, h.types.get? s.name = k.types.get? s.name := by
  refine ⟨fun heq s _ => by rw [heq], fun hall => Dict.ext_get? fun name => ?_⟩
  by_cases hname : name ∈ g.streams.map (·.name)
  · obtain ⟨s, hs, rfl⟩ := List.mem_map.1 hname
    exact hall s hs
  · have hnone : ∀ {k : Graph}, k.streams.map (·.name) = g.streams.map (·.name) →
        k.types.get? name = none := fun hnames =>
      Option.eq_none_iff_forall_ne_some.2 fun d hd =>
        hname (hnames ▸ mem_names_of_get?_types hd)
    rw [hnone hh.map_name_streams, hnone hk.map_name_streams]

end Graph

/-! ## The types of reports -/

/-- The types of a report are those that a propagation of what was built leaves. -/
theorem types_of_check {events : List Event} {order : Order} {report : Report}
    (h : check events order = .ok report) : report.types =
      (((Session.builtGraph events).start order []).run order).graph.types := by
  obtain ⟨s, hbuild, rfl⟩ := check_eq_ok h
  rw [Session.build_eq order events] at hbuild
  obtain rfl := (Prod.mk.inj hbuild).1
  rfl

/-- In a check whose last stream to come on has the next turn, a stream that got no type in the
build has the type of the last stream that feeds it; in a check where the first one has it, that
of the first. Any other stream has the type it got in the build. So the types are the same if for
every stream without a type its first and its last feeder agree. -/
theorem types_eq_iff_feeders_agree {events : List Event} {r q : Report}
    (hlifo : check events .lifo = .ok r) (hfifo : check events .fifo = .ok q) :
    (∀ s ∈ (Session.builtGraph events).streams,
      r.types.get? s.name = (s.resolved? <|>
        ((Session.builtGraph events).feeders s.id).getLast?.bind Stream.resolved?) ∧
      q.types.get? s.name = (s.resolved? <|>
        ((Session.builtGraph events).feeders s.id).head?.bind Stream.resolved?)) ∧
    (r.types = q.types ↔ ∀ s ∈ (Session.builtGraph events).streams, s.resolved? = none →
      ((Session.builtGraph events).feeders s.id).getLast?.bind Stream.resolved? =
        ((Session.builtGraph events).feeders s.id).head?.bind Stream.resolved?) := by
  have hg := Session.wellFormed_builtGraph events
  have hseed : ∀ id ∈ ([] : List StreamId), id < (Session.builtGraph events).streams.length := by
    simp
  have hlast : ∀ s ∈ (Session.builtGraph events).streams, r.types.get? s.name =
      (s.resolved? <|>
        ((Session.builtGraph events).feeders s.id).getLast?.bind Stream.resolved?) := by
    intro s hs
    rw [types_of_check hlifo, hg.get?_types_run .lifo hs, ← List.head?_reverse]
    rfl
  have hfirst : ∀ s ∈ (Session.builtGraph events).streams, q.types.get? s.name =
      (s.resolved? <|>
        ((Session.builtGraph events).feeders s.id).head?.bind Stream.resolved?) := by
    intro s hs
    rw [types_of_check hfifo, hg.get?_types_run .fifo hs]
    rfl
  refine ⟨fun s hs => ⟨hlast s hs, hfirst s hs⟩, ?_⟩
  have htypes := (hg.closure_run .lifo hseed).types_eq_iff (hg.closure_run .fifo hseed)
  rw [← types_of_check hlifo, ← types_of_check hfifo] at htypes
  rw [htypes]
  refine forall₂_congr fun s hs => ?_
  rw [hlast s hs, hfirst s hs]
  cases s.resolved? <;> simp

/-- The streams of `rivalEvents`, and another one that feeds `c` the type of the first again. -/
def restoredEvents : List Event :=
  rivalEvents ++
    [ .declare { name := "d", descriptor := some (.primitive "number") },
      .invoke
        { source := "d"
          token := "map"
          arguments :=
            [.callback { params := [.primitive "number"], returns := .primitive "number" }] },
      .invoke { source := "d.map", token := "to", arguments := [.stream "c"] } ]

/-- The first and the last feeder of `c` agree, and so do the types, though there is another
type between them. -/
theorem types_eq_iff_feeders_agree_restored :
    ∃ r q, check restoredEvents .lifo = .ok r ∧ check restoredEvents .fifo = .ok q ∧
      r.status = .fail ∧ r.types = q.types ∧
      ∃ s ∈ (Session.builtGraph restoredEvents).streams, s.resolved? = none ∧
        ((Session.builtGraph restoredEvents).feeders s.id).length = 3 ∧
        r.types.get? s.name =
          ((Session.builtGraph restoredEvents).feeders s.id).getLast?.bind Stream.resolved? := by
  have hfail : (check restoredEvents .lifo).map (·.status) = .ok .fail := by decide +kernel
  have hsame : (check restoredEvents .fifo).map (·.status) = .ok .fail := by decide +kernel
  obtain ⟨r, hlifo, hfail⟩ := exists_report_of_map hfail
  obtain ⟨q, hfifo, -⟩ := exists_report_of_map hsame
  obtain ⟨htypes, hiff⟩ := types_eq_iff_feeders_agree hlifo hfifo
  have hstream : ∃ s ∈ (Session.builtGraph restoredEvents).streams, s.resolved? = none ∧
      ((Session.builtGraph restoredEvents).feeders s.id).length = 3 := by decide +kernel
  obtain ⟨s, hs, huntyped, hthree⟩ := hstream
  refine ⟨r, q, hlifo, hfifo, hfail, hiff.2 (by decide +kernel), s, hs, huntyped, hthree, ?_⟩
  rw [(htypes s hs).1, huntyped]
  rfl

/-- Which type `c` has in a report depends on the order of turns. -/
theorem types_depend_on_order :
    ∃ r q, check rivalEvents .lifo = .ok r ∧ check rivalEvents .fifo = .ok q ∧
      r.types.get? "c" = some (.primitive "string") ∧
      q.types.get? "c" = some (.primitive "number") ∧ r.types ≠ q.types := by
  have hstring : (check rivalEvents .lifo).map (·.types.get? "c") =
      .ok (some (.primitive "string")) := by decide +kernel
  have hnumber : (check rivalEvents .fifo).map (·.types.get? "c") =
      .ok (some (.primitive "number")) := by decide +kernel
  obtain ⟨r, hr, hstring⟩ := exists_report_of_map hstring
  obtain ⟨q, hq, hnumber⟩ := exists_report_of_map hnumber
  refine ⟨r, q, hr, hq, hstring, hnumber, fun htypes => ?_⟩
  rw [htypes, hnumber] at hstring
  exact absurd hstring (by decide)

end StreamTyping
