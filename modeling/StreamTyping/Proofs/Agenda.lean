import StreamTyping.Graph.Propagation
import StreamTyping.Proofs.WellFormed

/-!
# Agendas

What an `Agenda` holds, in terms of the list of waiting streams alone.

* `Agenda.Sound`: the flags tell exactly which streams wait, and no stream
  waits twice. Putting a stream on and taking one off keep it.
* `Agenda.Sound.filter_items_push`: a stream that is put on never moves the
  ones that wait already, at whichever end it goes on.
* `Graph.turns`: the order in which the streams have their first turns, and
  `Graph.WellFormed.agenda_items`: it is what the agenda holds at the start.
-/

namespace StreamTyping

/-- The streams that came on in the order of a list, the next one first. -/
def Order.arrange {α : Type} : Order → List α → List α
  | .lifo, l => l.reverse
  | .fifo, l => l

namespace Order

variable {α : Type}

@[simp] theorem mem_arrange {order : Order} {l : List α} {a : α} :
    a ∈ order.arrange l ↔ a ∈ l := by
  cases order
  · exact List.mem_reverse
  · exact Iff.rfl

theorem arrange_perm (order : Order) (l : List α) : (order.arrange l).Perm l := by
  cases order
  · exact List.reverse_perm l
  · exact List.Perm.refl l

end Order

namespace Agenda

/-- The flags of an agenda for `count` streams are true for exactly those that wait, and
each of these waits once. -/
structure Sound (count : Nat) (a : Agenda) : Prop where
  length_queued : a.queued.length = count
  nodup : a.items.Nodup
  mem_iff : ∀ id, id ∈ a.items ↔ a.queued[id]? = some true

theorem sound_empty (count : Nat) : (empty count).Sound count where
  length_queued := List.length_replicate
  nodup := List.nodup_nil
  mem_iff id := by
    rw [empty, List.getElem?_replicate]
    split <;> simp

theorem push_of_queued {a : Agenda} {id : StreamId} (h : a.queued.getD id true = true)
    (order : Order) : a.push order id = a := if_pos h

theorem push_of_not_queued {a : Agenda} {id : StreamId} (h : a.queued.getD id true = false)
    {order : Order} {l : List StreamId} (hl : a.items = order.arrange l) :
    a.push order id = ⟨order.arrange (l ++ [id]), a.queued.set id true⟩ := by
  refine (if_neg (by rw [h]; exact Bool.false_ne_true)).trans ?_
  cases order
  · show Agenda.mk (id :: a.items) _ = ⟨(l ++ [id]).reverse, _⟩
    rw [hl, List.reverse_append]
    rfl
  · show Agenda.mk (a.items ++ [id]) _ = ⟨l ++ [id], _⟩
    rw [hl]
    rfl

/-- Every list of waiting streams is the arrangement of the order in which they came. -/
theorem exists_arrange (a : Agenda) (order : Order) : ∃ l, a.items = order.arrange l := by
  cases order
  · exact ⟨a.items.reverse, a.items.reverse_reverse.symm⟩
  · exact ⟨a.items, rfl⟩

namespace Sound

variable {count : Nat} {a : Agenda} (h : a.Sound count)

include h

theorem lt_of_mem {id : StreamId} (hid : id ∈ a.items) : id < count := by
  have hq := (h.mem_iff id).1 hid
  rw [← h.length_queued]
  exact (List.getElem?_eq_some_iff.1 hq).1

theorem getD_queued {id : StreamId} (hid : id < count) :
    a.queued.getD id true = decide (id ∈ a.items) := by
  have hlt : id < a.queued.length := by rwa [h.length_queued]
  rw [List.getD_eq_getElem?_getD]
  by_cases hmem : id ∈ a.items
  · rw [(h.mem_iff id).1 hmem]
    simp [hmem]
  · have hne := mt (h.mem_iff id).2 hmem
    rw [List.getElem?_eq_getElem hlt] at hne ⊢
    simpa [hmem] using hne

/-- A stream that waits already is not put on again. -/
theorem push_of_mem {id : StreamId} (hid : id ∈ a.items) (order : Order) :
    a.push order id = a := by
  refine push_of_queued ?_ order
  rw [h.getD_queued (h.lt_of_mem hid)]
  exact decide_eq_true hid

/-- There is no flag for an id out of range, so nothing is put on. -/
theorem push_of_le {id : StreamId} (hid : count ≤ id) (order : Order) : a.push order id = a := by
  refine push_of_queued ?_ order
  rw [List.getD_eq_getElem?_getD, List.getElem?_eq_none (by rwa [h.length_queued])]
  rfl

theorem push_of_not_mem {id : StreamId} (hid : id < count) (hnew : id ∉ a.items) {order : Order}
    {l : List StreamId} (hl : a.items = order.arrange l) :
    a.push order id = ⟨order.arrange (l ++ [id]), a.queued.set id true⟩ := by
  refine push_of_not_queued ?_ hl
  rw [h.getD_queued hid]
  exact decide_eq_false hnew

theorem mem_items_push {id x : StreamId} (hid : id < count) (order : Order) :
    x ∈ (a.push order id).items ↔ x ∈ a.items ∨ x = id := by
  by_cases hmem : id ∈ a.items
  · rw [h.push_of_mem hmem]
    exact ⟨.inl, fun hx => hx.elim (fun hx => hx) fun hx => hx ▸ hmem⟩
  · obtain ⟨l, hl⟩ := a.exists_arrange order
    rw [h.push_of_not_mem hid hmem hl, hl, Order.mem_arrange, Order.mem_arrange,
      List.mem_append, List.mem_singleton]

theorem push (order : Order) (id : StreamId) : (a.push order id).Sound count := by
  by_cases hid : id < count
  · by_cases hmem : id ∈ a.items
    · rw [h.push_of_mem hmem]
      exact h
    · obtain ⟨l, hl⟩ := a.exists_arrange order
      have hpush := h.push_of_not_mem hid hmem hl
      have hnodup := h.nodup
      rw [hl, (order.arrange_perm l).nodup_iff] at hnodup
      constructor
      · rw [hpush, List.length_set, h.length_queued]
      · rw [hpush, (order.arrange_perm _).nodup_iff, List.nodup_append]
        refine ⟨hnodup, by simp, fun x hx y hy hxy => hmem ?_⟩
        rwa [hl, Order.mem_arrange, ← List.mem_singleton.1 hy, ← hxy]
      · intro x
        rw [h.mem_items_push hid, hpush, List.getElem?_set, h.mem_iff x]
        by_cases hx : id = x
        · subst hx
          simp [h.length_queued, hid]
        · simp [hx, Ne.symm hx]
  · rw [h.push_of_le (Nat.le_of_not_lt hid)]
    exact h

/-- Putting a stream on leaves the waiting streams of a kind as they are, if the stream is
not of that kind or waits already. -/
theorem filter_items_push {keep : StreamId → Bool} {id : StreamId}
    (hkeep : id < count → keep id = true → id ∈ a.items) (order : Order) :
    (a.push order id).items.filter keep = a.items.filter keep := by
  by_cases hmem : id ∈ a.items
  · rw [h.push_of_mem hmem]
  by_cases hid : id < count
  · have hdrop : keep id = false := Bool.eq_false_iff.2 (mt (hkeep hid) hmem)
    obtain ⟨l, hl⟩ := a.exists_arrange order
    rw [h.push_of_not_mem hid hmem hl, hl]
    cases order <;> simp [Order.arrange, hdrop]
  · rw [h.push_of_le (Nat.le_of_not_lt hid)]

/-- What is left when the next stream is taken off. -/
theorem pop? {b : Agenda} {id : StreamId} (hpop : a.pop? = some (id, b)) :
    b.Sound count ∧ a.items = id :: b.items ∧ id < count := by
  rw [Agenda.pop?] at hpop
  split at hpop
  · cases hpop
  · rename_i head rest hitems
    obtain ⟨rfl, rfl⟩ := Prod.mk.inj (Option.some.inj hpop)
    have hid : head < count := h.lt_of_mem (by rw [hitems]; exact List.mem_cons_self)
    have hnodup := h.nodup
    rw [hitems, List.nodup_cons] at hnodup
    refine ⟨⟨by rw [List.length_set, h.length_queued], hnodup.2, fun x => ?_⟩, hitems, hid⟩
    have hx := h.mem_iff x
    rw [hitems, List.mem_cons] at hx
    rw [List.getElem?_set]
    by_cases heq : head = x
    · subst heq
      simp [hnodup.1, h.length_queued, hid]
    · rw [if_neg heq, ← hx]
      exact ⟨.inr, fun hor => hor.resolve_left fun he => heq he.symm⟩

/-- Streams that are put on one after another: of several times the first counts. -/
theorem foldl_push {ids : List StreamId} (hids : ∀ id ∈ ids, id < count) (order : Order)
    {l : List StreamId} (hl : a.items = order.arrange l.eraseDups) :
    (ids.foldl (Agenda.push order) a).Sound count ∧
      (ids.foldl (Agenda.push order) a).items = order.arrange (l ++ ids).eraseDups := by
  induction ids generalizing a l with
  | nil =>
    rw [List.append_nil]
    exact ⟨h, hl⟩
  | cons id ids ih =>
    have hid := hids id List.mem_cons_self
    have hpush : (a.push order id).items = order.arrange (l ++ [id]).eraseDups := by
      rw [eraseDups_concat]
      split
      · rename_i hmem
        rw [h.push_of_mem (by simpa [hl] using hmem), hl]
      · rename_i hmem
        rw [h.push_of_not_mem hid (by simpa [hl] using hmem) hl]
    have hrest := ih (h.push order id) (fun x hx => hids x (List.mem_cons_of_mem _ hx)) hpush
    rw [List.append_assoc] at hrest
    exact hrest

end Sound

end Agenda

namespace Graph

/-- The order in which the streams have their first turns: those of the seed, each where it
stands first, and then all others; the other way round if the last one is next. -/
def turns (g : Graph) (order : Order) (seed : List StreamId) : List StreamId :=
  order.arrange (seed.eraseDups ++ (g.streams.map (·.id)).filter fun id => id ∉ seed)

namespace WellFormed

variable {g : Graph} (hg : g.WellFormed) {seed : List StreamId}
  (hseed : ∀ id ∈ seed, id < g.streams.length)

include hg hseed

theorem turns_perm (order : Order) :
    (g.turns order seed).Perm (List.range g.streams.length) := by
  refine (order.arrange_perm _).trans ?_
  rw [hg.stream_ids, List.perm_ext_iff_of_nodup _ List.nodup_range]
  · intro id
    have hid := hseed id
    simp only [List.mem_append, List.mem_eraseDups, List.mem_filter, List.mem_range, decide_eq_true_eq]
    by_cases hmem : id ∈ seed
    · simp [hmem, hid hmem]
    · simp [hmem]
  · rw [List.nodup_append]
    refine ⟨nodup_eraseDups seed, List.nodup_range.filter _, fun x hx y hy hxy => ?_⟩
    rw [List.mem_eraseDups] at hx
    have hy := (List.mem_filter.1 hy).2
    rw [← hxy, decide_eq_true_eq] at hy
    exact hy hx

/-- The agenda at the start is sound and holds the streams in the order of their first turns. -/
theorem agenda_items (order : Order) :
    (g.agenda order seed).Sound g.streams.length ∧
      (g.agenda order seed).items = g.turns order seed := by
  have hids : ∀ id ∈ seed ++ g.streams.map (·.id), id < g.streams.length := by
    intro id hid
    rcases List.mem_append.1 hid with hid | hid
    · exact hseed id hid
    · rw [hg.stream_ids] at hid
      exact List.mem_range.1 hid
  obtain ⟨hsound, hitems⟩ := (Agenda.sound_empty g.streams.length).foldl_push hids order
    (l := []) (by cases order <;> rfl)
  refine ⟨hsound, ?_⟩
  rw [agenda, hitems, List.nil_append, List.eraseDups_append, turns, hg.stream_ids, List.removeAll,
    eraseDups_of_nodup (List.nodup_range.filter _)]
  congr 3
  funext id
  simp

end WellFormed

end Graph

end StreamTyping
