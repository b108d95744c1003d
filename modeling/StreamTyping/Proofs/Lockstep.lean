import Mathlib.Data.List.Basic
import StreamTyping.Proofs.Propagation

/-!
# Propagations in lockstep

What a propagation does next depends on little of its graph: on which types
which streams do not take yet, and on the types that the stream whose turn it is
has to pass on. Of these a repeated one makes no difference. So propagations of
two graphs that agree in this much take the same turns and pass on as many
types, whatever else the graphs hold.

* `SameFirsts`: lists that are the same if of every element only the first
  occurrence counts.
* `Outlook`: what decides the course of a propagation.
* `Propagation.run_outlook`: propagations with the same outlook and the same
  types to pass on have the same outlook in the end.
* `Graph.Abreast`: graphs that agree in what matters. Propagations of them take as
  many turns and pass on as many types (`Graph.Abreast.stats_run`), and leave
  graphs abreast (`Graph.Abreast.run`).
* `Graph.SameThrough`: graphs whose types look the same one by one.
  Propagations leave them so (`Graph.SameThrough.run`).
-/

namespace StreamTyping

/-! ## Lists that differ in repeats -/

/-- The lists have the same elements, in the same order of first occurrences. -/
def SameFirsts {α : Type} [BEq α] (l m : List α) : Prop := l.eraseDups = m.eraseDups

section Firsts

variable {α β : Type} [BEq α] [LawfulBEq α] [BEq β] [LawfulBEq β]

theorem eraseDups_append_eraseDups (l m : List α) :
    (l ++ m.eraseDups).eraseDups = (l ++ m).eraseDups := by
  induction m using List.reverseRecOn with
  | nil => rfl
  | append_singleton m a ih =>
    rw [eraseDups_concat, ← List.append_assoc, eraseDups_concat]
    by_cases ha : a ∈ m
    · rw [if_pos ha, if_pos (List.mem_append_right l ha), ih]
    · rw [if_neg ha, ← List.append_assoc, eraseDups_concat, ih]
      simp only [List.mem_append, List.mem_eraseDups]

omit [LawfulBEq α] in
theorem head?_eraseDups (l : List α) : l.eraseDups.head? = l.head? := by
  cases l with
  | nil => rfl
  | cons a l => rw [List.eraseDups_cons, List.head?_cons, List.head?_cons]

namespace SameFirsts

variable {l m l' m' : List α}

omit [LawfulBEq α] in
theorem of_eq (h : l = m) : SameFirsts l m := congrArg _ h

theorem mem_iff (h : SameFirsts l m) {a : α} : a ∈ l ↔ a ∈ m := by
  rw [← List.mem_eraseDups, h, List.mem_eraseDups]

omit [LawfulBEq α] in
theorem head?_eq (h : SameFirsts l m) : l.head? = m.head? := by
  rw [← head?_eraseDups, h, head?_eraseDups]

/-- What is there already makes no difference behind it. -/
theorem absorb (h : ∀ a ∈ m, a ∈ l) : SameFirsts (l ++ m) l := by
  induction m using List.reverseRecOn with
  | nil => rw [List.append_nil, SameFirsts]
  | append_singleton m a ih =>
    have ha : a ∈ l ++ m := List.mem_append_left m (h a (by simp))
    rw [SameFirsts, ← List.append_assoc, eraseDups_concat, if_pos ha]
    exact ih fun b hb => h b (List.mem_append_left _ hb)

theorem append_right (h : SameFirsts l l') (m : List α) : SameFirsts (l ++ m) (l' ++ m) := by
  induction m using List.reverseRecOn with
  | nil => simpa using h
  | append_singleton m a ih =>
    rw [SameFirsts, ← List.append_assoc, ← List.append_assoc, eraseDups_concat, eraseDups_concat, ih]
    simp only [ih.mem_iff]

theorem append (h : SameFirsts l l') (hm : SameFirsts m m') :
    SameFirsts (l ++ m) (l' ++ m') := by
  refine (h.append_right m).trans ?_
  rw [← eraseDups_append_eraseDups, hm, eraseDups_append_eraseDups]

theorem flatMap (h : SameFirsts l m) {f g : α → List β} (hfg : ∀ a, SameFirsts (f a) (g a)) :
    SameFirsts (l.flatMap f) (m.flatMap g) := by
  have hfirsts : ∀ l : List α, SameFirsts (l.eraseDups.flatMap f) (l.flatMap f) := by
    intro l
    induction l using List.reverseRecOn with
    | nil => rfl
    | append_singleton l a ih =>
      rw [eraseDups_concat, List.flatMap_append, List.flatMap_singleton]
      split
      · rename_i ha
        refine ih.trans (absorb fun b hb => ?_).symm
        exact List.mem_flatMap.2 ⟨a, ha, hb⟩
      · rw [List.flatMap_append, List.flatMap_singleton]
        exact ih.append_right (f a)
  have hpointwise : SameFirsts (m.flatMap f) (m.flatMap g) := by
    clear h
    induction m with
    | nil => rfl
    | cons a m ih => exact (hfg a).append ih
  refine (hfirsts l).symm.trans (Eq.trans ?_ hpointwise)
  rw [h]
  exact hfirsts m

theorem filterMap (h : SameFirsts l m) (f : α → Option β) :
    SameFirsts (l.filterMap f) (m.filterMap f) := by
  rw [List.filterMap_eq_flatMap_toList, List.filterMap_eq_flatMap_toList]
  exact h.flatMap fun _ => rfl

theorem map (h : SameFirsts l m) (f : α → β) : SameFirsts (l.map f) (m.map f) := by
  rw [List.map_eq_flatMap, List.map_eq_flatMap]
  exact h.flatMap fun _ => rfl

end SameFirsts

end Firsts

/-! ## What decides the course of a propagation -/

/-- A type, and a stream that it is for. -/
abbrev Delivery := Descriptor × StreamId

namespace Graph

/-- What a stream has to pass on, without the reasons for it. -/
def deliveries (g : Graph) (id : StreamId) : List Delivery :=
  (g.routes id).map fun r => (r.1.descriptor, r.2)

/-- A stream of the graph does not take a type yet. -/
def misses (g : Graph) (d : Delivery) : Bool :=
  match g.stream? d.2 with
  | none => false
  | some s => !s.hasInput d.1

theorem misses_eq (g : Graph) (d : Delivery) :
    g.misses d = (decide (d.2 < g.streams.length) &&
      decide (d.1 ∉ (g.inputsOf d.2).map (·.descriptor))) := by
  rw [misses, inputsOf]
  cases hs : g.stream? d.2 with
  | none =>
    have hle : ¬ d.2 < g.streams.length := Nat.not_lt.2 (List.getElem?_eq_none_iff.1 hs)
    simp [hle]
  | some s =>
    have htakes : s.hasInput d.1 = decide (d.1 ∈ s.inputs.map (·.descriptor)) :=
      Bool.eq_iff_iff.2 (by rw [Stream.hasInput_iff, decide_eq_true_eq])
    simp only [lt_of_stream? hs, htakes, decide_true, Bool.true_and, decide_not, Option.map_some,
      Option.getD_some]

theorem misses_addInput (g : Graph) (a : Attribution) (t : StreamId) (d : Delivery) :
    (g.addInput t a).misses d = (g.misses d && decide (d ≠ (a.descriptor, t))) := by
  obtain ⟨e, i⟩ := d
  simp only [misses, stream?_addInput]
  by_cases hi : t = i
  · subst hi
    cases hs : g.stream? t with
    | none => simp
    | some s =>
      have hcomm : (a.descriptor = e) = (e = a.descriptor) := propext eq_comm
      simp [Stream.hasInput, Bool.not_or, hcomm]
  · simp [hi, Ne.symm hi]

end Graph

/-- What decides the course of a propagation: the types that streams do not take yet, and the
streams that wait. The rest is what it has done so far. -/
@[ext] structure Outlook where
  misses : Delivery → Bool
  agenda : Agenda
  stats : PropagationStats

/-- Passes a type on, unless the stream takes it already. -/
def Outlook.deliver (order : Order) (o : Outlook) (d : Delivery) : Outlook :=
  if o.misses d then
    { misses := fun e => o.misses e && decide (e ≠ d)
      agenda := o.agenda.push order d.2
      stats := { o.stats with additions := o.stats.additions + 1 } }
  else o

theorem Outlook.misses_deliver (order : Order) (o : Outlook) (d e : Delivery) :
    (o.deliver order d).misses e = (o.misses e && decide (e ≠ d)) := by
  rw [deliver]
  split
  · rfl
  · rename_i hd
    by_cases he : e = d
    · simp [he, hd]
    · simp [he]

/-- A repeated delivery changes nothing. -/
theorem Outlook.foldl_deliver_eraseDups (order : Order) (o : Outlook) (ds : List Delivery) :
    ds.eraseDups.foldl (deliver order) o = ds.foldl (deliver order) o ∧
      ∀ d ∈ ds, (ds.foldl (deliver order) o).misses d = false := by
  induction ds using List.reverseRecOn with
  | nil => simp
  | append_singleton ds d ih =>
    obtain ⟨hfold, hdone⟩ := ih
    rw [eraseDups_concat, List.foldl_append, List.foldl_cons, List.foldl_nil]
    constructor
    · split
      · rename_i hd
        rw [hfold, deliver, if_neg (Bool.eq_false_iff.1 (hdone d hd))]
      · rw [List.foldl_append, hfold, List.foldl_cons, List.foldl_nil]
    · intro e he
      rw [misses_deliver]
      rcases List.mem_append.1 he with he | he
      · rw [hdone e he, Bool.false_and]
      · simp [List.mem_singleton.1 he]

namespace Propagation

/-- What decides the course of a propagation under way. -/
def outlook (p : Propagation) : Outlook := ⟨p.graph.misses, p.agenda, p.stats⟩

theorem outlook_offer (order : Order) (p : Propagation) (r : Attribution × StreamId) :
    (p.offer order r).outlook = p.outlook.deliver order (r.1.descriptor, r.2) := by
  have hlacks : p.graph.lacks r = p.graph.misses (r.1.descriptor, r.2) := rfl
  rw [offer, Outlook.deliver, hlacks]
  by_cases hr : p.graph.misses (r.1.descriptor, r.2) = true
  · rw [if_pos hr, if_pos (show p.outlook.misses (r.1.descriptor, r.2) = true from hr)]
    exact Outlook.ext (funext (Graph.misses_addInput _ _ _)) rfl rfl
  · rw [if_neg hr, if_neg (show ¬ p.outlook.misses (r.1.descriptor, r.2) = true from hr)]

theorem outlook_visit (order : Order) (p : Propagation) (id : StreamId) :
    (p.visit order id).outlook =
      (p.graph.deliveries id).eraseDups.foldl (Outlook.deliver order) p.outlook := by
  rw [(Outlook.foldl_deliver_eraseDups order p.outlook _).1, visit, Graph.deliveries]
  generalize p.graph.routes id = routes
  induction routes generalizing p with
  | nil => rfl
  | cons r routes ih =>
    rw [List.foldl_cons, ih, outlook_offer, List.map_cons, List.foldl_cons]

/-- A turn does not change what streams have to pass on. -/
theorem deliveries_visit (order : Order) (p : Propagation) (id i : StreamId) :
    (p.visit order id).graph.deliveries i = p.graph.deliveries i := by
  refine visit_induction (P := fun q => q.graph.deliveries i = p.graph.deliveries i) ?_ rfl id
  intro q r hq
  rw [← hq, offer]
  split
  · rw [Graph.deliveries, Graph.deliveries, Graph.routes_addInput]
  · rfl

/-- The next turn of propagations with the same outlook and the same types to pass on. -/
theorem next?_outlook {order : Order} {p q p' : Propagation} (houtlook : p.outlook = q.outlook)
    (hpass : ∀ id, SameFirsts (p.graph.deliveries id) (q.graph.deliveries id))
    (hnext : p.next? order = some p') : ∃ q', q.next? order = some q' ∧
      p'.outlook = q'.outlook ∧
      ∀ id, SameFirsts (p'.graph.deliveries id) (q'.graph.deliveries id) := by
  have hagenda : p.agenda = q.agenda := congrArg Outlook.agenda houtlook
  cases hpop : p.agenda.pop? with
  | none =>
    rw [next?, hpop] at hnext
    cases hnext
  | some x =>
    obtain ⟨id, agenda⟩ := x
    have hbegin : (p.begin agenda).outlook = (q.begin agenda).outlook := by
      rw [Outlook.ext_iff] at houtlook
      refine Outlook.ext houtlook.1 rfl ?_
      show ({ p.stats with iterations := p.stats.iterations + 1 } : PropagationStats) =
        { q.stats with iterations := q.stats.iterations + 1 }
      rw [show p.stats = q.stats from houtlook.2.2]
    refine ⟨(q.begin agenda).visit order id, ?_, ?_, fun i => ?_⟩
    · rw [next?, ← hagenda, hpop]
      rfl
    · rw [← next?_of_pop? hpop hnext, outlook_visit, outlook_visit, hbegin]
      exact congrArg (fun ds => List.foldl _ _ ds) (hpass id)
    · rw [← next?_of_pop? hpop hnext, deliveries_visit, deliveries_visit]
      exact hpass i

/-- Propagations with the same outlook and the same types to pass on end with the same outlook. -/
theorem run_outlook {order : Order} {p q : Propagation} (houtlook : p.outlook = q.outlook)
    (hpass : ∀ id, SameFirsts (p.graph.deliveries id) (q.graph.deliveries id)) :
    (p.run order).outlook = (q.run order).outlook := by
  induction p using run.induct order generalizing q with
  | case1 p hend =>
    have hq : q.next? order = none := by
      rw [next?_eq_none_iff] at hend ⊢
      rw [← show p.agenda = q.agenda from congrArg Outlook.agenda houtlook]
      exact hend
    rw [run, hend, run, hq]
    exact houtlook
  | case2 p p' hnext ih =>
    obtain ⟨q', hnext', houtlook', hpass'⟩ := next?_outlook houtlook hpass hnext
    rw [run, hnext, run, hnext']
    exact ih houtlook' hpass'

end Propagation

/-! ## Graphs that propagate abreast -/

/-- Dropping the types that are known already drops repeats only. -/
theorem sameFirsts_newTypes (known offered : List Attribution) :
    SameFirsts ((known ++ newTypes known offered).map (·.descriptor))
      ((known ++ offered).map (·.descriptor)) := by
  induction offered generalizing known with
  | nil => rfl
  | cons a rest ih =>
    rw [newTypes]
    split
    · rename_i hknown
      have habsorb : SameFirsts (known.map (·.descriptor) ++ [a.descriptor])
          (known.map (·.descriptor)) := .absorb (by simpa using hknown)
      have hrest := habsorb.append_right (rest.map (·.descriptor))
      rw [List.append_assoc, List.singleton_append, ← List.map_cons, ← List.map_append,
        ← List.map_append] at hrest
      exact (ih known).trans hrest.symm
    · rw [List.append_cons known a rest, List.append_cons known a (newTypes _ rest)]
      exact ih (known ++ [a])

namespace Graph

/-- Graphs with as many streams, which take and give the same types and pass them on to the same
streams, in the same order of first occurrences. -/
structure Abreast (g h : Graph) : Prop where
  length : g.streams.length = h.streams.length
  inputs : ∀ t, SameFirsts ((g.inputsOf t).map (·.descriptor)) ((h.inputsOf t).map (·.descriptor))
  outputs : ∀ t,
    SameFirsts ((g.outputsOf t).map (·.descriptor)) ((h.outputsOf t).map (·.descriptor))
  children : ∀ t, SameFirsts (g.strongChildren t) (h.strongChildren t)

theorem WellFormed.deliveries_eq {g : Graph} (hg : g.WellFormed) (id : StreamId) :
    g.deliveries id = ((g.outputsOf id).map (·.descriptor)).flatMap fun d =>
      (g.strongChildren id).map fun t => (d, t) := by
  rw [deliveries, hg.routes_eq, offersOf, List.map_flatMap, List.flatMap_map]
  simp only [List.map_map, Function.comp_def]

theorem WellFormed.map_offeredTo {g : Graph} (hg : g.WellFormed) (ids : List StreamId)
    (t : StreamId) : (g.offeredTo ids t).map (·.descriptor) =
      ids.flatMap fun id => (g.deliveries id).filterMap fun d => if d.2 = t then some d.1 else none := by
  have hone : ∀ l : List (Attribution × StreamId),
      ((l.filter fun r => r.2 = t).map (·.1)).map (·.descriptor) =
        (l.map fun r => (r.1.descriptor, r.2)).filterMap fun d =>
          if d.2 = t then some d.1 else none := by
    intro l
    induction l with
    | nil => rfl
    | cons r l ih => by_cases hr : r.2 = t <;> simp [hr, ih]
  rw [offeredTo, hone, List.map_flatMap, List.filterMap_flatMap]
  simp only [deliveries, hg.routes_eq]

namespace Abreast

variable {g h : Graph} (habreast : g.Abreast h) (hg : g.WellFormed) (hh : h.WellFormed)

include habreast hg hh

theorem deliveries (id : StreamId) : SameFirsts (g.deliveries id) (h.deliveries id) := by
  rw [hg.deliveries_eq, hh.deliveries_eq]
  exact (habreast.outputs id).flatMap fun d => (habreast.children id).map _

theorem turns_eq (order : Order) (seed : List StreamId) :
    g.turns order seed = h.turns order seed := by
  rw [turns, turns, hg.stream_ids, hh.stream_ids, habreast.length]

/-- Propagations of graphs abreast take as many turns and pass on as many types. -/
theorem stats_run (order : Order) (seed : List StreamId) :
    ((g.start order seed).run order).stats = ((h.start order seed).run order).stats := by
  have houtlook : (g.start order seed).outlook = (h.start order seed).outlook := by
    refine Outlook.ext (funext fun d => ?_) ?_ rfl
    · show g.misses d = h.misses d
      rw [misses_eq, misses_eq, habreast.length]
      simp only [(habreast.inputs d.2).mem_iff]
    · show g.agenda order seed = h.agenda order seed
      rw [agenda, agenda, hg.stream_ids, hh.stream_ids, habreast.length]
  exact congrArg Outlook.stats (Propagation.run_outlook houtlook (habreast.deliveries hg hh))

/-- Propagations leave graphs abreast. -/
theorem run (order : Order) {seed : List StreamId} (hseed : ∀ id ∈ seed, id < g.streams.length) :
    ((g.start order seed).run order).graph.Abreast ((h.start order seed).run order).graph := by
  rw [hg.run_graph order hseed, hh.run_graph order (habreast.length ▸ hseed),
    ← habreast.turns_eq hg hh]
  generalize g.turns order seed = ids
  refine ⟨?_, fun t => ?_, fun t => ?_, fun t => ?_⟩
  · rw [length_sweep, length_sweep, habreast.length]
  · by_cases ht : t < g.streams.length
    · rw [inputsOf_sweep g ids ht, inputsOf_sweep h ids (habreast.length ▸ ht), gained, gained]
      refine (sameFirsts_newTypes _ _).trans (Eq.trans ?_ (sameFirsts_newTypes _ _).symm)
      rw [List.map_append, List.map_append, hg.map_offeredTo, hh.map_offeredTo]
      refine (habreast.inputs t).append (SameFirsts.flatMap rfl fun id => ?_)
      exact (habreast.deliveries hg hh id).filterMap _
    · have hle := Nat.le_of_not_lt ht
      rw [inputsOf_of_le (by rwa [length_sweep]),
        inputsOf_of_le (by rwa [length_sweep, ← habreast.length])]
      rfl
  · rw [outputsOf_sweep, outputsOf_sweep]
    exact habreast.outputs t
  · rw [strongChildren_sweep, strongChildren_sweep]
    exact habreast.children t

end Abreast

end Graph

/-! ## Graphs that look the same -/

section Through

variable {α : Type} {f : Attribution → α}
  (hf : ∀ {a b}, f a = f b → a.descriptor = b.descriptor)

include hf

/-- What tells the types apart tells them in a list. -/
theorem map_descriptor_of_map {l m : List Attribution} (h : l.map f = m.map f) :
    l.map (·.descriptor) = m.map (·.descriptor) := by
  induction l generalizing m with
  | nil =>
    obtain rfl := List.map_eq_nil_iff.1 h.symm
    rfl
  | cons a l ih =>
    obtain ⟨b, m, rfl, hb, hm⟩ := List.map_eq_cons_iff.1 h.symm
    rw [List.map_cons, List.map_cons, hf hb, ih hm.symm]

/-- New types are found by the types alone. -/
theorem map_newTypes {known known' offered offered' : List Attribution}
    (hknown : known.map f = known'.map f) (hoffered : offered.map f = offered'.map f) :
    (newTypes known offered).map f = (newTypes known' offered').map f := by
  induction offered generalizing known known' offered' with
  | nil =>
    obtain rfl := List.map_eq_nil_iff.1 hoffered.symm
    rfl
  | cons a offered ih =>
    obtain ⟨b, offered', rfl, hb, hrest⟩ := List.map_eq_cons_iff.1 hoffered.symm
    rw [newTypes, newTypes, map_descriptor_of_map hf hknown, hf hb]
    split
    · exact ih hknown hrest.symm
    · rw [List.map_cons, List.map_cons, hb, ih _ hrest.symm]
      rw [List.map_append, List.map_append, hknown, List.map_singleton, List.map_singleton, hb]

end Through

/-- Graphs with as many streams, which take and give the same types through `f` one by one, and
pass them on to the same streams. -/
structure Graph.SameThrough {α : Type} (f : Attribution → α) (g h : Graph) : Prop where
  length : g.streams.length = h.streams.length
  inputs : ∀ t, (g.inputsOf t).map f = (h.inputsOf t).map f
  outputs : ∀ t, (g.outputsOf t).map f = (h.outputsOf t).map f
  children : ∀ t, g.strongChildren t = h.strongChildren t

namespace Graph.SameThrough

variable {α : Type} {f : Attribution → α} {g h : Graph} (hsame : g.SameThrough f h)

include hsame

theorem map_offeredTo (ids : List StreamId) (t : StreamId) :
    (g.offeredTo ids t).map f = (h.offeredTo ids t).map f := by
  have hoffers : ∀ k : Graph, (k.offeredTo ids t).map f = ids.flatMap fun id =>
      ((k.outputsOf id).map f).flatMap fun x =>
        ((k.strongChildren id).filter (· = t)).map fun _ => x := by
    intro k
    simp only [offeredTo, offersOf, List.filter_flatMap, List.map_flatMap, List.flatMap_map,
      List.filter_map, List.map_map, Function.comp_def]
  simp only [hoffers, hsame.outputs, hsame.children]

variable (hf : ∀ {a b}, f a = f b → a.descriptor = b.descriptor)

include hf

theorem abreast : g.Abreast h := by
  refine ⟨hsame.length, fun t => ?_, fun t => ?_, fun t => ?_⟩
  · exact .of_eq (map_descriptor_of_map hf (hsame.inputs t))
  · exact .of_eq (map_descriptor_of_map hf (hsame.outputs t))
  · exact .of_eq (hsame.children t)

/-- Propagations of graphs that look the same leave graphs that look the same. -/
theorem run (hg : g.WellFormed) (hh : h.WellFormed) (order : Order) {seed : List StreamId}
    (hseed : ∀ id ∈ seed, id < g.streams.length) :
    ((g.start order seed).run order).graph.SameThrough f ((h.start order seed).run order).graph := by
  rw [hg.run_graph order hseed, hh.run_graph order (hsame.length ▸ hseed),
    ← (hsame.abreast hf).turns_eq hg hh]
  generalize g.turns order seed = ids
  refine ⟨?_, fun t => ?_, fun t => ?_, fun t => ?_⟩
  · rw [length_sweep, length_sweep, hsame.length]
  · by_cases ht : t < g.streams.length
    · rw [inputsOf_sweep g ids ht, inputsOf_sweep h ids (hsame.length ▸ ht), List.map_append,
        List.map_append, hsame.inputs t, gained, gained,
        map_newTypes hf (hsame.inputs t) (hsame.map_offeredTo ids t)]
    · have hle := Nat.le_of_not_lt ht
      rw [inputsOf_of_le (by rwa [length_sweep]),
        inputsOf_of_le (by rwa [length_sweep, ← hsame.length])]
  · rw [outputsOf_sweep, outputsOf_sweep, hsame.outputs t]
  · rw [strongChildren_sweep, strongChildren_sweep, hsame.children t]

end Graph.SameThrough

end StreamTyping
