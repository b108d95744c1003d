import StreamTyping.Proofs.WellFormed

/-!
# Sweeps

A sweep lets every stream of a list pass its types on once. No agenda is
needed to say what it does, and the streams do not get into each other's way:
what a stream takes in the end depends only on what is offered to it.

* `Graph.sweep`, made of `Graph.emit` for one stream and `Graph.offer` for one
  type.
* `Graph.sweep_induction`, `Graph.sweep_keep`: what every offer keeps, a sweep
  keeps.
* `Graph.stream?_sweep`: a sweep appends to the types that a stream takes those
  of the types offered to it that are new (`newTypes`).
* `Graph.Settled`: a stream has nothing left to pass on. This holds for a
  stream once it has had its turn, and from then on.
-/

namespace StreamTyping

/-! ## One stream -/

/-- Those types of a list that are not among the known ones, each where it stands first. -/
def newTypes (known : List Attribution) : List Attribution → List Attribution
  | [] => []
  | a :: rest =>
    if a.descriptor ∈ known.map (·.descriptor) then newTypes known rest
    else a :: newTypes (known ++ [a]) rest

theorem mem_of_mem_newTypes {known offered : List Attribution} {a : Attribution}
    (h : a ∈ newTypes known offered) : a ∈ offered := by
  induction offered generalizing known with
  | nil => exact h
  | cons b rest ih =>
    rw [newTypes] at h
    split at h
    · exact List.mem_cons_of_mem _ (ih h)
    · rcases List.mem_cons.1 h with rfl | h
      · exact List.mem_cons_self
      · exact List.mem_cons_of_mem _ (ih h)

theorem mem_map_newTypes {known offered : List Attribution} {d : Descriptor} :
    d ∈ (newTypes known offered).map (·.descriptor) ↔
      d ∉ known.map (·.descriptor) ∧ d ∈ offered.map (·.descriptor) := by
  induction offered generalizing known with
  | nil => simp [newTypes]
  | cons a rest ih =>
    rw [newTypes, List.map_cons, List.mem_cons]
    split
    · rename_i hknown
      rw [ih]
      refine and_congr_right fun hd => ⟨.inr, fun h => h.resolve_left fun hda => ?_⟩
      exact hd (hda ▸ hknown)
    · rename_i hnew
      rw [List.map_cons, List.mem_cons, ih, List.map_append, List.mem_append, List.map_singleton,
        List.mem_singleton]
      by_cases hda : d = a.descriptor
      · simp [hda, hnew]
      · simp [hda]

theorem nodup_map_newTypes (known offered : List Attribution) :
    ((newTypes known offered).map (·.descriptor)).Nodup := by
  induction offered generalizing known with
  | nil => exact List.nodup_nil
  | cons a rest ih =>
    rw [newTypes]
    split
    · exact ih known
    · rw [List.map_cons, List.nodup_cons]
      refine ⟨fun hmem => (mem_map_newTypes.1 hmem).1 ?_, ih _⟩
      simp

namespace Stream

/-- The stream takes a type, unless it does already. -/
def accept (s : Stream) (a : Attribution) : Stream :=
  if s.hasInput a.descriptor then s else { s with inputs := s.inputs ++ [a] }

theorem hasInput_iff {s : Stream} {d : Descriptor} :
    s.hasInput d = true ↔ d ∈ s.inputs.map (·.descriptor) := by
  rw [hasInput, List.any_eq_true, List.mem_map]
  simp only [decide_eq_true_eq]

theorem accept_of_hasInput {s : Stream} {a : Attribution} (h : s.hasInput a.descriptor = true) :
    s.accept a = s := if_pos h

theorem accept_of_not_hasInput {s : Stream} {a : Attribution}
    (h : s.hasInput a.descriptor = false) :
    s.accept a = { s with inputs := s.inputs ++ [a] } := by
  rw [accept, if_neg (Bool.eq_false_iff.1 h)]

/-- Taking types one after another appends the new ones. -/
theorem foldl_accept (s : Stream) (offered : List Attribution) :
    offered.foldl accept s = { s with inputs := s.inputs ++ newTypes s.inputs offered } := by
  induction offered generalizing s with
  | nil =>
    rw [newTypes, List.append_nil]
    rfl
  | cons a rest ih =>
    rw [List.foldl_cons, ih, newTypes]
    cases h : s.hasInput a.descriptor with
    | true => rw [accept_of_hasInput h, if_pos (hasInput_iff.1 h)]
    | false =>
      have hnew := mt hasInput_iff.2 (Bool.eq_false_iff.1 h)
      rw [accept_of_not_hasInput h, if_neg hnew, List.append_assoc]
      rfl

end Stream

/-! ## Sweeps over a graph -/

namespace Graph

/-- The types that a stream gives. -/
def outputsOf (g : Graph) (id : StreamId) : List Attribution :=
  ((g.stream? id).map (·.outputs)).getD []

/-- The streams at the ends of the strong edges out of a stream. -/
def strongChildren (g : Graph) (id : StreamId) : List StreamId :=
  ((g.edgesFrom id).filter fun e => !e.weak).map (·.target)

/-- A stream takes a type, unless it does already. -/
def offer (g : Graph) (a : Attribution) (target : StreamId) : Graph :=
  g.modify target fun s => s.accept a

/-- A stream offers every type that it gives to each of its strong children: the first type
to all of them, then the second, and so on. -/
def emit (g : Graph) (id : StreamId) : Graph :=
  (g.outputsOf id).foldl (fun h a => (g.strongChildren id).foldl (fun h t => h.offer a t) h) g

/-- The streams of a list have one turn each. -/
def sweep (g : Graph) (ids : List StreamId) : Graph := ids.foldl emit g

theorem sweep_append (g : Graph) (ids rest : List StreamId) :
    g.sweep (ids ++ rest) = (g.sweep ids).sweep rest := List.foldl_append

theorem sweep_concat (g : Graph) (ids : List StreamId) (id : StreamId) :
    g.sweep (ids ++ [id]) = (g.sweep ids).emit id := sweep_append g ids [id]

/-- What a stream offers, and to which stream, in order. -/
def offersOf (g : Graph) (id : StreamId) : List (Attribution × StreamId) :=
  (g.outputsOf id).flatMap fun a => (g.strongChildren id).map fun t => (a, t)

theorem emit_eq_foldl (g : Graph) (id : StreamId) :
    g.emit id = (g.offersOf id).foldl (fun h r => h.offer r.1 r.2) g := by
  rw [emit, offersOf, List.foldl_flatMap]
  simp only [List.foldl_map]

theorem mem_offersOf {g : Graph} {id : StreamId} {r : Attribution × StreamId} :
    r ∈ g.offersOf id ↔ r.1 ∈ g.outputsOf id ∧ r.2 ∈ g.strongChildren id := by
  obtain ⟨a, t⟩ := r
  simp only [offersOf, List.mem_flatMap, List.mem_map, Prod.mk.injEq]
  constructor
  · rintro ⟨b, hb, u, hu, rfl, rfl⟩
    exact ⟨hb, hu⟩
  · rintro ⟨ha, ht⟩
    exact ⟨a, ha, t, ht, rfl, rfl⟩

theorem mem_strongChildren {g : Graph} {id t : StreamId} :
    t ∈ g.strongChildren id ↔ ∃ e ∈ g.edges, e.source = id ∧ e.weak = false ∧ e.target = t := by
  simp only [strongChildren, edgesFrom, List.mem_map, List.mem_filter, decide_eq_true_eq,
    Bool.not_eq_true']
  constructor
  · rintro ⟨e, ⟨⟨he, hs⟩, hw⟩, ht⟩
    exact ⟨e, he, hs, hw, ht⟩
  · rintro ⟨e, he, hs, hw, ht⟩
    exact ⟨e, ⟨⟨he, hs⟩, hw⟩, ht⟩

theorem mem_outputsOf {g : Graph} {id : StreamId} {a : Attribution} :
    a ∈ g.outputsOf id ↔ ∃ s, g.stream? id = some s ∧ a ∈ s.outputs := by
  rw [outputsOf]
  cases g.stream? id <;> simp

theorem stream?_offer (g : Graph) (a : Attribution) (t i : StreamId) :
    (g.offer a t).stream? i = if t = i then (g.stream? i).map fun s => s.accept a else g.stream? i :=
  stream?_modify g t i _

/-! ### What a sweep leaves alone -/

/-- What every offer keeps true stays true in a sweep. -/
theorem sweep_induction {P : Graph → Prop} (h : ∀ g a t, P g → P (g.offer a t)) {g : Graph}
    (hg : P g) (ids : List StreamId) : P (g.sweep ids) := by
  have hemit : ∀ g id, P g → P (g.emit id) := by
    intro g id hg
    rw [emit_eq_foldl]
    generalize g.offersOf id = offers
    induction offers generalizing g with
    | nil => exact hg
    | cons r offers ih => exact ih _ (h g r.1 r.2 hg)
  induction ids generalizing g with
  | nil => exact hg
  | cons id ids ih => exact ih (hemit g id hg)

/-- Any view of a graph that an offer keeps is kept by a sweep. -/
theorem sweep_keep {α : Type} {f : Graph → α} (h : ∀ g a t, f (g.offer a t) = f g)
    (g : Graph) (ids : List StreamId) : f (g.sweep ids) = f g :=
  sweep_induction (fun k a t hk => (h k a t).trans hk) rfl ids

@[simp] theorem length_offer (g : Graph) (a : Attribution) (t : StreamId) :
    (g.offer a t).streams.length = g.streams.length := length_modify g t _

@[simp] theorem outputsOf_offer (g : Graph) (a : Attribution) (t : StreamId) :
    (g.offer a t).outputsOf = g.outputsOf := by
  funext i
  rw [outputsOf, outputsOf, stream?_offer]
  split
  · cases g.stream? i with
    | none => rfl
    | some s =>
      rw [Option.map_some, Option.map_some, Option.map_some, Stream.accept]
      split <;> rfl
  · rfl

@[simp] theorem offersOf_offer (g : Graph) (a : Attribution) (t : StreamId) :
    (g.offer a t).offersOf = g.offersOf := by
  funext i
  rw [offersOf, offersOf, outputsOf_offer]
  rfl

theorem WellFormed.offer {g : Graph} (hg : g.WellFormed) (a : Attribution) (t : StreamId) :
    (g.offer a t).WellFormed := by
  refine hg.modify (fun s => ?_) t
  rw [Stream.accept]
  split <;> exact ⟨rfl, rfl, rfl, rfl⟩

theorem WellFormed.sweep {g : Graph} (hg : g.WellFormed) (ids : List StreamId) :
    (g.sweep ids).WellFormed :=
  sweep_induction (fun _ a t hk => hk.offer a t) hg ids

@[simp] theorem edges_sweep (g : Graph) (ids : List StreamId) : (g.sweep ids).edges = g.edges :=
  sweep_keep (fun _ _ _ => rfl) g ids

@[simp] theorem index_sweep (g : Graph) (ids : List StreamId) : (g.sweep ids).index = g.index :=
  sweep_keep (fun _ _ _ => rfl) g ids

@[simp] theorem length_sweep (g : Graph) (ids : List StreamId) :
    (g.sweep ids).streams.length = g.streams.length :=
  sweep_keep (f := fun k => k.streams.length) length_offer g ids

@[simp] theorem offersOf_sweep (g : Graph) (ids : List StreamId) :
    (g.sweep ids).offersOf = g.offersOf :=
  sweep_keep offersOf_offer g ids

theorem outputsOf_sweep (g : Graph) (ids : List StreamId) :
    (g.sweep ids).outputsOf = g.outputsOf :=
  sweep_keep outputsOf_offer g ids

theorem strongChildren_sweep (g : Graph) (ids : List StreamId) :
    (g.sweep ids).strongChildren = g.strongChildren :=
  sweep_keep (fun _ _ _ => rfl) g ids

/-! ### What a sweep adds -/

/-- The types that the turns of some streams offer to a stream, in order. -/
def offeredTo (g : Graph) (ids : List StreamId) (t : StreamId) : List Attribution :=
  ((ids.flatMap g.offersOf).filter fun r => r.2 = t).map (·.1)

theorem mem_offeredTo {g : Graph} {ids : List StreamId} {t : StreamId} {a : Attribution} :
    a ∈ g.offeredTo ids t ↔ ∃ id ∈ ids, a ∈ g.outputsOf id ∧ t ∈ g.strongChildren id := by
  simp only [offeredTo, List.mem_map, List.mem_filter, List.mem_flatMap, decide_eq_true_eq,
    mem_offersOf]
  constructor
  · rintro ⟨⟨b, u⟩, ⟨⟨id, hid, hb, hu⟩, rfl⟩, rfl⟩
    exact ⟨id, hid, hb, hu⟩
  · rintro ⟨id, hid, ha, ht⟩
    exact ⟨(a, t), ⟨⟨id, hid, ha, ht⟩, rfl⟩, rfl⟩

theorem sweep_eq_foldl (g : Graph) (ids : List StreamId) :
    g.sweep ids = (ids.flatMap g.offersOf).foldl (fun h r => h.offer r.1 r.2) g := by
  induction ids generalizing g with
  | nil => rfl
  | cons id ids ih =>
    have hoffers : (g.emit id).offersOf = g.offersOf := offersOf_sweep g [id]
    show (g.emit id).sweep ids = _
    rw [ih, hoffers, List.flatMap_cons, List.foldl_append, ← emit_eq_foldl]

/-- A stream takes what is offered to itself, whatever is offered to others in between. -/
theorem stream?_foldl_offer (g : Graph) (offers : List (Attribution × StreamId)) (t : StreamId) :
    (offers.foldl (fun h r => h.offer r.1 r.2) g).stream? t =
      (g.stream? t).map fun s => ((offers.filter fun r => r.2 = t).map (·.1)).foldl Stream.accept s := by
  induction offers generalizing g with
  | nil => simp
  | cons r offers ih =>
    rw [List.foldl_cons, ih, stream?_offer]
    by_cases hr : r.2 = t
    · simp [hr, Function.comp_def]
    · simp [hr]

theorem stream?_sweep (g : Graph) (ids : List StreamId) (t : StreamId) :
    (g.sweep ids).stream? t = (g.stream? t).map fun s =>
      { s with inputs := s.inputs ++ newTypes s.inputs (g.offeredTo ids t) } := by
  rw [sweep_eq_foldl, stream?_foldl_offer]
  simp only [Stream.foldl_accept, offeredTo]

/-! ### Streams with nothing left to pass on -/

/-- The strong children of a stream take all types that it gives. -/
def Settled (g : Graph) (id : StreamId) : Prop :=
  ∀ a ∈ g.outputsOf id, ∀ t ∈ g.strongChildren id, ∀ s, g.stream? t = some s →
    s.hasInput a.descriptor = true

theorem settled_sweep (g : Graph) {ids : List StreamId} {id : StreamId} (hid : id ∈ ids) :
    (g.sweep ids).Settled id := by
  intro a ha t ht s hs
  have hoffers : (a, t) ∈ (g.sweep ids).offersOf id := mem_offersOf.2 ⟨ha, ht⟩
  rw [offersOf_sweep, mem_offersOf] at hoffers
  have hoffered : a ∈ g.offeredTo ids t := mem_offeredTo.2 ⟨id, hid, hoffers⟩
  rw [stream?_sweep] at hs
  obtain ⟨r, -, rfl⟩ := Option.map_eq_some_iff.1 hs
  rw [Stream.hasInput_iff, List.map_append, List.mem_append]
  by_cases hold : a.descriptor ∈ r.inputs.map (·.descriptor)
  · exact .inl hold
  · exact .inr (mem_map_newTypes.2 ⟨hold, List.mem_map_of_mem hoffered⟩)

theorem offer_of_hasInput {g : Graph} {a : Attribution} {t : StreamId}
    (h : ∀ s, g.stream? t = some s → s.hasInput a.descriptor = true) : g.offer a t = g := by
  refine ext_stream? rfl rfl fun i => ?_
  rw [stream?_offer]
  split
  · rename_i hi
    subst hi
    cases hs : g.stream? t with
    | none => rfl
    | some s => rw [Option.map_some, Stream.accept_of_hasInput (h s hs)]
  · rfl

/-- A turn of a stream with nothing left to pass on changes nothing. -/
theorem emit_of_settled {g : Graph} {id : StreamId} (h : g.Settled id) : g.emit id = g := by
  rw [emit_eq_foldl]
  have hnone : ∀ r ∈ g.offersOf id, g.offer r.1 r.2 = g := fun r hr =>
    offer_of_hasInput (h r.1 (mem_offersOf.1 hr).1 r.2 (mem_offersOf.1 hr).2)
  generalize g.offersOf id = offers at hnone
  induction offers with
  | nil => rfl
  | cons r offers ih =>
    rw [List.foldl_cons, hnone r List.mem_cons_self]
    exact ih fun r hr => hnone r (List.mem_cons_of_mem _ hr)

/-! ### Sweeps over all streams -/

/-- A type is given by a stream with a strong edge to a stream. -/
def Feeds (g : Graph) (a : Attribution) (t : StreamId) : Prop :=
  ∃ e ∈ g.edges, e.weak = false ∧ e.target = t ∧ ∃ s, g.stream? e.source = some s ∧ a ∈ s.outputs

theorem mem_offeredTo_iff_feeds {g : Graph} {ids : List StreamId}
    (hids : ∀ id, id < g.streams.length → id ∈ ids) {a : Attribution} {t : StreamId} :
    a ∈ g.offeredTo ids t ↔ g.Feeds a t := by
  rw [mem_offeredTo]
  constructor
  · rintro ⟨id, -, ha, ht⟩
    obtain ⟨e, he, rfl, hweak, htarget⟩ := mem_strongChildren.1 ht
    exact ⟨e, he, hweak, htarget, mem_outputsOf.1 ha⟩
  · rintro ⟨e, he, hweak, htarget, s, hs, ha⟩
    exact ⟨e.source, hids _ (lt_of_stream? hs), mem_outputsOf.2 ⟨s, hs, ha⟩,
      mem_strongChildren.2 ⟨e, he, rfl, hweak, htarget⟩⟩

end Graph

end StreamTyping
