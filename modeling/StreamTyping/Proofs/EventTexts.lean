import StreamTyping.Event.Wire
import StreamTyping.Proofs.Readers
import StreamTyping.Proofs.WireForm
import StreamTyping.Report.Basic

/-!
# The text of a list of events

What is absent is left out when events are written, and read as absent again.
So the text of a list of events leaves nothing open but what the text of a type
descriptor does: which records are written like arrays. Numbers are left aside
here, as a double is read by a rule of its own.

* `Event.norm` makes such records arrays.
* `Event.recovers`: an event is read back from what is written of it, up to
  `norm`, if there is room for it.
* `Event.Fits`: the types of an event have no such records, and leave room for
  the brackets around them. `Event.fits_of_parseList`: so do the types of events
  that were read from a text.
* `Event.listText_roundTrip`: writing and reading lists of events.
-/

namespace StreamTyping

/-! ## Events whose records are not written like arrays -/

/-- A callback with all records that are written like arrays made arrays. -/
def Callback.norm (c : Callback) : Callback :=
  { c with params := c.params.map (·.norm), returns := c.returns.norm }

/-- An argument with all records that are written like arrays made arrays. -/
def Argument.norm : Argument → Argument
  | .callback signature => .callback signature.norm
  | .stream known => .stream known
  | .name given => .name given
  | .number value => .number value

/-- An event with all records that are written like arrays made arrays. -/
def Event.norm : Event → Event
  | .declare declaration =>
    .declare { declaration with descriptor := declaration.descriptor.map (·.norm) }
  | .invoke call => .invoke { call with arguments := call.arguments.map (·.norm) }

/-- No number is among the arguments. -/
def Event.Numberless : Event → Prop
  | .declare _ => True
  | .invoke call => ∀ value, .number value ∉ call.arguments

/-! ## Reading back what is written -/

theorem Shape.toJson_ne_null (s : Shape) : s.toJson ≠ .null := by
  cases s <;> simp [Shape.toJson]

namespace Descriptor

theorem recovers {d : Descriptor} {room : Nat} (h : d.toJson.depth ≤ room) :
    reader.Recovers room d.toJson d.norm :=
  reader_toTree h d.shape.inRange_toJson (ofJson?_toJson d.shape d.canonical)

theorem recovers_list {ds : List Descriptor} {room : Nat}
    (h : (Json.array (ds.map (·.toJson))).depth ≤ room) :
    (Reader.list reader).Recovers room (.array (ds.map (·.toJson))) (ds.map (·.norm)) := by
  obtain ⟨room, rfl, hitems⟩ := Json.depth_array_le_iff.1 h
  exact .list fun d hd => recovers (hitems _ (List.mem_map_of_mem hd))

end Descriptor

theorem Locator.recovers {l : Locator} {room : Nat} (h : l.toJson.depth ≤ room) :
    reader.Recovers room l.toJson l := by
  obtain ⟨room, rfl, -⟩ := Json.depth_object_le_iff.1 h
  refine RecordFormat.Fills.recovers (s := ⟨some l.file, some l.line, some l.column⟩) ?_ rfl
  exact .cons rfl rfl (Reader.recovers_text room l.file)
    (.cons rfl rfl (Reader.recovers_word32 room l.line)
      (.cons rfl rfl (Reader.recovers_word32 room l.column) .nil))

theorem Locator.forall_recovers {o : Option Locator} {room : Nat}
    (h : ∀ l ∈ o, l.toJson.depth ≤ room) :
    ∀ l ∈ o, reader.Recovers room l.toJson l ∧ l.toJson ≠ .null :=
  fun l hl => ⟨recovers (h l hl), by simp [Locator.toJson]⟩

theorem Callback.recovers {c : Callback} {room : Nat} (h : c.toJson.depth ≤ room) :
    reader.Recovers room c.toJson c.norm := by
  obtain ⟨room, rfl, hmembers⟩ := Json.depth_object_le_iff.1 h
  simp only [List.forall_mem_append, List.forall_mem_cons, Json.forall_mem_optional] at hmembers
  obtain ⟨⟨hparams, hreturns, -⟩, hlocator⟩ := hmembers
  refine RecordFormat.Fills.recovers
    ((RecordFormat.Fills.cons rfl rfl (Descriptor.recovers_list hparams)
      (.cons rfl rfl (Descriptor.recovers hreturns) .nil)).append
        (.optional (f := id) rfl rfl (Locator.forall_recovers hlocator))) ?_
  rw [norm]
  cases c.locator <;> rfl

theorem Argument.recovers {a : Argument} {room : Nat} (hnumber : ∀ value, a ≠ .number value)
    (h : a.toJson.depth ≤ room) : reader.Recovers room a.toJson a.norm := by
  cases a with
  | stream known =>
    obtain ⟨room, rfl, -⟩ := Json.depth_object_le_iff.1 h
    exact ((Reader.recovers_text room known).map stream).tagged rfl
  | name given =>
    obtain ⟨room, rfl, -⟩ := Json.depth_object_le_iff.1 h
    exact ((Reader.recovers_text room given).map name).tagged rfl
  | number value => exact absurd rfl (hnumber value)
  | callback signature =>
    obtain ⟨room, rfl, hmembers⟩ := Json.depth_object_le_iff.1 h
    exact ((Callback.recovers (hmembers _ (.head _))).map callback).tagged rfl

theorem Declaration.recovers {d : Declaration} {room : Nat} (h : d.toJson.depth ≤ room) :
    reader.Recovers room d.toJson { d with descriptor := d.descriptor.map (·.norm) } := by
  obtain ⟨room, rfl, hmembers⟩ := Json.depth_object_le_iff.1 h
  simp only [List.forall_mem_append, Json.forall_mem_optional] at hmembers
  obtain ⟨⟨-, hdescriptor⟩, hlocator⟩ := hmembers
  have htype : ∀ t ∈ d.descriptor,
      Descriptor.reader.Recovers room t.toJson t.norm ∧ t.toJson ≠ .null := fun t ht =>
    ⟨Descriptor.recovers (hdescriptor t ht), t.shape.toJson_ne_null⟩
  refine RecordFormat.Fills.recovers
    (((RecordFormat.Fills.cons rfl rfl (Reader.recovers_text room d.name) .nil).append
      (.optional (f := (·.norm)) rfl rfl htype)).append
        (.optional (f := id) rfl ?_ (Locator.forall_recovers hlocator))) ?_
  · cases d.descriptor <;> rfl
  · cases d.descriptor <;> cases d.locator <;> rfl

theorem Invocation.recovers {call : Invocation} {room : Nat}
    (hnumber : ∀ value, .number value ∉ call.arguments) (h : call.toJson.depth ≤ room) :
    reader.Recovers room call.toJson { call with arguments := call.arguments.map (·.norm) } := by
  obtain ⟨room, rfl, hmembers⟩ := Json.depth_object_le_iff.1 h
  simp only [List.forall_mem_append, List.forall_mem_cons, Json.forall_mem_optional] at hmembers
  obtain ⟨⟨-, -, harguments, -⟩, hlocator⟩ := hmembers
  obtain ⟨room, rfl, hitems⟩ := Json.depth_array_le_iff.1 harguments
  have hread : (Reader.list Argument.reader).Recovers (room + 1)
      (.array (call.arguments.map (·.toJson))) (call.arguments.map (·.norm)) := by
    refine .list fun a ha => Argument.recovers (fun value heq => ?_) ?_
    · exact hnumber value (heq ▸ ha)
    · exact hitems _ (List.mem_map_of_mem ha)
  refine RecordFormat.Fills.recovers
    ((RecordFormat.Fills.cons rfl rfl (Reader.recovers_text _ call.source)
      (.cons rfl rfl (Reader.recovers_text _ call.token) (.cons rfl rfl hread .nil))).append
        (.optional (f := id) rfl rfl (Locator.forall_recovers hlocator))) ?_
  cases call.locator <;> rfl

/-- An event without numbers is read back, up to `norm`, if there is room for what is written
of it. -/
theorem Event.recovers {e : Event} {room : Nat} (hnumber : e.Numberless)
    (h : e.toJson.depth ≤ room) : reader.Recovers room e.toJson e.norm := by
  cases e with
  | declare declaration =>
    obtain ⟨room, rfl, hmembers⟩ := Json.depth_object_le_iff.1 h
    exact ((Declaration.recovers (hmembers _ (.head _))).map declare).tagged rfl
  | invoke call =>
    obtain ⟨room, rfl, hmembers⟩ := Json.depth_object_le_iff.1 h
    exact ((Invocation.recovers hnumber (hmembers _ (.head _))).map invoke).tagged rfl

/-! ## What is read of events -/

/-- The parameters leave room for two brackets around them, and the result for one. -/
def Callback.Fits (n : Nat) (c : Callback) : Prop :=
  (∀ d ∈ c.params, d.Fits n) ∧ c.returns.Fits (n + 1)

/-- The types of an event have no records that are written like arrays, and leave room for the
six brackets around the parameters of a callback, or the two around a declared type. -/
def Event.Fits (n : Nat) : Event → Prop
  | .declare declaration => ∀ d ∈ declaration.descriptor, d.Fits (n + 4)
  | .invoke call => ∀ c, .callback c ∈ call.arguments → c.Fits n

theorem Descriptor.ensures_fits (n : Nat) : reader.Ensures n (Fits n) := fun _ _ => fits_of_reader

theorem Callback.ensures_fits (n : Nat) : reader.Ensures (n + 2) (Fits n) := by
  refine RecordFormat.ensures (I := fun s : Draft =>
    (∀ params ∈ s.params, ∀ d ∈ params, d.Fits n) ∧ ∀ d ∈ s.returns, d.Fits (n + 1)) ?_
    (by constructor <;> simp [format]) ?_
  · simp only [format, List.forall_mem_cons]
    refine ⟨?_, ?_, ?_, by simp⟩
    · exact .of (.list (Descriptor.ensures_fits n)) fun s params hs hparams => ⟨by simpa, hs.2⟩
    · exact .of (Descriptor.ensures_fits (n + 1)) fun s d hs hd => ⟨hs.1, by simpa⟩
    · exact .of .trivial fun s l hs _ => hs
  · intro s c hs hfinish
    obtain ⟨params, hparams, hfinish⟩ := exists_of_bind_eq_ok hfinish
    obtain ⟨returns, hreturns, hfinish⟩ := exists_of_bind_eq_ok hfinish
    obtain rfl := Except.ok.inj hfinish
    exact ⟨hs.1 params (RecordFormat.eq_some_of_required hparams),
      hs.2 returns (RecordFormat.eq_some_of_required hreturns)⟩

theorem Argument.ensures_fits (n : Nat) :
    reader.Ensures (n + 3) fun a => ∀ c, a = .callback c → c.Fits n := by
  refine .tagged ?_
  simp only [List.forall_mem_cons]
  refine ⟨.map ?_, .map ?_, .map ?_, .map ?_, by simp⟩
  · simp [Reader.Ensures]
  · simp [Reader.Ensures]
  · simp [Reader.Ensures]
  · intro tree signature hread c heq
    exact Argument.callback.inj heq ▸ Callback.ensures_fits n tree signature hread

theorem Declaration.ensures_fits (n : Nat) :
    reader.Ensures (n + 1) fun declaration => ∀ d ∈ declaration.descriptor, d.Fits n := by
  refine RecordFormat.ensures (I := fun s : Draft => ∀ d ∈ s.descriptor.join, d.Fits n) ?_
    (by simp [format]) ?_
  · simp only [format, List.forall_mem_cons]
    refine ⟨?_, ?_, ?_, by simp⟩
    · exact .of .trivial fun s name hs _ => hs
    · exact .of (.optional (Descriptor.ensures_fits n)) fun s d hs hd => hd
    · exact .of .trivial fun s l hs _ => hs
  · intro s declaration hs hfinish
    obtain ⟨name, -, hfinish⟩ := exists_of_bind_eq_ok hfinish
    obtain rfl := Except.ok.inj hfinish
    exact hs

theorem Invocation.ensures_fits (n : Nat) :
    reader.Ensures (n + 5) fun call => ∀ c, .callback c ∈ call.arguments → c.Fits n := by
  refine RecordFormat.ensures
    (I := fun s : Draft => ∀ c, .callback c ∈ s.arguments.getD [] → c.Fits n) ?_
    (by simp [format]) ?_
  · simp only [format, List.forall_mem_cons]
    refine ⟨?_, ?_, ?_, ?_, by simp⟩
    · exact .of .trivial fun s source hs _ => hs
    · exact .of .trivial fun s token hs _ => hs
    · exact .of (.list (Argument.ensures_fits n)) fun s as hs has c hc => has _ hc c rfl
    · exact .of .trivial fun s l hs _ => hs
  · intro s call hs hfinish
    obtain ⟨source, -, hfinish⟩ := exists_of_bind_eq_ok hfinish
    obtain ⟨token, -, hfinish⟩ := exists_of_bind_eq_ok hfinish
    obtain rfl := Except.ok.inj hfinish
    exact hs

namespace Event

theorem ensures_fits (n : Nat) : reader.Ensures (n + 6) (Fits n) := by
  refine .tagged ?_
  simp only [List.forall_mem_cons]
  exact ⟨.map (Declaration.ensures_fits (n + 4)), .map (Invocation.ensures_fits n), by simp⟩

theorem fits_of_parseList {text : String} {events : List Event}
    (h : parseList text = .ok events) : ∀ e ∈ events, e.Fits 120 :=
  (Reader.Ensures.list (ensures_fits 120)).of_read h

end Event

/-! ## What fits is read back as it is -/

namespace Descriptor.Fits

variable {n : Nat} {d : Descriptor}

theorem norm_eq (h : d.Fits n) : d.norm = d := norm_eq_self_iff.2 h.1

theorem depth_toJson_le (h : d.Fits n) : d.toJson.depth ≤ n := d.shape.depth_toJson ▸ h.2

end Descriptor.Fits

theorem Locator.depth_toJson (l : Locator) : l.toJson.depth = 1 := rfl

namespace Callback.Fits

variable {n : Nat} {c : Callback}

theorem norm_eq (h : c.Fits n) : c.norm = c := by
  have hparams : c.params.map (·.norm) = c.params :=
    (List.map_congr_left fun d hd => (h.1 d hd).norm_eq).trans (List.map_id _)
  rw [norm, hparams, h.2.norm_eq]

theorem depth_toJson_le (h : c.Fits n) : c.toJson.depth ≤ n + 2 := by
  refine Json.depth_object_le_iff.2 ⟨n + 1, rfl, ?_⟩
  simp only [List.forall_mem_append, List.forall_mem_cons, Json.forall_mem_optional]
  refine ⟨⟨?_, h.2.depth_toJson_le, by simp⟩, fun l _ => ?_⟩
  · refine Json.depth_array_le_iff.2 ⟨n, rfl, List.forall_mem_map.2 fun d hd => ?_⟩
    exact (h.1 d hd).depth_toJson_le
  · rw [l.depth_toJson]
    omega

end Callback.Fits

theorem Argument.depth_toJson_le {a : Argument} {n : Nat} (hnumber : ∀ value, a ≠ .number value)
    (h : ∀ c, a = .callback c → c.Fits n) : a.toJson.depth ≤ n + 3 := by
  cases a with
  | stream known => exact Json.depth_object_le_iff.2 ⟨n + 2, rfl, by simp [Json.depth]⟩
  | name given => exact Json.depth_object_le_iff.2 ⟨n + 2, rfl, by simp [Json.depth]⟩
  | number value => exact absurd rfl (hnumber value)
  | callback signature =>
    have hdepth := (h signature rfl).depth_toJson_le
    exact Json.depth_object_le_iff.2 ⟨n + 2, rfl, by simpa using hdepth⟩

namespace Event

namespace Fits

variable {n : Nat} {e : Event}

theorem norm_eq (h : e.Fits n) : e.norm = e := by
  cases e with
  | declare declaration =>
    have hdescriptor : declaration.descriptor.map (·.norm) = declaration.descriptor := by
      cases hd : declaration.descriptor with
      | none => rfl
      | some d => exact congrArg some (h d hd).norm_eq
    rw [norm, hdescriptor]
  | invoke call =>
    have hargument : ∀ a ∈ call.arguments, a.norm = a := by
      intro a ha
      cases a with
      | callback c => exact congrArg Argument.callback (h c ha).norm_eq
      | stream | name | number => rfl
    rw [norm, (List.map_congr_left hargument).trans (List.map_id _)]

theorem depth_toJson_le (h : e.Fits n) (hnumber : e.Numberless) : e.toJson.depth ≤ n + 6 := by
  cases e with
  | declare declaration =>
    have hdepth : declaration.toJson.depth ≤ n + 5 := by
      refine Json.depth_object_le_iff.2 ⟨n + 4, rfl, ?_⟩
      simp only [List.forall_mem_append, Json.forall_mem_optional]
      refine ⟨⟨by simp [Json.depth], fun d hd => (h d hd).depth_toJson_le⟩, fun l _ => ?_⟩
      rw [l.depth_toJson]
      omega
    exact Json.depth_object_le_iff.2 ⟨n + 5, rfl, by simpa using hdepth⟩
  | invoke call =>
    have hdepth : call.toJson.depth ≤ n + 5 := by
      have harguments : (Json.array (call.arguments.map (·.toJson))).depth ≤ n + 4 := by
        refine Json.depth_array_le_iff.2 ⟨n + 3, rfl, List.forall_mem_map.2 fun a ha => ?_⟩
        exact Argument.depth_toJson_le (fun value heq => hnumber value (heq ▸ ha))
          fun c heq => h c (heq ▸ ha)
      refine Json.depth_object_le_iff.2 ⟨n + 4, rfl, ?_⟩
      simp only [List.forall_mem_append, List.forall_mem_cons, Json.forall_mem_optional]
      refine ⟨⟨by simp [Json.depth], by simp [Json.depth], harguments, by simp⟩, fun l _ => ?_⟩
      rw [l.depth_toJson]
      omega
    exact Json.depth_object_le_iff.2 ⟨n + 5, rfl, by simpa using hdepth⟩

end Fits

/-! ## Writing and reading -/

/-- A list of events as a data text. -/
def listText (events : List Event) : String := (listToJson events).render .compact

theorem parseList_listText {events : List Event} (hnumber : ∀ e ∈ events, e.Numberless)
    (h : (listToJson events).depth ≤ nestingLimit) :
    parseList (listText events) = .ok (events.map (·.norm)) := by
  obtain ⟨room, hroom, hitems⟩ := Json.depth_array_le_iff.1 h
  rw [parseList, listText, Reader.read_render, hroom]
  exact Reader.Recovers.list fun e he =>
    recovers (hnumber e he) (hitems _ (List.mem_map_of_mem he))

/-- Events that were read from a text are read back from their own text as they are. -/
theorem parseList_listText_of_parseList {text : String} {events : List Event}
    (h : parseList text = .ok events) (hnumber : ∀ e ∈ events, e.Numberless) :
    parseList (listText events) = .ok events := by
  have hfits := fits_of_parseList h
  have hdepth : (listToJson events).depth ≤ nestingLimit := by
    refine Json.depth_array_le_iff.2 ⟨126, rfl, List.forall_mem_map.2 fun e he => ?_⟩
    exact (hfits e he).depth_toJson_le (hnumber e he)
  have hnorm : events.map (·.norm) = events :=
    (List.map_congr_left fun e he => (hfits e he).norm_eq).trans (List.map_id _)
  rw [parseList_listText hnumber hdepth, hnorm]

/-- Events without numbers are read back from their text, with records whose only field is `[]`
made arrays, if its brackets nest at most 127 deep. Events without numbers that were read from any
text are read back from their own text as they are, so that a check of either text has the same
result. -/
theorem listText_roundTrip :
    (∀ events : List Event, (∀ e ∈ events, e.Numberless) → (listToJson events).depth ≤ 127 →
      parseList (listText events) = .ok (events.map (·.norm))) ∧
    ∀ (t : String) (events : List Event), parseList t = .ok events →
      (∀ e ∈ events, e.Numberless) →
      parseList (listText events) = .ok events ∧
      ∀ order, (parseList (listText events)).map (check · order) =
        (parseList t).map (check · order) := by
  refine ⟨fun events hnumber h => parseList_listText hnumber h, fun t events h hnumber => ?_⟩
  have hagain := parseList_listText_of_parseList h hnumber
  exact ⟨hagain, fun order => by rw [hagain, h]⟩

/-- Records like arrays in a declaration and in a callback, with a place and without, and an
invocation without arguments. -/
def scanned : List Event :=
  let numbers := Descriptor.record (Dict.empty.insert "[]" (.primitive "number"))
  [ .declare ⟨"n", some numbers, some ⟨"a.ts", 1, 2⟩⟩,
    .declare ⟨"m", none, none⟩,
    .invoke ⟨"n", "map", [.name "\"\n", .callback ⟨[numbers], .tuple [], none⟩], none⟩,
    .invoke ⟨"m", "on", [], none⟩ ]

theorem listText_roundTrip_scanned :
    (∀ e ∈ scanned, e.Numberless) ∧ (listToJson scanned).depth ≤ 127 ∧
    parseList (listText scanned) = .ok (scanned.map (·.norm)) ∧ scanned.map (·.norm) ≠ scanned ∧
    parseList (listText (scanned.map (·.norm))) = .ok (scanned.map (·.norm)) := by
  have hnumber : ∀ e ∈ scanned, e.Numberless := by simp [scanned, Numberless]
  have hnumber' : ∀ e ∈ scanned.map (·.norm), e.Numberless := by
    simp [scanned, Numberless, norm, Argument.norm]
  have hdepth : (listToJson scanned).depth ≤ 127 := by decide
  have hparse := listText_roundTrip.1 scanned hnumber hdepth
  exact ⟨hnumber, hdepth, hparse, by decide,
    (listText_roundTrip.2 _ _ hparse hnumber').1⟩

end Event

end StreamTyping
