import StreamTyping.Proofs.Drawings
import StreamTyping.Proofs.Findings

/-!
# Colours and verdicts

A drawing compares the types of a stream with the first of them, and a verdict
compares all of them with each other. Both come to the same: a box is blue if
the verdict says nothing about the stream, salmon if it tells a mismatch, and
gray if it says that the stream takes no type.

* `drawnColours`: the colours of the boxes, read from the text of a drawing.
  `Graph.drawnColours_drawing`: they are those of the streams.
* `Stream.colour_eq_blue_iff` and its likes: what a colour says about the types
  of a stream.
* `Session.drawnColours_agree`: the colours in a drawing and the verdict.
-/

namespace StreamTyping

/-! ## Colours in a text -/

/-- What stands behind the first mark in a text. -/
def behind (mark : Char) (text : List Char) : List Char := (text.dropWhile (· ≠ mark)).drop 1

theorem behind_append {mark : Char} {text : List Char} (h : mark ∉ text) (rest : List Char) :
    behind mark (text ++ mark :: rest) = rest := by
  have hskip : ∀ c ∈ text, decide (c ≠ mark) = true := fun c hc =>
    decide_eq_true fun heq => h (heq ▸ hc)
  rw [behind, List.dropWhile_append_of_pos hskip, List.dropWhile_cons_of_neg (by simp)]
  rfl

theorem takeWhile_append_mark {mark : Char} {text : List Char} (h : mark ∉ text)
    (rest : List Char) : (text ++ mark :: rest).takeWhile (· ≠ mark) = text := by
  have hkeep : ∀ c ∈ text, decide (c ≠ mark) = true := fun c hc =>
    decide_eq_true fun heq => h (heq ▸ hc)
  rw [List.takeWhile_append_of_pos hkeep, List.takeWhile_cons_of_neg (by simp), List.append_nil]

/-- The colours of a number of boxes at most. The lines of boxes are indented; the colour of a box
stands behind the third equals sign, and its label behind the first quote after that. -/
def boxColours : Nat → List Char → List String
  | count + 1, ' ' :: line =>
    let fill := behind '=' (behind '=' (behind '=' line))
    match readLabel false (behind '"' fill) with
    | some label =>
      String.ofList (fill.takeWhile (· ≠ ',')) :: boxColours count (label.rest.drop "];\n".length)
    | none => []
  | _, _ => []

/-- What all drawings start with. -/
def drawingHeader : String :=
  "digraph streams \x7b\n" ++
  "    rankdir=LR;\n" ++
  "    node [fontname=\"Helvetica\", fontsize=10];\n" ++
  "    edge [fontname=\"Helvetica\", fontsize=9];\n" ++
  "\n"

/-- The colours of the boxes of a drawing. -/
def drawnColours (drawing : String) : List String :=
  boxColours drawing.length (drawing.toList.drop drawingHeader.length)

/-- The line of a stream, cut at the marks that its colour and its label are found by. -/
theorem Stream.drawing_marks (t : Stream) (rest : List Char) :
    t.drawing.toList ++ rest =
      ' ' :: (("   n".toList ++ Nat.toDigits 10 t.id ++ " [shape".toList) ++ '=' ::
        ("box, style".toList ++ '=' :: ("filled, fillcolor".toList ++ '=' ::
          (t.colour.name.toList ++ ',' :: (" label=".toList ++ '"' ::
            (t.label.toList ++ '"' :: ("];\n".toList ++ rest))))))) := by
  rw [drawing_append]
  simp

theorem boxColours_succ (count : Nat) (t : Stream) (rest : List Char) :
    boxColours (count + 1) (t.drawing.toList ++ rest) = t.colour.name :: boxColours count rest := by
  have hid : '=' ∉ "   n".toList ++ Nat.toDigits 10 t.id ++ " [shape".toList := by
    have hdigits : '=' ∉ Nat.toDigits 10 t.id := fun h =>
      absurd (Nat.isDigit_of_mem_toDigits (by decide) (by decide) h) (by decide)
    simp [hdigits]
  have hstyle : '=' ∉ "box, style".toList := by decide
  have hfill : '=' ∉ "filled, fillcolor".toList := by decide
  have hcomma : ',' ∉ t.colour.name.toList := by cases t.colour <;> decide
  have hquote : ∀ text, behind '"' (t.colour.name.toList ++ ',' :: (" label=".toList ++
      '"' :: text)) = text := by
    intro text
    have hnone : '"' ∉ t.colour.name.toList ++ ',' :: " label=".toList := by
      cases t.colour <;> decide
    simpa using behind_append hnone text
  rw [t.drawing_marks]
  simp only [boxColours, behind_append hid, behind_append hstyle, behind_append hfill, hquote,
    t.readLabel_label, takeWhile_append_mark hcomma]
  rw [String.ofList_toList]
  rfl

theorem boxColours_lines {count : Nat} {streams : List Stream} (hcount : streams.length ≤ count)
    {rest : List Char} (hrest : rest.head? ≠ some ' ') :
    boxColours count (streams.flatMap (·.drawing.toList) ++ rest) =
      streams.map (·.colour.name) := by
  induction streams generalizing count with
  | nil =>
    unfold boxColours
    split
    · rename_i heq
      exact absurd (congrArg List.head? heq) hrest
    · rfl
  | cons t streams ih =>
    obtain ⟨count, rfl⟩ : ∃ n, count = n + 1 := ⟨count - 1, by simp at hcount; omega⟩
    rw [List.flatMap_cons, List.append_assoc, boxColours_succ, List.map_cons,
      ih (Nat.le_of_succ_le_succ hcount)]

theorem length_le_lines (streams : List Stream) :
    streams.length ≤ (streams.flatMap (·.drawing.toList)).length := by
  rw [List.length_flatMap]
  refine (List.length_map _).symm.trans_le (List.length_le_sum_of_one_le _ fun n hn => ?_)
  obtain ⟨t, -, rfl⟩ := List.mem_map.1 hn
  exact List.length_pos_iff.2 fun hnil => absurd t.head?_drawing (by simp [hnil])

theorem Graph.toList_drawing (g : Graph) : g.drawing.toList =
    drawingHeader.toList ++ (g.streams.flatMap (·.drawing.toList) ++ arrowText g.edges) :=
  g.toList_drawing_append drawingHeader

theorem Graph.drawnColours_drawing (g : Graph) :
    drawnColours g.drawing = g.streams.map (·.colour.name) := by
  have hcount : g.streams.length ≤ g.drawing.length := by
    rw [← String.length_toList, toList_drawing, List.length_append, List.length_append]
    have := length_le_lines g.streams
    omega
  have hheader : drawingHeader.length = drawingHeader.toList.length := String.length_toList.symm
  rw [drawnColours, toList_drawing, hheader, List.drop_left,
    boxColours_lines hcount (head?_arrowText g.edges)]

/-! ## Colours of streams -/

namespace Stream

/-- Types are all the same if they are the same as the first one. -/
theorem uniform_iff_first {t : Stream} {first : Attribution} {rest : List Attribution}
    (h : t.inputs = first :: rest) :
    t.Uniform ↔ (rest.all fun a => a.descriptor = first.descriptor) = true := by
  simp only [Uniform, h, List.all_eq_true, decide_eq_true_eq]
  constructor
  · intro hall a ha
    exact hall a (List.mem_cons_of_mem _ ha) first List.mem_cons_self
  · intro hfirst
    have hall : ∀ a ∈ first :: rest, a.descriptor = first.descriptor := by
      intro a ha
      rcases List.mem_cons.1 ha with rfl | ha
      · rfl
      · exact hfirst a ha
    intro a ha b hb
    rw [hall a ha, hall b hb]

theorem colour_eq_gray_iff {t : Stream} : t.colour = .gray ↔ t.inputs = [] := by
  unfold colour
  split
  · simp [*]
  · split <;> simp [*]

theorem colour_eq_blue_iff {t : Stream} : t.colour = .blue ↔ t.inputs ≠ [] ∧ t.Uniform := by
  unfold colour
  split
  · simp [*]
  · rename_i first rest hinputs
    rw [uniform_iff_first hinputs, hinputs]
    split <;> simp [*]

theorem colour_eq_salmon_iff {t : Stream} : t.colour = .salmon ↔ ¬ t.Uniform := by
  unfold colour
  split
  · simp [Uniform, *]
  · rename_i first rest hinputs
    rw [uniform_iff_first hinputs]
    split <;> simp [*]

/-- A verdict tells a mismatch if there are two different types. -/
theorem exists_mismatch_iff {t : Stream} :
    (∃ d ∈ t.verdict, d.kind = .typeMismatch) ↔ ¬ t.Uniform := by
  rw [← mismatchCount_eq_zero_iff, mismatchCount, List.countP_eq_zero]
  simp

theorem exists_untyped_iff {t : Stream} :
    (∃ d ∈ t.verdict, d.kind = .untyped) ↔ t.inputs = [] := by
  by_cases h : t.inputs = []
  · simp [verdict, h, untypedDiagnostic]
  · simp [verdict, h, mismatchDiagnostic]

end Stream

/-! ## Colours and the verdict on a session -/

theorem Graph.getElem?_drawnColours_iff {g : Graph} {i : StreamId} {t : Stream}
    (h : g.stream? i = some t) (colour : Colour) :
    (drawnColours g.drawing)[i]? = some colour.name ↔ t.colour = colour := by
  rw [drawnColours_drawing, List.getElem?_map, ← stream?, h, Option.map_some, Option.some.injEq]
  exact ⟨Colour.name_inj, congrArg Colour.name⟩

theorem Graph.forall_drawnColours_iff {g : Graph} :
    (∀ colour ∈ drawnColours g.drawing, colour = "lightblue") ↔
      ∀ t ∈ g.streams, t.inputs ≠ [] ∧ t.Uniform := by
  rw [drawnColours_drawing, List.forall_mem_map]
  refine forall₂_congr fun t _ => ?_
  rw [← Stream.colour_eq_blue_iff]
  exact ⟨Colour.name_inj (b := .blue), congrArg Colour.name⟩

/-- A verdict raises what it says about the streams, one stream after another, and the colours in
the drawing of the session agree with it. If nothing was raised before, as after a build without
findings and any propagation, then the check succeeds exactly if all boxes are blue. -/
theorem Session.drawnColours_agree (s : Session) :
    s.verify.diagnostics = s.diagnostics ++ s.graph.streams.flatMap (·.verdict) ∧
    (∀ i t, s.graph.stream? i = some t →
      ((drawnColours s.graph.drawing)[i]? = some "lightsalmon" ↔
        ∃ d ∈ t.verdict, d.kind = .typeMismatch) ∧
      ((drawnColours s.graph.drawing)[i]? = some "lightgray" ↔
        ∃ d ∈ t.verdict, d.kind = .untyped) ∧
      ((drawnColours s.graph.drawing)[i]? = some "lightblue" ↔ t.verdict = [])) ∧
    (s.diagnostics = [] →
      ((∀ colour ∈ drawnColours s.graph.drawing, colour = "lightblue") ↔
        s.verify.status = .success)) := by
  refine ⟨congrArg Session.diagnostics s.verify_eq_verdicts, fun i t ht => ⟨?_, ?_, ?_⟩,
    fun hnone => ?_⟩
  · rw [Stream.exists_mismatch_iff, ← Stream.colour_eq_salmon_iff]
    exact Graph.getElem?_drawnColours_iff ht .salmon
  · rw [Stream.exists_untyped_iff, ← Stream.colour_eq_gray_iff]
    exact Graph.getElem?_drawnColours_iff ht .gray
  · rw [Stream.verdict_eq_nil_iff, ← Stream.colour_eq_blue_iff]
    exact Graph.getElem?_drawnColours_iff ht .blue
  · rw [Graph.forall_drawnColours_iff, verify_status_eq_success_iff_uniform, and_iff_right hnone]

/-- The stream `b` takes no type, and `c` one of its own and one from `a.map`. -/
def mixedEvents : List Event :=
  [ .declare { name := "a", descriptor := some (.primitive "number") },
    .declare { name := "b" },
    .declare { name := "c", descriptor := some (.primitive "number") },
    .invoke
      { source := "a"
        token := "map"
        arguments := [.callback ⟨[.primitive "number"], .primitive "string", none⟩] },
    .invoke { source := "a.map", token := "to", arguments := [.stream "c"] } ]

theorem Session.drawnColours_agree_mixed :
    (∃ s t, s = (pipeline {} mixedEvents .propagate).1 ∧ s.diagnostics = [] ∧
      s.graph.stream? 2 = some t ∧ (drawnColours s.graph.drawing)[2]? = some "lightsalmon" ∧
      (∃ d ∈ t.verdict, d.kind = .typeMismatch) ∧ s.verify.status = .fail ∧
      ¬ ∀ colour ∈ drawnColours s.graph.drawing, colour = "lightblue") ∧
    ∃ s, s = (pipeline {} loopEvents .propagate).1 ∧ s.diagnostics = [] ∧
      s.verify.status = .success ∧
      ∀ colour ∈ drawnColours s.graph.drawing, colour = "lightblue" := by
  constructor
  · obtain ⟨-, hcolours, hblue⟩ := drawnColours_agree (pipeline {} mixedEvents .propagate).1
    have hraised : ∃ t, (pipeline {} mixedEvents .propagate).1.graph.stream? 2 = some t ∧
        ∃ d ∈ t.verdict, d.kind = .typeMismatch := by decide +kernel
    have hnone : (pipeline {} mixedEvents .propagate).1.diagnostics = [] := by decide +kernel
    have hfail : (pipeline {} mixedEvents .propagate).1.verify.status = .fail := by decide +kernel
    obtain ⟨t, ht, hmismatch⟩ := hraised
    refine ⟨_, t, rfl, hnone, ht, (hcolours 2 t ht).1.2 hmismatch, hmismatch, hfail, ?_⟩
    rw [hblue hnone, hfail]
    decide
  · obtain ⟨-, -, hblue⟩ := drawnColours_agree (pipeline {} loopEvents .propagate).1
    have hnone : (pipeline {} loopEvents .propagate).1.diagnostics = [] := by decide +kernel
    have hsuccess : (pipeline {} loopEvents .propagate).1.verify.status = .success := by
      decide +kernel
    exact ⟨_, rfl, hnone, hsuccess, (hblue hnone).2 hsuccess⟩

end StreamTyping
