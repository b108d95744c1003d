import Mathlib.Data.List.Basic
import StreamTyping.Graph.Drawing

/-!
# Drawings are unambiguous

A drawing tells what it shows, whatever the names and the types of the streams
are. A quote, a backslash or a line break in a name, or a name that looks like
the rest of a line, can not be mistaken for a part of the drawing itself.

* `Legible`: what a text shows can be told, and nothing else can, from any text
  that starts with it. `Legible.lines`: this goes over to lists of lines.
* `readLabel`: a label, read from left to right up to the quote that ends it. A
  backslash takes the next character with it.
* `Stream.pictured` and `Edge.pictured`: what a drawing shows. The line of a
  stream and that of an edge are legible.
* `Graph.drawing_eq_iff_pictured`: two graphs have the same drawing exactly if
  the same is shown of them; and what is read from labels.
-/

namespace StreamTyping

/-! ## Texts that can be told from what follows -/

/-- A way of writing that shows just `view`: from a text that starts with what is written, the view
and the rest of the text can be told. -/
def Legible {α β : Type} (write : α → List Char) (view : α → β) : Prop :=
  ∀ (x y : α) (rest rest' : List Char),
    write x ++ rest = write y ++ rest' ↔ view x = view y ∧ rest = rest'

/-- Lines that all start with the same character, up to something that does not. -/
theorem Legible.lines {α β : Type} {write : α → List Char} {view : α → β} (h : Legible write view)
    {first : Char} (hfirst : ∀ x, (write x).head? = some first) {xs ys : List α}
    {rest rest' : List Char} (hrest : rest.head? ≠ some first) (hrest' : rest'.head? ≠ some first) :
    xs.flatMap write ++ rest = ys.flatMap write ++ rest' ↔
      xs.map view = ys.map view ∧ rest = rest' := by
  have hne : ∀ {rest : List Char}, rest.head? ≠ some first → ∀ x tail, write x ++ tail ≠ rest := by
    intro rest hrest x tail heq
    apply hrest
    rw [← heq, List.head?_append, hfirst, Option.some_or]
  induction xs generalizing ys with
  | nil =>
    cases ys with
    | nil => simp
    | cons y ys => simp [(hne hrest y _).symm]
  | cons x xs ih =>
    cases ys with
    | nil => simp [hne hrest' x]
    | cons y ys =>
      rw [List.flatMap_cons, List.flatMap_cons, List.append_assoc, List.append_assoc,
        List.map_cons, List.map_cons, List.cons.injEq, and_assoc]
      exact (h x y _ _).trans (and_congr_right' ih)

/-- A text up to a character that is not in it. -/
theorem eq_of_append_mark {mark : Char} {a b rest rest' : List Char} (ha : mark ∉ a)
    (hb : mark ∉ b) (heq : a ++ mark :: rest = b ++ mark :: rest') : a = b ∧ rest = rest' := by
  induction a generalizing b with
  | nil =>
    cases b with
    | nil => exact ⟨rfl, (List.cons.inj heq).2⟩
    | cons d b => exact absurd (List.mem_cons.2 (.inl (List.cons.inj heq).1)) hb
  | cons c a ih =>
    cases b with
    | nil => exact absurd (List.mem_cons.2 (.inl (List.cons.inj heq).1.symm)) ha
    | cons d b =>
      obtain ⟨rfl, htail⟩ := List.cons.inj heq
      obtain ⟨rfl, hrest⟩ := ih (fun h => ha (.tail _ h)) (fun h => hb (.tail _ h)) htail
      exact ⟨rfl, hrest⟩

/-- A number up to a character that is no digit. -/
theorem eq_of_toDigits_mark {mark : Char} (hmark : mark.isDigit = false) {m n : Nat}
    {rest rest' : List Char}
    (heq : Nat.toDigits 10 m ++ mark :: rest = Nat.toDigits 10 n ++ mark :: rest') :
    m = n ∧ rest = rest' := by
  have hnot : ∀ k, mark ∉ Nat.toDigits 10 k := by
    intro k hmem
    have hdigit := Nat.isDigit_of_mem_toDigits (by decide) (by decide) hmem
    exact absurd (hdigit.symm.trans hmark) (by decide)
  obtain ⟨hdigits, hrest⟩ := eq_of_append_mark (hnot m) (hnot n) heq
  have hvalue := congrArg (Nat.ofDigitChars 10 · 0) hdigits
  simp only [Nat.ofDigitChars_ten_toDigits] at hvalue
  exact ⟨hvalue, hrest⟩

/-! ## Labels -/

/-- What is read from a label, and what comes after the quote that ends it. -/
structure LabelReading where
  /-- The first line. -/
  line : List Char
  /-- The lines after it. -/
  more : List (List Char)
  rest : List Char
deriving DecidableEq, Repr

namespace LabelReading

/-- With a text in front of the first line. -/
def prepend (text : List Char) (r : LabelReading) : LabelReading :=
  { r with line := text ++ r.line }

/-- With a line break in front of the first line. -/
def breakLine (r : LabelReading) : LabelReading := ⟨[], r.line :: r.more, r.rest⟩

end LabelReading

/-- Reads a label up to the quote that ends it, from its start or from behind a backslash. A
backslash takes the next character with it, and breaks the line if that is an `n`. -/
def readLabel (behindBackslash : Bool) : List Char → Option LabelReading
  | [] => none
  | c :: cs =>
    if behindBackslash then
      (readLabel false cs).map (if c = 'n' then .breakLine else .prepend [c])
    else if c = '"' then some ⟨[], [], cs⟩
    else if c = '\\' then readLabel true cs
    else (readLabel false cs).map (.prepend [c])

/-- A character inside a label: backslashes and quotes are escaped. -/
def labelChar (c : Char) : List Char :=
  if c = '\\' then ['\\', '\\'] else if c = '"' then ['\\', '"'] else [c]

/-- Escaping backslashes and then quotes comes to one pass over the text, as the backslashes in
front of quotes are put there too late to be escaped themselves. -/
theorem escapeChar_escapeChar (text : List Char) :
    escapeChar '"' (escapeChar '\\' text) = text.flatMap labelChar := by
  rw [escapeChar, escapeChar, List.flatMap_assoc]
  refine List.flatMap_congr fun c _ => ?_
  unfold labelChar
  by_cases hslash : c = '\\'
  · simp [hslash]
  · simp [hslash]

theorem labelText_eq (s : String) :
    labelText s = String.ofList (s.toList.flatMap labelChar) := by
  rw [labelText, escapeChar_escapeChar]

theorem readLabel_labelChar (c : Char) (cs : List Char) :
    readLabel false (labelChar c ++ cs) = (readLabel false cs).map (.prepend [c]) := by
  unfold labelChar
  by_cases hslash : c = '\\'
  · simp [hslash, readLabel]
  · by_cases hquote : c = '"'
    · simp [hquote, readLabel]
    · simp [hslash, hquote, readLabel]

/-- An escaped text is read as it was before. -/
theorem readLabel_escaped (text cs : List Char) :
    readLabel false (text.flatMap labelChar ++ cs) =
      (readLabel false cs).map (.prepend text) := by
  induction text with
  | nil => exact (congrFun Option.map_id (readLabel false cs)).symm
  | cons c text ih =>
    rw [List.flatMap_cons, List.append_assoc, readLabel_labelChar, ih, Option.map_map]
    rfl

/-- The label of a stream is read as its name and, on a second line, its type. -/
theorem Stream.readLabel_label (s : Stream) (rest : List Char) :
    readLabel false (s.label.toList ++ '"' :: rest) =
      some ⟨s.name.toList, (s.resolved?.map (·.text.toList)).toList, rest⟩ := by
  have hbreak : ∀ cs, readLabel false ('\\' :: 'n' :: cs) = (readLabel false cs).map .breakLine :=
    fun _ => rfl
  have hend : readLabel false ('"' :: rest) = some ⟨[], [], rest⟩ := rfl
  unfold Stream.label
  cases s.resolved? with
  | none => simp [labelText_eq, readLabel_escaped, hend, LabelReading.prepend]
  | some d =>
    simp [labelText_eq, readLabel_escaped, hend, hbreak, LabelReading.prepend,
      LabelReading.breakLine]

example : readLabel false "say \\\"a\\\\n\\\"\\nnumber\"];".toList =
    some ⟨"say \"a\\n\"".toList, ["number".toList], "];".toList⟩ := by
  decide

/-- A text without quotes and backslashes is read as it is. -/
theorem readLabel_plain {text : List Char} (hquote : '"' ∉ text) (hslash : '\\' ∉ text)
    (rest : List Char) : readLabel false (text ++ '"' :: rest) = some ⟨text, [], rest⟩ := by
  have hplain : text.flatMap labelChar = text := by
    refine (List.flatMap_congr fun c hc => ?_).trans (List.flatMap_singleton' text)
    rw [labelChar, if_neg (ne_of_mem_of_not_mem hc hslash),
      if_neg (ne_of_mem_of_not_mem hc hquote)]
  have hread := readLabel_escaped text ('"' :: rest)
  rw [hplain] at hread
  rw [hread]
  simp [readLabel, LabelReading.prepend]

/-- The characters that numbers are written with. -/
theorem Numeral.mem_chars {n : Numeral} {c : Char} (h : c ∈ n.chars) :
    c.isDigit = true ∨ c ∈ ['-', '.', 'e', '+'] := by
  have hdigits : ∀ m : Nat, c ∈ Nat.toDigits 10 m → c.isDigit = true := fun _ hc =>
    Nat.isDigit_of_mem_toDigits (by decide) (by decide) hc
  have hchar : ∀ d : Digit, d.char.isDigit = true := by decide
  rw [chars, List.mem_append, List.mem_append, List.mem_append] at h
  rcases h with ((hsign | hwhole) | hfraction) | hexponent
  · right
    split at hsign <;> simp_all
  · exact .inl (hdigits _ hwhole)
  · unfold fractionChars at hfraction
    split at hfraction
    · cases hfraction
    · rcases List.mem_cons.1 hfraction with rfl | hmem
      · exact .inr (by decide)
      · obtain ⟨d, -, rfl⟩ := List.mem_map.1 hmem
        exact .inl (hchar d)
  · unfold exponentChars at hexponent
    split at hexponent
    · cases hexponent
    all_goals
      simp only [List.mem_cons] at hexponent
      rcases hexponent with rfl | rfl | hmem
      · exact .inr (by decide)
      · exact .inr (by decide)
      · exact .inl (hdigits _ hmem)

/-- A number has neither quotes nor backslashes. -/
theorem plain_literalText (x : Float) :
    '"' ∉ (literalText x).toList ∧ '\\' ∉ (literalText x).toList := by
  unfold literalText
  split
  · decide
  · split
    · split <;> decide
    · rw [String.toList_ofList]
      refine ⟨fun hmem => ?_, fun hmem => ?_⟩
      all_goals exact absurd (Numeral.mem_chars hmem) (by decide)

theorem plain_operator (operator : Operator) :
    '"' ∉ operator.name.toList ∧ '\\' ∉ operator.name.toList ∧ '(' ∉ operator.name.toList := by
  cases operator <;> decide

theorem Edge.label_of_none {e : Edge} (h : e.literal = none) : e.label = e.operator.name := by
  rw [Edge.label, h]

theorem Edge.label_of_some {e : Edge} {x : Float} (h : e.literal = some x) :
    e.label.toList = e.operator.name.toList ++ '(' :: ((literalText x).toList ++ [')']) := by
  rw [Edge.label, h]
  show (e.operator.name ++ "(" ++ literalText x ++ ")").toList = _
  simp

/-- The label of an edge is read as it is. -/
theorem Edge.readLabel_label (e : Edge) (rest : List Char) :
    readLabel false (e.label.toList ++ '"' :: rest) = some ⟨e.label.toList, [], rest⟩ := by
  obtain ⟨hquote, hslash, -⟩ := plain_operator e.operator
  cases hliteral : e.literal with
  | none =>
    rw [label_of_none hliteral]
    exact readLabel_plain hquote hslash rest
  | some x =>
    obtain ⟨hquote', hslash'⟩ := plain_literalText x
    rw [label_of_some hliteral]
    apply readLabel_plain
    · simp [hquote, hquote']
    · simp [hslash, hslash']

/-! ## What a drawing shows -/

/-- What a drawing shows of a stream. -/
def Stream.pictured (s : Stream) : StreamId × String × Option String × Colour :=
  (s.id, s.name, s.resolved?.map (·.text), s.colour)

/-- What a drawing shows of an edge. -/
def Edge.pictured (e : Edge) : StreamId × StreamId × Operator × Bool × Option String :=
  (e.source, e.target, e.operator, e.weak, e.literal.map literalText)

theorem Colour.name_inj {a b : Colour} (h : a.name = b.name) : a = b := by
  revert h
  cases a <;> cases b <;> decide

theorem Operator.name_inj {a b : Operator} (h : a.name = b.name) : a = b := by
  revert h
  cases a <;> cases b <;> decide

/-- The label of an edge tells its operator and its literal. -/
theorem Edge.label_inj {e f : Edge} (h : e.label = f.label) :
    e.operator = f.operator ∧ e.literal.map literalText = f.literal.map literalText := by
  have hparen : ∀ operator : Operator, '(' ∉ operator.name.toList := fun operator =>
    (plain_operator operator).2.2
  have hlist := congrArg String.toList h
  cases he : e.literal with
  | none =>
    rw [label_of_none he] at hlist
    cases hf : f.literal with
    | none =>
      rw [label_of_none hf] at hlist
      exact ⟨Operator.name_inj (String.toList_inj.1 hlist), rfl⟩
    | some y =>
      rw [label_of_some hf] at hlist
      exact absurd (hlist ▸ List.mem_append_right _ (.head _)) (hparen e.operator)
  | some x =>
    rw [label_of_some he] at hlist
    cases hf : f.literal with
    | none =>
      rw [label_of_none hf] at hlist
      exact absurd (hlist ▸ List.mem_append_right _ (.head _)) (hparen f.operator)
    | some y =>
      rw [label_of_some hf] at hlist
      obtain ⟨hname, hliteral⟩ := eq_of_append_mark (hparen _) (hparen _) hlist
      have htext := String.toList_inj.1 (List.append_cancel_right hliteral)
      exact ⟨Operator.name_inj (String.toList_inj.1 hname), congrArg some htext⟩

/-- Only weak edges are dashed. -/
theorem Edge.style_eq_dashed_iff (e : Edge) : e.style = ", style=dashed" ↔ e.weak = true := by
  unfold Edge.style
  by_cases hweak : e.weak = true
  · simp [hweak]
  · by_cases hinto : e.operator = .into <;> simp [hweak, hinto]

theorem Stream.drawing_append (s : Stream) (rest : List Char) :
    s.drawing.toList ++ rest = "    n".toList ++ (Nat.toDigits 10 s.id ++ ' ' ::
      ("[shape=box, style=filled, fillcolor=".toList ++ (s.colour.name.toList ++ ',' ::
        (" label=\"".toList ++ (s.label.toList ++ '"' :: ("];\n".toList ++ rest)))))) := by
  show ("    n" ++ s.id.repr ++ " [shape=box, style=filled, fillcolor=" ++ s.colour.name ++
    ", label=\"" ++ s.label ++ "\"];\n").toList ++ rest = _
  simp [Nat.toList_repr]

theorem Edge.drawing_append (e : Edge) (rest : List Char) :
    e.drawing.toList ++ rest = "    n".toList ++ (Nat.toDigits 10 e.source ++ ' ' ::
      ("-> n".toList ++ (Nat.toDigits 10 e.target ++ ' ' :: ("[label=\"".toList ++
        (e.label.toList ++ '"' :: (e.style.toList ++ ']' :: (";\n".toList ++ rest))))))) := by
  show ("    n" ++ e.source.repr ++ " -> n" ++ e.target.repr ++ " [label=\"" ++ e.label ++ "\"" ++
    e.style ++ "];\n").toList ++ rest = _
  simp [Nat.toList_repr]

theorem Stream.drawing_of_pictured {s t : Stream} (h : s.pictured = t.pictured) :
    s.drawing = t.drawing := by
  simp only [pictured, Prod.mk.injEq] at h
  obtain ⟨hid, hname, htype, hcolour⟩ := h
  have hlabel : s.label = t.label := by
    unfold label
    rw [hname]
    cases hs : s.resolved? <;> cases ht : t.resolved? <;> simp_all
  unfold drawing
  rw [hid, hcolour, hlabel]

theorem Edge.drawing_of_pictured {e f : Edge} (h : e.pictured = f.pictured) :
    e.drawing = f.drawing := by
  simp only [pictured, Prod.mk.injEq] at h
  obtain ⟨hsource, htarget, hoperator, hweak, hliteral⟩ := h
  have hlabel : e.label = f.label := by
    unfold label
    rw [hoperator]
    cases he : e.literal <;> cases hf : f.literal <;> simp_all
  unfold drawing style
  rw [hsource, htarget, hlabel, hweak, hoperator]

/-- The line of a stream tells what is shown of it, and nothing else. -/
theorem Stream.legible_drawing : Legible (fun s : Stream => s.drawing.toList) pictured := by
  intro s t rest rest'
  refine ⟨fun heq => ?_, fun ⟨hpictured, hrest⟩ => ?_⟩
  case refine_2 => simp only [drawing_of_pictured hpictured, hrest]
  rw [drawing_append, drawing_append] at heq
  obtain ⟨hid, heq⟩ := eq_of_toDigits_mark (by decide) (List.append_cancel_left heq)
  have hcomma : ∀ colour : Colour, ',' ∉ colour.name.toList := by
    intro colour
    cases colour <;> decide
  obtain ⟨hcolour, heq⟩ := eq_of_append_mark (hcomma _) (hcomma _) (List.append_cancel_left heq)
  have hlabel := congrArg (readLabel false) (List.append_cancel_left heq)
  rw [readLabel_label, readLabel_label, Option.some.injEq, LabelReading.mk.injEq] at hlabel
  obtain ⟨hname, htype, hrest⟩ := hlabel
  have htext : s.resolved?.map (·.text) = t.resolved?.map (·.text) := by
    cases hs : s.resolved? <;> cases ht : t.resolved? <;> simp_all [← String.toList_inj]
  rw [pictured, pictured, hid, Colour.name_inj (String.toList_inj.1 hcolour),
    String.toList_inj.1 hname, htext]
  exact ⟨rfl, List.append_cancel_left hrest⟩

/-- The line of an edge tells what is shown of it, and nothing else. -/
theorem Edge.legible_drawing : Legible (fun e : Edge => e.drawing.toList) pictured := by
  intro e f rest rest'
  refine ⟨fun heq => ?_, fun ⟨hpictured, hrest⟩ => ?_⟩
  case refine_2 => simp only [drawing_of_pictured hpictured, hrest]
  rw [drawing_append, drawing_append] at heq
  obtain ⟨hsource, heq⟩ := eq_of_toDigits_mark (by decide) (List.append_cancel_left heq)
  obtain ⟨htarget, heq⟩ := eq_of_toDigits_mark (by decide) (List.append_cancel_left heq)
  have hlabel := congrArg (readLabel false) (List.append_cancel_left heq)
  rw [readLabel_label, readLabel_label, Option.some.injEq, LabelReading.mk.injEq] at hlabel
  obtain ⟨hlabel, -, heq⟩ := hlabel
  have hbracket : ∀ e : Edge, ']' ∉ e.style.toList := by
    intro e
    unfold Edge.style
    repeat' split
    all_goals decide
  obtain ⟨hstyle, hrest⟩ := eq_of_append_mark (hbracket e) (hbracket f) heq
  obtain ⟨hoperator, hliteral⟩ := label_inj (String.toList_inj.1 hlabel)
  have hweak : e.weak = f.weak := by
    rw [Bool.eq_iff_iff, ← e.style_eq_dashed_iff, ← f.style_eq_dashed_iff,
      String.toList_inj.1 hstyle]
  rw [pictured, pictured, hsource, htarget, hoperator, hweak, hliteral]
  exact ⟨rfl, List.append_cancel_left hrest⟩

/-- The lines of streams and of edges are indented. -/
theorem Stream.head?_drawing (s : Stream) : s.drawing.toList.head? = some ' ' := by
  rw [← List.append_nil s.drawing.toList, drawing_append]
  rfl

theorem Edge.head?_drawing (e : Edge) : e.drawing.toList.head? = some ' ' := by
  rw [← List.append_nil e.drawing.toList, drawing_append]
  rfl

/-! ## Whole drawings -/

/-- The part of a drawing after the streams. -/
def arrowText (edges : List Edge) : List Char :=
  (if edges.isEmpty then [] else ['\n']) ++ (edges.flatMap (·.drawing.toList) ++ "\x7d\n".toList)

/-- After the streams comes an empty line or the end, never another stream. -/
theorem head?_arrowText (edges : List Edge) : (arrowText edges).head? ≠ some ' ' := by
  cases edges with
  | nil => decide
  | cons e edges => simp [arrowText]

theorem arrowText_eq_iff {es fs : List Edge} :
    arrowText es = arrowText fs ↔ es.map Edge.pictured = fs.map Edge.pictured := by
  by_cases hempty : es.isEmpty = fs.isEmpty
  · rw [arrowText, arrowText, hempty, List.append_cancel_left_eq,
      Edge.legible_drawing.lines Edge.head?_drawing (by decide) (by decide), and_iff_left rfl]
  · cases es <;> cases fs <;> simp_all [arrowText]

/-- A drawing behind its first lines. -/
theorem Graph.toList_drawing_append (header : String) (g : Graph) :
    (header ++ String.join (g.streams.map (·.drawing)) ++
      (if g.edges.isEmpty then "" else "\n") ++
      String.join (g.edges.map (·.drawing)) ++ "\x7d\n").toList =
    header.toList ++ (g.streams.flatMap (·.drawing.toList) ++ arrowText g.edges) := by
  simp [arrowText, String.toList_join, List.flatMap_map, apply_ite String.toList]

/-- All drawings start alike. -/
theorem Graph.drawing_eq_iff {g h : Graph} :
    g.drawing = h.drawing ↔
      g.streams.flatMap (·.drawing.toList) ++ arrowText g.edges =
        h.streams.flatMap (·.drawing.toList) ++ arrowText h.edges := by
  rw [← String.toList_inj]
  unfold drawing
  rw [toList_drawing_append, toList_drawing_append, List.append_cancel_left_eq]

/-- Two graphs have the same drawing exactly if they have the same streams and edges, in the same
order, as far as drawings show them. The label of a stream, read up to the first quote that is not
escaped, gives back its name and, on a line of its own, its type; that of an edge is read as it
is. -/
theorem Graph.drawing_eq_iff_pictured :
    (∀ g h : Graph, g.drawing = h.drawing ↔
      g.streams.map Stream.pictured = h.streams.map Stream.pictured ∧
        g.edges.map Edge.pictured = h.edges.map Edge.pictured) ∧
    (∀ (s : Stream) (rest : List Char), readLabel false (s.label.toList ++ '"' :: rest) =
      some ⟨s.name.toList, (s.resolved?.map (·.text.toList)).toList, rest⟩) ∧
    ∀ (e : Edge) (rest : List Char), readLabel false (e.label.toList ++ '"' :: rest) =
      some ⟨e.label.toList, [], rest⟩ := by
  refine ⟨fun g h => ?_, Stream.readLabel_label, Edge.readLabel_label⟩
  rw [drawing_eq_iff, Stream.legible_drawing.lines Stream.head?_drawing (head?_arrowText _)
    (head?_arrowText _), arrowText_eq_iff]

end StreamTyping
