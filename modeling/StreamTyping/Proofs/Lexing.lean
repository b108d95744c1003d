import StreamTyping.Json.Token

/-!
# The tokens of a written value

The scan finds in the text of a value exactly the tokens of the value, in
either layout.

A number has no end of its own: its last digit is the end only if what follows
is no digit. So a scan that has come to the end of a value is `Lexer.Done`, and
the token of a number may still be on its way. All that follows a value in a
text is a comma, a closing bracket or a blank, and these end it.

* `Cuts` and `Reads`: what a scan makes of a piece of text, and how pieces are
  put together.
* `cuts_quoted`, `reads_numeral`: strings and numbers.
* `Json.tokens`: the tokens of a value. `Json.lex_chars`: they are what the
  scan finds.
-/

namespace StreamTyping

/-! ## Pieces of text -/

/-- Characters that end a number. -/
def isDelimiter (c : Char) : Bool := isBlank c ∨ c = ',' ∨ c = ']' ∨ c = '\x7d'

theorem not_numeral_of_isDelimiter {c : Char} (h : isDelimiter c = true) :
    Digit.ofChar? c = none ∧ c ≠ '.' ∧ c ≠ 'e' ∧ c ≠ 'E' := by
  simp only [isDelimiter, isBlank, decide_eq_true_eq] at h
  rcases h with (rfl | rfl | rfl | rfl) | rfl | rfl | rfl <;> decide

theorem NumeralScan.next_of_isDelimiter {scan : NumeralScan} {literal : Numeral}
    (h : scan.finish? = some literal) {c : Char} (hc : isDelimiter c = true) :
    scan.next c = .ended := by
  obtain ⟨hdigit, hpoint, he, hE⟩ := not_numeral_of_isDelimiter hc
  obtain ⟨part, _, _, _, _, _⟩ := scan
  cases part <;> simp [finish?] at h <;> simp [next, afterWhole, hdigit, hpoint, he, hE]

/-- A scan has come to the end of a value: the tokens are there, newest first, but if the last
one is a number it may take another character to see it. -/
inductive Lexer.Done : Lexer → List Token → Prop where
  | between (tokens : List Token) : Done ⟨.between, tokens⟩ tokens
  | numeral {scan : NumeralScan} {literal : Numeral} (h : scan.finish? = some literal)
      (tokens : List Token) : Done ⟨.numeral scan, tokens⟩ (.number literal :: tokens)

theorem Lexer.Done.finish {l : Lexer} {tokens : List Token} (h : l.Done tokens) :
    l.finish = tokens.reverse := by
  cases h with
  | between => simp [Lexer.finish]
  | numeral h => simp [Lexer.finish, h]

theorem Lexer.Done.step {l : Lexer} {tokens : List Token} (h : l.Done tokens) {c : Char}
    (hc : isDelimiter c = true) : l.step c = (⟨.between, tokens⟩ : Lexer).step c := by
  cases h with
  | between => rfl
  | numeral h => simp only [Lexer.step, NumeralScan.next_of_isDelimiter h hc, h]; rfl

/-- Scanning the text gives the tokens, and ends between tokens. -/
def Cuts (text : List Char) (tokens : List Token) : Prop :=
  ∀ before, text.foldl Lexer.step ⟨.between, before⟩ = ⟨.between, tokens.reverse ++ before⟩

/-- Scanning the text gives the tokens. -/
def Reads (text : List Char) (tokens : List Token) : Prop :=
  ∀ before, (text.foldl Lexer.step ⟨.between, before⟩).Done (tokens.reverse ++ before)

theorem Cuts.reads {text : List Char} {tokens : List Token} (h : Cuts text tokens) :
    Reads text tokens := fun before => h before ▸ .between _

theorem Cuts.nil : Cuts [] [] := fun _ => rfl

theorem Cuts.append {text rest : List Char} {tokens more : List Token} (h : Cuts text tokens)
    (hrest : Cuts rest more) : Cuts (text ++ rest) (tokens ++ more) := by
  intro before
  rw [List.foldl_append, h, hrest, List.reverse_append, List.append_assoc]

theorem Cuts.append_reads {text rest : List Char} {tokens more : List Token} (h : Cuts text tokens)
    (hrest : Reads rest more) : Reads (text ++ rest) (tokens ++ more) := by
  intro before
  rw [List.foldl_append, h, List.reverse_append, List.append_assoc]
  exact hrest _

theorem Reads.append {text rest : List Char} {tokens more : List Token} (h : Reads text tokens)
    (hrest : Reads rest more) (hdelimiter : ∀ c ∈ rest.head?, isDelimiter c = true) :
    Reads (text ++ rest) (tokens ++ more) := by
  intro before
  rw [List.foldl_append, List.reverse_append, List.append_assoc]
  cases rest with
  | nil =>
    -- There is no token in an empty text.
    have hnone : more = [] := by
      have hempty := hrest []
      rw [List.foldl_nil, List.append_nil] at hempty
      cases hm : more.reverse with
      | nil => exact List.reverse_eq_nil_iff.1 hm
      | cons => rw [hm] at hempty; cases hempty
    rw [hnone]
    exact h before
  | cons c rest =>
    have hc := hdelimiter c rfl
    rw [List.foldl_cons, (h before).step hc, ← List.foldl_cons]
    exact hrest _

theorem Reads.lex {text : List Char} {tokens : List Token} (h : Reads text tokens) :
    lex text = tokens := by
  have hdone := (h []).finish
  rwa [List.append_nil, List.reverse_reverse] at hdone

/-! ## Strings -/

/-- The code points that a string is made of, newest first, give the string. -/
theorem contentOf_eq (cs : List Char) :
    contentOf (cs.map (·.toNat)).reverse = some (String.ofList cs) := by
  have hscalar : ∀ c : Char, c.toNat < 0xD800 ∨ 0xE000 ≤ c.toNat := by
    intro c
    rcases c.valid with h | ⟨h, -⟩
    · exact .inl h
    · exact .inr h
  have hall : ((cs.map (·.toNat)).reverse.all fun p => p < 0xD800 ∨ 0xE000 ≤ p) = true := by
    rw [List.all_reverse, List.all_map, List.all_eq_true]
    exact fun c _ => decide_eq_true (hscalar c)
  rw [contentOf, if_pos hall, List.reverse_reverse, List.map_map]
  have hid : Char.ofNat ∘ Char.toNat = id := funext Char.ofNat_toNat
  rw [hid, List.map_id]

theorem hexValue?_digitChar {n : Nat} (h : n < 16) : hexValue? (Nat.digitChar n) = some n := by
  revert n
  decide

theorem addPoint_of_lt {point : Nat} (h : point < 0xDC00) (points : List Nat) :
    addPoint point points = point :: points := by
  cases points with
  | nil => rfl
  | cons last points => exact if_neg fun hpair => absurd hpair.2.2.1 (Nat.not_le_of_lt h)

/-- A control character is written by its number. -/
theorem foldl_numbered {n : Nat} (h : n < 0x20) (points : List Nat) (before : List Token) :
    ['\\', 'u', '0', '0', Nat.digitChar (n / 16), Nat.digitChar (n % 16)].foldl Lexer.step
      ⟨.text points, before⟩ = ⟨.text (n :: points), before⟩ := by
  have hhigh : hexValue? (Nat.digitChar (n / 16)) = some (n / 16) := hexValue?_digitChar (by omega)
  have hlow : hexValue? (Nat.digitChar (n % 16)) = some (n % 16) := hexValue?_digitChar (by omega)
  have hfront : ['\\', 'u', '0', '0'].foldl Lexer.step ⟨.text points, before⟩ =
      ⟨.hex points 2 0, before⟩ := rfl
  have hvalue : n / 16 * 16 + n % 16 = n := by omega
  show [Nat.digitChar (n / 16), Nat.digitChar (n % 16)].foldl Lexer.step
    (['\\', 'u', '0', '0'].foldl Lexer.step ⟨.text points, before⟩) = _
  rw [hfront]
  simp [Lexer.step, Lexer.goto, hhigh, hlow, hvalue, addPoint_of_lt (show n < 0xDC00 by omega)]

/-- A character inside a string adds its code point, however it is written. -/
theorem foldl_escaped (c : Char) (points : List Nat) (before : List Token) :
    (escaped c).foldl Lexer.step ⟨.text points, before⟩ =
      ⟨.text (c.toNat :: points), before⟩ := by
  by_cases hshort : c ∈ ['"', '\\', '\x08', '\t', '\n', '\x0c', '\r']
  · simp only [List.mem_cons, List.not_mem_nil, or_false] at hshort
    rcases hshort with rfl | rfl | rfl | rfl | rfl | rfl | rfl <;> rfl
  · simp only [List.mem_cons, List.not_mem_nil, or_false, not_or] at hshort
    obtain ⟨hquote, hslash, h₁, h₂, h₃, h₄, h₅⟩ := hshort
    simp only [escaped, hquote, hslash, h₁, h₂, h₃, h₄, h₅, if_false]
    split
    · rename_i hcontrol
      exact foldl_numbered hcontrol points before
    · rename_i hcontrol
      simp [Lexer.step, Lexer.goto, hquote, hslash, hcontrol]

theorem cuts_quoted (s : String) : Cuts (quoted s) [.text (some s)] := by
  intro before
  have hinside : ∀ (cs : List Char) (points : List Nat),
      (cs.flatMap escaped).foldl Lexer.step ⟨.text points, before⟩ =
        ⟨.text ((cs.map (·.toNat)).reverse ++ points), before⟩ := by
    intro cs
    induction cs with
    | nil => exact fun _ => rfl
    | cons c cs ih =>
      intro points
      rw [List.flatMap_cons, List.foldl_append, foldl_escaped, ih, List.map_cons,
        List.reverse_cons, List.append_assoc, List.singleton_append]
  have hopen : Lexer.step ⟨.between, before⟩ '"' = ⟨.text [], before⟩ := rfl
  rw [quoted, List.foldl_cons, hopen, List.foldl_append, hinside, List.append_nil]
  show Lexer.emit _ (.text (contentOf _)) = _
  rw [contentOf_eq, String.ofList_toList]
  rfl

/-! ## Numbers -/

theorem Digit.ofChar?_char (d : Digit) : Digit.ofChar? d.char = some d := by
  revert d
  decide

namespace NumeralScan

/-- Reading the characters leads from one literal to the other. -/
inductive Scans : NumeralScan → List Char → NumeralScan → Prop where
  | nil (scan : NumeralScan) : Scans scan [] scan
  | cons {scan next last : NumeralScan} {c : Char} {cs : List Char}
      (h : scan.next c = .more next) (hlast : Scans next cs last) : Scans scan (c :: cs) last

namespace Scans

theorem append {scan middle last : NumeralScan} {cs ds : List Char} (h : Scans scan cs middle)
    (hlast : Scans middle ds last) : Scans scan (cs ++ ds) last := by
  induction h with
  | nil => exact hlast
  | cons hnext _ ih => exact .cons hnext (ih hlast)

theorem concat {scan middle last : NumeralScan} {cs : List Char} {c : Char}
    (h : Scans scan cs middle) (hlast : middle.next c = .more last) : Scans scan (cs ++ [c]) last :=
  h.append (.cons hlast (.nil last))

theorem foldl {scan last : NumeralScan} {cs : List Char} (h : Scans scan cs last)
    (before : List Token) :
    cs.foldl Lexer.step ⟨.numeral scan, before⟩ = ⟨.numeral last, before⟩ := by
  induction h with
  | nil => rfl
  | cons hnext _ ih =>
    rw [List.foldl_cons, ← ih]
    simp only [Lexer.step, hnext]
    rfl

end Scans

/-- The digits of the whole part. -/
theorem scans_whole (negative : Bool) (n : Nat) :
    Scans ⟨.sign, negative, 0, [], false, 0⟩ (Nat.toDigits 10 n)
      ⟨if n = 0 then .zero else .whole, negative, n, [], false, 0⟩ := by
  induction n using Nat.strongRecOn with
  | ind n ih =>
    by_cases hn : n < 10
    · have hdigit : Digit.ofChar? n.digitChar = some ⟨n, hn⟩ := Digit.ofChar?_char ⟨n, hn⟩
      rw [Nat.toDigits_of_lt_base hn]
      exact .cons (by simp [next, hdigit]) (.nil _)
    · have hdigit : Digit.ofChar? (n % 10).digitChar = some ⟨n % 10, Nat.mod_lt n (by decide)⟩ :=
        Digit.ofChar?_char ⟨n % 10, _⟩
      have hfront := ih (n / 10) (by omega)
      rw [if_neg (by omega)] at hfront
      have hn0 : n ≠ 0 := by omega
      have hvalue : n / 10 * 10 + n % 10 = n := by omega
      rw [Nat.toDigits_of_base_le (by decide) (Nat.le_of_not_lt hn)]
      exact hfront.concat (by simp [next, hdigit, hn0, hvalue])

/-- The digits of an exponent. -/
theorem scans_power (scan : NumeralScan) (n : Nat) :
    Scans { scan with part := .markSign, power := 0 } (Nat.toDigits 10 n)
      { scan with part := .power, power := n } := by
  induction n using Nat.strongRecOn with
  | ind n ih =>
    by_cases hn : n < 10
    · have hdigit : Digit.ofChar? n.digitChar = some ⟨n, hn⟩ := Digit.ofChar?_char ⟨n, hn⟩
      rw [Nat.toDigits_of_lt_base hn]
      exact .cons (by simp [next, powerDigit, hdigit]) (.nil _)
    · have hdigit : Digit.ofChar? (n % 10).digitChar = some ⟨n % 10, Nat.mod_lt n (by decide)⟩ :=
        Digit.ofChar?_char ⟨n % 10, _⟩
      have hvalue : n / 10 * 10 + n % 10 = n := by omega
      rw [Nat.toDigits_of_base_le (by decide) (Nat.le_of_not_lt hn)]
      exact (ih (n / 10) (by omega)).concat (by simp [next, powerDigit, hdigit, hvalue])

/-- The digits after a point. -/
theorem scans_digits (scan : NumeralScan) (before ds : List Digit) :
    Scans { scan with part := .fraction, fraction := before } (ds.map Digit.char)
      { scan with part := .fraction, fraction := ds.reverse ++ before } := by
  induction ds generalizing before with
  | nil => exact .nil _
  | cons d ds ih =>
    rw [List.reverse_cons, List.append_assoc, List.singleton_append]
    exact .cons (by simp [next, d.ofChar?_char]) (ih (d :: before))

/-- A literal that may end, but may also have an exponent. -/
def Significand (scan : NumeralScan) : Prop :=
  scan.part = .zero ∨ scan.part = .whole ∨ scan.part = .fraction

/-- The point and the digits after it. -/
theorem scans_fraction {scan : NumeralScan} (hpart : scan.part = .zero ∨ scan.part = .whole)
    (hfraction : scan.fraction = []) (ds : List Digit) : ∃ part,
    Scans scan (Numeral.fractionChars ds) { scan with part, fraction := ds.reverse } ∧
      Significand { scan with part, fraction := ds.reverse } := by
  cases ds with
  | nil =>
    cases scan
    cases hfraction
    exact ⟨_, .nil _, hpart.imp_right .inl⟩
  | cons d ds =>
    have hpoint : scan.next '.' = .more { scan with part := .point } := by
      have hdigit : Digit.ofChar? '.' = none := by decide
      rcases hpart with hpart | hpart <;> simp [next, afterWhole, hpart, hdigit]
    have hfirst : ({ scan with part := .point } : NumeralScan).next d.char =
        .more { scan with part := .fraction, fraction := [d] } := by
      simp [next, d.ofChar?_char, hfraction]
    refine ⟨.fraction, .cons hpoint (.cons hfirst ?_), .inr (.inr rfl)⟩
    rw [List.reverse_cons]
    exact scans_digits scan [d] ds

/-- The exponent, or none. -/
theorem scans_exponent {scan : NumeralScan} (hpart : scan.Significand)
    (hnegative : scan.powerNegative = false) (hpower : scan.power = 0) (exponent : Option Int) :
    ∃ last, Scans scan (Numeral.exponentChars exponent) last ∧
      last.finish? = some ⟨scan.negative, scan.whole, scan.fraction.reverse, exponent⟩ := by
  have hmark : scan.next 'e' = .more { scan with part := .mark } := by
    have hdigit : Digit.ofChar? 'e' = none := by decide
    rcases hpart with hpart | hpart | hpart <;> simp [next, afterWhole, hpart, hdigit]
  match exponent with
  | none =>
    refine ⟨scan, .nil scan, ?_⟩
    rcases hpart with hpart | hpart | hpart <;> simp [finish?, hpart]
  | some (.ofNat n) =>
    have hsign : ({ scan with part := .mark } : NumeralScan).next '+' =
        .more { scan with part := .markSign, power := 0 } := by
      have hdigit : Digit.ofChar? '+' = none := by decide
      simp [next, hdigit, hpower]
    refine ⟨_, .cons hmark (.cons hsign (scans_power scan n)), ?_⟩
    simp [finish?, hnegative]
  | some (.negSucc n) =>
    have hsign : ({ scan with part := .mark } : NumeralScan).next '-' =
        .more { scan with part := .markSign, powerNegative := true, power := 0 } := by
      have hdigit : Digit.ofChar? '-' = none := by decide
      simp [next, hdigit, hpower]
    refine ⟨_, .cons hmark (.cons hsign (scans_power { scan with powerNegative := true } (n + 1))),
      ?_⟩
    simp [finish?, Int.negSucc_eq]

/-- A literal without its sign. -/
theorem scans_numeral (n : Numeral) : ∃ last,
    Scans ⟨.sign, n.negative, 0, [], false, 0⟩
      (Nat.toDigits 10 n.whole ++ Numeral.fractionChars n.fraction ++
        Numeral.exponentChars n.exponent) last ∧ last.finish? = some n := by
  have hwhole := scans_whole n.negative n.whole
  generalize hpart : (if n.whole = 0 then NumeralPart.zero else .whole) = part at hwhole
  have hends : part = .zero ∨ part = .whole := by
    rw [← hpart]
    split
    · exact .inl rfl
    · exact .inr rfl
  obtain ⟨part, hfraction, hsignificand⟩ := @scans_fraction
    ⟨part, n.negative, n.whole, [], false, 0⟩ hends rfl n.fraction
  obtain ⟨last, hexponent, hlast⟩ := scans_exponent hsignificand rfl rfl n.exponent
  refine ⟨last, (hwhole.append hfraction).append hexponent, ?_⟩
  rw [hlast, List.reverse_reverse]

end NumeralScan

theorem Digit.char_not_mark (d : Digit) : isBlank d.char = false ∧
    d.char ∉ ['\x7b', '\x7d', '[', ']', ',', ':', '"', '-', 'n', 't', 'f'] := by
  revert d
  decide

/-- A number without a sign begins as if a sign had been read. -/
theorem step_digit (d : Digit) (before : List Token) :
    Lexer.step ⟨.between, before⟩ d.char =
      Lexer.step ⟨.numeral ⟨.sign, false, 0, [], false, 0⟩, before⟩ d.char := by
  obtain ⟨hblank, hmark⟩ := d.char_not_mark
  simp only [List.mem_cons, List.not_mem_nil, or_false, not_or] at hmark
  simp [Lexer.step, Lexer.start, Lexer.goto, NumeralScan.next, d.ofChar?_char, hblank, hmark]

theorem exists_toDigits (n : Nat) : ∃ (d : Digit) (cs : List Char),
    Nat.toDigits 10 n = d.char :: cs := by
  induction n using Nat.strongRecOn with
  | ind n ih =>
    by_cases hn : n < 10
    · exact ⟨⟨n, hn⟩, [], Nat.toDigits_of_lt_base hn⟩
    · obtain ⟨d, cs, hcs⟩ := ih (n / 10) (by omega)
      rw [Nat.toDigits_of_base_le (by decide) (Nat.le_of_not_lt hn), hcs]
      exact ⟨d, _, rfl⟩

theorem reads_numeral (n : Numeral) : Reads n.chars [.number n] := by
  intro before
  obtain ⟨last, hscans, hlast⟩ := NumeralScan.scans_numeral n
  suffices hfoldl : n.chars.foldl Lexer.step ⟨.between, before⟩ = ⟨.numeral last, before⟩ by
    rw [hfoldl]
    exact .numeral hlast before
  rw [← hscans.foldl before, Numeral.chars]
  simp only [List.append_assoc]
  cases hnegative : n.negative with
  | true => rfl
  | false =>
    obtain ⟨d, cs, hcs⟩ := exists_toDigits n.whole
    rw [hcs, if_neg Bool.false_ne_true, List.nil_append, List.cons_append, List.foldl_cons,
      step_digit, ← List.foldl_cons]

/-! ## Values -/

namespace Json

mutual

/-- The tokens of a value. -/
def tokens : Json → List Token
  | null => [.null]
  | bool value => [.bool value]
  | number literal => [.number literal]
  | text content => [.text (some content)]
  | array [] => [.opening .square, .closing .square]
  | array (item :: rest) =>
    .opening .square :: (tokens item ++ moreItems rest ++ [.closing .square])
  | object [] => [.opening .curly, .closing .curly]
  | object ((name, value) :: rest) =>
    .opening .curly :: .text (some name) :: .colon ::
      (tokens value ++ moreMembers rest ++ [.closing .curly])

/-- The tokens of items behind the first one. -/
def moreItems : List Json → List Token
  | [] => []
  | item :: rest => .comma :: (tokens item ++ moreItems rest)

/-- The tokens of members behind the first one. -/
def moreMembers : List (String × Json) → List Token
  | [] => []
  | (name, value) :: rest =>
    .comma :: .text (some name) :: .colon :: (tokens value ++ moreMembers rest)

end

end Json

theorem separated_cons (separator text : List Char) (rest : List (List Char)) :
    separated separator (text :: rest) = text ++ rest.flatMap (separator ++ ·) := by
  induction rest generalizing text with
  | nil => rw [separated, List.flatMap_nil, List.append_nil]
  | cons next rest ih =>
    have hnext : separated separator (text :: next :: rest) =
        text ++ separator ++ separated separator (next :: rest) := rfl
    rw [hnext, ih, List.flatMap_cons, List.append_assoc, List.append_assoc]

theorem isDelimiter_of_isBlank {c : Char} (h : isBlank c = true) : isDelimiter c = true := by
  simp [isDelimiter, h]

theorem cuts_blanks {blanks : List Char} (h : ∀ c ∈ blanks, isBlank c = true) : Cuts blanks [] := by
  induction blanks with
  | nil => exact Cuts.nil
  | cons c blanks ih =>
    intro before
    have hstep : Lexer.step ⟨.between, before⟩ c = ⟨.between, before⟩ := by
      simp [Lexer.step, Lexer.start, Lexer.goto, h c (.head _)]
    rw [List.foldl_cons, hstep]
    exact ih (fun d hd => h d (.tail _ hd)) before

namespace Layout

variable (layout : Layout)

theorem cuts_newline (level : Nat) : Cuts (layout.newline level) [] := by
  cases layout with
  | compact => exact Cuts.nil
  | indented =>
    refine cuts_blanks fun c hc => ?_
    rcases List.mem_cons.1 hc with rfl | hc
    · rfl
    · rw [List.eq_of_mem_replicate hc]
      rfl

theorem cuts_gap : Cuts layout.gap [] := by
  cases layout <;> exact fun _ => rfl

/-- What stands before an item that is not the first one. -/
theorem cuts_comma (level : Nat) : Cuts (',' :: layout.newline level) [.comma] :=
  have hcomma : Cuts [','] [.comma] := fun _ => rfl
  hcomma.append (layout.cuts_newline level)

theorem reads_enclose (level : Nat) {bracket : Bracket} {opening closing : Char}
    (hopening : Cuts [opening] [.opening bracket]) (hclosing : Cuts [closing] [.closing bracket])
    (hdelimiter : isDelimiter closing = true) {first : List Char} {rest : List (List Char)}
    {tokens : List Token}
    (h : Reads (separated (',' :: layout.newline (level + 1)) (first :: rest)) tokens) :
    Reads (layout.enclose level opening closing (first :: rest))
      (.opening bracket :: (tokens ++ [.closing bracket])) := by
  have hend : Reads (layout.newline level ++ [closing]) [.closing bracket] :=
    ((layout.cuts_newline level).append hclosing).reads
  have hhead : ∀ c ∈ (layout.newline level ++ [closing]).head?, isDelimiter c = true := by
    cases layout with
    | compact => rintro _ ⟨⟩; exact hdelimiter
    | indented => rintro _ ⟨⟩; rfl
  have hinside := (layout.cuts_newline (level + 1)).append_reads (h.append hend hhead)
  have henclose : layout.enclose level opening closing (first :: rest) =
      [opening] ++ (layout.newline (level + 1) ++
        separated (',' :: layout.newline (level + 1)) (first :: rest) ++ layout.newline level ++
          [closing]) := rfl
  rw [henclose, List.append_assoc, List.append_assoc]
  exact hopening.append_reads hinside

end Layout

/-- Items that are not the first one begin with a comma. -/
theorem isDelimiter_of_mem_head? {separator : List Char} {texts : List (List Char)} :
    ∀ c ∈ (texts.flatMap ((',' :: separator) ++ ·)).head?, isDelimiter c = true := by
  cases texts with
  | nil => nofun
  | cons => rintro _ ⟨⟩; rfl

namespace Json

theorem cuts_name (layout : Layout) (name : String) :
    Cuts (quoted name ++ ':' :: layout.gap) [.text (some name), .colon] :=
  have hcolon : Cuts [':'] [.colon] := fun _ => rfl
  (cuts_quoted name).append (hcolon.append layout.cuts_gap)

mutual

theorem reads_chars (layout : Layout) (level : Nat) :
    (value : Json) → Reads (value.chars layout level) value.tokens
  | null | bool true | bool false => Cuts.reads fun _ => rfl
  | number literal => reads_numeral literal
  | text content => (cuts_quoted content).reads
  | array [] | object [] => Cuts.reads fun _ => rfl
  | array (item :: rest) => by
    have hitems := (reads_chars layout (level + 1) item).append
      (reads_moreItems layout (level + 1) rest) isDelimiter_of_mem_head?
    rw [← separated_cons] at hitems
    exact layout.reads_enclose level (fun _ => rfl) (fun _ => rfl) rfl hitems
  | object ((name, value) :: rest) => by
    have hmembers := ((cuts_name layout name).append_reads
      (reads_chars layout (level + 1) value)).append
      (reads_moreMembers layout (level + 1) rest) isDelimiter_of_mem_head?
    rw [← separated_cons] at hmembers
    exact layout.reads_enclose level (fun _ => rfl) (fun _ => rfl) rfl hmembers

theorem reads_moreItems (layout : Layout) (level : Nat) : (items : List Json) →
    Reads ((itemTexts layout level items).flatMap ((',' :: layout.newline level) ++ ·))
      (moreItems items)
  | [] => Cuts.nil.reads
  | item :: rest =>
    ((layout.cuts_comma level).append_reads (reads_chars layout level item)).append
      (reads_moreItems layout level rest) isDelimiter_of_mem_head?

theorem reads_moreMembers (layout : Layout) (level : Nat) : (members : List (String × Json)) →
    Reads ((memberTexts layout level members).flatMap ((',' :: layout.newline level) ++ ·))
      (moreMembers members)
  | [] => Cuts.nil.reads
  | (name, value) :: rest =>
    ((layout.cuts_comma level).append_reads ((cuts_name layout name).append_reads
      (reads_chars layout level value))).append
      (reads_moreMembers layout level rest) isDelimiter_of_mem_head?

end

/-- The scan of the text of a value, with blanks behind it or not, finds its tokens. -/
theorem lex_chars (layout : Layout) (value : Json) {blanks : List Char}
    (h : ∀ c ∈ blanks, isBlank c = true) : lex (value.chars layout 0 ++ blanks) = value.tokens := by
  have hhead : ∀ c ∈ blanks.head?, isDelimiter c = true := fun c hc =>
    isDelimiter_of_isBlank (h c (List.mem_of_mem_head? hc))
  have hreads := (reads_chars layout 0 value).append (cuts_blanks h).reads hhead
  rw [List.append_nil] at hreads
  exact hreads.lex

end Json

end StreamTyping
