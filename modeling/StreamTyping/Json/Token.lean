import StreamTyping.Json.Value

/-!
# Tokens of data texts

`lex` cuts a text into tokens, one character at a time. The scan never fails:
at the first place where no token can be read the list ends with
`Token.invalid`, so that whoever reads the tokens from left to right meets the
problem only when it gets there.

* A string token holds no content if its escapes leave half a surrogate pair
  unpaired: such a string has a place in the grammar but no meaning.
* A number token holds the literal, whatever its range.
-/

namespace StreamTyping

/-- The two kinds of brackets. -/
inductive Bracket where
  | square
  | curly
deriving DecidableEq, Repr

/-- The smallest parts of a data text. -/
inductive Token where
  | opening (bracket : Bracket)
  | closing (bracket : Bracket)
  | comma
  | colon
  | null
  | bool (value : Bool)
  | number (literal : Numeral)
  | text (content : Option String)
  /-- Here no token can be read. -/
  | invalid
deriving DecidableEq, Repr

/-- The blanks that may stand between tokens. -/
def isBlank (c : Char) : Bool := c = ' ' ∨ c = '\t' ∨ c = '\n' ∨ c = '\r'

/-- The value of a hexadecimal digit. -/
def hexValue? (c : Char) : Option Nat :=
  if '0' ≤ c ∧ c ≤ '9' then some (c.toNat - '0'.toNat)
  else if 'a' ≤ c ∧ c ≤ 'f' then some (c.toNat - 'a'.toNat + 10)
  else if 'A' ≤ c ∧ c ≤ 'F' then some (c.toNat - 'A'.toNat + 10)
  else none

/-- The character of an escape of one letter. -/
def shortEscape? (c : Char) : Option Char :=
  if c = '"' ∨ c = '\\' ∨ c = '/' then some c
  else if c = 'b' then some '\x08'
  else if c = 'f' then some '\x0c'
  else if c = 'n' then some '\n'
  else if c = 'r' then some '\r'
  else if c = 't' then some '\t'
  else none

/-- Adds a code point to a string that is being read, newest first. The second
half of a surrogate pair joins the first half into one code point. -/
def addPoint (point : Nat) : List Nat → List Nat
  | [] => [point]
  | last :: points =>
    if 0xD800 ≤ last ∧ last < 0xDC00 ∧ 0xDC00 ≤ point ∧ point < 0xE000 then
      (0x10000 + (last - 0xD800) * 0x400 + (point - 0xDC00)) :: points
    else point :: last :: points

/-- The string of the code points, newest first, unless half a surrogate pair is
among them. -/
def contentOf (points : List Nat) : Option String :=
  if points.all fun p => p < 0xD800 ∨ 0xE000 ≤ p then
    some (String.ofList (points.reverse.map Char.ofNat))
  else none

/-- The part of a number literal that has been read last. -/
inductive NumeralPart where
  /-- The minus sign: a digit has to follow. -/
  | sign
  /-- A leading zero: no digit may follow. -/
  | zero
  | whole
  /-- The point: a digit has to follow. -/
  | point
  | fraction
  /-- The mark of the exponent: a sign or a digit has to follow. -/
  | mark
  /-- The sign of the exponent: a digit has to follow. -/
  | markSign
  | power
deriving DecidableEq, Repr

/-- A number literal that is being read. -/
structure NumeralScan where
  part : NumeralPart
  negative : Bool := false
  whole : Nat := 0
  /-- The digits after the point, newest first. -/
  fraction : List Digit := []
  powerNegative : Bool := false
  power : Nat := 0
deriving DecidableEq, Repr

namespace NumeralScan

/-- The literal read so far, if it may end here. -/
def finish? (n : NumeralScan) : Option Numeral :=
  let literal : Numeral :=
    { negative := n.negative, whole := n.whole, fraction := n.fraction.reverse }
  match n.part with
  | .zero | .whole | .fraction => some literal
  | .power => some { literal with
      exponent := some (if n.powerNegative then -n.power else n.power) }
  | .sign | .point | .mark | .markSign => none

/-- What a character does to a literal that is being read. -/
inductive Next where
  | more (n : NumeralScan)
  /-- The literal ends before this character. -/
  | ended
  /-- This character may not stand here. -/
  | wrong
deriving DecidableEq, Repr

/-- A point or the mark of an exponent may follow a whole part. -/
def afterWhole (n : NumeralScan) (c : Char) : Next :=
  if c = '.' then .more { n with part := .point }
  else if c = 'e' ∨ c = 'E' then .more { n with part := .mark }
  else .ended

/-- A digit of the exponent. -/
def powerDigit (n : NumeralScan) (d : Digit) : NumeralScan :=
  { n with part := .power, power := n.power * 10 + d.val }

/-- Reads the next character of a literal. -/
def next (n : NumeralScan) (c : Char) : Next :=
  match n.part, Digit.ofChar? c with
  | .sign, some d =>
    .more { n with part := if d.val = 0 then .zero else .whole, whole := d.val }
  | .sign, none => .wrong
  | .zero, some _ => .wrong
  | .zero, none => n.afterWhole c
  | .whole, some d => .more { n with whole := n.whole * 10 + d.val }
  | .whole, none => n.afterWhole c
  | .point, some d => .more { n with part := .fraction, fraction := d :: n.fraction }
  | .point, none => .wrong
  | .fraction, some d => .more { n with fraction := d :: n.fraction }
  | .fraction, none =>
    if c = 'e' ∨ c = 'E' then .more { n with part := .mark } else .ended
  | .mark, some d => .more (n.powerDigit d)
  | .mark, none =>
    if c = '+' then .more { n with part := .markSign }
    else if c = '-' then .more { n with part := .markSign, powerNegative := true }
    else .wrong
  | .markSign, some d => .more (n.powerDigit d)
  | .markSign, none => .wrong
  | .power, some d => .more (n.powerDigit d)
  | .power, none => .ended

end NumeralScan

/-- Where a scan stands. -/
inductive ScanState where
  | between
  /-- Inside a word: the characters still to come and the token they complete. -/
  | word (left : List Char) (token : Token)
  | numeral (scan : NumeralScan)
  /-- Inside a string: its code points, newest first. -/
  | text (points : List Nat)
  /-- Behind a backslash. -/
  | escape (points : List Nat)
  /-- Inside an escape by number: the digits still to come and the value so far. -/
  | hex (points : List Nat) (left : Nat) (value : Nat)
  /-- Behind the first place where no token can be read. -/
  | stopped
deriving DecidableEq, Repr

/-- A scan under way. -/
structure Lexer where
  state : ScanState := .between
  /-- The tokens read, newest first. -/
  tokens : List Token := []
deriving DecidableEq, Repr

namespace Lexer

/-- Goes on in another state. -/
def goto (l : Lexer) (state : ScanState) : Lexer := { l with state }

/-- Adds a token, and goes on between tokens. -/
def emit (l : Lexer) (token : Token) : Lexer := ⟨.between, token :: l.tokens⟩

/-- No token can be read here. -/
def stop (l : Lexer) : Lexer := ⟨.stopped, .invalid :: l.tokens⟩

/-- Reads a character between tokens. -/
def start (l : Lexer) (c : Char) : Lexer :=
  if isBlank c then l.goto .between
  else if c = '\x7b' then l.emit (.opening .curly)
  else if c = '\x7d' then l.emit (.closing .curly)
  else if c = '[' then l.emit (.opening .square)
  else if c = ']' then l.emit (.closing .square)
  else if c = ',' then l.emit .comma
  else if c = ':' then l.emit .colon
  else if c = '"' then l.goto (.text [])
  else if c = '-' then l.goto (.numeral ⟨.sign, true, 0, [], false, 0⟩)
  else if c = 'n' then l.goto (.word ['u', 'l', 'l'] .null)
  else if c = 't' then l.goto (.word ['r', 'u', 'e'] (.bool true))
  else if c = 'f' then l.goto (.word ['a', 'l', 's', 'e'] (.bool false))
  else
    match Digit.ofChar? c with
    | some d =>
      l.goto (.numeral ⟨if d.val = 0 then .zero else .whole, false, d.val, [], false, 0⟩)
    | none => l.stop

/-- Reads the next character. -/
def step (l : Lexer) (c : Char) : Lexer :=
  match l.state with
  | .stopped => l
  | .between => l.start c
  | .word left token =>
    match left with
    | [] => l.stop
    | [d] => if c = d then l.emit token else l.stop
    | d :: more => if c = d then l.goto (.word more token) else l.stop
  | .numeral scan =>
    match scan.next c with
    | .more scan => l.goto (.numeral scan)
    | .wrong => l.stop
    | .ended =>
      match scan.finish? with
      | some literal => (l.emit (.number literal)).start c
      | none => l.stop
  | .text points =>
    if c = '"' then l.emit (.text (contentOf points))
    else if c = '\\' then l.goto (.escape points)
    else if c.toNat < 0x20 then l.stop
    else l.goto (.text (c.toNat :: points))
  | .escape points =>
    if c = 'u' then l.goto (.hex points 4 0)
    else
      match shortEscape? c with
      | some d => l.goto (.text (d.toNat :: points))
      | none => l.stop
  | .hex points left value =>
    match hexValue? c with
    | none => l.stop
    | some digit =>
      let value := value * 16 + digit
      if left ≤ 1 then l.goto (.text (addPoint value points))
      else l.goto (.hex points (left - 1) value)

/-- The tokens in order, once the text has ended. -/
def finish (l : Lexer) : List Token :=
  let last : List Token :=
    match l.state with
    | .between | .stopped => []
    | .numeral scan =>
      match scan.finish? with
      | some literal => [.number literal]
      | none => [.invalid]
    | .word _ _ | .text _ | .escape _ | .hex _ _ _ => [.invalid]
  l.tokens.reverse ++ last

end Lexer

/-- The tokens of a text, up to the first place where none can be read. -/
def lex (text : List Char) : List Token := (text.foldl Lexer.step {}).finish

end StreamTyping
