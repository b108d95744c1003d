import StreamTyping.Graph.Basic

/-!
# Diagnostics

A `Finding` is something wrong with the program that is checked, which does
not keep the check from going on. `Finding.diagnostic` puts it into words: a
`Diagnostic` with a code, a message, a hint and related places.
-/

namespace StreamTyping

/-- The kinds of diagnostics. -/
inductive DiagnosticKind where
  | unknownOperator
  | missingCallback
  | arityMismatch
  | typeMismatch
  | untyped
deriving DecidableEq, Repr

/-- The code that stands for a kind. -/
def DiagnosticKind.code : DiagnosticKind → String
  | unknownOperator => "E0100"
  | missingCallback => "E0101"
  | arityMismatch => "E0102"
  | typeMismatch => "E0200"
  | untyped => "E0201"

/-- Another place that a diagnostic speaks of. -/
structure RelatedPlace where
  locator : Option Locator
  label : String
deriving DecidableEq

/-- What the user is told about a finding. -/
structure Diagnostic where
  kind : DiagnosticKind
  locator : Option Locator
  message : String
  hint : Option String := none
  related : List RelatedPlace := []
deriving DecidableEq

namespace Diagnostic

/-- Code and message. -/
def headline (d : Diagnostic) : String := s!"error[{d.kind.code}]: {d.message}"

/-- The headline, and the hint on a line of its own. -/
def text (d : Diagnostic) : String :=
  match d.hint with
  | none => d.headline
  | some hint => d.headline ++ "\n  hint: " ++ hint

/-- Gives a hint, in place of an earlier one. -/
def withHint (d : Diagnostic) (hint : String) : Diagnostic := { d with hint := some hint }

end Diagnostic

/-- What may be wrong with a program. -/
inductive Finding where
  /-- The program invokes an operator that is not known. -/
  | unknownOperator (token : String) (locator : Option Locator)
  /-- A `map` without a callback. -/
  | missingCallback (locator : Option Locator)
  /-- An operator with more callbacks than it takes. -/
  | extraCallbacks (operator : Operator) (count : Nat) (locator : Option Locator)
  /-- A `map` whose callback has not one parameter. -/
  | parameterCount (count : Nat) (locator : Option Locator)
  /-- A stream takes two different types. -/
  | mismatch (stream : String) (first second : Attribution)
  /-- A stream takes no type. -/
  | untyped (stream : String) (locator : Option Locator)
deriving DecidableEq

namespace Finding

/-- The kind of a finding. -/
def kind : Finding → DiagnosticKind
  | unknownOperator .. => .unknownOperator
  | missingCallback .. => .missingCallback
  | extraCallbacks .. | parameterCount .. => .arityMismatch
  | mismatch .. => .typeMismatch
  | untyped .. => .untyped

/-- Where a finding is. -/
def locator : Finding → Option Locator
  | unknownOperator _ l | missingCallback l | extraCallbacks _ _ l | parameterCount _ l
  | untyped _ l => l
  | mismatch _ first _ => first.locator

/-- How many callbacks an operator takes. -/
def callbackLimit : Operator → String
  | .map => "exactly one callback"
  | _ => "at most one callback"

/-- The words for a finding. -/
def message : Finding → String
  | unknownOperator token l => s!"stream method \"{token}\" at {place l} is of undefined type"
  | missingCallback l => s!"map operator at {place l} callback arg was NOT provided"
  | extraCallbacks operator count l =>
    s!"{operator.name} operator at {place l} takes {callbackLimit operator}, found {count}"
  | parameterCount count l =>
    s!"map operator callback at {place l} must take exactly 1 parameter, found {count}"
  | mismatch stream first second =>
    s!"stream \"{stream}\" type {first.descriptor.text} at {place first.locator} " ++
      s!"conflicts with type {second.descriptor.text} at {place second.locator}"
  | untyped stream _ => s!"stream \"{stream}\" has no types at all"

/-- What the user might do. -/
def hint : Finding → Option String
  | unknownOperator .. =>
    some ("supported operators: " ++ ", ".intercalate (Operator.all.map (·.name)))
  | missingCallback .. => some "map needs a one-parameter callback"
  | untyped .. => some "declare its type or feed it from a typed operator"
  | extraCallbacks .. | parameterCount .. | mismatch .. => none

/-- The other places that a finding speaks of. -/
def related : Finding → List RelatedPlace
  | mismatch _ _ second =>
    [⟨second.locator, s!"{second.descriptor.text} ({second.provenance.text})"⟩]
  | unknownOperator .. | missingCallback .. | extraCallbacks .. | parameterCount ..
  | untyped .. => []

/-- A finding in words. -/
def diagnostic (f : Finding) : Diagnostic := ⟨f.kind, f.locator, f.message, f.hint, f.related⟩

end Finding

end StreamTyping
