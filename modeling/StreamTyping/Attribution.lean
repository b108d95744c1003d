import StreamTyping.Descriptor.Basic
import StreamTyping.Locator

/-!
# Attributed types

An `Attribution` is a type that a stream takes or gives, with the reason it is
there: the kind of statement that brought it in (`Provenance`) and where that
statement stands.
-/

namespace StreamTyping

/-- The kind of statement that brought a type in. -/
inductive Provenance where
  | explicitDeclaration
  | inferredByPropagation
  | transformedByOperator
  | callbackInput
  | callbackOutput
deriving DecidableEq, Repr

namespace Provenance

/-- The name in data texts. -/
def name : Provenance → String
  | explicitDeclaration => "explicit_declaration"
  | inferredByPropagation => "inferred_by_propagation"
  | transformedByOperator => "transformed_by_operator"
  | callbackInput => "callback_input"
  | callbackOutput => "callback_output"

/-- The words in messages. -/
def text : Provenance → String
  | explicitDeclaration => "explicit declaration"
  | inferredByPropagation => "inferred by propagation"
  | transformedByOperator => "transformed by operator"
  | callbackInput => "callback input"
  | callbackOutput => "callback output"

/-- All kinds, in the order in which messages list them. -/
def all : List Provenance :=
  [explicitDeclaration, inferredByPropagation, transformedByOperator, callbackInput,
    callbackOutput]

/-- The value that a kind is written as. -/
def toJson (p : Provenance) : Json := .text p.name

/-- Reads a kind. -/
def reader : Reader Provenance := .choice (all.map fun p => (p.name, p))

end Provenance

/-- A type, and how it came to be there. -/
structure Attribution where
  descriptor : Descriptor
  provenance : Provenance
  locator : Option Locator := none
deriving DecidableEq

end StreamTyping
