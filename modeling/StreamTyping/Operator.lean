import StreamTyping.Json.Reader

/-!
# Stream operators

The operators that programs invoke on streams. A program may write some of
them in more than one way (`Operator.ofToken?`); data texts know each operator
by one name only (`Operator.name`).

* `Operator.into` feeds one stream into another. Every other operator makes a
  new stream, named after its source (`Operator.targetName`).
-/

namespace StreamTyping

/-- A stream operator. -/
inductive Operator where
  /-- Feeds a stream into another one. -/
  | into
  /-- Runs a callback on every value. -/
  | observe
  /-- Changes every value by a callback. -/
  | map
  /-- Lets some values through. -/
  | filter
  /-- Adds the latest values of other streams to every value. -/
  | withLatest
  /-- Gives the latest values of all streams whenever one of them has a new value. -/
  | combineLatest
  /-- Lets values through later. -/
  | delay
deriving DecidableEq, Repr

namespace Operator

/-- The name of an operator. -/
def name : Operator → String
  | into => "to"
  | observe => "on"
  | map => "map"
  | filter => "filter"
  | withLatest => "with"
  | combineLatest => "any"
  | delay => "delay"

/-- All operators, in the order in which messages list them. -/
def all : List Operator := [into, observe, map, filter, withLatest, combineLatest, delay]

/-- The ways in which programs may write an operator. -/
def tokens : Operator → List String
  | into => ["to"]
  | observe => ["on", "do", "subscribe"]
  | map => ["map"]
  | filter => ["filter"]
  | withLatest => ["with", "withLatestFrom"]
  | combineLatest => ["any", "combineLatest"]
  | delay => ["delay"]

/-- The operator that a program writes. -/
def ofToken? (token : String) : Option Operator :=
  all.find? fun op => op.tokens.contains token

/-- The position in the list of all operators. -/
def index (op : Operator) : Nat := all.idxOf op

/-- An invocation makes a stream of its own. -/
def spawns (op : Operator) : Bool := op ≠ into

/-- The name of the stream that an invocation on `source` makes. -/
def targetName (op : Operator) (source : String) : String := s!"{source}.{op.name}"

/-- The value that an operator is written as. -/
def toJson (op : Operator) : Json := .text op.name

/-- Reads an operator by its name. -/
def reader : Reader Operator := .choice (all.map fun op => (op.name, op))

end Operator

end StreamTyping
