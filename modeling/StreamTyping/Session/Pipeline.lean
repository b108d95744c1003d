import StreamTyping.Session.Build
import StreamTyping.Session.Verdict

/-!
# Passes

A check runs in passes, each of which needs the ones before it: the graph is
built, types are propagated, and the result is verified. `Session.pipeline`
runs all passes up to a given one, and tells which diagnostics each of them
raised. A violation ends it within the build.
-/

namespace StreamTyping

/-- A pass of a check. -/
inductive Pass where
  | build
  | propagate
  | verify
deriving DecidableEq, Repr

namespace Pass

/-- The name of a pass. -/
def name : Pass → String
  | build => "build"
  | propagate => "propagate"
  | verify => "verify"

/-- All passes, in the order in which they run. -/
def all : List Pass := [build, propagate, verify]

/-- The passes that a pass builds on directly. -/
def inputs : Pass → List Pass
  | build => []
  | propagate => [build]
  | verify => [propagate]

/-- What holds after a pass. -/
def invariants : Pass → String
  | build => "all streams and edges registered, operator types attached"
  | propagate => "every strong child holds each output type of its parents"
  | verify => "diagnostics complete, status decided"

/-- The number of passes that a pass builds on, directly or not. -/
def rank : Pass → Nat
  | build => 0
  | propagate => 1
  | verify => 2

theorem rank_lt_of_mem_inputs {p q : Pass} : q ∈ p.inputs → q.rank < p.rank := by
  cases p <;> cases q <;> decide

/-- A walk over passes. -/
structure Walk where
  /-- The passes that the walk has come to. -/
  visited : List Pass := []
  /-- The passes that the walk is done with, in the order in which they run. -/
  order : List Pass := []

/-- Walks to a pass, unless the walk has been there: first to all that it builds on. -/
def visit (walk : Walk) (pass : Pass) : Walk :=
  if pass ∈ walk.visited then walk
  else
    let walk := pass.inputs.attach.foldl (fun walk input => visit walk input.1)
      { walk with visited := pass :: walk.visited }
    { walk with order := walk.order ++ [pass] }
termination_by pass.rank
decreasing_by exact rank_lt_of_mem_inputs input.2

/-- The passes that run up to a pass, itself included. -/
def required (terminal : Pass) : List Pass := (visit {} terminal).order

@[simp] theorem required_build : required build = [build] := by decide +kernel

@[simp] theorem required_propagate : required propagate = [build, propagate] := by decide +kernel

@[simp] theorem required_verify : required verify = [build, propagate, verify] := by
  decide +kernel

end Pass

/-- A pass that has run, and the diagnostics that it raised. -/
structure PassRun where
  pass : Pass
  raised : List Diagnostic

namespace Session

/-- Runs a pass; the events are for the build. -/
def runPass (s : Session) (events : List Event) : Pass → Session × Option Violation
  | .build => s.build events
  | .propagate =>
    let (graph, stats) := s.graph.propagate s.order
    ({ s with graph, propagation := some stats }, none)
  | .verify => (s.verify, none)

/-- Runs passes one after another, up to the first violation. -/
def runPasses (s : Session) (events : List Event) :
    List Pass → Session × List PassRun × Option Violation
  | [] => (s, [], none)
  | pass :: passes =>
    match s.runPass events pass with
    | (after, some violation) => (after, [], some violation)
    | (after, none) =>
      let raised := after.diagnostics.drop s.diagnostics.length
      let (last, runs, violation) := after.runPasses events passes
      (last, ⟨pass, raised⟩ :: runs, violation)

/-- Runs all passes up to a given one. -/
def pipeline (s : Session) (events : List Event) (terminal : Pass) :
    Session × List PassRun × Option Violation :=
  s.runPasses events terminal.required

end Session

end StreamTyping
