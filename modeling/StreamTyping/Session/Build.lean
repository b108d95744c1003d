import StreamTyping.Event.Basic
import StreamTyping.Session.Basic

/-!
# Building a graph from events

`Session.apply` adds what one event tells to a session, and `Session.build`
adds a list of events. An event that speaks of an unknown stream, or a `to`
without a target, is a `Violation`: it ends the build, and the session keeps
what was added before it.

* A declaration adds its stream and attributes its type to it.
* `to` connects the source with its first stream argument.
* Any other operator makes a stream named after its source, and connects the
  source and all stream arguments with it. The edges of the arguments of
  `with` are weak.
* The callback of `map`, `with` and `any` says which types the new stream
  takes and gives.
-/

namespace StreamTyping

/-- Why an event can not be applied. -/
inductive Violation where
  | unresolvedSource (stream token : String) (locator : Option Locator)
  | unresolvedArgument (stream token : String) (locator : Option Locator)
  | missingTarget (token : String) (locator : Option Locator)
deriving DecidableEq

/-- The text of a violation. -/
def Violation.message : Violation → String
  | unresolvedSource stream token l =>
    s!"\"{token}\" at {place l} is invoked on unknown stream \"{stream}\""
  | unresolvedArgument stream token l =>
    s!"argument of \"{token}\" at {place l} references unknown stream \"{stream}\""
  | missingTarget token l => s!"\"{token}\" at {place l} has no target stream argument"

namespace Graph

/-- The id of a stream that an argument of an invocation speaks of. -/
def resolve (g : Graph) (call : Invocation) (name : String) : Except Violation StreamId :=
  match g.lookup? name with
  | some id => .ok id
  | none => .error (.unresolvedArgument name call.token call.locator)

/-- The streams among the arguments of an invocation, from left to right. A name
makes a new stream if it has to, unless the operator is `to`. -/
def resolveArguments (g : Graph) (call : Invocation) (operator : Operator) :
    List Argument → Graph × Except Violation (List StreamId)
  | [] => (g, .ok [])
  | .number _ :: rest | .callback _ :: rest => g.resolveArguments call operator rest
  | .stream name :: rest =>
    match g.resolve call name with
    | .error violation => (g, .error violation)
    | .ok id =>
      let (g, ids) := g.resolveArguments call operator rest
      (g, ids.map (id :: ·))
  | .name name :: rest =>
    if operator = .into then
      match g.resolve call name with
      | .error violation => (g, .error violation)
      | .ok id =>
        let (g, ids) := g.resolveArguments call operator rest
        (g, ids.map (id :: ·))
    else
      let (g, id) := g.intern name call.locator
      let (g, ids) := g.resolveArguments call operator rest
      (g, ids.map (id :: ·))

/-- Connects the source and the arguments of an invocation with the stream that it
makes. -/
def connectAll (g : Graph) (call : Invocation) (operator : Operator) (source target : StreamId)
    (arguments : List StreamId) : Graph :=
  let label : EdgeLabel := { operator, literal := call.literal, locator := call.locator }
  arguments.foldl
    (fun g argument => g.connect argument target { label with weak := operator = .withLatest })
    (g.connect source target label)

end Graph

namespace Session

/-- The types that a callback attributes to a stream: what it takes and what it gives. -/
def attributeTypes (s : Session) (target : StreamId) (takes gives : Descriptor)
    (locator : Option Locator) : Session :=
  let graph := s.graph.addInput target ⟨takes, .callbackInput, locator⟩
  { s with graph := graph.addOutput target ⟨gives, .callbackOutput, locator⟩ }

/-- Types the stream that a `map` makes: it needs one callback with one parameter. -/
def typeMap (s : Session) (call : Invocation) (target : StreamId) : Session :=
  match call.callbacks with
  | [] => s.note (.missingCallback call.locator)
  | [callback] =>
    let locator := call.callbackLocator callback
    match callback.params with
    | [param] => s.attributeTypes target param callback.returns locator
    | params => s.note (.parameterCount params.length locator)
  | callbacks => s.note (.extraCallbacks .map callbacks.length call.locator)

/-- Types the stream that a `with` or an `any` makes: if there is a callback, it takes
the tuple of the parameters. -/
def typeCombined (s : Session) (call : Invocation) (operator : Operator) (target : StreamId) :
    Session :=
  match call.callbacks with
  | [] => s
  | [callback] =>
    s.attributeTypes target (.tuple callback.params) callback.returns (call.callbackLocator callback)
  | callbacks => s.note (.extraCallbacks operator callbacks.length call.locator)

/-- Types the stream that an invocation makes. -/
def typeTarget (s : Session) (call : Invocation) (operator : Operator) (target : StreamId) :
    Session :=
  match operator with
  | .map => s.typeMap call target
  | .withLatest | .combineLatest => s.typeCombined call operator target
  | .into | .observe | .filter | .delay => s

/-- Connects the source of a `to` with its target, and gives the name of the target. -/
def feed (s : Session) (call : Invocation) (source : StreamId) :
    List StreamId → Session × Except Violation (Option String)
  | [] => (s, .error (.missingTarget call.token call.locator))
  | target :: _ =>
    ({ s with graph :=
        s.graph.connect source target { operator := .into, locator := call.locator } },
      .ok ((s.graph.stream? target).map (·.name)))

/-- Adds the stream that an invocation makes, and gives its name. -/
def spawn (s : Session) (call : Invocation) (operator : Operator) (source : StreamId)
    (arguments : List StreamId) : Session × String :=
  let name := operator.targetName call.source
  let (graph, target) := s.graph.intern name call.locator
  let graph := graph.connectAll call operator source target arguments
  ({ s with graph }.typeTarget call operator target, name)

/-- Adds a declared stream. -/
def declare (s : Session) (declaration : Declaration) : Session :=
  let (graph, id) := s.graph.intern declaration.name declaration.locator
  match declaration.descriptor with
  | none => { s with graph }
  | some descriptor =>
    { s with graph :=
        graph.addInput id ⟨descriptor, .explicitDeclaration, declaration.locator⟩ }

/-- Adds an invocation, and gives the name of the stream that it leads to. An unknown
operator leads nowhere. -/
def invoke (s : Session) (call : Invocation) : Session × Except Violation (Option String) :=
  match s.graph.lookup? call.source with
  | none => (s, .error (.unresolvedSource call.source call.token call.locator))
  | some source =>
    match Operator.ofToken? call.token with
    | none => (s.note (.unknownOperator call.token call.locator), .ok none)
    | some operator =>
      match s.graph.resolveArguments call operator call.arguments with
      | (graph, .error violation) => ({ s with graph }, .error violation)
      | (graph, .ok arguments) =>
        let s := { s with graph }
        if operator = .into then s.feed call source arguments
        else
          let (s, name) := s.spawn call operator source arguments
          (s, .ok (some name))

/-- Adds an event, and gives the name of the stream that it declares or leads to. -/
def apply (s : Session) : Event → Session × Except Violation (Option String)
  | .declare declaration => (s.declare declaration, .ok (some declaration.name))
  | .invoke call => s.invoke call

/-- Adds events one after another, up to the first violation. -/
def build (s : Session) : List Event → Session × Option Violation
  | [] => (s, none)
  | event :: events =>
    match s.apply event with
    | (s, .ok _) => s.build events
    | (s, .error violation) => (s, some violation)

end Session

end StreamTyping
