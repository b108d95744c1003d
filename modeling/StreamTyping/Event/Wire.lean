import StreamTyping.Descriptor.Reader
import StreamTyping.Event.Basic

/-!
# Events as data texts

How events are written and read. What is absent is left out when writing, the
arguments of an invocation apart, which are always written. When reading, an
absent value may also be given as a null, and absent arguments are no
arguments.
-/

namespace StreamTyping

namespace Callback

/-- The value that a callback is written as. -/
def toJson (c : Callback) : Json :=
  .object ([("params", .array (c.params.map (·.toJson))), ("returns", c.returns.toJson)] ++
    Json.optional "locator" Locator.toJson c.locator)

/-- The fields of a callback read so far. -/
structure Draft where
  params : Option (List Descriptor) := none
  returns : Option Descriptor := none
  locator : Option (Option Locator) := none

/-- How a callback is written. -/
def format : RecordFormat Draft Callback where
  title := "CallbackSignature"
  fields :=
    [ .of "params" (Reader.list Descriptor.reader) Draft.params fun s v =>
        { s with params := some v },
      .of "returns" Descriptor.reader Draft.returns fun s v => { s with returns := some v },
      .of "locator" (Reader.optional Locator.reader) Draft.locator fun s v =>
        { s with locator := some v } ]
  start := {}
  finish s := do
    let params ← RecordFormat.required "params" s.params
    let returns ← RecordFormat.required "returns" s.returns
    return ⟨params, returns, s.locator.join⟩

/-- Reads a callback. -/
def reader : Reader Callback := format.reader

end Callback

namespace Argument

/-- The value that an argument is written as. -/
def toJson : Argument → Json
  | stream known => .object [("stream", .text known)]
  | name given => .object [("name", .text given)]
  | number value => .object [("number", .ofFloat value)]
  | callback signature => .object [("callback", signature.toJson)]

/-- Reads an argument. -/
def reader : Reader Argument :=
  .tagged
    [ ("stream", Reader.text.map stream),
      ("name", Reader.text.map name),
      ("number", Reader.double.map number),
      ("callback", Callback.reader.map callback) ]

end Argument

namespace Declaration

/-- The value that a declaration is written as. -/
def toJson (d : Declaration) : Json :=
  .object ([("name", .text d.name)] ++
    Json.optional "descriptor" Descriptor.toJson d.descriptor ++
    Json.optional "locator" Locator.toJson d.locator)

/-- The fields of a declaration read so far. -/
structure Draft where
  name : Option String := none
  descriptor : Option (Option Descriptor) := none
  locator : Option (Option Locator) := none

/-- How a declaration is written. -/
def format : RecordFormat Draft Declaration where
  title := "DeclareStream"
  fields :=
    [ .of "name" Reader.text Draft.name fun s v => { s with name := some v },
      .of "descriptor" (Reader.optional Descriptor.reader) Draft.descriptor fun s v =>
        { s with descriptor := some v },
      .of "locator" (Reader.optional Locator.reader) Draft.locator fun s v =>
        { s with locator := some v } ]
  start := {}
  finish s := do
    let name ← RecordFormat.required "name" s.name
    return ⟨name, s.descriptor.join, s.locator.join⟩

/-- Reads a declaration. -/
def reader : Reader Declaration := format.reader

end Declaration

namespace Invocation

/-- The value that an invocation is written as. -/
def toJson (call : Invocation) : Json :=
  .object ([("source", .text call.source), ("operator", .text call.token),
      ("arguments", .array (call.arguments.map (·.toJson)))] ++
    Json.optional "locator" Locator.toJson call.locator)

/-- The fields of an invocation read so far. -/
structure Draft where
  source : Option String := none
  token : Option String := none
  arguments : Option (List Argument) := none
  locator : Option (Option Locator) := none

/-- How an invocation is written. -/
def format : RecordFormat Draft Invocation where
  title := "InvokeOperator"
  fields :=
    [ .of "source" Reader.text Draft.source fun s v => { s with source := some v },
      .of "operator" Reader.text Draft.token fun s v => { s with token := some v },
      .of "arguments" (Reader.list Argument.reader) Draft.arguments fun s v =>
        { s with arguments := some v },
      .of "locator" (Reader.optional Locator.reader) Draft.locator fun s v =>
        { s with locator := some v } ]
  start := {}
  finish s := do
    let source ← RecordFormat.required "source" s.source
    let token ← RecordFormat.required "operator" s.token
    return ⟨source, token, s.arguments.getD [], s.locator.join⟩

/-- Reads an invocation. -/
def reader : Reader Invocation := format.reader

end Invocation

namespace Event

/-- The value that an event is written as. -/
def toJson : Event → Json
  | declare declaration => .object [("declare", declaration.toJson)]
  | invoke invocation => .object [("invoke", invocation.toJson)]

/-- Reads an event. -/
def reader : Reader Event :=
  .tagged
    [ ("declare", Declaration.reader.map declare),
      ("invoke", Invocation.reader.map invoke) ]

/-- The value that a list of events is written as. -/
def listToJson (events : List Event) : Json := .array (events.map toJson)

/-- Reads a list of events. -/
def listReader : Reader (List Event) := .list reader

/-- The events that a text lists. -/
def parseList (text : String) : Except ReadError (List Event) := listReader.read text

end Event

end StreamTyping
