import StreamTyping.Event.Basic

/-!
# Events from a type oracle

A scanner does not know types itself: it asks an oracle about the handles it
finds in the program. A `TypeOracle` answers for every handle, and events are
made from its answers.
-/

namespace StreamTyping

/-- Who knows the types behind the handles of a program. -/
structure TypeOracle (Handle : Type) where
  typeOf : Handle → Descriptor
  /-- The parameters and the result of a callback. -/
  signatureOf : Handle → List Descriptor × Descriptor

namespace TypeOracle

variable {Handle : Type}

/-- An oracle over tables. A type that is not in the table is the primitive
`unknown`, and a callback that is not takes nothing and gives `void`. -/
def ofTables (types : Dict Descriptor) (signatures : Dict (List Descriptor × Descriptor)) :
    TypeOracle String where
  typeOf handle := (types.get? handle).getD (.primitive "unknown")
  signatureOf handle := (signatures.get? handle).getD ([], .primitive "void")

/-- The declaration of a stream whose type the oracle knows. -/
def declareTyped (oracle : TypeOracle Handle) (name : String) (handle : Handle)
    (locator : Option Locator) : Event :=
  .declare ⟨name, some (oracle.typeOf handle), locator⟩

/-- A callback whose types the oracle knows, as an argument. -/
def callbackArgument (oracle : TypeOracle Handle) (handle : Handle)
    (locator : Option Locator) : Argument :=
  let (params, returns) := oracle.signatureOf handle
  .callback ⟨params, returns, locator⟩

end TypeOracle

/-- What a scanner finds in a program. -/
inductive Sighting (Handle : Type) where
  /-- The declaration of a stream, perhaps with a handle for its type. -/
  | declaration (name : String) (handle : Option Handle) (locator : Option Locator)
  /-- An invocation with streams and callbacks as arguments. -/
  | invocation (source token : String) (streams : List String) (callbacks : List Handle)
      (locator : Option Locator)

/-- The event for what a scanner finds. -/
def TypeOracle.event {Handle : Type} (oracle : TypeOracle Handle) : Sighting Handle → Event
  | .declaration name (some handle) locator => oracle.declareTyped name handle locator
  | .declaration name none locator => .declare ⟨name, none, locator⟩
  | .invocation source token streams callbacks locator =>
    .invoke ⟨source, token,
      streams.map .stream ++ callbacks.map (oracle.callbackArgument · locator), locator⟩

end StreamTyping
