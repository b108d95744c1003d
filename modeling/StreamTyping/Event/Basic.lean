import StreamTyping.Descriptor.Basic
import StreamTyping.Locator

/-!
# Events

What a scanner tells about a program, one event after another: a stream is
declared, or an operator is invoked on a stream. An invocation holds the
operator as the program writes it, whether or not it is a known one.
-/

namespace StreamTyping

/-- The types that a callback takes and gives. -/
structure Callback where
  params : List Descriptor
  returns : Descriptor
  locator : Option Locator := none
deriving DecidableEq

/-- An argument of an invocation. -/
inductive Argument where
  /-- A stream that has to be known. -/
  | stream (name : String)
  /-- The name of a stream, which may be new. -/
  | name (name : String)
  | number (value : Float)
  | callback (signature : Callback)
deriving DecidableEq

/-- A stream is declared, perhaps with its type. -/
structure Declaration where
  name : String
  descriptor : Option Descriptor := none
  locator : Option Locator := none
deriving DecidableEq

/-- An operator is invoked on a stream. -/
structure Invocation where
  source : String
  /-- The operator as the program writes it. -/
  token : String
  arguments : List Argument := []
  locator : Option Locator := none
deriving DecidableEq

/-- What a scanner tells. -/
inductive Event where
  | declare (declaration : Declaration)
  | invoke (invocation : Invocation)
deriving DecidableEq

namespace Invocation

/-- The number among the arguments; of several the last counts. -/
def literal (call : Invocation) : Option Float :=
  (call.arguments.filterMap fun
    | .number value => some value
    | _ => none).getLast?

/-- The callbacks among the arguments. -/
def callbacks (call : Invocation) : List Callback :=
  call.arguments.filterMap fun
    | .callback signature => some signature
    | _ => none

/-- The place of a callback, or else that of the invocation. -/
def callbackLocator (call : Invocation) (callback : Callback) : Option Locator :=
  callback.locator <|> call.locator

end Invocation

end StreamTyping
