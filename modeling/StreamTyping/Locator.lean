import StreamTyping.Json.Reader

/-!
# Places in source files

A `Locator` is a place in a file of the program that is checked. Most things
may come without one, and messages then say that the place is unknown
(`place`).
-/

namespace StreamTyping

/-- A place in a file: line and column. -/
structure Locator where
  file : String
  line : UInt32
  column : UInt32
deriving DecidableEq, Repr

namespace Locator

/-- The text of a place. -/
def text (l : Locator) : String := s!"{l.file} ({l.line.toNat},{l.column.toNat})"

/-- The value that a place is written as. -/
def toJson (l : Locator) : Json :=
  .object [("file", .text l.file), ("line", .ofNat l.line.toNat), ("column", .ofNat l.column.toNat)]

/-- The fields of a place read so far. -/
structure Draft where
  file : Option String := none
  line : Option UInt32 := none
  column : Option UInt32 := none

/-- How a place is written. -/
def format : RecordFormat Draft Locator where
  title := "Locator"
  fields :=
    [ .of "file" Reader.text Draft.file fun s v => { s with file := some v },
      .of "line" Reader.word32 Draft.line fun s v => { s with line := some v },
      .of "column" Reader.word32 Draft.column fun s v => { s with column := some v } ]
  start := {}
  finish s := do
    let file ← RecordFormat.required "file" s.file
    let line ← RecordFormat.required "line" s.line
    let column ← RecordFormat.required "column" s.column
    return ⟨file, line, column⟩

/-- Reads a place. -/
def reader : Reader Locator := format.reader

/-- The place that a text writes. -/
def parse (text : String) : Except ReadError Locator := reader.read text

end Locator

/-- How messages name a place that may not be known. -/
def place : Option Locator → String
  | some l => l.text
  | none => "<unknown>"

end StreamTyping
