import StreamTyping.Descriptor.Reader
import StreamTyping.Report.Basic

/-!
# Reading reports

How reports are read back from data texts.
-/

namespace StreamTyping

namespace EdgeRecord

/-- The fields of an edge read so far. -/
structure Draft where
  operator : Option Operator := none
  weak : Option Bool := none
  child : Option String := none

/-- How an edge is written. -/
def format : RecordFormat Draft EdgeRecord where
  title := "EdgeRecord"
  fields :=
    [ .of "kind" Operator.reader Draft.operator fun s v => { s with operator := some v },
      .of "weak" Reader.boolean Draft.weak fun s v => { s with weak := some v },
      .of "child" Reader.text Draft.child fun s v => { s with child := some v } ]
  start := {}
  finish s := do
    let operator ← RecordFormat.required "kind" s.operator
    let weak ← RecordFormat.required "weak" s.weak
    let child ← RecordFormat.required "child" s.child
    return ⟨operator, weak, child⟩

/-- Reads an edge. -/
def reader : Reader EdgeRecord := format.reader

end EdgeRecord

namespace Report

/-- The fields of a report read so far. -/
structure Draft where
  status : Option Status := none
  errors : Option (List String) := none
  types : Option (Dict Descriptor) := none
  graph : Option (Dict (List EdgeRecord)) := none

/-- How a report is written. -/
def format : RecordFormat Draft Report where
  title := "Report"
  fields :=
    [ .of "status" Status.reader Draft.status fun s v => { s with status := some v },
      .of "errors" (Reader.list Reader.text) Draft.errors fun s v =>
        { s with errors := some v },
      .of "types" (Reader.dict Descriptor.reader) Draft.types fun s v =>
        { s with types := some v },
      .of "graph" (Reader.dict (Reader.list EdgeRecord.reader)) Draft.graph fun s v =>
        { s with graph := some v } ]
  start := {}
  finish s := do
    let status ← RecordFormat.required "status" s.status
    let errors ← RecordFormat.required "errors" s.errors
    let types ← RecordFormat.required "types" s.types
    let graph ← RecordFormat.required "graph" s.graph
    return ⟨status, errors, types, graph⟩

/-- Reads a report. -/
def reader : Reader Report := format.reader

/-- The report that a text writes. -/
def parse (text : String) : Except ReadError Report := reader.read text

end Report

end StreamTyping
