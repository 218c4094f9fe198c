import DiagnosticWatch.Cache
import DiagnosticWatch.Json.Decoder

/-!
# Diagnostics, results and counters as JSON

Every type has the value it is written as and a decoder that reads it back. A category may also be
read from its number, and the two optional fields of a diagnostic are left out where they are
absent.
-/

namespace DiagnosticWatch

open Json (Value Decoder)

namespace Category

def toJson (c : Category) : Value := .text c.label

/-- Reads a label or a number. -/
def decoder : Decoder Category :=
  Decoder.any.check fun v =>
    match v with
    | .natural n => .ok (ofCode n)
    | .text s => .ok (ofLabel s)
    | _ => .error (.noVariant "CategoryRepr")

end Category

namespace Diagnostic

def number (n : UInt32) : Value := .natural n.toNat

/-- A member that is left out where its number is absent. -/
def optionalMember (name : String) : Option UInt32 → List (String × Value)
  | none => []
  | some n => [(name, number n)]

def toJson (d : Diagnostic) : Value :=
  .object <|
    [("file", .text d.file.text), ("line", number d.line), ("column", number d.column),
      ("category", d.category.toJson), ("code", number d.code), ("message", .text d.message)] ++
    optionalMember "start" d.start ++ optionalMember "length" d.length

structure Draft where
  file : Option String := none
  line : Option UInt32 := none
  column : Option UInt32 := none
  category : Option Category := none
  code : Option UInt32 := none
  message : Option String := none
  start : Option (Option UInt32) := none
  length : Option (Option UInt32) := none

def decoder : Decoder Diagnostic :=
  .record
    { title := "struct Diagnostic"
      start := ({} : Draft)
      fields :=
        [.of "file" (·.file.isSome) .path fun a d => { d with file := some a },
          .of "line" (·.line.isSome) .uint32 fun a d => { d with line := some a },
          .of "column" (·.column.isSome) .uint32 fun a d => { d with column := some a },
          .of "category" (·.category.isSome) Category.decoder
            fun a d => { d with category := some a },
          .of "code" (·.code.isSome) .uint32 fun a d => { d with code := some a },
          .of "message" (·.message.isSome) .text fun a d => { d with message := some a },
          { name := "start", aliases := [], isSet := (·.start.isSome), mayEnd := true
            read := (Decoder.uint32.optional).map fun a d => { d with start := some a } },
          { name := "length", aliases := [], isSet := (·.length.isSome), mayEnd := true
            read := (Decoder.uint32.optional).map fun a d => { d with length := some a } }]
      finish := fun d => do
        let file ← Decoder.required "file" d.file
        let line ← Decoder.required "line" d.line
        let column ← Decoder.required "column" d.column
        let category ← Decoder.required "category" d.category
        let code ← Decoder.required "code" d.code
        let message ← Decoder.required "message" d.message
        return { file := ⟨file⟩, line, column, category, code, message,
                 start := d.start.join, length := d.length.join } }

end Diagnostic

namespace Count

def toJson (c : Count) : Value :=
  .object [("errors", .natural c.errors), ("warnings", .natural c.warnings),
    ("suggestions", .natural c.suggestions)]

structure Draft where
  errors : Option Nat := none
  warnings : Option Nat := none
  suggestions : Option Nat := none

def decoder : Decoder Count :=
  .record
    { title := "struct DiagnosticCount"
      start := ({} : Draft)
      fields :=
        [.of "errors" (·.errors.isSome) .size fun a d => { d with errors := some a },
          .of "warnings" (·.warnings.isSome) .size fun a d => { d with warnings := some a },
          .of "suggestions" (·.suggestions.isSome) .size
            fun a d => { d with suggestions := some a }]
      finish := fun d => do
        let errors ← Decoder.required "errors" d.errors
        let warnings ← Decoder.required "warnings" d.warnings
        let suggestions ← Decoder.required "suggestions" d.suggestions
        return { errors, warnings, suggestions } }

end Count

namespace Result

def toJson (r : Result) : Value :=
  .object
    [("timestamp", .natural r.timestamp), ("totalErrors", .natural r.totalErrors),
      ("totalWarnings", .natural r.totalWarnings),
      ("totalSuggestions", .natural r.totalSuggestions),
      ("totalMessages", .natural r.totalMessages),
      ("diagnostics", .array (r.diagnostics.map Diagnostic.toJson)), ("source", .text r.source),
      ("cacheHit", .bool r.cacheHit)]

structure Draft where
  timestamp : Option Nat := none
  totalErrors : Option Nat := none
  totalWarnings : Option Nat := none
  totalSuggestions : Option Nat := none
  totalMessages : Option Nat := none
  diagnostics : Option (List Diagnostic) := none
  source : Option String := none
  cacheHit : Option Bool := none

def decoder : Decoder Result :=
  .record
    { title := "struct DiagnosticsResult"
      start := ({} : Draft)
      fields :=
        [.of "timestamp" (·.timestamp.isSome) .uint64 fun a d => { d with timestamp := some a },
          .of "totalErrors" (·.totalErrors.isSome) .size
            fun a d => { d with totalErrors := some a },
          .of "totalWarnings" (·.totalWarnings.isSome) .size
            fun a d => { d with totalWarnings := some a },
          .of "totalSuggestions" (·.totalSuggestions.isSome) .size
            fun a d => { d with totalSuggestions := some a },
          .of "totalMessages" (·.totalMessages.isSome) .size
            fun a d => { d with totalMessages := some a },
          .of "diagnostics" (·.diagnostics.isSome) (.list Diagnostic.decoder)
            fun a d => { d with diagnostics := some a },
          .of "source" (·.source.isSome) .text fun a d => { d with source := some a },
          .of "cacheHit" (·.cacheHit.isSome) .bool fun a d => { d with cacheHit := some a }]
      finish := fun d => do
        let timestamp ← Decoder.required "timestamp" d.timestamp
        let totalErrors ← Decoder.required "totalErrors" d.totalErrors
        let totalWarnings ← Decoder.required "totalWarnings" d.totalWarnings
        let totalSuggestions ← Decoder.required "totalSuggestions" d.totalSuggestions
        let totalMessages ← Decoder.required "totalMessages" d.totalMessages
        let diagnostics ← Decoder.required "diagnostics" d.diagnostics
        let source ← Decoder.required "source" d.source
        let cacheHit ← Decoder.required "cacheHit" d.cacheHit
        return { timestamp, totalErrors, totalWarnings, totalSuggestions, totalMessages,
                 diagnostics, source, cacheHit } }

end Result

namespace CacheStats

def toJson (s : CacheStats) : Value :=
  .object
    [("size", .natural s.size), ("capacity", .natural s.capacity), ("hits", .natural s.hits),
      ("misses", .natural s.misses), ("evictions", .natural s.evictions),
      ("hitRate", .real s.hitRate)]

structure Draft where
  size : Option Nat := none
  capacity : Option Nat := none
  hits : Option Nat := none
  misses : Option Nat := none
  evictions : Option Nat := none
  hitRate : Option Float := none

def decoder : Decoder CacheStats :=
  .record
    { title := "struct CacheStats"
      start := ({} : Draft)
      fields :=
        [.of "size" (·.size.isSome) .size fun a d => { d with size := some a },
          .of "capacity" (·.capacity.isSome) .size fun a d => { d with capacity := some a },
          .of "hits" (·.hits.isSome) .uint64 fun a d => { d with hits := some a },
          .of "misses" (·.misses.isSome) .uint64 fun a d => { d with misses := some a },
          .of "evictions" (·.evictions.isSome) .uint64 fun a d => { d with evictions := some a },
          .of "hitRate" (·.hitRate.isSome) .float fun a d => { d with hitRate := some a }]
      finish := fun d => do
        let size ← Decoder.required "size" d.size
        let capacity ← Decoder.required "capacity" d.capacity
        let hits ← Decoder.required "hits" d.hits
        let misses ← Decoder.required "misses" d.misses
        let evictions ← Decoder.required "evictions" d.evictions
        let hitRate ← Decoder.required "hitRate" d.hitRate
        return { size, capacity, hits, misses, evictions, hitRate } }

end CacheStats

end DiagnosticWatch
