import DiagnosticWatch.Wire.Diagnostic
import DiagnosticWatch.Wire.Status

/-!
# Messages between client and daemon

A client sends one request per connection and the daemon answers it with one response, each a JSON
text on one line.
-/

namespace DiagnosticWatch

open Json (Value Decoder)

inductive Request
  | allDiagnostics
  | fileDiagnostics (path : String)
  | packageDiagnostics (name : String)
  | hasErrors (path : Option String)
  | count
  | clearFile (path : String)
  | clearAll
  | status
  | cacheStats
  | shutdown
  deriving DecidableEq, Repr, Inhabited

/-- What the daemon answers. The answer about a package that is not known holds no result. -/
inductive Response
  | diagnostics (r : Result)
  | package (r : Option Result)
  | hasErrors (b : Bool)
  | count (c : Count)
  | cleared (b : Bool)
  | status (s : WatchStatus)
  | cacheStats (s : CacheStats)
  | ok
  | error (message : String)
  deriving Inhabited

namespace Request

def toJson : Request → Value
  | allDiagnostics => .text "AllDiagnostics"
  | fileDiagnostics path => .object [("FileDiagnostics", .object [("path", .text path)])]
  | packageDiagnostics name => .object [("PackageDiagnostics", .object [("name", .text name)])]
  | hasErrors path => .object [("HasErrors", .object [("path", .ofOption .text path)])]
  | count => .text "Count"
  | clearFile path => .object [("ClearFile", .object [("path", .text path)])]
  | clearAll => .text "ClearAll"
  | status => .text "Status"
  | cacheStats => .text "CacheStats"
  | shutdown => .text "Shutdown"

def oneField (variant field : String) (d : Decoder α) (missing : Except Json.Problem α)
    (make : α → Request) : Decoder.Variant Request :=
  .tagged "struct variant" <|
    .record
      { title := "struct variant DaemonRequest::" ++ variant
        start := (none : Option α)
        fields := [.of field (·.isSome) d fun a _ => some a]
        finish := fun draft =>
          match draft with
          | some a => .ok (make a)
          | none => missing.map make }

def decoder : Decoder Request :=
  let text (variant field : String) (make : String → Request) : String × Decoder.Variant Request :=
    (variant, oneField variant field .text (.error (.missingField field)) make)
  .oneOf
    [("AllDiagnostics", .plain allDiagnostics),
      text "FileDiagnostics" "path" fileDiagnostics,
      text "PackageDiagnostics" "name" packageDiagnostics,
      ("HasErrors", oneField "HasErrors" "path" Decoder.text.optional (.ok none) hasErrors),
      ("Count", .plain count),
      text "ClearFile" "path" clearFile,
      ("ClearAll", .plain clearAll),
      ("Status", .plain status),
      ("CacheStats", .plain cacheStats),
      ("Shutdown", .plain shutdown)]

end Request

namespace Response

def toJson : Response → Value
  | diagnostics r => .object [("Diagnostics", r.toJson)]
  | package r => .object [("Package", .ofOption Result.toJson r)]
  | hasErrors b => .object [("HasErrors", .bool b)]
  | count c => .object [("Count", c.toJson)]
  | cleared b => .object [("Cleared", .bool b)]
  | status s => .object [("Status", s.toJson)]
  | cacheStats s => .object [("CacheStats", s.toJson)]
  | ok => .text "Ok"
  | error message => .object [("Error", .text message)]

def holding (d : Decoder α) (make : α → Response) : Decoder.Variant Response :=
  .tagged "newtype variant" (d.map make)

def decoder : Decoder Response :=
  .oneOf
    [("Diagnostics", holding Result.decoder diagnostics),
      ("Package", holding Result.decoder.optional package),
      ("HasErrors", holding .bool hasErrors),
      ("Count", holding Count.decoder count),
      ("Cleared", holding .bool cleared),
      ("Status", holding WatchStatus.decoder status),
      ("CacheStats", holding CacheStats.decoder cacheStats),
      ("Ok", .plain ok),
      ("Error", holding .text error)]

end Response

/-- The line that carries a JSON value. -/
def messageLine (v : Value) : String :=
  v.render ++ "\n"

def Request.parse (line : String) : Except Json.Rejection Request :=
  Json.decode decoder line

def Response.parse (line : String) : Except Json.Rejection Response :=
  Json.decode decoder line

end DiagnosticWatch
