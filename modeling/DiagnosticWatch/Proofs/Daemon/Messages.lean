import DiagnosticWatch.Proofs.Daemon.Lines
import DiagnosticWatch.Proofs.Wire.Payloads

/-!
# Messages cross the wire unchanged

Every request is read back from the line it is sent on, and so is every response without statistics
of the cache: whatever their texts hold, the line is the first one of the bytes that start with it,
and the other side reads the same message from it (`messages_carried`). Members that are absent stay
absent, and a package that is not known stays unknown.
-/

namespace DiagnosticWatch

open Json (Value Decoder nestingLimit)
open Json.Decoder

namespace Request

theorem isExact_toJson (q : Request) : q.toJson.isExact = true := by
  cases q with
  | hasErrors path => cases path <;> rfl
  | _ => rfl

/-- A request with one field is read from the member of that name. -/
theorem oneField_reads {α : Type} {variants : List (String × Decoder.Variant Request)}
    {variant field : String} {d : Decoder α} {missing : Except Json.Problem α}
    {make : α → Request} {v : Value} {a : α}
    (known : variants.lookup variant = some (oneField variant field d missing make))
    (read : d.Reads 0 v.compact a) :
    (Decoder.oneOf variants).Reads 2 (Value.object [(variant, .object [(field, v)])]).compact
      (make a) := by
  have found : ([Decoder.Field.of field (·.isSome) d fun a (_ : Option α) => some a].find? fun f =>
      f.name = field || f.aliases.contains field) =
        some (.of field (·.isSome) d fun a _ => some a) := by
    simp [Decoder.Field.of]
  apply oneOf_reads_tagged known
  apply record_reads
  · exact .field found rfl read .nil
  · rfl

/-- The path of a request about errors is read back, and that there was none. -/
theorem path_reads (path : Option String) :
    Decoder.text.optional.Reads 0 (Value.ofOption .text path).compact path := by
  cases path with
  | none => exact optional_reads_none _
  | some p => exact optional_reads_some (textAs_reads _ p) rfl nofun

/-- A request is read back. -/
theorem decoder_reads (q : Request) : decoder.Reads 2 q.toJson.compact q := by
  cases q with
  | fileDiagnostics path => exact oneField_reads rfl (textAs_reads _ path)
  | packageDiagnostics name => exact oneField_reads rfl (textAs_reads _ name)
  | hasErrors path => exact oneField_reads rfl (path_reads path)
  | clearFile path => exact oneField_reads rfl (textAs_reads _ path)
  | _ => exact (oneOf_reads_plain rfl).mono (by decide)

end Request

namespace Response

/-- Every number of a response fits its word. Statistics of the cache are not looked at. -/
def InWords : Response → Prop
  | diagnostics r => r.InWords
  | package r => ∀ s ∈ r, s.InWords
  | count c => c.InWords
  | status s => s.InWords
  | _ => True

theorem isExact_toJson {r : Response} (plain : ∀ s, r ≠ .cacheStats s) :
    r.toJson.isExact = true := by
  cases r with
  | diagnostics r => simp [toJson, Value.isExact, Value.exactMembers, r.isExact_toJson]
  | package r =>
      cases r with
      | none => rfl
      | some r =>
          simp [toJson, Value.ofOption, Value.isExact, Value.exactMembers, r.isExact_toJson]
  | status s => simp [toJson, Value.isExact, Value.exactMembers, s.isExact_toJson]
  | cacheStats s => exact absurd rfl (plain s)
  | _ => rfl

/-- A response with a value is read from that value. -/
theorem holding_reads {α : Type} {variants : List (String × Decoder.Variant Response)}
    {variant : String} {d : Decoder α} {make : α → Response} {v : Value} {a : α} {depth : Nat}
    (known : variants.lookup variant = some (holding d make))
    (read : d.Reads depth v.compact a) :
    (Decoder.oneOf variants).Reads (depth + 1) (Value.object [(variant, v)]).compact (make a) :=
  oneOf_reads_tagged known (read.map make)

/-- The result for a package is read back, and that the package was not known. -/
theorem package_reads {r : Option Result} (fits : ∀ s ∈ r, s.InWords) :
    Result.decoder.optional.Reads 3 (Value.ofOption Result.toJson r).compact r := by
  cases r with
  | none => exact (optional_reads_none _).mono (by decide)
  | some r => exact optional_reads_some (Result.decoder_reads (fits r rfl)) r.isExact_toJson nofun

/-- A response without statistics of the cache is read back. -/
theorem decoder_reads {r : Response} (fits : r.InWords) (plain : ∀ s, r ≠ .cacheStats s) :
    decoder.Reads 4 r.toJson.compact r := by
  cases r with
  | diagnostics r => exact holding_reads rfl (Result.decoder_reads fits)
  | package r => exact holding_reads rfl (package_reads fits)
  | hasErrors b => exact (holding_reads rfl (bool_reads b)).mono (by decide)
  | count c => exact (holding_reads rfl (Count.decoder_reads fits)).mono (by decide)
  | cleared b => exact (holding_reads rfl (bool_reads b)).mono (by decide)
  | status s => exact holding_reads rfl (WatchStatus.decoder_reads fits)
  | cacheStats s => exact absurd rfl (plain s)
  | ok => exact (oneOf_reads_plain rfl).mono (by decide)
  | error message => exact (holding_reads rfl (textAs_reads _ message)).mono (by decide)

end Response

/-- A value carries a message: it takes one line, which is the first one of the bytes that start
with it, and the message is read from that line. -/
structure Carries {α : Type} (parse : String → Except Json.Rejection α) (v : Value) (a : α) :
    Prop where
  oneLine : '\n' ∉ v.render.toList
  first : ∀ more, Daemon.firstLine? ((messageLine v).toUTF8 ++ more) = some (messageLine v)
  parsed : parse (messageLine v) = .ok a

theorem carries_of_reads {α : Type} {d : Decoder α} {depth : Nat} {v : Value} {a : α}
    (exact : v.isExact = true) (read : d.Reads depth v.compact a) (shallow : depth ≤ nestingLimit) :
    Carries (Json.decode d) v a := by
  have oneLine : '\n' ∉ v.render.toList := by
    rw [Value.render, String.toList_ofList]
    exact v.newline_not_mem_compact exact
  constructor
  case oneLine => exact oneLine
  case first => exact Daemon.firstLine?_append oneLine
  case parsed => exact Json.decode_line read shallow

/-- Every request, and every response whose numbers fit their words and that holds no statistics of
the cache, is what the other side reads from its line. -/
theorem messages_carried :
    (∀ q : Request, Carries Request.parse q.toJson q) ∧
      ∀ r : Response, r.InWords → (∀ s, r ≠ .cacheStats s) → Carries Response.parse r.toJson r := by
  constructor
  · intro q
    exact carries_of_reads q.isExact_toJson q.decoder_reads (by decide)
  · intro r fits plain
    exact carries_of_reads (r.isExact_toJson plain) (r.decoder_reads fits plain) (by decide)

example : messageLine (Request.hasErrors none).toJson =
    "\x7b\"HasErrors\":\x7b\"path\":null\x7d\x7d\n" := by decide +kernel

/-- A result of one diagnostic, with a text of everything that is escaped, the largest column, and a
length but no start. -/
def knottyResult : Result where
  timestamp := 18446744073709551615
  totalErrors := 1
  totalWarnings := 0
  totalSuggestions := 0
  totalMessages := 0
  diagnostics :=
    [{ file := ⟨"/repo/ä b/\"c\".ts"⟩, line := 1, column := 4294967295
       category := .error, code := 2322
       message := "Type \"a\\b\"\r\n\tis\u0001\x7f \u2028 ☃ 😀", length := some 3 }]
  source := "cache"
  cacheHit := true

theorem messages_carried_knotty :
    Carries Request.parse (Request.hasErrors none).toJson (.hasErrors none) ∧
      Carries Response.parse (Response.package none).toJson (.package none) ∧
      Carries Response.parse (Response.package (some knottyResult)).toJson
        (.package (some knottyResult)) ∧
      Carries Response.parse (Response.status ⟨true, .single, 1, 0, none, []⟩).toJson
        (.status ⟨true, .single, 1, 0, none, []⟩) := by
  have fits : knottyResult.InWords := by constructor <;> decide
  refine ⟨messages_carried.1 _, messages_carried.2 _ nofun nofun, messages_carried.2 _ ?_ nofun,
    messages_carried.2 _ ?_ nofun⟩
  · rintro _ ⟨⟩
    exact fits
  · exact ⟨by decide, by decide, nofun⟩

end DiagnosticWatch
