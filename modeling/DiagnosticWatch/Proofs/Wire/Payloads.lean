import DiagnosticWatch.Proofs.Json.Decoder
import DiagnosticWatch.Wire.Diagnostic
import DiagnosticWatch.Wire.Status

/-!
# What messages carry is read back

Diagnostics, results, counts and statuses are read back from what they are written as, given that
every number in them fits the word that carries it. Nothing depends on what their texts hold, and
members that are left out or `null` are read as absent.
-/

namespace DiagnosticWatch

open Json (Value Decoder wordLimit)
open Json.Decoder

theorem Category.decoder_reads (c : Category) : Category.decoder.Reads 0 c.toJson.compact c := by
  apply (any_reads_text c.label).check
  simp

namespace Diagnostic

theorem isExact_toJson (d : Diagnostic) : d.toJson.isExact = true := by
  obtain ⟨file, line, column, category, code, message, start, length⟩ := d
  cases start <;> cases length <;> rfl

/-- A member that may be left out sets its field, or leaves it unset. -/
theorem fills_optionalMember {fields : List (Decoder.Field Draft)} {draft : Draft} {name : String}
    {field : Decoder.Field Draft} (set : Option (Option UInt32) → Draft → Draft)
    (found : (fields.find? fun f => f.name = name || f.aliases.contains name) = some field)
    (unset : field.isSet draft = false)
    (read : field.read = (Decoder.uint32.optional).map fun n => set (some n))
    (absent : set none draft = draft) (n : Option UInt32) :
    Fills fields 0 draft (optionalMember name n) (set (n.map some) draft) := by
  cases n with
  | none =>
      rw [Option.map_none, absent]
      exact .nil
  | some n =>
      have value := (optional_reads_some (uint32_reads n) rfl nofun).map fun n => set (some n)
      exact .cons found unset (read ▸ value) .nil

/-- A diagnostic is read back, with or without its place in the text. -/
theorem decoder_reads (d : Diagnostic) : decoder.Reads 1 d.toJson.compact d := by
  obtain ⟨file, line, column, category, code, message, start, length⟩ := d
  apply record_reads
  · apply Fills.append
    · apply Fills.append
      · exact .field rfl rfl (textAs_reads _ _) <| .field rfl rfl (uint32_reads _) <|
          .field rfl rfl (uint32_reads _) <| .field rfl rfl category.decoder_reads <|
          .field rfl rfl (uint32_reads _) <| .field rfl rfl (textAs_reads _ _) .nil
      · exact fills_optionalMember (fun n d => { d with start := n }) rfl rfl rfl rfl start
    · exact fills_optionalMember (fun n d => { d with length := n }) rfl rfl rfl rfl length
  · cases start <;> cases length <;> rfl

end Diagnostic

/-- A size that fits its word is read back. -/
theorem size_reads {n : Nat} (fits : n ≤ wordLimit) :
    Decoder.size.Reads 0 (Value.natural n).compact n :=
  natural_reads fits fits "usize"

theorem uint64_reads {n : Nat} (fits : n ≤ wordLimit) :
    Decoder.uint64.Reads 0 (Value.natural n).compact n :=
  natural_reads fits fits "u64"

/-- Every number of a count fits its word. -/
structure Count.InWords (c : Count) : Prop where
  errors : c.errors ≤ wordLimit
  warnings : c.warnings ≤ wordLimit
  suggestions : c.suggestions ≤ wordLimit

theorem Count.decoder_reads {c : Count} (fits : c.InWords) :
    Count.decoder.Reads 1 c.toJson.compact c := by
  apply record_reads
  · exact .field rfl rfl (size_reads fits.errors) <| .field rfl rfl (size_reads fits.warnings) <|
      .field rfl rfl (size_reads fits.suggestions) .nil
  · rfl

/-- Every number of a result fits its word; those of its diagnostics do anyway. -/
structure Result.InWords (r : Result) : Prop where
  timestamp : r.timestamp ≤ wordLimit
  totalErrors : r.totalErrors ≤ wordLimit
  totalWarnings : r.totalWarnings ≤ wordLimit
  totalSuggestions : r.totalSuggestions ≤ wordLimit
  totalMessages : r.totalMessages ≤ wordLimit

namespace Result

theorem isExact_toJson (r : Result) : r.toJson.isExact = true := by
  simp [toJson, Value.isExact, Value.exactMembers,
    Value.exactItems_map Diagnostic.isExact_toJson]

/-- A result is read back. -/
theorem decoder_reads {r : Result} (fits : r.InWords) :
    decoder.Reads 3 r.toJson.compact r := by
  have diagnostics : (Decoder.list Diagnostic.decoder).Reads 2
      (Value.array (r.diagnostics.map Diagnostic.toJson)).compact r.diagnostics :=
    list_reads (fun d _ => d.decoder_reads) fun d _ => d.isExact_toJson
  apply record_reads
  · exact .field rfl rfl ((uint64_reads fits.timestamp).mono (by decide)) <|
      .field rfl rfl ((size_reads fits.totalErrors).mono (by decide)) <|
      .field rfl rfl ((size_reads fits.totalWarnings).mono (by decide)) <|
      .field rfl rfl ((size_reads fits.totalSuggestions).mono (by decide)) <|
      .field rfl rfl ((size_reads fits.totalMessages).mono (by decide)) <|
      .field rfl rfl diagnostics <|
      .field rfl rfl ((textAs_reads "a string" r.source).mono (by decide)) <|
      .field rfl rfl ((bool_reads r.cacheHit).mono (by decide)) .nil
  · rfl

end Result

theorem WatchMode.decoder_reads (m : WatchMode) :
    WatchMode.decoder.Reads 0 m.toJson.compact m := by
  apply oneOf_reads_plain
  cases m <;> rfl

theorem ProjectState.decoder_reads (s : ProjectState) :
    ProjectState.decoder.Reads 0 s.toJson.compact s := by
  apply oneOf_reads_plain
  cases s <;> rfl

theorem ProjectStatus.decoder_reads (s : ProjectStatus) :
    ProjectStatus.decoder.Reads 1 s.toJson.compact s := by
  apply record_reads
  · exact .field rfl rfl (textAs_reads _ s.id) <| .field rfl rfl (textAs_reads _ s.name) <|
      .field rfl rfl s.state.decoder_reads .nil
  · rfl

/-- Every number of a status fits its word. -/
structure WatchStatus.InWords (s : WatchStatus) : Prop where
  watchedProjects : s.watchedProjects ≤ wordLimit
  watchedFiles : s.watchedFiles ≤ wordLimit
  lastCompilation : ∀ n ∈ s.lastCompilation, n ≤ wordLimit

namespace WatchStatus

theorem isExact_toJson (s : WatchStatus) : s.toJson.isExact = true := by
  have projects :=
    Value.exactItems_map (fun s : ProjectStatus => (rfl : s.toJson.isExact = true)) s.projects
  cases h : s.lastCompilation <;>
    simp [toJson, Value.isExact, Value.exactMembers, projects, h, Value.ofOption,
      WatchMode.toJson]

/-- The time of the last pass is read back, and that there was none. -/
theorem lastCompilation_reads {s : WatchStatus} (fits : s.InWords) :
    Decoder.uint64.optional.Reads 0 (Value.ofOption .natural s.lastCompilation).compact
      s.lastCompilation := by
  cases h : s.lastCompilation with
  | none => exact optional_reads_none _
  | some n => exact optional_reads_some (uint64_reads (fits.lastCompilation n h)) rfl nofun

/-- A status is read back. -/
theorem decoder_reads {s : WatchStatus} (fits : s.InWords) :
    decoder.Reads 3 s.toJson.compact s := by
  have projects : (Decoder.list ProjectStatus.decoder).Reads 2
      (Value.array (s.projects.map ProjectStatus.toJson)).compact s.projects :=
    list_reads (fun p _ => p.decoder_reads) fun _ _ => rfl
  apply record_reads
  · exact .field rfl rfl ((bool_reads s.active).mono (by decide)) <|
      .field rfl rfl (s.mode.decoder_reads.mono (by decide)) <|
      .field rfl rfl ((size_reads fits.watchedProjects).mono (by decide)) <|
      .field rfl rfl ((size_reads fits.watchedFiles).mono (by decide)) <|
      .field rfl rfl ((lastCompilation_reads fits).mono (by decide)) <|
      .field rfl rfl projects .nil
  · rfl

end WatchStatus

end DiagnosticWatch
