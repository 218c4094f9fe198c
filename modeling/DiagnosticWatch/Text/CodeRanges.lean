/-!
# Sets of code points

A property of characters is stored as the ranges of code points that have it, both ends included.
-/

namespace DiagnosticWatch

/-- Ranges of code points, both ends included. -/
abbrev CodeRanges := List (Nat × Nat)

namespace CodeRanges

def contains (table : CodeRanges) (c : Char) : Bool :=
  table.any fun (low, high) => low ≤ c.toNat && c.toNat ≤ high

theorem contains_iff {table : CodeRanges} {c : Char} :
    table.contains c = true ↔ ∃ r ∈ table, r.1 ≤ c.toNat ∧ c.toNat ≤ r.2 := by
  simp [contains]

end CodeRanges

end DiagnosticWatch
