/-!
# Blank characters

Blank means the Unicode property White_Space. The functions here cut blanks off the ends of a text;
the line classifier and every option that is read from outside rely on them.
-/

namespace DiagnosticWatch.Text

/-- The property White_Space. -/
def isBlank (c : Char) : Bool :=
  let n := c.toNat
  (9 ≤ n && n ≤ 13) || n == 0x20 || n == 0x85 || n == 0xA0 || n == 0x1680 ||
    (0x2000 ≤ n && n ≤ 0x200A) || n == 0x2028 || n == 0x2029 || n == 0x202F || n == 0x205F ||
    n == 0x3000

def trimStart (cs : List Char) : List Char :=
  cs.dropWhile isBlank

def trimEnd (cs : List Char) : List Char :=
  (cs.reverse.dropWhile isBlank).reverse

def trim (cs : List Char) : List Char :=
  trimEnd (trimStart cs)

@[simp] theorem trimEnd_nil : trimEnd [] = [] := rfl

theorem trimEnd_append_blank {cs : List Char} {c : Char} (h : isBlank c = true) :
    trimEnd (cs ++ [c]) = trimEnd cs := by
  simp [trimEnd, h]

theorem trimEnd_append_of_not_blank {cs : List Char} {c : Char} (h : isBlank c = false) :
    trimEnd (cs ++ [c]) = cs ++ [c] := by
  simp [trimEnd, h]

theorem trimEnd_prefix (cs : List Char) : trimEnd cs <+: cs := by
  rw [← List.reverse_suffix, trimEnd, List.reverse_reverse]
  exact List.dropWhile_suffix _

theorem trimEnd_eq_nil_iff {cs : List Char} : trimEnd cs = [] ↔ cs.all isBlank = true := by
  obtain ⟨ds, rfl⟩ : ∃ ds, cs = ds.reverse := ⟨cs.reverse, by simp⟩
  induction ds with
  | nil => exact iff_of_true rfl rfl
  | cons d ds ih =>
    rw [List.reverse_cons, List.all_append, List.all_cons]
    cases hd : isBlank d with
    | false => simp [trimEnd_append_of_not_blank hd]
    | true => simpa [trimEnd_append_blank hd] using ih

/-- Blanks that have been dropped from the end need not be dropped again. -/
theorem trim_trimEnd (cs : List Char) : trim (trimEnd cs) = trim cs := by
  obtain ⟨ds, rfl⟩ : ∃ ds, cs = ds.reverse := ⟨cs.reverse, by simp⟩
  induction ds with
  | nil => rfl
  | cons d ds ih =>
    rw [List.reverse_cons]
    cases hd : isBlank d with
    | false => rw [trimEnd_append_of_not_blank hd]
    | true =>
      rw [trimEnd_append_blank hd, ih, trim, trim, trimStart, trimStart, List.dropWhile_append]
      cases hrest : ds.reverse.dropWhile isBlank with
      | nil => simp [hd]
      | cons e es => exact (trimEnd_append_blank hd).symm

/-- A text without the blanks at its two ends. -/
def strip (s : String) : String :=
  String.ofList (trim s.toList)

/-- A text of nothing but blanks. -/
def isAllBlank (s : String) : Bool :=
  s.toList.all isBlank

end DiagnosticWatch.Text
