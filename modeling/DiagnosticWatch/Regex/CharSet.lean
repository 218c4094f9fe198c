import DiagnosticWatch.Text.Blank
import DiagnosticWatch.Text.Case
import DiagnosticWatch.Text.Digit
import DiagnosticWatch.Text.Word

/-!
# Sets of characters

The sets that one place of a regular expression can match, as expressions over ranges and classes.
`mem` is their meaning.
-/

namespace DiagnosticWatch.Regex

inductive CharSet
  | empty
  | range (low high : Char)
  | digit
  | blank
  | word
  | compl (s : CharSet)
  | union (s t : CharSet)
  | inter (s t : CharSet)
  | diff (s t : CharSet)
  | symmDiff (s t : CharSet)
  | fold (s : CharSet)
  deriving DecidableEq, Repr, Inhabited

namespace CharSet

/-- Whether a character belongs to a set. A folded set holds every case variant of its members. -/
def mem (c : Char) : CharSet → Bool
  | empty => false
  | range low high => low ≤ c && c ≤ high
  | digit => Text.isDecimalDigit c
  | blank => Text.isBlank c
  | word => Text.isWordChar c
  | compl s => !s.mem c
  | union s t => s.mem c || t.mem c
  | inter s t => s.mem c && t.mem c
  | diff s t => s.mem c && !t.mem c
  | symmDiff s t => s.mem c != t.mem c
  | fold s => s.mem c || (Text.caseVariants c).any fun d => s.mem d

def single (c : Char) : CharSet := range c c

def unionAll : List CharSet → CharSet
  | [] => empty
  | [s] => s
  | s :: ss => union s (unionAll ss)

@[simp] theorem mem_single {c d : Char} : (single d).mem c = decide (c = d) := by
  rw [Bool.eq_iff_iff]
  simp only [single, mem, Bool.and_eq_true, decide_eq_true_eq]
  exact ⟨fun h => Char.le_antisymm h.2 h.1, fun h => h ▸ ⟨Char.le_refl _, Char.le_refl _⟩⟩

@[simp] theorem mem_unionAll {c : Char} {ss : List CharSet} :
    (unionAll ss).mem c = ss.any (·.mem c) := by
  induction ss with
  | nil => rfl
  | cons s ss ih =>
    cases ss with
    | nil => simp [unionAll]
    | cons t ts => simp only [unionAll, mem, ih, List.any_cons]

/-- The ASCII classes that brackets know by name. -/
def named : List (String × CharSet) :=
  let lower := range 'a' 'z'
  let upper := range 'A' 'Z'
  let digits := range '0' '9'
  [("alnum", unionAll [digits, upper, lower]),
    ("alpha", union upper lower),
    ("ascii", range '\x00' '\x7f'),
    ("blank", union (single '\t') (single ' ')),
    ("cntrl", union (range '\x00' '\x1f') (single '\x7f')),
    ("digit", digits),
    ("graph", range '!' '~'),
    ("lower", lower),
    ("print", range ' ' '~'),
    ("punct", unionAll [range '!' '/', range ':' '@', range '[' '\x60', range '\x7b' '~']),
    ("space", union (range '\t' '\r') (single ' ')),
    ("upper", upper),
    ("word", unionAll [digits, upper, lower, single '_']),
    ("xdigit", unionAll [digits, range 'A' 'F', range 'a' 'f'])]

end CharSet

end DiagnosticWatch.Regex
