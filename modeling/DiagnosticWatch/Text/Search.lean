/-!
# Finding a text inside a text

Status messages are told apart by phrases they contain, in any letter case.
-/

namespace DiagnosticWatch.Text

/-- Whether `needle` occurs in a text, at any place. -/
def occursIn (needle : List Char) : List Char → Bool
  | [] => needle.isEmpty
  | c :: cs => needle.isPrefixOf (c :: cs) || occursIn needle cs

/-- A rest of `cs` with at least one element less. Readers that return one can be called again on
it. -/
abbrev Shorter (cs : List α) := { rest : List α // rest.length < cs.length }

def lowerAscii (cs : List Char) : List Char :=
  cs.map Char.toLower

/-- The rest of a text after `lead`, if the text begins with it. -/
def afterPrefix? [DecidableEq α] : (lead text : List α) → Option (List α)
  | [], text => some text
  | _ :: _, [] => none
  | l :: ls, c :: cs => if l = c then afterPrefix? ls cs else none

theorem afterPrefix?_eq_some_iff [DecidableEq α] {lead text rest : List α} :
    afterPrefix? lead text = some rest ↔ text = lead ++ rest := by
  induction lead generalizing text with
  | nil => simp [afterPrefix?]
  | cons l ls ih =>
    cases text with
    | nil => simp [afterPrefix?]
    | cons c cs =>
      by_cases h : l = c
      · subst h; simp [afterPrefix?, ih]
      · simp only [afterPrefix?, if_neg h, List.cons_append, List.cons.injEq]
        exact ⟨fun hn => (by cases hn), fun hc => absurd hc.1.symm h⟩

end DiagnosticWatch.Text
