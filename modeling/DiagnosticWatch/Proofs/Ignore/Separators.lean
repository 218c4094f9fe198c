import DiagnosticWatch.Proofs.Ignore.Tokens

/-!
# Separators in what a glob matches

A glob without `**` and without braces reads a path with at most as many separators as it has
itself, were it not for its classes: `*` and `?` leave the separator out, but a class matches it
whenever it is negated or has a range that goes across it. So the bound is the number of separators
in the glob and, on top of that, the number of such classes.
-/

namespace DiagnosticWatch.Glob

open Regex

namespace Token

/-- A piece that stays within a name, or is one character. -/
def IsSingle : Token → Prop
  | anyText | directories | subtree => False
  | t => t.IsPiece

def named : Token → List Char
  | literal c => [c]
  | charClass _ body => body
  | _ => []

/-- Whether a token is a class that matches the separator and does not name it. -/
def leaks : Token → Bool
  | charClass negated body =>
    !body.contains '/' && (classSet? negated body).any (·.value.mem '/')
  | _ => false

theorem IsSingle.isPiece {t : Token} (h : t.IsSingle) : t.IsPiece := by
  cases t <;> first | exact h | exact h.elim

/-- A token matches as many separators as it names, and one more if it leaks. -/
theorem IsSingle.count_le {t : Token} (single : t.IsSingle) {w : List Char} (h : w ∈ t.language) :
    w.count '/' ≤ t.named.count '/' + [t].countP leaks := by
  cases t with
  | literal c =>
      rw [mem_language_literal.1 h]
      exact Nat.le_add_right _ _
  | anyChar =>
      obtain ⟨c, hc, rfl⟩ := mem_language_anyChar.1 h
      rw [List.count_eq_zero_of_not_mem (by simpa using hc.symm)]
      exact Nat.zero_le _
  | anyName =>
      rw [List.count_eq_zero_of_not_mem (mem_language_anyName.1 h)]
      exact Nat.zero_le _
  | charClass negated body =>
      obtain ⟨s, c, hs, hc, rfl⟩ := mem_language_charClass.1 h
      by_cases hsep : c = '/'
      · subst hsep
        by_cases hbody : '/' ∈ body
        · have := List.count_pos_iff.2 hbody
          simp only [named, List.count_singleton_self]
          omega
        · have leak : (charClass negated body).leaks := by
            simp [leaks, hbody, hs, hc]
          rw [List.countP_singleton, if_pos leak, List.count_singleton_self]
          exact Nat.le_add_left _ _
      · rw [List.count_eq_zero_of_not_mem (by simpa using Ne.symm hsep)]
        exact Nat.zero_le _
  | anyText | directories | subtree | openChoice | nextChoice | closeChoice => exact single.elim

end Token

/-- In turn, tokens match as many separators as they name, and one more for each that leaks. -/
theorem count_le_of_mem_words {ts : List Token} (single : ∀ t ∈ ts, t.IsSingle) {w : List Char}
    (h : w ∈ words ts) :
    w.count '/' ≤ (ts.flatMap Token.named).count '/' + ts.countP Token.leaks := by
  induction ts generalizing w with
  | nil =>
      rw [words_nil, Language.mem_one] at h
      rw [h]
      exact Nat.zero_le _
  | cons t ts ih =>
      rw [words_cons, Language.mem_mul] at h
      obtain ⟨u, hu, v, hv, rfl⟩ := h
      have first := (single t List.mem_cons_self).count_le hu
      have rest := ih (fun t ht => single t (List.mem_cons_of_mem _ ht)) hv
      rw [List.count_append, List.flatMap_cons, List.count_append, ← List.singleton_append,
        List.countP_append]
      omega

/-- A text with neither `**` nor an opening brace. -/
structure OneLevel (cs : List Char) : Prop where
  starless : ¬ ['*', '*'] <:+: cs
  braceless : '{' ∉ cs

theorem OneLevel.suffix {cs rest : List Char} (h : OneLevel cs) (hs : rest <:+ cs) :
    OneLevel rest :=
  ⟨fun hi => h.starless (hi.trans hs.isInfix), fun hm => h.braceless (hs.subset hm)⟩

/-- Single tokens that name no more separators than a text has. -/
def NamedWithin (ts : List Token) (cs : List Char) : Prop :=
  (∀ t ∈ ts, t.IsSingle) ∧ (ts.flatMap Token.named).count '/' ≤ cs.count '/'

theorem NamedWithin.cons {t : Token} {ts : List Token} {rest : List Char} (h : NamedWithin ts rest)
    (text : List Char) (single : t.IsSingle) (named : t.named.count '/' ≤ text.count '/') :
    NamedWithin (t :: ts) (text ++ rest) := by
  refine ⟨List.forall_mem_cons.2 ⟨single, h.1⟩, ?_⟩
  rw [List.flatMap_cons, List.count_append, List.count_append]
  exact Nat.add_le_add named h.2

theorem NamedWithin.literal {c : Char} {ts : List Token} {rest : List Char}
    (h : NamedWithin ts rest) : NamedWithin (.literal c :: ts) (c :: rest) :=
  h.cons [c] trivial (Nat.le_refl _)

/-- Outside braces, the tokens of a text of one level name no more separators than it has. -/
theorem namedWithin_tokensFrom (previous : Option Char) {depth : Nat} {cs : List Char}
    (outer : depth = 0) (level : OneLevel cs) : NamedWithin (tokensFrom previous depth cs) cs := by
  have starred (before : List Char) {after : List Char}
      (level : OneLevel (before ++ '*' :: '*' :: after)) : False :=
    level.starless ⟨before, after, by simp⟩
  have behind {c : Char} {cs : List Char} (level : OneLevel (c :: cs)) : OneLevel cs :=
    level.suffix (List.suffix_cons c cs)
  fun_induction tokensFrom previous depth cs with
  | case1 => exact ⟨by simp [outer], by simp [outer]⟩
  | case2 | case3 | case4 => exact (starred [] level).elim
  | case7 | case8 => exact (starred ['/'] level).elim
  | case5 previous depth cs _ _ ih =>
      exact (ih outer (behind level)).cons ['*'] trivial (Nat.zero_le _)
  | case6 previous depth cs ih => exact (ih outer (behind level)).cons ['?'] trivial (Nat.zero_le _)
  | case9 => exact (level.braceless List.mem_cons_self).elim
  | case10 previous depth cs inside => omega
  | case11 | case14 | case16 =>
      rename_i ih
      exact (ih outer (behind level)).literal
  | case12 previous depth cs ih =>
      rw [if_neg (by omega)]
      exact (ih outer (behind level)).literal
  | case13 previous depth cs negated body rest hclass ih =>
      obtain ⟨⟨sign, rfl⟩, single⟩ := class?_eq hclass
      have text : '[' :: (sign ++ (body ++ ']' :: rest)) =
          ('[' :: (sign ++ (body ++ [']']))) ++ rest := by simp
      rw [text] at level ⊢
      refine (ih outer (level.suffix (List.suffix_append _ _))).cons _ single ?_
      have inside : body <:+: '[' :: (sign ++ (body ++ [']'])) := ⟨'[' :: sign, [']'], by simp⟩
      exact inside.sublist.count_le '/'
  | case15 previous depth c cs ih =>
      refine (ih outer (behind (behind level))).cons ['\\', c] trivial ?_
      exact (List.suffix_cons _ _).sublist.count_le '/'

/-- A path that is matched has no more separators than the glob, apart from one for each class that
matches the separator without naming it. -/
theorem separators_le {glob : String} (starless : ¬ ['*', '*'] <:+: glob.toList)
    (braceless : '{' ∉ glob.toList) {p : Pattern} (h : pattern? glob = some p) {path : String}
    (matched : p.occursIn path = true) :
    path.toList.count '/' ≤
      glob.toList.count '/' + (tokens glob.toList).countP Token.leaks := by
  obtain ⟨single, hnamed⟩ := namedWithin_tokensFrom none rfl ⟨starless, braceless⟩
  have bound := count_le_of_mem_words single
    ((occursIn_iff (fun t ht => (single t ht).isPiece) h path).1 matched)
  exact Nat.le_trans bound (Nat.add_le_add_right hnamed _)

/-- The class of `src/[!.]b` matches the separator, and the bound is reached. -/
theorem separators_le_emptyName :
    ∃ p, pattern? "src/[!.]b" = some p ∧ p.occursIn "src//b" = true ∧
      "src//b".toList.count '/' ≤
        "src/[!.]b".toList.count '/' + (tokens "src/[!.]b".toList).countP Token.leaks ∧
      "src/[!.]b".toList.count '/' + (tokens "src/[!.]b".toList).countP Token.leaks = 2 := by
  have matched : (pattern? "src/[!.]b").any (·.occursIn "src//b") = true := by decide +kernel
  obtain ⟨p, hp, hm⟩ := (Option.any_eq_true _ _).1 matched
  exact ⟨p, hp, hm, separators_le (by decide) (by decide) hp hm, by decide +kernel⟩

/-- A negated class crosses the boundary of a directory: `a[!x]b` has no separator and matches
`a/b`. -/
theorem negatedClass_crosses :
    ∃ p, pattern? "a[!x]b" = some p ∧
      (¬ ['*', '*'] <:+: "a[!x]b".toList ∧ '{' ∉ "a[!x]b".toList) ∧ p.occursIn "a/b" = true ∧
      ¬ "a/b".toList.count '/' ≤ "a[!x]b".toList.count '/' := by
  have matched : (pattern? "a[!x]b").any (·.occursIn "a/b") = true := by decide +kernel
  obtain ⟨p, hp, hm⟩ := (Option.any_eq_true _ _).1 matched
  exact ⟨p, hp, ⟨by decide, by decide⟩, hm, by decide⟩

end DiagnosticWatch.Glob
