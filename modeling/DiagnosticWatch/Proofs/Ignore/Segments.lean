import DiagnosticWatch.Proofs.Ignore.Tokens
import DiagnosticWatch.Text.Split
import Mathlib.Data.List.Chain
import Mathlib.Data.List.Infix

/-!
# Globs by segments

A glob without braces and classes is a list of segments, and it matches a path segment by segment: a
name matches one segment of the path, with its wildcards inside, and `**` any number of them. The
expression of such a glob folds the separators next to a `**` into optional groups; that it still
matches what the segments match is what is shown here.
-/

namespace DiagnosticWatch

namespace Glob

/-- A part of a name: a character, one with a backslash in front of it, or a wildcard. -/
inductive Atom
  | plain (c : Char)
  | escaped (c : Char)
  | anyChar
  | anyName
  deriving DecidableEq, Repr

inductive Segment
  | globstar
  | name (atoms : List Atom)
  deriving DecidableEq, Repr

namespace Atom

def text : Atom → List Char
  | plain c => [c]
  | escaped c => ['\\', c]
  | anyChar => ['?']
  | anyName => ['*']

/-- Whether the character of an atom may be written like that. -/
def isValid : Atom → Bool
  | plain c => not (['/', '*', '?', '{', '[', '\\'].contains c)
  | escaped c => ['*', '?', '{', '}', '[', ']', ',', '\\'].contains c
  | anyChar | anyName => true

end Atom

namespace Segment

def text : Segment → List Char
  | globstar => ['*', '*']
  | name atoms => atoms.flatMap Atom.text

/-- A name is not empty, and its stars are apart from each other. -/
def IsValid : Segment → Prop
  | globstar => True
  | name atoms => atoms ≠ [] ∧ (∀ a ∈ atoms, a.isValid) ∧
      atoms.IsChain fun a b => ¬ (a = .anyName ∧ b = .anyName)

instance : DecidablePred IsValid
  | globstar => isTrue trivial
  | name _ => inferInstanceAs (Decidable (_ ∧ _ ∧ _))

end Segment

/-- Segments that make up a glob. -/
structure WellFormed (segments : List Segment) : Prop where
  nonempty : segments ≠ []
  valid : ∀ s ∈ segments, s.IsValid
  apart : segments.IsChain fun s t => ¬ (s = .globstar ∧ t = .globstar)

def ofSegments (segments : List Segment) : String :=
  String.ofList (Text.join '/' (segments.map Segment.text))

/-- Whether a name matches one segment of a path: `*` any run of characters, `?` exactly one, and
every other atom its character. -/
def matchesName : List Atom → List Char → Bool
  | [], cs => cs.isEmpty
  | .anyName :: atoms, cs => cs.tails.any (matchesName atoms)
  | .anyChar :: atoms, _ :: cs => matchesName atoms cs
  | .plain c :: atoms, d :: cs | .escaped c :: atoms, d :: cs => c == d && matchesName atoms cs
  | _ :: _, [] => false

/-- Whether segments match the segments of a path: `**` any number of them, a name exactly one. -/
def matchesSegments : List Segment → List (List Char) → Bool
  | [], parts => parts.isEmpty
  | .globstar :: segments, parts => parts.tails.any (matchesSegments segments)
  | .name atoms :: segments, part :: parts =>
    matchesName atoms part && matchesSegments segments parts
  | .name _ :: _, [] => false

def Atom.token : Atom → Token
  | plain c | escaped c => .literal c
  | anyChar => .anyChar
  | anyName => .anyName

/-- The tokens of a glob: `**` takes the separator next to it along. -/
def segmentTokens : List Segment → List Token
  | [] => []
  | [.globstar] => [.anyText]
  | .globstar :: segments => .directories :: segmentTokens segments
  | [.name atoms] => atoms.map Atom.token
  | [.name atoms, .globstar] => atoms.map Atom.token ++ [.subtree]
  | .name atoms :: segments => atoms.map Atom.token ++ .literal '/' :: segmentTokens segments

theorem tokensFrom_nil (previous : Option Char) : tokensFrom previous 0 [] = [] := by
  rw [tokensFrom]
  rfl

theorem tokensFrom_sep_literal (previous : Option Char) {cs : List Char}
    (h : ∀ tail, cs ≠ '*' :: '*' :: tail) :
    tokensFrom previous 0 ('/' :: cs) = .literal '/' :: tokensFrom (some '/') 0 cs := by
  rw [tokensFrom]
  all_goals simp_all

theorem tokensFrom_sep_globstar (previous : Option Char) (cs : List Char) :
    tokensFrom previous 0 ('/' :: '*' :: '*' :: cs) =
      if endsHere 0 cs then .subtree :: tokensFrom (some '*') 0 cs
      else .literal '/' :: tokensFrom (some '/') 0 ('*' :: '*' :: cs) := by
  conv_lhs => rw [tokensFrom]

/-- A separator starts a new segment, whatever stands in front of it. -/
theorem tokensFrom_sep (previous : Option Char) (cs : List Char) :
    tokensFrom previous 0 ('/' :: cs) = tokensFrom none 0 ('/' :: cs) := by
  by_cases h : ∃ tail, cs = '*' :: '*' :: tail
  · obtain ⟨tail, rfl⟩ := h
    rw [tokensFrom_sep_globstar previous, tokensFrom_sep_globstar none]
  · have literal := fun tail e => h ⟨tail, e⟩
    rw [tokensFrom_sep_literal previous literal, tokensFrom_sep_literal none literal]

theorem tokensFrom_plain {c : Char} (h : (Atom.plain c).isValid) (previous : Option Char)
    (cs : List Char) :
    tokensFrom previous 0 (c :: cs) = .literal c :: tokensFrom (some c) 0 cs := by
  by_cases hclose : c = '}'
  · subst hclose
    rw [tokensFrom]
    rfl
  · by_cases hnext : c = ','
    · subst hnext
      rw [tokensFrom]
      rfl
    · rw [tokensFrom]
      all_goals simp_all [Atom.isValid]

theorem tokensFrom_anyName (previous : Option Char) {cs : List Char} (h : cs.head? ≠ some '*') :
    tokensFrom previous 0 ('*' :: cs) = .anyName :: tokensFrom (some '*') 0 cs := by
  rw [tokensFrom]
  · rintro tail rfl
    exact h rfl
  · rintro tail rfl
    exact h rfl

/-- A place where a name can end: the end of the glob or a separator. -/
def EndsName (rest : List Char) : Prop :=
  rest = [] ∨ ∃ cs, rest = '/' :: cs

theorem Atom.head?_text {a : Atom} (valid : a.isValid) (h : a ≠ .anyName) (cs : List Char) :
    (a.text ++ cs).head? ≠ some '*' := by
  cases a with
  | plain c =>
      rintro e
      obtain rfl : c = '*' := Option.some.inj e
      exact absurd valid (by decide)
  | escaped c => simp [text]
  | anyChar => simp [text]
  | anyName => exact absurd rfl h

/-- Behind a star of a name comes no other star. -/
theorem head?_atoms {atoms : List Atom} (valid : ∀ a ∈ atoms, a.isValid)
    (apart : (Atom.anyName :: atoms).IsChain fun a b => ¬ (a = .anyName ∧ b = .anyName))
    {rest : List Char} (ends : EndsName rest) :
    (atoms.flatMap Atom.text ++ rest).head? ≠ some '*' := by
  cases atoms with
  | nil => obtain rfl | ⟨cs, rfl⟩ := ends <;> simp
  | cons a atoms =>
      rw [List.flatMap_cons, List.append_assoc]
      refine Atom.head?_text (valid a List.mem_cons_self) ?_ _
      rintro rfl
      exact (List.isChain_cons_cons.1 apart).1 ⟨rfl, rfl⟩

theorem tokensFrom_atoms {atoms : List Atom} (valid : ∀ a ∈ atoms, a.isValid)
    (apart : atoms.IsChain fun a b => ¬ (a = .anyName ∧ b = .anyName)) {rest : List Char}
    (ends : EndsName rest) (previous : Option Char) :
    tokensFrom previous 0 (atoms.flatMap Atom.text ++ rest) =
      atoms.map Atom.token ++ tokensFrom none 0 rest := by
  -- What stands in front matters for `**` alone, so it may be any character along the name.
  induction atoms generalizing previous with
  | nil =>
      obtain rfl | ⟨cs, rfl⟩ := ends
      · rw [List.flatMap_nil, List.nil_append, tokensFrom_nil, tokensFrom_nil]
        rfl
      · exact tokensFrom_sep previous cs
  | cons a atoms ih =>
      have ih := ih (fun b hb => valid b (List.mem_cons_of_mem _ hb)) (List.isChain_cons.1 apart).2
      rw [List.flatMap_cons, List.append_assoc, List.map_cons, List.cons_append]
      cases a with
      | plain c =>
          exact (tokensFrom_plain (valid _ List.mem_cons_self) previous _).trans
            (congrArg _ (ih (some c)))
      | escaped c =>
          rw [Atom.text, List.cons_append, List.cons_append, List.nil_append, tokensFrom,
            ih (some c)]
          rfl
      | anyChar =>
          rw [Atom.text, List.cons_append, List.nil_append, tokensFrom, ih (some '?')]
          rfl
      | anyName =>
          exact (tokensFrom_anyName previous (head?_atoms
            (fun b hb => valid b (List.mem_cons_of_mem _ hb)) apart ends)).trans
            (congrArg _ (ih (some '*')))

namespace WellFormed

variable {s : Segment} {segments : List Segment}

theorem head (wf : WellFormed (s :: segments)) : s.IsValid :=
  wf.valid s List.mem_cons_self

theorem tail (wf : WellFormed (s :: segments)) (h : segments ≠ []) : WellFormed segments :=
  ⟨h, fun t ht => wf.valid t (List.mem_cons_of_mem _ ht), (List.isChain_cons.1 wf.apart).2⟩

/-- Behind `**` comes a name. -/
theorem not_globstar (wf : WellFormed (.globstar :: s :: segments)) : s ≠ .globstar :=
  fun h => (List.isChain_cons_cons.1 wf.apart).1 ⟨rfl, h⟩

end WellFormed

/-- A glob that starts with a name does not start with two stars. -/
theorem join_ne_globstar {atoms : List Atom} {segments : List Segment}
    (valid : (Segment.name atoms).IsValid) (tail : List Char) :
    Text.join '/' ((Segment.name atoms :: segments).map Segment.text) ≠ '*' :: '*' :: tail := by
  obtain ⟨rest, ends, htext⟩ : ∃ rest, EndsName rest ∧
      Text.join '/' ((Segment.name atoms :: segments).map Segment.text) =
        atoms.flatMap Atom.text ++ rest := by
    cases segments with
    | nil => exact ⟨[], .inl rfl, (List.append_nil _).symm⟩
    | cons s more => exact ⟨_, .inr ⟨_, rfl⟩, rfl⟩
  obtain ⟨nonempty, valid, apart⟩ := valid
  cases atoms with
  | nil => exact absurd rfl nonempty
  | cons a atoms =>
      rw [htext, List.flatMap_cons, List.append_assoc]
      intro e
      by_cases ha : a = .anyName
      · subst ha
        have second : atoms.flatMap Atom.text ++ rest = '*' :: tail := (List.cons.inj e).2
        refine head?_atoms (fun b hb => valid b (List.mem_cons_of_mem _ hb)) apart ends ?_
        rw [second]
        rfl
      · refine Atom.head?_text (valid a List.mem_cons_self) ha (atoms.flatMap Atom.text ++ rest) ?_
        rw [e]
        rfl

/-- The tokens of a glob, segment by segment. -/
theorem tokensFrom_segments {segments : List Segment} (wf : WellFormed segments)
    {previous : Option Char} (start : startsSegment previous) :
    tokensFrom previous 0 (Text.join '/' (segments.map Segment.text)) = segmentTokens segments := by
  fun_induction segmentTokens segments generalizing previous with
  | case1 => exact absurd rfl wf.nonempty
  | case2 =>
      change tokensFrom previous 0 ['*', '*'] = _
      rw [tokensFrom, tokensFrom_nil]
      simp
  | case3 segments more ih =>
      cases segments with
      | nil => exact absurd rfl more
      | cons s segments =>
          change tokensFrom previous 0
            ('*' :: '*' :: '/' :: Text.join '/' ((s :: segments).map _)) = _
          rw [tokensFrom, if_pos start, ih (wf.tail (List.cons_ne_nil _ _)) rfl]
  | case4 atoms =>
      have text := tokensFrom_atoms wf.head.2.1 wf.head.2.2 (.inl rfl) previous
      rwa [tokensFrom_nil, List.append_nil, List.append_nil] at text
  | case5 atoms =>
      refine (tokensFrom_atoms wf.head.2.1 wf.head.2.2 (.inr ⟨['*', '*'], rfl⟩) previous).trans ?_
      rw [tokensFrom_sep_globstar, tokensFrom_nil]
      rfl
  | case6 atoms segments more notLast ih =>
      cases segments with
      | nil => exact absurd rfl more
      | cons s segments =>
          have wf' := wf.tail (List.cons_ne_nil _ _)
          refine (tokensFrom_atoms wf.head.2.1 wf.head.2.2 (.inr ⟨_, rfl⟩) previous).trans ?_
          rw [← ih wf' (show startsSegment (some '/') = true from rfl)]
          cases s with
          | name atoms' =>
              exact congrArg _ (tokensFrom_sep_literal none (join_ne_globstar wf'.head))
          | globstar =>
              cases segments with
              | nil => exact absurd rfl notLast
              | cons t segments => exact congrArg _ (tokensFrom_sep_globstar none _)

theorem mem_words_char {c : Char} (hc : c ≠ '/') {ts : List Token} {atoms : List Atom}
    (ih : ∀ w, w ∈ words ts ↔ '/' ∉ w ∧ matchesName atoms w) {w : List Char} :
    w ∈ words (.literal c :: ts) ↔ '/' ∉ w ∧ matchesName (.plain c :: atoms) w := by
  rw [mem_words_literal]
  simp only [ih]
  cases w with
  | nil => simp [matchesName]
  | cons d w =>
      simp only [matchesName, List.cons.injEq, List.mem_cons, not_or, Bool.and_eq_true, beq_iff_eq]
      constructor
      · rintro ⟨v, ⟨hv, h⟩, rfl, rfl⟩
        exact ⟨⟨hc.symm, hv⟩, rfl, h⟩
      · rintro ⟨⟨-, hw⟩, rfl, h⟩
        exact ⟨w, ⟨hw, h⟩, rfl, rfl⟩

/-- The words of a name are the segments it matches. -/
theorem mem_words_atoms {atoms : List Atom} (valid : ∀ a ∈ atoms, a.isValid) (w : List Char) :
    w ∈ words (atoms.map Atom.token) ↔ '/' ∉ w ∧ matchesName atoms w := by
  induction atoms generalizing w with
  | nil =>
      rw [List.map_nil, words_nil, Language.mem_one, matchesName, List.isEmpty_iff]
      exact ⟨fun h => ⟨h ▸ List.not_mem_nil, h⟩, And.right⟩
  | cons a atoms ih =>
      have ih := ih fun b hb => valid b (List.mem_cons_of_mem _ hb)
      have ha := valid a List.mem_cons_self
      rw [List.map_cons]
      cases a with
      | plain c => exact mem_words_char (by rintro rfl; exact absurd ha (by decide)) ih
      | escaped c =>
          refine (mem_words_char (by rintro rfl; exact absurd ha (by decide)) ih).trans ?_
          cases w <;> rfl
      | anyChar =>
          rw [Atom.token, words_cons, Language.mem_mul]
          simp only [Token.mem_language_anyChar, ih]
          cases w with
          | nil => simp [matchesName]
          | cons d w =>
              simp only [matchesName, List.mem_cons, not_or]
              constructor
              · rintro ⟨_, ⟨c, hc, rfl⟩, v, ⟨hv, h⟩, e⟩
                obtain ⟨rfl, rfl⟩ := List.cons.inj e
                exact ⟨⟨hc.symm, hv⟩, h⟩
              · rintro ⟨⟨hd, hw⟩, h⟩
                exact ⟨[d], ⟨d, Ne.symm hd, rfl⟩, w, ⟨hw, h⟩, rfl⟩
      | anyName =>
          rw [Atom.token, words_cons, Language.mem_mul]
          simp only [Token.mem_language_anyName, ih, matchesName, List.any_eq_true, List.mem_tails]
          constructor
          · rintro ⟨u, hu, v, ⟨hv, h⟩, rfl⟩
            exact ⟨by simp [hu, hv], v, List.suffix_append u v, h⟩
          · rintro ⟨hw, v, ⟨u, rfl⟩, h⟩
            rw [List.mem_append, not_or] at hw
            exact ⟨u, hw.1, v, ⟨hw.2, h⟩, rfl⟩

/-- A last `**` matches whatever is left. -/
theorem matchesSegments_globstar (parts : List (List Char)) :
    matchesSegments [.globstar] parts := by
  rw [matchesSegments, List.any_eq_true]
  exact ⟨[], (List.mem_tails _ _).2 (List.nil_suffix), rfl⟩

/-- Segments other than a single `**` match at least one segment of a path. -/
theorem matchesSegments_nil {segments : List Segment} (wf : WellFormed segments)
    (h : segments ≠ [.globstar]) : matchesSegments segments [] = false := by
  match segments, wf with
  | [], wf => exact absurd rfl wf.nonempty
  | .name _ :: _, _ => rfl
  | [.globstar], _ => exact absurd rfl h
  | .globstar :: .globstar :: _, wf => exact absurd rfl wf.not_globstar
  | .globstar :: .name _ :: _, _ => rfl

/-- A name in front of other segments: the path ends with a segment that the name matches, or the
rest is matched behind the separator that follows it. -/
theorem matchesSegments_name {atoms : List Atom} (valid : ∀ a ∈ atoms, a.isValid)
    (segments : List Segment) (path : List Char) :
    matchesSegments (.name atoms :: segments) (Text.split '/' path) ↔
      (path ∈ words (atoms.map Atom.token) ∧ matchesSegments segments []) ∨
        ∃ part ∈ words (atoms.map Atom.token), ∃ rest, path = part ++ '/' :: rest ∧
          matchesSegments segments (Text.split '/' rest) := by
  simp only [mem_words_atoms valid]
  obtain free | ⟨part, rest, free, rfl⟩ := Text.sep_cases '/' path
  · rw [Text.split_of_not_mem free, matchesSegments, Bool.and_eq_true]
    constructor
    · exact fun h => .inl ⟨⟨free, h.1⟩, h.2⟩
    · rintro (h | ⟨part, -, rest, rfl, -⟩)
      · exact ⟨h.1.2, h.2⟩
      · exact absurd (by simp) free
  · rw [Text.split_append_sep free, matchesSegments, Bool.and_eq_true]
    constructor
    · exact fun h => .inr ⟨part, ⟨free, h.1⟩, rest, rfl, h.2⟩
    · rintro (h | ⟨part', ⟨free', h⟩, rest', e, h'⟩)
      · exact absurd (by simp) h.1.1
      · obtain ⟨rfl, rfl⟩ := Text.append_sep_inj free free' e
        exact ⟨h, h'⟩

/-- `**` in front of segments that match no empty rest: they match the path itself, or what is
behind one of its separators. -/
theorem matchesSegments_globstar_cons {segments : List Segment}
    (atLeastOne : matchesSegments segments [] = false) (path : List Char) :
    matchesSegments (.globstar :: segments) (Text.split '/' path) ↔
      matchesSegments segments (Text.split '/' path) ∨
        ∃ before after, path = before ++ '/' :: after ∧
          matchesSegments segments (Text.split '/' after) := by
  simp only [matchesSegments, List.any_eq_true, List.mem_tails]
  constructor
  · rintro ⟨parts, hparts, h⟩
    have nonempty : parts ≠ [] := by
      rintro rfl
      exact absurd h (by rw [atLeastOne]; exact Bool.false_ne_true)
    obtain ⟨after, rfl, rfl | ⟨before, rfl⟩⟩ := Text.eq_split_of_suffix nonempty hparts
    · exact .inl h
    · exact .inr ⟨before, after, rfl, h⟩
  · rintro (h | ⟨before, after, rfl, h⟩)
    · exact ⟨_, List.suffix_refl _, h⟩
    · rw [Text.split_append]
      exact ⟨_, List.suffix_append _ _, h⟩

/-- The words of the tokens are the paths that the segments match. -/
theorem mem_words_segments {segments : List Segment} (wf : WellFormed segments) {path : List Char}
    (line : '\n' ∉ path) :
    path ∈ words (segmentTokens segments) ↔ matchesSegments segments (Text.split '/' path) := by
  -- Every segment of a path of one line, and every rest of it, is of one line.
  have behind {before after : List Char} (line : '\n' ∉ before ++ '/' :: after) :
      '\n' ∉ before ∧ '\n' ∉ after := by simpa using line
  fun_induction segmentTokens segments generalizing path with
  | case1 => exact absurd rfl wf.nonempty
  | case2 =>
      rw [words_cons, words_nil, mul_one, Token.mem_language_anyText]
      exact iff_of_true line (matchesSegments_globstar _)
  | case3 segments more ih =>
      have wf' := wf.tail more
      have atLeastOne : matchesSegments segments [] = false := by
        apply matchesSegments_nil wf'
        rintro rfl
        exact wf.not_globstar rfl
      rw [words_cons, Language.mem_mul, matchesSegments_globstar_cons atLeastOne]
      simp only [Token.mem_language_directories]
      constructor
      · rintro ⟨_, rfl | ⟨before, -, rfl⟩, after, h, rfl⟩
        · exact .inl ((ih wf' line).1 h)
        · rw [List.append_assoc] at line ⊢
          exact .inr ⟨before, after, rfl, (ih wf' (behind line).2).1 h⟩
      · rintro (h | ⟨before, after, rfl, h⟩)
        · exact ⟨[], .inl rfl, path, (ih wf' line).2 h, rfl⟩
        · exact ⟨before ++ ['/'], .inr ⟨before, (behind line).1, rfl⟩, after,
            (ih wf' (behind line).2).2 h, by simp⟩
  | case4 atoms =>
      rw [matchesSegments_name wf.head.2.1]
      constructor
      · exact fun h => .inl ⟨h, rfl⟩
      · rintro (h | ⟨part, -, rest, -, h⟩)
        · exact h.1
        · exact absurd (List.isEmpty_iff.1 h) (Text.split_ne_nil '/' rest)
  | case5 atoms =>
      rw [matchesSegments_name wf.head.2.1, words_append, Language.mem_mul, words_cons, words_nil,
        mul_one]
      simp only [Token.mem_language_subtree, matchesSegments_globstar, and_true]
      constructor
      · rintro ⟨part, h, _, rfl | ⟨rest, -, rfl⟩, rfl⟩
        · exact .inl (by simpa using h)
        · exact .inr ⟨part, h, rest, rfl⟩
      · rintro (h | ⟨part, h, rest, rfl⟩)
        · exact ⟨path, h, [], .inl rfl, List.append_nil _⟩
        · exact ⟨part, h, '/' :: rest, .inr ⟨rest, (behind line).2, rfl⟩, rfl⟩
  | case6 atoms segments more notLast ih =>
      have wf' := wf.tail more
      rw [matchesSegments_name wf.head.2.1, matchesSegments_nil wf' notLast, words_append,
        Language.mem_mul]
      simp only [mem_words_literal]
      constructor
      · rintro ⟨part, h, _, ⟨rest, hrest, rfl⟩, rfl⟩
        exact .inr ⟨part, h, rest, rfl, (ih wf' (behind line).2).1 hrest⟩
      · rintro (h | ⟨part, h, rest, rfl, hrest⟩)
        · exact absurd h.2 Bool.false_ne_true
        · exact ⟨part, h, '/' :: rest, ⟨rest, (ih wf' (behind line).2).2 hrest, rfl⟩, rfl⟩

theorem Atom.isPlain_token (a : Atom) : a.token.IsPlain := by
  cases a <;> exact ⟨trivial, by simp [token]⟩

/-- Segments have neither braces nor classes. -/
theorem isPlain_segmentTokens (segments : List Segment) :
    ∀ t ∈ segmentTokens segments, t.IsPlain := by
  have atoms (atoms : List Atom) : ∀ t ∈ atoms.map Atom.token, t.IsPlain :=
    List.forall_mem_map.2 fun a _ => a.isPlain_token
  fun_induction segmentTokens segments with
  | case1 => simp
  | case2 => simp [Token.IsPlain, Token.IsPiece]
  | case3 segments more ih => exact List.forall_mem_cons.2 ⟨⟨trivial, by simp⟩, ih⟩
  | case4 as => exact atoms as
  | case5 as =>
      exact List.forall_mem_append.2 ⟨atoms as, by simp [Token.IsPlain, Token.IsPiece]⟩
  | case6 as segments more notLast ih =>
      exact List.forall_mem_append.2
        ⟨atoms as, List.forall_mem_cons.2 ⟨⟨trivial, by simp⟩, ih⟩⟩

/-- A glob made of segments can be used, and it matches a path of one line if its segments match the
segments of the path. -/
theorem matches_by_segments {segments : List Segment} (wf : WellFormed segments) :
    ∃ p, pattern? (ofSegments segments) = some p ∧ ∀ path : String, '\n' ∉ path.toList →
      (p.occursIn path = true ↔ matchesSegments segments (Text.split '/' path.toList) = true) := by
  have htokens : tokens (ofSegments segments).toList = segmentTokens segments := by
    rw [tokens, ofSegments, String.toList_ofList]
    exact tokensFrom_segments wf rfl
  have plain : ∀ t ∈ tokens (ofSegments segments).toList, t.IsPlain :=
    htokens ▸ isPlain_segmentTokens segments
  obtain ⟨p, hp⟩ := exists_pattern plain
  refine ⟨p, hp, fun path line => ?_⟩
  rw [occursIn_iff (fun t ht => (plain t ht).1) hp, htokens]
  exact mem_words_segments wf line

/-- The glob `**/n?t*/**` finds `net`, with directories around it or none. -/
theorem matches_by_segments_anywhere :
    ∃ p, pattern? "**/n?t*/**" = some p ∧ p.occursIn "net" = true ∧ p.occursIn "a/b/nuts/c" = true ∧
      p.occursIn "a/nt/c" = false := by
  have wf : WellFormed [.globstar, .name [.plain 'n', .anyChar, .plain 't', .anyName], .globstar] :=
    ⟨by decide, by decide, by decide⟩
  obtain ⟨p, hp, h⟩ := matches_by_segments wf
  refine ⟨p, hp, (h "net" (by decide)).2 (by decide),
    (h "a/b/nuts/c" (by decide)).2 (by decide), ?_⟩
  rw [Bool.eq_false_iff]
  exact fun hm => absurd ((h "a/nt/c" (by decide)).1 hm) (by decide)

end Glob

end DiagnosticWatch
