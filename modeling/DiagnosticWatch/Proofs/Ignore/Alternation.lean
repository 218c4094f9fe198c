import DiagnosticWatch.Proofs.Ignore.Nesting
import DiagnosticWatch.Proofs.Ignore.Segments
import Mathlib.Algebra.BigOperators.Ring.List

/-!
# Groups of alternatives

A glob with flat groups matches what the globs match that come out of it by choosing one alternative
in each group. The tokens of a text depend on the character in front of it and on the one behind it,
but only on whether these are stars, separators or parts of a group; an alternative has none of them
at its ends, so the text around a group has the same tokens as the text around each of its
alternatives. What is left is that products of languages distribute over the choice.
-/

namespace DiagnosticWatch

namespace Glob

open Regex

/-- Whether a text can stand outside the groups. -/
def IsText (cs : List Char) : Prop :=
  ∀ c ∈ cs, c ∉ ['{', '}', '[', '\\']

theorem IsText.tail {c : Char} {cs : List Char} (text : IsText (c :: cs)) : IsText cs :=
  (List.forall_mem_cons.1 text).2

/-- Whether a character can stand in an alternative, as itself or as a wildcard for one
character. -/
def IsNameChar (c : Char) : Prop :=
  c ∉ ['/', '*', '{', '}', '[', ']', ',', '\\']

/-- Whether a text can be an alternative of a group. -/
def IsAlternative (cs : List Char) : Prop :=
  cs ≠ [] ∧ ∀ c ∈ cs, IsNameChar c

instance : DecidablePred IsText :=
  List.decidableBAll _

instance : DecidablePred IsNameChar :=
  fun c => inferInstanceAs (Decidable (c ∉ _))

instance : DecidablePred IsAlternative := fun cs =>
  haveI := List.decidableBAll IsNameChar cs
  inferInstanceAs (Decidable (_ ∧ _))

/-- A text and the group of alternatives behind it. -/
structure Block where
  text : List Char
  alternatives : List (List Char)
  deriving DecidableEq, Repr

/-- Blocks that a glob with flat groups is made of. -/
structure Block.IsValid (b : Block) : Prop where
  text : IsText b.text
  nonempty : b.alternatives ≠ []
  alternatives : ∀ a ∈ b.alternatives, IsAlternative a

def written (last : List Char) : List Block → List Char
  | [] => last
  | b :: blocks => b.text ++ '{' :: (Text.join ',' b.alternatives ++ '}' :: written last blocks)

/-- The globs that come out of choosing one alternative in each block. -/
def expansions (last : List Char) : List Block → List (List Char)
  | [] => [last]
  | b :: blocks =>
    b.alternatives.flatMap fun a => (expansions last blocks).map fun rest => b.text ++ (a ++ rest)

theorem isText_expansion {last : List Char} {blocks : List Block} (valid : ∀ b ∈ blocks, b.IsValid)
    (text : IsText last) : ∀ e ∈ expansions last blocks, IsText e := by
  induction blocks with
  | nil => exact List.forall_mem_singleton.2 text
  | cons b blocks ih =>
      rw [List.forall_mem_cons] at valid
      intro e he
      simp only [expansions, List.mem_flatMap, List.mem_map] at he
      obtain ⟨a, ha, rest, hrest, rfl⟩ := he
      refine List.forall_mem_append.2
        ⟨valid.1.text, List.forall_mem_append.2 ⟨?_, ih valid.2 rest hrest⟩⟩
      intro c hc
      have free := (valid.1.alternatives a ha).2 c hc
      simp only [IsNameChar, List.mem_cons, not_or] at free
      simp [free]

/-- What stands in front of a text matters only to two stars, and only for whether a segment starts
there. -/
theorem tokensFrom_previous {p q : Option Char} {cs : List Char}
    (same : cs.head? = some '*' → startsSegment p = startsSegment q) (depth : Nat) :
    tokensFrom p depth cs = tokensFrom q depth cs := by
  rw [tokensFrom.eq_def p, tokensFrom.eq_def q]
  split
  -- Two stars in front of a separator are the only case that looks back.
  case h_2 => rw [same rfl]
  all_goals rfl

/-- The tokens of a text that goes on with neither a star nor a separator. -/
def textTokens (start : Bool) : List Char → List Token
  | [] => []
  | '*' :: '*' :: '/' :: cs =>
    if start then .directories :: textTokens true cs
    else .anyText :: .literal '/' :: textTokens true cs
  | '*' :: '*' :: cs => .anyText :: textTokens false cs
  | '*' :: cs => .anyName :: textTokens false cs
  | '?' :: cs => .anyChar :: textTokens false cs
  | c :: cs => .literal c :: textTokens (startsSegment (some c)) cs

theorem Token.isPlain_cons {t : Token} {ts : List Token} (piece : t.IsPiece)
    (classFree : t.isClass = false) (hts : ∀ u ∈ ts, u.IsPlain) : ∀ u ∈ t :: ts, u.IsPlain := by
  refine List.forall_mem_cons.2 ⟨⟨piece, ?_⟩, hts⟩
  rintro negated body rfl
  cases classFree

theorem Token.IsPlain.isClass {t : Token} (plain : t.IsPlain) : t.isClass = false := by
  cases t with
  | charClass negated body => exact absurd rfl (plain.2 negated body)
  | _ => rfl

theorem isPlain_textTokens (start : Bool) (cs : List Char) :
    ∀ t ∈ textTokens start cs, t.IsPlain := by
  fun_induction textTokens start cs with
  | case1 => simp
  | case3 start cs _ ih => exact Token.isPlain_cons trivial rfl (Token.isPlain_cons trivial rfl ih)
  | _ =>
      rename_i ih
      exact Token.isPlain_cons trivial rfl ih

/-- A text that starts with neither a star nor a separator. -/
def OpensName (cs : List Char) : Prop :=
  ∃ c tail, cs = c :: tail ∧ c ≠ '*' ∧ c ≠ '/'

theorem OpensName.append_ne {rest : List Char} (opens : OpensName rest) {d : Char}
    (hd : d = '*' ∨ d = '/') {cs : List Char} (h : ∀ tail, cs ≠ d :: tail) (tail : List Char) :
    cs ++ rest ≠ d :: tail := by
  cases cs with
  | nil =>
      obtain ⟨c, more, rfl, star, slash⟩ := opens
      rintro ⟨⟩
      exact hd.elim star slash
  | cons c cs =>
      intro e
      obtain ⟨rfl, -⟩ := List.cons.inj e
      exact h cs rfl

/-- A separator with more behind it stands for itself, even in front of two stars. -/
theorem OpensName.tokensFrom_separator {rest : List Char} (opens : OpensName rest)
    (previous : Option Char) (cs : List Char) :
    tokensFrom previous 0 ('/' :: (cs ++ rest)) =
      .literal '/' :: tokensFrom (some '/') 0 (cs ++ rest) := by
  by_cases stars : ∃ tail, cs ++ rest = '*' :: '*' :: tail
  · obtain ⟨tail, htail⟩ := stars
    rw [htail, tokensFrom_sep_globstar, if_neg]
    intro ends
    cases tail with
    | nil =>
        obtain ⟨c, more, rfl, star, -⟩ := opens
        have last : c ∈ ['*', '*'] := htail ▸ List.mem_append_right cs List.mem_cons_self
        simp [star] at last
    | cons d tail => simp [endsHere] at ends
  · exact tokensFrom_sep_literal previous fun tail e => stars ⟨tail, e⟩

/-- The tokens of a text with more behind it depend neither on what that is nor, beyond whether a
segment starts there, on what stands in front. -/
theorem tokensFrom_text {cs : List Char} (text : IsText cs) {rest : List Char}
    (opens : OpensName rest) (previous : Option Char) :
    tokensFrom previous 0 (cs ++ rest) =
      textTokens (startsSegment previous) cs ++ tokensFrom none 0 rest := by
  generalize hstart : startsSegment previous = start
  fun_induction textTokens start cs generalizing previous with
  | case1 start =>
      obtain ⟨c, tail, rfl, star, -⟩ := opens
      apply tokensFrom_previous
      intro h
      exact absurd (Option.some.inj h) star
  | case2 cs ih =>
      change tokensFrom previous 0 ('*' :: '*' :: '/' :: (cs ++ rest)) = _
      rw [tokensFrom, if_pos hstart, ih text.tail.tail.tail (some '/') rfl]
      rfl
  | case3 start cs notStart ih =>
      change tokensFrom previous 0 ('*' :: '*' :: '/' :: (cs ++ rest)) = _
      rw [tokensFrom, hstart, if_neg notStart, opens.tokensFrom_separator,
        ih text.tail.tail.tail (some '/') rfl]
      rfl
  | case4 start cs slash ih =>
      rw [List.cons_append, List.cons_append, tokensFrom, ih text.tail.tail (some '*') rfl]
      · rfl
      · exact opens.append_ne (.inr rfl) slash
  | case5 start cs _ star ih =>
      have star := opens.append_ne (.inl rfl) star
      rw [List.cons_append, tokensFrom_anyName, ih text.tail (some '*') rfl]
      · rfl
      · intro h
        obtain ⟨tail, e⟩ := List.head?_eq_some_iff.1 h
        exact star tail e
  | case6 start cs ih =>
      rw [List.cons_append, tokensFrom, ih text.tail (some '?') rfl]
      rfl
  | case7 start c cs _ _ star question ih =>
      have ih := ih text.tail (some c) rfl
      by_cases separator : c = '/'
      · subst separator
        rw [List.cons_append, opens.tokensFrom_separator, ih]
        rfl
      · have valid : (Atom.plain c).isValid := by
          have free := (List.forall_mem_cons.1 text).1
          simp_all [Atom.isValid]
        rw [List.cons_append, tokensFrom_plain valid, ih]
        rfl

/-- A text at the end of a glob has only pieces, and no classes. -/
theorem isPlain_tokensFrom {cs : List Char} (text : IsText cs) (previous : Option Char)
    {depth : Nat} (outer : depth = 0) : ∀ t ∈ tokensFrom previous depth cs, t.IsPlain := by
  have excluded {c : Char} {cs : List Char} (text : IsText (c :: cs))
      (hc : c ∈ ['{', '}', '[', '\\']) : False :=
    (List.forall_mem_cons.1 text).1 hc
  fun_induction tokensFrom previous depth cs with
  | case1 => simp [outer]
  | case2 | case7 =>
      rename_i ih
      exact Token.isPlain_cons trivial rfl (ih text.tail.tail.tail outer)
  | case3 | case4 =>
      rename_i ih
      exact Token.isPlain_cons trivial rfl (ih text.tail.tail outer)
  | case5 | case6 | case8 | case16 =>
      rename_i ih
      exact Token.isPlain_cons trivial rfl (ih text.tail outer)
  -- A brace, a bracket or a backslash.
  | case9 | case10 | case11 | case13 | case14 | case15 => exact (excluded text (by decide)).elim
  | case12 previous depth cs ih =>
      rw [if_neg (by omega)]
      exact Token.isPlain_cons trivial rfl (ih text.tail outer)

def nameToken (c : Char) : Token :=
  if c = '?' then .anyChar else .literal c

def alternativeTokens : List (List Char) → List Token
  | [] => []
  | [a] => a.map nameToken
  | a :: as => a.map nameToken ++ .nextChoice :: alternativeTokens as

/-- No segment starts behind a character of an alternative, nor behind the end of a group. -/
theorem tokensFrom_nameChar {c : Char} (hc : IsNameChar c) (previous : Option Char) (depth : Nat)
    (rest : List Char) :
    tokensFrom previous depth (c :: rest) = nameToken c :: tokensFrom (some '}') depth rest := by
  simp only [IsNameChar, List.mem_cons, List.not_mem_nil, or_false, not_or] at hc
  obtain ⟨slash, star, opening, closing, bracket, closingBracket, comma, backslash⟩ := hc
  have behind : tokensFrom (some c) depth rest = tokensFrom (some '}') depth rest := by
    refine tokensFrom_previous (fun _ => ?_) depth
    simp [startsSegment, slash, opening, comma]
  by_cases question : c = '?'
  · subst question
    rw [tokensFrom, behind]
    rfl
  · rw [tokensFrom, behind, nameToken, if_neg question]
    all_goals simp_all

theorem tokensFrom_alternative {a : List Char} (valid : IsAlternative a)
    (previous : Option Char) (depth : Nat) (rest : List Char) :
    tokensFrom previous depth (a ++ rest) =
      a.map nameToken ++ tokensFrom (some '}') depth rest := by
  obtain ⟨nonempty, names⟩ := valid
  induction a generalizing previous with
  | nil => exact absurd rfl nonempty
  | cons c a ih =>
      obtain ⟨hc, ha⟩ := List.forall_mem_cons.1 names
      rw [List.cons_append, tokensFrom_nameChar hc]
      by_cases last : a = []
      · subst last
        rfl
      · rw [ih (some '}') last ha]
        rfl

theorem tokensFrom_alternatives {as : List (List Char)} (nonempty : as ≠ [])
    (valid : ∀ a ∈ as, IsAlternative a) (previous : Option Char) (rest : List Char) :
    tokensFrom previous 1 (Text.join ',' as ++ '}' :: rest) =
      alternativeTokens as ++ .closeChoice :: tokensFrom (some '}') 0 rest := by
  fun_induction alternativeTokens as generalizing previous with
  | case1 => exact absurd rfl nonempty
  | case2 a =>
      obtain ⟨first, -⟩ := List.forall_mem_cons.1 valid
      have closing : tokensFrom (some '}') 1 ('}' :: rest) =
          .closeChoice :: tokensFrom (some '}') 0 rest := by
        rw [tokensFrom]
        rfl
      rw [Text.join, tokensFrom_alternative first, closing]
  | case3 a as more ih =>
      obtain ⟨first, others⟩ := List.forall_mem_cons.1 valid
      have next (cs : List Char) : tokensFrom (some '}') 1 (',' :: cs) =
          .nextChoice :: tokensFrom (some ',') 1 cs := by
        rw [tokensFrom]
        rfl
      rw [Text.join, List.append_assoc, tokensFrom_alternative first, List.cons_append, next,
        ih more others, List.append_assoc]
      · rfl
      · exact more

namespace Block

variable {b : Block}

/-- The tokens of a block: those of its text, and a group. -/
theorem IsValid.tokensFrom_written (valid : b.IsValid) (previous : Option Char) (rest : List Char) :
    tokensFrom previous 0 (b.text ++ '{' :: (Text.join ',' b.alternatives ++ '}' :: rest)) =
      textTokens (startsSegment previous) b.text ++
        (.openChoice :: (alternativeTokens b.alternatives ++ [.closeChoice]) ++
          tokensFrom (some '}') 0 rest) := by
  have opens : OpensName ('{' :: (Text.join ',' b.alternatives ++ '}' :: rest)) :=
    ⟨'{', _, rfl, by decide, by decide⟩
  have group : tokensFrom none 0 ('{' :: (Text.join ',' b.alternatives ++ '}' :: rest)) =
      .openChoice :: tokensFrom (some '{') 1 (Text.join ',' b.alternatives ++ '}' :: rest) := by
    rw [tokensFrom]
  rw [tokensFrom_text valid.text opens, group,
    tokensFrom_alternatives valid.nonempty valid.alternatives]
  simp

/-- The tokens of a block in which an alternative is chosen: those of its text, and of the
alternative. -/
theorem IsValid.tokensFrom_chosen (valid : b.IsValid) {a : List Char} (ha : a ∈ b.alternatives)
    (previous : Option Char) (rest : List Char) :
    tokensFrom previous 0 (b.text ++ (a ++ rest)) =
      textTokens (startsSegment previous) b.text ++
        (a.map nameToken ++ tokensFrom (some '}') 0 rest) := by
  obtain ⟨nonempty, name⟩ := valid.alternatives a ha
  have opens : OpensName (a ++ rest) := by
    cases a with
    | nil => exact absurd rfl nonempty
    | cons c a =>
        have hc := (List.forall_mem_cons.1 name).1
        refine ⟨c, a ++ rest, rfl, ?_, ?_⟩
        · rintro rfl
          exact hc (by decide)
        · rintro rfl
          exact hc (by decide)
  rw [tokensFrom_text valid.text opens, tokensFrom_alternative (valid.alternatives a ha)]

end Block

/-- Some tokens are read as pieces that nest a little at most, and whose words are those of a
language. -/
def Reads (ts : List Token) (L : Language Char) : Prop :=
  ∃ ps : List (Nested Pattern),
    (∀ r : Reader, ts.foldlM Token.take? r = some (ps.foldl Reader.push r)) ∧
    (∀ p ∈ ps, p.depth ≤ 4 ∧ p.value.isPlain) ∧ (ps.map (·.value.language)).prod = L

theorem Token.take?_of_piece {t : Token} {p : Nested Pattern} (h : t.piece? = some p) (r : Reader) :
    t.take? r = some (r.push p) := by
  cases t with
  | openChoice | nextChoice | closeChoice => cases h
  | _ => exact congrArg (Option.map r.push) h

theorem foldlM_take_of_pieces {ts : List Token} {ps : List (Nested Pattern)}
    (h : ts.mapM Token.piece? = some ps) (r : Reader) :
    ts.foldlM Token.take? r = some (ps.foldl Reader.push r) := by
  induction ts generalizing ps r with
  | nil =>
      cases h
      rfl
  | cons t ts ih =>
      obtain ⟨p, qs, hp, hqs, rfl⟩ := mapM_piece?_cons.1 h
      rw [List.foldlM_cons, Token.take?_of_piece hp]
      exact ih hqs (r.push p)

namespace Reads

variable {ts us : List Token} {L M : Language Char}

/-- Outside groups the words are those of the tokens. -/
theorem words (plain : ∀ t ∈ ts, t.IsPlain) : Reads ts (Glob.words ts) := by
  obtain ⟨ps, hps, hdepth⟩ := exists_pieces plain
  refine ⟨ps, foldlM_take_of_pieces hps, ?_, (words_eq_of_pieces hps).symm⟩
  intro p hp
  exact ⟨hdepth p hp, isPlain_of_pieces hps p hp⟩

theorem append (hts : Reads ts L) (hus : Reads us M) : Reads (ts ++ us) (L * M) := by
  obtain ⟨ps, hread, hps, rfl⟩ := hts
  obtain ⟨qs, hread', hqs, rfl⟩ := hus
  refine ⟨ps ++ qs, ?_, List.forall_mem_append.2 ⟨hps, hqs⟩, ?_⟩
  · intro r
    rw [List.foldlM_append, hread, List.foldl_append]
    exact hread' _
  · rw [List.map_append, List.prod_append]

/-- A glob that is read can be used, and matches the words. -/
theorem exists_pattern {glob : String} (reads : Reads (tokens glob.toList) L)
    (classFree : ∀ t ∈ tokens glob.toList, t.isClass = false) :
    ∃ p, pattern? glob = some p ∧ ∀ path : String, p.occursIn path = true ↔ path.toList ∈ L := by
  obtain ⟨ps, hread, hps, rfl⟩ := reads
  have outside : (ps.foldl Reader.push (Reader.push {} ⟨.assertion .textStart, 0⟩)).Outside :=
    (Reader.Outside.initial.push _).foldl_push ps
  have read : (Reader.run? {} (source glob.toList)).bind Reader.finish? =
      some (Reader.sequence (anchored ps)) := by
    rw [run?_tokens classFree outside (hread _), Option.bind_some, ← foldl_push_anchored,
      Reader.finish?_pieces]
  have shallow := depth_anchored_le fun p hp => (hps p hp).1
  exact ⟨_, pattern?_of_read read shallow, occursIn_anchored fun p hp => (hps p hp).2⟩

end Reads

/-- The pattern of a character of an alternative. -/
def namePiece (c : Char) : Nested Pattern :=
  if c = '?' then ⟨.set (.compl (.single '/')), 1⟩ else ⟨.set (.single c), 0⟩

theorem mapM_piece?_name (a : List Char) :
    (a.map nameToken).mapM Token.piece? = some (a.map namePiece) := by
  induction a with
  | nil => rfl
  | cons c a ih =>
      refine mapM_piece?_cons.2 ⟨namePiece c, _, ?_, ih, rfl⟩
      unfold nameToken namePiece
      split
      · rfl
      · rfl

/-- An alternative as a branch of its group. -/
def branchOf (a : List Char) : Nested Pattern :=
  Reader.sequence (a.map namePiece)

theorem depth_branchOf (a : List Char) : (branchOf a).depth ≤ 2 := by
  apply depthOf_le
  rw [List.forall_mem_map]
  intro c _
  unfold namePiece
  split
  · exact Nat.le_refl 1
  · exact Nat.zero_le 1

theorem isPlain_branchOf (a : List Char) : (branchOf a).value.isPlain := by
  apply Pattern.isPlain_seqAll
  rw [List.forall_mem_map]
  exact isPlain_of_pieces (mapM_piece?_name a)

theorem language_branchOf (a : List Char) :
    (branchOf a).value.language = words (a.map nameToken) := by
  rw [words_eq_of_pieces (mapM_piece?_name a), branchOf, Reader.sequence, Pattern.language_seqAll,
    List.map_map]
  rfl

theorem foldlM_take_alternative (a : List Char) {r : Reader} (start : r.level.items = []) :
    ∃ l : Level, (a.map nameToken).foldlM Token.take? r = some { r with level := l } ∧
      l.branches = r.level.branches ∧ l.branch = branchOf a := by
  refine ⟨{ r.level with items := ((a.map namePiece).map Item.piece).reverse }, ?_, rfl, ?_⟩
  · rw [foldlM_take_of_pieces (mapM_piece?_name a), Reader.foldl_push, start, List.append_nil]
  · simp [Level.branch, branchOf, Reader.sequence, Function.comp_def, Item.pattern]

/-- Reading the alternatives of a group adds a branch for each of them; the last one is the present
branch. -/
theorem foldlM_take_alternatives {as : List (List Char)} (nonempty : as ≠ []) {r : Reader}
    (start : r.level.items = []) :
    ∃ l : Level, (alternativeTokens as).foldlM Token.take? r = some { r with level := l } ∧
      l.branches.reverse ++ [l.branch] = r.level.branches.reverse ++ as.map branchOf := by
  fun_induction alternativeTokens as generalizing r with
  | case1 => exact absurd rfl nonempty
  | case2 a =>
      obtain ⟨l, hread, hbranches, hbranch⟩ := foldlM_take_alternative a start
      exact ⟨l, hread, by rw [hbranches, hbranch]; rfl⟩
  | case3 a as more ih =>
      obtain ⟨l, hread, hbranches, hbranch⟩ := foldlM_take_alternative a start
      obtain ⟨l', hrest, hparts⟩ := ih more (r := { r with level := l.nextBranch }) rfl
      refine ⟨l', ?_, ?_⟩
      · rw [List.foldlM_append, hread]
        exact hrest
      · rw [hparts, Level.nextBranch, hbranches, hbranch]
        simp

theorem isClass_alternativeTokens (as : List (List Char)) :
    ∀ t ∈ alternativeTokens as, t.isClass = false := by
  have name (a : List Char) : ∀ t ∈ a.map nameToken, t.isClass = false := by
    rw [List.forall_mem_map]
    intro c _
    unfold nameToken
    split
    · rfl
    · rfl
  fun_induction alternativeTokens as with
  | case1 => simp
  | case2 a => exact name a
  | case3 a as more ih => exact List.forall_mem_append.2 ⟨name a, List.forall_mem_cons.2 ⟨rfl, ih⟩⟩

def groupPiece (a : List Char) (more : List (List Char)) : Nested Pattern :=
  ⟨.altAll (branchOf a).value (more.map fun b => (branchOf b).value),
    depthOf ((a :: more).map branchOf) + 1⟩

theorem depth_groupPiece (a : List Char) (more : List (List Char)) :
    (groupPiece a more).depth ≤ 4 := by
  have branches : ∀ p ∈ (a :: more).map branchOf, p.depth ≤ 2 := by
    rw [List.forall_mem_map]
    intro b _
    exact depth_branchOf b
  exact Nat.succ_le_succ (depthOf_le branches)

theorem isPlain_groupPiece (a : List Char) (more : List (List Char)) :
    (groupPiece a more).value.isPlain := by
  refine Pattern.isPlain_altAll (List.forall_mem_cons.2 ⟨isPlain_branchOf a, ?_⟩)
  rw [List.forall_mem_map]
  intro b _
  exact isPlain_branchOf b

theorem language_groupPiece (a : List Char) (more : List (List Char)) :
    (groupPiece a more).value.language =
      ((a :: more).map fun b => words (b.map nameToken)).sum := by
  rw [groupPiece, Pattern.language_altAll]
  simp [Function.comp_def, language_branchOf]

theorem foldlM_take_group (a : List Char) (more : List (List Char)) (r : Reader) :
    (Token.openChoice :: (alternativeTokens (a :: more) ++ [.closeChoice])).foldlM Token.take? r =
      some (r.push (groupPiece a more)) := by
  obtain ⟨l, hread, hparts⟩ := foldlM_take_alternatives (List.cons_ne_nil a more)
    (r := r.openGroup r.level.flags) rfl
  have choice : l.choice = ⟨(groupPiece a more).value, depthOf ((a :: more).map branchOf)⟩ := by
    rw [Level.choice, hparts]
    simp [groupPiece, Reader.openGroup, Function.comp_def]
  have close : ({ r.openGroup r.level.flags with level := l } : Reader).closeGroup? =
      some (r.push (groupPiece a more)) := by
    rw [Reader.closeGroup?, choice]
    rfl
  rw [List.foldlM_cons, Token.take?, Option.bind_eq_bind, Option.bind_some, List.foldlM_append,
    hread, Option.bind_eq_bind, Option.bind_some, List.foldlM_cons, Token.take?, close]
  rfl

/-- A group is read as one piece, and its words are those of its alternatives taken together. -/
theorem reads_group {as : List (List Char)} (nonempty : as ≠ []) :
    Reads (.openChoice :: (alternativeTokens as ++ [.closeChoice]))
      (as.map fun a => words (a.map nameToken)).sum := by
  obtain ⟨a, more, rfl⟩ := List.exists_cons_of_ne_nil nonempty
  refine ⟨[groupPiece a more], foldlM_take_group a more, ?_, ?_⟩
  · rw [List.forall_mem_singleton]
    exact ⟨depth_groupPiece a more, isPlain_groupPiece a more⟩
  · rw [List.map_singleton, List.prod_singleton, language_groupPiece]

variable {last : List Char} {blocks : List Block}

/-- The words of a glob with groups are those of its expansions taken together. -/
theorem reads_written (valid : ∀ b ∈ blocks, b.IsValid) (text : IsText last)
    (previous : Option Char) :
    Reads (tokensFrom previous 0 (written last blocks))
      ((expansions last blocks).map fun e => words (tokensFrom previous 0 e)).sum := by
  induction blocks generalizing previous with
  | nil =>
      have reads := Reads.words (isPlain_tokensFrom text previous rfl)
      rwa [expansions, List.map_singleton, List.sum_singleton]
  | cons b blocks ih =>
      obtain ⟨hb, hblocks⟩ := List.forall_mem_cons.1 valid
      let before := words (textTokens (startsSegment previous) b.text)
      let behind := ((expansions last blocks).map fun e => words (tokensFrom (some '}') 0 e)).sum
      have chosen : ∀ a ∈ b.alternatives,
          ((expansions last blocks).map fun e =>
            words (tokensFrom previous 0 (b.text ++ (a ++ e)))).sum =
            before * (words (a.map nameToken) * behind) := by
        intro a ha
        simp only [hb.tokensFrom_chosen ha, words_append, List.sum_map_mul_left, before, behind]
      have distributed :
          ((expansions last (b :: blocks)).map fun e => words (tokensFrom previous 0 e)).sum =
            before * ((b.alternatives.map fun a => words (a.map nameToken)).sum * behind) := by
        calc ((expansions last (b :: blocks)).map fun e => words (tokensFrom previous 0 e)).sum
          _ = (b.alternatives.map fun a => ((expansions last blocks).map fun e =>
                words (tokensFrom previous 0 (b.text ++ (a ++ e)))).sum).sum := by
            rw [expansions, List.map_flatMap, List.flatMap_def, List.sum_flatten, List.map_map]
            simp only [List.map_map, Function.comp_def]
          _ = (b.alternatives.map fun a => before * (words (a.map nameToken) * behind)).sum := by
            rw [List.map_congr_left chosen]
          _ = before * ((b.alternatives.map fun a => words (a.map nameToken)).sum * behind) := by
            rw [List.sum_map_mul_left, List.sum_map_mul_right]
      rw [written, hb.tokensFrom_written, distributed]
      exact (Reads.words (isPlain_textTokens _ _)).append
        ((reads_group hb.nonempty).append (ih hblocks (some '}')))

theorem isClass_written (valid : ∀ b ∈ blocks, b.IsValid) (text : IsText last)
    (previous : Option Char) :
    ∀ t ∈ tokensFrom previous 0 (written last blocks), t.isClass = false := by
  induction blocks generalizing previous with
  | nil =>
      intro t ht
      exact (isPlain_tokensFrom text previous rfl t ht).isClass
  | cons b blocks ih =>
      obtain ⟨hb, hblocks⟩ := List.forall_mem_cons.1 valid
      rw [written, hb.tokensFrom_written]
      refine List.forall_mem_append.2 ⟨?_, List.forall_mem_append.2 ⟨?_, ih hblocks (some '}')⟩⟩
      · intro t ht
        exact (isPlain_textTokens _ _ t ht).isClass
      · refine List.forall_mem_cons.2 ⟨rfl, List.forall_mem_append.2 ⟨?_, ?_⟩⟩
        · exact isClass_alternativeTokens b.alternatives
        · exact List.forall_mem_singleton.2 rfl

/-- A glob can be used, and matches a path. -/
def Matches (glob path : String) : Prop :=
  ∃ p, pattern? glob = some p ∧ p.occursIn path = true

/-- A glob with groups can be used, like each of its expansions, and matches what at least one of
them matches. -/
theorem matches_expansion (valid : ∀ b ∈ blocks, b.IsValid) (text : IsText last) :
    (∀ glob ∈ written last blocks :: expansions last blocks,
        ∃ p, pattern? (String.ofList glob) = some p) ∧
      ∀ path, Matches (String.ofList (written last blocks)) path ↔
        ∃ e ∈ expansions last blocks, Matches (String.ofList e) path := by
  have group : ∃ p, pattern? (String.ofList (written last blocks)) = some p ∧
      ∀ path : String, p.occursIn path = true ↔
        path.toList ∈ ((expansions last blocks).map fun e => words (tokens e)).sum := by
    apply Reads.exists_pattern
    · rw [String.toList_ofList]
      exact reads_written valid text none
    · rw [String.toList_ofList]
      exact isClass_written valid text none
  have chosen : ∀ e ∈ expansions last blocks, ∃ q, pattern? (String.ofList e) = some q ∧
      ∀ path : String, q.occursIn path = true ↔ path.toList ∈ words (tokens e) := by
    intro e he
    have plain : ∀ t ∈ tokens (String.ofList e).toList, t.IsPlain := by
      rw [String.toList_ofList]
      exact isPlain_tokensFrom (isText_expansion valid text e he) none rfl
    obtain ⟨q, hq⟩ := exists_pattern plain
    refine ⟨q, hq, ?_⟩
    intro path
    rw [occursIn_iff (fun t ht => (plain t ht).1) hq, String.toList_ofList]
  obtain ⟨p, hp, hmatch⟩ := group
  constructor
  · refine List.forall_mem_cons.2 ⟨⟨p, hp⟩, ?_⟩
    intro e he
    obtain ⟨q, hq, -⟩ := chosen e he
    exact ⟨q, hq⟩
  · intro path
    constructor
    · rintro ⟨p', hp', found⟩
      obtain rfl := Option.some.inj (hp.symm.trans hp')
      obtain ⟨e, he, hword⟩ := Pattern.mem_sum_map.1 ((hmatch path).1 found)
      obtain ⟨q, hq, hmatch'⟩ := chosen e he
      exact ⟨e, he, q, hq, (hmatch' path).2 hword⟩
    · rintro ⟨e, he, q', hq', found⟩
      obtain ⟨q, hq, hmatch'⟩ := chosen e he
      obtain rfl := Option.some.inj (hq.symm.trans hq')
      exact ⟨p, hp, (hmatch path).2 (Pattern.mem_sum_map.2 ⟨e, he, (hmatch' path).1 found⟩)⟩

/-- The glob `**/{lib?,src}/**.{ts,tsx}` finds a file below `libs`, and none below `lib`. -/
theorem matches_expansion_libs :
    let blocks : List Block :=
      [⟨"**/".toList, ["lib?".toList, "src".toList]⟩, ⟨"/**.".toList, ["ts".toList, "tsx".toList]⟩]
    let glob := "**/\x7blib?,src\x7d/**.\x7bts,tsx\x7d"
    ((∀ b ∈ blocks, b.IsValid) ∧ IsText []) ∧ String.ofList (written [] blocks) = glob ∧
      Matches glob "web/libs/a/b.tsx" ∧ ¬ Matches glob "web/lib/a/b.tsx" := by
  intro blocks glob
  have valid : ∀ b ∈ blocks, b.IsValid := by
    refine List.forall_mem_cons.2 ⟨?_, List.forall_mem_singleton.2 ?_⟩
    · exact ⟨by decide, by decide, by decide⟩
    · exact ⟨by decide, by decide, by decide⟩
  have text : IsText [] := by decide
  have same : String.ofList (written [] blocks) = glob := by decide +kernel
  have expanded := (matches_expansion valid text).2
  rw [same] at expanded
  refine ⟨⟨valid, text⟩, same, (expanded _).2 ?_, ?_⟩
  · have found : (pattern? "**/lib?/**.tsx").any (·.occursIn "web/libs/a/b.tsx") = true := by
      decide +kernel
    obtain ⟨q, hq, hmatch⟩ := (Option.any_eq_true _ _).1 found
    exact ⟨"**/lib?/**.tsx".toList, by decide, q, hq, hmatch⟩
  · intro hit
    obtain ⟨e, he, q, hq, hmatch⟩ := (expanded _).1 hit
    have apart : ∀ e ∈ expansions [] blocks,
        (pattern? (String.ofList e)).any (·.occursIn "web/lib/a/b.tsx") = false := by
      decide +kernel
    have missed := apart e he
    rw [hq, Option.any_some, hmatch] at missed
    cases missed

end Glob

end DiagnosticWatch
