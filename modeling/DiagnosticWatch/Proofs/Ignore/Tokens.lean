import DiagnosticWatch.Proofs.Ignore.Classes
import DiagnosticWatch.Proofs.Regex.Language

/-!
# What the tokens of a glob match

Outside braces every token of a glob is one piece of the regular expression, so the expression is
the sequence of these pieces between both ends of the text, and a path is matched if it is made of
one word of each token in turn.
-/

namespace DiagnosticWatch.Glob

open Regex

namespace Token

/-- A token that is a piece of the expression on its own: no part of a choice, and if it is a class,
one as it is read from a glob. -/
def IsPiece : Token → Prop
  | charClass negated body => IsClass negated body
  | openChoice | nextChoice | closeChoice => False
  | _ => True

/-- Any characters without the end of a line. -/
def anyLine : Pattern :=
  .repetition (.set (.compl (.single '\n'))) 0 none

/-- The pattern of a token, and how deep it nests. A class whose ranges make no sense has none. -/
def piece? : Token → Option (Nested Pattern)
  | literal c => some ⟨.set (.single c), 0⟩
  | anyChar => some ⟨.set (.compl (.single '/')), 1⟩
  | anyName => some ⟨.repetition (.set (.compl (.single '/'))) 0 none, 2⟩
  | anyText => some ⟨anyLine, 1⟩
  | directories => some ⟨.repetition (.seq anyLine (.set (.single '/'))) 0 (some 1), 4⟩
  | subtree => some ⟨.repetition (.seq (.set (.single '/')) anyLine) 0 (some 1), 4⟩
  | charClass negated body => (classSet? negated body).map fun s => ⟨.set s.value, s.depth⟩
  | openChoice | nextChoice | closeChoice => none

theorem isPlain_of_piece? {t : Token} {p : Nested Pattern} (h : t.piece? = some p) :
    p.value.isPlain := by
  cases t with
  | charClass negated body =>
      obtain ⟨s, -, rfl⟩ := Option.map_eq_some_iff.1 h
      rfl
  | openChoice | nextChoice | closeChoice => cases h
  | literal | anyChar | anyName | anyText | directories | subtree => cases h; rfl

/-- No token starts with a question mark, which would belong to the piece in front of it. -/
theorem head?_source_append (t : Token) (rest : List Char) :
    (t.source ++ rest).head? ≠ some '?' := by
  have differs {c : Char} (hc : c ≠ '?') : some c ≠ some '?' := fun h => hc (Option.some.inj h)
  cases t with
  | literal c =>
      change (escaped c ++ rest).head? ≠ some '?'
      unfold escaped
      split
      · exact differs (by decide)
      · rename_i hplain
        refine differs fun hc => hplain ?_
        rw [hc]
        decide
  | anyChar | anyName | charClass => exact differs (c := '[') (by decide)
  | anyText => exact differs (c := '.') (by decide)
  | directories | subtree | openChoice => exact differs (c := '(') (by decide)
  | nextChoice => exact differs (c := '|') (by decide)
  | closeChoice => exact differs (c := ')') (by decide)

theorem head?_sources_append (ts : List Token) {rest : List Char} (hrest : rest.head? ≠ some '?') :
    (ts.flatMap source ++ rest).head? ≠ some '?' := by
  cases ts with
  | nil => exact hrest
  | cons t ts =>
      rw [List.flatMap_cons, List.append_assoc]
      exact head?_source_append t _

variable {r : Reader} (outside : r.Outside)
include outside

/-- Reading a token adds its piece. -/
theorem run?_source {t : Token} (h : t.IsPiece) {rest : List Char} (hrest : rest.head? ≠ some '?') :
    r.run? (t.source ++ rest) = t.piece?.bind fun p => (r.push p).run? rest := by
  have anyChar (rest : List Char) : r.run? ((charClass true ['/']).source ++ rest) =
      (r.push ⟨.set (.compl (.single '/')), 1⟩).run? rest :=
    run?_class outside ⟨by decide, by decide⟩ rest
  cases t with
  | literal c => exact Reader.run?_escaped outside c rest
  | anyChar => exact anyChar rest
  | anyName =>
      exact (anyChar ('*' :: rest)).trans (Reader.run?_star outside _ hrest)
  | anyText =>
      exact (Reader.run?_dot outside ('*' :: rest)).trans (Reader.run?_star outside _ hrest)
  | directories =>
      calc r.run? ('(' :: '?' :: ':' :: '.' :: '*' :: '/' :: ')' :: '?' :: rest)
        _ = (r.openGroup r.level.flags).run? ('.' :: '*' :: '/' :: ')' :: '?' :: rest) :=
          Reader.run?_openGroup outside _
        _ = ((r.openGroup r.level.flags).push ⟨anyLine, 1⟩).run? ('/' :: ')' :: '?' :: rest) :=
          (Reader.run?_dot outside.openGroup _).trans
            (Reader.run?_star outside.openGroup _ (by simp))
        _ = ([⟨anyLine, 1⟩, ⟨.set (.single '/'), 0⟩].foldl Reader.push
              (r.openGroup r.level.flags)).run? (')' :: '?' :: rest) :=
          Reader.run?_escaped (outside.openGroup.push _) '/' _
        _ = _ :=
          (Reader.run?_closeGroup outside _ _).trans (Reader.run?_optional outside _ hrest)
  | subtree =>
      calc r.run? ('(' :: '?' :: ':' :: '/' :: '.' :: '*' :: ')' :: '?' :: rest)
        _ = (r.openGroup r.level.flags).run? ('/' :: '.' :: '*' :: ')' :: '?' :: rest) :=
          Reader.run?_openGroup outside _
        _ = ((r.openGroup r.level.flags).push ⟨.set (.single '/'), 0⟩).run?
              ('.' :: '*' :: ')' :: '?' :: rest) :=
          Reader.run?_escaped outside.openGroup '/' _
        _ = ([⟨.set (.single '/'), 0⟩, ⟨anyLine, 1⟩].foldl Reader.push
              (r.openGroup r.level.flags)).run? (')' :: '?' :: rest) :=
          (Reader.run?_dot (outside.openGroup.push _) _).trans
            (Reader.run?_star (outside.openGroup.push _) _ (by simp))
        _ = _ :=
          (Reader.run?_closeGroup outside _ _).trans (Reader.run?_optional outside _ hrest)
  | charClass negated body =>
      rw [run?_class outside h, piece?, Option.bind_map]
      rfl
  | openChoice | nextChoice | closeChoice => exact h.elim

/-- Reading some tokens adds their pieces in turn. -/
theorem run?_sources {ts : List Token} (h : ∀ t ∈ ts, t.IsPiece) {rest : List Char}
    (hrest : rest.head? ≠ some '?') :
    r.run? (ts.flatMap source ++ rest) =
      (ts.mapM piece?).bind fun ps => (ps.foldl Reader.push r).run? rest := by
  induction ts generalizing r with
  | nil => rfl
  | cons t ts ih =>
      have hnext := head?_sources_append ts hrest
      rw [List.flatMap_cons, List.append_assoc, run?_source outside (h t List.mem_cons_self) hnext,
        List.mapM_cons]
      cases t.piece? with
      | none => rfl
      | some p =>
          rw [Option.bind_some, ih (outside.push p) fun u hu => h u (List.mem_cons_of_mem _ hu)]
          cases ts.mapM piece? with
          | none => rfl
          | some ps => rfl

end Token

/-- Some pieces between both ends of the text. -/
def anchored (ps : List (Nested Pattern)) : List (Nested Pattern) :=
  ⟨.assertion .textStart, 0⟩ :: ps ++ [⟨.assertion .textEnd, 0⟩]

theorem foldl_push_anchored (ps : List (Nested Pattern)) :
    (anchored ps).foldl Reader.push {} =
      (ps.foldl Reader.push (Reader.push {} ⟨.assertion .textStart, 0⟩)).push
        ⟨.assertion .textEnd, 0⟩ := by
  rw [anchored, List.cons_append, List.foldl_cons, List.foldl_append]
  rfl

theorem depth_anchored_le {ps : List (Nested Pattern)} (h : ∀ p ∈ ps, p.depth ≤ 4) :
    (Reader.sequence (anchored ps)).depth ≤ depthLimit := by
  have depths : ∀ p ∈ anchored ps, p.depth ≤ 4 := by
    simpa [anchored, or_imp, forall_and] using h
  exact Nat.le_trans (depthOf_le depths) (by decide)

/-- Between both ends pieces match a text that is made of one word of each in turn. -/
theorem occursIn_anchored {ps : List (Nested Pattern)} (plain : ∀ p ∈ ps, p.value.isPlain)
    (text : String) :
    (Reader.sequence (anchored ps)).value.occursIn text = true ↔
      text.toList ∈ (ps.map (·.value.language)).prod := by
  have values : ∀ p ∈ ps.map (·.value), p.isPlain := by simpa using plain
  have between := Pattern.occursIn_anchored values text
  rw [List.map_map] at between
  rw [Reader.sequence, anchored, List.map_append, List.map_cons]
  exact between

/-- Outside braces the expression of a glob is the sequence of the pieces of its tokens. -/
theorem pattern?_eq {glob : String} (pieces : ∀ t ∈ tokens glob.toList, t.IsPiece) :
    pattern? glob = ((tokens glob.toList).mapM Token.piece?).bind fun ps =>
      let p := Reader.sequence (anchored ps)
      if p.depth ≤ depthLimit then some p.value else none := by
  have run : Reader.run? {} (source glob.toList) =
      ((tokens glob.toList).mapM Token.piece?).bind fun ps =>
        some ((anchored ps).foldl Reader.push {}) := by
    have start := Reader.run?_textStart Reader.Outside.initial
      ((tokens glob.toList).flatMap Token.source ++ ['$'])
    refine start.trans ?_
    rw [Token.run?_sources (Reader.Outside.initial.push _) pieces (by simp)]
    refine congrArg _ (funext fun ps => ?_)
    rw [Reader.run?_textEnd ((Reader.Outside.initial.push _).foldl_push ps), Reader.run?_nil,
      foldl_push_anchored]
  rw [pattern?, Pattern.parse?, run]
  cases (tokens glob.toList).mapM Token.piece? with
  | none => rfl
  | some ps => simp only [Option.bind_some, Reader.finish?_pieces]

theorem mapM_piece?_cons {t : Token} {ts : List Token} {ps : List (Nested Pattern)} :
    (t :: ts).mapM Token.piece? = some ps ↔
      ∃ p qs, t.piece? = some p ∧ ts.mapM Token.piece? = some qs ∧ ps = p :: qs := by
  rw [List.mapM_cons]
  cases t.piece? <;> cases ts.mapM Token.piece? <;> simp [eq_comm]

/-- A piece that is no class, and so has a pattern in any case. -/
def Token.IsPlain (t : Token) : Prop :=
  t.IsPiece ∧ ∀ negated body, t ≠ .charClass negated body

theorem Token.IsPlain.exists_piece {t : Token} (plain : t.IsPlain) :
    ∃ p, t.piece? = some p ∧ p.depth ≤ 4 := by
  obtain ⟨piece, classFree⟩ := plain
  cases t with
  | charClass negated body => exact absurd rfl (classFree negated body)
  | openChoice | nextChoice | closeChoice => exact piece.elim
  | _ => exact ⟨_, rfl, by simp⟩

theorem exists_pieces {ts : List Token} (plain : ∀ t ∈ ts, t.IsPlain) :
    ∃ ps, ts.mapM Token.piece? = some ps ∧ ∀ p ∈ ps, p.depth ≤ 4 := by
  induction ts with
  | nil => exact ⟨[], rfl, by simp⟩
  | cons t ts ih =>
      obtain ⟨ps, hps, hdepth⟩ := ih fun u hu => plain u (List.mem_cons_of_mem _ hu)
      obtain ⟨p, hp, hle⟩ := (plain t List.mem_cons_self).exists_piece
      have read := mapM_piece?_cons.2 ⟨p, ps, hp, hps, rfl⟩
      exact ⟨p :: ps, read, List.forall_mem_cons.2 ⟨hle, hdepth⟩⟩

theorem pattern?_of_pieces {glob : String} (pieces : ∀ t ∈ tokens glob.toList, t.IsPiece)
    {ps : List (Nested Pattern)} (h : (tokens glob.toList).mapM Token.piece? = some ps)
    (shallow : ∀ p ∈ ps, p.depth ≤ 4) :
    pattern? glob = some (Reader.sequence (anchored ps)).value := by
  rw [pattern?_eq pieces, h]
  exact if_pos (depth_anchored_le shallow)

/-- Only classes can keep a glob without braces from being used. -/
theorem exists_pattern {glob : String} (plain : ∀ t ∈ tokens glob.toList, t.IsPlain) :
    ∃ p, pattern? glob = some p := by
  obtain ⟨ps, hps, shallow⟩ := exists_pieces plain
  exact ⟨_, pattern?_of_pieces (fun t ht => (plain t ht).1) hps shallow⟩

def Token.language (t : Token) : Language Char :=
  t.piece?.elim 0 fun p => p.value.language

namespace Token

variable {w : List Char}

theorem mem_language_literal {c : Char} : w ∈ (literal c).language ↔ w = [c] := by
  simp [language, piece?]

theorem mem_language_anyChar : w ∈ anyChar.language ↔ ∃ c ≠ '/', w = [c] := by
  simp [language, piece?, CharSet.mem]

theorem mem_language_anyName : w ∈ anyName.language ↔ '/' ∉ w := by
  rw [language, piece?, Option.elim_some, Pattern.mem_language_star_set]
  exact ⟨fun h hw => absurd (h '/' hw) (by decide),
    fun h c hc => by simpa [CharSet.mem] using fun e : c = '/' => h (e ▸ hc)⟩

theorem mem_language_anyLine : w ∈ anyLine.language ↔ '\n' ∉ w := by
  rw [anyLine, Pattern.mem_language_star_set]
  exact ⟨fun h hw => absurd (h '\n' hw) (by decide),
    fun h c hc => by simpa [CharSet.mem] using fun e : c = '\n' => h (e ▸ hc)⟩

theorem mem_language_anyText : w ∈ anyText.language ↔ '\n' ∉ w :=
  mem_language_anyLine

theorem mem_language_directories :
    w ∈ directories.language ↔ w = [] ∨ ∃ v, '\n' ∉ v ∧ w = v ++ ['/'] := by
  rw [language, piece?, Option.elim_some, Pattern.mem_language_optional, Pattern.language,
    Language.mem_mul]
  simp [mem_language_anyLine, eq_comm]

theorem mem_language_subtree :
    w ∈ subtree.language ↔ w = [] ∨ ∃ v, '\n' ∉ v ∧ w = '/' :: v := by
  rw [language, piece?, Option.elim_some, Pattern.mem_language_optional, Pattern.language,
    Language.mem_mul]
  simp [mem_language_anyLine, eq_comm]

theorem mem_language_charClass {negated : Bool} {body : List Char} :
    w ∈ (charClass negated body).language ↔
      ∃ s c, classSet? negated body = some s ∧ s.value.mem c ∧ w = [c] := by
  rw [language, piece?]
  cases classSet? negated body with
  | none => simp
  | some s => simp

end Token

def words (ts : List Token) : Language Char :=
  (ts.map Token.language).prod

@[simp] theorem words_nil : words [] = 1 :=
  List.prod_nil

theorem words_cons (t : Token) (ts : List Token) : words (t :: ts) = t.language * words ts :=
  List.prod_cons

theorem words_append (ts us : List Token) : words (ts ++ us) = words ts * words us := by
  rw [words, List.map_append, List.prod_append]
  rfl

theorem mem_words_literal {c : Char} {ts : List Token} {w : List Char} :
    w ∈ words (.literal c :: ts) ↔ ∃ v ∈ words ts, w = c :: v := by
  rw [words_cons, Language.mem_mul]
  simp [Token.mem_language_literal, eq_comm]

/-- The words of tokens are those of their pieces. -/
theorem words_eq_of_pieces {ts : List Token} {ps : List (Nested Pattern)}
    (h : ts.mapM Token.piece? = some ps) : words ts = (ps.map (·.value.language)).prod := by
  induction ts generalizing ps with
  | nil => cases h; rfl
  | cons t ts ih =>
      obtain ⟨p, qs, hp, hqs, rfl⟩ := mapM_piece?_cons.1 h
      rw [words_cons, ih hqs, List.map_cons, List.prod_cons, Token.language, hp]
      rfl

theorem isPlain_of_pieces {ts : List Token} {ps : List (Nested Pattern)}
    (h : ts.mapM Token.piece? = some ps) : ∀ p ∈ ps, p.value.isPlain := by
  induction ts generalizing ps with
  | nil => cases h; simp
  | cons t ts ih =>
      obtain ⟨p, qs, hp, hqs, rfl⟩ := mapM_piece?_cons.1 h
      exact List.forall_mem_cons.2 ⟨Token.isPlain_of_piece? hp, ih hqs⟩

/-- A path is matched if it is made of one word of each token in turn. -/
theorem occursIn_iff {glob : String} (pieces : ∀ t ∈ tokens glob.toList, t.IsPiece) {p : Pattern}
    (h : pattern? glob = some p) (path : String) :
    p.occursIn path = true ↔ path.toList ∈ words (tokens glob.toList) := by
  rw [pattern?_eq pieces, Option.bind_eq_some_iff] at h
  obtain ⟨ps, hps, hp⟩ := h
  obtain rfl : (Reader.sequence (anchored ps)).value = p := by
    dsimp only at hp
    split at hp
    · exact Option.some.inj hp
    · cases hp
  rw [words_eq_of_pieces hps]
  exact occursIn_anchored (isPlain_of_pieces hps) path

end DiagnosticWatch.Glob
