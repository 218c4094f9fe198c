import DiagnosticWatch.Regex.Parser

/-!
# Reading a pattern piece by piece

Outside brackets and without flags a reader takes a text apart into pieces, one after another: each
equation here says that reading a piece adds its pattern to the present group and goes on with the
text behind it. So a text made of such pieces is read by going through the list.
-/

namespace DiagnosticWatch.Regex

theorem foldl_max_le {ds : List Nat} {m n : Nat} (hm : m ≤ n) (h : ∀ d ∈ ds, d ≤ n) :
    ds.foldl max m ≤ n := by
  induction ds generalizing m with
  | nil => exact hm
  | cons d ds ih =>
      have deepest : max m d ≤ n := Nat.max_le.2 ⟨hm, h d List.mem_cons_self⟩
      exact ih deepest fun e he => h e (List.mem_cons_of_mem _ he)

/-- Several parts nest one level deeper than the deepest of them at most. -/
theorem depthOf_le {α : Type} {parts : List (Nested α)} {n : Nat} (h : ∀ p ∈ parts, p.depth ≤ n) :
    depthOf parts ≤ n + 1 := by
  unfold depthOf
  split
  · exact Nat.zero_le _
  · exact Nat.le_succ_of_le (h _ List.mem_cons_self)
  · have deepest : (parts.map (·.depth)).foldl max 0 ≤ n :=
      foldl_max_le (Nat.zero_le _) (by simpa using h)
    omega

namespace Reader

def push (r : Reader) (p : Nested Pattern) : Reader :=
  { r with level := r.level.push (.piece p) }

/-- The reader with one more repetition in place of the piece it repeats. -/
theorem repeated?_push (r : Reader) (p : Nested Pattern) (least : Nat) (most : Option Nat)
    {cs : List Char} (h : cs.head? ≠ some '?') :
    (r.push p).repeated? least most cs =
      some (r.push ⟨.repetition p.value least most, p.depth + 1⟩, cs) := by
  unfold repeated?
  split
  · exact absurd rfl h
  · rfl

/-- Some pieces one after another, and how deep they nest together. -/
def sequence (ps : List (Nested Pattern)) : Nested Pattern :=
  ⟨.seqAll (ps.map (·.value)), depthOf ps⟩

/-- A reader that has pushed some pieces. -/
theorem foldl_push (r : Reader) (ps : List (Nested Pattern)) :
    ps.foldl push r =
      { r with
        level := { r.level with items := (ps.map Item.piece).reverse ++ r.level.items } } := by
  induction ps generalizing r with
  | nil => rfl
  | cons p ps ih => rw [List.foldl_cons, ih]; simp [push, Level.push]

/-- What a group amounts to that holds a sequence of pieces and no alternatives. -/
theorem choice_pieces (ps : List (Nested Pattern)) (flags : Flags) :
    Level.choice { items := (ps.map Item.piece).reverse, flags } = sequence ps := by
  simp [Level.choice, Level.branch, sequence, Pattern.altAll, depthOf, Function.comp_def,
    Item.pattern]

/-- A reader outside brackets, with no flag set. -/
structure Outside (r : Reader) : Prop where
  brackets : r.brackets = []
  flags : r.level.flags = {}

namespace Outside

variable {r : Reader}

theorem initial : Outside {} :=
  ⟨rfl, rfl⟩

theorem push (outside : Outside r) (p : Nested Pattern) : Outside (r.push p) :=
  ⟨outside.brackets, outside.flags⟩

theorem openGroup (outside : Outside r) : Outside (r.openGroup r.level.flags) :=
  ⟨outside.brackets, outside.flags⟩

theorem foldl_push (outside : Outside r) (ps : List (Nested Pattern)) :
    Outside (ps.foldl Reader.push r) := by
  induction ps generalizing r with
  | nil => exact outside
  | cons p ps ih => exact ih (outside.push p)

theorem step? (outside : Outside r) (c : Char) (cs : List Char) :
    r.step? (c :: cs) = r.outside? c cs := by
  rw [Reader.step?, outside.brackets]

end Outside

theorem run?_nil (r : Reader) : r.run? [] = some r := by
  rw [run?]

theorem run?_of_step {r r' : Reader} {cs rest : List Char} (h : r.step? cs = some (r', rest))
    (shorter : rest.length < cs.length) : r.run? cs = r'.run? rest := by
  cases cs with
  | nil => cases h
  | cons c cs =>
      rw [run?, h]
      exact if_pos (Nat.le_of_lt_succ shorter)

theorem run?_of_step_none {r : Reader} {cs : List Char} (h : r.step? cs = none)
    (nonempty : cs ≠ []) : r.run? cs = none := by
  cases cs with
  | nil => exact absurd rfl nonempty
  | cons c cs => rw [run?, h]

variable {r : Reader} (outside : Outside r)
include outside

/-- A step that goes on right behind its character. -/
theorem run?_of_outside {r' : Reader} {c : Char} {cs : List Char}
    (h : r.outside? c cs = some (r', cs)) : r.run? (c :: cs) = r'.run? cs :=
  run?_of_step ((outside.step? c cs).trans h) (Nat.lt_succ_self _)

/-- A character without meaning of its own, or with its meaning taken away, reads itself. -/
theorem run?_escaped (c : Char) (cs : List Char) :
    r.run? (escaped c ++ cs) = (r.push ⟨.set (.single c), 0⟩).run? cs := by
  have cased : r.level.pushPrimitive (.literal c) =
      r.level.push (.piece ⟨.set (.single c), 0⟩) := by
    simp [Level.pushPrimitive, Level.pushLeaf, Level.cased, outside.flags]
  unfold escaped
  split
  · rename_i hmeta
    have hstep : r.outside? '\\' (c :: cs) = some (r.push ⟨.set (.single c), 0⟩, cs) := by
      simp only [outside?, escape?_meta (List.contains_iff_mem.1 hmeta), Option.map_some, cased]
      rfl
    exact run?_of_step ((outside.step? _ _).trans hstep) (Nat.lt_succ_of_lt (Nat.lt_succ_self _))
  · rename_i hplain
    apply run?_of_outside outside
    unfold outside?
    -- Every character that has a case of its own there is one of the excluded ones.
    split <;> first
      | exact absurd rfl hplain
      | exact congrArg (fun l => some ({ r with level := l }, cs)) cased

theorem run?_dot (cs : List Char) :
    r.run? ('.' :: cs) = (r.push ⟨.set (.compl (.single '\n')), 0⟩).run? cs := by
  apply run?_of_outside outside
  simp only [outside?, outside.flags]
  rfl

theorem run?_textStart (cs : List Char) :
    r.run? ('^' :: cs) = (r.push ⟨.assertion .textStart, 0⟩).run? cs := by
  apply run?_of_outside outside
  simp only [outside?, outside.flags]
  rfl

theorem run?_textEnd (cs : List Char) :
    r.run? ('$' :: cs) = (r.push ⟨.assertion .textEnd, 0⟩).run? cs := by
  apply run?_of_outside outside
  simp only [outside?, outside.flags]
  rfl

/-- A star repeats the piece in front of it. -/
theorem run?_star (p : Nested Pattern) {cs : List Char} (h : cs.head? ≠ some '?') :
    (r.push p).run? ('*' :: cs) = (r.push ⟨.repetition p.value 0 none, p.depth + 1⟩).run? cs :=
  run?_of_outside (outside.push p) (repeated?_push r p 0 none h)

/-- A question mark makes the piece in front of it optional. -/
theorem run?_optional (p : Nested Pattern) {cs : List Char} (h : cs.head? ≠ some '?') :
    (r.push p).run? ('?' :: cs) =
      (r.push ⟨.repetition p.value 0 (some 1), p.depth + 1⟩).run? cs :=
  run?_of_outside (outside.push p) (repeated?_push r p 0 (some 1) h)

theorem run?_openGroup (cs : List Char) :
    r.run? ('(' :: '?' :: ':' :: cs) = (r.openGroup r.level.flags).run? cs := by
  refine run?_of_step ((outside.step? _ _).trans ?_) (by grind)
  simp [outside?, group?, setFlags?, List.takeWhile, List.dropWhile]

/-- A group of some pieces is a piece. -/
theorem run?_closeGroup (ps : List (Nested Pattern)) (cs : List Char) :
    (ps.foldl push (r.openGroup r.level.flags)).run? (')' :: cs) =
      (r.push ⟨(sequence ps).value, (sequence ps).depth + 1⟩).run? cs := by
  apply run?_of_outside (outside.openGroup.foldl_push ps)
  simp only [outside?, closeGroup?, foldl_push, openGroup, List.append_nil, choice_pieces]
  rfl

omit outside in
/-- What has been read once the text is at its end. -/
theorem finish?_pieces (ps : List (Nested Pattern)) :
    (ps.foldl push {}).finish? = some (sequence ps) := by
  simp [foldl_push, finish?, choice_pieces]

end Reader

end DiagnosticWatch.Regex
