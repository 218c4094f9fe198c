import DiagnosticWatch.Ignore.Filter
import DiagnosticWatch.Proofs.Ignore.Tokens

/-!
# Globs with braces

A brace of a glob opens, divides or closes a group of the expression, and every other token is a
piece in the present group. The depth that is counted along a glob is the number of groups that are
open, so a closing brace that closes nothing is a character, and the groups that are left open are
closed at the end. Hence every glob without classes stands for an expression, however its braces are
arranged: the reader never meets a closing parenthesis too many, and no piece starts like a
repetition of the piece in front of it. How deep the expression nests is bounded by the number of
opening braces.
-/

namespace DiagnosticWatch

namespace Regex

namespace Level

/-- A bound for how deep the items of a group nest, and one more for its branches. -/
structure Within (depth : Nat) (l : Level) : Prop where
  items : ∀ item ∈ l.items, item.pattern.depth ≤ depth
  branches : ∀ b ∈ l.branches, b.depth ≤ depth + 1

variable {l : Level} {depth : Nat}

theorem within_empty (flags : Flags) (depth : Nat) : Within depth { flags } :=
  ⟨by simp, by simp⟩

theorem Within.push (h : l.Within depth) {p : Nested Pattern} (hp : p.depth ≤ depth) :
    (l.push (.piece p)).Within depth :=
  ⟨List.forall_mem_cons.2 ⟨hp, h.items⟩, h.branches⟩

theorem Within.depth_branch (h : l.Within depth) : l.branch.depth ≤ depth + 1 := by
  have parts : ∀ p ∈ l.items.reverse.map Item.pattern, p.depth ≤ depth := by
    rw [List.forall_mem_map]
    intro item hitem
    exact h.items item (List.mem_reverse.1 hitem)
  exact depthOf_le parts

theorem Within.nextBranch (h : l.Within depth) : l.nextBranch.Within depth :=
  ⟨by simp [Level.nextBranch], List.forall_mem_cons.2 ⟨h.depth_branch, h.branches⟩⟩

theorem Within.depth_choice (h : l.Within depth) : l.choice.depth ≤ depth + 2 := by
  have parts : ∀ b ∈ l.branches.reverse ++ [l.branch], b.depth ≤ depth + 1 := by
    simp only [List.mem_append, List.mem_reverse, List.mem_singleton]
    rintro b (hb | rfl)
    · exact h.branches b hb
    · exact h.depth_branch
  unfold Level.choice
  split
  · exact Nat.le_succ_of_le h.depth_branch
  · rename_i heq
    rw [heq] at parts
    exact depthOf_le parts

end Level

namespace Reader

def nextBranch (r : Reader) : Reader :=
  { r with level := r.level.nextBranch }

/-- A reader outside brackets, with no flag set in any open group. -/
structure Flagless (r : Reader) : Prop extends Outside r where
  outer : ∀ l ∈ r.outer, l.flags = {}

namespace Flagless

variable {r : Reader}

theorem initial : Flagless {} :=
  ⟨Outside.initial, by simp⟩

theorem push (h : r.Flagless) (p : Nested Pattern) : (r.push p).Flagless :=
  ⟨h.toOutside.push p, h.outer⟩

theorem openGroup (h : r.Flagless) : (r.openGroup r.level.flags).Flagless :=
  ⟨h.toOutside.openGroup, List.forall_mem_cons.2 ⟨h.flags, h.outer⟩⟩

theorem nextBranch (h : r.Flagless) : r.nextBranch.Flagless :=
  ⟨⟨h.brackets, h.flags⟩, h.outer⟩

theorem closeGroup? (h : r.Flagless) {r' : Reader} (hr : r.closeGroup? = some r') :
    r'.Flagless := by
  rw [Reader.closeGroup?] at hr
  split at hr
  · cases hr
  · rename_i l outer houter
    obtain rfl := Option.some.inj hr
    have flags := h.outer
    rw [houter, List.forall_mem_cons] at flags
    exact ⟨⟨h.brackets, flags.1⟩, flags.2⟩

end Flagless

variable {r : Reader} (outside : Outside r)
include outside

theorem run?_nextBranch (cs : List Char) : r.run? ('|' :: cs) = r.nextBranch.run? cs :=
  run?_of_outside outside rfl

theorem run?_closing (cs : List Char) : r.run? (')' :: cs) = r.closeGroup?.bind (·.run? cs) := by
  have step : r.step? (')' :: cs) = r.closeGroup?.map fun r => (r, cs) := outside.step? ')' cs
  cases hclose : r.closeGroup? with
  | none =>
      rw [hclose] at step
      exact run?_of_step_none step (List.cons_ne_nil _ _)
  | some r' =>
      rw [hclose] at step
      exact run?_of_step step (Nat.lt_succ_self _)

end Reader

end Regex

namespace Glob

open Regex

namespace Token

/-- The reader behind a token: a brace opens, divides or closes a group, and every other token is a
piece. -/
def take? (r : Reader) : Token → Option Reader
  | openChoice => some (r.openGroup r.level.flags)
  | nextChoice => some r.nextBranch
  | closeChoice => r.closeGroup?
  | t => t.piece?.map r.push

theorem run?_take {r : Reader} (flagless : r.Flagless) {t : Token} (classFree : t.isClass = false)
    {rest : List Char} (hrest : rest.head? ≠ some '?') :
    r.run? (t.source ++ rest) = (t.take? r).bind (·.run? rest) := by
  have piece (h : t.IsPiece) :
      r.run? (t.source ++ rest) = (t.piece?.map r.push).bind (·.run? rest) := by
    rw [run?_source flagless.toOutside h hrest, Option.bind_map]
    rfl
  cases t with
  | openChoice => exact Reader.run?_openGroup flagless.toOutside rest
  | nextChoice => exact Reader.run?_nextBranch flagless.toOutside rest
  | closeChoice => exact Reader.run?_closing flagless.toOutside rest
  | charClass negated body => cases classFree
  | literal | anyChar | anyName | anyText | directories | subtree => exact piece trivial

theorem flagless_take {r r' : Reader} (flagless : r.Flagless) {t : Token}
    (h : t.take? r = some r') : r'.Flagless := by
  have piece (h : t.piece?.map r.push = some r') : r'.Flagless := by
    obtain ⟨p, -, rfl⟩ := Option.map_eq_some_iff.1 h
    exact flagless.push p
  cases t with
  | openChoice =>
      obtain rfl := Option.some.inj h
      exact flagless.openGroup
  | nextChoice =>
      obtain rfl := Option.some.inj h
      exact flagless.nextBranch
  | closeChoice => exact flagless.closeGroup? h
  | _ => exact piece h

/-- Reading some tokens is taking them one after another. -/
theorem run?_takeAll {r : Reader} (flagless : r.Flagless) {ts : List Token}
    (classFree : ∀ t ∈ ts, t.isClass = false) {rest : List Char} (hrest : rest.head? ≠ some '?') :
    r.run? (ts.flatMap source ++ rest) = (ts.foldlM take? r).bind (·.run? rest) := by
  induction ts generalizing r with
  | nil => rfl
  | cons t ts ih =>
      rw [List.forall_mem_cons] at classFree
      have hnext := head?_sources_append ts hrest
      rw [List.flatMap_cons, List.append_assoc, run?_take flagless classFree.1 hnext,
        List.foldlM_cons]
      cases htake : t.take? r with
      | none => rfl
      | some r' => exact ih (flagless_take flagless htake) classFree.2

end Token

/-- Tokens that start inside `depth` open groups and close all of them, with at most `limit` groups
open at any place. -/
def Balanced (limit : Nat) : Nat → List Token → Prop
  | depth, [] => depth = 0
  | depth, .openChoice :: ts => depth < limit ∧ Balanced limit (depth + 1) ts
  | depth, .closeChoice :: ts => 0 < depth ∧ Balanced limit (depth - 1) ts
  | depth, _ :: ts => Balanced limit depth ts

/-- Where a reader stands inside some groups: how deep its groups nest is bounded, by three more for
each group further out. -/
structure Stands (limit depth : Nat) (r : Reader) : Prop extends r.Flagless where
  height : r.outer.length = depth
  low : depth ≤ limit
  level : r.level.Within (4 + 3 * (limit - depth))
  around : ∀ (i : Nat) (l : Level), r.outer[i]? = some l →
    l.Within (4 + 3 * (limit - (depth - 1 - i)))

namespace Stands

variable {limit depth : Nat} {r : Reader}

theorem initial (limit : Nat) : Stands limit 0 {} where
  toFlagless := Reader.Flagless.initial
  height := rfl
  low := Nat.zero_le _
  level := Level.within_empty _ _
  around := by simp

theorem push (h : Stands limit depth r) {p : Nested Pattern} (hp : p.depth ≤ 4) :
    Stands limit depth (r.push p) where
  toFlagless := h.toFlagless.push p
  height := h.height
  low := h.low
  level := h.level.push (Nat.le_add_right_of_le hp)
  around := h.around

theorem nextBranch (h : Stands limit depth r) : Stands limit depth r.nextBranch where
  toFlagless := h.toFlagless.nextBranch
  height := h.height
  low := h.low
  level := h.level.nextBranch
  around := h.around

theorem openGroup (h : Stands limit depth r) (room : depth < limit) :
    Stands limit (depth + 1) (r.openGroup r.level.flags) where
  toFlagless := h.toFlagless.openGroup
  height := congrArg (· + 1) h.height
  low := room
  level := Level.within_empty _ _
  around := by
    intro i l hl
    cases i with
    | zero =>
        obtain rfl := Option.some.inj hl
        exact h.level
    | succ i =>
        have same : depth + 1 - 1 - (i + 1) = depth - 1 - i := by omega
        rw [same]
        exact h.around i l hl

/-- A group that is closed nests three deeper than its items, and is an item of the group around
it. -/
theorem closeGroup? (h : Stands limit depth r) (inside : 0 < depth) :
    ∃ r', r.closeGroup? = some r' ∧ Stands limit (depth - 1) r' := by
  cases houter : r.outer with
  | nil =>
      have height := h.height
      rw [houter, List.length_nil] at height
      omega
  | cons l outer =>
      have hclose : r.closeGroup? = some { r with
          level := l.push (.piece ⟨r.level.choice.value, r.level.choice.depth + 1⟩), outer } := by
        rw [Reader.closeGroup?, houter]
      have around : ∀ (i : Nat) (l' : Level), (l :: outer)[i]? = some l' →
          l'.Within (4 + 3 * (limit - (depth - 1 - i))) := houter ▸ h.around
      have height := h.height
      rw [houter, List.length_cons] at height
      refine ⟨_, hclose, ?_⟩
      constructor
      · exact h.toFlagless.closeGroup? hclose
      · exact Nat.eq_sub_of_add_eq height
      · exact Nat.le_trans (Nat.sub_le _ _) h.low
      · have choice := h.level.depth_choice
        have low := h.low
        have outerLevel : l.Within (4 + 3 * (limit - (depth - 1))) := around 0 l rfl
        refine outerLevel.push ?_
        change r.level.choice.depth + 1 ≤ _
        omega
      · intro i l' hl'
        have same : depth - 1 - 1 - i = depth - 1 - (i + 1) := by omega
        rw [same]
        exact around (i + 1) l' hl'

/-- Tokens in order are read to the end of all groups. -/
theorem takeAll (h : Stands limit depth r) {ts : List Token}
    (classFree : ∀ t ∈ ts, t.isClass = false) (balanced : Balanced limit depth ts) :
    ∃ r', ts.foldlM Token.take? r = some r' ∧ Stands limit 0 r' := by
  induction ts generalizing r depth with
  | nil =>
      obtain rfl : depth = 0 := balanced
      exact ⟨r, rfl, h⟩
  | cons t ts ih =>
      rw [List.forall_mem_cons] at classFree
      have next {r₁ : Reader} {depth₁ : Nat} (htake : t.take? r = some r₁)
          (h₁ : Stands limit depth₁ r₁) (rest : Balanced limit depth₁ ts) :
          ∃ r', (t :: ts).foldlM Token.take? r = some r' ∧ Stands limit 0 r' := by
        obtain ⟨r', hr', hstands⟩ := ih h₁ classFree.2 rest
        refine ⟨r', ?_, hstands⟩
        rw [List.foldlM_cons, htake]
        exact hr'
      have piece (plain : t.IsPlain) (same : t.take? r = t.piece?.map r.push)
          (rest : Balanced limit depth ts) :
          ∃ r', (t :: ts).foldlM Token.take? r = some r' ∧ Stands limit 0 r' := by
        obtain ⟨p, hp, hdepth⟩ := plain.exists_piece
        exact next (by rw [same, hp]; rfl) (h.push hdepth) rest
      cases t with
      | openChoice => exact next rfl (h.openGroup balanced.1) balanced.2
      | nextChoice => exact next rfl h.nextBranch balanced
      | closeChoice =>
          obtain ⟨r₁, hclose, h₁⟩ := h.closeGroup? balanced.1
          exact next hclose h₁ balanced.2
      | charClass negated body => exact absurd classFree.1 (by simp [Token.isClass])
      | literal | anyChar | anyName | anyText | directories | subtree =>
          exact piece ⟨trivial, by simp⟩ rfl balanced

end Stands

theorem balanced_replicate {limit depth : Nat} :
    Balanced limit depth (List.replicate depth .closeChoice) := by
  induction depth with
  | zero => rfl
  | succ depth ih => exact ⟨Nat.succ_pos _, ih⟩

/-- The tokens of a glob close what they open, and nothing else; there are no more groups than
opening braces. -/
theorem balanced_tokensFrom (previous : Option Char) {limit depth : Nat} {cs : List Char}
    (bound : depth + cs.count '{' ≤ limit) :
    Balanced limit depth (tokensFrom previous depth cs) := by
  -- What a step leaves of the text has no more opening braces than before.
  have behind {depth : Nat} {cs rest : List Char} (h : rest <:+ cs)
      (bound : depth + cs.count '{' ≤ limit) : depth + rest.count '{' ≤ limit :=
    Nat.le_trans (Nat.add_le_add_left (h.sublist.count_le '{') depth) bound
  fun_induction tokensFrom previous depth cs with
  | case1 previous depth => exact balanced_replicate
  | case2 previous depth cs _ ih => exact ih (behind (List.suffix_append ['*', '*', '/'] cs) bound)
  | case3 previous depth cs _ ih => exact ih (behind (List.suffix_append ['*', '*'] _) bound)
  | case4 previous depth cs _ ih => exact ih (behind (List.suffix_append ['*', '*'] cs) bound)
  | case7 previous depth cs _ ih => exact ih (behind (List.suffix_append ['/', '*', '*'] cs) bound)
  | case5 | case6 | case8 | case11 | case14 | case16 =>
      rename_i ih
      exact ih (behind (List.suffix_cons _ _) bound)
  | case9 previous depth cs ih =>
      rw [List.count_cons_self] at bound
      exact ⟨by omega, ih (by omega)⟩
  | case10 previous depth cs inside ih =>
      have bound := behind (List.suffix_cons '}' cs) bound
      exact ⟨inside, ih (by omega)⟩
  | case12 previous depth cs ih =>
      have rest := ih (behind (List.suffix_cons ',' cs) bound)
      split
      · exact rest
      · exact rest
  | case13 previous depth cs negated body rest hclass ih =>
      obtain ⟨⟨sign, rfl⟩, -⟩ := class?_eq hclass
      refine ih (behind ?_ bound)
      have text : '[' :: (sign ++ (body ++ ']' :: rest)) =
          ('[' :: (sign ++ (body ++ [']']))) ++ rest := by
        simp
      exact text ▸ List.suffix_append _ rest
  | case15 previous depth c cs ih => exact ih (behind (List.suffix_append ['\\', c] cs) bound)

variable {glob : String}

theorem isClass_of_closed (closed : opensClass glob.toList = false) :
    ∀ t ∈ tokens glob.toList, t.isClass = false := by
  rw [← any_isClass_tokensFrom none 0, List.any_eq_false] at closed
  intro t ht
  exact Bool.eq_false_iff.2 (closed t ht)

/-- The expression of a glob is read by taking its tokens between both ends of the text. -/
theorem run?_tokens (classFree : ∀ t ∈ tokens glob.toList, t.isClass = false) {r : Reader}
    (outside : r.Outside)
    (h : (tokens glob.toList).foldlM Token.take? (Reader.push {} ⟨.assertion .textStart, 0⟩) =
      some r) :
    Reader.run? {} (source glob.toList) = some (r.push ⟨.assertion .textEnd, 0⟩) := by
  have flagless : (Reader.push {} ⟨.assertion .textStart, 0⟩).Flagless :=
    Reader.Flagless.initial.push _
  calc Reader.run? {} (source glob.toList)
    _ = (Reader.push {} ⟨.assertion .textStart, 0⟩).run?
          ((tokens glob.toList).flatMap Token.source ++ ['$']) :=
      Reader.run?_textStart Reader.Outside.initial _
    _ = r.run? ['$'] := by
      rw [Token.run?_takeAll flagless classFree (by simp), h, Option.bind_some]
    _ = some (r.push ⟨.assertion .textEnd, 0⟩) := by
      rw [Reader.run?_textEnd outside, Reader.run?_nil]

/-- The expression of a glob without classes can be read to its end, and nests no deeper than three
times the number of opening braces, and six. -/
theorem exists_read (closed : opensClass glob.toList = false) :
    ∃ p, (Reader.run? {} (source glob.toList)).bind Reader.finish? = some p ∧
      p.depth ≤ 3 * glob.toList.count '{' + 6 := by
  have start : Stands (glob.toList.count '{') 0 (Reader.push {} ⟨.assertion .textStart, 0⟩) :=
    (Stands.initial _).push (Nat.zero_le _)
  have balanced : Balanced (glob.toList.count '{') 0 (tokens glob.toList) :=
    balanced_tokensFrom none (Nat.zero_add _).le
  obtain ⟨r, htake, stands⟩ := start.takeAll (isClass_of_closed closed) balanced
  have final : Stands _ 0 (r.push ⟨.assertion .textEnd, 0⟩) := stands.push (Nat.zero_le _)
  have finished : (r.push ⟨.assertion .textEnd, 0⟩).finish? =
      some (r.push ⟨.assertion .textEnd, 0⟩).level.choice := by
    rw [Reader.finish?, List.eq_nil_of_length_eq_zero final.height, final.brackets]
    rfl
  refine ⟨(r.push ⟨.assertion .textEnd, 0⟩).level.choice, ?_, ?_⟩
  · rw [run?_tokens (isClass_of_closed closed) stands.toOutside htake, Option.bind_some, finished]
  · have choice := final.level.depth_choice
    omega

theorem pattern?_of_read {p : Nested Pattern}
    (h : (Reader.run? {} (source glob.toList)).bind Reader.finish? = some p)
    (shallow : p.depth ≤ depthLimit) : pattern? glob = some p.value := by
  rw [pattern?, Pattern.parse?, ← Option.bind_assoc, h, Option.bind_some, if_pos shallow]

/-- A glob without classes is never left out for its form: its expression can be read whatever
braces, stars and backslashes it has, and unless it nests too deep it is in force in every filter
that is made with it. -/
theorem in_force_of_no_class (closed : opensClass glob.toList = false) :
    ∃ p : Nested Pattern,
      (Reader.run? {} (source glob.toList)).bind Reader.finish? = some p ∧
        p.depth ≤ 3 * glob.toList.count '{' + 6 ∧
          (p.depth ≤ depthLimit → pattern? glob = some p.value ∧ ∀ root globs, glob ∈ globs →
            (glob, p.value) ∈ (IgnoreFilter.create root globs).patterns) := by
  obtain ⟨p, hread, hdepth⟩ := exists_read closed
  refine ⟨p, hread, hdepth, ?_⟩
  intro shallow
  have pattern := pattern?_of_read hread shallow
  refine ⟨pattern, ?_⟩
  intro root globs hglob
  exact IgnoreFilter.mem_patterns_create.2 ⟨List.mem_append_right _ hglob, pattern⟩

/-- Braces out of order, stars in front of a question mark, a bracket that nothing closes and a
backslash at the end keep a glob neither from being used nor from matching. -/
theorem in_force_of_no_class_disordered :
    let glob := "a\x7d\x7bb,**\x7b?*+,[!\\"
    opensClass glob.toList = false ∧
      ∃ p, pattern? glob = some p ∧ (glob, p) ∈ (IgnoreFilter.create none [glob]).patterns := by
  intro glob
  have closed : opensClass glob.toList = false := by decide
  obtain ⟨p, -, hdepth, inForce⟩ := in_force_of_no_class closed
  have shallow : p.depth ≤ depthLimit := Nat.le_trans hdepth (by decide)
  obtain ⟨pattern, hmem⟩ := inForce shallow
  exact ⟨closed, p.value, pattern, hmem none [glob] (List.mem_singleton.2 rfl)⟩

end Glob

end DiagnosticWatch
