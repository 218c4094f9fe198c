import DiagnosticWatch.Regex.Pattern

/-!
# What a search finds

A pattern leads from some positions of a text to others, and this relation is read off the pattern
without any search. `reach` computes it: from a set of positions it finds exactly the positions that
the pattern leads to. For a repetition without limit this needs an argument, as the search gives up
after as many rounds as there are positions; a round that moves goes forward, so a longer way can be
cut short.
-/

namespace DiagnosticWatch.Regex

/-- Some steps of a relation between positions, one after another. -/
def Rounds (R : Nat → Nat → Prop) : Nat → Nat → Nat → Prop
  | 0, i, j => i = j
  | n + 1, i, j => ∃ k, R i k ∧ Rounds R n k j

namespace Rounds

variable {R : Nat → Nat → Prop} {i j : Nat}

theorem add_iff {m n : Nat} :
    Rounds R (m + n) i j ↔ ∃ k, Rounds R m i k ∧ Rounds R n k j := by
  induction m generalizing i with
  | zero => simp [Rounds]
  | succ m ih =>
      rw [Nat.succ_add]
      constructor
      · rintro ⟨k, hik, hkj⟩
        obtain ⟨l, hkl, hlj⟩ := ih.1 hkj
        exact ⟨l, ⟨k, hik, hkl⟩, hlj⟩
      · rintro ⟨l, ⟨k, hik, hkl⟩, hlj⟩
        exact ⟨k, hik, ih.2 ⟨l, hkl, hlj⟩⟩

/-- What holds of every step as a preorder would have it holds of some steps together. -/
theorem closed {S : Nat → Nat → Prop} (refl : ∀ i, S i i)
    (trans : ∀ i j k, S i j → S j k → S i k) (step : ∀ i j, R i j → S i j) {n : Nat}
    (h : Rounds R n i j) : S i j := by
  induction n generalizing i with
  | zero => exact h ▸ refl i
  | succ n ih =>
      obtain ⟨k, hik, hkj⟩ := h
      exact trans i k j (step i k hik) (ih hkj)

theorem le (forward : ∀ i j, R i j → i ≤ j) {n : Nat} (h : Rounds R n i j) : i ≤ j :=
  h.closed Nat.le_refl (fun _ _ _ => Nat.le_trans) forward

/-- Steps that do not move can be left out, so the way is no longer than the distance. -/
theorem shorten (forward : ∀ i j, R i j → i ≤ j) {n : Nat} (h : Rounds R n i j) :
    ∃ m ≤ j - i, Rounds R m i j := by
  induction n generalizing i with
  | zero => exact ⟨0, Nat.zero_le _, h⟩
  | succ n ih =>
      obtain ⟨k, hik, hkj⟩ := h
      obtain ⟨m, hm, hmkj⟩ := ih hkj
      have hle := forward i k hik
      have hle' := hkj.le forward
      by_cases stays : i = k
      · exact ⟨m, stays ▸ hm, stays ▸ hmkj⟩
      · exact ⟨m + 1, by omega, k, hik, hmkj⟩

end Rounds

namespace Pattern

/-- Whether a pattern leads from one position of a text to another. The upper bound of a repetition
counts only as far as it does not contradict the lower one. -/
def Leads (text : Array Char) : Pattern → Nat → Nat → Prop
  | empty, i, j => i = j
  | set s, i, j => text[i]?.any (CharSet.mem · s) ∧ j = i + 1
  | assertion a, i, j => a.holds (before? text i) text[i]? ∧ i = j
  | seq p q, i, j => ∃ k, Leads text p i k ∧ Leads text q k j
  | alt p q, i, j => Leads text p i j ∨ Leads text q i j
  | repetition p least most, i, j =>
    ∃ n, least ≤ n ∧ (∀ m ∈ most, n ≤ max least m) ∧ Rounds (Leads text p) n i j

variable {text : Array Char}

theorem Leads.le {p : Pattern} {i j : Nat} (h : p.Leads text i j) : i ≤ j := by
  induction p generalizing i j with
  | empty => exact Nat.le_of_eq h
  | set s => exact h.2 ▸ Nat.le_succ i
  | assertion a => exact Nat.le_of_eq h.2
  | seq p q ihp ihq =>
      obtain ⟨k, hp, hq⟩ := h
      exact Nat.le_trans (ihp hp) (ihq hq)
  | alt p q ihp ihq => exact h.elim ihp ihq
  | repetition p least most ih =>
      obtain ⟨n, -, -, h⟩ := h
      exact h.le fun _ _ => ih

/-- No pattern leads out of the text. -/
theorem Leads.le_size {p : Pattern} {i j : Nat} (h : p.Leads text i j) :
    j ≤ max i text.size := by
  induction p generalizing i j with
  | empty => exact h ▸ Nat.le_max_left ..
  | set s =>
      obtain ⟨c, hc, -⟩ := (Option.any_eq_true _ _).1 h.1
      obtain ⟨hi, -⟩ := Array.getElem?_eq_some_iff.1 hc
      have := h.2
      omega
  | assertion a => exact h.2 ▸ Nat.le_max_left ..
  | seq p q ihp ihq =>
      obtain ⟨k, hp, hq⟩ := h
      have := ihp hp
      have := ihq hq
      omega
  | alt p q ihp ihq => exact h.elim ihp ihq
  | repetition p least most ih =>
      obtain ⟨n, -, -, h⟩ := h
      refine h.closed (S := fun i j => j ≤ max i text.size) (fun i => Nat.le_max_left ..) ?_
        fun _ _ => ih
      intro i j k hij hjk
      omega

/-- A function from sets of positions to sets of positions computes a relation. -/
def Computes (step : List Nat → List Nat) (R : Nat → Nat → Prop) : Prop :=
  ∀ is j, j ∈ step is ↔ ∃ i ∈ is, R i j

theorem mem_merge {is js : List Nat} {k : Nat} : k ∈ merge is js ↔ k ∈ is ∨ k ∈ js := by
  fun_induction merge is js with
  | case1 js => simp
  | case2 is => simp
  | case3 i is j js hlt ih =>
      rw [List.mem_cons, ih, ← or_assoc, ← List.mem_cons]
  | case4 i is j js hge hlt ih =>
      rw [List.mem_cons, ih, or_left_comm, ← List.mem_cons]
  | case5 i is j js hge hge' ih =>
      obtain rfl : i = j := by omega
      rw [List.mem_cons, ih, or_or_distrib_left, ← List.mem_cons, ← List.mem_cons]

variable {step : List Nat → List Nat} {R : Nat → Nat → Prop}

theorem Computes.times (computes : Computes step R) (n : Nat) :
    Computes (times step n) (Rounds R n) := by
  intro is j
  induction n generalizing is with
  | zero => simp [Pattern.times, Rounds]
  | succ n ih =>
      cases is with
      | nil => simp [Pattern.times]
      | cons i is =>
          rw [Pattern.times, List.isEmpty_cons, if_neg Bool.false_ne_true, ih]
          constructor
          · rintro ⟨k, hk, hkj⟩
            obtain ⟨i, hi, hik⟩ := (computes _ _).1 hk
            exact ⟨i, hi, k, hik, hkj⟩
          · rintro ⟨i, hi, k, hik, hkj⟩
            exact ⟨k, (computes _ _).2 ⟨i, hi, hik⟩, hkj⟩

/-- Positions can be left only towards known ones, unless they are at the edge. -/
def Explored (R : Nat → Nat → Prop) (known edge : List Nat) : Prop :=
  edge ⊆ known ∧ ∀ i ∈ known, i ∉ edge → ∀ j, R i j → j ∈ known

/-- Growing finds all positions within a number of rounds: what is behind the edge need not be left
again. -/
theorem mem_grow (computes : Computes step R) {rounds : Nat} {known edge : List Nat}
    (explored : Explored R known edge) {j : Nat} :
    j ∈ grow step rounds known edge ↔ ∃ n ≤ rounds, ∃ i ∈ known, Rounds R n i j := by
  induction rounds generalizing known edge with
  | zero => simp [grow, Rounds]
  | succ rounds ih =>
      -- One step from a known position ends at a known one or a fresh one.
      have next : ∀ i ∈ known, ∀ k, R i k →
          k ∈ known ∨ k ∈ (step edge).filter fun i => !known.contains i := by
        intro i hi k hik
        by_cases hk : k ∈ known
        · exact .inl hk
        · by_cases hedge : i ∈ edge
          · exact .inr (List.mem_filter.2 ⟨(computes _ _).2 ⟨i, hedge, hik⟩, by simpa using hk⟩)
          · exact absurd (explored.2 i hi hedge k hik) hk
      rw [grow]
      split
      case h_1 hnone =>
        have closed : ∀ i j, R i j → i ∈ known → j ∈ known := fun i k hik hi =>
          (next i hi k hik).resolve_right (hnone ▸ List.not_mem_nil)
        constructor
        · exact fun hj => ⟨0, Nat.zero_le _, j, hj, rfl⟩
        · rintro ⟨n, -, i, hi, h⟩
          exact h.closed (S := fun i j => i ∈ known → j ∈ known) (fun _ => id)
            (fun _ _ _ hij hjk hi => hjk (hij hi)) closed hi
      case h_2 =>
        generalize hfresh : (step edge).filter (fun i => !known.contains i) = fresh at next ⊢
        have next' : ∀ i ∈ known, ∀ k, R i k → k ∈ merge known fresh := fun i hi k hik =>
          mem_merge.2 (next i hi k hik)
        rw [ih ⟨fun k hk => mem_merge.2 (.inr hk), fun i hi hn =>
          next' i ((mem_merge.1 hi).resolve_right hn)⟩]
        constructor
        · rintro ⟨n, hn, k, hk, h⟩
          rcases mem_merge.1 hk with hk | hk
          · exact ⟨n, by omega, k, hk, h⟩
          · rw [← hfresh, List.mem_filter] at hk
            obtain ⟨i, hi, hik⟩ := (computes _ _).1 hk.1
            exact ⟨n + 1, by omega, i, explored.1 hi, k, hik, h⟩
        · rintro ⟨n, hn, i, hi, h⟩
          cases n with
          | zero => exact ⟨0, Nat.zero_le _, i, mem_merge.2 (.inl hi), h⟩
          | succ n =>
              obtain ⟨k, hik, hkj⟩ := h
              exact ⟨n, by omega, k, next' i hi k hik, hkj⟩

/-- From some positions a search finds exactly those that the pattern leads to. -/
theorem computes_reach (p : Pattern) : Computes (reach text p) (p.Leads text) := by
  induction p with
  | empty => simp [Computes, reach, Leads]
  | set s =>
      intro is j
      simp only [reach, Leads, List.mem_filterMap, Option.ite_none_right_eq_some, Option.some.injEq]
      simp only [eq_comm]
  | assertion a =>
      intro is j
      simp only [reach, Leads, List.mem_filter]
      constructor
      · exact fun ⟨hj, h⟩ => ⟨j, hj, h, rfl⟩
      · rintro ⟨i, hi, h, rfl⟩
        exact ⟨hi, h⟩
  | seq p q ihp ihq =>
      intro is j
      rw [reach, ihq]
      constructor
      · rintro ⟨k, hk, hkj⟩
        obtain ⟨i, hi, hik⟩ := (ihp _ _).1 hk
        exact ⟨i, hi, k, hik, hkj⟩
      · rintro ⟨i, hi, k, hik, hkj⟩
        exact ⟨k, (ihp _ _).2 ⟨i, hi, hik⟩, hkj⟩
  | alt p q ihp ihq =>
      intro is j
      rw [reach, mem_merge, ihp, ihq]
      simp only [Leads, and_or_left, exists_or]
  | repetition p least most ih =>
      intro is j
      simp only [reach]
      rw [mem_grow ih ⟨fun _ => id, fun i hi hn => absurd hi hn⟩]
      constructor
      · rintro ⟨n, hn, k, hk, hkj⟩
        obtain ⟨i, hi, hik⟩ := (ih.times least _ _).1 hk
        refine ⟨i, hi, least + n, Nat.le_add_right .., ?_, Rounds.add_iff.2 ⟨k, hik, hkj⟩⟩
        rintro m rfl
        dsimp only at hn
        omega
      · rintro ⟨i, hi, n, hn, hmost, h⟩
        obtain ⟨n, rfl⟩ := Nat.exists_eq_add_of_le hn
        obtain ⟨k, hik, hkj⟩ := Rounds.add_iff.1 h
        have found : k ∈ Pattern.times (reach text p) least is :=
          (ih.times least _ _).2 ⟨i, hi, hik⟩
        cases most with
        | some m =>
            have := hmost m rfl
            exact ⟨n, by dsimp only; omega, k, found, hkj⟩
        | none =>
            -- A way that moves in every round stays in the text, so it takes no more rounds than
            -- the search has.
            obtain ⟨m, hm, hkj⟩ := hkj.shorten fun _ _ => Leads.le
            have := Leads.le_size (p := repetition p 0 none) ⟨m, Nat.zero_le _, by simp, hkj⟩
            exact ⟨m, by dsimp only; omega, k, found, hkj⟩

/-- A pattern occurs in a text if it leads on from some position of it. -/
theorem occursIn_iff {p : Pattern} {text : String} :
    p.occursIn text = true ↔
      ∃ i ≤ text.toList.length, ∃ j, p.Leads text.toList.toArray i j := by
  have found : p.occursIn text = true ↔
      ∃ j, j ∈ reach text.toList.toArray p (List.range (text.toList.toArray.size + 1)) := by
    rw [occursIn, Bool.not_eq_true', List.isEmpty_eq_false_iff_exists_mem]
  rw [found]
  simp only [computes_reach p _ _, List.mem_range, List.size_toArray, Nat.lt_succ_iff]
  exact ⟨fun ⟨j, i, hi, h⟩ => ⟨i, hi, j, h⟩, fun ⟨i, hi, j, h⟩ => ⟨j, i, hi, h⟩⟩

/-- A set occurs in a text that has one of its characters. -/
theorem occursIn_set {s : CharSet} {text : String} :
    (set s).occursIn text = true ↔ ∃ c ∈ text.toList, s.mem c = true := by
  rw [occursIn_iff]
  simp only [Leads, List.getElem?_toArray, Option.any_eq_true]
  constructor
  · rintro ⟨i, -, j, ⟨c, hc, hs⟩, -⟩
    exact ⟨c, List.mem_of_getElem? hc, hs⟩
  · rintro ⟨c, hc, hs⟩
    obtain ⟨i, hi, rfl⟩ := List.mem_iff_getElem.1 hc
    exact ⟨i, Nat.le_of_lt hi, i + 1, ⟨_, List.getElem?_eq_getElem hi, hs⟩, rfl⟩

end Pattern

end DiagnosticWatch.Regex
