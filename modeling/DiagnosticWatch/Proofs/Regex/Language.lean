import DiagnosticWatch.Proofs.Regex.Matching
import Mathlib.Computability.Language

/-!
# The language of a pattern

A pattern without conditions on what surrounds it is a set of words: it leads from one position to
another exactly if the characters between them are such a word. A sequence of such patterns between
the two ends of the text occurs in a text if the text as a whole is a word of theirs.
-/

namespace DiagnosticWatch.Regex.Pattern

/-- Whether a pattern asks for nothing but the characters it reads. -/
def isPlain : Pattern → Bool
  | empty | set _ => true
  | assertion _ => false
  | seq p q | alt p q => p.isPlain && q.isPlain
  | repetition p _ _ => p.isPlain

/-- The words that a pattern reads, conditions left aside. -/
def language : Pattern → Language Char
  | empty | assertion _ => 1
  | set s => {w | ∃ c, s.mem c ∧ w = [c]}
  | seq p q => p.language * q.language
  | alt p q => p.language + q.language
  | repetition p least most =>
    {w | ∃ n, least ≤ n ∧ (∀ m ∈ most, n ≤ max least m) ∧ w ∈ p.language ^ n}

@[simp] theorem mem_language_set {s : CharSet} {w : List Char} :
    w ∈ (set s).language ↔ ∃ c, s.mem c ∧ w = [c] := Iff.rfl

theorem mem_language_repetition {p : Pattern} {least : Nat} {most : Option Nat} {w : List Char} :
    w ∈ (repetition p least most).language ↔
      ∃ n, least ≤ n ∧ (∀ m ∈ most, n ≤ max least m) ∧ w ∈ p.language ^ n := Iff.rfl

/-- The characters of a set, any number of them. -/
theorem mem_language_star_set {s : CharSet} {w : List Char} :
    w ∈ (repetition (set s) 0 none).language ↔ ∀ c ∈ w, s.mem c := by
  simp only [mem_language_repetition, Language.mem_pow]
  constructor
  · rintro ⟨n, -, -, words, rfl, -, single⟩ c hc
    obtain ⟨word, hword, hc⟩ := List.mem_flatten.1 hc
    obtain ⟨d, hd, rfl⟩ := mem_language_set.1 (single word hword)
    exact List.mem_singleton.1 hc ▸ hd
  · intro h
    refine ⟨w.length, Nat.zero_le _, by simp, w.map ([·]), by simp [← List.flatMap_def],
      by simp, ?_⟩
    rintro word hword
    obtain ⟨c, hc, rfl⟩ := List.mem_map.1 hword
    exact mem_language_set.2 ⟨c, h c hc, rfl⟩

/-- Something that may be there or not. -/
theorem mem_language_optional {p : Pattern} {w : List Char} :
    w ∈ (repetition p 0 (some 1)).language ↔ w = [] ∨ w ∈ p.language := by
  rw [mem_language_repetition]
  constructor
  · rintro ⟨n, -, hn, h⟩
    have : n ≤ 1 := by simpa using hn
    obtain rfl | rfl : n = 0 ∨ n = 1 := by omega
    · exact .inl (by simpa using h)
    · exact .inr (by simpa using h)
  · rintro (rfl | h)
    · exact ⟨0, Nat.le_refl _, by simp, by simp⟩
    · exact ⟨1, Nat.zero_le _, by simp, by simpa using h⟩

/-- Patterns one after another read their words in turn. -/
theorem language_seqAll (ps : List Pattern) : (seqAll ps).language = (ps.map language).prod := by
  fun_induction seqAll ps with
  | case1 => rfl
  | case2 p => exact (List.prod_singleton).symm
  | case3 p ps _ ih => rw [language, ih, List.map_cons, List.prod_cons]

/-- A choice reads the words of every pattern. -/
theorem language_altAll (p : Pattern) (ps : List Pattern) :
    (altAll p ps).language = ((p :: ps).map language).sum := by
  fun_induction altAll p ps with
  | case1 p => exact (List.sum_singleton).symm
  | case2 p q qs ih => rw [language, ih, List.map_cons (a := p), List.sum_cons]

theorem isPlain_seqAll {ps : List Pattern} (plain : ∀ p ∈ ps, p.isPlain) : (seqAll ps).isPlain := by
  fun_induction seqAll ps with
  | case1 => rfl
  | case2 p => exact plain p List.mem_cons_self
  | case3 p ps _ ih =>
      obtain ⟨first, rest⟩ := List.forall_mem_cons.1 plain
      exact Bool.and_eq_true_iff.2 ⟨first, ih rest⟩

theorem isPlain_altAll {p : Pattern} {ps : List Pattern} (plain : ∀ q ∈ p :: ps, q.isPlain) :
    (altAll p ps).isPlain := by
  fun_induction altAll p ps with
  | case1 p => exact plain p List.mem_cons_self
  | case2 p q qs ih =>
      obtain ⟨first, rest⟩ := List.forall_mem_cons.1 plain
      exact Bool.and_eq_true_iff.2 ⟨first, ih rest⟩

/-- The words of some languages taken together. -/
theorem mem_sum_map {α : Type} {f : α → Language Char} {l : List α} {w : List Char} :
    w ∈ (l.map f).sum ↔ ∃ x ∈ l, w ∈ f x := by
  induction l with
  | nil => simp
  | cons x l ih => simp [Language.mem_add, ih]

/-- Whether the characters from one position to another are a word of a language. -/
def Spans (text : List Char) (L : Language Char) (i j : Nat) : Prop :=
  ∃ w ∈ L, text.drop i = w ++ text.drop j ∧ j = i + w.length

variable {text : List Char} {L M : Language Char} {i j : Nat}

@[simp] theorem spans_one : Spans text 1 i j ↔ i = j := by
  simp only [Spans, Language.mem_one]
  constructor
  · rintro ⟨w, rfl, -, rfl⟩
    rfl
  · rintro rfl
    exact ⟨[], rfl, rfl, rfl⟩

theorem spans_add : Spans text (L + M) i j ↔ Spans text L i j ∨ Spans text M i j := by
  simp only [Spans, Language.mem_add, or_and_right, exists_or]

theorem spans_mul : Spans text (L * M) i j ↔ ∃ k, Spans text L i k ∧ Spans text M k j := by
  simp only [Spans, Language.mem_mul]
  constructor
  · rintro ⟨_, ⟨v, hv, w, hw, rfl⟩, h, rfl⟩
    have hdrop : text.drop (i + v.length) = w ++ text.drop (i + (v ++ w).length) := by
      rw [← List.drop_drop, h, List.append_assoc, List.drop_left]
    refine ⟨i + v.length, ⟨v, hv, ?_, rfl⟩, w, hw, hdrop, ?_⟩
    · rw [h, hdrop, List.append_assoc]
    · rw [List.length_append, Nat.add_assoc]
  · rintro ⟨_, ⟨v, hv, h, rfl⟩, w, hw, h', rfl⟩
    refine ⟨v ++ w, ⟨v, hv, w, hw, rfl⟩, ?_, ?_⟩
    · rw [h, h', List.append_assoc]
    · rw [List.length_append, Nat.add_assoc]

theorem spans_pow {n : Nat} : Spans text (L ^ n) i j ↔ Rounds (Spans text L) n i j := by
  induction n generalizing i with
  | zero => simp [Rounds]
  | succ n ih => simp only [pow_succ', spans_mul, ih, Rounds]

theorem spans_set {s : CharSet} :
    Spans text (set s).language i j ↔ text[i]?.any (CharSet.mem · s) ∧ j = i + 1 := by
  rw [Option.any_eq_true]
  constructor
  · rintro ⟨_, ⟨c, hc, rfl⟩, h, rfl⟩
    refine ⟨⟨c, ?_, hc⟩, rfl⟩
    have first : (text.drop i)[0]? = some c := by rw [h]; rfl
    simpa using first
  · rintro ⟨⟨c, hc, hs⟩, rfl⟩
    obtain ⟨hi, rfl⟩ := List.getElem?_eq_some_iff.1 hc
    exact ⟨[text[i]], ⟨_, hs, rfl⟩, List.drop_eq_getElem_cons hi, rfl⟩

theorem Spans.le_length (h : Spans text L i j) (hi : i ≤ text.length) : j ≤ text.length := by
  obtain ⟨w, -, h, rfl⟩ := h
  have := congrArg List.length h
  rw [List.length_append, List.length_drop, List.length_drop] at this
  omega

/-- A word of the whole text. -/
theorem spans_whole : Spans text L 0 text.length ↔ text ∈ L := by
  simp only [Spans, List.drop_zero, List.drop_length, List.append_nil, Nat.zero_add]
  constructor
  · rintro ⟨w, hw, rfl, -⟩
    exact hw
  · exact fun h => ⟨text, h, rfl, rfl⟩

theorem leads_iff_spans {p : Pattern} (plain : p.isPlain) :
    p.Leads text.toArray i j ↔ Spans text p.language i j := by
  induction p generalizing i j with
  | empty => exact spans_one.symm
  | set s => rw [spans_set, Leads, List.getElem?_toArray]
  | assertion a => exact absurd plain Bool.false_ne_true
  | seq p q ihp ihq =>
      obtain ⟨hp, hq⟩ := Bool.and_eq_true_iff.1 plain
      simp only [Leads, language, spans_mul, ihp hp, ihq hq]
  | alt p q ihp ihq =>
      obtain ⟨hp, hq⟩ := Bool.and_eq_true_iff.1 plain
      simp only [Leads, language, spans_add, ihp hp, ihq hq]
  | repetition p least most ih =>
      have same : p.Leads text.toArray = Spans text p.language :=
        funext₂ fun _ _ => propext (ih plain)
      rw [Leads, same]
      simp only [← spans_pow]
      constructor
      · rintro ⟨n, hn, hmost, w, hw, h⟩
        exact ⟨w, ⟨n, hn, hmost, hw⟩, h⟩
      · rintro ⟨w, ⟨n, hn, hmost, hw⟩, h⟩
        exact ⟨n, hn, hmost, w, hw, h⟩

theorem leads_seqAll_cons {text : Array Char} {p : Pattern} {ps : List Pattern} {i j : Nat} :
    (seqAll (p :: ps)).Leads text i j ↔ ∃ k, p.Leads text i k ∧ (seqAll ps).Leads text k j := by
  cases ps with
  | nil => simp [seqAll, Leads]
  | cons q qs => rfl

/-- Patterns one after another up to the end of the text. -/
theorem leads_seqAll_textEnd {ps : List Pattern} (plain : ∀ p ∈ ps, p.isPlain) :
    (seqAll (ps ++ [.assertion .textEnd])).Leads text.toArray i j ↔
      Spans text (ps.map language).prod i j ∧ text.length ≤ j := by
  induction ps generalizing i with
  | nil =>
      rw [List.nil_append, seqAll, Leads, List.map_nil, List.prod_nil, spans_one]
      simp only [Assertion.holds, List.getElem?_toArray, Option.isNone_iff_eq_none,
        List.getElem?_eq_none_iff]
      constructor
      · rintro ⟨h, rfl⟩
        exact ⟨rfl, h⟩
      · rintro ⟨rfl, h⟩
        exact ⟨h, rfl⟩
  | cons p ps ih =>
      rw [List.cons_append, leads_seqAll_cons, List.map_cons, List.prod_cons, spans_mul]
      simp only [leads_iff_spans (plain p List.mem_cons_self),
        ih fun q hq => plain q (List.mem_cons_of_mem _ hq), exists_and_right, ← and_assoc]

/-- The start of the text is its first position. -/
theorem leads_textStart (hi : i ≤ text.length) :
    (assertion .textStart).Leads text.toArray i j ↔ i = 0 ∧ j = 0 := by
  simp only [Leads, Assertion.holds, before?, List.getElem?_toArray]
  split <;> rename_i hzero
  · simp [hzero, eq_comm]
  · have inside : i - 1 < text.length := by omega
    simp [List.getElem?_eq_getElem inside, hzero]

/-- A sequence of patterns between both ends of the text is about the text as a whole. -/
theorem occursIn_anchored {ps : List Pattern} (plain : ∀ p ∈ ps, p.isPlain) (text : String) :
    (seqAll (.assertion .textStart :: ps ++ [.assertion .textEnd])).occursIn text = true ↔
      text.toList ∈ (ps.map language).prod := by
  rw [occursIn_iff, ← spans_whole]
  simp only [List.cons_append, leads_seqAll_cons, leads_seqAll_textEnd plain]
  constructor
  · rintro ⟨i, hi, j, k, hstart, hspan, hend⟩
    obtain ⟨rfl, rfl⟩ := (leads_textStart hi).1 hstart
    have whole : j = text.toList.length :=
      Nat.le_antisymm (hspan.le_length (Nat.zero_le _)) hend
    exact whole ▸ hspan
  · intro h
    exact ⟨0, Nat.zero_le _, _, 0, (leads_textStart (Nat.zero_le _)).2 ⟨rfl, rfl⟩, h, Nat.le_refl _⟩

end DiagnosticWatch.Regex.Pattern
