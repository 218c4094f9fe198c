import DiagnosticWatch.Proofs.Ignore.Tokens

/-!
# Classes match what they list

A class lists characters and ranges between its brackets, behind a sign if it is negated. It is read
up to its own closing bracket, and its expression is one set that holds exactly the characters
listed, or all others (`class_matches_listed`). Signs of negation further on, opening brackets,
backslashes and doubled operators are characters like any other there, as ends of ranges too.
-/

namespace DiagnosticWatch.Glob

open Regex
open Token (ClassItem listing)

/-- An item that may stand anywhere in a class: a character that is neither a hyphen nor a closing
bracket, or a range between two such characters that does not go down. -/
structure Token.ClassItem.IsPlain (item : ClassItem) : Prop extends item.IsClear where
  bracket : ']' ∉ item.ends

instance (item : ClassItem) : Decidable item.IsPlain :=
  decidable_of_iff (item.Ascends ∧ '-' ∉ item.ends ∧ ']' ∉ item.ends)
    ⟨fun ⟨ascends, hyphen, bracket⟩ => ⟨⟨ascends, hyphen⟩, bracket⟩,
      fun plain => ⟨plain.ascends, plain.hyphen, plain.bracket⟩⟩

/-- A class as it may be written: a sign or none, and some items. Only the first item may be a
closing bracket, and without a sign the items may not start with a character that is one. -/
structure IsWritten (sign : Option Char) (items : List ClassItem) : Prop where
  known : ∀ c ∈ sign, c = '!' ∨ c = '^'
  unsigned : sign = none → ∀ c ∈ (listing items).head?, c ≠ '!' ∧ c ≠ '^'
  nonempty : items ≠ []
  first : ∀ item ∈ items.head?, item = .single ']' ∨ item.IsPlain
  others : ∀ item ∈ items.tail, item.IsPlain

/-- Whether a class is meant to match a character: one of those listed, or with a sign one of the
others. -/
def Admits (sign : Option Char) (items : List ClassItem) (c : Char) : Prop :=
  sign = none ↔ ∃ item ∈ items, item.Lists c

instance (sign : Option Char) (items : List ClassItem) (c : Char) :
    Decidable (Admits sign items c) :=
  inferInstanceAs (Decidable (sign = none ↔ ∃ item ∈ items, item.Lists c))

/-- The glob that is a class and nothing else. -/
def bracketed (sign : Option Char) (items : List ClassItem) : String :=
  String.ofList ('[' :: (sign.toList ++ listing items ++ [']']))

/-- A body ends at the first closing bracket behind its first character. -/
theorem classBody?_append {body : List Char} (nonempty : body ≠ []) (inside : ']' ∉ body.tail)
    (rest : List Char) : classBody? (body ++ ']' :: rest) = some (body, rest) := by
  have ends {cs : List Char} (free : ']' ∉ cs) :
      (cs ++ ']' :: rest).takeWhile (· != ']') = cs ∧
        (cs ++ ']' :: rest).dropWhile (· != ']') = ']' :: rest := by
    have passed : ∀ c ∈ cs, (c != ']') = true := by
      intro c hc
      simpa using fun e : c = ']' => free (e ▸ hc)
    rw [List.takeWhile_append_of_pos passed, List.dropWhile_append_of_pos passed]
    exact ⟨List.append_nil cs, rfl⟩
  cases body with
  | nil => exact absurd rfl nonempty
  | cons c cs =>
      by_cases hc : c = ']'
      · subst hc
        have free : ']' ∉ cs := inside
        obtain ⟨taken, dropped⟩ := ends free
        simp only [classBody?, List.cons_append, leadingBracket, taken, dropped]
        rfl
      · have free : ']' ∉ c :: cs := by
          simpa [eq_comm] using ⟨hc, inside⟩
        have noLead : leadingBracket (c :: cs ++ ']' :: rest) = ([], c :: cs ++ ']' :: rest) := by
          unfold leadingBracket
          split <;> simp_all
        obtain ⟨taken, dropped⟩ := ends free
        simp only [classBody?, noLead, taken, dropped]
        rfl

theorem tokensFrom_class {cs body rest : List Char} {negated : Bool}
    (h : class? cs = some (negated, body, rest)) (previous : Option Char) (depth : Nat) :
    tokensFrom previous depth ('[' :: cs) =
      .charClass negated body :: tokensFrom (some ']') depth rest := by
  rw [tokensFrom]
  split <;> simp_all

namespace IsWritten

variable {sign : Option Char} {items : List ClassItem} (written : IsWritten sign items)
include written

theorem clear : ∀ item ∈ items, item.IsClear := by
  cases items with
  | nil => exact absurd rfl written.nonempty
  | cons item items =>
      refine List.forall_mem_cons.2 ⟨?_, fun other h => (written.others other h).toIsClear⟩
      obtain rfl | plain := written.first item rfl
      · exact ⟨trivial, by decide⟩
      · exact plain.toIsClear

theorem listing_ne_nil : listing items ≠ [] := by
  obtain ⟨item, items, rfl⟩ := List.exists_cons_of_ne_nil written.nonempty
  cases item <;> simp [Token.listing_cons, ClassItem.text]

theorem not_mem_tail_listing : ']' ∉ (listing items).tail := by
  have free {items : List ClassItem} (plain : ∀ item ∈ items, item.IsPlain) :
      ']' ∉ listing items := by
    intro h
    obtain ⟨item, hitem, h⟩ := List.mem_flatMap.1 h
    have bracket := (plain item hitem).bracket
    cases item <;> simp_all [ClassItem.text, ClassItem.ends]
  cases items with
  | nil => simp [listing]
  | cons item items =>
      have others := free written.others
      rw [Token.listing_cons]
      cases item with
      | single c => exact others
      | range low high =>
          have plain : (ClassItem.range low high).IsPlain :=
            (written.first _ rfl).resolve_left (by simp)
          have bracket := plain.bracket
          simp_all [ClassItem.text, ClassItem.ends]

/-- A class is read up to its closing bracket. -/
theorem class?_eq (rest : List Char) :
    class? (sign.toList ++ listing items ++ ']' :: rest) =
      some (sign.isSome, listing items, rest) := by
  have signed : negation (sign.toList ++ listing items ++ ']' :: rest) =
      (sign.isSome, listing items ++ ']' :: rest) := by
    cases sign with
    | some c => obtain rfl | rfl := written.known c rfl <;> rfl
    | none =>
        obtain ⟨c, cs, hlisting⟩ := List.exists_cons_of_ne_nil written.listing_ne_nil
        obtain ⟨hexclaim, hcaret⟩ := written.unsigned rfl c (by rw [hlisting]; rfl)
        rw [hlisting]
        unfold negation
        split <;> simp_all
  rw [class?, signed]
  simp only [classBody?_append written.listing_ne_nil written.not_mem_tail_listing, Option.map_some]

theorem isClass : Token.IsClass sign.isSome (listing items) := by
  refine ⟨written.listing_ne_nil, fun positive caret => ?_⟩
  have unsigned : sign = none := by simpa using positive
  exact (written.unsigned unsigned '^' caret).2 rfl

theorem exists_classSet? :
    ∃ s, Token.classSet? sign.isSome (listing items) = some s ∧ s.depth ≤ 2 ∧
      ∀ c, s.value.mem c = true ↔ Admits sign items c := by
  obtain ⟨s, hs, hdepth, hmem⟩ := Token.exists_classSet? sign.isSome written.clear
  refine ⟨s, hs, hdepth, fun c => ?_⟩
  rw [hmem, Admits, Option.isSome_eq_false_iff, Option.isNone_iff_eq_none]

/-- The expression of a class is one set. -/
theorem parse?_source :
    ∃ s, Pattern.parse? (Token.charClass sign.isSome (listing items)).source = some (.set s) ∧
      ∀ c, s.mem c = true ↔ Admits sign items c := by
  obtain ⟨s, hs, hdepth, hmem⟩ := written.exists_classSet?
  have run := Token.run?_class Reader.Outside.initial written.isClass []
  rw [List.append_nil, hs, Option.bind_some, Reader.run?_nil] at run
  have finished : (Reader.push {} ⟨.set s.value, s.depth⟩).finish? = some ⟨.set s.value, s.depth⟩ :=
    Reader.finish?_pieces [⟨.set s.value, s.depth⟩]
  have shallow : s.depth ≤ depthLimit := Nat.le_trans hdepth (by decide)
  refine ⟨s.value, ?_, hmem⟩
  rw [Pattern.parse?, run, Option.bind_some, finished, Option.bind_some, if_pos shallow]

theorem mem_language {w : List Char} :
    w ∈ (Token.charClass sign.isSome (listing items)).language ↔
      ∃ c, Admits sign items c ∧ w = [c] := by
  obtain ⟨s, hs, -, hmem⟩ := written.exists_classSet?
  rw [Token.mem_language_charClass, hs]
  simp [hmem]

/-- As a glob of its own a class matches some texts of one character. -/
theorem exists_pattern :
    ∃ p, pattern? (bracketed sign items) = some p ∧
      ∀ path, p.occursIn path = true ↔ ∃ c, Admits sign items c ∧ path = String.singleton c := by
  obtain ⟨s, hs, hdepth, -⟩ := written.exists_classSet?
  have single :
      tokens (bracketed sign items).toList = [.charClass sign.isSome (listing items)] := by
    have class?_bracketed := written.class?_eq []
    rw [bracketed, String.toList_ofList, tokens, tokensFrom_class class?_bracketed, tokensFrom]
    rfl
  have pieces : ∀ t ∈ tokens (bracketed sign items).toList, t.IsPiece := by
    rw [single]
    exact List.forall_mem_singleton.2 written.isClass
  have read : (tokens (bracketed sign items).toList).mapM Token.piece? =
      some [⟨.set s.value, s.depth⟩] := by
    rw [single]
    exact mapM_piece?_cons.2 ⟨_, [], by rw [Token.piece?, hs]; rfl, rfl, rfl⟩
  have pattern := pattern?_of_pieces pieces read (by simp; omega)
  refine ⟨_, pattern, fun path => ?_⟩
  rw [occursIn_iff pieces pattern, single, words_cons, words_nil, mul_one, written.mem_language]
  simp only [← String.toList_inj, String.toList_singleton]

end IsWritten

/-- A class of any items is read up to its own closing bracket. Its expression is a set, which
matches a character exactly if it is listed, or behind a sign if it is not; and so does the class as
a glob. -/
theorem class_matches_listed {sign : Option Char} {items : List ClassItem}
    (written : IsWritten sign items) :
    (∀ rest, class? (sign.toList ++ listing items ++ ']' :: rest) =
        some (sign.isSome, listing items, rest)) ∧
      (∃ s, Pattern.parse? (Token.charClass sign.isSome (listing items)).source = some (.set s) ∧
        ∀ c, (Pattern.set s).occursIn (String.singleton c) = true ↔ Admits sign items c) ∧
      ∃ p, pattern? (bracketed sign items) = some p ∧
        ∀ path, p.occursIn path = true ↔ ∃ c, Admits sign items c ∧ path = String.singleton c := by
  obtain ⟨s, hs, hmem⟩ := written.parse?_source
  refine ⟨written.class?_eq, ⟨s, hs, fun c => ?_⟩, written.exists_pattern⟩
  rw [Pattern.occursIn_set, ← hmem]
  simp

/-- A closing bracket in front, operators, an opening bracket and a backslash, and two ranges, one
of them around the brackets: all of these are listed, and the sign leaves the other characters. -/
theorem class_matches_listed_operators :
    let sign : Option Char := some '!'
    let items : List ClassItem :=
      [.single ']', .single '^', .single '&', .single '&', .single '[', .single '~', .single '~',
        .single '\\', .range '0' '9', .range '[' '^']
    bracketed sign items = "[!]^&&[~~\\0-9[-^]" ∧ IsWritten sign items ∧
      ∃ p, pattern? (bracketed sign items) = some p ∧
        (['[', ']', '^', '&', '~', '\\', '0', '5'].any fun c =>
          p.occursIn (String.singleton c)) = false ∧
          (['!', '-', 'a', '/', '\n'].all fun c => p.occursIn (String.singleton c)) = true ∧
            p.occursIn "aa" = false := by
  intro sign items
  have written : IsWritten sign items :=
    ⟨by simp [sign], by simp [sign], by decide, by decide, by decide⟩
  obtain ⟨-, -, p, hp, hpath⟩ := class_matches_listed written
  have one (c : Char) : p.occursIn (String.singleton c) = decide (Admits sign items c) := by
    rw [Bool.eq_iff_iff, hpath, decide_eq_true_iff]
    constructor
    · rintro ⟨d, hd, same⟩
      obtain rfl : c = d := by simpa [← String.toList_inj] using same
      exact hd
    · exact fun hc => ⟨c, hc, rfl⟩
  refine ⟨by decide, written, p, hp, ?_, ?_, ?_⟩
  · simp only [one]
    decide
  · simp only [one]
    decide
  · rw [← Bool.not_eq_true, hpath]
    rintro ⟨c, -, same⟩
    simp [← String.toList_inj] at same

end DiagnosticWatch.Glob
