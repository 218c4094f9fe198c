import DiagnosticWatch.Ignore.Glob
import DiagnosticWatch.Proofs.Regex.Reading

/-!
# Bracket classes of globs

The text between the brackets of a glob is put into the brackets of a regular expression with the
characters escaped that could open, close or combine sets there. What is left to be told apart are
ranges and, where two hyphens meet, a difference of sets. `classSet?` says which set that is, so
that the text of the class is not needed any more.
-/

namespace DiagnosticWatch.Glob.Token

open Regex

/-- A class as it is read from a glob: it is not empty, and unless it is negated it does not start
with the sign of a negation. -/
structure IsClass (negated : Bool) (body : List Char) : Prop where
  nonempty : body ≠ []
  sign : negated = false → body.head? ≠ some '^'

/-- What the rest of a class adds to a bracket, up to its end. -/
def classRest? (b : Bracket) : List Char → Option (Nested CharSet)
  | [] => some (b.close {})
  | '-' :: '-' :: cs => classRest? (b.operate {} .diff) cs
  | c :: '-' :: d :: cs =>
    if d = '-' then classRest? (b.push ⟨.single c, 0⟩) ('-' :: d :: cs)
    else if c ≤ d then classRest? (b.push ⟨.range c d, 0⟩) cs
    else none
  | c :: cs => classRest? (b.push ⟨.single c, 0⟩) cs

/-- The set of a class: hyphens at its start are its members, and the rest follows. A range that
goes down makes no sense. -/
def classSet? (negated : Bool) (body : List Char) : Option (Nested CharSet) :=
  let hyphens := body.takeWhile (· == '-')
  classRest? { negated, items := hyphens.map fun c => ⟨.single c, 0⟩ } (body.dropWhile (· == '-'))

/-- What may stand between the brackets of a class: a character, or a range of characters. -/
inductive ClassItem
  | single (c : Char)
  | range (low high : Char)
  deriving DecidableEq, Repr

namespace ClassItem

def text : ClassItem → List Char
  | single c => [c]
  | range low high => [low, '-', high]

/-- The character, or both ends of the range. -/
def ends : ClassItem → List Char
  | single c => [c]
  | range low high => [low, high]

def Lists (c : Char) : ClassItem → Prop
  | single d => c = d
  | range low high => low ≤ c ∧ c ≤ high

instance (c : Char) (item : ClassItem) : Decidable (item.Lists c) :=
  match item with
  | single d => inferInstanceAs (Decidable (c = d))
  | range low high => inferInstanceAs (Decidable (low ≤ c ∧ c ≤ high))

def set : ClassItem → CharSet
  | single c => .single c
  | range low high => .range low high

theorem mem_set {c : Char} {item : ClassItem} : item.set.mem c = decide (item.Lists c) := by
  cases item with
  | single d => exact CharSet.mem_single
  | range low high => exact (Bool.decide_and _ _).symm

/-- Whether the item is no range that goes down. -/
def Ascends : ClassItem → Prop
  | single _ => True
  | range low high => low ≤ high

instance (item : ClassItem) : Decidable item.Ascends :=
  match item with
  | single _ => inferInstanceAs (Decidable True)
  | range low high => inferInstanceAs (Decidable (low ≤ high))

/-- Next to such items a hyphen has one meaning only, that of making a range. -/
structure IsClear (item : ClassItem) : Prop where
  ascends : item.Ascends
  hyphen : '-' ∉ item.ends

end ClassItem

def listing (items : List ClassItem) : List Char :=
  items.flatMap ClassItem.text

theorem listing_cons (item : ClassItem) (items : List ClassItem) :
    listing (item :: items) = item.text ++ listing items :=
  List.flatMap_cons

theorem head?_listing {items : List ClassItem} (clear : ∀ item ∈ items, item.IsClear) :
    (listing items).head? ≠ some '-' := by
  cases items with
  | nil => simp [listing]
  | cons item items =>
      have hyphen := (clear item List.mem_cons_self).hyphen
      rw [listing_cons]
      cases item <;> simp_all [ClassItem.text, ClassItem.ends, eq_comm]

theorem classRest?_item (b : Bracket) {item : ClassItem} (clear : item.IsClear) {cs : List Char}
    (behind : cs.head? ≠ some '-') :
    classRest? b (item.text ++ cs) = classRest? (b.push ⟨item.set, 0⟩) cs := by
  have hyphen := clear.hyphen
  cases item with
  | single c =>
      rw [ClassItem.text, List.singleton_append, classRest?]
      · rfl
      · rintro tail - rfl
        exact behind rfl
      · rintro d tail rfl
        exact behind rfl
  | range low high =>
      obtain ⟨hlow, hhigh⟩ : '-' ≠ low ∧ '-' ≠ high := by simpa [ClassItem.ends] using hyphen
      have ascends : low ≤ high := clear.ascends
      show classRest? b (low :: '-' :: high :: cs) = _
      rw [classRest?, if_neg (Ne.symm hhigh), if_pos ascends]
      · rfl
      · intro h
        exact hlow h.symm

/-- The items of a class are added to its bracket in turn. -/
theorem classRest?_listing (b : Bracket) {items : List ClassItem}
    (clear : ∀ item ∈ items, item.IsClear) :
    classRest? b (listing items) =
      some (Bracket.close {} { b with
        items := (items.map fun item => ⟨item.set, 0⟩).reverse ++ b.items }) := by
  induction items generalizing b with
  | nil =>
      rw [listing, List.flatMap_nil, classRest?]
      rfl
  | cons item items ih =>
      obtain ⟨first, rest⟩ := List.forall_mem_cons.1 clear
      rw [listing_cons, classRest?_item b first (head?_listing rest), ih _ rest]
      simp [Bracket.push]

/-- A class has the characters that its items list, or if it is negated all others. -/
theorem exists_classSet? (negated : Bool) {items : List ClassItem}
    (clear : ∀ item ∈ items, item.IsClear) :
    ∃ s, classSet? negated (listing items) = some s ∧ s.depth ≤ 2 ∧
      ∀ c, s.value.mem c = true ↔ (negated = false ↔ ∃ item ∈ items, item.Lists c) := by
  have noLead : (listing items).takeWhile (· == '-') = [] ∧
      (listing items).dropWhile (· == '-') = listing items := by
    have start := head?_listing clear
    cases hbody : listing items with
    | nil => exact ⟨rfl, rfl⟩
    | cons c cs =>
        have hc : c ≠ '-' := fun e => start (by rw [hbody, e]; rfl)
        exact ⟨List.takeWhile_cons_of_neg (by simpa using hc),
          List.dropWhile_cons_of_neg (by simpa using hc)⟩
  rw [classSet?, noLead.1, noLead.2, classRest?_listing _ clear]
  refine ⟨_, rfl, ?_, fun c => ?_⟩
  · exact Nat.succ_le_succ (depthOf_le (by simp))
  · cases negated <;>
      simp [Bracket.close, Bracket.body, Bracket.union, Level.cased, CharSet.mem, Function.comp_def,
        ClassItem.mem_set]

theorem inClass_eq (c : Char) :
    inClass c = [c] ∧ c ∉ ['\\', ']', '[', '&', '~'] ∨
      inClass c = ['\\', c] ∧ c ∈ ['\\', ']', '[', '&', '~'] := by
  unfold inClass
  split <;> rename_i h
  · exact .inr ⟨rfl, List.contains_iff_mem.1 h⟩
  · exact .inl ⟨rfl, fun hc => h (List.contains_iff_mem.2 hc)⟩

/-- The text of a character starts neither like an end of the class nor, but for a hyphen, like a
range. -/
theorem head?_inClass (c : Char) (cs : List Char) :
    ∃ d tail, inClass c ++ cs = d :: tail ∧ d ≠ ']' ∧ (d = '-' → c = '-') ∧
      (d = '^' → c = '^') := by
  rcases inClass_eq c with ⟨h, hc⟩ | ⟨h, -⟩
  · exact ⟨c, cs, by rw [h]; rfl, fun e => hc (by simp [e]), id, id⟩
  · exact ⟨'\\', c :: cs, by rw [h]; rfl, by decide, fun e => absurd e (by decide),
      fun e => absurd e (by decide)⟩

theorem length_inClass_pos (c : Char) : 0 < (inClass c).length := by
  rcases inClass_eq c with ⟨h, -⟩ | ⟨h, -⟩ <;> simp [h]

/-- Read as a character of a bracket, the text of a character is that character. -/
theorem primitive?_inClass (c : Char) (cs : List Char) :
    Bracket.primitive? (inClass c ++ cs) = some (.literal c, cs) := by
  rcases inClass_eq c with ⟨h, hc⟩ | ⟨h, hc⟩
  · rw [h]
    have : c ≠ '\\' := fun e => hc (by simp [e])
    unfold Bracket.primitive?
    split <;> simp_all
  · rw [h]
    have special : ['\\', ']', '[', '&', '~'] ⊆ metaCharacters := by decide
    exact escape?_meta (special hc) cs

/-- A range goes on behind a hyphen that is neither doubled nor the last character of the class. -/
theorem rangeEnd?_hyphen {d : Char} (hd : d ≠ '-') (cs : List Char) :
    Bracket.rangeEnd? ('-' :: (inClass d ++ cs)) = some (inClass d ++ cs) := by
  obtain ⟨x, tail, htext, hclose, hhyphen, -⟩ := head?_inClass d cs
  rw [htext]
  unfold Bracket.rangeEnd?
  split <;> simp_all

theorem rangeEnd?_inClass {c : Char} (hc : c ≠ '-') (cs : List Char) :
    Bracket.rangeEnd? (inClass c ++ cs) = none := by
  obtain ⟨x, tail, htext, -, hhyphen, -⟩ := head?_inClass c cs
  rw [htext]
  unfold Bracket.rangeEnd?
  split <;> simp_all

/-- Behind the last range no other one starts. -/
theorem rangeEnd?_rest {cs : List Char} (last : ∀ d tail, cs ≠ '-' :: d :: tail)
    (rest : List Char) : Bracket.rangeEnd? (cs.flatMap inClass ++ ']' :: rest) = none := by
  cases cs with
  | nil => rfl
  | cons c cs =>
      rw [List.flatMap_cons, List.append_assoc]
      by_cases hc : c = '-'
      · subst hc
        cases cs with
        | nil => rfl
        | cons d tail => exact absurd rfl (last d tail)
      · exact rangeEnd?_inClass hc _

theorem eq_hyphen_of_head? {cs rest : List Char}
    (h : (cs.flatMap inClass ++ ']' :: rest).head? = some '-') : ∃ tail, cs = '-' :: tail := by
  cases cs with
  | nil => simp at h
  | cons c cs =>
      rw [List.flatMap_cons, List.append_assoc] at h
      obtain ⟨d, tail, htext, -, hhyphen, -⟩ := head?_inClass c (cs.flatMap inClass ++ ']' :: rest)
      rw [htext, List.head?_cons, Option.some.injEq] at h
      exact ⟨cs, hhyphen h ▸ rfl⟩

theorem flatMap_inClass_range (c d : Char) (cs rest : List Char) :
    (c :: '-' :: d :: cs).flatMap inClass ++ ']' :: rest =
      inClass c ++ '-' :: (inClass d ++ (cs.flatMap inClass ++ ']' :: rest)) := by
  simp [List.flatMap_cons, show inClass '-' = ['-'] from rfl]

theorem item?_of_rangeEnd_none {c : Char} {cs : List Char} (h : Bracket.rangeEnd? cs = none) :
    Bracket.item? (inClass c ++ cs) = some (.single c, cs) := by
  simp [Bracket.item?, primitive?_inClass, h]

theorem item?_range {c d : Char} (hd : d ≠ '-') (cs : List Char) :
    Bracket.item? (inClass c ++ '-' :: (inClass d ++ cs)) =
      if c ≤ d then some (.range c d, cs) else none := by
  simp [Bracket.item?, primitive?_inClass, rangeEnd?_hyphen hd]

/-- A character of a class is read as an item, unless it is one of two hyphens. -/
theorem inBracket?_inClass (r : Reader) (b : Bracket) {c : Char} {cs : List Char}
    (single : c = '-' → cs.head? ≠ some '-') :
    r.inBracket? b [] (inClass c ++ cs) = (Bracket.item? (inClass c ++ cs)).map fun (s, rest) =>
      ({ r with brackets := [b.push ⟨s, 0⟩] }, rest) := by
  rcases inClass_eq c with ⟨h, hc⟩ | ⟨h, -⟩
  · rw [h]
    unfold Reader.inBracket?
    split <;> simp_all
  · rw [h]
    rfl

/-- The hyphens at the start of a class stand at the start of its text. -/
theorem hyphens_flatMap (body rest : List Char) :
    (body.flatMap inClass ++ ']' :: rest).takeWhile (· == '-') = body.takeWhile (· == '-') ∧
      (body.flatMap inClass ++ ']' :: rest).dropWhile (· == '-') =
        (body.dropWhile (· == '-')).flatMap inClass ++ ']' :: rest := by
  induction body with
  | nil => exact ⟨rfl, rfl⟩
  | cons c cs ih =>
      by_cases hc : c = '-'
      · subst hc
        exact ⟨congrArg (List.cons '-') ih.1, ih.2⟩
      · obtain ⟨d, tail, htext, -, hhyphen, -⟩ :=
          head?_inClass c (cs.flatMap inClass ++ ']' :: rest)
        have hd : d ≠ '-' := fun e => hc (hhyphen e)
        rw [List.flatMap_cons, List.append_assoc, htext,
          List.takeWhile_cons_of_neg (by simpa using hd),
          List.takeWhile_cons_of_neg (by simpa using hc),
          List.dropWhile_cons_of_neg (by simpa using hd),
          List.dropWhile_cons_of_neg (by simpa using hc),
          List.flatMap_cons, List.append_assoc, htext]
        exact ⟨rfl, rfl⟩

/-- Without flags a bracket is closed and combined in the same way in every group. -/
theorem close_of_flags {l : Level} (h : l.flags = {}) (b : Bracket) : b.close l = b.close {} := by
  simp only [Bracket.close, Bracket.body, Level.cased, h]

theorem operate_of_flags {l : Level} (h : l.flags = {}) (b : Bracket) (operation : SetOperation) :
    b.operate l operation = b.operate {} operation := by
  simp only [Bracket.operate, Bracket.body, Level.cased, h]

variable {r : Reader} (outside : r.Outside)
include outside

omit outside in
theorem step?_inClass (b : Bracket) {c : Char} {cs : List Char}
    (single : c = '-' → cs.head? ≠ some '-') :
    Reader.step? { r with brackets := [b] } (inClass c ++ cs) =
      (Bracket.item? (inClass c ++ cs)).map fun (s, rest) =>
        ({ r with brackets := [b.push ⟨s, 0⟩] }, rest) := by
  rw [← inBracket?_inClass { r with brackets := [b] } b single]
  obtain ⟨d, tail, htext, -⟩ := head?_inClass c cs
  rw [htext]
  rfl

omit outside in
theorem run?_item (b : Bracket) {c : Char} {cs rest : List Char} {s : CharSet}
    (single : c = '-' → cs.head? ≠ some '-')
    (h : Bracket.item? (inClass c ++ cs) = some (s, rest)) (shorter : rest.length ≤ cs.length) :
    Reader.run? { r with brackets := [b] } (inClass c ++ cs) =
      Reader.run? { r with brackets := [b.push ⟨s, 0⟩] } rest := by
  apply Reader.run?_of_step
  · rw [step?_inClass b single, h]
    rfl
  · have := length_inClass_pos c
    rw [List.length_append]
    omega

/-- From inside a bracket the reader goes through the characters of a class up to its end. -/
theorem run?_classRest (b : Bracket) (body rest : List Char) :
    Reader.run? { r with brackets := [b] } (body.flatMap inClass ++ ']' :: rest) =
      (classRest? b body).bind fun s => (r.push ⟨.set s.value, s.depth⟩).run? rest := by
  fun_induction classRest? b body with
  | case1 b =>
      rw [Option.bind_some, ← close_of_flags outside.flags]
      obtain ⟨level, outer, brackets, names⟩ := r
      obtain rfl : brackets = [] := outside.brackets
      exact Reader.run?_of_step rfl (Nat.lt_succ_self _)
  | case2 b cs ih =>
      rw [← ih, ← operate_of_flags outside.flags]
      exact Reader.run?_of_step rfl (Nat.lt_succ_of_lt (Nat.lt_succ_self _))
  | case3 b c cs hc ih =>
      -- A hyphen in front of a second one does not start a range.
      rw [← ih, List.flatMap_cons, List.append_assoc]
      exact run?_item b (fun h => absurd h hc) (item?_of_rangeEnd_none rfl) (Nat.le_refl _)
  | case4 b c d cs hc hd hle ih =>
      rw [← ih, flatMap_inClass_range]
      refine run?_item b (fun h => absurd h hc) ?_ (by grind)
      rw [item?_range hd, if_pos hle]
  | case5 b c d cs hc hd hle =>
      rw [flatMap_inClass_range]
      apply Reader.run?_of_step_none
      · rw [step?_inClass b fun h => absurd h hc, item?_range hd, if_neg hle]
        rfl
      · simp
  | case6 b c cs hdouble hrange ih =>
      rw [← ih, List.flatMap_cons, List.append_assoc]
      refine run?_item b ?_ (item?_of_rangeEnd_none (rangeEnd?_rest hrange rest)) (Nat.le_refl _)
      intro hc hhead
      obtain ⟨tail, rfl⟩ := eq_hyphen_of_head? hhead
      exact hdouble tail hc rfl

omit outside in
theorem opened_of_head {negated : Bool} {d : Char} (tail : List Char) (hclose : d ≠ ']')
    (hcaret : negated = false → d ≠ '^') :
    Bracket.opened ((if negated then ['^'] else []) ++ d :: tail) =
      ({ negated, items := ((d :: tail).takeWhile (· == '-')).map fun c => ⟨.single c, 0⟩ },
        (d :: tail).dropWhile (· == '-')) := by
  by_cases hd : d = '-' <;> cases negated <;> simp_all [Bracket.opened]

omit outside in
/-- What an opening bracket reads of a class: its negation and its leading hyphens. -/
theorem opened_class {negated : Bool} {body : List Char} (h : IsClass negated body)
    (rest : List Char) :
    Bracket.opened ((if negated then ['^'] else []) ++ (body.flatMap inClass ++ ']' :: rest)) =
      ({ negated, items := (body.takeWhile (· == '-')).map fun c => ⟨.single c, 0⟩ },
        (body.dropWhile (· == '-')).flatMap inClass ++ ']' :: rest) := by
  obtain ⟨htake, hdrop⟩ := hyphens_flatMap body rest
  rw [← htake, ← hdrop]
  cases body with
  | nil => exact absurd rfl h.nonempty
  | cons c cs =>
      obtain ⟨d, tail, htext, hclose, -, hsign⟩ :=
        head?_inClass c (cs.flatMap inClass ++ ']' :: rest)
      rw [List.flatMap_cons, List.append_assoc, htext]
      exact opened_of_head tail hclose fun positive e => h.sign positive (by rw [hsign e]; rfl)

/-- A class is one piece, a set. -/
theorem run?_class {negated : Bool} {body : List Char} (h : IsClass negated body)
    (rest : List Char) :
    r.run? ((charClass negated body).source ++ rest) =
      (classSet? negated body).bind fun s => (r.push ⟨.set s.value, s.depth⟩).run? rest := by
  have text : (charClass negated body).source ++ rest =
      '[' :: ((if negated then ['^'] else []) ++ (body.flatMap inClass ++ ']' :: rest)) := by
    change '[' :: (if negated then ['^'] else []) ++ body.flatMap inClass ++ [']'] ++ rest = _
    simp
  rw [classSet?, ← run?_classRest outside, text]
  apply Reader.run?_of_step
  · rw [outside.step?]
    simp only [Reader.outside?, opened_class h]
  · have hdrop := (hyphens_flatMap body rest).2
    have := (List.dropWhile_suffix (· == '-') (l := body.flatMap inClass ++ ']' :: rest)).length_le
    rw [hdrop] at this
    simp only [List.length_cons, List.length_append] at this ⊢
    omega

end DiagnosticWatch.Glob.Token

namespace DiagnosticWatch.Glob

theorem negation_eq {cs rest : List Char} {negated : Bool} (h : negation cs = (negated, rest)) :
    (∃ sign, cs = sign ++ rest) ∧ (negated = false → rest.head? ≠ some '^') := by
  unfold negation at h
  split at h <;> cases h
  · exact ⟨⟨['!'], rfl⟩, fun h => absurd h (by decide)⟩
  · exact ⟨⟨['^'], rfl⟩, fun h => absurd h (by decide)⟩
  · rename_i hcaret
    refine ⟨⟨[], rfl⟩, fun _ h => ?_⟩
    obtain ⟨tail, rfl⟩ := List.head?_eq_some_iff.1 h
    exact hcaret tail rfl

theorem leadingBracket_eq {cs lead rest : List Char} (h : leadingBracket cs = (lead, rest)) :
    cs = lead ++ rest ∧ (lead = [] → rest.head? ≠ some ']') := by
  unfold leadingBracket at h
  split at h <;> cases h
  · exact ⟨rfl, fun h => absurd h (by decide)⟩
  · rename_i hclose
    refine ⟨rfl, fun _ h => ?_⟩
    obtain ⟨tail, rfl⟩ := List.head?_eq_some_iff.1 h
    exact hclose tail rfl

/-- A class ends at the first closing bracket behind its first character. -/
theorem classBody?_eq {cs body rest : List Char} (h : classBody? cs = some (body, rest)) :
    cs = body ++ ']' :: rest ∧ body ≠ [] := by
  unfold classBody? at h
  generalize hlead : leadingBracket cs = l at h
  obtain ⟨lead, cs⟩ := l
  obtain ⟨rfl, nonempty⟩ := leadingBracket_eq hlead
  dsimp only at h
  split at h
  · cases h
  · rename_i c tail hdrop
    cases h
    have hc : c = ']' := by
      have := List.head_dropWhile_not (· != ']') (l := cs)
        (by rw [hdrop]; exact List.cons_ne_nil _ _)
      simpa [hdrop] using this
    have hcs := List.takeWhile_append_dropWhile (p := (· != ']')) (l := cs)
    rw [hdrop, hc] at hcs
    refine ⟨by rw [List.append_assoc, hcs], fun hnil => ?_⟩
    obtain ⟨hlead, htake⟩ := List.append_eq_nil_iff.1 hnil
    rw [htake] at hcs
    exact nonempty hlead (by rw [← hcs]; rfl)

/-- A class that has been read stands in the text up to its closing bracket. -/
theorem class?_eq {cs body rest : List Char} {negated : Bool}
    (h : class? cs = some (negated, body, rest)) :
    (∃ sign, cs = sign ++ (body ++ ']' :: rest)) ∧ Token.IsClass negated body := by
  unfold class? at h
  generalize hsign : negation cs = n at h
  obtain ⟨negated, tail⟩ := n
  obtain ⟨⟨sign, rfl⟩, hcaret⟩ := negation_eq hsign
  simp only [Option.map_eq_some_iff] at h
  obtain ⟨⟨body, rest⟩, hbody, h⟩ := h
  cases h
  obtain ⟨rfl, nonempty⟩ := classBody?_eq hbody
  refine ⟨⟨sign, rfl⟩, nonempty, fun h => ?_⟩
  cases body with
  | nil => exact absurd rfl nonempty
  | cons c cs => exact hcaret h

def Token.isClass : Token → Bool
  | .charClass .. => true
  | _ => false

/-- Whether some bracket of a glob opens a class: one without a backslash in front of it, behind
which the class is closed. -/
def opensClass : List Char → Bool
  | [] => false
  | '\\' :: _ :: cs => opensClass cs
  | '[' :: cs => (class? cs).isSome || opensClass cs
  | _ :: cs => opensClass cs

/-- The tokens of a glob have a class exactly if a bracket opens one. -/
theorem any_isClass_tokensFrom (previous : Option Char) (depth : Nat) (cs : List Char) :
    (tokensFrom previous depth cs).any Token.isClass = opensClass cs := by
  have literal {t : Token} {ts : List Token} {cs : List Char} (ht : t.isClass = false)
      (hts : ts.any Token.isClass = opensClass cs) :
      (t :: ts).any Token.isClass = opensClass cs := by
    rw [List.any_cons, ht, hts, Bool.false_or]
  fun_induction tokensFrom previous depth cs with
  | case1 previous depth => simp [opensClass, Token.isClass]
  | case12 previous depth cs ih =>
      refine literal ?_ ih
      split
      · rfl
      · rfl
  | case13 previous depth cs negated body rest hclass ih =>
      rw [opensClass, hclass]
      rfl
  | case14 previous depth cs hclass ih =>
      rw [opensClass, hclass]
      exact literal rfl ih
  | case16 previous depth c cs _ _ _ _ _ _ _ _ bracket unescaped ih =>
      rw [opensClass]
      · exact literal rfl ih
      · exact unescaped
      · exact bracket
  | _ =>
      rename_i ih
      exact literal rfl ih

end DiagnosticWatch.Glob
