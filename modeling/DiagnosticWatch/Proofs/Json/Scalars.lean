import DiagnosticWatch.Json.Scan
import Mathlib.Data.List.Basic
import Mathlib.Data.Nat.Init

/-!
# Strings and numbers are read back

Scanning a quoted text undoes its quoting, one character after the other, and scanning the digits of
a number gives the number as long as it is a word and nothing behind it belongs to a number. Neither
holds a line feed.
-/

namespace DiagnosticWatch.Json

open Text (hexDigit? hex4)

/-- A control character takes four hexadecimal digits. -/
theorem digits_hex4 : ∀ n < 0x20,
    (hex4 n).map hexDigit? = [some 0, some 0, some (n / 16), some (n % 16)] := by
  decide

theorem hexQuad_hex4 {n : Nat} (control : n < 0x20) (rest : List Char) :
    ∃ h, hexQuad (hex4 n ++ rest) = .ok (n, ⟨rest, h⟩) := by
  obtain ⟨a, b, c, d, digits, ha, hb, hc, hd⟩ : ∃ a b c d, hex4 n = [a, b, c, d] ∧
      hexDigit? a = some 0 ∧ hexDigit? b = some 0 ∧ hexDigit? c = some (n / 16) ∧
        hexDigit? d = some (n % 16) := by
    simpa [List.map_eq_cons_iff, and_assoc] using digits_hex4 n control
  have value : ((0 * 16 + 0) * 16 + n / 16) * 16 + n % 16 = n := by omega
  rw [digits]
  refine ⟨by simp only [List.length_append, List.length_cons]; omega, ?_⟩
  simp only [List.cons_append, List.nil_append, hexQuad, ha, hb, hc, hd, value]

theorem escape_hex4 {n : Nat} (control : n < 0x20) (rest : List Char) :
    ∃ h, escape ('u' :: (hex4 n ++ rest)) = .ok (Char.ofNat n, ⟨rest, h⟩) := by
  obtain ⟨h, quad⟩ := hexQuad_hex4 control rest
  have unicode : unicodeEscape (hex4 n ++ rest) = .ok (Char.ofNat n, ⟨rest, h⟩) := by
    rw [unicodeEscape, quad]
    simp only
    rw [if_neg (by omega), if_pos (by omega)]
  refine ⟨Nat.lt_succ_of_lt h, ?_⟩
  simp only [escape, unicode]

theorem stringBody_of_escape (done : List Char) {cs rest : List Char} {c : Char}
    {h : rest.length < cs.length} (escaped : escape cs = .ok (c, ⟨rest, h⟩)) :
    stringBody done ('\\' :: cs) = stringBody (c :: done) rest := by
  rw [stringBody, if_neg (by decide), if_pos rfl, escaped]

/-- A written character is read back. -/
theorem stringBody_escape (done : List Char) (c : Char) (rest : List Char) :
    stringBody done (Text.Interchange.escape c ++ rest) = stringBody (c :: done) rest := by
  unfold Text.Interchange.escape
  iterate 7
    split
    · subst c
      exact stringBody_of_escape done rfl
  split
  · rename_i control
    obtain ⟨h, escaped⟩ := escape_hex4 control rest
    rw [Char.ofNat_toNat] at escaped
    exact stringBody_of_escape done escaped
  · rename_i quote backslash _ _ _ _ _ control
    rw [List.cons_append, List.nil_append, stringBody, if_neg quote, if_neg backslash,
      if_neg control]

/-- A quoted text is read back. -/
theorem stringBody_quoted (done cs rest : List Char) :
    stringBody done (cs.flatMap Text.Interchange.escape ++ '"' :: rest) =
      .ok (String.ofList (done.reverse ++ cs), rest) := by
  induction cs generalizing done with
  | nil =>
      rw [List.flatMap_nil, List.nil_append, stringBody, if_pos rfl, List.append_nil]
  | cons c cs ih =>
      rw [List.flatMap_cons, List.append_assoc, stringBody_escape, ih, List.reverse_cons,
        List.append_assoc]
      rfl

theorem stringBody_quote (s : String) (rest : List Char) :
    ∃ cs, Text.Interchange.quote s ++ rest = '"' :: cs ∧ stringBody [] cs = .ok (s, rest) := by
  refine ⟨s.toList.flatMap Text.Interchange.escape ++ '"' :: rest, ?_, ?_⟩
  · simp [Text.Interchange.quote]
  · rw [stringBody_quoted]
    simp

theorem newline_not_mem_hex4 : ∀ n < 0x20, '\n' ∉ hex4 n := by
  decide

theorem newline_not_mem_escape (c : Char) : '\n' ∉ Text.Interchange.escape c := by
  unfold Text.Interchange.escape
  iterate 7
    split
    · decide
  split
  · rename_i control
    simpa using newline_not_mem_hex4 c.toNat control
  · rename_i other _ _ _
    simpa using Ne.symm other

theorem newline_not_mem_quote (s : String) : '\n' ∉ Text.Interchange.quote s := by
  simp [Text.Interchange.quote, newline_not_mem_escape]

/-- Nothing behind a value belongs to it: the text ends or goes on with a separator. -/
def Boundary (cs : List Char) : Prop :=
  ∀ c ∈ cs.head?, c = ',' ∨ c = ']' ∨ c = '}' ∨ c = '\n'

theorem le_ofDigitChars (ds : List Char) (value : Nat) : value ≤ Nat.ofDigitChars 10 ds value := by
  induction ds generalizing value with
  | nil => exact Nat.le_refl value
  | cons d ds ih =>
      rw [Nat.ofDigitChars_cons]
      exact Nat.le_trans (by omega) (ih _)

/-- Digits that make a word are all taken. -/
theorem takeDigits_digits {ds rest : List Char} (digits : ∀ c ∈ ds, c.isDigit = true)
    (ends : startsWithDigit rest = false) {value : Nat}
    (fits : Nat.ofDigitChars 10 ds value ≤ wordLimit) (taken : Nat) :
    takeDigits value taken (ds ++ rest) =
      (Nat.ofDigitChars 10 ds value, taken + ds.length, rest) := by
  induction ds generalizing value taken with
  | nil =>
      cases rest with
      | nil => rfl
      | cons c rest =>
          have other : c.isDigit = false := ends
          simp [takeDigits, other]
  | cons d ds ih =>
      rw [Nat.ofDigitChars_cons] at fits ⊢
      have next : 10 * value + (d.toNat - '0'.toNat) ≤ wordLimit :=
        Nat.le_trans (le_ofDigitChars ds _) fits
      have rest := ih (fun c h => digits c (List.mem_cons_of_mem d h)) fits (taken + 1)
      rw [List.cons_append, takeDigits, if_pos (digits d List.mem_cons_self), if_pos next, rest,
        List.length_cons, Nat.add_assoc, Nat.add_comm 1]

/-- A number has no zero in front. -/
theorem toDigits_eq_of_zero {n : Nat} {ds : List Char} (digits : Nat.toDigits 10 n = '0' :: ds) :
    ds = [] := by
  induction n using Nat.strongRecOn generalizing ds with
  | ind n ih =>
      by_cases single : n < 10
      · rw [Nat.toDigits_of_lt_base single] at digits
        exact (List.cons.inj digits).2.symm
      · rw [Nat.toDigits_of_base_le (by decide) (by omega)] at digits
        cases front : Nat.toDigits 10 (n / 10) with
        | nil => exact absurd front Nat.toDigits_ne_nil
        | cons c more =>
            rw [front, List.cons_append] at digits
            obtain rfl : c = '0' := (List.cons.inj digits).1
            have value := Nat.ofDigitChars_toDigits (b := 10) (n := n / 10) (by decide) (by decide)
            rw [front, ih (n / 10) (by omega) front] at value
            have zero : Nat.ofDigitChars 10 ['0'] 0 = 0 := by decide
            omega

/-- A separator does not go on with a number, nor does the end of the text. -/
theorem Boundary.not_digit {rest : List Char} (boundary : Boundary rest) :
    startsWithDigit rest = false := by
  cases rest with
  | nil => rfl
  | cons c rest => obtain rfl | rfl | rfl | rfl := boundary c rfl <;> rfl

/-- Behind its digits the number ends. -/
theorem Boundary.ends_number {rest : List Char} (boundary : Boundary rest) (n : Nat) :
    (match rest with
      | '.' :: rest => fractionPart false n 0 rest
      | 'e' :: rest | 'E' :: rest => exponentPart false n 0 rest
      | rest => .ok (integer false n, rest)) = .ok (.natural n, rest) := by
  cases rest with
  | nil => rfl
  | cons c rest => obtain rfl | rfl | rfl | rfl := boundary c rfl <;> rfl

/-- A number that is a word is read back. -/
theorem number_toString {n : Nat} (fits : n ≤ wordLimit) {rest : List Char}
    (boundary : Boundary rest) :
    number ((toString n).toList ++ rest) = .ok (.natural n, rest) := by
  have written : (toString n).toList = Nat.toDigits 10 n := Nat.toList_repr
  have digits : ∀ c ∈ Nat.toDigits 10 n, c.isDigit = true :=
    fun c h => Nat.isDigit_of_mem_toDigits (by decide) (by decide) h
  have value : Nat.ofDigitChars 10 (Nat.toDigits 10 n) 0 = n :=
    Nat.ofDigitChars_toDigits (by decide) (by decide)
  rw [written]
  cases whole : Nat.toDigits 10 n with
  | nil => exact absurd whole Nat.toDigits_ne_nil
  | cons c ds =>
      rw [whole] at digits value
      have digit : c.isDigit = true := digits c List.mem_cons_self
      have unsign : number (c :: ds ++ rest) = unsigned false (c :: ds ++ rest) := by
        rw [number]
        rintro _ h
        obtain rfl := (List.cons.inj h).1
        cases digit
      rw [unsign, List.cons_append, unsigned]
      by_cases zero : c = '0'
      · subst zero
        obtain rfl := toDigits_eq_of_zero whole
        obtain rfl : 0 = n := value
        simp only [digit, List.nil_append, boundary.not_digit, Bool.not_true, Bool.false_eq_true,
          and_false, if_false, if_true]
        exact boundary.ends_number 0
      · have taken := takeDigits_digits digits boundary.not_digit
          (Nat.le_trans (Nat.le_of_eq value) fits) 0
        rw [List.cons_append, value] at taken
        simp only [digit, zero, taken, boundary.not_digit, Bool.not_true, Bool.false_eq_true,
          false_and, if_false]
        exact boundary.ends_number n

/-- Where the digits of a number begin. -/
theorem toString_eq_cons (n : Nat) : ∃ c cs, (toString n).toList = c :: cs ∧ c.isDigit = true := by
  have written : (toString n).toList = Nat.toDigits 10 n := Nat.toList_repr
  rw [written]
  cases whole : Nat.toDigits 10 n with
  | nil => exact absurd whole Nat.toDigits_ne_nil
  | cons c cs =>
      refine ⟨c, cs, rfl, ?_⟩
      exact Nat.isDigit_of_mem_toDigits (b := 10) (by decide) (by decide)
        (whole ▸ List.mem_cons_self)

theorem newline_not_mem_toString (n : Nat) : '\n' ∉ (toString n).toList := by
  have written : (toString n).toList = Nat.toDigits 10 n := Nat.toList_repr
  rw [written]
  intro h
  have digit := Nat.isDigit_of_mem_toDigits (by decide) (by decide) h
  cases digit

end DiagnosticWatch.Json
