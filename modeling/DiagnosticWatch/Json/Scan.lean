import DiagnosticWatch.Json.Problem
import DiagnosticWatch.Text.Digit
import DiagnosticWatch.Text.Search

/-!
# Words, strings and numbers of a JSON text

Every reader takes what is left of the text and returns what it read with what is left after it. The
texts between quotation marks are unescaped here, with surrogate pairs joined; a number is the whole
text of digits, point and exponent that belongs to it.
-/

namespace DiagnosticWatch.Json

open Text (Shorter)

/-- What a reader returns: a value and the rest of the text, or why there is none. -/
abbrev Outcome (α : Type) := Except Failure (α × List Char)

/-- The blanks that JSON allows between tokens. -/
def isSpace (c : Char) : Bool :=
  c == ' ' || c == '\n' || c == '\t' || c == '\r'

def skipSpace (cs : List Char) : List Char :=
  cs.dropWhile isSpace

/-- Reads the rest of a word whose first letter told it apart. -/
def word : (letters : List Char) → (cs : List Char) → Outcome Unit
  | [], cs => .ok ((), cs)
  | _ :: _, [] => .error (.here .endInValue [])
  | l :: ls, c :: cs =>
    if l = c then word ls cs else .error (.ahead .expectedIdent (c :: cs))

/-- Reads the four digits of a `\u` escape. The digits are looked for in the next four bytes. -/
def hexQuad : (cs : List Char) → Except Failure (Nat × Shorter cs)
  | a :: b :: c :: d :: rest =>
    match Text.hexDigit? a, Text.hexDigit? b, Text.hexDigit? c, Text.hexDigit? d with
    | some a', some b', some c', some d' =>
      .ok (((a' * 16 + b') * 16 + c') * 16 + d', ⟨rest, by simp only [List.length_cons]; omega⟩)
    | _, _, _, _ => .error ⟨.invalidEscape, some ⟨a :: b :: c :: d :: rest, 4⟩, rest⟩
  | cs =>
    if byteLength cs < 4 then .error (.here .endInString [])
    else .error ⟨.invalidEscape, some ⟨cs, 4⟩, cs⟩

/-- The character of a surrogate pair. -/
def joinSurrogates (high low : Nat) : Char :=
  Char.ofNat (0x10000 + (high - 0xD800) * 0x400 + (low - 0xDC00))

/-- Reads what follows `\u`: four digits, and for a leading surrogate the escape of its partner. -/
def unicodeEscape (cs : List Char) : Except Failure (Char × Shorter cs) :=
  match hexQuad cs with
  | .error f => .error f
  | .ok (n, ⟨rest, h⟩) =>
    if 0xDC00 ≤ n ∧ n ≤ 0xDFFF then .error (.here .loneSurrogate rest)
    else if n < 0xD800 ∨ 0xDBFF < n then .ok (Char.ofNat n, ⟨rest, h⟩)
    else match rest, h with
      | [], _ => .error (.here .endInString [])
      | '\\' :: [], _ => .error (.here .endInString [])
      | '\\' :: 'u' :: tail, h =>
        match hexQuad tail with
        | .error f => .error f
        | .ok (low, ⟨rest, h'⟩) =>
          if low < 0xDC00 ∨ 0xDFFF < low then .error (.here .loneSurrogate rest)
          else .ok (joinSurrogates n low, ⟨rest, by simp only [List.length_cons] at h; omega⟩)
      | '\\' :: tail, _ => .error (.ahead .unfinishedSurrogate tail)
      | rest, _ => .error (.ahead .unfinishedSurrogate rest)

/-- Reads what follows a backslash. -/
def escape : (cs : List Char) → Except Failure (Char × Shorter cs)
  | [] => .error (.here .endInString [])
  | c :: cs =>
    let one (r : Char) : Except Failure (Char × Shorter (c :: cs)) :=
      .ok (r, ⟨cs, Nat.lt_succ_self _⟩)
    match c with
    | '"' => one '"'
    | '\\' => one '\\'
    | '/' => one '/'
    | 'b' => one '\x08'
    | 'f' => one '\x0c'
    | 'n' => one '\n'
    | 'r' => one '\r'
    | 't' => one '\t'
    | 'u' =>
      match unicodeEscape cs with
      | .error f => .error f
      | .ok (r, ⟨rest, h⟩) => .ok (r, ⟨rest, Nat.lt_succ_of_lt h⟩)
    | _ => .error (.ahead .invalidEscape (c :: cs))

/-- Reads the characters up to the closing quotation mark; `done` holds those read before, latest
first. -/
def stringBody (done : List Char) : (cs : List Char) → Outcome String
  | [] => .error (.here .endInString [])
  | c :: cs =>
    if c = '"' then .ok (String.ofList done.reverse, cs)
    else if c = '\\' then
      match escape cs with
      | .error f => .error f
      | .ok (r, ⟨rest, _⟩) => stringBody (r :: done) rest
    else if c.toNat < 0x20 then .error (.ahead .controlCharacter (c :: cs))
    else stringBody (c :: done) cs
  termination_by cs => cs.length
  decreasing_by
    · simp only [List.length_cons]; omega
    · simp only [List.length_cons]; omega

inductive Numeral
  | natural (n : Nat)
  | negative (n : Nat)
  | real (x : Float)
  deriving Inhabited

/-- The kind of value that a number is. -/
def Numeral.found : Numeral → Found
  | natural n => .natural n
  | negative n => .negative n
  | real x => .real x

def wordLimit : Nat := UInt64.size - 1

/-- Takes digits into a value as long as it stays a word; returns the value, how many digits were
taken and the rest. -/
def takeDigits (value taken : Nat) : List Char → Nat × Nat × List Char
  | [] => (value, taken, [])
  | c :: cs =>
    if c.isDigit then
      let next := 10 * value + (c.toNat - '0'.toNat)
      if next ≤ wordLimit then takeDigits next (taken + 1) cs else (value, taken, c :: cs)
    else (value, taken, c :: cs)

def startsWithDigit : List Char → Bool
  | [] => false
  | c :: _ => c.isDigit

/-- `significand * 10 ^ exponent`, scaled by the powers of ten that the format of `Float` can
hold. -/
def scaleReal (negative : Bool) (significand : Nat) (exponent : Int) (rest : List Char) :
    Outcome Numeral :=
  let sign (x : Float) : Numeral := .real (if negative then -x else x)
  let power (n : Nat) : Float := Float.ofScientific 1 false n
  let x := significand.toFloat
  if 0 ≤ exponent then
    if 308 < exponent then
      if x == 0 then .ok (sign x, rest) else .error (.here .numberOutOfRange rest)
    else
      let y := x * power exponent.toNat
      if y.isInf then .error (.here .numberOutOfRange rest) else .ok (sign y, rest)
  else .ok (sign (shrink (exponent.natAbs / 308 + 1) exponent.natAbs x), rest)
where
  shrink : Nat → Nat → Float → Float
    | 0, _, x => x
    | steps + 1, n, x =>
      if n ≤ 308 then x / Float.ofScientific 1 false n
      else if x == 0 then x
      else shrink steps (n - 308) (x / Float.ofScientific 1 false 308)

/-- The greatest exponent that is told apart from a greater one. -/
def exponentLimit : Nat := UInt32.size / 2 - 1

/-- Digits of an exponent; `none` once they exceed the limit. Returns the rest behind all digits. -/
def exponentDigits (value : Option Nat) : List Char → Option Nat × List Char
  | [] => (value, [])
  | c :: cs =>
    if c.isDigit then
      exponentDigits (value.bind fun v =>
        let next := 10 * v + (c.toNat - '0'.toNat)
        if next ≤ exponentLimit then some next else none) cs
    else (value, c :: cs)

/-- The digits behind the one that took an exponent beyond its limit are not read any more. -/
def exponentOverflow : Nat → List Char → List Char
  | _, [] => []
  | v, c :: cs =>
    if c.isDigit then
      let next := 10 * v + (c.toNat - '0'.toNat)
      if next ≤ exponentLimit then exponentOverflow next cs else cs
    else c :: cs

/-- Reads what follows the `e` of an exponent. -/
def exponentPart (negative : Bool) (significand : Nat) (start : Int) (cs : List Char) :
    Outcome Numeral :=
  let (down, cs) := match cs with
    | '+' :: rest => (false, rest)
    | '-' :: rest => (true, rest)
    | _ => (false, cs)
  match cs with
  | [] => .error (.here .endInValue [])
  | c :: rest =>
    if !c.isDigit then .error (.ahead .invalidNumber (c :: rest))
    else match exponentDigits (some 0) (c :: rest) with
      | (some e, rest) =>
        scaleReal negative significand (if down then start - e else start + e) rest
      | (none, rest) =>
        if significand ≠ 0 ∧ !down then
          .error (.here .numberOutOfRange (exponentOverflow 0 cs))
        else .ok (.real (if negative then -0.0 else 0.0), rest)

/-- Goes on behind the digits of a significand: an exponent or the end of the number. -/
def afterDigits (negative : Bool) (significand : Nat) (exponent : Int) (cs : List Char) :
    Outcome Numeral :=
  match cs with
  | 'e' :: rest | 'E' :: rest => exponentPart negative significand exponent rest
  | _ => scaleReal negative significand exponent cs

/-- Reads what follows the point. Digits that do not fit the significand are passed over. -/
def fractionPart (negative : Bool) (significand : Nat) (exponent : Int) (cs : List Char) :
    Outcome Numeral :=
  let (value, taken, rest) := takeDigits significand 0 cs
  if startsWithDigit rest then
    afterDigits negative value (exponent - taken) (rest.dropWhile Char.isDigit)
  else if taken = 0 then
    match rest with
    | [] => .error (.ahead .endInValue [])
    | _ => .error (.ahead .invalidNumber rest)
  else afterDigits negative value (exponent - taken) rest

/-- The number without fraction and exponent. Zero with a sign and what is below the smallest signed
word are no integers. -/
def integer (negative : Bool) (n : Nat) : Numeral :=
  if !negative then .natural n
  else if n = 0 ∨ UInt64.size / 2 < n then .real (-n.toFloat)
  else .negative n

/-- Reads a number behind its sign. -/
def unsigned (negative : Bool) (cs : List Char) : Outcome Numeral :=
  match cs with
  | [] => .error (.here .endInValue [])
  | c :: rest =>
    if !c.isDigit then .error (.ahead .invalidNumber (c :: rest))
    else if c = '0' ∧ startsWithDigit rest then .error (.ahead .invalidNumber rest)
    else
      let (value, _, rest) := if c = '0' then (0, 1, rest) else takeDigits 0 0 (c :: rest)
      if startsWithDigit rest then
        let more := rest.takeWhile Char.isDigit
        match rest.dropWhile Char.isDigit with
        | '.' :: rest => fractionPart negative value more.length rest
        | rest => afterDigits negative value more.length rest
      else match rest with
        | '.' :: rest => fractionPart negative value 0 rest
        | 'e' :: rest | 'E' :: rest => exponentPart negative value 0 rest
        | rest => .ok (integer negative value, rest)

/-- Reads a number that starts with a digit or a minus sign. -/
def number : List Char → Outcome Numeral
  | '-' :: cs => unsigned true cs
  | cs => unsigned false cs

end DiagnosticWatch.Json
