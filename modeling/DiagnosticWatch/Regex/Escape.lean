import DiagnosticWatch.Regex.Pattern

/-!
# Escapes in regular expressions

What a backslash and the characters behind it stand for, and the other way round: the text that
stands for one character and nothing else.
-/

namespace DiagnosticWatch.Regex

/-- The characters with a meaning of their own somewhere in a pattern. -/
def metaCharacters : List Char :=
  ['\\', '.', '+', '*', '?', '(', ')', '|', '[', ']', '{', '}', '^', '$', '#', '&', '-', '~']

/-- The text that stands for one character. -/
def escaped (c : Char) : List Char :=
  if metaCharacters.contains c then ['\\', c] else [c]

inductive Primitive
  | literal (c : Char)
  | set (s : CharSet)
  | assertion (a : Assertion)
  deriving DecidableEq, Repr, Inhabited

/-- A character by its code point, surrogates left out. -/
def charOfCode? (n : Nat) : Option Char :=
  if n.isValidChar then some (Char.ofNat n) else none

/-- The value of some hexadecimal digits, one at least. -/
def hexValue? (digits : List Char) : Option Nat :=
  if digits.isEmpty then none
  else (digits.mapM Text.hexDigit?).map (·.foldl (fun n d => 16 * n + d) 0)

/-- Reads a code point, in braces or with a fixed number of digits. -/
def codePoint? (width : Nat) (cs : List Char) : Option (Char × List Char) :=
  let (digits, rest) := match cs with
    | '{' :: cs => (cs.takeWhile (· != '}'), cs.dropWhile (· != '}'))
    | cs => (cs.take width, '}' :: cs.drop width)
  match rest with
  | [] => none
  | _ :: rest =>
    if cs.head? = some '{' || digits.length = width then
      ((hexValue? digits).bind charOfCode?).map fun c => (c, rest)
    else none

/-- The conditions on words that have a name in braces. -/
def wordAssertions : List (String × Assertion) :=
  [("start", .wordStart), ("end", .wordEnd), ("start-half", .noWordBefore),
    ("end-half", .noWordAfter)]

/-- Reads what may follow `\b`: the name of a condition in braces. A brace in front of anything but
a letter or a hyphen is no part of the escape. -/
def wordAssertion? (cs : List Char) : Option (Assertion × List Char) :=
  let isNameChar (c : Char) : Bool := c.isAlpha || c == '-'
  match cs with
  | '{' :: [] => none
  | '{' :: c :: rest =>
    if isNameChar c then
      let name := (c :: rest).takeWhile isNameChar
      match (c :: rest).dropWhile isNameChar with
      | '}' :: rest => (wordAssertions.lookup (String.ofList name)).map fun a => (a, rest)
      | _ => none
    else some (.wordEdge, cs)
  | cs => some (.wordEdge, cs)

def escape? : List Char → Option (Primitive × List Char)
  | [] => none
  | c :: cs =>
    match c with
    | 'd' => some (.set .digit, cs)
    | 's' => some (.set .blank, cs)
    | 'w' => some (.set .word, cs)
    | 'D' => some (.set (.compl .digit), cs)
    | 'S' => some (.set (.compl .blank), cs)
    | 'W' => some (.set (.compl .word), cs)
    | 'a' => some (.literal '\x07', cs)
    | 'f' => some (.literal '\x0c', cs)
    | 't' => some (.literal '\t', cs)
    | 'n' => some (.literal '\n', cs)
    | 'r' => some (.literal '\r', cs)
    | 'v' => some (.literal '\x0b', cs)
    | 'x' => (codePoint? 2 cs).map fun (c, cs) => (.literal c, cs)
    | 'u' => (codePoint? 4 cs).map fun (c, cs) => (.literal c, cs)
    | 'U' => (codePoint? 8 cs).map fun (c, cs) => (.literal c, cs)
    | 'A' => some (.assertion .textStart, cs)
    | 'z' => some (.assertion .textEnd, cs)
    | 'b' => (wordAssertion? cs).map fun (a, cs) => (.assertion a, cs)
    | 'B' => some (.assertion .wordInside, cs)
    | '<' => some (.assertion .wordStart, cs)
    | '>' => some (.assertion .wordEnd, cs)
    | c => if c.toNat < 128 && !c.isAlphanum then some (.literal c, cs) else none

theorem escape?_meta {c : Char} (h : c ∈ metaCharacters) (cs : List Char) :
    escape? (c :: cs) = some (.literal c, cs) := by
  simp only [metaCharacters, List.mem_cons, List.not_mem_nil, or_false] at h
  rcases h with rfl | rfl | rfl | rfl | rfl | rfl | rfl | rfl | rfl | rfl | rfl | rfl | rfl | rfl |
    rfl | rfl | rfl | rfl <;> rfl

end DiagnosticWatch.Regex
