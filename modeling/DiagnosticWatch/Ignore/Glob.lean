import DiagnosticWatch.Regex.Parser

/-!
# Globs

A glob is a list of tokens, and each token stands for a piece of a regular expression. The text of
the whole expression is anchored at both ends; a group that the glob leaves open is closed at its
end, so braces never keep a glob from being used.
-/

namespace DiagnosticWatch.Glob

inductive Token
  | literal (c : Char)
  | anyChar
  | anyName
  | anyText
  | directories
  | subtree
  | charClass (negated : Bool) (body : List Char)
  | openChoice
  | nextChoice
  | closeChoice
  deriving DecidableEq, Repr, Inhabited

namespace Token

/-- A character inside a class, kept from being an operator there. -/
def inClass (c : Char) : List Char :=
  if ['\\', ']', '[', '&', '~'].contains c then ['\\', c] else [c]

def source : Token → List Char
  | literal c => Regex.escaped c
  | anyChar => "[^/]".toList
  | anyName => "[^/]*".toList
  | anyText => ".*".toList
  | directories => "(?:.*/)?".toList
  | subtree => "(?:/.*)?".toList
  | charClass negated body =>
    '[' :: (if negated then ['^'] else []) ++ body.flatMap inClass ++ [']']
  | openChoice => "(?:".toList
  | nextChoice => ['|']
  | closeChoice => [')']

end Token

/-- Reads the sign that negates a class. -/
def negation : List Char → Bool × List Char
  | '!' :: cs => (true, cs)
  | '^' :: cs => (true, cs)
  | cs => (false, cs)

/-- Reads a closing bracket that stands for itself. -/
def leadingBracket : List Char → List Char × List Char
  | ']' :: cs => ([']'], cs)
  | cs => ([], cs)

/-- Reads what a class holds and the bracket that closes it. A closing bracket right at the start
belongs to the class. -/
def classBody? (cs : List Char) : Option (List Char × List Char) :=
  let (lead, cs) := leadingBracket cs
  match cs.dropWhile (· != ']') with
  | [] => none
  | _ :: rest => some (lead ++ cs.takeWhile (· != ']'), rest)

/-- Reads a class behind its opening bracket: whether it is negated, what it holds, and the rest. -/
def class? (cs : List Char) : Option (Bool × List Char × List Char) :=
  let (negated, cs) := negation cs
  (classBody? cs).map fun (body, rest) => (negated, body, rest)

theorem length_negation_le (cs : List Char) : (negation cs).2.length ≤ cs.length := by
  unfold negation
  split <;> simp

theorem length_leadingBracket_le (cs : List Char) : (leadingBracket cs).2.length ≤ cs.length := by
  unfold leadingBracket
  split <;> simp

theorem length_lt_of_classBody? {cs body rest : List Char}
    (h : classBody? cs = some (body, rest)) : rest.length < cs.length := by
  unfold classBody? at h
  simp only at h
  split at h
  · cases h
  · rename_i c tail ht
    cases h
    have hd := (List.dropWhile_suffix (fun c => c != ']') (l := (leadingBracket cs).2)).length_le
    rw [ht, List.length_cons] at hd
    exact Nat.lt_of_lt_of_le hd (length_leadingBracket_le cs)

theorem length_lt_of_class? {cs body rest : List Char} {negated : Bool}
    (h : class? cs = some (negated, body, rest)) : rest.length < cs.length := by
  simp only [class?, Option.map_eq_some_iff] at h
  obtain ⟨⟨b, r⟩, hb, h⟩ := h
  cases h
  exact Nat.lt_of_lt_of_le (length_lt_of_classBody? hb) (length_negation_le cs)

/-- Whether `**` starts a segment: the character in front of it is a separator, or there is none. -/
def startsSegment (previous : Option Char) : Bool :=
  match previous with
  | none => true
  | some c => c == '/' || c == '{' || c == ','

/-- Whether a glob or one of its alternatives ends here. -/
def endsHere (depth : Nat) : List Char → Bool
  | [] => true
  | c :: _ => 0 < depth && (c == '}' || c == ',')

/-- The tokens of what is left of a glob, after the character `previous` and inside `depth` open
groups. -/
def tokensFrom (previous : Option Char) (depth : Nat) : List Char → List Token
  | [] => List.replicate depth .closeChoice
  | '*' :: '*' :: '/' :: cs =>
    if startsSegment previous then .directories :: tokensFrom (some '/') depth cs
    else .anyText :: tokensFrom (some '*') depth ('/' :: cs)
  | '*' :: '*' :: cs => .anyText :: tokensFrom (some '*') depth cs
  | '*' :: cs => .anyName :: tokensFrom (some '*') depth cs
  | '?' :: cs => .anyChar :: tokensFrom (some '?') depth cs
  | '/' :: '*' :: '*' :: cs =>
    if endsHere depth cs then .subtree :: tokensFrom (some '*') depth cs
    else .literal '/' :: tokensFrom (some '/') depth ('*' :: '*' :: cs)
  | '{' :: cs => .openChoice :: tokensFrom (some '{') (depth + 1) cs
  | '}' :: cs =>
    if 0 < depth then .closeChoice :: tokensFrom (some '}') (depth - 1) cs
    else .literal '}' :: tokensFrom (some '}') depth cs
  | ',' :: cs => (if 0 < depth then .nextChoice else .literal ',') :: tokensFrom (some ',') depth cs
  | '[' :: cs =>
    match _hc : class? cs with
    | some (negated, body, rest) => .charClass negated body :: tokensFrom (some ']') depth rest
    | none => .literal '[' :: tokensFrom (some '[') depth cs
  | '\\' :: c :: cs => .literal c :: tokensFrom (some c) depth cs
  | c :: cs => .literal c :: tokensFrom (some c) depth cs
  termination_by cs => cs.length
  decreasing_by
    all_goals first
      | (simp only [List.length_cons]; omega)
      | exact Nat.lt_succ_of_lt (length_lt_of_class? ‹_›)

def tokens (glob : List Char) : List Token :=
  tokensFrom none 0 glob

/-- The regular expression for a glob, as text. -/
def source (glob : List Char) : List Char :=
  '^' :: (tokens glob).flatMap Token.source ++ ['$']

/-- The regular expression for a glob, if its classes make sense. -/
def pattern? (glob : String) : Option Regex.Pattern :=
  Regex.Pattern.parse? (source glob.toList)

end DiagnosticWatch.Glob
