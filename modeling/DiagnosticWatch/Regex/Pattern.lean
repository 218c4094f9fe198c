import DiagnosticWatch.Regex.CharSet

/-!
# Regular expressions

A pattern is read off a text as a relation between positions. Searching computes, from a set of
positions, the set of positions that a pattern leads to; a repetition goes on until it finds no new
position, so every search ends.
-/

namespace DiagnosticWatch.Regex

inductive Assertion
  | textStart
  | textEnd
  | lineStart
  | lineEnd
  | wordEdge
  | wordInside
  | wordStart
  | wordEnd
  | noWordBefore
  | noWordAfter
  deriving DecidableEq, Repr, Inhabited

namespace Assertion

/-- Whether there is a word character on one side of a position. -/
private def isWord (side : Option Char) : Bool :=
  side.any Text.isWordChar

/-- Whether the condition holds between two characters, either of which may be missing. -/
def holds (before after : Option Char) : Assertion → Bool
  | textStart => before.isNone
  | textEnd => after.isNone
  | lineStart => before.all (· == '\n')
  | lineEnd => after.all (· == '\n')
  | wordEdge => isWord before != isWord after
  | wordInside => isWord before == isWord after
  | wordStart => !isWord before && isWord after
  | wordEnd => isWord before && !isWord after
  | noWordBefore => !isWord before
  | noWordAfter => !isWord after

end Assertion

inductive Pattern
  | empty
  | set (s : CharSet)
  | assertion (a : Assertion)
  | seq (p q : Pattern)
  | alt (p q : Pattern)
  | repetition (p : Pattern) (least : Nat) (most : Option Nat)
  deriving DecidableEq, Repr, Inhabited

namespace Pattern

def seqAll : List Pattern → Pattern
  | [] => empty
  | [p] => p
  | p :: ps => seq p (seqAll ps)

/-- A choice between patterns; there is at least the first one. -/
def altAll (p : Pattern) : List Pattern → Pattern
  | [] => p
  | q :: qs => alt p (altAll q qs)

/-- The elements of two ascending lists in one. -/
def merge : List Nat → List Nat → List Nat
  | [], js => js
  | is, [] => is
  | i :: is, j :: js =>
    if i < j then i :: merge is (j :: js)
    else if j < i then j :: merge (i :: is) js
    else i :: merge is js
  termination_by is js => is.length + js.length

def times (step : List Nat → List Nat) : Nat → List Nat → List Nat
  | 0, is => is
  | n + 1, is => if is.isEmpty then [] else times step n (step is)

/-- The positions in `known`, and those that a few steps lead to from the positions in `edge`. A
position that is known is not left twice. -/
def grow (step : List Nat → List Nat) : Nat → (known edge : List Nat) → List Nat
  | 0, known, _ => known
  | n + 1, known, edge =>
    match (step edge).filter fun i => !known.contains i with
    | [] => known
    | fresh => grow step n (merge known fresh) fresh

def before? (text : Array Char) (i : Nat) : Option Char :=
  if i = 0 then none else text[i - 1]?

/-- The positions that a pattern leads to from some positions. A repetition without limit is through
after as many rounds as there are positions. -/
def reach (text : Array Char) : Pattern → List Nat → List Nat
  | empty, is => is
  | set s, is => is.filterMap fun i => if text[i]?.any (CharSet.mem · s) then some (i + 1) else none
  | assertion a, is => is.filter fun i => a.holds (before? text i) text[i]?
  | seq p q, is => reach text q (reach text p is)
  | alt p q, is => merge (reach text p is) (reach text q is)
  | repetition p least most, is =>
    let start := times (reach text p) least is
    let rounds := match most with
      | none => text.size + 1
      | some m => m - least
    grow (reach text p) rounds start start

def occursIn (p : Pattern) (text : String) : Bool :=
  let chars := text.toList.toArray
  !(reach chars p (List.range (chars.size + 1))).isEmpty

end Pattern

end DiagnosticWatch.Regex
