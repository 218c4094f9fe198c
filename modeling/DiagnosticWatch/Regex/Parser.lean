import DiagnosticWatch.Regex.Escape
import DiagnosticWatch.Text.Search

/-!
# Reading regular expressions

A pattern is read from left to right. The state of the reader holds what has been read of every
group and every bracket that is still open, so one step can look at the next few characters alone.
Nothing is matched here; `Pattern.parse?` answers whether a text is a pattern, and which.

Understood are literals, `.`, classes with ranges, nested classes, named ASCII classes and the
operations `&&`, `--` and `~~`, groups with and without name, the flags `i`, `m`, `s` and `U`,
repetitions, alternatives, and the escapes of `Regex.Escape`. Patterns may nest up to a fixed depth.
-/

namespace DiagnosticWatch.Regex

/-- How deep patterns may nest. -/
def depthLimit : Nat := 250

/-- The flags that change what is read. -/
structure Flags where
  ignoreCase : Bool := false
  multiLine : Bool := false
  dotAll : Bool := false
  deriving DecidableEq, Repr, Inhabited

/-- Something that has been read, and how deep it nests. -/
structure Nested (α : Type) where
  value : α
  depth : Nat := 0
  deriving DecidableEq, Repr, Inhabited

/-- How deep a sequence or choice of several parts nests; a single part is not wrapped. -/
def depthOf (parts : List (Nested α)) : Nat :=
  match parts with
  | [] => 0
  | [part] => part.depth
  | parts => 1 + (parts.map (·.depth)).foldl max 0

/-- One item of a branch. A change of flags matches nothing and cannot be repeated. -/
inductive Item
  | piece (p : Nested Pattern)
  | flags
  deriving DecidableEq, Repr, Inhabited

def Item.pattern : Item → Nested Pattern
  | piece p => p
  | flags => ⟨.empty, 0⟩

/-- What has been read of one group: the branches that are complete and the items of the present
one, both latest first, and the flags in force. -/
structure Level where
  branches : List (Nested Pattern) := []
  items : List Item := []
  flags : Flags := {}
  deriving DecidableEq, Repr, Inhabited

namespace Level

def branch (l : Level) : Nested Pattern :=
  let parts := l.items.reverse.map Item.pattern
  ⟨.seqAll (parts.map (·.value)), depthOf parts⟩

def choice (l : Level) : Nested Pattern :=
  match l.branches.reverse ++ [l.branch] with
  | [] => l.branch
  | first :: more => ⟨.altAll first.value (more.map (·.value)), depthOf (first :: more)⟩

def nextBranch (l : Level) : Level :=
  { l with branches := l.branch :: l.branches, items := [] }

def push (l : Level) (item : Item) : Level :=
  { l with items := item :: l.items }

def pushLeaf (l : Level) (p : Pattern) : Level :=
  l.push (.piece ⟨p, 0⟩)

/-- A set of characters under the flags in force. -/
def cased (l : Level) (s : CharSet) : CharSet :=
  if l.flags.ignoreCase then .fold s else s

/-- Adds a literal or what an escape stands for. -/
def pushPrimitive (l : Level) : Primitive → Level
  | .literal c => l.pushLeaf (.set (l.cased (.single c)))
  | .set s => l.pushLeaf (.set s)
  | .assertion a => l.pushLeaf (.assertion a)

def repeated? (l : Level) (least : Nat) (most : Option Nat) : Option Level :=
  match l.items with
  | .piece p :: items =>
    some { l with items := .piece ⟨.repetition p.value least most, p.depth + 1⟩ :: items }
  | _ => none

end Level

/-- An operation between two sets in a bracket. -/
inductive SetOperation
  | inter
  | diff
  | symmDiff
  deriving DecidableEq, Repr, Inhabited

/-- What has been read of one bracket: whether it is negated, the operation that waits for its right
side, and the items of the present union, latest first. -/
structure Bracket where
  negated : Bool := false
  pending : Option (SetOperation × Nested CharSet) := none
  items : List (Nested CharSet) := []
  deriving DecidableEq, Repr, Inhabited

namespace Bracket

def push (b : Bracket) (item : Nested CharSet) : Bracket :=
  { b with items := item :: b.items }

def union (b : Bracket) : Nested CharSet :=
  let parts := b.items.reverse
  ⟨.unionAll (parts.map (·.value)), depthOf parts⟩

/-- Everything read so far, under the flags in force. -/
def body (l : Level) (b : Bracket) : Nested CharSet :=
  match b.pending with
  | none => b.union
  | some (operation, left) =>
    let right := b.union
    let s := l.cased left.value
    let t := l.cased right.value
    ⟨match operation with
      | .inter => .inter s t
      | .diff => .diff s t
      | .symmDiff => .symmDiff s t, 1 + max left.depth right.depth⟩

/-- Takes an operation: what has been read becomes its left side. -/
def operate (l : Level) (b : Bracket) (operation : SetOperation) : Bracket :=
  { b with pending := some (operation, b.body l), items := [] }

/-- The set of a bracket that is complete. -/
def close (l : Level) (b : Bracket) : Nested CharSet :=
  let body := b.body l
  let s := l.cased body.value
  ⟨if b.negated then .compl s else s, body.depth + 1⟩

/-- Reads what follows an opening bracket: a sign of negation, hyphens that stand for themselves, or
else a closing bracket that does. -/
def opened (cs : List Char) : Bracket × List Char :=
  let (negated, cs) := match cs with
    | '^' :: cs => (true, cs)
    | cs => (false, cs)
  let literal (c : Char) : Nested CharSet := ⟨.single c, 0⟩
  match cs with
  | '-' :: _ =>
    let hyphens := cs.takeWhile (· == '-')
    ({ negated, items := hyphens.map literal }, cs.dropWhile (· == '-'))
  | ']' :: cs => ({ negated, items := [literal ']'] }, cs)
  | cs => ({ negated }, cs)

/-- Reads a named class behind its opening bracket. -/
def named? (cs : List Char) : Option (CharSet × List Char) := do
  let cs ← Text.afterPrefix? [':'] cs
  let (negated, cs) := match cs with
    | '^' :: cs => (true, cs)
    | cs => (false, cs)
  let rest ← Text.afterPrefix? [':', ']'] (cs.dropWhile (· != ':'))
  let s ← CharSet.named.lookup (String.ofList (cs.takeWhile (· != ':')))
  some (if negated then .compl s else s, rest)

/-- Reads one character or escape. -/
def primitive? : List Char → Option (Primitive × List Char)
  | [] => none
  | '\\' :: cs => escape? cs
  | c :: cs => some (.literal c, cs)

/-- Whether a range goes on here: behind a hyphen comes neither the end of the bracket nor another
hyphen. -/
def rangeEnd? : List Char → Option (List Char)
  | '-' :: ']' :: _ => none
  | '-' :: '-' :: _ => none
  | '-' :: cs => some cs
  | _ => none

/-- Reads one item: a range, a character or a class. -/
def item? (cs : List Char) : Option (CharSet × List Char) := do
  let (first, cs) ← primitive? cs
  match rangeEnd? cs, first with
  | none, .literal c => some (.single c, cs)
  | none, .set s => some (s, cs)
  | none, .assertion _ => none
  | some cs, .literal low =>
    match ← primitive? cs with
    | (.literal high, cs) => if low ≤ high then some (.range low high, cs) else none
    | _ => none
  | some _, _ => none

end Bracket

/-- The state of the reader: the present group and the ones around it, the brackets that are open,
all innermost first, and the names of groups. -/
structure Reader where
  level : Level := {}
  outer : List Level := []
  brackets : List Bracket := []
  names : List (List Char) := []
  deriving DecidableEq, Repr, Inhabited

namespace Reader

/-- One step inside brackets. -/
def inBracket? (r : Reader) (b : Bracket) (outer : List Bracket) (cs : List Char) :
    Option (Reader × List Char) :=
  let operated (operation : SetOperation) (rest : List Char) : Option (Reader × List Char) :=
    some ({ r with brackets := b.operate r.level operation :: outer }, rest)
  let item : Option (Reader × List Char) :=
    (Bracket.item? cs).map fun (s, rest) =>
      ({ r with brackets := b.push ⟨s, 0⟩ :: outer }, rest)
  match cs with
  | '[' :: rest =>
    match Bracket.named? rest with
    | some (s, rest) => some ({ r with brackets := b.push ⟨s, 0⟩ :: outer }, rest)
    | none =>
      let (inner, rest) := Bracket.opened rest
      some ({ r with brackets := inner :: b :: outer }, rest)
  | ']' :: rest =>
    let s := b.close r.level
    match outer with
    | [] =>
      some ({ r with level := r.level.push (.piece ⟨.set s.value, s.depth⟩), brackets := [] }, rest)
    | b :: outer => some ({ r with brackets := b.push s :: outer }, rest)
  | '&' :: '&' :: rest => operated .inter rest
  | '-' :: '-' :: rest => operated .diff rest
  | '~' :: '~' :: rest => operated .symmDiff rest
  | _ => item

/-- A decimal number with blanks around it, below the limit for counts. -/
def count? (cs : List Char) : Option Nat × List Char :=
  let cs := cs.dropWhile Text.isBlank
  (Text.boundedDecimal? (UInt32.size - 1) (cs.takeWhile Char.isDigit),
    (cs.dropWhile Char.isDigit).dropWhile Text.isBlank)

/-- Reads the bounds of a repetition behind its opening brace. -/
def bounds? (cs : List Char) : Option (Nat × Option Nat × List Char) := do
  let (least, cs) := count? cs
  let least ← least
  match cs with
  | '}' :: cs => some (least, some least, cs)
  | ',' :: '}' :: cs => some (least, none, cs)
  | ',' :: cs =>
    let (most, cs) := count? cs
    let most ← most
    let cs ← Text.afterPrefix? ['}'] cs
    if least ≤ most then some (least, some most, cs) else none
  | _ => none

/-- Repeats the latest item; a question mark behind a repetition does not change what it matches. -/
def repeated? (r : Reader) (least : Nat) (most : Option Nat) (cs : List Char) :
    Option (Reader × List Char) :=
  let rest := match cs with
    | '?' :: rest => rest
    | rest => rest
  (r.level.repeated? least most).map fun level => ({ r with level }, rest)

def setFlag? (flags : Flags) (value : Bool) : Char → Option Flags
  | 'i' => some { flags with ignoreCase := value }
  | 'm' => some { flags with multiLine := value }
  | 's' => some { flags with dotAll := value }
  | 'U' => some flags
  | _ => none

/-- Reads the letters of flags. Each letter and the sign that turns flags off may come once, and the
sign not last. -/
def setFlags? (flags : Flags) (value : Bool) (seen : List Char) : List Char → Option Flags
  | [] => if seen.head? = some '-' then none else some flags
  | c :: cs =>
    if seen.contains c then none
    else if c = '-' then setFlags? flags false (c :: seen) cs
    else match setFlag? flags value c with
      | some flags => setFlags? flags value (c :: seen) cs
      | none => none

/-- Opens a group in which some flags hold. -/
def openGroup (r : Reader) (flags : Flags) : Reader :=
  { r with level := { flags }, outer := r.level :: r.outer }

/-- Reads the name of a group up to its end, and opens the group. -/
def openNamed? (r : Reader) (cs : List Char) : Option (Reader × List Char) :=
  let isFirst (c : Char) : Bool := c == '_' || (Text.isWordChar c && !Text.isDecimalDigit c)
  let isNext (c : Char) : Bool := c == '.' || c == '[' || c == ']' || Text.isWordChar c
  let name := cs.takeWhile (· != '>')
  match cs.dropWhile (· != '>') with
  | [] => none
  | _ :: rest =>
    if name.head?.any isFirst && name.all isNext && !r.names.contains name then
      some ({ r.openGroup r.level.flags with names := name :: r.names }, rest)
    else none

/-- Reads what follows an opening parenthesis. -/
def group? (r : Reader) (cs : List Char) : Option (Reader × List Char) :=
  match cs with
  | '?' :: 'P' :: '<' :: cs => r.openNamed? cs
  | '?' :: '<' :: cs =>
    if cs.head? = some '=' || cs.head? = some '!' then none else r.openNamed? cs
  | '?' :: cs =>
    let isEnd (c : Char) : Bool := c == ':' || c == ')'
    let letters := cs.takeWhile fun c => !isEnd c
    match cs.dropWhile fun c => !isEnd c with
    | [] => none
    | c :: rest =>
      (setFlags? r.level.flags true [] letters).bind fun flags =>
        if c = ':' then some (r.openGroup flags, rest)
        else if letters.isEmpty then none
        else some ({ r with level := { r.level.push .flags with flags } }, rest)
  | cs => some (r.openGroup r.level.flags, cs)

def closeGroup? (r : Reader) : Option Reader :=
  match r.outer with
  | [] => none
  | level :: outer =>
    let p := r.level.choice
    some { r with level := level.push (.piece ⟨p.value, p.depth + 1⟩), outer }

/-- One step outside brackets. -/
def outside? (r : Reader) (c : Char) (cs : List Char) : Option (Reader × List Char) :=
  let leaf (p : Pattern) : Option (Reader × List Char) :=
    some ({ r with level := r.level.pushLeaf p }, cs)
  let flags := r.level.flags
  match c with
  | '(' => r.group? cs
  | ')' => r.closeGroup?.map fun r => (r, cs)
  | '|' => some ({ r with level := r.level.nextBranch }, cs)
  | '[' =>
    let (b, rest) := Bracket.opened cs
    some ({ r with brackets := [b] }, rest)
  | '?' => r.repeated? 0 (some 1) cs
  | '*' => r.repeated? 0 none cs
  | '+' => r.repeated? 1 none cs
  | '{' => (bounds? cs).bind fun (least, most, rest) => r.repeated? least most rest
  | '.' => leaf (.set (.compl (if flags.dotAll then .empty else .single '\n')))
  | '^' => leaf (.assertion (if flags.multiLine then .lineStart else .textStart))
  | '$' => leaf (.assertion (if flags.multiLine then .lineEnd else .textEnd))
  | '\\' => (escape? cs).map fun (p, rest) => ({ r with level := r.level.pushPrimitive p }, rest)
  | c => some ({ r with level := r.level.pushPrimitive (.literal c) }, cs)

/-- One step: the reader behind it and the text that is left. -/
def step? (r : Reader) : List Char → Option (Reader × List Char)
  | [] => none
  | c :: cs =>
    match r.brackets with
    | [] => r.outside? c cs
    | b :: outer => r.inBracket? b outer (c :: cs)

def run? (r : Reader) : List Char → Option Reader
  | [] => some r
  | c :: cs =>
    match r.step? (c :: cs) with
    | none => none
    | some (r, rest) => if rest.length ≤ cs.length then run? r rest else none
  termination_by cs => cs.length

def finish? (r : Reader) : Option (Nested Pattern) :=
  if r.outer.isEmpty && r.brackets.isEmpty then some r.level.choice else none

end Reader

def Pattern.parse? (text : List Char) : Option Pattern :=
  (Reader.run? {} text).bind fun r =>
    r.finish?.bind fun p => if p.depth ≤ depthLimit then some p.value else none

end DiagnosticWatch.Regex
