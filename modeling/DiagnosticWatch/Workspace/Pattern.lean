import DiagnosticWatch.FileTree

/-!
# Member patterns

The patterns that say where the packages of a workspace are. `?` stands for one character, `*` for
any run of characters, `[…]` and `[!…]` for one character in or out of a class, and `**`, which has
to be a whole component, for any run of directories. A pattern can be matched against a text, and it
can be walked: component by component through a file tree.
-/

namespace DiagnosticWatch

inductive PatternToken
  | char (c : Char)
  | anyChar
  | anyText
  | directories
  | oneOf (negated : Bool) (ranges : List (Char × Char))
  deriving DecidableEq, Repr, Inhabited

abbrev MemberPattern := List PatternToken

namespace MemberPattern

/-- The ranges of a class; a character that is in no range is one of its own. -/
def ranges : List Char → List (Char × Char)
  | low :: '-' :: high :: cs => (low, high) :: ranges cs
  | c :: cs => (c, c) :: ranges cs
  | [] => []

/-- Reads a class behind its opening bracket. Its first character is never the bracket that closes
it. -/
def class? (cs : List Char) : Option (PatternToken × List Char) :=
  let closed (negated : Bool) (first : Char) (cs : List Char) : Option (PatternToken × List Char) :=
    match cs.dropWhile (· != ']') with
    | [] => none
    | _ :: rest => some (.oneOf negated (ranges (first :: cs.takeWhile (· != ']'))), rest)
  match cs with
  | '!' :: first :: cs => closed true first cs
  | '!' :: [] => none
  | first :: cs => closed false first cs
  | [] => none

/-- Whether a component starts behind a character. -/
def startsComponent (previous : Option Char) : Bool :=
  previous.all (· == '/')

/-- Reads what is left of a pattern behind the character `previous`. Reading a part takes at least
one character, so the length bounds the rounds. -/
def parseFrom? : (rounds : Nat) → (previous : Option Char) → List Char → Option MemberPattern
  | _, _, [] => some []
  | 0, _, _ => none
  | n + 1, previous, c :: cs =>
    match c, cs with
    | '?', cs => (parseFrom? n (some '?') cs).map (.anyChar :: ·)
    | '*', '*' :: '*' :: _ => none
    | '*', '*' :: cs =>
      if !startsComponent previous then none
      else match cs with
        | [] => some [.directories]
        | '/' :: cs => (parseFrom? n (some '/') cs).map (.directories :: ·)
        | _ => none
    | '*', cs => (parseFrom? n (some '*') cs).map (.anyText :: ·)
    | '[', cs =>
      match class? cs with
      | some (token, rest) => (parseFrom? n (some ']') rest).map (token :: ·)
      | none => none
    | c, cs => (parseFrom? n (some c) cs).map (.char c :: ·)

def parse? (text : List Char) : Option MemberPattern :=
  parseFrom? text.length none text

/-- A text in which no character has a meaning of its own. -/
def escape (text : List Char) : List Char :=
  text.flatMap fun c => if ['?', '*', '[', ']'].contains c then ['[', c, ']'] else [c]

def inRanges (ranges : List (Char × Char)) (c : Char) : Bool :=
  ranges.any fun (low, high) => low ≤ c && c ≤ high

/-- Tries a matcher on every end of a text. -/
def onSomeSuffix (m : List Char → Bool) : List Char → Bool
  | [] => m []
  | c :: cs => m (c :: cs) || onSomeSuffix m cs

/-- Tries a matcher behind every separator and on the empty end of a text. -/
def onSomeComponent (m : List Char → Bool) : List Char → Bool
  | [] => m []
  | c :: cs => (c == '/' && m cs) || onSomeComponent m cs

/-- Whether the whole text matches. Wildcards pass over separators, `**` stops behind them or goes
on to the end. -/
def isMatch : MemberPattern → List Char → Bool
  | [], cs => cs.isEmpty
  | .anyText :: ts, cs => onSomeSuffix (isMatch ts) cs
  | .directories :: ts, cs => isMatch ts cs || onSomeComponent (isMatch ts) cs
  | .anyChar :: ts, cs =>
    match cs with
    | [] => false
    | _ :: cs => isMatch ts cs
  | .char d :: ts, cs =>
    match cs with
    | [] => false
    | c :: cs => c == d && isMatch ts cs
  | .oneOf negated ranges :: ts, cs =>
    match cs with
    | [] => false
    | c :: cs => inRanges ranges c != negated && isMatch ts cs

def charOf? : PatternToken → Option Char
  | .char c => some c
  | _ => none

def literal? (p : MemberPattern) : Option String :=
  (p.mapM charOf?).map String.ofList

/-- Whether a component stands for any run of directories. -/
def isRecursive (p : MemberPattern) : Bool :=
  p.contains .directories

/-- Of neighbouring components that stand for any run of directories one is enough. -/
def collapse : List MemberPattern → List MemberPattern
  | [] => []
  | p :: ps =>
    match collapse ps with
    | [] => [p]
    | q :: qs => if isRecursive p && isRecursive q then q :: qs else p :: q :: qs

/-- Whether the name of an entry matches a component. -/
def matchesName (p : MemberPattern) (entry : Path) : Bool :=
  entry.fileName?.any fun name => isMatch p name.toList

/-- The special entries of a directory that a component matches. A wildcard never matches them in
front of a name. -/
def specialEntries (p : MemberPattern) : List Path :=
  if p.head? = some (.char '.') then
    [⟨".."⟩, ⟨"."⟩].filter fun e => isMatch p e.text.toList
  else []

/-- The entries below a path that some components lead to. A component without wildcards is followed
if its entry is there; otherwise the entries of the directory are tried in ascending order. -/
def walk (tree : FileTree) : List MemberPattern → Path → List Path
  | [], p => [p]
  | c :: cs, p =>
    match literal? c with
    | some name =>
      let next := p.join ⟨name⟩
      let found := if name = "." ∨ name = ".." then tree.isDirectory p else tree.exists? next
      if found then walk tree cs next else []
    | none =>
      if !tree.isDirectory p then []
      else if isRecursive c then
        match cs with
        | [] => (tree.entriesBelow p).filter tree.isDirectory
        | d :: ds =>
          (tree.entriesBelow p).flatMap fun e => if matchesName d e then walk tree ds e else []
      else
        (specialEntries c).flatMap (fun e => walk tree cs (p.join e)) ++
          (tree.entries p).flatMap fun e => if matchesName c e then walk tree cs e else []

/-- The entries of a tree that an absolute pattern leads to; none if one of its components makes no
sense. -/
def expand (tree : FileTree) (pattern : List Char) : List Path :=
  match pattern with
  | '/' :: rest =>
    match (Text.split '/' rest).mapM parse? with
    | some components => walk tree (collapse components) ⟨"/"⟩
    | none => []
  | _ => []

end MemberPattern

end DiagnosticWatch
