import DiagnosticWatch.Text.Digit
import DiagnosticWatch.Yaml.Character

/-!
# Scalars of a YAML text

The three ways of writing a text: plain, between quotation marks, and as a block of lines. Each
reader starts behind the sign that announces the scalar and returns the text with what is left
behind it. Between the words of a plain or quoted scalar a single line break counts as a blank, and
of several line breaks the first one is dropped.
-/

namespace DiagnosticWatch.Yaml

/-- What separators between two words stand for. -/
def foldGap (gap : List Char) : List Char :=
  match gap.filter isBreak with
  | [] => gap
  | '\n' :: [] => [' ']
  | '\n' :: more => more
  | breaks => breaks

def isFlowSign (c : Char) : Bool :=
  [',', '[', ']', '{', '}'].contains c

/-- Reads a word of a plain scalar, inside a flow collection or not. There a colon in front of
another sign is an error. -/
def plainWord? (inFlow : Bool) : List Char → Option (List Char × List Char)
  | [] => some ([], [])
  | c :: cs =>
    if isSeparator c then some ([], c :: cs)
    else if c = ':' && inFlow && cs.head?.any (fun d => d == '?' || isFlowSign d) then none
    else if c = ':' && endsWord cs then some ([], c :: cs)
    else if inFlow && isFlowSign c then some ([], c :: cs)
    else (plainWord? inFlow cs).map fun (word, rest) => (c :: word, rest)

/-- A tab in the indentation of a line of a plain scalar. -/
def hasStrayTab (indent : Nat) (gap : List Char) : Bool :=
  let rec go (column : Option Nat) : List Char → Bool
    | [] => false
    | c :: cs =>
      if isBreak c then go (some 0) cs
      else match column with
        | none => go none cs
        | some n => (c == '\t' && n < indent) || go (some (n + 1)) cs
  go none gap

/-- A plain scalar that has been read: its text, whether a line ended behind its last word, and the
rest. -/
structure Plain where
  text : List Char
  brokenOff : Bool
  rest : List Char
  deriving Inhabited

/-- Reads words as long as they belong to one plain scalar. `gap` is what separates them from
`done`, and `indent` how far a further line has to be indented outside flow collections. -/
def plainWords? (inFlow : Bool) (indent : Nat) (done gap : List Char) (column : Nat)
    (cs : List Char) : Option Plain :=
  let finished : Plain := ⟨done, gap.any isBreak, cs⟩
  if (column = 0 && isDocumentMark cs) || cs.head? = some '#' then some finished
  else match plainWord? inFlow cs with
    | none => none
    | some ([], _) => some finished
    | some (word, rest) =>
      let done := done ++ foldGap gap ++ word
      let gap := rest.takeWhile isSeparator
      let after := rest.dropWhile isSeparator
      let column := columnAfter column (word ++ gap)
      if gap.isEmpty then some ⟨done, false, rest⟩
      else if hasStrayTab indent gap then none
      else if !inFlow && column < indent then some ⟨done, gap.any isBreak, after⟩
      else if after.length < cs.length then plainWords? inFlow indent done gap column after
      else none
  termination_by cs.length

/-- Reads a plain scalar that starts at a column. -/
def plain? (inFlow : Bool) (indent column : Nat) (cs : List Char) : Option Plain :=
  plainWords? inFlow indent [] [] column cs

/-- The escapes of one letter between double quotation marks. -/
def letterEscapes : List (Char × Char) :=
  [('0', '\x00'), ('a', '\x07'), ('b', '\x08'), ('t', '\t'), ('\t', '\t'), ('n', '\n'),
    ('v', '\x0b'), ('f', '\x0c'), ('r', '\r'), ('e', '\x1b'), (' ', ' '), ('"', '"'), ('/', '/'),
    ('\\', '\\'), ('N', '\x85'), ('_', '\xa0'), ('L', '\u2028'), ('P', '\u2029')]

/-- The escapes that give a code point, with their number of hexadecimal digits. -/
def codeEscapes : List (Char × Nat) :=
  [('x', 2), ('u', 4), ('U', 8)]

def escaped? : List Char → Option (Char × List Char)
  | [] => none
  | c :: cs =>
    match letterEscapes.lookup c, codeEscapes.lookup c with
    | some d, _ => some (d, cs)
    | none, some width => do
      let digits ← (cs.take width).mapM Text.hexDigit?
      let n := digits.foldl (fun n d => 16 * n + d) 0
      if digits.length = width && n.isValidChar then some (Char.ofNat n, cs.drop width) else none
    | none, none => none

/-- Reads a scalar behind its quotation mark, `done` holding what has been read, latest first.
Separators are kept back in `gap` until it is known what follows; `joined` says that an escape
swallowed a line break, so that the gap starts a line. `column` is the place in the line. -/
def quoted? (double : Bool) (done gap : List Char) (joined : Bool) (column : Nat) :
    (cs : List Char) → Option (List Char × List Char)
  | [] => none
  | c :: cs =>
    let between := if joined then gap.filter isBreak else foldGap gap
    let go (d : Char) (rest : List Char) : Option (List Char × List Char) :=
      if rest.length ≤ cs.length then
        quoted? double (d :: between.reverse ++ done) [] false 1 rest
      else none
    if column = 0 && isDocumentMark (c :: cs) then none
    else if isSeparator c then
      quoted? double done (gap ++ [c]) joined (Mark.pass ⟨0, 0, column⟩ c).column cs
    else if double then
      match c, cs with
      | '"', _ => some ((between.reverse ++ done).reverse, cs)
      | '\\', d :: rest =>
        if isBreak d then quoted? double (between.reverse ++ done) [] true 0 rest
        else match escaped? cs with
          | some (d, rest) => go d rest
          | none => none
      | '\\', [] => none
      | c, _ => go c cs
    else
      match c, cs with
      | '\'', '\'' :: rest => go '\'' rest
      | '\'', _ => some ((between.reverse ++ done).reverse, cs)
      | c, _ => go c cs
  termination_by cs => cs.length
  decreasing_by
    all_goals simp only [List.length_cons] at *
    all_goals omega

/-- What becomes of the line breaks at the end of a block. -/
inductive Chomping
  | strip
  | clip
  | keep
  deriving DecidableEq, Repr, Inhabited

/-- Reads the sign for the line breaks at the end. -/
def chomping? : List Char → Option (Chomping × List Char)
  | '+' :: cs => some (.keep, cs)
  | '-' :: cs => some (.strip, cs)
  | _ => none

/-- Reads the sign for the indentation: a digit that is not zero. -/
def increment? : List Char → Option (Nat × List Char)
  | c :: cs => if c.isDigit then some (c.toNat - '0'.toNat, cs) else none
  | [] => none

/-- Reads the two signs in either order. -/
def blockSigns (cs : List Char) : Chomping × Option Nat × List Char :=
  match chomping? cs with
  | some (chomping, cs) =>
    match increment? cs with
    | some (n, cs) => (chomping, some n, cs)
    | none => (chomping, none, cs)
  | none =>
    match increment? cs with
    | some (n, cs) =>
      match chomping? cs with
      | some (chomping, cs) => (chomping, some n, cs)
      | none => (.clip, some n, cs)
    | none => (.clip, none, cs)

/-- Reads the rest of a line that holds nothing but a comment, and its break. -/
def restOfLine? (cs : List Char) : Option (List Char) :=
  let cs := cs.dropWhile isGap
  let cs := if cs.head? = some '#' then cs.dropWhile fun c => !isBreak c else cs
  if endsLine cs then some (cs.drop 1) else none

/-- Lines without content in front of a line of a block, or of its end. -/
structure BlockBreaks where
  breaks : List Char
  column : Nat
  widest : Nat
  rest : List Char
  deriving Inhabited

/-- Reads line breaks and indentation up to the column `indent`, or up to the first character that
is no blank if the indentation is not known yet. -/
def blockBreaks? (indent : Option Nat) (column widest : Nat) : List Char → Option BlockBreaks
  | [] => some ⟨[], column, max widest column, []⟩
  | c :: cs =>
    let inside := indent.all fun n => column < n
    if inside && c == ' ' then blockBreaks? indent (column + 1) widest cs
    else if inside && c == '\t' then none
    else if isBreak c then
      (blockBreaks? indent 0 (max widest column) cs).map fun b => { b with breaks := c :: b.breaks }
    else some ⟨[], column, max widest column, c :: cs⟩

/-- What stands between two lines of a block: `lead` is the break behind the first one, `breaks` are
those of empty lines. Folded lines are joined by a blank unless one of them is indented further. -/
def blockGap (literal : Bool) (lead breaks : List Char) (leadBlank nextBlank : Bool) : List Char :=
  if !literal && lead == ['\n'] && !leadBlank && !nextBlank then
    if breaks.isEmpty then [' '] else breaks
  else lead ++ breaks

/-- Reads the lines of a block that are indented by `indent`. `lead` and `breaks` stand behind what
has been read, `leadBlank` says whether the last line was indented further. -/
def blockLines? (literal : Bool) (chomping : Chomping) (indent : Nat) (done lead breaks : List Char)
    (leadBlank : Bool) (column : Nat) (cs : List Char) : Option (List Char × List Char) :=
  if column = indent && !cs.isEmpty then
    let nextBlank := cs.head?.any isGap
    let line := cs.takeWhile fun c => !isBreak c
    let behind := cs.dropWhile fun c => !isBreak c
    let done := done ++ blockGap literal lead breaks leadBlank nextBlank ++ line
    let column := if behind.isEmpty then column + line.length else 0
    match blockBreaks? (some indent) column 0 (behind.drop 1) with
    | none => none
    | some b =>
      if b.rest.length < cs.length then
        blockLines? literal chomping indent done (behind.take 1) b.breaks nextBlank b.column b.rest
      else none
  else
    let ending := match chomping with
      | .strip => []
      | .clip => lead
      | .keep => lead ++ breaks
    some (done ++ ending, cs)
  termination_by cs.length

/-- Reads a block behind its sign. `parent` is the indentation of the collection around it, if there
is one. -/
def block? (literal : Bool) (parent : Option Nat) (cs : List Char) :
    Option (List Char × List Char) := do
  let (chomping, increment, cs) := blockSigns cs
  if increment = some 0 then none
  let cs ← restOfLine? cs
  let indent := increment.map fun n => (parent.getD 0) + n
  let b ← blockBreaks? indent 0 0 cs
  let least := match parent with
    | none => 1
    | some n => n + 1
  blockLines? literal chomping (indent.getD (max b.widest least)) [] [] b.breaks false b.column
    b.rest

end DiagnosticWatch.Yaml
