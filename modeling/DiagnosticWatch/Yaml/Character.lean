/-!
# Characters of a YAML text

Which characters a YAML text may hold, what separates its words and lines, and the place of a
character in the text. Every line break but the line and paragraph separators counts as a line feed,
so a text is brought to that form before it is read.
-/

namespace DiagnosticWatch.Yaml

/-- The characters that a text may hold. -/
def isAllowed (c : Char) : Bool :=
  let n := c.toNat
  n == 0x09 || n == 0x0A || n == 0x0D || (0x20 ≤ n && n ≤ 0x7E) || n == 0x85 ||
    (0xA0 ≤ n && n ≤ 0xD7FF) || (0xE000 ≤ n && n ≤ 0xFFFD) || 0x10000 ≤ n

/-- The text with plain line feeds. -/
def unifyBreaks : List Char → List Char
  | [] => []
  | '\r' :: '\n' :: cs => '\n' :: unifyBreaks cs
  | c :: cs => (if c = '\r' ∨ c = '\x85' then '\n' else c) :: unifyBreaks cs

def isBreak (c : Char) : Bool :=
  c == '\n' || c.toNat == 0x2028 || c.toNat == 0x2029

/-- A blank inside a line. -/
def isGap (c : Char) : Bool :=
  c == ' ' || c == '\t'

/-- A blank or a line break. -/
def isSeparator (c : Char) : Bool :=
  isGap c || isBreak c

/-- Whether a word ends here: at a blank, a line break or the end of the text. -/
def endsWord : List Char → Bool
  | [] => true
  | c :: _ => isSeparator c

def endsLine : List Char → Bool
  | [] => true
  | c :: _ => isBreak c

/-- The characters of which names are made. -/
def isNameChar (c : Char) : Bool :=
  c.isAlphanum || c == '_' || c == '-'

/-- A place in a text, counted in characters. -/
structure Mark where
  index : Nat := 0
  line : Nat := 0
  column : Nat := 0
  deriving DecidableEq, Repr, Inhabited

namespace Mark

def pass (m : Mark) (c : Char) : Mark :=
  if isBreak c then ⟨m.index + 1, m.line + 1, 0⟩ else ⟨m.index + 1, m.line, m.column + 1⟩

def passAll (m : Mark) (cs : List Char) : Mark :=
  cs.foldl pass m

end Mark

/-- The column behind some characters that start at a column. -/
def columnAfter (column : Nat) (cs : List Char) : Nat :=
  (Mark.passAll ⟨0, 0, column⟩ cs).column

/-- Whether a line that starts here separates documents. -/
def isDocumentMark (cs : List Char) : Bool :=
  ("---".toList.isPrefixOf cs || "...".toList.isPrefixOf cs) && endsWord (cs.drop 3)

end DiagnosticWatch.Yaml
