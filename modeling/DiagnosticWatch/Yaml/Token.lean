import DiagnosticWatch.Text.Search
import DiagnosticWatch.Yaml.Scalar

/-!
# Tokens of a YAML text

A YAML text is cut into tokens: indicators, scalars, and marks for the start and end of the
collections that only indentation shows. A colon turns what stands before it on the same line into a
key, so the key mark is put in afterwards, in front of tokens that are there already.
-/

namespace DiagnosticWatch.Yaml

/-- A token. `blockEnd` closes the innermost collection that indentation shows. -/
inductive Token
  | version (major minor : Nat)
  | tagHandle (handle : List Char)
  | documentStart
  | documentEnd
  | blockSequence
  | blockMapping
  | blockEnd
  | flowSequence
  | flowSequenceEnd
  | flowMapping
  | flowMappingEnd
  | entry
  | comma
  | key
  | value
  | alias (name : List Char)
  | anchor (name : List Char)
  | tag (handle : List Char)
  | scalar (text : List Char) (isPlain : Bool)
  deriving DecidableEq, Repr, Inhabited

/-- Reads the name of an anchor or alias. -/
def anchorName? (cs : List Char) : Option (List Char × List Char) :=
  let name := cs.takeWhile isNameChar
  let rest := cs.dropWhile isNameChar
  let ends := endsWord rest ||
    rest.head?.any fun c => ['?', ':', ',', ']', '}', '%', '@', '\x60'].contains c
  if name.isEmpty || !ends then none else some (name, rest)

def isTagChar (flowToo : Bool) (c : Char) : Bool :=
  isNameChar c ||
    [';', '/', '?', ':', '@', '&', '=', '+', '$', '.', '%', '!', '~', '*', '\'', '(',
      ')'].contains c ||
    (flowToo && [',', '[', ']'].contains c)

/-- How many bytes follow the first one of a character in UTF-8; `none` if no character starts
so. -/
def followers? (byte : Nat) : Option Nat :=
  if byte < 0x80 then some 0
  else if 0xC0 ≤ byte ∧ byte < 0xE0 then some 1
  else if 0xE0 ≤ byte ∧ byte < 0xF0 then some 2
  else if 0xF0 ≤ byte ∧ byte < 0xF8 then some 3
  else none

/-- Whether the escapes of a tag give the bytes of whole characters; `missing` counts the bytes that
a character still needs. -/
def areTagEscapes (missing : Nat) : List Char → Bool
  | '%' :: a :: b :: cs =>
    match Text.hexDigit? a, Text.hexDigit? b with
    | some a, some b =>
      let byte := 16 * a + b
      match missing with
      | 0 => (followers? byte).any fun n => areTagEscapes n cs
      | n + 1 => 0x80 ≤ byte && byte < 0xC0 && areTagEscapes n cs
    | _, _ => false
  | '%' :: _ => false
  | _ :: cs => missing == 0 && areTagEscapes 0 cs
  | [] => missing == 0

def tagChars? (flowToo : Bool) (cs : List Char) : Option (List Char × List Char) :=
  let chars := cs.takeWhile (isTagChar flowToo)
  if areTagEscapes 0 chars then some (chars, cs.dropWhile (isTagChar flowToo)) else none

/-- Reads a tag behind its exclamation mark: the handle that it refers to, empty if it stands for
itself. -/
def tag? (inFlow : Bool) (cs : List Char) : Option (List Char × List Char) := do
  let (handle, rest) ← show Option (List Char × List Char) from
    match cs with
    | '<' :: cs =>
      match tagChars? true cs with
      | some (_ :: _, '>' :: rest) => some ([], rest)
      | _ => none
    | cs =>
      let name := cs.takeWhile isNameChar
      match cs.dropWhile isNameChar with
      | '!' :: rest =>
        match tagChars? false rest with
        | some (_ :: _, rest) => some ('!' :: name ++ ['!'], rest)
        | _ => none
      | rest =>
        (tagChars? false rest).map fun (chars, rest) =>
          (if name.isEmpty && chars.isEmpty then [] else ['!'], rest)
  if endsWord rest || (inFlow && rest.head? = some ',') then some (handle, rest) else none

def versionNumber? (cs : List Char) : Option (Nat × List Char) :=
  let digits := cs.takeWhile Char.isDigit
  if 9 < digits.length then none
  else (Text.decimalValue? digits).map fun n => (n, cs.dropWhile Char.isDigit)

/-- Reads a directive behind its percent sign, up to the end of its line. -/
def directive? (cs : List Char) : Option (Token × List Char) := do
  let name := cs.takeWhile isNameChar
  let rest := cs.dropWhile isNameChar
  if name.isEmpty || !endsWord rest then none
  let rest := rest.dropWhile isGap
  let (token, rest) ← show Option (Token × List Char) from
    if name = "YAML".toList then do
      let (major, rest) ← versionNumber? rest
      let rest ← Text.afterPrefix? ['.'] rest
      let (minor, rest) ← versionNumber? rest
      some (.version major minor, rest)
    else if name = "TAG".toList then do
      let rest ← Text.afterPrefix? ['!'] rest
      let word := rest.takeWhile isNameChar
      let (handle, rest) ← show Option (List Char × List Char) from
        match rest.dropWhile isNameChar with
        | '!' :: rest => some ('!' :: word ++ ['!'], rest)
        | rest => if word.isEmpty then some (['!'], rest) else none
      if !rest.head?.any isGap then none
      match tagChars? true (rest.dropWhile isGap) with
      | some (_ :: _, rest) => if endsWord rest then some (.tagHandle handle, rest) else none
      | _ => none
    else none
  (restOfLine? rest).map fun rest => (token, rest)

/-- What may turn out to be a key: where it starts, how many tokens stand before it, and whether it
has to be one because nothing else may stand there. -/
structure PossibleKey where
  mark : Mark
  tokensBefore : Nat
  isRequired : Bool
  deriving DecidableEq, Repr, Inhabited

/-- The state of the scanner. `tokens` has the latest first. `indents` are the columns of the
collections that are open by indentation, and `keys` what may become a key on each flow level, both
innermost first; there is one level more than flow collections are open. -/
structure Scanner where
  rest : List Char
  mark : Mark := {}
  tokens : List Token := []
  indents : List Nat := []
  keys : List (Option PossibleKey) := [none]
  keyAllowed : Bool := true
  deriving Inhabited

namespace Scanner

def inFlow (s : Scanner) : Bool :=
  1 < s.keys.length

/-- Goes on behind what has been read; `rest` is a rest of the text that is left. -/
def moveTo (s : Scanner) (rest : List Char) : Scanner :=
  { s with
    rest
    mark := s.mark.passAll (s.rest.take (s.rest.length - rest.length)) }

def push (s : Scanner) (t : Token) : Scanner :=
  { s with tokens := t :: s.tokens }

def insertAt (s : Scanner) (n : Nat) (t : Token) : Scanner :=
  let later := s.tokens.length - n
  { s with tokens := s.tokens.take later ++ t :: s.tokens.drop later }

/-- The column to which the innermost collection is indented. -/
def indent? (s : Scanner) : Option Nat :=
  s.indents.head?

/-- Whether something at a column lies inside the innermost collection. -/
def isDeeper (s : Scanner) (column : Nat) : Bool :=
  s.indent?.all (· < column)

/-- Closes the collections that are indented further than a column. -/
def unindent (column : Option Nat) (s : Scanner) : Scanner :=
  if s.inFlow then s
  else
    let closed := s.indents.takeWhile fun n => column.all (· < n)
    { s with
      indents := s.indents.drop closed.length
      tokens := List.replicate closed.length .blockEnd ++ s.tokens }

/-- Gives up the possible key of the present level; a required one must not be given up. -/
def dropKey? (s : Scanner) : Option Scanner :=
  match s.keys with
  | some key :: keys => if key.isRequired then none else some { s with keys := none :: keys }
  | _ => some s

/-- Notes that a key may start here. -/
def noteKey? (s : Scanner) : Option Scanner :=
  if !s.keyAllowed then some s
  else do
    let s ← s.dropKey?
    let key : PossibleKey :=
      { mark := s.mark
        tokensBefore := s.tokens.length
        isRequired := !s.inFlow && s.indent? = some s.mark.column }
    some { s with keys := some key :: s.keys.drop 1 }

/-- Gives up the possible keys that ended too long ago: on another line, or many characters back. -/
def dropStaleKeys? (s : Scanner) : Option Scanner := do
  let keys ← s.keys.mapM fun key =>
    match key with
    | none => some none
    | some key =>
      if key.mark.line < s.mark.line || key.mark.index + 1024 < s.mark.index then
        if key.isRequired then none else some none
      else some (some key)
  some { s with keys }

/-- What is left behind a byte order mark that stands at the start of a line. -/
def behindMark (s : Scanner) : List Char :=
  match s.rest with
  | '\ufeff' :: cs => if s.mark.column = 0 then cs else s.rest
  | cs => cs

/-- Passes over blanks, comments and empty lines, and a byte order mark at the start of each. Behind
a line break a key may start, except in flow collections. -/
def skipBlanks (s : Scanner) : Scanner :=
  let isSkipped (c : Char) : Bool := c == ' ' || (c == '\t' && (s.inFlow || !s.keyAllowed))
  let rest := s.behindMark.dropWhile isSkipped
  let rest := if rest.head? = some '#' then rest.dropWhile fun c => !isBreak c else rest
  match rest with
  | [] => s.moveTo []
  | c :: cs =>
    if isBreak c then
      if cs.length < s.rest.length then
        skipBlanks { s.moveTo cs with keyAllowed := s.keyAllowed || !s.inFlow }
      else s
    else s.moveTo rest
  termination_by s.rest.length

/-- Ends the line and everything open, in front of a mark between documents or the end of the
text. -/
def closeAll? (s : Scanner) : Option Scanner :=
  ((s.unindent none).dropKey?).map fun s => { s with keyAllowed := false }

/-- Opens a collection at the present column if it is indented further than the one around it. -/
def indentTo (s : Scanner) (column : Nat) (place : Nat) (t : Token) : Scanner :=
  if !s.inFlow && s.isDeeper column then
    { s.insertAt place t with indents := column :: s.indents }
  else s

def take (s : Scanner) (t : Token) : Scanner :=
  (s.push t).moveTo (s.rest.drop 1)

def openFlow? (s : Scanner) (t : Token) : Option Scanner :=
  s.noteKey?.map fun s => { s.take t with keys := none :: s.keys, keyAllowed := true }

def closeFlow? (s : Scanner) (t : Token) : Option Scanner :=
  s.dropKey?.map fun s =>
    { s.take t with keys := if s.inFlow then s.keys.drop 1 else s.keys, keyAllowed := false }

def takeEntry? (s : Scanner) : Option Scanner :=
  if !s.inFlow && !s.keyAllowed then none
  else
    ((s.indentTo s.mark.column s.tokens.length .blockSequence).dropKey?).map fun s =>
      { s.take .entry with keyAllowed := true }

def takeKey? (s : Scanner) : Option Scanner :=
  if !s.inFlow && !s.keyAllowed then none
  else
    ((s.indentTo s.mark.column s.tokens.length .blockMapping).dropKey?).map fun s =>
      { s.take .key with keyAllowed := !s.inFlow }

/-- Takes the indicator of a value. What may be a key becomes one. -/
def takeValue? (s : Scanner) : Option Scanner :=
  match s.keys with
  | some key :: keys =>
    let s := s.insertAt key.tokensBefore .key
    let s := s.indentTo key.mark.column key.tokensBefore .blockMapping
    some { s.take .value with keys := none :: keys, keyAllowed := false }
  | _ =>
    if !s.inFlow && !s.keyAllowed then none
    else
      let s := s.indentTo s.mark.column s.tokens.length .blockMapping
      some { s.take .value with keyAllowed := !s.inFlow }

/-- Takes a token that may be a key, or the first part of one. -/
def takeNode? (s : Scanner) (read : Option (Token × List Char)) : Option Scanner := do
  let s ← s.noteKey?
  let (t, rest) ← read
  some { (s.push t).moveTo rest with keyAllowed := false }

/-- Takes a plain scalar. Behind a line break another key may start. -/
def takePlain? (s : Scanner) : Option Scanner := do
  let s ← s.noteKey?
  let indent := match s.indent? with
    | none => 0
    | some n => n + 1
  let p ← plain? s.inFlow indent s.mark.column s.rest
  some { (s.push (.scalar p.text true)).moveTo p.rest with keyAllowed := p.brokenOff }

def takeBlock? (s : Scanner) (literal : Bool) : Option Scanner := do
  let s ← s.dropKey?
  let (text, rest) ← block? literal s.indent? (s.rest.drop 1)
  some { (s.push (.scalar text false)).moveTo rest with keyAllowed := true }

/-- The characters that no plain scalar starts with, unless it says otherwise below. -/
def indicators : List Char :=
  ['-', '?', ':', ',', '[', ']', '{', '}', '#', '&', '*', '!', '|', '>', '\'', '"', '%', '@',
    '\x60']

def startsPlain (inFlow : Bool) (c : Char) (cs : List Char) : Bool :=
  (!isSeparator c && !indicators.contains c) ||
    (c == '-' && !cs.head?.any isGap) ||
    (!inFlow && (c == '?' || c == ':') && !endsWord cs)

def takeToken? (s : Scanner) (c : Char) (cs : List Char) : Option Scanner :=
  let atLineStart := s.mark.column == 0
  let inFlow := s.inFlow
  if atLineStart && c == '%' then do
    let s ← s.closeAll?
    let (t, rest) ← directive? cs
    some ((s.push t).moveTo rest)
  else if atLineStart && isDocumentMark (c :: cs) then
    s.closeAll?.map fun s =>
      (s.push (if c = '-' then .documentStart else .documentEnd)).moveTo (s.rest.drop 3)
  else if c = '[' then s.openFlow? .flowSequence
  else if c = '{' then s.openFlow? .flowMapping
  else if c = ']' then s.closeFlow? .flowSequenceEnd
  else if c = '}' then s.closeFlow? .flowMappingEnd
  else if c = ',' then s.dropKey?.map fun s => { s.take .comma with keyAllowed := true }
  else if c = '-' && endsWord cs then s.takeEntry?
  else if c = '?' && (inFlow || endsWord cs) then s.takeKey?
  else if c = ':' && (inFlow || endsWord cs) then s.takeValue?
  else if c = '*' then s.takeNode? ((anchorName? cs).map fun (name, rest) => (.alias name, rest))
  else if c = '&' then s.takeNode? ((anchorName? cs).map fun (name, rest) => (.anchor name, rest))
  else if c = '!' then s.takeNode? ((tag? inFlow cs).map fun (handle, rest) => (.tag handle, rest))
  else if c = '|' && !inFlow then s.takeBlock? true
  else if c = '>' && !inFlow then s.takeBlock? false
  else if c = '\'' || c = '"' then
    s.takeNode? <|
      (quoted? (c == '"') [] [] false (s.mark.column + 1) cs).map fun (text, rest) =>
        (.scalar text false, rest)
  else if startsPlain inFlow c cs then s.takePlain?
  else none

/-- Takes all tokens up to the end of the text. -/
def run? (s : Scanner) : Option Scanner :=
  let t := s.skipBlanks
  match t.dropStaleKeys? with
  | none => none
  | some t =>
    let t := t.unindent (some t.mark.column)
    match t.rest with
    | [] => t.closeAll?
    | c :: cs =>
      match t.takeToken? c cs with
      | none => none
      | some next => if next.rest.length < s.rest.length then run? next else none
  termination_by s.rest.length

end Scanner

def tokens? (text : List Char) : Option (List Token) :=
  if !text.all isAllowed then none
  else
    let start : Scanner := { rest := unifyBreaks text }
    start.run?.map fun s => s.tokens.reverse

end DiagnosticWatch.Yaml
