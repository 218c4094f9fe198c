import DiagnosticWatch.Json.Value

/-!
# What can be wrong with a JSON text

A problem is either one of the text (it is no JSON) or one of its content (it is not what was asked
for). Where it was noticed is a place in the text, shown as a line counted from one and a column
counted in bytes.
-/

namespace DiagnosticWatch.Json

/-- A kind of value that was found where another one was expected. -/
inductive Found
  | null
  | bool (b : Bool)
  | natural (n : Nat)
  | negative (n : Nat)
  | real (x : Float)
  | text (s : String)
  | sequence
  | map
  | unitVariant
  deriving Inhabited

namespace Found

/-- How an error message names the kind of value. -/
def describe : Found → String
  | null => "null"
  | bool b => "boolean `" ++ (if b then "true" else "false") ++ "`"
  | natural n => "integer `" ++ toString n ++ "`"
  | negative n => "integer `-" ++ toString n ++ "`"
  | real x => "floating point `" ++ renderReal x ++ "`"
  | text s => "string " ++ Text.Shown.quote s
  | sequence => "sequence"
  | map => "map"
  | unitVariant => "unit variant"

end Found

inductive Problem
  | endInValue
  | endInList
  | endInObject
  | endInString
  | expectedColon
  | expectedListCommaOrEnd
  | expectedObjectCommaOrEnd
  | expectedIdent
  | expectedValue
  | invalidEscape
  | invalidNumber
  | numberOutOfRange
  | controlCharacter
  | keyMustBeString
  | loneSurrogate
  | unfinishedSurrogate
  | trailingComma
  | trailingCharacters
  | recursionLimit
  | invalidType (found : Found) (expected : String)
  | invalidValue (found : Found) (expected : String)
  | invalidLength (length : Nat) (expected : String)
  | missingField (name : String)
  | duplicateField (name : String)
  | unknownVariant (name : String) (known : List String)
  | noVariant (name : String)
  deriving Inhabited

namespace Problem

private def quoted (name : String) : String :=
  "`" ++ name ++ "`"

/-- The names that were expected: two are joined by `or`, more are listed. -/
private def expectedNames : List String → String
  | [] => "there are no variants"
  | [a] => "expected " ++ quoted a
  | [a, b] => "expected " ++ quoted a ++ " or " ++ quoted b
  | names => "expected one of " ++ ", ".intercalate (names.map quoted)

def message : Problem → String
  | endInValue => "EOF while parsing a value"
  | endInList => "EOF while parsing a list"
  | endInObject => "EOF while parsing an object"
  | endInString => "EOF while parsing a string"
  | expectedColon => "expected `:`"
  | expectedListCommaOrEnd => "expected `,` or `]`"
  | expectedObjectCommaOrEnd => "expected `,` or `\x7d`"
  | expectedIdent => "expected ident"
  | expectedValue => "expected value"
  | invalidEscape => "invalid escape"
  | invalidNumber => "invalid number"
  | numberOutOfRange => "number out of range"
  | controlCharacter => "control character (\\u0000-\\u001F) found while parsing a string"
  | keyMustBeString => "key must be a string"
  | loneSurrogate => "lone leading surrogate in hex escape"
  | unfinishedSurrogate => "unexpected end of hex escape"
  | trailingComma => "trailing comma"
  | trailingCharacters => "trailing characters"
  | recursionLimit => "recursion limit exceeded"
  | invalidType found expected => "invalid type: " ++ found.describe ++ ", expected " ++ expected
  | invalidValue found expected => "invalid value: " ++ found.describe ++ ", expected " ++ expected
  | invalidLength n expected => "invalid length " ++ toString n ++ ", expected " ++ expected
  | missingField name => "missing field " ++ quoted name
  | duplicateField name => "duplicate field " ++ quoted name
  | unknownVariant name known =>
    "unknown variant " ++ quoted name ++ ", " ++ expectedNames known
  | noVariant name => "data did not match any variant of untagged enum " ++ name

end Problem

/-- A place in a text: some bytes into what is left of it. -/
structure Spot where
  rest : List Char
  bytes : Nat
  deriving Inhabited

/-- A failed reading. A problem of content gets its place from the value around it, after that value
has been closed as far as possible; `rest` is where reading stood. -/
structure Failure where
  problem : Problem
  spot : Option Spot
  rest : List Char
  deriving Inhabited

namespace Failure

/-- A problem at the place that has been reached. -/
def here (problem : Problem) (rest : List Char) : Failure :=
  ⟨problem, some ⟨rest, 0⟩, rest⟩

/-- A problem with the character that comes next. -/
def ahead (problem : Problem) (rest : List Char) : Failure :=
  ⟨problem, some ⟨rest, 1⟩, rest⟩

def unplaced (problem : Problem) (rest : List Char) : Failure :=
  ⟨problem, none, rest⟩

/-- The failure with a place, that of the reading point if there was none. -/
def placed (f : Failure) : Failure :=
  match f.spot with
  | some _ => f
  | none => { f with spot := some ⟨f.rest, 0⟩ }

end Failure

/-- Line and column of a place some bytes into a text; the end of the text is the last place. -/
def position (line column : Nat) : List Char → Nat → Nat × Nat
  | [], _ => (line, column)
  | c :: cs, bytes =>
    if bytes = 0 then (line, column)
    else if bytes < c.utf8Size then (line, column + bytes)
    else if c = '\n' then position (line + 1) 0 cs (bytes - 1)
    else position line (column + c.utf8Size) cs (bytes - c.utf8Size)

def byteLength (cs : List Char) : Nat :=
  cs.foldl (fun n c => n + c.utf8Size) 0

structure Rejection where
  problem : Problem
  place : Option (Nat × Nat)
  deriving Inhabited

/-- The rejection that a failure in a text amounts to. -/
def Failure.inText (f : Failure) (text : List Char) : Rejection :=
  { problem := f.problem
    place := f.spot.map fun spot =>
      position 1 0 text (byteLength text - byteLength spot.rest + spot.bytes) }

def Rejection.message (r : Rejection) : String :=
  match r.place with
  | none => r.problem.message
  | some (line, column) =>
    r.problem.message ++ " at line " ++ toString line ++ " column " ++ toString column

end DiagnosticWatch.Json
