import DiagnosticWatch.Decimal.Shortest
import DiagnosticWatch.Text.Quoted

/-!
# JSON values

The values that are written as JSON and the two layouts they are written in: on one line without
blanks, and indented by two spaces with one member per line. Members keep the order they are given
in.
-/

namespace DiagnosticWatch.Json

/-- A JSON value. Numbers are kept apart by the way they are written: without sign, with a minus
sign in front of a natural number, or with fraction or exponent. -/
inductive Value
  | null
  | bool (b : Bool)
  | natural (n : Nat)
  | negative (n : Nat)
  | real (x : Float)
  | text (s : String)
  | array (items : List Value)
  | object (members : List (String × Value))
  deriving Inhabited

/-- Numbers with a fraction are positional from five places behind the point up to sixteen before
it. -/
def realLayout : Decimal.Layout := ⟨-5, 15⟩

/-- A number with a fraction; what is not finite has no JSON form and is written as `null`. -/
def renderReal (x : Float) : String :=
  if x.isNaN || x.isInf then "null"
  else if x < 0 || (x == 0 && 1 / x < 0) then "-" ++ realLayout.render (-x)
  else realLayout.render x

namespace Value

/-- The text of a value that is neither an array nor an object. -/
def scalar : Value → List Char
  | null => "null".toList
  | bool b => (if b then "true" else "false").toList
  | natural n => (toString n).toList
  | negative n => ("-" ++ toString n).toList
  | real x => (renderReal x).toList
  | text s => Text.Interchange.quote s
  | array _ => []
  | object _ => []

mutual

def compact : Value → List Char
  | array items => '[' :: compactItems items ++ [']']
  | object members => '{' :: compactMembers members ++ ['}']
  | v => v.scalar

def compactItems : List Value → List Char
  | [] => []
  | [v] => v.compact
  | v :: vs => v.compact ++ ',' :: compactItems vs

def compactMembers : List (String × Value) → List Char
  | [] => []
  | [(name, v)] => Text.Interchange.quote name ++ ':' :: v.compact
  | (name, v) :: ms => Text.Interchange.quote name ++ ':' :: v.compact ++ ',' :: compactMembers ms

end

/-- A new line with the blanks of a nesting depth. -/
private def newLine (depth : Nat) : List Char :=
  '\n' :: List.replicate (2 * depth) ' '

mutual

/-- The value over several lines; `depth` is the nesting depth of the line it starts on. -/
def indented (depth : Nat) : Value → List Char
  | array [] => ['[', ']']
  | array items => '[' :: indentedItems depth items ++ newLine depth ++ [']']
  | object [] => ['{', '}']
  | object members => '{' :: indentedMembers depth members ++ newLine depth ++ ['}']
  | v => v.scalar

def indentedItems (depth : Nat) : List Value → List Char
  | [] => []
  | [v] => newLine (depth + 1) ++ v.indented (depth + 1)
  | v :: vs => newLine (depth + 1) ++ v.indented (depth + 1) ++ ',' :: indentedItems depth vs

def indentedMembers (depth : Nat) : List (String × Value) → List Char
  | [] => []
  | [(name, v)] =>
    newLine (depth + 1) ++ Text.Interchange.quote name ++ ':' :: ' ' :: v.indented (depth + 1)
  | (name, v) :: ms =>
    newLine (depth + 1) ++ Text.Interchange.quote name ++ ':' :: ' ' :: v.indented (depth + 1) ++
      ',' :: indentedMembers depth ms

end

def render (v : Value) : String :=
  String.ofList v.compact

def renderPretty (v : Value) : String :=
  String.ofList (v.indented 0)

def ofOption (f : α → Value) : Option α → Value
  | none => null
  | some a => f a

end Value

end DiagnosticWatch.Json
