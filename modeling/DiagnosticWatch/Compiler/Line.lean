import DiagnosticWatch.Diagnostic
import DiagnosticWatch.Text.Blank
import DiagnosticWatch.Text.Digit
import DiagnosticWatch.Text.Search

/-!
# Lines of compiler output

A line without the blanks at its end is one of four things, or noise:

* `src/a.ts(3,7): error TS2322: text` heads a diagnostic at a place in a file;
* `error TS6053: text` heads a diagnostic on the configuration as a whole;
* `12:00:01 AM - text` announces a phase;
* an absolute path lists a file that the compiler watches.

Digits may be of any script. A number that cannot be read, or that exceeds 32 bits, counts as one in
a place and as zero in a code.
-/

namespace DiagnosticWatch.Compiler

inductive Line
  | located (file : String) (line column : UInt32) (category : Category) (code : UInt32)
      (message : String)
  | global (category : Category) (code : UInt32) (message : String)
  | phase (message : String)
  | listed (path : String)
  | noise
  deriving DecidableEq, Repr, Inhabited

namespace Line

/-- The digits at the front of a text, one at least, and the rest. -/
def digits? (cs : List Char) : Option (List Char × List Char) :=
  let ds := cs.takeWhile Text.isDecimalDigit
  if ds.isEmpty then none else some (ds, cs.dropWhile Text.isDecimalDigit)

/-- A number of 32 bits, or the given one in its place. -/
def word32 (ds : List Char) (otherwise : UInt32) : UInt32 :=
  match Text.boundedDecimal? (UInt32.size - 1) ds with
  | some n => UInt32.ofNat n
  | none => otherwise

/-- The categories by the label that a line shows. -/
def labels : List (String × Category) :=
  [("error", .error), ("warning", .warning), ("suggestion", .suggestion), ("message", .message)]

/-- The category whose label the text begins with, and the rest. -/
def category? (cs : List Char) : Option (Category × List Char) :=
  labels.findSome? fun (label, category) =>
    (Text.afterPrefix? label.toList cs).map fun rest => (category, rest)

/-- Category, code and message: `error TS2322: text`, up to the end of the line. -/
def tag? (cs : List Char) : Option (Category × List Char × List Char) := do
  let (category, cs) ← category? cs
  let cs ← Text.afterPrefix? " TS".toList cs
  let (code, cs) ← digits? cs
  let message ← Text.afterPrefix? ": ".toList cs
  if message.contains '\n' then none else some (category, code, message)

/-- Line and column: `(3,7): `, and the rest. -/
def position? (cs : List Char) : Option (List Char × List Char × List Char) := do
  let cs ← Text.afterPrefix? "(".toList cs
  let (line, cs) ← digits? cs
  let cs ← Text.afterPrefix? ",".toList cs
  let (column, cs) ← digits? cs
  let cs ← Text.afterPrefix? "): ".toList cs
  some (line, column, cs)

/-- What follows the file name of a located header. -/
def tail? (cs : List Char) : Option (UInt32 × UInt32 × Category × UInt32 × String) := do
  let (line, column, cs) ← position? cs
  let (category, code, message) ← tag? cs
  some (word32 line 1, word32 column 1, category, word32 code 0, String.ofList message)

/-- Finds the shortest file name that a place and a tag follow. A name has one character at least
and no line break. -/
def located? (name : List Char) : List Char → Option Line
  | [] => none
  | c :: cs =>
    if c = '\n' then none
    else match tail? cs with
      | some (line, column, category, code, message) =>
        some (.located (String.ofList (c :: name).reverse) line column category code message)
      | none => located? (c :: name) cs

def global? (cs : List Char) : Option Line :=
  (tag? cs).map fun (category, code, message) =>
    .global category (word32 code 0) (String.ofList message)

/-- One character of a set at the front, and the rest. -/
private def one? (p : Char → Bool) : List Char → Option (List Char)
  | [] => none
  | c :: cs => if p c then some cs else none

/-- The rest behind one character that may be there. -/
private def skipOne (p : Char → Bool) (cs : List Char) : List Char :=
  (one? p cs).getD cs

private def twoDigits? (cs : List Char) : Option (List Char) :=
  (one? Text.isDecimalDigit cs).bind (one? Text.isDecimalDigit)

/-- The rest behind `AM` or `PM`, with one blank in front of it at most; the text itself if neither
is there. -/
private def skipHalfDay (cs : List Char) : List Char :=
  let mark := one? (['A', 'a', 'P', 'p'].contains ·) (skipOne Text.isBlank cs)
  (mark.bind (one? (['M', 'm'].contains ·))).getD cs

private def blanks? (cs : List Char) : Option (List Char) :=
  (one? Text.isBlank cs).map (·.dropWhile Text.isBlank)

/-- The rest behind a time of day, in brackets or not. -/
def timeOfDay? (cs : List Char) : Option (List Char) := do
  let (hour, cs) ← digits? (skipOne (· == '[') cs)
  if 2 < hour.length then none
  let cs ← one? (· == ':') cs
  let cs ← twoDigits? cs
  let cs ← one? (· == ':') cs
  let cs ← twoDigits? cs
  some (skipOne (· == ']') (skipHalfDay cs))

/-- A phase message behind a time of day and a dash. -/
def phase? (cs : List Char) : Option Line := do
  let cs ← timeOfDay? cs
  let cs ← blanks? cs
  let cs ← one? (· == '-') cs
  let message ← blanks? cs
  if message.isEmpty || message.contains '\n' then none
  else some (.phase (String.ofList (Text.trim message)))

def listed? (cs : List Char) : Option Line :=
  if cs.head? = some '/' then some (.listed (String.ofList cs)) else none

def classify (cs : List Char) : Line :=
  (((located? [] cs).or (global? cs)).or ((phase? cs).or (listed? cs))).getD .noise

/-- Whether a line without blanks at its end goes on with the message of the line before it. -/
def isContinuation (cs : List Char) : Bool :=
  match cs with
  | [] => false
  | c :: _ => Text.isBlank c

/-- A time of day begins with a bracket or a digit. -/
theorem front_of_timeOfDay? {cs rest : List Char} (h : timeOfDay? cs = some rest) :
    ∃ c cs', cs = c :: cs' ∧ Text.isBlank c = false := by
  obtain ⟨hour, hhour, -⟩ := Option.bind_eq_some_iff.1 h
  cases cs with
  | nil => cases hhour
  | cons c cs =>
    refine ⟨c, cs, rfl, ?_⟩
    cases bracket : c == '[' with
    | true => rw [eq_of_beq bracket]; decide
    | false =>
      have digits : digits? (c :: cs) = some hour := by
        simpa [skipOne, one?, bracket] using hhour
      cases digit : Text.isDecimalDigit c with
      | true => exact Text.not_blank_of_digit digit
      | false => simp [digits?, digit] at digits

end Line

end DiagnosticWatch.Compiler
