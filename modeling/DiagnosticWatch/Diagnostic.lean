import DiagnosticWatch.Path

/-!
# Diagnostics

A diagnostic is one message of the compiler about a place in a file. Tallies count diagnostics by
category, and a result is a list of them together with its tally, the scope it answers for and
whether the fast path served it.
-/

namespace DiagnosticWatch

inductive Category
  | error
  | warning
  | suggestion
  | message
  deriving DecidableEq, Repr, Inhabited

namespace Category

/-- The category with a given number. Numbers beyond the known ones count as errors. -/
def ofCode : Nat → Category
  | 0 => warning
  | 1 => error
  | 2 => suggestion
  | 3 => message
  | _ => error

def label : Category → String
  | error => "error"
  | warning => "warning"
  | suggestion => "suggestion"
  | message => "message"

/-- The category with a given label. An unknown label counts as an error. -/
def ofLabel (s : String) : Category :=
  if s = "warning" then warning
  else if s = "suggestion" then suggestion
  else if s = "message" then message
  else error

@[simp] theorem ofLabel_label (c : Category) : ofLabel c.label = c := by
  cases c <;> decide

end Category

/-- One message of the compiler. Line and column count from one. -/
structure Diagnostic where
  file : Path
  line : UInt32
  column : UInt32
  category : Category
  code : UInt32
  message : String
  start : Option UInt32 := none
  length : Option UInt32 := none
  deriving DecidableEq, Repr, Inhabited

namespace Diagnostic

def isError (d : Diagnostic) : Bool :=
  d.category == .error

/-- One line in the form in which compilers print diagnostics. -/
def render (d : Diagnostic) : String :=
  d.file.text ++ "(" ++ toString d.line.toNat ++ "," ++ toString d.column.toNat ++ "): " ++
    d.category.label ++ " TS" ++ toString d.code.toNat ++ ": " ++ d.message

end Diagnostic

/-- How many diagnostics there are of each category. -/
structure Tally where
  errors : Nat := 0
  warnings : Nat := 0
  suggestions : Nat := 0
  messages : Nat := 0
  deriving DecidableEq, Repr, Inhabited

namespace Tally

def add (t : Tally) : Category → Tally
  | .error => { t with errors := t.errors + 1 }
  | .warning => { t with warnings := t.warnings + 1 }
  | .suggestion => { t with suggestions := t.suggestions + 1 }
  | .message => { t with messages := t.messages + 1 }

def of (ds : List Diagnostic) : Tally :=
  ds.foldl (fun t d => t.add d.category) {}

/-- A tally counts the diagnostics of each category. -/
theorem of_eq_countP (ds : List Diagnostic) :
    of ds =
      { errors := ds.countP (·.category == .error)
        warnings := ds.countP (·.category == .warning)
        suggestions := ds.countP (·.category == .suggestion)
        messages := ds.countP (·.category == .message) } := by
  have from_tally (t : Tally) :
      ds.foldl (fun t d => t.add d.category) t =
        { errors := t.errors + ds.countP (·.category == .error)
          warnings := t.warnings + ds.countP (·.category == .warning)
          suggestions := t.suggestions + ds.countP (·.category == .suggestion)
          messages := t.messages + ds.countP (·.category == .message) } := by
    induction ds generalizing t with
    | nil => rfl
    | cons d ds ih =>
      rw [List.foldl_cons, ih]
      cases h : d.category <;> simp [add, h] <;> omega
  rw [of, from_tally]
  simp

end Tally

/-- Errors, warnings and suggestions in a scope. -/
structure Count where
  errors : Nat := 0
  warnings : Nat := 0
  suggestions : Nat := 0
  deriving DecidableEq, Repr, Inhabited

/-- The part of a tally that a count shows. -/
def Tally.count (t : Tally) : Count :=
  ⟨t.errors, t.warnings, t.suggestions⟩

/-- The answer to a query for diagnostics. `source` is `all`, a file or a package name, and
`timestamp` is in milliseconds since the epoch. -/
structure Result where
  timestamp : Nat
  totalErrors : Nat
  totalWarnings : Nat
  totalSuggestions : Nat
  totalMessages : Nat
  diagnostics : List Diagnostic
  source : String
  cacheHit : Bool
  deriving DecidableEq, Repr, Inhabited

namespace Result

def of (now : Nat) (source : String) (ds : List Diagnostic) (cacheHit : Bool) : Result :=
  let t := Tally.of ds
  { timestamp := now
    totalErrors := t.errors
    totalWarnings := t.warnings
    totalSuggestions := t.suggestions
    totalMessages := t.messages
    diagnostics := ds
    source
    cacheHit }

def empty (now : Nat) (source : String) : Result :=
  of now source [] false

def hasErrors (r : Result) : Bool :=
  0 < r.totalErrors

end Result

end DiagnosticWatch
