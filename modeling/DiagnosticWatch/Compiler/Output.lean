import DiagnosticWatch.Compiler.Line
import DiagnosticWatch.Workspace.Basic

/-!
# Compiler output

The output of a compiler is read line by line. A diagnostic is held back until a line comes that
does not continue its message, so that one line can complete a diagnostic and say something of its
own.
-/

namespace DiagnosticWatch.Compiler

inductive Output
  | diagnostic (d : Diagnostic)
  | phase (message : String)
  | listed (path : Path)
  deriving DecidableEq, Repr, Inhabited

/-- A reader of output for one project, with the diagnostic whose message may still go on. -/
structure Reader where
  root : Path
  configPath : Path
  pending : Option Diagnostic := none
  deriving DecidableEq, Repr, Inhabited

namespace Reader

def ofProject (p : Project) : Reader :=
  { root := p.root, configPath := p.configPath }

/-- The diagnostic that is held back, as output. -/
def flushed (r : Reader) : List Output :=
  r.pending.toList.map .diagnostic

def headed? (r : Reader) : Line → Option Diagnostic
  | .located file line column category code message =>
    some { file := Path.normalize ⟨file⟩ r.root, line, column, category, code, message }
  | .global category code message =>
    some { file := r.configPath, line := 1, column := 1, category, code, message }
  | _ => none

/-- What a line puts out by itself. -/
def immediate : Line → List Output
  | .phase message => [.phase message]
  | .listed path => [.listed ⟨path⟩]
  | _ => []

def feed (r : Reader) (line : String) : List Output × Reader :=
  let cs := Text.trimEnd line.toList
  match r.pending with
  | some d =>
    if Line.isContinuation cs then
      ([], { r with pending := some { d with
        message := d.message ++ "\n" ++ String.ofList (Text.trim cs) } })
    else
      let l := Line.classify cs
      (.diagnostic d :: immediate l, { r with pending := r.headed? l })
  | none =>
    let l := Line.classify cs
    (immediate l, { r with pending := r.headed? l })

/-- Ends the output: the diagnostic that is held back, if any. -/
def finish (r : Reader) : Option Output × Reader :=
  (r.pending.map .diagnostic, { r with pending := none })

/-- All that some lines put out, with what is held back at their end. -/
def outputs (r : Reader) : List String → List Output
  | [] => r.flushed
  | line :: lines => (r.feed line).1 ++ (r.feed line).2.outputs lines

end Reader

end DiagnosticWatch.Compiler
