import DiagnosticWatch.Compiler.Output
import DiagnosticWatch.Phase

/-!
# Compiler sessions

A session watches one project and reports events: diagnostics and phases in the order in which the
compiler printed them, and last that it exited. It also counts the files of the latest complete pass
that listed any.
-/

namespace DiagnosticWatch

/-- What a session reports. Nothing comes from a session that has exited. -/
inductive SessionEvent
  | diagnostic (project : String) (d : Diagnostic)
  | phase (project : String) (message : String)
  | exited (project : String)
  deriving DecidableEq, Repr, Inhabited

namespace SessionEvent

def project : SessionEvent → String
  | diagnostic id _ => id
  | phase id _ => id
  | exited id => id

end SessionEvent

/-- A session in the middle of the output. `listed` counts files since the pass started, `watched`
is the count that the session shows. -/
structure SessionReader where
  project : String
  reader : Compiler.Reader
  listed : Nat := 0
  watched : Nat := 0
  deriving DecidableEq, Repr, Inhabited

namespace SessionReader

def ofProject (p : Project) : SessionReader :=
  { project := p.id, reader := .ofProject p }

/-- Takes one piece of output: the event it causes, if any, and the counts after it. -/
def take (s : SessionReader) : Compiler.Output → List SessionEvent × SessionReader
  | .diagnostic d => ([.diagnostic s.project d], s)
  | .phase message =>
    let s := match PhaseSignal.classify message with
      | .passStarted => { s with listed := 0 }
      | .passCompleted => if 0 < s.listed then { s with watched := s.listed } else s
      | .other => s
    ([.phase s.project message], s)
  | .listed _ => ([], { s with listed := s.listed + 1 })

/-- Takes pieces of output in order. -/
def takeAll (s : SessionReader) : List Compiler.Output → List SessionEvent × SessionReader
  | [] => ([], s)
  | o :: os =>
    let (events, s) := s.take o
    let (more, s) := s.takeAll os
    (events ++ more, s)

def line (s : SessionReader) (l : String) : List SessionEvent × SessionReader :=
  let (outputs, reader) := s.reader.feed l
  { s with reader }.takeAll outputs

/-- Reads lines up to the end of the output: all events, and the session after them. -/
def run (s : SessionReader) : List String → List SessionEvent × SessionReader
  | [] =>
    let (output, reader) := s.reader.finish
    let (events, s) := { s with reader }.takeAll output.toList
    (events ++ [.exited s.project], s)
  | l :: ls =>
    let (events, s) := s.line l
    let (more, s) := s.run ls
    (events ++ more, s)

end SessionReader

/-- Cuts bytes after each line feed; the last piece may lack it and is not empty. -/
def byteLines : List UInt8 → List (List UInt8)
  | [] => []
  | b :: bs =>
    if b = 10 then [] :: byteLines bs
    else match byteLines bs with
      | [] => [[b]]
      | l :: ls => (b :: l) :: ls

/-- A line as text, without the carriage return at its end. -/
def lineText? (bytes : List UInt8) : Option String :=
  let bytes := if bytes.getLast? = some 13 then bytes.dropLast else bytes
  String.fromUTF8? (ByteArray.mk bytes.toArray)

/-- The lines up to the first one that is no UTF-8 text. -/
def textLines (bytes : ByteArray) : List String :=
  ((byteLines bytes.toList).map lineText?).takeWhile Option.isSome |>.filterMap id

end DiagnosticWatch
