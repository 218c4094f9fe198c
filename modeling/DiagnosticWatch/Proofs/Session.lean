import DiagnosticWatch.Proofs.Compiler.Blocks
import DiagnosticWatch.Proofs.Run
import DiagnosticWatch.Session

/-!
# The events of a session

A session reports what the reader of its output puts out, in order, except for listed files. At the
line of a phase nothing is held back: every diagnostic that is headed before it has been reported
before it.
-/

namespace DiagnosticWatch.SessionReader

open Compiler

/-- The events that a piece of output causes. -/
def reported (project : String) : Output → List SessionEvent
  | .diagnostic d => [.diagnostic project d]
  | .phase message => [.phase project message]
  | .listed _ => []

def events (s : SessionReader) (lines : List String) : List SessionEvent :=
  (runAll line lines s).1.flatten

variable {s : SessionReader}

theorem take_eq (s : SessionReader) (o : Output) :
    (s.take o).1 = reported s.project o ∧ (s.take o).2.project = s.project ∧
      (s.take o).2.reader = s.reader := by
  cases o with
  | diagnostic | listed => exact ⟨rfl, rfl, rfl⟩
  | phase message =>
      simp only [take]
      cases PhaseSignal.classify message with
      | passStarted | other => exact ⟨rfl, rfl, rfl⟩
      | passCompleted =>
          refine ⟨?_, ?_, ?_⟩
          · simp only
            split <;> rfl
          · simp only
            split <;> rfl
          · simp only
            split <;> rfl

theorem takeAll_eq (s : SessionReader) (os : List Output) :
    (s.takeAll os).1 = os.flatMap (reported s.project) ∧ (s.takeAll os).2.project = s.project ∧
      (s.takeAll os).2.reader = s.reader := by
  induction os generalizing s with
  | nil => exact ⟨rfl, rfl, rfl⟩
  | cons o os ih =>
      obtain ⟨events, project, reader⟩ := take_eq s o
      obtain ⟨events', project', reader'⟩ := ih (s.take o).2
      simp only [takeAll, List.flatMap_cons]
      exact ⟨by rw [events, events', project], project'.trans project, reader'.trans reader⟩

/-- One line: the reader goes on, and what it puts out is reported. -/
theorem line_eq (s : SessionReader) (l : String) :
    (s.line l).1 = (s.reader.feed l).1.flatMap (reported s.project) ∧
      (s.line l).2.project = s.project ∧ (s.line l).2.reader = (s.reader.feed l).2 :=
  takeAll_eq { s with reader := (s.reader.feed l).2 } (s.reader.feed l).1

/-- Up to a phase, everything is reported that the lines before it put out. -/
theorem events_concat_phase {last message : String} (h : Line.said last = .phase message)
    (s : SessionReader) (lines : List String) :
    s.events (lines ++ [last]) =
      (s.reader.outputs lines).flatMap (reported s.project) ++ [.phase s.project message] := by
  induction lines generalizing s with
  | nil =>
      obtain ⟨events, -, -⟩ := line_eq s last
      simp only [SessionReader.events, List.nil_append, runAll_cons, runAll_nil,
        List.flatten_cons, List.flatten_nil, List.append_nil]
      rw [events, Reader.feed_of_phase h, List.flatMap_append]
      rfl
  | cons l lines ih =>
      obtain ⟨events, project, reader⟩ := line_eq s l
      have rest := ih (s.line l).2
      rw [project, reader] at rest
      rw [Reader.outputs, List.flatMap_append, List.append_assoc, ← rest, ← events]
      rfl

end DiagnosticWatch.SessionReader
