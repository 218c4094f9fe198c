import DiagnosticWatch.Proofs.Compiler.Paragraphs
import DiagnosticWatch.Proofs.Session
import Mathlib.Data.List.DropRight

/-!
# What a session sends, and the count that it shows

A session sends what its reader puts out, except for listed files. When the output ends it sends the
diagnostic that is still held back, and then, once and last, that it exited.

The count that it shows is stated here without its state, from the output that it has taken so far:
it is the number of files listed up to the end of the latest pass that listed any. A pass that ends
with nothing listed does not count, and what is listed after the end of a pass adds to it only at
the end of the next.
-/

namespace DiagnosticWatch

namespace Compiler.Output

def startsPass : Output → Bool
  | .phase message => PhaseSignal.classify message = .passStarted
  | _ => false

def completesPass : Output → Bool
  | .phase message => PhaseSignal.classify message = .passCompleted
  | _ => false

def isListed : Output → Bool
  | .listed _ => true
  | _ => false

/-- The number of files listed since the latest start of a pass, or since the beginning if none
started. -/
def listedSince (os : List Output) : Nat :=
  (os.rtakeWhile fun o => !o.startsPass).countP isListed

/-- Directly behind some pieces of the output, a pass is announced to be complete. -/
def CompletesBehind (os before : List Output) : Prop :=
  ∃ o, completesPass o = true ∧ before ++ [o] <+: os

/-- The number of files of the latest complete pass that listed any, and zero if there was none. -/
def Shows (os : List Output) (n : Nat) : Prop :=
  (∃ before, CompletesBehind os before ∧ 0 < n ∧ listedSince before = n ∧
      ∀ later, CompletesBehind os later → before.length < later.length → listedSince later = 0) ∨
    (n = 0 ∧ ∀ before, CompletesBehind os before → listedSince before = 0)

variable {os before : List Output} {o : Output} {m n : Nat}

theorem listedSince_of_startsPass (h : startsPass o = true) (os : List Output) :
    listedSince (os ++ [o]) = 0 := by
  have stop : ¬(fun o => !startsPass o) o = true := by simp [h]
  rw [listedSince, List.rtakeWhile_concat_neg _ os o stop]
  rfl

theorem listedSince_of_not_startsPass (h : startsPass o = false) (os : List Output) :
    listedSince (os ++ [o]) = listedSince os + if o.isListed then 1 else 0 := by
  have go : (fun o => !startsPass o) o = true := by simp [h]
  rw [listedSince, List.rtakeWhile_concat_pos _ os o go, List.countP_append, List.countP_singleton]
  rfl

/-- What neither starts a pass nor lists a file does not count. -/
theorem listedSince_of_quiet (starts : startsPass o = false) (listed : isListed o = false)
    (os : List Output) : listedSince (os ++ [o]) = listedSince os := by
  rw [listedSince_of_not_startsPass starts, listed]
  rfl

theorem completesBehind_concat :
    CompletesBehind (os ++ [o]) before ↔
      (before = os ∧ completesPass o = true) ∨ CompletesBehind os before := by
  constructor
  · rintro ⟨o', complete, front⟩
    rcases List.prefix_concat_iff.1 front with same | front
    · obtain ⟨rfl, last⟩ := List.append_inj' same rfl
      obtain rfl : o' = o := List.singleton_inj.1 last
      exact .inl ⟨rfl, complete⟩
    · exact .inr ⟨o', complete, front⟩
  · rintro (⟨rfl, complete⟩ | ⟨o', complete, front⟩)
    · exact ⟨o, complete, List.prefix_rfl⟩
    · exact ⟨o', complete, front.trans (List.prefix_append os [o])⟩

theorem CompletesBehind.length_lt (h : CompletesBehind os before) : before.length < os.length := by
  obtain ⟨o, -, front⟩ := h
  have le := front.length_le
  rw [List.length_append, List.length_singleton] at le
  exact le

theorem shows_nil : Shows [] 0 :=
  .inr ⟨rfl, fun _ behind => absurd behind.length_lt (Nat.not_lt_zero _)⟩

/-- The end of a pass that listed files. -/
theorem shows_concat_completed (complete : completesPass o = true) (some : 0 < listedSince os) :
    Shows (os ++ [o]) (listedSince os) := by
  refine .inl ⟨os, completesBehind_concat.2 (.inl ⟨rfl, complete⟩), some, rfl, ?_⟩
  intro later behind longer
  have bound := behind.length_lt
  rw [List.length_append, List.length_singleton] at bound
  omega

/-- Any other piece of output: a pass that listed nothing may be complete with it. -/
theorem Shows.concat (none : completesPass o = true → listedSince os = 0) (h : Shows os n) :
    Shows (os ++ [o]) n := by
  rcases h with ⟨before, behind, positive, count, latest⟩ | ⟨zero, empty⟩
  · refine .inl ⟨before, completesBehind_concat.2 (.inr behind), positive, count, ?_⟩
    intro later hlater longer
    rcases completesBehind_concat.1 hlater with ⟨rfl, complete⟩ | hlater
    · exact none complete
    · exact latest later hlater longer
  · refine .inr ⟨zero, ?_⟩
    intro before behind
    rcases completesBehind_concat.1 behind with ⟨rfl, complete⟩ | behind
    · exact none complete
    · exact empty before behind

theorem Shows.concat_of_ongoing (ongoing : completesPass o = false) (h : Shows os n) :
    Shows (os ++ [o]) n := by
  apply h.concat
  intro complete
  exact absurd (ongoing.symm.trans complete) Bool.false_ne_true

/-- An output shows one count only. -/
theorem Shows.unique (hm : Shows os m) (hn : Shows os n) : m = n := by
  rcases hm with ⟨before, behind, positive, count, latest⟩ | ⟨zero, empty⟩
  · rcases hn with ⟨before', behind', positive', count', latest'⟩ | ⟨-, empty'⟩
    · rcases Nat.lt_trichotomy before.length before'.length with shorter | same | longer
      · have none := latest before' behind' shorter
        omega
      · obtain ⟨o, -, front⟩ := behind
        obtain ⟨o', -, front'⟩ := behind'
        have equal : before = before' :=
          (List.prefix_of_prefix_length_le ((List.prefix_append _ _).trans front)
            ((List.prefix_append _ _).trans front') same.le).eq_of_length same
        rw [← count, ← count', equal]
      · have none := latest' before behind longer
        omega
    · have none := empty' before behind
      omega
  · rcases hn with ⟨before', behind', positive', count', -⟩ | ⟨zero', -⟩
    · have none := empty before' behind'
      omega
    · exact zero.trans zero'.symm

end Compiler.Output

namespace SessionReader

open Compiler Compiler.Output

/-- A session has counted right what it has taken. -/
structure Counts (os : List Output) (s : SessionReader) : Prop where
  listed : s.listed = listedSince os
  watched : Shows os s.watched

/-- What a session has taken, and what it is, at the moments of its run: in front of the first line,
between the pieces of output of a line, and while the output ends. -/
inductive Reaches : SessionReader → List String → List Output → SessionReader → Prop
  | start (s : SessionReader) (lines : List String) : Reaches s lines [] s
  | within {s : SessionReader} {l : String} {lines : List String} {before behind : List Output} :
      (s.reader.feed l).1 = before ++ behind →
        Reaches s (l :: lines) before
          ({ s with reader := (s.reader.feed l).2 }.takeAll before).2
  | line {s t : SessionReader} {l : String} {lines : List String} {seen : List Output} :
      Reaches (s.line l).2 lines seen t → Reaches s (l :: lines) ((s.reader.feed l).1 ++ seen) t
  | finish {s : SessionReader} {before behind : List Output} :
      s.reader.finish.1.toList = before ++ behind →
        Reaches s [] before ({ s with reader := s.reader.finish.2 }.takeAll before).2

variable {s t : SessionReader} {os seen : List Output} {lines : List String}

theorem toList_finish (r : Reader) : r.finish.1.toList = r.flushed := by
  cases h : r.pending with
  | none => simp [Reader.finish, Reader.flushed, h]
  | some d => simp [Reader.finish, Reader.flushed, h]

/-- At every moment a front part of the whole output has been taken. -/
theorem Reaches.prefix (run : Reaches s lines seen t) : seen <+: s.reader.outputs lines := by
  induction run with
  | start => exact List.nil_prefix
  | within split =>
      rw [Reader.outputs, split, List.append_assoc]
      exact List.prefix_append _ _
  | @line s t l lines seen run ih =>
      rw [(line_eq s l).2.2] at ih
      exact (List.prefix_append_right_inj _).2 ih
  | finish split =>
      rw [Reader.outputs, ← toList_finish, split]
      exact List.prefix_append _ _

/-- There is a moment at which just this front part has been taken. -/
theorem exists_reaches (s : SessionReader) (h : seen <+: s.reader.outputs lines) :
    ∃ t, Reaches s lines seen t := by
  obtain ⟨behind, whole⟩ := h
  induction lines generalizing s seen with
  | nil =>
      rw [Reader.outputs, ← toList_finish] at whole
      exact ⟨_, .finish whole.symm⟩
  | cons l lines ih =>
      rw [Reader.outputs] at whole
      rcases List.append_eq_append_iff.1 whole with ⟨more, split, -⟩ | ⟨more, rfl, rest⟩
      · exact ⟨_, .within split⟩
      · rw [← (line_eq s l).2.2] at rest
        obtain ⟨t, run⟩ := ih (s.line l).2 rest.symm
        exact ⟨t, .line run⟩

/-- At the end of the run, everything has been taken. -/
theorem reaches_run (s : SessionReader) (lines : List String) :
    Reaches s lines (s.reader.outputs lines) (s.run lines).2 := by
  induction lines generalizing s with
  | nil =>
      rw [Reader.outputs, ← toList_finish]
      exact .finish (List.append_nil _).symm
  | cons l lines ih =>
      have rest := ih (s.line l).2
      rw [(line_eq s l).2.2] at rest
      exact .line rest

/-- What is sent over the run. -/
theorem events_run (s : SessionReader) (lines : List String) :
    (s.run lines).1 =
      (s.reader.outputs lines).flatMap (reported s.project) ++ [.exited s.project] := by
  induction lines generalizing s with
  | nil =>
      let ended : SessionReader := { s with reader := s.reader.finish.2 }
      obtain ⟨events, project, -⟩ := takeAll_eq ended s.reader.finish.1.toList
      rw [Reader.outputs, ← toList_finish]
      show (ended.takeAll s.reader.finish.1.toList).1 ++
        [.exited (ended.takeAll s.reader.finish.1.toList).2.project] = _
      rw [events, project]
  | cons l lines ih =>
      obtain ⟨events, project, reader⟩ := line_eq s l
      have rest := ih (s.line l).2
      rw [project, reader] at rest
      simp only [run, events, rest, Reader.outputs, List.flatMap_append, List.append_assoc]

theorem counts_ofProject (p : Project) : Counts [] (ofProject p) :=
  ⟨rfl, shows_nil⟩

theorem Counts.reader (h : Counts os s) (r : Reader) : Counts os { s with reader := r } :=
  ⟨h.listed, h.watched⟩

theorem Counts.take (h : Counts os s) (o : Output) : Counts (os ++ [o]) (s.take o).2 := by
  cases o with
  | diagnostic d =>
      have same := listedSince_of_quiet (o := .diagnostic d) rfl rfl os
      exact ⟨h.listed.trans same.symm, h.watched.concat_of_ongoing rfl⟩
  | listed path =>
      have more := listedSince_of_not_startsPass (o := .listed path) rfl os
      refine ⟨?_, h.watched.concat_of_ongoing rfl⟩
      rw [more, ← h.listed]
      rfl
  | phase message =>
      simp only [SessionReader.take]
      cases signal : PhaseSignal.classify message with
      | passStarted =>
          have starts : startsPass (.phase message) = true := by simp [startsPass, signal]
          have ongoing : completesPass (.phase message) = false := by simp [completesPass, signal]
          exact ⟨(listedSince_of_startsPass starts os).symm, h.watched.concat_of_ongoing ongoing⟩
      | passCompleted =>
          have starts : startsPass (.phase message) = false := by simp [startsPass, signal]
          have complete : completesPass (.phase message) = true := by simp [completesPass, signal]
          have same := listedSince_of_quiet starts rfl os
          by_cases some : 0 < s.listed
          · have shown := shows_concat_completed complete (h.listed ▸ some)
            simp only [if_pos some]
            exact ⟨h.listed.trans same.symm, h.listed ▸ shown⟩
          · simp only [if_neg some]
            refine ⟨h.listed.trans same.symm, h.watched.concat ?_⟩
            intro _
            rw [← h.listed]
            omega
      | other =>
          have starts : startsPass (.phase message) = false := by simp [startsPass, signal]
          have ongoing : completesPass (.phase message) = false := by simp [completesPass, signal]
          have same := listedSince_of_quiet starts rfl os
          exact ⟨h.listed.trans same.symm, h.watched.concat_of_ongoing ongoing⟩

theorem Counts.takeAll (h : Counts os s) (more : List Output) :
    Counts (os ++ more) (s.takeAll more).2 := by
  induction more generalizing os s with
  | nil =>
      rw [List.append_nil]
      exact h
  | cons o more ih =>
      have rest := ih (h.take o)
      rw [List.append_assoc] at rest
      exact rest

/-- A session that has counted right what came before goes on to count right at every moment. -/
theorem Counts.reaches (h : Counts os s) (run : Reaches s lines seen t) :
    Counts (os ++ seen) t := by
  induction run generalizing os with
  | start =>
      rw [List.append_nil]
      exact h
  | within split => exact (h.reader _).takeAll _
  | line run ih =>
      rw [← List.append_assoc]
      exact ih ((h.reader _).takeAll _)
  | finish => exact (h.reader _).takeAll _

/-- What is sent is no exit, unless the output has ended. -/
theorem exited_not_mem_reported (project id : String) (os : List Output) :
    .exited id ∉ os.flatMap (reported project) := by
  intro sent
  obtain ⟨o, -, sent⟩ := List.mem_flatMap.1 sent
  cases o <;> simp [reported] at sent

/-- The lines that are read are those in front of the first one that is no text. -/
theorem textLines_front (output : ByteArray) :
    ∃ rest, (byteLines output.toList).map lineText? = (textLines output).map some ++ rest ∧
      (rest = [] ∨ rest.head? = some none) := by
  rw [textLines]
  induction (byteLines output.toList).map lineText? with
  | nil => exact ⟨[], rfl, .inl rfl⟩
  | cons line lines ih =>
      cases line with
      | none => exact ⟨none :: lines, rfl, .inr rfl⟩
      | some text =>
          obtain ⟨rest, split, stop⟩ := ih
          exact ⟨rest, congrArg (some text :: ·) split, stop⟩

/-- A session that is given any bytes as output reads their lines up to the first one that is no
text. It sends the diagnostics and phases of the reader of lines in their order, then the diagnostic
that the reader still holds back, and then that it exited, which it sends at no other time. Every
front part of that output has been taken at some moment, the whole of it at the end, and at every
moment the count that the session shows is that of what it has taken. -/
theorem run_textLines (p : Project) (output : ByteArray) :
    let lines := textLines output
    let fed := runAll Reader.feed lines (.ofProject p)
    let pieces := fed.1.flatten ++ fed.2.pending.toList.map .diagnostic
    let sent := fed.1.flatten.flatMap (reported p.id) ++
      fed.2.pending.toList.map (.diagnostic p.id)
    (∃ rest, (byteLines output.toList).map lineText? = lines.map some ++ rest ∧
      (rest = [] ∨ rest.head? = some none)) ∧
    ((ofProject p).run lines).1 = sent ++ [.exited p.id] ∧
    (∀ id, .exited id ∉ sent) ∧
    (∀ seen, seen <+: pieces → ∃ t, Reaches (ofProject p) lines seen t) ∧
    Reaches (ofProject p) lines pieces ((ofProject p).run lines).2 ∧
    ∀ seen t, Reaches (ofProject p) lines seen t →
      seen <+: pieces ∧ ∀ n, Shows seen n ↔ n = t.watched := by
  intro lines fed pieces sent
  have whole : (Reader.ofProject p).outputs lines = pieces := by
    rw [Reader.outputs_eq_feed, toList_finish, Reader.flushed]
  have held : sent = pieces.flatMap (reported p.id) := by
    rw [List.flatMap_append, List.flatMap_map]
    exact congrArg (_ ++ ·) List.map_eq_flatMap
  have started : (ofProject p).reader.outputs lines = pieces := whole
  refine ⟨textLines_front output, ?_, ?_, ?_, ?_, ?_⟩
  · rw [events_run, started, held]
    rfl
  · intro id
    rw [held]
    exact exited_not_mem_reported p.id id pieces
  · intro seen front
    exact exists_reaches _ (started.symm ▸ front)
  · exact started ▸ reaches_run (ofProject p) lines
  · intro seen t run
    have shown := ((counts_ofProject p).reaches run).watched
    exact ⟨started ▸ run.prefix, fun n => ⟨fun h => h.unique shown, fun h => h ▸ shown⟩⟩

/-- A pass that lists two files, one that lists none, and a third that is cut off by a line that is
no text. -/
def cutOutput : ByteArray :=
  "/a\n/b\r\n1:00:01 - Found 0 errors\n1:00:02 - File change detected\n".toUTF8 ++
    "1:00:03 - Found 0 errors\n/c\nc(1,7): error TS1: held\n back\n".toUTF8 ++
    ⟨#[255, 10]⟩ ++ "1:00:04 - Found 1 error\n".toUTF8

theorem run_textLines_cutOutput :
    let p : Project :=
      { id := "app", name := "app", root := ⟨"/w"⟩, configPath := ⟨"/w/tsconfig.json"⟩ }
    let held : Diagnostic :=
      { file := ⟨"/w/c"⟩, line := 1, column := 7, category := .error, code := 1
        message := "held\nback" }
    let pieces : List Output :=
      [.listed ⟨"/a"⟩, .listed ⟨"/b"⟩, .phase "Found 0 errors", .phase "File change detected",
        .phase "Found 0 errors", .listed ⟨"/c"⟩, .diagnostic held]
    let run := (ofProject p).run (textLines cutOutput)
    run.1 = [.phase p.id "Found 0 errors", .phase p.id "File change detected",
        .phase p.id "Found 0 errors", .diagnostic p.id held, .exited p.id] ∧
      Reaches (ofProject p) (textLines cutOutput) pieces run.2 ∧ ∀ n, Shows pieces n ↔ n = 2 := by
  intro p held pieces run
  obtain ⟨-, sent, -, -, ended, shown⟩ := run_textLines p cutOutput
  have read : textLines cutOutput =
      ["/a", "/b", "1:00:01 - Found 0 errors", "1:00:02 - File change detected",
        "1:00:03 - Found 0 errors", "/c", "c(1,7): error TS1: held", " back"] := by
    decide +kernel
  have fed : (runAll Reader.feed (textLines cutOutput) (.ofProject p)).1.flatten =
        pieces.dropLast ∧
      (runAll Reader.feed (textLines cutOutput) (.ofProject p)).2.pending = some held := by
    rw [read]
    decide +kernel
  have count : run.2.watched = 2 := by
    simp only [run, read]
    decide +kernel
  rw [fed.1, fed.2] at sent ended
  exact ⟨sent, ended, count ▸ (shown pieces run.2 ended).2⟩

end SessionReader

end DiagnosticWatch
