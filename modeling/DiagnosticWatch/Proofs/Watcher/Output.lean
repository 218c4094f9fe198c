import DiagnosticWatch.Proofs.Path.Normal
import DiagnosticWatch.Proofs.Session
import DiagnosticWatch.Proofs.Watcher.Events
import Mathlib.Data.List.DropRight

/-!
# From compiler output to answers

The output of a compiler goes through the reader, the session and the watcher before anyone sees it.
When the watcher takes the end of a pass, it lists the diagnostics that the output has headed since
the pass before, sorted by file, and announces how many errors and warnings there are among them.
What the compilers of other projects say in the meantime makes no difference.
-/

namespace DiagnosticWatch

open Compiler

def Compiler.Block.completes (b : Block) : Bool :=
  match b.line with
  | .phase message => PhaseSignal.classify message = .passCompleted
  | _ => false

/-- The diagnostics that the output of a project has headed since the last pass was complete, their
files in normal form. -/
def Project.openPass (p : Project) (lines : List String) : List Diagnostic :=
  ((blocks lines).rtakeWhile fun b => !b.completes).filterMap fun b =>
    (b.printed? p.configPath).map (·.within p.root)

/-- The diagnostics of the open pass behind one more event of its project. -/
def SessionEvent.collect (root : Path) (ds : List Diagnostic) : SessionEvent → List Diagnostic
  | .diagnostic _ d => ds ++ [d.within root]
  | .phase _ message => if PhaseSignal.classify message = .passCompleted then [] else ds
  | .exited _ => ds

theorem ProjectIndex.Brings.absorb {i : ProjectIndex} {ds : List Diagnostic} (h : i.Brings ds)
    (root : Path) (e : SessionEvent) : (i.absorb root e).Brings (e.collect root ds) := by
  cases e with
  | diagnostic id d => exact h.insert (d.within root)
  | phase id message =>
      simp only [ProjectIndex.absorb, SessionEvent.collect]
      cases PhaseSignal.classify message with
      | passStarted => exact h.beginPass
      | passCompleted => exact h.completePass
      | other => exact h
  | exited id => exact h

theorem ProjectIndex.Brings.absorbAll {i : ProjectIndex} {ds : List Diagnostic} (h : i.Brings ds)
    (root : Path) (es : List SessionEvent) :
    (es.foldl (ProjectIndex.absorb root) i).Brings (es.foldl (SessionEvent.collect root) ds) := by
  induction es generalizing i ds with
  | nil => exact h
  | cons e es ih => exact ih (h.absorb root e)

namespace Project

variable {p : Project}

/-- The file of a header is in normal form already, so a second time makes no difference. -/
theorem collect_block (absolute : p.root.isAbsolute = true) (b : Block) (ds : List Diagnostic) :
    (((Reader.ofProject p).outputsOf b).flatMap (SessionReader.reported p.id)).foldl
        (SessionEvent.collect p.root) ds =
      if b.completes then []
      else ds ++ ((b.printed? p.configPath).map (·.within p.root)).toList := by
  obtain ⟨line, continued⟩ := b
  cases line with
  | located file line column category code message =>
      have place := Path.normalize_normalize absolute ⟨file⟩ p.root
      simp [Reader.outputsOf, Reader.headed?, Reader.immediate, Reader.ofProject,
        SessionReader.reported, SessionEvent.collect, Block.completes, Block.printed?,
        Line.printed?, Diagnostic.within, Diagnostic.extended, place]
  | global category code message => rfl
  | phase message =>
      by_cases complete : PhaseSignal.classify message = .passCompleted
      · simp [Reader.outputsOf, Reader.headed?, Reader.immediate, SessionReader.reported,
          SessionEvent.collect, Block.completes, complete]
      · simp [Reader.outputsOf, Reader.headed?, Reader.immediate, SessionReader.reported,
          SessionEvent.collect, Block.completes, Block.printed?, Line.printed?, complete]
  | listed | noise =>
      simp [Reader.outputsOf, Reader.headed?, Reader.immediate, SessionReader.reported,
        Block.completes, Block.printed?, Line.printed?]

/-- What the events of a session leave in the open pass is what its output has headed. -/
theorem collect_outputs (absolute : p.root.isAbsolute = true) (lines : List String) :
    (((Reader.ofProject p).outputs lines).flatMap (SessionReader.reported p.id)).foldl
      (SessionEvent.collect p.root) [] = p.openPass lines := by
  rw [Reader.outputs_eq_blocks rfl, openPass]
  induction blocks lines using List.reverseRecOn with
  | nil => rfl
  | append_singleton bs b ih =>
      rw [List.flatMap_append, List.flatMap_append, List.foldl_append, ih, List.flatMap_singleton,
        collect_block absolute, List.rtakeWhile_concat]
      cases b.completes with
      | true => rfl
      | false =>
          simp only [Bool.not_false, if_true, Bool.false_eq_true, if_false, List.filterMap_append]
          cases h : (b.printed? p.configPath).map (·.within p.root) <;> simp [h]

end Project

namespace Watcher

variable {w : Watcher} {id : String} {p : Project} {i : ProjectIndex}

/-- Completing a pass announces how many errors and warnings the project holds then. -/
theorem subscribers_completePass (hp : w.workspace.project? id = some p)
    (hi : w.store.projects.get? id = some i) (now : Nat) :
    (w.completePass now id).subscribers = Subscriber.tell w.subscribers
      { projectId := id
        projectName := p.name
        errors := i.completePass.2.diagnostics.countP (·.category == .error)
        warnings := i.completePass.2.diagnostics.countP (·.category == .warning)
        completedAt := now } := by
  have completed := Store.get?_perform_of_some hi (.completePass id)
  simp only [Store.Operation.onIndex, if_true] at completed
  have pruned : (w.store.completePass id).1 = some i.completePass.1 := by
    simp [Store.completePass, hi]
  have subscribers : (w.flush now).subscribers = w.subscribers := by
    rw [flush_eq_withData]
    rfl
  simp only [completePass, flush_store]
  cases hcomplete : w.store.completePass id with
  | mk files store =>
      rw [hcomplete] at pruned
      simp only [Store.perform, hcomplete] at completed
      simp only at pruned
      subst pruned
      simp only [publish, uncache, summary, Store.projectTotals?, completed, flush_workspace, hp,
        Option.map_some, Option.getD_some, Tally.of_eq_countP, subscribers]

/-- A project whose id is no name of another one is found under its id. -/
theorem named?_of_project? {workspace : Workspace} (registered : workspace.project? p.id = some p)
    (own : ∀ q ∈ workspace.projects, q.name = p.id → q.id = p.id) :
    ∃ q, workspace.named? p.id = some q ∧ q.id = p.id := by
  rw [Workspace.named?]
  cases hq : workspace.projects.find? fun q => q.name = p.id with
  | none => exact ⟨p, registered, rfl⟩
  | some q =>
      have name : q.name = p.id := by simpa using List.find?_some hq
      exact ⟨q, rfl, own q (List.mem_of_find?_eq_some hq) name⟩

/-- When a watcher takes the end of a pass of a project, it answers with the diagnostics that the
compiler of the project has headed since the pass before, sorted by file and otherwise in their
order, and announces how many errors and warnings there are among them. The watcher may have taken
anything from other projects and answered any queries, but has not been told to clear anything. -/
theorem lists_openPass {workspace : Workspace} {p : Project}
    (registered : workspace.project? p.id = some p) (absolute : p.root.isAbsolute = true)
    (own : ∀ q ∈ workspace.projects, q.name = p.id → q.id = p.id) (config : WatchConfig)
    (launcher : Launcher) (size : Option (Nat × Nat)) {lines : List String} {last message : String}
    (phase : Line.said last = .phase message)
    (complete : PhaseSignal.classify message = .passCompleted) {ops : List (Nat × Operation)}
    (keeps : ∀ timed ∈ ops, timed.2.clears = false)
    (reported : ((fresh workspace config launcher size).takenAll ops).filter (·.project = p.id) ++
        [.phase p.id message] =
      (SessionReader.ofProject p).events (lines ++ [last])) (now asked : Nat) :
    let before := (fresh workspace config launcher size).after ops
    let behind := before.handle now (.phase p.id message)
    let listed := sortedBy (·.file.location) (p.openPass lines)
    behind.packageDiagnostics? asked p.id = some (.of asked p.id listed false) ∧
      behind.subscribers = (before.subscribers.filter fun _ s => s.listening).map fun _ s =>
        { s with pending := s.pending ++
          [{ projectId := p.id
             projectName := p.name
             errors := listed.countP (·.category == .error)
             warnings := listed.countP (·.category == .warning)
             completedAt := now }] } := by
  intro before behind listed
  have events := List.append_cancel_right
    (reported.trans (SessionReader.events_concat_phase phase (.ofProject p) lines))
  have start := fresh_workspace workspace config launcher size
  have hp : before.workspace.project? p.id = some p := by
    rw [after_workspace, start]
    exact registered
  obtain ⟨i, hi, brings⟩ : ∃ i, before.store.projects.get? p.id = some i ∧
      i.Brings (p.openPass lines) := by
    refine ⟨_, index_after (start ▸ registered)
      (fresh_index_of_project? registered config launcher size) keeps, ?_⟩
    have brings := ProjectIndex.brings_empty.absorbAll p.root
      (((Reader.ofProject p).outputs lines).flatMap (SessionReader.reported p.id))
    rw [Project.collect_outputs absolute] at brings
    rwa [events]
  have handled : behind = before.completePass now p.id := by
    have known : before.store.contains p.id = true := Store.contains_iff_get?.2 ⟨i, hi⟩
    simp [behind, handle, SessionEvent.project, known, onPhase, complete]
  have completed : behind.store.projects.get? p.id = some i.completePass.2 := by
    rw [handled, index_completePass hi, if_pos rfl]
  have diagnostics : i.completePass.2.diagnostics = listed := brings.diagnostics_completePass
  constructor
  · obtain ⟨q, named, same⟩ := named?_of_project? registered own
    have unchanged : behind.workspace = workspace := by
      rw [← start, ← after_workspace (fresh workspace config launcher size) ops]
      exact congrArg Prod.fst (handle_setup before now _)
    rw [packageDiagnostics?, unchanged, named, Option.map_some, same, Store.projectDiagnostics?,
      completed, Option.map_some, Option.getD_some, diagnostics]
  · rw [handled, subscribers_completePass hp hi, diagnostics]
    rfl

/-- A complete pass, and the next one up to its end. One message takes two lines, and one file comes
up again. -/
def twoPasses : List String :=
  ["a.ts(1,1): error TS1: old", "12:00:01 - Found 1 error.", "b.ts(2,1): error TS2: new", "  more",
    "a.ts(3,1): warning TS3: also", "./b.ts(4,1): error TS4: last"]

/-- What the session of the project reports for them, with a subscriber, a query and an event of
another project in between. -/
def takenPasses : List (Nat × Operation) :=
  let report (category : Category) (file : String) (line code : UInt32) (message : String) :=
    Operation.event
      (.diagnostic "app" { file := ⟨file⟩, line, column := 1, category, code, message })
  [(0, report .error "/w/a.ts" 1 1 "old"), (1, .event (.phase "app" "Found 1 error.")),
    (2, .subscribe), (3, report .error "/w/b.ts" 2 2 "new\nmore"), (4, .event (.exited "lib")),
    (5, .file ⟨"b.ts"⟩), (6, report .warning "/w/a.ts" 3 3 "also"),
    (7, report .error "/w/b.ts" 4 4 "last")]

theorem lists_openPass_twoPasses :
    let before := (fresh soloWorkspace {} willing none).after takenPasses
    let behind := before.handle 8 (.phase soloProject.id "Found 2 errors.")
    let listed := sortedBy (·.file.location) (soloProject.openPass twoPasses)
    listed.map (·.message) = ["also", "new\nmore", "last"] ∧
      behind.packageDiagnostics? 9 soloProject.id = some (.of 9 soloProject.id listed false) ∧
      behind.subscribers = .ofList
        [(0, { pending :=
            [{ projectId := soloProject.id
               projectName := soloProject.name
               errors := listed.countP (·.category == .error)
               warnings := listed.countP (·.category == .warning)
               completedAt := 8 }] })] := by
  dsimp only
  have phase : Line.said "12:00:02 - Found 2 errors." = .phase "Found 2 errors." := by
    decide +kernel
  have complete : PhaseSignal.classify "Found 2 errors." = .passCompleted := by decide +kernel
  have reported : ((fresh soloWorkspace {} willing none).takenAll takenPasses).filter
        (·.project = soloProject.id) ++ [.phase soloProject.id "Found 2 errors."] =
      (SessionReader.ofProject soloProject).events
        (twoPasses ++ ["12:00:02 - Found 2 errors."]) := by decide +kernel
  have messages : ((((fresh soloWorkspace {} willing none).after takenPasses).handle 8
      (.phase soloProject.id "Found 2 errors.")).packageDiagnostics? 9 soloProject.id).map
        (fun r => r.diagnostics.map (·.message)) = some ["also", "new\nmore", "last"] := by
    decide +kernel
  have listening : ((fresh soloWorkspace {} willing none).after takenPasses).subscribers =
      .ofList [(0, {})] := by decide +kernel
  obtain ⟨package, subscribers⟩ := lists_openPass (p := soloProject) rfl (by decide +kernel)
    (by decide +kernel) {} willing none phase complete (by decide +kernel) reported 8 9
  rw [listening] at subscribers
  refine ⟨?_, package, subscribers⟩
  have listed := (congrArg (Option.map fun r => r.diagnostics.map (·.message)) package).symm
  exact Option.some.inj (listed.trans messages)

end Watcher

end DiagnosticWatch
