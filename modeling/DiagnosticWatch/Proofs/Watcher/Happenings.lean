import DiagnosticWatch.Proofs.Watcher.Output
import DiagnosticWatch.Proofs.Watcher.Parts
import Mathlib.Data.List.DropRight

/-!
# What has happened to the diagnostics

Reports of sessions and calls to forget are all that ever happens to the diagnostics of a watcher.
The store follows from them (`Follows`), and so does what the open pass of a project holds: the
diagnostics that were handled since the pass before, without those that were dropped after they were
handled (`Project.openDiagnostics`). Sessions, queries, the cache and the subscribers do not matter.
-/

namespace DiagnosticWatch

/-- Something that concerns the diagnostics of a watcher. -/
inductive Happening
  | event (e : SessionEvent)
  | clearedFile (file : Path)
  | clearedAll
  deriving DecidableEq, Repr, Inhabited

namespace Happening

def completes (id : String) : Happening → Bool
  | event (.phase project message) =>
    project = id && PhaseSignal.classify message = .passCompleted
  | _ => false

def drops (place : Location) : Happening → Bool
  | event _ => false
  | clearedFile file => place = file.location
  | clearedAll => true

end Happening

namespace Project

variable {p : Project}

/-- The diagnostic of a project that is handled, its file in normal form. -/
def handled? (p : Project) : Happening → Option Diagnostic
  | .event (.diagnostic id d) => if id = p.id then some (d.within p.root) else none
  | _ => none

/-- The diagnostics of a project that are handled, in order. -/
def handled (p : Project) (hs : List Happening) : List Diagnostic :=
  hs.filterMap p.handled?

/-- The diagnostics of a project that were handled and not dropped later. -/
def kept (p : Project) : List Happening → List Diagnostic
  | [] => []
  | h :: later =>
    ((p.handled? h).filter fun d => !later.any (·.drops d.file.location)).toList ++ p.kept later

/-- The diagnostics of a project that were handled since its last complete pass, without those that
were dropped after they were handled. -/
def openDiagnostics (p : Project) (hs : List Happening) : List Diagnostic :=
  p.kept (hs.rtakeWhile fun h => !h.completes p.id)

/-- What is handled last has not been dropped yet. -/
theorem kept_concat (p : Project) (hs : List Happening) (h : Happening) :
    p.kept (hs ++ [h]) =
      (p.kept hs).filter (fun d => !h.drops d.file.location) ++ (p.handled? h).toList := by
  induction hs with
  | nil => cases hd : p.handled? h <;> simp [kept, hd]
  | cons h' hs ih =>
      rw [List.cons_append, kept, kept, ih, List.filter_append, List.append_assoc]
      congr 1
      cases p.handled? h' with
      | none => rfl
      | some d =>
          cases later : hs.any (·.drops d.file.location) <;>
            cases last : h.drops d.file.location <;>
            simp only [Option.filter, List.any_append, List.any_cons, List.any_nil, later, last] <;>
            simp [last]

/-- What one more happening makes of the open pass. -/
theorem openDiagnostics_concat (p : Project) (hs : List Happening) (h : Happening) :
    p.openDiagnostics (hs ++ [h]) =
      if h.completes p.id then []
      else (p.openDiagnostics hs).filter (fun d => !h.drops d.file.location) ++
        (p.handled? h).toList := by
  rw [openDiagnostics, List.rtakeWhile_concat]
  cases h.completes p.id with
  | true => rfl
  | false =>
      simp only [Bool.not_false, if_true, Bool.false_eq_true, if_false, kept_concat]
      rfl

end Project

namespace ProjectIndex

variable {i : ProjectIndex} {ds : List Diagnostic}

def undergo (p : Project) (i : ProjectIndex) : Happening → ProjectIndex
  | .event e => if e.project = p.id then i.absorb p.root e else i
  | .clearedFile file => i.remove file
  | .clearedAll => i.clear

theorem Brings.remove (h : i.Brings ds) (file : Path) :
    (i.remove file).Brings (ds.filter fun d => !decide (d.file.location = file.location)) where
  bounded := fun place b hb => by
    rw [get?_remove] at hb
    split at hb
    · cases hb
    · exact h.bounded place b hb
  brought := fun place => by
    have pass : (i.remove file).beginPass.pass = i.beginPass.pass := by
      rw [beginPass_remove]
      rfl
    rw [ProjectIndex.brought, get?_remove, pass, List.filter_filter]
    by_cases here : place = file.location
    · have none : ds.filter (fun d => decide (d.file.location = place) &&
          !decide (d.file.location = file.location)) = [] := by
        rw [List.filter_eq_nil_iff]
        intro d _
        simp [here]
      rw [if_pos here, none]
    · rw [if_neg here, ← ProjectIndex.brought, h.brought]
      apply List.filter_congr
      intro d _
      by_cases same : d.file.location = place
      · simp [same, here]
      · simp [same]

theorem brings_clear (i : ProjectIndex) : i.clear.Brings [] where
  bounded := fun place b hb => by cases hb
  brought := fun _ => rfl

/-- The open pass follows what happens. -/
theorem Brings.undergo {p : Project} {hs : List Happening} (b : i.Brings (p.openDiagnostics hs))
    (h : Happening) : (i.undergo p h).Brings (p.openDiagnostics (hs ++ [h])) := by
  rw [Project.openDiagnostics_concat]
  cases h with
  | event e =>
      simp only [ProjectIndex.undergo, Happening.drops, Bool.not_false, List.filter_true]
      by_cases own : e.project = p.id
      · have step := b.absorb p.root e
        rw [if_pos own]
        cases e with
        | diagnostic id d =>
            have same : id = p.id := own
            simpa [Happening.completes, Project.handled?, SessionEvent.collect, same] using step
        | phase id message =>
            have same : id = p.id := own
            by_cases complete : PhaseSignal.classify message = .passCompleted <;>
              simpa [Happening.completes, Project.handled?, SessionEvent.collect, same,
                complete] using step
        | exited id =>
            simpa [Happening.completes, Project.handled?, SessionEvent.collect] using step
      · rw [if_neg own]
        have unseen : (Happening.event e).completes p.id = false ∧
            p.handled? (.event e) = none := by
          cases e <;>
            simp_all [Happening.completes, Project.handled?, SessionEvent.project]
        simpa [unseen.1, unseen.2] using b
  | clearedFile file =>
      simpa [ProjectIndex.undergo, Happening.completes, Project.handled?, Happening.drops] using
        b.remove file
  | clearedAll =>
      simpa [ProjectIndex.undergo, Happening.completes, Project.handled?, Happening.drops] using
        brings_clear i

/-- Buckets that a history has made hold in their open pass what the history says. -/
theorem brings_history (p : Project) (hs : List Happening) :
    (hs.foldl (ProjectIndex.undergo p) {}).Brings (p.openDiagnostics hs) := by
  induction hs using List.reverseRecOn with
  | nil => exact brings_empty
  | append_singleton hs h ih =>
      rw [List.foldl_concat]
      exact ih.undergo h

end ProjectIndex

namespace Watcher

def happenings (w : Watcher) : Operation → List Happening
  | .clearFile path => [.clearedFile (w.placeOf path)]
  | .clearAll => [.clearedAll]
  | op => (w.taken op).map .event

/-- What a run makes happen, in order and each at its time. -/
def history (w : Watcher) : List (Nat × Operation) → List (Nat × Happening)
  | [] => []
  | timed :: ops =>
    (w.happenings timed.2).map (timed.1, ·) ++ (w.performAt timed).2.history ops

theorem history_append (w : Watcher) (ops more : List (Nat × Operation)) :
    w.history (ops ++ more) = w.history ops ++ (w.after ops).history more := by
  induction ops generalizing w with
  | nil => rfl
  | cons timed ops ih =>
      rw [List.cons_append, history, history, ih, List.append_assoc]
      rfl

/-- The store is what a history has made of it. -/
structure Follows (w : Watcher) (hs : List Happening) : Prop where
  known : ∀ p, w.workspace.project? p.id = some p →
    w.store.projects.get? p.id = some (hs.foldl (ProjectIndex.undergo p) {})
  unknown : ∀ id, w.workspace.project? id = none → w.store.projects.get? id = none

section Absent

variable {w : Watcher} {id : String}

theorem absent_onDiagnostic (h : w.store.projects.get? id = none) (now : Nat) (other : String)
    (d : Diagnostic) : (w.onDiagnostic now other d).store.projects.get? id = none := by
  cases hp : w.workspace.project? other with
  | none =>
      rw [onDiagnostic_of_unknown hp]
      exact h
  | some p =>
      rw [onDiagnostic_of_known hp]
      exact Store.get?_perform_of_none h (.insert other (d.within p.root)) (by simp)

theorem absent_completePass (h : w.store.projects.get? id = none) (now : Nat) (other : String) :
    (w.completePass now other).store.projects.get? id = none := by
  cases hi : w.store.projects.get? other with
  | none =>
      rw [completePass_of_unknown hi, flush_store]
      exact h
  | some i =>
      rw [completePass_of_known hi]
      exact Store.get?_perform_of_none h (.completePass other) (by simp)

theorem absent_onPhase (h : w.store.projects.get? id = none) (now : Nat) (other message : String) :
    (w.onPhase now other message).store.projects.get? id = none := by
  rw [onPhase]
  split
  · exact Store.get?_perform_of_none h (.beginPass other) (by simp)
  · exact absent_completePass h now other
  · exact h

theorem absent_handle (h : w.store.projects.get? id = none) (now : Nat) (e : SessionEvent) :
    (w.handle now e).store.projects.get? id = none := by
  refine handle_cases ?unknown ?diagnostic ?phase ?exited e
  case unknown => exact fun _ _ => h
  case diagnostic => exact fun other d _ => absent_onDiagnostic h now other d
  case phase => exact fun other message _ => absent_onPhase h now other message
  case exited =>
    intro other _
    rw [onExit_store]
    exact h

end Absent

namespace Follows

variable {w v : Watcher} {hs : List Happening}

theorem congr (f : w.Follows hs) (workspace : v.workspace = w.workspace)
    (store : v.store = w.store) : v.Follows hs where
  known := by
    rw [workspace, store]
    exact f.known
  unknown := by
    rw [workspace, store]
    exact f.unknown

/-- An event is taken by the buckets of its project and makes no project known. -/
theorem take (f : w.Follows hs) (workspace : v.workspace = w.workspace) {e : SessionEvent}
    (known : ∀ p i, w.workspace.project? p.id = some p → w.store.projects.get? p.id = some i →
      v.store.projects.get? p.id = some (if e.project = p.id then i.absorb p.root e else i))
    (unknown : ∀ id, w.store.projects.get? id = none → v.store.projects.get? id = none) :
    v.Follows (hs ++ [.event e]) where
  known := by
    intro p hp
    rw [workspace] at hp
    rw [known p _ hp (f.known p hp), List.foldl_concat]
    rfl
  unknown := by
    intro id hp
    rw [workspace] at hp
    exact unknown id (f.unknown id hp)

theorem onDiagnostic (f : w.Follows hs) (now : Nat) (id : String) (d : Diagnostic) :
    (w.onDiagnostic now id d).Follows (hs ++ [.event (.diagnostic id d)]) :=
  f.take (congrArg Prod.fst (onDiagnostic_setup w now id d))
    (fun _ _ hp hi => index_onDiagnostic hp hi now id d)
    (fun _ h => absent_onDiagnostic h now id d)

theorem onPhase (f : w.Follows hs) (now : Nat) (id message : String) :
    (w.onPhase now id message).Follows (hs ++ [.event (.phase id message)]) :=
  f.take (congrArg Prod.fst (onPhase_setup w now id message))
    (fun p _ _ hi => index_onPhase hi p.root now id message)
    (fun _ h => absent_onPhase h now id message)

theorem handle (f : w.Follows hs) (now : Nat) (e : SessionEvent) :
    (w.handle now e).Follows (hs ++ [.event e]) :=
  f.take (congrArg Prod.fst (handle_setup w now e))
    (fun _ _ hp hi => index_handle hp hi now e)
    (fun _ h => absent_handle h now e)

/-- The end of a session leaves the store as it is. -/
theorem onExit (f : w.Follows hs) (now : Nat) (id : String) :
    (w.onExit now id).Follows (hs ++ [.event (.exited id)]) :=
  f.take (congrArg Prod.fst (onExit_setup w now id))
    (fun p i _ hi => by simp [hi, ProjectIndex.absorb])
    (fun _ h => by rwa [onExit_store])

theorem handleAll (f : w.Follows hs) (now : Nat) (es : List SessionEvent) :
    (es.foldl (fun w e => w.handle now e) w).Follows (hs ++ es.map .event) := by
  induction es generalizing w hs with
  | nil => simpa using f
  | cons e es ih => simpa using ih (f.handle now e)

theorem clearFile (f : w.Follows hs) (now : Nat) (path : Path) :
    (w.clearFile now path).2.Follows (hs ++ [.clearedFile (w.placeOf path)]) := by
  have workspace : (w.flush now).workspace = w.workspace := flush_workspace w now
  have store : (w.clearFile now path).2.store = (w.store.removeFile (w.placeOf path)).2 := by
    simp only [Watcher.clearFile, flush_store, placeOf, workspace]
  constructor
  · intro p hp
    rw [store, List.foldl_concat]
    exact Store.get?_perform_of_some (f.known p (workspace ▸ hp)) (.removeFile (w.placeOf path))
  · intro id hp
    rw [store]
    exact Store.get?_perform_of_none (f.unknown id (workspace ▸ hp))
      (.removeFile (w.placeOf path)) (by simp)

theorem clearAll (f : w.Follows hs) : w.clearAll.Follows (hs ++ [.clearedAll]) where
  known := by
    intro p hp
    rw [List.foldl_concat]
    exact Store.get?_perform_of_some (f.known p hp) .clear
  unknown := by
    intro id hp
    exact Store.get?_perform_of_none (f.unknown id hp) .clear (by simp)

/-- The store follows what an operation makes happen. -/
theorem perform (f : w.Follows hs) (now : Nat) (op : Operation) :
    (w.perform now op).2.Follows (hs ++ w.happenings op) := by
  have workspace : (w.perform now op).2.workspace = w.workspace :=
    congrArg Prod.fst (perform_setup w now op)
  have quiet (store : (w.perform now op).2.store = w.store) :
      (w.perform now op).2.Follows (hs ++ []) := by
    rw [List.append_nil]
    exact f.congr workspace store
  cases op with
  | start => exact quiet (start_store w)
  | stop => exact quiet (stop_store w)
  | diagnostic id d => exact f.onDiagnostic now id d
  | phase id message => exact f.onPhase now id message
  | exit id => exact f.onExit now id
  | event e => exact f.handle now e
  | drainQueue =>
      have taken : ({ w with queue := [] } : Watcher).Follows hs := f.congr rfl rfl
      exact taken.handleAll now w.queue
  | file path => exact quiet (fileDiagnostics_store w now path)
  | hasErrors path =>
      cases path with
      | none => exact quiet rfl
      | some path => exact quiet (lookupFile_store w now path)
  | clearFile path => exact f.clearFile now path
  | clearAll => exact f.clearAll
  | _ => exact quiet rfl

/-- The store follows what a run makes happen. -/
theorem after (f : w.Follows hs) (ops : List (Nat × Operation)) :
    (w.after ops).Follows (hs ++ (w.history ops).map (·.2)) := by
  induction ops generalizing w hs with
  | nil =>
      rw [history, List.map_nil, List.append_nil]
      exact f
  | cons timed ops ih =>
      have made : (w.happenings timed.2).map (Prod.snd ∘ (timed.1, ·)) = w.happenings timed.2 :=
        List.map_id _
      rw [history, List.map_append, List.map_map, made, ← List.append_assoc]
      exact ih (f.perform timed.1 timed.2)

end Follows

/-- A fresh watcher knows its projects and nothing has happened to it. -/
theorem fresh_follows (workspace : Workspace) (config : WatchConfig) (launcher : Launcher)
    (size : Option (Nat × Nat)) : (fresh workspace config launcher size).Follows [] where
  known := by
    intro p hp
    rw [fresh_workspace] at hp
    exact fresh_index_of_project? hp config launcher size
  unknown := by
    intro id hp
    rw [fresh_workspace] at hp
    rw [fresh_index, if_neg]
    intro known
    obtain ⟨q, hq, same⟩ := List.any_eq_true.1 known
    have other := List.find?_eq_none.1 hp q hq
    simp_all

end Watcher

end DiagnosticWatch
