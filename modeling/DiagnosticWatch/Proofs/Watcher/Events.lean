import DiagnosticWatch.Proofs.Store.Passes
import DiagnosticWatch.Proofs.Store.Step
import DiagnosticWatch.Proofs.Watcher.Coherence

/-!
# Projects follow their own events

As long as nothing is cleared, what the store holds for a project is made of the events of that
project, one after the other. Events of other projects, queries, starts and stops do not matter, nor
does the cache.
-/

namespace DiagnosticWatch

def ProjectIndex.absorb (root : Path) (i : ProjectIndex) : SessionEvent → ProjectIndex
  | .diagnostic _ d => i.insert (d.within root)
  | .phase _ message =>
    match PhaseSignal.classify message with
    | .passStarted => i.beginPass
    | .passCompleted => i.completePass.2
    | .other => i
  | .exited _ => i

namespace Watcher

/-- Whether an operation clears diagnostics by itself. -/
def Operation.clears : Operation → Bool
  | .clearFile _ | .clearAll => true
  | _ => false

def taken (w : Watcher) : Operation → List SessionEvent
  | .diagnostic id d => [.diagnostic id d]
  | .phase id message => [.phase id message]
  | .exit id => [.exited id]
  | .event e => [e]
  | .drainQueue => w.queue
  | _ => []

def takenAll (w : Watcher) : List (Nat × Operation) → List SessionEvent
  | [] => []
  | timed :: ops => w.taken timed.2 ++ (w.performAt timed).2.takenAll ops

section Index

variable {w : Watcher} {id : String} {p : Project} {i : ProjectIndex}

theorem index_onDiagnostic (hp : w.workspace.project? id = some p)
    (hi : w.store.projects.get? id = some i) (now : Nat) (other : String) (d : Diagnostic) :
    (w.onDiagnostic now other d).store.projects.get? id =
      some (if other = id then i.insert (d.within p.root) else i) := by
  cases hq : w.workspace.project? other with
  | none =>
      have elsewhere : other ≠ id := by
        rintro rfl
        rw [hp] at hq
        cases hq
      rw [onDiagnostic_of_unknown hq, if_neg elsewhere, hi]
  | some q =>
      rw [onDiagnostic_of_known hq]
      have inserted := Store.get?_perform_of_some hi (.insert other (d.within q.root))
      refine inserted.trans ?_
      by_cases here : other = id
      · subst here
        obtain rfl : p = q := Option.some.inj (hp.symm.trans hq)
        rfl
      · simp [Store.Operation.onIndex, here]

theorem index_completePass (hi : w.store.projects.get? id = some i) (now : Nat) (other : String) :
    (w.completePass now other).store.projects.get? id =
      some (if other = id then i.completePass.2 else i) := by
  have completed := Store.get?_perform_of_some hi (.completePass other)
  simp only [completePass, flush_store]
  cases hpruned : w.store.completePass other with
  | mk pruned store =>
      cases pruned with
      | some pruned =>
          simp only [Store.perform, hpruned] at completed
          exact completed
      | none =>
          have unknown : w.store.projects.get? other = none := by
            simpa [Store.completePass] using congrArg Prod.fst hpruned
          have elsewhere : other ≠ id := by
            rintro rfl
            rw [hi] at unknown
            cases unknown
          simp only [flush_store, if_neg elsewhere, hi]

theorem index_onPhase (hi : w.store.projects.get? id = some i) (root : Path) (now : Nat)
    (other message : String) :
    (w.onPhase now other message).store.projects.get? id =
      some (if other = id then i.absorb root (.phase other message) else i) := by
  simp only [onPhase, ProjectIndex.absorb]
  cases PhaseSignal.classify message with
  | passStarted => exact Store.get?_perform_of_some hi (.beginPass other)
  | passCompleted => exact index_completePass hi now other
  | other => simpa using hi

/-- An event changes the buckets of its own project only. -/
theorem index_handle (hp : w.workspace.project? id = some p)
    (hi : w.store.projects.get? id = some i) (now : Nat) (e : SessionEvent) :
    (w.handle now e).store.projects.get? id =
      some (if e.project = id then i.absorb p.root e else i) := by
  refine handle_cases ?unknown ?diagnostic ?phase ?exited e
  case unknown =>
    intro e unknown
    have elsewhere : e.project ≠ id := by
      rintro rfl
      exact absurd (hi.symm.trans unknown) (Option.some_ne_none i)
    rw [if_neg elsewhere, hi]
  case diagnostic => exact fun other d _ => index_onDiagnostic hp hi now other d
  case phase => exact fun other message _ => index_onPhase hi p.root now other message
  case exited =>
    intro other _
    simp [onExit_store, hi, ProjectIndex.absorb]

theorem index_handleAll (hp : w.workspace.project? id = some p)
    (hi : w.store.projects.get? id = some i) (now : Nat) (es : List SessionEvent) :
    (es.foldl (fun w e => w.handle now e) w).store.projects.get? id =
      some ((es.filter (·.project = id)).foldl (ProjectIndex.absorb p.root) i) := by
  induction es generalizing w i with
  | nil => exact hi
  | cons e es ih =>
      have workspace : (w.handle now e).workspace = w.workspace :=
        congrArg Prod.fst (handle_setup w now e)
      have step := index_handle hp hi now e
      rw [List.foldl_cons, ih (workspace ▸ hp) step, List.filter_cons]
      by_cases own : e.project = id
      · simp [own]
      · simp [own]

/-- What one operation makes of the buckets of a project. -/
theorem index_perform (hp : w.workspace.project? id = some p)
    (hi : w.store.projects.get? id = some i) (now : Nat) {op : Operation}
    (keeps : op.clears = false) :
    (w.perform now op).2.store.projects.get? id =
      some (((w.taken op).filter (·.project = id)).foldl (ProjectIndex.absorb p.root) i) := by
  -- An operation that takes one event, and one that takes none.
  have one {v : Watcher} {e : SessionEvent} (h : v.store.projects.get? id =
      some (if e.project = id then i.absorb p.root e else i)) :
      v.store.projects.get? id =
        some (([e].filter (·.project = id)).foldl (ProjectIndex.absorb p.root) i) := by
    rw [h]
    by_cases own : e.project = id <;> simp [own]
  have none {v : Watcher} (h : v.store = w.store) :
      v.store.projects.get? id =
        some ((([] : List SessionEvent).filter (·.project = id)).foldl
          (ProjectIndex.absorb p.root) i) := by
    rw [h, hi]
    rfl
  cases op with
  | start => exact none (start_store w)
  | stop => exact none (stop_store w)
  | diagnostic other d =>
      exact one (e := .diagnostic other d) (index_onDiagnostic hp hi now other d)
  | phase other message =>
      exact one (e := .phase other message) (index_onPhase hi p.root now other message)
  | exit other => exact one (e := .exited other) (by simp [perform, hi, ProjectIndex.absorb])
  | event e => exact one (index_handle hp hi now e)
  | drainQueue => exact index_handleAll (w := { w with queue := [] }) hp hi now w.queue
  | file path => exact none (fileDiagnostics_store w now path)
  | hasErrors path =>
      cases path with
      | none => exact none rfl
      | some path => exact none (lookupFile_store w now path)
  | clearFile | clearAll => cases keeps
  | _ => exact none rfl

/-- What a run makes of the buckets of a project. -/
theorem index_after (hp : w.workspace.project? id = some p)
    (hi : w.store.projects.get? id = some i) {ops : List (Nat × Operation)}
    (keeps : ∀ timed ∈ ops, timed.2.clears = false) :
    (w.after ops).store.projects.get? id =
      some (((w.takenAll ops).filter (·.project = id)).foldl (ProjectIndex.absorb p.root) i) := by
  induction ops generalizing w i with
  | nil => exact hi
  | cons timed ops ih =>
      have workspace : (w.performAt timed).2.workspace = w.workspace :=
        congrArg Prod.fst (perform_setup w timed.1 timed.2)
      have step := index_perform hp hi timed.1 (keeps timed List.mem_cons_self)
      have rest := ih (workspace ▸ hp) step fun timed h => keeps timed (List.mem_cons_of_mem _ h)
      rw [takenAll, List.filter_append, List.foldl_append]
      exact rest

end Index

end Watcher

end DiagnosticWatch
