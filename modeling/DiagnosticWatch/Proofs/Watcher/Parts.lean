import DiagnosticWatch.Proofs.Watcher.Frame

/-!
# What an operation leaves alone

An operation works either on the sessions of a watcher or on its diagnostics. Starting and stopping
change sessions only; taking a diagnostic, looking a file up and clearing change diagnostics only.
The end of a session changes both, and the end of a pass is told to the subscribers on top of that.
None of them takes anything in from outside (`Watcher.intake`).
-/

namespace DiagnosticWatch

/-- Everything that a watcher keeps about its sessions. -/
structure Desk where
  sessions : Table String WatchSession
  states : Table String ProjectState
  lifecycle : Lifecycle
  attempts : Nat
  journal : List JournalEntry

namespace Watcher

def desk (w : Watcher) : Desk :=
  { sessions := w.sessions
    states := w.states
    lifecycle := w.lifecycle
    attempts := w.attempts
    journal := w.journal }

/-- What reaches a watcher from outside: the events of its queue, and how many have subscribed. -/
def intake (w : Watcher) : List SessionEvent × Nat :=
  (w.queue, w.subscriptions)

/-- The same diagnostics with other sessions. -/
def withDesk (w : Watcher) (k : Desk) : Watcher :=
  { w with
    sessions := k.sessions
    states := k.states
    lifecycle := k.lifecycle
    attempts := k.attempts
    journal := k.journal }

/-- At most the sessions have changed. -/
def OnlySessions (w v : Watcher) : Prop :=
  v = w.withDesk v.desk

/-- At most the diagnostics have changed. -/
def OnlyData (w v : Watcher) : Prop :=
  v = w.withData v.store v.cache v.staged

variable {u v w : Watcher}

namespace OnlySessions

theorem trans (h : w.OnlySessions v) (h' : v.OnlySessions u) : w.OnlySessions u := by
  calc
    u = v.withDesk u.desk := h'
    _ = (w.withDesk v.desk).withDesk u.desk := congrArg (fun x : Watcher => x.withDesk u.desk) h
    _ = w.withDesk u.desk := rfl

theorem subscribers (h : w.OnlySessions v) : v.subscribers = w.subscribers := by
  rw [h]
  rfl

theorem intake (h : w.OnlySessions v) : v.intake = w.intake := by
  rw [h]
  rfl

end OnlySessions

namespace OnlyData

theorem desk (h : w.OnlyData v) : v.desk = w.desk := by
  rw [h]
  rfl

theorem subscribers (h : w.OnlyData v) : v.subscribers = w.subscribers := by
  rw [h]
  rfl

theorem intake (h : w.OnlyData v) : v.intake = w.intake := by
  rw [h]
  rfl

end OnlyData

theorem startProject_onlySessions (w : Watcher) (p : Project) :
    w.OnlySessions (w.startProject p) := by
  rw [startProject]
  split
  · rfl
  · split
    · rfl
    · simp only [openSession]
      split <;> rfl

theorem startProjects_onlySessions (w : Watcher) (ps : List Project) :
    w.OnlySessions (ps.foldl startProject w) := by
  induction ps generalizing w with
  | nil => rfl
  | cons p ps ih => exact (startProject_onlySessions w p).trans (ih _)

theorem start_onlySessions (w : Watcher) : w.OnlySessions w.start.2 := by
  by_cases active : w.lifecycle = .active
  · simp only [start, if_pos active]
    rfl
  · simp only [start, if_neg active]
    have activated : w.OnlySessions { w with lifecycle := .active } := rfl
    exact activated.trans (startProjects_onlySessions _ _)

theorem closeSessions_onlySessions (w : Watcher) (sessions : List (String × WatchSession)) :
    w.OnlySessions
      (sessions.foldl (fun w (id, s) => (w.closeSession s).setState id .stopped) w) := by
  induction sessions generalizing w with
  | nil => rfl
  | cons s sessions ih =>
      have closed : w.OnlySessions ((w.closeSession s.2).setState s.1 .stopped) := rfl
      exact closed.trans (ih _)

theorem stop_onlySessions (w : Watcher) : w.OnlySessions w.stop := by
  rw [stop]
  split
  · rfl
  · exact (closeSessions_onlySessions w w.sessions.entries).trans rfl

theorem flush_onlyData (w : Watcher) (now : Nat) : w.OnlyData (w.flush now) := by
  rw [flush_eq_withData]
  rfl

theorem onDiagnostic_onlyData (w : Watcher) (now : Nat) (id : String) (d : Diagnostic) :
    w.OnlyData (w.onDiagnostic now id d) := by
  cases hp : w.workspace.project? id with
  | none =>
      rw [onDiagnostic_of_unknown hp]
      rfl
  | some p =>
      rw [onDiagnostic_of_known hp, stage_eq_withData]
      rfl

theorem lookupFile_onlyData (w : Watcher) (now : Nat) (path : Path) :
    w.OnlyData (w.lookupFile now path).2 := by
  simp only [lookupFile]
  rw [flush_eq_withData]
  rfl

theorem clearFile_onlyData (w : Watcher) (now : Nat) (path : Path) :
    w.OnlyData (w.clearFile now path).2 := by
  simp only [clearFile]
  rw [flush_eq_withData]
  rfl

/-- A query for a file writes out what is staged and uses the cache. -/
theorem perform_file_onlyData (w : Watcher) (now : Nat) (path : Path) :
    w.OnlyData (w.perform now (.file path)).2 := by
  rw [perform, Prod.map, fileDiagnostics_snd]
  exact lookupFile_onlyData w now path

theorem perform_hasErrors_onlyData (w : Watcher) (now : Nat) (path : Option Path) :
    w.OnlyData (w.perform now (.hasErrors path)).2 := by
  cases path with
  | none => rfl
  | some path => exact lookupFile_onlyData w now path

theorem completePass_desk (w : Watcher) (now : Nat) (id : String) :
    (w.completePass now id).desk = w.desk := by
  simp only [completePass]
  split <;> exact (flush_onlyData w now).desk

theorem onPhase_desk (w : Watcher) (now : Nat) (id message : String) :
    (w.onPhase now id message).desk = w.desk := by
  rw [onPhase]
  split
  · rfl
  · exact completePass_desk w now id
  · rfl

theorem completePass_intake (w : Watcher) (now : Nat) (id : String) :
    (w.completePass now id).intake = w.intake := by
  simp only [completePass]
  split <;> exact (flush_onlyData w now).intake

theorem onPhase_intake (w : Watcher) (now : Nat) (id message : String) :
    (w.onPhase now id message).intake = w.intake := by
  rw [onPhase]
  split
  · rfl
  · exact completePass_intake w now id
  · rfl

theorem onExit_of_closed {id : String} (h : w.sessions.get? id = none) (now : Nat) :
    w.onExit now id = w := by
  rw [onExit, h]

/-- The session leaves the table and is closed, and its project is in error. -/
theorem onExit_desk {id : String} {s : WatchSession} (h : w.sessions.get? id = some s)
    (now : Nat) :
    (w.onExit now id).desk =
      { w.desk with
        sessions := w.sessions.erase id
        states := w.states.insert id .error
        journal :=
          .closed s.serial s.project (w.launcher.closesCleanly s.serial) :: w.journal } := by
  simp only [onExit, h]
  rw [flush_eq_withData]
  rfl

theorem onExit_subscribers (w : Watcher) (now : Nat) (id : String) :
    (w.onExit now id).subscribers = w.subscribers := by
  rw [onExit]
  split
  · rfl
  · exact (flush_onlyData _ now).subscribers

theorem onExit_intake (w : Watcher) (now : Nat) (id : String) :
    (w.onExit now id).intake = w.intake := by
  rw [onExit]
  split
  · rfl
  · exact (flush_onlyData _ now).intake

theorem handle_intake (w : Watcher) (now : Nat) (e : SessionEvent) :
    (w.handle now e).intake = w.intake := by
  refine handle_cases ?unknown ?diagnostic ?phase ?exited e
  case unknown => exact fun _ _ => rfl
  case diagnostic => exact fun id d _ => (onDiagnostic_onlyData w now id d).intake
  case phase => exact fun id message _ => onPhase_intake w now id message
  case exited => exact fun id _ => onExit_intake w now id

/-- No event stops a watcher or sets it to work. -/
theorem handle_lifecycle (w : Watcher) (now : Nat) (e : SessionEvent) :
    (w.handle now e).lifecycle = w.lifecycle := by
  refine handle_cases ?unknown ?diagnostic ?phase ?exited e
  case unknown => exact fun _ _ => rfl
  case diagnostic =>
    exact fun id d _ => congrArg Desk.lifecycle (onDiagnostic_onlyData w now id d).desk
  case phase => exact fun id message _ => congrArg Desk.lifecycle (onPhase_desk w now id message)
  case exited =>
    intro id _
    cases hs : w.sessions.get? id with
    | none => exact congrArg Watcher.lifecycle (onExit_of_closed hs now)
    | some s => exact congrArg Desk.lifecycle (onExit_desk hs now)

end Watcher

end DiagnosticWatch
