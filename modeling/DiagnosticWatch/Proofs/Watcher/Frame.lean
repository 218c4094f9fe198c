import DiagnosticWatch.Proofs.Run
import DiagnosticWatch.Watcher.Basic

/-!
# Sessions and diagnostics are apart

A watcher keeps sessions on the one side and diagnostics on the other: the store, the cache and the
staged bucket. Opening and closing sessions neither looks at the diagnostics nor changes them, which
is said once, by exchanging them.
-/

namespace DiagnosticWatch

/-- A diagnostic with its file in normal form below a root. -/
def Diagnostic.within (d : Diagnostic) (root : Path) : Diagnostic :=
  { d with file := d.file.normalize root }

namespace Watcher

variable {w : Watcher}

/-- The same sessions with other diagnostics. -/
def withData (w : Watcher) (store : Store) (cache : Cache) (staged : Option Staged) : Watcher :=
  { w with store, cache, staged }

def performAt (w : Watcher) (timed : Nat × Operation) : Answer × Watcher :=
  w.perform timed.1 timed.2

/-- The watcher behind some operations, each at its time. -/
def after (w : Watcher) (ops : List (Nat × Operation)) : Watcher :=
  (runAll performAt ops w).2

/-- A watcher that nobody has used: as created, or with an empty cache of another capacity and
lifetime put in. -/
def fresh (workspace : Workspace) (config : WatchConfig) (launcher : Launcher)
    (size : Option (Nat × Nat)) : Watcher :=
  match size with
  | none => create workspace config launcher
  | some (capacity, lifetime) =>
    (create workspace config launcher).withCache (.create capacity lifetime)

section Sessions

variable (w : Watcher) (store : Store) (cache : Cache) (staged : Option Staged)

@[simp] theorem withData_workspace : (w.withData store cache staged).workspace = w.workspace := rfl
@[simp] theorem withData_filter : (w.withData store cache staged).filter = w.filter := rfl
@[simp] theorem withData_launcher : (w.withData store cache staged).launcher = w.launcher := rfl
@[simp] theorem withData_sessions : (w.withData store cache staged).sessions = w.sessions := rfl
@[simp] theorem withData_attempts : (w.withData store cache staged).attempts = w.attempts := rfl

theorem setState_withData (id : String) (state : ProjectState) :
    (w.withData store cache staged).setState id state =
      (w.setState id state).withData store cache staged := rfl

theorem openSession_withData (p : Project) :
    (w.withData store cache staged).openSession p =
      (w.openSession p).withData store cache staged := by
  unfold openSession
  simp only [withData_attempts, setState_withData]
  cases h : w.launcher.attempt w.attempts p <;> simp only [h, setState, withData] <;> rfl

theorem startProject_withData (p : Project) :
    (w.withData store cache staged).startProject p =
      (w.startProject p).withData store cache staged := by
  unfold startProject
  simp only [withData_filter, withData_launcher, setState_withData, openSession_withData]
  split
  · rfl
  · split <;> rfl

theorem startProjects_withData (ps : List Project) :
    ps.foldl startProject (w.withData store cache staged) =
      (ps.foldl startProject w).withData store cache staged := by
  induction ps generalizing w with
  | nil => rfl
  | cons p ps ih => rw [List.foldl_cons, startProject_withData, ih, List.foldl_cons]

/-- Starting neither reads nor writes diagnostics. -/
theorem start_withData :
    (w.withData store cache staged).start =
      (w.start.1, w.start.2.withData store cache staged) := by
  by_cases active : w.lifecycle = .active
  · have active' : (w.withData store cache staged).lifecycle = .active := active
    simp only [start, if_pos active, if_pos active', withData_sessions]
  · have inactive' : (w.withData store cache staged).lifecycle ≠ .active := active
    have opened := startProjects_withData { w with lifecycle := .active } store cache staged
      w.workspace.projects
    simp only [start, if_neg active, if_neg inactive', withData_workspace]
    exact congrArg (fun w : Watcher => (w.sessions.size, w)) opened

theorem closeSessions_withData (sessions : List (String × WatchSession)) :
    sessions.foldl (fun w (id, s) => (w.closeSession s).setState id .stopped)
        (w.withData store cache staged) =
      (sessions.foldl (fun w (id, s) => (w.closeSession s).setState id .stopped) w).withData
        store cache staged := by
  induction sessions generalizing w with
  | nil => rfl
  | cons s sessions ih => exact ih ((w.closeSession s.2).setState s.1 .stopped)

/-- Stopping neither reads nor writes diagnostics. -/
theorem stop_withData :
    (w.withData store cache staged).stop = w.stop.withData store cache staged := by
  by_cases idle : w.lifecycle ≠ .active ∧ w.sessions.isEmpty = true
  · have idle' : (w.withData store cache staged).lifecycle ≠ .active ∧
        (w.withData store cache staged).sessions.isEmpty = true := idle
    rw [stop, stop, if_pos idle, if_pos idle']
  · have busy' : ¬((w.withData store cache staged).lifecycle ≠ .active ∧
        (w.withData store cache staged).sessions.isEmpty = true) := idle
    have closed := closeSessions_withData w store cache staged w.sessions.entries
    rw [stop, stop, if_neg idle, if_neg busy']
    exact congrArg (fun w : Watcher => { w with sessions := .empty, lifecycle := .stopped }) closed

/-- Starting leaves the diagnostics as they are. -/
theorem start_data : w.start.2.withData w.store w.cache w.staged = w.start.2 :=
  (congrArg Prod.snd (start_withData w w.store w.cache w.staged)).symm

/-- Stopping leaves the diagnostics as they are. -/
theorem stop_data : w.stop.withData w.store w.cache w.staged = w.stop :=
  (stop_withData w w.store w.cache w.staged).symm

theorem start_store : w.start.2.store = w.store := by
  rw [← start_data]
  rfl

theorem stop_store : w.stop.store = w.store := by
  rw [← stop_data]
  rfl

end Sessions

@[simp] theorem flush_store (w : Watcher) (now : Nat) : (w.flush now).store = w.store := by
  rw [flush]
  split
  · rfl
  · simp only
    split <;> rfl

theorem flush_staged (w : Watcher) (now : Nat) : (w.flush now).staged = none := by
  rw [flush]
  split
  · assumption
  · simp only
    split <;> rfl

theorem flush_staged_ne_some (w : Watcher) (now : Nat) (b : Staged) :
    (w.flush now).staged ≠ some b := by
  rw [flush_staged]
  simp

theorem flush_of_unstaged (h : w.staged = none) (now : Nat) : w.flush now = w := by
  rw [flush, h]

theorem flush_cache_of_staged {b : Staged} {bucket : List Diagnostic} (hb : w.staged = some b)
    (hbucket : w.store.file? b.project b.file = some bucket) (now : Nat) :
    (w.flush now).cache = w.cache.set now b.project b.file bucket := by
  simp only [flush, hb, hbucket]

/-- A flush changes the cache and the staged bucket only. -/
theorem flush_eq_withData (w : Watcher) (now : Nat) :
    w.flush now = w.withData w.store (w.flush now).cache none := by
  rw [flush]
  split
  · rename_i hb
    rw [withData, ← hb]
  · simp only
    split <;> rfl

theorem isStaged_iff {id : String} {file : Path} :
    w.isStaged id file = true ↔
      ∃ b, w.staged = some b ∧ b.project = id ∧ b.file.location = file.location := by
  cases hb : w.staged <;> simp [isStaged, hb, Path.same]

/-- Staging changes the cache and the staged bucket only. -/
theorem stage_eq_withData (w : Watcher) (now : Nat) (id : String) (file : Path) :
    w.stage now id file =
      w.withData w.store (w.stage now id file).cache (w.stage now id file).staged := by
  rw [stage]
  split
  · rfl
  · simp only
    rw [flush_eq_withData]
    rfl

@[simp] theorem lookupFile_store (w : Watcher) (now : Nat) (path : Path) :
    (w.lookupFile now path).2.store = w.store :=
  flush_store w now

theorem fileDiagnostics_snd (w : Watcher) (now : Nat) (path : Path) :
    (w.fileDiagnostics now path).2 = (w.lookupFile now path).2 := by
  rw [fileDiagnostics]
  cases w.lookupFile now path with
  | mk found v => cases found <;> rfl

@[simp] theorem fileDiagnostics_store (w : Watcher) (now : Nat) (path : Path) :
    (w.fileDiagnostics now path).2.store = w.store := by
  rw [fileDiagnostics_snd, lookupFile_store]

@[simp] theorem onExit_store (w : Watcher) (now : Nat) (id : String) :
    (w.onExit now id).store = w.store := by
  rw [onExit]
  split
  · rfl
  · exact flush_store _ now

theorem onDiagnostic_of_unknown {id : String} (h : w.workspace.project? id = none) (now : Nat)
    (d : Diagnostic) : w.onDiagnostic now id d = w := by
  simp only [onDiagnostic, h]

theorem onDiagnostic_of_known {id : String} {p : Project} (h : w.workspace.project? id = some p)
    (now : Nat) (d : Diagnostic) :
    w.onDiagnostic now id d =
      { w.stage now id (d.within p.root).file with
        store := (w.store.insert id (d.within p.root)).2 } := by
  have store : (w.stage now id (d.within p.root).file).store = w.store := by
    rw [stage_eq_withData]
    rfl
  rw [← store]
  simp only [onDiagnostic, h]
  rfl

theorem completePass_of_unknown {id : String} (h : w.store.projects.get? id = none) (now : Nat) :
    w.completePass now id = w.flush now := by
  simp only [completePass, flush_store, Store.completePass, h, Option.map_none]

theorem completePass_of_known {id : String} {i : ProjectIndex}
    (h : w.store.projects.get? id = some i) (now : Nat) :
    w.completePass now id =
      let v := { w.flush now with store := (w.store.completePass id).2 }.uncache id i.completePass.1
      { v with lastCompilation := some now }.publish
        ({ v with lastCompilation := some now }.summary now id) := by
  simp only [completePass, flush_store, Store.completePass, h, Option.map_some]

def setup (w : Watcher) : Workspace × IgnoreFilter × Launcher :=
  (w.workspace, w.filter, w.launcher)

theorem startProject_setup (w : Watcher) (p : Project) : (w.startProject p).setup = w.setup := by
  rw [startProject]
  split
  · rfl
  · split
    · rfl
    · simp only [openSession]
      split <;> rfl

theorem startProjects_setup (w : Watcher) (ps : List Project) :
    (ps.foldl startProject w).setup = w.setup := by
  induction ps generalizing w with
  | nil => rfl
  | cons p ps ih => rw [List.foldl_cons, ih, startProject_setup]

theorem start_setup (w : Watcher) : w.start.2.setup = w.setup := by
  by_cases active : w.lifecycle = .active
  · simp only [start, if_pos active]
  · simp only [start, if_neg active]
    exact startProjects_setup _ _

theorem closeSessions_setup (w : Watcher) (sessions : List (String × WatchSession)) :
    (sessions.foldl (fun w (id, s) => (w.closeSession s).setState id .stopped) w).setup =
      w.setup := by
  induction sessions generalizing w with
  | nil => rfl
  | cons s sessions ih => exact ih _

theorem stop_setup (w : Watcher) : w.stop.setup = w.setup := by
  rw [stop]
  split
  · rfl
  · exact closeSessions_setup w w.sessions.entries

theorem flush_setup (w : Watcher) (now : Nat) : (w.flush now).setup = w.setup := by
  rw [flush]
  split
  · rfl
  · simp only
    split <;> rfl

theorem onDiagnostic_setup (w : Watcher) (now : Nat) (id : String) (d : Diagnostic) :
    (w.onDiagnostic now id d).setup = w.setup := by
  rw [onDiagnostic]
  split
  · rfl
  · simp only [stage]
    split
    · rfl
    · exact flush_setup w now

theorem completePass_setup (w : Watcher) (now : Nat) (id : String) :
    (w.completePass now id).setup = w.setup := by
  simp only [completePass]
  split
  · exact flush_setup w now
  · exact flush_setup w now

theorem onPhase_setup (w : Watcher) (now : Nat) (id message : String) :
    (w.onPhase now id message).setup = w.setup := by
  rw [onPhase]
  split
  · rfl
  · exact completePass_setup w now id
  · rfl

theorem onExit_setup (w : Watcher) (now : Nat) (id : String) :
    (w.onExit now id).setup = w.setup := by
  rw [onExit]
  split
  · rfl
  · exact flush_setup _ now

/-- An event of an unknown project is passed over, any other one is handled by what it is. -/
@[elab_as_elim]
theorem handle_cases {now : Nat} {motive : SessionEvent → Watcher → Prop}
    (unknown : ∀ e, w.store.projects.get? e.project = none → motive e w)
    (diagnostic : ∀ id d, w.store.contains id = true →
      motive (.diagnostic id d) (w.onDiagnostic now id d))
    (phase : ∀ id message, w.store.contains id = true →
      motive (.phase id message) (w.onPhase now id message))
    (exited : ∀ id, w.store.contains id = true → motive (.exited id) (w.onExit now id))
    (e : SessionEvent) : motive e (w.handle now e) := by
  unfold handle
  cases known : w.store.contains e.project with
  | false => exact unknown e (Option.not_isSome_iff_eq_none.1 (Bool.eq_false_iff.1 known))
  | true =>
      cases e with
      | diagnostic id d => exact diagnostic id d known
      | phase id message => exact phase id message known
      | exited id => exact exited id known

theorem handle_setup (w : Watcher) (now : Nat) (e : SessionEvent) :
    (w.handle now e).setup = w.setup := by
  refine handle_cases ?unknown ?diagnostic ?phase ?exited e
  case unknown => exact fun _ _ => rfl
  case diagnostic => exact fun id d _ => onDiagnostic_setup w now id d
  case phase => exact fun id message _ => onPhase_setup w now id message
  case exited => exact fun id _ => onExit_setup w now id

/-- What every event keeps, a queue of events keeps. -/
theorem handleAll_preserves {P : Watcher → Prop} {now : Nat}
    (keep : ∀ v e, P v → P (v.handle now e)) (es : List SessionEvent) {v : Watcher} (h : P v) :
    P (es.foldl (fun w e => w.handle now e) v) := by
  induction es generalizing v with
  | nil => exact h
  | cons e es ih => exact ih (keep v e h)

theorem lookupFile_setup (w : Watcher) (now : Nat) (path : Path) :
    (w.lookupFile now path).2.setup = w.setup :=
  flush_setup w now

/-- No operation changes the workspace, the filter or the launcher. -/
theorem perform_setup (w : Watcher) (now : Nat) (op : Operation) :
    (w.perform now op).2.setup = w.setup := by
  cases op with
  | start => exact start_setup w
  | stop => exact stop_setup w
  | diagnostic id d => exact onDiagnostic_setup w now id d
  | phase id message => exact onPhase_setup w now id message
  | exit id => exact onExit_setup w now id
  | event e => exact handle_setup w now e
  | drainQueue =>
      have keep (v : Watcher) (e : SessionEvent) (h : v.setup = w.setup) :
          (v.handle now e).setup = w.setup :=
        (handle_setup v now e).trans h
      exact handleAll_preserves keep w.queue rfl
  | file path =>
      simp only [perform, Prod.map, fileDiagnostics_snd, id]
      exact lookupFile_setup w now path
  | hasErrors path =>
      cases path with
      | none => rfl
      | some path => exact lookupFile_setup w now path
  | clearFile path => exact flush_setup w now
  | _ => rfl

theorem after_workspace (w : Watcher) (ops : List (Nat × Operation)) :
    (w.after ops).workspace = w.workspace := by
  have keep (v : Watcher) (timed : Nat × Operation) (h : v.setup = w.setup) :
      (v.performAt timed).2.setup = w.setup :=
    (perform_setup v timed.1 timed.2).trans h
  exact congrArg Prod.fst (runAll_preserves keep ops rfl)

def soloProject : Project :=
  { id := "app", name := "app", root := ⟨"/w"⟩, configPath := ⟨"/w/tsconfig.json"⟩ }

def soloWorkspace : Workspace :=
  { root := ⟨"/w"⟩, kind := .single, projects := [soloProject] }

def pairWorkspace : Workspace :=
  let project (id : String) : Project :=
    { id, name := id, root := ⟨"/w/" ++ id⟩, configPath := ⟨"/w/" ++ id ++ "/tsconfig.json"⟩ }
  { root := ⟨"/w"⟩, kind := .npm, projects := [project "app", project "lib"] }

def willing : Launcher :=
  { hasConfig := fun _ => true, attempt := fun _ _ => .ok 1, closesCleanly := fun _ => true }

/-- An error that the compiler of the project reports for a file. -/
def soloError (file : String) (code : UInt32) : SessionEvent :=
  .diagnostic "app"
    { file := ⟨file⟩, line := 1, column := 1, category := .error, code, message := "" }

/-- A diagnostic that the compiler of some project reports for a file. -/
def reportOf (project : String) (category : Category) (file : String) (code : UInt32) :
    SessionEvent :=
  .diagnostic project { file := ⟨file⟩, line := 1, column := 1, category, code, message := "" }

end Watcher

end DiagnosticWatch
