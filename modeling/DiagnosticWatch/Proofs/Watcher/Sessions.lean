import DiagnosticWatch.Proofs.Watcher.Coherence
import DiagnosticWatch.Proofs.Watcher.Parts

/-!
# Every session is accounted for

The journal tells which sessions were opened and which were closed, and a session is known by the
number of the attempt that opened it. The account of a session balances: it was opened as often as
the table lists it and it was closed, taken together (`Desk.Accounted`). Opening moves one side by
one listing, and closing turns a listing into a closing, however the session takes it. As no attempt
has a number twice, nothing is opened twice, so an open session has never been closed and every
other one was closed once.
-/

namespace DiagnosticWatch

namespace JournalEntry

def opens (serial : Nat) : JournalEntry → Bool
  | opened n _ => n = serial
  | _ => false

/-- Whether the session of an attempt was closed here, with or without complaint. -/
def closes (serial : Nat) : JournalEntry → Bool
  | closed n _ _ => n = serial
  | _ => false

end JournalEntry

namespace Desk

variable {k : Desk} {id : String} {n : Nat}

def openings (k : Desk) (serial : Nat) : Nat :=
  k.journal.countP (·.opens serial)

/-- How often the session of an attempt was closed. -/
def closings (k : Desk) (serial : Nat) : Nat :=
  k.journal.countP (·.closes serial)

def listings (k : Desk) (serial : Nat) : Nat :=
  k.sessions.entries.countP fun e => e.2.serial = serial

/-- The projects with a session are the watched ones, none is left starting, and the account of
every session balances. -/
structure Accounted (k : Desk) : Prop where
  watching : ∀ id, k.sessions.contains id = true ↔ k.states.get? id = some .watching
  settled : ∀ id, k.states.get? id ≠ some .starting
  balanced : ∀ n, k.openings n = k.listings n + k.closings n
  single : ∀ n, k.openings n ≤ 1
  numbered : ∀ n, k.attempts ≤ n → k.openings n = 0

/-- A desk between two operations. Without an active watcher there is no session. -/
structure Orderly (k : Desk) : Prop extends Accounted k where
  resting : k.lifecycle ≠ .active → k.sessions = .empty

theorem watching_iff (h : k.Accounted) :
    k.states.get? id = some .watching ↔ ∃ s, k.sessions.get? id = some s := by
  rw [← h.watching, Table.contains, Option.isSome_iff_exists]

namespace Accounted

/-- A project without session gets another state than that of a watched one. -/
theorem setState (h : k.Accounted) (id : String) (closed : k.sessions.get? id = none)
    {state : ProjectState} (unwatched : state ≠ .watching) (settled : state ≠ .starting) :
    { k with states := k.states.insert id state }.Accounted where
  watching := by
    intro other
    rw [h.watching, Table.get?_insert]
    split
    · rename_i same
      subst same
      have absent : k.states.get? id ≠ some .watching := by
        rw [ne_eq, watching_iff h, closed]
        simp
      simp [absent, unwatched]
    · rfl
  settled := by
    intro other
    rw [Table.get?_insert]
    split
    · simpa using settled
    · exact h.settled other
  balanced := h.balanced
  single := h.single
  numbered := h.numbered

/-- An attempt that fails takes a number and nothing else. -/
theorem fail (h : k.Accounted) (p : Project) :
    { k with attempts := k.attempts + 1
             journal := .failed k.attempts p :: k.journal }.Accounted where
  watching := h.watching
  settled := h.settled
  balanced := by
    intro n
    simpa [openings, closings, listings, JournalEntry.opens, JournalEntry.closes] using h.balanced n
  single := by
    intro n
    simpa [openings, JournalEntry.opens] using h.single n
  numbered := by
    intro n past
    have before := h.numbered n (by simp only at past; omega)
    simpa [openings, JournalEntry.opens] using before

/-- An attempt that succeeds adds one opening and one listing. -/
theorem enter (h : k.Accounted) {p : Project} (closed : k.sessions.get? p.id = none)
    (files : Nat) :
    { k with sessions := k.sessions.insert p.id { serial := k.attempts, project := p, files }
             states := k.states.insert p.id .watching
             attempts := k.attempts + 1
             journal := .opened k.attempts p :: k.journal }.Accounted where
  watching := by
    intro other
    have before := h.watching other
    rw [Table.contains] at before ⊢
    rw [Table.get?_insert, Table.get?_insert]
    by_cases same : p.id = other
    · simp [same]
    · simpa [same] using before
  settled := by
    intro other
    rw [Table.get?_insert]
    split
    · simp
    · exact h.settled other
  balanced := by
    intro n
    have before := h.balanced n
    have listed := (Table.entries_insert_perm closed
      { serial := k.attempts, project := p, files : WatchSession }).countP_eq
        fun e => e.2.serial = n
    simp only [openings, closings, listings, List.countP_cons, JournalEntry.opens,
      JournalEntry.closes] at before listed ⊢
    rw [listed]
    simp only [Bool.false_eq_true, if_false]
    omega
  single := by
    intro n
    have before := h.single n
    have unused := h.numbered n
    simp only [openings, List.countP_cons, JournalEntry.opens, decide_eq_true_eq] at before unused ⊢
    split
    · rename_i same
      have none := unused (Nat.le_of_eq same)
      omega
    · omega
  numbered := by
    intro n past
    simp only at past
    have before := h.numbered n (by omega)
    simp only [openings, List.countP_cons, JournalEntry.opens, decide_eq_true_eq] at before ⊢
    rw [if_neg (by omega)]
    omega

/-- A session that leaves the table is closed: one listing becomes one closing. -/
theorem leave (h : k.Accounted) {s : WatchSession} (listed : k.sessions.get? id = some s)
    (cleanly : Bool) :
    { k with sessions := k.sessions.erase id
             states := k.states.insert id .error
             journal := .closed s.serial s.project cleanly :: k.journal }.Accounted where
  watching := by
    intro other
    have before := h.watching other
    rw [Table.contains] at before ⊢
    rw [Table.get?_erase, Table.get?_insert]
    by_cases same : other = id
    · simp [same]
    · simpa [same, Ne.symm same] using before
  settled := by
    intro other
    rw [Table.get?_insert]
    split
    · simp
    · exact h.settled other
  balanced := by
    intro n
    have before := h.balanced n
    have fewer := (Table.entries_erase_perm listed).countP_eq fun e => e.2.serial = n
    simp only [openings, closings, listings, List.countP_cons, JournalEntry.opens,
      JournalEntry.closes] at before fewer ⊢
    rw [fewer] at before
    simp only [Bool.false_eq_true, if_false]
    omega
  single := h.single
  numbered := h.numbered

end Accounted

end Desk

namespace Watcher

variable {w : Watcher}

theorem openSession_desk (w : Watcher) (p : Project) :
    (w.openSession p).desk =
      match w.launcher.attempt w.attempts p with
      | .ok files =>
        { w.desk with
          sessions := w.sessions.insert p.id { serial := w.attempts, project := p, files }
          states := (w.states.insert p.id .starting).insert p.id .watching
          attempts := w.attempts + 1
          journal := .opened w.attempts p :: w.journal }
      | .error _ =>
        { w.desk with
          states := (w.states.insert p.id .starting).insert p.id .error
          attempts := w.attempts + 1
          journal := .failed w.attempts p :: w.journal } := by
  unfold openSession
  cases h : w.launcher.attempt w.attempts p <;> simp only [setState, h] <;> rfl

/-- The state in between is not seen. -/
theorem states_settle (states : Table String ProjectState) (id : String) (state : ProjectState) :
    (states.insert id .starting).insert id state = states.insert id state := by
  apply Table.ext_get?
  intro other
  rw [Table.get?_insert, Table.get?_insert, Table.get?_insert]
  split <;> rfl

theorem accounted_openSession (h : w.desk.Accounted) {p : Project}
    (closed : w.sessions.get? p.id = none) : (w.openSession p).desk.Accounted := by
  rw [openSession_desk]
  split
  · rw [states_settle]
    exact h.enter closed _
  · rw [states_settle]
    exact (h.fail p).setState p.id closed (by decide) (by decide)

theorem accounted_startProject (h : w.desk.Accounted) {p : Project}
    (closed : w.sessions.get? p.id = none) : (w.startProject p).desk.Accounted := by
  rw [startProject]
  split
  · exact h
  · split
    · exact h.setState p.id closed (by decide) (by decide)
    · exact accounted_openSession h closed

theorem startProject_lifecycle (w : Watcher) (p : Project) :
    (w.startProject p).lifecycle = w.lifecycle := by
  rw [startProject]
  split
  · rfl
  · split
    · rfl
    · simp only [openSession]
      split <;> rfl

/-- Starting a project leaves the sessions of all others alone. -/
theorem startProject_get?_of_ne (w : Watcher) {p : Project} {id : String} (other : p.id ≠ id) :
    (w.startProject p).sessions.get? id = w.sessions.get? id := by
  rw [startProject]
  split
  · rfl
  · split
    · rfl
    · simp only [openSession]
      split
      · simp [setState, note, Table.get?_insert, other]
      · rfl

theorem startProjects_lifecycle (w : Watcher) (ps : List Project) :
    (ps.foldl startProject w).lifecycle = w.lifecycle := by
  induction ps generalizing w with
  | nil => rfl
  | cons p ps ih => exact (ih _).trans (startProject_lifecycle w p)

theorem accounted_startProjects {ps : List Project} (distinct : (ps.map (·.id)).Nodup)
    (h : w.desk.Accounted) (closed : ∀ p ∈ ps, w.sessions.get? p.id = none) :
    (ps.foldl startProject w).desk.Accounted := by
  induction ps generalizing w with
  | nil => exact h
  | cons p ps ih =>
      obtain ⟨fresh, distinct⟩ := List.nodup_cons.1 distinct
      apply ih distinct
      · exact accounted_startProject h (closed p List.mem_cons_self)
      · intro q hq
        have other : p.id ≠ q.id := fun same => fresh (List.mem_map.2 ⟨q, hq, same.symm⟩)
        rw [startProject_get?_of_ne w other]
        exact closed q (List.mem_cons_of_mem _ hq)

theorem orderly_start (distinct : (w.workspace.projects.map (·.id)).Nodup)
    (h : w.desk.Orderly) : w.start.2.desk.Orderly := by
  by_cases active : w.lifecycle = .active
  · simp only [start, if_pos active]
    exact h
  · simp only [start, if_neg active]
    have empty : w.sessions = .empty := h.resting active
    have activated : ({ w with lifecycle := .active } : Watcher).desk.Accounted :=
      ⟨h.watching, h.settled, h.balanced, h.single, h.numbered⟩
    refine ⟨accounted_startProjects distinct activated ?_, ?_⟩
    · intro p _
      rw [empty]
      rfl
    · intro inactive
      exact absurd (startProjects_lifecycle _ _) inactive

theorem lifecycle_start (w : Watcher) : w.start.2.lifecycle = .active := by
  by_cases active : w.lifecycle = .active
  · simp only [start, if_pos active]
    exact active
  · simp only [start, if_neg active]
    exact startProjects_lifecycle _ _

/-- Whatever is closed is noted, and its project is stopped. -/
theorem closeSessions_desk (w : Watcher) (sessions : List (String × WatchSession)) :
    (sessions.foldl (fun w (id, s) => (w.closeSession s).setState id .stopped) w).desk =
      { w.desk with
        states := sessions.foldl (fun t e => t.insert e.1 .stopped) w.states
        journal := (sessions.map fun e =>
          .closed e.2.serial e.2.project (w.launcher.closesCleanly e.2.serial)).reverse ++
            w.journal } := by
  induction sessions generalizing w with
  | nil => rfl
  | cons e sessions ih =>
      rw [List.foldl_cons, ih]
      simp [desk, closeSession, note, setState]

theorem stop_of_idle (idle : w.lifecycle ≠ .active ∧ w.sessions.isEmpty = true) :
    w.stop = w := by
  rw [stop, if_pos idle]

/-- Stopping closes what the table lists. -/
theorem stop_desk (busy : ¬(w.lifecycle ≠ .active ∧ w.sessions.isEmpty = true)) :
    w.stop.desk =
      { w.desk with
        sessions := .empty
        states := w.sessions.entries.foldl (fun t e => t.insert e.1 .stopped) w.states
        lifecycle := .stopped
        journal := (w.sessions.entries.map fun e =>
          .closed e.2.serial e.2.project (w.launcher.closesCleanly e.2.serial)).reverse ++
            w.journal } := by
  rw [stop, if_neg busy]
  exact congrArg (fun k : Desk => { k with sessions := .empty, lifecycle := .stopped })
    (closeSessions_desk w w.sessions.entries)

/-- A watcher that has been stopped is at rest, so stopping it again changes nothing. -/
theorem stop_stop (w : Watcher) : w.stop.stop = w.stop := by
  by_cases idle : w.lifecycle ≠ .active ∧ w.sessions.isEmpty = true
  · rw [stop_of_idle idle, stop_of_idle idle]
  · have stopped := stop_desk idle
    apply stop_of_idle
    constructor
    · have lifecycle : w.stop.lifecycle = .stopped := congrArg Desk.lifecycle stopped
      simp [lifecycle]
    · have sessions : w.stop.sessions = .empty := congrArg Desk.sessions stopped
      rw [sessions]
      rfl

/-- Setting one state for several projects. -/
theorem get?_insertAll {α : Type} (key : α → String) (es : List α)
    (states : Table String ProjectState) (state : ProjectState) (id : String) :
    (es.foldl (fun t e => t.insert (key e) state) states).get? id =
      if id ∈ es.map key then some state else states.get? id := by
  induction es generalizing states with
  | nil => simp
  | cons e es ih =>
      rw [List.foldl_cons, ih, Table.get?_insert]
      by_cases later : id ∈ es.map key
      · simp [later]
      · by_cases here : key e = id
        · simp [here]
        · simp [later, here, Ne.symm here]

@[simp] theorem openings_stop (w : Watcher) (n : Nat) :
    w.stop.desk.openings n = w.desk.openings n := by
  by_cases idle : w.lifecycle ≠ .active ∧ w.sessions.isEmpty = true
  · rw [stop_of_idle idle]
  · rw [stop_desk idle, Desk.openings, List.countP_append, List.countP_reverse, List.countP_map]
    have none : w.sessions.entries.countP ((JournalEntry.opens n) ∘ fun e =>
        .closed e.2.serial e.2.project (w.launcher.closesCleanly e.2.serial)) = 0 := by
      rw [List.countP_eq_zero]
      intro e _
      simp [JournalEntry.opens]
    rw [none, Nat.zero_add]
    rfl

/-- Stopping closes every listed session as often as it is listed. -/
theorem closings_stop (w : Watcher) (n : Nat) :
    w.stop.desk.closings n = w.desk.listings n + w.desk.closings n := by
  by_cases idle : w.lifecycle ≠ .active ∧ w.sessions.isEmpty = true
  · have none : w.sessions.entries = [] := List.isEmpty_iff.1 idle.2
    rw [stop_of_idle idle, Desk.listings, desk, none, List.countP_nil, Nat.zero_add]
  · rw [stop_desk idle, Desk.closings, List.countP_append, List.countP_reverse, List.countP_map]
    rfl

theorem sessions_stop (h : w.desk.Orderly) : w.stop.sessions = .empty := by
  by_cases idle : w.lifecycle ≠ .active ∧ w.sessions.isEmpty = true
  · rw [stop_of_idle idle]
    exact h.resting idle.1
  · exact congrArg Desk.sessions (stop_desk idle)

theorem orderly_stop (h : w.desk.Orderly) : w.stop.desk.Orderly := by
  have closed : w.stop.sessions = .empty := sessions_stop h
  by_cases idle : w.lifecycle ≠ .active ∧ w.sessions.isEmpty = true
  · rw [stop_of_idle idle]
    exact h
  · have states (id : String) : w.stop.states.get? id =
        if id ∈ w.sessions.keys then some .stopped else w.states.get? id := by
      have stopped : w.stop.states = _ := congrArg Desk.states (stop_desk idle)
      rw [stopped, get?_insertAll fun e : String × WatchSession => e.1]
      rfl
    have attempts : w.stop.attempts = w.attempts := congrArg Desk.attempts (stop_desk idle)
    refine ⟨⟨?_, ?_, ?_, ?_, ?_⟩, fun _ => closed⟩
    · intro id
      have none : w.stop.desk.sessions.contains id = false := by
        rw [desk, closed]
        rfl
      rw [none, desk, states]
      split
      · simp
      · rename_i absent
        rw [← Table.contains_iff_mem_keys] at absent
        have unwatched := mt (h.watching id).2 absent
        simpa [desk] using unwatched
    · intro id
      rw [desk, states]
      split
      · simp
      · exact h.settled id
    · intro n
      have balanced := h.balanced n
      have none : w.stop.desk.listings n = 0 := by
        rw [Desk.listings, desk, closed]
        rfl
      rw [openings_stop, closings_stop, none]
      omega
    · intro n
      rw [openings_stop]
      exact h.single n
    · intro n past
      rw [openings_stop]
      rw [desk, attempts] at past
      exact h.numbered n past

theorem orderly_onExit (h : w.desk.Orderly) (now : Nat) (id : String) :
    (w.onExit now id).desk.Orderly := by
  cases hs : w.sessions.get? id with
  | none =>
      rw [onExit_of_closed hs]
      exact h
  | some s =>
      rw [onExit_desk hs]
      refine ⟨h.leave hs _, ?_⟩
      intro inactive
      have empty : w.sessions = .empty := h.resting inactive
      rw [empty] at hs
      cases hs

theorem orderly_handle (h : w.desk.Orderly) (now : Nat) (e : SessionEvent) :
    (w.handle now e).desk.Orderly := by
  refine handle_cases ?unknown ?diagnostic ?phase ?exited e
  case unknown => exact fun _ _ => h
  case diagnostic =>
    intro id d _
    rw [(onDiagnostic_onlyData w now id d).desk]
    exact h
  case phase =>
    intro id message _
    rw [onPhase_desk]
    exact h
  case exited => exact fun id _ => orderly_onExit h now id

/-- Every operation keeps the desk in order, as long as no two projects share an id. -/
theorem orderly_perform (distinct : (w.workspace.projects.map (·.id)).Nodup)
    (h : w.desk.Orderly) (now : Nat) (op : Operation) : (w.perform now op).2.desk.Orderly := by
  have apart {v : Watcher} (same : v.desk = w.desk) : v.desk.Orderly := by
    rw [same]
    exact h
  cases op with
  | start => exact orderly_start distinct h
  | stop => exact orderly_stop h
  | diagnostic id d => exact apart (onDiagnostic_onlyData w now id d).desk
  | phase id message => exact apart (onPhase_desk w now id message)
  | exit id => exact orderly_onExit h now id
  | event e => exact orderly_handle h now e
  | drainQueue =>
      have keep (v : Watcher) (e : SessionEvent) (h : v.desk.Orderly) :
          (v.handle now e).desk.Orderly :=
        orderly_handle h now e
      exact handleAll_preserves keep w.queue (v := { w with queue := [] }) h
  | file path => exact apart (perform_file_onlyData w now path).desk
  | hasErrors path => exact apart (perform_hasErrors_onlyData w now path).desk
  | clearFile path => exact apart (clearFile_onlyData w now path).desk
  | _ => exact h

theorem fresh_orderly (workspace : Workspace) (config : WatchConfig) (launcher : Launcher)
    (size : Option (Nat × Nat)) : (fresh workspace config launcher size).desk.Orderly := by
  have desk : (fresh workspace config launcher size).desk =
      { sessions := .empty
        states := workspace.projects.foldl (fun t p => t.insert p.id .idle) .empty
        lifecycle := .inactive
        attempts := 0
        journal := [] } := by
    cases size <;> rfl
  have states (id : String) (state : ProjectState) (other : state ≠ .idle) :
      (workspace.projects.foldl (fun t p => t.insert p.id .idle) Table.empty).get? id ≠
        some state := by
    rw [get?_insertAll Project.id]
    split
    · simpa using other.symm
    · simp
  rw [desk]
  refine ⟨⟨?_, ?_, ?_, ?_, ?_⟩, fun _ => rfl⟩
  · intro id
    exact iff_of_false (by simp [Table.contains]) (states id .watching (by decide))
  · intro id
    exact states id .starting (by decide)
  · intro n
    rfl
  · intro n
    exact Nat.zero_le 1
  · intro n _
    rfl

/-- A step in a world that may have changed: configurations come and go, and what could be opened or
closed before may fail. -/
def performIn (w : Watcher) (step : Launcher × Nat × Operation) : Answer × Watcher :=
  { w with launcher := step.1 }.perform step.2.1 step.2.2

/-- The watcher behind some operations, each at its time and in its world. -/
def afterIn (w : Watcher) (steps : List (Launcher × Nat × Operation)) : Watcher :=
  (runAll performIn steps w).2

theorem performIn_workspace (w : Watcher) (step : Launcher × Nat × Operation) :
    (w.performIn step).2.workspace = w.workspace :=
  congrArg Prod.fst (perform_setup { w with launcher := step.1 } step.2.1 step.2.2)

theorem afterIn_workspace (w : Watcher) (steps : List (Launcher × Nat × Operation)) :
    (w.afterIn steps).workspace = w.workspace :=
  runAll_preserves (P := fun v => v.workspace = w.workspace)
    (fun v step same => (performIn_workspace v step).trans same) steps rfl

theorem afterIn_orderly (distinct : (w.workspace.projects.map (·.id)).Nodup)
    (h : w.desk.Orderly) (steps : List (Launcher × Nat × Operation)) :
    (w.afterIn steps).desk.Orderly := by
  have keep (v : Watcher) (step : Launcher × Nat × Operation)
      (h : v.workspace = w.workspace ∧ v.desk.Orderly) :
      (v.performIn step).2.workspace = w.workspace ∧ (v.performIn step).2.desk.Orderly := by
    obtain ⟨same, orderly⟩ := h
    refine ⟨(performIn_workspace v step).trans same, ?_⟩
    apply orderly_perform
    · rw [same]
      exact distinct
    · exact orderly
  exact (runAll_preserves keep steps ⟨rfl, h⟩).2

def Holds (w : Watcher) (serial : Nat) : Prop :=
  ∃ id s, w.sessions.get? id = some s ∧ s.serial = serial

theorem holds_iff (w : Watcher) (n : Nat) : w.Holds n ↔ 0 < w.desk.listings n := by
  rw [Holds, Desk.listings, List.countP_pos_iff]
  constructor
  · rintro ⟨id, s, listed, serial⟩
    exact ⟨(id, s), Table.get?_eq_some_iff.1 listed, by simpa using serial⟩
  · rintro ⟨⟨id, s⟩, listed, serial⟩
    exact ⟨id, s, Table.get?_eq_some_iff.2 listed, by simpa using serial⟩

/-- Sessions that were opened are listed and have not been closed, or are not listed and have been
closed once. -/
theorem balance_of_opened (h : w.desk.Accounted) {n : Nat} {p : Project}
    (opened : .opened n p ∈ w.journal) :
    w.desk.openings n = 1 ∧
      (w.Holds n ∧ w.desk.closings n = 0 ∨ ¬w.Holds n ∧ w.desk.closings n = 1) := by
  have some : 0 < w.desk.openings n := by
    rw [Desk.openings, List.countP_pos_iff]
    exact ⟨_, opened, by simp [JournalEntry.opens]⟩
  have balanced := h.balanced n
  have single := h.single n
  rw [holds_iff]
  omega

/-- However openings and closings go, between two operations the watched projects are those with a
session, no project is left starting, and a watcher that is not active has no session. Every session
that was opened was opened once, and it is either still listed and has never been closed or no
longer listed and has been closed exactly once. Stopping a second time changes nothing, the journal
included, and a watcher that is stopped for good has closed every session exactly once. -/
theorem sessions_closed_once {workspace : Workspace}
    (distinct : (workspace.projects.map (·.id)).Nodup) (config : WatchConfig)
    (launcher : Launcher) (size : Option (Nat × Nat)) (steps : List (Launcher × Nat × Operation)) :
    let w := (fresh workspace config launcher size).afterIn steps
    (∀ id, (∃ s, w.sessions.get? id = some s) ↔ w.projectState? id = some .watching) ∧
    (∀ id, w.projectState? id ≠ some .starting) ∧
    (w.lifecycle ≠ .active → w.sessions = .empty) ∧
    (∀ n p, .opened n p ∈ w.journal →
      w.desk.openings n = 1 ∧
        (w.Holds n ∧ w.desk.closings n = 0 ∨ ¬w.Holds n ∧ w.desk.closings n = 1)) ∧
    w.stop.stop = w.stop ∧
    w.stop.sessions = .empty ∧ ∀ n p, .opened n p ∈ w.journal → w.stop.desk.closings n = 1 := by
  intro w
  have workspace := fresh_workspace workspace config launcher size
  have h : w.desk.Orderly :=
    afterIn_orderly (by rwa [workspace]) (fresh_orderly _ config launcher size) steps
  refine ⟨?_, h.settled, h.resting, ?_, stop_stop w, sessions_stop h, ?_⟩
  · intro id
    exact (Desk.watching_iff h.toAccounted).symm
  · intro n p opened
    exact balance_of_opened h.toAccounted opened
  · intro n p opened
    have once := (balance_of_opened h.toAccounted opened).1
    have balanced := h.balanced n
    rw [closings_stop]
    omega

/-- A launcher that fails at the second attempt, and whose sessions all complain when they are
closed. -/
def grudging : Launcher :=
  { hasConfig := fun _ => true
    attempt := fun serial _ =>
      if serial = 1 then .error (.notStarted Compiler.programName) else .ok 1
    closesCleanly := fun _ => false }

/-- The session dies, which is reported twice. The next one cannot be opened, and the one after that
is opened in a friendlier world. -/
def restarts : List (Launcher × Nat × Operation) :=
  [(grudging, 0, .start), (grudging, 1, .event (.exited "app")), (grudging, 2, .exit "app"),
    (grudging, 3, .stop), (grudging, 4, .start), (grudging, 5, .stop), (willing, 6, .start)]

theorem sessions_closed_once_restarts :
    let w := (fresh soloWorkspace {} willing none).afterIn restarts
    (soloWorkspace.projects.map (·.id)).Nodup ∧
    ((∃ s, w.sessions.get? "app" = some s) ∧ w.projectState? "app" = some .watching) ∧
    (.opened 0 soloProject ∈ w.journal ∧ ¬w.Holds 0 ∧ w.desk.closings 0 = 1) ∧
    .failed 1 soloProject ∈ w.journal ∧
    (.opened 2 soloProject ∈ w.journal ∧ w.Holds 2 ∧ w.desk.closings 2 = 0) ∧
    w.stop.desk.closings 0 = 1 ∧ w.stop.desk.closings 2 = 1 ∧ w.stop.stop = w.stop := by
  dsimp only
  have distinct : (soloWorkspace.projects.map (·.id)).Nodup := by decide
  obtain ⟨watched, -, -, account, again, -, final⟩ :=
    sessions_closed_once distinct {} willing none restarts
  have state : ((fresh soloWorkspace {} willing none).afterIn restarts).projectState? "app" =
      some .watching := by decide +kernel
  have journal : ((fresh soloWorkspace {} willing none).afterIn restarts).journal =
      [.opened 2 soloProject, .failed 1 soloProject, .closed 0 soloProject false,
        .opened 0 soloProject] := by decide +kernel
  have first : .opened 0 soloProject ∈
      ((fresh soloWorkspace {} willing none).afterIn restarts).journal := by simp [journal]
  have last : .opened 2 soloProject ∈
      ((fresh soloWorkspace {} willing none).afterIn restarts).journal := by simp [journal]
  have closings (n : Nat) :
      ((fresh soloWorkspace {} willing none).afterIn restarts).desk.closings n =
        if n = 0 then 1 else 0 := by
    rw [Desk.closings, desk, journal]
    cases n <;> simp [JournalEntry.closes]
  refine ⟨distinct, ⟨(watched "app").2 state, state⟩, ⟨first, ?_⟩, by simp [journal],
    ⟨last, ?_⟩, final 0 _ first, final 2 _ last, again⟩
  · exact (account 0 _ first).2.resolve_left fun h => by simp [closings] at h
  · exact (account 2 _ last).2.resolve_right fun h => by simp [closings] at h

end Watcher

end DiagnosticWatch
