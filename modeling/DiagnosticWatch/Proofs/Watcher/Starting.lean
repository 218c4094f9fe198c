import DiagnosticWatch.Proofs.Watcher.Sessions

/-!
# Starting goes project by project

A watcher that is started asks for a session once for each project that is neither ignored nor
without configuration, in the order of the workspace. What becomes of a project is decided by the
project and the outcome of its own attempt: starting one project touches the state and the session
of that project only, so neither a failure nor anything that came before the start is in the way of
the others.
-/

namespace DiagnosticWatch.Watcher

variable {w : Watcher} {p : Project} {ps : List Project} {id : String}

/-- Whether a session is asked for when a project is started. -/
def isTried (w : Watcher) (p : Project) : Bool :=
  !w.filter.isIgnored p.configPath && w.launcher.hasConfig p

/-- The projects for which a session is asked for, in order, each with the number of the attempt. -/
def tries (w : Watcher) (ps : List Project) : List (Project × Nat) :=
  (ps.filter w.isTried).zipIdx w.attempts

def noted (w : Watcher) (attempt : Project × Nat) : JournalEntry :=
  match w.launcher.attempt attempt.2 attempt.1 with
  | .ok _ => .opened attempt.2 attempt.1
  | .error _ => .failed attempt.2 attempt.1

/-- The watcher shows the outcome of an attempt: a session and its files, or an error. -/
def Shows (w : Watcher) (p : Project) (serial : Nat) : Except Compiler.OpenError Nat → Prop
  | .ok files =>
    w.projectState? p.id = some .watching ∧
      w.sessions.get? p.id = some { serial, project := p, files }
  | .error _ => w.projectState? p.id = some .error ∧ w.sessions.get? p.id = none

theorem startProject_of_ignored (ignored : w.filter.isIgnored p.configPath = true) :
    w.startProject p = w := by
  rw [startProject, if_pos ignored]

theorem startProject_of_unconfigured (watched : w.filter.isIgnored p.configPath = false)
    (missing : w.launcher.hasConfig p = false) : w.startProject p = w.setState p.id .error := by
  rw [startProject, if_neg (by simp [watched]), if_pos (by simp [missing])]

theorem startProject_of_tried (tried : w.isTried p = true) :
    w.startProject p = w.openSession p := by
  obtain ⟨watched, configured⟩ := by simpa [isTried] using tried
  rw [startProject, if_neg (by simp [watched]), if_neg (by simp [configured])]

/-- An attempt that is made takes a number and is noted. -/
theorem startProject_attempts (w : Watcher) (p : Project) :
    (w.startProject p).attempts = w.attempts + (if w.isTried p then 1 else 0) ∧
      (w.startProject p).journal =
        (if w.isTried p then [w.noted (p, w.attempts)] else []) ++ w.journal := by
  cases tried : w.isTried p with
  | true =>
      rw [startProject_of_tried tried]
      have desk := openSession_desk w p
      rw [noted]
      cases h : w.launcher.attempt w.attempts p <;> rw [h] at desk <;>
        exact ⟨congrArg Desk.attempts desk, congrArg Desk.journal desk⟩
  | false =>
      cases ignored : w.filter.isIgnored p.configPath with
      | true =>
          rw [startProject_of_ignored ignored]
          exact ⟨rfl, rfl⟩
      | false =>
          rw [startProject_of_unconfigured ignored (by simpa [isTried, ignored] using tried)]
          exact ⟨rfl, rfl⟩

/-- Starting a project leaves the states of all others alone. -/
theorem startProject_state_of_ne (w : Watcher) (other : p.id ≠ id) :
    (w.startProject p).states.get? id = w.states.get? id := by
  rw [startProject]
  split
  · rfl
  · split
    · exact (Table.get?_insert ..).trans (if_neg other)
    · simp only [openSession]
      split <;> simp [setState, note, Table.get?_insert, other]

/-- A project that is tried shows the outcome of the attempt. -/
theorem shows_startProject (tried : w.isTried p = true) (closed : w.sessions.get? p.id = none) :
    (w.startProject p).Shows p w.attempts (w.launcher.attempt w.attempts p) := by
  rw [startProject_of_tried tried]
  have desk := openSession_desk w p
  have states := congrArg (·.states.get? p.id) desk
  have sessions := congrArg (·.sessions.get? p.id) desk
  cases h : w.launcher.attempt w.attempts p with
  | ok files =>
      simp only [h, Table.get?_insert, if_true] at states sessions
      exact ⟨states, sessions⟩
  | error e =>
      simp only [h, Table.get?_insert, if_true] at states sessions
      exact ⟨states, sessions.trans closed⟩

theorem startProjects_filter (w : Watcher) (ps : List Project) :
    (ps.foldl startProject w).filter = w.filter :=
  congrArg (·.2.1) (startProjects_setup w ps)

theorem startProjects_launcher (w : Watcher) (ps : List Project) :
    (ps.foldl startProject w).launcher = w.launcher :=
  congrArg (·.2.2) (startProjects_setup w ps)

section Setup

variable {v : Watcher} (same : v.setup = w.setup)

include same

theorem isTried_eq : v.isTried = w.isTried := by
  have filter : v.filter = w.filter := congrArg (·.2.1) same
  have launcher : v.launcher = w.launcher := congrArg (·.2.2) same
  funext p
  rw [isTried, isTried, filter, launcher]

theorem noted_eq : v.noted = w.noted := by
  have launcher : v.launcher = w.launcher := congrArg (·.2.2) same
  funext attempt
  rw [noted, noted, launcher]

end Setup

theorem tries_cons (w : Watcher) (p : Project) (ps : List Project) :
    w.tries (p :: ps) =
      (if w.isTried p then [(p, w.attempts)] else []) ++ (w.startProject p).tries ps := by
  have attempts := (startProject_attempts w p).1
  rw [tries, tries, isTried_eq (startProject_setup w p), attempts]
  cases tried : w.isTried p <;> simp [tried]

/-- Every attempt is noted, in order. -/
theorem startProjects_journal (w : Watcher) (ps : List Project) :
    (ps.foldl startProject w).journal = ((w.tries ps).map w.noted).reverse ++ w.journal := by
  induction ps generalizing w with
  | nil => rfl
  | cons p ps ih =>
      rw [List.foldl_cons, ih, tries_cons, noted_eq (startProject_setup w p),
        (startProject_attempts w p).2]
      cases w.isTried p <;> simp

theorem startProjects_attempts (w : Watcher) (ps : List Project) :
    (ps.foldl startProject w).attempts = w.attempts + (ps.filter w.isTried).length := by
  induction ps generalizing w with
  | nil => rfl
  | cons p ps ih =>
      rw [List.foldl_cons, ih, (startProject_attempts w p).1, isTried_eq (startProject_setup w p)]
      cases tried : w.isTried p <;> simp [tried]
      omega

/-- Projects that are started leave every other one alone. -/
theorem startProjects_of_not_mem (w : Watcher) (absent : id ∉ ps.map (·.id)) :
    (ps.foldl startProject w).projectState? id = w.projectState? id ∧
      (ps.foldl startProject w).sessions.get? id = w.sessions.get? id := by
  induction ps generalizing w with
  | nil => exact ⟨rfl, rfl⟩
  | cons p ps ih =>
      obtain ⟨other, absent⟩ : id ≠ p.id ∧ id ∉ ps.map (·.id) := by simpa using absent
      obtain ⟨state, session⟩ := ih (w.startProject p) absent
      exact ⟨state.trans (startProject_state_of_ne w other.symm),
        session.trans (startProject_get?_of_ne w other.symm)⟩

/-- A project finds its own state and session as they were, and the projects behind it leave what it
makes of them. -/
theorem exists_startProject_of_mem (distinct : (ps.map (·.id)).Nodup) (hp : p ∈ ps) (w : Watcher) :
    ∃ before after v, ps = before ++ p :: after ∧ v = before.foldl startProject w ∧
      v.projectState? p.id = w.projectState? p.id ∧ v.sessions.get? p.id = w.sessions.get? p.id ∧
      (ps.foldl startProject w).projectState? p.id = (v.startProject p).projectState? p.id ∧
      (ps.foldl startProject w).sessions.get? p.id = (v.startProject p).sessions.get? p.id := by
  obtain ⟨before, after, rfl⟩ := List.append_of_mem hp
  rw [List.map_append, List.map_cons, List.nodup_append, List.nodup_cons] at distinct
  obtain ⟨-, ⟨absentAfter, -⟩, apart⟩ := distinct
  have absentBefore : p.id ∉ before.map (·.id) := fun h => apart _ h _ List.mem_cons_self rfl
  obtain ⟨state, session⟩ := startProjects_of_not_mem w absentBefore
  obtain ⟨state', session'⟩ :=
    startProjects_of_not_mem ((before.foldl startProject w).startProject p) absentAfter
  refine ⟨before, after, _, rfl, rfl, state, session, ?_, ?_⟩
  · rw [List.foldl_append, List.foldl_cons, state']
  · rw [List.foldl_append, List.foldl_cons, session']

theorem startProjects_of_ignored (distinct : (ps.map (·.id)).Nodup) (hp : p ∈ ps)
    (ignored : w.filter.isIgnored p.configPath = true) :
    (ps.foldl startProject w).projectState? p.id = w.projectState? p.id ∧
      (ps.foldl startProject w).sessions.get? p.id = w.sessions.get? p.id := by
  obtain ⟨before, _, v, -, hv, state, session, last, last'⟩ :=
    exists_startProject_of_mem distinct hp w
  have filter : v.filter = w.filter := by rw [hv, startProjects_filter]
  rw [startProject_of_ignored (by rwa [filter])] at last last'
  exact ⟨last.trans state, last'.trans session⟩

theorem startProjects_of_unconfigured (distinct : (ps.map (·.id)).Nodup) (hp : p ∈ ps)
    (watched : w.filter.isIgnored p.configPath = false) (missing : w.launcher.hasConfig p = false) :
    (ps.foldl startProject w).projectState? p.id = some .error ∧
      (ps.foldl startProject w).sessions.get? p.id = w.sessions.get? p.id := by
  obtain ⟨before, _, v, -, hv, state, session, last, last'⟩ :=
    exists_startProject_of_mem distinct hp w
  have filter : v.filter = w.filter := by rw [hv, startProjects_filter]
  have launcher : v.launcher = w.launcher := by rw [hv, startProjects_launcher]
  rw [startProject_of_unconfigured (by rwa [filter]) (by rwa [launcher])] at last last'
  exact ⟨last.trans ((Table.get?_insert ..).trans (if_pos rfl)), last'.trans session⟩

theorem startProjects_of_tried (distinct : (ps.map (·.id)).Nodup) (hp : p ∈ ps)
    (tried : w.isTried p = true) (closed : w.sessions.get? p.id = none) :
    ∃ n, (p, n) ∈ w.tries ps ∧
      (ps.foldl startProject w).Shows p n (w.launcher.attempt n p) := by
  obtain ⟨before, after, v, hps, hv, state, session, last, last'⟩ :=
    exists_startProject_of_mem distinct hp w
  have setup : v.setup = w.setup := by rw [hv, startProjects_setup]
  have launcher : v.launcher = w.launcher := congrArg (·.2.2) setup
  have outcome := shows_startProject (by rwa [isTried_eq setup]) (session.trans closed)
  refine ⟨v.attempts, ?_, ?_⟩
  · rw [tries, hps, List.filter_append, List.filter_cons_of_pos tried, List.zipIdx_append,
      List.zipIdx_cons, hv, startProjects_attempts]
    exact List.mem_append_right _ List.mem_cons_self
  · rw [← launcher]
    cases h : v.launcher.attempt v.attempts p with
    | ok files =>
        rw [h] at outcome
        exact ⟨last.trans outcome.1, last'.trans outcome.2⟩
    | error e =>
        rw [h] at outcome
        exact ⟨last.trans outcome.1, last'.trans outcome.2⟩

theorem nodup_keys {ν : Type} (t : Table String ν) : t.keys.Nodup := by
  refine List.pairwise_map.2 (t.ascending.imp ?_)
  intro a b lt same
  rw [same, Std.compare_self] at lt
  cases lt

/-- There are as many sessions as watched projects, if every session is of a project. -/
theorem size_sessions (accounted : w.desk.Accounted) (distinct : (ps.map (·.id)).Nodup)
    (known : ∀ id, id ∉ ps.map (·.id) → w.sessions.get? id = none) :
    w.sessions.size = ps.countP fun p => w.projectState? p.id = some .watching := by
  have same : w.sessions.keys.Perm
      ((ps.filter fun p => w.projectState? p.id = some .watching).map (·.id)) := by
    refine (List.perm_ext_iff_of_nodup (nodup_keys _) ?_).2 fun id => ?_
    · exact (List.filter_sublist.map _).nodup distinct
    · have watching : w.sessions.contains id = true ↔ w.projectState? id = some .watching :=
        accounted.watching id
      rw [← Table.contains_iff_mem_keys, watching, List.mem_map]
      constructor
      · intro watched
        have member : id ∈ ps.map (·.id) := by
          refine Decidable.byContradiction fun absent => ?_
          have listed := watching.2 watched
          simp [Table.contains, known id absent] at listed
        obtain ⟨p, hp, rfl⟩ := List.mem_map.1 member
        exact ⟨p, List.mem_filter.2 ⟨hp, decide_eq_true watched⟩, rfl⟩
      · rintro ⟨p, hp, rfl⟩
        exact of_decide_eq_true (List.mem_filter.1 hp).2
  simpa [Table.size, Table.keys, List.countP_eq_length_filter] using same.length_eq

theorem start_of_active (active : w.lifecycle = .active) : w.start = (w.sessions.size, w) := by
  simp only [start, if_pos active]

theorem start_of_inactive (inactive : w.lifecycle ≠ .active) :
    w.start =
      ((w.workspace.projects.foldl startProject { w with lifecycle := .active }).sessions.size,
        w.workspace.projects.foldl startProject { w with lifecycle := .active }) := by
  simp only [start, if_neg inactive]

/-- What becomes of the projects when a watcher is started that is not active. -/
structure StartsEach (w : Watcher) : Prop where
  active : w.start.2.lifecycle = .active
  journal : w.start.2.journal = ((w.tries w.workspace.projects).map w.noted).reverse ++ w.journal
  ignored : ∀ p ∈ w.workspace.projects, w.filter.isIgnored p.configPath = true →
    w.start.2.projectState? p.id = w.projectState? p.id ∧ w.start.2.sessions.get? p.id = none
  unconfigured : ∀ p ∈ w.workspace.projects, w.filter.isIgnored p.configPath = false →
    w.launcher.hasConfig p = false →
    w.start.2.projectState? p.id = some .error ∧ w.start.2.sessions.get? p.id = none
  tried : ∀ p ∈ w.workspace.projects, w.filter.isIgnored p.configPath = false →
    w.launcher.hasConfig p = true →
    ∃ n, (p, n) ∈ w.tries w.workspace.projects ∧ w.start.2.Shows p n (w.launcher.attempt n p)
  others : ∀ id, id ∉ w.workspace.projects.map (·.id) →
    w.start.2.projectState? id = w.projectState? id ∧ w.start.2.sessions.get? id = none
  watched : w.start.1 =
    w.workspace.projects.countP fun p => w.start.2.projectState? p.id = some .watching

theorem startsEach (distinct : (w.workspace.projects.map (·.id)).Nodup) (orderly : w.desk.Orderly)
    (inactive : w.lifecycle ≠ .active) : w.StartsEach := by
  have started := start_of_inactive inactive
  have empty : w.sessions = .empty := orderly.resting inactive
  have closed (id : String) : w.sessions.get? id = none := by
    rw [empty]
    rfl
  have others (id : String) (absent : id ∉ w.workspace.projects.map (·.id)) :
      w.start.2.projectState? id = w.projectState? id ∧
        w.start.2.sessions.get? id = w.sessions.get? id := by
    rw [started]
    exact startProjects_of_not_mem { w with lifecycle := .active } absent
  constructor
  case active => exact lifecycle_start w
  case journal =>
    rw [started]
    exact startProjects_journal _ _
  case ignored =>
    intro p hp ignored
    obtain ⟨state, session⟩ :=
      startProjects_of_ignored (w := { w with lifecycle := .active }) distinct hp ignored
    rw [started]
    exact ⟨state, session.trans (closed p.id)⟩
  case unconfigured =>
    intro p hp watched missing
    obtain ⟨state, session⟩ :=
      startProjects_of_unconfigured (w := { w with lifecycle := .active }) distinct hp watched
        missing
    rw [started]
    exact ⟨state, session.trans (closed p.id)⟩
  case tried =>
    intro p hp watched configured
    have tried : w.isTried p = true := by simp [isTried, watched, configured]
    rw [started]
    exact startProjects_of_tried (w := { w with lifecycle := .active }) distinct hp tried
      (closed p.id)
  case others =>
    intro id absent
    exact ⟨(others id absent).1, (others id absent).2.trans (closed id)⟩
  case watched =>
    have size : w.start.1 = w.start.2.sessions.size := by rw [started]
    rw [size]
    exact size_sessions (orderly_start distinct orderly).toAccounted distinct
      fun id absent => (others id absent).2.trans (closed id)

/-- Whatever has happened before and whatever the world is like now: a watcher that is active is not
changed by starting it. One that is not becomes active; it asks for a session once for every project
that is not ignored and has a configuration, in the order of the workspace, and for no other one;
every project comes out of it as its own attempt says, and the number of watched projects is
returned. Only sessions are touched by this. -/
theorem start_each_alone {workspace : Workspace}
    (distinct : (workspace.projects.map (·.id)).Nodup) (config : WatchConfig)
    (launcher : Launcher) (size : Option (Nat × Nat)) (steps : List (Launcher × Nat × Operation))
    (world : Launcher) :
    let w := { (fresh workspace config launcher size).afterIn steps with launcher := world }
    (w.lifecycle = .active → w.start = (w.sessions.size, w)) ∧
    (w.lifecycle ≠ .active → w.StartsEach) ∧
    w.start.2.store = w.store ∧ w.start.2.cache = w.cache ∧
    w.start.2.subscribers = w.subscribers ∧ w.OnlySessions w.start.2 := by
  intro w
  have site := fresh_workspace workspace config launcher size
  have same : w.workspace = workspace :=
    (afterIn_workspace (fresh workspace config launcher size) steps).trans site
  have orderly : w.desk.Orderly :=
    afterIn_orderly (by rwa [site]) (fresh_orderly _ config launcher size) steps
  have only : w.OnlySessions w.start.2 := start_onlySessions w
  refine ⟨start_of_active, ?_, start_store w, ?_, only.subscribers, only⟩
  · intro inactive
    exact startsEach (by rwa [same]) orderly inactive
  · rw [only]
    rfl

/-- A workspace whose first project is a dependency, and ignored. -/
def fourProjects : Workspace :=
  let project (id : String) : Project :=
    { id, name := id, root := ⟨"/w/" ++ id⟩, configPath := ⟨"/w/" ++ id ++ "/tsconfig.json"⟩ }
  { root := ⟨"/w"⟩
    kind := .npm
    projects := ["node_modules/dep", "app", "lib", "web"].map project }

/-- A world in which one project has lost its configuration and another one cannot be opened. -/
def spoiled : Launcher :=
  { hasConfig := fun p => p.id ≠ "app"
    attempt := fun _ p => if p.id = "lib" then .error (.notStarted Compiler.programName) else .ok 1
    closesCleanly := fun _ => true }

/-- All goes well for a while, then the watcher is stopped. -/
def firstRound : List (Launcher × Nat × Operation) :=
  [(willing, 0, .start), (willing, 1, .stop)]

/-- Three projects are not watched, each for a reason of its own, and the one behind them is. -/
theorem start_each_alone_spoiled :
    let w : Watcher :=
      { (fresh fourProjects {} willing none).afterIn firstRound with launcher := spoiled }
    (fourProjects.projects.map (·.id)).Nodup ∧ w.lifecycle ≠ .active ∧ w.StartsEach ∧
      fourProjects.projects.map (fun p => w.start.2.projectState? p.id) =
        [some .idle, some .error, some .error, some .watching] ∧ w.start.1 = 1 ∧
      w.start.2.store = w.store ∧ w.start.2.start = (w.start.2.sessions.size, w.start.2) := by
  intro w
  have distinct : (fourProjects.projects.map (·.id)).Nodup := by decide
  obtain ⟨inactive, states, watched⟩ : w.lifecycle ≠ .active ∧
      fourProjects.projects.map (fun p => w.start.2.projectState? p.id) =
        [some .idle, some .error, some .error, some .watching] ∧ w.start.1 = 1 := by decide +kernel
  obtain ⟨-, each, store, -⟩ := start_each_alone distinct {} willing none firstRound spoiled
  have each := each inactive
  exact ⟨distinct, inactive, each, states, watched, store, start_of_active each.active⟩

end DiagnosticWatch.Watcher
