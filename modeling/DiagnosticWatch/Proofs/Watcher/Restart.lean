import DiagnosticWatch.Proofs.Watcher.Happenings

/-!
# What is left of a session behind a restart

Stopping and starting leave the store alone, an open pass included. A session that is stopped
between two passes is forgotten with the first pass that its successor completes. One that is
stopped in the middle of a pass leaves that pass open, for its successor to go on with: what it has
reported counts as part of the successor's first pass and is listed behind it (`keeps_cut_pass`). It
is gone with the second one.
-/

namespace DiagnosticWatch

namespace ProjectIndex

variable {i j : ProjectIndex}

def shown (i : ProjectIndex) (place : Location) : List Diagnostic :=
  ((i.files.get? place).map (·.diagnostics)).getD []

/-- What a project lists is determined by what it shows at each place. -/
theorem diagnostics_congr (same : ∀ place, i.shown place = j.shown place) :
    i.diagnostics = j.diagnostics := by
  -- Buckets without diagnostics make no difference, and without them the tables are equal.
  let full (i : ProjectIndex) : Table Location (List Diagnostic) :=
    (i.files.map fun _ b => b.diagnostics).filter fun _ ds => !ds.isEmpty
  have listed (i : ProjectIndex) : i.diagnostics = (full i).values.flatten := by
    simp only [diagnostics, full, Table.values, Table.map, Table.filter]
    induction i.files.entries with
    | nil => rfl
    | cons e es ih =>
        cases empty : e.2.diagnostics.isEmpty with
        | true =>
            have none : e.2.diagnostics = [] := List.isEmpty_iff.1 empty
            simp [none, ih]
        | false => simp [empty, ih]
  have looked (i : ProjectIndex) (place : Location) :
      (full i).get? place = if (i.shown place).isEmpty then none else some (i.shown place) := by
    rw [Table.get?_filter, Table.get?_map, shown]
    cases i.files.get? place with
    | none => rfl
    | some b => cases empty : b.diagnostics.isEmpty <;> simp [Option.filter, empty]
  have equal : full i = full j := by
    apply Table.ext_get?
    intro place
    rw [looked, looked, same]
  rw [listed, listed, equal]

theorem exists_shown {d : Diagnostic} (h : d ∈ i.diagnostics) : ∃ place, d ∈ i.shown place := by
  rw [diagnostics, Table.values, List.flatMap_map, List.mem_flatMap] at h
  obtain ⟨⟨place, b⟩, hb, hd⟩ := h
  refine ⟨place, ?_⟩
  rw [shown, Table.get?_eq_some_iff.2 hb]
  exact hd

/-- What a happening makes of what is shown at a place. -/
theorem shown_undergo (p : Project) (i : ProjectIndex) (h : Happening) (place : Location) :
    (i.undergo p h).shown place =
      if h.completes p.id then i.brought place
      else if h.drops place then []
      else
        match p.handled? h with
        | some d => if d.file.location = place then i.brought place ++ [d] else i.shown place
        | none => i.shown place := by
  cases h with
  | clearedAll => rfl
  | clearedFile file =>
      simp only [undergo, shown, get?_remove, Happening.completes, Happening.drops,
        Project.handled?, Bool.false_eq_true, if_false, decide_eq_true_eq]
      split <;> rfl
  | event e =>
      simp only [undergo, Happening.drops, Bool.false_eq_true, if_false]
      cases e with
      | exited id => simp [absorb, Happening.completes, Project.handled?]
      | diagnostic id d =>
          by_cases own : id = p.id
          · simp only [SessionEvent.project, own, if_true, absorb, Happening.completes,
              Project.handled?, Bool.false_eq_true, if_false, shown, get?_insert]
            split
            · rename_i here
              rw [← here, ← refilled_diagnostics]
              rfl
            · rfl
          · simp [SessionEvent.project, own, Happening.completes, Project.handled?]
      | phase id message =>
          by_cases own : id = p.id
          · simp only [SessionEvent.project, own, if_true, absorb, Happening.completes,
              Project.handled?, Bool.true_and, decide_true]
            cases PhaseSignal.classify message with
            | other => rfl
            | passStarted => simp [shown]
            | passCompleted =>
                simp only [decide_true, if_true, shown, brought, get?_completePass]
                cases i.files.get? place with
                | none => rfl
                | some b => by_cases now : b.pass = i.beginPass.pass <;> simp [now, Option.filter]
          · simp [SessionEvent.project, own, Happening.completes, Project.handled?]

end ProjectIndex

namespace Project

variable {p : Project} {past since : List Happening}

/-- What a project lists that has been through a history. -/
def listed (p : Project) (hs : List Happening) : List Diagnostic :=
  (hs.foldl (ProjectIndex.undergo p) {}).diagnostics

theorem mem_handled_of_open {d : Diagnostic} (h : d ∈ p.openDiagnostics since) :
    d ∈ p.handled since := by
  induction since using List.reverseRecOn with
  | nil => exact h
  | append_singleton since last ih =>
      rw [openDiagnostics_concat] at h
      rw [handled, List.filterMap_append, List.mem_append]
      split at h
      · cases h
      · obtain before | now := List.mem_append.1 h
        · exact .inl (ih (List.mem_filter.1 before).1)
        · exact .inr (by simpa using now)

/-- Everything that is listed has been handled. -/
theorem mem_handled_of_listed {d : Diagnostic} (h : d ∈ p.listed since) : d ∈ p.handled since := by
  obtain ⟨place, shown⟩ := ProjectIndex.exists_shown h
  clear h
  induction since using List.reverseRecOn with
  | nil => exact shown
  | append_singleton since last ih =>
      have brought (h : d ∈ (since.foldl (ProjectIndex.undergo p) {}).brought place) :
          d ∈ p.handled since := by
        rw [(ProjectIndex.brings_history p since).brought] at h
        exact mem_handled_of_open (List.mem_filter.1 h).1
      rw [List.foldl_concat, ProjectIndex.shown_undergo] at shown
      rw [handled, List.filterMap_append, List.mem_append]
      split at shown
      · exact .inl (brought shown)
      · split at shown
        · cases shown
        · split at shown
          · rename_i reported
            split at shown
            · obtain before | now := List.mem_append.1 shown
              · exact .inl (brought before)
              · exact .inr (by simpa [reported] using now)
            · exact .inl (ih shown)
          · exact .inl (ih shown)

/-- The open pass knows nothing of a past that left no open pass, or of any past behind a complete
pass. -/
theorem openDiagnostics_append
    (cut : p.openDiagnostics past = [] ∨ 0 < since.countP (·.completes p.id)) :
    p.openDiagnostics (past ++ since) = p.openDiagnostics since := by
  induction since using List.reverseRecOn with
  | nil => simpa [openDiagnostics, kept] using cut
  | append_singleton since h ih =>
      rw [← List.append_assoc, openDiagnostics_concat, openDiagnostics_concat]
      cases complete : h.completes p.id with
      | true => rfl
      | false => rw [ih (by simpa [List.countP_append, complete] using cut)]

/-- Behind a complete pass a project lists what it would list if there had been no past, if that
left no open pass; and behind two of them whatever the past was. -/
theorem listed_append (complete : 0 < since.countP (·.completes p.id))
    (clean : p.openDiagnostics past = [] ∨ 2 ≤ since.countP (·.completes p.id)) :
    p.listed (past ++ since) = p.listed since := by
  apply ProjectIndex.diagnostics_congr
  intro place
  induction since using List.reverseRecOn with
  | nil => cases complete
  | append_singleton since h ih =>
      have brought (cut : p.openDiagnostics past = [] ∨ 0 < since.countP (·.completes p.id)) :
          ((past ++ since).foldl (ProjectIndex.undergo p) {}).brought place =
            (since.foldl (ProjectIndex.undergo p) {}).brought place := by
        rw [(ProjectIndex.brings_history p _).brought, (ProjectIndex.brings_history p _).brought,
          openDiagnostics_append cut]
      rw [← List.append_assoc, List.foldl_concat, List.foldl_concat, ProjectIndex.shown_undergo,
        ProjectIndex.shown_undergo]
      simp only [List.countP_append, List.countP_singleton] at complete clean
      cases last : h.completes p.id with
      | true =>
          simp only [last, if_true] at clean ⊢
          exact brought (clean.imp_right (by omega))
      | false =>
          simp only [last, Bool.false_eq_true, if_false, Nat.add_zero] at complete clean ⊢
          rw [brought (.inr complete), ih complete clean]

end Project

namespace Watcher

/-- Behind a restart, once a pass of a project is complete, the store holds for the project what it
would hold if nothing had happened before, so everything in it has been handled since. This takes
that the restart did not cut a pass that had brought something, or that a second pass is complete as
well. -/
theorem lists_since_restart (workspace : Workspace) (config : WatchConfig) (launcher : Launcher)
    (size : Option (Nat × Nat)) {p : Project} (registered : workspace.project? p.id = some p)
    (before later : List (Nat × Operation)) :
    let start := fresh workspace config launcher size
    let restarted := (start.after before).stop.start.2
    let past := (start.history before).map (·.2)
    let since := (restarted.history later).map (·.2)
    0 < since.countP (·.completes p.id) →
    p.openDiagnostics past = [] ∨ 2 ≤ since.countP (·.completes p.id) →
    (restarted.after later).store.projectDiagnostics? p.id = some (p.listed since) ∧
      ∀ d ∈ p.listed since, d ∈ p.handled since := by
  intro start restarted past since complete clean
  have follows : (start.after before).Follows past :=
    (fresh_follows workspace config launcher size).after before
  have stopped : (start.after before).stop.Follows past :=
    follows.congr (congrArg Prod.fst (stop_setup _)) (stop_store _)
  have again : restarted.Follows past :=
    stopped.congr (congrArg Prod.fst (start_setup _)) (start_store _)
  have site : (restarted.after later).workspace = workspace := by
    calc
      (restarted.after later).workspace = restarted.workspace := after_workspace restarted later
      _ = (start.after before).stop.workspace := congrArg Prod.fst (start_setup _)
      _ = (start.after before).workspace := congrArg Prod.fst (stop_setup _)
      _ = start.workspace := after_workspace start before
      _ = workspace := fresh_workspace workspace config launcher size
  have known := (again.after later).known p (by rwa [site])
  constructor
  · rw [Store.projectDiagnostics?, known, ← Project.listed_append complete clean]
    rfl
  · intro d h
    exact Project.mem_handled_of_listed h

/-- The session is stopped when its compiler has printed one error. -/
def cutPass : List (Nat × Operation) :=
  [(0, .start), (1, .event (soloError "a.ts" 1))]

/-- The next session starts a pass of its own and completes it. -/
def nextPass : List (Nat × Operation) :=
  [(2, .event (.phase "app" "Starting compilation in watch mode...")),
    (3, .event (soloError "b.ts" 2)), (4, .event (.phase "app" "Found 1 error."))]

theorem lists_since_restart_secondPass :
    let start := fresh soloWorkspace {} willing none
    let restarted := (start.after cutPass).stop.start.2
    let since := (restarted.history (nextPass ++ nextPass)).map (·.2)
    soloWorkspace.project? soloProject.id = some soloProject ∧
      since.countP (·.completes soloProject.id) = 2 ∧
      (restarted.after (nextPass ++ nextPass)).store.projectDiagnostics? soloProject.id =
        some (soloProject.listed since) ∧
      (soloProject.listed since).map (·.file.text) = ["/w/b.ts"] := by
  intro start restarted since
  have registered : soloWorkspace.project? soloProject.id = some soloProject := rfl
  have complete : since.countP (·.completes soloProject.id) = 2 := by decide +kernel
  have listed : (soloProject.listed since).map (·.file.text) = ["/w/b.ts"] := by decide +kernel
  have once : 0 < since.countP (·.completes soloProject.id) := by omega
  have twice : 2 ≤ since.countP (·.completes soloProject.id) := by omega
  obtain ⟨stored, -⟩ :=
    lists_since_restart soloWorkspace {} willing none registered cutPass (nextPass ++ nextPass)
      once (.inr twice)
  exact ⟨registered, complete, stored, listed⟩

/-- With a pass cut and one pass complete, the store still holds the error of the session before. -/
theorem keeps_cut_pass :
    let stopped := (fresh soloWorkspace {} willing none).after cutPass
    let restarted := stopped.stop.start.2
    let since := (restarted.history nextPass).map (·.2)
    stopped.lifecycle = .active ∧ restarted.lifecycle = .active ∧
      since.countP (·.completes soloProject.id) = 1 ∧
      ∃ ds, (restarted.after nextPass).store.projectDiagnostics? soloProject.id = some ds ∧
        ds.map (·.file.text) = ["/w/a.ts", "/w/b.ts"] ∧
        ¬∀ d ∈ ds, d ∈ soloProject.handled since := by
  intro stopped restarted since
  have active : stopped.lifecycle = .active := by decide +kernel
  have reactivated : restarted.lifecycle = .active := by decide +kernel
  have complete : since.countP (·.completes soloProject.id) = 1 := by decide +kernel
  have listed : ((restarted.after nextPass).store.projectDiagnostics? soloProject.id).map
      (List.map (·.file.text)) = some ["/w/a.ts", "/w/b.ts"] := by decide +kernel
  have handled : (soloProject.handled since).map (·.file.text) = ["/w/b.ts"] := by decide +kernel
  obtain ⟨ds, stored, files⟩ := Option.map_eq_some_iff.1 listed
  refine ⟨active, reactivated, complete, ds, stored, files, ?_⟩
  intro all
  have old : "/w/a.ts" ∈ ds.map (·.file.text) := by simp [files]
  obtain ⟨d, hd, file⟩ := List.mem_map.1 old
  have new := List.mem_map_of_mem (f := fun d : Diagnostic => d.file.text) (all d hd)
  rw [handled, file] at new
  simp at new

end Watcher

end DiagnosticWatch
