import DiagnosticWatch.Proofs.Watcher.Held
import DiagnosticWatch.Proofs.Watcher.WriteThrough

/-!
# Watchers that have forgotten nothing

A watcher is warm if it holds what the store holds, for every file of every project. A fresh watcher
is warm. It stays so until an entry is pushed out or is found to have expired, and as long as it
does, it answers for a file as if it had looked into the store (`lists_buckets`).
-/

namespace DiagnosticWatch

namespace Store

variable {s : Store} {id other : String} {file : Path}

/-- A completion takes away what it prunes. -/
theorem Placed.file?_completePass_eq (h : s.Placed) {i : ProjectIndex}
    (hi : s.projects.get? id = some i) (other : String) (file : Path) :
    (s.completePass id).2.file? other file =
      if id = other ∧ i.prunes file = true then none else s.file? other file := by
  have hpruned : (s.completePass id).1 = some i.completePass.1 := by
    rw [completePass, hi, Option.map_some]
  have pruned : i.prunes file = true ↔ ∃ g ∈ i.completePass.1, g.location = file.location := by
    simp [ProjectIndex.prunes, Path.same]
  split
  · rename_i both
    obtain ⟨rfl, gone⟩ := both
    have none := (((h id i hi).mem_pruned_iff file).1 (pruned.1 gone)).2
    rw [file?, completePass, Table.get?_modify, if_pos rfl, hi, Option.map_some, Option.bind_some,
      none]
  · rename_i either
    refine h.file?_completePass hpruned ?_
    by_cases own : id = other
    · exact .inr fun g hg place => either ⟨own, pruned.2 ⟨g, hg, place⟩⟩
    · exact .inl own

theorem file?_clear (s : Store) (id : String) (file : Path) : s.clear.file? id file = none := by
  rw [file?, clear, Table.get?_map]
  cases s.projects.get? id <;> rfl

end Store

namespace Watcher

variable {w : Watcher} {now : Nat} {id other : String} {file path : Path}

theorem file?_onDiagnostic
    (known : ∀ p, w.workspace.project? id = some p → w.store.contains id = true) (now : Nat)
    (d : Diagnostic) (other : String) (g : Path) :
    (w.onDiagnostic now id d).store.file? other g =
      w.revise (.diagnostic id d) other g (w.store.file? other g) := by
  cases hp : w.workspace.project? id with
  | none => rw [onDiagnostic_of_unknown hp, revise_diagnostic_of_unregistered hp]
  | some p =>
      rw [onDiagnostic_of_known hp, revise_diagnostic hp (known p hp)]
      split
      · rfl
      · rename_i unequal
        refine Store.file?_insert_of_ne ?_
        by_cases own : id = other
        · exact .inr fun place => unequal (keyOf_eq_iff.2 ⟨own, place⟩)
        · exact .inl own

theorem file?_onPhase (placed : w.store.Placed) (now : Nat) (id message : String) (other : String)
    (file : Path) :
    (w.onPhase now id message).store.file? other file =
      w.revise (.phase id message) other file (w.store.file? other file) := by
  rw [onPhase]
  cases signal : PhaseSignal.classify message with
  | passStarted =>
      rw [revise_phase_of_incomplete (by simp [signal])]
      exact Store.file?_beginPass w.store id other file
  | passCompleted =>
      cases hi : w.store.projects.get? id with
      | none =>
          rw [revise_of_unknown (.phase id message) hi]
          simp only [completePass_of_unknown hi, flush_store]
      | some i =>
          rw [revise_phase_of_complete signal hi, ← placed.file?_completePass_eq hi]
          simp only [completePass_of_known hi]
          rfl
  | other => rw [revise_phase_of_incomplete (by simp [signal])]

/-- An event makes of what the store holds what it makes of what is held. -/
theorem file?_handle (placed : w.store.Placed) (now : Nat) (e : SessionEvent) (id : String)
    (file : Path) :
    (w.handle now e).store.file? id file = w.revise e id file (w.store.file? id file) := by
  refine handle_cases ?unknown ?diagnostic ?phase ?exited e
  case unknown =>
    intro e unknown
    rw [revise_of_unknown e unknown]
  case diagnostic => exact fun other d known => file?_onDiagnostic (fun _ _ => known) now d id file
  case phase => exact fun other message _ => file?_onPhase placed now other message id file
  case exited =>
    intro other _
    rw [onExit_store, revise_exited]

/-- What is held is what the store holds. -/
def Warm (w : Watcher) : Prop :=
  ∀ id file, w.held? id file = w.store.file? id file

theorem fresh_warm (workspace : Workspace) (config : WatchConfig) (launcher : Launcher)
    (size : Option (Nat × Nat)) : (fresh workspace config launcher size).Warm := by
  intro id file
  have held : (fresh workspace config launcher size).held? id file = none := by
    cases size <;> rfl
  rw [held, Store.file?, fresh_index]
  split <;> rfl

namespace Warm

/-- Only the diagnostics count. -/
theorem congr {v : Watcher} (h : w.Warm) (store : v.store = w.store) (cache : v.cache = w.cache)
    (staged : v.staged = w.staged) : v.Warm := by
  intro id file
  rw [held?_congr staged cache (by rw [store]), store]
  exact h id file

theorem onDiagnostic (h : w.Warm) {d : Diagnostic}
    (known : ∀ p, w.workspace.project? id = some p → w.store.contains id = true)
    (calm : (w.onDiagnostic now id d).cache.evictions = w.cache.evictions) :
    (w.onDiagnostic now id d).Warm := by
  intro other file
  rw [held?_onDiagnostic known calm, file?_onDiagnostic known, h]

theorem onPhase (h : w.Warm) (placed : w.store.Placed) {message : String}
    (calm : (w.onPhase now id message).cache.evictions = w.cache.evictions) :
    (w.onPhase now id message).Warm := by
  intro other file
  rw [held?_onPhase calm, file?_onPhase placed, h]

theorem onExit (h : w.Warm)
    (calm : (w.onExit now id).cache.evictions = w.cache.evictions) : (w.onExit now id).Warm := by
  intro other file
  rw [held?_onExit calm, onExit_store, h]

theorem handle (h : w.Warm) (placed : w.store.Placed) {e : SessionEvent}
    (calm : (w.handle now e).cache.evictions = w.cache.evictions) : (w.handle now e).Warm := by
  intro id file
  rw [held?_handle calm, file?_handle placed, h]

theorem handling (h : w.Warm) (coherent : w.Coherent) {es : List (Nat × SessionEvent)}
    (calm : (w.handling es).cache.evictions = w.cache.evictions) : (w.handling es).Warm := by
  induction es generalizing w with
  | nil => exact h
  | cons timed es ih =>
      obtain ⟨first, rest⟩ := calm_cons calm
      exact ih (h.handle coherent.placed first) (coherent.handle timed.1 timed.2) rest

theorem lookupFile (h : w.Warm) (calm : (w.flush now).cache.evictions = w.cache.evictions)
    (living : ∀ id ∈ w.store.projectIds,
      (w.flush now).cache.Living now (Cache.keyOf id (w.placeOf path))) :
    (w.lookupFile now path).2.Warm := by
  intro id file
  rw [held?_lookupFile calm living, lookupFile_store, h]

/-- A file that is cleared is held nowhere, as in the store. -/
theorem clearFile (h : w.Warm) (calm : (w.flush now).cache.evictions = w.cache.evictions) :
    (w.clearFile now path).2.Warm := by
  intro id file
  have unstaged : (w.clearFile now path).2.staged = none := flush_staged w now
  have flushed : (w.flush now).cache.shown.look (Cache.keyOf id file) = w.store.file? id file := by
    rw [← held?_of_unstaged (flush_staged w now), held?_flush calm, h]
  rw [held?_of_unstaged unstaged]
  simp only [Watcher.clearFile, flush_store, placeOf_flush]
  rw [Cache.look_delete_projects, Store.file?_removeFile, flushed]
  have ids : (w.store.removeFile (w.placeOf path)).2.projectIds = w.store.projectIds :=
    Table.keys_map ..
  rw [ids]
  by_cases cleared : file.location = (w.placeOf path).location
  · rw [if_pos cleared]
    split
    · rfl
    · -- A project whose key is not deleted is unknown, and the store holds nothing for it.
      rename_i unknown
      cases stored : w.store.file? id file with
      | none => rfl
      | some ds =>
          have known := Table.contains_iff_mem_keys.1 (Store.contains_of_file? stored)
          exact absurd ⟨id, known, keyOf_eq_iff.2 ⟨rfl, cleared.symm⟩⟩ unknown
  · rw [if_neg cleared, if_neg]
    rintro ⟨other, -, same⟩
    exact cleared (keyOf_eq_iff.1 same).2.symm

theorem clearAll (w : Watcher) : w.clearAll.Warm := by
  intro id file
  rw [held?_of_unstaged rfl]
  exact (Store.file?_clear w.store id file).symm

end Warm

/-- No operation takes an eviction back. -/
theorem evictions_perform (w : Watcher) (now : Nat) (op : Operation) :
    w.cache.evictions ≤ (w.perform now op).2.cache.evictions := by
  cases op with
  | start =>
      simp only [perform, Prod.map]
      rw [← start_data]
      exact Nat.le_refl _
  | stop =>
      simp only [perform]
      rw [← stop_data]
      exact Nat.le_refl _
  | diagnostic id d => exact evictions_onDiagnostic w now id d
  | phase id message => exact evictions_onPhase w now id message
  | exit id => exact evictions_onExit w now id
  | event e => exact evictions_handle w now e
  | drainQueue =>
      simp only [perform, Prod.map, drainQueue_snd, id]
      exact evictions_handling { w with queue := [] } _
  | file path =>
      simp only [perform, Prod.map, fileDiagnostics_snd, evictions_lookupFile, id]
      exact evictions_flush w now
  | hasErrors path =>
      cases path with
      | none => exact Nat.le_refl _
      | some path =>
          simp only [perform, Prod.map, fileHasErrors, evictions_lookupFile, id]
          exact evictions_flush w now
  | clearFile path =>
      simp only [perform, Prod.map, clearFile, Cache.evictions_delete_projects, id]
      exact evictions_flush w now
  | _ => exact Nat.le_refl _

/-- Every operation that pushes nothing out and finds nothing expired keeps a watcher warm. -/
theorem Warm.perform (h : w.Warm) (coherent : w.Coherent) {timed : Nat × Operation}
    (unexpired : w.Unexpired timed)
    (calm : (w.performAt timed).2.cache.evictions = w.cache.evictions) :
    (w.performAt timed).2.Warm := by
  obtain ⟨now, op⟩ := timed
  cases op with
  | start =>
      simp only [performAt, Watcher.perform, Prod.map]
      rw [← start_data]
      exact h.congr rfl rfl rfl
  | stop =>
      simp only [performAt, Watcher.perform]
      rw [← stop_data]
      exact h.congr rfl rfl rfl
  | diagnostic id d => exact h.onDiagnostic (coherent.known id) calm
  | phase id message => exact h.onPhase coherent.placed calm
  | exit id => exact h.onExit calm
  | event e => exact h.handle coherent.placed calm
  | drainQueue =>
      have emptied : { w with queue := [] }.Warm := h.congr rfl rfl rfl
      have coherent' : { w with queue := [] }.Coherent := coherent.congr rfl rfl rfl rfl
      simp only [performAt, Watcher.perform, Prod.map, drainQueue_snd, id] at calm ⊢
      exact emptied.handling coherent' calm
  | file path =>
      simp only [performAt, Watcher.perform, Prod.map, fileDiagnostics_snd, evictions_lookupFile,
        id] at calm ⊢
      exact h.lookupFile calm (unexpired path rfl)
  | hasErrors path =>
      cases path with
      | none => exact h
      | some path =>
          simp only [performAt, Watcher.perform, Prod.map, fileHasErrors, evictions_lookupFile,
            id] at calm ⊢
          exact h.lookupFile calm (unexpired path rfl)
  | clearFile path =>
      simp only [performAt, Watcher.perform, Prod.map, id] at calm ⊢
      refine h.clearFile ?_
      simpa only [Watcher.clearFile, Cache.evictions_delete_projects] using calm
  | clearAll => exact Warm.clearAll w
  | enqueue | subscribe | collect | unsubscribe => exact h.congr rfl rfl rfl
  | all | package | count | status | projectState => exact h

theorem Warm.after (h : w.Warm) (coherent : w.Coherent) {ops : List (Nat × Operation)}
    (unexpired : Throughout Unexpired performAt ops w)
    (level : (w.after ops).cache.evictions ≤ w.cache.evictions) : (w.after ops).Warm := by
  have grows (v : Watcher) (timed : Nat × Operation) :
      v.cache.evictions ≤ (v.performAt timed).2.cache.evictions :=
    evictions_perform v timed.1 timed.2
  have still := throughout_of_counter (f := fun v : Watcher => v.cache.evictions) grows ops level
  have keep (v : Watcher) (timed : Nat × Operation)
      (quiet : v.Unexpired timed ∧ (v.performAt timed).2.cache.evictions = v.cache.evictions)
      (h : v.Coherent ∧ v.Warm) : (v.performAt timed).2.Coherent ∧ (v.performAt timed).2.Warm :=
    ⟨h.1.perform timed.1 timed.2, h.2.perform h.1 quiet.1 quiet.2⟩
  exact (runAll_preserves_of_throughout keep ops ⟨coherent, h⟩ (unexpired.and still)).2

/-- As long as nothing has been pushed out and nothing is found to have expired, a query for a file
lists every bucket that the store holds for it, project by project in ascending order of their ids.
It is a hit exactly if there is one, and finds an error exactly if one of them has one. -/
theorem lists_buckets (workspace : Workspace) (config : WatchConfig) (launcher : Launcher)
    (size : Option (Nat × Nat)) (ops : List (Nat × Operation)) (now : Nat) (path : Path)
    (unexpired : Throughout Unexpired performAt ops (fresh workspace config launcher size)) :
    let w := (fresh workspace config launcher size).after ops
    let file := w.placeOf path
    w.Unexpired (now, .file path) → (w.flush now).cache.evictions = 0 →
      (∃ hit, (w.fileDiagnostics now path).1 =
          .of now file.text (w.store.bucketsOf file).flatten hit ∧
        (hit = true ↔ ∃ id ds, w.store.file? id file = some ds)) ∧
      ((w.fileHasErrors now path).1 = true ↔
        ∃ id ds, w.store.file? id file = some ds ∧ ds.any (·.isError) = true) := by
  intro w file living roomy
  have none : (fresh workspace config launcher size).cache.evictions = 0 := by
    cases size <;> rfl
  have before : w.cache.evictions = 0 :=
    Nat.le_zero.1 (Nat.le_trans (evictions_flush w now) (Nat.le_of_eq roomy))
  have warm : w.Warm := (fresh_warm workspace config launcher size).after
    (fresh_coherent workspace config launcher size) unexpired
    (Nat.le_of_eq (before.trans none.symm))
  have found : w.found now path = w.store.bucketsOf file := by
    rw [found_eq_held (roomy.trans before.symm) (living path rfl)]
    exact congrArg (w.store.projectIds.filterMap ·) (funext fun id => warm id file)
  have member (ds : List Diagnostic) :
      ds ∈ w.store.bucketsOf file ↔ ∃ id, w.store.file? id file = some ds := by
    rw [Store.bucketsOf, List.mem_filterMap]
    constructor
    · rintro ⟨id, -, stored⟩
      exact ⟨id, stored⟩
    · rintro ⟨id, stored⟩
      exact ⟨id, Table.contains_iff_mem_keys.1 (Store.contains_of_file? stored), stored⟩
  refine ⟨⟨!(w.store.bucketsOf file).isEmpty, ?_, ?_⟩, ?_⟩
  · rw [fileDiagnostics_fst, found]
  · rw [Bool.not_eq_true', List.isEmpty_eq_false_iff_exists_mem]
    simp only [member]
    exact exists_comm
  · rw [fileHasErrors_fst, found]
    simp only [List.any_eq_true, member]
    constructor
    · rintro ⟨ds, ⟨id, stored⟩, error⟩
      exact ⟨id, ds, stored, error⟩
    · rintro ⟨id, ds, stored, error⟩
      exact ⟨ds, ⟨id, stored⟩, error⟩

/-- Two projects report a file that they share; one of them reports another file in between. -/
def crossing : List (Nat × Operation) :=
  [(1, .event (reportOf "lib" .warning "../shared.ts" 1)),
    (2, .event (reportOf "app" .error "a.ts" 2)), (3, .file ⟨"app/a.ts"⟩),
    (4, .event (reportOf "app" .error "../shared.ts" 3))]

theorem lists_buckets_crossing :
    let w := (fresh pairWorkspace {} willing (some (3, 100))).after crossing
    let file := w.placeOf ⟨"lib/../shared.ts"⟩
    (Throughout Unexpired performAt crossing (fresh pairWorkspace {} willing (some (3, 100))) ∧
      w.Unexpired (5, .file ⟨"lib/../shared.ts"⟩) ∧ (w.flush 5).cache.evictions = 0) ∧
    (w.store.bucketsOf file).length = 2 ∧
    (∃ hit, (w.fileDiagnostics 5 ⟨"lib/../shared.ts"⟩).1 =
        .of 5 file.text (w.store.bucketsOf file).flatten hit ∧
      (hit = true ↔ ∃ id ds, w.store.file? id file = some ds)) ∧
    ((w.fileHasErrors 5 ⟨"lib/../shared.ts"⟩).1 = true ↔
      ∃ id ds, w.store.file? id file = some ds ∧ ds.any (·.isError) = true) := by
  dsimp only
  have unexpired : Throughout Unexpired performAt crossing
      (fresh pairWorkspace {} willing (some (3, 100))) := by decide +kernel
  have living : ((fresh pairWorkspace {} willing (some (3, 100))).after crossing).Unexpired
      (5, .file ⟨"lib/../shared.ts"⟩) := by decide +kernel
  have roomy : (((fresh pairWorkspace {} willing (some (3, 100))).after crossing).flush
      5).cache.evictions = 0 := by decide +kernel
  have shared := lists_buckets pairWorkspace {} willing (some (3, 100)) crossing 5
    ⟨"lib/../shared.ts"⟩ unexpired living roomy
  exact ⟨⟨unexpired, living, roomy⟩, by decide +kernel, shared⟩

end Watcher

end DiagnosticWatch
