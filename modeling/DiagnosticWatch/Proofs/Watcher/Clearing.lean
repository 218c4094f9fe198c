import DiagnosticWatch.Proofs.Watcher.Announcements

/-!
# Clearing one file

Clearing a file takes its buckets out of the store and out of the cache, and leaves every other
bucket alone. An open pass goes on behind it: the project numbers it as before and holds the same
buckets elsewhere, which every happening keeps so (`ProjectIndex.AlikeExcept`). Until the pass is
complete, whatever the file gets is of that pass (`ProjectIndex.Current`); so its bucket is what was
handled behind the clearing, the completion keeps it, and every other file is pruned if it would
have been pruned anyway.
-/

namespace DiagnosticWatch

namespace ProjectIndex

variable {i j : ProjectIndex} {place : Location}

/-- The same buckets except at one place, and the same pass. -/
structure AlikeExcept (place : Location) (i j : ProjectIndex) : Prop where
  files : ∀ other, other ≠ place → i.files.get? other = j.files.get? other
  pass : i.pass = j.pass
  passOpen : i.passOpen = j.passOpen

theorem alikeExcept_remove (i : ProjectIndex) (file : Path) :
    AlikeExcept file.location i (i.remove file) where
  files := by
    intro other elsewhere
    rw [get?_remove, if_neg elsewhere]
  pass := rfl
  passOpen := rfl

namespace AlikeExcept

theorem beginPass (h : AlikeExcept place i j) : AlikeExcept place i.beginPass j.beginPass where
  files := by simpa using h.files
  pass := by
    rw [ProjectIndex.beginPass, ProjectIndex.beginPass, h.passOpen, apply_ite ProjectIndex.pass,
      apply_ite ProjectIndex.pass, h.pass]
  passOpen := by simp

theorem insert (h : AlikeExcept place i j) (d : Diagnostic) :
    AlikeExcept place (i.insert d) (j.insert d) where
  files := by
    intro other elsewhere
    rw [get?_insert, get?_insert, h.files other elsewhere]
    split
    · rename_i here
      have bucket := h.files other elsewhere
      rw [← here] at bucket
      rw [refilled, refilled, bucket, h.beginPass.pass]
    · rfl
  pass := h.beginPass.pass
  passOpen := h.beginPass.passOpen

theorem completePass (h : AlikeExcept place i j) :
    AlikeExcept place i.completePass.2 j.completePass.2 where
  files := by
    intro other elsewhere
    rw [get?_completePass, get?_completePass, h.files other elsewhere, h.beginPass.pass]
  pass := h.beginPass.pass
  passOpen := rfl

theorem remove (h : AlikeExcept place i j) (file : Path) :
    AlikeExcept place (i.remove file) (j.remove file) where
  files := by
    intro other elsewhere
    rw [get?_remove, get?_remove, h.files other elsewhere]
  pass := h.pass
  passOpen := h.passOpen

theorem clear (h : AlikeExcept place i j) : AlikeExcept place i.clear j.clear where
  files := fun _ _ => rfl
  pass := h.pass
  passOpen := h.passOpen

theorem absorb (h : AlikeExcept place i j) (root : Path) (e : SessionEvent) :
    AlikeExcept place (i.absorb root e) (j.absorb root e) := by
  cases e with
  | diagnostic id d => exact h.insert _
  | phase id message =>
      simp only [ProjectIndex.absorb]
      cases PhaseSignal.classify message with
      | passStarted => exact h.beginPass
      | passCompleted => exact h.completePass
      | other => exact h
  | exited id => exact h

theorem undergo (h : AlikeExcept place i j) (p : Project) (e : Happening) :
    AlikeExcept place (i.undergo p e) (j.undergo p e) := by
  cases e with
  | event e =>
      simp only [ProjectIndex.undergo]
      split
      · exact h.absorb p.root e
      · exact h
  | clearedFile file => exact h.remove file
  | clearedAll => exact h.clear

theorem history (h : AlikeExcept place i j) (p : Project) (hs : List Happening) :
    AlikeExcept place (hs.foldl (ProjectIndex.undergo p) i)
      (hs.foldl (ProjectIndex.undergo p) j) := by
  induction hs generalizing i j with
  | nil => exact h
  | cons e hs ih => exact ih (h.undergo p e)

theorem file? (h : AlikeExcept place i j) {file : Path} (elsewhere : file.location ≠ place) :
    i.file? file = j.file? file := by
  rw [ProjectIndex.file?, ProjectIndex.file?, h.files _ elsewhere]

end AlikeExcept

/-- What a place holds has come in the open pass, or will count as part of the next one. -/
def Current (place : Location) (i : ProjectIndex) : Prop :=
  ∀ b, i.files.get? place = some b → b.pass = i.beginPass.pass ∧ b.diagnostics ≠ []

theorem current_remove_self (i : ProjectIndex) (file : Path) :
    (i.remove file).Current file.location := by
  intro b hb
  rw [get?_remove, if_pos rfl] at hb
  cases hb

namespace Current

theorem beginPass (h : i.Current place) : i.beginPass.Current place := by
  intro b hb
  rw [beginPass_files] at hb
  rw [beginPass_beginPass]
  exact h b hb

theorem insert (h : i.Current place) (d : Diagnostic) : (i.insert d).Current place := by
  intro b hb
  have pass : (i.insert d).beginPass.pass = i.beginPass.pass := by
    rw [beginPass_of_open (insert_passOpen i d), insert_pass]
  rw [pass]
  rw [get?_insert] at hb
  split at hb
  · cases hb
    exact ⟨refilled_pass i d, refilled_ne_nil i d⟩
  · exact h b hb

theorem remove (h : i.Current place) (file : Path) : (i.remove file).Current place := by
  intro b hb
  rw [beginPass_remove]
  rw [get?_remove] at hb
  split at hb
  · cases hb
  · exact h b hb

/-- Until a pass is complete, a place keeps to the open one. -/
theorem undergo (h : i.Current place) {p : Project} {e : Happening}
    (incomplete : e.completes p.id = false) : (i.undergo p e).Current place := by
  cases e with
  | event e =>
      simp only [ProjectIndex.undergo]
      split
      · rename_i own
        cases e with
        | diagnostic id d => exact h.insert _
        | phase id message =>
            obtain rfl : id = p.id := own
            simp only [absorb]
            cases signal : PhaseSignal.classify message with
            | passStarted => exact h.beginPass
            | passCompleted => simp [Happening.completes, signal] at incomplete
            | other => exact h
        | exited id => exact h
      · exact h
  | clearedFile file => exact h.remove file
  | clearedAll =>
      intro b hb
      cases hb

theorem history (h : i.Current place) {p : Project} {hs : List Happening}
    (incomplete : ∀ e ∈ hs, e.completes p.id = false) :
    (hs.foldl (ProjectIndex.undergo p) i).Current place := by
  induction hs generalizing i with
  | nil => exact h
  | cons e hs ih =>
      obtain ⟨first, rest⟩ := List.forall_mem_cons.1 incomplete
      exact ih (h.undergo first) rest

/-- The bucket at such a place is what the open pass has brought. -/
theorem file? {file : Path} (h : i.Current file.location) :
    i.file? file =
      if i.brought file.location = [] then none else some (i.brought file.location) := by
  rw [ProjectIndex.file?, brought]
  cases hb : i.files.get? file.location with
  | none => rfl
  | some b =>
      obtain ⟨pass, filled⟩ := h b hb
      simp [pass, filled]

theorem file?_completePass {file : Path} (h : i.Current file.location) :
    i.completePass.2.file? file = i.file? file := by
  rw [ProjectIndex.file?, ProjectIndex.file?, get?_completePass]
  cases hb : i.files.get? file.location with
  | none => rfl
  | some b => simp [(h b hb).1]

end Current

/-- A completion prunes the same files if a place is not stale, but for that place. -/
theorem pruned_of_current (alike : AlikeExcept place i j) (placed : i.Placed)
    (current : j.Current place) :
    j.completePass.1 = i.completePass.1.filter fun f => f.location ≠ place := by
  let stale (k : ProjectIndex) : Table Location Bucket :=
    k.files.filter fun _ b => decide (b.pass ≠ k.beginPass.pass)
  have pruned (k : ProjectIndex) : k.completePass.1 = (stale k).values.map (·.file) := by
    simp only [ProjectIndex.completePass, beginPass_files, stale]
  have fewer : stale j = (stale i).filter fun other _ => decide (other ≠ place) := by
    apply Table.ext_get?
    intro other
    simp only [stale, Table.get?_filter]
    by_cases here : other = place
    · subst here
      simpa using fun b hb => (current b hb).1
    · simp [alike.files other here, alike.beginPass.pass, here]
  rw [pruned, pruned, fewer, Table.values, Table.values, List.map_map, List.map_map,
    List.filter_map]
  refine congrArg (List.map _) (List.filter_congr fun e he => ?_)
  have listed : (stale i).get? e.1 = some e.2 := Table.get?_eq_some_iff.2 he
  rw [Table.get?_filter] at listed
  have here : e.2.file.location = e.1 := placed _ _ (Option.filter_eq_some_iff.1 listed).1
  simp [here]

end ProjectIndex

namespace Project

variable {p : Project} {past since : List Happening} {file : Path}

/-- What the open pass holds for a file is what was handled and kept since the file was cleared. -/
theorem openDiagnostics_of_cleared (incomplete : ∀ h ∈ since, h.completes p.id = false) :
    (p.openDiagnostics (past ++ [.clearedFile file] ++ since)).filter
        (fun d => d.file.location = file.location) =
      (p.kept since).filter fun d => d.file.location = file.location := by
  induction since using List.reverseRecOn with
  | nil =>
      rw [List.append_nil, openDiagnostics_concat]
      simp [Happening.completes, Happening.drops, handled?, kept]
  | append_singleton since h ih =>
      have before := ih fun h' mem => incomplete h' (List.mem_append_left _ mem)
      have last := incomplete h (List.mem_append_right _ List.mem_cons_self)
      rw [← List.append_assoc, openDiagnostics_concat, last, kept_concat, if_neg (by simp),
        List.filter_append, List.filter_append]
      congr 1
      rw [List.filter_comm, before, List.filter_comm]

/-- Without another clearing of the file, all that was handled is kept. -/
theorem kept_of_undropped (undropped : ∀ h ∈ since, h.drops file.location = false) :
    (p.kept since).filter (fun d => d.file.location = file.location) =
      (p.handled since).filter fun d => d.file.location = file.location := by
  induction since with
  | nil => rfl
  | cons h since ih =>
      obtain ⟨-, rest⟩ := List.forall_mem_cons.1 undropped
      have last : since.any (·.drops file.location) = false := by simpa using rest
      rw [kept, handled, List.filterMap_cons, List.filter_append, ih rest, handled]
      cases p.handled? h with
      | none => rfl
      | some d =>
          by_cases here : d.file.location = file.location
          · simp [here, last, Option.filter]
          · cases since.any (·.drops d.file.location) <;> simp_all [Option.filter]

end Project

namespace Watcher

variable {w : Watcher} {past : List Happening}

theorem clearFile_store (w : Watcher) (now : Nat) (path : Path) :
    (w.clearFile now path).2.store = (w.store.removeFile (w.placeOf path)).2 := by
  simp only [clearFile, flush_store, placeOf, flush_workspace]

/-- It tells whether some project had a bucket for the file. -/
theorem clearFile_fst (w : Watcher) (now : Nat) (path : Path) :
    (w.clearFile now path).1 = true ↔ ∃ id ds, w.store.file? id (w.placeOf path) = some ds := by
  have place : (w.flush now).placeOf path = w.placeOf path := by
    rw [placeOf, placeOf, flush_workspace]
  simp only [clearFile, flush_store, place, Bool.not_eq_true', List.isEmpty_eq_false_iff_exists_mem,
    Store.removeFile]
  refine exists_congr fun id => ?_
  rw [← Table.contains_iff_mem_keys, Table.contains, Table.get?_filter, Store.file?]
  cases w.store.projects.get? id with
  | none => simp
  | some i =>
      cases h : i.files.get? (w.placeOf path).location <;>
        simp [ProjectIndex.file?, h, Table.contains, Option.filter]

theorem clearFile_workspace (w : Watcher) (now : Nat) (path : Path) :
    (w.clearFile now path).2.workspace = w.workspace :=
  congrArg Prod.fst (perform_setup w now (.clearFile path))

theorem clearFile_staged (w : Watcher) (now : Nat) (path : Path) :
    (w.clearFile now path).2.staged = none :=
  flush_staged w now

theorem file?_clearFile (w : Watcher) (now : Nat) (path : Path) (id : String) (file : Path) :
    (w.clearFile now path).2.store.file? id file =
      if file.location = (w.placeOf path).location then none else w.store.file? id file := by
  rw [clearFile_store, Store.file?_removeFile]

/-- The cache, which agrees with the store, does not hold the file either. -/
theorem Coherent.uncached_clearFile (h : w.Coherent) (now : Nat) (path : Path) :
    ∀ e ∈ (w.clearFile now path).2.cache.entries, e.key.place ≠ (w.placeOf path).location := by
  intro e he here
  obtain ⟨place, stored⟩ := (h.clearFile now path).backed e he
  rw [file?_clearFile, if_pos (place.trans here)] at stored
  cases stored

/-- The same run with and without the clearing takes every project through the same history. -/
theorem Follows.index_clearFile (f : w.Follows past) {p : Project}
    (registered : w.workspace.project? p.id = some p) (now : Nat) (path : Path)
    (later : List (Nat × Operation)) :
    let since := ((w.clearFile now path).2.history later).map (·.2)
    let i := past.foldl (ProjectIndex.undergo p) {}
    (w.after later).store.projects.get? p.id =
        some (since.foldl (ProjectIndex.undergo p) i) ∧
      ((w.clearFile now path).2.after later).store.projects.get? p.id =
        some (since.foldl (ProjectIndex.undergo p) (i.remove (w.placeOf path))) := by
  intro since i
  have workspace := clearFile_workspace w now path
  have same : since = (w.history later).map (·.2) :=
    congrArg _
      (history_congr workspace (congrArg Prod.fst (clearFile_onlyData w now path).intake) later)
  have known := (f.after later).known p (by rwa [after_workspace])
  have known' := ((f.clearFile now path).after later).known p (by rwa [after_workspace, workspace])
  rw [List.foldl_append] at known known'
  rw [List.foldl_concat] at known'
  exact ⟨by rw [known, same], known'⟩

/-- With and without the clearing a run ends with projects that are alike but for the file. -/
theorem Follows.alike_clearFile (f : w.Follows past) (now : Nat) (path : Path)
    (later : List (Nat × Operation)) (id : String) :
    ((w.after later).store.projects.get? id = none ∧
        ((w.clearFile now path).2.after later).store.projects.get? id = none) ∨
      ∃ i j, (w.after later).store.projects.get? id = some i ∧
        ((w.clearFile now path).2.after later).store.projects.get? id = some j ∧
          ProjectIndex.AlikeExcept (w.placeOf path).location i j := by
  have workspace := clearFile_workspace w now path
  cases registered : w.workspace.project? id with
  | none =>
      refine .inl
        ⟨(f.after later).unknown id ?_, ((f.clearFile now path).after later).unknown id ?_⟩
      · rwa [after_workspace]
      · rwa [after_workspace, workspace]
  | some p =>
      obtain rfl := Workspace.id_of_project? registered
      obtain ⟨known, known'⟩ := f.index_clearFile registered now path later
      exact .inr ⟨_, _, known, known', (ProjectIndex.alikeExcept_remove _ _).history p _⟩

/-- How the pass of a project goes on that is not complete since a file was cleared, compared with a
watcher that has been through the same without the clearing. -/
structure PassGoesOn (without cleared : Watcher) (file : Path) (p : Project)
    (since : List Happening) : Prop where
  /-- The file has the diagnostics that were handled since and not dropped again. -/
  bucket : cleared.store.file? p.id file =
    if (p.kept since).filter (fun d => d.file.location = file.location) = [] then none
    else some ((p.kept since).filter fun d => d.file.location = file.location)
  /-- These are all that were handled, if the file is not cleared once more. -/
  handled : (∀ h ∈ since, h.drops file.location = false) →
    (p.kept since).filter (fun d => d.file.location = file.location) =
      (p.handled since).filter fun d => d.file.location = file.location
  kept : ∀ now message, PhaseSignal.classify message = .passCompleted →
    (cleared.onPhase now p.id message).store.file? p.id file = cleared.store.file? p.id file
  pruned : ∃ files, (without.store.completePass p.id).1 = some files ∧
    (cleared.store.completePass p.id).1 = some (files.filter fun g => g.location ≠ file.location)
  elsewhere : ∀ now message id g, g.location ≠ file.location →
    (cleared.onPhase now p.id message).store.file? id g =
      (without.onPhase now p.id message).store.file? id g

theorem Follows.passGoesOn (f : w.Follows past) (coherent : w.Coherent) {p : Project}
    (registered : w.workspace.project? p.id = some p) (now : Nat) (path : Path)
    (later : List (Nat × Operation))
    (incomplete : ∀ h ∈ ((w.clearFile now path).2.history later).map (·.2),
      h.completes p.id = false) :
    PassGoesOn (w.after later) ((w.clearFile now path).2.after later) (w.placeOf path) p
      (((w.clearFile now path).2.history later).map (·.2)) := by
  obtain ⟨known, known'⟩ := f.index_clearFile registered now path later
  generalize ((w.clearFile now path).2.history later).map (·.2) = since at *
  generalize hi : past.foldl (ProjectIndex.undergo p) {} = i at known known'
  have alike := (ProjectIndex.alikeExcept_remove i (w.placeOf path)).history p since
  have current := (ProjectIndex.current_remove_self i (w.placeOf path)).history incomplete
  have brought : (since.foldl (ProjectIndex.undergo p) (i.remove (w.placeOf path))).brought
      (w.placeOf path).location =
        (p.kept since).filter fun d => d.file.location = (w.placeOf path).location := by
    have brings := ProjectIndex.brings_history p (past ++ [.clearedFile (w.placeOf path)] ++ since)
    rw [List.foldl_append, List.foldl_concat, hi] at brings
    rw [← Project.openDiagnostics_of_cleared incomplete]
    exact brings.brought _
  constructor
  case bucket =>
    rw [Store.file?, known', Option.bind_some, current.file?, brought]
  case handled => exact Project.kept_of_undropped
  case kept =>
    intro now' message complete
    have completed := index_onPhase known' p.root now' p.id message
    rw [if_pos rfl, ProjectIndex.absorb, complete] at completed
    rw [Store.file?, Store.file?, known', completed, Option.bind_some, Option.bind_some]
    exact current.file?_completePass
  case pruned =>
    have placed := ((coherent.after later).placed) p.id _ known
    refine ⟨_, by rw [Store.completePass, known]; rfl, ?_⟩
    rw [Store.completePass, known', Option.map_some,
      ProjectIndex.pruned_of_current alike placed current]
  case elsewhere =>
    intro now' message id g elsewhere
    obtain ⟨none, none'⟩ | ⟨i, j, some, some', alike⟩ := f.alike_clearFile now path later id
    · rw [Store.file?, Store.file?, absent_onPhase none, absent_onPhase none']
    · have left := index_onPhase some p.root now' p.id message
      have left' := index_onPhase some' p.root now' p.id message
      rw [Store.file?, Store.file?, left, left', Option.bind_some, Option.bind_some]
      split
      · exact ((alike.absorb p.root _).file? elsewhere).symm
      · exact (alike.file? elsewhere).symm

/-- Clearing a file tells whether some project had a bucket for it. Behind it no project has the
file in the store or in the cache, every other bucket in the store is as before, nothing is staged,
and clearing the file again finds nothing. A pass of a project that is not complete yet goes on: the
file gets what is handled from now on, the completion keeps that, and of the other files it prunes
those that it would have pruned. -/
theorem clearFile_exact (workspace : Workspace) (config : WatchConfig) (launcher : Launcher)
    (size : Option (Nat × Nat)) (ops : List (Nat × Operation)) (now : Nat) (path : Path) :
    let w := (fresh workspace config launcher size).after ops
    let file := w.placeOf path
    let v := (w.clearFile now path).2
    ((w.clearFile now path).1 = true ↔ ∃ id ds, w.store.file? id file = some ds) ∧
    (∀ id, v.store.file? id file = none) ∧
    (∀ e ∈ v.cache.entries, e.key.place ≠ file.location) ∧
    (∀ id g, g.location ≠ file.location → v.store.file? id g = w.store.file? id g) ∧
    v.staged = none ∧ (∀ again, (v.clearFile again path).1 = false) ∧
    ∀ p later, workspace.project? p.id = some p →
      (∀ h ∈ (v.history later).map (·.2), h.completes p.id = false) →
      PassGoesOn (w.after later) (v.after later) file p ((v.history later).map (·.2)) := by
  intro w file v
  have coherent : w.Coherent := (fresh_coherent workspace config launcher size).after ops
  have follows : w.Follows (((fresh workspace config launcher size).history ops).map (·.2)) := by
    simpa using (fresh_follows workspace config launcher size).after ops
  have site : w.workspace = workspace :=
    (after_workspace _ ops).trans (fresh_workspace workspace config launcher size)
  have gone (id : String) : v.store.file? id file = none := by
    rw [file?_clearFile, if_pos rfl]
  refine ⟨clearFile_fst w now path, gone, coherent.uncached_clearFile now path, ?_,
    clearFile_staged w now path, ?_, ?_⟩
  · intro id g elsewhere
    rw [file?_clearFile, if_neg elsewhere]
  · intro again
    have place : v.placeOf path = file := by rw [placeOf, clearFile_workspace]; rfl
    rw [← Bool.not_eq_true, clearFile_fst, place]
    simp [gone]
  · intro p later registered incomplete
    exact follows.passGoesOn coherent (by rwa [site]) now path later incomplete

/-- A complete pass over two files, and a second pass that has come to the first of them. -/
def secondLook : List (Nat × Operation) :=
  [(0, .start), (1, .event (soloError "a.ts" 1)), (2, .event (soloError "b.ts" 2)),
    (3, .event (.phase "app" "Found 2 errors.")), (4, .event (soloError "a.ts" 3))]

def anotherError : List (Nat × Operation) :=
  [(6, .event (soloError "src/../a.ts" 4))]

theorem clearFile_exact_secondLook :
    let w := (fresh soloWorkspace {} willing none).after secondLook
    let v := (w.clearFile 5 ⟨"a.ts"⟩).2
    let since := (v.history anotherError).map (·.2)
    soloWorkspace.project? soloProject.id = some soloProject ∧
    (∀ h ∈ since, h.completes soloProject.id = false) ∧ (v.clearFile 5 ⟨"a.ts"⟩).1 = false ∧
    PassGoesOn (w.after anotherError) (v.after anotherError) ⟨"/w/a.ts"⟩ soloProject since ∧
    ((soloProject.kept since).filter fun d =>
      d.file.location = Path.location ⟨"/w/a.ts"⟩).map (·.code) = [4] := by
  intro w v since
  have registered : soloWorkspace.project? soloProject.id = some soloProject := rfl
  have arrived : since = [.event (soloError "src/../a.ts" 4)] := rfl
  have incomplete : ∀ h ∈ since, h.completes soloProject.id = false := by
    rw [arrived]
    decide
  obtain ⟨-, -, -, -, -, again, goesOn⟩ :=
    clearFile_exact soloWorkspace {} willing none secondLook 5 ⟨"a.ts"⟩
  have place : w.placeOf ⟨"a.ts"⟩ = ⟨"/w/a.ts"⟩ := by
    rw [placeOf, after_workspace]
    decide
  refine ⟨registered, incomplete, again 5, ?_, ?_⟩
  · rw [← place]
    exact goesOn soloProject anotherError registered incomplete
  · rw [arrived]
    decide

end Watcher

end DiagnosticWatch
