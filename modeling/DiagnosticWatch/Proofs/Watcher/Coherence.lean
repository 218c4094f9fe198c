import DiagnosticWatch.Proofs.Cache.Entries
import DiagnosticWatch.Proofs.Store.Step
import DiagnosticWatch.Proofs.Watcher.Frame

/-!
# Store and cache agree

The cache of a watcher may forget, but what it holds is what the store holds. The invariant that
carries this through every operation also speaks about the staged bucket: its key is not cached, and
the store holds diagnostics of the open pass for it. `after_coherent` says so for every run of a
fresh watcher, at any capacity and whichever way entries expire. Nothing is claimed about what the
cache keeps.
-/

namespace DiagnosticWatch

/-- The store holds for the key of an entry what the entry shows. -/
def Store.Backs (s : Store) (e : CacheEntry) : Prop :=
  e.file.location = e.key.place ∧ s.file? e.key.project e.file = some e.diagnostics

/-- A staged bucket is of the open pass of its project, is not empty and is not cached. -/
structure Staged.Filling (b : Staged) (s : Store) (c : Cache) : Prop where
  uncached : ∀ e ∈ c.entries, e.key ≠ Cache.keyOf b.project b.file
  stored : ∃ p bucket, s.projects.get? b.project = some p ∧
    p.files.get? b.file.location = some bucket ∧ bucket.diagnostics ≠ [] ∧
      p.passOpen = true ∧ bucket.pass = p.pass

namespace Watcher

/-- Store, cache and staged bucket fit together. -/
structure Coherent (w : Watcher) : Prop where
  known : ∀ id p, w.workspace.project? id = some p → w.store.contains id = true
  placed : w.store.Placed
  backed : ∀ e ∈ w.cache.entries, w.store.Backs e
  filling : ∀ b, w.staged = some b → b.Filling w.store w.cache

variable {w : Watcher} {now : Nat}

/-- Registering projects makes the new ones known and leaves the others as they are. -/
theorem get?_registerAll (ps : List Project) (s : Store) (id : String) :
    (ps.foldl (fun s p => s.register p.id) s).projects.get? id =
      (s.projects.get? id).or (if ps.any (·.id == id) then some {} else none) := by
  induction ps generalizing s with
  | nil => simp
  | cons p ps ih =>
      have step : (s.register p.id).projects.get? id = _ := Store.get?_perform s (.register p.id) id
      rw [List.foldl_cons, ih, step]
      cases s.projects.get? id with
      | some i => rfl
      | none => by_cases here : p.id = id <;> simp [here]

/-- A fresh watcher knows the projects of its workspace, and nothing else about them. -/
theorem fresh_index (workspace : Workspace) (config : WatchConfig) (launcher : Launcher)
    (size : Option (Nat × Nat)) (id : String) :
    (fresh workspace config launcher size).store.projects.get? id =
      if workspace.projects.any (·.id == id) then some {} else none := by
  have registered := get?_registerAll workspace.projects .empty id
  cases size with
  | none => exact registered
  | some size => exact registered

theorem fresh_index_of_project? {workspace : Workspace} {id : String} {p : Project}
    (hp : workspace.project? id = some p) (config : WatchConfig) (launcher : Launcher)
    (size : Option (Nat × Nat)) :
    (fresh workspace config launcher size).store.projects.get? id = some {} := by
  have member : workspace.projects.any (·.id == id) = true := by
    rw [List.any_eq_true]
    exact ⟨p, List.mem_of_find?_eq_some hp, by simp [Workspace.id_of_project? hp]⟩
  rw [fresh_index, if_pos member]

@[simp] theorem fresh_workspace (workspace : Workspace) (config : WatchConfig)
    (launcher : Launcher) (size : Option (Nat × Nat)) :
    (fresh workspace config launcher size).workspace = workspace := by
  cases size <;> rfl

theorem fresh_coherent (workspace : Workspace) (config : WatchConfig) (launcher : Launcher)
    (size : Option (Nat × Nat)) : (fresh workspace config launcher size).Coherent where
  known := fun id p hp => by
    rw [fresh_workspace] at hp
    exact Store.contains_iff_get?.2 ⟨{}, fresh_index_of_project? hp config launcher size⟩
  placed := fun id i hi => by
    rw [fresh_index] at hi
    split at hi
    · cases hi
      exact ProjectIndex.placed_empty
    · cases hi
  backed := fun e he => by cases size <;> cases he
  filling := fun b hb => by cases size <;> cases hb

namespace Coherent

/-- Coherence looks at the workspace and the diagnostics only. -/
theorem congr {v : Watcher} (h : w.Coherent) (workspace : v.workspace = w.workspace)
    (store : v.store = w.store) (cache : v.cache = w.cache) (staged : v.staged = w.staged) :
    v.Coherent := by
  refine ⟨?_, ?_, ?_, ?_⟩
  · rw [workspace, store]
    exact h.known
  · rw [store]
    exact h.placed
  · rw [store, cache]
    exact h.backed
  · rw [store, cache, staged]
    exact h.filling

/-- A cache that holds less is coherent as well. -/
theorem shrink (h : w.Coherent) {cache : Cache} (less : ∀ e ∈ cache.entries, e ∈ w.cache.entries) :
    { w with cache }.Coherent where
  known := h.known
  placed := h.placed
  backed := fun e he => h.backed e (less e he)
  filling := fun b hb =>
    ⟨fun e he => (h.filling b hb).uncached e (less e he), (h.filling b hb).stored⟩

theorem flush (h : w.Coherent) (now : Nat) : (w.flush now).Coherent := by
  rw [Watcher.flush]
  split
  · exact h
  · rename_i b hb
    simp only
    split
    · refine ⟨h.known, h.placed, h.backed, ?_⟩
      intro b' hb'
      cases hb'
    · rename_i bucket hbucket
      refine ⟨h.known, h.placed, ?_, ?_⟩
      · intro e he
        obtain ⟨hkey, hds, hfile⟩ | ⟨he, -⟩ := Cache.mem_set he
        · have place : e.file.location = b.file.location := by
            obtain hfile | ⟨old, hold, hkeyOld, -⟩ := hfile
            · rw [hfile]
            · exact absurd hkeyOld ((h.filling b hb).uncached old hold)
          refine ⟨by rw [place, hkey]; rfl, ?_⟩
          rw [hkey, hds, Store.file?_congr place]
          exact hbucket
        · exact h.backed e he
      · intro b' hb'
        cases hb'

end Coherent

@[simp] theorem flush_workspace (w : Watcher) (now : Nat) :
    (w.flush now).workspace = w.workspace :=
  congrArg Prod.fst (flush_setup w now)

namespace Coherent

/-- Behind staging, the store still backs the cache, the bucket is staged and its key is not cached.
Whether the store holds the bucket is left open. -/
theorem stage (h : w.Coherent) (now : Nat) (id : String) (file : Path) :
    (∃ b, (w.stage now id file).staged = some b ∧ b.project = id ∧
        b.file.location = file.location) ∧
      ∀ e ∈ (w.stage now id file).cache.entries,
        w.store.Backs e ∧ e.key ≠ Cache.keyOf id file := by
  rw [Watcher.stage]
  split
  · rename_i already
    obtain ⟨b, hb, hid, hplace⟩ := isStaged_iff.1 already
    refine ⟨⟨b, hb, hid, hplace⟩, ?_⟩
    intro e he
    have unequal := (h.filling b hb).uncached e he
    refine ⟨h.backed e he, ?_⟩
    rwa [Cache.keyOf, ← hplace, ← hid]
  · refine ⟨⟨_, rfl, rfl, rfl⟩, ?_⟩
    intro e he
    obtain ⟨he, hkey⟩ := Cache.mem_delete.1 he
    have backed := (h.flush now).backed e he
    rw [flush_store] at backed
    exact ⟨backed, hkey⟩

/-- Inserting into the store behind staging fills the staged bucket and no other one. -/
theorem insert (h : w.Coherent) (now : Nat) {id : String} {d : Diagnostic}
    (known : w.store.contains id = true) :
    { w.stage now id d.file with store := (w.store.insert id d).2 }.Coherent := by
  obtain ⟨⟨b, hb, hid, hplace⟩, entries⟩ := h.stage now id d.file
  obtain ⟨p, hp⟩ := Store.contains_iff_get?.1 known
  have inserted : (w.store.insert id d).2.projects.get? id = some (p.insert d) := by
    change (w.store.perform (.insert id d)).2.projects.get? id = _
    rw [Store.get?_perform_of_some hp]
    simp [Store.Operation.onIndex]
  refine ⟨?_, h.placed.perform (.insert id d), ?_, ?_⟩
  · intro other q hq
    have workspace : (w.stage now id d.file).workspace = w.workspace := by
      rw [stage_eq_withData]
      rfl
    rw [workspace] at hq
    exact Store.contains_perform (h.known other q hq) (.insert id d)
  · intro e he
    obtain ⟨⟨placed, hfile⟩, hkey⟩ := entries e he
    refine ⟨placed, (Store.file?_insert_of_ne ?_).trans hfile⟩
    by_cases sameProject : id = e.key.project
    · right
      intro samePlace
      apply hkey
      cases hek : e.key with
      | mk project place =>
          simp only [hek] at sameProject placed
          rw [Cache.keyOf, sameProject, samePlace, placed]
    · exact .inl sameProject
  · intro b' hb'
    obtain rfl : b = b' := Option.some.inj (hb.symm.trans hb')
    refine ⟨?_, p.insert d, p.refilled d, ?_, ?_, ?_, ?_, ?_⟩
    · intro e he
      rw [Cache.keyOf, hid, hplace]
      exact (entries e he).2
    · rwa [hid]
    · rw [hplace, ProjectIndex.get?_insert, if_pos rfl]
    · exact ProjectIndex.refilled_ne_nil p d
    · exact ProjectIndex.insert_passOpen p d
    · exact ProjectIndex.refilled_pass p d

theorem onDiagnostic (h : w.Coherent) (now : Nat) (id : String) (d : Diagnostic) :
    (w.onDiagnostic now id d).Coherent := by
  cases hp : w.workspace.project? id with
  | none =>
      rw [onDiagnostic_of_unknown hp]
      exact h
  | some p =>
      rw [onDiagnostic_of_known hp]
      exact h.insert now (h.known id p hp)

theorem beginPass (h : w.Coherent) (id : String) :
    { w with store := (w.store.beginPass id).2 }.Coherent := by
  refine ⟨?_, h.placed.perform (.beginPass id), ?_, ?_⟩
  · intro other p hp
    exact Store.contains_perform (h.known other p hp) (.beginPass id)
  · intro e he
    obtain ⟨hplace, hfile⟩ := h.backed e he
    exact ⟨hplace, by rw [Store.file?_beginPass, hfile]⟩
  · intro b hb
    obtain ⟨uncached, p, bucket, hp, hbucket, filled, isOpen, pass⟩ := h.filling b hb
    have same : (w.store.beginPass id).2.projects.get? b.project = some p := by
      change (w.store.perform (.beginPass id)).2.projects.get? b.project = some p
      rw [Store.get?_perform_of_some hp, Store.Operation.onIndex]
      split
      · rw [ProjectIndex.beginPass_of_open isOpen]
      · rfl
    exact ⟨uncached, p, bucket, same, hbucket, filled, isOpen, pass⟩

/-- A completion leaves no bucket staged, and uncaches what it prunes. -/
theorem completePass (h : w.Coherent) (now : Nat) (id : String) :
    (w.completePass now id).Coherent := by
  have flushed := h.flush now
  rw [Watcher.completePass]
  simp only
  split
  · exact flushed
  · rename_i pruned store hcomplete
    have hpruned : ((w.flush now).store.completePass id).1 = some pruned := by rw [hcomplete]
    have hstore : store = ((w.flush now).store.completePass id).2 := by rw [hcomplete]
    subst hstore
    refine ⟨?_, flushed.placed.perform (.completePass id), ?_, ?_⟩
    · intro other p hp
      exact Store.contains_perform (flushed.known other p hp) (.completePass id)
    · intro e he
      obtain ⟨he, unpruned⟩ := Cache.mem_delete_files.1 he
      obtain ⟨hplace, hfile⟩ := flushed.backed e he
      refine ⟨hplace, (flushed.placed.file?_completePass hpruned ?_).trans hfile⟩
      by_cases same : id = e.key.project
      · right
        intro g hg hgplace
        apply unpruned g hg
        rw [Cache.keyOf, hgplace, hplace, same]
      · exact .inl same
    · intro b hb
      exact absurd hb (flush_staged_ne_some w now b)

theorem onPhase (h : w.Coherent) (now : Nat) (id message : String) :
    (w.onPhase now id message).Coherent := by
  rw [Watcher.onPhase]
  split
  · exact h.beginPass id
  · exact h.completePass now id
  · exact h

theorem onExit (h : w.Coherent) (now : Nat) (id : String) : (w.onExit now id).Coherent := by
  rw [Watcher.onExit]
  split
  · exact h
  · rename_i s _
    have closed : { w.closeSession s with sessions := w.sessions.erase id }.Coherent :=
      h.congr rfl rfl rfl rfl
    exact (closed.flush now).congr rfl rfl rfl rfl

theorem handle (h : w.Coherent) (now : Nat) (e : SessionEvent) : (w.handle now e).Coherent := by
  refine handle_cases ?unknown ?diagnostic ?phase ?exited e
  case unknown => exact fun _ _ => h
  case diagnostic => exact fun id d _ => h.onDiagnostic now id d
  case phase => exact fun id message _ => h.onPhase now id message
  case exited => exact fun id _ => h.onExit now id

theorem drainQueue (h : w.Coherent) (now : Nat) : (w.drainQueue now).2.Coherent := by
  have emptied : { w with queue := [] }.Coherent := h.congr rfl rfl rfl rfl
  exact handleAll_preserves (fun _ e h => h.handle now e) w.queue emptied

theorem lookupFile (h : w.Coherent) (now : Nat) (path : Path) :
    (w.lookupFile now path).2.Coherent :=
  (h.flush now).shrink fun _ he => Cache.mem_of_mem_lookupFile he

theorem fileDiagnostics (h : w.Coherent) (now : Nat) (path : Path) :
    (w.fileDiagnostics now path).2.Coherent := by
  rw [fileDiagnostics_snd]
  exact h.lookupFile now path

/-- Every project that holds the file loses it in the store and in the cache. -/
theorem clearFile (h : w.Coherent) (now : Nat) (path : Path) :
    (w.clearFile now path).2.Coherent := by
  have flushed := h.flush now
  rw [Watcher.clearFile]
  simp only
  generalize (w.flush now).placeOf path = file
  refine ⟨?_, flushed.placed.perform (.removeFile file), ?_, ?_⟩
  · intro other p hp
    exact Store.contains_perform (flushed.known other p hp) (.removeFile file)
  · intro e he
    obtain ⟨he, uncleared⟩ := Cache.mem_delete_projects.1 he
    obtain ⟨hplace, hfile⟩ := flushed.backed e he
    have known : e.key.project ∈ ((w.flush now).store.removeFile file).2.projectIds := by
      refine Table.contains_iff_mem_keys.1 ?_
      exact Store.contains_perform (Store.contains_of_file? hfile) (.removeFile file)
    have elsewhere : e.file.location ≠ file.location := by
      intro same
      apply uncleared e.key.project known
      rw [Cache.keyOf, ← same, hplace]
    exact ⟨hplace, by rw [Store.file?_removeFile, if_neg elsewhere, hfile]⟩
  · intro b hb
    exact absurd hb (flush_staged_ne_some w now b)

theorem clearAll (h : w.Coherent) : w.clearAll.Coherent where
  known := fun id p hp => Store.contains_perform (h.known id p hp) .clear
  placed := h.placed.perform .clear
  backed := fun e he => by cases he
  filling := fun b hb => by cases hb

theorem start (h : w.Coherent) : w.start.2.Coherent := by
  have workspace : w.start.2.workspace = w.workspace := congrArg Prod.fst (start_setup w)
  rw [← start_data]
  exact h.congr workspace rfl rfl rfl

theorem stop (h : w.Coherent) : w.stop.Coherent := by
  have workspace : w.stop.workspace = w.workspace := congrArg Prod.fst (stop_setup w)
  rw [← stop_data]
  exact h.congr workspace rfl rfl rfl

/-- Every operation keeps store and cache coherent. -/
theorem perform (h : w.Coherent) (now : Nat) (op : Operation) : (w.perform now op).2.Coherent := by
  cases op with
  | start => exact h.start
  | stop => exact h.stop
  | diagnostic id d => exact h.onDiagnostic now id d
  | phase id message => exact h.onPhase now id message
  | exit id => exact h.onExit now id
  | event e => exact h.handle now e
  | drainQueue => exact h.drainQueue now
  | file path => exact h.fileDiagnostics now path
  | hasErrors path =>
      cases path with
      | none => exact h
      | some path => exact h.lookupFile now path
  | clearFile path => exact h.clearFile now path
  | clearAll => exact h.clearAll
  | enqueue | subscribe | collect | unsubscribe => exact h.congr rfl rfl rfl rfl
  | all | package | count | status | projectState => exact h

theorem after (h : w.Coherent) (ops : List (Nat × Operation)) : (w.after ops).Coherent :=
  runAll_preserves (fun _ timed h => h.perform timed.1 timed.2) ops h

/-- A coherent watcher passes its own check. -/
theorem verify (h : w.Coherent) : w.verify = .ok () := by
  have agree : w.disagreement? = none := by
    refine List.find?_eq_none.2 ?_
    intro e he
    simp [(h.backed e he).2]
  simp [Watcher.verify, agree]

end Coherent

/-- After every run of a fresh watcher each cached bucket is the one that the store holds, so the
check finds nothing; and a staged bucket is not cached, while the store holds diagnostics for it
that belong to the open pass of its project. -/
theorem after_coherent (workspace : Workspace) (config : WatchConfig) (launcher : Launcher)
    (size : Option (Nat × Nat)) (ops : List (Nat × Operation)) :
    let w := (fresh workspace config launcher size).after ops
    (∀ e ∈ w.cache.entries, e.file.location = e.key.place ∧
      w.store.file? e.key.project e.file = some e.diagnostics) ∧
    w.verify = .ok () ∧
    ∀ b, w.staged = some b →
      w.cache.find? (Cache.keyOf b.project b.file) = none ∧
        ∃ p bucket, w.store.projects.get? b.project = some p ∧
          p.files.get? b.file.location = some bucket ∧ bucket.diagnostics ≠ [] ∧
            p.passOpen = true ∧ bucket.pass = p.pass := by
  have h := (fresh_coherent workspace config launcher size).after ops
  refine ⟨h.backed, h.verify, ?_⟩
  intro b hb
  exact ⟨Cache.find?_eq_none_iff.2 (h.filling b hb).uncached, (h.filling b hb).stored⟩

/-- Two files in a row. The first one is cached once the second one comes. -/
def twoFiles : List (Nat × Operation) :=
  [(0, .start), (1, .event (soloError "a.ts" 1)), (2, .event (soloError "src/../b.ts" 2))]

theorem after_coherent_twoFiles :
    let w := (fresh soloWorkspace {} willing (some (1, 100))).after twoFiles
    (∃ e ∈ w.cache.entries, e.key = Cache.keyOf "app" ⟨"/w/a.ts"⟩ ∧
      w.store.file? e.key.project e.file = some e.diagnostics) ∧
    ∃ b, w.staged = some b ∧ b.file.text = "/w/b.ts" ∧
      w.cache.find? (Cache.keyOf b.project b.file) = none ∧
        ∃ p bucket, w.store.projects.get? b.project = some p ∧
          p.files.get? b.file.location = some bucket ∧ bucket.diagnostics ≠ [] ∧
            p.passOpen = true ∧ bucket.pass = p.pass := by
  intro w
  obtain ⟨backed, -, filling⟩ :=
    after_coherent soloWorkspace {} willing (some (1, 100)) twoFiles
  have cached : ∃ e ∈ w.cache.entries, e.key = Cache.keyOf "app" ⟨"/w/a.ts"⟩ := by decide +kernel
  have staged : w.staged = some { project := "app", file := ⟨"/w/b.ts"⟩ } := by decide +kernel
  obtain ⟨e, he, key⟩ := cached
  exact ⟨⟨e, he, key, (backed e he).2⟩, _, staged, rfl, filling _ staged⟩

end Watcher

end DiagnosticWatch
