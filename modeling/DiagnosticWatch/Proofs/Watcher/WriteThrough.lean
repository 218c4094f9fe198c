import DiagnosticWatch.Proofs.Cache.Recency
import DiagnosticWatch.Proofs.Watcher.Coherence

/-!
# Staging is writing through

A watcher that writes the whole bucket of a file to its cache with every diagnostic needs no staged
bucket. It is the reference here. `after_eq_writeThrough` says that staging cannot be told from it:
all answers and counters of requests are the same, and so are the caches once the staged bucket has
been flushed, entry by entry in order of use. The number of evictions is not claimed, since a staged
bucket that is forgotten never pushed anything out, nor is anything claimed for runs in which an
entry expires.
-/

namespace DiagnosticWatch.Watcher

/-- Takes a diagnostic of a project and writes the whole bucket of its file to the cache at once. -/
def writeThrough (w : Watcher) (now : Nat) (project : String) (d : Diagnostic) : Watcher :=
  match w.workspace.project? project with
  | none => w
  | some p =>
    let d := d.within p.root
    let store := (w.store.insert project d).2
    { w with
      store
      cache := w.cache.set now project d.file ((store.file? project d.file).getD []) }

/-- Takes an event like `handle`, but writes diagnostics through. -/
def handleThrough (w : Watcher) (now : Nat) (e : SessionEvent) : Watcher :=
  if !w.store.contains e.project then w
  else match e with
    | .diagnostic id d => w.writeThrough now id d
    | .phase id message => w.onPhase now id message
    | .exited id => w.onExit now id

/-- Carries out one operation like `performAt`, but writes diagnostics through. Nothing is ever
staged. -/
def performThrough (w : Watcher) (timed : Nat × Operation) : Answer × Watcher :=
  match timed.2 with
  | .diagnostic id d => (.done, w.writeThrough timed.1 id d)
  | .event e => (.done, w.handleThrough timed.1 e)
  | .drainQueue =>
    (.number w.queue.length,
      w.queue.foldl (fun w e => w.handleThrough timed.1 e) { w with queue := [] })
  | op => w.perform timed.1 op

/-- The path that an operation looks up in the cache. -/
def Operation.lookedUp? : Operation → Option Path
  | .file path => some path
  | .hasErrors path => path
  | _ => none

/-- Whether an operation finds no entry that has expired. Only a lookup looks at the age of an
entry. -/
def Unexpired (w : Watcher) (timed : Nat × Operation) : Prop :=
  ∀ path ∈ timed.2.lookedUp?, ∀ id ∈ w.store.projectIds,
    (w.flush timed.1).cache.Living timed.1 (Cache.keyOf id (w.placeOf path))

instance (w : Watcher) (timed : Nat × Operation) : Decidable (w.Unexpired timed) :=
  inferInstanceAs (Decidable (∀ path ∈ timed.2.lookedUp?, ∀ id ∈ w.store.projectIds,
    (w.flush timed.1).cache.Living timed.1 (Cache.keyOf id (w.placeOf path))))

/-- The watcher with a cache of the reference. -/
def through (w : Watcher) (c : Cache) : Watcher :=
  w.withData w.store c none

/-- A cache of the reference cannot be told from that of the watcher behind a flush. -/
structure Mirrors (w : Watcher) (c : Cache) : Prop where
  coherent : w.Coherent
  fits : c.Fits
  alike : ∀ now, (w.flush now).cache.Alike c

variable {w : Watcher} {c : Cache} {now : Nat}

theorem flush_through (w : Watcher) (c : Cache) (now : Nat) :
    (w.through c).flush now = w.through c :=
  flush_of_unstaged rfl now

/-- What a flush does to the cache depends on the diagnostics only. -/
theorem flush_cache_congr {v : Watcher} (staged : v.staged = w.staged) (cache : v.cache = w.cache)
    (same : ∀ b, w.staged = some b →
      v.store.file? b.project b.file = w.store.file? b.project b.file) (now : Nat) :
    (v.flush now).cache = (w.flush now).cache := by
  unfold flush
  rw [staged]
  cases hb : w.staged with
  | none => exact cache
  | some b =>
      simp only [same b hb]
      cases w.store.file? b.project b.file with
      | none => exact cache
      | some bucket => simp only [cache]

/-- A flush is not a request. -/
theorem flush_counters (w : Watcher) (now : Nat) :
    (w.flush now).cache.capacity = w.cache.capacity ∧ (w.flush now).cache.hits = w.cache.hits ∧
      (w.flush now).cache.misses = w.cache.misses := by
  rw [flush]
  split
  · exact ⟨rfl, rfl, rfl⟩
  · simp only
    split
    · exact ⟨rfl, rfl, rfl⟩
    · exact Cache.counters_set ..

namespace Mirrors

/-- If nothing is staged, the caches themselves cannot be told apart. -/
theorem of_unstaged (coherent : w.Coherent) (staged : w.staged = none) (fits : c.Fits)
    (alike : w.cache.Alike c) : w.Mirrors c where
  coherent
  fits
  alike := fun now => by rwa [flush_of_unstaged staged]

theorem flush (h : w.Mirrors c) (now : Nat) : (w.flush now).Mirrors c :=
  of_unstaged (h.coherent.flush now) (flush_staged w now) h.fits (h.alike now)

/-- Only the diagnostics count. -/
theorem congr {v : Watcher} (h : w.Mirrors c) (workspace : v.workspace = w.workspace)
    (store : v.store = w.store) (cache : v.cache = w.cache) (staged : v.staged = w.staged) :
    v.Mirrors c where
  coherent := h.coherent.congr workspace store cache staged
  fits := h.fits
  alike := fun now => by
    rw [flush_cache_congr staged cache (fun b _ => by rw [store]) now]
    exact h.alike now

end Mirrors

/-- A staged bucket is in the store. -/
theorem Coherent.file?_staged (h : w.Coherent) {b : Staged} (hb : w.staged = some b) :
    ∃ old, w.store.file? b.project b.file = some old := by
  obtain ⟨p, bucket, hp, hbucket, -⟩ := (h.filling b hb).stored
  exact ⟨bucket.diagnostics, by simp [Store.file?, ProjectIndex.file?, hp, hbucket]⟩

namespace Mirrors

/-- The next diagnostic of the staged bucket replaces what a flush would have written before. -/
theorem insert_staged (h : w.Mirrors c) {b : Staged} (hb : w.staged = some b) {store : Store}
    {file : Path} (place : b.file.location = file.location) {bucket : List Diagnostic}
    (hbucket : store.file? b.project file = some bucket) (now now' : Nat) :
    ({ w with store }.flush now').cache.Alike (c.set now b.project file bucket) := by
  obtain ⟨old, hold⟩ := h.coherent.file?_staged hb
  have before : (w.cache.set now' b.project b.file old).Alike c := by
    rw [← flush_cache_of_staged hb hold]
    exact h.alike now'
  have behind : ({ w with store }.flush now').cache = w.cache.set now' b.project b.file bucket :=
    flush_cache_of_staged (w := { w with store }) hb (by rw [Store.file?_congr place, hbucket]) now'
  rw [behind]
  exact Cache.alike_set_set.symm.trans (before.set now' now b.project place bucket)

/-- A new bucket is staged behind a flush, and its key is out of the cache until it is flushed
itself. -/
theorem insert_unstaged (h : w.Mirrors c) {store : Store} {id : String} {file : Path}
    {bucket : List Diagnostic} (hbucket : store.file? id file = some bucket) (now now' : Nat) :
    ({ w.flush now with
        store
        cache := ((w.flush now).cache.delete id file).2
        staged := some { project := id, file } }.flush now').cache.Alike
      (c.set now id file bucket) := by
  have flushed := h.alike now
  have fits : (w.flush now).cache.entries.length ≤ (w.flush now).cache.capacity := by
    have length := congrArg List.length flushed.shown
    simp only [Cache.shown, List.length_map] at length
    rw [length, flushed.capacity]
    exact h.fits.bounded
  rw [flush_cache_of_staged (b := { project := id, file }) rfl hbucket]
  exact (Cache.alike_set_delete fits).trans (flushed.set now now id rfl bucket)

theorem writeThrough (h : w.Mirrors c) (now : Nat) (id : String) (d : Diagnostic) :
    ∃ c', (w.through c).writeThrough now id d = (w.onDiagnostic now id d).through c' ∧
      (w.onDiagnostic now id d).Mirrors c' := by
  have coherent := h.coherent.onDiagnostic now id d
  cases hp : w.workspace.project? id with
  | none =>
      rw [onDiagnostic_of_unknown hp]
      exact ⟨c, by simp [Watcher.writeThrough, through, hp], h⟩
  | some p =>
      rw [onDiagnostic_of_known hp] at coherent ⊢
      obtain ⟨bucket, hbucket⟩ := Store.file?_insert_self (d := d.within p.root)
        (h.coherent.known id p hp)
      refine ⟨c.set now id (d.within p.root).file bucket, ?_, coherent, h.fits.set .., ?_⟩
      · rw [stage_eq_withData]
        simp only [Watcher.writeThrough, through, withData_workspace, hp]
        simp only [withData, hbucket, Option.getD_some]
      · intro now'
        rw [stage]
        split
        · rename_i already
          obtain ⟨b, hb, rfl, place⟩ := isStaged_iff.1 already
          exact h.insert_staged hb place hbucket now now'
        · exact h.insert_unstaged hbucket now now'

theorem beginPass (h : w.Mirrors c) (id : String) :
    { w with store := (w.store.beginPass id).2 }.Mirrors c where
  coherent := h.coherent.beginPass id
  fits := h.fits
  alike := fun now => by
    have same := flush_cache_congr (w := w) (v := { w with store := (w.store.beginPass id).2 })
      rfl rfl (fun b _ => Store.file?_beginPass w.store id b.project b.file) now
    rw [same]
    exact h.alike now

theorem completePass (h : w.Mirrors c) (now : Nat) (id : String) :
    ∃ c', (w.through c).completePass now id = (w.completePass now id).through c' ∧
      (w.completePass now id).Mirrors c' := by
  have coherent := h.coherent.completePass now id
  have flushed := h.flush now
  simp only [Watcher.completePass, flush_through] at coherent ⊢
  rw [flush_eq_withData] at coherent flushed ⊢
  have alike : (w.flush now).cache.Alike c := h.alike now
  simp only [through, withData] at coherent flushed ⊢
  cases hcomplete : w.store.completePass id with
  | mk pruned store =>
      simp only [hcomplete] at coherent ⊢
      cases pruned with
      | none => exact ⟨c, rfl, flushed⟩
      | some pruned =>
          exact ⟨_, rfl, of_unstaged coherent rfl (h.fits.delete_files pruned)
            (alike.delete_files pruned)⟩

theorem onPhase (h : w.Mirrors c) (now : Nat) (id message : String) :
    ∃ c', (w.through c).onPhase now id message = (w.onPhase now id message).through c' ∧
      (w.onPhase now id message).Mirrors c' := by
  unfold Watcher.onPhase
  cases PhaseSignal.classify message with
  | passStarted => exact ⟨c, rfl, h.beginPass id⟩
  | passCompleted => exact h.completePass now id
  | other => exact ⟨c, rfl, h⟩

theorem onExit (h : w.Mirrors c) (now : Nat) (id : String) :
    ∃ c', (w.through c).onExit now id = (w.onExit now id).through c' ∧
      (w.onExit now id).Mirrors c' := by
  unfold Watcher.onExit
  simp only [through, withData_sessions]
  cases hs : w.sessions.get? id with
  | none => exact ⟨c, rfl, h⟩
  | some s =>
      have closed : { w.closeSession s with sessions := w.sessions.erase id }.Mirrors c :=
        h.congr rfl rfl rfl rfl
      refine ⟨c, ?_, (closed.flush now).congr rfl rfl rfl rfl⟩
      simp only
      rw [flush_eq_withData { w.closeSession s with sessions := w.sessions.erase id }]
      rfl

theorem handle (h : w.Mirrors c) (now : Nat) (e : SessionEvent) :
    ∃ c', (w.through c).handleThrough now e = (w.handle now e).through c' ∧
      (w.handle now e).Mirrors c' := by
  unfold Watcher.handleThrough Watcher.handle
  change ∃ c', (if !w.store.contains e.project then _ else _) = _ ∧ _
  split
  · exact ⟨c, rfl, h⟩
  · cases e with
    | diagnostic id d => exact h.writeThrough now id d
    | phase id message => exact h.onPhase now id message
    | exited id => exact h.onExit now id

theorem handleAll (h : w.Mirrors c) (now : Nat) (es : List SessionEvent) :
    ∃ c', es.foldl (fun w e => w.handleThrough now e) (w.through c) =
        (es.foldl (fun w e => w.handle now e) w).through c' ∧
      (es.foldl (fun w e => w.handle now e) w).Mirrors c' := by
  induction es generalizing w c with
  | nil => exact ⟨c, rfl, h⟩
  | cons e es ih =>
      obtain ⟨c', step, next⟩ := h.handle now e
      rw [List.foldl_cons, List.foldl_cons, step]
      exact ih next

theorem lookupFile (h : w.Mirrors c) {now : Nat} {path : Path}
    (living : ∀ id ∈ w.store.projectIds,
      (w.flush now).cache.Living now (Cache.keyOf id (w.placeOf path)))
    (living' : ∀ id ∈ w.store.projectIds, c.Living now (Cache.keyOf id (w.placeOf path))) :
    ∃ c', (w.through c).lookupFile now path =
        ((w.lookupFile now path).1, (w.lookupFile now path).2.through c') ∧
      (w.lookupFile now path).2.Mirrors c' := by
  have coherent := h.coherent.lookupFile now path
  have place : (w.flush now).placeOf path = w.placeOf path := by
    rw [flush_eq_withData]
    rfl
  obtain ⟨found, next⟩ := (h.alike now).lookupFile living living'
  simp only [Watcher.lookupFile, flush_through, flush_store, place] at coherent ⊢
  refine ⟨(c.lookupFile now w.store.projectIds (w.placeOf path)).2, ?_, ?_⟩
  · rw [found, flush_eq_withData]
    rfl
  · exact of_unstaged coherent (flush_staged w now) (h.fits.lookupFile ..) next

theorem clearFile (h : w.Mirrors c) (now : Nat) (path : Path) :
    ∃ c', (w.through c).clearFile now path =
        ((w.clearFile now path).1, (w.clearFile now path).2.through c') ∧
      (w.clearFile now path).2.Mirrors c' := by
  have coherent := h.coherent.clearFile now path
  have alike : (w.flush now).cache.Alike c := h.alike now
  simp only [Watcher.clearFile, flush_through] at coherent ⊢
  rw [flush_eq_withData] at coherent ⊢
  exact ⟨_, rfl, of_unstaged coherent rfl (h.fits.delete_projects _) (alike.delete_projects _)⟩

theorem clearAll (h : w.Mirrors c) :
    ∃ c', (w.through c).clearAll = w.clearAll.through c' ∧ w.clearAll.Mirrors c' := by
  refine ⟨c.clear, rfl, of_unstaged h.coherent.clearAll rfl h.fits.clear ?_⟩
  obtain ⟨capacity, hits, misses⟩ := flush_counters w 0
  have flushed := h.alike 0
  exact ⟨capacity.symm.trans flushed.capacity, hits.symm.trans flushed.hits,
    misses.symm.trans flushed.misses, rfl⟩

theorem start (h : w.Mirrors c) :
    (w.through c).start = (w.start.1, w.start.2.through c) ∧ w.start.2.Mirrors c := by
  have workspace : w.start.2.workspace = w.workspace := congrArg Prod.fst (start_setup w)
  have data := start_data w
  refine ⟨?_, h.congr workspace (start_store w) ?_ ?_⟩
  · rw [through, start_withData, through, start_store]
  · rw [← data]
    rfl
  · rw [← data]
    rfl

theorem stop (h : w.Mirrors c) :
    (w.through c).stop = w.stop.through c ∧ w.stop.Mirrors c := by
  have workspace : w.stop.workspace = w.workspace := congrArg Prod.fst (stop_setup w)
  have data := stop_data w
  refine ⟨?_, h.congr workspace (stop_store w) ?_ ?_⟩
  · rw [through, stop_withData, through, stop_store]
  · rw [← data]
    rfl
  · rw [← data]
    rfl

theorem fileDiagnostics (h : w.Mirrors c) {now : Nat} {path : Path}
    (living : ∀ id ∈ w.store.projectIds,
      (w.flush now).cache.Living now (Cache.keyOf id (w.placeOf path)))
    (living' : ∀ id ∈ w.store.projectIds, c.Living now (Cache.keyOf id (w.placeOf path))) :
    ∃ c', (w.through c).fileDiagnostics now path =
        ((w.fileDiagnostics now path).1, (w.fileDiagnostics now path).2.through c') ∧
      (w.fileDiagnostics now path).2.Mirrors c' := by
  obtain ⟨c', same, next⟩ := h.lookupFile living living'
  have place : (w.through c).placeOf path = w.placeOf path := rfl
  refine ⟨c', ?_, ?_⟩
  · simp only [Watcher.fileDiagnostics, same, place]
    cases w.lookupFile now path with
    | mk found v => cases found <;> rfl
  · rw [Watcher.fileDiagnostics]
    cases hlook : w.lookupFile now path with
    | mk found v =>
        rw [hlook] at next
        cases found <;> exact next

/-- Every operation answers alike, unless it finds an expired entry, and keeps the relation. -/
theorem perform (h : w.Mirrors c) (timed : Nat × Operation) (calm : w.Unexpired timed)
    (calm' : (w.through c).Unexpired timed) :
    ∃ c', (w.through c).performThrough timed =
        ((w.performAt timed).1, (w.performAt timed).2.through c') ∧
      (w.performAt timed).2.Mirrors c' := by
  obtain ⟨now, op⟩ := timed
  cases op with
  | start =>
      obtain ⟨same, next⟩ := h.start
      exact ⟨c, by simp only [performThrough, performAt, Watcher.perform, same, Prod.map, id], next⟩
  | stop =>
      obtain ⟨same, next⟩ := h.stop
      exact ⟨c, by simp only [performThrough, performAt, Watcher.perform, same], next⟩
  | diagnostic id d =>
      obtain ⟨c', same, next⟩ := h.writeThrough now id d
      exact ⟨c', by simp only [performThrough, performAt, Watcher.perform, same], next⟩
  | phase id message =>
      obtain ⟨c', same, next⟩ := h.onPhase now id message
      exact ⟨c', by simp only [performThrough, performAt, Watcher.perform, same], next⟩
  | exit id =>
      obtain ⟨c', same, next⟩ := h.onExit now id
      exact ⟨c', by simp only [performThrough, performAt, Watcher.perform, same], next⟩
  | event e =>
      obtain ⟨c', same, next⟩ := h.handle now e
      exact ⟨c', by simp only [performThrough, performAt, Watcher.perform, same], next⟩
  | drainQueue =>
      have emptied : { w with queue := [] }.Mirrors c := h.congr rfl rfl rfl rfl
      obtain ⟨c', same, next⟩ := emptied.handleAll now w.queue
      exact ⟨c', congrArg (Prod.mk (Answer.number w.queue.length)) same, next⟩
  | file path =>
      rw [Unexpired, flush_through] at calm'
      obtain ⟨c', same, next⟩ := h.fileDiagnostics (calm path rfl) (calm' path rfl)
      exact ⟨c', by simp only [performThrough, performAt, Watcher.perform, same, Prod.map, id],
        next⟩
  | hasErrors path =>
      cases path with
      | none => exact ⟨c, rfl, h⟩
      | some path =>
          rw [Unexpired, flush_through] at calm'
          obtain ⟨c', same, next⟩ := h.lookupFile (calm path rfl) (calm' path rfl)
          refine ⟨c', ?_, next⟩
          simp only [performThrough, performAt, Watcher.perform, fileHasErrors, same, Prod.map, id]
  | clearFile path =>
      obtain ⟨c', same, next⟩ := h.clearFile now path
      exact ⟨c', by simp only [performThrough, performAt, Watcher.perform, same, Prod.map, id],
        next⟩
  | clearAll =>
      obtain ⟨c', same, next⟩ := h.clearAll
      exact ⟨c', by simp only [performThrough, performAt, Watcher.perform, same], next⟩
  | enqueue | subscribe | collect | unsubscribe => exact ⟨c, rfl, h.congr rfl rfl rfl rfl⟩
  | all | package | count | status | projectState => exact ⟨c, rfl, h⟩

theorem fresh (workspace : Workspace) (config : WatchConfig) (launcher : Launcher)
    (size : Option (Nat × Nat)) :
    (Watcher.fresh workspace config launcher size).Mirrors
      (Watcher.fresh workspace config launcher size).cache := by
  have coherent := fresh_coherent workspace config launcher size
  cases size with
  | none => exact of_unstaged coherent rfl (Cache.fits_create ..) ⟨rfl, rfl, rfl, rfl⟩
  | some size => exact of_unstaged coherent rfl (Cache.fits_create ..) ⟨rfl, rfl, rfl, rfl⟩

end Mirrors

/-- A fresh watcher that stages and one that writes through give the same answers along every run in
which neither finds an expired entry. Their counters of requests agree, and so do their caches
behind a flush, in keys, diagnostics and order of use. -/
theorem after_eq_writeThrough (workspace : Workspace) (config : WatchConfig) (launcher : Launcher)
    (size : Option (Nat × Nat)) (ops : List (Nat × Operation)) (now : Nat)
    (calm : Throughout Unexpired performAt ops (fresh workspace config launcher size))
    (calm' : Throughout Unexpired performThrough ops (fresh workspace config launcher size)) :
    let staging := runAll performAt ops (fresh workspace config launcher size)
    let through := runAll performThrough ops (fresh workspace config launcher size)
    staging.1 = through.1 ∧
      staging.2.cache.hits = through.2.cache.hits ∧
      staging.2.cache.misses = through.2.cache.misses ∧
      (staging.2.flush now).cache.shown = through.2.cache.shown := by
  have mirrors := Mirrors.fresh workspace config launcher size
  have unstaged : (fresh workspace config launcher size).through
      (fresh workspace config launcher size).cache = fresh workspace config launcher size := by
    cases size <;> rfl
  obtain ⟨answers, c, same, final⟩ := runAll_simulates
    (R := fun s t => ∃ c, t = s.through c ∧ s.Mirrors c)
    (fun s t timed related calm calm' => by
      obtain ⟨c, rfl, h⟩ := related
      obtain ⟨c', step, next⟩ := h.perform timed calm calm'
      rw [step]
      exact ⟨rfl, c', rfl, next⟩)
    ops ⟨_, unstaged.symm, mirrors⟩ calm calm'
  obtain ⟨-, hits, misses⟩ := flush_counters (runAll performAt ops
    (fresh workspace config launcher size)).2 now
  have alike := final.alike now
  simp only [same]
  exact ⟨answers, hits.symm.trans alike.hits, misses.symm.trans alike.misses, alike.shown⟩

/-- Files that push each other out of a cache with one place, each looked up while the other is in
it. -/
def oneSlot : List (Nat × Operation) :=
  [(1, .event (soloError "a.ts" 1)), (2, .event (soloError "b.ts" 2)), (3, .file ⟨"a.ts"⟩),
    (4, .hasErrors (some ⟨"b.ts"⟩)), (5, .clearFile ⟨"b.ts"⟩), (6, .event (soloError "a.ts" 3))]

theorem after_eq_writeThrough_oneSlot :
    let start := fresh soloWorkspace {} willing (some (1, 100))
    (Throughout Unexpired performAt oneSlot start ∧
      Throughout Unexpired performThrough oneSlot start) ∧
    ((runAll performAt oneSlot start).2.cache.hits = 1 ∧
      (runAll performAt oneSlot start).2.cache.misses = 1) ∧
    (runAll performAt oneSlot start).1 = (runAll performThrough oneSlot start).1 ∧
    (runAll performAt oneSlot start).2.cache.hits =
      (runAll performThrough oneSlot start).2.cache.hits ∧
    (runAll performAt oneSlot start).2.cache.misses =
      (runAll performThrough oneSlot start).2.cache.misses ∧
    ((runAll performAt oneSlot start).2.flush 7).cache.shown =
      (runAll performThrough oneSlot start).2.cache.shown := by
  dsimp only
  have calm : Throughout Unexpired performAt oneSlot
      (fresh soloWorkspace {} willing (some (1, 100))) := by decide +kernel
  have calm' : Throughout Unexpired performThrough oneSlot
      (fresh soloWorkspace {} willing (some (1, 100))) := by decide +kernel
  refine ⟨⟨calm, calm'⟩, ?_, ?_⟩
  · decide +kernel
  · exact after_eq_writeThrough soloWorkspace {} willing (some (1, 100)) oneSlot 7 calm calm'

end DiagnosticWatch.Watcher
