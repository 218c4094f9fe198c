import DiagnosticWatch.Proofs.Watcher.FileQuery

/-!
# What is held for a file

A bucket is written to the cache only after a while, so what the cache holds and the staged bucket
have to be taken together: `held?` does that. `revise` says what a session event makes of the bucket
that is known for a file, and it looks at the store only. As long as the counter of evictions stands
still, that is what becomes of what is held (`held?_handle`), and queries find what is held
(`found_eq_held`).
-/

namespace DiagnosticWatch

namespace ProjectIndex

/-- Whether completing a pass takes away the bucket of a file. -/
def prunes (i : ProjectIndex) (file : Path) : Bool :=
  i.completePass.1.any (·.same file)

/-- What an event of a project makes of the bucket that is known for a file. -/
def revise (i : ProjectIndex) (p? : Option Project) (file : Path)
    (known : Option (List Diagnostic)) : SessionEvent → Option (List Diagnostic)
  | .diagnostic _ d =>
    match p? with
    | none => known
    | some p =>
      if (d.within p.root).file.location = file.location then
        (i.insert (d.within p.root)).file? file
      else known
  | .phase _ message =>
    if PhaseSignal.classify message = .passCompleted ∧ i.prunes file = true then none else known
  | .exited _ => known

end ProjectIndex

namespace Watcher

/-- What the cache holds for a file of a project, the staged bucket included. -/
def held? (w : Watcher) (id : String) (file : Path) : Option (List Diagnostic) :=
  (if w.isStaged id file then w.store.file? id file else none).or
    (w.cache.shown.look (Cache.keyOf id file))

def revise (w : Watcher) (e : SessionEvent) (id : String) (file : Path)
    (known : Option (List Diagnostic)) : Option (List Diagnostic) :=
  match w.store.projects.get? id with
  | none => known
  | some i => if e.project = id then i.revise (w.workspace.project? id) file known e else known

variable {w v : Watcher} {now : Nat} {id other : String} {file : Path}

theorem keyOf_eq_iff {g : Path} :
    Cache.keyOf id file = Cache.keyOf other g ↔ id = other ∧ file.location = g.location := by
  simp [Cache.keyOf]

theorem held?_of_unstaged (h : w.staged = none) (id : String) (file : Path) :
    w.held? id file = w.cache.shown.look (Cache.keyOf id file) := by
  simp [held?, isStaged, h]

theorem held?_of_not_isStaged (h : w.isStaged id file = false) :
    w.held? id file = w.cache.shown.look (Cache.keyOf id file) := by
  simp [held?, h]

theorem isStaged_of_staged {b : Staged} (hb : w.staged = some b) :
    w.isStaged id file = true ↔ Cache.keyOf b.project b.file = Cache.keyOf id file := by
  rw [isStaged_iff, hb, keyOf_eq_iff]
  simp

theorem held?_of_staged {b : Staged} (hb : w.staged = some b) (id : String) (file : Path) :
    w.held? id file =
      if Cache.keyOf b.project b.file = Cache.keyOf id file then
        (w.store.file? id file).or (w.cache.shown.look (Cache.keyOf id file))
      else w.cache.shown.look (Cache.keyOf id file) := by
  rw [held?]
  by_cases same : Cache.keyOf b.project b.file = Cache.keyOf id file
  · rw [if_pos ((isStaged_of_staged hb).2 same), if_pos same]
  · rw [if_neg (mt (isStaged_of_staged hb).1 same), if_neg same, Option.none_or]

theorem held?_congr (staged : v.staged = w.staged) (cache : v.cache = w.cache)
    (stored : v.store.file? id file = w.store.file? id file) :
    v.held? id file = w.held? id file := by
  have already : v.isStaged id file = w.isStaged id file := by rw [isStaged, isStaged, staged]
  rw [held?, held?, already, cache, stored]

/-- An event leaves the other projects alone. -/
theorem revise_of_ne (e : SessionEvent) (h : e.project ≠ id) (file : Path)
    (known : Option (List Diagnostic)) : w.revise e id file known = known := by
  rw [revise]
  split
  · rfl
  · rw [if_neg h]

/-- An event of an unknown project leaves everything alone. -/
theorem revise_of_unknown (e : SessionEvent) (h : w.store.projects.get? e.project = none)
    (id : String) (file : Path) (known : Option (List Diagnostic)) :
    w.revise e id file known = known := by
  by_cases own : e.project = id
  · subst own
    rw [revise, h]
  · exact revise_of_ne e own file known

theorem revise_of_known {i : ProjectIndex} (e : SessionEvent)
    (hi : w.store.projects.get? id = some i) (own : e.project = id) (file : Path)
    (known : Option (List Diagnostic)) :
    w.revise e id file known = i.revise (w.workspace.project? id) file known e := by
  rw [revise, hi]
  exact if_pos own

theorem revise_exited (w : Watcher) (other id : String) (file : Path)
    (known : Option (List Diagnostic)) : w.revise (.exited other) id file known = known := by
  rw [revise]
  split
  · rfl
  · split <;> rfl

theorem revise_diagnostic_of_unregistered (h : w.workspace.project? id = none) (d : Diagnostic)
    (other : String) (file : Path) (known : Option (List Diagnostic)) :
    w.revise (.diagnostic id d) other file known = known := by
  by_cases own : id = other
  · subst own
    rw [revise, h]
    split
    · rfl
    · split <;> rfl
  · exact revise_of_ne (.diagnostic id d) own file known

theorem revise_diagnostic {p : Project} (hp : w.workspace.project? id = some p)
    (contained : w.store.contains id = true) (d : Diagnostic) (other : String) (file : Path)
    (known : Option (List Diagnostic)) :
    w.revise (.diagnostic id d) other file known =
      if Cache.keyOf id (d.within p.root).file = Cache.keyOf other file then
        (w.store.insert id (d.within p.root)).2.file? other file
      else known := by
  by_cases own : id = other
  · subst own
    obtain ⟨i, hi⟩ := Store.contains_iff_get?.1 contained
    have inserted : (w.store.insert id (d.within p.root)).2.projects.get? id =
        some (i.insert (d.within p.root)) := by
      rw [Store.insert, Table.get?_modify, if_pos rfl, hi, Option.map_some]
    rw [revise_of_known (.diagnostic id d) hi rfl, hp, Store.file?, inserted]
    simp [ProjectIndex.revise, Cache.keyOf]
  · rw [revise_of_ne (.diagnostic id d) own, if_neg fun same => own (keyOf_eq_iff.1 same).1]

theorem revise_phase_of_incomplete {message : String}
    (h : PhaseSignal.classify message ≠ .passCompleted) (other id : String) (file : Path)
    (known : Option (List Diagnostic)) : w.revise (.phase other message) id file known = known := by
  rw [revise]
  split
  · rfl
  · split
    · rw [ProjectIndex.revise, if_neg fun both => h both.1]
    · rfl

theorem revise_phase_of_complete {message : String} {i : ProjectIndex}
    (h : PhaseSignal.classify message = .passCompleted)
    (hi : w.store.projects.get? id = some i) (other : String) (file : Path)
    (known : Option (List Diagnostic)) :
    w.revise (.phase id message) other file known =
      if id = other ∧ i.prunes file = true then none else known := by
  by_cases own : id = other
  · subst own
    rw [revise_of_known (.phase id message) hi rfl]
    simp [ProjectIndex.revise, h]
  · rw [revise_of_ne (.phase id message) own, if_neg fun both => own both.1]

theorem evictions_flush (w : Watcher) (now : Nat) :
    w.cache.evictions ≤ (w.flush now).cache.evictions := by
  rw [flush]
  split
  · exact Nat.le_refl _
  · simp only
    split
    · exact Nat.le_refl _
    · exact Cache.evictions_set ..

/-- A flush that pushes nothing out keeps everything that is held. -/
theorem held?_flush (calm : (w.flush now).cache.evictions = w.cache.evictions) (id : String)
    (file : Path) : (w.flush now).held? id file = w.held? id file := by
  rw [held?_of_unstaged (flush_staged w now)]
  cases hb : w.staged with
  | none => rw [flush_of_unstaged hb, held?_of_unstaged hb]
  | some b =>
      rw [held?_of_staged hb]
      cases hbucket : w.store.file? b.project b.file with
      | none =>
          -- The staged bucket is dropped, and its key was held by the cache alone.
          have cache : (w.flush now).cache = w.cache := by simp only [flush, hb, hbucket]
          rw [cache]
          split
          · rename_i same
            obtain ⟨rfl, place⟩ := keyOf_eq_iff.1 same
            rw [← Store.file?_congr place, hbucket, Option.none_or]
          · rfl
      | some bucket =>
          rw [flush_cache_of_staged hb hbucket] at calm ⊢
          rw [Cache.look_set calm]
          split
          · rename_i same
            obtain ⟨rfl, place⟩ := keyOf_eq_iff.1 same
            rw [← Store.file?_congr place, hbucket, Option.some_or]
          · rfl

theorem isStaged_stage_iff (w : Watcher) (now : Nat) (id : String) (file : Path) {g : Path} :
    (w.stage now id file).isStaged other g = true ↔
      Cache.keyOf id file = Cache.keyOf other g := by
  rw [stage]
  split
  · rename_i already
    obtain ⟨b, hb, rfl, place⟩ := isStaged_iff.1 already
    have same : Cache.keyOf b.project b.file = Cache.keyOf b.project file :=
      keyOf_eq_iff.2 ⟨rfl, place⟩
    rw [isStaged_of_staged hb, same]
  · exact isStaged_of_staged (b := { project := id, file }) rfl

theorem evictions_stage (w : Watcher) (now : Nat) (id : String) (file : Path) :
    (w.stage now id file).cache.evictions =
      if w.isStaged id file then w.cache.evictions else (w.flush now).cache.evictions := by
  rw [stage]
  split <;> rfl

/-- Staging a bucket keeps what is held under other keys. -/
theorem look_stage {g : Path}
    (calm : (w.stage now id file).cache.evictions = w.cache.evictions)
    (unequal : Cache.keyOf id file ≠ Cache.keyOf other g) :
    (w.stage now id file).cache.shown.look (Cache.keyOf other g) = w.held? other g := by
  rw [evictions_stage] at calm
  have elsewhere := mt (isStaged_stage_iff w now id file).1 unequal
  rw [stage] at elsewhere ⊢
  split at calm
  · rename_i already
    rw [if_pos already] at elsewhere ⊢
    rw [held?_of_not_isStaged (Bool.eq_false_iff.2 elsewhere)]
  · rename_i unstaged
    rw [if_neg unstaged]
    simp only
    rw [Cache.look_delete, if_neg unequal, ← held?_flush calm,
      held?_of_unstaged (flush_staged w now)]

theorem evictions_onDiagnostic (w : Watcher) (now : Nat) (id : String) (d : Diagnostic) :
    w.cache.evictions ≤ (w.onDiagnostic now id d).cache.evictions := by
  cases hp : w.workspace.project? id with
  | none => exact Nat.le_of_eq (by rw [onDiagnostic_of_unknown hp])
  | some p =>
      rw [onDiagnostic_of_known hp]
      simp only
      rw [evictions_stage]
      split
      · exact Nat.le_refl _
      · exact evictions_flush w now

/-- A diagnostic changes what is held for its own file, and that is then what the store holds. -/
theorem held?_onDiagnostic
    (known : ∀ p, w.workspace.project? id = some p → w.store.contains id = true) {d : Diagnostic}
    (calm : (w.onDiagnostic now id d).cache.evictions = w.cache.evictions) (other : String)
    (g : Path) :
    (w.onDiagnostic now id d).held? other g =
      w.revise (.diagnostic id d) other g (w.held? other g) := by
  cases hp : w.workspace.project? id with
  | none =>
      rw [onDiagnostic_of_unknown hp, revise_diagnostic_of_unregistered hp]
  | some p =>
      rw [onDiagnostic_of_known hp] at calm ⊢
      rw [revise_diagnostic hp (known p hp)]
      have staged :
          ({ w.stage now id (d.within p.root).file with
            store := (w.store.insert id (d.within p.root)).2 } : Watcher).isStaged other g = true ↔
          Cache.keyOf id (d.within p.root).file = Cache.keyOf other g :=
        isStaged_stage_iff w now id (d.within p.root).file
      split
      · rename_i same
        obtain ⟨bucket, stored⟩ := Store.file?_insert_self (d := d.within p.root) (known p hp)
        obtain ⟨rfl, place⟩ := keyOf_eq_iff.1 same
        rw [held?, if_pos (staged.2 same), ← Store.file?_congr place, stored, Option.some_or]
      · rename_i unequal
        rw [held?_of_not_isStaged (Bool.eq_false_iff.2 (mt staged.1 unequal))]
        exact look_stage calm unequal

theorem evictions_completePass (w : Watcher) (now : Nat) (id : String) :
    (w.completePass now id).cache.evictions = (w.flush now).cache.evictions := by
  cases hi : w.store.projects.get? id with
  | none => rw [completePass_of_unknown hi]
  | some i =>
      rw [completePass_of_known hi]
      exact Cache.evictions_delete_files ..

/-- Completing a pass takes away what is pruned. -/
theorem held?_completePass {i : ProjectIndex} (hi : w.store.projects.get? id = some i)
    (calm : (w.completePass now id).cache.evictions = w.cache.evictions) (other : String)
    (file : Path) :
    (w.completePass now id).held? other file =
      if id = other ∧ i.prunes file = true then none else w.held? other file := by
  rw [evictions_completePass] at calm
  have unstaged : (w.completePass now id).staged = none := by
    rw [completePass_of_known hi]
    exact flush_staged w now
  have pruned : (∃ g ∈ i.completePass.1, Cache.keyOf id g = Cache.keyOf other file) ↔
      id = other ∧ i.prunes file = true := by
    simp only [keyOf_eq_iff, ProjectIndex.prunes, List.any_eq_true, Path.same, decide_eq_true_eq]
    constructor
    · rintro ⟨g, hg, rfl, place⟩
      exact ⟨rfl, g, hg, place⟩
    · rintro ⟨rfl, g, hg, place⟩
      exact ⟨g, hg, rfl, place⟩
  rw [held?_of_unstaged unstaged, ← held?_flush calm, held?_of_unstaged (flush_staged w now),
    completePass_of_known hi]
  simp only [← pruned]
  exact Cache.look_delete_files ..

theorem evictions_onPhase (w : Watcher) (now : Nat) (id message : String) :
    w.cache.evictions ≤ (w.onPhase now id message).cache.evictions := by
  rw [onPhase]
  split
  · exact Nat.le_refl _
  · rw [evictions_completePass]
    exact evictions_flush w now
  · exact Nat.le_refl _

theorem held?_onPhase {message : String}
    (calm : (w.onPhase now id message).cache.evictions = w.cache.evictions) (other : String)
    (file : Path) :
    (w.onPhase now id message).held? other file =
      w.revise (.phase id message) other file (w.held? other file) := by
  rw [onPhase] at calm ⊢
  cases signal : PhaseSignal.classify message with
  | passStarted =>
      rw [revise_phase_of_incomplete (by simp [signal])]
      exact held?_congr rfl rfl (Store.file?_beginPass w.store id other file)
  | passCompleted =>
      simp only [signal] at calm ⊢
      cases hi : w.store.projects.get? id with
      | none =>
          rw [completePass_of_unknown hi] at calm ⊢
          rw [revise_of_unknown (.phase id message) hi, held?_flush calm]
      | some i => rw [held?_completePass hi calm, revise_phase_of_complete signal hi]
  | other => rw [revise_phase_of_incomplete (by simp [signal])]

theorem evictions_onExit (w : Watcher) (now : Nat) (id : String) :
    w.cache.evictions ≤ (w.onExit now id).cache.evictions := by
  rw [onExit]
  split
  · exact Nat.le_refl _
  · rename_i s _
    exact evictions_flush { w.closeSession s with sessions := w.sessions.erase id } now

/-- The end of a session flushes, and that keeps everything that is held. -/
theorem held?_onExit (calm : (w.onExit now id).cache.evictions = w.cache.evictions)
    (other : String) (file : Path) : (w.onExit now id).held? other file = w.held? other file := by
  rw [onExit] at calm ⊢
  cases hs : w.sessions.get? id with
  | none => rfl
  | some s =>
      simp only [hs] at calm
      exact held?_flush (w := { w.closeSession s with sessions := w.sessions.erase id }) calm other
        file

theorem evictions_handle (w : Watcher) (now : Nat) (e : SessionEvent) :
    w.cache.evictions ≤ (w.handle now e).cache.evictions := by
  refine handle_cases ?unknown ?diagnostic ?phase ?exited e
  case unknown => exact fun _ _ => Nat.le_refl _
  case diagnostic => exact fun id d _ => evictions_onDiagnostic w now id d
  case phase => exact fun id message _ => evictions_onPhase w now id message
  case exited => exact fun id _ => evictions_onExit w now id

/-- What an event makes of what is held. -/
theorem held?_handle {e : SessionEvent}
    (calm : (w.handle now e).cache.evictions = w.cache.evictions) (id : String) (file : Path) :
    (w.handle now e).held? id file = w.revise e id file (w.held? id file) := by
  revert calm
  refine handle_cases ?unknown ?diagnostic ?phase ?exited e
  case unknown =>
    intro e unknown _
    rw [revise_of_unknown e unknown]
  case diagnostic =>
    exact fun other d known calm => held?_onDiagnostic (fun _ _ => known) calm id file
  case phase => exact fun other message _ calm => held?_onPhase calm id file
  case exited =>
    intro other _ calm
    rw [held?_onExit calm, revise_exited]

/-- The watcher behind some events, each handled at its time. -/
def handling (w : Watcher) (es : List (Nat × SessionEvent)) : Watcher :=
  es.foldl (fun w timed => w.handle timed.1 timed.2) w

theorem handling_cons (w : Watcher) (timed : Nat × SessionEvent) (es : List (Nat × SessionEvent)) :
    w.handling (timed :: es) = (w.handle timed.1 timed.2).handling es := rfl

/-- Draining handles the events of the queue, all at one time. -/
theorem drainQueue_snd (w : Watcher) (now : Nat) :
    (w.drainQueue now).2 = { w with queue := [] }.handling (w.queue.map fun e => (now, e)) := by
  rw [handling, List.foldl_map]
  rfl

theorem evictions_handling (w : Watcher) (es : List (Nat × SessionEvent)) :
    w.cache.evictions ≤ (w.handling es).cache.evictions := by
  induction es generalizing w with
  | nil => exact Nat.le_refl _
  | cons timed es ih => exact Nat.le_trans (evictions_handle w timed.1 timed.2) (ih _)

/-- If events in a row push nothing out, neither the first one nor the others do. -/
theorem calm_cons {timed : Nat × SessionEvent} {es : List (Nat × SessionEvent)}
    (calm : (w.handling (timed :: es)).cache.evictions = w.cache.evictions) :
    (w.handle timed.1 timed.2).cache.evictions = w.cache.evictions ∧
      ((w.handle timed.1 timed.2).handling es).cache.evictions =
        (w.handle timed.1 timed.2).cache.evictions := by
  rw [handling_cons] at calm
  have first := evictions_handle w timed.1 timed.2
  have rest := evictions_handling (w.handle timed.1 timed.2) es
  omega

theorem evictions_lookupFile (w : Watcher) (now : Nat) (path : Path) :
    (w.lookupFile now path).2.cache.evictions = (w.flush now).cache.evictions :=
  Cache.evictions_lookupFile ..

/-- A query that finds nothing expired keeps everything that is held. -/
theorem held?_lookupFile {path : Path}
    (calm : (w.flush now).cache.evictions = w.cache.evictions)
    (living : ∀ id ∈ w.store.projectIds,
      (w.flush now).cache.Living now (Cache.keyOf id (w.placeOf path)))
    (id : String) (file : Path) : (w.lookupFile now path).2.held? id file = w.held? id file := by
  have unstaged : (w.lookupFile now path).2.staged = none := flush_staged w now
  rw [held?_of_unstaged unstaged, ← held?_flush calm, held?_of_unstaged (flush_staged w now)]
  refine Cache.look_lookupFile ?_ _
  intro other known
  rw [flush_store] at known
  rw [placeOf_flush]
  exact living other known

/-- A query that finds nothing expired finds what is held. -/
theorem found_eq_held {path : Path}
    (calm : (w.flush now).cache.evictions = w.cache.evictions)
    (living : ∀ id ∈ w.store.projectIds,
      (w.flush now).cache.Living now (Cache.keyOf id (w.placeOf path))) :
    w.found now path = w.store.projectIds.filterMap fun id => w.held? id (w.placeOf path) := by
  rw [found]
  apply List.filterMap_congr
  intro id known
  rw [Cache.living?_eq_look (living id known), ← held?_flush calm,
    held?_of_unstaged (flush_staged w now)]

end Watcher

end DiagnosticWatch
