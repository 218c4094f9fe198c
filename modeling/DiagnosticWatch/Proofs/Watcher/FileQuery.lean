import DiagnosticWatch.Proofs.Cache.Lookup
import DiagnosticWatch.Proofs.Store.Passes
import DiagnosticWatch.Proofs.Watcher.Coherence

/-!
# What a query for a file finds

A query for a file flushes the staged bucket and then reads the cache, project by project. `found`
is what that comes to, and both kinds of query are functions of it. Two facts hold at any capacity:
a project finds what it has just reported (`finds_reported`), and a hit lists nothing but current
buckets (`hit_lists_cached`). A hit does not say that every bucket of the file is in the cache: the
entries of several projects expire and are pushed out one by one (`hit_leaves_out_error`).
-/

namespace DiagnosticWatch

/-- The buckets of a file, in ascending order of the projects that have one. -/
def Store.bucketsOf (s : Store) (file : Path) : List (List Diagnostic) :=
  s.projectIds.filterMap fun id => s.file? id file

namespace Watcher

/-- The buckets that a query for a file finds in the cache, project by project. -/
def found (w : Watcher) (now : Nat) (path : Path) : List (List Diagnostic) :=
  w.store.projectIds.filterMap fun id =>
    (w.flush now).cache.living? now (Cache.keyOf id (w.placeOf path))

/-- The projects whose bucket of a file a query finds. -/
def cachedIn (w : Watcher) (now : Nat) (path : Path) : List String :=
  w.store.projectIds.filter fun id =>
    ((w.flush now).cache.living? now (Cache.keyOf id (w.placeOf path))).isSome

variable {w : Watcher} {now : Nat} {path : Path} {id : String} {file : Path}
  {bucket : List Diagnostic}

theorem placeOf_flush (w : Watcher) (now : Nat) (path : Path) :
    (w.flush now).placeOf path = w.placeOf path := by
  rw [placeOf, placeOf, flush_workspace]

theorem lookupFile_fst (w : Watcher) (now : Nat) (path : Path) :
    (w.lookupFile now path).1 = Cache.joined (w.found now path) := by
  simp only [lookupFile, flush_store, placeOf_flush]
  exact Cache.lookupFile_fst ..

/-- A query lists what it finds, and is a hit if it finds anything. -/
theorem fileDiagnostics_fst (w : Watcher) (now : Nat) (path : Path) :
    (w.fileDiagnostics now path).1 =
      .of now (w.placeOf path).text (w.found now path).flatten (!(w.found now path).isEmpty) := by
  have looked := lookupFile_fst w now path
  rw [fileDiagnostics]
  cases hlook : w.lookupFile now path with
  | mk answer v =>
      rw [hlook] at looked
      simp only at looked
      subst looked
      cases w.found now path <;> rfl

theorem fileHasErrors_fst (w : Watcher) (now : Nat) (path : Path) :
    (w.fileHasErrors now path).1 = (w.found now path).any fun ds => ds.any (·.isError) := by
  simp only [fileHasErrors, lookupFile_fst]
  cases w.found now path <;> simp [Cache.joined]

/-- Whether an operation is a query over all files or a phase that completes no pass. -/
def Operation.isQuiet : Operation → Bool
  | .all | .package _ | .hasErrors none | .count | .status | .projectState _ => true
  | .phase _ message | .event (.phase _ message) =>
    decide (PhaseSignal.classify message ≠ .passCompleted)
  | _ => false

/-- A bucket is staged, and the store holds it. -/
structure Stages (w : Watcher) (id : String) (file : Path) (bucket : List Diagnostic) : Prop where
  staged : w.isStaged id file = true
  stored : w.store.file? id file = some bucket

namespace Stages

/-- The staged bucket survives its own flush, however full the cache is. -/
theorem living? (h : w.Stages id file bucket) (lasting : 0 < w.cache.lifetime) (now : Nat) :
    (w.flush now).cache.living? now (Cache.keyOf id file) = some bucket := by
  obtain ⟨b, hb, rfl, place⟩ := isStaged_iff.1 h.staged
  have stored : w.store.file? b.project b.file = some bucket := by
    rw [Store.file?_congr place]
    exact h.stored
  rw [flush_cache_of_staged hb stored, Cache.keyOf, ← place]
  exact Cache.living?_set_self w.cache lasting now b.project b.file bucket

theorem mem_found (h : w.Stages id file bucket) (lasting : 0 < w.cache.lifetime) (now : Nat)
    (same : (w.placeOf path).location = file.location) : bucket ∈ w.found now path := by
  have known : id ∈ w.store.projectIds :=
    Table.contains_iff_mem_keys.1 (Store.contains_of_file? h.stored)
  refine List.mem_filterMap.2 ⟨id, known, ?_⟩
  rw [Cache.keyOf, same]
  exact h.living? lasting now

theorem beginPass (h : w.Stages id file bucket) (other : String) :
    { w with store := (w.store.beginPass other).2 }.Stages id file bucket where
  staged := h.staged
  stored := by rw [Store.file?_beginPass, h.stored]

theorem onPhase (h : w.Stages id file bucket) {message : String}
    (quiet : PhaseSignal.classify message ≠ .passCompleted) (now : Nat) (other : String) :
    (w.onPhase now other message).Stages id file bucket := by
  rw [Watcher.onPhase]
  split
  · exact h.beginPass other
  · contradiction
  · exact h

/-- Quiet operations leave the staged bucket where it is. -/
theorem perform (h : w.Stages id file bucket) {op : Operation} (quiet : op.isQuiet = true)
    (now : Nat) : (w.perform now op).2.Stages id file bucket := by
  cases op with
  | all | package | count | status | projectState => exact h
  | hasErrors asked =>
      cases asked with
      | none => exact h
      | some path => cases quiet
  | phase other message => exact h.onPhase (of_decide_eq_true quiet) now other
  | event e =>
      cases e with
      | phase other message =>
          simp only [Watcher.perform, Watcher.handle]
          split
          · exact h
          · exact h.onPhase (of_decide_eq_true quiet) now other
      | diagnostic | exited => cases quiet
  | _ => cases quiet

theorem after (h : w.Stages id file bucket) {ops : List (Nat × Operation)}
    (quiet : ∀ timed ∈ ops, timed.2.isQuiet = true) : (w.after ops).Stages id file bucket := by
  induction ops generalizing w with
  | nil => exact h
  | cons timed ops ih =>
      rw [List.forall_mem_cons] at quiet
      exact ih (h.perform quiet.1 timed.1) quiet.2

end Stages

end Watcher

/-- The bucket of a file ends with the diagnostic that has just been inserted. -/
theorem Store.file?_insert_concat {s : Store} {id : String} (known : s.contains id = true)
    (d : Diagnostic) :
    ∃ earlier, (s.insert id d).2.file? id d.file = some (earlier ++ [d]) := by
  obtain ⟨p, hp⟩ := Store.contains_iff_get?.1 known
  refine ⟨p.brought d.file.location, ?_⟩
  change (s.perform (.insert id d)).2.file? id d.file = _
  rw [Store.file?, Store.get?_perform_of_some hp]
  simp [Store.Operation.onIndex, ProjectIndex.file?, ProjectIndex.get?_insert,
    ProjectIndex.refilled_diagnostics]

namespace Watcher

variable {w : Watcher} {now : Nat} {path : Path} {id : String}

/-- A diagnostic of a known project is at the end of the staged bucket. -/
theorem Coherent.stages_handle (h : w.Coherent) {p : Project}
    (registered : w.workspace.project? id = some p) (now : Nat) (d : Diagnostic) :
    ∃ earlier, (w.handle now (.diagnostic id d)).Stages id (d.within p.root).file
      (earlier ++ [d.within p.root]) := by
  have known := h.known id p registered
  obtain ⟨earlier, stored⟩ := Store.file?_insert_concat known (d.within p.root)
  obtain ⟨b, hb, project, place⟩ := (h.stage now id (d.within p.root).file).1
  have handled : w.handle now (.diagnostic id d) = w.onDiagnostic now id d := by
    simp [Watcher.handle, SessionEvent.project, known]
  refine ⟨earlier, ?_⟩
  rw [handled, onDiagnostic_of_known registered]
  exact ⟨isStaged_iff.2 ⟨b, hb, project, place⟩, stored⟩

/-- What a project has just reported is found, at any capacity and in whatever state the watcher
was, and still is after any aggregate queries and phases that complete no pass. A query that names
the file in any spelling is a hit; it lists the whole bucket of the project in one piece, which ends
with the diagnostic. -/
theorem finds_reported (workspace : Workspace) (config : WatchConfig) (launcher : Launcher)
    (size : Option (Nat × Nat)) (ops more : List (Nat × Operation)) {id : String} {p : Project}
    (registered : workspace.project? id = some p) (d : Diagnostic) (handled : Nat)
    (quiet : ∀ timed ∈ more, timed.2.isQuiet = true) :
    let before := (fresh workspace config launcher size).after ops
    let w := (before.handle handled (.diagnostic id d)).after more
    0 < w.cache.lifetime →
      ∃ earlier, let bucket := earlier ++ [d.within p.root]
        w.store.file? id (d.within p.root).file = some bucket ∧
          ∀ (asked : Nat) (path : Path),
            (w.placeOf path).location = (d.within p.root).file.location →
              (∃ front back, (w.fileDiagnostics asked path).1 =
                .of asked (w.placeOf path).text (front ++ bucket ++ back) true) ∧
              (bucket.any (·.isError) = true → (w.fileHasErrors asked path).1 = true) := by
  intro before w lasting
  have coherent : before.Coherent := (fresh_coherent workspace config launcher size).after ops
  have same : before.workspace = workspace := by
    rw [after_workspace, fresh_workspace]
  obtain ⟨earlier, reported⟩ := coherent.stages_handle (same ▸ registered) handled d
  have stages : w.Stages id (d.within p.root).file (earlier ++ [d.within p.root]) :=
    reported.after quiet
  refine ⟨earlier, stages.stored, ?_⟩
  intro asked path place
  have member := stages.mem_found lasting asked place
  constructor
  · obtain ⟨front, back, split⟩ := List.append_of_mem member
    have hit : (w.found asked path).isEmpty = false := by
      rw [List.isEmpty_eq_false_iff]
      exact List.ne_nil_of_mem member
    refine ⟨front.flatten, back.flatten, ?_⟩
    rw [fileDiagnostics_fst, hit, split]
    simp
  · intro error
    rw [fileHasErrors_fst, List.any_eq_true]
    exact ⟨_, member, error⟩

/-- Two files with errors. The one that is asked for takes the only place in the cache. -/
def otherCached : List (Nat × Operation) :=
  [(1, .event (soloError "b.ts" 1)), (2, .event (soloError "a.ts" 2)), (3, .file ⟨"a.ts"⟩)]

def secondError : Diagnostic :=
  { file := ⟨"src/../b.ts"⟩, line := 4, column := 1, category := .error, code := 3, message := "" }

/-- A pass is announced, and a query over all files is answered. -/
def announced : List (Nat × Operation) :=
  [(5, .event (.phase "app" "File change detected. Starting incremental compilation...")),
    (6, .hasErrors none)]

theorem finds_reported_pushedOut :
    let before := (fresh soloWorkspace {} willing (some (1, 100))).after otherCached
    let w := (before.handle 4 (.diagnostic "app" secondError)).after announced
    let file := (secondError.within soloProject.root).file
    (soloWorkspace.project? "app" = some soloProject ∧
      (∀ timed ∈ announced, timed.2.isQuiet = true) ∧ 0 < w.cache.lifetime ∧
      (w.placeOf ⟨"./b.ts"⟩).location = file.location) ∧
    ∃ earlier, w.store.file? "app" file = some (earlier ++ [secondError.within soloProject.root]) ∧
      (∃ front back, (w.fileDiagnostics 7 ⟨"./b.ts"⟩).1 =
        .of 7 (w.placeOf ⟨"./b.ts"⟩).text
          (front ++ (earlier ++ [secondError.within soloProject.root]) ++ back) true) ∧
      (w.fileHasErrors 7 ⟨"./b.ts"⟩).1 = true := by
  dsimp only
  have registered : soloWorkspace.project? "app" = some soloProject := rfl
  have quiet : ∀ timed ∈ announced, timed.2.isQuiet = true := by decide +kernel
  have lasting : 0 < ((((fresh soloWorkspace {} willing (some (1, 100))).after otherCached).handle 4
      (.diagnostic "app" secondError)).after announced).cache.lifetime := by decide +kernel
  have place : (((((fresh soloWorkspace {} willing (some (1, 100))).after otherCached).handle 4
      (.diagnostic "app" secondError)).after announced).placeOf ⟨"./b.ts"⟩).location =
        (secondError.within soloProject.root).file.location := by decide +kernel
  obtain ⟨earlier, stored, found⟩ := finds_reported soloWorkspace {} willing (some (1, 100))
    otherCached announced registered secondError 4 quiet lasting
  obtain ⟨listed, error⟩ := found 7 ⟨"./b.ts"⟩ place
  refine ⟨⟨registered, quiet, lasting, place⟩, earlier, stored, listed, error ?_⟩
  rw [List.any_append, Bool.or_eq_true]
  exact .inr rfl

/-- What is found for a file in a project is what the store holds. -/
theorem Coherent.file?_of_living (h : w.Coherent) {file : Path} {ds : List Diagnostic}
    (living : (w.flush now).cache.living? now (Cache.keyOf id file) = some ds) :
    w.store.file? id file = some ds := by
  obtain ⟨e, he, hkey, rfl⟩ := Cache.living?_eq_some living
  obtain ⟨place, stored⟩ := (h.flush now).backed e he
  rw [flush_store] at stored
  rw [hkey] at place stored
  rw [← Store.file?_congr place]
  exact stored

theorem Coherent.found_eq (h : w.Coherent) (now : Nat) (path : Path) :
    w.found now path =
      (w.cachedIn now path).filterMap fun id => w.store.file? id (w.placeOf path) := by
  rw [found, cachedIn, List.filterMap_filter]
  apply List.filterMap_congr
  intro id _
  cases living : (w.flush now).cache.living? now (Cache.keyOf id (w.placeOf path)) with
  | none => rfl
  | some ds => exact (h.file?_of_living living).symm

/-- Every project that is found has a bucket in the store. -/
theorem Coherent.file?_of_mem_cachedIn (h : w.Coherent) (cached : id ∈ w.cachedIn now path) :
    ∃ ds, w.store.file? id (w.placeOf path) = some ds := by
  obtain ⟨ds, living⟩ := Option.isSome_iff_exists.1 (List.mem_filter.1 cached).2
  exact ⟨ds, h.file?_of_living living⟩

/-- If the projects that are found are all that have a bucket, everything is found. -/
theorem filterMap_cachedIn
    (all : ∀ id ds, w.store.file? id (w.placeOf path) = some ds → id ∈ w.cachedIn now path) :
    (w.cachedIn now path).filterMap (fun id => w.store.file? id (w.placeOf path)) =
      w.store.bucketsOf (w.placeOf path) := by
  rw [cachedIn, List.filterMap_filter, Store.bucketsOf]
  apply List.filterMap_congr
  intro id _
  split
  · rfl
  · rename_i lost
    cases stored : w.store.file? id (w.placeOf path) with
    | none => rfl
    | some ds => exact absurd (List.mem_filter.1 (all id ds stored)).2 lost

/-- A hit lists current buckets of the store, each of them whole and in ascending order of their
projects: those of the projects whose entries are in the cache and have not expired, at least one.
The file counts as erroneous if one of these buckets does. All buckets of the file are listed if no
entry of them has been lost, or if only one project has any. -/
theorem hit_lists_cached (workspace : Workspace) (config : WatchConfig) (launcher : Launcher)
    (size : Option (Nat × Nat)) (ops : List (Nat × Operation)) (now : Nat) (path : Path) :
    let w := (fresh workspace config launcher size).after ops
    let file := w.placeOf path
    let cached := w.cachedIn now path
    let answer := (w.fileDiagnostics now path).1
    answer.cacheHit = true →
      (cached ≠ [] ∧ ∀ id ∈ cached, ∃ ds, w.store.file? id file = some ds) ∧
      answer.diagnostics = (cached.filterMap fun id => w.store.file? id file).flatten ∧
      ((w.fileHasErrors now path).1 = true ↔
        ∃ id ∈ cached, ∃ ds, w.store.file? id file = some ds ∧ ds.any (·.isError) = true) ∧
      ((∀ id ds, w.store.file? id file = some ds → id ∈ cached) ∨
          (w.store.bucketsOf file).length ≤ 1 →
        answer.diagnostics = (w.store.bucketsOf file).flatten) := by
  intro w file cached answer hit
  have h : w.Coherent := (fresh_coherent workspace config launcher size).after ops
  have found : w.found now path = cached.filterMap fun id => w.store.file? id file :=
    h.found_eq now path
  have listed :
      answer.diagnostics = (cached.filterMap fun id => w.store.file? id file).flatten := by
    rw [← found]
    exact congrArg Result.diagnostics (fileDiagnostics_fst w now path)
  have nonempty : (cached.filterMap fun id => w.store.file? id file) ≠ [] := by
    have answered : answer.cacheHit = !(w.found now path).isEmpty :=
      congrArg Result.cacheHit (fileDiagnostics_fst w now path)
    rw [hit, found] at answered
    intro none
    rw [none] at answered
    cases answered
  refine ⟨⟨?_, fun id cached => h.file?_of_mem_cachedIn cached⟩, listed, ?_, ?_⟩
  · intro none
    rw [none] at nonempty
    exact nonempty rfl
  · rw [fileHasErrors_fst, found]
    simp only [List.any_eq_true, List.mem_filterMap]
    constructor
    · rintro ⟨ds, ⟨id, hid, stored⟩, error⟩
      exact ⟨id, hid, ds, stored, error⟩
    · rintro ⟨id, hid, ds, stored, error⟩
      exact ⟨ds, ⟨id, hid, stored⟩, error⟩
  · rintro (all | single)
    · rw [listed, filterMap_cachedIn all]
    · have part : (cached.filterMap fun id => w.store.file? id file).Sublist
          (w.store.bucketsOf file) :=
        List.filter_sublist.filterMap _
      rw [listed, part.eq_of_length_le (Nat.le_trans single (List.length_pos_iff.2 nonempty))]

/-- Two projects report a file that they share. The cache has one place. -/
def sharedFile : List (Nat × Operation) :=
  [(1, .event (reportOf "app" .error "../shared.ts" 1)),
    (2, .event (reportOf "lib" .warning "../shared.ts" 2))]

theorem hit_lists_cached_sharedFile :
    let w := (fresh pairWorkspace {} willing (some (1, 100))).after sharedFile
    let file := w.placeOf ⟨"shared.ts"⟩
    let cached := w.cachedIn 3 ⟨"shared.ts"⟩
    (w.fileDiagnostics 3 ⟨"shared.ts"⟩).1.cacheHit = true ∧ cached = ["lib"] ∧
      (∃ ds, w.store.file? "lib" file = some ds) ∧
      (w.fileDiagnostics 3 ⟨"shared.ts"⟩).1.diagnostics =
        (cached.filterMap fun id => w.store.file? id file).flatten := by
  dsimp only
  have hit : (((fresh pairWorkspace {} willing (some (1, 100))).after sharedFile).fileDiagnostics 3
      ⟨"shared.ts"⟩).1.cacheHit = true := by decide +kernel
  have names : ((fresh pairWorkspace {} willing (some (1, 100))).after sharedFile).cachedIn 3
      ⟨"shared.ts"⟩ = ["lib"] := by decide +kernel
  obtain ⟨⟨-, stored⟩, listed, -, -⟩ :=
    hit_lists_cached pairWorkspace {} willing (some (1, 100)) sharedFile 3 ⟨"shared.ts"⟩ hit
  exact ⟨hit, names, stored "lib" (by rw [names]; exact List.mem_cons_self), listed⟩

/-- A hit need not list every bucket: the entry of one project has pushed out that of the other,
whose error is neither listed nor found. -/
theorem hit_leaves_out_error :
    let w := (fresh pairWorkspace {} willing (some (1, 100))).after sharedFile
    let file := w.placeOf ⟨"shared.ts"⟩
    (w.fileDiagnostics 3 ⟨"shared.ts"⟩).1.cacheHit = true ∧
      (w.fileDiagnostics 3 ⟨"shared.ts"⟩).1.diagnostics ≠ (w.store.bucketsOf file).flatten ∧
      (w.fileHasErrors 3 ⟨"shared.ts"⟩).1 = false ∧
      ((w.store.bucketsOf file).flatten.any (·.isError)) = true := by
  decide +kernel

end Watcher

end DiagnosticWatch
