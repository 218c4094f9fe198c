import DiagnosticWatch.Proofs.Watcher.FileQuery
import DiagnosticWatch.Proofs.Watcher.Restart

/-!
# Queries over everything agree

The queries for all diagnostics, for those of one project, for their number and for whether there is
an error go through the store each on its own. All of them are about one list, which has the
projects in the order of their ids, in each project the files in path order, and for each file what
was reported for it last, in the order in which it was reported (`aggregates_agree`). The two
queries for one file read the cache alike and change the watcher alike.
-/

namespace DiagnosticWatch

theorem Store.allDiagnostics_eq_flatMap (s : Store) :
    s.allDiagnostics = s.projectIds.flatMap fun id => (s.projectDiagnostics? id).getD [] :=
  s.projects.flatMap_values ProjectIndex.diagnostics

theorem ProjectIndex.diagnostics_eq_flatMap (i : ProjectIndex) :
    i.diagnostics = i.files.keys.flatMap i.shown :=
  i.files.flatMap_values Bucket.diagnostics

theorem Store.hasErrors_eq_any (s : Store) : s.hasErrors = s.allDiagnostics.any (·.isError) := by
  rw [hasErrors, allDiagnostics, List.any_flatMap]
  simp only [ProjectIndex.diagnostics, List.any_flatMap]

/-- Every diagnostic is of one of the four categories. -/
theorem sum_countP_category (ds : List Diagnostic) :
    ds.countP (·.category == .error) + ds.countP (·.category == .warning) +
      ds.countP (·.category == .suggestion) + ds.countP (·.category == .message) = ds.length := by
  induction ds with
  | nil => rfl
  | cons d ds ih =>
      simp only [List.countP_cons, List.length_cons]
      cases d.category <;> simp <;> omega

/-- The totals of a result are the numbers of its diagnostics of each category, and no diagnostic is
left out. -/
structure Result.Tallied (r : Result) : Prop where
  errors : r.totalErrors = r.diagnostics.countP (·.category == .error)
  warnings : r.totalWarnings = r.diagnostics.countP (·.category == .warning)
  suggestions : r.totalSuggestions = r.diagnostics.countP (·.category == .suggestion)
  messages : r.totalMessages = r.diagnostics.countP (·.category == .message)
  total : r.totalErrors + r.totalWarnings + r.totalSuggestions + r.totalMessages =
    r.diagnostics.length

theorem Result.tallied_of (now : Nat) (source : String) (ds : List Diagnostic) (cacheHit : Bool) :
    (Result.of now source ds cacheHit).Tallied := by
  have counted := Tally.of_eq_countP ds
  have total := sum_countP_category ds
  constructor <;> simp only [Result.of, counted, total]

theorem Store.count_totals (s : Store) :
    s.totals.count =
      { errors := s.allDiagnostics.countP (·.category == .error)
        warnings := s.allDiagnostics.countP (·.category == .warning)
        suggestions := s.allDiagnostics.countP (·.category == .suggestion) } := by
  rw [totals, Tally.of_eq_countP]
  rfl

namespace Project

variable {p : Project} {h : Happening}

theorem handled_concat (p : Project) (hs : List Happening) (h : Happening) :
    p.handled (hs ++ [h]) = p.handled hs ++ (p.handled? h).toList := by
  rw [handled, handled, List.filterMap_append]
  cases reported : p.handled? h <;> simp [reported]

theorem handled?_of_completes (complete : h.completes p.id = true) : p.handled? h = none := by
  cases h with
  | event e =>
      cases e with
      | phase id message => rfl
      | diagnostic | exited => cases complete
  | clearedFile | clearedAll => cases complete

/-- What the open pass holds for a place has been handled last of all that was handled for it. -/
theorem openDiagnostics_suffix (p : Project) (hs : List Happening) (place : Location) :
    (p.openDiagnostics hs).filter (fun d => d.file.location = place) <:+
      (p.handled hs).filter fun d => d.file.location = place := by
  induction hs using List.reverseRecOn with
  | nil => exact List.nil_suffix
  | append_singleton hs h ih =>
      rw [openDiagnostics_concat, handled_concat]
      split
      · exact List.nil_suffix
      · rw [List.filter_append, List.filter_append]
        apply List.suffix_append_self_iff.2
        -- Either everything at the place is dropped, or nothing is.
        cases drops : h.drops place with
        | true =>
            have none : ((p.openDiagnostics hs).filter fun d => !h.drops d.file.location).filter
                (fun d => d.file.location = place) = [] := by
              rw [List.filter_filter, List.filter_eq_nil_iff]
              intro d _ kept
              obtain ⟨here, later⟩ : d.file.location = place ∧ h.drops d.file.location = false := by
                simpa using kept
              rw [here, drops] at later
              cases later
            rw [none]
            exact List.nil_suffix
        | false =>
            have all : ((p.openDiagnostics hs).filter fun d => !h.drops d.file.location).filter
                (fun d => d.file.location = place) =
                  (p.openDiagnostics hs).filter fun d => d.file.location = place := by
              rw [List.filter_filter]
              apply List.filter_congr
              intro d _
              by_cases here : d.file.location = place <;> simp [here, drops]
            rw [all]
            exact ih

/-- What is shown at a place has been handled last of all that was handled for it. -/
theorem shown_suffix (p : Project) (hs : List Happening) (place : Location) :
    (hs.foldl (ProjectIndex.undergo p) {}).shown place <:+
      (p.handled hs).filter fun d => d.file.location = place := by
  induction hs using List.reverseRecOn with
  | nil => exact List.nil_suffix
  | append_singleton hs h ih =>
      have brought : (hs.foldl (ProjectIndex.undergo p) {}).brought place <:+
          (p.handled hs).filter fun d => d.file.location = place := by
        rw [(ProjectIndex.brings_history p hs).brought]
        exact openDiagnostics_suffix p hs place
      rw [List.foldl_concat, ProjectIndex.shown_undergo, handled_concat, List.filter_append]
      split
      · rename_i complete
        rw [handled?_of_completes complete]
        simpa using brought
      · split
        · exact List.nil_suffix
        · cases reported : p.handled? h with
          | none => simpa using ih
          | some d =>
              by_cases here : d.file.location = place
              · simpa [here] using List.suffix_append_self_iff.2 brought
              · simpa [here] using ih

/-- The diagnostics of a project are in path order, and those of one place are what is shown
there. -/
theorem listed_inOrder (p : Project) (hs : List Happening) :
    (p.listed hs).Pairwise (fun d e => notBehind (·.file.location) d e = true) ∧
      ∀ place, (p.listed hs).filter (fun d => d.file.location = place) =
        (hs.foldl (ProjectIndex.undergo p) {}).shown place := by
  let i := hs.foldl (ProjectIndex.undergo p) {}
  have own (place : Location) (d : Diagnostic) (shown : d ∈ i.shown place) :
      d.file.location = place := by
    have handled := (shown_suffix p hs place).subset shown
    simpa using (List.mem_filter.1 handled).2
  have ascending : i.files.keys.Pairwise fun k k' => compare k k' = .lt :=
    List.pairwise_map.2 i.files.ascending
  have listed : p.listed hs = i.files.keys.flatMap i.shown := i.diagnostics_eq_flatMap
  rw [listed]
  refine ⟨pairwise_flatMap_groups (fun d : Diagnostic => d.file.location) ascending own, ?_⟩
  intro place
  rw [filter_flatMap_groups (fun d : Diagnostic => d.file.location) ascending own]
  split
  · rfl
  · rename_i absent
    have empty : i.files.get? place = none := by
      rw [← Table.contains_iff_mem_keys, Table.contains] at absent
      simpa using absent
    show [] = ((i.files.get? place).map (·.diagnostics)).getD []
    rw [empty]
    rfl

end Project

namespace Watcher

def Answer.results : Answer → List Result
  | .result r => [r]
  | .package r => r.toList
  | _ => []

variable {w : Watcher} {hs : List Happening}

theorem tallied_results (w : Watcher) (now : Nat) (op : Operation) :
    ∀ r ∈ (w.perform now op).1.results, r.Tallied := by
  intro r answer
  cases op with
  | all =>
      obtain rfl : r = w.allDiagnostics now := List.mem_singleton.1 answer
      exact Result.tallied_of _ _ _ _
  | file path =>
      obtain rfl : r = (w.fileDiagnostics now path).1 := List.mem_singleton.1 answer
      rw [fileDiagnostics_fst]
      exact Result.tallied_of _ _ _ _
  | package name =>
      have found : w.packageDiagnostics? now name = some r := Option.mem_toList.1 answer
      obtain ⟨p, -, rfl⟩ := Option.map_eq_some_iff.1 found
      exact Result.tallied_of _ _ _ _
  | hasErrors path => cases path <;> cases answer
  | _ => cases answer

/-- Just the projects of the workspace are known. -/
theorem Follows.mem_projectIds_iff (f : w.Follows hs) (id : String) :
    id ∈ w.store.projectIds ↔ (w.workspace.project? id).isSome = true := by
  rw [Store.projectIds, ← Table.contains_iff_mem_keys, Table.contains]
  cases registered : w.workspace.project? id with
  | none => simp [f.unknown id registered]
  | some p =>
      obtain rfl := Workspace.id_of_project? registered
      simp [f.known p registered]

theorem Follows.projectDiagnostics? (f : w.Follows hs) {p : Project}
    (registered : w.workspace.project? p.id = some p) :
    w.store.projectDiagnostics? p.id = some (p.listed hs) := by
  rw [Store.projectDiagnostics?, f.known p registered]
  rfl

theorem Follows.file? (f : w.Follows hs) {p : Project}
    (registered : w.workspace.project? p.id = some p) (file : Path) :
    (w.store.file? p.id file).getD [] =
      (hs.foldl (ProjectIndex.undergo p) {}).shown file.location := by
  rw [Store.file?, f.known p registered]
  rfl

/-- Both queries for a file find the same and change the watcher alike. -/
theorem fileHasErrors_eq (w : Watcher) (now : Nat) (path : Path) :
    (w.fileHasErrors now path).1 = (w.fileDiagnostics now path).1.diagnostics.any (·.isError) ∧
      (w.fileHasErrors now path).2 = (w.fileDiagnostics now path).2 := by
  constructor
  · rw [fileHasErrors_fst, fileDiagnostics_fst]
    exact List.any_flatten.symm
  · rw [fileDiagnostics_snd]
    rfl

theorem packageDiagnostics?_of_mem {p : Project} (member : p ∈ w.workspace.projects)
    (own : ∀ q ∈ w.workspace.projects, q.name = p.id → q.id = p.id) (now : Nat) :
    w.packageDiagnostics? now p.id =
      some (.of now p.id ((w.store.projectDiagnostics? p.id).getD []) false) := by
  obtain ⟨q, registered⟩ : ∃ q, w.workspace.project? p.id = some q :=
    Option.isSome_iff_exists.1 (List.find?_isSome.2 ⟨p, member, decide_eq_true rfl⟩)
  have same : q.id = p.id := Workspace.id_of_project? registered
  rw [← same] at own registered ⊢
  obtain ⟨r, named, id⟩ := named?_of_project? registered own
  rw [Watcher.packageDiagnostics?, named, Option.map_some, id]

/-- The queries over everything agree in every state that a watcher can be in. The list of all
diagnostics is made of the parts of the projects, in ascending order of their ids. In each part the
files are in path order; for each file stands what the store holds for it, and that is what was
handled for it last, in the order in which it was handled. The number of diagnostics counts this
list, there is an error exactly if it counts one, and the query for a project by its id, which is
not to be another project's name, lists its part. Every result tallies its own list. A file has
errors exactly if the diagnostics that are found for it have one, and both questions change the
watcher alike. -/
theorem aggregates_agree (workspace : Workspace) (config : WatchConfig) (launcher : Launcher)
    (size : Option (Nat × Nat)) (ops : List (Nat × Operation)) :
    let start := fresh workspace config launcher size
    let w := start.after ops
    let hs := (start.history ops).map (·.2)
    let part (id : String) := (w.store.projectDiagnostics? id).getD []
    ((w.store.projectIds.Pairwise fun id id' => compare id id' = .lt) ∧
      ∀ id, id ∈ w.store.projectIds ↔ (workspace.project? id).isSome = true) ∧
    (∀ p, workspace.project? p.id = some p →
      (part p.id).Pairwise (fun d e => notBehind (·.file.location) d e = true) ∧
      ∀ file : Path,
        (part p.id).filter (fun d => d.file.location = file.location) =
          (w.store.file? p.id file).getD [] ∧
        (w.store.file? p.id file).getD [] <:+
          (p.handled hs).filter fun d => d.file.location = file.location) ∧
    (∀ p ∈ workspace.projects, (∀ q ∈ workspace.projects, q.name = p.id → q.id = p.id) →
      ∀ now, w.packageDiagnostics? now p.id = some (.of now p.id (part p.id) false)) ∧
    (∀ now, let all := (w.allDiagnostics now).diagnostics
      all = w.store.projectIds.flatMap part ∧
      w.diagnosticCount =
        { errors := all.countP (·.category == .error)
          warnings := all.countP (·.category == .warning)
          suggestions := all.countP (·.category == .suggestion) }) ∧
    (w.hasErrors = true ↔ 0 < w.diagnosticCount.errors) ∧
    (∀ now op, ∀ r ∈ (w.perform now op).1.results, r.Tallied) ∧
    ∀ now path,
      (w.fileHasErrors now path).1 = (w.fileDiagnostics now path).1.diagnostics.any (·.isError) ∧
        (w.fileHasErrors now path).2 = (w.fileDiagnostics now path).2 := by
  intro start w hs part
  have follows : w.Follows hs := (fresh_follows workspace config launcher size).after ops
  have site : w.workspace = workspace := by
    rw [after_workspace, fresh_workspace]
  have count := w.store.count_totals
  refine ⟨⟨?_, ?_⟩, ?_, ?_, ?_, ?_, tallied_results w, fileHasErrors_eq w⟩
  · exact List.pairwise_map.2 w.store.projects.ascending
  · intro id
    rw [follows.mem_projectIds_iff, site]
  · intro p registered
    rw [← site] at registered
    have listed : part p.id = p.listed hs :=
      congrArg (Option.getD · []) (follows.projectDiagnostics? registered)
    obtain ⟨ascending, shown⟩ := p.listed_inOrder hs
    rw [listed]
    refine ⟨ascending, ?_⟩
    intro file
    rw [shown, follows.file? registered]
    exact ⟨rfl, p.shown_suffix hs file.location⟩
  · intro p member own now
    rw [← site] at member own
    exact packageDiagnostics?_of_mem member own now
  · intro now all
    exact ⟨w.store.allDiagnostics_eq_flatMap, count⟩
  · show w.store.hasErrors = true ↔ 0 < w.store.totals.count.errors
    rw [count, w.store.hasErrors_eq_any, List.any_eq_true, List.countP_pos_iff]
    rfl

/-- Two projects report. One has completed a pass, and reports for one of its files again. -/
def mixedReports : List (Nat × Operation) :=
  [(1, .event (reportOf "lib" .warning "b.ts" 1)), (2, .event (reportOf "app" .error "z.ts" 2)),
    (3, .event (.phase "app" "Found 1 error.")), (4, .event (reportOf "app" .message "z.ts" 3)),
    (5, .event (reportOf "app" .suggestion "a.ts" 4)), (6, .event (reportOf "app" .error "z.ts" 5))]

theorem aggregates_agree_mixedReports :
    let start := fresh pairWorkspace {} willing none
    let w := start.after mixedReports
    let hs := (start.history mixedReports).map (·.2)
    let part (id : String) := (w.store.projectDiagnostics? id).getD []
    (w.allDiagnostics 7).diagnostics.map (·.code) = [4, 3, 5, 1] ∧
      w.diagnosticCount = { errors := 1, warnings := 1, suggestions := 1 } ∧ w.hasErrors = true ∧
      (∀ p ∈ pairWorkspace.projects, (part p.id).Pairwise
        (fun d e => notBehind (·.file.location) d e = true) ∧
        w.packageDiagnostics? 7 p.id = some (.of 7 p.id (part p.id) false) ∧
        (w.store.file? p.id ⟨"/w/app/z.ts"⟩).getD [] <:+
          (p.handled hs).filter fun d => d.file.location = Path.location ⟨"/w/app/z.ts"⟩) ∧
      (w.fileDiagnostics 7 ⟨"app/z.ts"⟩).1.Tallied := by
  intro start w hs part
  obtain ⟨-, parts, package, -, erroneous, tallied, -⟩ :=
    aggregates_agree pairWorkspace {} willing none mixedReports
  have listed : (w.allDiagnostics 7).diagnostics.map (·.code) = [4, 3, 5, 1] := by decide +kernel
  have count : w.diagnosticCount = { errors := 1, warnings := 1, suggestions := 1 } := by
    decide +kernel
  have registered : ∀ p ∈ pairWorkspace.projects, pairWorkspace.project? p.id = some p := by
    decide +kernel
  have own : ∀ p ∈ pairWorkspace.projects, ∀ q ∈ pairWorkspace.projects,
      q.name = p.id → q.id = p.id := by decide +kernel
  have asked (v : Watcher) : (v.fileDiagnostics 7 ⟨"app/z.ts"⟩).1 ∈
      (v.perform 7 (.file ⟨"app/z.ts"⟩)).1.results := List.mem_singleton_self _
  refine ⟨listed, count, erroneous.2 (by rw [count]; decide), ?_, ?_⟩
  · intro p member
    obtain ⟨ascending, stored⟩ := parts p (registered p member)
    exact ⟨ascending, package p member (own p member) 7, (stored ⟨"/w/app/z.ts"⟩).2⟩
  · exact tallied 7 (.file ⟨"app/z.ts"⟩) _ (asked w)

end Watcher

end DiagnosticWatch
