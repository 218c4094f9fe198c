import DiagnosticWatch.Proofs.Run
import DiagnosticWatch.Proofs.Store.Index

/-!
# One operation on a store

`get?_perform` says what an operation makes of each project. Everything else here is read off from
it: operations keep buckets at their places, an operation on one project leaves the others alone,
and an opened pass cannot be told from one that is still to be opened.
-/

namespace DiagnosticWatch.Store

namespace Operation

/-- What an operation makes of the index of a known project. -/
def onIndex (id : String) (p : ProjectIndex) : Operation → ProjectIndex
  | .register _ => p
  | .beginPass other => if other = id then p.beginPass else p
  | .insert other d => if other = id then p.insert d else p
  | .completePass other => if other = id then p.completePass.2 else p
  | .removeFile file => p.remove file
  | .clear => p.clear

/-- The project that an operation is on. Removing a file and clearing concern every project. -/
def target? : Operation → Option String
  | .register id | .beginPass id | .insert id _ | .completePass id => some id
  | .removeFile _ | .clear => none

/-- Whether the operation opens a pass and does nothing else. -/
def isBeginPass : Operation → Bool
  | .beginPass _ => true
  | _ => false

end Operation

variable {s : Store} {id : String}

private theorem get?_modify (t : Table String ProjectIndex) (other id : String)
    (f : ProjectIndex → ProjectIndex) :
    (t.modify other f).get? id = (t.get? id).map fun p => if other = id then f p else p := by
  rw [Table.get?_modify]
  by_cases h : other = id
  · simp [h]
  · simp [h, Ne.symm h]

/-- The index of a project behind an operation. -/
theorem get?_perform (s : Store) (op : Operation) (id : String) :
    (s.perform op).2.projects.get? id =
      match s.projects.get? id with
      | some p => some (op.onIndex id p)
      | none => if op = .register id then some {} else none := by
  cases op with
  | register other =>
      simp only [perform, Operation.onIndex, Operation.register.injEq]
      by_cases known : s.projects.contains other = true
      · rw [register, if_pos known]
        obtain ⟨q, hq⟩ := Option.isSome_iff_exists.1 known
        by_cases h : other = id
        · subst h
          rw [hq]
        · cases s.projects.get? id <;> simp [h]
      · rw [register, if_neg known, Table.get?_insert]
        have absent : s.projects.get? other = none := Option.not_isSome_iff_eq_none.1 known
        by_cases h : other = id
        · subst h
          simp [absent]
        · cases s.projects.get? id <;> simp [h]
  | beginPass other =>
      simp only [perform, beginPass, get?_modify]
      cases s.projects.get? id <;> rfl
  | insert other d =>
      simp only [perform, insert, get?_modify]
      cases s.projects.get? id <;> rfl
  | completePass other =>
      simp only [perform, completePass, get?_modify]
      cases s.projects.get? id <;> rfl
  | removeFile file =>
      simp only [perform, removeFile, Table.get?_map]
      cases s.projects.get? id <;> rfl
  | clear =>
      simp only [perform, clear, Table.get?_map]
      cases s.projects.get? id <;> rfl

theorem get?_perform_of_some {p : ProjectIndex} (hp : s.projects.get? id = some p)
    (op : Operation) : (s.perform op).2.projects.get? id = some (op.onIndex id p) := by
  rw [get?_perform, hp]

/-- Only registering makes a project known. -/
theorem get?_perform_of_none (hp : s.projects.get? id = none) (op : Operation)
    (other : op ≠ .register id) : (s.perform op).2.projects.get? id = none := by
  rw [get?_perform, hp]
  exact if_neg other

theorem contains_iff_get? :
    s.contains id = true ↔ ∃ p, s.projects.get? id = some p :=
  Option.isSome_iff_exists

/-- A known project stays known. -/
theorem contains_perform (h : s.contains id = true) (op : Operation) :
    (s.perform op).2.contains id = true := by
  obtain ⟨p, hp⟩ := contains_iff_get?.1 h
  exact contains_iff_get?.2 ⟨_, get?_perform_of_some hp op⟩

/-- An operation on one project leaves every other project alone. -/
theorem get?_perform_of_ne {op : Operation} {other : String} (htarget : op.target? = some other)
    (hne : other ≠ id) : (s.perform op).2.projects.get? id = s.projects.get? id := by
  rw [get?_perform]
  cases hp : s.projects.get? id with
  | none =>
      have : op ≠ .register id := by
        rintro rfl
        exact hne (Option.some.inj htarget).symm
      simp [this]
  | some p =>
      cases op <;> simp_all [Operation.target?, Operation.onIndex]

theorem file?_perform_of_ne {op : Operation} {other : String} (htarget : op.target? = some other)
    (hne : other ≠ id) (file : Path) : (s.perform op).2.file? id file = s.file? id file := by
  rw [file?, file?, get?_perform_of_ne htarget hne]

/-- The spelling of a file does not count. -/
theorem file?_congr {f g : Path} (same : f.location = g.location) :
    s.file? id f = s.file? id g := by
  simp only [file?, ProjectIndex.file?, same]

theorem contains_of_file? {file : Path} {ds : List Diagnostic} (h : s.file? id file = some ds) :
    s.contains id = true := by
  obtain ⟨p, hp, -⟩ := Option.bind_eq_some_iff.1 h
  exact contains_iff_get?.2 ⟨p, hp⟩

/-- Opening a pass changes no bucket. -/
theorem file?_beginPass (s : Store) (other id : String) (file : Path) :
    (s.beginPass other).2.file? id file = s.file? id file := by
  change (s.perform (.beginPass other)).2.file? id file = _
  rw [file?, file?, get?_perform]
  cases s.projects.get? id with
  | none => simp
  | some p =>
      simp only [Operation.onIndex, Option.bind_some]
      split
      · rw [ProjectIndex.file?, ProjectIndex.beginPass_files, ProjectIndex.file?]
      · rfl

theorem file?_insert_self {d : Diagnostic} (known : s.contains id = true) :
    ∃ bucket, (s.insert id d).2.file? id d.file = some bucket := by
  obtain ⟨p, hp⟩ := contains_iff_get?.1 known
  refine ⟨(p.refilled d).diagnostics, ?_⟩
  change (s.perform (.insert id d)).2.file? id d.file = _
  rw [file?, get?_perform_of_some hp]
  simp [Operation.onIndex, ProjectIndex.file?, ProjectIndex.get?_insert]

/-- Inserting changes the bucket of one file in one project. -/
theorem file?_insert_of_ne {other : String} {d : Diagnostic} {file : Path}
    (h : other ≠ id ∨ d.file.location ≠ file.location) :
    (s.insert other d).2.file? id file = s.file? id file := by
  change (s.perform (.insert other d)).2.file? id file = _
  rw [file?, file?, get?_perform]
  cases s.projects.get? id with
  | none => simp
  | some p =>
      simp only [Operation.onIndex, Option.bind_some]
      split
      · rename_i same
        have hne := h.resolve_left (not_not_intro same)
        rw [ProjectIndex.file?, ProjectIndex.get?_insert, if_neg hne, ProjectIndex.file?]
      · rfl

theorem file?_removeFile (s : Store) (removed : Path) (id : String) (file : Path) :
    (s.removeFile removed).2.file? id file =
      if file.location = removed.location then none else s.file? id file := by
  change (s.perform (.removeFile removed)).2.file? id file = _
  rw [file?, file?, get?_perform]
  cases s.projects.get? id with
  | none => simp
  | some p =>
      simp only [Operation.onIndex, Option.bind_some, ProjectIndex.file?, ProjectIndex.get?_remove]
      split <;> rfl

/-- In every project each bucket is stored at the place of its file. -/
def Placed (s : Store) : Prop :=
  ∀ id p, s.projects.get? id = some p → p.Placed

theorem placed_empty : empty.Placed := by
  intro id p hp
  cases hp

theorem Operation.placed_onIndex {p : ProjectIndex} (h : p.Placed) (op : Operation) (id : String) :
    (op.onIndex id p).Placed := by
  cases op with
  | register => exact h
  | beginPass other =>
      simp only [onIndex]
      split
      · exact h.beginPass
      · exact h
  | insert other d =>
      simp only [onIndex]
      split
      · exact h.insert d
      · exact h
  | completePass other =>
      simp only [onIndex]
      split
      · exact h.completePass
      · exact h
  | removeFile file => exact h.remove file
  | clear => exact ProjectIndex.placed_clear p

theorem Placed.perform (h : s.Placed) (op : Operation) : (s.perform op).2.Placed := by
  intro id p hp
  rw [get?_perform] at hp
  split at hp
  · rename_i q hq
    cases hp
    exact op.placed_onIndex (h id q hq) id
  · split at hp
    · cases hp
      exact ProjectIndex.placed_empty
    · cases hp

/-- A completion changes no bucket that it does not prune. -/
theorem Placed.file?_completePass (h : s.Placed) {other : String} {pruned : List Path}
    (hpruned : (s.completePass other).1 = some pruned) {file : Path}
    (kept : other ≠ id ∨ ∀ g ∈ pruned, g.location ≠ file.location) :
    (s.completePass other).2.file? id file = s.file? id file := by
  change (s.perform (.completePass other)).2.file? id file = _
  by_cases same : other = id
  · subst same
    obtain ⟨p, hp, rfl⟩ := Option.map_eq_some_iff.1 hpruned
    have unpruned : ¬((p.file? file).isSome = true ∧ p.completePass.2.file? file = none) := by
      rw [← (h other p hp).mem_pruned_iff file]
      rintro ⟨g, hg, hplace⟩
      exact kept.resolve_left (not_not_intro rfl) g hg hplace
    rw [file?, file?, get?_perform_of_some hp, hp]
    simp only [Operation.onIndex, if_true, Option.bind_some]
    simp only [ProjectIndex.file?, ProjectIndex.get?_completePass] at unpruned ⊢
    cases hb : p.files.get? file.location with
    | none => rfl
    | some b => by_cases hpass : b.pass = p.beginPass.pass <;> simp_all [Option.filter]
  · exact file?_perform_of_ne rfl same file

/-- Everything that can be asked of a store. -/
structure View where
  contains : String → Bool
  projectIds : List String
  file? : String → Path → Option (List Diagnostic)
  projectDiagnostics? : String → Option (List Diagnostic)
  allDiagnostics : List Diagnostic
  totals : Tally
  projectTotals? : String → Option Tally
  hasErrors : Bool
  fileCount : Nat

def view (s : Store) : View :=
  { contains := s.contains
    projectIds := s.projectIds
    file? := s.file?
    projectDiagnostics? := s.projectDiagnostics?
    allDiagnostics := s.allDiagnostics
    totals := s.totals
    projectTotals? := s.projectTotals?
    hasErrors := s.hasErrors
    fileCount := s.fileCount }

/-- The store with a pass open in every project. -/
def opened (s : Store) : Store :=
  ⟨s.projects.map fun _ p => p.beginPass⟩

theorem get?_opened (s : Store) (id : String) :
    s.opened.projects.get? id = (s.projects.get? id).map (·.beginPass) :=
  Table.get?_map s.projects _ id

@[simp] theorem contains_opened (s : Store) (id : String) :
    s.opened.contains id = s.contains id := by
  simp only [contains, Table.contains, get?_opened, Option.isSome_map]

theorem Operation.beginPass_onIndex_beginPass (op : Operation) (id : String) (p : ProjectIndex) :
    (op.onIndex id p.beginPass).beginPass = (op.onIndex id p).beginPass := by
  cases op with
  | register => exact p.beginPass_beginPass
  | beginPass other => simp only [onIndex]; split <;> simp
  | insert other d => simp only [onIndex]; split <;> simp
  | completePass other => simp only [onIndex]; split <;> simp
  | removeFile file =>
      simp only [onIndex, ProjectIndex.beginPass_remove, ProjectIndex.beginPass_beginPass]
  | clear => simp only [onIndex, ProjectIndex.beginPass_clear, ProjectIndex.beginPass_beginPass]

/-- The answer of an operation does not depend on which passes are open. -/
theorem answer_opened (s : Store) (op : Operation) :
    (s.opened.perform op).1 = (s.perform op).1 := by
  cases op with
  | register => rfl
  | beginPass id => simp only [perform, beginPass, contains_opened]
  | insert id d => simp only [perform, insert, contains_opened]
  | completePass id =>
      simp only [perform, completePass, get?_opened, Option.map_map, Function.comp_def,
        ProjectIndex.completePass_beginPass]
  | removeFile file =>
      simp only [perform, removeFile, opened, Table.keys_filter_map, ProjectIndex.beginPass_files]
  | clear => rfl

theorem opened_perform_opened (s : Store) (op : Operation) :
    (s.opened.perform op).2.opened = (s.perform op).2.opened := by
  have same : (s.opened.perform op).2.opened.projects = (s.perform op).2.opened.projects := by
    apply Table.ext_get?
    intro id
    rw [get?_opened, get?_opened, get?_perform, get?_perform, get?_opened]
    cases hp : s.projects.get? id with
    | none => rfl
    | some p => simp only [Option.map_some, op.beginPass_onIndex_beginPass id p]
  exact congrArg Store.mk same

theorem opened_beginPass (s : Store) (id : String) :
    (s.perform (.beginPass id)).2.opened = s.opened := by
  have same : (s.perform (.beginPass id)).2.opened.projects = s.opened.projects := by
    apply Table.ext_get?
    intro other
    rw [get?_opened, get?_opened, get?_perform]
    cases hp : s.projects.get? other with
    | none => simp
    | some p =>
        simp only [Option.map_some, Operation.onIndex]
        split <;> simp
  exact congrArg Store.mk same

/-- No query tells whether a pass is open. -/
theorem view_opened (s : Store) : s.opened.view = s.view := by
  have diagnostics (p : ProjectIndex) : p.beginPass.diagnostics = p.diagnostics := by
    simp only [ProjectIndex.diagnostics, ProjectIndex.beginPass_files]
  have count (p : ProjectIndex) : p.beginPass.fileCount = p.fileCount := by
    simp only [ProjectIndex.fileCount, ProjectIndex.beginPass_files]
  have file (p : ProjectIndex) (f : Path) : p.beginPass.file? f = p.file? f := by
    simp only [ProjectIndex.file?, ProjectIndex.beginPass_files]
  have all : s.opened.allDiagnostics = s.allDiagnostics := by
    simp only [allDiagnostics, opened, Table.values_map, List.flatMap_map, diagnostics]
  simp only [view, View.mk.injEq]
  refine ⟨funext s.contains_opened, Table.keys_map s.projects _, ?_, ?_, all, ?_, ?_, ?_, ?_⟩
  · funext id f
    simp only [file?, get?_opened, Option.bind_map, Function.comp_def, file]
  · funext id
    simp only [projectDiagnostics?, get?_opened, Option.map_map, Function.comp_def, diagnostics]
  · rw [totals, totals, all]
  · funext id
    simp only [projectTotals?, get?_opened, Option.map_map, Function.comp_def, diagnostics]
  · simp only [hasErrors, opened, Table.values_map, List.any_map, Function.comp_def,
      ProjectIndex.beginPass_files]
  · simp only [fileCount, opened, Table.values_map, List.foldl_map, count]

end DiagnosticWatch.Store
