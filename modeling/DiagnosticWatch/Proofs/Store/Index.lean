import DiagnosticWatch.Store

/-!
# The buckets of one project

What each operation does to the bucket at one place, to the number of the pass and to whether a pass
is open. Opening a pass twice is opening it once, and storing or completing opens it anyway; so
whether a pass had been opened before makes no difference to either.
-/

namespace DiagnosticWatch.ProjectIndex

variable {p : ProjectIndex}

@[simp] theorem beginPass_files (p : ProjectIndex) : p.beginPass.files = p.files := by
  rw [beginPass]
  split <;> rfl

@[simp] theorem beginPass_passOpen (p : ProjectIndex) : p.beginPass.passOpen = true := by
  rw [beginPass]
  split
  · assumption
  · rfl

theorem beginPass_of_open (h : p.passOpen = true) : p.beginPass = p := by
  rw [beginPass, if_pos h]

theorem beginPass_pass_of_closed (h : p.passOpen = false) : p.beginPass.pass = p.pass + 1 := by
  simp [beginPass, h]

@[simp] theorem beginPass_beginPass (p : ProjectIndex) : p.beginPass.beginPass = p.beginPass :=
  beginPass_of_open (beginPass_passOpen p)

@[simp] theorem insert_beginPass (p : ProjectIndex) (d : Diagnostic) :
    p.beginPass.insert d = p.insert d := by
  simp only [insert, beginPass_beginPass]

@[simp] theorem completePass_beginPass (p : ProjectIndex) :
    p.beginPass.completePass = p.completePass := by
  simp only [completePass, beginPass_beginPass]

theorem beginPass_remove (p : ProjectIndex) (file : Path) :
    (p.remove file).beginPass = p.beginPass.remove file := by
  cases h : p.passOpen <;> simp [beginPass, remove, h]

theorem beginPass_clear (p : ProjectIndex) : p.clear.beginPass = p.beginPass.clear := by
  cases h : p.passOpen <;> simp [beginPass, clear, h]

/-- The bucket that a diagnostic leaves behind: the bucket of its file if that is of the open pass,
and a new one otherwise, with the diagnostic at its end. -/
def refilled (p : ProjectIndex) (d : Diagnostic) : Bucket :=
  match p.files.get? d.file.location with
  | none => { file := d.file, pass := p.beginPass.pass, diagnostics := [d] }
  | some b =>
    if b.pass = p.beginPass.pass then { b with diagnostics := b.diagnostics ++ [d] }
    else { b with pass := p.beginPass.pass, diagnostics := [d] }

theorem insert_eq (p : ProjectIndex) (d : Diagnostic) :
    p.insert d =
      { p.beginPass with files := p.files.insert d.file.location (p.refilled d) } := by
  simp only [insert, beginPass_files]
  rfl

@[simp] theorem insert_pass (p : ProjectIndex) (d : Diagnostic) :
    (p.insert d).pass = p.beginPass.pass := rfl

@[simp] theorem insert_passOpen (p : ProjectIndex) (d : Diagnostic) :
    (p.insert d).passOpen = true :=
  beginPass_passOpen p

theorem refilled_pass (p : ProjectIndex) (d : Diagnostic) :
    (p.refilled d).pass = p.beginPass.pass := by
  rw [refilled]
  split
  · rfl
  · split
    · assumption
    · rfl

theorem refilled_ne_nil (p : ProjectIndex) (d : Diagnostic) :
    (p.refilled d).diagnostics ≠ [] := by
  rw [refilled]
  split
  · simp
  · split <;> simp

theorem get?_insert (p : ProjectIndex) (d : Diagnostic) (place : Location) :
    (p.insert d).files.get? place =
      if d.file.location = place then some (p.refilled d) else p.files.get? place := by
  rw [insert_eq]
  exact Table.get?_insert p.files d.file.location place (p.refilled d)

/-- Completion keeps exactly the buckets of the pass that it completes. -/
theorem get?_completePass (p : ProjectIndex) (place : Location) :
    p.completePass.2.files.get? place =
      (p.files.get? place).filter fun b => decide (b.pass = p.beginPass.pass) := by
  simp only [completePass, beginPass_files]
  exact Table.get?_filter p.files _ place

@[simp] theorem completePass_pass (p : ProjectIndex) :
    p.completePass.2.pass = p.beginPass.pass := rfl

@[simp] theorem completePass_passOpen (p : ProjectIndex) :
    p.completePass.2.passOpen = false := rfl

theorem get?_remove (p : ProjectIndex) (file : Path) (place : Location) :
    (p.remove file).files.get? place =
      if place = file.location then none else p.files.get? place :=
  Table.get?_erase p.files file.location place

/-- Every bucket is stored at the place of the file that it was opened for. -/
def Placed (p : ProjectIndex) : Prop :=
  ∀ place b, p.files.get? place = some b → b.file.location = place

theorem placed_empty : ({} : ProjectIndex).Placed := by
  intro place b hb
  cases hb

theorem Placed.beginPass (h : p.Placed) : p.beginPass.Placed := by
  intro place b hb
  rw [beginPass_files] at hb
  exact h place b hb

theorem Placed.refilled (h : p.Placed) (d : Diagnostic) :
    (p.refilled d).file.location = d.file.location := by
  rw [ProjectIndex.refilled]
  split
  · rfl
  · rename_i b hb
    split <;> exact h _ b hb

theorem Placed.insert (h : p.Placed) (d : Diagnostic) : (p.insert d).Placed := by
  intro place b hb
  rw [get?_insert] at hb
  split at hb
  · rename_i hplace
    cases hb
    rw [← hplace]
    exact h.refilled d
  · exact h place b hb

theorem Placed.completePass (h : p.Placed) : p.completePass.2.Placed := by
  intro place b hb
  rw [get?_completePass] at hb
  exact h place b (Option.filter_eq_some_iff.1 hb).1

theorem Placed.remove (h : p.Placed) (file : Path) : (p.remove file).Placed := by
  intro place b hb
  rw [get?_remove] at hb
  split at hb
  · cases hb
  · exact h place b hb

theorem placed_clear (p : ProjectIndex) : p.clear.Placed := by
  intro place b hb
  cases hb

/-- The pruned files stand at the places of the stale buckets, in the order of the table. -/
theorem Placed.locations_pruned (h : p.Placed) :
    p.completePass.1.map Path.location =
      (p.files.filter fun _ b => decide (b.pass ≠ p.beginPass.pass)).keys := by
  simp only [ProjectIndex.completePass, beginPass_files, Table.values, Table.keys, List.map_map]
  apply List.map_congr_left
  rintro ⟨place, b⟩ hmem
  have hget := Table.get?_eq_some_iff.2 hmem
  rw [Table.get?_filter] at hget
  exact h place b (Option.filter_eq_some_iff.1 hget).1

/-- A place is pruned exactly if it held a bucket before the completion and holds none after it. -/
theorem Placed.mem_pruned_iff (h : p.Placed) (file : Path) :
    (∃ g ∈ p.completePass.1, g.location = file.location) ↔
      (p.file? file).isSome = true ∧ p.completePass.2.file? file = none := by
  have hkey : (∃ g ∈ p.completePass.1, g.location = file.location) ↔
      file.location ∈ p.completePass.1.map Path.location := by
    simp only [List.mem_map]
  rw [hkey, h.locations_pruned, ← Table.contains_iff_mem_keys, Table.contains,
    Table.get?_filter, file?, file?, get?_completePass]
  cases hb : p.files.get? file.location with
  | none => simp
  | some b => by_cases hp : b.pass = p.beginPass.pass <;> simp [hp, Option.filter]

/-- The pruned files are listed in path order, so none of them twice. -/
theorem Placed.pruned_ascending (h : p.Placed) :
    p.completePass.1.Pairwise fun f g => compare f.location g.location = .lt := by
  have sorted : (p.completePass.1.map Path.location).Pairwise fun a b => compare a b = .lt := by
    rw [h.locations_pruned]
    exact List.pairwise_map.2 (Table.ascending _)
  exact List.pairwise_map.1 sorted

end DiagnosticWatch.ProjectIndex
