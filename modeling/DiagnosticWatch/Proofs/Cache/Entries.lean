import DiagnosticWatch.Cache

/-!
# Entries of a cache

Which entries a cache can hold after each operation. Reading, deleting and evicting only take
entries away; storing adds the one that was asked for. None of this depends on times, so it holds
however entries expire.
-/

namespace DiagnosticWatch.Cache

variable {c : Cache} {now : Nat} {key : CacheKey} {project : String} {file : Path}
  {ds : List Diagnostic} {e : CacheEntry}

theorem mem_without {entries : List CacheEntry} :
    e ∈ without key entries ↔ e ∈ entries ∧ e.key ≠ key := by
  simp [without]

theorem find?_eq_none_iff : c.find? key = none ↔ ∀ e ∈ c.entries, e.key ≠ key := by
  simp [find?]

theorem mem_of_find?_eq_some (h : c.find? key = some e) : e ∈ c.entries ∧ e.key = key :=
  ⟨List.mem_of_find?_eq_some h, by simpa using List.find?_some h⟩

/-- Taking one key out leaves what the others are found by. -/
theorem find?_without (c : Cache) (key other : CacheKey) :
    { c with entries := without key c.entries }.find? other =
      if other = key then none else c.find? other := by
  split
  · rename_i same
    subst same
    exact find?_eq_none_iff.2 fun e he => (mem_without.1 he).2
  · rename_i unequal
    rw [find?, without, List.find?_filter, find?]
    congr 1
    funext e
    by_cases h : e.key = other
    · simp [h, unequal]
    · simp [h]

theorem length_without_lt (h : c.find? key = some e) :
    (without key c.entries).length < c.entries.length := by
  obtain ⟨hmem, hkey⟩ := mem_of_find?_eq_some h
  rw [without, List.length_filter_lt_length_iff_exists]
  exact ⟨e, hmem, by simpa using hkey⟩

theorem mem_of_mem_read (h : e ∈ (c.read now key).2.entries) : e ∈ c.entries := by
  rw [read] at h
  split at h
  · exact h
  · rename_i found hfound
    split at h
    · exact (mem_without.1 h).1
    · obtain rfl | h := List.mem_cons.1 h
      · exact (mem_of_find?_eq_some hfound).1
      · exact (mem_without.1 h).1

theorem gather_cons_cache (c : Cache) (now : Nat) (file : Path) (project : String)
    (projects : List String) :
    (c.gather now file (project :: projects)).2 =
      ((c.read now (keyOf project file)).2.gather now file projects).2 := by
  simp only [gather]
  split <;> rfl

theorem mem_of_mem_gather {projects : List String}
    (h : e ∈ (c.gather now file projects).2.entries) : e ∈ c.entries := by
  induction projects generalizing c with
  | nil => exact h
  | cons project projects ih =>
      rw [gather_cons_cache] at h
      exact mem_of_mem_read (ih h)

theorem entries_record (c : Cache) (hit : Bool) : (c.record hit).entries = c.entries := by
  cases hit <;> rfl

theorem mem_of_mem_lookupFile {projects : List String}
    (h : e ∈ (c.lookupFile now projects file).2.entries) : e ∈ c.entries := by
  simp only [lookupFile, entries_record] at h
  exact mem_of_mem_gather h

/-- An entry after storing is the stored bucket or an earlier entry of another key. The stored
bucket keeps the spelling of the entry that it replaces. -/
theorem mem_set (h : e ∈ (c.set now project file ds).entries) :
    (e.key = keyOf project file ∧ e.diagnostics = ds ∧
      (e.file = file ∨ ∃ old ∈ c.entries, old.key = keyOf project file ∧ e.file = old.file)) ∨
    (e ∈ c.entries ∧ e.key ≠ keyOf project file) := by
  rw [set] at h
  simp only at h
  split at h
  · rename_i old hold
    obtain ⟨hmem, hkey⟩ := mem_of_find?_eq_some hold
    obtain rfl | h := List.mem_cons.1 h
    · exact .inl ⟨hkey, rfl, .inr ⟨old, hmem, hkey, rfl⟩⟩
    · exact .inr (mem_without.1 h)
  · rename_i hnone
    have others : ∀ e ∈ c.entries, e.key ≠ keyOf project file := find?_eq_none_iff.1 hnone
    split at h
    · obtain rfl | h := List.mem_cons.1 h
      · exact .inl ⟨rfl, rfl, .inl rfl⟩
      · exact .inr ⟨h, others e h⟩
    · obtain rfl | h := List.mem_cons.1 h
      · exact .inl ⟨rfl, rfl, .inl rfl⟩
      · have hmem := (List.dropLast_sublist _).subset h
        exact .inr ⟨hmem, others e hmem⟩

theorem mem_delete :
    e ∈ (c.delete project file).2.entries ↔ e ∈ c.entries ∧ e.key ≠ keyOf project file :=
  mem_without

theorem mem_delete_files {files : List Path} :
    e ∈ (files.foldl (fun c file => (c.delete project file).2) c).entries ↔
      e ∈ c.entries ∧ ∀ file ∈ files, e.key ≠ keyOf project file := by
  induction files generalizing c with
  | nil => simp
  | cons file files ih =>
      rw [List.foldl_cons, ih, mem_delete, List.forall_mem_cons, and_assoc]

theorem mem_delete_projects {projects : List String} :
    e ∈ (projects.foldl (fun c id => (c.delete id file).2) c).entries ↔
      e ∈ c.entries ∧ ∀ id ∈ projects, e.key ≠ keyOf id file := by
  induction projects generalizing c with
  | nil => simp
  | cons id projects ih =>
      rw [List.foldl_cons, ih, mem_delete, List.forall_mem_cons, and_assoc]

end DiagnosticWatch.Cache
