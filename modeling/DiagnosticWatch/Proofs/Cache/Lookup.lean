import DiagnosticWatch.Proofs.Cache.Recency

/-!
# What a look-up finds

A look-up reads the keys of one file one after the other, and each reading may drop an expired entry
or move a living one. Neither changes what the next reading finds, so a look-up finds what the cache
held in front of it. The second half follows a single key through storing and deleting, as long as
nothing is pushed out; the counter of evictions tells whether that is so.
-/

namespace DiagnosticWatch.Cache

variable {c : Cache} {now : Nat} {key other : CacheKey} {project : String} {file : Path}
  {ds : List Diagnostic}

/-- The diagnostics of a key whose entry has not expired. -/
def living? (c : Cache) (now : Nat) (key : CacheKey) : Option (List Diagnostic) :=
  match c.find? key with
  | none => none
  | some e => if c.expired now e then none else some e.diagnostics

theorem living?_of_find? {e : CacheEntry} (he : c.find? key = some e)
    (living : c.expired now e = false) : c.living? now key = some e.diagnostics := by
  simp [living?, he, living]

theorem living?_of_expired {e : CacheEntry} (he : c.find? key = some e)
    (old : c.expired now e = true) : c.living? now key = none := by
  simp [living?, he, old]

theorem living?_congr {d : Cache} (found : d.find? key = c.find? key)
    (lifetime : d.lifetime = c.lifetime) : d.living? now key = c.living? now key := by
  have age (e : CacheEntry) : d.expired now e = c.expired now e := by
    rw [expired, expired, lifetime]
  simp only [living?, found, age]

theorem living?_eq_some (h : c.living? now key = some ds) :
    ∃ e ∈ c.entries, e.key = key ∧ e.diagnostics = ds := by
  rw [living?] at h
  split at h
  · cases h
  · rename_i e he
    obtain ⟨hmem, hkey⟩ := mem_of_find?_eq_some he
    split at h
    · cases h
    · exact ⟨e, hmem, hkey, Option.some.inj h⟩

/-- Where nothing has expired, the living entries are all that a cache shows. -/
theorem living?_eq_look (living : c.Living now key) : c.living? now key = c.shown.look key := by
  rw [look_shown]
  cases he : c.find? key with
  | none => simp [living?, he]
  | some e => rw [living?_of_find? he (living e he), Option.map_some]

theorem read_fst (c : Cache) (now : Nat) (key : CacheKey) :
    (c.read now key).1 = c.living? now key := by
  rw [read, living?]
  cases c.find? key with
  | none => rfl
  | some e =>
      simp only
      split <;> rfl

/-- Reading one key changes nothing about what the next reading finds. -/
theorem living?_read (c : Cache) (now : Nat) (key other : CacheKey) :
    (c.read now key).2.living? now other = c.living? now other := by
  cases he : c.find? key with
  | none => simp only [read, he]
  | some e =>
      cases hexp : c.expired now e with
      | true =>
          have dropped : (c.read now key).2 = { c with entries := without key c.entries } := by
            simp only [read, he, hexp, if_true]
          rw [dropped]
          by_cases same : other = key
          · rw [same, living?_of_expired he hexp, living?, find?_without, if_pos rfl]
          · exact living?_congr (by rw [find?_without, if_neg same]) rfl
      | false =>
          have living : c.Living now key := fun e' he' => by
            obtain rfl := Option.some.inj (he.symm.trans he')
            exact hexp
          exact living?_congr (find?_read living other) (lifetime_read c now key)

/-- The buckets of a look-up in one list, unless there is none. -/
def joined : List (List Diagnostic) → Option (List Diagnostic)
  | [] => none
  | buckets => some buckets.flatten

/-- A look-up finds the living entries of the file, project by project. -/
theorem gather_fst (c : Cache) (now : Nat) (file : Path) (projects : List String) :
    (c.gather now file projects).1 =
      joined (projects.filterMap fun id => c.living? now (keyOf id file)) := by
  induction projects generalizing c with
  | nil => rfl
  | cons id projects ih =>
      have rest := ih (c.read now (keyOf id file)).2
      simp only [living?_read] at rest
      simp only [gather, read_fst, rest]
      rw [List.filterMap_cons]
      cases c.living? now (keyOf id file) with
      | none => rfl
      | some ds =>
        cases projects.filterMap fun id => c.living? now (keyOf id file) <;> simp [joined]

theorem lookupFile_fst (c : Cache) (now : Nat) (projects : List String) (file : Path) :
    (c.lookupFile now projects file).1 =
      joined (projects.filterMap fun id => c.living? now (keyOf id file)) :=
  gather_fst c now file projects

/-- A bucket that has just been stored is found, whatever else the cache holds. -/
theorem living?_set_self (c : Cache) (lasting : 0 < c.lifetime) (now : Nat) (project : String)
    (file : Path) (ds : List Diagnostic) :
    (c.set now project file ds).living? now (keyOf project file) = some ds := by
  have fresh {d : Cache} {e : CacheEntry} (front : d.entries.head? = some e)
      (hkey : e.key = keyOf project file) (hds : e.diagnostics = ds) (born : e.insertedAt = now)
      (same : d.lifetime = c.lifetime) : d.living? now (keyOf project file) = some ds := by
    obtain ⟨rest, hd⟩ := List.head?_eq_some_iff.1 front
    have found : d.find? (keyOf project file) = some e := by
      rw [find?, hd, List.find?_cons_of_pos (by simpa using hkey)]
    rw [living?_of_find? found, hds]
    simpa [expired, born, same] using Nat.pos_iff_ne_zero.1 lasting
  rw [set]
  simp only
  split
  · rename_i e he
    exact fresh rfl (mem_of_find?_eq_some he).2 rfl rfl rfl
  · split
    · exact fresh rfl rfl rfl rfl rfl
    · exact fresh rfl rfl rfl rfl rfl

theorem evictions_set (c : Cache) (now : Nat) (project : String) (file : Path)
    (ds : List Diagnostic) : c.evictions ≤ (c.set now project file ds).evictions := by
  rw [set]
  simp only
  split
  · exact Nat.le_refl _
  · split
    · exact Nat.le_refl _
    · exact Nat.le_succ _

theorem evictions_read (c : Cache) (now : Nat) (key : CacheKey) :
    (c.read now key).2.evictions = c.evictions := by
  rw [read]
  split
  · rfl
  · split <;> rfl

theorem evictions_lookupFile (c : Cache) (now : Nat) (projects : List String) (file : Path) :
    (c.lookupFile now projects file).2.evictions = c.evictions := by
  have gathered : (c.gather now file projects).2.evictions = c.evictions := by
    induction projects generalizing c with
    | nil => rfl
    | cons id projects ih => rw [gather_cons_cache, ih, evictions_read]
  have recorded (d : Cache) (hit : Bool) : (d.record hit).evictions = d.evictions := by
    cases hit <;> rfl
  exact (recorded _ _).trans gathered

theorem evictions_delete_files (c : Cache) (project : String) (files : List Path) :
    (files.foldl (fun c file => (c.delete project file).2) c).evictions = c.evictions := by
  induction files generalizing c with
  | nil => rfl
  | cons file files ih => exact ih (c.delete project file).2

theorem evictions_delete_projects (c : Cache) (file : Path) (projects : List String) :
    (projects.foldl (fun c id => (c.delete id file).2) c).evictions = c.evictions := by
  induction projects generalizing c with
  | nil => rfl
  | cons id projects ih => exact ih (c.delete id file).2

theorem Shown.look_cons (key other : CacheKey) (ds : List Diagnostic) (l : Shown) :
    Shown.look other ((key, ds) :: l) = if key = other then some ds else Shown.look other l := by
  by_cases h : key = other <;> simp [Shown.look, h]

theorem Shown.look_others_eq (key other : CacheKey) (l : Shown) :
    Shown.look other (Shown.others key l) =
      if key = other then none else Shown.look other l := by
  split
  · rename_i same
    rw [← same]
    exact Shown.look_others key l
  · rename_i unequal
    rw [Shown.look, Shown.others, List.find?_filter, Shown.look]
    congr 2
    funext x
    by_cases h : x.1 = other
    · simp [h, Ne.symm unequal]
    · simp [h]

/-- Storing a bucket without pushing another one out changes its own key only. -/
theorem look_set (calm : (c.set now project file ds).evictions = c.evictions) (other : CacheKey) :
    (c.set now project file ds).shown.look other =
      if keyOf project file = other then some ds else c.shown.look other := by
  have room : (c.shown.look (keyOf project file)).isSome = true ∨ c.shown.length < c.capacity := by
    rw [look_shown, shown, List.length_map]
    rw [set] at calm
    simp only at calm
    cases hfound : c.find? (keyOf project file) with
    | some e => exact .inl rfl
    | none =>
        refine .inr (Decidable.byContradiction fun full => ?_)
        simp [hfound, full] at calm
  rw [shown_set, Shown.put]
  split
  · rw [Shown.look_cons, Shown.look_others_eq]
    split <;> rfl
  · rename_i absent
    rw [if_pos (room.resolve_left absent), Shown.look_cons]

theorem look_delete (c : Cache) (project : String) (file : Path) (other : CacheKey) :
    (c.delete project file).2.shown.look other =
      if keyOf project file = other then none else c.shown.look other := by
  rw [shown_delete, Shown.look_others_eq]

theorem look_delete_files (c : Cache) (project : String) (files : List Path) (other : CacheKey) :
    (files.foldl (fun c file => (c.delete project file).2) c).shown.look other =
      if ∃ file ∈ files, keyOf project file = other then none else c.shown.look other := by
  induction files generalizing c with
  | nil => simp
  | cons file files ih =>
      rw [List.foldl_cons, ih, look_delete]
      by_cases first : keyOf project file = other
      · simp [first]
      · simp [first]

theorem look_delete_projects (c : Cache) (file : Path) (projects : List String)
    (other : CacheKey) :
    (projects.foldl (fun c id => (c.delete id file).2) c).shown.look other =
      if ∃ id ∈ projects, keyOf id file = other then none else c.shown.look other := by
  induction projects generalizing c with
  | nil => simp
  | cons id projects ih =>
      rw [List.foldl_cons, ih, look_delete]
      by_cases first : keyOf id file = other
      · simp [first]
      · simp [first]

/-- A look-up that finds nothing expired takes nothing away. -/
theorem look_lookupFile {projects : List String}
    (living : ∀ id ∈ projects, c.Living now (keyOf id file)) (other : CacheKey) :
    (c.lookupFile now projects file).2.shown.look other = c.shown.look other := by
  have gathered : (c.gather now file projects).2.find? other = c.find? other := by
    induction projects generalizing c with
    | nil => rfl
    | cons id projects ih =>
        rw [List.forall_mem_cons] at living
        rw [gather_cons_cache, ih fun next hm => living.1.read (living.2 next hm),
          find?_read living.1]
  rw [look_shown, look_shown, ← gathered, lookupFile, find?, find?, entries_record]

end DiagnosticWatch.Cache
