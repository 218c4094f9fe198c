import DiagnosticWatch.Proofs.Cache.Entries

/-!
# What a cache shows

From outside a cache is a list of keys with their diagnostics, the most recently used first. Each
operation is one equation on that list as long as no entry that it reads has expired; times and
spellings then do not count. Two caches that show the same and have counted the same stay so under
the same operations, and storing a key that was taken out before, or that is in front already, makes
no difference.
-/

namespace DiagnosticWatch.Cache

/-- Keys with their diagnostics, the most recently used first. -/
abbrev Shown := List (CacheKey × List Diagnostic)

namespace Shown

def look (key : CacheKey) (l : Shown) : Option (List Diagnostic) :=
  (l.find? fun x => x.1 = key).map (·.2)

/-- All other keys, in their order. -/
def others (key : CacheKey) (l : Shown) : Shown :=
  l.filter fun x => x.1 ≠ key

def touch (key : CacheKey) (l : Shown) : Shown :=
  match look key l with
  | none => l
  | some ds => (key, ds) :: others key l

def put (capacity : Nat) (key : CacheKey) (ds : List Diagnostic) (l : Shown) : Shown :=
  if (look key l).isSome then (key, ds) :: others key l
  else if l.length < capacity then (key, ds) :: l
  else (key, ds) :: l.dropLast

variable {key : CacheKey} {ds ds' : List Diagnostic} {l : Shown} {capacity : Nat}

theorem look_eq_none_iff : look key l = none ↔ ∀ x ∈ l, x.1 ≠ key := by
  simp [look]

theorem look_cons_self : look key ((key, ds) :: l) = some ds := by
  simp [look]

theorem others_of_look_eq_none (h : look key l = none) : others key l = l := by
  rw [others, List.filter_eq_self]
  intro x hx
  simpa using look_eq_none_iff.1 h x hx

theorem look_others (key : CacheKey) (l : Shown) : look key (others key l) = none := by
  rw [look_eq_none_iff]
  intro x hx
  simpa using (List.mem_filter.1 hx).2

theorem others_cons_self : others key ((key, ds) :: l) = others key l := by
  simp [others]

theorem length_others_lt (h : (look key l).isSome = true) : (others key l).length < l.length := by
  rw [others, List.length_filter_lt_length_iff_exists]
  obtain ⟨ds, hds⟩ := Option.isSome_iff_exists.1 h
  obtain ⟨x, hx, -⟩ := Option.map_eq_some_iff.1 hds
  exact ⟨x, List.mem_of_find?_eq_some hx, by simpa using List.find?_some hx⟩

/-- Storing a key that has been taken out is storing it, as long as the list fits. -/
theorem put_others (fits : l.length ≤ capacity) :
    put capacity key ds (others key l) = put capacity key ds l := by
  cases h : look key l with
  | none => rw [others_of_look_eq_none h]
  | some old =>
      have room : (others key l).length < capacity :=
        Nat.lt_of_lt_of_le (length_others_lt (by rw [h]; rfl)) fits
      simp [put, look_others, h, room]

theorem put_eq_cons (capacity : Nat) (key : CacheKey) (l : Shown) :
    ∃ rest, look key rest = none ∧ ∀ ds, put capacity key ds l = (key, ds) :: rest := by
  cases h : look key l with
  | some old => exact ⟨others key l, look_others key l, fun _ => by simp [put, h]⟩
  | none =>
      by_cases room : l.length < capacity
      · exact ⟨l, h, fun _ => by simp [put, h, room]⟩
      · refine ⟨l.dropLast, ?_, fun _ => by simp [put, h, room]⟩
        rw [look_eq_none_iff] at h ⊢
        intro x hx
        exact h x ((List.dropLast_sublist l).subset hx)

/-- Of two buckets stored under one key the later stays, and nothing else gives way to it. -/
theorem put_put : put capacity key ds' (put capacity key ds l) = put capacity key ds' l := by
  obtain ⟨rest, absent, put_l⟩ := put_eq_cons capacity key l
  rw [put_l, put_l, put, look_cons_self, others_cons_self, others_of_look_eq_none absent]
  rfl

end Shown

variable {c d : Cache} {now now' : Nat} {key : CacheKey} {project : String} {file file' : Path}
  {ds : List Diagnostic}

def shown (c : Cache) : Shown :=
  c.entries.map fun e => (e.key, e.diagnostics)

/-- The entry of a key, if there is one, has not expired. -/
def Living (c : Cache) (now : Nat) (key : CacheKey) : Prop :=
  ∀ e ∈ c.find? key, c.expired now e = false

instance (c : Cache) (now : Nat) (key : CacheKey) : Decidable (c.Living now key) :=
  inferInstanceAs (Decidable (∀ e ∈ c.find? key, c.expired now e = false))

theorem look_shown (c : Cache) (key : CacheKey) :
    c.shown.look key = (c.find? key).map (·.diagnostics) := by
  rw [Shown.look, shown, find?, List.find?_map, Option.map_map]
  rfl

theorem shown_without (key : CacheKey) (entries : List CacheEntry) :
    (without key entries).map (fun e => (e.key, e.diagnostics)) =
      Shown.others key (entries.map fun e => (e.key, e.diagnostics)) := by
  rw [without, Shown.others, List.filter_map]
  rfl

theorem shown_set (c : Cache) (now : Nat) (project : String) (file : Path)
    (ds : List Diagnostic) :
    (c.set now project file ds).shown = c.shown.put c.capacity (keyOf project file) ds := by
  have length : c.shown.length = c.entries.length := List.length_map _
  rw [set]
  simp only
  split
  · rename_i e he
    obtain ⟨-, hkey⟩ := mem_of_find?_eq_some he
    simp only [Shown.put, look_shown, he, Option.map_some, Option.isSome_some, if_true]
    rw [shown, List.map_cons, shown_without, hkey]
    rfl
  · rename_i hnone
    simp only [Shown.put, look_shown, hnone, Option.map_none, Option.isSome_none, length]
    split
    · rfl
    · rw [shown, List.map_cons, List.map_dropLast]
      rfl

theorem shown_delete (c : Cache) (project : String) (file : Path) :
    (c.delete project file).2.shown = c.shown.others (keyOf project file) :=
  shown_without _ _

theorem read_eq (living : c.Living now key) :
    (c.read now key).1 = c.shown.look key ∧ (c.read now key).2.shown = c.shown.touch key := by
  rw [Shown.touch, look_shown]
  rw [read]
  split
  · rename_i hnone
    rw [hnone]
    exact ⟨rfl, rfl⟩
  · rename_i e he
    obtain ⟨-, hkey⟩ := mem_of_find?_eq_some he
    rw [living e he, he]
    refine ⟨rfl, ?_⟩
    simp only [Bool.false_eq_true, if_false, Option.map_some]
    rw [shown, List.map_cons, shown_without, hkey]
    rfl

/-- Reading a living entry takes no entry away. -/
theorem find?_read (living : c.Living now key) (other : CacheKey) :
    (c.read now key).2.find? other = c.find? other := by
  rw [read]
  split
  · rfl
  · rename_i e he
    obtain ⟨-, hkey⟩ := mem_of_find?_eq_some he
    rw [living e he]
    simp only [Bool.false_eq_true, if_false]
    by_cases same : key = other
    · subst same
      rw [find?, List.find?_cons_of_pos (by simpa using hkey), he]
    · have unequal : e.key ≠ other := fun h => same (hkey.symm.trans h)
      rw [find?, List.find?_cons_of_neg (by simpa using unequal)]
      exact (find?_without c key other).trans (if_neg (Ne.symm same))

theorem lifetime_read (c : Cache) (now : Nat) (key : CacheKey) :
    (c.read now key).2.lifetime = c.lifetime := by
  rw [read]
  split
  · rfl
  · split <;> rfl

theorem Living.read {other : CacheKey} (living : c.Living now key)
    (h : c.Living now other) : (c.read now key).2.Living now other := by
  intro e he
  rw [find?_read living] at he
  rw [expired, lifetime_read]
  exact h e he

/-- Two caches of one capacity that show the same and have counted the same hits and misses. -/
structure Alike (c d : Cache) : Prop where
  capacity : c.capacity = d.capacity
  hits : c.hits = d.hits
  misses : c.misses = d.misses
  shown : c.shown = d.shown

namespace Alike

theorem symm (h : c.Alike d) : d.Alike c :=
  ⟨h.capacity.symm, h.hits.symm, h.misses.symm, h.shown.symm⟩

theorem trans {e : Cache} (h : c.Alike d) (h' : d.Alike e) : c.Alike e :=
  ⟨h.capacity.trans h'.capacity, h.hits.trans h'.hits, h.misses.trans h'.misses,
    h.shown.trans h'.shown⟩

end Alike

theorem counters_set (c : Cache) (now : Nat) (project : String) (file : Path)
    (ds : List Diagnostic) :
    (c.set now project file ds).capacity = c.capacity ∧
      (c.set now project file ds).hits = c.hits ∧
        (c.set now project file ds).misses = c.misses := by
  rw [set]
  simp only
  split
  · exact ⟨rfl, rfl, rfl⟩
  · split <;> exact ⟨rfl, rfl, rfl⟩

theorem counters_read (c : Cache) (now : Nat) (key : CacheKey) :
    (c.read now key).2.capacity = c.capacity ∧ (c.read now key).2.hits = c.hits ∧
      (c.read now key).2.misses = c.misses := by
  rw [read]
  split
  · exact ⟨rfl, rfl, rfl⟩
  · split <;> exact ⟨rfl, rfl, rfl⟩

namespace Alike

/-- Neither the time nor the spelling of the file shows. -/
theorem set (h : c.Alike d) (now now' : Nat) (project : String)
    (same : file.location = file'.location) (ds : List Diagnostic) :
    (c.set now project file ds).Alike (d.set now' project file' ds) := by
  obtain ⟨capacity, hits, misses⟩ := counters_set c now project file ds
  obtain ⟨capacity', hits', misses'⟩ := counters_set d now' project file' ds
  refine ⟨?_, ?_, ?_, ?_⟩
  · rw [capacity, capacity', h.capacity]
  · rw [hits, hits', h.hits]
  · rw [misses, misses', h.misses]
  · rw [shown_set, shown_set, h.shown, h.capacity, keyOf, keyOf, same]

theorem delete (h : c.Alike d) (project : String) (file : Path) :
    (c.delete project file).2.Alike (d.delete project file).2 := by
  refine ⟨h.capacity, h.hits, h.misses, ?_⟩
  rw [shown_delete, shown_delete, h.shown]

theorem record (h : c.Alike d) (hit : Bool) : (c.record hit).Alike (d.record hit) := by
  cases hit with
  | true => exact ⟨h.capacity, congrArg (· + 1) h.hits, h.misses, h.shown⟩
  | false => exact ⟨h.capacity, h.hits, congrArg (· + 1) h.misses, h.shown⟩

theorem read (h : c.Alike d) (living : c.Living now key) (living' : d.Living now' key) :
    (c.read now key).1 = (d.read now' key).1 ∧
      (c.read now key).2.Alike (d.read now' key).2 := by
  obtain ⟨found, shown⟩ := read_eq living
  obtain ⟨found', shown'⟩ := read_eq living'
  obtain ⟨capacity, hits, misses⟩ := counters_read c now key
  obtain ⟨capacity', hits', misses'⟩ := counters_read d now' key
  refine ⟨by rw [found, found', h.shown], ?_, ?_, ?_, ?_⟩
  · rw [capacity, capacity', h.capacity]
  · rw [hits, hits', h.hits]
  · rw [misses, misses', h.misses]
  · rw [shown, shown', h.shown]

theorem gather (h : c.Alike d) {projects : List String}
    (living : ∀ id ∈ projects, c.Living now (keyOf id file))
    (living' : ∀ id ∈ projects, d.Living now' (keyOf id file)) :
    (c.gather now file projects).1 = (d.gather now' file projects).1 ∧
      (c.gather now file projects).2.Alike (d.gather now' file projects).2 := by
  induction projects generalizing c d with
  | nil => exact ⟨rfl, h⟩
  | cons id projects ih =>
      rw [List.forall_mem_cons] at living living'
      obtain ⟨first, next⟩ := h.read living.1 living'.1
      obtain ⟨rest, final⟩ := ih next (fun other hm => living.1.read (living.2 other hm))
        (fun other hm => living'.1.read (living'.2 other hm))
      refine ⟨?_, by rwa [gather_cons_cache, gather_cons_cache]⟩
      simp only [Cache.gather, first, rest]
      split <;> rfl

/-- Caches that cannot be told apart answer a look-up alike. -/
theorem lookupFile (h : c.Alike d) {projects : List String}
    (living : ∀ id ∈ projects, c.Living now (keyOf id file))
    (living' : ∀ id ∈ projects, d.Living now' (keyOf id file)) :
    (c.lookupFile now projects file).1 = (d.lookupFile now' projects file).1 ∧
      (c.lookupFile now projects file).2.Alike (d.lookupFile now' projects file).2 := by
  obtain ⟨found, next⟩ := h.gather living living'
  refine ⟨found, ?_⟩
  simp only [Cache.lookupFile, found]
  exact next.record _

theorem delete_files (h : c.Alike d) (files : List Path) :
    (files.foldl (fun c file => (c.delete project file).2) c).Alike
      (files.foldl (fun c file => (c.delete project file).2) d) := by
  induction files generalizing c d with
  | nil => exact h
  | cons file files ih => exact ih (h.delete project file)

theorem delete_projects (h : c.Alike d) (projects : List String) :
    (projects.foldl (fun c id => (c.delete id file).2) c).Alike
      (projects.foldl (fun c id => (c.delete id file).2) d) := by
  induction projects generalizing c d with
  | nil => exact h
  | cons id projects ih => exact ih (h.delete id file)

end Alike

/-- Storing a key that was taken out just before is storing it. -/
theorem alike_set_delete (fits : c.entries.length ≤ c.capacity) :
    ((c.delete project file).2.set now project file ds).Alike (c.set now' project file ds) := by
  obtain ⟨capacity, hits, misses⟩ := counters_set (c.delete project file).2 now project file ds
  obtain ⟨capacity', hits', misses'⟩ := counters_set c now' project file ds
  refine ⟨capacity.trans capacity'.symm, hits.trans hits'.symm, misses.trans misses'.symm, ?_⟩
  have fits' : c.shown.length ≤ c.capacity := by rwa [Cache.shown, List.length_map]
  rw [shown_set, shown_set, shown_delete]
  exact Shown.put_others fits'

/-- Storing a key twice is storing it the second time. -/
theorem alike_set_set {old : List Diagnostic} :
    ((c.set now project file old).set now project file ds).Alike (c.set now' project file ds) := by
  obtain ⟨capacity, hits, misses⟩ := counters_set (c.set now project file old) now project file ds
  obtain ⟨capacity₁, hits₁, misses₁⟩ := counters_set c now project file old
  obtain ⟨capacity₂, hits₂, misses₂⟩ := counters_set c now' project file ds
  refine ⟨?_, ?_, ?_, ?_⟩
  · rw [capacity, capacity₁, capacity₂]
  · rw [hits, hits₁, hits₂]
  · rw [misses, misses₁, misses₂]
  · rw [shown_set, shown_set, shown_set, capacity₁, Shown.put_put]

/-- A cache has room for an entry and holds no more than it has room for. -/
structure Fits (c : Cache) : Prop where
  room : 1 ≤ c.capacity
  bounded : c.entries.length ≤ c.capacity

theorem fits_create (capacity lifetime : Nat) : (create capacity lifetime).Fits where
  room := Nat.le_max_left 1 capacity
  bounded := Nat.zero_le _

namespace Fits

/-- Only entries that are taken away make a cache smaller. -/
theorem shrink (h : c.Fits) (capacity : d.capacity = c.capacity)
    (less : d.entries.length ≤ c.entries.length) : d.Fits := by
  constructor
  · rw [capacity]
    exact h.room
  · rw [capacity]
    exact Nat.le_trans less h.bounded

theorem set (h : c.Fits) (now : Nat) (project : String) (file : Path) (ds : List Diagnostic) :
    (c.set now project file ds).Fits := by
  obtain ⟨room, bounded⟩ := h
  rw [Cache.set]
  simp only
  split
  · rename_i e he
    refine ⟨room, ?_⟩
    have fewer := length_without_lt he
    simp only [List.length_cons]
    omega
  · split
    · refine ⟨room, ?_⟩
      simp only [List.length_cons]
      omega
    · refine ⟨room, ?_⟩
      simp only [List.length_cons, List.length_dropLast]
      omega

theorem delete (h : c.Fits) (project : String) (file : Path) : (c.delete project file).2.Fits :=
  h.shrink rfl (List.length_filter_le _ _)

theorem clear (h : c.Fits) : c.clear.Fits :=
  h.shrink rfl (Nat.zero_le _)

theorem record (h : c.Fits) (hit : Bool) : (c.record hit).Fits := by
  cases hit <;> exact ⟨h.room, h.bounded⟩

theorem read (h : c.Fits) (now : Nat) (key : CacheKey) : (c.read now key).2.Fits := by
  refine h.shrink (counters_read c now key).1 ?_
  rw [Cache.read]
  split
  · exact Nat.le_refl _
  · rename_i e he
    have fewer := length_without_lt he
    split
    · exact Nat.le_of_lt fewer
    · exact fewer

theorem gather (h : c.Fits) (now : Nat) (file : Path) (projects : List String) :
    (c.gather now file projects).2.Fits := by
  induction projects generalizing c with
  | nil => exact h
  | cons id projects ih =>
      rw [gather_cons_cache]
      exact ih (h.read now _)

theorem lookupFile (h : c.Fits) (now : Nat) (projects : List String) (file : Path) :
    (c.lookupFile now projects file).2.Fits :=
  (h.gather now file projects).record _

theorem delete_files (h : c.Fits) (files : List Path) :
    (files.foldl (fun c file => (c.delete project file).2) c).Fits := by
  induction files generalizing c with
  | nil => exact h
  | cons file files ih => exact ih (h.delete project file)

theorem delete_projects (h : c.Fits) (projects : List String) :
    (projects.foldl (fun c id => (c.delete id file).2) c).Fits := by
  induction projects generalizing c with
  | nil => exact h
  | cons id projects ih => exact ih (h.delete id file)

end Fits

end DiagnosticWatch.Cache
