import DiagnosticWatch.Proofs.Cache.Growth
import Mathlib.Data.Finset.Card
import Mathlib.Data.Finset.Dedup

/-!
# What a cache keeps

A key is used when it is stored, and when it is read and found. A cache lists its entries by their
last use, the latest first, so a new key in a full cache pushes out the entry whose last use is the
oldest one. An entry that has just been stored can be pushed back by other keys only, one place for
each key, and so it is still there as long as fewer keys have been used since than the cache has
room for.

Uses are counted along the run, at the states that it passes: what a reading finds depends on what
has been pushed out before, and an expired entry is not found.
-/

namespace DiagnosticWatch.Cache

/-- The keys that an operation uses, in order: the one that it stores, or those that it reads and
finds. -/
def uses (c : Cache) (timed : Nat × Operation) : List CacheKey :=
  match timed.2 with
  | .set project file _ => [keyOf project file]
  | op => op.reads.filter fun key => (c.living? timed.1 key).isSome

/-- The keys that are used along a run, the latest last. -/
def usesAlong : List (Nat × Operation) → Cache → List CacheKey
  | [], _ => []
  | timed :: ops, c => c.uses timed ++ usesAlong ops (c.performAt timed).2

/-- Whether the last use of one key lies before the last use of another: it has been used before
some use of the other, and not since. -/
def UsedBefore (trace : List CacheKey) (key other : CacheKey) : Prop :=
  ∃ before after, trace = before ++ other :: after ∧ key ∈ before ∧ key ∉ other :: after

/-- Entries of keys that have been used, by their last use, the latest first. -/
structure InOrder (trace : List CacheKey) (entries : List CacheEntry) : Prop where
  used : ∀ e ∈ entries, e.key ∈ trace
  ordered : entries.Pairwise fun e e' => UsedBefore trace e'.key e.key

namespace Operation

/-- Whether an operation leaves an entry as it is: it does not store its key, nor does it delete,
clear or invalidate it or find it expired. -/
def Spares (c : Cache) (now : Nat) (e : CacheEntry) : Operation → Prop
  | set project file _ => keyOf project file ≠ e.key
  | op => op.takes c now e = false

instance (c : Cache) (now : Nat) (e : CacheEntry) : (op : Operation) → Decidable (op.Spares c now e)
  | set project file _ => inferInstanceAs (Decidable (keyOf project file ≠ e.key))
  | get project file => inferInstanceAs (Decidable ((get project file).takes c now e = false))
  | lookupFile projects file =>
    inferInstanceAs (Decidable ((lookupFile projects file).takes c now e = false))
  | delete project file => inferInstanceAs (Decidable ((delete project file).takes c now e = false))
  | clear => inferInstanceAs (Decidable (clear.takes c now e = false))
  | invalidate pattern => inferInstanceAs (Decidable ((invalidate pattern).takes c now e = false))

end Operation

variable {c : Cache} {now : Nat} {key : CacheKey} {project : String} {file : Path}
  {ds : List Diagnostic} {e : CacheEntry} {trace : List CacheKey} {entries rest : List CacheEntry}

@[simp] theorem uses_set (c : Cache) (now : Nat) (project : String) (file : Path)
    (ds : List Diagnostic) : c.uses (now, .set project file ds) = [keyOf project file] := rfl

@[simp] theorem uses_delete (c : Cache) (now : Nat) (project : String) (file : Path) :
    c.uses (now, .delete project file) = [] := rfl

@[simp] theorem uses_clear (c : Cache) (now : Nat) : c.uses (now, .clear) = [] := rfl

@[simp] theorem uses_invalidate (c : Cache) (now : Nat) (pattern : String → Bool) :
    c.uses (now, .invalidate pattern) = [] := rfl

theorem UsedBefore.concat {other used : CacheKey} (h : UsedBefore trace key other)
    (apart : key ≠ used) : UsedBefore (trace ++ [used]) key other := by
  obtain ⟨before, after, rfl, hkey, hafter⟩ := h
  refine ⟨before, after ++ [used], by rw [List.append_assoc, List.cons_append], hkey, ?_⟩
  rw [← List.cons_append, List.mem_append, List.mem_singleton]
  exact fun h => h.elim hafter apart

namespace InOrder

theorem empty : InOrder [] [] :=
  ⟨by rintro e ⟨⟩, List.Pairwise.nil⟩

theorem sublist (h : InOrder trace entries) (fewer : rest.Sublist entries) : InOrder trace rest :=
  ⟨fun e he => h.used e (fewer.subset he), h.ordered.sublist fewer⟩

/-- One more use brings an entry to the front. -/
theorem front (h : InOrder trace entries) (fewer : rest.Sublist entries)
    (apart : ∀ x ∈ rest, x.key ≠ e.key) : InOrder (trace ++ [e.key]) (e :: rest) := by
  obtain ⟨used, ordered⟩ := h.sublist fewer
  constructor
  · intro x hx
    obtain rfl | hx := List.mem_cons.1 hx
    · exact List.mem_append_right _ (List.mem_singleton_self _)
    · exact List.mem_append_left _ (used x hx)
  · rw [List.pairwise_cons]
    constructor
    · intro x hx
      exact ⟨trace, [], rfl, used x hx, by simpa using apart x hx⟩
    · exact ordered.imp_of_mem fun _ hy h => h.concat (apart _ hy)

/-- Reading uses the key if it is found. -/
theorem read (h : InOrder trace c.entries) (now : Nat) (key : CacheKey) :
    InOrder (trace ++ [key].filter fun key => (c.living? now key).isSome)
      (c.read now key).2.entries := by
  cases hfound : c.find? key with
  | none =>
      have absent : c.living? now key = none := by simp only [living?, hfound]
      simpa [absent, Cache.read, hfound] using h
  | some e =>
      obtain ⟨-, hkey⟩ := mem_of_find?_eq_some hfound
      cases old : c.expired now e with
      | true =>
          have dropped : InOrder trace (without key c.entries) := h.sublist List.filter_sublist
          simpa [living?_of_expired hfound old, Cache.read, hfound, old] using dropped
      | false =>
          have apart : ∀ x ∈ without key c.entries, x.key ≠ e.key :=
            fun x hx => hkey ▸ (mem_without.1 hx).2
          have moved : InOrder (trace ++ [e.key]) (e :: without key c.entries) :=
            h.front List.filter_sublist apart
          simpa [living?_of_find? hfound old, Cache.read, hfound, old, hkey] using moved

theorem gather (h : InOrder trace c.entries) (now : Nat) (file : Path) (projects : List String) :
    InOrder (trace ++ (projects.map fun id => keyOf id file).filter fun key =>
      (c.living? now key).isSome) (c.gather now file projects).2.entries := by
  induction projects generalizing c trace with
  | nil => simpa [Cache.gather] using h
  | cons id projects ih =>
      -- What the first reading leaves is found as before, so the keys can be told in advance.
      have rest := ih (h.read now (keyOf id file))
      simp only [living?_read] at rest
      rw [gather_cons_cache, List.map_cons, ← List.singleton_append, List.filter_append,
        ← List.append_assoc]
      exact rest

theorem set (h : InOrder trace c.entries) (now : Nat) (project : String) (file : Path)
    (ds : List Diagnostic) :
    InOrder (trace ++ [keyOf project file]) (c.set now project file ds).entries := by
  rw [Cache.set]
  simp only
  split
  · rename_i old hold
    obtain ⟨-, hkey⟩ := mem_of_find?_eq_some hold
    rw [← hkey]
    exact h.front (e := { old with diagnostics := ds, insertedAt := now }) List.filter_sublist
      fun x hx => (mem_without.1 hx).2
  · rename_i hnone
    have apart := find?_eq_none_iff.1 hnone
    have front {rest : List CacheEntry} (fewer : rest.Sublist c.entries) :=
      h.front (e := ⟨keyOf project file, file, ds, now⟩) fewer fun x hx => apart x (fewer.subset hx)
    split
    · exact front (List.Sublist.refl _)
    · exact front (List.dropLast_sublist _)

theorem perform (h : InOrder trace c.entries) (timed : Nat × Operation) :
    InOrder (trace ++ c.uses timed) (c.performAt timed).2.entries := by
  obtain ⟨now, op⟩ := timed
  cases op with
  | get project file =>
      simp only [performAt, Cache.perform, Cache.get, entries_record]
      exact h.read now (keyOf project file)
  | lookupFile projects file =>
      simp only [performAt, Cache.perform, Cache.lookupFile, entries_record]
      exact h.gather now file projects
  | set project file ds => exact h.set now project file ds
  | delete project file =>
      rw [uses_delete, List.append_nil]
      exact h.sublist List.filter_sublist
  | clear =>
      rw [uses_clear, List.append_nil]
      exact h.sublist (List.nil_sublist _)
  | invalidate pattern =>
      rw [uses_invalidate, List.append_nil]
      exact h.sublist List.filter_sublist

/-- Every cache that a run can reach lists its entries by their last use. -/
theorem runAll (h : InOrder trace c.entries) (ops : List (Nat × Operation)) :
    InOrder (trace ++ usesAlong ops c) (runAll performAt ops c).2.entries := by
  induction ops generalizing c trace with
  | nil => simpa [usesAlong] using h
  | cons timed ops ih =>
      rw [usesAlong, ← List.append_assoc]
      exact ih (h.perform timed)

end InOrder

/-- An entry is there, and only used keys stand in front of it. -/
def Keeps (e : CacheEntry) (used : List CacheKey) (entries : List CacheEntry) : Prop :=
  ∃ ahead behind, entries = ahead ++ e :: behind ∧ ∀ x ∈ ahead, x.key ∈ used

theorem lifetime_perform (c : Cache) (now : Nat) (op : Operation) :
    (c.perform now op).2.lifetime = c.lifetime := by
  have recorded (d : Cache) (hit : Bool) : (d.record hit).lifetime = d.lifetime := by
    cases hit <;> rfl
  cases op with
  | get project file => exact (recorded ..).trans (lifetime_read ..)
  | lookupFile projects file =>
      refine (recorded ..).trans ?_
      induction projects generalizing c with
      | nil => rfl
      | cons id projects ih => rw [gather_cons_cache, ih, lifetime_read]
  | set project file ds =>
      simp only [perform, set]
      split
      · rfl
      · split <;> rfl
  | delete | clear | invalidate => rfl

theorem Operation.Spares.congr {op : Operation} {d : Cache} (h : op.Spares c now e)
    (same : d.lifetime = c.lifetime) : op.Spares d now e := by
  cases op with
  | set project file ds => exact h
  | get | lookupFile =>
      refine Eq.trans ?_ h
      simp only [takes, expired, same]
  | delete | clear | invalidate => exact h

namespace Keeps

variable {used used' : List CacheKey} {x : CacheEntry}

theorem head (e : CacheEntry) (used : List CacheKey) (rest : List CacheEntry) :
    Keeps e used (e :: rest) :=
  ⟨[], rest, rfl, by rintro x ⟨⟩⟩

theorem mem (h : Keeps e used entries) : e ∈ entries := by
  obtain ⟨ahead, behind, rfl, -⟩ := h
  exact List.mem_append_right _ List.mem_cons_self

theorem mono (h : Keeps e used entries) (more : used ⊆ used') : Keeps e used' entries := by
  obtain ⟨ahead, behind, rfl, hahead⟩ := h
  exact ⟨ahead, behind, rfl, fun x hx => more (hahead x hx)⟩

theorem cons (h : Keeps e used entries) (hx : x.key ∈ used) : Keeps e used (x :: entries) := by
  obtain ⟨ahead, behind, rfl, hahead⟩ := h
  exact ⟨x :: ahead, behind, rfl, List.forall_mem_cons.2 ⟨hx, hahead⟩⟩

theorem filter (h : Keeps e used entries) {p : CacheEntry → Bool} (he : p e = true) :
    Keeps e used (entries.filter p) := by
  obtain ⟨ahead, behind, rfl, hahead⟩ := h
  refine ⟨ahead.filter p, behind.filter p, ?_, fun x hx => hahead x (List.mem_filter.1 hx).1⟩
  rw [List.filter_append, List.filter_cons_of_pos he]

/-- A new key pushes out an entry only after as many other keys have been used as there is room. -/
theorem push (h : Keeps e used c.entries) (distinct : c.Distinct)
    (full : c.capacity ≤ c.entries.length) (absent : ∀ y ∈ c.entries, y.key ≠ key)
    (hkey : key ∈ used)
    (few : (used.toFinset.erase e.key).card < c.capacity) : Keeps e used c.entries.dropLast := by
  obtain ⟨ahead, behind, hentries, hahead⟩ := h
  rw [Distinct, hentries, List.map_append, List.map_cons, List.nodup_append] at distinct
  obtain ⟨distinct, -, apart⟩ := distinct
  cases behind with
  | cons y behind =>
      refine ⟨ahead, (y :: behind).dropLast, ?_, hahead⟩
      rw [hentries, List.dropLast_append_of_ne_nil (List.cons_ne_nil _ _)]
      rfl
  | nil =>
      -- Were the entry the last one, all the others and the new key would have been used.
      have others : (key :: ahead.map (·.key)).Nodup := by
        rw [List.nodup_cons]
        refine ⟨fun hmem => ?_, distinct⟩
        obtain ⟨y, hy, hykey⟩ := List.mem_map.1 hmem
        exact absent y (by rw [hentries]; exact List.mem_append_left _ hy) hykey
      have counted : (key :: ahead.map (·.key)).toFinset ⊆ used.toFinset.erase e.key := by
        intro k hk
        rw [List.mem_toFinset] at hk
        rw [Finset.mem_erase, List.mem_toFinset]
        obtain rfl | hk := List.mem_cons.1 hk
        · refine ⟨fun same => ?_, hkey⟩
          have stored : e ∈ c.entries := by
            rw [hentries]
            exact List.mem_append_right _ List.mem_cons_self
          exact absent e stored same.symm
        · refine ⟨fun same => apart k hk e.key List.mem_cons_self same, ?_⟩
          obtain ⟨y, hy, rfl⟩ := List.mem_map.1 hk
          exact hahead y hy
      have count := Finset.card_le_card counted
      rw [List.toFinset_card_of_nodup others, List.length_cons, List.length_map] at count
      rw [hentries, List.length_append, List.length_singleton] at full
      omega

theorem set (h : Keeps e used c.entries) (distinct : c.Distinct) (now : Nat)
    (ds : List Diagnostic) (apart : keyOf project file ≠ e.key)
    (few : ((used ++ [keyOf project file]).toFinset.erase e.key).card < c.capacity) :
    Keeps e (used ++ [keyOf project file]) (c.set now project file ds).entries := by
  have hkey : keyOf project file ∈ used ++ [keyOf project file] :=
    List.mem_append_right _ (List.mem_singleton_self _)
  have h := h.mono (List.subset_append_left used [keyOf project file])
  rw [Cache.set]
  simp only
  split
  · rename_i old hold
    have same : old.key = keyOf project file := (mem_of_find?_eq_some hold).2
    have others := h.filter (p := fun x => decide (x.key ≠ keyOf project file))
      (by simpa using Ne.symm apart)
    exact others.cons (same ▸ hkey)
  · rename_i hnone
    split
    · exact h.cons hkey
    · rename_i full
      exact (h.push distinct (Nat.le_of_not_lt full) (find?_eq_none_iff.1 hnone) hkey few).cons hkey

theorem read (h : Keeps e used c.entries) (distinct : c.Distinct)
    (young : key = e.key → c.expired now e = false) :
    Keeps e (used ++ [key].filter fun key => (c.living? now key).isSome)
      (c.read now key).2.entries := by
  have h := h.mono (List.subset_append_left used
    ([key].filter fun key => (c.living? now key).isSome))
  rw [Cache.read]
  split
  · exact h
  · rename_i x hx
    have same : x.key = key := (mem_of_find?_eq_some hx).2
    by_cases own : key = e.key
    · obtain rfl : x = e := distinct.eq_of_key (mem_of_find?_eq_some hx).1 h.mem (same.trans own)
      rw [young own]
      exact head x _ _
    · have others := h.filter (p := fun y => decide (y.key ≠ key)) (by simpa using Ne.symm own)
      split
      · exact others
      · rename_i living
        refine others.cons (List.mem_append_right _ ?_)
        rw [same, List.mem_filter, living?_of_find? hx (Bool.eq_false_iff.2 living)]
        exact ⟨List.mem_singleton_self _, rfl⟩

theorem gather {projects : List String} (h : Keeps e used c.entries) (distinct : c.Distinct)
    (young : e.key ∈ projects.map (fun id => keyOf id file) → c.expired now e = false) :
    Keeps e (used ++ (projects.map fun id => keyOf id file).filter fun key =>
      (c.living? now key).isSome) (c.gather now file projects).2.entries := by
  induction projects generalizing c used with
  | nil => simpa [Cache.gather] using h
  | cons id projects ih =>
      rw [List.map_cons, List.mem_cons] at young
      have first := h.read distinct fun own => young (.inl own.symm)
      have rest := ih first (distinct.read now _) fun hmem => by
        rw [expired, lifetime_read]
        exact young (.inr hmem)
      simp only [living?_read] at rest
      rw [gather_cons_cache, List.map_cons, ← List.singleton_append, List.filter_append,
        ← List.append_assoc]
      exact rest

theorem perform (h : Keeps e used c.entries) (distinct : c.Distinct) {timed : Nat × Operation}
    (spares : timed.2.Spares c timed.1 e)
    (few : ((used ++ c.uses timed).toFinset.erase e.key).card < c.capacity) :
    Keeps e (used ++ c.uses timed) (c.performAt timed).2.entries := by
  obtain ⟨now, op⟩ := timed
  cases op with
  | get project file =>
      simp only [performAt, Cache.perform, Cache.get, entries_record]
      refine h.read distinct fun own => ?_
      simpa [Operation.Spares, Operation.takes, Operation.reads, own] using spares
  | lookupFile projects file =>
      simp only [performAt, Cache.perform, Cache.lookupFile, entries_record]
      refine h.gather distinct fun hmem => ?_
      simpa [Operation.Spares, Operation.takes, Operation.reads, List.mem_map.1 hmem] using spares
  | set project file ds => exact h.set distinct now ds spares few
  | delete project file =>
      rw [uses_delete, List.append_nil]
      exact h.filter (by simpa [Operation.Spares, Operation.takes] using spares)
  | clear => cases spares
  | invalidate pattern =>
      rw [uses_invalidate, List.append_nil]
      exact h.filter (by simpa [Operation.Spares, Operation.takes] using spares)

/-- Along a run an entry is pushed back by used keys only, so it stays as long as they are few. -/
theorem runAll (h : Keeps e used c.entries) (distinct : c.Distinct) {ops : List (Nat × Operation)}
    (spares : ∀ timed ∈ ops, timed.2.Spares c timed.1 e)
    (few : ((used ++ usesAlong ops c).toFinset.erase e.key).card < c.capacity) :
    Keeps e (used ++ usesAlong ops c) (runAll performAt ops c).2.entries := by
  induction ops generalizing c used with
  | nil => simpa [usesAlong] using h
  | cons timed ops ih =>
      rw [List.forall_mem_cons] at spares
      rw [usesAlong, ← List.append_assoc] at few ⊢
      have fewer : ((used ++ c.uses timed).toFinset.erase e.key).card < c.capacity := by
        refine Nat.lt_of_le_of_lt (Finset.card_le_card (Finset.erase_subset_erase _ ?_)) few
        intro key hkey
        rw [List.mem_toFinset] at hkey ⊢
        exact List.mem_append_left _ hkey
      refine ih (h.perform distinct spares.1 fewer) (distinct.perform timed.1 timed.2) ?_ ?_
      · intro next hnext
        exact (spares.2 next hnext).congr (lifetime_perform c timed.1 timed.2)
      · rw [performAt, capacity_perform]
        exact few

end Keeps

/-- A stored bucket stands in front of all others. -/
theorem exists_entries_set (c : Cache) (now : Nat) (project : String) (file : Path)
    (ds : List Diagnostic) :
    ∃ e rest, (c.set now project file ds).entries = e :: rest ∧ e.key = keyOf project file ∧
      e.diagnostics = ds ∧ e.insertedAt = now := by
  rw [set]
  simp only
  split
  · rename_i old hold
    exact ⟨_, _, rfl, (mem_of_find?_eq_some hold).2, rfl, rfl⟩
  · split
    · exact ⟨_, _, rfl, rfl, rfl, rfl⟩
    · exact ⟨_, _, rfl, rfl, rfl, rfl⟩

/-- Storing a new key in a full cache puts it in place of the last entry. -/
theorem set_of_full (absent : c.find? (keyOf project file) = none)
    (full : c.entries.length = c.capacity) (now : Nat) (ds : List Diagnostic) :
    c.set now project file ds =
      { c with
        entries := ⟨keyOf project file, file, ds, now⟩ :: c.entries.dropLast
        evictions := c.evictions + 1 } := by
  have noRoom : ¬c.entries.length < c.capacity := by omega
  simp [set, absent, noRoom]

/-- A cache keeps what has been used most recently. A bucket that has just been stored is found
again after any operations that spare it, as long as they use fewer other keys than the cache has
room for; a new key in a full cache takes the place of the entry whose last use is the oldest one;
and the entries are listed by their last use, the latest first. -/
theorem recently_used_kept (capacity lifetime : Nat) (history : List (Nat × Operation)) :
    let start := create capacity lifetime
    let c := (runAll performAt history start).2
    let trace := usesAlong history start
    (∀ now project file ds,
      let stored := c.set now project file ds
      ∃ e, stored.find? (keyOf project file) = some e ∧ e.diagnostics = ds ∧ e.insertedAt = now ∧
        ∀ ops later, (∀ timed ∈ ops, timed.2.Spares stored timed.1 e) →
          ((usesAlong ops stored).toFinset.erase (keyOf project file)).card < c.capacity →
          stored.expired later e = false →
          ((runAll performAt ops stored).2.get later project file).1 = some ds) ∧
    (∀ now project file ds, c.find? (keyOf project file) = none → c.entries.length = c.capacity →
      ∃ kept oldest, c.entries = kept ++ [oldest] ∧
        (c.set now project file ds).entries = ⟨keyOf project file, file, ds, now⟩ :: kept ∧
        (c.set now project file ds).evictions = c.evictions + 1 ∧
        ∀ e ∈ kept, UsedBefore trace oldest.key e.key) ∧
    InOrder trace c.entries := by
  intro start c trace
  have sound : c.Distinct ∧ c.Fits :=
    runAll_preserves (P := fun d : Cache => d.Distinct ∧ d.Fits)
      (fun d timed h => ⟨h.1.perform timed.1 timed.2, h.2.perform timed.1 timed.2⟩) history
      ⟨distinct_create capacity lifetime, fits_create capacity lifetime⟩
  have inOrder : InOrder trace c.entries := InOrder.empty.runAll (c := start) history
  refine ⟨?_, ?_, inOrder⟩
  · intro now project file ds stored
    obtain ⟨e, rest, hentries, hkey, hds, born⟩ := exists_entries_set c now project file ds
    have distinct : stored.Distinct := sound.1.set now project file ds
    have found : stored.find? e.key = some e :=
      distinct.find?_eq (by rw [hentries]; exact List.mem_cons_self)
    refine ⟨e, hkey ▸ found, hds, born, ?_⟩
    intro ops later spares few young
    have room : stored.capacity = c.capacity := (counters_set c now project file ds).1
    have front : Keeps e [] stored.entries := by
      rw [hentries]
      exact Keeps.head e [] rest
    have kept := front.runAll distinct spares (by rwa [List.nil_append, hkey, room])
    have distinct' : (runAll performAt ops stored).2.Distinct :=
      runAll_preserves (P := Distinct) (fun d timed h => h.perform timed.1 timed.2) ops distinct
    have there : (runAll performAt ops stored).2.find? e.key = some e := distinct'.find?_eq kept.mem
    have same : (runAll performAt ops stored).2.lifetime = stored.lifetime :=
      runAll_preserves (P := fun d : Cache => d.lifetime = stored.lifetime)
        (fun d timed h => (lifetime_perform d timed.1 timed.2).trans h) ops rfl
    rw [hkey] at there
    rw [get, read_fst, living?_of_find? there (by rwa [expired, same]), hds]
  · intro now project file ds absent full
    have room := sound.2.room
    have nonempty : c.entries ≠ [] := by
      intro empty
      rw [empty, List.length_nil] at full
      omega
    have parts := List.dropLast_concat_getLast nonempty
    have ordered := inOrder.ordered
    rw [← parts, List.pairwise_append] at ordered
    rw [set_of_full absent full]
    exact ⟨c.entries.dropLast, c.entries.getLast nonempty, parts.symm, rfl, rfl,
      fun e he => ordered.2.2 e he _ (List.mem_singleton_self _)⟩

/-- Two files in a cache with two places, the first of them read again. -/
def rereadFile : List (Nat × Operation) :=
  [(1, .set "app" ⟨"/a.ts"⟩ [errorAt "/a.ts" 1]), (2, .set "app" ⟨"/b.ts"⟩ [errorAt "/b.ts" 2]),
    (3, .lookupFile ["lib", "app"] ⟨"/a.ts"⟩)]

/-- A look-up that finds one file, a request that finds none, and the removal of another file. -/
def otherRequests : List (Nat × Operation) :=
  [(5, .lookupFile ["app", "lib"] ⟨"/a.ts"⟩), (6, .get "app" ⟨"/b.ts"⟩),
    (7, .invalidate fun text => text == "app:/a.ts")]

/-- A third file pushes out the second one, and requests for the first do not push it out in
turn. -/
theorem recently_used_kept_rereadFile :
    let c := (runAll performAt rereadFile (create 2 100)).2
    let stored := c.set 4 "app" ⟨"/c.ts"⟩ [errorAt "/c.ts" 3]
    ((c.find? (keyOf "app" ⟨"/c.ts"⟩) = none ∧ c.entries.length = c.capacity) ∧
      UsedBefore (usesAlong rereadFile (create 2 100)) (keyOf "app" ⟨"/b.ts"⟩)
        (keyOf "app" ⟨"/a.ts"⟩)) ∧
    ((∀ e ∈ stored.find? (keyOf "app" ⟨"/c.ts"⟩),
        (∀ timed ∈ otherRequests, timed.2.Spares stored timed.1 e) ∧ stored.expired 8 e = false) ∧
      ((usesAlong otherRequests stored).toFinset.erase (keyOf "app" ⟨"/c.ts"⟩)).card < c.capacity ∧
      ((runAll performAt otherRequests stored).2.get 8 "app" ⟨"/c.ts"⟩).1 =
        some [errorAt "/c.ts" 3]) := by
  intro c stored
  obtain ⟨retained, pushed, -⟩ := recently_used_kept 2 100 rereadFile
  have absent : c.find? (keyOf "app" ⟨"/c.ts"⟩) = none := by decide +kernel
  have full : c.entries.length = c.capacity := by decide +kernel
  have spared : ∀ e ∈ stored.find? (keyOf "app" ⟨"/c.ts"⟩),
      (∀ timed ∈ otherRequests, timed.2.Spares stored timed.1 e) ∧ stored.expired 8 e = false := by
    decide +kernel
  have few : ((usesAlong otherRequests stored).toFinset.erase (keyOf "app" ⟨"/c.ts"⟩)).card <
      c.capacity := by decide +kernel
  refine ⟨⟨⟨absent, full⟩, ?_⟩, spared, few, ?_⟩
  · obtain ⟨kept, oldest, parts, -, -, before⟩ :=
      pushed 4 "app" ⟨"/c.ts"⟩ [errorAt "/c.ts" 3] absent full
    have listed : c.entries.map (·.key) = [keyOf "app" ⟨"/a.ts"⟩] ++ [keyOf "app" ⟨"/b.ts"⟩] := by
      decide +kernel
    rw [parts, List.map_append, List.map_singleton] at listed
    obtain ⟨hkept, holdest⟩ := List.append_inj' listed rfl
    obtain ⟨e, he, hkey⟩ := List.mem_map.1 (hkept ▸ List.mem_singleton_self _)
    rw [← hkey, ← List.singleton_inj.1 holdest]
    exact before e he
  · obtain ⟨e, found, -, -, kept⟩ := retained 4 "app" ⟨"/c.ts"⟩ [errorAt "/c.ts" 3]
    obtain ⟨spares, young⟩ := spared e found
    exact kept otherRequests 8 spares few young

end DiagnosticWatch.Cache
