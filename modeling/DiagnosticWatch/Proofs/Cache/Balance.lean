import DiagnosticWatch.Proofs.Run
import DiagnosticWatch.Proofs.Cache.Lookup
import Mathlib.Data.List.Nodup

/-!
# The books of a cache

Entries leave a cache in five ways, and only one of them counts as an eviction: they are deleted,
cleared, invalidated, found expired when they are read, or pushed out by a new key. `books_balance`
says that every key that ever came into a cache is accounted for by one of these or is still there,
that each request counts once, and that keys stay distinct and within the capacity. It holds for
every lifetime and for all times, so for any way in which entries expire.
-/

namespace DiagnosticWatch.Cache

def performAt (c : Cache) (timed : Nat × Operation) : Answer × Cache :=
  c.perform timed.1 timed.2

namespace Operation

/-- Whether an operation is a request. A look-up in several projects is one. -/
def isRequest : Operation → Bool
  | get .. | lookupFile .. => true
  | _ => false

def reads : Operation → List CacheKey
  | get project file => [keyOf project file]
  | lookupFile projects file => projects.map fun id => keyOf id file
  | _ => []

/-- Whether an operation takes an entry away, other than by pushing it out for a new key. -/
def takes (c : Cache) (now : Nat) (e : CacheEntry) : Operation → Bool
  | set .. => false
  | delete project file => decide (e.key = keyOf project file)
  | clear => true
  | invalidate pattern => pattern e.render
  | op => decide (e.key ∈ op.reads) && c.expired now e

end Operation

def removals (c : Cache) (timed : Nat × Operation) : Nat :=
  c.entries.countP fun e => timed.2.takes c timed.1 e

/-- How many keys an operation brings: one if it stores a key that is absent. -/
def arrivals (c : Cache) (timed : Nat × Operation) : Nat :=
  match timed.2 with
  | .set project file _ => if ∃ e ∈ c.entries, e.key = keyOf project file then 0 else 1
  | _ => 0

variable {c : Cache} {now : Nat} {key : CacheKey} {e : CacheEntry}

def Distinct (c : Cache) : Prop :=
  (c.entries.map (·.key)).Nodup

theorem distinct_create (capacity lifetime : Nat) : (create capacity lifetime).Distinct :=
  List.nodup_nil

namespace Distinct

theorem eq_of_key (h : c.Distinct) {e e' : CacheEntry} (he : e ∈ c.entries)
    (he' : e' ∈ c.entries) (same : e.key = e'.key) : e = e' :=
  List.inj_on_of_nodup_map h he he' same

/-- An entry is found by its key. -/
theorem find?_eq (h : c.Distinct) (he : e ∈ c.entries) : c.find? e.key = some e := by
  cases hfound : c.find? e.key with
  | none => exact absurd rfl (find?_eq_none_iff.1 hfound e he)
  | some e' =>
      obtain ⟨hmem, hkey⟩ := mem_of_find?_eq_some hfound
      rw [h.eq_of_key hmem he hkey]

/-- Fewer entries in the same order are still distinct. -/
theorem sublist (h : c.Distinct) {d : Cache} (fewer : d.entries.Sublist c.entries) : d.Distinct :=
  List.Nodup.sublist (fewer.map _) h

/-- An entry in front of all others of other keys. -/
theorem front (h : c.Distinct) {d : Cache} {rest : List CacheEntry} (hd : d.entries = e :: rest)
    (fewer : rest.Sublist c.entries) (absent : ∀ x ∈ rest, x.key ≠ e.key) : d.Distinct := by
  rw [Distinct, hd, List.map_cons, List.nodup_cons]
  refine ⟨?_, List.Nodup.sublist (fewer.map _) h⟩
  rintro hmem
  obtain ⟨x, hx, hkey⟩ := List.mem_map.1 hmem
  exact absent x hx hkey

/-- Bringing an entry to the front neither adds nor removes one. -/
theorem perm_front (h : c.Distinct) (he : c.find? key = some e) :
    (e :: without key c.entries).Perm c.entries := by
  obtain ⟨hmem, hkey⟩ := mem_of_find?_eq_some he
  have distinct : c.entries.Nodup := List.Nodup.of_map _ h
  have absent : e ∉ without key c.entries := fun he' => (mem_without.1 he').2 hkey
  rw [List.perm_ext_iff_of_nodup (List.nodup_cons.2 ⟨absent, distinct.filter _⟩) distinct]
  intro x
  rw [List.mem_cons, mem_without]
  constructor
  · rintro (rfl | ⟨hx, -⟩)
    · exact hmem
    · exact hx
  · intro hx
    by_cases same : x.key = key
    · exact .inl (h.eq_of_key hx hmem (same.trans hkey.symm))
    · exact .inr ⟨hx, same⟩

/-- Reading a key takes its entry away if it has expired, and no other one. -/
theorem perm_read (h : c.Distinct) (now : Nat) (key : CacheKey) :
    (c.read now key).2.entries.Perm
      (c.entries.filter fun e => !(decide (e.key = key) && c.expired now e)) := by
  rw [Cache.read]
  split
  · rename_i hnone
    have others := find?_eq_none_iff.1 hnone
    rw [List.filter_eq_self.2 fun e he => by simp [others e he]]
  · rename_i e he
    obtain ⟨hmem, hkey⟩ := mem_of_find?_eq_some he
    have alone (x : CacheEntry) (hx : x ∈ c.entries) (same : x.key = key) : x = e :=
      h.eq_of_key hx hmem (same.trans hkey.symm)
    split
    · rename_i old
      refine List.Perm.of_eq (List.filter_congr fun x hx => ?_)
      by_cases same : x.key = key
      · obtain rfl := alone x hx same
        simp [same, old]
      · simp [same]
    · rename_i living
      rw [List.filter_eq_self.2 fun x hx => ?_]
      · exact h.perm_front he
      · by_cases same : x.key = key
        · obtain rfl := alone x hx same
          simp [living]
        · simp [same]

theorem read (h : c.Distinct) (now : Nat) (key : CacheKey) : (c.read now key).2.Distinct :=
  ((h.perm_read now key).map _).nodup_iff.2 (List.Nodup.sublist (List.filter_sublist.map _) h)

/-- A look-up takes away the expired entries of the file in the projects that it reads. -/
theorem perm_gather (h : c.Distinct) (now : Nat) (file : Path) (projects : List String) :
    (c.gather now file projects).2.Distinct ∧
      (c.gather now file projects).2.entries.Perm (c.entries.filter fun e =>
        !(decide (e.key ∈ projects.map fun id => keyOf id file) && c.expired now e)) := by
  induction projects generalizing c with
  | nil =>
      refine ⟨h, .of_eq ?_⟩
      simp [Cache.gather]
  | cons id projects ih =>
      obtain ⟨distinct, rest⟩ := ih (h.read now (keyOf id file))
      rw [gather_cons_cache]
      refine ⟨distinct, rest.trans (((h.perm_read now (keyOf id file)).filter _).trans (.of_eq ?_))⟩
      rw [List.filter_filter]
      refine List.filter_congr fun e _ => ?_
      simp only [expired, lifetime_read, List.map_cons, List.mem_cons]
      cases decide (c.lifetime ≤ now - e.insertedAt) <;>
        simp [Bool.and_comm]

theorem set (h : c.Distinct) (now : Nat) (project : String) (file : Path) (ds : List Diagnostic) :
    (c.set now project file ds).Distinct := by
  rw [Cache.set]
  simp only
  split
  · rename_i old hold
    obtain ⟨-, hkey⟩ := mem_of_find?_eq_some hold
    exact h.front rfl List.filter_sublist fun x hx => hkey ▸ (mem_without.1 hx).2
  · rename_i hnone
    have others := find?_eq_none_iff.1 hnone
    split
    · exact h.front rfl (List.Sublist.refl _) others
    · exact h.front rfl (List.dropLast_sublist _) fun x hx =>
        others x ((List.dropLast_sublist _).subset hx)

end Distinct

theorem evictions_record (c : Cache) (hit : Bool) : (c.record hit).evictions = c.evictions := by
  cases hit <;> rfl

/-- Storing apart, what an operation leaves is what it does not take away, and that is no
eviction. -/
theorem Distinct.perm_perform (h : c.Distinct) (now : Nat) (op : Operation)
    (other : ∀ project file ds, op ≠ .set project file ds) :
    (c.perform now op).2.entries.Perm (c.entries.filter fun e => !op.takes c now e) ∧
      (c.perform now op).2.evictions = c.evictions := by
  cases op with
  | get project file =>
      simp only [perform, Cache.get, entries_record, evictions_record, Operation.takes,
        Operation.reads, List.mem_singleton]
      exact ⟨h.perm_read now (keyOf project file), evictions_read ..⟩
  | lookupFile projects file =>
      refine ⟨?_, evictions_lookupFile ..⟩
      simp only [perform, Cache.lookupFile, entries_record, Operation.takes, Operation.reads]
      exact (h.perm_gather now file projects).2
  | set project file ds => exact absurd rfl (other project file ds)
  | delete project file =>
      refine ⟨.of_eq (List.filter_congr fun e _ => ?_), rfl⟩
      simp [Operation.takes]
  | clear => exact ⟨.of_eq (by simp [perform, Cache.clear, Operation.takes]), rfl⟩
  | invalidate pattern => exact ⟨.refl _, rfl⟩

/-- A key that is stored for the first time comes in, and at most one other goes out for it. -/
theorem Distinct.balance_set (h : c.Distinct) (fits : c.Fits) (now : Nat) (project : String)
    (file : Path) (ds : List Diagnostic) :
    (c.set now project file ds).entries.length + (c.set now project file ds).evictions =
      c.entries.length + c.evictions + c.arrivals (now, .set project file ds) := by
  have room := fits.room
  rw [Cache.set]
  simp only [arrivals]
  split
  · rename_i old hold
    have same := (h.perm_front hold).length_eq
    rw [if_pos ⟨old, mem_of_find?_eq_some hold⟩]
    simp only [List.length_cons] at same ⊢
    omega
  · rename_i hnone
    have absent : ¬∃ e ∈ c.entries, e.key = keyOf project file := by
      rintro ⟨e, he, hkey⟩
      exact find?_eq_none_iff.1 hnone e he hkey
    rw [if_neg absent]
    split
    · simp only [List.length_cons]
      omega
    · simp only [List.length_cons, List.length_dropLast]
      omega

/-- What came in and what went out, for one operation. -/
theorem Distinct.balance (h : c.Distinct) (fits : c.Fits) (timed : Nat × Operation) :
    (c.performAt timed).2.entries.length + (c.performAt timed).2.evictions + c.removals timed =
      c.entries.length + c.evictions + c.arrivals timed := by
  obtain ⟨now, op⟩ := timed
  by_cases stores : ∃ project file ds, op = .set project file ds
  · obtain ⟨project, file, ds, rfl⟩ := stores
    have kept : c.removals (now, .set project file ds) = 0 := by
      simp [removals, Operation.takes]
    rw [kept]
    exact h.balance_set fits now project file ds
  · obtain ⟨left, evictions⟩ := h.perm_perform now op
      fun project file ds same => stores ⟨project, file, ds, same⟩
    have none : c.arrivals (now, op) = 0 := by
      cases op with
      | set project file ds => exact absurd ⟨project, file, ds, rfl⟩ stores
      | _ => rfl
    have parts := List.length_eq_length_filter_add (fun e => op.takes c now e) (l := c.entries)
    have length := left.length_eq
    simp only [performAt, removals, List.countP_eq_length_filter]
    omega

theorem counters_record (c : Cache) (hit : Bool) :
    (c.record hit).hits + (c.record hit).misses = c.hits + c.misses + 1 := by
  cases hit with
  | true => exact Nat.add_right_comm ..
  | false => rfl

theorem counters_gather (c : Cache) (now : Nat) (file : Path) (projects : List String) :
    (c.gather now file projects).2.capacity = c.capacity ∧
      (c.gather now file projects).2.hits = c.hits ∧
        (c.gather now file projects).2.misses = c.misses := by
  induction projects generalizing c with
  | nil => exact ⟨rfl, rfl, rfl⟩
  | cons id projects ih =>
      obtain ⟨capacity, hits, misses⟩ := counters_read c now (keyOf id file)
      rw [gather_cons_cache, ← capacity, ← hits, ← misses]
      exact ih _

/-- Only a request is counted, and it is counted once. -/
theorem requests_perform (c : Cache) (now : Nat) (op : Operation) :
    (c.perform now op).2.hits + (c.perform now op).2.misses =
      c.hits + c.misses + if op.isRequest then 1 else 0 := by
  cases op with
  | get project file =>
      obtain ⟨-, hits, misses⟩ := counters_read c now (keyOf project file)
      simp only [perform, Cache.get, counters_record, hits, misses, Operation.isRequest, if_true]
  | lookupFile projects file =>
      obtain ⟨-, hits, misses⟩ := counters_gather c now file projects
      simp only [perform, Cache.lookupFile, counters_record, hits, misses, Operation.isRequest,
        if_true]
  | set project file ds =>
      obtain ⟨-, hits, misses⟩ := counters_set c now project file ds
      simp only [perform, hits, misses]
      rfl
  | delete | clear | invalidate => rfl

theorem capacity_perform (c : Cache) (now : Nat) (op : Operation) :
    (c.perform now op).2.capacity = c.capacity := by
  have recorded (d : Cache) (hit : Bool) : (d.record hit).capacity = d.capacity := by
    cases hit <;> rfl
  cases op with
  | get project file => exact (recorded ..).trans (counters_read ..).1
  | lookupFile projects file => exact (recorded ..).trans (counters_gather ..).1
  | set project file ds => exact (counters_set ..).1
  | delete | clear | invalidate => rfl

theorem Distinct.perform (h : c.Distinct) (now : Nat) (op : Operation) :
    (c.perform now op).2.Distinct := by
  by_cases stores : ∃ project file ds, op = .set project file ds
  · obtain ⟨project, file, ds, rfl⟩ := stores
    exact h.set now project file ds
  · obtain ⟨left, -⟩ := h.perm_perform now op
      fun project file ds same => stores ⟨project, file, ds, same⟩
    exact (left.map _).nodup_iff.2 (List.Nodup.sublist (List.filter_sublist.map _) h)

theorem Fits.perform (h : c.Fits) (now : Nat) (op : Operation) : (c.perform now op).2.Fits := by
  cases op with
  | get project file => exact (h.read now _).record _
  | lookupFile projects file => exact h.lookupFile now projects file
  | set project file ds => exact h.set now project file ds
  | delete project file => exact h.delete project file
  | clear => exact h.clear
  | invalidate pattern => exact h.shrink rfl (List.length_filter_le _ _)

theorem requests_runAll (ops : List (Nat × Operation)) (c : Cache) :
    (runAll performAt ops c).2.hits + (runAll performAt ops c).2.misses =
      c.hits + c.misses + ops.countP fun timed => timed.2.isRequest := by
  induction ops generalizing c with
  | nil => rfl
  | cons timed ops ih =>
      rw [runAll_cons, ih, performAt, requests_perform, List.countP_cons]
      omega

/-- Every key that came in is still there, was pushed out or was taken away, and every request was a
hit or a miss. Invalidation takes away what matches and nothing else, in every cache that a run can
reach. -/
theorem books_balance (capacity lifetime : Nat) (ops : List (Nat × Operation)) :
    let start := create capacity lifetime
    let c := (runAll performAt ops start).2
    (c.entries.map (·.key)).Nodup ∧
      c.stats.size ≤ c.stats.capacity ∧ c.stats.capacity = max 1 capacity ∧
      c.stats.hits + c.stats.misses = ops.countP (fun timed => timed.2.isRequest) ∧
      sumAlong arrivals performAt ops start =
        c.stats.size + c.stats.evictions + sumAlong removals performAt ops start ∧
      ∀ now pattern,
        let after := c.perform now (.invalidate pattern)
        (∀ e, e ∈ after.2.entries ↔ e ∈ c.entries ∧ pattern e.render = false) ∧
          after.2.entries.Sublist c.entries ∧
          after.1 = .count (c.entries.countP fun e => pattern e.render) := by
  intro start c
  have keep (d : Cache) (timed : Nat × Operation) (h : d.Distinct ∧ d.Fits) :
      (d.performAt timed).2.Distinct ∧ (d.performAt timed).2.Fits :=
    ⟨h.1.perform timed.1 timed.2, h.2.perform timed.1 timed.2⟩
  have begin : start.Distinct ∧ start.Fits :=
    ⟨distinct_create capacity lifetime, fits_create capacity lifetime⟩
  have sound : c.Distinct ∧ c.Fits := runAll_preserves keep ops begin
  have room : c.capacity = max 1 capacity :=
    runAll_preserves (P := fun d : Cache => d.capacity = max 1 capacity)
      (fun d timed h => (capacity_perform d timed.1 timed.2).trans h) ops rfl
  have balance : c.entries.length + c.evictions + sumAlong removals performAt ops start =
      start.entries.length + start.evictions + sumAlong arrivals performAt ops start :=
    runAll_balances (f := fun d : Cache => d.entries.length + d.evictions) keep
      (fun d timed h => h.1.balance h.2 timed) ops begin
  refine ⟨sound.1, sound.2.bounded, room, ?_, ?_, ?_⟩
  · exact (requests_runAll ops start).trans (Nat.zero_add _)
  · have empty : start.entries.length + start.evictions = 0 := rfl
    rw [empty, Nat.zero_add] at balance
    exact balance.symm
  · intro now pattern after
    refine ⟨fun e => ?_, List.filter_sublist, ?_⟩
    · simp [after, perform, invalidate]
    · simp [after, perform, invalidate, List.countP_eq_length_filter]

end DiagnosticWatch.Cache
