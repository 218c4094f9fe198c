import DiagnosticWatch.Proofs.Cache.Balance
import DiagnosticWatch.Regex.Pattern
import Mathlib.Data.List.Flatten

/-!
# A larger cache

Two caches of different capacities are given the same operations. What the smaller one shows is then
a part of what the larger one shows, in the same order of use. Reading refreshes a key only where it
is found, so the larger cache may have keys anywhere in between; that they never cost the smaller
cache a key of its own is because the larger one has at most as many keys in excess as it has room
in excess.

Invalidation looks at texts, and an entry keeps the spelling under which its key came in. The
smaller cache may have forgotten a key and taken it in again under another spelling, so the
inclusion is claimed for patterns that do not tell the spellings of one key apart.
`larger_loses_respelled` is a run in which one does.
-/

namespace DiagnosticWatch.Cache

namespace Shown

variable {key : CacheKey} {ds : List Diagnostic} {l m : Shown} {capacity capacity' : Nat}

/-- No two places show one key. -/
def Distinct (l : Shown) : Prop :=
  (l.map (·.1)).Nodup

theorem look_eq_some_iff (distinct : Distinct l) : look key l = some ds ↔ (key, ds) ∈ l := by
  rw [look, Option.map_eq_some_iff]
  constructor
  · rintro ⟨x, hx, rfl⟩
    have hkey : x.1 = key := by simpa using List.find?_some hx
    rw [← hkey]
    exact List.mem_of_find?_eq_some hx
  · intro hmem
    have found : (l.find? fun x => x.1 = key).isSome = true :=
      List.find?_isSome.2 ⟨(key, ds), hmem, by simp⟩
    obtain ⟨x, hx⟩ := Option.isSome_iff_exists.1 found
    have hkey : x.1 = key := by simpa using List.find?_some hx
    have same : x = (key, ds) :=
      List.inj_on_of_nodup_map distinct (List.mem_of_find?_eq_some hx) hmem hkey
    exact ⟨x, hx, by rw [same]⟩

theorem look_of_sublist (part : l.Sublist m) (distinct : Distinct m) (h : look key l = some ds) :
    look key m = some ds :=
  (look_eq_some_iff distinct).2
    (part.subset ((look_eq_some_iff (List.Nodup.sublist (part.map _) distinct)).1 h))

theorem dropLast_sublist_dropLast (part : l.Sublist m) : l.dropLast.Sublist m.dropLast := by
  have front := part.reverse.tail
  rwa [List.tail_reverse, List.tail_reverse, List.reverse_sublist] at front

/-- A key that is used in both lists, or in the larger one alone. -/
theorem touch_sublist (part : l.Sublist m) (distinct : Distinct m) :
    (touch key l).Sublist (touch key m) := by
  have rest : (others key l).Sublist (others key m) := part.filter _
  cases hl : look key l with
  | some ds =>
      simp only [touch, hl, look_of_sublist part distinct hl]
      exact rest.cons_cons _
  | none =>
      rw [others_of_look_eq_none hl] at rest
      simp only [touch, hl]
      split
      · exact part
      · exact rest.cons _

/-- Storing a key in both lists. If the larger list is full and has to give up its last key, then so
has the smaller one. -/
theorem put_sublist (part : l.Sublist m) (distinct : Distinct m)
    (spare : m.length + capacity ≤ l.length + capacity') :
    (put capacity key ds l).Sublist (put capacity' key ds m) := by
  have rest : (others key l).Sublist (others key m) := part.filter _
  cases hl : look key l with
  | some old =>
      simp only [put, hl, look_of_sublist part distinct hl, Option.isSome_some, if_true]
      exact rest.cons_cons _
  | none =>
      rw [others_of_look_eq_none hl] at rest
      have shorter : l.dropLast.Sublist l := List.dropLast_sublist l
      simp only [put, hl, Option.isSome_none, Bool.false_eq_true, if_false]
      by_cases found : (look key m).isSome = true
      · rw [if_pos found]
        split
        · exact rest.cons_cons _
        · exact (shorter.trans rest).cons_cons _
      · rw [if_neg found]
        by_cases room : m.length < capacity'
        · rw [if_pos room]
          split
          · exact part.cons_cons _
          · exact (shorter.trans part).cons_cons _
        · rw [if_neg room, if_neg (by omega)]
          exact (dropLast_sublist_dropLast part).cons_cons _

end Shown

/-- Whether an operation finds no entry that has expired. Only reading looks at the age of an
entry. -/
def Unexpired (c : Cache) (timed : Nat × Operation) : Prop :=
  ∀ key ∈ timed.2.reads, c.Living timed.1 key

instance (c : Cache) (timed : Nat × Operation) : Decidable (c.Unexpired timed) :=
  inferInstanceAs (Decidable (∀ key ∈ timed.2.reads, c.Living timed.1 key))

variable {c d : Cache} {now : Nat} {key : CacheKey} {project : String} {file : Path}
  {ds : List Diagnostic}

theorem map_fst_shown (c : Cache) : c.shown.map (·.1) = c.entries.map (·.key) := by
  rw [shown, List.map_map]
  rfl

theorem length_shown (c : Cache) : c.shown.length = c.entries.length :=
  List.length_map _

theorem Distinct.shown (h : c.Distinct) : c.shown.Distinct := by
  rw [Shown.Distinct, map_fst_shown]
  exact h

theorem Distinct.length_read (h : c.Distinct) (living : c.Living now key) :
    (c.read now key).2.entries.length = c.entries.length := by
  refine (h.perm_read now key).length_eq.trans (congrArg _ (List.filter_eq_self.2 fun e he => ?_))
  by_cases same : e.key = key
  · simp [living e (same ▸ h.find?_eq he)]
  · simp [same]

theorem Distinct.length_set (h : c.Distinct) (fits : c.Fits) (now : Nat) (project : String)
    (file : Path) (ds : List Diagnostic) :
    (c.set now project file ds).entries.length =
      if (c.shown.look (keyOf project file)).isSome then c.entries.length
      else min (c.entries.length + 1) c.capacity := by
  obtain ⟨room, bounded⟩ := fits
  rw [Cache.set, look_shown]
  simp only
  cases hfound : c.find? (keyOf project file) with
  | some old =>
      have same := (h.perm_front hfound).length_eq
      simpa using same
  | none =>
      simp only [Option.map_none, Option.isSome_none, Bool.false_eq_true, if_false]
      split
      · simp only [List.length_cons]
        omega
      · simp only [List.length_cons, List.length_dropLast]
        omega

theorem joined_getD (buckets : List (List Diagnostic)) :
    (joined buckets).getD [] = buckets.flatten := by
  cases buckets <;> rfl

theorem joined_isSome_iff (buckets : List (List Diagnostic)) :
    (joined buckets).isSome = true ↔ buckets ≠ [] := by
  cases buckets <;> simp [joined]

/-- What a cache shows is a part of what another one shows, in the same order, and the other one has
no more keys in excess than it has room in excess. -/
structure Within (c d : Cache) : Prop where
  fits : c.Fits
  fits' : d.Fits
  distinct : d.Distinct
  part : c.shown.Sublist d.shown
  spare : d.entries.length + c.capacity ≤ c.entries.length + d.capacity
  hits : c.hits ≤ d.hits

namespace Within

theorem create {capacity capacity' : Nat} (le : capacity ≤ capacity') (lifetime lifetime' : Nat) :
    (create capacity lifetime).Within (create capacity' lifetime') where
  fits := fits_create ..
  fits' := fits_create ..
  distinct := distinct_create ..
  part := List.Sublist.refl _
  spare := by
    simp only [Cache.create, List.length_nil]
    omega
  hits := Nat.le_refl _

theorem distinct_left (h : c.Within d) : c.Distinct := by
  have keys := h.part.map fun x => x.1
  rw [map_fst_shown, map_fst_shown] at keys
  exact List.Nodup.sublist keys h.distinct

theorem look (h : c.Within d) (found : c.shown.look key = some ds) : d.shown.look key = some ds :=
  Shown.look_of_sublist h.part h.distinct.shown found

/-- Reading finds in the larger cache what it finds in the smaller one. -/
theorem read_fst (h : c.Within d) (living : c.Living now key) (living' : d.Living now key)
    (found : (c.read now key).1 = some ds) : (d.read now key).1 = some ds := by
  rw [(read_eq living).1] at found
  rw [(read_eq living').1]
  exact h.look found

theorem read (h : c.Within d) (living : c.Living now key) (living' : d.Living now key) :
    (c.read now key).2.Within (d.read now key).2 := by
  obtain ⟨capacity, hits, -⟩ := counters_read c now key
  obtain ⟨capacity', hits', -⟩ := counters_read d now key
  constructor
  · exact h.fits.read now key
  · exact h.fits'.read now key
  · exact h.distinct.read now key
  · rw [(read_eq living).2, (read_eq living').2]
    exact Shown.touch_sublist h.part h.distinct.shown
  · rw [h.distinct_left.length_read living, h.distinct.length_read living', capacity, capacity']
    exact h.spare
  · rw [hits, hits']
    exact h.hits

theorem gather (h : c.Within d) {projects : List String}
    (living : ∀ id ∈ projects, c.Living now (keyOf id file))
    (living' : ∀ id ∈ projects, d.Living now (keyOf id file)) :
    (c.gather now file projects).2.Within (d.gather now file projects).2 := by
  induction projects generalizing c d with
  | nil => exact h
  | cons id projects ih =>
      rw [List.forall_mem_cons] at living living'
      rw [gather_cons_cache, gather_cons_cache]
      exact ih (h.read living.1 living'.1)
        (fun other hm => living.1.read (living.2 other hm))
        (fun other hm => living'.1.read (living'.2 other hm))

/-- A look-up finds in the larger cache all that it finds in the smaller one. -/
theorem gather_fst (h : c.Within d) {projects : List String}
    (living : ∀ id ∈ projects, c.Living now (keyOf id file))
    (living' : ∀ id ∈ projects, d.Living now (keyOf id file)) :
    ((c.gather now file projects).1.getD []).Sublist ((d.gather now file projects).1.getD []) ∧
      ((c.gather now file projects).1.isSome = true →
        (d.gather now file projects).1.isSome = true) := by
  have buckets : (projects.filterMap fun id => c.living? now (keyOf id file)).Sublist
      (projects.filterMap fun id => d.living? now (keyOf id file)) := by
    induction projects with
    | nil => exact List.Sublist.refl _
    | cons id projects ih =>
        rw [List.forall_mem_cons] at living living'
        have rest := ih living.2 living'.2
        rw [List.filterMap_cons, List.filterMap_cons, living?_eq_look living.1,
          living?_eq_look living'.1]
        cases hl : c.shown.look (keyOf id file) with
        | some ds =>
            rw [h.look hl]
            exact rest.cons_cons ds
        | none =>
            cases d.shown.look (keyOf id file) with
            | some ds => exact rest.cons ds
            | none => exact rest
  rw [Cache.gather_fst, Cache.gather_fst, joined_getD, joined_getD, joined_isSome_iff,
    joined_isSome_iff]
  refine ⟨buckets.flatten, fun some none => some ?_⟩
  rwa [none, List.sublist_nil] at buckets

/-- Counters of misses and evictions do not matter. -/
theorem congr (h : c.Within d) {c' d' : Cache} (entries : c'.entries = c.entries)
    (capacity : c'.capacity = c.capacity) (entries' : d'.entries = d.entries)
    (capacity' : d'.capacity = d.capacity) (hits : c'.hits ≤ d'.hits) : c'.Within d' where
  fits := h.fits.shrink capacity (Nat.le_of_eq (by rw [entries]))
  fits' := h.fits'.shrink capacity' (Nat.le_of_eq (by rw [entries']))
  distinct := by
    rw [Distinct, entries']
    exact h.distinct
  part := by
    rw [shown, shown, entries, entries']
    exact h.part
  spare := by
    rw [entries, entries', capacity, capacity']
    exact h.spare
  hits

theorem record (h : c.Within d) {hit hit' : Bool} (le : hit = true → hit' = true) :
    (c.record hit).Within (d.record hit') := by
  have hits := h.hits
  cases hit with
  | true =>
      rw [le rfl]
      exact h.congr rfl rfl rfl rfl (Nat.succ_le_succ hits)
  | false =>
      cases hit' with
      | true => exact h.congr rfl rfl rfl rfl (Nat.le_succ_of_le hits)
      | false => exact h.congr rfl rfl rfl rfl hits

theorem set (h : c.Within d) (now : Nat) (project : String) (file : Path) (ds : List Diagnostic) :
    (c.set now project file ds).Within (d.set now project file ds) := by
  obtain ⟨capacity, hits, -⟩ := counters_set c now project file ds
  obtain ⟨capacity', hits', -⟩ := counters_set d now project file ds
  constructor
  · exact h.fits.set now project file ds
  · exact h.fits'.set now project file ds
  · exact h.distinct.set now project file ds
  · rw [shown_set, shown_set]
    exact Shown.put_sublist h.part h.distinct.shown (by simpa only [length_shown] using h.spare)
  · rw [h.distinct_left.length_set h.fits, h.distinct.length_set h.fits', capacity, capacity']
    have bounded := h.fits.bounded
    have bounded' := h.fits'.bounded
    have spare := h.spare
    cases hl : c.shown.look (keyOf project file) with
    | some old =>
        rw [h.look hl]
        simpa using spare
    | none =>
        simp only [Option.isSome_none, Bool.false_eq_true, if_false]
        split <;> omega
  · rw [hits, hits']
    exact h.hits

/-- Taking the same keys out of both caches. The larger one has all that the smaller one loses. -/
theorem discard (h : c.Within d) (doomed : CacheKey → Bool) :
    { c with entries := c.entries.filter fun e => !doomed e.key }.Within
      { d with entries := d.entries.filter fun e => !doomed e.key } := by
  have filtered (l : List CacheEntry) : ((l.filter fun e => !doomed e.key).map
      fun e => (e.key, e.diagnostics)) =
        (l.map fun e => (e.key, e.diagnostics)).filter fun x => !doomed x.1 := by
    rw [List.filter_map]
    rfl
  constructor
  · exact h.fits.shrink rfl (List.length_filter_le _ _)
  · exact h.fits'.shrink rfl (List.length_filter_le _ _)
  · exact h.distinct.sublist List.filter_sublist
  · rw [shown, shown, filtered, filtered]
    exact h.part.filter _
  · have lost := (h.part.filter fun x => doomed x.1).length_le
    rw [shown, shown, List.filter_map, List.filter_map, List.length_map, List.length_map] at lost
    have parts := List.length_eq_length_filter_add (fun e => doomed e.key) (l := c.entries)
    have parts' := List.length_eq_length_filter_add (fun e => doomed e.key) (l := d.entries)
    have spare := h.spare
    simp only [Function.comp_def] at lost
    simp only
    omega
  · exact h.hits

end Within

def rendered (spelling : String × Path) : String :=
  spelling.1 ++ ":" ++ spelling.2.text

namespace Operation

/-- The spellings of keys that have been stored, behind one more operation. -/
def spellings (before : List (String × Path)) : Operation → List (String × Path)
  | set project file _ => (project, file) :: before
  | _ => before

/-- Whether an operation takes all spellings of one key for the same. Only a pattern may tell them
apart. -/
def Overlooks (before : List (String × Path)) : Operation → Prop
  | invalidate pattern => ∀ x ∈ before, ∀ y ∈ before, keyOf x.1 x.2 = keyOf y.1 y.2 →
      pattern (rendered x) = pattern (rendered y)
  | _ => True

instance (before : List (String × Path)) : (op : Operation) → Decidable (op.Overlooks before)
  | invalidate pattern => inferInstanceAs (Decidable (∀ x ∈ before, ∀ y ∈ before,
      keyOf x.1 x.2 = keyOf y.1 y.2 → pattern (rendered x) = pattern (rendered y)))
  | get .. | lookupFile .. | set .. | delete .. | clear => .isTrue trivial

end Operation

/-- No pattern that some operations invalidate by tells two spellings of one key apart under which
it has been stored before. Operations that spell every file in one way are such. -/
def SpellingBlind (before : List (String × Path)) : List (Nat × Operation) → Prop
  | [] => True
  | timed :: ops => timed.2.Overlooks before ∧ SpellingBlind (timed.2.spellings before) ops

instance instDecidableSpellingBlind (before : List (String × Path)) :
    (ops : List (Nat × Operation)) → Decidable (SpellingBlind before ops)
  | [] => .isTrue trivial
  | timed :: ops =>
    have : Decidable (SpellingBlind (timed.2.spellings before) ops) :=
      instDecidableSpellingBlind _ ops
    inferInstanceAs (Decidable (timed.2.Overlooks before ∧
      SpellingBlind (timed.2.spellings before) ops))

/-- Every entry has a spelling under which its key has been stored. -/
def Spelt (before : List (String × Path)) (c : Cache) : Prop :=
  ∀ e ∈ c.entries, (e.key.project, e.file) ∈ before ∧ e.file.location = e.key.place

theorem Spelt.perform {before : List (String × Path)} (h : Spelt before c) (now : Nat)
    (op : Operation) : Spelt (op.spellings before) (c.perform now op).2 := by
  intro e he
  cases op with
  | get project file =>
      simp only [Cache.perform, Cache.get, entries_record] at he
      exact h e (mem_of_mem_read he)
  | lookupFile projects file => exact h e (mem_of_mem_lookupFile he)
  | set project file ds =>
      obtain ⟨hkey, -, hfile | ⟨old, hold, hkey', hfile⟩⟩ | ⟨he, -⟩ := mem_set he
      · rw [hkey, hfile]
        exact ⟨List.mem_cons_self, rfl⟩
      · obtain ⟨stored, place⟩ := h old hold
        rw [hfile, hkey, ← hkey']
        exact ⟨List.mem_cons_of_mem _ stored, place⟩
      · obtain ⟨stored, place⟩ := h e he
        exact ⟨List.mem_cons_of_mem _ stored, place⟩
  | delete project file => exact h e (mem_delete.1 he).1
  | clear => cases he
  | invalidate pattern => exact h e (List.mem_filter.1 he).1

/-- A pattern that does not tell spellings apart looks at the key alone. -/
theorem exists_doomed {before : List (String × Path)} {pattern : String → Bool}
    (blind : (Operation.invalidate pattern).Overlooks before) :
    ∃ doomed : CacheKey → Bool, ∀ {c : Cache}, Spelt before c →
      ∀ e ∈ c.entries, pattern e.render = doomed e.key := by
  classical
  refine ⟨fun key => decide (∃ file, (key.project, file) ∈ before ∧ file.location = key.place ∧
    pattern (rendered (key.project, file)) = true), fun h e he => ?_⟩
  obtain ⟨stored, place⟩ := h e he
  rw [Bool.eq_iff_iff, decide_eq_true_iff]
  constructor
  · intro hit
    exact ⟨e.file, stored, place, hit⟩
  · rintro ⟨file, stored', place', hit⟩
    have same := blind _ stored' _ stored (congrArg (CacheKey.mk _) (place'.trans place.symm))
    exact same.symm.trans hit

theorem Within.perform (h : c.Within d) {before : List (String × Path)} (spelt : Spelt before c)
    (spelt' : Spelt before d) {timed : Nat × Operation} (blind : timed.2.Overlooks before)
    (calm : c.Unexpired timed) (calm' : d.Unexpired timed) :
    (c.performAt timed).2.Within (d.performAt timed).2 := by
  obtain ⟨now, op⟩ := timed
  cases op with
  | get project file =>
      have living := calm _ (List.mem_singleton_self _)
      have living' := calm' _ (List.mem_singleton_self _)
      refine (h.read living living').record fun hit => ?_
      obtain ⟨ds, found⟩ := Option.isSome_iff_exists.1 hit
      exact Option.isSome_iff_exists.2 ⟨ds, h.read_fst living living' found⟩
  | lookupFile projects file =>
      have living := List.forall_mem_map.1 calm
      have living' := List.forall_mem_map.1 calm'
      exact (h.gather living living').record (h.gather_fst living living').2
  | set project file ds => exact h.set now project file ds
  | delete project file =>
      have dropped := h.discard fun key => decide (key = keyOf project file)
      simpa only [performAt, Cache.perform, Cache.delete, without, ← decide_not] using dropped
  | clear =>
      have dropped := h.discard fun _ => true
      simpa only [performAt, Cache.perform, Cache.clear, Bool.not_true, List.filter_false]
        using dropped
  | invalidate pattern =>
      obtain ⟨doomed, same⟩ := exists_doomed blind
      have left : c.entries.filter (fun e => !pattern e.render) =
          c.entries.filter fun e => !doomed e.key :=
        List.filter_congr fun e he => by rw [same spelt e he]
      have right : d.entries.filter (fun e => !pattern e.render) =
          d.entries.filter fun e => !doomed e.key :=
        List.filter_congr fun e he => by rw [same spelt' e he]
      simp only [performAt, Cache.perform, Cache.invalidate, left, right]
      exact h.discard doomed

theorem Within.runAll (h : c.Within d) {before : List (String × Path)} (spelt : Spelt before c)
    (spelt' : Spelt before d) {ops : List (Nat × Operation)} (blind : SpellingBlind before ops)
    (calm : Throughout Unexpired performAt ops c) (calm' : Throughout Unexpired performAt ops d) :
    (runAll performAt ops c).2.Within (runAll performAt ops d).2 := by
  induction ops generalizing c d before with
  | nil => exact h
  | cons timed ops ih =>
      exact ih (h.perform spelt spelt' blind.1 calm.1 calm'.1) (spelt.perform timed.1 timed.2)
        (spelt'.perform timed.1 timed.2) blind.2 calm.2 calm'.2

/-- As long as nothing expires, a larger cache shows all that a smaller one shows, in the same order
of use, and finds all that the smaller one finds. -/
theorem larger_never_worse {capacity capacity' : Nat} (le : capacity ≤ capacity')
    (lifetime lifetime' : Nat) (ops : List (Nat × Operation)) (blind : SpellingBlind [] ops)
    (calm : Throughout Unexpired performAt ops (create capacity lifetime))
    (calm' : Throughout Unexpired performAt ops (create capacity' lifetime')) :
    let c := (runAll performAt ops (create capacity lifetime)).2
    let d := (runAll performAt ops (create capacity' lifetime')).2
    (∀ key ds, c.shown.look key = some ds → d.shown.look key = some ds) ∧
      c.shown.Sublist d.shown ∧ c.hits ≤ d.hits ∧
      (∀ now project file, c.Unexpired (now, .get project file) →
        d.Unexpired (now, .get project file) →
          ∀ ds, (c.get now project file).1 = some ds → (d.get now project file).1 = some ds) ∧
      ∀ now projects file, c.Unexpired (now, .lookupFile projects file) →
        d.Unexpired (now, .lookupFile projects file) →
          ((c.lookupFile now projects file).1.getD []).Sublist
            ((d.lookupFile now projects file).1.getD []) := by
  intro c d
  have within : c.Within d :=
    (Within.create le lifetime lifetime').runAll (by rintro e ⟨⟩) (by rintro e ⟨⟩) blind calm calm'
  refine ⟨fun key ds => within.look, within.part, within.hits, ?_, ?_⟩
  · intro now project file living living' ds found
    exact within.read_fst (living _ (List.mem_singleton_self _))
      (living' _ (List.mem_singleton_self _)) found
  · intro now projects file living living'
    exact (within.gather_fst (List.forall_mem_map.1 living) (List.forall_mem_map.1 living')).1

def errorAt (file : String) (code : UInt32) : Diagnostic :=
  { file := ⟨file⟩, line := 1, column := 1, category := .error, code, message := "" }

/-- One file in two projects, and another one that pushes the first out of a cache with one place.
Only the larger cache is refreshed by the first request. -/
def sharedFile : List (Nat × Operation) :=
  [(1, .set "app" ⟨"/a.ts"⟩ [errorAt "/a.ts" 1]), (2, .set "app" ⟨"/b.ts"⟩ []),
    (3, .get "app" ⟨"/a.ts"⟩), (4, .set "lib" ⟨"/a.ts"⟩ [errorAt "/a.ts" 2]),
    (5, .lookupFile ["app", "lib"] ⟨"/a.ts"⟩), (6, .invalidate fun text => text == "app:/b.ts")]

theorem larger_never_worse_sharedFile :
    let c := (runAll performAt sharedFile (create 1 100)).2
    let d := (runAll performAt sharedFile (create 2 100)).2
    (1 ≤ 2 ∧ SpellingBlind [] sharedFile ∧
      Throughout Unexpired performAt sharedFile (create 1 100) ∧
      Throughout Unexpired performAt sharedFile (create 2 100)) ∧
    (c.shown.length = 1 ∧ d.shown.length = 2 ∧ c.hits = 1 ∧ d.hits = 2) ∧
    c.shown.Sublist d.shown ∧ c.hits ≤ d.hits := by
  intro c d
  have blind : SpellingBlind [] sharedFile := by decide +kernel
  have calm : Throughout Unexpired performAt sharedFile (create 1 100) := by decide +kernel
  have calm' : Throughout Unexpired performAt sharedFile (create 2 100) := by decide +kernel
  obtain ⟨-, part, hits, -⟩ := larger_never_worse (by decide) 100 100 sharedFile blind calm calm'
  exact ⟨⟨by decide, blind, calm, calm'⟩, by decide +kernel, part, hits⟩

def doubledSlash : Regex.Pattern :=
  .seq (.set (.single '/')) (.set (.single '/'))

/-- A file that is stored with a doubled separator first and without one later. A cache with one
place has pushed it out in between and knows the later spelling only. -/
def respelled : List (Nat × Operation) :=
  [(1, .set "app" ⟨"/src//a.ts"⟩ []), (2, .set "app" ⟨"/b.ts"⟩ []),
    (3, .set "app" ⟨"/src/a.ts"⟩ []), (4, .invalidate doubledSlash.occursIn)]

/-- A pattern that tells spellings apart can take a key out of the larger cache alone. -/
theorem larger_loses_respelled :
    let c := (runAll performAt respelled (create 1 100)).2
    let d := (runAll performAt respelled (create 2 100)).2
    Throughout Unexpired performAt respelled (create 1 100) ∧
      Throughout Unexpired performAt respelled (create 2 100) ∧
      (c.shown.look (keyOf "app" ⟨"/src/a.ts"⟩) = some [] ∧
        d.shown.look (keyOf "app" ⟨"/src/a.ts"⟩) = none) ∧
      (c.get 5 "app" ⟨"/src/a.ts"⟩).1 = some [] ∧ (d.get 5 "app" ⟨"/src/a.ts"⟩).1 = none := by
  decide +kernel

end DiagnosticWatch.Cache
