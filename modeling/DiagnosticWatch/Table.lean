/-!
# Ordered tables

A table maps keys to values and lists its entries in strictly ascending key order. The order is part
of the type, so a table is determined by its look-ups (`Table.ext_get?`), and whatever is listed
from a table comes in the one order that answers show.
-/

namespace DiagnosticWatch

/-- Entries in strictly ascending key order. -/
structure Table (κ : Type u) (ν : Type v) [Ord κ] where
  entries : List (κ × ν)
  ascending : entries.Pairwise fun a b => compare a.1 b.1 = .lt

namespace Table

variable {κ : Type u} {ν : Type v} {μ : Type w} [Ord κ]

instance [DecidableEq κ] [DecidableEq ν] : DecidableEq (Table κ ν) := fun s t =>
  if h : s.entries = t.entries then
    isTrue (by cases s; cases t; cases h; rfl)
  else isFalse fun e => h (congrArg entries e)

def empty : Table κ ν := ⟨[], .nil⟩

instance : Inhabited (Table κ ν) := ⟨empty⟩

/-- The first value stored for a key in a list of entries. -/
def find? [DecidableEq κ] (k : κ) : List (κ × ν) → Option ν
  | [] => none
  | e :: es => if e.1 = k then some e.2 else find? k es

def get? [DecidableEq κ] (t : Table κ ν) (k : κ) : Option ν :=
  find? k t.entries

def contains [DecidableEq κ] (t : Table κ ν) (k : κ) : Bool :=
  (t.get? k).isSome

def keys (t : Table κ ν) : List κ := t.entries.map (·.1)

/-- The values in the order of their keys. -/
def values (t : Table κ ν) : List ν := t.entries.map (·.2)

def size (t : Table κ ν) : Nat := t.entries.length

def isEmpty (t : Table κ ν) : Bool := t.entries.isEmpty

/-- Puts one entry at its place in an ascending list; an entry of the same key gives way. -/
def place (k : κ) (v : ν) : List (κ × ν) → List (κ × ν)
  | [] => [(k, v)]
  | e :: es =>
    match compare k e.1 with
    | .lt => (k, v) :: e :: es
    | .eq => (k, v) :: es
    | .gt => e :: place k v es

theorem mem_place {k : κ} {v : ν} {es : List (κ × ν)} {x : κ × ν} (h : x ∈ place k v es) :
    x = (k, v) ∨ x ∈ es := by
  induction es with
  | nil => simpa [place] using h
  | cons e es ih =>
    rw [place] at h
    split at h
    · simpa using h
    · simp only [List.mem_cons] at h ⊢
      obtain h | h := h
      · exact .inl h
      · exact .inr (.inr h)
    · simp only [List.mem_cons] at h ⊢
      obtain h | h := h
      · exact .inr (.inl h)
      · exact (ih h).imp_right .inr

theorem pairwise_place [Std.TransOrd κ] [Std.LawfulEqOrd κ] {k : κ} {v : ν} {es : List (κ × ν)}
    (h : es.Pairwise fun a b => compare a.1 b.1 = .lt) :
    (place k v es).Pairwise fun a b => compare a.1 b.1 = .lt := by
  induction es with
  | nil => simp [place]
  | cons e es ih =>
    rw [List.pairwise_cons] at h
    rw [place]
    split
    · rename_i hlt
      refine List.pairwise_cons.2 ⟨fun x hx => ?_, List.pairwise_cons.2 h⟩
      obtain rfl | hx := List.mem_cons.1 hx
      · exact hlt
      · exact Std.TransCmp.lt_trans hlt (h.1 x hx)
    · rename_i heq
      have hk : k = e.1 := Std.LawfulEqOrd.eq_of_compare heq
      exact List.pairwise_cons.2 ⟨fun x hx => hk ▸ h.1 x hx, h.2⟩
    · rename_i hgt
      refine List.pairwise_cons.2 ⟨fun x hx => ?_, ih h.2⟩
      obtain rfl | hx := mem_place hx
      · exact Std.OrientedCmp.gt_iff_lt.1 hgt
      · exact h.1 x hx

/-- Stores a value under a key, in place of the one that is there. -/
def insert [Std.TransOrd κ] [Std.LawfulEqOrd κ] (t : Table κ ν) (k : κ) (v : ν) : Table κ ν :=
  ⟨place k v t.entries, pairwise_place t.ascending⟩

def filter (t : Table κ ν) (keep : κ → ν → Bool) : Table κ ν :=
  ⟨t.entries.filter fun e => keep e.1 e.2, t.ascending.filter _⟩

def erase [DecidableEq κ] (t : Table κ ν) (k : κ) : Table κ ν :=
  t.filter fun k' _ => decide (k' ≠ k)

/-- Replaces every value by a function of its key and itself. -/
def map (t : Table κ ν) (f : κ → ν → μ) : Table κ μ :=
  ⟨t.entries.map fun e => (e.1, f e.1 e.2), List.pairwise_map.2 t.ascending⟩

/-- Replaces the value of one key, if it has one. -/
def modify [DecidableEq κ] (t : Table κ ν) (k : κ) (f : ν → ν) : Table κ ν :=
  t.map fun k' v => if k' = k then f v else v

/-- A table from a list of entries; of two entries with one key the later stays. -/
def ofList [Std.TransOrd κ] [Std.LawfulEqOrd κ] (es : List (κ × ν)) : Table κ ν :=
  es.foldl (fun t e => t.insert e.1 e.2) empty

@[simp] theorem keys_map (t : Table κ ν) (f : κ → ν → μ) : (t.map f).keys = t.keys := by
  simp [keys, map]

@[simp] theorem keys_modify [DecidableEq κ] (t : Table κ ν) (k : κ) (f : ν → ν) :
    (t.modify k f).keys = t.keys :=
  keys_map t _

theorem keys_filter_map (t : Table κ ν) (f : κ → ν → μ) (keep : κ → μ → Bool) :
    ((t.map f).filter keep).keys = (t.filter fun k v => keep k (f k v)).keys := by
  simp [keys, map, filter, List.filter_map, Function.comp_def]

theorem values_map (t : Table κ ν) (f : ν → μ) :
    (t.map fun _ v => f v).values = t.values.map f := by
  simp [values, map]

section Lookup

variable [DecidableEq κ]

@[simp] theorem get?_empty (k : κ) : (empty : Table κ ν).get? k = none := rfl

theorem find?_place [Std.TransOrd κ] [Std.LawfulEqOrd κ] (k k' : κ) (v : ν) (es : List (κ × ν)) :
    find? k' (place k v es) = if k = k' then some v else find? k' es := by
  induction es with
  | nil => simp [place, find?]
  | cons e es ih =>
    rw [place]
    split
    · simp [find?]
    · rename_i heq
      have hk : k = e.1 := Std.LawfulEqOrd.eq_of_compare heq
      by_cases h : k = k' <;> simp [find?, h, ← hk]
    · rename_i hgt
      have hne : e.1 ≠ k := by
        intro h
        rw [h, Std.compare_self] at hgt
        cases hgt
      by_cases h : e.1 = k'
      · have hk : k ≠ k' := fun hk => hne (h.trans hk.symm)
        simp [find?, h, hk]
      · simp [find?, h, ih]

theorem get?_insert [Std.TransOrd κ] [Std.LawfulEqOrd κ] (t : Table κ ν) (k k' : κ) (v : ν) :
    (t.insert k v).get? k' = if k = k' then some v else t.get? k' :=
  find?_place k k' v t.entries

omit [Ord κ] in
theorem find?_map (f : κ → ν → μ) (k : κ) (es : List (κ × ν)) :
    find? k (es.map fun e => (e.1, f e.1 e.2)) = (find? k es).map (f k) := by
  induction es with
  | nil => rfl
  | cons e es ih =>
    by_cases h : e.1 = k
    · simp [find?, h]
    · simp only [List.map_cons, find?, h, if_false, ih]

theorem get?_map (t : Table κ ν) (f : κ → ν → μ) (k : κ) :
    (t.map f).get? k = (t.get? k).map (f k) :=
  find?_map f k t.entries

theorem get?_modify (t : Table κ ν) (k k' : κ) (f : ν → ν) :
    (t.modify k f).get? k' = if k' = k then (t.get? k').map f else t.get? k' := by
  rw [modify, get?_map]
  by_cases h : k' = k
  · simp [h]
  · simp [h]

theorem find?_eq_none_of_lt [Std.TransOrd κ] {k : κ} {es : List (κ × ν)}
    (h : ∀ e ∈ es, compare k e.1 = .lt) : find? k es = none := by
  induction es with
  | nil => rfl
  | cons e es ih =>
    have hne : e.1 ≠ k := by
      intro hk
      have := h e List.mem_cons_self
      rw [hk, Std.compare_self] at this
      cases this
    rw [find?, if_neg hne]
    exact ih fun x hx => h x (List.mem_cons_of_mem _ hx)

theorem find?_filter [Std.TransOrd κ] (keep : κ → ν → Bool) (k : κ) {es : List (κ × ν)}
    (h : es.Pairwise fun a b => compare a.1 b.1 = .lt) :
    find? k (es.filter fun e => keep e.1 e.2) = (find? k es).filter (keep k) := by
  induction es with
  | nil => rfl
  | cons e es ih =>
    rw [List.pairwise_cons] at h
    by_cases hk : e.1 = k
    · subst hk
      by_cases hp : keep e.1 e.2 = true
      · rw [List.filter_cons, if_pos hp, find?, if_pos rfl, find?, if_pos rfl, Option.filter,
          if_pos hp]
      · rw [List.filter_cons, if_neg hp, ih h.2, find?_eq_none_of_lt h.1, find?, if_pos rfl,
          Option.filter, Option.filter, if_neg hp]
    · by_cases hp : keep e.1 e.2 = true
      · rw [List.filter_cons, if_pos hp, find?, if_neg hk, find?, if_neg hk, ih h.2]
      · rw [List.filter_cons, if_neg hp, find?, if_neg hk, ih h.2]

theorem get?_filter [Std.TransOrd κ] (t : Table κ ν) (keep : κ → ν → Bool) (k : κ) :
    (t.filter keep).get? k = (t.get? k).filter (keep k) :=
  find?_filter keep k t.ascending

theorem get?_erase [Std.TransOrd κ] (t : Table κ ν) (k k' : κ) :
    (t.erase k).get? k' = if k' = k then none else t.get? k' := by
  rw [erase, get?_filter]
  by_cases h : k' = k
  · subst h; simp
  · cases ht : t.get? k' <;> simp [h]

omit [Ord κ] in
theorem find?_isSome_iff {k : κ} {es : List (κ × ν)} :
    (find? k es).isSome = true ↔ k ∈ es.map (·.1) := by
  induction es with
  | nil => simp [find?]
  | cons e es ih =>
    by_cases h : e.1 = k
    · simp [find?, h]
    · have h' : k ≠ e.1 := fun hk => h hk.symm
      rw [find?, if_neg h, ih, List.map_cons, List.mem_cons]
      simp [h']

theorem contains_iff_mem_keys {t : Table κ ν} {k : κ} : t.contains k = true ↔ k ∈ t.keys :=
  find?_isSome_iff

omit [Ord κ] in
theorem mem_of_find?_eq_some {k : κ} {v : ν} {es : List (κ × ν)} (h : find? k es = some v) :
    (k, v) ∈ es := by
  induction es with
  | nil => cases h
  | cons e es ih =>
    by_cases hk : e.1 = k
    · rw [find?, if_pos hk] at h
      cases h
      subst hk
      exact List.mem_cons_self
    · rw [find?, if_neg hk] at h
      exact List.mem_cons_of_mem _ (ih h)

theorem find?_eq_some_iff [Std.TransOrd κ] {k : κ} {v : ν} {es : List (κ × ν)}
    (h : es.Pairwise fun a b => compare a.1 b.1 = .lt) :
    find? k es = some v ↔ (k, v) ∈ es := by
  refine ⟨mem_of_find?_eq_some, fun hm => ?_⟩
  induction es with
  | nil => cases hm
  | cons e es ih =>
    rw [List.pairwise_cons] at h
    obtain rfl | hm := List.mem_cons.1 hm
    · simp [find?]
    · have hne : e.1 ≠ k := by
        intro hk
        have := h.1 _ hm
        rw [hk, Std.compare_self] at this
        cases this
      rw [find?, if_neg hne]
      exact ih h.2 hm

/-- An entry is listed exactly if its key is looked up to its value. -/
theorem get?_eq_some_iff [Std.TransOrd κ] {t : Table κ ν} {k : κ} {v : ν} :
    t.get? k = some v ↔ (k, v) ∈ t.entries :=
  find?_eq_some_iff t.ascending

omit [DecidableEq κ] in
private theorem entries_eq_of_mem_iff [Std.TransOrd κ] {es fs : List (κ × ν)}
    (he : es.Pairwise fun a b => compare a.1 b.1 = .lt)
    (hf : fs.Pairwise fun a b => compare a.1 b.1 = .lt) (h : ∀ x, x ∈ es ↔ x ∈ fs) : es = fs := by
  induction es generalizing fs with
  | nil =>
    cases fs with
    | nil => rfl
    | cons f fs => exact absurd ((h f).2 List.mem_cons_self) (by simp)
  | cons e es ih =>
    cases fs with
    | nil => exact absurd ((h e).1 List.mem_cons_self) (by simp)
    | cons f fs =>
      rw [List.pairwise_cons] at he hf
      have irrefl : ∀ x : κ, compare x x ≠ .lt := fun x hx => by
        rw [Std.compare_self] at hx; cases hx
      have hef : e = f := by
        obtain hx | hx := List.mem_cons.1 ((h e).1 List.mem_cons_self)
        · exact hx
        · obtain hy | hy := List.mem_cons.1 ((h f).2 List.mem_cons_self)
          · exact hy.symm
          · exact absurd (Std.TransCmp.lt_trans (he.1 _ hy) (hf.1 _ hx)) (irrefl _)
      subst hef
      congr 1
      refine ih he.2 hf.2 fun x => ⟨fun hx => ?_, fun hx => ?_⟩
      · obtain rfl | hx' := List.mem_cons.1 ((h x).1 (List.mem_cons_of_mem _ hx))
        · exact absurd (he.1 _ hx) (irrefl _)
        · exact hx'
      · obtain rfl | hx' := List.mem_cons.1 ((h x).2 (List.mem_cons_of_mem _ hx))
        · exact absurd (hf.1 _ hx) (irrefl _)
        · exact hx'

/-- A table is determined by its look-ups. -/
theorem ext_get? [Std.TransOrd κ] {s t : Table κ ν} (h : ∀ k, s.get? k = t.get? k) : s = t := by
  have he : s.entries = t.entries :=
    entries_eq_of_mem_iff s.ascending t.ascending fun x => by
      rw [← get?_eq_some_iff (k := x.1) (v := x.2), h, get?_eq_some_iff]
  cases s; cases t; cases he; rfl

omit [Ord κ] in
theorem find?_eq_none_iff {k : κ} {es : List (κ × ν)} : find? k es = none ↔ ∀ e ∈ es, e.1 ≠ k := by
  rw [← Option.not_isSome_iff_eq_none, find?_isSome_iff, List.mem_map]
  constructor
  · intro absent e he hk
    exact absent ⟨e, he, hk⟩
  · rintro absent ⟨e, he, hk⟩
    exact absent e he hk

omit [DecidableEq κ] in
theorem place_perm [Std.LawfulEqOrd κ] {k : κ} {es : List (κ × ν)} (absent : ∀ e ∈ es, e.1 ≠ k)
    (v : ν) : (place k v es).Perm ((k, v) :: es) := by
  induction es with
  | nil => exact .refl _
  | cons e es ih =>
      rw [place]
      split
      · exact .refl _
      · rename_i heq
        exact absurd (Std.LawfulEqOrd.eq_of_compare heq).symm (absent e List.mem_cons_self)
      · have rest := ih fun x hx => absent x (List.mem_cons_of_mem _ hx)
        exact (rest.cons e).trans (.swap _ _ _)

/-- A new key adds one entry. -/
theorem entries_insert_perm [Std.TransOrd κ] [Std.LawfulEqOrd κ] {t : Table κ ν} {k : κ}
    (absent : t.get? k = none) (v : ν) : (t.insert k v).entries.Perm ((k, v) :: t.entries) :=
  place_perm (find?_eq_none_iff.1 absent) v

theorem perm_filter_ne [Std.TransOrd κ] {k : κ} {v : ν} {es : List (κ × ν)}
    (ascending : es.Pairwise fun a b => compare a.1 b.1 = .lt) (present : find? k es = some v) :
    es.Perm ((k, v) :: es.filter fun e => decide (e.1 ≠ k)) := by
  induction es with
  | nil => cases present
  | cons e es ih =>
      rw [List.pairwise_cons] at ascending
      by_cases hk : e.1 = k
      · rw [find?, if_pos hk] at present
        cases present
        have others : ∀ x ∈ es, x.1 ≠ k := by
          subst hk
          exact find?_eq_none_iff.1 (find?_eq_none_of_lt ascending.1)
        have kept : es.filter (fun x => decide (x.1 ≠ k)) = es :=
          List.filter_eq_self.2 fun x hx => by simpa using others x hx
        rw [List.filter_cons_of_neg (by simp [hk]), kept, ← hk]
      · rw [find?, if_neg hk] at present
        rw [List.filter_cons_of_pos (by simp [hk])]
        exact ((ih ascending.2 present).cons e).trans (.swap _ _ _)

/-- Erasing a key takes its entry away and no other one. -/
theorem entries_erase_perm [Std.TransOrd κ] {t : Table κ ν} {k : κ} {v : ν}
    (present : t.get? k = some v) : t.entries.Perm ((k, v) :: (t.erase k).entries) :=
  perm_filter_ne t.ascending present

omit [DecidableEq κ] in
/-- A table that is made of a list holds entries of the list only. -/
theorem mem_of_mem_ofList [Std.TransOrd κ] [Std.LawfulEqOrd κ] {es : List (κ × ν)} {x : κ × ν}
    (h : x ∈ (ofList es).entries) : x ∈ es := by
  have inserted (es : List (κ × ν)) (t : Table κ ν)
      (h : x ∈ (es.foldl (fun t e => t.insert e.1 e.2) t).entries) : x ∈ t.entries ∨ x ∈ es := by
    induction es generalizing t with
    | nil => exact .inl h
    | cons e es ih =>
      obtain h | h := ih _ h
      · obtain rfl | h := mem_place h
        · exact .inr List.mem_cons_self
        · exact .inl h
      · exact .inr (List.mem_cons_of_mem _ h)
  exact (inserted es empty h).resolve_left List.not_mem_nil

/-- A table that is made of a list has every key of the list. -/
theorem mem_keys_ofList [Std.TransOrd κ] [Std.LawfulEqOrd κ] {es : List (κ × ν)} {e : κ × ν}
    (h : e ∈ es) : e.1 ∈ (ofList es).keys := by
  have inserted (k : κ) (es : List (κ × ν)) (t : Table κ ν)
      (h : k ∈ t.keys ∨ k ∈ es.map (·.1)) :
      k ∈ (es.foldl (fun t e => t.insert e.1 e.2) t).keys := by
    induction es generalizing t with
    | nil => exact h.resolve_right List.not_mem_nil
    | cons e es ih =>
      refine ih _ ?_
      rw [List.map_cons, List.mem_cons] at h
      rw [← contains_iff_mem_keys, contains, get?_insert]
      obtain h | rfl | h := h
      · rw [← contains_iff_mem_keys, contains] at h
        left
        split
        · rfl
        · exact h
      · exact .inl (by simp)
      · exact .inr h
  exact inserted e.1 es empty (.inr (List.mem_map_of_mem h))

/-- A table that is made of a list finds the last entry with a key. -/
theorem get?_ofList [Std.TransOrd κ] [Std.LawfulEqOrd κ] (es : List (κ × ν)) (k : κ) :
    (ofList es).get? k = (es.reverse.find? fun e => e.1 = k).map (·.2) := by
  have inserted (es : List (κ × ν)) (t : Table κ ν) :
      (es.foldl (fun t e => t.insert e.1 e.2) t).get? k =
        ((es.reverse.find? fun e => e.1 = k).map (·.2)).or (t.get? k) := by
    induction es generalizing t with
    | nil => rfl
    | cons e es ih =>
      rw [List.foldl_cons, ih, get?_insert, List.reverse_cons, List.find?_append]
      by_cases here : e.1 = k
      · cases es.reverse.find? fun e => e.1 = k <;> simp [here]
      · simp [here]
  exact (inserted es empty).trans Option.or_none

/-- Everything in the values of a table, key by key in ascending order. -/
theorem flatMap_values {α : Type w} [Std.TransOrd κ] (t : Table κ ν) (f : ν → List α) :
    t.values.flatMap f = t.keys.flatMap fun k => ((t.get? k).map f).getD [] := by
  rw [values, keys, List.flatMap_map, List.flatMap_map, List.flatMap_def, List.flatMap_def]
  congr 1
  apply List.map_congr_left
  rintro ⟨k, v⟩ entry
  rw [get?_eq_some_iff.2 entry]
  rfl

end Lookup

end Table

end DiagnosticWatch
