import DiagnosticWatch.Proofs.Store.Index
import Mathlib.Data.List.Basic

/-!
# What a complete pass lists

Behind the completion of a pass a project lists what the pass has brought, sorted by file; the sort
is stable, so the diagnostics of a file stay in their order of arrival. `Brings` is the invariant:
at each place the open pass holds the diagnostics of that place that have come since the last
completion.
-/

namespace DiagnosticWatch

section Sorting

variable {α κ : Type} [Ord κ] (key : α → κ)

/-- Whether the key of `a` is not behind that of `b`. -/
def notBehind (a b : α) : Bool :=
  (compare (key a) (key b)).isLE

/-- The elements in ascending order of their keys. Those of one key stay in their order. -/
def sortedBy (l : List α) : List α :=
  l.mergeSort (notBehind key)

variable [Std.TransOrd κ]

theorem notBehind_trans (a b c : α) (h : notBehind key a b = true) (h' : notBehind key b c = true) :
    notBehind key a c = true :=
  Std.TransCmp.isLE_trans h h'

theorem notBehind_total (a b : α) : (notBehind key a b || notBehind key b a) = true := by
  have swap : compare (key b) (key a) = (compare (key a) (key b)).swap := Std.OrientedCmp.eq_swap
  rw [notBehind, notBehind, swap]
  cases compare (key a) (key b) <;> rfl

theorem notBehind_of_eq {a b : α} (h : key a = key b) : notBehind key a b = true := by
  rw [notBehind, h, Std.compare_self]
  rfl

theorem pairwise_sortedBy (l : List α) :
    (sortedBy key l).Pairwise fun a b => notBehind key a b = true :=
  List.pairwise_mergeSort (notBehind_trans key) (notBehind_total key) l

variable [DecidableEq κ]

/-- The elements of one key stay in their order. -/
theorem filter_sortedBy (l : List α) (k : κ) :
    (sortedBy key l).filter (fun a => key a = k) = l.filter fun a => key a = k := by
  have level : (l.filter fun a => key a = k).Pairwise fun a b => notBehind key a b = true := by
    apply List.pairwise_of_forall_mem_list
    intro a ha b hb
    have ha : key a = k := by simpa using (List.mem_filter.1 ha).2
    have hb : key b = k := by simpa using (List.mem_filter.1 hb).2
    exact notBehind_of_eq key (ha.trans hb.symm)
  have kept : (l.filter fun a => key a = k).Sublist (sortedBy key l) :=
    List.sublist_mergeSort (notBehind_trans key) (notBehind_total key) level List.filter_sublist
  have sublist := kept.filter fun a => decide (key a = k)
  rw [List.filter_filter] at sublist
  simp only [Bool.and_self] at sublist
  refine (sublist.eq_of_length ?_).symm
  exact ((List.mergeSort_perm l _).filter _).length_eq.symm

omit [Ord κ] [Std.TransOrd κ] in
theorem mem_iff_of_filter_eq {l m : List α}
    (same : ∀ k, l.filter (fun a => key a = k) = m.filter fun a => key a = k) (x : α) :
    x ∈ l ↔ x ∈ m := by
  have h := congrArg (x ∈ ·) (same (key x))
  simpa using h

variable [Std.LawfulEqOrd κ]

/-- A list in ascending order is determined by the elements of each key. -/
theorem eq_of_filter_eq {l m : List α} (hl : l.Pairwise fun a b => notBehind key a b = true)
    (hm : m.Pairwise fun a b => notBehind key a b = true)
    (same : ∀ k, l.filter (fun a => key a = k) = m.filter fun a => key a = k) : l = m := by
  induction l generalizing m with
  | nil =>
      cases m with
      | nil => rfl
      | cons b m =>
          exact absurd ((mem_iff_of_filter_eq key same b).2 List.mem_cons_self) List.not_mem_nil
  | cons a l ih =>
      cases m with
      | nil =>
          exact absurd ((mem_iff_of_filter_eq key same a).1 List.mem_cons_self) List.not_mem_nil
      | cons b m =>
          obtain ⟨least, hl'⟩ := List.pairwise_cons.1 hl
          obtain ⟨least', hm'⟩ := List.pairwise_cons.1 hm
          have key_eq : key a = key b := by
            apply Std.LawfulEqOrd.eq_of_compare
            apply Std.OrientedCmp.isLE_antisymm
            · obtain rfl | h :=
                List.mem_cons.1 ((mem_iff_of_filter_eq key same b).2 List.mem_cons_self)
              · exact notBehind_of_eq key rfl
              · exact least b h
            · obtain rfl | h :=
                List.mem_cons.1 ((mem_iff_of_filter_eq key same a).1 List.mem_cons_self)
              · exact notBehind_of_eq key rfl
              · exact least' a h
          have heads := same (key a)
          rw [List.filter_cons_of_pos (by simp),
            List.filter_cons_of_pos (by simp [key_eq])] at heads
          obtain rfl := (List.cons.inj heads).1
          congr 1
          apply ih hl' hm'
          intro k
          have tails := same k
          by_cases hk : key a = k
          · simpa [hk] using tails
          · simpa [hk] using tails

section Groups

variable {keys : List κ} {group : κ → List α}
  (ascending : keys.Pairwise fun k k' => compare k k' = .lt) (own : ∀ k, ∀ a ∈ group k, key a = k)
include ascending own

omit [Std.LawfulEqOrd κ] in
/-- Groups of ascending keys, one behind the other, still have their elements. -/
theorem filter_flatMap_groups (k : κ) :
    (keys.flatMap group).filter (fun a => key a = k) = if k ∈ keys then group k else [] := by
  induction keys with
  | nil => rfl
  | cons k' keys ih =>
      obtain ⟨least, ascending⟩ := List.pairwise_cons.1 ascending
      rw [List.flatMap_cons, List.filter_append, ih ascending]
      by_cases hk : k = k'
      · subst hk
        have absent : k ∉ keys := by
          intro h
          have lt := least k h
          rw [Std.compare_self] at lt
          cases lt
        have all : (group k).filter (fun a => key a = k) = group k := by
          rw [List.filter_eq_self]
          intro a ha
          exact decide_eq_true (own k a ha)
        simp [absent, all]
      · have none : (group k').filter (fun a => key a = k) = [] := by
          rw [List.filter_eq_nil_iff]
          intro a ha same
          exact hk ((of_decide_eq_true same).symm.trans (own k' a ha))
        simp [none, hk]

omit [DecidableEq κ] [Std.LawfulEqOrd κ] in
/-- Groups of ascending keys, one behind the other, are in ascending order. -/
theorem pairwise_flatMap_groups :
    (keys.flatMap group).Pairwise fun a b => notBehind key a b = true := by
  rw [List.pairwise_flatMap]
  refine ⟨?_, ascending.imp ?_⟩
  · intro k _
    apply List.pairwise_of_forall_mem_list
    intro a ha b hb
    exact notBehind_of_eq key ((own k a ha).trans (own k b hb).symm)
  · intro k k' lt a ha b hb
    rw [notBehind, own k a ha, own k' b hb, lt]
    rfl

end Groups

/-- Elements grouped by ascending keys are sorted by their keys. -/
theorem sortedBy_eq_flatMap {l : List α} {keys : List κ}
    (ascending : keys.Pairwise fun k k' => compare k k' = .lt) (covered : ∀ a ∈ l, key a ∈ keys) :
    sortedBy key l = keys.flatMap fun k => l.filter fun a => key a = k := by
  have own (k : κ) (a : α) (h : a ∈ l.filter fun a => key a = k) : key a = k := by
    simpa using (List.mem_filter.1 h).2
  apply eq_of_filter_eq key (pairwise_sortedBy key l) (pairwise_flatMap_groups key ascending own)
  intro k
  rw [filter_sortedBy, filter_flatMap_groups key ascending own]
  split
  · rfl
  · rename_i absent
    rw [List.filter_eq_nil_iff]
    intro a ha hk
    obtain rfl : key a = k := by simpa using hk
    exact absent (covered a ha)

end Sorting

namespace ProjectIndex

variable {p : ProjectIndex} {ds : List Diagnostic}

/-- What the open pass holds at a place. -/
def brought (p : ProjectIndex) (place : Location) : List Diagnostic :=
  match p.files.get? place with
  | none => []
  | some b => if b.pass = p.beginPass.pass then b.diagnostics else []

/-- The open pass has brought some diagnostics, in this order, and no bucket is of a later pass. -/
structure Brings (p : ProjectIndex) (ds : List Diagnostic) : Prop where
  bounded : ∀ place b, p.files.get? place = some b → b.pass ≤ p.pass
  brought : ∀ place, p.brought place = ds.filter fun d => d.file.location = place

theorem pass_le_beginPass (p : ProjectIndex) : p.pass ≤ p.beginPass.pass := by
  rw [beginPass]
  split
  · exact Nat.le_refl _
  · exact Nat.le_succ _

theorem refilled_diagnostics (p : ProjectIndex) (d : Diagnostic) :
    (p.refilled d).diagnostics = p.brought d.file.location ++ [d] := by
  rw [refilled, brought]
  cases p.files.get? d.file.location with
  | none => rfl
  | some b => by_cases same : b.pass = p.beginPass.pass <;> simp [same]

theorem brings_empty : ({} : ProjectIndex).Brings [] where
  bounded := fun place b hb => by cases hb
  brought := fun _ => rfl

namespace Brings

theorem beginPass (h : p.Brings ds) : p.beginPass.Brings ds where
  bounded := fun place b hb => by
    rw [beginPass_files] at hb
    exact Nat.le_trans (h.bounded place b hb) (pass_le_beginPass p)
  brought := fun place => by
    rw [← h.brought place, ProjectIndex.brought, ProjectIndex.brought, beginPass_files,
      beginPass_beginPass]

theorem insert (h : p.Brings ds) (d : Diagnostic) : (p.insert d).Brings (ds ++ [d]) where
  bounded := fun place b hb => by
    rw [insert_pass]
    rw [get?_insert] at hb
    split at hb
    · cases hb
      exact Nat.le_of_eq (refilled_pass p d)
    · exact Nat.le_trans (h.bounded place b hb) (pass_le_beginPass p)
  brought := fun place => by
    have pass : (p.insert d).beginPass.pass = p.beginPass.pass := by
      rw [beginPass_of_open (insert_passOpen p d), insert_pass]
    rw [ProjectIndex.brought, get?_insert, pass, List.filter_append, ← h.brought place]
    by_cases same : d.file.location = place
    · rw [if_pos same]
      simp [refilled_pass, refilled_diagnostics, same]
    · rw [if_neg same]
      simp [ProjectIndex.brought, same]

/-- The pass after a completed one has brought nothing. -/
theorem completePass (h : p.Brings ds) : p.completePass.2.Brings [] where
  bounded := fun place b hb => by
    rw [get?_completePass] at hb
    exact Nat.le_trans (h.bounded place b (Option.filter_eq_some_iff.1 hb).1) (pass_le_beginPass p)
  brought := fun place => by
    have next : p.completePass.2.beginPass.pass = p.beginPass.pass + 1 :=
      beginPass_pass_of_closed rfl
    rw [ProjectIndex.brought, next, get?_completePass]
    cases hb : (p.files.get? place).filter fun b => decide (b.pass = p.beginPass.pass) with
    | none => rfl
    | some b =>
        have pass : b.pass = p.beginPass.pass := by
          simpa using (Option.filter_eq_some_iff.1 hb).2
        simp [pass]

/-- A completed pass lists what it has brought, sorted by file. -/
theorem diagnostics_completePass (h : p.Brings ds) :
    p.completePass.2.diagnostics = sortedBy (fun d => d.file.location) ds := by
  have bucket (place : Location) (b : Bucket)
      (hb : (place, b) ∈ p.completePass.2.files.entries) :
      b.diagnostics = ds.filter fun d => d.file.location = place := by
    have hget := Table.get?_eq_some_iff.2 hb
    rw [get?_completePass] at hget
    obtain ⟨hget, pass⟩ := Option.filter_eq_some_iff.1 hget
    rw [← h.brought place, ProjectIndex.brought, hget]
    simp [of_decide_eq_true pass]
  have covered (d : Diagnostic) (hd : d ∈ ds) :
      d.file.location ∈ p.completePass.2.files.keys := by
    have here : d ∈ p.brought d.file.location := by
      rw [h.brought]
      simpa using hd
    rw [← Table.contains_iff_mem_keys, Table.contains, get?_completePass]
    rw [ProjectIndex.brought] at here
    split at here
    · cases here
    · rename_i b hb
      split at here
      · rename_i pass
        simp [hb, pass]
      · cases here
  have ascending : p.completePass.2.files.keys.Pairwise fun k k' => compare k k' = .lt :=
    List.pairwise_map.2 p.completePass.2.files.ascending
  rw [sortedBy_eq_flatMap _ ascending covered, diagnostics, Table.values, Table.keys,
    List.flatMap_map, List.flatMap_map]
  apply List.flatMap_congr
  rintro ⟨place, b⟩ hb
  exact bucket place b hb

end Brings

end ProjectIndex

end DiagnosticWatch
