import DiagnosticWatch.Proofs.Path.Join
import Mathlib.Data.List.Induction

/-!
# Ancestors

A path lies in a directory if its components go on from those of the directory. Parents lead from
there up to the directory, one component at a time, so what holds at the directory and is carried
from a parent to its children holds of every path that lies in it (`LiesIn.climb`).
-/

namespace DiagnosticWatch.Path

variable {p q dir : Path} {c : Component}

/-- A path at or below a directory, however the two are spelled. -/
def LiesIn (p dir : Path) : Prop :=
  ∃ rest, p.location = dir.location ++ rest ∧ .root ∉ rest

namespace LiesIn

theorem of_same (h : p.location = dir.location) : p.LiesIn dir :=
  ⟨[], by rw [h, List.append_nil], List.not_mem_nil⟩

theorem of_parent (h : p.location = q.location ++ [c]) (below : c ≠ .root) : p.LiesIn q :=
  ⟨[c], h, by simpa [eq_comm] using below⟩

theorem trans (h : p.LiesIn q) (h' : q.LiesIn dir) : p.LiesIn dir := by
  obtain ⟨rest, hp, free⟩ := h
  obtain ⟨rest', hq, free'⟩ := h'
  refine ⟨rest' ++ rest, by rw [hp, hq, List.append_assoc], ?_⟩
  exact fun h => (List.mem_append.1 h).elim free' free

theorem length_le (h : p.LiesIn dir) : dir.location.length ≤ p.location.length := by
  obtain ⟨rest, hp, -⟩ := h
  rw [hp, List.length_append]
  exact Nat.le_add_right _ _

theorem antisymm (h : p.LiesIn q) (h' : q.LiesIn p) : p.location = q.location := by
  have longer := h'.length_le
  obtain ⟨rest, hp, -⟩ := h
  rw [hp, List.length_append] at longer
  obtain rfl : rest = [] := List.eq_nil_of_length_eq_zero (by omega)
  rw [hp, List.append_nil]

/-- A path that lies in a directory is the directory, or its parent lies there as well. -/
theorem same_or_parent (h : p.LiesIn dir) (hq : p.location = q.location ++ [c]) :
    p.location = dir.location ∨ q.LiesIn dir := by
  obtain ⟨rest, hp, free⟩ := h
  cases rest using List.reverseRecOn with
  | nil => exact .inl (by rw [hp, List.append_nil])
  | append_singleton front last =>
      rw [hq, ← List.append_assoc] at hp
      exact .inr ⟨front, (List.append_inj' hp rfl).1, fun h => free (List.mem_append_left _ h)⟩

/-- From parents to children what holds at a directory reaches every path that lies in it. -/
theorem climb {motive : (p : Path) → p.LiesIn dir → Prop}
    (here : ∀ (p : Path) (h : p.location = dir.location), motive p (of_same h))
    (up : ∀ (p q : Path) (c : Component), p.parent? = some q →
      ∀ (hp : p.location = q.location ++ [c]) (below : c ≠ .root) (inside : q.LiesIn dir),
        motive q inside → motive p ((of_parent hp below).trans inside))
    {p : Path} (h : p.LiesIn dir) : motive p h := by
  obtain ⟨rest, hp, free⟩ := h
  induction rest using List.reverseRecOn generalizing p with
  | nil => exact here p (by rw [hp, List.append_nil])
  | append_singleton rest c ih =>
      rw [← List.append_assoc] at hp
      obtain ⟨free', below⟩ : .root ∉ rest ∧ c ≠ .root := by simpa [eq_comm] using free
      obtain ⟨q, parent, hq⟩ := exists_parent hp below
      exact up p q c parent (by rw [hp, hq]) below ⟨rest, hq, free'⟩ (ih hq free')

end LiesIn

theorem exists_ancestors (p : Path) : ∃ above, p.ancestors = p :: above := by
  rw [ancestors]
  cases p.location.length <;> exact ⟨_, rfl⟩

theorem mem_ancestors_self (p : Path) : p ∈ p.ancestors := by
  obtain ⟨above, h⟩ := p.exists_ancestors
  rw [h]
  exact List.mem_cons_self

theorem ancestors_of_parent (parent : p.parent? = some q) (h : p.location = q.location ++ [c]) :
    p.ancestors = p :: q.ancestors := by
  rw [ancestors, h, List.length_append, List.length_singleton, ancestors.go, parent]
  rfl

/-- Every directory that a path lies in is among its ancestors, in some spelling. -/
theorem LiesIn.exists_mem_ancestors (h : p.LiesIn dir) :
    ∃ q ∈ p.ancestors, q.location = dir.location := by
  induction h using LiesIn.climb with
  | here p h => exact ⟨p, p.mem_ancestors_self, h⟩
  | up p q c parent hp below inside ih =>
      obtain ⟨found, hmem, same⟩ := ih
      rw [ancestors_of_parent parent hp]
      exact ⟨found, List.mem_cons_of_mem _ hmem, same⟩

end DiagnosticWatch.Path
