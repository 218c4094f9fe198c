/-!
# Runs of a machine

Stores, caches and watchers all take one operation at a time, answer it and move on. A run carries
out operations in order; what one step keeps, a run keeps, and two machines whose steps answer alike
answer alike along every run. The inductions over runs are made here once.
-/

namespace DiagnosticWatch

universe u v w x

variable {σ : Type u} {τ : Type v} {ι : Type w} {β : Type x}

/-- Carries out inputs in order: all answers, and the state behind the last input. -/
def runAll (step : σ → ι → β × σ) : List ι → σ → List β × σ
  | [], s => ([], s)
  | i :: is, s =>
    ((step s i).1 :: (runAll step is (step s i).2).1, (runAll step is (step s i).2).2)

/-- A condition on every input of a run, each at the state that it meets. -/
def Throughout (holds : σ → ι → Prop) (step : σ → ι → β × σ) : List ι → σ → Prop
  | [], _ => True
  | i :: is, s => holds s i ∧ Throughout holds step is (step s i).2

instance instDecidableThroughout {holds : σ → ι → Prop} {step : σ → ι → β × σ}
    [∀ s i, Decidable (holds s i)] :
    (is : List ι) → (s : σ) → Decidable (Throughout holds step is s)
  | [], _ => .isTrue trivial
  | i :: is, s =>
    have : Decidable (Throughout holds step is (step s i).2) := instDecidableThroughout is _
    inferInstanceAs (Decidable (holds s i ∧ Throughout holds step is (step s i).2))

section Run

variable {step : σ → ι → β × σ}

@[simp] theorem runAll_nil (s : σ) : runAll step [] s = ([], s) := rfl

@[simp] theorem runAll_cons (i : ι) (is : List ι) (s : σ) :
    runAll step (i :: is) s =
      ((step s i).1 :: (runAll step is (step s i).2).1, (runAll step is (step s i).2).2) := rfl

theorem runAll_append (is js : List ι) (s : σ) :
    runAll step (is ++ js) s =
      ((runAll step is s).1 ++ (runAll step js (runAll step is s).2).1,
        (runAll step js (runAll step is s).2).2) := by
  induction is generalizing s with
  | nil => rfl
  | cons i is ih => simp only [List.cons_append, runAll_cons, ih]

/-- The state behind one more input. -/
theorem runAll_concat_state (is : List ι) (i : ι) (s : σ) :
    (runAll step (is ++ [i]) s).2 = (step (runAll step is s).2 i).2 := by
  rw [runAll_append]
  rfl

/-- What every step keeps, a run keeps. -/
theorem runAll_preserves {P : σ → Prop} (keep : ∀ s i, P s → P (step s i).2) (is : List ι)
    {s : σ} (hs : P s) : P (runAll step is s).2 := by
  induction is generalizing s with
  | nil => exact hs
  | cons i is ih => exact ih (keep s i hs)

theorem throughout_of_forall {holds : σ → ι → Prop} (always : ∀ s i, holds s i) (is : List ι)
    (s : σ) : Throughout holds step is s := by
  induction is generalizing s with
  | nil => trivial
  | cons i is ih => exact ⟨always s i, ih _⟩

/-- What every step keeps that meets a condition, a run keeps that meets it throughout. -/
theorem runAll_preserves_of_throughout {P : σ → Prop} {Q : σ → ι → Prop}
    (keep : ∀ s i, Q s i → P s → P (step s i).2) (is : List ι) {s : σ} (hs : P s)
    (ht : Throughout Q step is s) : P (runAll step is s).2 := by
  induction is generalizing s with
  | nil => exact hs
  | cons i is ih => exact ih (keep s i ht.1 hs) ht.2

theorem Throughout.and {P Q : σ → ι → Prop} {is : List ι} {s : σ} (hp : Throughout P step is s)
    (hq : Throughout Q step is s) : Throughout (fun s i => P s i ∧ Q s i) step is s := by
  induction is generalizing s with
  | nil => trivial
  | cons i is ih => exact ⟨⟨hp.1, hq.1⟩, ih hp.2 hq.2⟩

/-- A counter that no step takes back, and that a run leaves where it was, has stood still
throughout. -/
theorem throughout_of_counter {f : σ → Nat} (grows : ∀ s i, f s ≤ f (step s i).2) (is : List ι)
    {s : σ} (level : f (runAll step is s).2 ≤ f s) :
    Throughout (fun s i => f (step s i).2 = f s) step is s := by
  -- What is left of the run cannot take back what the first step has added.
  have passed (is : List ι) (s : σ) : f s ≤ f (runAll step is s).2 :=
    runAll_preserves (P := fun t => f s ≤ f t) (fun t i h => Nat.le_trans h (grows t i)) is
      (Nat.le_refl _)
  induction is generalizing s with
  | nil => trivial
  | cons i is ih =>
      have first := grows s i
      have rest := passed is (step s i).2
      have level : f (runAll step is (step s i).2).2 ≤ f s := level
      exact ⟨by omega, ih (by omega)⟩

/-- The sum of an amount over the inputs of a run, each at the state that it meets. -/
def sumAlong (amount : σ → ι → Nat) (step : σ → ι → β × σ) : List ι → σ → Nat
  | [], _ => 0
  | i :: is, s => amount s i + sumAlong amount step is (step s i).2

/-- Where every step balances what comes against what goes, a run does. -/
theorem runAll_balances {P : σ → Prop} {f : σ → Nat} {came gone : σ → ι → Nat}
    (keep : ∀ s i, P s → P (step s i).2)
    (balance : ∀ s i, P s → f (step s i).2 + gone s i = f s + came s i) (is : List ι) {s : σ}
    (hs : P s) :
    f (runAll step is s).2 + sumAlong gone step is s = f s + sumAlong came step is s := by
  induction is generalizing s with
  | nil => rfl
  | cons i is ih =>
      have first := balance s i hs
      have rest := ih (keep s i hs)
      simp only [runAll_cons, sumAlong]
      omega

/-- Two machines that answer alike at related states, and stay related, answer alike along a run.
The conditions may depend on the states that the two runs pass. -/
theorem runAll_simulates {step' : τ → ι → β × τ} {R : σ → τ → Prop} {P : σ → ι → Prop}
    {Q : τ → ι → Prop}
    (simulate : ∀ s t i, R s t → P s i → Q t i →
      (step s i).1 = (step' t i).1 ∧ R (step s i).2 (step' t i).2)
    (is : List ι) {s : σ} {t : τ} (related : R s t) (hs : Throughout P step is s)
    (ht : Throughout Q step' is t) :
    (runAll step is s).1 = (runAll step' is t).1 ∧
      R (runAll step is s).2 (runAll step' is t).2 := by
  induction is generalizing s t with
  | nil => exact ⟨rfl, related⟩
  | cons i is ih =>
      obtain ⟨same, next⟩ := simulate s t i related hs.1 ht.1
      obtain ⟨answers, final⟩ := ih next hs.2 ht.2
      exact ⟨by simp only [runAll_cons, same, answers], final⟩

end Run

end DiagnosticWatch
