import Mathlib

/-! Pure loops with a variant. A loop makes at most as many rounds as the variant
of its first state allows; when every round lowers the variant it ends only where
its test fails. -/

namespace MirrorsCore.Lib
variable {σ : Type}

def iterateWhile (test : σ → Bool) (step : σ → σ) : Nat → σ → σ
  | 0, s => s
  | n + 1, s => if test s then iterateWhile test step n (step s) else s

/-- `while test do step`, cut off by the variant `μ` of the first state. -/
def whileLoop (μ : σ → Nat) (test : σ → Bool) (step : σ → σ) (s : σ) : σ :=
  iterateWhile test step (μ s) s

section Rules
variable {inv : σ → Prop} {μ : σ → Nat} {test : σ → Bool} {step : σ → σ} {s : σ}

theorem iterateWhile_spec
    (hstep : ∀ s, inv s → test s = true → inv (step s) ∧ μ (step s) < μ s) {n : Nat} {s : σ}
    (hs : inv s) (hn : μ s ≤ n) :
    inv (iterateWhile test step n s) ∧ test (iterateWhile test step n s) = false := by
  induction n generalizing s with
  | zero =>
    refine ⟨hs, ?_⟩
    by_contra htest
    have hlt := (hstep s hs (Bool.eq_true_of_not_eq_false htest)).2
    exact absurd (hlt.trans_le hn) (Nat.not_lt_zero _)
  | succ n ih =>
    unfold iterateWhile
    by_cases htest : test s = true
    · obtain ⟨hinv, hlt⟩ := hstep s hs htest
      rw [if_pos htest]
      exact ih hinv (Nat.le_of_lt_succ (hlt.trans_le hn))
    · rw [if_neg htest]
      exact ⟨hs, Bool.eq_false_of_not_eq_true htest⟩

/-- An invariant of the rounds holds after the loop, where the test fails. -/
theorem whileLoop_spec (inv : σ → Prop) (μ : σ → Nat) (test : σ → Bool) (step : σ → σ) (s : σ)
    (hstep : ∀ s, inv s → test s = true → inv (step s) ∧ μ (step s) < μ s) (hs : inv s) :
    inv (whileLoop μ test step s) ∧ test (whileLoop μ test step s) = false :=
  iterateWhile_spec hstep hs le_rfl

end Rules
end MirrorsCore.Lib
