import Mathlib
import MirrorsCore.Lib.StateSteps

/-! Loops with a variant. A bounded loop makes at most as many rounds as the
variant of its first state allows; when every round that goes on lowers the
variant, it is the unbounded loop. -/

namespace MirrorsCore.Lib
variable {σ β : Type}

/-- What follows a round: the end of the loop, or the loop again. -/
def proceed (again : β → StateM σ β) : ForInStep β → StateM σ β
  | .done b => pure b
  | .yield b => again b

def rounds (body : β → StateM σ (ForInStep β)) : Nat → β → StateM σ β
  | 0, b => pure b
  | n + 1, b => body b >>= proceed (rounds body n)

/-- The loop `body`, cut off by the variant `μ` of the first state. -/
def boundedLoop (μ : σ → Nat) (body : β → StateM σ (ForInStep β)) (b : β) : StateM σ β := do
  let s ← get
  rounds body (μ s + 1) b

/-- How the unbounded loop of the standard library reads a round. -/
def turn : ForInStep β → β ⊕ β
  | .done b => .inr b
  | .yield b => .inl b

def goesOn : ForInStep β → Bool
  | .done _ => false
  | .yield _ => true

@[simp] theorem goesOn_done (b : β) : goesOn (.done b) = false := rfl

@[simp] theorem goesOn_yield (b : β) : goesOn (.yield b) = true := rfl

/-- Along `inv`, every round that goes on lowers the variant and keeps `inv`. -/
def Productive (inv : σ → Prop) (μ : σ → Nat) (body : β → StateM σ (ForInStep β)) : Prop :=
  ∀ b s, inv s → goesOn (value (body b) s) = true →
    inv (after (body b) s) ∧ μ (after (body b) s) < μ s

section Productive
variable {inv : σ → Prop} {μ : σ → Nat} {body : β → StateM σ (ForInStep β)}

theorem run_rounds_succ (n : Nat) (b : β) (s : σ) :
    (rounds body (n + 1) b).run s =
      (proceed (rounds body n) (value (body b) s)).run (after (body b) s) := rfl

theorem rounds_eq_of_lt (h : Productive inv μ body) {m n : Nat} (b : β) {s : σ} (hs : inv s)
    (hm : μ s < m) (hn : μ s < n) : (rounds body m b).run s = (rounds body n b).run s := by
  induction m generalizing n b s with
  | zero => exact absurd hm (Nat.not_lt_zero _)
  | succ m ih =>
    obtain ⟨n, rfl⟩ : ∃ k, n = k + 1 := ⟨n - 1, by omega⟩
    rw [run_rounds_succ, run_rounds_succ]
    have hgo := h b s hs
    cases hv : value (body b) s with
    | done c => rfl
    | yield c =>
      rw [hv] at hgo
      obtain ⟨hinv, hlt⟩ := hgo rfl
      exact ih c hinv (by omega) (by omega)

theorem run_boundedLoop (h : Productive inv μ body) (b : β) {s : σ} (hs : inv s) :
    (boundedLoop μ body b).run s =
      (proceed (boundedLoop μ body) (value (body b) s)).run (after (body b) s) := by
  change (rounds body (μ s + 1) b).run s = _
  rw [run_rounds_succ]
  have hgo := h b s hs
  cases hv : value (body b) s with
  | done c => rfl
  | yield c =>
    rw [hv] at hgo
    obtain ⟨hinv, hlt⟩ := hgo rfl
    exact rounds_eq_of_lt h c hinv hlt (Nat.lt_succ_self _)

/-- The bounded loop is the unbounded one. -/
theorem boundedLoop_eq_repeatM [Nonempty β] (h : Productive inv μ body) (b : β) {s : σ}
    (hs : inv s) :
    (boundedLoop μ body b).run s = (repeatM (fun c => turn <$> body c) b).run s := by
  have hσ : Nonempty σ := ⟨s⟩
  induction hn : μ s using Nat.strong_induction_on generalizing b s with
  | _ n ih =>
    rw [run_boundedLoop h b hs, repeatM_eq_of_monadTail]
    have hvalue : value (turn <$> body b) s = turn (value (body b) s) := rfl
    have hafter : after (turn <$> body b) s = after (body b) s := rfl
    have hgo := h b s hs
    unfold repeatM.body
    rw [run_bind, hvalue, hafter]
    cases hv : value (body b) s with
    | done c => rfl
    | yield c =>
      rw [hv] at hgo
      obtain ⟨hinv, hlt⟩ := hgo rfl
      exact ih _ (hn ▸ hlt) c hinv rfl

end Productive
end MirrorsCore.Lib
