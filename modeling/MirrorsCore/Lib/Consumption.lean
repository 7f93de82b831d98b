import Mathlib

/-! Stateful computations measured by what they leave of their state: how much a
step at least consumes, and when two computations agree on all states up to a
size. Both compose along binds. -/

namespace MirrorsCore.Lib
variable {σ ε α β : Type} {size : σ → Nat}

/-- Every success of `p` leaves a state at least `n` smaller. -/
def Consumes (size : σ → Nat) (n : Nat) (p : StateT σ (Except ε) α) : Prop :=
  ∀ s a s', p s = .ok (a, s') → size s' + n ≤ size s

/-- `p` and `q` give one result from every state of size at most `r`. -/
def AgreeUpTo (size : σ → Nat) (r : Nat) (p q : StateT σ (Except ε) α) : Prop :=
  ∀ s, size s ≤ r → p s = q s

theorem stateT_bind_eq_ok {p : StateT σ (Except ε) α} {f : α → StateT σ (Except ε) β} {s s' : σ}
    {b : β} : (p >>= f) s = .ok (b, s') ↔ ∃ a t, p s = .ok (a, t) ∧ f a t = .ok (b, s') := by
  simp only [Bind.bind, StateT.bind, Except.bind]
  cases p s with
  | error e => simp
  | ok r =>
    obtain ⟨a, t⟩ := r
    simp

theorem Consumes.mono {n m : Nat} {p : StateT σ (Except ε) α} (h : Consumes size n p)
    (hm : m ≤ n) : Consumes size m p := fun s a s' hp => by
  have := h s a s' hp
  omega

theorem Consumes.pure (a : α) : Consumes size 0 (pure a : StateT σ (Except ε) α) := by
  intro s b s' h
  cases h
  exact Nat.le_refl _

theorem Consumes.bind {n m : Nat} {p : StateT σ (Except ε) α} {f : α → StateT σ (Except ε) β}
    (hp : Consumes size n p) (hf : ∀ a, Consumes size m (f a)) :
    Consumes size (n + m) (p >>= f) := by
  intro s b s' h
  obtain ⟨a, t, hpa, hfa⟩ := stateT_bind_eq_ok.mp h
  have h₁ := hp s a t hpa
  have h₂ := hf a t b s' hfa
  omega

theorem Consumes.bind_left {n : Nat} {p : StateT σ (Except ε) α}
    {f : α → StateT σ (Except ε) β} (hp : Consumes size n p) (hf : ∀ a, Consumes size 0 (f a)) :
    Consumes size n (p >>= f) := hp.bind hf

theorem Consumes.ite {n : Nat} {c : Prop} [Decidable c] {p q : StateT σ (Except ε) α}
    (hp : Consumes size n p) (hq : Consumes size n q) :
    Consumes size n (if c then p else q) := by
  split
  · exact hp
  · exact hq

theorem AgreeUpTo.refl (r : Nat) (p : StateT σ (Except ε) α) : AgreeUpTo size r p p :=
  fun _ _ => rfl

theorem AgreeUpTo.mono {r r' : Nat} {p q : StateT σ (Except ε) α} (h : AgreeUpTo size r p q)
    (hr : r' ≤ r) : AgreeUpTo size r' p q := fun s hs => h s (Nat.le_trans hs hr)

/-- Agreement after a first part that consumes `n` is needed up to `r - n` only,
and not at all when no state is that large. -/
theorem AgreeUpTo.bind {n r : Nat} {p q : StateT σ (Except ε) α}
    {f g : α → StateT σ (Except ε) β} (hpq : AgreeUpTo size r p q) (hp : Consumes size n p)
    (hfg : n ≤ r → ∀ a, AgreeUpTo size (r - n) (f a) (g a)) :
    AgreeUpTo size r (p >>= f) (q >>= g) := by
  intro s hs
  simp only [Bind.bind, StateT.bind, ← hpq s hs]
  cases hps : p s with
  | error e => rfl
  | ok result =>
    obtain ⟨a, t⟩ := result
    have := hp s a t hps
    exact hfg (by omega) a t (by omega)

theorem AgreeUpTo.ite {r : Nat} {c : Prop} [Decidable c] {p p' q q' : StateT σ (Except ε) α}
    (hp : AgreeUpTo size r p p') (hq : AgreeUpTo size r q q') :
    AgreeUpTo size r (if c then p else q) (if c then p' else q') := by
  split
  · exact hp
  · exact hq

end MirrorsCore.Lib
