import Mathlib

/-! Runs of state computations: the state after a run, relations that every run
follows, and loop invariants for runs that end well. "Ending well" is a property
of states that a run cannot regain once it is lost. -/

namespace MirrorsCore.Lib
variable {σ α β ι : Type}

def value (m : StateM σ α) (s : σ) : α := (m.run s).1

def after (m : StateM σ α) (s : σ) : σ := (m.run s).2

@[simp] theorem value_pure (a : α) (s : σ) : value (pure a : StateM σ α) s = a := rfl

@[simp] theorem after_pure (a : α) (s : σ) : after (pure a : StateM σ α) s = s := rfl

@[simp] theorem value_get (s : σ) : value (get : StateM σ σ) s = s := rfl

@[simp] theorem after_get (s : σ) : after (get : StateM σ σ) s = s := rfl

@[simp] theorem after_set (t s : σ) : after (set t : StateM σ PUnit) s = t := rfl

@[simp] theorem value_bind (m : StateM σ α) (f : α → StateM σ β) (s : σ) :
    value (m >>= f) s = value (f (value m s)) (after m s) := rfl

@[simp] theorem after_bind (m : StateM σ α) (f : α → StateM σ β) (s : σ) :
    after (m >>= f) s = after (f (value m s)) (after m s) := rfl

theorem run_bind (m : StateM σ α) (f : α → StateM σ β) (s : σ) :
    (m >>= f).run s = (f (value m s)).run (after m s) := rfl

theorem run_bind_of {m : StateM σ α} {s t : σ} {a : α} (h : m.run s = (a, t))
    (f : α → StateM σ β) : (m >>= f).run s = (f a).run t := by
  rw [run_bind, value, after, h]

/-- `m` leaves every state as it is. -/
def Reads (m : StateM σ α) : Prop := ∀ s, after m s = s

theorem reads_pure (a : α) : Reads (pure a : StateM σ α) := fun _ => rfl

theorem Reads.bind {m : StateM σ α} {f : α → StateM σ β} (hm : Reads m) (hf : ∀ a, Reads (f a)) :
    Reads (m >>= f) := fun s => by
  rw [after_bind, hm s, hf]

theorem Reads.run_bind {m : StateM σ α} (hm : Reads m) (f : α → StateM σ β) (s : σ) :
    (m >>= f).run s = (f (value m s)).run s := by
  rw [Lib.run_bind, hm s]

theorem Reads.after_bind {m : StateM σ α} (hm : Reads m) (f : α → StateM σ β) (s : σ) :
    after (m >>= f) s = after (f (value m s)) s := by
  rw [Lib.after_bind, hm s]

/-- Every run of `m` takes the state along `R`. -/
def Steps (R : σ → σ → Prop) (m : StateM σ α) : Prop := ∀ s, R s (after m s)

/-- Along `R`, what is ok was ok before. -/
def Backward (R : σ → σ → Prop) (ok : σ → Prop) : Prop := ∀ ⦃s t⦄, R s t → ok t → ok s

theorem steps_get_bind {R : σ → σ → Prop} {f : σ → StateM σ β} (hf : ∀ s, R s (after (f s) s)) :
    Steps R (get >>= f) := hf

section Preorder
variable {R : σ → σ → Prop} [IsPreorder σ R]

theorem steps_pure (a : α) : Steps R (pure a : StateM σ α) := fun s => refl_of R s

theorem steps_get : Steps R (get : StateM σ σ) := fun s => refl_of R s

theorem Steps.bind {m : StateM σ α} {f : α → StateM σ β} (hm : Steps R m)
    (hf : ∀ a, Steps R (f a)) : Steps R (m >>= f) := fun s =>
  trans_of R (hm s) (hf (value m s) (after m s))

theorem steps_foldlM {f : β → ι → StateM σ β} {xs : List ι}
    (hf : ∀ b, ∀ x ∈ xs, Steps R (f b x)) (b : β) : Steps R (xs.foldlM f b) := by
  induction xs generalizing b with
  | nil => exact steps_pure b
  | cons x xs ih =>
    rw [List.foldlM_cons]
    have hrest : ∀ b, ∀ y ∈ xs, Steps R (f b y) := fun b y hy =>
      hf b y (List.mem_cons_of_mem _ hy)
    exact (hf b x List.mem_cons_self).bind fun b => ih hrest b

theorem steps_forM {f : ι → StateM σ PUnit} {xs : List ι} (hf : ∀ x ∈ xs, Steps R (f x)) :
    Steps R (xs.forM f) := by
  induction xs with
  | nil => exact steps_pure _
  | cons x xs ih =>
    rw [List.forM_eq_forM, List.forM_cons]
    exact (hf x List.mem_cons_self).bind fun _ => ih fun y hy => hf y (List.mem_cons_of_mem _ hy)

end Preorder

section Invariant
variable {R : σ → σ → Prop} [IsPreorder σ R] {ok : σ → Prop}

/-- An invariant of the processed prefix holds after a loop that ends well. -/
theorem foldlM_invariant (hok : Backward R ok) {f : β → ι → StateM σ β}
    {xs : List ι} (hf : ∀ b, ∀ x ∈ xs, Steps R (f b x)) {I : List ι → β → σ → Prop}
    (hstep : ∀ done, ∀ x ∈ xs, ∀ b s, I done b s → ok (after (f b x) s) →
      I (done ++ [x]) (value (f b x) s) (after (f b x) s))
    (done : List ι) {b : β} {s : σ} (hI : I done b s) (h : ok (after (xs.foldlM f b) s)) :
    I (done ++ xs) (value (xs.foldlM f b) s) (after (xs.foldlM f b) s) := by
  induction xs generalizing done b s with
  | nil => simpa using hI
  | cons x xs ih =>
    rw [List.foldlM_cons, after_bind] at h
    have hrest : ∀ b, ∀ y ∈ xs, Steps R (f b y) := fun b y hy =>
      hf b y (List.mem_cons_of_mem _ hy)
    have hfirst : ok (after (f b x) s) := hok (steps_foldlM hrest _ _) h
    have hnext := hstep done x List.mem_cons_self b s hI hfirst
    have hlast := ih hrest (fun done y hy => hstep done y (List.mem_cons_of_mem _ hy)) _ hnext h
    rwa [List.append_assoc] at hlast

theorem forM_invariant (hok : Backward R ok) {f : ι → StateM σ PUnit}
    {xs : List ι} (hf : ∀ x ∈ xs, Steps R (f x)) {I : List ι → σ → Prop}
    (hstep : ∀ done, ∀ x ∈ xs, ∀ s, I done s → ok (after (f x) s) →
      I (done ++ [x]) (after (f x) s))
    (done : List ι) {s : σ} (hI : I done s) (h : ok (after (xs.forM f) s)) :
    I (done ++ xs) (after (xs.forM f) s) := by
  induction xs generalizing done s with
  | nil => simpa using hI
  | cons x xs ih =>
    rw [List.forM_eq_forM, List.forM_cons, after_bind] at h ⊢
    have hrest : ∀ y ∈ xs, Steps R (f y) := fun y hy => hf y (List.mem_cons_of_mem _ hy)
    have hfirst : ok (after (f x) s) := hok (steps_forM hrest _) h
    have hnext := hstep done x List.mem_cons_self s hI hfirst
    have hlast := ih hrest (fun done y hy => hstep done y (List.mem_cons_of_mem _ hy)) _ hnext h
    rwa [List.append_assoc] at hlast

end Invariant
end MirrorsCore.Lib
