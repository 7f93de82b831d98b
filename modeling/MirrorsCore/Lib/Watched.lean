import Mathlib
import MirrorsCore.Lib.BoundedLoop

/-! Watched runs. A watched computation does what the plain one does, but may
fail where the plain one goes on. Both emit items; the watched run is the plain
run exactly when the plain run emits good items only. -/

namespace MirrorsCore.Lib

/-- Where `m'` does not fail it is `m`, and `good`; where `m` does not fail and is
`good`, `m'` is `m`. -/
structure Lockstep {σ α : Type} (failed : σ → Prop) (good : Prop) (s : σ) (m m' : StateM σ α) :
    Prop where
  sound : ¬ failed (after m' s) → m'.run s = m.run s ∧ good
  complete : ¬ failed (after m s) → good → m'.run s = m.run s

namespace Lockstep
variable {σ α β : Type} {failed : σ → Prop} {good good' : Prop} {s : σ} {m m' : StateM σ α}

theorem self (h : ¬ failed (after m s) → good) : Lockstep failed good s m m :=
  ⟨fun hclean => ⟨rfl, h hclean⟩, fun _ _ => rfl⟩

/-- Along runs that have not failed, `good` may be read as `good'`. -/
theorem convert (h : Lockstep failed good s m m')
    (hiff : ¬ failed (after m s) → (good ↔ good')) : Lockstep failed good' s m m' := by
  refine ⟨fun hclean => ?_, fun hclean hgood => h.complete hclean ((hiff hclean).2 hgood)⟩
  obtain ⟨hrun, hgood⟩ := h.sound hclean
  have hafter : after m' s = after m s := congrArg Prod.snd hrun
  exact ⟨hrun, (hiff (hafter ▸ hclean)).1 hgood⟩

theorem bind {f f' : α → StateM σ β} (h : Lockstep failed good s m m')
    (hf : Lockstep failed good' (after m s) (f (value m s)) (f' (value m s)))
    (hkept : failed (after m s) → failed (after (m >>= f) s))
    (hkept' : failed (after m' s) → failed (after (m' >>= f') s)) :
    Lockstep failed (good ∧ good') s (m >>= f) (m' >>= f') := by
  have hrest (hrun : m'.run s = m.run s)
      (hrest : (f' (value m s)).run (after m s) = (f (value m s)).run (after m s)) :
      (m' >>= f').run s = (m >>= f).run s := by
    have hvalue : value m' s = value m s := congrArg Prod.fst hrun
    have hafter : after m' s = after m s := congrArg Prod.snd hrun
    rw [run_bind, run_bind, hvalue, hafter, hrest]
  constructor
  · intro hclean
    obtain ⟨hrun, hgood⟩ := h.sound fun hfailed => hclean (hkept' hfailed)
    have hvalue : value m' s = value m s := congrArg Prod.fst hrun
    have hafter : after m' s = after m s := congrArg Prod.snd hrun
    rw [after_bind, hvalue, hafter] at hclean
    obtain ⟨hrun', hgood'⟩ := hf.sound hclean
    exact ⟨hrest hrun hrun', hgood, hgood'⟩
  · rintro hclean ⟨hgood, hgood'⟩
    exact hrest (h.complete (fun hfailed => hclean (hkept hfailed)) hgood)
      (hf.complete hclean hgood')

theorem afterStep {first : StateM σ β} (h : Lockstep failed good (after first s) m m') :
    Lockstep failed good s (first >>= fun _ => m) (first >>= fun _ => m') :=
  ⟨h.sound, h.complete⟩

theorem congr {n n' : StateM σ α} (h : Lockstep failed good s n n') (hm : m.run s = n.run s)
    (hm' : m'.run s = n'.run s) : Lockstep failed good s m m' := by
  have hafter : after m s = after n s := congrArg Prod.snd hm
  have hafter' : after m' s = after n' s := congrArg Prod.snd hm'
  constructor
  · rw [hafter', hm, hm']
    exact h.sound
  · rw [hafter, hm, hm']
    exact h.complete

theorem beforeStep (h : Lockstep failed good s m m') {last : α → StateM σ β}
    (hlast : ∀ a t, failed (after (last a) t) ↔ failed t) :
    Lockstep failed good s (m >>= last) (m' >>= last) := by
  constructor
  · intro hclean
    obtain ⟨hrun, hgood⟩ := h.sound fun hfailed => hclean ((hlast _ _).2 hfailed)
    refine ⟨?_, hgood⟩
    rw [StateT.run_bind, StateT.run_bind, hrun]
  · intro hclean hgood
    have hrun := h.complete (fun hfailed => hclean ((hlast _ _).2 hfailed)) hgood
    rw [StateT.run_bind, StateT.run_bind, hrun]

end Lockstep

/-- What a pair of runs is watched for: the states it is about, what a run
emits between two states, and when a state has failed. -/
structure Monitor (σ ι : Type) where
  inv : σ → Prop
  emits : List ι → σ → σ → Prop
  failed : σ → Prop
  good : List ι → Prop
  emits_nil : ∀ s, emits [] s s
  emits_append : ∀ {xs ys s t u}, emits xs s t → emits ys t u → emits (xs ++ ys) s u
  inv_of_emits : ∀ {xs s t}, emits xs s t → inv s → inv t
  failed_of_emits : ∀ {xs s t}, emits xs s t → failed s → failed t
  good_nil : good []
  good_append : ∀ {xs ys}, good (xs ++ ys) ↔ good xs ∧ good ys

/-- How a run may end after it has emitted items. -/
structure Ending {σ ι : Type} (M : Monitor σ ι) where
  ends : List ι → σ → σ → Prop
  prepend : ∀ {xs ys s t u}, M.emits xs s t → ends ys t u → ends (xs ++ ys) s u
  failed_of_ends : ∀ {xs s t}, ends xs s t → M.failed s → M.failed t

namespace Monitor
variable {σ ι α β : Type} {M : Monitor σ ι} {E : Ending M} {s t u : σ}

/-- A run that may be followed by another one. -/
def plain (M : Monitor σ ι) : Ending M where
  ends := M.emits
  prepend := M.emits_append
  failed_of_ends := M.failed_of_emits

/-- The items of a run that has not failed have a shape. -/
def shaped (M : Monitor σ ι) (shape : List ι → Prop) (hnil : shape [])
    (happend : ∀ {xs ys}, shape xs → shape ys → shape (xs ++ ys)) : Monitor σ ι where
  inv := M.inv
  emits xs s t := M.emits xs s t ∧ (¬ M.failed t → shape xs)
  failed := M.failed
  good := M.good
  emits_nil s := ⟨M.emits_nil s, fun _ => hnil⟩
  emits_append := by
    rintro xs ys s t u ⟨hxs, hshape⟩ ⟨hys, hshape'⟩
    refine ⟨M.emits_append hxs hys, fun hu => ?_⟩
    exact happend (hshape fun ht => hu (M.failed_of_emits hys ht)) (hshape' hu)
  inv_of_emits h := M.inv_of_emits h.1
  failed_of_emits h := M.failed_of_emits h.1
  good_nil := M.good_nil
  good_append := M.good_append

def Later (M : Monitor σ ι) (s t : σ) : Prop := ∃ xs, M.emits xs s t

theorem Later.refl (s : σ) : M.Later s s := ⟨[], M.emits_nil s⟩

theorem Later.trans (hst : M.Later s t) (htu : M.Later t u) : M.Later s u := by
  obtain ⟨xs, hxs⟩ := hst
  obtain ⟨ys, hys⟩ := htu
  exact ⟨xs ++ ys, M.emits_append hxs hys⟩

theorem Later.inv (h : M.Later s t) (hs : M.inv s) : M.inv t := by
  obtain ⟨xs, hxs⟩ := h
  exact M.inv_of_emits hxs hs

/-- `m'` watches `m` from `s`; both end with `E` and in `Q`. -/
structure Watched (E : Ending M) (s : σ) (m m' : StateM σ α) (Q : α → σ → Prop)
    (xs ys : List ι) : Prop where
  ends : E.ends xs s (after m s)
  ends' : E.ends ys s (after m' s)
  post : Q (value m s) (after m s)
  post' : Q (value m' s) (after m' s)
  lockstep : Lockstep M.failed (M.good xs) s m m'

def WatchTo (E : Ending M) (s : σ) (m m' : StateM σ α) (Q : α → σ → Prop) : Prop :=
  ∃ xs ys, Watched E s m m' Q xs ys

abbrev Watch (M : Monitor σ ι) (s : σ) (m m' : StateM σ α) (Q : α → σ → Prop) : Prop :=
  WatchTo M.plain s m m' Q

/-- Watched from every state that the monitor is about. -/
def Watches (M : Monitor σ ι) (m m' : StateM σ α) : Prop :=
  ∀ s, M.inv s → M.Watch s m m' fun _ _ => True

theorem Watch.later {m m' : StateM σ α} {Q : α → σ → Prop} (h : M.Watch s m m' Q) :
    M.Later s (after m s) := by
  obtain ⟨xs, ys, hw⟩ := h
  exact ⟨xs, hw.ends⟩

theorem WatchTo.mono {m m' : StateM σ α} {Q R : α → σ → Prop} (h : WatchTo E s m m' Q)
    (hQR : ∀ a t, Q a t → R a t) : WatchTo E s m m' R := by
  obtain ⟨xs, ys, hw⟩ := h
  exact ⟨xs, ys, hw.ends, hw.ends', hQR _ _ hw.post, hQR _ _ hw.post', hw.lockstep⟩

theorem Watch.forward {m m' : StateM σ α} {Q : α → σ → Prop} (h : M.Watch s m m' Q) :
    M.Watch s m m' fun _ t => M.Later s t := by
  obtain ⟨xs, ys, hw⟩ := h
  exact ⟨xs, ys, hw.ends, hw.ends', ⟨xs, hw.ends⟩, ⟨ys, hw.ends'⟩, hw.lockstep⟩

/-- A computation that emits good items, or fails, watches itself. -/
theorem watch_self {m : StateM σ α} {Q : α → σ → Prop} (xs : List ι)
    (hends : E.ends xs s (after m s)) (hgood : ¬ M.failed (after m s) → M.good xs)
    (hQ : Q (value m s) (after m s)) : WatchTo E s m m Q :=
  ⟨xs, xs, hends, hends, hQ, hQ, Lockstep.self hgood⟩

theorem watch_silent {m : StateM σ α} {Q : α → σ → Prop} (hends : E.ends [] s (after m s))
    (hQ : Q (value m s) (after m s)) : WatchTo E s m m Q :=
  watch_self [] hends (fun _ => M.good_nil) hQ

theorem watch_pure {a : α} {Q : α → σ → Prop} (hQ : Q a s) :
    M.Watch s (pure a) (pure a) Q := watch_silent (E := M.plain) (M.emits_nil s) hQ

theorem watches_pure (a : α) : M.Watches (pure a) (pure a) := fun _ _ => watch_pure trivial

theorem WatchTo.bind {m m' : StateM σ α} {f f' : α → StateM σ β} {Q : α → σ → Prop}
    {R : β → σ → Prop} (hm : M.Watch s m m' Q)
    (hf : ∀ a t, M.Later s t → Q a t → WatchTo E t (f a) (f' a) R) :
    WatchTo E s (m >>= f) (m' >>= f') R := by
  obtain ⟨xs, xs', hx⟩ := hm
  obtain ⟨ys, ys', hy⟩ := hf _ _ ⟨xs, hx.ends⟩ hx.post
  obtain ⟨zs, zs', hz⟩ := hf _ _ ⟨xs', hx.ends'⟩ hx.post'
  refine ⟨xs ++ ys, xs' ++ zs', E.prepend hx.ends hy.ends, E.prepend hx.ends' hz.ends',
    hy.post, hz.post', ?_⟩
  exact (hx.lockstep.bind hy.lockstep (E.failed_of_ends hy.ends)
    (E.failed_of_ends hz.ends')).convert fun _ => M.good_append.symm

theorem WatchTo.reads {m : StateM σ α} {f f' : α → StateM σ β} {R : β → σ → Prop}
    (hm : Reads m) (hf : ∀ a, a = value m s → WatchTo E s (f a) (f' a) R) :
    WatchTo E s (m >>= f) (m >>= f') R := by
  refine WatchTo.bind (Q := fun a t => a = value m s ∧ t = s) (watch_silent ?_ ⟨rfl, hm s⟩) ?_
  · rw [hm s]
    exact M.emits_nil s
  · rintro a t - ⟨ha, rfl⟩
    exact hf a ha

theorem WatchTo.ite {c : Prop} [Decidable c] {m m' n n' : StateM σ α} {Q : α → σ → Prop}
    (hm : c → WatchTo E s m m' Q) (hn : ¬ c → WatchTo E s n n' Q) :
    WatchTo E s (if c then m else n) (if c then m' else n') Q := by
  by_cases hc : c
  · rw [if_pos hc, if_pos hc]
    exact hm hc
  · rw [if_neg hc, if_neg hc]
    exact hn hc

theorem Watches.andThen {m m' : StateM σ α} {f f' : α → StateM σ β} {R : β → σ → Prop}
    (hm : M.Watches m m') (hs : M.inv s)
    (hf : ∀ a t, M.Later s t → M.inv t → WatchTo E t (f a) (f' a) R) :
    WatchTo E s (m >>= f) (m' >>= f') R :=
  (hm s hs).bind fun a t hst _ => hf a t hst (hst.inv hs)

theorem Watches.bind {m m' : StateM σ α} {f f' : α → StateM σ β} (hm : M.Watches m m')
    (hf : ∀ a, M.Watches (f a) (f' a)) : M.Watches (m >>= f) (m' >>= f') := fun _ hs =>
  hm.andThen hs fun a t _ ht => hf a t ht

theorem Watches.ite {c : Prop} [Decidable c] {m m' n n' : StateM σ α} (hm : M.Watches m m')
    (hn : M.Watches n n') : M.Watches (if c then m else n) (if c then m' else n') :=
  fun s hs => WatchTo.ite (fun _ => hm s hs) fun _ => hn s hs

/-! ### Loops -/

/-- A round lowers the variant when it goes on, and ends in `R` otherwise. -/
def Round (μ : σ → Nat) (s : σ) (R : β → σ → Prop) (r : ForInStep β) (t : σ) : Prop :=
  (goesOn r = true → μ t < μ s) ∧ ∀ b, r = .done b → R b t

theorem round_done {μ : σ → Nat} {R : β → σ → Prop} {b : β} (h : R b t) :
    Round μ s R (.done b) t := by
  refine ⟨fun hgo => ?_, fun c hc => ?_⟩
  · rw [goesOn_done] at hgo
    exact absurd hgo Bool.false_ne_true
  · obtain rfl := ForInStep.done.inj hc
    exact h

theorem round_yield {μ : σ → Nat} {R : β → σ → Prop} {b : β} (h : μ t < μ s) :
    Round μ s R (.yield b) t := ⟨fun _ => h, nofun⟩

/-- Every round of `body'` watches the round of `body`. -/
def WatchesLoop (M : Monitor σ ι) (μ : σ → Nat) (body body' : β → StateM σ (ForInStep β))
    (R : β → σ → Prop) : Prop :=
  ∀ b s, M.inv s → M.Watch s (body b) (body' b) (Round μ s R)

section Loop
variable {μ : σ → Nat} {body body' : β → StateM σ (ForInStep β)} {R : β → σ → Prop}

theorem WatchesLoop.rounds (h : M.WatchesLoop μ body body' R) {n : Nat} (b : β) (hs : M.inv s)
    (hn : μ s < n) : M.Watch s (rounds body n b) (rounds body' n b) R := by
  induction n generalizing b s with
  | zero => exact absurd hn (Nat.not_lt_zero _)
  | succ n ih =>
    refine (h b s hs).bind fun r t hst hr => ?_
    cases r with
    | done c => exact watch_pure (hr.2 c rfl)
    | yield c =>
      have hlt : μ t < μ s := hr.1 rfl
      exact ih c (hst.inv hs) (by omega)

theorem WatchesLoop.loop (h : M.WatchesLoop μ body body' R) (b : β) (hs : M.inv s) :
    M.Watch s (boundedLoop μ body b) (boundedLoop μ body' b) R :=
  WatchTo.reads (fun _ => rfl) fun n hn => by
    rw [hn]
    exact h.rounds b hs (Nat.lt_succ_self _)

theorem WatchesLoop.watches (h : M.WatchesLoop μ body body' R) (b : β) :
    M.Watches (boundedLoop μ body b) (boundedLoop μ body' b) := fun _ hs =>
  (h.loop b hs).mono fun _ _ _ => trivial

theorem WatchesLoop.productive (h : M.WatchesLoop μ body body' R) :
    Productive M.inv μ body := by
  intro b s hs hgo
  obtain ⟨xs, ys, hw⟩ := h b s hs
  exact ⟨M.inv_of_emits hw.ends hs, hw.post.1 hgo⟩

end Loop
end Monitor
end MirrorsCore.Lib
