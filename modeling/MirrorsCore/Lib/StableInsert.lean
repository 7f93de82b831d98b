import Mathlib

/-! Insertion into an ordered list, behind everything the element does not belong
before. Elements that the order does not tell apart keep their order, so the list
is a stable sort of what was inserted. -/

namespace MirrorsCore.Lib
variable {α : Type}

def Ordered (before : α → α → Prop) (xs : List α) : Prop :=
  xs.Pairwise fun a b => ¬ before b a

/-- Elements inserted one after the other. -/
def insertEach (before : α → α → Prop) [DecidableRel before] (xs : List α) : List α :=
  xs.foldl (fun ordered x => ordered.orderedInsert before x) []

section Insertion
variable {before : α → α → Prop} [DecidableRel before] {a : α} {xs : List α} {p : α → Bool}

theorem ordered_orderedInsert [IsStrictOrder α before] (h : Ordered before xs) :
    Ordered before (xs.orderedInsert before a) := by
  induction xs with
  | nil => exact List.pairwise_singleton _ _
  | cons b xs ih =>
    obtain ⟨hb, hxs⟩ := List.pairwise_cons.1 h
    rw [List.orderedInsert_cons]
    split_ifs with hbefore
    · refine List.pairwise_cons.2 ⟨fun c hc hafter => ?_, h⟩
      rcases List.mem_cons.1 hc with rfl | hc
      · exact asymm_of before hbefore hafter
      · exact hb c hc (trans_of before hafter hbefore)
    · refine List.pairwise_cons.2 ⟨fun c hc => ?_, ih hxs⟩
      rcases (List.mem_orderedInsert before).1 hc with rfl | hc
      · exact hbefore
      · exact hb c hc

theorem filter_orderedInsert [IsStrictOrder α before] (h : Ordered before xs)
    (hp : ∀ a b x, p a = true → p b = true → (before a x ↔ before b x)) :
    (xs.orderedInsert before a).filter p = xs.filter p ++ [a].filter p := by
  induction xs with
  | nil => rfl
  | cons b xs ih =>
    obtain ⟨hb, hxs⟩ := List.pairwise_cons.1 h
    rw [List.orderedInsert_cons]
    by_cases hbefore : before a b
    · rw [if_pos hbefore, ← List.singleton_append, List.filter_append]
      by_cases ha : p a = true
      · -- Nothing behind `a` is like `a`.
        have hnone : (b :: xs).filter p = [] := by
          refine List.filter_eq_nil_iff.2 fun c hc hpc => ?_
          have hcb : before c b := (hp a c b ha hpc).1 hbefore
          rcases List.mem_cons.1 hc with rfl | hc
          · exact irrefl_of before c hcb
          · exact hb c hc hcb
        rw [hnone, List.append_nil, List.nil_append]
      · have hnone : [a].filter p = [] := List.filter_eq_nil_iff.2 fun c hc => by
          rw [List.mem_singleton.1 hc]
          exact ha
        rw [hnone, List.nil_append, List.append_nil]
    · rw [if_neg hbefore, List.filter_cons, List.filter_cons, ih hxs]
      split <;> rfl

theorem ordered_insertEach (before : α → α → Prop) [DecidableRel before]
    [IsStrictOrder α before] (xs : List α) :
    Ordered before (insertEach before xs) := by
  induction xs using List.reverseRecOn with
  | nil => exact List.Pairwise.nil
  | append_singleton xs x ih =>
    unfold insertEach
    rw [List.foldl_append]
    exact ordered_orderedInsert ih

theorem mem_insertEach {x : α} : x ∈ insertEach before xs ↔ x ∈ xs := by
  induction xs using List.reverseRecOn with
  | nil => rfl
  | append_singleton xs y ih =>
    unfold insertEach at ih ⊢
    rw [List.foldl_append, List.foldl_cons, List.foldl_nil, List.mem_orderedInsert, ih,
      List.mem_append, List.mem_singleton, or_comm]

/-- Elements that the order does not tell apart keep their order. -/
theorem filter_insertEach [IsStrictOrder α before]
    (hp : ∀ a b x, p a = true → p b = true → (before a x ↔ before b x)) (xs : List α) :
    (insertEach before xs).filter p = xs.filter p := by
  induction xs using List.reverseRecOn with
  | nil => rfl
  | append_singleton xs x ih =>
    have hordered := ordered_insertEach before xs
    unfold insertEach at ih hordered ⊢
    rw [List.foldl_append, List.foldl_cons, List.foldl_nil, filter_orderedInsert hordered hp, ih,
      List.filter_append]

end Insertion
end MirrorsCore.Lib
