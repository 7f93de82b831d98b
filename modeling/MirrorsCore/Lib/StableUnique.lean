import Mathlib

/-! First occurrences: a list cut down to the first item of each key, in order.
It is built by inserting items one at a time, and it commutes with filters and
maps that respect the key. -/

namespace MirrorsCore.Lib
variable {α β κ ι : Type*} [DecidableEq κ] [DecidableEq ι] (key : α → κ)

/-- Append an item unless its key occurs already. -/
def insertNew (items : List α) (item : α) : List α :=
  if key item ∈ items.map key then items else items ++ [item]

def insertAll (items new : List α) : List α := new.foldl (insertNew key) items

def stableUnique (items : List α) : List α := insertAll key [] items

variable {key}

@[simp] theorem insertAll_nil (items : List α) : insertAll key items [] = items := rfl

@[simp] theorem insertAll_cons (items : List α) (item : α) (new : List α) :
    insertAll key items (item :: new) = insertAll key (insertNew key items item) new := rfl

theorem insertAll_append (items new new' : List α) :
    insertAll key items (new ++ new') = insertAll key (insertAll key items new) new' :=
  List.foldl_append

theorem insertNew_of_mem {items : List α} {item : α} (h : key item ∈ items.map key) :
    insertNew key items item = items := if_pos h

theorem insertNew_of_not_mem {items : List α} {item : α} (h : key item ∉ items.map key) :
    insertNew key items item = items ++ [item] := if_neg h

theorem mem_map_insertNew {items : List α} {item : α} {k : κ} :
    k ∈ (insertNew key items item).map key ↔ k ∈ items.map key ∨ k = key item := by
  by_cases h : key item ∈ items.map key
  · rw [insertNew_of_mem h]
    exact ⟨Or.inl, fun hk => hk.elim id fun heq => heq ▸ h⟩
  · rw [insertNew_of_not_mem h, List.map_append, List.mem_append, List.map_singleton,
      List.mem_singleton]

theorem mem_map_insertAll {items new : List α} {k : κ} :
    k ∈ (insertAll key items new).map key ↔ k ∈ items.map key ∨ k ∈ new.map key := by
  induction new generalizing items with
  | nil => simp
  | cons item new ih =>
    rw [insertAll_cons, ih, mem_map_insertNew, List.map_cons, List.mem_cons, or_assoc]

theorem mem_map_stableUnique {items : List α} {k : κ} :
    k ∈ (stableUnique key items).map key ↔ k ∈ items.map key := by
  simp [stableUnique, mem_map_insertAll]

theorem nodup_insertNew {items : List α} (h : (items.map key).Nodup) (item : α) :
    ((insertNew key items item).map key).Nodup := by
  by_cases hmem : key item ∈ items.map key
  · rwa [insertNew_of_mem hmem]
  · rw [insertNew_of_not_mem hmem, List.map_append, List.map_singleton]
    exact List.nodup_append.mpr ⟨h, List.nodup_singleton _, by
      intro k hk k' hk' heq
      rw [List.mem_singleton] at hk'
      exact hmem (hk' ▸ heq ▸ hk)⟩

theorem nodup_insertAll {items : List α} (h : (items.map key).Nodup) (new : List α) :
    ((insertAll key items new).map key).Nodup := by
  induction new generalizing items with
  | nil => exact h
  | cons item new ih => exact ih (nodup_insertNew h item)

theorem nodup_stableUnique (items : List α) : ((stableUnique key items).map key).Nodup :=
  nodup_insertAll (by simp) items

theorem sublist_insertAll (items new : List α) : (insertAll key items new).Sublist (items ++ new) := by
  induction new generalizing items with
  | nil => simp
  | cons item new ih =>
    refine (ih _).trans ?_
    by_cases hmem : key item ∈ items.map key
    · rw [insertNew_of_mem hmem]
      exact (List.sublist_cons_self item new).append_left items
    · rw [insertNew_of_not_mem hmem, List.append_assoc, List.singleton_append]

theorem sublist_stableUnique (items : List α) : (stableUnique key items).Sublist items :=
  sublist_insertAll [] items

omit [DecidableEq κ] in
theorem eq_of_key_eq {items : List α} (h : (items.map key).Nodup) {x y : α} (hx : x ∈ items)
    (hy : y ∈ items) (heq : key x = key y) : x = y :=
  List.inj_on_of_nodup_map h hx hy heq

theorem mem_insertAll {items new : List α} {x : α} :
    x ∈ insertAll key items new ↔ x ∈ items ∨
      ∃ before after, new = before ++ x :: after ∧ key x ∉ items.map key ∧
        key x ∉ before.map key := by
  induction new generalizing items with
  | nil => simp
  | cons item new ih =>
    rw [insertAll_cons, ih]
    constructor
    · rintro (h | ⟨before, after, rfl, hnot, hbefore⟩)
      · by_cases hmem : key item ∈ items.map key
        · rw [insertNew_of_mem hmem] at h
          exact Or.inl h
        · rw [insertNew_of_not_mem hmem, List.mem_append, List.mem_singleton] at h
          rcases h with h | rfl
          · exact Or.inl h
          · exact Or.inr ⟨[], new, rfl, hmem, List.not_mem_nil⟩
      · rw [mem_map_insertNew, not_or] at hnot
        refine Or.inr ⟨item :: before, after, rfl, hnot.1, ?_⟩
        rw [List.map_cons, List.mem_cons, not_or]
        exact ⟨hnot.2, hbefore⟩
    · rintro (h | ⟨before, after, heq, hnot, hbefore⟩)
      · refine Or.inl ?_
        unfold insertNew
        split
        · exact h
        · exact List.mem_append_left _ h
      · cases before with
        | nil =>
          obtain ⟨rfl, rfl⟩ := List.cons.inj heq
          refine Or.inl ?_
          rw [insertNew_of_not_mem hnot]
          exact List.mem_append_right _ (List.mem_singleton.mpr rfl)
        | cons first before =>
          obtain ⟨rfl, rfl⟩ := List.cons.inj heq
          rw [List.map_cons, List.mem_cons, not_or] at hbefore
          refine Or.inr ⟨before, after, rfl, ?_, hbefore.2⟩
          rw [mem_map_insertNew, not_or]
          exact ⟨hnot, hbefore.1⟩

theorem mem_stableUnique {items : List α} {x : α} :
    x ∈ stableUnique key items ↔
      ∃ before after, items = before ++ x :: after ∧ key x ∉ before.map key := by
  rw [stableUnique, mem_insertAll]
  simp

theorem mem_stableUnique_append {items new : List α} {x : α} :
    x ∈ stableUnique key (items ++ new) ↔
      x ∈ stableUnique key items ∨ (x ∈ stableUnique key new ∧ key x ∉ items.map key) := by
  rw [stableUnique, insertAll_append, mem_insertAll]
  have hnew : x ∈ stableUnique key new ↔ _ := mem_stableUnique
  rw [hnew]
  refine or_congr Iff.rfl ⟨?_, ?_⟩
  · rintro ⟨before, after, hnew, hitems, hbefore⟩
    exact ⟨⟨before, after, hnew, hbefore⟩, fun h => hitems (mem_map_stableUnique.mpr h)⟩
  · rintro ⟨⟨before, after, hnew, hbefore⟩, hitems⟩
    exact ⟨before, after, hnew, fun h => hitems (mem_map_stableUnique.mp h), hbefore⟩

theorem insertAll_eq_append {items new : List α} (h : ((items ++ new).map key).Nodup) :
    insertAll key items new = items ++ new := by
  induction new generalizing items with
  | nil => simp
  | cons item new ih =>
    have hnot : key item ∉ items.map key := by
      rw [List.map_append, List.map_cons, List.nodup_append] at h
      exact fun hmem => h.2.2 _ hmem _ List.mem_cons_self rfl
    rw [insertAll_cons, insertNew_of_not_mem hnot, ih (by simpa using h), List.append_assoc,
      List.singleton_append]

theorem stableUnique_eq_self {items : List α} (h : (items.map key).Nodup) :
    stableUnique key items = items := by
  have hnil : (([] ++ items).map key).Nodup := h
  exact insertAll_eq_append hnil

theorem eq_of_sublist_of_mem_iff {items left right : List α} (hnodup : items.Nodup)
    (hl : left.Sublist items) (hr : right.Sublist items) (h : ∀ x, x ∈ left ↔ x ∈ right) :
    left = right := by
  induction items generalizing left right with
  | nil => rw [List.sublist_nil.mp hl, List.sublist_nil.mp hr]
  | cons a rest ih =>
    obtain ⟨ha, hrest⟩ := List.nodup_cons.mp hnodup
    rcases List.sublist_cons_iff.mp hl with hl' | ⟨left', rfl, hl'⟩ <;>
      rcases List.sublist_cons_iff.mp hr with hr' | ⟨right', rfl, hr'⟩
    · exact ih hrest hl' hr' h
    · exact absurd (hl'.subset ((h a).mpr List.mem_cons_self)) ha
    · exact absurd (hr'.subset ((h a).mp List.mem_cons_self)) ha
    · congr 1
      refine ih hrest hl' hr' fun x => ?_
      have hx := h x
      rw [List.mem_cons, List.mem_cons] at hx
      constructor
      · intro hin
        rcases hx.mp (Or.inr hin) with rfl | hmem
        · exact absurd (hl'.subset hin) ha
        · exact hmem
      · intro hin
        rcases hx.mpr (Or.inr hin) with rfl | hmem
        · exact absurd (hr'.subset hin) ha
        · exact hmem

end MirrorsCore.Lib
