import Mathlib

/-! Demands on one unknown value: an exact value, a finite choice, or a lower
bound under a partial map into a linear order. Compatible pairs have a common
value; longer families need not, and `exists_common_iff` says exactly when. -/

namespace MirrorsCore.Lib

inductive Demand (α : Type*) where
  | equals (value : α)
  | oneOf (values : List α)
  | atLeast (minimum : α)

namespace Demand
variable {α β : Type*} [LinearOrder β] (version : α → Option β)

/-- `a` has a version at or above the version of `minimum`. -/
def Reaches (a minimum : α) : Prop :=
  ∃ v w, version a = some v ∧ version minimum = some w ∧ w ≤ v

def Allows : Demand α → α → Prop
  | equals b, a => a = b
  | oneOf bs, a => a ∈ bs
  | atLeast b, a => Reaches version a b

/-- A lower bound is meaningful when the bound itself has a version. -/
def Meaningful : Demand α → Prop
  | equals _ => True
  | oneOf _ => True
  | atLeast b => (version b).isSome

def isEquals : Demand α → Bool
  | equals _ => true
  | _ => false

def isOneOf : Demand α → Bool
  | oneOf _ => true
  | _ => false

def Compatible (d e : Demand α) : Prop := ∃ a, d.Allows version a ∧ e.Allows version a

variable {version}

theorem Compatible.symm {d e : Demand α} (h : Compatible version d e) :
    Compatible version e d := by
  obtain ⟨a, hd, he⟩ := h
  exact ⟨a, he, hd⟩

theorem Reaches.trans {a b c : α} (hab : Reaches version a b) (hbc : Reaches version b c) :
    Reaches version a c := by
  obtain ⟨v, w, ha, hb, hwv⟩ := hab
  obtain ⟨w', u, hb', hc, huw⟩ := hbc
  obtain rfl : w = w' := Option.some.inj (hb.symm.trans hb')
  exact ⟨v, u, ha, hc, huw.trans hwv⟩

theorem reaches_self {a : α} (h : (version a).isSome) : Reaches version a a := by
  obtain ⟨v, hv⟩ := Option.isSome_iff_exists.mp h
  exact ⟨v, v, hv, hv, le_rfl⟩

theorem reaches_total {a b : α} (ha : (version a).isSome) (hb : (version b).isSome) :
    Reaches version a b ∨ Reaches version b a := by
  obtain ⟨v, hv⟩ := Option.isSome_iff_exists.mp ha
  obtain ⟨w, hw⟩ := Option.isSome_iff_exists.mp hb
  rcases le_total w v with h | h
  · exact Or.inl ⟨v, w, hv, hw, h⟩
  · exact Or.inr ⟨w, v, hw, hv, h⟩

theorem exists_greatest (ds : List (Demand α)) (hne : ds ≠ [])
    (hm : ∀ d ∈ ds, d.Meaningful version) (hb : ∀ d ∈ ds, ∃ b, d = atLeast b) :
    ∃ m, atLeast m ∈ ds ∧ ∀ d ∈ ds, d.Allows version m := by
  induction ds with
  | nil => exact absurd rfl hne
  | cons d ds ih =>
    obtain ⟨b, rfl⟩ := hb _ List.mem_cons_self
    have hbv : (version b).isSome := hm _ List.mem_cons_self
    by_cases hds : ds = []
    · subst hds
      exact ⟨b, List.mem_cons_self, by simpa [Allows] using reaches_self hbv⟩
    obtain ⟨m, hmem, hall⟩ := ih hds (fun d hd => hm d (List.mem_cons_of_mem _ hd))
      (fun d hd => hb d (List.mem_cons_of_mem _ hd))
    have hmv : (version m).isSome := hm _ (List.mem_cons_of_mem _ hmem)
    rcases reaches_total hmv hbv with h | h
    · exact ⟨m, List.mem_cons_of_mem _ hmem, List.forall_mem_cons.mpr ⟨h, hall⟩⟩
    · refine ⟨b, List.mem_cons_self, List.forall_mem_cons.mpr ⟨reaches_self hbv, ?_⟩⟩
      intro d hd
      obtain ⟨c, rfl⟩ := hb d (List.mem_cons_of_mem _ hd)
      exact h.trans (hall _ hd)

theorem allows_of_equals {ds : List (Demand α)} {b : α} (hb : equals b ∈ ds)
    (hp : ∀ d ∈ ds, d ≠ equals b → Compatible version (equals b) d) :
    ∀ d ∈ ds, d.Allows version b := by
  intro d hd
  by_cases heq : d = equals b
  · subst heq
    rfl
  · obtain ⟨a, rfl, ha⟩ := hp d hd heq
    exact ha

theorem pairwise_compatible {ds : List (Demand α)} (hp : ds.Pairwise (Compatible version))
    {d e : Demand α} (hd : d ∈ ds) (he : e ∈ ds) (hne : d ≠ e) : Compatible version d e :=
  haveI : Std.Symm (Compatible (α := α) version) := ⟨fun _ _ h => h.symm⟩
  hp.forall hd he hne

/-- One finite choice among lower bounds: the choice that reaches the largest
bound reaches them all. -/
theorem exists_common_of_choice {values : List α} {ds : List (Demand α)}
    (hm : ∀ d ∈ ds, d.Meaningful version) (hb : ∀ d ∈ ds, ∃ b, d = atLeast b)
    (hp : ∀ d ∈ ds, Compatible version (oneOf values) d) (hv : values ≠ []) :
    ∃ a ∈ values, ∀ d ∈ ds, d.Allows version a := by
  by_cases hne : ds = []
  · subst hne
    obtain ⟨a, ha⟩ := List.exists_mem_of_ne_nil values hv
    exact ⟨a, ha, by simp⟩
  obtain ⟨m, hmem, hall⟩ := exists_greatest ds hne hm hb
  obtain ⟨a, ha, ham⟩ := hp _ hmem
  refine ⟨a, ha, fun d hd => ?_⟩
  obtain ⟨b, rfl⟩ := hb d hd
  exact Reaches.trans ham (hall _ hd)

/-- The families in which pairs are not enough: no exact value, at least two
finite choices, at least three demands. -/
def Crowded (ds : List (Demand α)) : Prop :=
  (∀ d ∈ ds, d.isEquals = false) ∧ 2 ≤ ds.countP isOneOf ∧ 3 ≤ ds.length

theorem exists_common_of_not_crowded [Inhabited α] {ds : List (Demand α)}
    (hm : ∀ d ∈ ds, d.Meaningful version) (hv : ∀ values, oneOf values ∈ ds → values ≠ [])
    (hp : ds.Pairwise (Compatible version)) (hc : ¬ Crowded ds) :
    ∃ a, ∀ d ∈ ds, d.Allows version a := by
  -- An exact value settles the family; so does a choice that is the only one.
  by_cases heq : ∃ b, equals b ∈ ds
  · obtain ⟨b, hd⟩ := heq
    exact ⟨b, allows_of_equals hd fun e he hne => pairwise_compatible hp hd he hne.symm⟩
  push Not at heq
  by_cases hone : ∃ values, oneOf values ∈ ds
  · obtain ⟨values, hmem⟩ := hone
    obtain ⟨before, after, rfl⟩ := List.append_of_mem hmem
    have hsub : ∀ d ∈ before ++ after, d ∈ before ++ oneOf values :: after := by
      intro d hd
      rcases List.mem_append.mp hd with h | h
      · exact List.mem_append_left _ h
      · exact List.mem_append_right _ (List.mem_cons_of_mem _ h)
    by_cases hrest : ∀ d ∈ before ++ after, ∃ b, d = atLeast b
    · have hcomp : ∀ d ∈ before ++ after, Compatible version (oneOf values) d := by
        intro d hd
        obtain ⟨b, rfl⟩ := hrest d hd
        exact pairwise_compatible hp hmem (hsub _ hd) (by simp)
      obtain ⟨a, ha, hall⟩ := exists_common_of_choice (fun d hd => hm d (hsub d hd)) hrest hcomp
        (hv values hmem)
      refine ⟨a, fun d hd => ?_⟩
      simp only [List.mem_append, List.mem_cons] at hd
      rcases hd with hd | rfl | hd
      · exact hall d (List.mem_append_left _ hd)
      · exact ha
      · exact hall d (List.mem_append_right _ hd)
    · -- A second finite choice: an uncrowded family then has exactly these two demands.
      push Not at hrest
      obtain ⟨d, hd, hnot⟩ := hrest
      have hdone : d.isOneOf = true := by
        cases d with
        | equals b => exact absurd (hsub _ hd) (heq b)
        | oneOf _ => rfl
        | atLeast b => exact absurd rfl (hnot b)
      have hcount : 2 ≤ (before ++ oneOf values :: after).countP isOneOf := by
        have hpos : 0 < (before ++ after).countP isOneOf := List.countP_pos_iff.mpr ⟨d, hd, hdone⟩
        simp only [List.countP_append, List.countP_cons, isOneOf, if_true] at hpos ⊢
        omega
      have hlen : (before ++ oneOf values :: after).length ≤ 2 := by
        by_contra hlt
        refine hc ⟨fun e he => ?_, hcount, by omega⟩
        cases e with
        | equals b => exact absurd he (heq b)
        | oneOf _ => rfl
        | atLeast _ => rfl
      have hpos : 0 < (before ++ after).length := List.length_pos_of_mem hd
      simp only [List.length_append, List.length_cons] at hlen hpos
      match before, after with
      | [], [] => simp at hpos
      | [], [e] =>
        obtain ⟨a, ha, hb⟩ := List.pairwise_pair.mp hp
        exact ⟨a, List.forall_mem_cons.mpr ⟨ha, by simpa using hb⟩⟩
      | [e], [] =>
        obtain ⟨a, ha, hb⟩ := List.pairwise_pair.mp hp
        exact ⟨a, List.forall_mem_cons.mpr ⟨ha, by simpa using hb⟩⟩
      | _ :: _, _ :: _ => simp only [List.length_cons] at hlen; omega
      | [], _ :: _ :: _ => simp only [List.length_cons] at hlen; omega
      | _ :: _ :: _, [] => simp only [List.length_cons] at hlen; omega
  -- Lower bounds alone: the greatest one passes all of them.
  · push Not at hone
    by_cases hne : ds = []
    · exact ⟨default, by simp [hne]⟩
    obtain ⟨m, -, hall⟩ := exists_greatest ds hne hm fun d hd => by
      cases d with
      | equals b => exact absurd hd (heq b)
      | oneOf values => exact absurd hd (hone values)
      | atLeast b => exact ⟨b, rfl⟩
    exact ⟨m, hall⟩

/-- Pairwise compatible demands have a common value exactly when, in a crowded
family, one of the listed values passes every demand. -/
theorem exists_common_iff [Inhabited α] {ds : List (Demand α)}
    (hm : ∀ d ∈ ds, d.Meaningful version) (hv : ∀ values, oneOf values ∈ ds → values ≠ [])
    (hp : ds.Pairwise (Compatible version)) :
    (∃ a, ∀ d ∈ ds, d.Allows version a) ↔
      (Crowded ds → ∃ values, oneOf values ∈ ds ∧ ∃ a ∈ values, ∀ d ∈ ds, d.Allows version a) := by
  constructor
  · rintro ⟨a, ha⟩ ⟨-, hcount, -⟩
    have hpos : 0 < ds.countP isOneOf := by omega
    obtain ⟨d, hd, hone⟩ := List.countP_pos_iff.mp hpos
    cases d with
    | equals _ => exact absurd hone Bool.false_ne_true
    | oneOf values => exact ⟨values, hd, a, ha _ hd, ha⟩
    | atLeast _ => exact absurd hone Bool.false_ne_true
  · intro h
    by_cases hc : Crowded ds
    · obtain ⟨-, -, a, -, ha⟩ := h hc
      exact ⟨a, ha⟩
    · exact exists_common_of_not_crowded hm hv hp hc

end Demand
end MirrorsCore.Lib
