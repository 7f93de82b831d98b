import Mathlib

/-! Values at keys that rules only ever raise. Passes that raise by the candidates of
monotone rules stay below everything closed under the rules; a pass that raises uses up
room, and one that raises nothing is closed. -/

namespace MirrorsCore.Lib
variable {κ L : Type} [BEq κ]

/-- Every pair of the key gets the value. -/
def assignAt (values : List (κ × L)) (key : κ) (value : L) : List (κ × L) :=
  values.map fun entry => if entry.1 == key then (key, value) else entry

section Assign
variable [LawfulBEq κ]

theorem lookup_assignAt_self {values : List (κ × L)} {key : κ} {old : L}
    (h : values.lookup key = some old) (value : L) :
    (assignAt values key value).lookup key = some value := by
  induction values with
  | nil => cases h
  | cons entry values ih =>
    rw [assignAt, List.map_cons]
    by_cases hkey : entry.1 = key
    · rw [if_pos (beq_iff_eq.mpr hkey), List.lookup_cons_self]
    · rw [List.lookup_cons, beq_false_of_ne (Ne.symm hkey)] at h
      rw [if_neg (by simpa using hkey), List.lookup_cons, beq_false_of_ne (Ne.symm hkey)]
      exact ih h

theorem lookup_assignAt_other {key other : κ} (h : other ≠ key) (values : List (κ × L))
    (value : L) : (assignAt values key value).lookup other = values.lookup other := by
  induction values with
  | nil => rfl
  | cons entry values ih =>
    rw [assignAt, List.map_cons]
    by_cases hkey : entry.1 = key
    · rw [if_pos (beq_iff_eq.mpr hkey), List.lookup_cons, List.lookup_cons, hkey,
        beq_false_of_ne h]
      exact ih
    · rw [if_neg (by simpa using hkey), List.lookup_cons, List.lookup_cons]
      cases other == entry.1 with
      | true => rfl
      | false => exact ih

end Assign

/-! ### The order of values -/

/-- The same keys, with values as high or higher. -/
def Below [LE L] (low high : List (κ × L)) : Prop :=
  ∀ key, Option.Rel (· ≤ ·) (low.lookup key) (high.lookup key)

section Below
variable [Preorder L] {low mid high : List (κ × L)}

theorem Below.refl (values : List (κ × L)) : Below values values := fun key => by
  cases values.lookup key with
  | none => exact .none
  | some value => exact .some (le_refl value)

theorem Below.trans (h : Below low mid) (h' : Below mid high) : Below low high := fun key => by
  have hlow := h key
  have hhigh := h' key
  generalize low.lookup key = first at hlow
  generalize mid.lookup key = second at hlow hhigh
  generalize high.lookup key = third at hhigh
  cases hlow with
  | none => exact hhigh
  | some hle =>
    cases hhigh with
    | some hle' => exact .some (hle.trans hle')

theorem Below.exists_le (h : Below low high) {key : κ} {value : L}
    (hvalue : low.lookup key = some value) : ∃ top, high.lookup key = some top ∧ value ≤ top := by
  have hrel := h key
  rw [hvalue] at hrel
  generalize high.lookup key = other at hrel ⊢
  cases hrel with
  | some hle => exact ⟨_, rfl, hle⟩

theorem Below.exists_lookup (h : Below low high) {key : κ} {top : L}
    (htop : high.lookup key = some top) : ∃ value, low.lookup key = some value := by
  have hrel := h key
  rw [htop] at hrel
  generalize low.lookup key = other at hrel ⊢
  cases hrel with
  | some _ => exact ⟨_, rfl⟩

end Below

/-- How far the values of some keys can still rise. -/
def room (slack : L → Nat) (keys : List κ) (values : List (κ × L)) : Nat :=
  (keys.map fun key => ((values.lookup key).map slack).getD 0).sum

theorem room_le {slack : L → Nat} {bound : Nat} (h : ∀ value, slack value ≤ bound)
    (keys : List κ) (values : List (κ × L)) : room slack keys values ≤ keys.length * bound := by
  have hsum := List.sum_le_card_nsmul
    (keys.map fun key => ((values.lookup key).map slack).getD 0) bound (fun used hused => by
      obtain ⟨key, -, rfl⟩ := List.mem_map.mp hused
      cases values.lookup key with
      | none => exact Nat.zero_le bound
      | some value => exact h value)
  rwa [List.length_map, smul_eq_mul] at hsum

theorem slack_le_of_rel [Preorder L] {slack : L → Nat} (hslack : Antitone slack)
    {low high : Option L} (h : Option.Rel (· ≤ ·) low high) :
    (high.map slack).getD 0 ≤ (low.map slack).getD 0 := by
  cases h with
  | none => exact le_refl _
  | some hle => exact hslack hle

/-! ### Raising one value -/

section Raising
variable [LinearOrder L] {values high : List (κ × L)} {key : κ} {value : L}

/-- Raise the value of a key, if it has one. -/
def raiseAt (values : List (κ × L)) (key : κ) (value : L) : List (κ × L) :=
  match values.lookup key with
  | none => values
  | some old => if value ≤ old then values else assignAt values key value

/-- Whether the key has a lower value. -/
def rises (values : List (κ × L)) (key : κ) (value : L) : Bool :=
  match values.lookup key with
  | none => false
  | some old => old < value

theorem rises_eq_false_iff :
    rises values key value = false ↔ ∀ old, values.lookup key = some old → value ≤ old := by
  rw [rises]
  cases values.lookup key with
  | none => exact ⟨fun _ _ h => absurd h (by simp), fun _ => rfl⟩
  | some old =>
    rw [decide_eq_false_iff_not, not_lt]
    exact ⟨fun h _ hold => Option.some.inj hold ▸ h, fun h => h old rfl⟩

theorem raiseAt_of_not_rises (h : rises values key value = false) :
    raiseAt values key value = values := by
  have hle := rises_eq_false_iff.mp h
  rw [raiseAt]
  cases hlookup : values.lookup key with
  | none => rfl
  | some old => exact if_pos (hle old hlookup)

variable [LawfulBEq κ]

theorem lookup_raiseAt_other {other : κ} (h : other ≠ key) :
    (raiseAt values key value).lookup other = values.lookup other := by
  rw [raiseAt]
  cases values.lookup key with
  | none => rfl
  | some old =>
    dsimp only
    split
    · rfl
    · exact lookup_assignAt_other h values value

theorem lookup_raiseAt_self {old : L} (h : values.lookup key = some old) :
    (raiseAt values key value).lookup key = some (max old value) := by
  rw [raiseAt, h]
  dsimp only
  split
  · rename_i hle
    rw [h, max_eq_left hle]
  · rename_i hle
    rw [lookup_assignAt_self h, max_eq_right (le_of_not_ge hle)]

theorem below_raiseAt (values : List (κ × L)) (key : κ) (value : L) :
    Below values (raiseAt values key value) := fun other => by
  by_cases hother : other = key
  · rw [hother]
    cases hlookup : values.lookup key with
    | none =>
      rw [raiseAt, hlookup]
      dsimp only
      rw [hlookup]
      exact .none
    | some old =>
      rw [lookup_raiseAt_self hlookup]
      exact .some (le_max_left old value)
  · rw [lookup_raiseAt_other hother]
    exact Below.refl values other

theorem Below.raiseAt (h : Below values high)
    (hle : ∀ top, high.lookup key = some top → value ≤ top) :
    Below (raiseAt values key value) high := fun other => by
  by_cases hother : other = key
  · rw [hother]
    have hrel := h key
    cases hlookup : values.lookup key with
    | none =>
      rw [Lib.raiseAt, hlookup]
      dsimp only
      rw [hlookup] at hrel ⊢
      exact hrel
    | some old =>
      rw [lookup_raiseAt_self hlookup]
      obtain ⟨top, htop, hold⟩ := h.exists_le hlookup
      rw [htop]
      exact .some (max_le hold (hle top htop))
  · rw [lookup_raiseAt_other hother]
    exact h other

theorem room_raiseAt_lt {slack : L → Nat} (hslack : StrictAnti slack) {keys : List κ}
    (hkey : key ∈ keys) (h : rises values key value = true) :
    room slack keys (Lib.raiseAt values key value) < room slack keys values := by
  refine List.sum_lt_sum _ _
    (fun other _ => slack_le_of_rel hslack.antitone (below_raiseAt values key value other))
    ⟨key, hkey, ?_⟩
  · rw [rises] at h
    cases hlookup : values.lookup key with
    | none =>
      rw [hlookup] at h
      exact Bool.noConfusion h
    | some old =>
      rw [hlookup] at h
      have hlt : old < value := of_decide_eq_true h
      rw [lookup_raiseAt_self hlookup, max_eq_right hlt.le]
      exact hslack hlt

end Raising

/-! ### Passes -/

/-- The values in the course of a pass, whether one was raised, and whether a rule had no
candidate. -/
structure Progress (κ L : Type) where
  values : List (κ × L)
  changed : Bool
  failed : Bool

section Passes
variable [LinearOrder L]

def Progress.take (p : Progress κ L) (key : κ) : Option L → Progress κ L
  | none => { p with failed := true }
  | some value =>
      { p with
        values := raiseAt p.values key value
        changed := p.changed || rises p.values key value }

/-- Rules as what they ask for: at these values, this candidate for this key. -/
abbrev Rules (κ L : Type) := List (κ × L) → κ → Option L → Prop

/-- Higher values ask for as much or more. -/
def Rules.Monotone (rules : Rules κ L) : Prop :=
  ∀ ⦃low high key candidate⦄, Below low high → rules low key candidate →
    ∃ candidate', rules high key candidate' ∧ Option.Rel (· ≤ ·) candidate candidate'

/-- Every rule has a candidate that does not raise its key. -/
def Saturated (rules : Rules κ L) (values : List (κ × L)) : Prop :=
  ∀ key candidate, rules values key candidate →
    ∃ value, candidate = some value ∧ rises values key value = false

/-- Candidates taken one after the other, each asked for by the values at the time or by
earlier ones of the pass. -/
inductive Pass (rules : Rules κ L) (p : Progress κ L) : Progress κ L → Prop
  | refl : Pass rules p p
  | take {q : Progress κ L} {earlier : List (κ × L)} {key : κ} {candidate : Option L}
      (h : Pass rules p q) (hrule : rules earlier key candidate)
      (hearlier : Below earlier q.values) (hsame : q.changed = false → earlier = q.values) :
      Pass rules p (q.take key candidate)

variable {rules : Rules κ L} {p q r : Progress κ L}

theorem Pass.trans (h : Pass rules p q) (h' : Pass rules q r) : Pass rules p r := by
  induction h' with
  | refl => exact h
  | take _ hrule hearlier hsame ih => exact ih.take hrule hearlier hsame

theorem Pass.failed (h : Pass rules p q) (hp : p.failed = true) : q.failed = true := by
  induction h with
  | refl => exact hp
  | @take q earlier key candidate _ _ _ _ ih =>
    cases candidate with
    | none => rfl
    | some value => exact ih

/-- A pass fails only where a rule has no candidate. -/
theorem Pass.exists_none (h : Pass rules p q) (hp : p.failed = false) (hq : q.failed = true) :
    ∃ values key, rules values key none := by
  induction h with
  | refl => exact absurd (hp.symm.trans hq) Bool.false_ne_true
  | @take q earlier key candidate _ hrule _ _ ih =>
    cases candidate with
    | none => exact ⟨earlier, key, hrule⟩
    | some value => exact ih hq

theorem Pass.unchanged (h : Pass rules p q) (hq : q.changed = false) :
    q.values = p.values ∧ p.changed = false := by
  induction h with
  | refl => exact ⟨rfl, hq⟩
  | @take q earlier key candidate _ _ _ _ ih =>
    cases candidate with
    | none => exact ih hq
    | some value =>
      obtain ⟨hchanged, hrises⟩ := Bool.or_eq_false_iff.mp hq
      obtain ⟨hvalues, hp⟩ := ih hchanged
      exact ⟨(raiseAt_of_not_rises hrises).trans hvalues, hp⟩

theorem Pass.settled {key : κ} {candidate : Option L} (h : Pass rules (p.take key candidate) q)
    (hchanged : q.changed = false) (hfailed : q.failed = false) :
    ∃ value, candidate = some value ∧ rises p.values key value = false := by
  cases candidate with
  | none => exact absurd (h.failed rfl) (by simp [hfailed])
  | some value => exact ⟨value, rfl, (Bool.or_eq_false_iff.mp (h.unchanged hchanged).2).2⟩

variable [LawfulBEq κ]

theorem Pass.values_below (h : Pass rules p q) : Below p.values q.values := by
  induction h with
  | refl => exact Below.refl p.values
  | @take q earlier key candidate _ _ _ _ ih =>
    cases candidate with
    | none => exact ih
    | some value => exact ih.trans (below_raiseAt q.values key value)

theorem Pass.bounded (hrules : rules.Monotone) {high : List (κ × L)}
    (hhigh : Saturated rules high) (h : Pass rules p q) (hp : Below p.values high) :
    Below q.values high := by
  induction h with
  | refl => exact hp
  | @take q earlier key candidate _ hrule hearlier _ ih =>
    cases candidate with
    | none => exact ih
    | some value =>
      refine Below.raiseAt ih fun top htop => ?_
      obtain ⟨candidate', hrule', hrel⟩ := hrules (hearlier.trans ih) hrule
      obtain ⟨value', rfl, hrises⟩ := hhigh key candidate' hrule'
      cases hrel with
      | some hle => exact hle.trans (rises_eq_false_iff.mp hrises top htop)

theorem Pass.room_lt {slack : L → Nat} (hslack : StrictAnti slack) {keys : List κ}
    (hkeys : ∀ key value, p.values.lookup key = some value → key ∈ keys)
    (h : Pass rules p q) (hp : p.changed = false) :
    room slack keys q.values ≤ room slack keys p.values ∧
      (q.changed = true → room slack keys q.values < room slack keys p.values) := by
  induction h with
  | refl => exact ⟨le_refl _, fun hq => absurd hp (by simp [hq])⟩
  | @take q earlier key candidate hpass _ _ _ ih =>
    cases candidate with
    | none => exact ih
    | some value =>
      obtain ⟨hle, hlt⟩ := ih
      cases hrises : rises q.values key value with
      | false =>
        refine ⟨?_, fun hchanged => ?_⟩
        · rw [Progress.take, raiseAt_of_not_rises hrises]
          exact hle
        · rw [Progress.take, hrises, Bool.or_false] at hchanged
          rw [Progress.take, raiseAt_of_not_rises hrises]
          exact hlt hchanged
      | true =>
        have hkey : key ∈ keys := by
          rw [rises] at hrises
          cases hlookup : q.values.lookup key with
          | none =>
            rw [hlookup] at hrises
            exact Bool.noConfusion hrises
          | some old =>
            obtain ⟨before, hbefore⟩ := hpass.values_below.exists_lookup hlookup
            exact hkeys key before hbefore
        have hstrict := (room_raiseAt_lt hslack hkey hrises).trans_le hle
        exact ⟨hstrict.le, fun _ => hstrict⟩

end Passes
end MirrorsCore.Lib
