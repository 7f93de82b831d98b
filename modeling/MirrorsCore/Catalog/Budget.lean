import Mathlib
import MirrorsCore.Catalog.StrictJson
import MirrorsCore.Lib.Checked

/-! The budgets of the preflight are never used up: no scan gives characters
back, and from the stated budgets on the result does not depend on the budget. -/

namespace MirrorsCore.StrictJson
open Lib

/-! ### Cursors -/

@[simp] theorem Cursor.remaining_advance (c : Cursor) :
    c.advance.remaining = c.remaining - 1 := by
  simp [remaining, advance]

theorem Cursor.remaining_pos {c : Cursor} {ch : Char} (h : c.current = some ch) :
    0 < c.remaining := by
  obtain ⟨rest, pos, depth⟩ := c
  cases rest with
  | nil => cases h
  | cons first rest => simp [remaining]

theorem Cursor.current_eq_none {c : Cursor} (h : c.remaining = 0) : c.current = none := by
  rw [Cursor.current, List.length_eq_zero_iff.mp h, List.head?_nil]

theorem skipWhileGo_remaining (p : Char → Bool) (budget : Nat) (c : Cursor) :
    (skipWhileGo p budget c).remaining ≤ c.remaining := by
  induction budget generalizing c with
  | zero => exact le_rfl
  | succ budget ih =>
    unfold skipWhileGo
    split
    next ch h =>
      split
      · exact (ih c.advance).trans (by simp)
      · exact le_rfl
    · exact le_rfl

theorem skipWhileGo_stable (p : Char → Bool) {b b' : Nat} {c : Cursor}
    (hb : c.remaining ≤ b) (hb' : c.remaining ≤ b') :
    skipWhileGo p b c = skipWhileGo p b' c := by
  induction b generalizing b' c with
  | zero =>
    have hnone := Cursor.current_eq_none (Nat.le_zero.mp hb)
    cases b' <;> simp [skipWhileGo, hnone]
  | succ b ih =>
    cases b' with
    | zero => simp [skipWhileGo, Cursor.current_eq_none (Nat.le_zero.mp hb')]
    | succ b' =>
      unfold skipWhileGo
      rw [@ih b' c.advance (by simp; omega) (by simp; omega)]

theorem skipWhitespace_remaining (c : Cursor) :
    (skipWhitespace c).remaining ≤ c.remaining := skipWhileGo_remaining _ _ _

theorem consumeDigits_remaining (c : Cursor) :
    (consumeDigits c).remaining ≤ c.remaining := skipWhileGo_remaining _ _ _

/-! ### Scans that do not nest -/

theorem expectChar_eq_ok {c c' : Cursor} {expected : Char} (h : expectChar c expected = .ok c') :
    c.current = some expected ∧ c' = c.advance := by
  unfold expectChar at h
  split at h
  next actual hactual =>
    split at h
    next heq => exact ⟨by rw [hactual, beq_iff_eq.mp heq], (Except.ok.inj h).symm⟩
    · cases h
  · cases h

theorem expectChar_remaining {c c' : Cursor} {expected : Char}
    (h : expectChar c expected = .ok c') : c'.remaining < c.remaining := by
  obtain ⟨hcurrent, rfl⟩ := expectChar_eq_ok h
  have := Cursor.remaining_pos hcurrent
  rw [Cursor.remaining_advance]
  omega

theorem takeHex_remaining {c : Cursor} {r : Nat × Cursor} (h : takeHex c = .ok r) :
    r.2.remaining ≤ c.remaining := by
  unfold takeHex at h
  split at h
  next ch hcurrent =>
    split at h
    · rw [← Except.ok.inj h, Cursor.remaining_advance]
      omega
    · cases h
  · cases h

theorem takeHex4_remaining {c : Cursor} {r : Nat × Cursor} (h : takeHex4 c = .ok r) :
    r.2.remaining ≤ c.remaining := by
  simp only [takeHex4, bind_eq_ok] at h
  obtain ⟨r₁, h₁, r₂, h₂, r₃, h₃, r₄, h₄, h⟩ := h
  obtain rfl := pure_eq_ok.mp h
  exact (takeHex_remaining h₄).trans <| (takeHex_remaining h₃).trans <|
    (takeHex_remaining h₂).trans (takeHex_remaining h₁)

theorem scanUnicodeEscape_remaining {escaped c : Cursor} {r : Nat × Cursor}
    (h : scanUnicodeEscape escaped c = .ok r) : r.2.remaining ≤ c.remaining := by
  obtain ⟨unit, hunit, h⟩ := bind_eq_ok.mp h
  have hle := takeHex4_remaining hunit
  dsimp only at h
  split at h
  · simp only [bind_eq_ok] at h
    obtain ⟨afterSlash, hslash, afterU, hu, low, hlow, h⟩ := h
    have hslash := expectChar_remaining hslash
    have hu := expectChar_remaining hu
    have hlow := takeHex4_remaining hlow
    split at h
    · obtain rfl := pure_eq_ok.mp h
      dsimp only
      omega
    · cases h
  · split at h
    · cases h
    · obtain rfl := pure_eq_ok.mp h
      exact hle

theorem scanStringBody_remaining {b : Nat} {c : Cursor} {reversed : List Nat}
    {r : List Nat × Cursor} (h : scanStringBody b c reversed = .ok r) :
    r.2.remaining ≤ c.remaining := by
  induction b generalizing c reversed with
  | zero => cases h
  | succ b ih =>
    unfold scanStringBody at h
    split at h
    · cases h
    · rw [← Except.ok.inj h, Cursor.remaining_advance]
      omega
    · dsimp only at h
      split at h
      · cases h
      · obtain ⟨escape, hescape, h⟩ := bind_eq_ok.mp h
        have hescape := scanUnicodeEscape_remaining hescape
        have := ih h
        simp only [Cursor.remaining_advance] at hescape
        omega
      · split at h
        · have := ih h
          simp only [Cursor.remaining_advance] at this
          omega
        · cases h
    · split at h
      · cases h
      · have := ih h
        rw [Cursor.remaining_advance] at this
        omega

theorem scanString_remaining {c : Cursor} {r : List Nat × Cursor}
    (h : scanString c = .ok r) : r.2.remaining < c.remaining := by
  obtain ⟨body, hbody, h⟩ := bind_eq_ok.mp h
  exact (scanStringBody_remaining h).trans_lt (expectChar_remaining hbody)

theorem scanStringBody_stable {b b' : Nat} {c : Cursor} (hb : c.remaining ≤ b)
    (hb' : c.remaining ≤ b') (reversed : List Nat) :
    scanStringBody b c reversed = scanStringBody b' c reversed := by
  induction b generalizing b' c reversed with
  | zero =>
    have hnone := Cursor.current_eq_none (Nat.le_zero.mp hb)
    cases b' <;> simp [scanStringBody, hnone]
  | succ b ih =>
    cases b' with
    | zero => simp [scanStringBody, Cursor.current_eq_none (Nat.le_zero.mp hb')]
    | succ b' =>
      unfold scanStringBody
      split
      · rfl
      · rfl
      next h =>
        have hpos := Cursor.remaining_pos h
        dsimp only
        split
        · rfl
        · refine bind_congr_ok fun escape hescape => ih ?_ ?_ _ <;>
          · have := scanUnicodeEscape_remaining hescape
            simp only [Cursor.remaining_advance] at this
            omega
        · split
          · exact ih (by simp; omega) (by simp; omega) _
          · rfl
      next h =>
        have hpos := Cursor.remaining_pos h
        split
        · rfl
        · exact ih (by simp; omega) (by simp; omega) _

theorem requireDigit_eq_ok {c c' : Cursor} {message : String}
    (h : requireDigit c message = .ok c') : c' = c := by
  unfold requireDigit at h
  split at h
  · split at h
    · exact (Except.ok.inj h).symm
    · cases h
  · cases h

theorem scanInteger_remaining {c c' : Cursor} (h : scanInteger c = .ok c') :
    c'.remaining ≤ c.remaining := by
  unfold scanInteger at h
  split at h
  · rw [← Except.ok.inj h, Cursor.remaining_advance]
    omega
  · split at h
    · rw [← Except.ok.inj h]
      exact (consumeDigits_remaining _).trans (by simp)
    · cases h
  · cases h

theorem scanFraction_remaining {c c' : Cursor} (h : scanFraction c = .ok c') :
    c'.remaining ≤ c.remaining := by
  unfold scanFraction at h
  split at h
  · obtain ⟨first, hfirst, h⟩ := bind_eq_ok.mp h
    obtain rfl := requireDigit_eq_ok hfirst
    obtain rfl := pure_eq_ok.mp h
    exact (consumeDigits_remaining _).trans (by simp)
  · rw [Except.ok.inj h]

theorem scanExponent_remaining {c c' : Cursor} (h : scanExponent c = .ok c') :
    c'.remaining ≤ c.remaining := by
  unfold scanExponent at h
  split at h
  · split at h
    · obtain ⟨first, hfirst, h⟩ := bind_eq_ok.mp h
      obtain rfl := pure_eq_ok.mp h
      rw [requireDigit_eq_ok hfirst]
      refine (consumeDigits_remaining _).trans ?_
      split
      · split
        · simp only [Cursor.remaining_advance]
          omega
        · simp
      · simp
    · rw [pure_eq_ok.mp h]
  · rw [pure_eq_ok.mp h]

theorem scanNumber_remaining {c c' : Cursor} (h : scanNumber c = .ok c') :
    c'.remaining ≤ c.remaining := by
  simp only [scanNumber, bind_eq_ok] at h
  obtain ⟨whole, hwhole, fraction, hfraction, h⟩ := h
  refine (scanExponent_remaining h).trans <| (scanFraction_remaining hfraction).trans <|
    (scanInteger_remaining hwhole).trans ?_
  split
  · simp
  · exact le_rfl

theorem scanLiteral_remaining {c c' : Cursor} {literal : String}
    (h : scanLiteral c literal = .ok c') : c'.remaining ≤ c.remaining := by
  unfold scanLiteral at h
  generalize literal.toList = expected at h
  induction expected generalizing c with
  | nil => rw [pure_eq_ok.mp h]
  | cons first rest ih =>
    rw [List.foldlM_cons, bind_eq_ok] at h
    obtain ⟨next, hnext, h⟩ := h
    exact (ih h).trans (expectChar_remaining hnext).le

/-! ### Nested values -/

/-- No nested scan gives characters back; one induction carries all five. -/
theorem scan_remaining (b : Nat) :
    (∀ c depth c', scanValue b c depth = .ok c' → c'.remaining ≤ c.remaining) ∧
    (∀ c depth c', scanObject b c depth = .ok c' → c'.remaining ≤ c.remaining) ∧
    (∀ c depth keys c', scanMembers b c depth keys = .ok c' → c'.remaining ≤ c.remaining) ∧
    (∀ c depth c', scanArray b c depth = .ok c' → c'.remaining ≤ c.remaining) ∧
    (∀ c depth c', scanElements b c depth = .ok c' → c'.remaining ≤ c.remaining) := by
  induction b with
  | zero =>
    refine ⟨?_, ?_, ?_, ?_, ?_⟩
    · intro _ _ _ h
      rw [scanValue] at h
      cases h
    · intro _ _ _ h
      rw [scanObject] at h
      cases h
    · intro _ _ _ _ h
      rw [scanMembers] at h
      cases h
    · intro _ _ _ h
      rw [scanArray] at h
      cases h
    · intro _ _ _ h
      rw [scanElements] at h
      cases h
  | succ b ih =>
    obtain ⟨hvalue, hobject, hmembers, harray, helements⟩ := ih
    refine ⟨?_, ?_, ?_, ?_, ?_⟩
    -- A value: one character picks the scan behind it.
    · intro input depth c' h
      refine le_trans ?_ (skipWhitespace_remaining input)
      unfold scanValue at h
      dsimp only at h
      split at h
      · cases h
      · split at h
        · cases h
        · exact (hobject _ _ _ h).trans (by simp)
      · split at h
        · cases h
        · exact (harray _ _ _ h).trans (by simp)
      · obtain ⟨r, hr, h⟩ := bind_eq_ok.mp h
        obtain rfl := pure_eq_ok.mp h
        exact (scanString_remaining hr).le
      · exact scanLiteral_remaining h
      · exact scanLiteral_remaining h
      · exact scanLiteral_remaining h
      · exact scanNumber_remaining h
      · split at h
        · exact scanNumber_remaining h
        · cases h
    · intro input depth c' h
      refine le_trans ?_ (skipWhitespace_remaining input)
      unfold scanObject at h
      dsimp only at h
      split at h
      · rw [← pure_eq_ok.mp h]
        simp
      · exact hmembers _ _ _ _ h
    -- Members: a key, a colon and a value, and then the members behind a comma.
    · intro input depth keys c' h
      refine le_trans ?_ (skipWhitespace_remaining input)
      unfold scanMembers at h
      obtain ⟨⟨key, afterKey⟩, hkey, h⟩ := bind_eq_ok.mp h
      have hkey := scanString_remaining hkey
      dsimp only at h hkey
      split at h
      · cases h
      obtain ⟨colon, hcolon, h⟩ := bind_eq_ok.mp h
      have hcolon := expectChar_remaining hcolon
      have hspace := skipWhitespace_remaining afterKey
      obtain ⟨value, hv, h⟩ := bind_eq_ok.mp h
      have hv := hvalue _ _ _ hv
      have hdelimiter := skipWhitespace_remaining value
      split at h
      · have := hmembers _ _ _ _ h
        rw [Cursor.remaining_advance] at this
        omega
      · rw [← pure_eq_ok.mp h, Cursor.remaining_advance]
        omega
      · cases h
      · cases h
    · intro input depth c' h
      refine le_trans ?_ (skipWhitespace_remaining input)
      unfold scanArray at h
      dsimp only at h
      split at h
      · rw [← pure_eq_ok.mp h]
        simp
      · exact helements _ _ _ h
    · intro input depth c' h
      unfold scanElements at h
      obtain ⟨value, hv, h⟩ := bind_eq_ok.mp h
      have hv := hvalue _ _ _ hv
      have hdelimiter := skipWhitespace_remaining value
      dsimp only at h
      split at h
      · have := helements _ _ _ h
        rw [Cursor.remaining_advance] at this
        omega
      · rw [← pure_eq_ok.mp h, Cursor.remaining_advance]
        omega
      · cases h
      · cases h

/-- Three units a character cover every nested scan: a value opens a bracket
before it recurses, and members and elements move on after a comma. -/
theorem scan_stable (b : Nat) :
    (∀ b' c depth, 3 * c.remaining + 1 ≤ b → 3 * c.remaining + 1 ≤ b' →
      scanValue b c depth = scanValue b' c depth) ∧
    (∀ b' c depth, 3 * c.remaining + 3 ≤ b → 3 * c.remaining + 3 ≤ b' →
      scanObject b c depth = scanObject b' c depth) ∧
    (∀ b' c depth keys, 3 * c.remaining + 2 ≤ b → 3 * c.remaining + 2 ≤ b' →
      scanMembers b c depth keys = scanMembers b' c depth keys) ∧
    (∀ b' c depth, 3 * c.remaining + 3 ≤ b → 3 * c.remaining + 3 ≤ b' →
      scanArray b c depth = scanArray b' c depth) ∧
    (∀ b' c depth, 3 * c.remaining + 2 ≤ b → 3 * c.remaining + 2 ≤ b' →
      scanElements b c depth = scanElements b' c depth) := by
  induction b with
  | zero =>
    refine ⟨?_, ?_, ?_, ?_, ?_⟩
    · exact fun _ _ _ h => absurd h (Nat.not_succ_le_zero _)
    · exact fun _ _ _ h => absurd h (Nat.not_succ_le_zero _)
    · exact fun _ _ _ _ h => absurd h (Nat.not_succ_le_zero _)
    · exact fun _ _ _ h => absurd h (Nat.not_succ_le_zero _)
    · exact fun _ _ _ h => absurd h (Nat.not_succ_le_zero _)
  | succ b ih =>
    obtain ⟨hvalue, hobject, hmembers, harray, helements⟩ := ih
    refine ⟨?_, ?_, ?_, ?_, ?_⟩ <;> intro b' input depth <;> cases b' with
    | zero => intros; omega
    | succ b' => ?_
    · intro hb hb'
      have hspace := skipWhitespace_remaining input
      unfold scanValue
      dsimp only
      split
      · rfl
      next h =>
        have hpos := Cursor.remaining_pos h
        split
        · rfl
        · exact hobject _ _ _ (by simp; omega) (by simp; omega)
      next h =>
        have hpos := Cursor.remaining_pos h
        split
        · rfl
        · exact harray _ _ _ (by simp; omega) (by simp; omega)
      all_goals rfl
    · intro hb hb'
      have hspace := skipWhitespace_remaining input
      unfold scanObject
      dsimp only
      split
      · rfl
      · exact hmembers _ _ _ _ (by omega) (by omega)
    · intro keys hb hb'
      have hspace := skipWhitespace_remaining input
      unfold scanMembers
      refine bind_congr_ok fun scanned hkey => ?_
      obtain ⟨key, afterKey⟩ := scanned
      have hkey := scanString_remaining hkey
      dsimp only at hkey ⊢
      split
      · rfl
      refine bind_congr_ok fun colon hcolon => ?_
      have hcolon := expectChar_remaining hcolon
      have hspace' := skipWhitespace_remaining afterKey
      rw [hvalue b' colon depth (by omega) (by omega)]
      refine bind_congr_ok fun value hv => ?_
      have hv := (scan_remaining _).1 _ _ _ hv
      have hdelimiter := skipWhitespace_remaining value
      split
      · exact hmembers _ _ _ _ (by simp; omega) (by simp; omega)
      all_goals rfl
    · intro hb hb'
      have hspace := skipWhitespace_remaining input
      unfold scanArray
      dsimp only
      split
      · rfl
      · exact helements _ _ _ (by omega) (by omega)
    · intro hb hb'
      unfold scanElements
      rw [hvalue b' input depth (by omega) (by omega)]
      refine bind_congr_ok fun value hv => ?_
      have hv := (scan_remaining _).1 _ _ _ hv
      have hdelimiter := skipWhitespace_remaining value
      dsimp only
      split
      next h =>
        have hpos := Cursor.remaining_pos h
        exact helements _ _ _ (by simp; omega) (by simp; omega)
      all_goals rfl

theorem scanValue_budget {c : Cursor} {budget depth : Nat} (h : 3 * c.remaining + 3 ≤ budget) :
    scanValue budget c depth = scanValue (3 * c.remaining + 3) c depth :=
  (scan_stable budget).1 _ _ _ (by omega) (by omega)

end MirrorsCore.StrictJson
