import Mathlib
import MirrorsCore.Catalog.Json
import MirrorsCore.Lib.Consumption

/-! The budgets of the JSON parser are never used up: no parser gives characters
back, and from the stated budgets on the result does not depend on the budget. -/

namespace MirrorsCore.Json.Parser
open Lib

/-- The measure of every budget: the characters left. -/
def Input.size (input : Input) : Nat := input.rest.length

variable {α : Type}

theorem consumes_fail (n : Nat) (message : String) :
    Consumes Input.size n (fail message : JsonParser α) := fun _ _ _ h => nomatch h

theorem consumes_any : Consumes Input.size 1 any := by
  intro ⟨offset, rest⟩ c input' h
  cases rest with
  | nil => cases h
  | cons first rest =>
    cases h
    simp [Input.size]

theorem consumes_peekChar : Consumes Input.size 0 peekChar := by
  intro ⟨offset, rest⟩ c input' h
  cases rest with
  | nil => cases h
  | cons first rest =>
    cases h
    simp

theorem consumes_isEof : Consumes Input.size 0 isEof := by
  intro input c input' h
  cases h
  simp

theorem consumes_skip : Consumes Input.size 1 skip :=
  consumes_any.bind_left fun _ => .pure _

theorem wsGo_size (offset : Nat) (chars : List Char) :
    (wsGo offset chars).size ≤ chars.length := by
  induction chars generalizing offset with
  | nil => simp [wsGo, Input.size]
  | cons c rest ih =>
    unfold wsGo
    split
    · exact (ih _).trans (by simp)
    · exact le_rfl

theorem consumes_ws : Consumes Input.size 0 ws := by
  intro input u input' h
  cases h
  exact wsGo_size _ _

theorem consumes_skipString (s : String) : Consumes Input.size 0 (skipString s) := by
  intro input u input' h
  unfold skipString at h
  split at h
  · cases h
    simp [Input.size]
  · cases h

theorem consumes_attemptOr {p : JsonParser α} {fallback : α} (hp : Consumes Input.size 0 p) :
    Consumes Input.size 0 (attemptOr p fallback) := by
  intro input a input' h
  unfold attemptOr at h
  split at h
  next result hresult =>
    cases h
    exact hp _ _ _ hresult
  · cases h
    exact le_rfl

theorem consumes_lookahead (p : Char → Bool) (desc : String) :
    Consumes Input.size 0 (lookahead p desc) := by
  refine consumes_peekChar.bind_left fun c => .ite (.pure _) (consumes_fail _ _)

theorem consumes_hexChar : Consumes Input.size 0 hexChar := by
  refine (consumes_any.mono (Nat.zero_le 1)).bind_left fun c => ?_
  exact .ite (.pure _) (.ite (.pure _) (.ite (.pure _) (consumes_fail _ _)))

theorem consumes_guard {n : Nat} {c : Prop} [Decidable c] {message : String}
    {rest : JsonParser α} (h : Consumes Input.size n rest) :
    Consumes Input.size n (if c then (fail message : JsonParser Unit) >>= fun _ => rest else rest) :=
  .ite (fun _ _ _ h => nomatch h) h

theorem consumes_finishSurrogatePair (low : UInt16) :
    Consumes Input.size 0 (finishSurrogatePair low) := by
  have hany : Consumes Input.size 0 any := consumes_any.mono (Nat.zero_le 1)
  unfold finishSurrogatePair
  dsimp only
  refine hany.bind_left fun c => consumes_guard ?_
  refine hany.bind_left fun c => consumes_guard ?_
  refine hany.bind_left fun c => consumes_guard ?_
  refine consumes_hexChar.bind_left fun u2 => ?_
  refine consumes_hexChar.bind_left fun u3 => ?_
  refine consumes_hexChar.bind_left fun u4 => consumes_guard ?_
  split
  · exact .pure _
  · exact consumes_fail _ _

theorem consumes_escapedChar : Consumes Input.size 0 escapedChar := by
  unfold escapedChar
  refine (consumes_any.mono (Nat.zero_le 1)).bind_left fun c => ?_
  split
  all_goals try exact .pure _
  · refine consumes_hexChar.bind_left fun u1 => consumes_hexChar.bind_left fun u2 =>
      consumes_hexChar.bind_left fun u3 => consumes_hexChar.bind_left fun u4 => ?_
    dsimp only
    split
    · exact .pure _
    · split
      · exact .ite (consumes_attemptOr (consumes_finishSurrogatePair _)) (.pure _)
      · exact .pure _
  · exact consumes_fail _ _

theorem consumes_strCore (budget : Nat) (acc : String) :
    Consumes Input.size 0 (strCore budget acc) := by
  induction budget generalizing acc with
  | zero => exact consumes_fail _ _
  | succ budget ih =>
    have hany : Consumes Input.size 0 any := consumes_any.mono (Nat.zero_le 1)
    refine consumes_peekChar.bind_left fun c => .ite ?_ ?_
    · exact (consumes_skip.mono (Nat.zero_le 1)).bind_left fun _ => .pure _
    · refine hany.bind_left fun c => .ite ?_ (.ite (ih _) (consumes_fail _ _))
      exact consumes_escapedChar.bind_left fun escaped => ih _

theorem consumes_str : Consumes Input.size 0 str := fun input => consumes_strCore _ _ input

theorem strCore_stable {b b' : Nat} {r : Nat} (hb : r < b) (hb' : r < b') (acc : String) :
    AgreeUpTo Input.size r (strCore b acc) (strCore b' acc) := by
  induction b generalizing b' r acc with
  | zero => exact absurd hb (Nat.not_lt_zero r)
  | succ b ih =>
    cases b' with
    | zero => exact absurd hb' (Nat.not_lt_zero r)
    | succ b' =>
      refine (AgreeUpTo.refl _ _).bind consumes_peekChar fun _ c => .ite (.refl _ _) ?_
      refine (AgreeUpTo.refl _ _).bind consumes_any fun hr c => ?_
      have hrest : ∀ acc, AgreeUpTo Input.size (r - 0 - 1) (strCore b acc) (strCore b' acc) :=
        fun acc => ih (by omega) (by omega) acc
      refine .ite ?_ (.ite (hrest _) (.refl _ _))
      exact (AgreeUpTo.refl _ _).bind consumes_escapedChar fun _ escaped => hrest _

theorem natCoreGo_size (acc digits offset : Nat) (chars : List Char) :
    (natCoreGo acc digits offset chars).2.size ≤ chars.length := by
  induction chars generalizing acc digits offset with
  | nil => simp [natCoreGo, Input.size]
  | cons c rest ih =>
    unfold natCoreGo
    split
    · exact (ih _ _ _).trans (by simp)
    · exact le_rfl

theorem consumes_natCoreNumDigits : Consumes Input.size 0 natCoreNumDigits := by
  intro input r input' h
  have hgo := natCoreGo_size 0 0 input.offset input.rest
  rw [Except.ok.inj h] at hgo
  exact hgo

theorem consumes_natCore : Consumes Input.size 0 natCore :=
  consumes_natCoreNumDigits.bind_left fun _ => .pure _

theorem consumes_nat : Consumes Input.size 0 nat := by
  refine consumes_peekChar.bind_left fun c => .ite ?_ ?_
  · exact (consumes_skip.mono (Nat.zero_le 1)).bind_left fun _ => .pure _
  · exact (consumes_lookahead _ _).bind_left fun _ => consumes_natCore

theorem consumes_numSign : Consumes Input.size 0 numSign := by
  refine consumes_peekChar.bind_left fun c => .ite ?_ (.pure _)
  exact (consumes_skip.mono (Nat.zero_le 1)).bind_left fun _ => .pure _

theorem consumes_numWithDecimals : Consumes Input.size 0 numWithDecimals := by
  have hskip : Consumes Input.size 0 skip := consumes_skip.mono (Nat.zero_le 1)
  refine consumes_numSign.bind_left fun sign => consumes_nat.bind_left fun whole =>
    consumes_isEof.bind_left fun ended => .ite (.pure _) ?_
  refine consumes_peekChar.bind_left fun c => .ite ?_ (.pure _)
  refine hskip.bind_left fun _ => ?_
  refine (Consumes.bind_left (consumes_lookahead _ _) fun _ =>
    consumes_natCoreNumDigits).bind_left fun r => ?_
  exact consumes_guard (.pure _)

theorem consumes_natMaybeZero : Consumes Input.size 0 natMaybeZero :=
  (consumes_lookahead _ _).bind_left fun _ => consumes_natCore

theorem consumes_exponent (value : JsonNumber) : Consumes Input.size 0 (exponent value) := by
  have hskip : Consumes Input.size 0 skip := consumes_skip.mono (Nat.zero_le 1)
  refine consumes_isEof.bind_left fun ended => .ite (.pure _) ?_
  refine consumes_peekChar.bind_left fun c => .ite ?_ (.pure _)
  refine hskip.bind_left fun _ => consumes_peekChar.bind_left fun sign => .ite ?_ ?_
  · exact hskip.bind_left fun _ => consumes_natMaybeZero.bind_left fun n => .pure _
  · have hdigits : Consumes Input.size 0 (natMaybeZero >>= fun n =>
        if n > USize.size then (fail "exp too large" : JsonParser Unit) >>= fun _ =>
          pure (value.shiftl n) else pure (value.shiftl n)) :=
      consumes_natMaybeZero.bind_left fun n => consumes_guard (.pure _)
    exact .ite (hskip.bind_left fun _ => hdigits) hdigits

theorem consumes_num : Consumes Input.size 0 num :=
  consumes_numWithDecimals.bind_left fun res => consumes_exponent res

/-! ### Nested values -/

theorem consumes_core (b : Nat) :
    (∀ acc, Consumes Input.size 0 (arrayCore b acc)) ∧
    (∀ kvs, Consumes Input.size 0 (objectCore b kvs)) ∧ Consumes Input.size 0 (anyCore b) := by
  have hskip : Consumes Input.size 0 skip := consumes_skip.mono (Nat.zero_le 1)
  have hany : Consumes Input.size 0 any := consumes_any.mono (Nat.zero_le 1)
  induction b with
  | zero =>
    refine ⟨fun acc => ?_, fun kvs => ?_, ?_⟩
    · rw [arrayCore]; exact consumes_fail _ _
    · rw [objectCore]; exact consumes_fail _ _
    · rw [anyCore]; exact consumes_fail _ _
  | succ b ih =>
    obtain ⟨harray, hobject, hvalue⟩ := ih
    refine ⟨fun acc => ?_, fun kvs => ?_, ?_⟩
    · rw [arrayCore]
      refine hvalue.bind_left fun hd => hany.bind_left fun c => .ite ?_ (.ite ?_ ?_)
      · exact consumes_ws.bind_left fun _ => .pure _
      · exact consumes_ws.bind_left fun _ => harray _
      · exact consumes_fail _ _
    · rw [objectCore]
      refine (consumes_lookahead _ _).bind_left fun _ => hskip.bind_left fun _ =>
        consumes_str.bind_left fun k => consumes_ws.bind_left fun _ =>
        (consumes_lookahead _ _).bind_left fun _ => hskip.bind_left fun _ =>
        consumes_ws.bind_left fun _ => hvalue.bind_left fun v => hany.bind_left fun c =>
        .ite ?_ (.ite ?_ ?_)
      · exact consumes_ws.bind_left fun _ => .pure _
      · exact consumes_ws.bind_left fun _ => hobject _
      · exact consumes_fail _ _
    · rw [anyCore]
      have hclose : ∀ json, Consumes Input.size 0 (do skip; ws; return json : JsonParser Json) :=
        fun json => hskip.bind_left fun _ => consumes_ws.bind_left fun _ => .pure _
      have hword : ∀ word json,
          Consumes Input.size 0 (do skipString word; ws; return json : JsonParser Json) :=
        fun word json => (consumes_skipString word).bind_left fun _ =>
          consumes_ws.bind_left fun _ => .pure _
      refine consumes_peekChar.bind_left fun c => .ite ?_ (.ite ?_ (.ite ?_ (.ite (hword _ _)
        (.ite (hword _ _) (.ite (hword _ _) (.ite ?_ (consumes_fail _ _)))))))
      · exact hskip.bind_left fun _ => consumes_ws.bind_left fun _ =>
          consumes_peekChar.bind_left fun c => .ite (hclose _)
            ((harray _).bind_left fun a => .pure _)
      · exact hskip.bind_left fun _ => consumes_ws.bind_left fun _ =>
          consumes_peekChar.bind_left fun c => .ite (hclose _)
            ((hobject _).bind_left fun a => .pure _)
      · exact hskip.bind_left fun _ => consumes_str.bind_left fun s =>
          consumes_ws.bind_left fun _ => .pure _
      · exact consumes_num.bind_left fun n => consumes_ws.bind_left fun _ => .pure _

/-- Two units a character cover every nested value. -/
theorem core_stable (b : Nat) :
    (∀ b' r acc, 2 * r + 2 ≤ b → 2 * r + 2 ≤ b' →
      AgreeUpTo Input.size r (arrayCore b acc) (arrayCore b' acc)) ∧
    (∀ b' r kvs, 2 * r + 2 ≤ b → 2 * r + 2 ≤ b' →
      AgreeUpTo Input.size r (objectCore b kvs) (objectCore b' kvs)) ∧
    (∀ b' r, 2 * r + 1 ≤ b → 2 * r + 1 ≤ b' →
      AgreeUpTo Input.size r (anyCore b) (anyCore b')) := by
  induction b with
  | zero =>
    refine ⟨?_, ?_, ?_⟩
    · exact fun _ _ _ h => absurd h (Nat.not_succ_le_zero _)
    · exact fun _ _ _ h => absurd h (Nat.not_succ_le_zero _)
    · exact fun _ _ h => absurd h (Nat.not_succ_le_zero _)
  | succ b ih =>
    obtain ⟨harray, hobject, hvalue⟩ := ih
    refine ⟨?_, ?_, ?_⟩ <;> intro b' <;> cases b' with
    | zero => intros; omega
    | succ b' => ?_
    · intro r acc hb hb'
      rw [arrayCore, arrayCore]
      refine (hvalue b' r (by omega) (by omega)).bind (consumes_core b).2.2 fun _ hd => ?_
      refine (AgreeUpTo.refl _ _).bind consumes_any fun hr c => .ite (.refl _ _)
        (.ite ?_ (.refl _ _))
      refine (AgreeUpTo.refl _ _).bind consumes_ws fun _ _ => ?_
      exact harray b' _ _ (by omega) (by omega)
    · intro r kvs hb hb'
      rw [objectCore, objectCore]
      refine (AgreeUpTo.refl _ _).bind (consumes_lookahead _ _) fun _ _ => ?_
      refine (AgreeUpTo.refl _ _).bind consumes_skip fun hr _ => ?_
      refine (AgreeUpTo.refl _ _).bind consumes_str fun _ k => ?_
      refine (AgreeUpTo.refl _ _).bind consumes_ws fun _ _ => ?_
      refine (AgreeUpTo.refl _ _).bind (consumes_lookahead _ _) fun _ _ => ?_
      refine (AgreeUpTo.refl _ _).bind consumes_skip fun hr' _ => ?_
      refine (AgreeUpTo.refl _ _).bind consumes_ws fun _ _ => ?_
      refine (hvalue b' _ (by omega) (by omega)).bind (consumes_core b).2.2 fun _ v => ?_
      refine (AgreeUpTo.refl _ _).bind consumes_any fun hr'' c => .ite (.refl _ _)
        (.ite ?_ (.refl _ _))
      refine (AgreeUpTo.refl _ _).bind consumes_ws fun _ _ => ?_
      exact hobject b' _ _ (by omega) (by omega)
    · intro r hb hb'
      rw [anyCore, anyCore]
      refine (AgreeUpTo.refl _ _).bind consumes_peekChar fun _ c => .ite ?_ (.ite ?_ (.refl _ _))
      · refine (AgreeUpTo.refl _ _).bind consumes_skip fun hr _ => ?_
        refine (AgreeUpTo.refl _ _).bind consumes_ws fun _ _ => ?_
        refine (AgreeUpTo.refl _ _).bind consumes_peekChar fun _ c => .ite (.refl _ _) ?_
        exact (harray b' _ _ (by omega) (by omega)).bind ((consumes_core b).1 _) fun _ _ =>
          .refl _ _
      · refine (AgreeUpTo.refl _ _).bind consumes_skip fun hr _ => ?_
        refine (AgreeUpTo.refl _ _).bind consumes_ws fun _ _ => ?_
        refine (AgreeUpTo.refl _ _).bind consumes_peekChar fun _ c => .ite (.refl _ _) ?_
        exact (hobject b' _ _ (by omega) (by omega)).bind ((consumes_core b).2.1 _) fun _ _ =>
          .refl _ _

theorem anyCore_budget {input : Input} {budget : Nat} (h : 2 * input.size + 2 ≤ budget) :
    anyCore budget input = anyCore (2 * input.size + 2) input :=
  (core_stable budget).2.2 _ input.size (by omega) (by omega) input le_rfl

end MirrorsCore.Json.Parser
