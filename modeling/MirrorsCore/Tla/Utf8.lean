import Mathlib
import MirrorsCore.Lib.WhileLoop

/-! The strict UTF-8 decoder (`Core/Tla/Source.lean`): it reads exactly the
canonical encodings, so a valid unit decodes to its characters. -/

namespace MirrorsCore.Tla
open Lib

/-- Why a byte sequence is not UTF-8; the offset is its first byte. -/
inductive Utf8Problem where
  | unexpectedContinuationByte (offset : Nat)
  | truncatedSequence (offset expectedBytes availableBytes : Nat)
  | overlongEncoding (offset : Nat)
  | surrogateCodePoint (offset : Nat)
  | codePointOutOfRange (offset : Nat)
  deriving DecidableEq

structure Utf8Violation where
  offset : Nat
  problem : Utf8Problem
  deriving DecidableEq

def byteAt (bytes : ByteArray) (offset : Nat) : UInt8 := bytes.get! offset

def continuationByte (bytes : ByteArray) (offset : Nat) : Bool :=
  let byte := byteAt bytes offset
  0x80 ≤ byte.toNat && byte.toNat ≤ 0xBF

/-- Decode the scalar at `offset`, with its byte width. -/
def decodeUtf8At (bytes : ByteArray) (offset : Nat) : Except Utf8Problem (Char × Nat) :=
  if offset ≥ bytes.size then
    .error (.truncatedSequence offset 1 0)
  else
    let lead := (byteAt bytes offset).toNat
    if lead ≤ 0x7F then
      .ok (Char.ofNat lead, 1)
    else if lead ≤ 0xBF then
      .error (.unexpectedContinuationByte offset)
    else if lead ≤ 0xC1 then
      .error (.overlongEncoding offset)
    else if lead ≤ 0xDF then
      if offset + 1 ≥ bytes.size then
        .error (.truncatedSequence offset 2 (bytes.size - offset))
      else if !(continuationByte bytes (offset + 1)) then
        .error (.unexpectedContinuationByte (offset + 1))
      else
        let value := (lead - 0xC0) * 0x40 + ((byteAt bytes (offset + 1)).toNat - 0x80)
        .ok (Char.ofNat value, 2)
    else if lead ≤ 0xEF then
      if offset + 2 ≥ bytes.size then
        .error (.truncatedSequence offset 3 (bytes.size - offset))
      else
        let second := (byteAt bytes (offset + 1)).toNat
        let third := (byteAt bytes (offset + 2)).toNat
        if lead == 0xE0 && second < 0xA0 then
          .error (.overlongEncoding offset)
        else if lead == 0xED && 0xA0 ≤ second then
          .error (.surrogateCodePoint offset)
        else if second < 0x80 || second > 0xBF then
          .error (.unexpectedContinuationByte (offset + 1))
        else if third < 0x80 || third > 0xBF then
          .error (.unexpectedContinuationByte (offset + 2))
        else
          let value := (lead - 0xE0) * 0x1000 + (second - 0x80) * 0x40 + (third - 0x80)
          .ok (Char.ofNat value, 3)
    else if lead ≤ 0xF4 then
      if offset + 3 ≥ bytes.size then
        .error (.truncatedSequence offset 4 (bytes.size - offset))
      else
        let second := (byteAt bytes (offset + 1)).toNat
        let third := (byteAt bytes (offset + 2)).toNat
        let fourth := (byteAt bytes (offset + 3)).toNat
        if lead == 0xF0 && second < 0x90 then
          .error (.overlongEncoding offset)
        else if lead == 0xF4 && 0x90 ≤ second then
          .error (.codePointOutOfRange offset)
        else if second < 0x80 || second > 0xBF then
          .error (.unexpectedContinuationByte (offset + 1))
        else if third < 0x80 || third > 0xBF then
          .error (.unexpectedContinuationByte (offset + 2))
        else if fourth < 0x80 || fourth > 0xBF then
          .error (.unexpectedContinuationByte (offset + 3))
        else
          let value := (lead - 0xF0) * 0x40000 + (second - 0x80) * 0x1000 +
            (third - 0x80) * 0x40 + (fourth - 0x80)
          .ok (Char.ofNat value, 4)
    else
      .error (.codePointOutOfRange offset)

/-! ### The bytes of a scalar -/

theorem size_eq_length (bytes : ByteArray) : bytes.size = bytes.data.toList.length := rfl

theorem byteAt_eq (bytes : ByteArray) (offset : Nat) :
    byteAt bytes offset = (bytes.data.toList[offset]?).getD 0 := by
  change bytes.data[offset]! = _
  rw [Array.getElem!_eq_getD, Array.getD_eq_getD_getElem?, Array.getElem?_toList]
  rfl

section Window
variable {bytes : ByteArray} {offset : Nat}

theorem byteAt_of_drop {window : List UInt8} (h : bytes.data.toList.drop offset = window)
    {index : Nat} {byte : UInt8} (hbyte : window[index]? = some byte) :
    byteAt bytes (offset + index) = byte ∧ offset + index < bytes.size := by
  rw [← h, List.getElem?_drop] at hbyte
  rw [byteAt_eq, hbyte]
  exact ⟨rfl, (List.getElem?_eq_some_iff.1 hbyte).1⟩

theorem drop_of_lt (h : offset < bytes.size) :
    bytes.data.toList.drop offset = byteAt bytes offset :: bytes.data.toList.drop (offset + 1) := by
  rw [List.drop_eq_getElem_cons h, byteAt_eq, List.getElem?_eq_getElem h]
  rfl

end Window

theorem toNat_ofNat_of_lt {n : Nat} (h : n < 256) : (UInt8.ofNat n).toNat = n := by
  rw [UInt8.toNat_ofNat']
  exact Nat.mod_eq_of_lt h

/-- The bytes of a scalar, by the size of its code. -/
inductive Encoding (c : Char) : List UInt8 → Prop
  | one (h : c.toNat ≤ 0x7F) : Encoding c [UInt8.ofNat c.toNat]
  | two (h : 0x7F < c.toNat) (h' : c.toNat ≤ 0x7FF) :
      Encoding c [UInt8.ofNat (c.toNat / 64 + 0xC0), UInt8.ofNat (c.toNat % 64 + 0x80)]
  | three (h : 0x7FF < c.toNat) (h' : c.toNat ≤ 0xFFFF) :
      Encoding c [UInt8.ofNat (c.toNat / 4096 + 0xE0), UInt8.ofNat (c.toNat / 64 % 64 + 0x80),
        UInt8.ofNat (c.toNat % 64 + 0x80)]
  | four (h : 0xFFFF < c.toNat) :
      Encoding c [UInt8.ofNat (c.toNat / 262144 + 0xF0), UInt8.ofNat (c.toNat / 4096 % 64 + 0x80),
        UInt8.ofNat (c.toNat / 64 % 64 + 0x80), UInt8.ofNat (c.toNat % 64 + 0x80)]

theorem toNat_lt (c : Char) : c.toNat < 0x110000 := by
  rcases c.valid with h | h <;> unfold Char.toNat <;> omega

theorem toNat_not_surrogate (c : Char) : c.toNat < 0xD800 ∨ 0xDFFF < c.toNat := by
  rcases c.valid with h | h
  · exact Or.inl h
  · exact Or.inr h.1

theorem encoding_utf8EncodeChar (c : Char) : Encoding c (String.utf8EncodeChar c) := by
  have hlt := toNat_lt c
  have hcode : c.val.toNat = c.toNat := rfl
  unfold String.utf8EncodeChar
  rw [hcode]
  dsimp only
  split_ifs with hone htwo hthree
  · exact .one hone
  · rw [Nat.mod_eq_of_lt (by omega : c.toNat / 64 < 0x20)]
    exact .two (by omega) htwo
  · rw [Nat.mod_eq_of_lt (by omega : c.toNat / 4096 < 0x10)]
    exact .three (by omega) hthree
  · rw [Nat.mod_eq_of_lt (by omega : c.toNat / 262144 < 0x08)]
    exact .four (by omega)

/-! ### Decoding -/

/-- The sequences that the decoder reads. -/
inductive Decoded (bytes : ByteArray) (offset : Nat) : Char → Nat → Prop
  | one {a : Nat} (hsize : offset < bytes.size) (hlead : (byteAt bytes offset).toNat = a)
      (ha : a ≤ 0x7F) : Decoded bytes offset (Char.ofNat a) 1
  | two {a b : Nat} (hsize : offset + 1 < bytes.size) (hlead : (byteAt bytes offset).toNat = a)
      (hsecond : (byteAt bytes (offset + 1)).toNat = b) (ha : 0xC2 ≤ a ∧ a ≤ 0xDF)
      (hb : 0x80 ≤ b ∧ b ≤ 0xBF) :
      Decoded bytes offset (Char.ofNat ((a - 0xC0) * 0x40 + (b - 0x80))) 2
  | three {a b d : Nat} (hsize : offset + 2 < bytes.size)
      (hlead : (byteAt bytes offset).toNat = a) (hsecond : (byteAt bytes (offset + 1)).toNat = b)
      (hthird : (byteAt bytes (offset + 2)).toNat = d) (ha : 0xE0 ≤ a ∧ a ≤ 0xEF)
      (hb : 0x80 ≤ b ∧ b ≤ 0xBF) (hd : 0x80 ≤ d ∧ d ≤ 0xBF) (hshort : a = 0xE0 → 0xA0 ≤ b)
      (hsurrogate : a = 0xED → b < 0xA0) :
      Decoded bytes offset
        (Char.ofNat ((a - 0xE0) * 0x1000 + (b - 0x80) * 0x40 + (d - 0x80))) 3
  | four {a b d e : Nat} (hsize : offset + 3 < bytes.size)
      (hlead : (byteAt bytes offset).toNat = a) (hsecond : (byteAt bytes (offset + 1)).toNat = b)
      (hthird : (byteAt bytes (offset + 2)).toNat = d)
      (hfourth : (byteAt bytes (offset + 3)).toNat = e) (ha : 0xF0 ≤ a ∧ a ≤ 0xF4)
      (hb : 0x80 ≤ b ∧ b ≤ 0xBF) (hd : 0x80 ≤ d ∧ d ≤ 0xBF) (he : 0x80 ≤ e ∧ e ≤ 0xBF)
      (hshort : a = 0xF0 → 0x90 ≤ b) (hlong : a = 0xF4 → b < 0x90) :
      Decoded bytes offset
        (Char.ofNat ((a - 0xF0) * 0x40000 + (b - 0x80) * 0x1000 + (d - 0x80) * 0x40 +
          (e - 0x80))) 4

section Decode
variable {bytes : ByteArray} {offset width : Nat} {c : Char}

theorem not_of_ite_ok {α ε : Type} {p : Prop} [Decidable p] {e : ε} {m : Except ε α} {a : α}
    (h : (if p then .error e else m) = .ok a) : ¬ p ∧ m = .ok a := by
  by_cases hp : p
  · rw [if_pos hp] at h
    cases h
  · rw [if_neg hp] at h
    exact ⟨hp, h⟩

theorem continuation_of_not {n : Nat} (h : ¬ (decide (n < 0x80) || decide (n > 0xBF)) = true) :
    0x80 ≤ n ∧ n ≤ 0xBF := by
  simp only [Bool.or_eq_true, decide_eq_true_eq] at h
  omega

theorem imp_of_not {a n : Nat} {p : Prop} [Decidable p]
    (h : ¬ ((a == n) && decide p) = true) : a = n → ¬ p := by
  simp only [Bool.and_eq_true, beq_iff_eq, decide_eq_true_eq] at h
  exact fun ha hp => h ⟨ha, hp⟩

theorem decoded_of_decodeUtf8At (h : decodeUtf8At bytes offset = .ok (c, width)) :
    Decoded bytes offset c width := by
  unfold decodeUtf8At at h
  obtain ⟨hsize, h⟩ := not_of_ite_ok h
  dsimp only at h
  by_cases hone : (byteAt bytes offset).toNat ≤ 0x7F
  · rw [if_pos hone] at h
    obtain ⟨rfl, rfl⟩ := Prod.mk.inj (Except.ok.inj h)
    exact .one (Nat.lt_of_not_le hsize) rfl hone
  rw [if_neg hone] at h
  -- The lead byte tells the width; every rejected branch leaves a bound behind.
  obtain ⟨hcontinuation, h⟩ := not_of_ite_ok h
  obtain ⟨hoverlong, h⟩ := not_of_ite_ok h
  by_cases htwo : (byteAt bytes offset).toNat ≤ 0xDF
  · rw [if_pos htwo] at h
    obtain ⟨hsize, h⟩ := not_of_ite_ok h
    obtain ⟨hsecond, h⟩ := not_of_ite_ok h
    obtain ⟨rfl, rfl⟩ := Prod.mk.inj (Except.ok.inj h)
    unfold continuationByte at hsecond
    rw [Bool.not_eq_true', Bool.not_eq_false, Bool.and_eq_true, decide_eq_true_eq,
      decide_eq_true_eq] at hsecond
    exact .two (Nat.lt_of_not_le hsize) rfl rfl ⟨Nat.lt_of_not_le hoverlong, htwo⟩ hsecond
  rw [if_neg htwo] at h
  by_cases hthree : (byteAt bytes offset).toNat ≤ 0xEF
  · rw [if_pos hthree] at h
    obtain ⟨hsize, h⟩ := not_of_ite_ok h
    obtain ⟨hshort, h⟩ := not_of_ite_ok h
    obtain ⟨hsurrogate, h⟩ := not_of_ite_ok h
    obtain ⟨hsecond, h⟩ := not_of_ite_ok h
    obtain ⟨hthird, h⟩ := not_of_ite_ok h
    obtain ⟨rfl, rfl⟩ := Prod.mk.inj (Except.ok.inj h)
    exact .three (Nat.lt_of_not_le hsize) rfl rfl rfl ⟨Nat.lt_of_not_le htwo, hthree⟩
      (continuation_of_not hsecond) (continuation_of_not hthird)
      (fun ha => Nat.le_of_not_lt (imp_of_not hshort ha))
      fun ha => Nat.lt_of_not_le (imp_of_not hsurrogate ha)
  rw [if_neg hthree] at h
  by_cases hfour : (byteAt bytes offset).toNat ≤ 0xF4
  · rw [if_pos hfour] at h
    obtain ⟨hsize, h⟩ := not_of_ite_ok h
    obtain ⟨hshort, h⟩ := not_of_ite_ok h
    obtain ⟨hlong, h⟩ := not_of_ite_ok h
    obtain ⟨hsecond, h⟩ := not_of_ite_ok h
    obtain ⟨hthird, h⟩ := not_of_ite_ok h
    obtain ⟨hfourth, h⟩ := not_of_ite_ok h
    obtain ⟨rfl, rfl⟩ := Prod.mk.inj (Except.ok.inj h)
    exact .four (Nat.lt_of_not_le hsize) rfl rfl rfl rfl ⟨Nat.lt_of_not_le hthree, hfour⟩
      (continuation_of_not hsecond) (continuation_of_not hthird) (continuation_of_not hfourth)
      (fun ha => Nat.le_of_not_lt (imp_of_not hshort ha))
      fun ha => Nat.lt_of_not_le (imp_of_not hlong ha)
  · rw [if_neg hfour] at h
    cases h

theorem decodeUtf8At_of_decoded (h : Decoded bytes offset c width) :
    decodeUtf8At bytes offset = .ok (c, width) := by
  unfold decodeUtf8At
  dsimp only
  cases h with
  | one hsize hlead ha =>
    subst hlead
    rw [if_neg (Nat.not_le.2 hsize), if_pos ha]
  | two hsize hlead hsecond ha hb =>
    subst hlead hsecond
    have hcontinuation : continuationByte bytes (offset + 1) = true := by
      unfold continuationByte
      dsimp only
      rw [decide_eq_true hb.1, decide_eq_true hb.2]
      rfl
    rw [if_neg (by omega), if_neg (by omega), if_neg (by omega), if_neg (by omega),
      if_pos ha.2, if_neg (Nat.not_le.2 hsize), hcontinuation]
    rfl
  | three hsize hlead hsecond hthird ha hb hd hshort hsurrogate =>
    subst hlead hsecond hthird
    rw [if_neg (by omega), if_neg (by omega), if_neg (by omega), if_neg (by omega),
      if_neg (by omega), if_pos ha.2, if_neg (Nat.not_le.2 hsize), if_neg, if_neg, if_neg, if_neg]
    all_goals
      simp only [Bool.and_eq_true, Bool.or_eq_true, beq_iff_eq, decide_eq_true_eq]
      omega
  | four hsize hlead hsecond hthird hfourth ha hb hd he hshort hlong =>
    subst hlead hsecond hthird hfourth
    rw [if_neg (by omega), if_neg (by omega), if_neg (by omega), if_neg (by omega),
      if_neg (by omega), if_neg (by omega), if_pos ha.2, if_neg (Nat.not_le.2 hsize), if_neg,
      if_neg, if_neg, if_neg, if_neg]
    all_goals
      simp only [Bool.and_eq_true, Bool.or_eq_true, beq_iff_eq, decide_eq_true_eq]
      omega

theorem decoded_of_drop {rest : List UInt8}
    (h : bytes.data.toList.drop offset = String.utf8EncodeChar c ++ rest) :
    Decoded bytes offset c c.utf8Size := by
  have hlt := toNat_lt c
  have hscalar := toNat_not_surrogate c
  have hencoding := encoding_utf8EncodeChar c
  rw [← String.length_utf8EncodeChar c]
  generalize String.utf8EncodeChar c = sequence at h hencoding ⊢
  have hbyte (index : Nat) {n : Nat} (hn : n < 256)
      (hindex : sequence[index]? = some (UInt8.ofNat n)) :
      (byteAt bytes (offset + index)).toNat = n ∧ offset + index < bytes.size := by
    have hlength := (List.getElem?_eq_some_iff.1 hindex).1
    rw [← List.getElem?_append_left hlength] at hindex
    obtain ⟨hwindow, hsize⟩ := byteAt_of_drop h hindex
    rw [hwindow, toNat_ofNat_of_lt hn]
    exact ⟨rfl, hsize⟩
  cases hencoding with
  | one h1 =>
    obtain ⟨hlead, hsize⟩ := hbyte 0 (by omega) rfl
    have hone := Decoded.one hsize hlead h1
    rwa [Char.ofNat_toNat] at hone
  | two h1 h2 =>
    obtain ⟨hlead, -⟩ := hbyte 0 (by omega) rfl
    obtain ⟨hsecond, hsize⟩ := hbyte 1 (by omega) rfl
    have htwo := Decoded.two hsize hlead hsecond (by omega) (by omega)
    have hvalue : (c.toNat / 64 + 0xC0 - 0xC0) * 0x40 + (c.toNat % 64 + 0x80 - 0x80) = c.toNat := by
      omega
    rwa [hvalue, Char.ofNat_toNat] at htwo
  | three h1 h2 =>
    obtain ⟨hlead, -⟩ := hbyte 0 (by omega) rfl
    obtain ⟨hsecond, -⟩ := hbyte 1 (by omega) rfl
    obtain ⟨hthird, hsize⟩ := hbyte 2 (by omega) rfl
    have hthree := Decoded.three hsize hlead hsecond hthird (by omega) (by omega) (by omega)
      (by omega) (by omega)
    have hvalue : (c.toNat / 4096 + 0xE0 - 0xE0) * 0x1000 + (c.toNat / 64 % 64 + 0x80 - 0x80) * 0x40 +
        (c.toNat % 64 + 0x80 - 0x80) = c.toNat := by
      omega
    rwa [hvalue, Char.ofNat_toNat] at hthree
  | four h1 =>
    obtain ⟨hlead, -⟩ := hbyte 0 (by omega) rfl
    obtain ⟨hsecond, -⟩ := hbyte 1 (by omega) rfl
    obtain ⟨hthird, -⟩ := hbyte 2 (by omega) rfl
    obtain ⟨hfourth, hsize⟩ := hbyte 3 (by omega) rfl
    have hfour := Decoded.four hsize hlead hsecond hthird hfourth (by omega) (by omega) (by omega)
      (by omega) (by omega) (by omega)
    have hvalue : (c.toNat / 262144 + 0xF0 - 0xF0) * 0x40000 +
        (c.toNat / 4096 % 64 + 0x80 - 0x80) * 0x1000 + (c.toNat / 64 % 64 + 0x80 - 0x80) * 0x40 +
        (c.toNat % 64 + 0x80 - 0x80) = c.toNat := by
      omega
    rwa [hvalue, Char.ofNat_toNat] at hfour

theorem toNat_ofNat {n : Nat} (h : n < 0xD800 ∨ 0xDFFF < n ∧ n < 0x110000) :
    (Char.ofNat n).toNat = n := by
  unfold Char.ofNat
  rw [dif_pos h]
  rfl

theorem eq_ofNat {byte : UInt8} {n : Nat} (h : byte.toNat = n) : byte = UInt8.ofNat n := by
  rw [← h, UInt8.ofNat_toNat]

theorem drop_of_decoded (h : Decoded bytes offset c width) :
    bytes.data.toList.drop offset =
        String.utf8EncodeChar c ++ bytes.data.toList.drop (offset + width) ∧
      width = c.utf8Size := by
  rw [← String.length_utf8EncodeChar c]
  have hencoding := encoding_utf8EncodeChar c
  generalize String.utf8EncodeChar c = sequence at hencoding ⊢
  cases h with
  | @one a hsize hlead ha =>
    have hvalue := toNat_ofNat (n := a) (by omega)
    cases hencoding with
    | one _ =>
      rw [drop_of_lt hsize, eq_ofNat hlead, hvalue]
      exact ⟨rfl, rfl⟩
    | _ => omega
  | @two a b hsize hlead hsecond ha hb =>
    have hvalue := toNat_ofNat (n := (a - 0xC0) * 0x40 + (b - 0x80)) (by omega)
    have hlead' : (byteAt bytes offset).toNat =
        ((a - 0xC0) * 0x40 + (b - 0x80)) / 64 + 0xC0 := by omega
    have hsecond' : (byteAt bytes (offset + 1)).toNat =
        ((a - 0xC0) * 0x40 + (b - 0x80)) % 64 + 0x80 := by omega
    cases hencoding with
    | two _ _ =>
      rw [drop_of_lt (by omega), drop_of_lt hsize, eq_ofNat hlead', eq_ofNat hsecond', hvalue]
      exact ⟨rfl, rfl⟩
    | _ => omega
  | @three a b d hsize hlead hsecond hthird ha hb hd hshort hsurrogate =>
    have hvalue := toNat_ofNat (n := (a - 0xE0) * 0x1000 + (b - 0x80) * 0x40 + (d - 0x80))
      (by omega)
    generalize hv : (a - 0xE0) * 0x1000 + (b - 0x80) * 0x40 + (d - 0x80) = v at *
    have hlead' : (byteAt bytes offset).toNat = v / 4096 + 0xE0 := by omega
    have hsecond' : (byteAt bytes (offset + 1)).toNat = v / 64 % 64 + 0x80 := by omega
    have hthird' : (byteAt bytes (offset + 2)).toNat = v % 64 + 0x80 := by omega
    cases hencoding with
    | three _ _ =>
      rw [drop_of_lt (by omega), drop_of_lt (by omega), drop_of_lt hsize, eq_ofNat hlead',
        eq_ofNat hsecond', eq_ofNat hthird', hvalue]
      exact ⟨rfl, rfl⟩
    | _ => omega
  | @four a b d e hsize hlead hsecond hthird hfourth ha hb hd he hshort hlong =>
    have hvalue := toNat_ofNat (n := (a - 0xF0) * 0x40000 + (b - 0x80) * 0x1000 +
      (d - 0x80) * 0x40 + (e - 0x80)) (by omega)
    generalize hv : (a - 0xF0) * 0x40000 + (b - 0x80) * 0x1000 + (d - 0x80) * 0x40 +
      (e - 0x80) = v at *
    have hlead' : (byteAt bytes offset).toNat = v / 262144 + 0xF0 := by omega
    have hsecond' : (byteAt bytes (offset + 1)).toNat = v / 4096 % 64 + 0x80 := by omega
    have hthird' : (byteAt bytes (offset + 2)).toNat = v / 64 % 64 + 0x80 := by omega
    have hfourth' : (byteAt bytes (offset + 3)).toNat = v % 64 + 0x80 := by omega
    cases hencoding with
    | four _ =>
      rw [drop_of_lt (by omega), drop_of_lt (by omega), drop_of_lt (by omega), drop_of_lt hsize,
        eq_ofNat hlead', eq_ofNat hsecond', eq_ofNat hthird', eq_ofNat hfourth', hvalue]
      exact ⟨rfl, rfl⟩
    | _ => omega

theorem decodeUtf8At_iff :
    decodeUtf8At bytes offset = .ok (c, width) ↔
      bytes.data.toList.drop offset =
          String.utf8EncodeChar c ++ bytes.data.toList.drop (offset + width) ∧
        width = c.utf8Size := by
  constructor
  · exact fun h => drop_of_decoded (decoded_of_decodeUtf8At h)
  · rintro ⟨hdrop, rfl⟩
    exact decodeUtf8At_of_decoded (decoded_of_drop hdrop)

end Decode

/-! ### Validation -/

structure Utf8Scan where
  offset : Nat := 0
  violation : Option Utf8Violation := none

def utf8ScanStep (bytes : ByteArray) (scan : Utf8Scan) : Utf8Scan :=
  match decodeUtf8At bytes scan.offset with
  | .ok decoded => { scan with offset := scan.offset + decoded.2 }
  | .error problem =>
      { offset := scan.offset + 1, violation := some ⟨scan.offset, problem⟩ }

def validateUtf8 (bytes : ByteArray) : Option Utf8Violation :=
  (whileLoop (fun scan => bytes.size - scan.offset)
    (fun scan => scan.offset < bytes.size && scan.violation.isNone) (utf8ScanStep bytes)
    {}).violation

def encodeChars (cs : List Char) : List UInt8 := cs.flatMap String.utf8EncodeChar

@[simp] theorem encodeChars_nil : encodeChars [] = [] := rfl

theorem encodeChars_cons (c : Char) (cs : List Char) :
    encodeChars (c :: cs) = String.utf8EncodeChar c ++ encodeChars cs := rfl

theorem encodeChars_append (front back : List Char) :
    encodeChars (front ++ back) = encodeChars front ++ encodeChars back :=
  List.flatMap_append

theorem toList_toUTF8_ofList (cs : List Char) :
    (String.ofList cs).toUTF8.data.toList = encodeChars cs := by
  rw [String.toUTF8_eq_toByteArray, String.toByteArray_ofList]
  unfold List.utf8Encode
  rw [List.data_toByteArray]
  rfl

theorem isValidUTF8_iff {bytes : ByteArray} :
    bytes.IsValidUTF8 ↔ ∃ cs, bytes.data.toList = encodeChars cs := by
  constructor
  · rintro ⟨cs, rfl⟩
    refine ⟨cs, ?_⟩
    unfold List.utf8Encode
    rw [List.data_toByteArray]
    rfl
  · rintro ⟨cs, hcs⟩
    refine ⟨cs, ?_⟩
    apply ByteArray.ext
    rw [← Array.toList_inj, hcs]
    unfold List.utf8Encode
    rw [List.data_toByteArray]
    rfl

theorem utf8Size_pos (c : Char) : 0 < c.utf8Size := Char.utf8Size_pos c

theorem add_width_le {bytes : ByteArray} {offset : Nat} {decoded : Char × Nat}
    (h : decodeUtf8At bytes offset = .ok decoded) :
    0 < decoded.2 ∧ offset + decoded.2 ≤ bytes.size := by
  obtain ⟨hdrop, hwidth⟩ := decodeUtf8At_iff.1 (show _ = Except.ok (decoded.1, decoded.2) from h)
  have hlength := congrArg List.length hdrop
  rw [List.length_append, List.length_drop, List.length_drop, String.length_utf8EncodeChar,
    ← hwidth, ← size_eq_length] at hlength
  have hpos := utf8Size_pos decoded.1
  rw [← hwidth] at hpos
  exact ⟨hpos, by omega⟩

/-- The text before the offset is decoded; a violation rules the rest out. -/
structure Utf8Scan.Sound (bytes : ByteArray) (scan : Utf8Scan) : Prop where
  decoded : scan.violation = none → scan.offset ≤ bytes.size ∧
    ∃ cs, bytes.data.toList = encodeChars cs ++ bytes.data.toList.drop scan.offset
  refuted : scan.violation ≠ none → ¬ bytes.IsValidUTF8

theorem scalar_unique (bytes : ByteArray) {offset : Nat} {c d : Char} {rest rest' : List UInt8}
    (h : bytes.data.toList.drop offset = String.utf8EncodeChar c ++ rest)
    (h' : bytes.data.toList.drop offset = String.utf8EncodeChar d ++ rest') : c = d := by
  have hc := decodeUtf8At_of_decoded (decoded_of_drop h)
  rw [decodeUtf8At_of_decoded (decoded_of_drop h')] at hc
  exact (congrArg Prod.fst (Except.ok.inj hc)).symm

theorem exists_rest_of_prefix {bytes : ByteArray} {front cs : List Char} {offset : Nat}
    (hsplit : bytes.data.toList = encodeChars front ++ bytes.data.toList.drop offset)
    (hcs : bytes.data.toList = encodeChars cs) :
    ∃ rest, bytes.data.toList.drop offset = encodeChars rest := by
  generalize bytes.data.toList.drop offset = tail at hsplit
  rw [hcs] at hsplit
  clear hcs
  induction front generalizing cs with
  | nil => exact ⟨cs, hsplit.symm⟩
  | cons c front ih =>
    cases cs with
    | nil =>
      have hlength := congrArg List.length hsplit
      rw [encodeChars_cons, encodeChars_nil, List.length_append, List.length_append,
        String.length_utf8EncodeChar] at hlength
      have hpos := utf8Size_pos c
      simp at hlength
      omega
    | cons d cs =>
      -- Both scalars are what the decoder reads at the start.
      have hfirst : (encodeChars (d :: cs)).drop 0 =
          String.utf8EncodeChar d ++ encodeChars cs := rfl
      have hother : (encodeChars (d :: cs)).drop 0 =
          String.utf8EncodeChar c ++ (encodeChars front ++ tail) := by
        rw [List.drop_zero, ← List.append_assoc, ← encodeChars_cons]
        exact hsplit
      obtain rfl := scalar_unique ⟨(encodeChars (d :: cs)).toArray⟩ hfirst hother
      rw [encodeChars_cons, encodeChars_cons, List.append_assoc] at hsplit
      exact ih (List.append_cancel_left hsplit)

theorem drop_add {bytes : ByteArray} {front : List UInt8} {offset width : Nat}
    (h : bytes.data.toList.drop offset = front ++ bytes.data.toList.drop (offset + width))
    {done : List UInt8} (hdone : bytes.data.toList = done ++ bytes.data.toList.drop offset) :
    bytes.data.toList = (done ++ front) ++ bytes.data.toList.drop (offset + width) := by
  rw [List.append_assoc, ← h]
  exact hdone

theorem sound_utf8ScanStep {bytes : ByteArray} {scan : Utf8Scan} (hsound : scan.Sound bytes)
    (htest : (scan.offset < bytes.size && scan.violation.isNone) = true) :
    (utf8ScanStep bytes scan).Sound bytes ∧
      bytes.size - (utf8ScanStep bytes scan).offset < bytes.size - scan.offset := by
  rw [Bool.and_eq_true, decide_eq_true_eq, Option.isNone_iff_eq_none] at htest
  obtain ⟨hlt, hnone⟩ := htest
  obtain ⟨-, cs, hcs⟩ := hsound.decoded hnone
  unfold utf8ScanStep
  cases hdecode : decodeUtf8At bytes scan.offset with
  | ok decoded =>
    obtain ⟨hpos, hle⟩ := add_width_le hdecode
    have hdrop := (decodeUtf8At_iff.1
      (show _ = Except.ok (decoded.1, decoded.2) from hdecode)).1
    refine ⟨⟨fun _ => ⟨hle, cs ++ [decoded.1], ?_⟩, fun h => absurd hnone h⟩, ?_⟩
    · rw [encodeChars_append, encodeChars_cons, encodeChars_nil, List.append_nil]
      exact drop_add hdrop hcs
    · dsimp only
      omega
  | error problem =>
    refine ⟨⟨nofun, fun _ hvalid => ?_⟩, ?_⟩
    · obtain ⟨all, hall⟩ := isValidUTF8_iff.1 hvalid
      obtain ⟨rest, hrest⟩ := exists_rest_of_prefix hcs hall
      cases rest with
      | nil =>
        have hlength := congrArg List.length hrest
        rw [List.length_drop, ← size_eq_length, encodeChars_nil, List.length_nil] at hlength
        omega
      | cons c rest =>
        rw [encodeChars_cons] at hrest
        rw [decodeUtf8At_of_decoded (decoded_of_drop hrest)] at hdecode
        cases hdecode
    · dsimp only
      omega

/-- The validator accepts exactly the encodings of texts. -/
theorem validateUtf8_iff (bytes : ByteArray) : validateUtf8 bytes = none ↔ bytes.IsValidUTF8 := by
  have hstart : Utf8Scan.Sound bytes {} :=
    ⟨fun _ => ⟨Nat.zero_le _, [], rfl⟩, fun h => absurd rfl h⟩
  obtain ⟨hsound, hdone⟩ := whileLoop_spec (Utf8Scan.Sound bytes)
    (fun scan => bytes.size - scan.offset)
    (fun scan => scan.offset < bytes.size && scan.violation.isNone) (utf8ScanStep bytes) {}
    (fun scan hscan htest => sound_utf8ScanStep hscan htest) hstart
  unfold validateUtf8
  generalize whileLoop (fun scan : Utf8Scan => bytes.size - scan.offset)
    (fun scan => scan.offset < bytes.size && scan.violation.isNone) (utf8ScanStep bytes) {} = scan
    at hsound hdone
  constructor
  · intro hnone
    obtain ⟨hle, cs, hcs⟩ := hsound.decoded hnone
    rw [hnone, Option.isNone_none, Bool.and_true, decide_eq_false_iff_not] at hdone
    rw [List.drop_eq_nil_of_le (Nat.le_of_not_lt hdone), List.append_nil] at hcs
    exact isValidUTF8_iff.2 ⟨cs, hcs⟩
  · intro hvalid
    by_contra hsome
    exact hsound.refuted hsome hvalid

end MirrorsCore.Tla
