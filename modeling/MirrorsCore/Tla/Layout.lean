import Mathlib
import MirrorsCore.Tla.Lexer

/-! Texts, their bytes and their positions. Over the bytes of a text the decoded
scalars are its scalars, a byte offset is the size of the text before it, and a
slice between two indices is the text between them. -/

namespace MirrorsCore.Tla
open Lib

def between (cs : List Char) (i j : Nat) : List Char := (cs.drop i).take (j - i)

def offsetOf (cs : List Char) (i : Nat) : Nat := (encodeChars (cs.take i)).length

/-- Line and column behind one more scalar. -/
def nextPlace (place : Nat × Nat) (c : Char) : Nat × Nat :=
  if c = '\n' then (place.1 + 1, 1) else (place.1, place.2 + 1)

def lineColumn (cs : List Char) (i : Nat) : Nat × Nat := (cs.take i).foldl nextPlace (1, 1)

def positionAt (cs : List Char) (i : Nat) : SourcePosition :=
  ⟨offsetOf cs i, (lineColumn cs i).1, (lineColumn cs i).2⟩

def layoutFrom (offset : Nat) : List Char → List SourceChar
  | [] => []
  | c :: cs => ⟨c, offset, c.utf8Size⟩ :: layoutFrom (offset + c.utf8Size) cs

structure Layout (cs : List Char) (bytes : ByteArray) (chars : List SourceChar) : Prop where
  bytes : bytes.data.toList = encodeChars cs
  chars : chars = layoutFrom 0 cs

variable {cs : List Char} {bytes : ByteArray} {chars : List SourceChar} {i j k : Nat} {c : Char}

/-! ### Stretches of a text -/

@[simp] theorem between_self (cs : List Char) (i : Nat) : between cs i i = [] := by
  unfold between
  rw [Nat.sub_self, List.take_zero]

theorem between_of_le (cs : List Char) (h : j ≤ i) : between cs i j = [] := by
  unfold between
  rw [Nat.sub_eq_zero_of_le h, List.take_zero]

theorem between_zero (cs : List Char) (j : Nat) : between cs 0 j = cs.take j := rfl

theorem take_append_between (cs : List Char) (h : i ≤ j) :
    cs.take i ++ between cs i j = cs.take j := by
  obtain ⟨n, rfl⟩ := Nat.exists_eq_add_of_le h
  unfold between
  rw [Nat.add_sub_cancel_left, List.take_add]

theorem between_append (cs : List Char) (h : i ≤ j) (h' : j ≤ k) :
    between cs i j ++ between cs j k = between cs i k := by
  have hleft := take_append_between cs h
  have hright := take_append_between cs h'
  rw [← hleft, List.append_assoc] at hright
  exact List.append_cancel_left (hright.trans (take_append_between cs (h.trans h')).symm)

theorem between_succ (h : cs[i]? = some c) : between cs i (i + 1) = [c] := by
  obtain ⟨hlt, hget⟩ := List.getElem?_eq_some_iff.1 h
  unfold between
  rw [Nat.add_sub_cancel_left, List.drop_eq_getElem_cons hlt, hget]
  rfl

theorem between_cons (h : cs[i]? = some c) (hlt : i < j) :
    between cs i j = c :: between cs (i + 1) j := by
  rw [← between_append cs (Nat.le_succ i) hlt, between_succ h]
  rfl

theorem length_between (h : j ≤ cs.length) : (between cs i j).length = j - i := by
  unfold between
  rw [List.length_take, List.length_drop]
  omega

theorem getElem?_between {n : Nat} (h : i + n < j) : (between cs i j)[n]? = cs[i + n]? := by
  unfold between
  rw [List.getElem?_take_of_lt (by omega), List.getElem?_drop]

theorem mem_between_of_getElem? (hi : i ≤ k) (hj : k < j) (h : cs[k]? = some c) :
    c ∈ between cs i j := by
  obtain ⟨n, rfl⟩ := Nat.exists_eq_add_of_le hi
  rw [← getElem?_between hj] at h
  exact List.mem_of_getElem? h

/-! ### Offsets -/

theorem offsetOf_add (h : i ≤ j) :
    offsetOf cs j = offsetOf cs i + (encodeChars (between cs i j)).length := by
  unfold offsetOf
  rw [← take_append_between cs h, encodeChars_append, List.length_append]

theorem offsetOf_mono (h : i ≤ j) : offsetOf cs i ≤ offsetOf cs j := by
  rw [offsetOf_add h]
  exact Nat.le_add_right _ _

theorem offsetOf_of_le (h : cs.length ≤ i) : offsetOf cs i = (encodeChars cs).length := by
  unfold offsetOf
  rw [List.take_of_length_le h]

theorem length_layoutFrom (offset : Nat) (cs : List Char) :
    (layoutFrom offset cs).length = cs.length := by
  induction cs generalizing offset with
  | nil => rfl
  | cons c cs ih => rw [layoutFrom, List.length_cons, List.length_cons, ih]

theorem layoutFrom_append (offset : Nat) (front back : List Char) :
    layoutFrom offset (front ++ back) =
      layoutFrom offset front ++ layoutFrom (offset + (encodeChars front).length) back := by
  induction front generalizing offset with
  | nil => rfl
  | cons c front ih =>
    rw [List.cons_append, layoutFrom, layoutFrom, List.cons_append, ih, encodeChars_cons,
      List.length_append, String.length_utf8EncodeChar, Nat.add_assoc]

theorem getElem?_layoutFrom (offset : Nat) (cs : List Char) (i : Nat) :
    (layoutFrom offset cs)[i]? =
      cs[i]?.map fun c => ⟨c, offset + offsetOf cs i, c.utf8Size⟩ := by
  induction cs generalizing offset i with
  | nil => rfl
  | cons c cs ih =>
    cases i with
    | zero => rfl
    | succ i =>
      have hoffset : offset + c.utf8Size + offsetOf cs i = offset + offsetOf (c :: cs) (i + 1) := by
        unfold offsetOf
        rw [List.take_succ_cons, encodeChars_cons, List.length_append,
          String.length_utf8EncodeChar, Nat.add_assoc]
      rw [layoutFrom, List.getElem?_cons_succ, List.getElem?_cons_succ, ih, hoffset]

theorem decodeChars_eq (h : bytes.data.toList = encodeChars cs) :
    decodeChars bytes = layoutFrom 0 cs := by
  -- The scalars before the offset are decoded.
  have hloop := whileLoop_spec
    (fun scan : CharScan => ∃ front back, cs = front ++ back ∧
      scan.characters = layoutFrom 0 front ∧ scan.offset = (encodeChars front).length)
    (fun scan => bytes.size - scan.offset) (fun scan => scan.offset < bytes.size)
    (decodeCharsStep bytes) {} ?_ ⟨[], cs, rfl, rfl, rfl⟩
  · obtain ⟨⟨front, back, hcs, hchars, hoffset⟩, hdone⟩ := hloop
    unfold decodeChars
    rw [hchars, hcs]
    have hsize : bytes.size = (encodeChars front).length + (encodeChars back).length := by
      rw [size_eq_length, h, hcs, encodeChars_append, List.length_append]
    rw [decide_eq_false_iff_not, hoffset] at hdone
    cases back with
    | nil => rw [List.append_nil]
    | cons c back =>
      rw [encodeChars_cons, List.length_append, String.length_utf8EncodeChar] at hsize
      have hpos := utf8Size_pos c
      omega
  · rintro scan ⟨front, back, hcs, hchars, hoffset⟩ htest
    rw [decide_eq_true_eq] at htest
    have hdrop : bytes.data.toList.drop scan.offset = encodeChars back := by
      rw [h, hcs, encodeChars_append, hoffset, List.drop_left]
    cases back with
    | nil =>
      have hsize : bytes.size = scan.offset := by
        rw [size_eq_length, h, hcs, List.append_nil, hoffset]
      exact absurd htest (hsize ▸ lt_irrefl _)
    | cons c back =>
      rw [encodeChars_cons] at hdrop
      have hdecode : decodeChar bytes scan.offset = (c, c.utf8Size) := by
        unfold decodeChar
        rw [decodeUtf8At_of_decoded (decoded_of_drop hdrop)]
      unfold decodeCharsStep
      rw [hdecode]
      refine ⟨⟨front ++ [c], back, ?_, ?_, ?_⟩, ?_⟩
      · rw [hcs, List.append_assoc]
        rfl
      · rw [layoutFrom_append, hchars, hoffset, Nat.zero_add]
        rfl
      · rw [encodeChars_append, List.length_append, encodeChars_cons, encodeChars_nil,
          List.append_nil, String.length_utf8EncodeChar, hoffset]
      · have hpos := utf8Size_pos c
        dsimp only
        omega

theorem layout_of_bytes (h : bytes.data.toList = encodeChars cs) :
    Layout cs bytes (decodeChars bytes) :=
  ⟨h, decodeChars_eq h⟩

namespace Layout

theorem length (h : Layout cs bytes chars) : chars.length = cs.length := by
  rw [h.chars, length_layoutFrom]

theorem size (h : Layout cs bytes chars) : bytes.size = (encodeChars cs).length := by
  rw [size_eq_length, h.bytes]

theorem getElem? (h : Layout cs bytes chars) (i : Nat) :
    chars[i]? = cs[i]?.map fun c => ⟨c, offsetOf cs i, c.utf8Size⟩ := by
  rw [h.chars, getElem?_layoutFrom]
  simp only [Nat.zero_add]

theorem charAt?_eq (h : Layout cs bytes chars) (i : Nat) : charAt? chars i = cs[i]? := by
  unfold charAt?
  rw [h.getElem? i]
  cases cs[i]? <;> rfl

theorem accepts_eq (h : Layout cs bytes chars) (accept : Char → Bool) (i : Nat) :
    accepts chars accept i = (cs[i]?).any accept := by
  unfold accepts
  rw [h.getElem? i]
  cases cs[i]? <;> rfl

theorem byteOffsetAt_eq (h : Layout cs bytes chars) (i : Nat) :
    byteOffsetAt chars bytes i = offsetOf cs i := by
  unfold byteOffsetAt
  rw [h.getElem? i]
  cases hget : cs[i]? with
  | some c => rfl
  | none =>
    rw [offsetOf_of_le (List.getElem?_eq_none_iff.1 hget)]
    exact h.size

theorem fromUTF8?_eq_some {text : String} (h : bytes.data.toList = text.toUTF8.data.toList) :
    String.fromUTF8? bytes = some text := by
  have hbytes : bytes = text.toUTF8 := by
    apply ByteArray.ext
    rw [← Array.toList_inj, h]
  subst hbytes
  unfold String.fromUTF8?
  exact dif_pos text.isValidUTF8

theorem toList_extract (bytes : ByteArray) (start stop : Nat) :
    (bytes.extract start stop).data.toList = (bytes.data.toList.take stop).drop start := by
  rw [ByteArray.data_extract, Array.toList_extract, List.extract_eq_take_drop, List.drop_take]

theorem slice_eq (h : Layout cs bytes chars) (i j : Nat) :
    slice bytes (byteOffsetAt chars bytes i) (byteOffsetAt chars bytes j) =
      String.ofList (between cs i j) := by
  rw [h.byteOffsetAt_eq, h.byteOffsetAt_eq]
  have hbytes : (bytes.extract (offsetOf cs i) (offsetOf cs j)).data.toList =
      (String.ofList (between cs i j)).toUTF8.data.toList := by
    rw [toList_extract, toList_toUTF8_ofList, h.bytes]
    rcases Nat.le_total i j with hij | hij
    · -- The bytes before `j` are those before `i` and those between.
      have htake : (encodeChars cs).take (offsetOf cs j) = encodeChars (cs.take j) := by
        have hsplit : encodeChars cs = encodeChars (cs.take j) ++ encodeChars (cs.drop j) := by
          rw [← encodeChars_append, List.take_append_drop]
        rw [hsplit]
        exact List.take_left
      rw [htake, ← take_append_between cs hij, encodeChars_append]
      exact List.drop_left
    · rw [between_of_le cs hij, encodeChars_nil, List.drop_eq_nil_iff, List.length_take]
      exact (Nat.min_le_left _ _).trans (offsetOf_mono hij)
  unfold slice
  rw [fromUTF8?_eq_some hbytes]

end Layout

/-! ### Lines -/

theorem lineColumn_succ (h : cs[i]? = some c) :
    lineColumn cs (i + 1) = nextPlace (lineColumn cs i) c := by
  unfold lineColumn
  rw [List.take_add_one, h, List.foldl_append]
  rfl

structure OneLine (cs : List Char) (i j : Nat) : Prop where
  le : i ≤ j
  le_length : j ≤ cs.length
  noBreak : '\n' ∉ between cs i j

namespace OneLine

theorem refl (h : i ≤ cs.length) : OneLine cs i i :=
  ⟨le_rfl, h, by rw [between_self]; exact List.not_mem_nil⟩

theorem trans (h : OneLine cs i j) (h' : OneLine cs j k) : OneLine cs i k := by
  refine ⟨h.le.trans h'.le, h'.le_length, ?_⟩
  rw [← between_append cs h.le h'.le, List.mem_append]
  rintro (hbreak | hbreak)
  · exact h.noBreak hbreak
  · exact h'.noBreak hbreak

theorem step (h : cs[i]? = some c) (hc : c ≠ '\n') : OneLine cs i (i + 1) := by
  refine ⟨Nat.le_succ i, (List.getElem?_eq_some_iff.1 h).1, ?_⟩
  rw [between_succ h, List.mem_singleton]
  exact hc.symm

theorem left (h : OneLine cs i k) (hi : i ≤ j) (hj : j ≤ k) : OneLine cs i j := by
  refine ⟨hi, hj.trans h.le_length, fun hbreak => h.noBreak ?_⟩
  rw [← between_append cs hi hj]
  exact List.mem_append_left _ hbreak

theorem lineColumn (h : OneLine cs i j) :
    lineColumn cs j = ((lineColumn cs i).1, (lineColumn cs i).2 + (j - i)) := by
  obtain ⟨n, rfl⟩ := Nat.exists_eq_add_of_le h.le
  rw [Nat.add_sub_cancel_left]
  induction n with
  | zero => rfl
  | succ n ih =>
    have hbefore : OneLine cs i (i + n) := h.left (Nat.le_add_right _ _) (by omega)
    have hlt : i + n < cs.length := Nat.lt_of_lt_of_le (by omega) h.le_length
    have hget : cs[i + n]? = some cs[i + n] := List.getElem?_eq_getElem hlt
    have hne : cs[i + n] ≠ '\n' := by
      intro hbreak
      rw [hbreak] at hget
      exact h.noBreak (mem_between_of_getElem? (Nat.le_add_right _ _) (by omega) hget)
    rw [← Nat.add_assoc, lineColumn_succ hget, ih hbefore]
    unfold nextPlace
    rw [if_neg hne]
    rfl

theorem positionAt (h : OneLine cs i j) :
    positionAt cs j =
      ⟨offsetOf cs j, (positionAt cs i).line, (positionAt cs i).column + (j - i)⟩ := by
  unfold Tla.positionAt
  rw [h.lineColumn]

end OneLine

/-! ### Runs -/

theorem scan_spec (test : Nat → Bool) (accept : Char → Prop) (hlength : chars.length = cs.length)
    (htest : ∀ k, test k = true → ∃ c, cs[k]? = some c ∧ accept c) (hi : i ≤ cs.length) :
    let stop := whileLoop (fun current => chars.length - current) test (· + 1) i
    i ≤ stop ∧ stop ≤ cs.length ∧ (∀ c ∈ between cs i stop, accept c) ∧ test stop = false := by
  have hloop := whileLoop_spec
    (fun current => i ≤ current ∧ current ≤ cs.length ∧ ∀ c ∈ between cs i current, accept c)
    (fun current => chars.length - current) test (· + 1) i ?_ ⟨le_rfl, hi, by rw [between_self]; exact nofun⟩
  · obtain ⟨⟨hle, hlength, haccept⟩, hdone⟩ := hloop
    exact ⟨hle, hlength, haccept, hdone⟩
  · rintro current ⟨hle, -, haccept⟩ htrue
    obtain ⟨c, hget, hc⟩ := htest current htrue
    have hlt := (List.getElem?_eq_some_iff.1 hget).1
    refine ⟨⟨hle.trans (Nat.le_succ _), hlt, ?_⟩, by omega⟩
    rw [← between_append cs hle (Nat.le_succ _), between_succ hget]
    intro d hd
    rcases List.mem_append.1 hd with hd | hd
    · exact haccept d hd
    · rw [List.mem_singleton.1 hd]
      exact hc

theorem any_eq_true_iff {accept : Char → Bool} {c? : Option Char} :
    c?.any accept = true ↔ ∃ c, c? = some c ∧ accept c = true := by
  cases c? with
  | none => simp
  | some c => simp

theorem runStop_spec (h : Layout cs bytes chars) (accept : Char → Bool) (hi : i ≤ cs.length) :
    i ≤ runStop accept chars i ∧ runStop accept chars i ≤ cs.length ∧
      (∀ c ∈ between cs i (runStop accept chars i), accept c = true) ∧
      (cs[runStop accept chars i]?).any accept = false := by
  have hscan := scan_spec (accepts chars accept) (fun c => accept c = true)
    h.length (fun k hk => any_eq_true_iff.1 ((h.accepts_eq accept k).symm.trans hk)) hi
  rw [← h.accepts_eq]
  exact hscan

theorem runStop_oneLine (h : Layout cs bytes chars) {accept : Char → Bool}
    (haccept : accept '\n' = false) (hi : i ≤ cs.length) :
    OneLine cs i (runStop accept chars i) := by
  obtain ⟨hle, hlength, hall, -⟩ := runStop_spec h accept hi
  refine ⟨hle, hlength, fun hbreak => ?_⟩
  have htrue := hall _ hbreak
  rw [haccept] at htrue
  cases htrue

/-! ### Tilings -/

/-- Texts that cover a text between two indices, each with its exact range. -/
def Tiles (cs : List Char) : Nat → Nat → List (String × SourceRange) → Prop
  | i, k, [] => i = k
  | i, k, tile :: rest =>
      ∃ j, i ≤ j ∧ j ≤ cs.length ∧
        tile = (String.ofList (between cs i j), ⟨positionAt cs i, positionAt cs j⟩) ∧
        Tiles cs j k rest

namespace Tiles
variable {front back tiles : List (String × SourceRange)}

theorem append (h : Tiles cs i j front) (h' : Tiles cs j k back) :
    Tiles cs i k (front ++ back) := by
  induction front generalizing i with
  | nil =>
    obtain rfl : i = j := h
    exact h'
  | cons tile front ih =>
    obtain ⟨m, hle, hlength, htile, hrest⟩ := h
    exact ⟨m, hle, hlength, htile, ih hrest⟩

theorem singleton (hle : i ≤ j) (hlength : j ≤ cs.length) :
    Tiles cs i j [(String.ofList (between cs i j), ⟨positionAt cs i, positionAt cs j⟩)] :=
  ⟨j, hle, hlength, rfl, rfl⟩

theorem le (h : Tiles cs i k tiles) : i ≤ k := by
  induction tiles generalizing i with
  | nil => exact le_of_eq h
  | cons tile rest ih =>
    obtain ⟨j, hle, -, -, hrest⟩ := h
    exact hle.trans (ih hrest)

theorem join (h : Tiles cs i k tiles) :
    String.join (tiles.map Prod.fst) = String.ofList (between cs i k) := by
  induction tiles generalizing i with
  | nil =>
    obtain rfl : i = k := h
    rw [between_self]
    rfl
  | cons tile rest ih =>
    obtain ⟨j, hle, -, rfl, hrest⟩ := h
    rw [List.map_cons, CstNode.join_cons, ih hrest, ← between_append cs hle hrest.le,
      String.ofList_append]

end Tiles
end MirrorsCore.Tla
