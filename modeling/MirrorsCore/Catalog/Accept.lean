import Mathlib
import MirrorsCore.Catalog.Decode
import MirrorsCore.Lib.Checked

/-! What an accepted catalog is known to satisfy: every constraint has the arity
its operator asks for, and the cross-record validation reports nothing. -/

namespace MirrorsCore.FrameworkCatalog
open Lib

/-- What decoding guarantees of a constraint's operator and values. -/
structure Constraint.WellFormed (c : Constraint) : Prop where
  known : c.operator = "equals" ∨ c.operator = "oneOf" ∨ c.operator = "atLeastSemver"
  nonempty : c.values ≠ []
  single : c.operator ≠ "oneOf" → ∃ value, c.values = [value]
  versions : c.operator = "atLeastSemver" → ∀ value ∈ c.values, validCoreSemver value

theorem fail_ne_ok {α : Type} {code path message : String} {a : α} :
    (fail code path message : DecodeResult α) ≠ .ok a := by
  simp [fail]

theorem enum_eq_ok {path value result : String} {allowed : List String} :
    enum path value allowed = .ok result ↔ value ∈ allowed ∧ value = result := by
  unfold enum
  split
  next h => simpa using fun _ => List.contains_iff_mem.mp h
  next h => simpa [fail] using fun hmem => absurd (List.contains_iff_mem.mpr hmem) h

theorem decodeOperands_wellFormed {path : String} {value : Fields} {operator : String}
    {values : List String} (h : decodeOperands path value = .ok (operator, values))
    (id kind factId : String) :
    Constraint.WellFormed ⟨id, kind, factId, operator, values⟩ := by
  simp only [decodeOperands, bind_eq_ok] at h
  obtain ⟨_, _, name, _, _, hname, _, _, items, _, h⟩ := h
  split at h
  · obtain ⟨_, hfail, _⟩ := bind_eq_ok.mp h
    exact absurd hfail fail_ne_ok
  next harity =>
  obtain ⟨_, _, h⟩ := bind_eq_ok.mp h
  split at h
  · obtain ⟨_, hfail, _⟩ := bind_eq_ok.mp h
    exact absurd hfail fail_ne_ok
  next hversions =>
  obtain ⟨rfl, rfl⟩ : name = operator ∧ items = values := by simpa using pure_eq_ok.mp h
  have hknown := (enum_eq_ok.mp hname).1
  simp only [List.mem_cons, List.not_mem_nil, or_false] at hknown
  simp only [Bool.or_eq_true, Bool.and_eq_true, List.isEmpty_iff, beq_iff_eq, bne_iff_ne,
    not_or, not_and, not_not] at harity
  refine ⟨hknown, harity.1, fun hone => List.length_eq_one_iff.mp (harity.2 ?_), ?_⟩
  · rcases hknown with rfl | rfl | rfl
    · exact Or.inl rfl
    · exact absurd rfl hone
    · exact Or.inr rfl
  · rintro rfl
    simpa using hversions

theorem decodeConstraint_wellFormed {path : String} {json : Json} {c : Constraint}
    (h : decodeConstraint path json = .ok c) : c.WellFormed := by
  simp only [decodeConstraint, bind_eq_ok] at h
  obtain ⟨value, _, _, _, fact, _, _, _, kind, _, _, _, _, _, factId, _, h⟩ := h
  have key : ∀ {x : DecodeResult (String × List String)}, x = decodeOperands path value →
      (∃ operands, x = .ok operands ∧ ∃ idJson, required path value "constraintId" = .ok idJson ∧
        ∃ id, identifier (path ++ ".constraintId") idJson = .ok id ∧
          pure (f := DecodeResult)
            (Constraint.mk id kind factId operands.1 operands.2) = .ok c) → c.WellFormed := by
    rintro _ rfl ⟨operands, hoperands, _, _, id, _, hc⟩
    obtain rfl := pure_eq_ok.mp hc
    exact decodeOperands_wellFormed hoperands id kind factId
  split at h
  · obtain ⟨_, _, h⟩ := bind_eq_ok.mp h
    simp only [bind_eq_ok] at h
    exact key rfl h
  · simp only [bind_eq_ok] at h
    exact key rfl h

theorem decodeDeclaration_wellFormed {path state : String} {json : Json}
    {constraints : List Constraint}
    (h : decodeDeclaration path json = .ok (state, constraints)) :
    ∀ c ∈ constraints, c.WellFormed := by
  simp only [decodeDeclaration, bind_eq_ok] at h
  obtain ⟨_, _, _, _, declared, _, _, _, _, _, _, _, decoded, hdecoded, h⟩ := h
  split at h
  · obtain ⟨_, hfail, _⟩ := bind_eq_ok.mp h
    exact absurd hfail fail_ne_ok
  obtain ⟨-, rfl⟩ : declared = state ∧ decoded = constraints := by simpa using pure_eq_ok.mp h
  intro c hc
  obtain ⟨item, _, hitem⟩ := exists_of_mem_mapM hdecoded c hc
  exact decodeConstraint_wellFormed hitem

theorem decodeCapability_wellFormed {index : Nat} {json : Json} {capability : Capability}
    (h : decodeCapability index json = .ok capability) :
    ∀ c ∈ capability.constraints, c.WellFormed := by
  simp only [decodeCapability, bind_eq_ok] at h
  obtain ⟨_, _, _, _, _, _, _, _, ⟨state, constraints⟩, hdecl, _, _, _, _, _, _, _, _, _, _,
    _, _, _, _, _, _, _, _, h⟩ := h
  obtain rfl := pure_eq_ok.mp h
  exact decodeDeclaration_wellFormed hdecl

theorem decodeJson_wellFormed {json : Json} {catalog : Catalog}
    (h : decodeJson json = .ok catalog) :
    ∀ capability ∈ catalog.capabilities, ∀ c ∈ capability.constraints, c.WellFormed := by
  simp only [decodeJson, bind_eq_ok] at h
  obtain ⟨_, _, _, _, _, _, h⟩ := h
  split at h
  · obtain ⟨_, hfail, _⟩ := bind_eq_ok.mp h
    exact absurd hfail fail_ne_ok
  simp only [bind_eq_ok] at h
  obtain ⟨_, _, visibility, _, _, _, _, _, _, _, components, _, _, _, evidence, _, _, _,
    capabilityJson, _, _, _, profiles, _, _, _, combinations, _, _, _, _, _, _, _, _, _,
    capabilities, hcapabilities, _, _, _, _, h⟩ := h
  obtain rfl := pure_eq_ok.mp h
  intro capability hcapability
  obtain ⟨item, _, hitem⟩ := exists_of_mem_mapM hcapabilities capability hcapability
  exact decodeCapability_wellFormed hitem

theorem validate_eq_nil {catalog : Catalog} : validate catalog = [] ↔ collectErrors catalog = [] := by
  rw [← List.length_eq_zero_iff, ← List.length_eq_zero_iff, validate, List.length_mergeSort]

theorem decodeString_eq_ok {raw : String} {decoded : Decoded} :
    decodeString raw = .ok decoded ↔
      StrictJson.parseString raw { maxBytes := 4 * 1024 * 1024, maxDepth := 32 } =
          .ok decoded.json ∧
        decodeJson decoded.json = .ok decoded.catalog ∧ collectErrors decoded.catalog = [] ∧
        canonicalize decoded.json = .ok decoded.canonical := by
  obtain ⟨catalog, json, canonical⟩ := decoded
  simp only [decodeString, Bind.bind, Except.bind, ← validate_eq_nil]
  constructor
  · intro h
    split at h
    case h_2 => cases h
    next parsed hparsed =>
    split at h
    case h_2 => cases h
    next decoded hdecoded =>
    split at h
    · cases h
    next hvalid =>
    split at h
    case h_2 => cases h
    next rendered hrendered =>
    obtain ⟨rfl, rfl, rfl⟩ : decoded = catalog ∧ parsed = json ∧ rendered = canonical := by
      simpa using pure_eq_ok.mp h
    exact ⟨hparsed, hdecoded, by simpa using hvalid, hrendered⟩
  · rintro ⟨hparsed, hdecoded, hvalid, hrendered⟩
    simp [hparsed, hdecoded, hvalid, hrendered, pure, Except.pure]

/-! ### Canonical rendering -/

def safeInteger (number : JsonNumber) : Bool :=
  number.exponent == 0 && (-9007199254740991 : Int) ≤ number.mantissa &&
    number.mantissa ≤ (9007199254740991 : Int)

mutual

/-- Every number of the document is an integer in the signed safe range. -/
def safeNumbers : Json → Bool
  | .num number => safeInteger number
  | .arr values => safeItems values
  | .obj value => safeFields value
  | _ => true

def safeItems : List Json → Bool
  | [] => true
  | item :: rest => safeNumbers item && safeItems rest

def safeFields : List (String × Json) → Bool
  | [] => true
  | (_, item) :: rest => safeNumbers item && safeFields rest

end

mutual

theorem exists_canonicalize_iff :
    ∀ json, (∃ text, canonicalize json = .ok text) ↔ safeNumbers json = true
  | .null => by simp [canonicalize, safeNumbers]
  | .bool value => by simp [canonicalize, safeNumbers]
  | .str value => by simp [canonicalize, safeNumbers]
  | .num ⟨mantissa, exponent⟩ => by
      simp only [canonicalize, safeNumbers, safeInteger]
      split
      next h => simpa using fun h0 => absurd h0 (by simpa using h)
      next h =>
        simp only [bne_iff_ne, ne_eq, not_not] at h
        split
        next hrange =>
          simp only [h, beq_self_eq_true, Bool.true_and, Bool.and_eq_true, decide_eq_true_eq,
            reduceCtorEq, exists_false, false_iff, not_and, Int.not_le]
          intro hlow
          simpa [Int.not_lt.mpr hlow] using hrange
        next hrange =>
          simpa [h] using hrange
  | .arr values => by
      rw [canonicalize, exists_bind_pure_eq_ok, exists_mapM_eq_ok_iff, safeNumbers,
        ← exists_canonicalizeItems_iff]
      rfl
  | .obj value => by
      rw [canonicalize, exists_bind_pure_eq_ok, exists_mapM_eq_ok_iff, safeNumbers,
        ← exists_canonicalizeFields_iff]
      simp only [List.mem_mergeSort, exists_bind_pure_eq_ok]

theorem exists_canonicalizeItems_iff : ∀ values,
    (∀ item ∈ canonicalizeItems values, ∃ text, item = .ok text) ↔ safeItems values = true
  | [] => by simp [canonicalizeItems, safeItems]
  | item :: rest => by
      rw [canonicalizeItems, List.forall_mem_cons, exists_canonicalize_iff item,
        exists_canonicalizeItems_iff rest, safeItems, Bool.and_eq_true]

theorem exists_canonicalizeFields_iff : ∀ value,
    (∀ field ∈ canonicalizeFields value, ∃ text, field.2 = .ok text) ↔ safeFields value = true
  | [] => by simp [canonicalizeFields, safeFields]
  | (key, item) :: rest => by
      rw [canonicalizeFields, List.forall_mem_cons, exists_canonicalize_iff item,
        exists_canonicalizeFields_iff rest, safeFields, Bool.and_eq_true]

end

theorem fromUTF8?_toUTF8 (text : String) : String.fromUTF8? text.toUTF8 = some text := by
  have h : text.toUTF8.IsValidUTF8 := text.isValidUTF8
  rw [String.fromUTF8?, dif_pos h]
  rfl

theorem toUTF8_size_ofList (chars : List Char) :
    (String.ofList chars).toUTF8.size = (chars.map Char.utf8Size).sum := by
  rw [String.toUTF8_eq_toByteArray, String.toByteArray_ofList]
  induction chars with
  | nil => rfl
  | cons c rest ih =>
    rw [List.utf8Encode_cons, ByteArray.size_append, ih, List.utf8Encode_singleton]
    simp

theorem parseString_eq_ok {text : String} {limits : StrictJson.Limits} {json : Json}
    (hsize : text.toUTF8.size ≤ limits.maxBytes)
    (hvalid : StrictJson.validateText text limits = .ok ())
    (hparse : Json.parse text = .ok json) :
    StrictJson.parseString text limits = .ok json := by
  simp only [StrictJson.parseString, StrictJson.parseBytes, StrictJson.preflightBytes, bind_eq_ok]
  refine ⟨text, ?_, by rw [hparse]; rfl⟩
  rw [if_neg (Nat.not_lt.mpr hsize), fromUTF8?_toUTF8]
  simp only [bind_eq_ok]
  exact ⟨text, rfl, (), hvalid, rfl⟩

end MirrorsCore.FrameworkCatalog
