import Mathlib
import MirrorsCore.Catalog.Domain

/-! What an empty error list of the cross-record validation establishes, one
inversion for each accumulating loop. -/

namespace MirrorsCore.FrameworkCatalog

theorem duplicates_eq_nil {values : List String} : duplicates values = [] ↔ values.Nodup := by
  simp only [duplicates, List.filterMap_eq_nil_iff, List.nodup_iff_pairwise_ne,
    List.pairwise_iff_getElem]
  constructor
  · intro h i j hi hj hij heq
    have hmem : (values[j], j) ∈ values.zipIdx := List.mk_mem_zipIdx_iff_getElem?.mpr (by simp [hj])
    have htake : values[j] ∈ values.take j :=
      List.mem_take_iff_getElem.mpr ⟨i, by omega, heq⟩
    simpa [htake] using h _ hmem
  · rintro h ⟨value, j⟩ hmem
    have hget := List.mk_mem_zipIdx_iff_getElem?.mp hmem
    obtain ⟨hj, rfl⟩ := List.getElem?_eq_some_iff.mp hget
    have hfresh : values[j] ∉ values.take j := by
      intro htake
      obtain ⟨i, hi, heq⟩ := List.mem_take_iff_getElem.mp htake
      exact h i j (by omega) hj (by omega) heq
    simp [hfresh]

theorem setDuplicates_eq_nil {path label : String} {values : List String} :
    setDuplicates path label values = [] ↔ values.Nodup := by
  rw [setDuplicates, List.map_eq_nil_iff, duplicates_eq_nil]

theorem duplicateErrors_eq_nil {collection field label : String} {values : List String} :
    duplicateErrors collection field label values = [] ↔ values.Nodup := by
  rw [duplicateErrors, List.map_eq_nil_iff, duplicates_eq_nil]

theorem exists_of_zipIdx_eq_nil {α : Type} {items : List α}
    {errors : α × Nat → List ValidationError} (h : items.zipIdx.flatMap errors = [])
    {item : α} (hitem : item ∈ items) : ∃ index, errors (item, index) = [] := by
  obtain ⟨index, hindex, rfl⟩ := List.getElem_of_mem hitem
  exact ⟨index, List.flatMap_eq_nil_iff.mp h _ (List.mk_mem_zipIdx_iff_getElem?.mpr (by simp))⟩

theorem reported_eq_nil {c : Bool} {e : ValidationError} :
    (if c then [e] else []) = [] ↔ c = false := by
  cases c <;> simp

theorem find?_of_nodup {α : Type} {key : α → String} {records : List α}
    (h : (records.map key).Nodup) {record : α} (hrecord : record ∈ records) :
    records.find? (key · == key record) = some record := by
  induction records with
  | nil => simp at hrecord
  | cons first rest ih =>
    rw [List.map_cons, List.nodup_cons] at h
    rcases List.mem_cons.mp hrecord with rfl | hrest
    · simp
    · have hne : key first ≠ key record := fun heq =>
        h.1 (heq ▸ List.mem_map_of_mem hrest)
      rw [List.find?_cons_of_neg (by simpa using hne)]
      exact ih h.2 hrest

theorem constraintPairErrors_eq_nil {index : Nat} {constraints : List Constraint}
    (h : constraintPairErrors index constraints = []) :
    constraints.Pairwise fun left right => constraintPairCompatible left right = true := by
  rw [List.pairwise_iff_getElem]
  intro i j hi hj hij
  rw [constraintPairErrors, List.flatMap_eq_nil_iff] at h
  have hleft := h (constraints[i], i) (List.mk_mem_zipIdx_iff_getElem?.mpr (by simp [hi]))
  have hright : constraints[j] ∈ constraints.drop (i + 1) :=
    List.mem_drop_iff_getElem.mpr ⟨j - (i + 1), by omega, by congr 1; omega⟩
  simpa using reported_eq_nil.mp (List.flatMap_eq_nil_iff.mp hleft _ hright)

theorem observationErrors_eq_nil {catalog : Catalog} {index : Nat} {observation : Observation}
    (h : observationErrors catalog index observation = []) {evidenceId : String}
    (hid : observation.evidenceId = some evidenceId) :
    ∃ evidence ∈ catalog.evidenceRefs, evidence.evidenceId = evidenceId := by
  rw [observationErrors, hid] at h
  simpa using reported_eq_nil.mp (List.append_eq_nil_iff.mp h).1

/-- What a supported combination's check of one required capability establishes. -/
structure CapabilityChecked (catalog : Catalog) (combination : Combination)
    (profile : DistributionProfile) (capability : Capability) : Prop where
  selected : capability.capabilityId ∈ combination.capabilityIds
  owner : capability.ownerComponentId ∈ combination.componentIds
  declared : capability.declarationState ≠ "unavailable"
  present : capability.sourceState ≠ "absent"
  accepted : ∀ dimension ∈ profile.requiredObservationDimensions,
    acceptedAt capability dimension = true
  satisfied : ∀ constraint ∈ capability.constraints, ∃ actual,
    constraintActual? catalog profile combination constraint = some actual ∧
      constraintSatisfied actual constraint = true

theorem requiredCapabilityErrors_eq_nil {catalog : Catalog} {index : Nat}
    {combination : Combination} {profileId capabilityId : String} {profile : DistributionProfile}
    (h : requiredCapabilityErrors catalog index combination profileId profile capabilityId = []) :
    ∃ capability, catalog.capabilities.find? (·.capabilityId == capabilityId) = some capability ∧
      CapabilityChecked catalog combination profile capability := by
  unfold requiredCapabilityErrors at h
  split at h
  · cases h
  next capability hfind =>
  simp only [List.append_eq_nil_iff, List.flatMap_eq_nil_iff, reported_eq_nil, Bool.not_eq_false',
    Bool.or_eq_false_iff, beq_eq_false_iff_ne, List.contains_iff_mem] at h
  obtain ⟨⟨⟨⟨hselected, howner⟩, hstate⟩, haccepted⟩, hconstraints⟩ := h
  obtain rfl : capability.capabilityId = capabilityId := by simpa using List.find?_some hfind
  refine ⟨capability, hfind, hselected, howner, hstate.1, hstate.2, haccepted, ?_⟩
  intro constraint hconstraint
  have hnone := hconstraints constraint hconstraint
  split at hnone
  · cases hnone
  next actual hactual =>
  exact ⟨actual, hactual, by simpa using reported_eq_nil.mp hnone⟩

theorem profileReferenceErrors_eq_nil {catalog : Catalog} {index : Nat}
    {combination : Combination} {profileId : String}
    (h : profileReferenceErrors catalog index combination profileId = []) :
    ∃ profile, catalog.distributionProfiles.find? (·.profileId == profileId) = some profile ∧
      profile.platform = combination.platform ∧
      (combination.declaredState = "supported" →
        (∃ position, fixedPolicyErrors position profile = []) ∧
        ∀ capabilityId ∈ profile.requiredCapabilityIds, ∃ capability,
          catalog.capabilities.find? (·.capabilityId == capabilityId) = some capability ∧
            CapabilityChecked catalog combination profile capability) := by
  unfold profileReferenceErrors at h
  split at h
  · cases h
  next profile hfind =>
  obtain ⟨hplatform, hsupported⟩ := List.append_eq_nil_iff.mp h
  refine ⟨profile, hfind, by simpa using reported_eq_nil.mp hplatform, fun hstate => ?_⟩
  rw [hstate, beq_self_eq_true, if_pos rfl] at hsupported
  obtain ⟨hfixed, hrequired⟩ := List.append_eq_nil_iff.mp hsupported
  exact ⟨⟨_, hfixed⟩, fun capabilityId hid =>
    requiredCapabilityErrors_eq_nil (List.flatMap_eq_nil_iff.mp hrequired capabilityId hid)⟩

/-- What the whole validation establishes. -/
structure Validated (catalog : Catalog) : Prop where
  componentIds : (catalog.components.map (·.ref.componentId)).Nodup
  capabilityIds : (catalog.capabilities.map (·.capabilityId)).Nodup
  profileIds : (catalog.distributionProfiles.map (·.profileId)).Nodup
  compatible : ∀ capability ∈ catalog.capabilities,
    capability.constraints.Pairwise fun left right => constraintPairCompatible left right = true
  evidence : ∀ capability ∈ catalog.capabilities, ∀ observation ∈ capability.observations,
    ∀ evidenceId, observation.evidenceId = some evidenceId →
      ∃ evidence ∈ catalog.evidenceRefs, evidence.evidenceId = evidenceId
  dependencyIds : ∀ profile ∈ catalog.distributionProfiles,
    (profile.dependencies.map (·.dependencyId)).Nodup
  references : ∀ combination ∈ catalog.combinations,
    ∀ profileId ∈ combination.distributionProfileIds,
      ∃ index, profileReferenceErrors catalog index combination profileId = []

theorem collectErrors_eq_nil {catalog : Catalog} (h : collectErrors catalog = []) :
    Validated catalog := by
  simp only [collectErrors, List.append_eq_nil_iff, duplicateErrors_eq_nil] at h
  obtain ⟨⟨⟨⟨⟨⟨⟨⟨hcomponents, -⟩, -⟩, hcapabilities⟩, hprofiles⟩, -⟩, hcapability⟩, hprofile⟩,
    hcombination⟩ := h
  refine ⟨hcomponents, hcapabilities, hprofiles, ?_, ?_, ?_, ?_⟩
  · intro capability hmem
    obtain ⟨index, hnil⟩ := exists_of_zipIdx_eq_nil hcapability hmem
    simp only [capabilityErrors, List.append_eq_nil_iff] at hnil
    exact constraintPairErrors_eq_nil hnil.1.2
  · intro capability hmem observation hobservation evidenceId hid
    obtain ⟨index, hnil⟩ := exists_of_zipIdx_eq_nil hcapability hmem
    simp only [capabilityErrors, List.append_eq_nil_iff] at hnil
    exact observationErrors_eq_nil (List.flatMap_eq_nil_iff.mp hnil.2 _ hobservation) hid
  · intro profile hmem
    obtain ⟨index, hnil⟩ := exists_of_zipIdx_eq_nil hprofile hmem
    simp only [profileErrors, List.append_eq_nil_iff, setDuplicates_eq_nil] at hnil
    exact hnil.1.1.2
  · intro combination hmem profileId hid
    obtain ⟨index, hnil⟩ := exists_of_zipIdx_eq_nil hcombination hmem
    simp only [combinationErrors, List.append_eq_nil_iff] at hnil
    exact ⟨index, List.flatMap_eq_nil_iff.mp hnil.2 _ hid⟩

end MirrorsCore.FrameworkCatalog
