import Mathlib
import MirrorsCore.Catalog.Accept
import MirrorsCore.Catalog.Validated
import MirrorsCore.Lib.Demand

/-! When the supported combinations of an accepted catalog are really supported.
`ReallySupported` states the contract over the catalog's records; the validation
establishes it except on the catalogs that `Covered` rules out. -/

namespace MirrorsCore.FrameworkCatalog
open Lib

/-! ### Versions and constraints -/

/-- Core versions compare by major, then minor, then patch. -/
def version (value : String) : Option (ℕ ×ₗ ℕ ×ₗ ℕ) :=
  (semver? value).map fun (major, minor, patch) => toLex (major, toLex (minor, patch))

theorem semverAtLeast_iff {actual minimum : String} :
    semverAtLeast actual minimum = true ↔ Demand.Reaches version actual minimum := by
  unfold semverAtLeast Demand.Reaches version
  cases semver? actual with
  | none => simp
  | some v =>
    cases semver? minimum with
    | none => simp
    | some w =>
      obtain ⟨a, b, c⟩ := v
      obtain ⟨x, y, z⟩ := w
      simp only [Option.map_some, Option.some.injEq, Bool.or_eq_true, Bool.and_eq_true,
        decide_eq_true_eq, beq_iff_eq, gt_iff_lt, ge_iff_le]
      constructor
      · intro h
        exact ⟨_, _, rfl, rfl, by simpa [Prod.Lex.toLex_le_toLex, eq_comm] using h⟩
      · rintro ⟨_, _, rfl, rfl, h⟩
        simpa [Prod.Lex.toLex_le_toLex, eq_comm] using h

theorem version_isSome {value : String} : (version value).isSome = (semver? value).isSome := by
  simp [version]

theorem semver?_isSome {value : String} (h : validCoreSemver value = true) :
    (semver? value).isSome := by
  unfold validCoreSemver at h
  unfold semver?
  split at h
  next major minor patch hsplit =>
    simp only [List.all_cons, List.all_nil, Bool.and_true, Bool.and_eq_true] at h
    obtain ⟨hmajor, hminor, hpatch⟩ := h
    split at hmajor <;> split at hminor <;> split at hpatch <;> simp_all
  · cases h

def Constraint.Allows (c : Constraint) (value : String) : Prop :=
  (c.operator = "equals" ∧ c.values = [value]) ∨
  (c.operator = "oneOf" ∧ value ∈ c.values) ∨
  (c.operator = "atLeastSemver" ∧
    ∃ minimum, c.values = [minimum] ∧ Demand.Reaches version value minimum)

theorem constraintSatisfied_iff {actual : String} {c : Constraint} :
    constraintSatisfied actual c = true ↔ c.Allows actual := by
  unfold constraintSatisfied Constraint.Allows
  split
  next h => simp [h]
  next h => simp [h]
  next h =>
    simp only [h, String.reduceEq, false_and, true_and, false_or]
    split
    next minimum hvalues => simp [hvalues, semverAtLeast_iff]
    next hmany =>
      simp only [Bool.false_eq_true, false_iff, not_exists, not_and]
      exact fun minimum hvalues => absurd hvalues (hmany minimum)
  next hequals honeOf hatLeast =>
    simp only [Bool.false_eq_true, false_iff]
    rintro (⟨h, -⟩ | ⟨h, -⟩ | ⟨h, -⟩)
    · exact hequals h
    · exact honeOf h
    · exact hatLeast h

/-- A well-formed constraint as a demand on its fact. -/
def Constraint.demand (c : Constraint) : Demand String :=
  match c.operator, c.values with
  | "equals", [value] => .equals value
  | "atLeastSemver", [minimum] => .atLeast minimum
  | _, values => .oneOf values

theorem Constraint.WellFormed.shape {c : Constraint} (h : c.WellFormed) :
    (∃ value, c.operator = "equals" ∧ c.values = [value] ∧ c.demand = .equals value) ∨
    (c.operator = "oneOf" ∧ c.values ≠ [] ∧ c.demand = .oneOf c.values) ∨
    (∃ minimum, c.operator = "atLeastSemver" ∧ c.values = [minimum] ∧
      (version minimum).isSome ∧ c.demand = .atLeast minimum) := by
  rcases h.known with hop | hop | hop
  · obtain ⟨value, hvalue⟩ := h.single (by simp [hop])
    exact Or.inl ⟨value, hop, hvalue, by simp [demand, hop, hvalue]⟩
  · exact Or.inr (Or.inl ⟨hop, h.nonempty, by simp [demand, hop]⟩)
  · obtain ⟨minimum, hminimum⟩ := h.single (by simp [hop])
    have hvalid := h.versions hop minimum (by simp [hminimum])
    exact Or.inr (Or.inr ⟨minimum, hop, hminimum, by rw [version_isSome]; exact semver?_isSome hvalid,
      by simp [demand, hop, hminimum]⟩)

theorem Constraint.WellFormed.allows_iff {c : Constraint} (h : c.WellFormed) {value : String} :
    c.demand.Allows version value ↔ c.Allows value := by
  rcases h.shape with ⟨v, hop, hv, hd⟩ | ⟨hop, -, hd⟩ | ⟨m, hop, hm, -, hd⟩
  · simp [hd, hop, hv, Demand.Allows, Constraint.Allows, eq_comm]
  · simp [hd, hop, Demand.Allows, Constraint.Allows]
  · simp [hd, hop, hm, Demand.Allows, Constraint.Allows]

theorem Constraint.WellFormed.meaningful {c : Constraint} (h : c.WellFormed) :
    c.demand.Meaningful version := by
  rcases h.shape with ⟨v, -, -, hd⟩ | ⟨-, -, hd⟩ | ⟨m, -, -, hm, hd⟩
  · simp [hd, Demand.Meaningful]
  · simp [hd, Demand.Meaningful]
  · simpa [hd, Demand.Meaningful] using hm

/-- The case table decides whether two constraints over one fact can be met together. -/
theorem constraintPairCompatible_iff {left right : Constraint} (hl : left.WellFormed)
    (hr : right.WellFormed) (hkind : left.factKind = right.factKind)
    (hid : left.factId = right.factId) :
    constraintPairCompatible left right = true ↔
      Demand.Compatible version left.demand right.demand := by
  simp only [constraintPairCompatible, hkind, hid, bne_self_eq_false, Bool.or_self,
    Bool.false_eq_true, if_false]
  rcases hl.shape with ⟨v, hop, hv, hd⟩ | ⟨hop, -, hd⟩ | ⟨m, hop, hm, hvm, hd⟩ <;>
  rcases hr.shape with ⟨v', hop', hv', hd'⟩ | ⟨hop', -, hd'⟩ | ⟨m', hop', hm', hvm', hd'⟩ <;>
  simp only [hop, hop', hd, hd', Demand.Compatible, Demand.Allows]
  · simp [hv, hv']
  · simp [hv]
  · simp [hv, hm', semverAtLeast_iff]
  · simp [hv']
  · simp
  · simp [hm', semverAtLeast_iff]
  · simp [hm, hv', semverAtLeast_iff]
  · simp [hm, semverAtLeast_iff, and_comm]
  · simp only [true_iff]
    rcases Demand.reaches_total hvm hvm' with h | h
    · exact ⟨m, Demand.reaches_self hvm, h⟩
    · exact ⟨m', h, Demand.reaches_self hvm'⟩

/-! ### The contract -/

/-- The value of a fact in the context of a combination and one of its profiles. -/
inductive FactValue (catalog : Catalog) (profile : DistributionProfile)
    (combination : Combination) : String → String → String → Prop where
  | os : FactValue catalog profile combination "platformField" "os" combination.platform.os
  | osRelease :
      FactValue catalog profile combination "platformField" "osRelease"
        combination.platform.osRelease
  | architecture :
      FactValue catalog profile combination "platformField" "architecture"
        combination.platform.architecture
  | backend (value : String) (h : combination.platform.backend = some value) :
      FactValue catalog profile combination "platformField" "backend" value
  | componentVersion (component : Component) (h : component ∈ catalog.components) :
      FactValue catalog profile combination "componentVersion" component.ref.componentId
        component.productVersion
  | dependencyVersion (dependency : Dependency) (h : dependency ∈ profile.dependencies)
      (value : String) (hversion : dependency.version = some value) :
      FactValue catalog profile combination "dependencyVersion" dependency.dependencyId value
  | selected (capabilityId : String) (h : capabilityId ∈ combination.capabilityIds) :
      FactValue catalog profile combination "capabilitySelected" capabilityId "true"
  | unselected (capabilityId : String) (h : capabilityId ∉ combination.capabilityIds) :
      FactValue catalog profile combination "capabilitySelected" capabilityId "false"

/-- The fact resolves, and every value it has is allowed. -/
def Constraint.Satisfied (catalog : Catalog) (profile : DistributionProfile)
    (combination : Combination) (c : Constraint) : Prop :=
  (∃ value, FactValue catalog profile combination c.factKind c.factId value) ∧
  ∀ value, FactValue catalog profile combination c.factKind c.factId value → c.Allows value

/-- One required capability, as a supported combination must provide it. -/
structure Provides (catalog : Catalog) (profile : DistributionProfile)
    (combination : Combination) (capability : Capability) : Prop where
  selected : capability.capabilityId ∈ combination.capabilityIds
  owner : capability.ownerComponentId ∈ combination.componentIds
  declared : capability.declarationState ≠ "unavailable"
  present : capability.sourceState ≠ "absent"
  observed : ∀ dimension ∈ profile.requiredObservationDimensions,
    ∃ observation ∈ capability.observations, observation.dimension = dimension ∧
      observation.state = "accepted" ∧
      ∃ evidence ∈ catalog.evidenceRefs, observation.evidenceId = some evidence.evidenceId
  satisfied : ∀ c ∈ capability.constraints, c.Satisfied catalog profile combination

/-- A profile that backs a supported combination. -/
structure Backs (catalog : Catalog) (profile : DistributionProfile)
    (combination : Combination) : Prop where
  platform : profile.platform = combination.platform
  policy : profile.requiredObservationDimensions ≠ []
  provided : ∀ capabilityId ∈ profile.requiredCapabilityIds,
    (∃ capability ∈ catalog.capabilities, capability.capabilityId = capabilityId) ∧
    ∀ capability ∈ catalog.capabilities, capability.capabilityId = capabilityId →
      Provides catalog profile combination capability

structure SupportedBy (catalog : Catalog) (combination : Combination) : Prop where
  referenced : combination.distributionProfileIds ≠ []
  backed : ∀ profileId ∈ combination.distributionProfileIds,
    (∃ profile ∈ catalog.distributionProfiles, profile.profileId = profileId) ∧
    ∀ profile ∈ catalog.distributionProfiles, profile.profileId = profileId →
      Backs catalog profile combination

def Capability.over (capability : Capability) (factKind factId : String) : List Constraint :=
  capability.constraints.filter fun c => c.factKind == factKind && c.factId == factId

structure ReallySupported (catalog : Catalog) : Prop where
  supported : ∀ combination ∈ catalog.combinations, combination.declaredState = "supported" →
    SupportedBy catalog combination
  consistent : ∀ capability ∈ catalog.capabilities, ∀ factKind factId,
    ∃ value, ∀ c ∈ capability.over factKind factId, c.Allows value

/-! ### What the validation leaves open -/

/-- Three or more constraints without an exact value, two of them finite choices. -/
def Crowded (constraints : List Constraint) : Prop :=
  (∀ c ∈ constraints, c.operator ≠ "equals") ∧
  2 ≤ constraints.countP (·.operator == "oneOf") ∧ 3 ≤ constraints.length

/-- The catalogs on which the validation's verdict on support is right: it never
counts profile references, asks for an observation dimension only under the two
fixed backends, and compares constraints in pairs. -/
structure Covered (catalog : Catalog) : Prop where
  references : ∀ combination ∈ catalog.combinations, combination.declaredState = "supported" →
    combination.distributionProfileIds ≠ []
  policies : ∀ combination ∈ catalog.combinations, combination.declaredState = "supported" →
    ∀ profile ∈ catalog.distributionProfiles,
      profile.profileId ∈ combination.distributionProfileIds →
      profile.platform.backend ≠ some "local-process" →
      profile.platform.backend ≠ some "linux-bubblewrap-v1" →
      profile.requiredObservationDimensions ≠ []
  crowds : ∀ capability ∈ catalog.capabilities, ∀ factKind factId,
    Crowded (capability.over factKind factId) →
      ∃ choice ∈ capability.over factKind factId, choice.operator = "oneOf" ∧
        ∃ value ∈ choice.values, ∀ c ∈ capability.over factKind factId,
          constraintSatisfied value c = true

theorem constraintActual?_iff {catalog : Catalog} (hv : Validated catalog)
    {profile : DistributionProfile} (hprofile : profile ∈ catalog.distributionProfiles)
    {combination : Combination} {c : Constraint} {value : String} :
    constraintActual? catalog profile combination c = some value ↔
      FactValue catalog profile combination c.factKind c.factId value := by
  constructor
  · intro h
    unfold constraintActual? at h
    split at h
    next hkind =>
      rw [hkind]
      split at h
      next hid => rw [hid, ← Option.some.inj h]; exact .os
      next hid => rw [hid, ← Option.some.inj h]; exact .osRelease
      next hid => rw [hid, ← Option.some.inj h]; exact .architecture
      next hid => rw [hid]; exact .backend value h
      · cases h
    next hkind =>
      obtain ⟨component, hfind, rfl⟩ := Option.map_eq_some_iff.mp h
      have hid : component.ref.componentId = c.factId := by simpa using List.find?_some hfind
      rw [hkind, ← hid]
      exact .componentVersion component (List.mem_of_find?_eq_some hfind)
    next hkind =>
      obtain ⟨dependency, hfind, hversion⟩ := Option.bind_eq_some_iff.mp h
      have hid : dependency.dependencyId = c.factId := by simpa using List.find?_some hfind
      rw [hkind, ← hid]
      exact .dependencyVersion dependency (List.mem_of_find?_eq_some hfind) value hversion
    next hkind =>
      rw [hkind, ← Option.some.inj h]
      split
      next hmem => exact .selected _ (List.contains_iff_mem.mp hmem)
      next hmem => exact .unselected _ fun hin => hmem (List.contains_iff_mem.mpr hin)
    · cases h
  · intro h
    obtain ⟨constraintId, factKind, factId, operator, values⟩ := c
    cases h with
    | os => rfl
    | osRelease => rfl
    | architecture => rfl
    | backend _ h => exact h
    | componentVersion component h =>
      simp only [constraintActual?]
      rw [find?_of_nodup hv.componentIds h, Option.map_some]
    | dependencyVersion dependency h _ hversion =>
      simp only [constraintActual?]
      rw [find?_of_nodup (hv.dependencyIds profile hprofile) h, Option.bind_some, hversion]
    | selected _ h => simp [constraintActual?, h]
    | unselected _ h => simp [constraintActual?, h]

theorem acceptedAt_iff {capability : Capability} {dimension : String}
    (h : acceptedAt capability dimension = true) :
    ∃ observation ∈ capability.observations, observation.dimension = dimension ∧
      observation.state = "accepted" ∧ ∃ evidenceId, observation.evidenceId = some evidenceId := by
  unfold acceptedAt at h
  split at h
  next observation hfind =>
    rw [Bool.and_eq_true, beq_iff_eq, Option.isSome_iff_exists] at h
    exact ⟨observation, List.mem_of_find?_eq_some hfind, by simpa using List.find?_some hfind,
      h.1, h.2⟩
  · cases h

theorem CapabilityChecked.provides {catalog : Catalog} (hv : Validated catalog)
    {profile : DistributionProfile} (hprofile : profile ∈ catalog.distributionProfiles)
    {combination : Combination} {capability : Capability}
    (hcapability : capability ∈ catalog.capabilities)
    (h : CapabilityChecked catalog combination profile capability) :
    Provides catalog profile combination capability := by
  refine ⟨h.selected, h.owner, h.declared, h.present, ?_, ?_⟩
  · intro dimension hdimension
    obtain ⟨observation, hmem, hname, hstate, evidenceId, hid⟩ :=
      acceptedAt_iff (h.accepted dimension hdimension)
    obtain ⟨evidence, hevidence, rfl⟩ := hv.evidence capability hcapability _ hmem _ hid
    exact ⟨observation, hmem, hname, hstate, evidence, hevidence, hid⟩
  · intro c hc
    obtain ⟨actual, hactual, hsatisfied⟩ := h.satisfied c hc
    refine ⟨⟨actual, (constraintActual?_iff hv hprofile).mp hactual⟩, fun value hvalue => ?_⟩
    have hsame := (constraintActual?_iff hv hprofile).mpr hvalue
    obtain rfl : actual = value := Option.some.inj (hactual.symm.trans hsame)
    exact constraintSatisfied_iff.mp hsatisfied

theorem policy_of_fixed {position : Nat} {profile : DistributionProfile}
    (h : fixedPolicyErrors position profile = [])
    (hother : profile.platform.backend ≠ some "local-process" →
      profile.platform.backend ≠ some "linux-bubblewrap-v1" →
      profile.requiredObservationDimensions ≠ []) :
    profile.requiredObservationDimensions ≠ [] := by
  by_cases hlocal : profile.platform.backend = some "local-process"
  · rintro hnil
    simp [fixedPolicyErrors, hlocal, hnil] at h
  by_cases hbubblewrap : profile.platform.backend = some "linux-bubblewrap-v1"
  · rintro hnil
    simp [fixedPolicyErrors, hbubblewrap, hnil] at h
  exact hother hlocal hbubblewrap

/-! ### One fact -/

theorem mem_over {capability : Capability} {factKind factId : String} {c : Constraint} :
    c ∈ capability.over factKind factId ↔
      c ∈ capability.constraints ∧ c.factKind = factKind ∧ c.factId = factId := by
  simp [Capability.over]

theorem crowded_demands {constraints : List Constraint} (h : ∀ c ∈ constraints, c.WellFormed) :
    Demand.Crowded (constraints.map Constraint.demand) ↔ Crowded constraints := by
  have hone : ∀ c ∈ constraints, (c.demand.isOneOf = true ↔ (c.operator == "oneOf") = true) := by
    intro c hc
    rcases (h c hc).shape with ⟨v, hop, -, hd⟩ | ⟨hop, -, hd⟩ | ⟨m, hop, -, -, hd⟩ <;>
      simp [hop, hd, Demand.isOneOf]
  have hequals : ∀ c ∈ constraints, (c.demand.isEquals = false ↔ c.operator ≠ "equals") := by
    intro c hc
    rcases (h c hc).shape with ⟨v, hop, -, hd⟩ | ⟨hop, -, hd⟩ | ⟨m, hop, -, -, hd⟩ <;>
      simp [hop, hd, Demand.isEquals]
  have hcount : (constraints.map Constraint.demand).countP Demand.isOneOf =
      constraints.countP (·.operator == "oneOf") := by
    rw [List.countP_map]
    exact List.countP_congr hone
  simp only [Demand.Crowded, Crowded, hcount, List.length_map, List.forall_mem_map]
  exact and_congr_left fun _ => forall₂_congr hequals

theorem Capability.pairwise_over {capability : Capability}
    (hwf : ∀ c ∈ capability.constraints, c.WellFormed)
    (hpairs : capability.constraints.Pairwise fun left right =>
      constraintPairCompatible left right = true) (factKind factId : String) :
    ((capability.over factKind factId).map Constraint.demand).Pairwise
      (Demand.Compatible version) := by
  rw [List.pairwise_map]
  refine (hpairs.filter _).imp_of_mem fun {left right} hl hr h => ?_
  obtain ⟨hlmem, hlkind, hlid⟩ := mem_over.mp hl
  obtain ⟨hrmem, hrkind, hrid⟩ := mem_over.mp hr
  exact (constraintPairCompatible_iff (hwf _ hlmem) (hwf _ hrmem) (hlkind.trans hrkind.symm)
    (hlid.trans hrid.symm)).mp h

/-- Constraints that agree in pairs admit a common value exactly when, if they
are crowded, one of the listed values passes them all. -/
theorem Capability.consistent_iff {capability : Capability}
    (hwf : ∀ c ∈ capability.constraints, c.WellFormed)
    (hpairs : capability.constraints.Pairwise fun left right =>
      constraintPairCompatible left right = true) (factKind factId : String) :
    (∃ value, ∀ c ∈ capability.over factKind factId, c.Allows value) ↔
      (Crowded (capability.over factKind factId) →
        ∃ choice ∈ capability.over factKind factId, choice.operator = "oneOf" ∧
          ∃ value ∈ choice.values, ∀ c ∈ capability.over factKind factId,
            constraintSatisfied value c = true) := by
  have hover : ∀ c ∈ capability.over factKind factId, c.WellFormed := fun c hc =>
    hwf c (mem_over.mp hc).1
  have hallows : ∀ value, (∀ d ∈ (capability.over factKind factId).map Constraint.demand,
      d.Allows version value) ↔ ∀ c ∈ capability.over factKind factId, c.Allows value := by
    intro value
    rw [List.forall_mem_map]
    exact forall₂_congr fun c hc => (hover c hc).allows_iff
  have hchoice : ∀ values, Demand.oneOf values ∈ (capability.over factKind factId).map
      Constraint.demand ↔ ∃ choice ∈ capability.over factKind factId,
        choice.operator = "oneOf" ∧ choice.values = values := by
    intro values
    rw [List.mem_map]
    refine exists_congr fun c => and_congr_right fun hc => ?_
    rcases (hover c hc).shape with ⟨v, hop, -, hd⟩ | ⟨hop, -, hd⟩ | ⟨m, hop, -, -, hd⟩ <;>
      simp [hop, hd]
  have key : (∃ value, ∀ d ∈ (capability.over factKind factId).map Constraint.demand,
      d.Allows version value) ↔ _ := Demand.exists_common_iff
    (List.forall_mem_map.mpr fun c hc => (hover c hc).meaningful)
    (fun values hmem => by
      obtain ⟨choice, hc, -, rfl⟩ := (hchoice values).mp hmem
      exact (hover choice hc).nonempty)
    (Capability.pairwise_over hwf hpairs factKind factId)
  rw [crowded_demands hover] at key
  simp only [hallows, hchoice] at key
  rw [key]
  refine imp_congr_right fun _ => ⟨?_, ?_⟩
  · rintro ⟨values, ⟨choice, hc, hop, rfl⟩, value, hvalue, hall⟩
    exact ⟨choice, hc, hop, value, hvalue, fun c hc => constraintSatisfied_iff.mpr (hall c hc)⟩
  · rintro ⟨choice, hc, hop, value, hvalue, hall⟩
    exact ⟨choice.values, ⟨choice, hc, hop, rfl⟩, value, hvalue,
      fun c hc => constraintSatisfied_iff.mp (hall c hc)⟩

/-! ### Support -/

/-- A validated supported combination is backed by its profiles, once it has
some and each of them has an observation policy. -/
theorem supportedBy_of_validated {catalog : Catalog} (hv : Validated catalog)
    {combination : Combination} (hmem : combination ∈ catalog.combinations)
    (hstate : combination.declaredState = "supported")
    (hreferences : combination.distributionProfileIds ≠ [])
    (hpolicies : ∀ profile ∈ catalog.distributionProfiles,
      profile.profileId ∈ combination.distributionProfileIds →
      profile.platform.backend ≠ some "local-process" →
      profile.platform.backend ≠ some "linux-bubblewrap-v1" →
      profile.requiredObservationDimensions ≠ []) :
    SupportedBy catalog combination := by
  refine ⟨hreferences, fun profileId hid => ?_⟩
  obtain ⟨index, hnil⟩ := hv.references combination hmem profileId hid
  obtain ⟨profile, hfind, hplatform, hsupported⟩ := profileReferenceErrors_eq_nil hnil
  obtain ⟨⟨position, hfixed⟩, hrequired⟩ := hsupported hstate
  have hprofile := List.mem_of_find?_eq_some hfind
  have hname : profile.profileId = profileId := by simpa using List.find?_some hfind
  refine ⟨⟨profile, hprofile, hname⟩, ?_⟩
  intro other hother hsame
  obtain rfl : other = profile := by
    have hfound := find?_of_nodup hv.profileIds hother
    rw [hsame, hfind] at hfound
    exact (Option.some.inj hfound).symm
  refine ⟨hplatform, policy_of_fixed hfixed (hpolicies other hother (hname ▸ hid)), ?_⟩
  intro capabilityId hcapabilityId
  obtain ⟨capability, hfindc, hchecked⟩ := hrequired capabilityId hcapabilityId
  have hcapability := List.mem_of_find?_eq_some hfindc
  refine ⟨⟨capability, hcapability, by simpa using List.find?_some hfindc⟩, ?_⟩
  intro twin htwin htwinId
  obtain rfl : twin = capability := by
    have hfound := find?_of_nodup hv.capabilityIds htwin
    rw [htwinId, hfindc] at hfound
    exact (Option.some.inj hfound).symm
  exact hchecked.provides hv hother hcapability

theorem reallySupported_iff {catalog : Catalog} (hv : Validated catalog)
    (hwf : ∀ capability ∈ catalog.capabilities, ∀ c ∈ capability.constraints, c.WellFormed) :
    ReallySupported catalog ↔ Covered catalog := by
  have hconsistent : ∀ capability ∈ catalog.capabilities, ∀ factKind factId, _ :=
    fun capability hmem => Capability.consistent_iff (hwf capability hmem)
      (hv.compatible capability hmem)
  constructor
  · intro h
    refine ⟨fun combination hmem hstate => (h.supported combination hmem hstate).referenced,
      ?_, fun capability hmem factKind factId =>
        (hconsistent capability hmem factKind factId).mp (h.consistent capability hmem _ _)⟩
    intro combination hmem hstate profile hprofile hid _ _
    exact ((h.supported combination hmem hstate).backed _ hid).2 profile hprofile rfl |>.policy
  · intro h
    refine ⟨fun combination hmem hstate => ?_, fun capability hmem factKind factId =>
      (hconsistent capability hmem factKind factId).mpr (h.crowds capability hmem _ _)⟩
    exact supportedBy_of_validated hv hmem hstate (h.references combination hmem hstate)
      (h.policies combination hmem hstate)

/-- For every accepted document: its supported combinations are really supported
and its constraints consistent exactly when the catalog is covered. -/
theorem supported_iff_covered {raw : String} {decoded : Decoded}
    (h : decodeString raw = .ok decoded) :
    ReallySupported decoded.catalog ↔ Covered decoded.catalog := by
  obtain ⟨-, hdecoded, hvalid, -⟩ := decodeString_eq_ok.mp h
  exact reallySupported_iff (collectErrors_eq_nil hvalid) (decodeJson_wellFormed hdecoded)

/-! ### A catalog that is backed -/

def linuxOnly : Platform := ⟨"linux", "u", "x", none⟩

/-- Three choices over one fact that share a value. -/
def replayCapability : Capability where
  capabilityId := "k"
  ownerComponentId := "core"
  declarationState := "available"
  sourceState := "present"
  constraints := [
    ⟨"a", "platformField", "os", "oneOf", ["bsd", "linux"]⟩,
    ⟨"b", "platformField", "os", "oneOf", ["linux", "macos"]⟩,
    ⟨"c", "platformField", "os", "oneOf", ["linux", "windows"]⟩]
  observations := [⟨"sourceTested", "accepted", some "e"⟩, ⟨"published", "notRun", none⟩]

def backedCatalog : Catalog where
  catalogId := "c"
  visibility := "private"
  components := [⟨⟨"core", "r", "0", false, none⟩, "Core", "1"⟩]
  evidenceRefs := [⟨"e", "mirrors.evidence-envelope/v1.0", "r", "0", "private"⟩]
  capabilities := [replayCapability]
  distributionProfiles := [⟨"p", linuxOnly, ["k"], [], ["sourceTested"], []⟩]
  combinations := [⟨"s", ["core"], linuxOnly, ["k"], ["p"], "supported", []⟩]

theorem covered_backedCatalog : Covered backedCatalog where
  references := by decide
  policies := by decide
  crowds := by
    intro capability hmem factKind factId hcrowded
    obtain rfl := List.mem_singleton.1 hmem
    -- A crowd needs all three constraints, so it is over the one fact they speak of.
    have hlength : replayCapability.constraints.length ≤
        (replayCapability.over factKind factId).length := hcrowded.2.2
    have hall : replayCapability.over factKind factId = replayCapability.constraints :=
      List.filter_sublist.eq_of_length_le hlength
    rw [hall]
    exact ⟨_, List.mem_cons_self, rfl, "linux", by decide, by decide⟩

/-- The validation accepts the catalog, and it is really supported. -/
example : validate backedCatalog = [] ∧ ReallySupported backedCatalog := by
  have hvalid : collectErrors backedCatalog = [] := by decide +kernel
  have hwf : ∀ capability ∈ backedCatalog.capabilities, ∀ c ∈ capability.constraints,
      c.WellFormed := by
    intro capability hmem c hc
    obtain rfl := List.mem_singleton.1 hmem
    have hchoice : c.operator = "oneOf" ∧ c.values ≠ [] := by
      revert c
      decide
    refine ⟨Or.inr (Or.inl hchoice.1), hchoice.2, fun hne => absurd hchoice.1 hne,
      fun hversion => ?_⟩
    rw [hchoice.1] at hversion
    exact absurd hversion (by decide)
  exact ⟨validate_eq_nil.2 hvalid,
    (reallySupported_iff (collectErrors_eq_nil hvalid) hwf).2 covered_backedCatalog⟩

/-! ### An empty observation policy -/

/-- A supported combination over one profile whose observation policy is empty. -/
def emptyPolicyRaw : String :=
  "\x7b\"schemaVersion\":\"mirrors.framework-catalog/v1\",\"catalogId\":\"c\"," ++
  ("\"visibility\":\"private\",\"components\":[],\"evidenceRefs\":[],\"capabilities\":[]," ++
  ("\"distributionProfiles\":[\x7b\"profileId\":\"p\",\"platform\":\x7b\"os\":\"linux\"," ++
  ("\"osRelease\":\"u\",\"architecture\":\"x\"\x7d,\"requiredCapabilityIds\":[]," ++
  ("\"optionalCapabilityIds\":[],\"requiredObservationDimensions\":[],\"dependencies\":[]\x7d]," ++
  ("\"combinations\":[\x7b\"combinationId\":\"s\",\"componentIds\":[],\"platform\":\x7b" ++
  ("\"os\":\"linux\",\"osRelease\":\"u\",\"architecture\":\"x\"\x7d,\"capabilityIds\":[]," ++
  ("\"distributionProfileIds\":[\"p\"],\"declaredState\":\"supported\"," ++
  "\"evidenceIds\":[]\x7d]\x7d")))))))

theorem append_eq_ofList {s t : String} {cs ct : List Char} (hs : s = String.ofList cs)
    (ht : t = String.ofList ct) : s ++ t = String.ofList (cs ++ ct) := by
  rw [hs, ht, String.ofList_append]

def emptyPolicyCatalog : Catalog where
  catalogId := "c"
  visibility := "private"
  components := []
  evidenceRefs := []
  capabilities := []
  distributionProfiles := [⟨"p", ⟨"linux", "u", "x", none⟩, [], [], [], []⟩]
  combinations := [⟨"s", [], ⟨"linux", "u", "x", none⟩, [], ["p"], "supported", []⟩]

theorem decodeString_of_chars {raw : String} {chars : List Char} {catalog : Catalog}
    (hchars : raw = String.ofList chars) (hsize : (chars.map Char.utf8Size).sum ≤ 4 * 1024 * 1024)
    (hscan : (StrictJson.scanValue (3 * chars.length + 3) ⟨chars, 0, 32⟩ 0).toOption.map
      (·.rest) = some [])
    (hparse : (Json.Parser.anyValue ⟨0, chars⟩).toOption.bind (fun result =>
      if safeNumbers result.1 then (decodeJson result.1).toOption else none) = some catalog)
    (hvalid : collectErrors catalog = []) :
    ∃ decoded, decodeString raw = .ok decoded ∧ decoded.catalog = catalog := by
  have hlist : raw.toList = chars := by rw [hchars, String.toList_ofList]
  have hvalidated : StrictJson.validateText raw { maxBytes := 4 * 1024 * 1024, maxDepth := 32 } =
      .ok () := by
    simp only [StrictJson.validateText, StrictJson.Cursor.remaining, hlist]
    cases hv : StrictJson.scanValue (3 * chars.length + 3) ⟨chars, 0, 32⟩ 0 with
    | error e => simp [hv, Except.toOption] at hscan
    | ok cursor =>
      obtain ⟨rest, pos, depth⟩ := cursor
      obtain rfl : rest = [] := by simpa [hv, Except.toOption] using hscan
      rfl
  cases hjson : Json.Parser.anyValue ⟨0, chars⟩ with
  | error e => simp [hjson, Except.toOption] at hparse
  | ok result =>
    obtain ⟨json, rest⟩ := result
    simp only [hjson, Except.toOption, Option.bind_some, Option.ite_none_right_eq_some] at hparse
    obtain ⟨hsafe, hdecoded⟩ := hparse
    obtain ⟨canonical, hcanonical⟩ := (exists_canonicalize_iff json).mpr hsafe
    have hparsed : Json.parse raw = .ok json := by rw [Json.parse, hlist, hjson]
    refine ⟨⟨catalog, json, canonical⟩, decodeString_eq_ok.mpr ⟨?_, ?_, hvalid, hcanonical⟩, rfl⟩
    · exact parseString_eq_ok (by rwa [hchars, toUTF8_size_ofList]) hvalidated hparsed
    · cases hd : decodeJson json with
      | error e => simp [hd] at hdecoded
      | ok c => simpa [hd] using hdecoded

set_option maxRecDepth 4000 in
theorem emptyPolicyRaw_decodes :
    ∃ decoded, decodeString emptyPolicyRaw = .ok decoded ∧
      decoded.catalog = emptyPolicyCatalog := by
  have hchars : ∃ chars, emptyPolicyRaw = String.ofList chars ∧
      (chars.map Char.utf8Size).sum ≤ 4 * 1024 * 1024 ∧
      (StrictJson.scanValue (3 * chars.length + 3) ⟨chars, 0, 32⟩ 0).toOption.map (·.rest) =
        some [] ∧
      (Json.Parser.anyValue ⟨0, chars⟩).toOption.bind (fun result =>
        if safeNumbers result.1 then (decodeJson result.1).toOption else none) =
        some emptyPolicyCatalog := by
    refine ⟨_, append_eq_ofList rfl <| append_eq_ofList rfl <| append_eq_ofList rfl <|
      append_eq_ofList rfl <| append_eq_ofList rfl <| append_eq_ofList rfl <|
      append_eq_ofList rfl <| append_eq_ofList rfl rfl, ?_⟩
    decide +kernel
  obtain ⟨chars, hraw, hsize, hscan, hparse⟩ := hchars
  exact decodeString_of_chars hraw hsize hscan hparse (by decide +kernel)

theorem emptyPolicy_not_supported : ¬ ReallySupported emptyPolicyCatalog := by
  intro h
  have hbacked := (h.supported _ List.mem_cons_self rfl).backed "p" List.mem_cons_self
  exact (hbacked.2 _ List.mem_cons_self rfl).policy rfl

/-- A supported combination whose profile asks for no observation is accepted. -/
theorem accepts_unsupported : ¬ ∀ raw decoded, decodeString raw = .ok decoded →
    ReallySupported decoded.catalog := by
  intro h
  obtain ⟨decoded, hdecoded, hcatalog⟩ := emptyPolicyRaw_decodes
  exact emptyPolicy_not_supported (hcatalog ▸ h _ _ hdecoded)

theorem supported_iff_covered_at_empty_policy :
    ∃ decoded, decodeString emptyPolicyRaw = .ok decoded ∧
      (ReallySupported decoded.catalog ↔ Covered decoded.catalog) := by
  obtain ⟨decoded, hdecoded, -⟩ := emptyPolicyRaw_decodes
  exact ⟨decoded, hdecoded, supported_iff_covered hdecoded⟩

end MirrorsCore.FrameworkCatalog
