import Mathlib

/-! Framework-catalog records and their cross-record validation
(`Core/FrameworkCatalog.lean`). Each accumulating loop of the source is one
`flatMap` here, in the same order. -/

namespace MirrorsCore.FrameworkCatalog

def schemaV1 : String := "mirrors.framework-catalog/v1"

structure ValidationError where
  code : String
  path : String
  message : String
  deriving DecidableEq

structure ComponentRef where
  componentId : String
  repository : String
  revision : String
  dirty : Bool
  dirtyDigest : Option String := none
  deriving DecidableEq

structure Component where
  ref : ComponentRef
  productName : String
  productVersion : String
  deriving DecidableEq

structure EvidenceRef where
  evidenceId : String
  schemaVersion : String
  runId : String
  envelopeSha256 : String
  projectionKind : String
  deriving DecidableEq

structure Observation where
  dimension : String
  state : String
  evidenceId : Option String := none
  deriving DecidableEq

structure Constraint where
  constraintId : String
  factKind : String
  factId : String
  operator : String
  values : List String
  deriving DecidableEq

structure Capability where
  capabilityId : String
  ownerComponentId : String
  declarationState : String
  sourceState : String
  constraints : List Constraint
  observations : List Observation
  deriving DecidableEq

structure Platform where
  os : String
  osRelease : String
  architecture : String
  backend : Option String := none
  deriving DecidableEq

structure Dependency where
  dependencyId : String
  version : Option String := none
  className : String
  deriving DecidableEq

structure DistributionProfile where
  profileId : String
  platform : Platform
  requiredCapabilityIds : List String
  optionalCapabilityIds : List String
  requiredObservationDimensions : List String
  dependencies : List Dependency
  deriving DecidableEq

structure Combination where
  combinationId : String
  componentIds : List String
  platform : Platform
  capabilityIds : List String
  distributionProfileIds : List String
  declaredState : String
  evidenceIds : List String
  deriving DecidableEq

structure Catalog where
  catalogId : String
  visibility : String
  components : List Component
  evidenceRefs : List EvidenceRef
  capabilities : List Capability
  distributionProfiles : List DistributionProfile
  combinations : List Combination
  deriving DecidableEq

def duplicates (values : List String) : List (Nat × String) :=
  values.zipIdx.filterMap fun (value, index) =>
    if (values.take index).contains value then some (index, value) else none

def error (code path message : String) : ValidationError := { code, path, message }

def observation? (capability : Capability) (dimension : String) : Option Observation :=
  capability.observations.find? (·.dimension == dimension)

def acceptedAt (capability : Capability) (dimension : String) : Bool :=
  match observation? capability dimension with
  | some observation => observation.state == "accepted" && observation.evidenceId.isSome
  | none => false

def semver? (value : String) : Option (Nat × Nat × Nat) :=
  match value.splitOn "." with
  | [major, minor, patch] => do
      let majorNat ← major.toNat?
      let minorNat ← minor.toNat?
      let patchNat ← patch.toNat?
      if majorNat.repr != major || minorNat.repr != minor || patchNat.repr != patch then none
      else return (majorNat, minorNat, patchNat)
  | _ => none

def semverAtLeast (actual minimum : String) : Bool :=
  match semver? actual, semver? minimum with
  | some (a, b, c), some (x, y, z) =>
      a > x || (a == x && (b > y || (b == y && c ≥ z)))
  | _, _ => false

def constraintActual? (catalog : Catalog) (profile : DistributionProfile)
    (combination : Combination) (constraint : Constraint) : Option String :=
  match constraint.factKind with
  | "platformField" => match constraint.factId with
      | "os" => some combination.platform.os
      | "osRelease" => some combination.platform.osRelease
      | "architecture" => some combination.platform.architecture
      | "backend" => combination.platform.backend
      | _ => none
  | "componentVersion" =>
      (catalog.components.find? (·.ref.componentId == constraint.factId)).map (·.productVersion)
  | "dependencyVersion" =>
      (profile.dependencies.find? (·.dependencyId == constraint.factId)).bind (·.version)
  | "capabilitySelected" =>
      some (if combination.capabilityIds.contains constraint.factId then "true" else "false")
  | _ => none

def constraintSatisfied (actual : String) (constraint : Constraint) : Bool :=
  match constraint.operator with
  | "equals" => constraint.values == [actual]
  | "oneOf" => constraint.values.contains actual
  | "atLeastSemver" => match constraint.values with
      | [minimum] => semverAtLeast actual minimum
      | _ => false
  | _ => false

def constraintPairCompatible (left right : Constraint) : Bool :=
  if left.factKind != right.factKind || left.factId != right.factId then true
  else match left.operator, right.operator with
    | "equals", "equals" => left.values == right.values
    | "equals", "oneOf" => left.values.all right.values.contains
    | "oneOf", "equals" => right.values.all left.values.contains
    | "oneOf", "oneOf" => left.values.any right.values.contains
    | "equals", "atLeastSemver" => match left.values, right.values with
        | [actual], [minimum] => semverAtLeast actual minimum
        | _, _ => false
    | "atLeastSemver", "equals" => match right.values, left.values with
        | [actual], [minimum] => semverAtLeast actual minimum
        | _, _ => false
    | "oneOf", "atLeastSemver" => match right.values with
        | [minimum] => left.values.any fun actual => semverAtLeast actual minimum
        | _ => false
    | "atLeastSemver", "oneOf" => match left.values with
        | [minimum] => right.values.any fun actual => semverAtLeast actual minimum
        | _ => false
    | "atLeastSemver", "atLeastSemver" => true
    | _, _ => false

def setDuplicates (path label : String) (values : List String) : List ValidationError :=
  (duplicates values).map fun (index, value) =>
    error "E-FCAT-DUPLICATE-001" s!"{path}[{index}]" s!"duplicate {label}: {value}"

def profileErrors (catalog : Catalog) (index : Nat)
    (profile : DistributionProfile) : List ValidationError :=
  let path := s!"$.distributionProfiles[{index}]"
  setDuplicates (path ++ ".requiredCapabilityIds") "capabilityId" profile.requiredCapabilityIds ++
  setDuplicates (path ++ ".optionalCapabilityIds") "capabilityId" profile.optionalCapabilityIds ++
  setDuplicates (path ++ ".requiredObservationDimensions") "observation dimension"
    profile.requiredObservationDimensions ++
  setDuplicates (path ++ ".dependencies") "dependencyId"
    (profile.dependencies.map (·.dependencyId)) ++
  (profile.requiredCapabilityIds ++ profile.optionalCapabilityIds).flatMap (fun capabilityId =>
    if !(catalog.capabilities.any (·.capabilityId == capabilityId)) then
      [error "E-FCAT-REFERENCE-001" (path ++ ".requiredCapabilityIds")
        s!"capabilityId does not resolve: {capabilityId}"]
    else []) ++
  profile.requiredCapabilityIds.flatMap (fun capabilityId =>
    if profile.optionalCapabilityIds.contains capabilityId then
      [error "E-FCAT-CONTRADICTION-001" path
        s!"capability cannot be both required and optional: {capabilityId}"]
    else [])

def fixedPolicyErrors (index : Nat) (profile : DistributionProfile) : List ValidationError :=
  let path := s!"$.distributionProfiles[{index}].requiredObservationDimensions"
  match profile.platform.backend with
  | some "local-process" =>
      if profile.requiredObservationDimensions.contains "installedConsumerAccepted" then []
      else [error "E-FCAT-STATE-001" path
        "local-process supported profile requires installedConsumerAccepted"]
  | some "linux-bubblewrap-v1" =>
      let missing := ["installedConsumerAccepted", "locallyAccepted"].filter
        fun dimension => !profile.requiredObservationDimensions.contains dimension
      if missing.isEmpty then []
      else [error "E-FCAT-STATE-001" path
        "linux-bubblewrap-v1 supported profile requires installedConsumerAccepted and locallyAccepted"]
  | _ => []

/-- Unresolved component and capability facts of one constraint. -/
def constraintReferenceErrors (catalog : Catalog) (index : Nat)
    (constraint : Constraint) : List ValidationError :=
  (if constraint.factKind == "componentVersion" &&
      !(catalog.components.any (·.ref.componentId == constraint.factId)) then
    [error "E-FCAT-REFERENCE-001" s!"$.capabilities[{index}].declaration.constraints"
      s!"constraint component does not resolve: {constraint.factId}"]
  else []) ++
  (if constraint.factKind == "capabilitySelected" &&
      !(catalog.capabilities.any (·.capabilityId == constraint.factId)) then
    [error "E-FCAT-REFERENCE-001" s!"$.capabilities[{index}].declaration.constraints"
      s!"constraint capability does not resolve: {constraint.factId}"]
  else [])

/-- The pairwise test over one capability's constraints. -/
def constraintPairErrors (index : Nat) (constraints : List Constraint) : List ValidationError :=
  constraints.zipIdx.flatMap fun (left, leftIndex) =>
    (constraints.drop (leftIndex + 1)).flatMap fun right =>
      if !constraintPairCompatible left right then
        [error "E-FCAT-CONTRADICTION-001" s!"$.capabilities[{index}].declaration.constraints"
          s!"constraints disagree for {left.factKind}:{left.factId}"]
      else []

def observationErrors (catalog : Catalog) (index : Nat)
    (observation : Observation) : List ValidationError :=
  match observation.evidenceId with
  | some evidenceId =>
      (if !(catalog.evidenceRefs.any fun evidence => evidence.evidenceId == evidenceId) then
        [error "E-FCAT-REFERENCE-001"
          s!"$.capabilities[{index}].observations.{observation.dimension}.evidenceId"
          s!"evidenceId does not resolve: {evidenceId}"]
      else []) ++
      (if observation.state == "unknown" || observation.state == "notRun" then
        [error "E-FCAT-STATE-001"
          s!"$.capabilities[{index}].observations.{observation.dimension}"
          s!"{observation.state} observation must not carry evidenceId"]
      else [])
  | none =>
      if observation.state == "accepted" || observation.state == "rejected" then
        let code := if observation.dimension == "published" then
          "E-FCAT-STATE-003" else "E-FCAT-STATE-001"
        let message := if observation.dimension == "published" then
          "accepted publication requires evidenceId"
          else s!"{observation.state} observation requires evidenceId"
        [error code s!"$.capabilities[{index}].observations.{observation.dimension}" message]
      else []

def capabilityErrors (catalog : Catalog) (index : Nat)
    (capability : Capability) : List ValidationError :=
  (if !(catalog.components.any fun component =>
      component.ref.componentId == capability.ownerComponentId) then
    [error "E-FCAT-REFERENCE-001" s!"$.capabilities[{index}].ownerComponentId"
      s!"ownerComponentId does not resolve: {capability.ownerComponentId}"]
  else []) ++
  setDuplicates s!"$.capabilities[{index}].declaration.constraints" "constraintId"
    (capability.constraints.map (·.constraintId)) ++
  capability.constraints.flatMap (constraintReferenceErrors catalog index) ++
  constraintPairErrors index capability.constraints ++
  capability.observations.flatMap (observationErrors catalog index)

/-- The checks of one required capability in one supported combination. -/
def requiredCapabilityErrors (catalog : Catalog) (index : Nat) (combination : Combination)
    (profileId : String) (profile : DistributionProfile) (capabilityId : String) :
    List ValidationError :=
  match catalog.capabilities.find? (·.capabilityId == capabilityId) with
  | none =>
      [error "E-FCAT-REFERENCE-001"
        s!"$.distributionProfiles[{profileId}].requiredCapabilityIds"
        s!"capabilityId does not resolve: {capabilityId}"]
  | some capability =>
      (if !combination.capabilityIds.contains capabilityId then
        [error "E-FCAT-CONTRADICTION-001" s!"$.combinations[{index}].capabilityIds"
          s!"supported combination omits required capability: {capabilityId}"]
      else []) ++
      (if !combination.componentIds.contains capability.ownerComponentId then
        [error "E-FCAT-CONTRADICTION-001" s!"$.combinations[{index}].componentIds"
          s!"supported combination omits capability owner: {capability.ownerComponentId}"]
      else []) ++
      (if capability.declarationState == "unavailable" || capability.sourceState == "absent" then
        [error "E-FCAT-CONTRADICTION-001" s!"$.combinations[{index}].declaredState"
          s!"supported combination requires unavailable capability: {capabilityId}"]
      else []) ++
      profile.requiredObservationDimensions.flatMap (fun dimension =>
        if !acceptedAt capability dimension then
          [error "E-FCAT-STATE-003" s!"$.combinations[{index}].declaredState"
            s!"supported combination lacks accepted {dimension} evidence for {capabilityId}"]
        else []) ++
      capability.constraints.flatMap (fun constraint =>
        match constraintActual? catalog profile combination constraint with
        | none =>
            [error "E-FCAT-REFERENCE-001" s!"$.combinations[{index}].declaredState"
              s!"constraint fact does not resolve: {constraint.factKind}:{constraint.factId}"]
        | some actual =>
            if !constraintSatisfied actual constraint then
              [error "E-FCAT-CONTRADICTION-001" s!"$.combinations[{index}].declaredState"
                s!"constraint is not satisfied: {constraint.constraintId}"]
            else [])

def profileReferenceErrors (catalog : Catalog) (index : Nat) (combination : Combination)
    (profileId : String) : List ValidationError :=
  match catalog.distributionProfiles.find? (·.profileId == profileId) with
  | none =>
      [error "E-FCAT-REFERENCE-001" s!"$.combinations[{index}].distributionProfileIds"
        s!"distributionProfileId does not resolve: {profileId}"]
  | some profile =>
      (if profile.platform != combination.platform then
        [error "E-FCAT-PLATFORM-001" s!"$.combinations[{index}].platform.architecture"
          s!"combination platform differs from distribution profile {profileId}"]
      else []) ++
      (if combination.declaredState == "supported" then
        fixedPolicyErrors
          ((catalog.distributionProfiles.findIdx? (·.profileId == profileId)).getD 0) profile ++
        profile.requiredCapabilityIds.flatMap
          (requiredCapabilityErrors catalog index combination profileId profile)
      else [])

def combinationErrors (catalog : Catalog) (index : Nat)
    (combination : Combination) : List ValidationError :=
  setDuplicates s!"$.combinations[{index}].componentIds" "componentId"
    combination.componentIds ++
  setDuplicates s!"$.combinations[{index}].capabilityIds" "capabilityId"
    combination.capabilityIds ++
  setDuplicates s!"$.combinations[{index}].distributionProfileIds" "distributionProfileId"
    combination.distributionProfileIds ++
  setDuplicates s!"$.combinations[{index}].evidenceIds" "evidenceId" combination.evidenceIds ++
  combination.componentIds.flatMap (fun componentId =>
    if !(catalog.components.any fun component => component.ref.componentId == componentId) then
      [error "E-FCAT-REFERENCE-001" s!"$.combinations[{index}].componentIds"
        s!"componentId does not resolve: {componentId}"]
    else []) ++
  combination.capabilityIds.flatMap (fun capabilityId =>
    if !(catalog.capabilities.any fun capability => capability.capabilityId == capabilityId) then
      [error "E-FCAT-REFERENCE-001" s!"$.combinations[{index}].capabilityIds"
        s!"capabilityId does not resolve: {capabilityId}"]
    else []) ++
  combination.evidenceIds.flatMap (fun evidenceId =>
    if !(catalog.evidenceRefs.any fun evidence => evidence.evidenceId == evidenceId) then
      [error "E-FCAT-REFERENCE-001" s!"$.combinations[{index}].evidenceIds"
        s!"evidenceId does not resolve: {evidenceId}"]
    else []) ++
  combination.distributionProfileIds.flatMap (profileReferenceErrors catalog index combination)

/-- One duplicate-identity loop of `validate`: `field` is the path below `index`. -/
def duplicateErrors (collection field label : String) (values : List String) :
    List ValidationError :=
  (duplicates values).map fun (index, value) =>
    error "E-FCAT-DUPLICATE-001" s!"$.{collection}[{index}].{field}" s!"duplicate {label}: {value}"

def runRefIdentity (evidence : EvidenceRef) : String :=
  evidence.schemaVersion ++ "\u0000" ++ evidence.runId ++ "\u0000" ++
    evidence.envelopeSha256 ++ "\u0000" ++ evidence.projectionKind

def runRefErrors (evidenceRefs : List EvidenceRef) : List ValidationError :=
  evidenceRefs.zipIdx.flatMap fun (evidence, index) =>
    if (evidenceRefs.take index).any fun earlier =>
        runRefIdentity earlier == runRefIdentity evidence then
      [error "E-FCAT-DUPLICATE-001" s!"$.evidenceRefs[{index}].runRef" "duplicate runRef identity"]
    else []

/-- The errors of `validate` before its final sort. -/
def collectErrors (catalog : Catalog) : List ValidationError :=
  duplicateErrors "components" "componentRef.componentId" "componentId"
    (catalog.components.map (·.ref.componentId)) ++
  duplicateErrors "evidenceRefs" "evidenceId" "evidenceId"
    (catalog.evidenceRefs.map (·.evidenceId)) ++
  runRefErrors catalog.evidenceRefs ++
  duplicateErrors "capabilities" "capabilityId" "capabilityId"
    (catalog.capabilities.map (·.capabilityId)) ++
  duplicateErrors "distributionProfiles" "profileId" "profileId"
    (catalog.distributionProfiles.map (·.profileId)) ++
  duplicateErrors "combinations" "combinationId" "combinationId"
    (catalog.combinations.map (·.combinationId)) ++
  catalog.capabilities.zipIdx.flatMap (fun (capability, index) =>
    capabilityErrors catalog index capability) ++
  catalog.distributionProfiles.zipIdx.flatMap (fun (profile, index) =>
    profileErrors catalog index profile) ++
  catalog.combinations.zipIdx.flatMap (fun (combination, index) =>
    combinationErrors catalog index combination)

def validate (catalog : Catalog) : List ValidationError :=
  (collectErrors catalog).mergeSort fun left right =>
    (left.path ++ "\u0000" ++ left.code) ≤ (right.path ++ "\u0000" ++ right.code)

end MirrorsCore.FrameworkCatalog
