import Mathlib
import MirrorsCore.Tla.ClosedWorld
import MirrorsCore.Tla.EffectiveFacts

/-! The analysis of a root (`Shell/Tla/Frontend.lean`): resolve its graph, elaborate it,
and admit evidence against the effective variables. -/

namespace MirrorsCore.Tla
open Resolver
open MirrorsCore.Lib (run_bind_of)
open MirrorsCore.Lib.ImportSystem (reached)

structure FrontendLimits where
  resolver : ResolverLimits := {}
  elaboration : ElaborationLimits := {}
  deriving DecidableEq

structure FrontendRequest where
  root : ModuleRef
  profile : LexicalProfile := LexicalProfile.default
  limits : FrontendLimits := {}

structure FrontendFailure where
  diagnostics : List Diagnostic
  deriving DecidableEq

structure FrontendResult where
  root : ModuleName
  graph : ResolvedGraph
  elaborated : ElaboratedModule
  diagnostics : List Diagnostic := []

def FrontendResult.variableNames (result : FrontendResult) : List String :=
  result.elaborated.«variables».map fun entry => entry.visibleName

variable {ω : Type}

def parseUnitWith (profile : LexicalProfile) (unit : SourceUnit) : StateM ω ParseOutcome :=
  pure (parseSource profile ParserProfile.default {} {} unit)

def requestConfig (digestHex : ByteArray → String) (provider : SourceProvider ω)
    (request : FrontendRequest) : ResolverConfig ω :=
  { provider
    parse := parseUnitWith request.profile
    limits := request.limits.resolver
    digestHex }

def analyze (digestHex : ByteArray → String) (provider : SourceProvider ω)
    (request : FrontendRequest) : StateM ω (Except FrontendFailure FrontendResult) := do
  match ← resolve (requestConfig digestHex provider request) request.root with
  | .error refused => return .error { diagnostics := refused.diagnostics }
  | .ok graph =>
      match elaborate request.profile.toLanguageProfile request.limits.elaboration
          graph.toResolvedModuleGraph with
      | .error diagnostics => return .error { diagnostics }
      | .ok elaborated => return .ok { root := graph.root, graph, elaborated }

section Analyze
variable {digestHex : ByteArray → String} {provider : SourceProvider ω}
  {request : FrontendRequest} {result : FrontendResult} {w w' : ω}

theorem analyze_eq_ok (h : (analyze digestHex provider request).run w = (.ok result, w')) :
    (resolve (requestConfig digestHex provider request) request.root).run w =
        (.ok result.graph, w') ∧
      elaborate request.profile.toLanguageProfile request.limits.elaboration
        result.graph.toResolvedModuleGraph = .ok result.elaborated := by
  unfold analyze at h
  rcases hresolve : (resolve (requestConfig digestHex provider request) request.root).run w with
    ⟨refused | graph, w₁⟩
  · rw [run_bind_of hresolve] at h
    cases congrArg Prod.fst h
  · rw [run_bind_of hresolve] at h
    dsimp only at h
    rcases helaborate : elaborate request.profile.toLanguageProfile request.limits.elaboration
        graph.toResolvedModuleGraph with diagnostics | elaborated
    · rw [helaborate] at h
      cases congrArg Prod.fst h
    · rw [helaborate] at h
      cases h
      exact ⟨rfl, helaborate⟩

/-- What an analysis publishes, whatever its provider answers: the graph has no cycle, and the
variables are those that the root reaches, each once, with the path that was taken. -/
theorem analyze_publishes
    (hnames : NamesStandards (requestConfig digestHex provider request))
    (h : (analyze digestHex provider request).run w = (.ok result, w')) :
    ∃ hwf : Acyclic result.graph.toResolvedModuleGraph,
      result.elaborated.«variables».map ResolvedVariable.published =
          (reached hwf request.root.moduleName).map
            (publishedOccurrence request.root.moduleName) ∧
        (result.elaborated.«variables».map fun resolved => resolved.symbol).Nodup := by
  obtain ⟨hresolve, helaborate⟩ := analyze_eq_ok h
  have hwf := acyclic_resolve hnames hresolve
  have hroot : result.graph.root = request.root.moduleName := by
    obtain ⟨final, hgraph, -⟩ := reached_of_resolve hresolve
    rw [hgraph]
    rfl
  refine ⟨hwf, ?_, nodup_symbols_of_elaborate hwf helaborate⟩
  rw [← hroot]
  exact published_of_elaborate hwf helaborate

end Analyze

def sampleRequest : FrontendRequest := { root := sampleRoot }

def sampleResult : FrontendResult :=
  { root := sampleGraph.root
    graph := sampleGraph
    elaborated := assemble sampleGraph.toResolvedModuleGraph
      (finalState .default {} sampleGraph.toResolvedModuleGraph) }

theorem analyze_sample : (analyze (fun _ => "") sampleProvider sampleRequest).run () =
    (.ok sampleResult, ()) := by
  have hsilent : (finalState .default {} sampleGraph.toResolvedModuleGraph).buffer.hasErrors =
      false := by decide +kernel
  have helaborate : elaborate sampleRequest.profile.toLanguageProfile
      sampleRequest.limits.elaboration sampleGraph.toResolvedModuleGraph =
        .ok sampleResult.elaborated := elaborate_of_silent hsilent
  have hresolve : (resolve (requestConfig (fun _ => "") sampleProvider sampleRequest)
      sampleRequest.root).run () = (.ok sampleGraph, ()) := resolve_sample
  unfold analyze
  rw [run_bind_of hresolve]
  dsimp only
  rw [helaborate]
  rfl

theorem analyze_publishes_sample :
    ∃ hwf : Acyclic sampleResult.graph.toResolvedModuleGraph,
      sampleResult.elaborated.«variables».map ResolvedVariable.published =
          (reached hwf sampleRequest.root.moduleName).map
            (publishedOccurrence sampleRequest.root.moduleName) ∧
        (sampleResult.elaborated.«variables».map fun resolved => resolved.symbol).Nodup := by
  have hnames : NamesStandards (requestConfig (fun _ => "") sampleProvider sampleRequest) :=
    namesStandards_of_lookup rfl
  exact analyze_publishes hnames analyze_sample

/-! ### Evidence -/

structure EvidenceLimits where
  maxVariables : Nat := 4096
  maxIdentifierBytes : Nat := 256
  deriving DecidableEq

inductive EvidenceAdmissionError where
  | duplicateEvidence (name : String)
  | evidenceLimit (message : String)
  | mismatch (sourceOnly : List ResolvedVariable) (evidenceOnly : List String)
  deriving DecidableEq

def sortedStrings (values : List String) : List String :=
  (values.toArray.qsort fun left right => compare left right == .lt).toList

/-- The evidence against the effective variables, as sets. -/
def matchEvidence (result : FrontendResult) (rawVariables : List String) :
    Except EvidenceAdmissionError Unit :=
  let effective := result.elaborated.«variables»
  let sourceOnly := effective.filter fun entry => !rawVariables.contains entry.visibleName
  let effectiveNames := effective.map fun entry => entry.visibleName
  let evidenceOnly := rawVariables.filter fun name => !effectiveNames.contains name
  if sourceOnly.isEmpty && evidenceOnly.isEmpty then .ok ()
  else .error (.mismatch sourceOnly (sortedStrings evidenceOnly))

def admitEvidence (result : FrontendResult) (rawVariables : List String)
    (limits : EvidenceLimits) : Except EvidenceAdmissionError Unit :=
  if rawVariables.length > limits.maxVariables then
    .error (.evidenceLimit s!"evidence variables exceed count limit {limits.maxVariables}")
  else if rawVariables.any fun name => name.toUTF8.size > limits.maxIdentifierBytes then
    .error (.evidenceLimit
      s!"evidence variable name exceeds byte limit {limits.maxIdentifierBytes}")
  else
    match rawVariables.find? fun name => (rawVariables.filter (· == name)).length > 1 with
    | some name => .error (.duplicateEvidence name)
    | none => matchEvidence result rawVariables

section Evidence
variable {result : FrontendResult} {rawVariables : List String} {limits : EvidenceLimits}

theorem matchEvidence_eq_ok_iff :
    matchEvidence result rawVariables = .ok () ↔
      ∀ name, name ∈ rawVariables ↔ name ∈ result.variableNames := by
  have hdecide : matchEvidence result rawVariables = .ok () ↔
      (∀ entry ∈ result.elaborated.«variables», entry.visibleName ∈ rawVariables) ∧
        ∀ name ∈ rawVariables, name ∈ result.variableNames := by
    unfold matchEvidence FrontendResult.variableNames
    dsimp only
    split
    · rename_i hempty
      simpa using hempty
    · rename_i hempty
      simpa using hempty
  rw [hdecide]
  constructor
  · rintro ⟨hsource, hevidence⟩ name
    refine ⟨hevidence name, fun hname => ?_⟩
    obtain ⟨entry, hentry, rfl⟩ := List.mem_map.mp hname
    exact hsource entry hentry
  · intro hsame
    exact ⟨fun entry hentry => (hsame _).mpr (List.mem_map_of_mem hentry),
      fun name hname => (hsame name).mp hname⟩

theorem find?_duplicate_eq_none_iff :
    rawVariables.find? (fun name => decide ((rawVariables.filter (· == name)).length > 1)) = none ↔
      rawVariables.Nodup := by
  rw [List.find?_eq_none, List.nodup_iff_count_le_one]
  have hcount : ∀ name, (rawVariables.filter (· == name)).length = rawVariables.count name :=
    fun name => List.countP_eq_length_filter.symm
  constructor
  · intro hnone name
    by_cases hname : name ∈ rawVariables
    · have hle := hnone name hname
      rw [decide_eq_true_eq, hcount] at hle
      exact Nat.le_of_not_lt hle
    · rw [List.count_eq_zero_of_not_mem hname]
      exact Nat.zero_le 1
  · intro hle name _
    rw [decide_eq_true_eq, hcount]
    exact Nat.not_lt_of_le (hle name)

/-- Evidence is admitted exactly when it is within its limits, repeats no name, and names
the effective variables. -/
theorem admitEvidence_eq_ok_iff :
    admitEvidence result rawVariables limits = .ok () ↔
      rawVariables.length ≤ limits.maxVariables ∧
        (∀ name ∈ rawVariables, name.toUTF8.size ≤ limits.maxIdentifierBytes) ∧
        rawVariables.Nodup ∧ ∀ name, name ∈ rawVariables ↔ name ∈ result.variableNames := by
  unfold admitEvidence
  split_ifs with hcount hbytes
  · exact iff_of_false id fun h => absurd hcount (Nat.not_lt_of_le h.1)
  · obtain ⟨name, hname, hlarge⟩ := List.any_eq_true.mp hbytes
    rw [decide_eq_true_eq] at hlarge
    exact iff_of_false id fun h => absurd hlarge (Nat.not_lt_of_le (h.2.1 name hname))
  · have hwithin : ∀ name ∈ rawVariables, name.toUTF8.size ≤ limits.maxIdentifierBytes := by
      simpa using hbytes
    rcases hfind : rawVariables.find?
        (fun name => decide ((rawVariables.filter (· == name)).length > 1)) with - | name
    · have hnodup := find?_duplicate_eq_none_iff.mp hfind
      exact matchEvidence_eq_ok_iff.trans
        ⟨fun h => ⟨Nat.le_of_not_lt hcount, hwithin, hnodup, h⟩, fun h => h.2.2.2⟩
    · refine iff_of_false nofun fun h => ?_
      rw [find?_duplicate_eq_none_iff.mpr h.2.2.1] at hfind
      cases hfind

end Evidence
end MirrorsCore.Tla
