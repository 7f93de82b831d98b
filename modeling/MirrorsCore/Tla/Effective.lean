import Mathlib
import MirrorsCore.Lib.ImportClosure
import MirrorsCore.Tla.Elaborate

/-! What the published closure says of a graph: the variables that its modules
declare, their `EXTENDS` edges as an import system, and the effective facts of the
root. Nothing here reads the elaborator's state. -/

namespace MirrorsCore.Tla
open MirrorsCore.Lib
open ImportSystem (effective passes)

/-- A variable as its module declares it; `index` is its position there. -/
structure DeclaredVariable where
  declaredIn : ModuleName
  index : Nat
  name : String
  range : SourceRange
  isLocal : Bool
  deriving DecidableEq

/-- The variables of one declaration, each with its `LOCAL` flag. -/
def variablesOf (inheritedLocal : Bool) : Declaration → List (NameDecl × Bool)
  | .variable _ names => names.map fun declared => (declared, inheritedLocal)
  | .localDeclaration _ inner => variablesOf true inner
  | _ => []

def moduleVariables (node : ModuleNode) : List (NameDecl × Bool) :=
  node.module.declarations.flatMap (variablesOf false)

def declaredVariable (owner : ModuleName) (declared : (NameDecl × Bool) × Nat) :
    DeclaredVariable :=
  { declaredIn := owner
    index := declared.2
    name := declared.1.1.name
    range := declared.1.1.range
    isLocal := declared.1.2 }

def declaredVariables (graph : ResolvedModuleGraph) (name : ModuleName) :
    List DeclaredVariable :=
  match graph.findNode? name with
  | some node => (moduleVariables node).zipIdx.map (declaredVariable name)
  | none => []

/-- The `EXTENDS` edges between captured modules, each with its position. -/
def capturedEdges (graph : ResolvedModuleGraph) (name : ModuleName) :
    List (ModuleEdge × Nat) :=
  match graph.findNode? name with
  | some _ =>
      ((extendsEdgesOf graph name).filter fun edge =>
        (graph.findNode? edge.dependency).isSome).zipIdx
  | none => []

def importSystem (graph : ResolvedModuleGraph) :
    ImportSystem ModuleName (ModuleEdge × Nat) DeclaredVariable :=
  { edges := capturedEdges graph
    target := fun edge => edge.1.dependency
    hidden := fun edge => edge.1.isLocal
    own := declaredVariables graph
    isLocal := DeclaredVariable.isLocal }

/-- No captured module extends itself, directly or through others. -/
abbrev Acyclic (graph : ResolvedModuleGraph) : Prop :=
  WellFounded (importSystem graph).Imports

/-- `EXTENDS` edges alone lead from the first module to the second. -/
def ReachesByExtends (graph : ResolvedModuleGraph) : ModuleName → ModuleName → Prop :=
  Relation.ReflTransGen fun name dependency => (importSystem graph).Imports dependency name

/-! ### Published facts -/

/-- What is published of one effective variable. -/
structure PublishedVariable where
  visibleName : String
  declaredName : String
  declaredIn : ModuleName
  declarationRange : SourceRange
  importPath : List ModuleName
  deriving DecidableEq

def ResolvedVariable.published (variableFacts : ResolvedVariable) : PublishedVariable :=
  { visibleName := variableFacts.visibleName
    declaredName := variableFacts.declaredName
    declaredIn := variableFacts.declaredIn
    declarationRange := variableFacts.declarationRange
    importPath := variableFacts.importPath }

/-- An occurrence seen from `root`: the import path is the chain of modules from
the root to the declaring one. -/
def publishedOccurrence (root : ModuleName)
    (occurrence : Occurrence (ModuleEdge × Nat) DeclaredVariable) : PublishedVariable :=
  { visibleName := occurrence.1.name
    declaredName := occurrence.1.name
    declaredIn := occurrence.1.declaredIn
    declarationRange := occurrence.1.range
    importPath := root :: occurrence.2.map fun edge => edge.1.dependency }

/-- The effective facts match the published closure. -/
structure EffectiveFacts (graph : ResolvedModuleGraph) (hwf : Acyclic graph)
    (facts : ElaboratedModule) : Prop where
  published : facts.«variables».map ResolvedVariable.published =
    (effective hwf graph.root).map (publishedOccurrence graph.root)
  once : (facts.«variables».map fun resolved => resolved.symbol).Nodup
  visibleNames : (facts.«variables».map fun resolved => resolved.visibleName).Nodup
  variableOrigins : ∀ resolved ∈ facts.«variables»,
    ReachesByExtends graph graph.root resolved.declaredIn
  constantOrigins : ∀ resolved ∈ facts.constants,
    ReachesByExtends graph graph.root resolved.declaredIn

/-- On the way to an effective variable every module passes it on: of the `EXTENDS`
edges that bring the variable to such a module, the first is not `LOCAL`. -/
def PassedAlong (graph : ResolvedModuleGraph) (hwf : Acyclic graph) : Prop :=
  ∀ occurrence ∈ effective hwf graph.root, ∀ edge ∈ occurrence.2,
    passes hwf edge.1.dependency occurrence.1 = true

/-- At most one effective variable is declared without a name. -/
def OneUnnamed (graph : ResolvedModuleGraph) (hwf : Acyclic graph) : Prop :=
  ∀ occurrence ∈ effective hwf graph.root, ∀ other ∈ effective hwf graph.root,
    occurrence.1.name = "" → other.1.name = "" → occurrence = other

/-! ### Declarations and their modules -/

theorem mem_declaredVariables {graph : ResolvedModuleGraph} {name : ModuleName}
    {v : DeclaredVariable} (h : v ∈ declaredVariables graph name) : v.declaredIn = name := by
  rw [declaredVariables] at h
  split at h
  · obtain ⟨declared, -, rfl⟩ := List.mem_map.mp h
    rfl
  · simp at h

theorem nodup_declaredVariables (graph : ResolvedModuleGraph) (name : ModuleName) :
    (declaredVariables graph name).Nodup := by
  have hindex : ((declaredVariables graph name).map DeclaredVariable.index).Nodup := by
    rw [declaredVariables]
    split
    · rw [List.map_map]
      exact List.nodup_zipIdx_map_snd _
    · simp
  exact hindex.of_map

theorem nodup_capturedEdges (graph : ResolvedModuleGraph) (name : ModuleName) :
    (capturedEdges graph name).Nodup := by
  rw [capturedEdges]
  split
  · exact (List.nodup_zipIdx_map_snd _).of_map
  · simp

theorem mem_capturedEdges {graph : ResolvedModuleGraph} {name : ModuleName}
    {edge : ModuleEdge × Nat} (h : edge ∈ capturedEdges graph name) :
    edge.1 ∈ graph.edges ∧ edge.1.owner = name ∧
      (graph.findNode? edge.1.dependency).isSome = true := by
  rw [capturedEdges] at h
  split at h
  · obtain ⟨hedge, hcaptured⟩ := List.mem_filter.mp
      (List.mem_of_getElem? (List.mem_zipIdx_iff_getElem?.mp h))
    obtain ⟨hedge, howner⟩ := List.mem_filter.mp hedge
    exact ⟨hedge, eq_of_beq (Bool.and_eq_true_iff.mp howner).1, hcaptured⟩
  · exact absurd h List.not_mem_nil

/-- A rank that every edge decreases rules out cycles. -/
theorem acyclic_of_rank {graph : ResolvedModuleGraph} (rank : ModuleName → Nat)
    (h : ∀ edge ∈ graph.edges, rank edge.dependency < rank edge.owner) : Acyclic graph := by
  refine Subrelation.wf (fun {dependency name} himports => ?_) (measure rank).wf
  obtain ⟨edge, hedge, rfl⟩ := himports
  obtain ⟨hmem, rfl, -⟩ := mem_capturedEdges hedge
  exact h edge.1 hmem

theorem exists_node_of_imports {graph : ResolvedModuleGraph} {dependency name : ModuleName}
    (h : (importSystem graph).Imports dependency name) :
    (graph.findNode? dependency).isSome = true := by
  obtain ⟨edge, hedge, rfl⟩ := h
  exact (mem_capturedEdges hedge).2.2

end MirrorsCore.Tla
