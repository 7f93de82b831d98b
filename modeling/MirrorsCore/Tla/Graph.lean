import Mathlib
import MirrorsCore.Tla.Level

/-! The resolved module graph (`Core/Tla/Graph.lean`), the reviewed standard
modules (`Core/Tla/StandardCatalog.lean`) and the shapes of elaborated facts
(`Core/Tla/Names.lean`). -/

namespace MirrorsCore.Tla

inductive DependencyKind where
  | extendsModule
  | namedInstance
  | unnamedInstance
  deriving DecidableEq

/-- A captured module, or a pinned standard module without captured source. -/
inductive DependencyResolution where
  | localSource
  | standardCatalog
  deriving DecidableEq

structure ModuleEdge where
  owner : ModuleName
  dependency : ModuleName
  kind : DependencyKind
  resolution : DependencyResolution
  isLocal : Bool
  substitutions : List Substitution
  range : SourceRange
  declarationOrder : Nat

/-- One captured module: its exact bytes and their parsed view. -/
structure ModuleNode where
  name : ModuleName
  logicalPath : String
  unit : SourceUnit
  module : ParsedModule

/-- Nodes and edges stand in discovery order. -/
structure ResolvedModuleGraph where
  root : ModuleName
  nodes : List ModuleNode
  edges : List ModuleEdge

namespace ResolvedModuleGraph

def findNode? (graph : ResolvedModuleGraph) (name : ModuleName) : Option ModuleNode :=
  graph.nodes.find? fun node => node.name == name

def sortedNodes (graph : ResolvedModuleGraph) : List ModuleNode :=
  (graph.nodes.toArray.qsort fun left right =>
    compare left.name.name right.name.name == .lt).toList

def sourceIdentities (graph : ResolvedModuleGraph) : List SourceIdentity :=
  graph.sortedNodes.map fun node => SourceUnit.identity node.unit node.name

end ResolvedModuleGraph

/-! ### Standard modules -/

structure StandardDependency where
  owner : ModuleName
  dependency : ModuleName
  localOnly : Bool := false
  deriving DecidableEq

def standardDependencies : List StandardDependency := [
  { owner := ⟨"Integers"⟩, dependency := ⟨"Naturals"⟩ },
  { owner := ⟨"Reals"⟩, dependency := ⟨"Integers"⟩ },
  { owner := ⟨"RealTime"⟩, dependency := ⟨"Reals"⟩ },
  { owner := ⟨"Sequences"⟩, dependency := ⟨"Naturals"⟩, localOnly := true },
  { owner := ⟨"FiniteSets"⟩, dependency := ⟨"Naturals"⟩, localOnly := true },
  { owner := ⟨"FiniteSets"⟩, dependency := ⟨"Sequences"⟩, localOnly := true },
  { owner := ⟨"Bags"⟩, dependency := ⟨"Naturals"⟩, localOnly := true },
  { owner := ⟨"TLC"⟩, dependency := ⟨"Naturals"⟩, localOnly := true },
  { owner := ⟨"TLC"⟩, dependency := ⟨"Sequences"⟩, localOnly := true },
  { owner := ⟨"TLC"⟩, dependency := ⟨"FiniteSets"⟩, localOnly := true },
  { owner := ⟨"TLCExt"⟩, dependency := ⟨"TLC"⟩, localOnly := true },
  { owner := ⟨"TLCExt"⟩, dependency := ⟨"Integers"⟩, localOnly := true },
  { owner := ⟨"Toolbox"⟩, dependency := ⟨"Naturals"⟩, localOnly := true },
  { owner := ⟨"Toolbox"⟩, dependency := ⟨"FiniteSets"⟩, localOnly := true },
  { owner := ⟨"Toolbox"⟩, dependency := ⟨"TLC"⟩, localOnly := true },
  { owner := ⟨"Randomization"⟩, dependency := ⟨"Naturals"⟩, localOnly := true },
  { owner := ⟨"Randomization"⟩, dependency := ⟨"FiniteSets"⟩, localOnly := true }]

def exportClosure : Nat → ModuleName → List ModuleName
  | 0, name => [name]
  | fuel + 1, name =>
      standardDependencies.foldl (fun names edge =>
        if edge.owner == name && !edge.localOnly then
          (exportClosure fuel edge.dependency).foldl (fun acc dependency =>
            if acc.contains dependency then acc else acc ++ [dependency]) names
        else names) [name]

/-- Public module visibility; an unknown module exposes itself only. -/
def standardExportClosure (name : ModuleName) : List ModuleName :=
  exportClosure (standardDependencies.length + 1) name

def standardExports (owner declarationModule : ModuleName) : Bool :=
  (standardExportClosure owner).contains declarationModule

/-! ### Elaborated facts -/

abbrev SymbolId := Nat

inductive SymbolKind where
  | constant
  | variable
  | recursive
  | definition
  | assumption
  | theoremKind
  | instanceKind
  deriving DecidableEq

structure ResolvedConstant where
  symbol : SymbolId
  name : String
  declaredIn : ModuleName
  declarationRange : SourceRange
  importPath : List ModuleName
  localDeclaration : Bool
  deriving DecidableEq

structure ResolvedVariable where
  symbol : SymbolId
  visibleName : String
  declaredName : String
  declaredIn : ModuleName
  declarationRange : SourceRange
  importPath : List ModuleName
  localDeclaration : Bool
  deriving DecidableEq

structure ResolvedOperator where
  symbol : SymbolId
  name : String
  arity : Nat
  fixity : OperatorFixity
  level : Level
  declaredIn : ModuleName
  declarationRange : SourceRange
  importPath : List ModuleName
  localDeclaration : Bool
  deriving DecidableEq

structure ResolvedAssumption where
  symbol : SymbolId
  kind : AssumptionKind
  body : Expression
  level : Level
  declaredIn : ModuleName
  declarationRange : SourceRange
  importPath : List ModuleName
  localDeclaration : Bool

structure ElaboratedModule where
  moduleName : ModuleName
  constants : List ResolvedConstant
  «variables» : List ResolvedVariable
  operators : List ResolvedOperator
  assumptions : List ResolvedAssumption
  sourceManifest : List SourceIdentity
  symbolCount : Nat

end MirrorsCore.Tla
