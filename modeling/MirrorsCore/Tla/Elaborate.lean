import Mathlib
import MirrorsCore.Tla.LevelPass

/-! The entry point of elaboration (`Core/Tla/Elaboration.lean`): the stages in
order, and the facts of the root that a clean run assembles. -/

namespace MirrorsCore.Tla

def resolvedConstantOf (entry : ClosureEntry) : ResolvedConstant :=
  { symbol := entry.info.symbol
    name := entry.info.name
    declaredIn := entry.info.declaredIn
    declarationRange := entry.info.declarationRange
    importPath := entry.importPath
    localDeclaration := entry.info.localDeclaration }

def resolvedVariableOf (entry : ClosureEntry) : ResolvedVariable :=
  { symbol := entry.info.symbol
    visibleName := entry.info.name
    declaredName := entry.info.name
    declaredIn := entry.info.declaredIn
    declarationRange := entry.info.declarationRange
    importPath := entry.importPath
    localDeclaration := entry.info.localDeclaration }

def resolvedOperatorOf (levels : List (SymbolId × Level)) (entry : ClosureEntry) :
    ResolvedOperator :=
  { symbol := entry.info.symbol
    name := entry.info.name
    arity := entry.info.arity
    fixity := entry.info.fixity
    level := (levelOf? levels entry.info.symbol).getD .constant
    declaredIn := entry.info.declaredIn
    declarationRange := entry.info.declarationRange
    importPath := entry.importPath
    localDeclaration := entry.info.localDeclaration }

def resolvedAssumptionOf (levels : List (SymbolId × Level)) (entry : ClosureEntry)
    (declaration : Assumption) : ResolvedAssumption :=
  { symbol := entry.info.symbol
    kind := declaration.kind
    body := declaration.body
    level := (levelOf? levels entry.info.symbol).getD .constant
    declaredIn := entry.info.declaredIn
    declarationRange := entry.info.declarationRange
    importPath := entry.importPath
    localDeclaration := entry.info.localDeclaration }

def constantFact? (entry : ClosureEntry) : Option ResolvedConstant :=
  match entry.info.kind with
  | .constant => some (resolvedConstantOf entry)
  | _ => none

def variableFact? (entry : ClosureEntry) : Option ResolvedVariable :=
  match entry.info.kind with
  | .variable => some (resolvedVariableOf entry)
  | _ => none

def operatorFact? (levels : List (SymbolId × Level)) (entry : ClosureEntry) :
    Option ResolvedOperator :=
  match entry.info.kind with
  | .recursive => some (resolvedOperatorOf levels entry)
  | .definition => some (resolvedOperatorOf levels entry)
  | _ => none

def assumptionFact? (levels : List (SymbolId × Level)) (entry : ClosureEntry) :
    Option ResolvedAssumption :=
  match entry.info.assumption? with
  | some declaration => some (resolvedAssumptionOf levels entry declaration)
  | none => none

def rootClosure (graph : ResolvedModuleGraph) (state : ElabState) : ClosureResult :=
  match state.closures.find? (fun memo => memo.1 == graph.root) with
  | some memo => memo.2
  | none => {}

def assemble (graph : ResolvedModuleGraph) (state : ElabState) : ElaboratedModule :=
  let closure := rootClosure graph state
  { moduleName := graph.root
    constants := closure.entries.filterMap constantFact?
    «variables» := closure.entries.filterMap variableFact?
    operators := closure.entries.filterMap (operatorFact? state.levels)
    assumptions := closure.entries.filterMap (assumptionFact? state.levels)
    sourceManifest := graph.sourceIdentities
    symbolCount := state.nextSymbol }

def elaborateCore (profile : LanguageProfile) (graph : ResolvedModuleGraph) : ElabM Unit := do
  tabulateGraph graph
  whenNotDone (computeClosures graph)
  whenNotDone checkInstances
  whenNotDone (resolveGraph profile graph)
  whenNotDone computeLevels
  whenNotDone checkSubstitutionLevels
  whenNotDone checkAssumptions

def initialState (limits : ElaborationLimits) (graph : ResolvedModuleGraph) : ElabState :=
  { limits
    anchor :=
      match graph.findNode? graph.root with
      | some node => (SourceLocation.ofUnit node.unit zeroRange).withModule node.name
      | none =>
          { moduleName := some graph.root
            logicalPath := graph.root.name ++ ".tla"
            range := zeroRange } }

/-- The effective facts of the root, or the diagnostics that rejected the graph. -/
def elaborate (profile : LanguageProfile) (limits : ElaborationLimits)
    (graph : ResolvedModuleGraph) : Except (List Diagnostic) ElaboratedModule :=
  let final := ((elaborateCore profile graph).run (initialState limits graph)).2
  if final.buffer.diagnostics.any (fun diagnostic => diagnostic.hasErrorSeverity) then
    .error final.buffer.diagnostics
  else
    .ok (assemble graph final)

end MirrorsCore.Tla
