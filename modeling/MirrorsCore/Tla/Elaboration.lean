import Mathlib
import MirrorsCore.Tla.Graph
import MirrorsCore.Tla.Profile

/-! Symbol tables and effective closures (`Core/Tla/Elaboration.lean`). The state
is threaded through `StateM`; each loop of the source is a `foldlM` or `forM`, and
the arms of `closureOf` are functions of their own. -/

namespace MirrorsCore.Tla

structure ElaborationLimits where
  maxDeclarations : Nat := 4096
  maxSymbols : Nat := 262144
  maxDiagnostics : Nat := 64
  maxDiagnosticBytes : Nat := 1024 * 1024
  deriving DecidableEq

def ElaborationLimits.diagnosticLimits (limits : ElaborationLimits) : DiagnosticLimits :=
  { maxCount := limits.maxDiagnostics, maxBytes := limits.maxDiagnosticBytes }

namespace ElabCode

def duplicateDeclaration : String := "TLA-ELAB-DUPLICATE-DECLARATION"
def ambiguousImport : String := "TLA-ELAB-AMBIGUOUS-IMPORT"
def unknownName : String := "TLA-ELAB-UNKNOWN-NAME"
def arityMismatch : String := "TLA-ELAB-ARITY-MISMATCH"
def assumptionLevel : String := "TLA-ELAB-ASSUMPTION-LEVEL"
def enabledLevel : String := "TLA-ELAB-ENABLED-LEVEL"
def substitutionMissing : String := "TLA-ELAB-SUBSTITUTION-MISSING"
def substitutionInvalid : String := "TLA-ELAB-SUBSTITUTION-INVALID"
def substitutionDuplicate : String := "TLA-ELAB-SUBSTITUTION-DUPLICATE"
def substitutionArity : String := "TLA-ELAB-SUBSTITUTION-ARITY"
def substitutionLevel : String := "TLA-ELAB-SUBSTITUTION-LEVEL"
def declarationLimit : String := "TLA-ELAB-DECLARATION-LIMIT"
def symbolLimit : String := "TLA-ELAB-SYMBOL-LIMIT"
def fuelExhausted : String := "TLA-ELAB-FUEL-EXHAUSTED"
def diagnosticsTruncated : String := "TLA-ELAB-DIAGNOSTICS-TRUNCATED"

end ElabCode

structure StandardOperatorFact where
  name : String
  arity : Nat
  level : Level
  module : ModuleName
  deriving DecidableEq

def standardOperatorFacts : List StandardOperatorFact := [
  { name := "Nat", arity := 0, level := .constant, module := ⟨"Naturals"⟩ },
  { name := "Int", arity := 0, level := .constant, module := ⟨"Integers"⟩ },
  { name := "Append", arity := 2, level := .constant, module := ⟨"Sequences"⟩ },
  { name := "Len", arity := 1, level := .constant, module := ⟨"Sequences"⟩ },
  { name := "Head", arity := 1, level := .constant, module := ⟨"Sequences"⟩ },
  { name := "Tail", arity := 1, level := .constant, module := ⟨"Sequences"⟩ },
  { name := "Cardinality", arity := 1, level := .constant, module := ⟨"FiniteSets"⟩ }]

/-! ### State -/

structure InstanceSite where
  declaration : InstanceDeclaration
  resolution : DependencyResolution

/-- The actuals of `site` are written in `viewer`. -/
structure InstanceFrame where
  site : InstanceSite
  viewer : ModuleName

/-- One module-level symbol; the name of an unnamed assumption is empty. -/
structure SymbolInfo where
  symbol : SymbolId
  kind : SymbolKind
  name : String
  arity : Nat
  fixity : OperatorFixity
  localDeclaration : Bool
  declaredIn : ModuleName
  logicalPath : String
  declarationRange : SourceRange
  definition? : Option OperatorDefinition := none
  assumption? : Option Assumption := none
  theorem? : Option Theorem := none
  catalogLevel? : Option Level := none
  instanceSite? : Option InstanceSite := none

structure ModuleTable where
  name : ModuleName
  logicalPath : String
  sourceBytes : Nat
  entries : List SymbolInfo := []
  extendsEdges : List ModuleEdge := []
  instanceSites : List InstanceSite := []

/-- One effective declaration with the module chain from the elaborated module
to the declaring one, and the substitution frames of an instance copy. -/
structure ClosureEntry where
  info : SymbolInfo
  importPath : List ModuleName
  frames : List InstanceFrame := []

def ClosureEntry.location (entry : ClosureEntry) : SourceLocation :=
  { moduleName := some entry.info.declaredIn
    logicalPath := entry.info.logicalPath
    range := entry.info.declarationRange }

structure ClosureResult where
  entries : List ClosureEntry := []
  availableStandards : List ModuleName := []
  exportedStandards : List ModuleName := []

structure ElabState where
  limits : ElaborationLimits
  anchor : SourceLocation
  tables : List ModuleTable := []
  closures : List (ModuleName × ClosureResult) := []
  levels : List (SymbolId × Level) := []
  buffer : DiagnosticBuffer := DiagnosticBuffer.empty
  nextSymbol : Nat := 0
  declarationCount : Nat := 0
  truncatedNotified : Bool := false
  halted : Bool := false

abbrev ElabM := StateM ElabState

/-! ### Reporting -/

def locationOfRange (table : ModuleTable) (range : SourceRange) : SourceLocation :=
  { moduleName := some table.name, logicalPath := table.logicalPath, range }

def locationOfSymbol (info : SymbolInfo) : SourceLocation :=
  { moduleName := some info.declaredIn, logicalPath := info.logicalPath,
    range := info.declarationRange }

/-- Append one diagnostic; the first refusal adds a single truncation notice. -/
def report (diagnostic : Diagnostic) : ElabM Unit := do
  let state ← get
  let buffer := DiagnosticBuffer.push state.limits.diagnosticLimits state.buffer diagnostic
  if buffer.truncated && !state.truncatedNotified then
    let notice :=
      { Diagnostic.error ElabCode.diagnosticsTruncated .nameResolution
          "elaboration diagnostic budget exhausted; further diagnostics were dropped"
          state.anchor with
        arguments := [("dropped", toString buffer.dropped)] }
    set { state with
          buffer := DiagnosticBuffer.pushForced buffer notice
          truncatedNotified := true }
  else
    set { state with buffer }

def halt : ElabM Unit := do
  let state ← get
  set { state with halted := true }

def failed (state : ElabState) : Bool :=
  state.halted || state.buffer.diagnostics.any (fun diagnostic => diagnostic.hasErrorSeverity)

def stageDone : ElabM Bool := do
  let state ← get
  return failed state

def whenNotDone (action : ElabM Unit) : ElabM Unit := do
  let done ← stageDone
  if done then pure () else action

/-! ### Tabulation -/

def expressionFuel (table : ModuleTable) : Nat :=
  4 * (table.sourceBytes + 1) + 256

def allocateSymbol (table : ModuleTable) (kind : SymbolKind) (name : String) (arity : Nat)
    (fixity : OperatorFixity) (localDeclaration : Bool) (range : SourceRange) :
    ElabM (Option SymbolInfo) := do
  let state ← get
  if state.halted then
    return none
  else if state.nextSymbol ≥ state.limits.maxSymbols then do
    report ((Diagnostic.error ElabCode.symbolLimit .nameResolution
      s!"module '{table.name.name}' declares more symbols than the configured limit"
      (locationOfRange table range))
      |>.withArgument "limit" (toString state.limits.maxSymbols)
      |>.withArgument "module" table.name.name)
    halt
    return none
  else do
    let info : SymbolInfo :=
      { symbol := state.nextSymbol, kind, name, arity, fixity, localDeclaration,
        declaredIn := table.name, logicalPath := table.logicalPath,
        declarationRange := range }
    set { state with nextSymbol := state.nextSymbol + 1 }
    return some info

/-- A definition completing a `RECURSIVE` declaration updates its symbol. -/
def completeEntry (existing entry other : SymbolInfo) : SymbolInfo :=
  if other.symbol == existing.symbol then
    { other with fixity := entry.fixity, definition? := entry.definition? }
  else other

def insertEntry (table : ModuleTable) (entry : SymbolInfo) : ElabM ModuleTable := do
  match table.entries.find? (fun existing =>
      !entry.name.isEmpty && existing.name == entry.name) with
  | none => return { table with entries := table.entries ++ [entry] }
  | some existing =>
      if existing.kind == .recursive && entry.kind == .definition then
        if existing.arity == entry.arity then
          return { table with entries := table.entries.map (completeEntry existing entry) }
        else do
          report ((Diagnostic.error ElabCode.arityMismatch .nameResolution
            s!"definition '{entry.name}' completes a RECURSIVE declaration with a different arity"
            (locationOfSymbol entry))
            |>.withRelated "the RECURSIVE declaration is here" (locationOfSymbol existing)
            |>.withArgument "name" entry.name
            |>.withArgument "expected" (toString existing.arity)
            |>.withArgument "actual" (toString entry.arity))
          return table
      else do
        report ((Diagnostic.error ElabCode.duplicateDeclaration .nameResolution
          s!"declaration '{entry.name}' duplicates an earlier declaration in module '{table.name.name}'"
          (locationOfSymbol entry))
          |>.withRelated "the earlier declaration is here" (locationOfSymbol existing)
          |>.withArgument "name" entry.name
          |>.withArgument "module" table.name.name)
        return table

def declare (kind : SymbolKind) (inheritedLocal : Bool) (table : ModuleTable) (name : String)
    (arity : Nat) (fixity : OperatorFixity) (range : SourceRange)
    (finish : SymbolInfo → SymbolInfo) : ElabM ModuleTable := do
  match ← allocateSymbol table kind name arity fixity inheritedLocal range with
  | some info => insertEntry table (finish info)
  | none => pure table

def tabulateDeclaration (table : ModuleTable) (declaration : Declaration)
    (inheritedLocal : Bool) : ElabM ModuleTable :=
  match declaration with
  | .constant _ names =>
      names.foldlM (fun current declared =>
        declare .constant inheritedLocal current declared.name 0 .functional declared.range id)
        table
  | .variable _ names =>
      names.foldlM (fun current declared =>
        declare .variable inheritedLocal current declared.name 0 .functional declared.range id)
        table
  | .recursive _ operators =>
      operators.foldlM (fun current declared =>
        declare .recursive inheritedLocal current declared.name declared.arity .functional
          declared.range id) table
  | .operator definition =>
      declare .definition inheritedLocal table definition.name definition.parameters.length
        definition.fixity definition.nameRange
        (fun info => { info with definition? := some definition })
  | .localDeclaration _ inner => tabulateDeclaration table inner true
  | .instanceDeclaration instanceDeclaration =>
      -- `LOCAL INSTANCE M` is a `LOCAL` wrapper around an instance, so the
      -- inherited flag has to reach the site.
      let declaration :=
        if inheritedLocal then { instanceDeclaration with isLocal := true }
        else instanceDeclaration
      return { table with
        instanceSites := table.instanceSites ++ [{ declaration, resolution := .localSource }] }
  | .assumption declared =>
      declare .assumption inheritedLocal table (declared.name.getD "") 0 .functional
        declared.range (fun info => { info with assumption? := some declared })
  | .theoremDeclaration declared =>
      declare .theoremKind inheritedLocal table (declared.name.getD "") 0 .functional
        declared.range (fun info => { info with theorem? := some declared })
  | .extendsDeclaration _ => pure table

/-- Charge one declaration; `false` after reporting the limit and halting. -/
def countDeclaration (table : ModuleTable) (range : SourceRange) : ElabM Bool := do
  let state ← get
  if state.declarationCount + 1 > state.limits.maxDeclarations then do
    report ((Diagnostic.error ElabCode.declarationLimit .nameResolution
      "module declaration count exceeds the configured limit"
      (locationOfRange table range))
      |>.withArgument "limit" (toString state.limits.maxDeclarations)
      |>.withArgument "module" table.name.name)
    halt
    return false
  else
    set { state with declarationCount := state.declarationCount + 1 }
    return true

def resolveInstanceSite (graph : ResolvedModuleGraph) (owner : ModuleName)
    (site : InstanceSite) : InstanceSite :=
  match graph.edges.find? (fun edge =>
      edge.owner == owner && edge.range == site.declaration.range) with
  | some edge => { site with resolution := edge.resolution }
  | none => site

def extendsEdgesOf (graph : ResolvedModuleGraph) (name : ModuleName) : List ModuleEdge :=
  graph.edges.filter fun edge => edge.owner == name && edge.kind == .extendsModule

def emptyTable (graph : ResolvedModuleGraph) (node : ModuleNode) : ModuleTable :=
  { name := node.name
    logicalPath := node.unit.logicalPath
    sourceBytes := node.unit.normalizedUtf8.size
    extendsEdges := extendsEdgesOf graph node.name }

def tabulateCounted (table : ModuleTable) (declaration : Declaration) : ElabM ModuleTable := do
  if (← countDeclaration table declaration.range) then
    tabulateDeclaration table declaration false
  else
    pure table

def buildTable (graph : ResolvedModuleGraph) (node : ModuleNode) : ElabM ModuleTable := do
  let table ← node.module.declarations.foldlM tabulateCounted (emptyTable graph node)
  return { table with
    instanceSites := table.instanceSites.map (resolveInstanceSite graph node.name) }

def tabulateNode (graph : ResolvedModuleGraph) (node : ModuleNode) : ElabM Unit := do
  let state ← get
  if state.halted then
    pure ()
  else do
    let table ← buildTable graph node
    let latest ← get
    set { latest with tables := latest.tables ++ [table] }

def tabulateGraph (graph : ResolvedModuleGraph) : ElabM Unit :=
  graph.nodes.forM (tabulateNode graph)

/-! ### Effective closures -/

def pushUnique (names : List ModuleName) (name : ModuleName) : List ModuleName :=
  if names.contains name then names else names ++ [name]

def pushUniqueMany (names extra : List ModuleName) : List ModuleName :=
  extra.foldl pushUnique names

/-- Merge one effective declaration: the same symbol is reused, a different one
with the same visible name is an ambiguity. -/
def mergeEntry (entries : List ClosureEntry) (entry : ClosureEntry) :
    ElabM (List ClosureEntry) := do
  if entry.info.name.isEmpty then
    if entries.any (fun existing => existing.info.symbol == entry.info.symbol) then
      return entries
    else
      return entries ++ [entry]
  else
    match entries.find? (fun existing => existing.info.name == entry.info.name) with
    | none => return entries ++ [entry]
    | some existing =>
        if existing.info.symbol == entry.info.symbol then
          return entries
        else do
          report ((Diagnostic.error ElabCode.ambiguousImport .nameResolution
            s!"visible name '{entry.info.name}' is ambiguous: it is declared in both '{existing.info.declaredIn.name}' and '{entry.info.declaredIn.name}'"
            (ClosureEntry.location entry))
            |>.withRelated
              s!"the conflicting declaration is in '{existing.info.declaredIn.name}'"
              (ClosureEntry.location existing)
            |>.withArgument "name" entry.info.name
            |>.withArgument "module" entry.info.declaredIn.name)
          return entries

def exposedKind (kind : SymbolKind) : Bool :=
  kind == .definition || kind == .recursive || kind == .instanceKind

def allocateFor (table : ModuleTable) (kind : SymbolKind) (name : String) (arity : Nat)
    (fixity : OperatorFixity) (site : InstanceSite) (range : SourceRange)
    (finish : SymbolInfo → SymbolInfo) : ElabM (Option SymbolInfo) := do
  let allocated ← allocateSymbol table kind name arity fixity site.declaration.isLocal range
  pure (allocated.map finish)

/-- One declaration that an instance exposes under `name`: the origin, the range
and the body stay the child's. -/
def allocateRenamed (table : ModuleTable) (source : SymbolInfo) (name : String)
    (site : InstanceSite) : ElabM (Option SymbolInfo) :=
  allocateFor table source.kind name source.arity source.fixity site source.declarationRange
    fun info =>
      { info with
        declaredIn := source.declaredIn
        logicalPath := source.logicalPath
        definition? := source.definition?
        instanceSite? := source.instanceSite? }

def allocateCopy (table : ModuleTable) (source : SymbolInfo) (site : InstanceSite) :
    ElabM (Option SymbolInfo) := allocateRenamed table source source.name site

def allocateQualifiedCopy (table : ModuleTable) (source : SymbolInfo) (qualifiedName : String)
    (site : InstanceSite) : ElabM (Option SymbolInfo) :=
  allocateRenamed table source qualifiedName site

def allocateQualifiedStandard (table : ModuleTable) (fact : StandardOperatorFact)
    (qualifiedName : String) (site : InstanceSite) : ElabM (Option SymbolInfo) :=
  allocateFor table .definition qualifiedName fact.arity .functional site site.declaration.range
    fun info =>
      { info with
        declaredIn := fact.module
        logicalPath := fact.module.name ++ ".tla"
        catalogLevel? := some fact.level }

def allocateInstanceName (table : ModuleTable) (site : InstanceSite) (instanceName : String) :
    ElabM (Option SymbolInfo) :=
  allocateFor table .instanceKind instanceName 0 .functional site site.declaration.range
    fun info => { info with instanceSite? := some site }

def mergeSome (entries : List ClosureEntry) (importPath : List ModuleName)
    (frames : List InstanceFrame) : Option SymbolInfo → ElabM (List ClosureEntry)
  | none => pure entries
  | some info => mergeEntry entries { info, importPath, frames }

def mergeAllocated (allocated : ElabM (Option SymbolInfo)) (entries : List ClosureEntry)
    (importPath : List ModuleName) (frames : List InstanceFrame) :
    ElabM (List ClosureEntry) := do
  let result ← allocated
  mergeSome entries importPath frames result

def mergeInstanceEntry (table : ModuleTable) (entries : List ClosureEntry)
    (site : InstanceSite) : ElabM (List ClosureEntry) :=
  match site.declaration.name with
  | none => pure entries
  | some instanceName =>
      mergeAllocated (allocateInstanceName table site instanceName) entries [table.name] []

def qualifyName? (instanceName name : String) : Option String :=
  if name.isEmpty || name.contains '!' then none
  else some (instanceName ++ "!" ++ name)

/-- The declaration that an `EXTENDS` edge of `name` makes of a nested one. -/
def importedEntry (name : ModuleName) (edge : ModuleEdge) (nestedEntry : ClosureEntry) :
    ClosureEntry :=
  { info := { nestedEntry.info with localDeclaration := edge.isLocal }
    importPath := [name] ++ nestedEntry.importPath
    frames := nestedEntry.frames }

def extendStandard (edge : ModuleEdge) (result : ClosureResult) : ClosureResult :=
  if edge.resolution == .standardCatalog then
    { result with
      availableStandards :=
        pushUniqueMany result.availableStandards (standardExportClosure edge.dependency)
      exportedStandards :=
        if !edge.isLocal then
          pushUniqueMany result.exportedStandards (standardExportClosure edge.dependency)
        else result.exportedStandards }
  else result

def inheritStandards (edge : ModuleEdge) (nested result : ClosureResult) : ClosureResult :=
  if !edge.isLocal then
    { result with
      availableStandards :=
        pushUniqueMany result.availableStandards nested.exportedStandards
      exportedStandards :=
        pushUniqueMany result.exportedStandards nested.exportedStandards }
  else
    { result with
      availableStandards :=
        pushUniqueMany result.availableStandards nested.availableStandards }

def extendEdge (closure : ModuleName → ElabM ClosureResult) (name : ModuleName)
    (result : ClosureResult) (edge : ModuleEdge) : ElabM ClosureResult := do
  let current ← get
  if current.halted then
    pure result
  else
    match current.tables.find? (fun other => other.name == edge.dependency) with
    | none => pure (extendStandard edge result)
    | some _ => do
        let nested ← closure edge.dependency
        let entries ← nested.entries.foldlM (fun entries nestedEntry =>
          if !nestedEntry.info.localDeclaration then
            mergeEntry entries (importedEntry name edge nestedEntry)
          else pure entries) result.entries
        pure (inheritStandards edge nested { result with entries })

def mergeStandard (table : ModuleTable) (site : InstanceSite) (instanceName : String)
    (entries : List ClosureEntry) (fact : StandardOperatorFact) : ElabM (List ClosureEntry) :=
  if standardExports site.declaration.moduleName fact.module then
    mergeAllocated (allocateQualifiedStandard table fact (instanceName ++ "!" ++ fact.name) site)
      entries [table.name, fact.module] []
  else pure entries

def instantiateStandard (table : ModuleTable) (result : ClosureResult) (site : InstanceSite) :
    ElabM ClosureResult :=
  match site.declaration.name with
  | some instanceName => do
      let entries ← mergeInstanceEntry table result.entries site
      let entries ← standardOperatorFacts.foldlM (mergeStandard table site instanceName) entries
      pure { result with entries }
  | none =>
      pure { result with
        availableStandards :=
          pushUniqueMany result.availableStandards
            (standardExportClosure site.declaration.moduleName)
        exportedStandards :=
          if !site.declaration.isLocal then
            pushUniqueMany result.exportedStandards
              (standardExportClosure site.declaration.moduleName)
          else result.exportedStandards }

def mergeQualified (table : ModuleTable) (site : InstanceSite) (instanceName : String)
    (entries : List ClosureEntry) (nestedEntry : ClosureEntry) : ElabM (List ClosureEntry) :=
  if !nestedEntry.info.localDeclaration &&
      (nestedEntry.info.kind == .definition || nestedEntry.info.kind == .recursive) then
    match qualifyName? instanceName nestedEntry.info.name with
    | none => pure entries
    | some qualifiedName =>
        mergeAllocated (allocateQualifiedCopy table nestedEntry.info qualifiedName site)
          entries ([table.name] ++ nestedEntry.importPath)
          (nestedEntry.frames ++ [{ site, viewer := table.name }])
  else pure entries

/-- A named instance of a captured module: its name, and the child's operators
under qualified names. -/
def instantiateNamed (table : ModuleTable) (nested result : ClosureResult)
    (site : InstanceSite) (instanceName : String) : ElabM ClosureResult := do
  let entries ← mergeInstanceEntry table result.entries site
  let entries ← nested.entries.foldlM (mergeQualified table site instanceName) entries
  pure { result with entries }

def mergeExposed (table : ModuleTable) (site : InstanceSite) (entries : List ClosureEntry)
    (nestedEntry : ClosureEntry) : ElabM (List ClosureEntry) :=
  if !nestedEntry.info.localDeclaration && exposedKind nestedEntry.info.kind then
    mergeAllocated (allocateCopy table nestedEntry.info site) entries
      ([table.name] ++ nestedEntry.importPath)
      (nestedEntry.frames ++ [{ site, viewer := table.name }])
  else pure entries

/-- An unnamed instance of a captured module: the child's operators as they are. -/
def instantiateUnnamed (table : ModuleTable) (nested result : ClosureResult)
    (site : InstanceSite) : ElabM ClosureResult := do
  let entries ← nested.entries.foldlM (mergeExposed table site) result.entries
  pure { result with
    entries
    availableStandards :=
      pushUniqueMany result.availableStandards nested.availableStandards
    exportedStandards :=
      if !site.declaration.isLocal then
        pushUniqueMany result.exportedStandards nested.availableStandards
      else result.exportedStandards }

def instantiateCaptured (table : ModuleTable) (result : ClosureResult) (site : InstanceSite)
    (nested : ClosureResult) : ElabM ClosureResult :=
  match site.declaration.name with
  | some instanceName => instantiateNamed table nested result site instanceName
  | none => instantiateUnnamed table nested result site

/-- The target of one `INSTANCE` site; `current` is the state before it. -/
def instantiateSite (closure : ModuleName → ElabM ClosureResult) (table : ModuleTable)
    (result : ClosureResult) (site : InstanceSite) (current : ElabState) :
    ElabM ClosureResult :=
  match site.resolution with
  | .standardCatalog => instantiateStandard table result site
  | .localSource =>
      match current.tables.find? (fun other => other.name == site.declaration.moduleName) with
      | none => pure result
      | some _ => do
          let nested ← closure site.declaration.moduleName
          instantiateCaptured table result site nested

def instantiate (closure : ModuleName → ElabM ClosureResult) (table : ModuleTable)
    (result : ClosureResult) (site : InstanceSite) : ElabM ClosureResult := do
  let current ← get
  if current.halted then
    pure result
  else
    instantiateSite closure table result site current

def closureOfTable (closure : ModuleName → ElabM ClosureResult) (table : ModuleTable) :
    ElabM ClosureResult := do
  let result ← table.extendsEdges.foldlM (extendEdge closure table.name) {}
  let entries ← table.entries.foldlM (fun entries entry =>
    mergeEntry entries { info := entry, importPath := [table.name] }) result.entries
  table.instanceSites.foldlM (instantiate closure table) { result with entries }

def closureOf : Nat → ModuleName → ElabM ClosureResult
  | fuel, name => do
      let state ← get
      match state.closures.find? (fun memo => memo.1 == name) with
      | some memo => return memo.2
      | none =>
          match fuel with
          | 0 => do
              report ((Diagnostic.error ElabCode.fuelExhausted .nameResolution
                "module dependency elaboration exceeded its recursion bound"
                state.anchor)
                |>.withArgument "module" name.name)
              halt
              return {}
          | fuel + 1 =>
              match state.tables.find? (fun table => table.name == name) with
              | none => return {}
              | some table => do
                  let result ← closureOfTable (fun dependency => closureOf fuel dependency) table
                  let latest ← get
                  set { latest with closures := latest.closures ++ [(name, result)] }
                  return result

def computeNode (fuel : Nat) (node : ModuleNode) : ElabM Unit := do
  let state ← get
  if state.halted then
    pure ()
  else do
    let _ ← closureOf fuel node.name
    pure ()

def computeClosures (graph : ResolvedModuleGraph) : ElabM Unit :=
  graph.nodes.forM (computeNode (graph.nodes.length + 1))

end MirrorsCore.Tla
