import Mathlib
import MirrorsCore.Lib.StateSteps
import MirrorsCore.Tla.Frontend
import MirrorsCore.Tla.Graph

/-! Module graph resolution (`Shell/Tla/ModuleResolver.lean`), the interface of its
source providers (`Shell/Tla/SourceProvider.lean`) and the dependency projection of a
parsed module (`Core/Tla/Syntax.lean`). A provider and a parser act on a world `ω`,
so an answer may change from one call to the next; an exception ends a run without a
result and has no counterpart here. -/

namespace MirrorsCore.Tla

/-! ### Dependencies of a module -/

structure DependencyDeclaration where
  kind : DependencyKind
  moduleName : ModuleName
  isLocal : Bool
  substitutions : List Substitution
  range : SourceRange

def Declaration.dependencies : Declaration → List DependencyDeclaration
  | .extendsDeclaration declaration =>
      declaration.modules.map fun imported =>
        { kind := .extendsModule
          moduleName := imported.name
          isLocal := declaration.isLocal
          substitutions := []
          range := imported.range }
  | .instanceDeclaration declaration =>
      [{ kind := if declaration.name.isSome then .namedInstance else .unnamedInstance
         moduleName := declaration.moduleName
         isLocal := declaration.isLocal
         substitutions := declaration.substitutions
         range := declaration.range }]
  | .localDeclaration _ declaration =>
      declaration.dependencies.map fun dependency => { dependency with isLocal := true }
  | _ => []

def ParsedModule.dependencies (module : ParsedModule) : List DependencyDeclaration :=
  module.declarations.foldl (fun accumulated declaration =>
    accumulated ++ declaration.dependencies) []

/-! ### Source providers -/

structure ModuleRef where
  moduleName : ModuleName
  logicalPath : String
  deriving DecidableEq

inductive SourceReadError where
  | invalidReference (logicalPath : String) (reason : String)
  | notFound (moduleName : ModuleName)
  | notRegularFile (logicalPath : String)
  | symbolicLink (logicalPath : String)
  | tooLarge (logicalPath : String) (limit : Nat) (observed : Nat)
  | invalidUtf8 (logicalPath : String)
  | unreadable (logicalPath : String) (reason : String)
  | identityChanged (logicalPath : String)
  | standardModuleUnavailable (moduleName : ModuleName)
  deriving DecidableEq

def SourceReadError.message : SourceReadError → String
  | .invalidReference logicalPath reason =>
      s!"invalid source reference '{logicalPath}': {reason}"
  | .notFound moduleName =>
      s!"module '{moduleName.name}' was not found"
  | .notRegularFile logicalPath =>
      s!"borrowed source '{logicalPath}' is not a regular file"
  | .symbolicLink logicalPath =>
      s!"borrowed source '{logicalPath}' is a symbolic link"
  | .tooLarge logicalPath limit observed =>
      s!"borrowed source '{logicalPath}' is {observed} bytes, exceeding the {limit}-byte limit"
  | .invalidUtf8 logicalPath =>
      s!"borrowed source '{logicalPath}' is not valid UTF-8"
  | .unreadable logicalPath reason =>
      s!"unable to read borrowed source '{logicalPath}': {reason}"
  | .identityChanged logicalPath =>
      s!"borrowed source '{logicalPath}' changed identity while it was being read"
  | .standardModuleUnavailable moduleName =>
      s!"standard module '{moduleName.name}' is not in the pinned catalog"

inductive StandardModuleKind where
  | languageDefined
  | apalacheExtension
  | filesystemSupplied
  deriving DecidableEq

structure StandardModule where
  name : ModuleName
  kind : StandardModuleKind
  contentIdentity : Option String
  deriving DecidableEq

structure SourceProvider (ω : Type) where
  readRoot : ModuleRef → StateM ω (Except SourceReadError SourceUnit)
  readDependency : ModuleName → StateM ω (Except SourceReadError SourceUnit)
  resolveStandard : ModuleName → StateM ω (Except SourceReadError StandardModule)

/-- The pinned modules; the identity of the profile is not consulted. -/
structure StandardModuleCatalog where
  modules : List StandardModule

def StandardModuleCatalog.find? (catalog : StandardModuleCatalog) (moduleName : ModuleName) :
    Option StandardModule :=
  catalog.modules.find? fun entry => entry.name == moduleName

namespace SourceProvider

def standardLookup {ω : Type} (catalog : StandardModuleCatalog) (moduleName : ModuleName) :
    StateM ω (Except SourceReadError StandardModule) :=
  match catalog.find? moduleName with
  | some entry => pure (.ok entry)
  | none => pure (.error (.standardModuleUnavailable moduleName))

def inlineLookup {ω : Type} (digestHex : ByteArray → String)
    (sources : List (ModuleName × String)) (moduleName : ModuleName) :
    StateM ω (Except SourceReadError SourceUnit) :=
  match sources.find? (fun entry => entry.1 == moduleName) with
  | some entry => pure (.ok (SourceUnit.create digestHex (moduleName.name ++ ".tla") entry.2))
  | none => pure (.error (.notFound moduleName))

def inlineSources {ω : Type} (digestHex : ByteArray → String)
    (sources : List (ModuleName × String)) (catalog : StandardModuleCatalog) :
    SourceProvider ω :=
  { readRoot := fun ref => inlineLookup digestHex sources ref.moduleName
    readDependency := inlineLookup digestHex sources
    resolveStandard := standardLookup catalog }

end SourceProvider

/-! ### Configuration -/

structure ResolverLimits where
  maxModules : Nat := 128
  maxDependencyDepth : Nat := 64
  maxDependencyEdges : Nat := 4096
  deriving DecidableEq

/-- What the resolver takes from its caller; the digest of captured bytes is a
parameter. -/
structure ResolverConfig (ω : Type) where
  provider : SourceProvider ω
  parse : SourceUnit → StateM ω ParseOutcome
  limits : ResolverLimits := {}
  digestHex : ByteArray → String

structure ResolverFailure where
  diagnostics : List Diagnostic
  deriving DecidableEq

/-- A resolved graph with the standard modules it uses, in order of first use. -/
structure ResolvedGraph extends ResolvedModuleGraph where
  standardModules : List StandardModule

namespace GraphCode

def rootRead : String := "TLA-GRAPH-ROOT-READ"
def rootHeaderMismatch : String := "TLA-GRAPH-ROOT-HEADER-MISMATCH"
def dependencyRead : String := "TLA-GRAPH-DEPENDENCY-READ"
def dependencyHeaderMismatch : String := "TLA-GRAPH-DEPENDENCY-HEADER-MISMATCH"
def duplicateModule : String := "TLA-GRAPH-DUPLICATE-MODULE"
def missingModule : String := "TLA-GRAPH-MISSING-MODULE"
def cycle : String := "TLA-GRAPH-CYCLE"
def invalidCapture : String := "TLA-GRAPH-INVALID-CAPTURE"
def parseOutcome : String := "TLA-GRAPH-PARSE-OUTCOME"
def tooManyModules : String := "TLA-GRAPH-TOO-MANY-MODULES"
def dependencyTooDeep : String := "TLA-GRAPH-DEPENDENCY-TOO-DEEP"
def tooManyEdges : String := "TLA-GRAPH-TOO-MANY-EDGES"
def fuelExhausted : String := "TLA-GRAPH-FUEL-EXHAUSTED"

end GraphCode

namespace Resolver

/-! ### State -/

structure ResolverState where
  nodes : List ModuleNode := []
  edges : List ModuleEdge := []
  standardModules : List StandardModule := []

/-- One open module; the stack of frames is the current dependency path, and
`enteredBy` is the site that required the module. -/
structure Frame where
  owner : ModuleName
  logicalPath : String
  sites : List DependencyDeclaration
  next : Nat
  depth : Nat
  enteredBy : Option (ModuleName × String × SourceRange)

/-- The outcome of one site: a frame when the dependency was captured. -/
structure Advance where
  state : ResolverState
  frame : Option Frame := none

def ownerLocation (owner : ModuleName) (ownerPath : String) (range : SourceRange) :
    SourceLocation :=
  { moduleName := some owner, logicalPath := ownerPath, range }

def failure (diagnostic : Diagnostic) : ResolverFailure := { diagnostics := [diagnostic] }

def graphError (code message : String) (location : SourceLocation) : ResolverFailure :=
  failure (Diagnostic.error code .moduleGraph message location)

def indexOfOwner? : List Frame → ModuleName → Option Nat
  | [], _ => none
  | frame :: rest, name =>
      if frame.owner == name then some 0 else (indexOfOwner? rest name).map (· + 1)

/-- The open modules from the occurrence of `dependency` on, outermost first. -/
def cyclePath (stack : List Frame) (dependency : ModuleName) : List ModuleName :=
  let index := (indexOfOwner? stack dependency).getD 0
  let segment := (stack.take (index + 1)).reverse
  segment.map (fun frame => frame.owner) ++ [dependency]

def cycleRelated (stack : List Frame) (dependency : ModuleName) : List RelatedLocation :=
  let index := (indexOfOwner? stack dependency).getD 0
  (stack.take (index + 1)).filterMap fun frame =>
    match frame.enteredBy with
    | some (parent, parentPath, range) =>
        some { message := s!"'{parent.name}' depends on '{frame.owner.name}'"
               location := ownerLocation parent parentPath range }
    | none => none

def recordEdge (state : ResolverState) (frame : Frame) (site : DependencyDeclaration)
    (index : Nat) (resolution : DependencyResolution) : ResolverState :=
  { state with
    edges := state.edges ++
      [{ owner := frame.owner
         dependency := site.moduleName
         kind := site.kind
         resolution
         isLocal := site.isLocal
         substitutions := site.substitutions
         range := site.range
         declarationOrder := index }] }

/-! ### Failures -/

def rootReadFailure (root : ModuleRef) (error : SourceReadError) : ResolverFailure :=
  graphError GraphCode.rootRead
    s!"unable to read root module '{root.moduleName.name}': {error.message}"
    (ownerLocation root.moduleName root.logicalPath zeroRange)

def rootHeaderMismatch (root : ModuleRef) (unit : SourceUnit) (parsed : ParsedModule) :
    ResolverFailure :=
  let diagnostic := Diagnostic.error GraphCode.rootHeaderMismatch .moduleGraph
    s!"root source '{unit.logicalPath}' declares module '{parsed.name.name}', expected '{root.moduleName.name}'"
    (ownerLocation parsed.name unit.logicalPath parsed.range)
  failure ((diagnostic.withArgument "declared" parsed.name.name).withArgument
    "expected" root.moduleName.name)

def dependencyReadFailure (frame : Frame) (site : DependencyDeclaration)
    (error : SourceReadError) : ResolverFailure :=
  graphError GraphCode.dependencyRead
    s!"unable to read dependency '{site.moduleName.name}': {error.message}"
    (ownerLocation frame.owner frame.logicalPath site.range)

def inconsistentCapture (frame : Frame) (site : DependencyDeclaration) (detail : String) :
    ResolverFailure :=
  graphError GraphCode.invalidCapture
    s!"captured dependency '{site.moduleName.name}' is inconsistent: {detail}"
    (ownerLocation frame.owner frame.logicalPath site.range)

def dependencyHeaderMismatch (frame : Frame) (site : DependencyDeclaration)
    (unit : SourceUnit) (declared : ModuleName) : ResolverFailure :=
  let diagnostic := Diagnostic.error GraphCode.dependencyHeaderMismatch .moduleGraph
    s!"dependency source '{unit.logicalPath}' declares module '{declared.name}', expected '{site.moduleName.name}'"
    (ownerLocation frame.owner frame.logicalPath site.range)
  failure (((diagnostic.withArgument "requested" site.moduleName.name).withArgument
    "declared" declared.name).withRelated
      s!"'{unit.logicalPath}' declares '{declared.name}'"
      (ownerLocation declared unit.logicalPath zeroRange))

def duplicateModule (frame : Frame) (site : DependencyDeclaration) (declared : ModuleName)
    (related : RelatedLocation) : ResolverFailure :=
  let diagnostic := Diagnostic.error GraphCode.duplicateModule .moduleGraph
    s!"module identity '{declared.name}' is already bound; refused a second source"
    (ownerLocation frame.owner frame.logicalPath site.range)
  failure ((diagnostic.withArgument "module" declared.name).withRelated
    related.message related.location)

def missingModule (frame : Frame) (site : DependencyDeclaration) (detail : String) :
    ResolverFailure :=
  let diagnostic := Diagnostic.error GraphCode.missingModule .moduleGraph
    s!"dependency '{site.moduleName.name}' is neither a local source nor a pinned standard module"
    (ownerLocation frame.owner frame.logicalPath site.range)
  failure (diagnostic.withArgument "detail" detail)

def cycleFailure (stack : List Frame) (frame : Frame) (site : DependencyDeclaration) :
    ResolverFailure :=
  let names := cyclePath stack site.moduleName
  let path := " -> ".intercalate (names.map fun name => name.name)
  let primary := ownerLocation frame.owner frame.logicalPath site.range
  let diagnostic := (Diagnostic.error GraphCode.cycle .moduleGraph
    s!"dependency cycle detected: {path}" primary).withArgument "cycle" path
  let related : List RelatedLocation :=
    cycleRelated stack site.moduleName ++
      [{ message := s!"'{frame.owner.name}' depends on '{site.moduleName.name}'"
         location := primary }]
  failure (related.foldl (fun acc item => acc.withRelated item.message item.location)
    diagnostic)

def limitFailure (code : String) (frame : Frame) (site : DependencyDeclaration)
    (limit observed : Nat) : ResolverFailure :=
  let diagnostic := Diagnostic.error code .moduleGraph
    s!"module graph exceeded its limit of {limit} while resolving '{site.moduleName.name}'"
    (ownerLocation frame.owner frame.logicalPath site.range)
  failure ((diagnostic.withArgument "limit" (toString limit)).withArgument
    "observed" (toString observed))

def depthLimitFailure (frame : Frame) (site : DependencyDeclaration) (limit : Nat) :
    ResolverFailure :=
  let diagnostic := Diagnostic.error GraphCode.dependencyTooDeep .moduleGraph
    s!"dependency depth exceeds the limit of {limit} at '{site.moduleName.name}'"
    (ownerLocation frame.owner frame.logicalPath site.range)
  failure ((diagnostic.withArgument "limit" (toString limit)).withArgument
    "from" frame.owner.name)

def parseOutcomeFailure (location : SourceLocation) : ResolverFailure :=
  failure (Diagnostic.error GraphCode.parseOutcome .moduleGraph
    "the parser produced no usable module for the captured source" location)

def parseFailure (location : SourceLocation) (diagnostics : List Diagnostic) :
    ResolverFailure :=
  if diagnostics.isEmpty then
    { diagnostics := [Diagnostic.error GraphCode.parseOutcome .moduleGraph
        "the parser reported a failed module without diagnostics" location] }
  else
    { diagnostics }

def fuelFailure (stack : List Frame) : ResolverFailure :=
  let owner := match stack with
    | frame :: _ => frame.owner
    | [] => ⟨""⟩
  let path := match stack with
    | frame :: _ => frame.logicalPath
    | [] => ""
  graphError GraphCode.fuelExhausted
    "module graph construction exhausted its bounded work budget"
    (ownerLocation owner path zeroRange)

/-! ### Resolution -/

variable {ω : Type}

/-- The node of a captured module and the frame that explores it. -/
def captureNode (unit : SourceUnit) (parsed : ParsedModule) : ModuleNode :=
  { name := parsed.name, logicalPath := unit.logicalPath, unit, module := parsed }

def openFrame (unit : SourceUnit) (parsed : ParsedModule) (depth : Nat)
    (enteredBy : Option (ModuleName × String × SourceRange)) : Frame :=
  { owner := parsed.name
    logicalPath := unit.logicalPath
    sites := parsed.dependencies
    next := 0
    depth
    enteredBy }

def alreadyCaptured (declared : ModuleName) (original : ModuleNode) : RelatedLocation :=
  { message := s!"'{declared.name}' was already captured from '{original.logicalPath}'"
    location := ownerLocation original.name original.logicalPath original.module.range }

def alreadyPinned (declared : ModuleName) : RelatedLocation :=
  { message := s!"'{declared.name}' is pinned as a standard module"
    location := ownerLocation declared (declared.name ++ ".tla") zeroRange }

/-- Bind the module that a parsed dependency declares. -/
def adoptParsed (frame : Frame) (site : DependencyDeclaration) (index : Nat)
    (state : ResolverState) (depth : Nat) (unit : SourceUnit) (parsed : ParsedModule) :
    Except ResolverFailure Advance :=
  let declared := parsed.name
  match state.nodes.find? (fun node => node.name == declared) with
  | some original =>
      .error (duplicateModule frame site declared (alreadyCaptured declared original))
  | none =>
      if state.standardModules.any (fun standard => standard.name == declared) then
        .error (duplicateModule frame site declared (alreadyPinned declared))
      else if declared != site.moduleName then
        .error (dependencyHeaderMismatch frame site unit declared)
      else
        .ok { state := recordEdge { state with nodes := state.nodes ++ [captureNode unit parsed] }
                frame site index .localSource
              frame := some (openFrame unit parsed depth
                (some (frame.owner, frame.logicalPath, site.range))) }

def adopt (config : ResolverConfig ω) (frame : Frame) (site : DependencyDeclaration)
    (index : Nat) (state : ResolverState) (depth : Nat) (unit : SourceUnit) :
    StateM ω (Except ResolverFailure Advance) := do
  if !unit.consistent config.digestHex then
    return .error (inconsistentCapture frame site "captured bytes and digest disagree")
  else
    let location := ownerLocation frame.owner frame.logicalPath site.range
    let outcome ← config.parse unit
    if outcome.hasErrors then
      return .error (parseFailure location outcome.diagnostics)
    else
      match outcome.module? with
      | none => return .error (parseOutcomeFailure location)
      | some parsed => return adoptParsed frame site index state depth unit parsed

def resolveStandard (config : ResolverConfig ω) (frame : Frame) (site : DependencyDeclaration)
    (index : Nat) (state : ResolverState) : StateM ω (Except ResolverFailure Advance) := do
  match ← config.provider.resolveStandard site.moduleName with
  | .ok standard =>
      if standard.kind == .filesystemSupplied then
        return .error (missingModule frame site
          "the pinned catalog requires a captured source for this module")
      else
        return .ok
          { state := recordEdge
              { state with standardModules := state.standardModules ++ [standard] }
              frame site index .standardCatalog }
  | .error error => return .error (missingModule frame site error.message)

/-- Ask the provider for a module that is neither captured nor pinned. -/
def requestDependency (config : ResolverConfig ω) (frame : Frame)
    (site : DependencyDeclaration) (index : Nat) (state : ResolverState) (depth : Nat) :
    StateM ω (Except ResolverFailure Advance) := do
  match ← config.provider.readDependency site.moduleName with
  | .error (.notFound _) => resolveStandard config frame site index state
  | .error error => return .error (dependencyReadFailure frame site error)
  | .ok unit => adopt config frame site index state depth unit

def resolveDependency (config : ResolverConfig ω) (stack : List Frame) (frame : Frame)
    (site : DependencyDeclaration) (state : ResolverState) :
    StateM ω (Except ResolverFailure Advance) :=
  let index := frame.next
  let depth := frame.depth + 1
  if state.edges.length + 1 > config.limits.maxDependencyEdges then
    return .error (limitFailure GraphCode.tooManyEdges frame site
      config.limits.maxDependencyEdges (state.edges.length + 1))
  else if stack.any (fun entry => entry.owner == site.moduleName) then
    return .error (cycleFailure stack frame site)
  else if (state.nodes.find? (fun node => node.name == site.moduleName)).isSome then
    return .ok { state := recordEdge state frame site index .localSource }
  else if state.standardModules.any (fun standard => standard.name == site.moduleName) then
    return .ok { state := recordEdge state frame site index .standardCatalog }
  else if depth > config.limits.maxDependencyDepth then
    return .error (depthLimitFailure frame site config.limits.maxDependencyDepth)
  else if state.nodes.length + 1 > config.limits.maxModules then
    return .error (limitFailure GraphCode.tooManyModules frame site
      config.limits.maxModules (state.nodes.length + 1))
  else
    requestDependency config frame site index state depth

def loop (config : ResolverConfig ω) : Nat → List Frame → ResolverState →
    StateM ω (Except ResolverFailure ResolverState)
  | 0, stack, _ => return .error (fuelFailure stack)
  | _ + 1, [], state => return .ok state
  | budget + 1, frame :: rest, state =>
      match frame.sites[frame.next]? with
      | none => loop config budget rest state
      | some site => do
          let advanced := { frame with next := frame.next + 1 }
          match ← resolveDependency config (frame :: rest) frame site state with
          | .error failure => return .error failure
          | .ok advance =>
              match advance.frame with
              | some opened => loop config budget (opened :: advanced :: rest) advance.state
              | none => loop config budget (advanced :: rest) advance.state

def workBudget (limits : ResolverLimits) : Nat :=
  limits.maxModules + limits.maxDependencyEdges + 4

def resolveFrom (config : ResolverConfig ω) (root : ModuleRef) (unit : SourceUnit)
    (parsed : ParsedModule) : StateM ω (Except ResolverFailure ResolvedGraph) := do
  match ← loop config (workBudget config.limits) [openFrame unit parsed 0 none]
      { nodes := [captureNode unit parsed] } with
  | .error failure => return .error failure
  | .ok state =>
      return .ok
        { root := root.moduleName
          nodes := state.nodes
          edges := state.edges
          standardModules := state.standardModules }

def resolve (config : ResolverConfig ω) (root : ModuleRef) :
    StateM ω (Except ResolverFailure ResolvedGraph) := do
  match ← config.provider.readRoot root with
  | .error error => return .error (rootReadFailure root error)
  | .ok unit =>
      let location := ownerLocation root.moduleName unit.logicalPath zeroRange
      if !unit.consistent config.digestHex then
        return .error (graphError GraphCode.invalidCapture
          "captured root bytes and digest disagree" location)
      else
        let outcome ← config.parse unit
        if outcome.hasErrors then
          return .error (parseFailure location outcome.diagnostics)
        else
          match outcome.module? with
          | none => return .error (parseOutcomeFailure location)
          | some parsed =>
              if parsed.name != root.moduleName then
                return .error (rootHeaderMismatch root unit parsed)
              else
                resolveFrom config root unit parsed

end Resolver
end MirrorsCore.Tla
