import Mathlib
import MirrorsCore.Tla.Elaboration

/-! Instance substitutions and name resolution (`Core/Tla/Elaboration.lean`). Both
stages read tables and closures and only report. -/

namespace MirrorsCore.Tla

/-! ### Language-defined operators -/

structure LanguageOperator where
  name : String
  arities : List Nat
  level : Level
  deriving DecidableEq

def fixityArity : SymbolFixity → Nat
  | .prefixOperator => 1
  | .postfixOperator => 1
  | .infixOperator => 2

/-- The operator table as facts; `-` keeps both its argument counts. -/
def profileOperatorFacts : List LanguageOperator :=
  ParserProfile.revisionTwoOperators.foldl
    (fun facts entry =>
      let arity := fixityArity entry.fixity
      match facts.find? (fun fact => fact.name == entry.canonical) with
      | some existing =>
          if existing.arities.contains arity then facts
          else facts.map fun fact =>
            if fact.name == entry.canonical then
              { fact with arities := fact.arities ++ [arity] }
            else fact
      | none =>
          facts ++ [{ name := entry.canonical, arities := [arity], level := .constant }])
    []

def structuralOperators : List LanguageOperator := [
  { name := "'", arities := [1], level := .action },
  { name := "[]_", arities := [2], level := .action },
  { name := "<<>>_", arities := [2], level := .action },
  { name := "UNCHANGED", arities := [1], level := .action },
  { name := "ENABLED", arities := [1], level := .state },
  { name := "WF_", arities := [2], level := .temporal },
  { name := "SF_", arities := [2], level := .temporal },
  { name := "DOMAIN", arities := [1], level := .constant },
  { name := "SUBSET", arities := [1], level := .constant },
  { name := "UNION", arities := [1], level := .constant },
  { name := "BOOLEAN", arities := [0], level := .constant },
  { name := "STRING", arities := [0], level := .constant }]

def languageOperatorFacts : List LanguageOperator :=
  let temporal := profileOperatorFacts.map fun fact =>
    match fact.name with
    | "[]" | "<>" | "~>" => { fact with level := .temporal }
    | _ => fact
  structuralOperators.foldl
    (fun facts fact =>
      if facts.any (fun existing => existing.name == fact.name) then facts
      else facts ++ [fact])
    temporal

/-! ### Instance substitution -/

def explicitSubstitution? (site : InstanceSite) (formal : String) : Option Substitution :=
  site.declaration.substitutions.find? fun substitution => substitution.formal == formal

/-- The only legal substitution targets. -/
def substitutionTargets (closure : ClosureResult) : List ClosureEntry :=
  closure.entries.filter fun entry =>
    !entry.info.localDeclaration &&
      (entry.info.kind == .constant || entry.info.kind == .variable)

def implicitActual? (closure : ClosureResult) (name : String) : Option ClosureEntry :=
  closure.entries.find? fun entry =>
    !entry.info.name.isEmpty && entry.info.name == name &&
      (entry.info.kind == .constant || entry.info.kind == .variable ||
        entry.info.kind == .definition || entry.info.kind == .recursive)

/-- One explicit substitution; `seen` holds the formals substituted before it. -/
def checkExplicitSubstitution (table : ModuleTable) (site : InstanceSite)
    (targets : List ClosureEntry) (seen : List (String × SourceRange))
    (substitution : Substitution) : ElabM (List (String × SourceRange)) :=
  match seen.find? (fun earlier => earlier.1 == substitution.formal) with
  | some earlier => do
      report ((Diagnostic.error ElabCode.substitutionDuplicate .substitution
        s!"symbol '{substitution.formal}' is substituted more than once"
        (locationOfRange table substitution.range))
        |>.withRelated "the earlier substitution is here" (locationOfRange table earlier.2)
        |>.withArgument "name" substitution.formal
        |>.withArgument "module" site.declaration.moduleName.name)
      pure seen
  | none => do
      match targets.find? (fun entry => entry.info.name == substitution.formal) with
      | none =>
          report ((Diagnostic.error ElabCode.substitutionInvalid .substitution
            s!"'{substitution.formal}' is not a declared constant or variable of module '{site.declaration.moduleName.name}'"
            (locationOfRange table substitution.range))
            |>.withArgument "name" substitution.formal
            |>.withArgument "module" site.declaration.moduleName.name)
      | some entry =>
          if entry.info.arity != substitution.formalArity then
            report ((Diagnostic.error ElabCode.substitutionArity .substitution
              s!"'{substitution.formal}' is declared with arity {entry.info.arity} but the substitution gives arity {substitution.formalArity}"
              (locationOfRange table substitution.range))
              |>.withRelated "declared here" (ClosureEntry.location entry)
              |>.withArgument "name" substitution.formal
              |>.withArgument "expected" (toString entry.info.arity)
              |>.withArgument "actual" (toString substitution.formalArity))
          else pure ()
      pure (seen ++ [(substitution.formal, substitution.range)])

def checkExplicitSubstitutions (table : ModuleTable) (site : InstanceSite)
    (targets : List ClosureEntry) : ElabM Unit := do
  let _ ← site.declaration.substitutions.foldlM (checkExplicitSubstitution table site targets) []
  pure ()

/-- A target without an explicit substitution needs a 0-ary declaration of its name. -/
def checkImplicitSubstitution (table : ModuleTable) (closure : ClosureResult)
    (site : InstanceSite) (target : ClosureEntry) : ElabM Unit :=
  match explicitSubstitution? site target.info.name with
  | some _ => pure ()
  | none =>
      match implicitActual? closure target.info.name with
      | none =>
          report ((Diagnostic.error ElabCode.substitutionMissing .substitution
            s!"substitution missing for symbol '{target.info.name}' declared in module '{target.info.declaredIn.name}'"
            (locationOfRange table site.declaration.range))
            |>.withRelated "the missing declaration is here" (ClosureEntry.location target)
            |>.withArgument "name" target.info.name
            |>.withArgument "module" target.info.declaredIn.name)
      | some actual =>
          if actual.info.arity != 0 then
            report ((Diagnostic.error ElabCode.substitutionArity .substitution
              s!"the implicit substitution for '{target.info.name}' must be 0-ary, but '{actual.info.name}' takes {actual.info.arity}"
              (locationOfRange table site.declaration.range))
              |>.withRelated "the actual is declared here" (ClosureEntry.location actual)
              |>.withArgument "name" target.info.name
              |>.withArgument "actual" (toString actual.info.arity))
          else pure ()

def checkImplicitSubstitutions (table : ModuleTable) (closure : ClosureResult)
    (site : InstanceSite) (targets : List ClosureEntry) : ElabM Unit :=
  targets.forM (checkImplicitSubstitution table closure site)

/-- One site of a module; `state` is the state before the first site. -/
def checkModuleInstance (table : ModuleTable) (closure : ClosureResult) (state : ElabState)
    (site : InstanceSite) : ElabM Unit :=
  if site.resolution == .standardCatalog then
    checkExplicitSubstitutions table site []
  else
    match state.closures.find? (fun memo => memo.1 == site.declaration.moduleName) with
    | none => pure ()
    | some child => do
        checkExplicitSubstitutions table site (substitutionTargets child.2)
        checkImplicitSubstitutions table closure site (substitutionTargets child.2)

def checkModuleInstances (table : ModuleTable) (closure : ClosureResult) : ElabM Unit := do
  let state ← get
  table.instanceSites.forM (checkModuleInstance table closure state)

def checkInstances : ElabM Unit := do
  let state ← get
  state.tables.forM fun table => do
    let latest ← get
    if !latest.halted then
      match latest.closures.find? (fun memo => memo.1 == table.name) with
      | none => pure ()
      | some memo => checkModuleInstances table memo.2
    else pure ()

/-! ### Name resolution -/

def canonicalSpelling (profile : LanguageProfile) (spelling : String) : String :=
  (profile.canonicalFor? spelling).getD spelling

def renderReference (profile : LanguageProfile) (reference : OperatorRef) : String :=
  (reference.qualifier.map (fun qualifier => qualifier ++ "!")).getD ""
    ++ canonicalSpelling profile reference.spelling

def arityDiagnostic (table : ModuleTable) (range : SourceRange) (rendered : String)
    (argumentCount expected : Nat) : Diagnostic :=
  (Diagnostic.error ElabCode.arityMismatch .nameResolution
    s!"'{rendered}' is applied to {argumentCount} arguments but takes {expected}"
    (locationOfRange table range))
    |>.withArgument "name" rendered
    |>.withArgument "expected" (toString expected)
    |>.withArgument "actual" (toString argumentCount)

def reportArity (table : ModuleTable) (range : SourceRange) (rendered : String)
    (argumentCount expected : Nat) (declaration? : Option SymbolInfo) : ElabM Unit :=
  match declaration? with
  | some info =>
      report ((arityDiagnostic table range rendered argumentCount expected).withRelated
        "declared here" (locationOfSymbol info))
  | none => report (arityDiagnostic table range rendered argumentCount expected)

/-- An operator found for `reference` has to take its arguments. -/
def checkArity (profile : LanguageProfile) (table : ModuleTable) (reference : OperatorRef)
    (argumentCount expected : Nat) (declaration? : Option SymbolInfo) : ElabM Unit :=
  if expected == argumentCount then pure ()
  else
    reportArity table reference.range (renderReference profile reference) argumentCount expected
      declaration?

def resolveQualified (profile : LanguageProfile) (table : ModuleTable) (closure : ClosureResult)
    (reference : OperatorRef) (argumentCount : Nat) (qualifier : String) : ElabM Unit := do
  let spelling := canonicalSpelling profile reference.spelling
  let rendered := renderReference profile reference
  let state ← get
  let unknownReference : ElabM Unit :=
    report ((Diagnostic.error ElabCode.unknownName .nameResolution
      s!"qualified reference '{rendered}' has no operator declaration in module '{table.name.name}'"
      (locationOfRange table reference.range))
      |>.withArgument "name" rendered
      |>.withArgument "module" table.name.name)
  match closure.entries.find? (fun entry =>
      entry.info.kind == .instanceKind && entry.info.name == qualifier) with
  | none => unknownReference
  | some instanceEntry =>
      match instanceEntry.info.instanceSite? with
      | none => unknownReference
      | some site =>
          match site.resolution with
          | .standardCatalog =>
              match standardOperatorFacts.find? (fun fact =>
                  fact.name == spelling &&
                    standardExports site.declaration.moduleName fact.module) with
              | some fact => checkArity profile table reference argumentCount fact.arity none
              | none => unknownReference
          | .localSource =>
              match state.closures.find? (fun memo => memo.1 == site.declaration.moduleName) with
              | none => unknownReference
              | some child =>
                  match child.2.entries.find? (fun entry =>
                      !entry.info.name.isEmpty && entry.info.name == spelling &&
                        !entry.info.localDeclaration &&
                        (entry.info.kind == .definition || entry.info.kind == .recursive)) with
                  | none => unknownReference
                  | some declared =>
                      checkArity profile table reference argumentCount declared.info.arity
                        (some declared.info)

/-- Bound names first, then effective declarations, the language's operators and
the available standard modules. -/
def resolveReference (profile : LanguageProfile) (table : ModuleTable) (closure : ClosureResult)
    (names : List (String × Nat)) (reference : OperatorRef) (argumentCount : Nat) :
    ElabM Unit :=
  let spelling := canonicalSpelling profile reference.spelling
  let rendered := renderReference profile reference
  match reference.qualifier with
  | some qualifier => resolveQualified profile table closure reference argumentCount qualifier
  | none =>
      match names.find? (fun entry => entry.1 == spelling) with
      | some bound => checkArity profile table reference argumentCount bound.2 none
      | none =>
          match closure.entries.find? (fun entry =>
              !entry.info.name.isEmpty && entry.info.name == spelling &&
                entry.info.kind != .instanceKind) with
          | some entry =>
              checkArity profile table reference argumentCount entry.info.arity (some entry.info)
          | none =>
              match languageOperatorFacts.find? (fun fact => fact.name == spelling) with
              | some fact =>
                  if fact.arities.contains argumentCount then pure ()
                  else
                    reportArity table reference.range rendered argumentCount
                      (fact.arities.head?.getD 0) none
              | none =>
                  match standardOperatorFacts.find? (fun fact =>
                      fact.name == spelling &&
                        closure.availableStandards.contains fact.module) with
                  | some fact => checkArity profile table reference argumentCount fact.arity none
                  | none =>
                      report ((Diagnostic.error ElabCode.unknownName .nameResolution
                        s!"name '{rendered}' has no declaration in module '{table.name.name}' or its imports"
                        (locationOfRange table reference.range))
                        |>.withArgument "name" rendered
                        |>.withArgument "module" table.name.name)

def whenSome {α : Type} (item : Option α) (action : α → ElabM Unit) : ElabM Unit :=
  match item with
  | some item => action item
  | none => pure ()

/-- Each domain is resolved in the scope of the names bound before it; `resolve`
is the traversal of an expression. -/
def resolveBounds (resolve : List (String × Nat) → Expression → ElabM Unit)
    (names : List (String × Nat)) (bounds : List Bound) : ElabM (List (String × Nat)) :=
  bounds.foldlM (fun current bound => do
    whenSome bound.domain (resolve current)
    pure (current ++ [(bound.name, 0)])) names

def resolveUnder (resolve : List (String × Nat) → Expression → ElabM Unit)
    (names : List (String × Nat)) (bounds : List Bound) (body : Expression) : ElabM Unit := do
  let extended ← resolveBounds resolve names bounds
  resolve extended body

def parameterNames (definition : OperatorDefinition) : List (String × Nat) :=
  definition.parameters.map fun parameter => (parameter.name, parameter.arity)

def resolveArm (resolve : Expression → ElabM Unit) (arm : CaseArm) : ElabM Unit := do
  whenSome arm.guard resolve
  resolve arm.value

def resolveSpecification (resolve : Expression → ElabM Unit) (specification : ExceptSpec) :
    ElabM Unit := do
  specification.path.forM fun element =>
    match element with
    | .index index _ => resolve index
    | .field _ _ => pure ()
  resolve specification.value

/-- Resolve every operator reference of one expression; fuel that runs out fails. -/
def resolveExpression (profile : LanguageProfile) (table : ModuleTable)
    (closure : ClosureResult) : Nat → List (String × Nat) → Expression → ElabM Unit
  | 0, _, expression => do
      report ((Diagnostic.error ElabCode.fuelExhausted .nameResolution
        "expression traversal exceeded its resource bound"
        (locationOfRange table expression.range))
        |>.withArgument "module" table.name.name)
      halt
  | fuel + 1, names, expression =>
      let resolve := resolveExpression profile table closure fuel
      match expression with
      | .name reference _ => resolveReference profile table closure names reference 0
      | .boolean _ _ => pure ()
      | .integer _ _ => pure ()
      | .string _ _ => pure ()
      | .tuple items _ => items.forM (resolve names)
      | .set items _ => items.forM (resolve names)
      | .record fields _ => fields.forM fun field => resolve names field.value
      | .recordSet fields _ => fields.forM fun field => resolve names field.value
      | .function bounds body _ => resolveUnder resolve names bounds body
      | .functionSet domain codomain _ => do
          resolve names domain
          resolve names codomain
      | .apply reference arguments _ => do
          resolveReference profile table closure names reference arguments.length
          arguments.forM (resolve names)
      | .functionApply func index _ => do
          resolve names func
          resolve names index
      | .select base _ _ => resolve names base
      | .ifThenElse condition thenBranch elseBranch _ => do
          resolve names condition
          resolve names thenBranch
          resolve names elseBranch
      | .case arms _ => arms.forM (resolveArm (resolve names))
      | .letIn definitions body _ => do
          let extended := definitions.foldl (fun accumulated definition =>
            accumulated ++ [(definition.name, definition.parameters.length)]) names
          definitions.forM fun definition =>
            resolve (extended ++ parameterNames definition) definition.body
          resolve extended body
      | .choose bounds body _ => resolveUnder resolve names bounds body
      | .quantifier _ bounds body _ => resolveUnder resolve names bounds body
      | .setBuilder element bounds _ => resolveUnder resolve names bounds element
      | .setFilter bounds predicate _ => resolveUnder resolve names bounds predicate
      | .except base specifications _ => do
          resolve names base
          specifications.forM (resolveSpecification (resolve names))
      | .currentValue _ => pure ()

def resolveEntry (profile : LanguageProfile) (table : ModuleTable) (closure : ClosureResult)
    (entry : SymbolInfo) : ElabM Unit := do
  let resolve := resolveExpression profile table closure (expressionFuel table)
  whenSome entry.definition? fun definition =>
    resolve (parameterNames definition) definition.body
  whenSome entry.assumption? fun declaration => resolve [] declaration.body
  whenSome entry.theorem? fun declaration => resolve [] declaration.statement

def resolveModule (profile : LanguageProfile) (table : ModuleTable) (closure : ClosureResult) :
    ElabM Unit :=
  table.entries.forM (resolveEntry profile table closure)

def resolveNode (profile : LanguageProfile) (node : ModuleNode) : ElabM Unit := do
  let state ← get
  match state.closures.find? (fun memo => memo.1 == node.name) with
  | none => pure ()
  | some memo =>
      match state.tables.find? (fun table => table.name == node.name) with
      | none => pure ()
      | some table =>
          if state.halted then pure () else resolveModule profile table memo.2

def resolveGraph (profile : LanguageProfile) (graph : ResolvedModuleGraph) : ElabM Unit :=
  graph.nodes.forM fun node => do
    let state ← get
    if state.halted then pure () else resolveNode profile node

end MirrorsCore.Tla
