import Mathlib
import MirrorsCore.Tla.Resolution

/-! Levels of a whole graph (`Core/Tla/Elaboration.lean`): instance frames, one
raising pass, the bounded iteration, and the checks on actuals and assumptions. -/

namespace MirrorsCore.Tla

def levelOf? (levels : List (SymbolId × Level)) (symbol : SymbolId) : Option Level :=
  match levels.find? (fun entry => entry.1 == symbol) with
  | none => none
  | some entry => some entry.2

def scopeLevels (entries : List ClosureEntry) (levels : List (SymbolId × Level)) : SymbolLevels :=
  fun key =>
    match entries.find? (fun entry => !entry.info.name.isEmpty && entry.info.name == key) with
    | none => none
    | some entry => levelOf? levels entry.info.symbol

def levelFuel (state : ElabState) : Nat :=
  state.tables.foldl (fun total table => total + expressionFuel table) 0 +
    state.nextSymbol + 16

def closureOf? (state : ElabState) (name : ModuleName) : Option ClosureResult :=
  match state.closures.find? (fun memo => memo.1 == name) with
  | some memo => some memo.2
  | none => none

/-- Level of one name of `origin` under substitution frames, innermost first. -/
def instancedKeyLevel (state : ElabState) : Nat → ModuleName → List InstanceFrame → String →
    Option Level
  | 0, _, _, _ => none
  | fuel + 1, origin, frames, key =>
      match key.splitOn "!" with
      | [qualifier, name] =>
          match (closureOf? state origin).bind (fun closure =>
              closure.entries.find? fun entry =>
                entry.info.kind == .instanceKind && entry.info.name == qualifier) with
          | none => none
          | some entry =>
              match entry.info.instanceSite? with
              | none => none
              | some site =>
                  match site.resolution with
                  | .standardCatalog =>
                      match standardOperatorFacts.find? (fun fact =>
                          fact.name == name &&
                            standardExports site.declaration.moduleName fact.module) with
                      | some fact => some fact.level
                      | none => none
                  | .localSource =>
                      match (closureOf? state site.declaration.moduleName).bind
                          (fun target => target.entries.find? fun other =>
                            !other.info.name.isEmpty && other.info.name == name &&
                              !other.info.localDeclaration &&
                              (other.info.kind == .definition ||
                                other.info.kind == .recursive)) with
                      | none => none
                      | some declared =>
                          let scope : SymbolLevels := fun inner =>
                            instancedKeyLevel state fuel declared.info.declaredIn
                              (declared.frames ++
                                ({ site, viewer := entry.info.declaredIn } : InstanceFrame) ::
                                entry.frames ++ frames) inner
                          match declared.info.definition? with
                          | none => levelOf? state.levels declared.info.symbol
                          | some definition => definitionLevel fuel scope [] definition
      | _ =>
          match frames with
          | [] =>
              match (closureOf? state origin).bind (fun closure =>
                  closure.entries.find? fun entry =>
                    !entry.info.name.isEmpty && entry.info.name == key) with
              | none => none
              | some entry =>
                  match entry.info.kind with
                  | .definition | .recursive =>
                      let scope : SymbolLevels := fun inner =>
                        instancedKeyLevel state fuel entry.info.declaredIn
                          (entry.frames ++ frames) inner
                      match entry.info.definition? with
                      | none => levelOf? state.levels entry.info.symbol
                      | some definition => definitionLevel fuel scope [] definition
                  | _ => levelOf? state.levels entry.info.symbol
          | frame :: rest =>
              match explicitSubstitution? frame.site key with
              | some substitution =>
                  expressionLevel fuel
                    (fun inner => instancedKeyLevel state fuel frame.viewer rest inner)
                    [] substitution.actual
              | none =>
                  match (closureOf? state origin).bind (fun closure =>
                      closure.entries.find? fun entry =>
                        !entry.info.name.isEmpty && entry.info.name == key) with
                  | some entry =>
                      if entry.info.kind == .constant || entry.info.kind == .variable then
                        -- an implicit actual: the viewer's declaration of the same name
                        instancedKeyLevel state fuel frame.viewer rest key
                      else
                        let scope : SymbolLevels := fun inner =>
                          instancedKeyLevel state fuel entry.info.declaredIn
                            (entry.frames ++ frames) inner
                        match entry.info.definition? with
                        | none => levelOf? state.levels entry.info.symbol
                        | some definition => definitionLevel fuel scope [] definition
                  | none => none

def raiseLevel (levels : List (SymbolId × Level)) (symbol : SymbolId) (candidate : Level) :
    List (SymbolId × Level) × Bool :=
  match levels.find? (fun entry => entry.1 == symbol) with
  | none => (levels, false)
  | some entry =>
      let joined := Level.max entry.2 candidate
      if joined == entry.2 then (levels, false)
      else (levels.map (fun other => if other.1 == symbol then (symbol, joined) else other), true)

structure LevelPass where
  levels : List (SymbolId × Level)
  changed : Bool := false
  failed : Bool := false
  enabledProblems : List SourceLocation := []

def enabledProblemLocations (table : ModuleTable) (problems : List SourceRange) :
    List SourceLocation :=
  problems.map fun range =>
    { moduleName := some table.name, logicalPath := table.logicalPath, range }

def reportEnabledProblems (problems : List SourceLocation) : ElabM Unit :=
  problems.forM fun location =>
    report ((Diagnostic.error ElabCode.enabledLevel .level
      "the operand of 'ENABLED' is classified temporal, but 'ENABLED' requires a constant, state, or action operand"
      location)
      |>.withArgument "module" ((location.moduleName.map (fun name => name.name)).getD ""))

namespace LevelPass

/-- Raise one symbol to the level of its body, or fail when there is none. -/
def raise (pass : LevelPass) (symbol : SymbolId) (candidate : Option Level) : LevelPass :=
  match candidate with
  | some candidate =>
      let raised := raiseLevel pass.levels symbol candidate
      { pass with
        levels := if raised.2 then raised.1 else pass.levels
        changed := pass.changed || raised.2 }
  | none => { pass with failed := true }

/-- A classified body of a table's entry, with its `ENABLED` problems. -/
def classify (table : ModuleTable) (pass : LevelPass) (symbol : SymbolId)
    (result : LevelResult) : LevelPass :=
  LevelPass.raise { pass with
    enabledProblems := pass.enabledProblems ++ enabledProblemLocations table result.2 }
    symbol result.1

end LevelPass

/-- Names of a module: the symbol levels, and the instance frames for what they
do not answer. -/
def moduleScope (state : ElabState) (entries : List ClosureEntry)
    (levels : List (SymbolId × Level)) (origin : ModuleName) : SymbolLevels :=
  fun key =>
    match scopeLevels entries levels key with
    | some level => some level
    | none => instancedKeyLevel { state with levels } (levelFuel state) origin [] key

def levelPassEntry (state : ElabState) (table : ModuleTable) (closure : ClosureResult)
    (pass : LevelPass) (entry : SymbolInfo) : LevelPass :=
  let scope := moduleScope state closure.entries pass.levels entry.declaredIn
  let pass :=
    match entry.definition? with
    | some definition =>
        LevelPass.classify table pass entry.symbol
          (classifyDefinitionLevel (expressionFuel table) scope [] definition)
    | none => pass
  match entry.assumption? with
  | some declaration =>
      LevelPass.classify table pass entry.symbol
        (classifyExpressionLevel (expressionFuel table) scope [] declaration.body)
  | none => pass

/-- A declaration that an `INSTANCE` exposed, under its substitution frames. -/
def levelPassExposed (state : ElabState) (table : ModuleTable) (pass : LevelPass)
    (entry : ClosureEntry) : LevelPass :=
  if !entry.frames.isEmpty then
    match entry.info.definition? with
    | none => pass
    | some definition =>
        LevelPass.raise pass entry.info.symbol
          (definitionLevel (expressionFuel table)
            (fun key => instancedKeyLevel { state with levels := pass.levels } (levelFuel state)
              entry.info.declaredIn entry.frames key)
            [] definition)
  else pass

def levelPassTable (state : ElabState) (pass : LevelPass) (table : ModuleTable) : LevelPass :=
  match state.closures.find? (fun memo => memo.1 == table.name) with
  | none => pass
  | some memo =>
      memo.2.entries.foldl (levelPassExposed state table)
        (table.entries.foldl (levelPassEntry state table memo.2) pass)

def levelPass (state : ElabState) : LevelPass :=
  state.tables.foldl (levelPassTable state) { levels := state.levels }

/-- The bottom of the fixpoint; the levels of exposed operators come after those
of the tables. -/
def initialLevels (state : ElabState) : List (SymbolId × Level) :=
  (state.tables.flatMap fun table =>
    table.entries.map fun entry =>
      (entry.symbol,
        match entry.kind with
        | .variable => Level.state
        | _ => Level.constant)) ++
  state.tables.flatMap fun table =>
    match state.closures.find? (fun memo => memo.1 == table.name) with
    | none => []
    | some memo =>
        (memo.2.entries.filter fun entry =>
          (!entry.frames.isEmpty || entry.info.catalogLevel?.isSome) &&
            (entry.info.kind == .definition || entry.info.kind == .recursive)).map fun entry =>
          (entry.info.symbol, entry.info.catalogLevel?.getD .constant)

/-- The iteration of `computeLevels`: whether it is still running, whether a pass
failed, and the problems of the last pass. -/
structure LevelLoop where
  running : Bool := true
  failed : Bool := false
  enabledProblems : List SourceLocation := []

/-- The loop, with the number of iterations it may still make. -/
def iterateLevels : Nat → LevelLoop → ElabM LevelLoop
  | 0, loop => pure loop
  | budget + 1, loop =>
      if loop.running then do
        let current ← get
        let pass := levelPass current
        set { current with levels := pass.levels }
        iterateLevels budget
          { running := pass.changed && !pass.failed
            failed := loop.failed || pass.failed
            enabledProblems := pass.enabledProblems }
      else pure loop

/-- The least fixpoint of the syntax-directed rules. -/
def computeLevels : ElabM Unit := do
  let state ← get
  set { state with levels := initialLevels state }
  let budget := 3 * state.nextSymbol + 2
  let loop ← iterateLevels budget {}
  let final ← get
  if loop.failed || loop.running then do
    report ((Diagnostic.error ElabCode.fuelExhausted .level
      "level classification did not reach a fixpoint within its bound"
      final.anchor)
      |>.withArgument "iterations" (toString budget))
    reportEnabledProblems loop.enabledProblems
    halt
  else
    reportEnabledProblems loop.enabledProblems

/-! ### Levels of actuals and assumptions -/

def substitutionLevelDiagnostic (message : String) (location : SourceLocation) (name : String)
    (level : Level) : Diagnostic :=
  (Diagnostic.error ElabCode.substitutionLevel .substitution message location)
    |>.withArgument "name" name
    |>.withArgument "level" level.toString

def checkActualLevel (table : ModuleTable) (scope : SymbolLevels) (substitution : Substitution) :
    ElabM Unit :=
  match classifyExpressionLevel (expressionFuel table) scope [] substitution.actual with
  | (some level, problems) => do
      reportEnabledProblems (enabledProblemLocations table problems)
      if level.rank > Level.state.rank then
        report (substitutionLevelDiagnostic
          s!"the expression substituted for '{substitution.formal}' is classified {level} but substitution actuals must be constant or state level"
          (locationOfRange table substitution.range) substitution.formal level)
      else pure ()
  | (none, problems) => do
      reportEnabledProblems (enabledProblemLocations table problems)
      report ((Diagnostic.error ElabCode.fuelExhausted .substitution
        "substitution level classification exhausted its bound"
        (locationOfRange table substitution.range))
        |>.withArgument "module" table.name.name)

def checkImplicitLevel (table : ModuleTable) (closure : ClosureResult)
    (levels : List (SymbolId × Level)) (site : InstanceSite) (target : ClosureEntry) :
    ElabM Unit :=
  match explicitSubstitution? site target.info.name with
  | some _ => pure ()
  | none =>
      match implicitActual? closure target.info.name with
      | none => pure ()
      | some actual =>
          let level := (levelOf? levels actual.info.symbol).getD .constant
          if level.rank > Level.state.rank then
            report (substitutionLevelDiagnostic
              s!"the implicit substitution for '{target.info.name}' is classified {level} but substitution actuals must be constant or state level"
              (locationOfRange table site.declaration.range) target.info.name level)
          else pure ()

/-- One site of `table`; `latest` is the state before its first site. -/
def checkSiteLevels (table : ModuleTable) (closure : ClosureResult) (latest : ElabState)
    (site : InstanceSite) : ElabM Unit :=
  if site.resolution == .localSource then do
    site.declaration.substitutions.forM
      (checkActualLevel table (moduleScope latest closure.entries latest.levels table.name))
    match latest.closures.find? (fun memo => memo.1 == site.declaration.moduleName) with
    | none => pure ()
    | some child =>
        (substitutionTargets child.2).forM (checkImplicitLevel table closure latest.levels site)
  else pure ()

def checkSubstitutionLevels : ElabM Unit := do
  let state ← get
  state.tables.forM fun table => do
    let latest ← get
    if !latest.halted then
      match latest.closures.find? (fun memo => memo.1 == table.name) with
      | none => pure ()
      | some memo => table.instanceSites.forM (checkSiteLevels table memo.2 latest)
    else pure ()

def checkAssumption (levels : List (SymbolId × Level)) (table : ModuleTable)
    (entry : SymbolInfo) : ElabM Unit :=
  match entry.assumption? with
  | none => pure ()
  | some _ =>
      let level := (levelOf? levels entry.symbol).getD .constant
      if level != .constant then
        report ((Diagnostic.error ElabCode.assumptionLevel .level
          s!"assumption in module '{table.name.name}' is classified {level} but assumptions must be constant level"
          (locationOfSymbol entry))
          |>.withArgument "module" table.name.name
          |>.withArgument "level" level.toString)
      else pure ()

def checkAssumptions : ElabM Unit := do
  let state ← get
  state.tables.forM fun table => table.entries.forM (checkAssumption state.levels table)

end MirrorsCore.Tla
