import Mathlib
import MirrorsCore.Tla.LevelFixpoint
import MirrorsCore.Tla.Numbering
import MirrorsCore.Tla.Reporting

/-! What the elaborator makes of the levels: the passes come to rest within their budget, and
since the stages after them only report, an accepted graph ends with the least levels, with
constant assumptions. -/

namespace MirrorsCore.Tla
open MirrorsCore.Lib

/-! ### Levels of actuals -/

theorem asks_checkActualLevel (table : ModuleTable) (scope : SymbolLevels)
    (substitution : Substitution) :
    Asks (checkActualLevel table scope substitution) fun _ => ∃ level,
      classifyExpressionLevel (expressionFuel table) scope [] substitution.actual =
        (some level, []) ∧ level ≤ .state := by
  rw [checkActualLevel]
  rcases hresult : classifyExpressionLevel (expressionFuel table) scope [] substitution.actual
    with ⟨_ | level, problems⟩
  · refine ((asks_reportEnabledProblems _).bind fun _ => asks_report ?_).congr ?_
    · rfl
    · simp
  · refine ((asks_reportEnabledProblems _).bind fun _ => asks_reportIf ?_).congr ?_
    · rfl
    · simp [enabledProblemLocations, Level.le_iff]

theorem asks_checkImplicitLevel (table : ModuleTable) (closure : ClosureResult)
    (levels : List (SymbolId × Level)) (site : InstanceSite) (target : ClosureEntry) :
    Asks (checkImplicitLevel table closure levels site target) fun _ =>
      explicitSubstitution? site target.info.name = none →
        ∀ actual, implicitActual? closure target.info.name = some actual →
          (levelOf? levels actual.info.symbol).getD .constant ≤ .state := by
  rw [checkImplicitLevel]
  cases explicitSubstitution? site target.info.name with
  | some _ =>
    apply (asks_pure _).congr
    simp
  | none =>
    cases implicitActual? closure target.info.name with
    | none =>
      apply (asks_pure _).congr
      simp
    | some actual =>
      apply (asks_reportIf rfl).congr
      simp [Level.le_iff]

/-- The actuals of a site are of constant or state level, and no `ENABLED` in them has a
temporal operand. -/
structure SiteLevels (state : ElabState) (table : ModuleTable) (closure : ClosureResult)
    (site : InstanceSite) : Prop where
  explicit : site.resolution = .localSource →
    ∀ substitution ∈ site.declaration.substitutions, ∃ level,
      classifyExpressionLevel (expressionFuel table)
        (moduleScope state closure.entries state.levels table.name) [] substitution.actual =
        (some level, []) ∧ level ≤ .state
  implicit : site.resolution = .localSource → ∀ child,
    state.closures.find? (fun memo => memo.1 == site.declaration.moduleName) = some child →
      ∀ target ∈ substitutionTargets child.2,
        explicitSubstitution? site target.info.name = none →
          ∀ actual, implicitActual? closure target.info.name = some actual →
            (levelOf? state.levels actual.info.symbol).getD .constant ≤ .state

theorem asks_checkSiteLevels (table : ModuleTable) (closure : ClosureResult)
    (latest : ElabState) (site : InstanceSite) :
    Asks (checkSiteLevels table closure latest site) fun _ =>
      SiteLevels latest table closure site := by
  rw [checkSiteLevels]
  cases hresolution : site.resolution with
  | standardCatalog =>
    have hnone {P : Prop} (h : site.resolution = .localSource) : P :=
      absurd (hresolution.symm.trans h) (by decide)
    apply (asks_pure _).congr
    exact fun _ => iff_of_true trivial ⟨hnone, hnone⟩
  | localSource =>
    have hactuals := asks_forM (asks_checkActualLevel table
      (moduleScope latest closure.entries latest.levels table.name))
      site.declaration.substitutions
    rw [if_pos (by decide)]
    cases hfind : latest.closures.find? fun memo => memo.1 == site.declaration.moduleName with
    | none =>
      have hboth := hactuals.bind fun _ => asks_pure ()
      apply hboth.congr
      intro s
      refine ⟨fun h => ⟨fun _ => h.1, fun _ child hchild => ?_⟩,
        fun h => ⟨h.explicit hresolution, trivial⟩⟩
      cases hfind.symm.trans hchild
    | some child =>
      have hboth := hactuals.bind fun _ => asks_forM
        (asks_checkImplicitLevel table closure latest.levels site) (substitutionTargets child.2)
      apply hboth.congr
      intro s
      refine ⟨fun h => ⟨fun _ => h.1, fun _ child' hchild => ?_⟩,
        fun h => ⟨h.explicit hresolution, h.implicit hresolution child hfind⟩⟩
      obtain rfl := Option.some.inj (hfind.symm.trans hchild)
      exact h.2

/-- Every site of a module that has a closure is as `P` says. -/
def EverySite (P : ElabState → ModuleTable → ClosureResult → InstanceSite → Prop)
    (state : ElabState) : Prop :=
  ∀ table ∈ state.tables, state.halted = false → ∀ memo,
    state.closures.find? (fun memo => memo.1 == table.name) = some memo →
      ∀ site ∈ table.instanceSites, P state table memo.2 site

/-- A check of the sites of each module; `P` may speak of the state before the check and of the
one that the check reads. -/
theorem asks_everySite
    {P : ElabState → ElabState → ModuleTable → ClosureResult → InstanceSite → Prop}
    {check : ModuleTable → ClosureResult → ElabState → ElabM Unit}
    (hcheck : ∀ table closure latest, Asks (check table closure latest) fun s =>
      ∀ site ∈ table.instanceSites, P latest s table closure site) :
    Asks (do
      let state ← get
      state.tables.forM fun table => do
        let latest ← get
        if !latest.halted then
          match latest.closures.find? (fun memo => memo.1 == table.name) with
          | none => pure ()
          | some memo => check table memo.2 latest
        else pure ()) (EverySite fun s => P s s) := by
  have htable (table : ModuleTable) : Asks (do
      let latest ← get
      if !latest.halted then
        match latest.closures.find? (fun memo => memo.1 == table.name) with
        | none => pure ()
        | some memo => check table memo.2 latest
      else pure ()) fun s => s.halted = false → ∀ memo,
        s.closures.find? (fun memo => memo.1 == table.name) = some memo →
          ∀ site ∈ table.instanceSites, P s s table memo.2 site := by
    apply asks_get_bind (P := fun latest s => latest.halted = false → ∀ memo,
      latest.closures.find? (fun memo => memo.1 == table.name) = some memo →
        ∀ site ∈ table.instanceSites, P latest s table memo.2 site)
    intro latest
    cases hhalted : latest.halted with
    | true =>
      apply (asks_pure _).congr
      simp
    | false =>
      cases hfind : latest.closures.find? fun memo => memo.1 == table.name with
      | none =>
        apply (asks_pure _).congr
        simp
      | some memo =>
        apply (hcheck table memo.2 latest).congr
        simp
  exact asks_get_bind (P := fun state s => ∀ table ∈ state.tables, s.halted = false → ∀ memo,
    s.closures.find? (fun memo => memo.1 == table.name) = some memo →
      ∀ site ∈ table.instanceSites, P s s table memo.2 site) fun state =>
    asks_forM htable state.tables

theorem asks_checkSubstitutionLevels : Asks checkSubstitutionLevels (EverySite SiteLevels) :=
  asks_everySite (P := fun latest _ => SiteLevels latest) fun table closure latest =>
    asks_forM (asks_checkSiteLevels table closure latest) table.instanceSites

/-! ### The rounds of the levels -/

def levelBudget (state : ElabState) : Nat := 3 * state.nextSymbol + 2

/-- The rounds that `computeLevels` makes from a state, and the state that they leave. -/
def levelRounds (state : ElabState) (budget : Nat) : LevelLoop × ElabState :=
  (iterateLevels budget {}).run { state with levels := initialLevels state }

section Rounds
variable {s : ElabState} {budget : Nat}

theorem levelRounds_state (s : ElabState) (budget : Nat) :
    (levelRounds s budget).2 = { s with levels := (levelRounds s budget).2.levels } := by
  obtain ⟨levels, hafter, -⟩ := iterated_iterateLevels [] budget {}
    { s with levels := initialLevels s }
  rw [show (levelRounds s budget).2 = { s with levels } from hafter]

theorem leastLevels_levelRounds (hended : (levelRounds s budget).1.running = false)
    (hpassed : (levelRounds s budget).1.failed = false) :
    LeastLevels s (levelRounds s budget).2.levels := by
  obtain ⟨levels, hafter, hiterated⟩ := iterated_iterateLevels [] budget {}
    { s with levels := initialLevels s }
  have hrules := levelRule_levels s (initialLevels s)
  rw [show (levelRounds s budget).2 = { s with levels } from hafter]
  exact ⟨hiterated.raised, hrules ▸ hiterated.settled rfl hended hpassed,
    fun high hsaturated hbelow => hiterated.bounded high (hrules ▸ hsaturated) hbelow⟩

theorem lt_of_lookup_initialLevels (hs : Numbered s) {key : SymbolId} {level : Level}
    (h : (initialLevels s).lookup key = some level) : key < s.nextSymbol := by
  obtain ⟨before, behind, heq, -⟩ := List.lookup_eq_some_iff.mp h
  have hmem : (key, level) ∈ initialLevels s :=
    heq ▸ List.mem_append_right before List.mem_cons_self
  rcases List.mem_append.mp hmem with hmem | hmem
  · obtain ⟨table, htable, hmem⟩ := List.mem_flatMap.mp hmem
    obtain ⟨entry, hentry, hpair⟩ := List.mem_map.mp hmem
    obtain ⟨rfl, -⟩ := Prod.mk.inj hpair
    exact (hs.registered htable hentry).symbol
  · obtain ⟨table, -, hmem⟩ := List.mem_flatMap.mp hmem
    split at hmem
    · cases hmem
    · rename_i memo hmemo
      obtain ⟨entry, hentry, hpair⟩ := List.mem_map.mp hmem
      obtain ⟨rfl, -⟩ := Prod.mk.inj hpair
      exact (hs.closures memo (List.mem_of_find?_eq_some hmemo) entry
        (List.mem_of_mem_filter hentry)).symbol

/-- Each level rises three times at most, so three rounds for each symbol are enough. -/
theorem running_levelRounds (hs : Numbered s) :
    (levelRounds s (levelBudget s)).1.running = false := by
  obtain ⟨levels, -, hiterated⟩ := iterated_iterateLevels (List.range s.nextSymbol)
    (levelBudget s) {} { s with levels := initialLevels s }
  have hroom := room_le levelSlack_le (List.range s.nextSymbol) (initialLevels s)
  rw [List.length_range] at hroom
  have hlt : s.nextSymbol * 3 < levelBudget s := by
    unfold levelBudget
    omega
  refine hiterated.ends (fun key level hlevel => ?_) rfl (hroom.trans_lt hlt)
  exact List.mem_range.mpr (lt_of_lookup_initialLevels hs hlevel)

theorem after_computeLevels (s : ElabState) :
    after computeLevels s = after
      (if (levelRounds s (levelBudget s)).1.failed ||
          (levelRounds s (levelBudget s)).1.running then do
        report ((Diagnostic.error ElabCode.fuelExhausted .level
          "level classification did not reach a fixpoint within its bound"
          (levelRounds s (levelBudget s)).2.anchor)
          |>.withArgument "iterations" (toString (levelBudget s)))
        reportEnabledProblems (levelRounds s (levelBudget s)).1.enabledProblems
        halt
      else reportEnabledProblems (levelRounds s (levelBudget s)).1.enabledProblems)
      (levelRounds s (levelBudget s)).2 := by
  rw [computeLevels]
  simp only [after_bind, value_get, after_get, after_set]
  rfl

theorem computeLevels_silent (hs : s.Sound) (hsilent : Silent (after computeLevels s)) :
    ∃ levels, after computeLevels s = { s with levels } ∧ LeastLevels s levels := by
  have hsound : (levelRounds s (levelBudget s)).2.Sound := by
    rw [levelRounds_state]
    exact (quiet_set_levels s _).sound hs
  rw [after_computeLevels] at hsilent ⊢
  split at hsilent
  · exact absurd hsilent (not_silent_report rfl hsound fun t herrors =>
      (quiet_reportEnabledProblems _ t).errors herrors)
  · -- neither failed nor still running: only the `ENABLED` problems are left to report
    rename_i hended
    rw [if_neg hended, (asks_reportEnabledProblems _).still hsound hsilent]
    rw [Bool.not_eq_true, Bool.or_eq_false_iff] at hended
    exact ⟨_, levelRounds_state s _, leastLevels_levelRounds hended.2 hended.1⟩

/-- Rounds that have ended failed exactly if a body is deeper than its fuel. -/
theorem failed_levelRounds_iff (hended : (levelRounds s budget).1.running = false) :
    (levelRounds s budget).1.failed = false ↔ BodiesFit s := by
  refine ⟨fun hpassed => bodiesFit_of_saturated (leastLevels_levelRounds hended hpassed).saturated,
    fun hfit => ?_⟩
  by_contra hfailed
  obtain ⟨levels, -, hiterated⟩ := iterated_iterateLevels [] budget {}
    { s with levels := initialLevels s }
  obtain ⟨values, key, hrule⟩ := hiterated.failed rfl (Bool.eq_true_of_not_eq_false hfailed)
  rw [levelRule_levels] at hrule
  obtain ⟨fuel, body, hbody, hnone⟩ := exists_levelBody hrule
  exact absurd (hnone.mpr (hfit fuel body hbody)) Bool.false_ne_true

/-- Rounds that have come to rest: more of them change nothing, they failed exactly if a body is
deeper than its fuel, and otherwise they leave the least levels and the rest of the computation
only reports. -/
structure AtRest (s : ElabState) (budget : Nat) : Prop where
  ended : (levelRounds s budget).1.running = false
  extra : ∀ extra, levelRounds s (budget + extra) = levelRounds s budget
  passed : (levelRounds s budget).1.failed = false ↔ BodiesFit s
  least : BodiesFit s → LeastLevels s (levelRounds s budget).2.levels
  reports : BodiesFit s → after computeLevels s = after
    (reportEnabledProblems (levelRounds s budget).1.enabledProblems) (levelRounds s budget).2

theorem Numbered.atRest (hs : Numbered s) : AtRest s (levelBudget s) where
  ended := running_levelRounds hs
  extra := iterateLevels_extra (running_levelRounds hs)
  passed := failed_levelRounds_iff (running_levelRounds hs)
  least := fun hfit => leastLevels_levelRounds (running_levelRounds hs)
    ((failed_levelRounds_iff (running_levelRounds hs)).mpr hfit)
  reports := fun hfit => by
    rw [after_computeLevels, (failed_levelRounds_iff (running_levelRounds hs)).mpr hfit,
      running_levelRounds hs]
    rfl

end Rounds

/-! ### The stages of an accepted graph -/

theorem run_whenNotDone {action : ElabM Unit} (h : Steps Quiet action) {s : ElabState}
    (hs : s.Sound) (hsilent : Silent (after (whenNotDone action) s)) :
    after (whenNotDone action) s = after action s :=
  after_whenNotDone ⟨hs, (Steps.whenNotDone h s).toLater.silent hsilent⟩ action

section Accepted
variable {profile : LanguageProfile} {limits : ElaborationLimits} {graph : ResolvedModuleGraph}
  {facts : ElaboratedModule}

def levelsStart (profile : LanguageProfile) (limits : ElaborationLimits)
    (graph : ResolvedModuleGraph) : ElabState :=
  after (do
    tabulateGraph graph
    whenNotDone (computeClosures graph)
    whenNotDone checkInstances
    whenNotDone (resolveGraph profile graph)) (initialState limits graph)

theorem numbered_levelsStart (hwf : Acyclic graph) (h : Silent (levelsStart profile limits graph)) :
    Numbered (levelsStart profile limits graph) := by
  have hquiet := (Steps.whenNotDone quiet_checkInstances).bind
    (fun _ => Steps.whenNotDone (quiet_resolveGraph profile graph))
    (after (whenNotDone (computeClosures graph))
      (after (tabulateGraph graph) (initialState limits graph)))
  exact (numbered_of_silent hwf (hquiet.toLater.silent h)).quiet hquiet

/-- The bound on the rounds never decides: wherever the levels of a graph are computed, they
come to rest within it. -/
theorem levels_settle (hwf : Acyclic graph) (h : Silent (levelsStart profile limits graph)) :
    AtRest (levelsStart profile limits graph)
      (levelBudget (levelsStart profile limits graph)) :=
  (numbered_levelsStart hwf h).atRest

theorem sound_afterClosures (hwf : Acyclic graph) (limits : ElaborationLimits) :
    (after (whenNotDone (computeClosures graph))
      (after (tabulateGraph graph) (initialState limits graph))).Sound := by
  have hinitial : (initialState limits graph).Sound := ⟨Bool.noConfusion, Bool.noConfusion⟩
  have htabulated := (unmemoized_tabulateGraph graph (initialState limits graph)).sound hinitial
  exact (Steps.whenNotDone (settled_computeClosures hwf) _).sound htabulated

/-- The last stages of an accepted graph: its levels are the least ones, and the checks of the
actuals and of the assumptions are silent on them. -/
theorem levels_finalState (hwf : Acyclic graph)
    (h : elaborate profile limits graph = .ok facts) :
    LeastLevels (finalState profile limits graph) (finalState profile limits graph).levels ∧
      Silent (after checkSubstitutionLevels (finalState profile limits graph)) ∧
      Silent (after checkAssumptions (finalState profile limits graph)) := by
  obtain ⟨-, hsilent⟩ := elaborate_eq_ok h
  have hresolve := Steps.whenNotDone (quiet_resolveGraph profile graph)
  have hlevels := Steps.whenNotDone quiet_computeLevels
  have hactuals := Steps.whenNotDone quiet_checkSubstitutionLevels
  have hassumptions := Steps.whenNotDone quiet_checkAssumptions
  -- the state before the levels, then the states after each of the last three stages
  obtain ⟨s, hs, hfinal⟩ : ∃ s : ElabState, s.Sound ∧
      finalState profile limits graph = after (whenNotDone checkAssumptions)
        (after (whenNotDone checkSubstitutionLevels) (after (whenNotDone computeLevels) s)) := by
    have hcomputed := sound_afterClosures hwf limits
    have hinstances := (Steps.whenNotDone quiet_checkInstances _).sound hcomputed
    exact ⟨_, (hresolve _).sound hinstances, rfl⟩
  rw [hfinal] at hsilent ⊢
  have hsound := (hlevels s).sound hs
  have hsound' := (hactuals (after (whenNotDone computeLevels) s)).sound hsound
  have hactualsSilent := (hassumptions _).toLater.silent hsilent
  have hlevelsSilent := (hactuals _).toLater.silent hactualsSilent
  have hactualsRun := run_whenNotDone quiet_checkSubstitutionLevels hsound hactualsSilent
  rw [hactualsRun] at hactualsSilent
  have hactualsStill := asks_checkSubstitutionLevels.still hsound hactualsSilent
  rw [hactualsRun, hactualsStill] at hsilent hsound' ⊢
  have hassumptionsRun := run_whenNotDone quiet_checkAssumptions hsound' hsilent
  rw [hassumptionsRun] at hsilent ⊢
  have hassumptionsStill := asks_checkAssumptions.still hsound' hsilent
  rw [hassumptionsStill]
  refine ⟨?_, hactualsSilent, hsilent⟩
  have hlevelsRun := run_whenNotDone quiet_computeLevels hs hlevelsSilent
  rw [hlevelsRun] at hlevelsSilent ⊢
  obtain ⟨levels, hafter, hleast⟩ := computeLevels_silent hs hlevelsSilent
  rw [hafter]
  exact hleast.of_levels

theorem numbered_finalState (hwf : Acyclic graph)
    (h : elaborate profile limits graph = .ok facts) :
    Numbered (finalState profile limits graph) := by
  have hlater := quiet_laterStages profile graph (after (whenNotDone (computeClosures graph))
    (after (tabulateGraph graph) (initialState limits graph)))
  exact (numbered_of_silent hwf (hlater.toLater.silent (elaborate_eq_ok h).2)).quiet hlater

theorem constant_of_elaborate (hwf : Acyclic graph)
    (h : elaborate profile limits graph = .ok facts) {entry : SymbolInfo}
    (hmem : entry ∈ tableEntries (finalState profile limits graph).tables)
    (hassumption : entry.assumption?.isSome = true) :
    (levelOf? (finalState profile limits graph).levels entry.symbol).getD .constant =
      .constant := by
  obtain ⟨-, -, hsilent⟩ := levels_finalState hwf h
  have hsound := (gathered_of_elaborate hwf h).1.sound
  have hconstant := (asks_checkAssumptions.silent hsound (elaborate_eq_ok h).2).mp hsilent
  obtain ⟨table, htable, hentry⟩ := List.mem_flatMap.mp hmem
  exact hconstant table htable entry hentry hassumption

/-- What the levels of a state say about the facts that it publishes. -/
structure Levelled (state : ElabState) (facts : ElaboratedModule) : Prop where
  least : LeastLevels state state.levels
  assumptions : ∀ entry ∈ tableEntries state.tables, entry.assumption?.isSome = true →
    (levelOf? state.levels entry.symbol).getD .constant = .constant
  operators : ∀ operator ∈ facts.operators,
    operator.level = (levelOf? state.levels operator.symbol).getD .constant
  published : ∀ assumption ∈ facts.assumptions, assumption.level = .constant

/-- The levels of an accepted graph are the least that are at least the declared ones and give
each body no more than its symbol has; every assumption is constant, where it is declared and
where it is published; and the published operators carry these levels. -/
theorem levels_of_elaborate (hwf : Acyclic graph)
    (h : elaborate profile limits graph = .ok facts) :
    Levelled (finalState profile limits graph) facts := by
  obtain ⟨hleast, -, -⟩ := levels_finalState hwf h
  refine ⟨hleast, fun _ => constant_of_elaborate hwf h, fun operator hoperator => ?_,
    fun assumption hassumption => ?_⟩
  · rw [(elaborate_eq_ok h).1, assemble] at hoperator
    obtain ⟨entry, -, hfact⟩ := List.mem_filterMap.mp hoperator
    rw [operatorFact?] at hfact
    split at hfact
    · rw [← Option.some.inj hfact]
      rfl
    · rw [← Option.some.inj hfact]
      rfl
    · cases hfact
  · rw [(elaborate_eq_ok h).1, assemble] at hassumption
    obtain ⟨entry, hentry, hfact⟩ := List.mem_filterMap.mp hassumption
    rw [assumptionFact?] at hfact
    split at hfact
    · rename_i declaration hdeclared
      have hregistered := (numbered_finalState hwf h).rootClosure graph entry hentry
      obtain ⟨origin, horigin, hsymbol, hsome⟩ :=
        hregistered.assumption (by rw [hdeclared, Option.isSome_some])
      rw [← Option.some.inj hfact, resolvedAssumptionOf, ← hsymbol]
      exact constant_of_elaborate hwf h horigin hsome
    · cases hfact

end Accepted

/-! ### A module with a temporal definition -/

def sampleDefinition (name : String) (line : Nat) (body : Expression) : Declaration :=
  .operator
    { name
      nameRange := lineRange line
      fixity := .functional
      parameters := []
      body
      range := lineRange line }

def sampleRef (spelling : String) (line : Nat) : OperatorRef :=
  { qualifier := none, spelling, range := lineRange line }

/-- `Next` primes the variable, `Always` is temporal, and the assumption is constant. -/
def temporalGraph : ResolvedModuleGraph :=
  { root := ⟨"R"⟩
    nodes := [
      sampleNode "R"
        "---- MODULE R ----\nVARIABLE x\nNext == x'\nAlways == []Next\nASSUME TRUE\n====\n"
        [.variable (lineRange 2) [⟨"x", lineRange 2⟩],
          sampleDefinition "Next" 3
            (.apply (sampleRef "'" 3) [.name (sampleRef "x" 3) (lineRange 3)] (lineRange 3)),
          sampleDefinition "Always" 4
            (.apply (sampleRef "[]" 4) [.name (sampleRef "Next" 4) (lineRange 4)] (lineRange 4)),
          .assumption
            { kind := .assume
              name := none
              body := .boolean true (lineRange 5)
              range := lineRange 5 }]]
    edges := [] }

theorem acyclic_temporalGraph : Acyclic temporalGraph := acyclic_of_rank (fun _ => 0) (by decide)

theorem levels_settle_temporal :
    AtRest (levelsStart .default {} temporalGraph)
      (levelBudget (levelsStart .default {} temporalGraph)) := by
  have hsilent : (levelsStart .default {} temporalGraph).buffer.hasErrors = false := by
    decide +kernel
  exact levels_settle acyclic_temporalGraph hsilent

theorem elaborate_temporalGraph :
    elaborate .default {} temporalGraph =
      .ok (assemble temporalGraph (finalState .default {} temporalGraph)) := by
  have hsilent : (finalState .default {} temporalGraph).buffer.hasErrors = false := by
    decide +kernel
  exact elaborate_of_silent hsilent

theorem levels_of_elaborate_temporal :
    (assemble temporalGraph (finalState .default {} temporalGraph)).operators.map
        (fun operator => (operator.name, operator.level)) =
      [("Next", .action), ("Always", .temporal)] ∧
      Levelled (finalState .default {} temporalGraph)
        (assemble temporalGraph (finalState .default {} temporalGraph)) :=
  ⟨by decide +kernel, levels_of_elaborate acyclic_temporalGraph elaborate_temporalGraph⟩

end MirrorsCore.Tla
