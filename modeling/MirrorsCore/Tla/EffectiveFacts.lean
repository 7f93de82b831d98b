import Mathlib
import MirrorsCore.Tla.Closures

/-! When `elaborate` publishes the effective variables: exactly when every module on
the way to one of them passes it on, and at most one of them has no name. -/

namespace MirrorsCore.Tla
open MirrorsCore.Lib
open ImportSystem (effective reached exports exports_eq passes passes_eq mem_fst_gather_edges
  passes_of_reached mem_effective_of_reached nodup_reached reached_eq_effective_iff)

section Run
variable {profile : LanguageProfile} {limits : ElaborationLimits} {graph : ResolvedModuleGraph}
  {facts : ElaboratedModule}

def finalState (profile : LanguageProfile) (limits : ElaborationLimits)
    (graph : ResolvedModuleGraph) : ElabState :=
  after (elaborateCore profile graph) (initialState limits graph)

theorem elaborate_eq_ok (h : elaborate profile limits graph = .ok facts) :
    facts = assemble graph (finalState profile limits graph) ∧
      Silent (finalState profile limits graph) := by
  rw [elaborate] at h
  split at h
  · exact absurd h (by simp)
  · rename_i herrors
    exact ⟨(Except.ok.inj h).symm, Bool.eq_false_iff.mpr herrors⟩

theorem elaborate_of_silent (h : Silent (finalState profile limits graph)) :
    elaborate profile limits graph = .ok (assemble graph (finalState profile limits graph)) :=
  if_neg (Bool.eq_false_iff.mp h)

def laterStages (profile : LanguageProfile) (graph : ResolvedModuleGraph) : ElabM Unit := do
  whenNotDone checkInstances
  whenNotDone (resolveGraph profile graph)
  whenNotDone computeLevels
  whenNotDone checkSubstitutionLevels
  whenNotDone checkAssumptions

theorem quiet_laterStages (profile : LanguageProfile) (graph : ResolvedModuleGraph) :
    Steps Quiet (laterStages profile graph) :=
  (Steps.whenNotDone quiet_checkInstances).bind fun _ =>
    (Steps.whenNotDone (quiet_resolveGraph profile graph)).bind fun _ =>
      (Steps.whenNotDone quiet_computeLevels).bind fun _ =>
        (Steps.whenNotDone quiet_checkSubstitutionLevels).bind fun _ =>
          Steps.whenNotDone quiet_checkAssumptions

theorem after_whenNotDone {s : ElabState} (hs : s.Clean) (action : ElabM Unit) :
    after (whenNotDone action) s = after action s := by
  rw [whenNotDone, after_bind, stageDone, after_bind, value_bind, value_get, after_get,
    after_pure, value_pure, hs.not_failed]
  rfl

theorem closed_of_elaborate (hwf : Acyclic graph)
    (h : elaborate profile limits graph = .ok facts) :
    Closing graph hwf (finalState profile limits graph) ∧
      ∀ node ∈ graph.nodes, ∃ memo ∈ (finalState profile limits graph).closures,
        memo.1 = node.name := by
  obtain ⟨-, hsilent⟩ := elaborate_eq_ok h
  have hinitial : (initialState limits graph).Sound := ⟨Bool.noConfusion, Bool.noConfusion⟩
  have htabulated := unmemoized_tabulateGraph graph (initialState limits graph)
  have hcomputed := Steps.whenNotDone (settled_computeClosures hwf)
    (after (tabulateGraph graph) (initialState limits graph))
  have hlater : Quiet (after (whenNotDone (computeClosures graph))
      (after (tabulateGraph graph) (initialState limits graph)))
      (finalState profile limits graph) := quiet_laterStages profile graph _
  have hsilentComputed := hlater.toLater.silent hsilent
  have hsilentTabulated := hcomputed.toLater.silent hsilentComputed
  have hsound := htabulated.sound hinitial
  have hstart : Closing graph hwf (after (tabulateGraph graph) (initialState limits graph)) := by
    refine ⟨hsound, tabulateGraph_silent hinitial rfl hsilentTabulated, ?_⟩
    rw [htabulated.closures]
    exact fun memo hmemo => absurd hmemo List.not_mem_nil
  rw [after_whenNotDone ⟨hsound, hsilentTabulated⟩] at hsilentComputed hlater
  obtain ⟨hclosing, hmemos⟩ := computeClosures_silent hstart hsilentComputed
  rw [← hlater.closures] at hmemos
  exact ⟨hclosing.quiet hlater, hmemos⟩

theorem gathered_of_elaborate (hwf : Acyclic graph)
    (h : elaborate profile limits graph = .ok facts) :
    Closing graph hwf (finalState profile limits graph) ∧
      Gathered graph (finalState profile limits graph).tables graph.root
        (reached hwf graph.root) (rootClosure graph (finalState profile limits graph)).entries := by
  obtain ⟨hclosed, hmemos⟩ := closed_of_elaborate hwf h
  exact ⟨hclosed, rootClosure_gathered hclosed hmemos⟩

theorem filterMap_variableFact? (entries : List ClosureEntry) :
    entries.filterMap variableFact? =
      (entries.filter fun entry => entry.info.isVariable).map resolvedVariableOf := by
  induction entries with
  | nil => rfl
  | cons entry entries ih =>
    rw [List.filterMap_cons, List.filter_cons, ih, SymbolInfo.isVariable, variableFact?]
    cases entry.info.kind <;> rfl

theorem mem_constants {entries : List ClosureEntry} {resolved : ResolvedConstant}
    (h : resolved ∈ entries.filterMap constantFact?) :
    ∃ entry ∈ entries, entry.info.kind = .constant ∧
      resolved.declaredIn = entry.info.declaredIn := by
  obtain ⟨entry, hentry, hresolved⟩ := List.mem_filterMap.mp h
  rw [constantFact?] at hresolved
  split at hresolved
  · rename_i hkind
    exact ⟨entry, hentry, hkind, congrArg _ (Option.some.inj hresolved).symm⟩
  · exact absurd hresolved (by simp)

theorem variables_of_elaborate (hwf : Acyclic graph)
    (h : elaborate profile limits graph = .ok facts) :
    facts.«variables» = (reached hwf graph.root).map fun o => resolvedVariableOf
      (variableEntry graph (finalState profile limits graph).tables graph.root o) := by
  obtain ⟨-, hgathered⟩ := gathered_of_elaborate hwf h
  rw [(elaborate_eq_ok h).1, assemble]
  dsimp only
  rw [filterMap_variableFact?, hgathered.«variables», List.map_map]
  rfl

theorem published_variableEntry (graph : ResolvedModuleGraph) (tables : List ModuleTable)
    (root : ModuleName) (o : VariableOccurrence) :
    (resolvedVariableOf (variableEntry graph tables root o)).published =
      publishedOccurrence root o := by
  obtain ⟨_, _, heq⟩ := infoOf_eq tables o.1
  rw [variableEntry, heq]
  rfl

theorem published_of_elaborate (hwf : Acyclic graph)
    (h : elaborate profile limits graph = .ok facts) :
    facts.«variables».map ResolvedVariable.published =
      (reached hwf graph.root).map (publishedOccurrence graph.root) := by
  rw [variables_of_elaborate hwf h, List.map_map]
  exact List.map_congr_left fun o _ => published_variableEntry graph _ graph.root o

theorem visibleNames_of_elaborate (hwf : Acyclic graph)
    (h : elaborate profile limits graph = .ok facts) :
    facts.«variables».map (fun resolved => resolved.visibleName) =
      (reached hwf graph.root).map fun o => o.1.name := by
  rw [variables_of_elaborate hwf h, List.map_map]
  exact List.map_congr_left fun o _ => variableEntry_name graph _ graph.root o

theorem nodup_symbols_of_elaborate (hwf : Acyclic graph)
    (h : elaborate profile limits graph = .ok facts) :
    (facts.«variables».map fun resolved => resolved.symbol).Nodup := by
  obtain ⟨hclosing, hgathered⟩ := gathered_of_elaborate hwf h
  rw [variables_of_elaborate hwf h, List.map_map]
  refine List.Nodup.map_on (fun o ho o' ho' hsymbol => ?_) (nodup_reached hwf graph.root).of_map
  have hsame := hclosing.nodes.infoOf_injective (hgathered.declared o ho)
    (hgathered.declared o' ho') hsymbol
  exact eq_of_key_eq (nodup_reached hwf graph.root) ho ho' hsame

/-- Two reached variables with one name have no name. -/
theorem eq_of_name_eq (hwf : Acyclic graph) (h : elaborate profile limits graph = .ok facts)
    {o o' : VariableOccurrence} (ho : o ∈ reached hwf graph.root)
    (ho' : o' ∈ reached hwf graph.root) (hname : o.1.name = o'.1.name) (hne : o.1.name ≠ "") :
    o = o' := by
  obtain ⟨hclosing, hgathered⟩ := gathered_of_elaborate hwf h
  have hmem : ∀ o ∈ reached hwf graph.root, o.1.name ≠ "" →
      variableEntry graph (finalState profile limits graph).tables graph.root o ∈
        (rootClosure graph (finalState profile limits graph)).entries.filter
          fun entry => !entry.info.name.isEmpty := by
    intro o ho hne
    have hin := List.mem_map_of_mem
      (f := variableEntry graph (finalState profile limits graph).tables graph.root) ho
    rw [← hgathered.«variables»] at hin
    refine List.mem_filter.mpr ⟨List.mem_of_mem_filter hin, ?_⟩
    rw [variableEntry_name, Bool.not_eq_true', ← Bool.not_eq_true, String.isEmpty_iff]
    exact hne
  have hentries := List.inj_on_of_nodup_map hgathered.names (hmem o ho hne)
    (hmem o' ho' (hname ▸ hne)) (by rw [variableEntry_name, variableEntry_name, hname])
  have hsymbol := congrArg (fun entry : ClosureEntry => entry.info.symbol) hentries
  have hsame := hclosing.nodes.infoOf_injective (hgathered.declared o ho)
    (hgathered.declared o' ho') hsymbol
  exact eq_of_key_eq (nodup_reached hwf graph.root) ho ho' hsame

theorem reached_eq_effective_of_passedAlong (hwf : Acyclic graph) (h : PassedAlong graph hwf) :
    reached hwf graph.root = effective hwf graph.root :=
  (reached_eq_effective_iff hwf (nodup_capturedEdges graph) (nodup_declaredVariables graph)
    graph.root).mpr h

/-- Published names that are distinct tell the effective variables apart, so the
published paths are those that were reached. -/
theorem passedAlong_of_effectiveFacts (hwf : Acyclic graph)
    (h : elaborate profile limits graph = .ok facts) (hfacts : EffectiveFacts graph hwf facts) :
    PassedAlong graph hwf := by
  have hpublished := hfacts.published
  rw [published_of_elaborate hwf h] at hpublished
  have hnames : ((effective hwf graph.root).map fun o => o.1.name).Nodup := by
    have hreached := hfacts.visibleNames
    rw [visibleNames_of_elaborate hwf h] at hreached
    have hsame := congrArg (List.map PublishedVariable.visibleName) hpublished
    rw [List.map_map, List.map_map] at hsame
    exact hsame ▸ hreached
  intro o ho edge hedge
  obtain ⟨o', ho', heq⟩ : ∃ o' ∈ reached hwf graph.root,
      publishedOccurrence graph.root o' = publishedOccurrence graph.root o := by
    refine List.mem_map.mp ?_
    rw [hpublished]
    exact List.mem_map_of_mem ho
  obtain ⟨o'', ho'', hvariable⟩ := List.mem_map.mp
    (mem_effective_of_reached hwf (List.mem_map_of_mem (f := Prod.fst) ho'))
  have hsame : o'' = o := by
    refine List.inj_on_of_nodup_map hnames ho'' ho ?_
    rw [hvariable]
    exact congrArg PublishedVariable.visibleName heq
  have hpath : o'.2.map (fun edge => edge.1.dependency) =
      o.2.map fun edge => edge.1.dependency :=
    (List.cons.inj (congrArg PublishedVariable.importPath heq)).2
  obtain ⟨edge', hedge', htarget⟩ := List.mem_map.mp
    (hpath ▸ List.mem_map_of_mem (f := fun edge : ModuleEdge × Nat => edge.1.dependency) hedge)
  have hpasses := passes_of_reached hwf (show (o'.1, o'.2) ∈ reached hwf graph.root from ho')
    edge' hedge'
  rw [← hsame, hvariable, ← htarget]
  exact hpasses

theorem oneUnnamed_of_effectiveFacts (hwf : Acyclic graph)
    (h : elaborate profile limits graph = .ok facts) (hfacts : EffectiveFacts graph hwf facts) :
    OneUnnamed graph hwf := by
  have hnames := hfacts.visibleNames
  rw [visibleNames_of_elaborate hwf h,
    reached_eq_effective_of_passedAlong hwf (passedAlong_of_effectiveFacts hwf h hfacts)] at hnames
  intro o ho o' ho' hname hname'
  exact List.inj_on_of_nodup_map hnames ho ho' (hname.trans hname'.symm)

theorem effectiveFacts_of_passedAlong (hwf : Acyclic graph)
    (h : elaborate profile limits graph = .ok facts) (hpassed : PassedAlong graph hwf)
    (hunnamed : OneUnnamed graph hwf) : EffectiveFacts graph hwf facts := by
  obtain ⟨-, hgathered⟩ := gathered_of_elaborate hwf h
  have heffective := reached_eq_effective_of_passedAlong hwf hpassed
  refine ⟨heffective ▸ published_of_elaborate hwf h, nodup_symbols_of_elaborate hwf h, ?_, ?_, ?_⟩
  · rw [visibleNames_of_elaborate hwf h]
    refine List.Nodup.map_on (fun o ho o' ho' hname => ?_) (nodup_reached hwf graph.root).of_map
    rcases eq_or_ne o.1.name "" with hempty | hne
    · rw [heffective] at ho ho'
      exact hunnamed o ho o' ho' hempty (hname ▸ hempty)
    · exact eq_of_name_eq hwf h ho ho' hname hne
  · intro resolved hresolved
    rw [variables_of_elaborate hwf h] at hresolved
    obtain ⟨o, ho, rfl⟩ := List.mem_map.mp hresolved
    have hin := List.mem_map_of_mem
      (f := variableEntry graph (finalState profile limits graph).tables graph.root) ho
    rw [← hgathered.«variables»] at hin
    obtain ⟨hmem, hvariable⟩ := List.mem_filter.mp hin
    exact hgathered.origins _ hmem (Or.inr (eq_of_beq hvariable))
  · intro resolved hresolved
    rw [(elaborate_eq_ok h).1, assemble] at hresolved
    obtain ⟨entry, hentry, hkind, hdeclared⟩ := mem_constants hresolved
    rw [hdeclared]
    exact hgathered.origins entry hentry (Or.inl hkind)

/-- `elaborate` publishes the effective variables exactly when every module on the
way to one of them passes it on and at most one of them is unnamed. -/
theorem effectiveFacts_iff (hwf : Acyclic graph)
    (h : elaborate profile limits graph = .ok facts) :
    EffectiveFacts graph hwf facts ↔ PassedAlong graph hwf ∧ OneUnnamed graph hwf := by
  constructor
  · intro hfacts
    exact ⟨passedAlong_of_effectiveFacts hwf h hfacts, oneUnnamed_of_effectiveFacts hwf h hfacts⟩
  · rintro ⟨hpassed, hunnamed⟩
    exact effectiveFacts_of_passedAlong hwf h hpassed hunnamed

end Run

/-! ### A hidden import that comes first -/

def lineRange (line : Nat) : SourceRange :=
  { start := ⟨0, line, 1⟩, stop := ⟨0, line, 1⟩ }

def sampleNode (name text : String) (declarations : List Declaration) : ModuleNode :=
  { name := ⟨name⟩
    logicalPath := name ++ ".tla"
    unit :=
      { logicalPath := name ++ ".tla"
        normalizedText := text
        normalizedUtf8 := text.toUTF8
        contentSha256 := "" }
    module := { name := ⟨name⟩, declarations, range := lineRange 1 } }

def sampleEdge (owner dependency : String) (isLocal : Bool) (line : Nat) : ModuleEdge :=
  { owner := ⟨owner⟩
    dependency := ⟨dependency⟩
    kind := .extendsModule
    resolution := .localSource
    isLocal
    substitutions := []
    range := lineRange line
    declarationOrder := line }

/-- `A` extends `B`, which declares `x`, first under `LOCAL` and then publicly
through `C`. -/
def hiddenFirstGraph : ResolvedModuleGraph :=
  { root := ⟨"R"⟩
    nodes := [
      sampleNode "R" "---- MODULE R ----\nEXTENDS A\n====\n" [],
      sampleNode "A" "---- MODULE A ----\nLOCAL EXTENDS B\nEXTENDS C\n====\n" [],
      sampleNode "B" "---- MODULE B ----\nVARIABLE x\n====\n"
        [.variable (lineRange 2) [⟨"x", lineRange 2⟩]],
      sampleNode "C" "---- MODULE C ----\nEXTENDS B\n====\n" []]
    edges := [
      sampleEdge "R" "A" false 2,
      sampleEdge "A" "B" true 2,
      sampleEdge "A" "C" false 3,
      sampleEdge "C" "B" false 2] }

theorem acyclic_hiddenFirstGraph : Acyclic hiddenFirstGraph :=
  acyclic_of_rank (fun name => if name.name = "R" then 3 else if name.name = "A" then 2 else
    if name.name = "C" then 1 else 0) (by decide)

theorem elaborate_hiddenFirstGraph :
    elaborate .default {} hiddenFirstGraph =
      .ok (assemble hiddenFirstGraph (finalState .default {} hiddenFirstGraph)) := by
  have hsilent : (finalState .default {} hiddenFirstGraph).buffer.hasErrors = false := by
    decide +kernel
  exact elaborate_of_silent hsilent

theorem x_mem_effective : ⟨⟨"B"⟩, 0, "x", lineRange 2, false⟩ ∈
    (effective acyclic_hiddenFirstGraph hiddenFirstGraph.root).map Prod.fst := by
  have hB : ⟨⟨"B"⟩, 0, "x", lineRange 2, false⟩ ∈
      (exports acyclic_hiddenFirstGraph ⟨"B"⟩).map Prod.fst := by
    rw [exports_eq, mem_fst_gather_edges]
    exact Or.inr List.mem_cons_self
  have hC : ⟨⟨"B"⟩, 0, "x", lineRange 2, false⟩ ∈
      (exports acyclic_hiddenFirstGraph ⟨"C"⟩).map Prod.fst := by
    rw [exports_eq, mem_fst_gather_edges]
    exact Or.inl ⟨(sampleEdge "C" "B" false 2, 0), List.mem_cons_self, hB⟩
  have hA : ⟨⟨"B"⟩, 0, "x", lineRange 2, false⟩ ∈
      (exports acyclic_hiddenFirstGraph ⟨"A"⟩).map Prod.fst := by
    rw [exports_eq, mem_fst_gather_edges]
    exact Or.inl ⟨(sampleEdge "A" "C" false 3, 1), List.mem_cons_self, hC⟩
  rw [effective, mem_fst_gather_edges]
  exact Or.inl ⟨(sampleEdge "R" "A" false 2, 0), List.mem_cons_self, hA⟩

/-- The hidden import decides for both: `x` is lost at the root. -/
theorem hiddenFirst_loses_variable : ∃ (hwf : Acyclic hiddenFirstGraph) (facts : ElaboratedModule),
    elaborate .default {} hiddenFirstGraph = .ok facts ∧
      ¬ EffectiveFacts hiddenFirstGraph hwf facts := by
  refine ⟨acyclic_hiddenFirstGraph, _, elaborate_hiddenFirstGraph, fun hfacts => ?_⟩
  have hnone : (assemble hiddenFirstGraph
      (finalState .default {} hiddenFirstGraph)).«variables» = [] := by decide +kernel
  have hpublished := hfacts.published
  rw [hnone] at hpublished
  have hempty := List.map_eq_nil_iff.mp hpublished.symm
  have hmem := x_mem_effective
  rw [hempty] at hmem
  exact absurd hmem List.not_mem_nil

/-- `effectiveFacts_iff` at this graph. -/
theorem effectiveFacts_iff_at_hiddenFirst :
    EffectiveFacts hiddenFirstGraph acyclic_hiddenFirstGraph
        (assemble hiddenFirstGraph (finalState .default {} hiddenFirstGraph)) ↔
      PassedAlong hiddenFirstGraph acyclic_hiddenFirstGraph ∧
        OneUnnamed hiddenFirstGraph acyclic_hiddenFirstGraph :=
  effectiveFacts_iff acyclic_hiddenFirstGraph elaborate_hiddenFirstGraph

/-! ### The same imports in the other order -/

def openFirstGraph : ResolvedModuleGraph :=
  { hiddenFirstGraph with
    edges := [
      sampleEdge "R" "A" false 2,
      sampleEdge "A" "C" false 2,
      sampleEdge "A" "B" true 3,
      sampleEdge "C" "B" false 2] }

def sampleVariable : DeclaredVariable := ⟨⟨"B"⟩, 0, "x", lineRange 2, false⟩

theorem acyclic_openFirstGraph : Acyclic openFirstGraph :=
  acyclic_of_rank (fun name => if name.name = "R" then 3 else if name.name = "A" then 2 else
    if name.name = "C" then 1 else 0) (by decide)

theorem passes_of_first {graph : ResolvedModuleGraph} {hwf : Acyclic graph} {name : ModuleName}
    {v : DeclaredVariable} {edge : ModuleEdge × Nat} {rest : List (ModuleEdge × Nat)}
    (hedges : capturedEdges graph name = edge :: rest)
    (h : passes hwf edge.1.dependency v = true) : passes hwf name v = !edge.1.isLocal := by
  rw [passes_eq]
  change (List.find? (fun e : ModuleEdge × Nat => passes hwf e.1.dependency v)
    (capturedEdges graph name)).elim _ _ = _
  rw [hedges, List.find?_cons_of_pos (p := fun e : ModuleEdge × Nat =>
    passes hwf e.1.dependency v) h]
  rfl

theorem passes_openFirstGraph (name : String) (h : name ∈ ["A", "B", "C"]) :
    passes acyclic_openFirstGraph ⟨name⟩ sampleVariable = true := by
  have hB : passes acyclic_openFirstGraph ⟨"B"⟩ sampleVariable = true := by
    rw [passes_eq]
    rfl
  have hC : passes acyclic_openFirstGraph ⟨"C"⟩ sampleVariable = true :=
    passes_of_first (show capturedEdges openFirstGraph ⟨"C"⟩ =
      (sampleEdge "C" "B" false 2, 0) :: [] from rfl) hB
  have hA : passes acyclic_openFirstGraph ⟨"A"⟩ sampleVariable = true :=
    passes_of_first (show capturedEdges openFirstGraph ⟨"A"⟩ =
      (sampleEdge "A" "C" false 2, 0) :: [(sampleEdge "A" "B" true 3, 1)] from rfl) hC
  simp only [List.mem_cons, List.not_mem_nil, or_false] at h
  rcases h with rfl | rfl | rfl
  · exact hA
  · exact hB
  · exact hC

theorem effective_openFirstGraph : effective acyclic_openFirstGraph ⟨"R"⟩ =
    [(sampleVariable, [(sampleEdge "R" "A" false 2, 0), (sampleEdge "A" "C" false 2, 0),
      (sampleEdge "C" "B" false 2, 0)])] := by
  have hB : exports acyclic_openFirstGraph ⟨"B"⟩ = [(sampleVariable, [])] := by
    rw [exports_eq]
    rfl
  have hC : exports acyclic_openFirstGraph ⟨"C"⟩ =
      [(sampleVariable, [(sampleEdge "C" "B" false 2, 0)])] := by
    rw [exports_eq]
    change gather [((sampleEdge "C" "B" false 2, 0), exports acyclic_openFirstGraph ⟨"B"⟩)] [] = _
    rw [hB]
    rfl
  have hA : exports acyclic_openFirstGraph ⟨"A"⟩ =
      [(sampleVariable, [(sampleEdge "A" "C" false 2, 0), (sampleEdge "C" "B" false 2, 0)])] := by
    rw [exports_eq]
    change gather [((sampleEdge "A" "C" false 2, 0), exports acyclic_openFirstGraph ⟨"C"⟩)] [] = _
    rw [hC]
    rfl
  change gather [((sampleEdge "R" "A" false 2, 0), exports acyclic_openFirstGraph ⟨"A"⟩)] [] = _
  rw [hA]
  rfl

/-- The open import decides for both: `x` is passed along, and published. -/
example : EffectiveFacts openFirstGraph acyclic_openFirstGraph
    (assemble openFirstGraph (finalState .default {} openFirstGraph)) := by
  have hsilent : (finalState .default {} openFirstGraph).buffer.hasErrors = false := by
    decide +kernel
  refine effectiveFacts_of_passedAlong _ (elaborate_of_silent hsilent) ?_ ?_
  · intro o ho edge hedge
    rw [show openFirstGraph.root = ⟨"R"⟩ from rfl, effective_openFirstGraph] at ho
    obtain rfl := List.mem_singleton.1 ho
    apply passes_openFirstGraph edge.1.dependency.name
    revert edge
    decide
  · intro o ho o' ho' hname
    rw [show openFirstGraph.root = ⟨"R"⟩ from rfl, effective_openFirstGraph] at ho
    obtain rfl := List.mem_singleton.1 ho
    exact absurd hname (by decide)

end MirrorsCore.Tla
