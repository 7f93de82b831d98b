import Mathlib
import MirrorsCore.Tla.Gathering

/-! The memoized closure computation gathers, for every module, the variables that
`reached` gives: each keeps the status of the import that brought it first. -/

namespace MirrorsCore.Tla
open MirrorsCore.Lib
open ImportSystem (reached reached_eq passedOn)

theorem settled_of_quiet {α : Type} {m : ElabM α} (h : Steps Quiet m) : Steps Settled m :=
  fun s => (h s).toSettled

theorem TabulatedNodes.settled {graph : ResolvedModuleGraph} {nodes : List ModuleNode}
    {s t : ElabState} (h : TabulatedNodes graph nodes s) (hst : Settled s t) :
    TabulatedNodes graph nodes t where
  tables := hst.tables ▸ h.tables
  symbols := hst.tables ▸ h.symbols
  bounds := by
    rw [hst.tables]
    exact fun entry hentry => (h.bounds entry hentry).trans_le hst.symbols

/-- The states of the closure stage: every memo holds what is reached. -/
structure Closing (graph : ResolvedModuleGraph) (hwf : Acyclic graph) (s : ElabState) : Prop where
  sound : s.Sound
  nodes : TabulatedNodes graph graph.nodes s
  closures : ∀ memo ∈ s.closures,
    Gathered graph s.tables memo.1 (reached hwf memo.1) memo.2.entries

theorem Closing.quiet {graph : ResolvedModuleGraph} {hwf : Acyclic graph} {s t : ElabState}
    (h : Closing graph hwf s) (hst : Quiet s t) : Closing graph hwf t where
  sound := hst.sound h.sound
  nodes := h.nodes.settled hst.toSettled
  closures := by
    rw [hst.closures, hst.tables]
    exact h.closures

theorem Closing.fresh {graph : ResolvedModuleGraph} {hwf : Acyclic graph} {s : ElabState}
    (h : Closing graph hwf s) {v : DeclaredVariable} (hv : Declared graph v) :
    s.nextSymbol ≠ (infoOf s.tables v).symbol :=
  (h.nodes.bounds _ (h.nodes.infoOf_mem hv)).ne'

/-- What the recursive call has to do. -/
structure Closes (graph : ResolvedModuleGraph) (hwf : Acyclic graph)
    (closure : ModuleName → ElabM ClosureResult) : Prop where
  settled : ∀ name, Steps Settled (closure name)
  gathers : ∀ {name s}, Closing graph hwf s → Silent (after (closure name) s) →
    Closing graph hwf (after (closure name) s) ∧
      Gathered graph s.tables name (reached hwf name) (value (closure name) s).entries

/-! ### Imports -/

def importedEntries (name : ModuleName) (edge : ModuleEdge) (nested : List ClosureEntry) :
    List ClosureEntry :=
  (nested.filter fun entry => !entry.info.localDeclaration).map (importedEntry name edge)

theorem foldlM_imported (name : ModuleName) (edge : ModuleEdge)
    (nested entries : List ClosureEntry) :
    nested.foldlM (fun entries nestedEntry =>
        if !nestedEntry.info.localDeclaration then
          mergeEntry entries (importedEntry name edge nestedEntry)
        else pure entries) entries =
      (importedEntries name edge nested).foldlM mergeEntry entries := by
  induction nested generalizing entries with
  | nil => rfl
  | cons entry nested ih =>
    rw [List.foldlM_cons, importedEntries]
    cases hlocal : entry.info.localDeclaration with
    | true =>
      rw [if_neg (by simp), List.filter_cons_of_neg (by simp [hlocal]), pure_bind]
      exact ih entries
    | false =>
      rw [if_pos (by simp), List.filter_cons_of_pos (by simp [hlocal]), List.map_cons,
        List.foldlM_cons]
      exact congrArg _ (funext ih)

theorem settled_extendEdge {closure : ModuleName → ElabM ClosureResult}
    (hclosure : ∀ name, Steps Settled (closure name)) (name : ModuleName)
    (result : ClosureResult) (edge : ModuleEdge) :
    Steps Settled (extendEdge closure name result edge) := by
  refine steps_get.bind fun current => ?_
  split
  · exact steps_pure _
  split
  · exact steps_pure _
  refine (hclosure edge.dependency).bind fun nested => ?_
  rw [foldlM_imported]
  exact (settled_of_quiet (steps_foldlM (fun _ _ _ => quiet_mergeEntry _ _) _)).bind
    fun _ => steps_pure _

section Graph
variable {graph : ResolvedModuleGraph} {hwf : Acyclic graph} {s : ElabState}
  {name : ModuleName} {os : List VariableOccurrence}

theorem importedEntry_variableEntry (tables : List ModuleTable) (edge : ModuleEdge) (i : Nat)
    (o : VariableOccurrence) :
    importedEntry name edge (variableEntry graph tables edge.dependency o) =
      variableEntry graph tables name (extend (edge, i) o) := by
  have hlocal : (!(importSystem graph).reexported (extend (edge, i) o)) = edge.isLocal :=
    Bool.not_not _
  have hright : variableEntry graph tables name (extend (edge, i) o) =
      { info := { infoOf tables o.1 with localDeclaration := edge.isLocal }
        importPath := name :: edge.dependency :: o.2.map fun edge => edge.1.dependency } := by
    rw [← hlocal]
    rfl
  rw [hright]
  rfl

theorem filter_importedEntries {tables : List ModuleTable} {edge : ModuleEdge} {i : Nat}
    {nested : List ClosureEntry} {arriving : List VariableOccurrence}
    (h : nested.filter (fun entry => entry.info.isVariable) =
      arriving.map (variableEntry graph tables edge.dependency)) :
    (importedEntries name edge nested).filter (fun entry => entry.info.isVariable) =
      ((arriving.filter (importSystem graph).reexported).map (extend (edge, i))).map
        (variableEntry graph tables name) := by
  calc (importedEntries name edge nested).filter (fun entry => entry.info.isVariable)
      = ((nested.filter fun entry => entry.info.isVariable).filter
          fun entry => !entry.info.localDeclaration).map (importedEntry name edge) := by
        rw [importedEntries, List.filter_map, List.filter_filter, List.filter_filter]
        refine congrArg _ (List.filter_congr fun entry _ => Bool.and_comm _ _)
    _ = ((arriving.filter (importSystem graph).reexported).map
          (variableEntry graph tables edge.dependency)).map (importedEntry name edge) := by
        rw [h, List.filter_map]
        refine congrArg _ (congrArg _ (List.filter_congr fun o _ => ?_))
        exact Bool.not_not _
    _ = _ := by
        rw [List.map_map, List.map_map]
        exact List.map_congr_left fun o _ => importedEntry_variableEntry tables edge i o

theorem extendEdge_captured {closure : ModuleName → ElabM ClosureResult}
    (hclosure : Closes graph hwf closure) (hs : Closing graph hwf s) {result : ClosureResult}
    (h : Gathered graph s.tables name os result.entries) {edge : ModuleEdge} {i : Nat}
    (hedge : (edge, i) ∈ capturedEdges graph name)
    (hsilent : Silent (after (extendEdge closure name result edge) s)) :
    Closing graph hwf (after (extendEdge closure name result edge) s) ∧
      Gathered graph s.tables name
        (insertAll Prod.fst os ((passedOn hwf edge.dependency).map (extend (edge, i))))
        (value (extendEdge closure name result edge) s).entries := by
  have himports : (importSystem graph).Imports edge.dependency name := ⟨(edge, i), hedge, rfl⟩
  have hhalted : s.halted = false := ElabState.Clean.not_halted
    ⟨hs.sound, (settled_extendEdge hclosure.settled name result edge s).toLater.silent hsilent⟩
  obtain ⟨table, htable⟩ : ∃ table,
      s.tables.find? (fun other => other.name == edge.dependency) = some table := by
    rcases hs.nodes.find? edge.dependency with ⟨hnone, -⟩ | ⟨_, table, -, htable, -⟩
    · have hsome := exists_node_of_imports himports
      rw [hnone] at hsome
      exact Bool.noConfusion hsome
    · exact ⟨table, htable⟩
  rw [extendEdge] at hsilent ⊢
  rw [after_bind, value_get, after_get, if_neg (by simp [hhalted]), htable] at hsilent ⊢
  rw [value_bind, value_get, after_get, if_neg (by simp [hhalted]), htable]
  dsimp only at hsilent ⊢
  simp only [foldlM_imported] at hsilent ⊢
  rw [after_bind] at hsilent ⊢
  rw [value_bind]
  have hrest : ∀ nested : ClosureResult, Steps Quiet (do
      let entries ← (importedEntries name edge nested.entries).foldlM mergeEntry result.entries
      pure (inheritStandards edge nested { result with entries })) := fun nested =>
    (steps_foldlM (fun _ _ _ => quiet_mergeEntry _ _) _).bind fun _ => steps_pure _
  have hquiet := hrest (value (closure edge.dependency) s) (after (closure edge.dependency) s)
  -- The closure of the target is computed, and then what passes the edge is merged.
  obtain ⟨hclosing, hnested⟩ := hclosure.gathers hs (hquiet.toLater.silent hsilent)
  have htables : (after (closure edge.dependency) s).tables = s.tables :=
    (hclosure.settled edge.dependency s).tables
  rw [← htables] at h hnested
  have hothers : ∀ entry ∈ importedEntries name edge
      (value (closure edge.dependency) s).entries, ∃ inner ∈
        (value (closure edge.dependency) s).entries, entry = importedEntry name edge inner := by
    intro entry hentry
    obtain ⟨inner, hinner, rfl⟩ := List.mem_map.mp hentry
    exact ⟨inner, List.mem_of_mem_filter hinner, rfl⟩
  obtain ⟨hafter, hgathered⟩ := h.mergeAll hclosing.sound hclosing.nodes
    (filter_importedEntries (i := i) hnested.«variables»)
    (fun o ho => by
      obtain ⟨inner, hinner, rfl⟩ := List.mem_map.mp ho
      exact hnested.declared inner (List.mem_of_mem_filter hinner))
    (fun entry hentry hvariable => by
      obtain ⟨inner, hinner, rfl⟩ := hothers entry hentry
      exact hnested.others inner hinner hvariable)
    (fun entry hentry hkind => by
      obtain ⟨inner, hinner, rfl⟩ := hothers entry hentry
      exact Relation.ReflTransGen.head himports (hnested.origins inner hinner hkind))
    hsilent
  refine ⟨hclosing.quiet hquiet, ?_⟩
  rw [← htables]
  have hentries : ∀ (nested inner : ClosureResult),
      (inheritStandards edge nested inner).entries = inner.entries := by
    intro nested inner
    rw [inheritStandards]
    split <;> rfl
  rw [value_bind, value_pure, hentries]
  exact hgathered

theorem extendEdge_uncaptured (name : ModuleName) (closure : ModuleName → ElabM ClosureResult)
    {edge : ModuleEdge}
    (htables : s.tables.find? (fun other => other.name == edge.dependency) = none)
    (result : ClosureResult) :
    after (extendEdge closure name result edge) s = s ∧
      (value (extendEdge closure name result edge) s).entries = result.entries := by
  rw [extendEdge, after_bind, value_bind, value_get, after_get]
  split
  · exact ⟨rfl, rfl⟩
  rw [htables]
  refine ⟨rfl, ?_⟩
  rw [value_pure, extendStandard]
  split <;> rfl

noncomputable def broughtBy (hwf : Acyclic graph) (edges : List (ModuleEdge × Nat)) :
    List VariableOccurrence :=
  edges.flatMap fun edge => (passedOn hwf edge.1.dependency).map (extend edge)

theorem extendEdges_gathered {closure : ModuleName → ElabM ClosureResult}
    (hclosure : Closes graph hwf closure) {edges : List ModuleEdge} (first : Nat)
    (hedges : ∀ edge ∈ (edges.filter fun edge =>
      (graph.findNode? edge.dependency).isSome).zipIdx first, edge ∈ capturedEdges graph name)
    (hs : Closing graph hwf s) {result : ClosureResult}
    (h : Gathered graph s.tables name os result.entries)
    (hsilent : Silent (after (edges.foldlM (extendEdge closure name) result) s)) :
    Closing graph hwf (after (edges.foldlM (extendEdge closure name) result) s) ∧
      Gathered graph s.tables name
        (insertAll Prod.fst os (broughtBy hwf ((edges.filter fun edge =>
          (graph.findNode? edge.dependency).isSome).zipIdx first)))
        (value (edges.foldlM (extendEdge closure name) result) s).entries := by
  induction edges generalizing first s result os with
  | nil => exact ⟨hs, h⟩
  | cons edge edges ih =>
    rw [List.foldlM_cons, after_bind] at hsilent ⊢
    rw [value_bind]
    have hsettled := settled_extendEdge hclosure.settled name result edge s
    have hfirst : Silent (after (extendEdge closure name result edge) s) :=
      (steps_foldlM (R := Settled) (fun result edge _ =>
        settled_extendEdge hclosure.settled name result edge) _ _).toLater.silent hsilent
    rcases hs.nodes.find? edge.dependency with ⟨hnone, htable⟩ | ⟨node, _, hnode, -, -⟩
    · obtain ⟨hafter, hvalue⟩ := extendEdge_uncaptured name closure htable result
      rw [List.filter_cons_of_neg (by simp [hnone])] at hedges ⊢
      rw [hafter] at hsilent ⊢
      rw [← hvalue] at h
      exact ih first hedges hs h hsilent
    · rw [List.filter_cons_of_pos (by simp [hnode]), List.zipIdx_cons] at hedges ⊢
      obtain ⟨hhead, hrest⟩ := List.forall_mem_cons.mp hedges
      obtain ⟨hclosing, hgathered⟩ := extendEdge_captured hclosure hs h hhead hfirst
      rw [← hsettled.tables] at hgathered ⊢
      rw [broughtBy, List.flatMap_cons, insertAll_append]
      exact ih (first + 1) hrest hclosing hgathered hsilent

/-! ### Own declarations -/

def ownEntry (name : ModuleName) (entry : SymbolInfo) : ClosureEntry :=
  { info := entry, importPath := [name] }

theorem ownEntry_infoOf (tables : List ModuleTable) (v : DeclaredVariable) :
    ownEntry name (infoOf tables v) = variableEntry graph tables name (v, []) := by
  have hlocal : (infoOf tables v).localDeclaration = v.isLocal := by
    obtain ⟨_, _, heq⟩ := infoOf_eq tables v
    rw [heq]
    rfl
  have hreexported : (!(importSystem graph).reexported (v, [])) =
      (infoOf tables v).localDeclaration := (Bool.not_not _).trans hlocal.symm
  have hright : variableEntry graph tables name (v, []) =
      { info := { infoOf tables v with
          localDeclaration := (infoOf tables v).localDeclaration }
        importPath := [name] } := by
    rw [← hreexported]
    rfl
  rw [hright]
  rfl

theorem ownEntries_gathered (hs : Closing graph hwf s) {table : ModuleTable}
    (htable : s.tables.find? (fun table => table.name == name) = some table)
    {entries : List ClosureEntry} (h : Gathered graph s.tables name os entries)
    (hsilent : Silent (after ((table.entries.map (ownEntry name)).foldlM mergeEntry entries) s)) :
    after ((table.entries.map (ownEntry name)).foldlM mergeEntry entries) s = s ∧
      Gathered graph s.tables name
        (insertAll Prod.fst os ((declaredVariables graph name).map fun v => (v, [])))
        (value ((table.entries.map (ownEntry name)).foldlM mergeEntry entries) s) := by
  have hmem : ∀ entry ∈ table.entries, entry ∈ tableEntries s.tables := fun entry hentry =>
    List.mem_flatMap.mpr ⟨table, List.mem_of_find?_eq_some htable, hentry⟩
  refine h.mergeAll hs.sound hs.nodes ?_ ?_ ?_ ?_ hsilent
  · calc (table.entries.map (ownEntry name)).filter (fun entry => entry.info.isVariable)
        = (tableVariables table).map (ownEntry name) := by
          rw [List.filter_map]
          rfl
      _ = _ := by
          rw [hs.nodes.tableVariables_eq htable, List.map_map, List.map_map]
          exact List.map_congr_left fun v _ => ownEntry_infoOf s.tables v
  · intro o ho
    obtain ⟨v, hv, rfl⟩ := List.mem_map.mp ho
    have hin := mem_declaredVariables hv
    rwa [Declared, hin]
  · intro entry hentry hvariable v hv
    obtain ⟨info, hinfo, rfl⟩ := List.mem_map.mp hentry
    exact hs.nodes.symbol_ne (hmem info hinfo) hvariable hv
  · intro entry hentry _
    obtain ⟨info, hinfo, rfl⟩ := List.mem_map.mp hentry
    rcases hs.nodes.find? name with ⟨-, hnone⟩ | ⟨node, table', hnode, htable', -, _, _, hrel⟩
    · exact absurd (htable.symm.trans hnone) (by simp)
    obtain rfl := Option.some.inj (htable.symm.trans htable')
    have hnodeName : node.name = name := by simpa using List.find?_some hnode
    have hdeclared : info.declaredIn = name := (hrel.declaredIn info hinfo).trans hnodeName
    rw [ownEntry, hdeclared]
    exact Relation.ReflTransGen.refl

/-! ### Instances -/

theorem mergeFresh_gathered (hs : Closing graph hwf s) {entries : List ClosureEntry}
    (h : Gathered graph s.tables name os entries) {t : ElabState} (hst : Quiet s t)
    {entry : ClosureEntry} (hsymbol : entry.info.symbol = s.nextSymbol)
    (hkind : exposedKind entry.info.kind = true)
    (hsilent : Silent (after (mergeEntry entries entry) t)) :
    Gathered graph s.tables name os (value (mergeEntry entries entry) t) := by
  have hvariable : entry.info.kind ≠ .variable := by
    intro heq
    rw [heq] at hkind
    exact absurd hkind (by decide)
  have hconstant : entry.info.kind ≠ .constant := by
    intro heq
    rw [heq] at hkind
    exact absurd hkind (by decide)
  exact h.merge_other (hst.sound hs.sound) (beq_eq_false_iff_ne.mpr hvariable)
    (fun v hv => hsymbol ▸ hs.fresh hv) (fun horigin => (horigin.elim hconstant hvariable).elim)
    hsilent

/-- What an allocation for an instance yields. -/
def AllocatesFresh (allocated : ElabM (Option SymbolInfo)) : Prop :=
  Steps Quiet allocated ∧ ∀ {s : ElabState}, s.Sound → Silent (after allocated s) →
    ∃ info, value allocated s = some info ∧ info.symbol = s.nextSymbol ∧
      exposedKind info.kind = true

theorem mergeAllocated_gathered (hs : Closing graph hwf s) {entries : List ClosureEntry}
    (h : Gathered graph s.tables name os entries) {allocated : ElabM (Option SymbolInfo)}
    (hallocated : AllocatesFresh allocated) {importPath : List ModuleName}
    {frames : List InstanceFrame}
    (hsilent : Silent (after (mergeAllocated allocated entries importPath frames) s)) :
    Gathered graph s.tables name os
      (value (mergeAllocated allocated entries importPath frames) s) := by
  rw [mergeAllocated, after_bind] at hsilent
  rw [mergeAllocated, value_bind]
  have hrest := quiet_mergeSome entries importPath frames (value allocated s) (after allocated s)
  obtain ⟨info, hvalue, hsymbol, hkind⟩ := hallocated.2 hs.sound (hrest.toLater.silent hsilent)
  rw [hvalue] at hsilent ⊢
  exact mergeFresh_gathered hs h (hallocated.1 s) hsymbol hkind hsilent

theorem allocatesFresh_allocateFor (table : ModuleTable) {kind : SymbolKind}
    (hkind : exposedKind kind = true) (visibleName : String) (arity : Nat)
    (fixity : OperatorFixity) (site : InstanceSite) (range : SourceRange)
    {finish : SymbolInfo → SymbolInfo}
    (hfinish : ∀ info, (finish info).symbol = info.symbol ∧ (finish info).kind = info.kind) :
    AllocatesFresh (allocateFor table kind visibleName arity fixity site range finish) := by
  refine ⟨quiet_allocateFor table kind visibleName arity fixity site range finish,
    fun {s} hs hsilent => ?_⟩
  rw [allocateFor, after_bind, after_pure] at hsilent
  rw [allocateFor, value_bind, value_pure]
  obtain ⟨hvalue, -⟩ := allocateSymbol_silent hs hsilent
  obtain ⟨hsymbol, hsamekind⟩ := hfinish (allocatedInfo table s.nextSymbol kind visibleName arity
    fixity site.declaration.isLocal range)
  rw [hvalue]
  exact ⟨_, rfl, hsymbol, by rw [hsamekind]; exact hkind⟩

theorem allocatesFresh_allocateRenamed (table : ModuleTable) {source : SymbolInfo}
    (hkind : exposedKind source.kind = true) (visibleName : String) (site : InstanceSite) :
    AllocatesFresh (allocateRenamed table source visibleName site) :=
  allocatesFresh_allocateFor table hkind _ _ _ _ _ (by exact fun _ => ⟨rfl, rfl⟩)

theorem allocatesFresh_allocateQualifiedStandard (table : ModuleTable)
    (fact : StandardOperatorFact) (qualifiedName : String) (site : InstanceSite) :
    AllocatesFresh (allocateQualifiedStandard table fact qualifiedName site) :=
  allocatesFresh_allocateFor table (by decide) _ _ _ _ _ (by exact fun _ => ⟨rfl, rfl⟩)

theorem allocatesFresh_allocateInstanceName (table : ModuleTable) (site : InstanceSite)
    (instanceName : String) : AllocatesFresh (allocateInstanceName table site instanceName) :=
  allocatesFresh_allocateFor table (by decide) _ _ _ _ _ (by exact fun _ => ⟨rfl, rfl⟩)

/-- A run of `m` that adds no variable to the entries it is given. -/
def KeepsGathered (graph : ResolvedModuleGraph) (hwf : Acyclic graph)
    (m : List ClosureEntry → ElabM (List ClosureEntry)) : Prop :=
  (∀ entries, Steps Quiet (m entries)) ∧
    ∀ {name : ModuleName} {os : List VariableOccurrence} {entries : List ClosureEntry}
      {s : ElabState}, Closing graph hwf s → Gathered graph s.tables name os entries →
      Silent (after (m entries) s) → Gathered graph s.tables name os (value (m entries) s)

theorem keepsGathered_pure : KeepsGathered graph hwf (fun entries => pure entries) :=
  ⟨fun _ => steps_pure _, fun _ h _ => h⟩

theorem keepsGathered_mergeAllocated {allocated : ElabM (Option SymbolInfo)}
    (hallocated : AllocatesFresh allocated) (importPath : List ModuleName)
    (frames : List InstanceFrame) :
    KeepsGathered graph hwf fun entries =>
      mergeAllocated allocated entries importPath frames :=
  ⟨fun entries => quiet_mergeAllocated hallocated.1 entries importPath frames,
    fun hs h hsilent => mergeAllocated_gathered hs h hallocated hsilent⟩

theorem keepsGathered_mergeInstanceEntry (table : ModuleTable) (site : InstanceSite) :
    KeepsGathered graph hwf fun entries => mergeInstanceEntry table entries site := by
  unfold mergeInstanceEntry
  cases site.declaration.name with
  | none => exact keepsGathered_pure
  | some instanceName =>
    exact keepsGathered_mergeAllocated
      (allocatesFresh_allocateInstanceName table site instanceName) _ _

theorem KeepsGathered.bind {m n : List ClosureEntry → ElabM (List ClosureEntry)}
    (hm : KeepsGathered graph hwf m) (hn : KeepsGathered graph hwf n) :
    KeepsGathered graph hwf fun entries => m entries >>= n := by
  refine ⟨fun entries => (hm.1 entries).bind hn.1, fun {name os entries s} hs h hsilent => ?_⟩
  rw [after_bind] at hsilent
  rw [value_bind]
  have hquiet := hm.1 entries s
  have hfirst := hm.2 hs h ((hn.1 _ _).toLater.silent hsilent)
  rw [← hquiet.tables] at hfirst ⊢
  exact hn.2 (hs.quiet hquiet) hfirst hsilent

theorem keepsGathered_foldlM {ι : Type} {f : List ClosureEntry → ι → ElabM (List ClosureEntry)}
    {items : List ι} (hf : ∀ item ∈ items, KeepsGathered graph hwf fun entries => f entries item) :
    KeepsGathered graph hwf fun entries => items.foldlM f entries := by
  induction items with
  | nil => exact keepsGathered_pure
  | cons item items ih =>
    obtain ⟨hitem, hitems⟩ := List.forall_mem_cons.mp hf
    simp only [List.foldlM_cons]
    exact hitem.bind (ih hitems)

/-- A run of `m` on a result, with no variable added. -/
def KeepsResult (graph : ResolvedModuleGraph) (hwf : Acyclic graph) (result : ClosureResult)
    (m : ElabM ClosureResult) : Prop :=
  Steps Settled m ∧
    ∀ {name : ModuleName} {os : List VariableOccurrence} {s : ElabState},
      Closing graph hwf s → Gathered graph s.tables name os result.entries →
      Silent (after m s) →
      Closing graph hwf (after m s) ∧ Gathered graph s.tables name os (value m s).entries

theorem keepsResult_pure {result outcome : ClosureResult} (h : outcome.entries = result.entries) :
    KeepsResult graph hwf result (pure outcome) :=
  ⟨steps_pure _, fun hs hgathered _ => ⟨hs, h ▸ hgathered⟩⟩

theorem keepsResult_bind {m : List ClosureEntry → ElabM (List ClosureEntry)}
    (hm : KeepsGathered graph hwf m) {outcome : List ClosureEntry → ClosureResult}
    (houtcome : ∀ entries, (outcome entries).entries = entries) (result : ClosureResult) :
    KeepsResult graph hwf result
      (m result.entries >>= fun entries => pure (outcome entries)) := by
  have hquiet : Steps Quiet (m result.entries >>= fun entries => pure (outcome entries)) :=
    (hm.1 result.entries).bind fun _ => steps_pure _
  refine ⟨settled_of_quiet hquiet, fun {name os s} hs h hsilent => ⟨hs.quiet (hquiet s), ?_⟩⟩
  rw [value_bind, value_pure, houtcome]
  exact hm.2 hs h hsilent

theorem keepsGathered_mergeStandard (table : ModuleTable) (site : InstanceSite)
    (instanceName : String) (fact : StandardOperatorFact) :
    KeepsGathered graph hwf fun entries => mergeStandard table site instanceName entries fact := by
  unfold mergeStandard
  split
  · exact keepsGathered_mergeAllocated
      (allocatesFresh_allocateQualifiedStandard table fact _ site) _ _
  · exact keepsGathered_pure

theorem keepsGathered_mergeQualified (table : ModuleTable) (site : InstanceSite)
    (instanceName : String) (nestedEntry : ClosureEntry) :
    KeepsGathered graph hwf fun entries =>
      mergeQualified table site instanceName entries nestedEntry := by
  unfold mergeQualified
  split
  · rename_i hkind
    have hexposed : exposedKind nestedEntry.info.kind = true := by
      rw [exposedKind, (Bool.and_eq_true_iff.mp hkind).2, Bool.true_or]
    cases qualifyName? instanceName nestedEntry.info.name with
    | none => exact keepsGathered_pure
    | some qualifiedName =>
      exact keepsGathered_mergeAllocated
        (allocatesFresh_allocateRenamed table hexposed qualifiedName site) _ _
  · exact keepsGathered_pure

theorem keepsGathered_mergeExposed (table : ModuleTable) (site : InstanceSite)
    (nestedEntry : ClosureEntry) :
    KeepsGathered graph hwf fun entries => mergeExposed table site entries nestedEntry := by
  unfold mergeExposed
  split
  · rename_i hkind
    have hexposed := (Bool.and_eq_true_iff.mp hkind).2
    exact keepsGathered_mergeAllocated
      (allocatesFresh_allocateRenamed table hexposed nestedEntry.info.name site) _ _
  · exact keepsGathered_pure

theorem keepsResult_instantiateStandard (table : ModuleTable) (result : ClosureResult)
    (site : InstanceSite) :
    KeepsResult graph hwf result (instantiateStandard table result site) := by
  unfold instantiateStandard
  cases site.declaration.name with
  | none => exact keepsResult_pure rfl
  | some instanceName =>
    have hfacts : KeepsGathered graph hwf fun entries =>
        standardOperatorFacts.foldlM (mergeStandard table site instanceName) entries :=
      keepsGathered_foldlM fun fact _ => keepsGathered_mergeStandard table site instanceName fact
    dsimp only
    rw [← bind_assoc]
    exact keepsResult_bind ((keepsGathered_mergeInstanceEntry table site).bind hfacts)
      (fun _ => rfl) result

theorem keepsResult_instantiateNamed (table : ModuleTable) (nested result : ClosureResult)
    (site : InstanceSite) (instanceName : String) :
    KeepsResult graph hwf result (instantiateNamed table nested result site instanceName) := by
  have hcopies : KeepsGathered graph hwf fun entries =>
      nested.entries.foldlM (mergeQualified table site instanceName) entries :=
    keepsGathered_foldlM fun nestedEntry _ =>
      keepsGathered_mergeQualified table site instanceName nestedEntry
  rw [instantiateNamed, ← bind_assoc]
  exact keepsResult_bind ((keepsGathered_mergeInstanceEntry table site).bind hcopies)
    (fun _ => rfl) result

theorem keepsResult_instantiateUnnamed (table : ModuleTable) (nested result : ClosureResult)
    (site : InstanceSite) :
    KeepsResult graph hwf result (instantiateUnnamed table nested result site) := by
  have hcopies : KeepsGathered graph hwf fun entries =>
      nested.entries.foldlM (mergeExposed table site) entries :=
    keepsGathered_foldlM fun nestedEntry _ => keepsGathered_mergeExposed table site nestedEntry
  exact keepsResult_bind hcopies (by exact fun _ => rfl) result

theorem keepsResult_instantiateCaptured (table : ModuleTable) (result : ClosureResult)
    (site : InstanceSite) (nested : ClosureResult) :
    KeepsResult graph hwf result (instantiateCaptured table result site nested) := by
  unfold instantiateCaptured
  cases site.declaration.name with
  | none => exact keepsResult_instantiateUnnamed table nested result site
  | some instanceName => exact keepsResult_instantiateNamed table nested result site instanceName

theorem keepsResult_closure_bind {closure : ModuleName → ElabM ClosureResult}
    (hclosure : Closes graph hwf closure) {result : ClosureResult}
    {m : ClosureResult → ElabM ClosureResult} (hm : ∀ nested, KeepsResult graph hwf result (m nested))
    (dependency : ModuleName) : KeepsResult graph hwf result (closure dependency >>= m) := by
  refine ⟨(hclosure.settled dependency).bind fun nested => (hm nested).1,
    fun {name os s} hs h hsilent => ?_⟩
  rw [after_bind] at hsilent ⊢
  rw [value_bind]
  have hsettled := hclosure.settled dependency s
  have hrest := hm (value (closure dependency) s)
  obtain ⟨hclosing, -⟩ := hclosure.gathers hs ((hrest.1 _).toLater.silent hsilent)
  rw [← hsettled.tables] at h ⊢
  exact hrest.2 hclosing h hsilent

theorem keepsResult_instantiateSite {closure : ModuleName → ElabM ClosureResult}
    (hclosure : Closes graph hwf closure) (table : ModuleTable) (result : ClosureResult)
    (site : InstanceSite) (current : ElabState) :
    KeepsResult graph hwf result (instantiateSite closure table result site current) := by
  unfold instantiateSite
  cases site.resolution with
  | standardCatalog => exact keepsResult_instantiateStandard table result site
  | localSource =>
    cases current.tables.find? fun other => other.name == site.declaration.moduleName with
    | none => exact keepsResult_pure rfl
    | some _ =>
      exact keepsResult_closure_bind hclosure
        (keepsResult_instantiateCaptured table result site) site.declaration.moduleName

theorem keepsResult_instantiate {closure : ModuleName → ElabM ClosureResult}
    (hclosure : Closes graph hwf closure) (table : ModuleTable) (result : ClosureResult)
    (site : InstanceSite) :
    KeepsResult graph hwf result (instantiate closure table result site) := by
  have hread : ∀ current : ElabState, KeepsResult graph hwf result
      (if current.halted then pure result
      else instantiateSite closure table result site current) := by
    intro current
    split
    · exact keepsResult_pure rfl
    · exact keepsResult_instantiateSite hclosure table result site current
  exact ⟨steps_get.bind fun current => (hread current).1,
    fun {name os s} hs h hsilent => (hread s).2 hs h hsilent⟩

theorem keepsResult_foldlM {ι : Type} {f : ClosureResult → ι → ElabM ClosureResult}
    (hf : ∀ result item, KeepsResult graph hwf result (f result item)) (items : List ι)
    (result : ClosureResult) : KeepsResult graph hwf result (items.foldlM f result) := by
  induction items generalizing result with
  | nil => exact keepsResult_pure rfl
  | cons item items ih =>
    rw [List.foldlM_cons]
    refine ⟨(hf result item).1.bind fun next => (ih next).1, fun {name os s} hs h hsilent => ?_⟩
    rw [after_bind] at hsilent ⊢
    rw [value_bind]
    have hsettled := (hf result item).1 s
    have hrest := ih (value (f result item) s)
    obtain ⟨hclosing, hgathered⟩ :=
      (hf result item).2 hs h ((hrest.1 _).toLater.silent hsilent)
    rw [← hsettled.tables] at hgathered ⊢
    exact hrest.2 hclosing hgathered hsilent

/-! ### One module, and the recursion -/

theorem reached_eq_insertAll (hwf : Acyclic graph) (name : ModuleName) :
    reached hwf name = insertAll Prod.fst (insertAll Prod.fst []
      (broughtBy hwf (capturedEdges graph name)))
      ((declaredVariables graph name).map fun v => (v, [])) := by
  rw [reached_eq, gather, arrivals, stableUnique, insertAll_append, List.flatMap_map]
  rfl

theorem foldlM_ownEntries (name : ModuleName) (infos : List SymbolInfo)
    (entries : List ClosureEntry) :
    infos.foldlM (fun entries entry =>
        mergeEntry entries { info := entry, importPath := [name] }) entries =
      (infos.map (ownEntry name)).foldlM mergeEntry entries := by
  rw [List.foldlM_map]
  rfl

theorem settled_closureOfTable {closure : ModuleName → ElabM ClosureResult}
    (hclosure : Closes graph hwf closure) (table : ModuleTable) :
    Steps Settled (closureOfTable closure table) := by
  refine (steps_foldlM (fun result edge _ =>
    settled_extendEdge hclosure.settled table.name result edge) _).bind fun result => ?_
  refine (settled_of_quiet (steps_foldlM (fun _ _ _ => quiet_mergeEntry _ _) _)).bind
    fun entries => ?_
  exact steps_foldlM (fun result site _ =>
    (keepsResult_instantiate hclosure table result site).1) _

theorem closureOfTable_gathered {closure : ModuleName → ElabM ClosureResult}
    (hclosure : Closes graph hwf closure) (hs : Closing graph hwf s) {table : ModuleTable}
    (htable : s.tables.find? (fun table => table.name == name) = some table)
    (hsilent : Silent (after (closureOfTable closure table) s)) :
    Closing graph hwf (after (closureOfTable closure table) s) ∧
      Gathered graph s.tables name (reached hwf name)
        (value (closureOfTable closure table) s).entries := by
  rcases hs.nodes.find? name with ⟨-, hnone⟩ | ⟨node, table', hnode, htable', hname, _, _, hrel⟩
  · exact absurd (htable.symm.trans hnone) (by simp)
  obtain rfl := Option.some.inj (htable.symm.trans htable')
  have hnodeName : node.name = name := by simpa using List.find?_some hnode
  have hextends : table.extendsEdges = extendsEdgesOf graph name :=
    hrel.extendsEdges.trans (by rw [emptyTable, hnodeName])
  have hcaptured : capturedEdges graph name = (table.extendsEdges.filter fun edge =>
      (graph.findNode? edge.dependency).isSome).zipIdx := by
    rw [capturedEdges, hnode, hextends]
  rw [closureOfTable, hname] at hsilent ⊢
  simp only [foldlM_ownEntries, after_bind, value_bind] at hsilent ⊢
  -- a silent run is silent after each of its three loops
  have hinstances := fun result => keepsResult_foldlM
    (keepsResult_instantiate hclosure table) table.instanceSites result
  have hquietOwn : ∀ entries : List ClosureEntry, Steps Quiet
      ((table.entries.map (ownEntry name)).foldlM mergeEntry entries) := fun entries =>
    steps_foldlM (fun _ _ _ => quiet_mergeEntry _ _) entries
  have hsilentOwn := ((hinstances _).1 _).toLater.silent hsilent
  have hsilentEdges := (hquietOwn _ _).toLater.silent hsilentOwn
  have hsettled : Settled s
      (after (table.extendsEdges.foldlM (extendEdge closure name) {}) s) :=
    steps_foldlM (fun result edge _ => settled_extendEdge hclosure.settled name result edge) _ s
  have hempty : Gathered graph s.tables name [] ({} : ClosureResult).entries :=
    gathered_nil graph s.tables name
  obtain ⟨hclosing, hedges⟩ := extendEdges_gathered hclosure 0
    (by rw [← hcaptured]; exact fun _ h => h) hs hempty hsilentEdges
  rw [← hcaptured] at hedges
  rw [← hsettled.tables] at htable hedges ⊢
  obtain ⟨hafter, hown⟩ := ownEntries_gathered hclosing htable hedges hsilentOwn
  rw [← reached_eq_insertAll] at hown
  rw [hafter] at hsilent ⊢
  exact (hinstances _).2 hclosing hown hsilent

/-- `closureOf` on a module without a memo; `next` is the recursive call, if any. -/
def closureMiss (anchor : SourceLocation) (name : ModuleName) (state : ElabState) :
    Option (ModuleName → ElabM ClosureResult) → ElabM ClosureResult
  | none => do
      report ((Diagnostic.error ElabCode.fuelExhausted .nameResolution
        "module dependency elaboration exceeded its recursion bound"
        anchor)
        |>.withArgument "module" name.name)
      halt
      return {}
  | some closure =>
      match state.tables.find? (fun table => table.name == name) with
      | none => return {}
      | some table => do
          let result ← closureOfTable closure table
          let latest ← get
          set { latest with closures := latest.closures ++ [(name, result)] }
          return result

def closureNext : Nat → Option (ModuleName → ElabM ClosureResult)
  | 0 => none
  | fuel + 1 => some (closureOf fuel)

theorem closureOf_eq (fuel : Nat) (name : ModuleName) :
    closureOf fuel name = (do
      let state ← get
      match state.closures.find? (fun memo => memo.1 == name) with
      | some memo => return memo.2
      | none => closureMiss state.anchor name state (closureNext fuel)) := by
  rw [closureOf.eq_def]
  refine bind_congr fun state => ?_
  cases state.closures.find? fun memo => memo.1 == name with
  | some memo => rfl
  | none =>
    cases fuel with
    | zero => rfl
    | succ fuel =>
      unfold closureNext closureMiss
      cases state.tables.find? (fun table => table.name == name) <;> rfl

theorem settled_append_memo (s : ElabState) (memo : ModuleName × ClosureResult) :
    Settled s { s with closures := s.closures ++ [memo] } :=
  ⟨⟨fun hs => ⟨hs.halted, hs.notified⟩, id, le_rfl⟩, rfl, List.subset_append_left _ _⟩

theorem settled_closureMiss {next : Option (ModuleName → ElabM ClosureResult)}
    (hnext : ∀ closure ∈ next, Closes graph hwf closure) (anchor : SourceLocation)
    (name : ModuleName) (state : ElabState) :
    Steps Settled (closureMiss anchor name state next) := by
  cases next with
  | none => exact settled_of_quiet (quiet_report_halt rfl (steps_pure ()))
  | some closure =>
    rw [closureMiss]
    split
    · exact steps_pure _
    · exact (settled_closureOfTable (hnext closure rfl) _).bind fun result => fun s =>
        settled_append_memo s (name, result)

theorem closureMiss_gathered {next : Option (ModuleName → ElabM ClosureResult)}
    (hnext : ∀ closure ∈ next, Closes graph hwf closure) {anchor : SourceLocation}
    (hs : Closing graph hwf s) (hsilent : Silent (after (closureMiss anchor name s next) s)) :
    Closing graph hwf (after (closureMiss anchor name s next) s) ∧
      Gathered graph s.tables name (reached hwf name)
        (value (closureMiss anchor name s next) s).entries := by
  cases next with
  | none => exact absurd hsilent (not_silent_report rfl hs.sound fun _ herrors => herrors)
  | some closure =>
    rw [closureMiss] at hsilent ⊢
    rcases hs.nodes.find? name with ⟨hnone, htable⟩ | ⟨node, table, -, htable, -⟩
    · -- no module of this name: nothing is declared and nothing extended
      have hreached : reached hwf name = [] := by
        rw [reached_eq_insertAll, capturedEdges, declaredVariables, hnone]
        rfl
      rw [htable, hreached]
      exact ⟨hs, gathered_nil graph s.tables name⟩
    · rw [htable] at hsilent ⊢
      simp only [after_bind, value_bind, value_get, after_get, after_set, after_pure,
        value_pure] at hsilent ⊢
      have hsettled := settled_closureOfTable (hnext closure rfl) table s
      obtain ⟨hclosing, hgathered⟩ := closureOfTable_gathered (hnext closure rfl) hs htable hsilent
      have hmemo := settled_append_memo (after (closureOfTable closure table) s)
        (name, value (closureOfTable closure table) s)
      refine ⟨⟨hmemo.sound hclosing.sound, hclosing.nodes.settled hmemo, ?_⟩, hgathered⟩
      rw [← hsettled.tables] at hgathered
      exact List.forall_mem_append.mpr
        ⟨hclosing.closures, List.forall_mem_singleton.mpr hgathered⟩

theorem closes_of_next {fuel : Nat}
    (hnext : ∀ closure ∈ closureNext fuel, Closes graph hwf closure) :
    Closes graph hwf (closureOf fuel) := by
  refine ⟨fun name => ?_, fun {name s} hs hsilent => ?_⟩
  · rw [closureOf_eq]
    refine steps_get.bind fun state => ?_
    split
    · exact steps_pure _
    · exact settled_closureMiss hnext _ _ _
  · rw [closureOf_eq, after_bind, value_get, after_get] at hsilent
    rw [closureOf_eq, value_bind, after_bind, value_get, after_get]
    cases hfind : s.closures.find? fun memo => memo.1 == name with
    | some memo =>
      have hname : memo.1 = name := by simpa using List.find?_some hfind
      exact ⟨hs, hname ▸ hs.closures memo (List.mem_of_find?_eq_some hfind)⟩
    | none =>
      rw [hfind] at hsilent
      exact closureMiss_gathered hnext hs hsilent

/-- The recursion closes every module, whatever its fuel. -/
theorem closes_closureOf (hwf : Acyclic graph) (fuel : Nat) : Closes graph hwf (closureOf fuel) := by
  induction fuel with
  | zero => exact closes_of_next fun closure h => absurd h (by simp [closureNext])
  | succ fuel ih =>
    refine closes_of_next fun closure h => ?_
    obtain rfl := Option.some.inj h
    exact ih

theorem exists_memo_closureOf {fuel : Nat} (hs : Closing graph hwf s)
    (hnode : (graph.findNode? name).isSome = true)
    (hsilent : Silent (after (closureOf fuel name) s)) :
    ∃ memo ∈ (after (closureOf fuel name) s).closures, memo.1 = name := by
  rw [closureOf_eq, after_bind, value_get, after_get] at hsilent ⊢
  cases hfind : s.closures.find? fun memo => memo.1 == name with
  | some memo =>
    exact ⟨memo, List.mem_of_find?_eq_some hfind, by simpa using List.find?_some hfind⟩
  | none =>
    rw [hfind] at hsilent
    dsimp only at hsilent ⊢
    cases hnext : closureNext fuel with
    | none =>
      rw [hnext] at hsilent
      exact absurd hsilent (not_silent_report rfl hs.sound fun _ herrors => herrors)
    | some closure =>
      rcases hs.nodes.find? name with ⟨hnone, -⟩ | ⟨_, table, -, htable, -⟩
      · rw [hnone] at hnode
        exact Bool.noConfusion hnode
      · rw [closureMiss, htable]
        exact ⟨_, List.mem_append_right _ List.mem_cons_self, rfl⟩

/-! ### The closure stage -/

theorem settled_computeNode (hwf : Acyclic graph) (fuel : Nat) (node : ModuleNode) :
    Steps Settled (computeNode fuel node) := by
  refine steps_get.bind fun state => ?_
  split
  · exact steps_pure _
  · exact ((closes_closureOf hwf fuel).settled node.name).bind fun _ => steps_pure _

theorem settled_computeClosures (hwf : Acyclic graph) : Steps Settled (computeClosures graph) :=
  steps_forM fun node _ => settled_computeNode hwf _ node

theorem computeClosures_silent (hs : Closing graph hwf s)
    (hsilent : Silent (after (computeClosures graph) s)) :
    Closing graph hwf (after (computeClosures graph) s) ∧
      ∀ node ∈ graph.nodes, ∃ memo ∈ (after (computeClosures graph) s).closures,
        memo.1 = node.name := by
  refine forM_invariant backward_settled
    (fun node _ => settled_computeNode hwf (graph.nodes.length + 1) node)
    (I := fun done t => Closing graph hwf t ∧
      ∀ node ∈ done, ∃ memo ∈ t.closures, memo.1 = node.name)
    (fun done node hnode t ht hsilent => ?_) [] ⟨hs, by simp⟩ hsilent
  obtain ⟨hclosing, hdone⟩ := ht
  have hsettled := settled_computeNode hwf (graph.nodes.length + 1) node t
  have hhalted : t.halted = false :=
    ElabState.Clean.not_halted ⟨hclosing.sound, hsettled.toLater.silent hsilent⟩
  have hrun : after (computeNode (graph.nodes.length + 1) node) t =
      after (closureOf (graph.nodes.length + 1) node.name) t := by
    rw [computeNode, after_bind, value_get, after_get, if_neg (by simp [hhalted])]
    rfl
  rw [hrun] at hsilent hsettled
  have hin : (graph.findNode? node.name).isSome = true :=
    List.find?_isSome.mpr ⟨node, hnode, beq_self_eq_true _⟩
  refine hrun ▸ ⟨((closes_closureOf hwf _).gathers hclosing hsilent).1, ?_⟩
  refine List.forall_mem_append.mpr ⟨fun earlier hearlier => ?_, List.forall_mem_singleton.mpr
    (exists_memo_closureOf hclosing hin hsilent)⟩
  obtain ⟨memo, hmemo, hname⟩ := hdone earlier hearlier
  exact ⟨memo, hsettled.memos hmemo, hname⟩

theorem rootClosure_gathered (hs : Closing graph hwf s)
    (hmemos : ∀ node ∈ graph.nodes, ∃ memo ∈ s.closures, memo.1 = node.name) :
    Gathered graph s.tables graph.root (reached hwf graph.root)
      (rootClosure graph s).entries := by
  rw [rootClosure]
  cases hfind : s.closures.find? fun memo => memo.1 == graph.root with
  | some memo =>
    have hname : memo.1 = graph.root := by simpa using List.find?_some hfind
    exact hname ▸ hs.closures memo (List.mem_of_find?_eq_some hfind)
  | none =>
    have hnode : graph.findNode? graph.root = none := by
      refine List.find?_eq_none.mpr fun node hnode hroot => ?_
      obtain ⟨memo, hmemo, hname⟩ := hmemos node hnode
      exact List.find?_eq_none.mp hfind memo hmemo (by rw [hname]; exact hroot)
    have hreached : reached hwf graph.root = [] := by
      rw [reached_eq_insertAll, capturedEdges, declaredVariables, hnode]
      rfl
    rw [hreached]
    exact gathered_nil graph s.tables graph.root

end Graph
end MirrorsCore.Tla
