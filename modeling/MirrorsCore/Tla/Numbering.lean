import Mathlib
import MirrorsCore.Tla.EffectiveFacts

/-! Every entry of a closure has a symbol that was allocated before, and an assumption among
them stands in a table. -/

namespace MirrorsCore.Tla
open MirrorsCore.Lib

/-- The symbol is allocated, and an assumption stands in a table. -/
structure Registered (s : ElabState) (info : SymbolInfo) : Prop where
  symbol : info.symbol < s.nextSymbol
  assumption : info.assumption?.isSome = true → ∃ entry ∈ tableEntries s.tables,
    entry.symbol = info.symbol ∧ entry.assumption?.isSome = true

theorem Registered.settled {s t : ElabState} {info : SymbolInfo} (h : Registered s info)
    (hst : Settled s t) : Registered t info where
  symbol := h.symbol.trans_le hst.symbols
  assumption := hst.tables ▸ h.assumption

def AllRegistered (s : ElabState) (entries : List ClosureEntry) : Prop :=
  ∀ entry ∈ entries, Registered s entry.info

theorem AllRegistered.settled {s t : ElabState} {entries : List ClosureEntry}
    (h : AllRegistered s entries) (hst : Settled s t) : AllRegistered t entries :=
  fun entry hentry => (h entry hentry).settled hst

/-- The symbols of the tables are allocated, and the entries of the memos are registered. -/
structure Numbered (s : ElabState) : Prop where
  tables : ∀ entry ∈ tableEntries s.tables, entry.symbol < s.nextSymbol
  closures : ∀ memo ∈ s.closures, AllRegistered s memo.2.entries

section Numbered
variable {s t : ElabState}

theorem Numbered.quiet (h : Numbered s) (hst : Quiet s t) : Numbered t where
  tables := by
    rw [hst.tables]
    exact fun entry hentry => (h.tables entry hentry).trans_le hst.symbols
  closures := by
    rw [hst.closures]
    exact fun memo hmemo => (h.closures memo hmemo).settled hst.toSettled

theorem Numbered.registered (h : Numbered s) {table : ModuleTable} (htable : table ∈ s.tables)
    {entry : SymbolInfo} (hentry : entry ∈ table.entries) : Registered s entry := by
  have hmem : entry ∈ tableEntries s.tables := List.mem_flatMap.mpr ⟨table, htable, hentry⟩
  exact ⟨h.tables entry hmem, fun hassumption => ⟨entry, hmem, rfl, hassumption⟩⟩

/-- A run from `s` to a numbered state where the entries that it yields are registered. -/
structure Registers {α : Type} (entriesOf : α → List ClosureEntry) (m : ElabM α)
    (s : ElabState) : Prop where
  settled : Settled s (after m s)
  numbered : Numbered (after m s)
  entries : AllRegistered (after m s) (entriesOf (value m s))

variable {α β : Type} {entriesOf : α → List ClosureEntry} {entriesOf' : β → List ClosureEntry}

theorem registers_pure (hs : Numbered s) {a : α} (h : AllRegistered s (entriesOf a)) :
    Registers entriesOf (pure a) s := ⟨refl_of Settled s, hs, h⟩

theorem Registers.bind {m : ElabM α} {f : α → ElabM β} (hm : Registers entriesOf m s)
    (hf : Registers entriesOf' (f (value m s)) (after m s)) :
    Registers entriesOf' (m >>= f) s :=
  ⟨trans_of Settled hm.settled hf.settled, hf.numbered, hf.entries⟩

theorem registers_get_bind {f : ElabState → ElabM α} (h : Registers entriesOf (f s) s) :
    Registers entriesOf (get >>= f) s := ⟨h.settled, h.numbered, h.entries⟩

theorem registers_foldlM {ι : Type} {f : α → ι → ElabM α} (items : List ι)
    (hf : ∀ a, ∀ item ∈ items, ∀ t, Settled s t → Numbered t → AllRegistered t (entriesOf a) →
      Registers entriesOf (f a item) t)
    (hs : Numbered s) {a : α} (ha : AllRegistered s (entriesOf a)) :
    Registers entriesOf (items.foldlM f a) s := by
  induction items generalizing a s with
  | nil => exact registers_pure hs ha
  | cons item items ih =>
    rw [List.foldlM_cons]
    have hitem := hf a item List.mem_cons_self s (refl_of Settled s) hs ha
    exact hitem.bind (ih (fun a other hother t hst => hf a other (List.mem_cons_of_mem _ hother) t
      (trans_of Settled hitem.settled hst)) hitem.numbered hitem.entries)

end Numbered

/-! ### Allocation and merging -/

theorem mem_mergeEntry {entries : List ClosureEntry} {entry other : ClosureEntry}
    {s : ElabState} (h : other ∈ value (mergeEntry entries entry) s) :
    other ∈ entries ∨ other = entry := by
  unfold mergeEntry at h
  split at h
  · -- without a name only the symbol is compared
    split at h
    · exact .inl h
    · simpa using h
  · split at h
    · simpa using h
    · -- a name that is taken keeps the list, ambiguous or not
      split at h
      · exact .inl h
      · exact .inl h

/-- What an allocation yields. -/
def Allocates (allocated : ElabM (Option SymbolInfo)) : Prop :=
  Steps Quiet allocated ∧ ∀ {s : ElabState} {info : SymbolInfo}, value allocated s = some info →
    info.symbol < (after allocated s).nextSymbol ∧ info.assumption? = none

theorem allocates_allocateSymbol (table : ModuleTable) (kind : SymbolKind) (name : String)
    (arity : Nat) (fixity : OperatorFixity) (localDeclaration : Bool) (range : SourceRange) :
    Allocates (allocateSymbol table kind name arity fixity localDeclaration range) := by
  refine ⟨quiet_allocateSymbol table kind name arity fixity localDeclaration range,
    fun {s info} h => ?_⟩
  rw [allocateSymbol, value_bind, value_get, after_get] at h
  rw [allocateSymbol, after_bind, value_get, after_get]
  split at h
  · cases h
  · rename_i hhalted
    rw [if_neg hhalted]
    split at h
    · cases h
    · rename_i hroom
      rw [if_neg hroom]
      rw [← Option.some.inj h]
      exact ⟨Nat.lt_succ_self _, rfl⟩

theorem allocates_allocateFor (table : ModuleTable) (kind : SymbolKind) (name : String)
    (arity : Nat) (fixity : OperatorFixity) (site : InstanceSite) (range : SourceRange)
    {finish : SymbolInfo → SymbolInfo} (hfinish : ∀ info, (finish info).symbol = info.symbol ∧
      (finish info).assumption? = info.assumption?) :
    Allocates (allocateFor table kind name arity fixity site range finish) := by
  refine ⟨quiet_allocateFor table kind name arity fixity site range finish,
    fun {s info} h => ?_⟩
  rw [allocateFor, value_bind, value_pure] at h
  obtain ⟨inner, hinner, rfl⟩ := Option.map_eq_some_iff.mp h
  obtain ⟨hsymbol, hnone⟩ := (allocates_allocateSymbol table kind name arity fixity
    site.declaration.isLocal range).2 hinner
  rw [(hfinish inner).1, (hfinish inner).2]
  exact ⟨hsymbol, hnone⟩

section Merging
variable {s : ElabState} {entries : List ClosureEntry}

theorem registers_mergeEntry (hs : Numbered s) (hentries : AllRegistered s entries)
    {entry : ClosureEntry} (hentry : Registered s entry.info) :
    Registers id (mergeEntry entries entry) s := by
  have hquiet := quiet_mergeEntry entries entry s
  refine ⟨hquiet.toSettled, hs.quiet hquiet, fun other hother => ?_⟩
  rcases mem_mergeEntry hother with hin | rfl
  · exact (hentries other hin).settled hquiet.toSettled
  · exact hentry.settled hquiet.toSettled

theorem registers_mergeEntries (hs : Numbered s) (hentries : AllRegistered s entries)
    {others : List ClosureEntry} (hothers : AllRegistered s others) :
    Registers id (others.foldlM mergeEntry entries) s :=
  registers_foldlM others (fun _ other hother _ hst ht hknown =>
    registers_mergeEntry ht hknown ((hothers other hother).settled hst)) hs hentries

theorem registers_mergeAllocated {allocated : ElabM (Option SymbolInfo)}
    (hallocated : Allocates allocated) (hs : Numbered s) (hentries : AllRegistered s entries)
    (importPath : List ModuleName) (frames : List InstanceFrame) :
    Registers id (mergeAllocated allocated entries importPath frames) s := by
  have hquiet := hallocated.1 s
  have hknown := hentries.settled hquiet.toSettled
  have hrest : Registers id (mergeSome entries importPath frames (value allocated s))
      (after allocated s) := by
    cases hvalue : value allocated s with
    | none => exact registers_pure (hs.quiet hquiet) hknown
    | some info =>
      obtain ⟨hsymbol, hnone⟩ := hallocated.2 hvalue
      exact registers_mergeEntry (hs.quiet hquiet) hknown
        ⟨hsymbol, fun hassumption => absurd hassumption (by simp [hnone])⟩
  exact ⟨trans_of Settled hquiet.toSettled hrest.settled, hrest.numbered, hrest.entries⟩

/-! ### Instances -/

theorem registers_mergeInstanceEntry (table : ModuleTable) (site : InstanceSite)
    (hs : Numbered s) (hentries : AllRegistered s entries) :
    Registers id (mergeInstanceEntry table entries site) s := by
  unfold mergeInstanceEntry
  cases site.declaration.name with
  | none => exact registers_pure hs hentries
  | some instanceName =>
    exact registers_mergeAllocated
      (allocates_allocateFor table _ _ _ _ _ _ (by exact fun _ => ⟨rfl, rfl⟩)) hs hentries _ _

theorem registers_mergeStandard (table : ModuleTable) (site : InstanceSite)
    (instanceName : String) (fact : StandardOperatorFact) (hs : Numbered s)
    (hentries : AllRegistered s entries) :
    Registers id (mergeStandard table site instanceName entries fact) s := by
  unfold mergeStandard
  split
  · exact registers_mergeAllocated
      (allocates_allocateFor table _ _ _ _ _ _ (by exact fun _ => ⟨rfl, rfl⟩)) hs hentries _ _
  · exact registers_pure hs hentries

theorem registers_mergeQualified (table : ModuleTable) (site : InstanceSite)
    (instanceName : String) (nestedEntry : ClosureEntry) (hs : Numbered s)
    (hentries : AllRegistered s entries) :
    Registers id (mergeQualified table site instanceName entries nestedEntry) s := by
  unfold mergeQualified
  split
  · cases qualifyName? instanceName nestedEntry.info.name with
    | none => exact registers_pure hs hentries
    | some qualifiedName =>
      exact registers_mergeAllocated
        (allocates_allocateFor table _ _ _ _ _ _ (by exact fun _ => ⟨rfl, rfl⟩)) hs hentries _ _
  · exact registers_pure hs hentries

theorem registers_mergeExposed (table : ModuleTable) (site : InstanceSite)
    (nestedEntry : ClosureEntry) (hs : Numbered s) (hentries : AllRegistered s entries) :
    Registers id (mergeExposed table site entries nestedEntry) s := by
  unfold mergeExposed
  split
  · exact registers_mergeAllocated
      (allocates_allocateFor table _ _ _ _ _ _ (by exact fun _ => ⟨rfl, rfl⟩)) hs hentries _ _
  · exact registers_pure hs hentries

end Merging

section Instances
variable {s : ElabState} {result : ClosureResult}

theorem registers_instantiateStandard (table : ModuleTable) (site : InstanceSite)
    (hs : Numbered s) (hentries : AllRegistered s result.entries) :
    Registers ClosureResult.entries (instantiateStandard table result site) s := by
  unfold instantiateStandard
  cases site.declaration.name with
  | none => exact registers_pure hs hentries
  | some instanceName =>
    have hname := registers_mergeInstanceEntry table site hs hentries
    have hfacts := registers_foldlM standardOperatorFacts (fun _ fact _ _ _ ht hknown =>
      registers_mergeStandard table site instanceName fact ht hknown) hname.numbered hname.entries
    exact hname.bind (hfacts.bind (registers_pure hfacts.numbered hfacts.entries))

theorem registers_instantiateCaptured (table : ModuleTable) (site : InstanceSite)
    (nested : ClosureResult) (hs : Numbered s) (hentries : AllRegistered s result.entries) :
    Registers ClosureResult.entries (instantiateCaptured table result site nested) s := by
  unfold instantiateCaptured
  cases site.declaration.name with
  | none =>
    have hcopies := registers_foldlM nested.entries (fun _ nestedEntry _ _ _ ht hknown =>
      registers_mergeExposed table site nestedEntry ht hknown) hs hentries
    exact hcopies.bind (registers_pure hcopies.numbered hcopies.entries)
  | some instanceName =>
    have hname := registers_mergeInstanceEntry table site hs hentries
    have hcopies := registers_foldlM nested.entries (fun _ nestedEntry _ _ _ ht hknown =>
      registers_mergeQualified table site instanceName nestedEntry ht hknown)
      hname.numbered hname.entries
    exact hname.bind (hcopies.bind (registers_pure hcopies.numbered hcopies.entries))

/-- What the recursive call has to do. -/
def AllRegisters (closure : ModuleName → ElabM ClosureResult) : Prop :=
  ∀ {s : ElabState}, Numbered s → ∀ name, Registers ClosureResult.entries (closure name) s

variable {closure : ModuleName → ElabM ClosureResult}

theorem registers_instantiate (hclosure : AllRegisters closure) (table : ModuleTable)
    (site : InstanceSite) (hs : Numbered s) (hentries : AllRegistered s result.entries) :
    Registers ClosureResult.entries (instantiate closure table result site) s := by
  refine registers_get_bind ?_
  split
  · exact registers_pure hs hentries
  unfold instantiateSite
  split
  · exact registers_instantiateStandard table site hs hentries
  split
  · exact registers_pure hs hentries
  · have hnested := hclosure hs site.declaration.moduleName
    exact hnested.bind (registers_instantiateCaptured table site _ hnested.numbered
      (hentries.settled hnested.settled))

/-! ### Imports, and one module -/

theorem registers_extendEdge (hclosure : AllRegisters closure) (name : ModuleName)
    (edge : ModuleEdge) (hs : Numbered s) (hentries : AllRegistered s result.entries) :
    Registers ClosureResult.entries (extendEdge closure name result edge) s := by
  refine registers_get_bind ?_
  split
  · exact registers_pure hs hentries
  split
  · refine registers_pure hs ?_
    rw [extendStandard]
    split <;> exact hentries
  · have hnested := hclosure hs edge.dependency
    simp only [foldlM_imported]
    have hothers : AllRegistered (after (closure edge.dependency) s) (importedEntries name edge
        (value (closure edge.dependency) s).entries) := by
      intro entry hentry
      obtain ⟨inner, hinner, rfl⟩ := List.mem_map.mp hentry
      have hregistered := hnested.entries inner (List.mem_of_mem_filter hinner)
      exact ⟨hregistered.symbol, hregistered.assumption⟩
    have himported := registers_mergeEntries hnested.numbered
      (hentries.settled hnested.settled) hothers
    refine hnested.bind (himported.bind (registers_pure himported.numbered ?_))
    rw [inheritStandards]
    split <;> exact himported.entries

theorem registers_closureOfTable (hclosure : AllRegisters closure) {table : ModuleTable}
    (htable : table ∈ s.tables) (hs : Numbered s) :
    Registers ClosureResult.entries (closureOfTable closure table) s := by
  have hnone : AllRegistered s ({} : ClosureResult).entries :=
    fun entry hentry => absurd hentry List.not_mem_nil
  have hedges := registers_foldlM table.extendsEdges (fun _ edge _ _ _ ht hknown =>
    registers_extendEdge hclosure table.name edge ht hknown) hs hnone
  have hown : AllRegistered (after (table.extendsEdges.foldlM (extendEdge closure table.name) {}) s)
      (table.entries.map (ownEntry table.name)) := by
    intro entry hentry
    obtain ⟨info, hinfo, rfl⟩ := List.mem_map.mp hentry
    exact (hs.registered htable hinfo).settled hedges.settled
  have hmerged := registers_mergeEntries hedges.numbered hedges.entries hown
  rw [closureOfTable]
  simp only [foldlM_ownEntries]
  refine hedges.bind (hmerged.bind ?_)
  exact registers_foldlM table.instanceSites (fun _ site _ _ _ ht hknown =>
    registers_instantiate hclosure table site ht hknown) hmerged.numbered hmerged.entries

end Instances

/-! ### The closure stage -/

theorem allRegisters_of_next {fuel : Nat}
    (hnext : ∀ closure ∈ closureNext fuel, AllRegisters closure) :
    AllRegisters (closureOf fuel) := by
  intro s hs name
  rw [closureOf_eq]
  refine registers_get_bind ?_
  have hempty (t : ElabState) : AllRegistered t ({} : ClosureResult).entries :=
    fun entry hentry => absurd hentry List.not_mem_nil
  cases hfind : s.closures.find? fun memo => memo.1 == name with
  | some memo => exact registers_pure hs (hs.closures memo (List.mem_of_find?_eq_some hfind))
  | none =>
    dsimp only
    cases hclosure : closureNext fuel with
    | none =>
      -- out of fuel: the module is reported and gets no memo
      have hquiet : Steps Quiet (closureMiss s.anchor name s none) :=
        quiet_report_halt rfl (steps_pure ())
      exact ⟨(hquiet s).toSettled, hs.quiet (hquiet s), hempty _⟩
    | some closure =>
      rw [closureMiss]
      cases htable : s.tables.find? fun table => table.name == name with
      | none => exact registers_pure hs (hempty s)
      | some table =>
        have hmade := registers_closureOfTable (hnext closure hclosure)
          (List.mem_of_find?_eq_some htable) hs
        have hmemo := settled_append_memo (after (closureOfTable closure table) s)
          (name, value (closureOfTable closure table) s)
        have hentries := hmade.entries.settled hmemo
        refine hmade.bind ⟨hmemo, ⟨hmade.numbered.tables, fun memo hin => ?_⟩, hentries⟩
        rcases List.mem_append.mp hin with hin | hin
        · exact (hmade.numbered.closures memo hin).settled hmemo
        · rw [List.mem_singleton.mp hin]
          exact hentries

theorem allRegisters_closureOf (fuel : Nat) : AllRegisters (closureOf fuel) := by
  induction fuel with
  | zero => exact allRegisters_of_next fun closure h => absurd h (by simp [closureNext])
  | succ fuel ih =>
    refine allRegisters_of_next fun closure h => ?_
    obtain rfl := Option.some.inj h
    exact ih

theorem numbered_computeClosures (graph : ResolvedModuleGraph) {s : ElabState}
    (hs : Numbered s) : Numbered (after (computeClosures graph) s) := by
  rw [computeClosures]
  generalize graph.nodes.length + 1 = fuel
  induction graph.nodes generalizing s with
  | nil => exact hs
  | cons node nodes ih =>
    rw [List.forM_eq_forM, List.forM_cons, after_bind]
    refine ih ?_
    rw [computeNode, after_bind, value_get, after_get]
    split
    · exact hs
    · exact (allRegisters_closureOf fuel hs node.name).numbered

theorem numbered_of_silent {graph : ResolvedModuleGraph} (hwf : Acyclic graph)
    {limits : ElaborationLimits}
    (h : Silent (after (whenNotDone (computeClosures graph))
      (after (tabulateGraph graph) (initialState limits graph)))) :
    Numbered (after (whenNotDone (computeClosures graph))
      (after (tabulateGraph graph) (initialState limits graph))) := by
  have hinitial : (initialState limits graph).Sound := ⟨Bool.noConfusion, Bool.noConfusion⟩
  have htabulated := unmemoized_tabulateGraph graph (initialState limits graph)
  have hsilent := (Steps.whenNotDone (settled_computeClosures hwf) _).toLater.silent h
  have hstart : Numbered (after (tabulateGraph graph) (initialState limits graph)) := by
    refine ⟨(tabulateGraph_silent hinitial rfl hsilent).bounds, ?_⟩
    rw [htabulated.closures]
    exact fun memo hmemo => absurd hmemo List.not_mem_nil
  rw [after_whenNotDone ⟨htabulated.sound hinitial, hsilent⟩]
  exact numbered_computeClosures graph hstart

theorem Numbered.rootClosure {s : ElabState} (hs : Numbered s) (graph : ResolvedModuleGraph) :
    AllRegistered s (rootClosure graph s).entries := by
  rw [Tla.rootClosure]
  split
  · rename_i memo hmemo
    exact hs.closures memo (List.mem_of_find?_eq_some hmemo)
  · exact fun entry hentry => absurd hentry List.not_mem_nil

end MirrorsCore.Tla
