import Mathlib
import MirrorsCore.Tla.Tabulation

/-! Closure entries of declared variables, and what merging entries into an
accumulator does to the variables it holds. -/

namespace MirrorsCore.Tla
open MirrorsCore.Lib

theorem forall₂_find? {α β : Type} {R : α → β → Prop} {p : α → Bool} {q : β → Bool}
    {xs : List α} {ys : List β} (h : List.Forall₂ R xs ys) (hpq : ∀ x y, R x y → p x = q y) :
    (xs.find? p = none ∧ ys.find? q = none) ∨
      ∃ x y, xs.find? p = some x ∧ ys.find? q = some y ∧ R x y := by
  induction h with
  | nil => exact Or.inl ⟨rfl, rfl⟩
  | @cons x y xs ys hxy _ ih =>
    cases hp : p x with
    | true =>
      have hq : q y = true := (hpq x y hxy).symm.trans hp
      exact Or.inr ⟨x, y, List.find?_cons_of_pos hp, List.find?_cons_of_pos hq, hxy⟩
    | false =>
      have hq : q y = false := (hpq x y hxy).symm.trans hp
      rw [List.find?_cons_of_neg (by simp [hp]), List.find?_cons_of_neg (by simp [hq])]
      exact ih

def Declared (graph : ResolvedModuleGraph) (v : DeclaredVariable) : Prop :=
  v ∈ declaredVariables graph v.declaredIn

def symbolAt (table : ModuleTable) (index : Nat) : SymbolId :=
  ((tableVariables table)[index]?.map SymbolInfo.symbol).getD 0

def infoOf (tables : List ModuleTable) (v : DeclaredVariable) : SymbolInfo :=
  match tables.find? fun table => table.name == v.declaredIn with
  | some table =>
      variableInfo v.declaredIn table.logicalPath (symbolAt table v.index)
        (⟨v.name, v.range⟩, v.isLocal)
  | none => variableInfo v.declaredIn "" 0 (⟨v.name, v.range⟩, v.isLocal)

theorem infoOf_eq (tables : List ModuleTable) (v : DeclaredVariable) :
    ∃ logicalPath symbol, infoOf tables v =
      variableInfo v.declaredIn logicalPath symbol (⟨v.name, v.range⟩, v.isLocal) := by
  rw [infoOf]
  split
  · exact ⟨_, _, rfl⟩
  · exact ⟨_, _, rfl⟩

section Tables
variable {graph : ResolvedModuleGraph} {s : ElabState}

theorem TabulatedNodes.find? (h : TabulatedNodes graph graph.nodes s) (name : ModuleName) :
    (graph.findNode? name = none ∧ s.tables.find? (fun table => table.name == name) = none) ∨
      ∃ node table, graph.findNode? name = some node ∧
        s.tables.find? (fun table => table.name == name) = some table ∧ table.name = name ∧
        ∃ start stop, NodeTable graph start stop node table := by
  have hsame : ∀ (node : ModuleNode) (table : ModuleTable),
      (∃ start stop, NodeTable graph start stop node table) →
      (node.name == name) = (table.name == name) := by
    rintro node table ⟨start, stop, htable⟩
    rw [htable.name]
    rfl
  rcases forall₂_find? h.tables hsame with hnone | ⟨node, table, hnode, htable, hrel⟩
  · exact Or.inl hnone
  · exact Or.inr ⟨node, table, hnode, htable,
      by simpa using List.find?_some htable, hrel⟩

theorem TabulatedNodes.tableVariables_eq (h : TabulatedNodes graph graph.nodes s)
    {name : ModuleName} {table : ModuleTable}
    (htable : s.tables.find? (fun table => table.name == name) = some table) :
    tableVariables table = (declaredVariables graph name).map (infoOf s.tables) := by
  rcases h.find? name with ⟨-, hnone⟩ | ⟨node, table', hnode, htable', -, start, stop, hnodeTable⟩
  · exact absurd (htable.symm.trans hnone) (by simp)
  obtain rfl := Option.some.inj (htable.symm.trans htable')
  have hname : node.name = name := by simpa using List.find?_some hnode
  refine List.ext_getElem? fun i => ?_
  have hdeclared : (declaredVariables graph name)[i]? =
      ((moduleVariables node)[i]?).map fun declared => declaredVariable name (declared, i) := by
    rw [declaredVariables, hnode, List.getElem?_map, List.getElem?_zipIdx, Option.map_map]
    rw [Nat.zero_add]
    rfl
  rw [List.getElem?_map, hdeclared, Option.map_map]
  have hvariables := hnodeTable.«variables»
  have hlength := hvariables.length_eq
  cases hinfo : (tableVariables table)[i]? with
  | none =>
    have hnone : (moduleVariables node)[i]? = none :=
      List.getElem?_eq_none (hlength ▸ List.getElem?_eq_none_iff.mp hinfo)
    rw [hnone]
    rfl
  | some info =>
    obtain ⟨hi, hget⟩ := List.getElem?_eq_some_iff.mp hinfo
    have hi' : i < (moduleVariables node).length := hlength ▸ hi
    have hpair := hvariables.get hi hi'
    rw [List.getElem?_eq_getElem hi', Option.map_some, Function.comp]
    rw [List.get_eq_getElem, List.get_eq_getElem, hget] at hpair
    have hinfoOf : infoOf s.tables (declaredVariable name ((moduleVariables node)[i], i)) =
        variableInfo name table.logicalPath (symbolAt table i) (moduleVariables node)[i] := by
      rw [infoOf]
      simp only [declaredVariable, htable]
    rw [hinfoOf, symbolAt, hinfo, Option.map_some, Option.getD_some, hnodeTable.logicalPath,
      ← hname]
    exact congrArg some hpair

theorem TabulatedNodes.infoOf_mem (h : TabulatedNodes graph graph.nodes s)
    {v : DeclaredVariable} (hv : Declared graph v) :
    infoOf s.tables v ∈ tableEntries s.tables := by
  rcases h.find? v.declaredIn with ⟨hnone, -⟩ | ⟨node, table, -, htable, -⟩
  · rw [Declared, declaredVariables, hnone] at hv
    exact absurd hv List.not_mem_nil
  · have hmem : infoOf s.tables v ∈ tableVariables table := by
      rw [h.tableVariables_eq htable]
      exact List.mem_map_of_mem hv
    exact List.mem_flatMap.mpr
      ⟨table, List.mem_of_find?_eq_some htable, List.mem_of_mem_filter hmem⟩

theorem isVariable_infoOf (tables : List ModuleTable) (v : DeclaredVariable) :
    (infoOf tables v).isVariable = true := by
  obtain ⟨logicalPath, symbol, heq⟩ := infoOf_eq tables v
  rw [heq]
  rfl

theorem TabulatedNodes.infoOf_injective (h : TabulatedNodes graph graph.nodes s)
    {v w : DeclaredVariable} (hv : Declared graph v) (hw : Declared graph w)
    (heq : (infoOf s.tables v).symbol = (infoOf s.tables w).symbol) : v = w := by
  have hinfo : infoOf s.tables v = infoOf s.tables w :=
    eq_of_key_eq h.symbols (h.infoOf_mem hv) (h.infoOf_mem hw) heq
  have hin : v.declaredIn = w.declaredIn := by
    obtain ⟨_, _, hv'⟩ := infoOf_eq s.tables v
    obtain ⟨_, _, hw'⟩ := infoOf_eq s.tables w
    rw [hv', hw'] at hinfo
    exact congrArg SymbolInfo.declaredIn hinfo
  rw [Declared, ← hin] at hw
  rcases h.find? v.declaredIn with ⟨hnone, -⟩ | ⟨node, table, -, htable, -⟩
  · rw [Declared, declaredVariables, hnone] at hv
    exact absurd hv List.not_mem_nil
  have hnodup : ((declaredVariables graph v.declaredIn).map
      fun v => (infoOf s.tables v).symbol).Nodup := by
    have hsub : ((tableVariables table).map SymbolInfo.symbol).Sublist
        ((tableEntries s.tables).map SymbolInfo.symbol) := by
      refine List.Sublist.map _ (List.filter_sublist.trans ?_)
      exact List.sublist_flatten_of_mem
        (List.mem_map_of_mem (List.mem_of_find?_eq_some htable))
    have htableNodup := hsub.nodup h.symbols
    rwa [h.tableVariables_eq htable, List.map_map] at htableNodup
  exact List.inj_on_of_nodup_map hnodup hv hw heq

theorem TabulatedNodes.symbol_ne (h : TabulatedNodes graph graph.nodes s) {entry : SymbolInfo}
    (hentry : entry ∈ tableEntries s.tables) (hvariable : entry.isVariable = false)
    {v : DeclaredVariable} (hv : Declared graph v) :
    entry.symbol ≠ (infoOf s.tables v).symbol := by
  intro heq
  have hsame := eq_of_key_eq h.symbols hentry (h.infoOf_mem hv) heq
  rw [hsame, isVariable_infoOf] at hvariable
  exact Bool.noConfusion hvariable

end Tables
/-! ### Merging -/

theorem mergeEntry_silent {entries : List ClosureEntry} {entry : ClosureEntry} {s : ElabState}
    (hs : s.Sound) (h : Silent (after (mergeEntry entries entry) s)) :
    after (mergeEntry entries entry) s = s ∧
      ((value (mergeEntry entries entry) s = entries ∧
          ∃ existing ∈ entries, existing.info.symbol = entry.info.symbol) ∨
        (value (mergeEntry entries entry) s = entries ++ [entry] ∧
          (entry.info.name.isEmpty = true →
            ∀ existing ∈ entries, existing.info.symbol ≠ entry.info.symbol) ∧
          (entry.info.name.isEmpty = false →
            ∀ existing ∈ entries, existing.info.name ≠ entry.info.name))) := by
  rw [mergeEntry] at h ⊢
  split at h
  · rename_i hempty
    rw [if_pos hempty]
    split
    · rename_i hany
      obtain ⟨existing, hexisting, hsymbol⟩ := List.any_eq_true.mp hany
      exact ⟨rfl, Or.inl ⟨rfl, existing, hexisting, eq_of_beq hsymbol⟩⟩
    · rename_i hany
      refine ⟨rfl, Or.inr ⟨rfl, fun _ existing hexisting hsymbol => hany ?_, fun hne => ?_⟩⟩
      · exact List.any_eq_true.mpr ⟨existing, hexisting, beq_iff_eq.mpr hsymbol⟩
      · exact absurd (hempty.symm.trans hne) Bool.noConfusion
  · rename_i hempty
    rw [if_neg hempty]
    split
    · rename_i hfind
      refine ⟨rfl, Or.inr ⟨rfl, fun hname => absurd hname hempty, fun _ existing hexisting => ?_⟩⟩
      exact fun hname => List.find?_eq_none.mp hfind existing hexisting (beq_iff_eq.mpr hname)
    · rename_i existing hfind
      rw [hfind] at h
      dsimp only at h
      split at h
      · rename_i hsymbol
        rw [if_pos hsymbol]
        exact ⟨rfl, Or.inl ⟨rfl, existing, List.mem_of_find?_eq_some hfind, eq_of_beq hsymbol⟩⟩
      · exact absurd h (not_silent_report rfl hs fun _ herrors => herrors)

abbrev VariableOccurrence := Occurrence (ModuleEdge × Nat) DeclaredVariable

/-- The closure entry of one occurrence in the closure of `name`. -/
def variableEntry (graph : ResolvedModuleGraph) (tables : List ModuleTable) (name : ModuleName)
    (o : VariableOccurrence) : ClosureEntry :=
  { info := { infoOf tables o.1 with
      localDeclaration := !(importSystem graph).reexported o }
    importPath := name :: o.2.map fun edge => edge.1.dependency
    frames := [] }

/-- An accumulator of the closure of `name` whose variables are the occurrences `os`. -/
structure Gathered (graph : ResolvedModuleGraph) (tables : List ModuleTable) (name : ModuleName)
    (os : List VariableOccurrence) (entries : List ClosureEntry) : Prop where
  «variables» : entries.filter (fun entry => entry.info.isVariable) =
    os.map (variableEntry graph tables name)
  declared : ∀ o ∈ os, Declared graph o.1
  others : ∀ entry ∈ entries, entry.info.isVariable = false →
    ∀ v, Declared graph v → entry.info.symbol ≠ (infoOf tables v).symbol
  names : ((entries.filter fun entry => !entry.info.name.isEmpty).map
    fun entry => entry.info.name).Nodup
  origins : ∀ entry ∈ entries, entry.info.kind = .constant ∨ entry.info.kind = .variable →
    ReachesByExtends graph name entry.info.declaredIn

section Merging
variable {graph : ResolvedModuleGraph} {s : ElabState} {name : ModuleName}
  {os : List VariableOccurrence} {entries : List ClosureEntry} {tables : List ModuleTable}

theorem gathered_nil (graph : ResolvedModuleGraph) (tables : List ModuleTable)
    (name : ModuleName) : Gathered graph tables name [] [] :=
  ⟨rfl, by simp, by simp, by simp, by simp⟩

@[simp] theorem variableEntry_symbol (o : VariableOccurrence) :
    (variableEntry graph tables name o).info.symbol = (infoOf tables o.1).symbol := rfl

@[simp] theorem variableEntry_isVariable (o : VariableOccurrence) :
    (variableEntry graph tables name o).info.isVariable = true := isVariable_infoOf tables o.1

theorem variableEntry_name (graph : ResolvedModuleGraph) (tables : List ModuleTable)
    (name : ModuleName) (o : VariableOccurrence) :
    (variableEntry graph tables name o).info.name = o.1.name := by
  obtain ⟨_, _, heq⟩ := infoOf_eq tables o.1
  rw [variableEntry, heq]
  rfl

theorem variableEntry_declaredIn (graph : ResolvedModuleGraph) (tables : List ModuleTable)
    (name : ModuleName) (o : VariableOccurrence) :
    (variableEntry graph tables name o).info.declaredIn = o.1.declaredIn := by
  obtain ⟨_, _, heq⟩ := infoOf_eq tables o.1
  rw [variableEntry, heq]
  rfl

theorem nodup_names_append
    (h : ((entries.filter fun entry => !entry.info.name.isEmpty).map
      fun entry => entry.info.name).Nodup) {entry : ClosureEntry}
    (hfresh : entry.info.name.isEmpty = false →
      ∀ existing ∈ entries, existing.info.name ≠ entry.info.name) :
    (((entries ++ [entry]).filter fun entry => !entry.info.name.isEmpty).map
      fun entry => entry.info.name).Nodup := by
  rw [List.filter_append]
  cases hempty : entry.info.name.isEmpty with
  | true => rwa [List.filter_cons_of_neg (by simp [hempty]), List.filter_nil, List.append_nil]
  | false =>
    rw [List.filter_cons_of_pos (by simp [hempty]), List.filter_nil, List.map_append,
      List.map_singleton, List.nodup_append]
    refine ⟨h, List.nodup_singleton _, ?_⟩
    intro existing hexisting last hlast
    obtain ⟨inner, hinner, rfl⟩ := List.mem_map.mp hexisting
    obtain rfl := List.mem_singleton.mp hlast
    exact hfresh hempty inner (List.mem_of_mem_filter hinner)

theorem Gathered.merge_other (h : Gathered graph tables name os entries) (hs : s.Sound)
    {entry : ClosureEntry} (hvariable : entry.info.isVariable = false)
    (hsymbol : ∀ v, Declared graph v → entry.info.symbol ≠ (infoOf tables v).symbol)
    (horigin : entry.info.kind = .constant ∨ entry.info.kind = .variable →
      ReachesByExtends graph name entry.info.declaredIn)
    (hsilent : Silent (after (mergeEntry entries entry) s)) :
    Gathered graph tables name os (value (mergeEntry entries entry) s) := by
  obtain ⟨-, ⟨hvalue, -⟩ | ⟨hvalue, -, hnames⟩⟩ := mergeEntry_silent hs hsilent
  · rwa [hvalue]
  rw [hvalue]
  refine ⟨?_, h.declared, ?_, nodup_names_append h.names hnames, ?_⟩
  · rw [List.filter_append, List.filter_cons_of_neg (by simp [hvariable]), List.filter_nil,
      List.append_nil, h.«variables»]
  · exact List.forall_mem_append.mpr ⟨h.others, List.forall_mem_singleton.mpr fun _ => hsymbol⟩
  · exact List.forall_mem_append.mpr ⟨h.origins, List.forall_mem_singleton.mpr horigin⟩

theorem Gathered.merge_variable (h : Gathered graph s.tables name os entries) (hs : s.Sound)
    (htables : TabulatedNodes graph graph.nodes s) {o : VariableOccurrence}
    (hdeclared : Declared graph o.1) (horigin : ReachesByExtends graph name o.1.declaredIn)
    (hsilent : Silent (after (mergeEntry entries (variableEntry graph s.tables name o)) s)) :
    Gathered graph s.tables name (insertNew Prod.fst os o)
      (value (mergeEntry entries (variableEntry graph s.tables name o)) s) := by
  obtain ⟨-, ⟨hvalue, existing, hexisting, hsymbol⟩ | ⟨hvalue, hempty, hnames⟩⟩ :=
    mergeEntry_silent hs hsilent
  · -- an entry with this symbol is an occurrence of the same variable
    have hmem : o.1 ∈ os.map Prod.fst := by
      cases hvariable : existing.info.isVariable with
      | false => exact absurd hsymbol (h.others existing hexisting hvariable o.1 hdeclared)
      | true =>
        have hin : existing ∈ entries.filter fun entry => entry.info.isVariable :=
          List.mem_filter.mpr ⟨hexisting, hvariable⟩
        rw [h.«variables»] at hin
        obtain ⟨o', ho', rfl⟩ := List.mem_map.mp hin
        have hsame := htables.infoOf_injective (h.declared o' ho') hdeclared hsymbol
        exact List.mem_map.mpr ⟨o', ho', hsame⟩
    rwa [hvalue, insertNew_of_mem hmem]
  · have hnot : o.1 ∉ os.map Prod.fst := by
      intro hmem
      obtain ⟨o', ho', hsame⟩ := List.mem_map.mp hmem
      have hin : variableEntry graph s.tables name o' ∈ entries := by
        have hmap := List.mem_map_of_mem (f := variableEntry graph s.tables name) ho'
        rw [← h.«variables»] at hmap
        exact List.mem_of_mem_filter hmap
      cases hname : (variableEntry graph s.tables name o).info.name.isEmpty with
      | true => exact hempty hname _ hin (by simp [hsame])
      | false => exact hnames hname _ hin (by rw [variableEntry_name, variableEntry_name, hsame])
    rw [hvalue, insertNew_of_not_mem hnot]
    refine ⟨?_, ?_, ?_, nodup_names_append h.names hnames, ?_⟩
    · rw [List.filter_append, h.«variables», List.map_append]
      rw [List.filter_cons_of_pos (by simp), List.filter_nil, List.map_singleton]
    · exact List.forall_mem_append.mpr ⟨h.declared, List.forall_mem_singleton.mpr hdeclared⟩
    · refine List.forall_mem_append.mpr ⟨h.others, List.forall_mem_singleton.mpr fun hfalse => ?_⟩
      simp at hfalse
    · refine List.forall_mem_append.mpr ⟨h.origins, List.forall_mem_singleton.mpr fun _ => ?_⟩
      rwa [variableEntry_declaredIn]

theorem Gathered.mergeAll (h : Gathered graph s.tables name os entries) (hs : s.Sound)
    (htables : TabulatedNodes graph graph.nodes s) {incoming : List ClosureEntry}
    {arriving : List VariableOccurrence}
    (hvariables : incoming.filter (fun entry => entry.info.isVariable) =
      arriving.map (variableEntry graph s.tables name))
    (hdeclared : ∀ o ∈ arriving, Declared graph o.1)
    (hothers : ∀ entry ∈ incoming, entry.info.isVariable = false →
      ∀ v, Declared graph v → entry.info.symbol ≠ (infoOf s.tables v).symbol)
    (horigins : ∀ entry ∈ incoming, entry.info.kind = .constant ∨ entry.info.kind = .variable →
      ReachesByExtends graph name entry.info.declaredIn)
    (hsilent : Silent (after (incoming.foldlM mergeEntry entries) s)) :
    after (incoming.foldlM mergeEntry entries) s = s ∧
      Gathered graph s.tables name (insertAll Prod.fst os arriving)
        (value (incoming.foldlM mergeEntry entries) s) := by
  induction incoming generalizing entries os arriving with
  | nil =>
    have hnil : arriving = [] := List.map_eq_nil_iff.mp hvariables.symm
    rw [hnil]
    exact ⟨rfl, h⟩
  | cons entry incoming ih =>
    rw [List.foldlM_cons, after_bind] at hsilent ⊢
    rw [value_bind]
    obtain ⟨hother, hotherRest⟩ := List.forall_mem_cons.mp hothers
    obtain ⟨horigin, horiginRest⟩ := List.forall_mem_cons.mp horigins
    have hfirst : Silent (after (mergeEntry entries entry) s) :=
      (steps_foldlM (R := Quiet) (fun _ _ _ => quiet_mergeEntry _ _) _ _).toLater.silent hsilent
    rw [(mergeEntry_silent hs hfirst).1] at hsilent ⊢
    cases hvariable : entry.info.isVariable with
    | false =>
      rw [List.filter_cons_of_neg (by simp [hvariable])] at hvariables
      exact ih (h.merge_other hs hvariable (hother hvariable) horigin hfirst) hvariables
        hdeclared hotherRest horiginRest hsilent
    | true =>
      rw [List.filter_cons_of_pos (by simp [hvariable])] at hvariables
      obtain ⟨o, arriving', rfl, rfl, hrest⟩ := List.map_eq_cons_iff.mp hvariables.symm
      obtain ⟨hfirstDeclared, hdeclaredRest⟩ := List.forall_mem_cons.mp hdeclared
      have hreach : ReachesByExtends graph name o.1.declaredIn := by
        rw [← variableEntry_declaredIn graph s.tables name]
        exact horigin (Or.inr (eq_of_beq hvariable))
      exact ih (h.merge_variable hs htables hfirstDeclared hreach hfirst) hrest.symm
        hdeclaredRest hotherRest horiginRest hsilent

end Merging
end MirrorsCore.Tla
