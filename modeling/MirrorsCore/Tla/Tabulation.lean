import Mathlib
import MirrorsCore.Tla.Effective
import MirrorsCore.Tla.Quiet

/-! What an error-free tabulation leaves: one table for each node, whose variable
entries are the module's declared variables, and symbols that are all distinct. -/

namespace MirrorsCore.Tla
open MirrorsCore.Lib

def SymbolInfo.isVariable (info : SymbolInfo) : Bool := info.kind == .variable

def tableVariables (table : ModuleTable) : List SymbolInfo :=
  table.entries.filter SymbolInfo.isVariable

def variableInfo (name : ModuleName) (logicalPath : String) (symbol : SymbolId)
    (declared : NameDecl × Bool) : SymbolInfo :=
  { symbol
    kind := .variable
    name := declared.1.name
    arity := 0
    fixity := .functional
    localDeclaration := declared.2
    declaredIn := name
    logicalPath
    declarationRange := declared.1.range }

/-- A table under construction: its header, the variables it holds, and its
symbols, which lie in the given interval. -/
structure Tabulated (start stop : Nat) (header : ModuleTable) (vars : List (NameDecl × Bool))
    (table : ModuleTable) : Prop where
  name : table.name = header.name
  logicalPath : table.logicalPath = header.logicalPath
  extendsEdges : table.extendsEdges = header.extendsEdges
  «variables» : List.Forall₂
    (fun info declared => info = variableInfo header.name header.logicalPath info.symbol declared)
    (tableVariables table) vars
  symbols : (table.entries.map SymbolInfo.symbol).Nodup
  bounds : ∀ entry ∈ table.entries, start ≤ entry.symbol ∧ entry.symbol < stop
  declaredIn : ∀ entry ∈ table.entries, entry.declaredIn = header.name

/-! ### Allocation and insertion -/

def allocatedInfo (table : ModuleTable) (symbol : SymbolId) (kind : SymbolKind) (name : String)
    (arity : Nat) (fixity : OperatorFixity) (localDeclaration : Bool) (range : SourceRange) :
    SymbolInfo :=
  { symbol, kind, name, arity, fixity, localDeclaration, declaredIn := table.name,
    logicalPath := table.logicalPath, declarationRange := range }

theorem allocateSymbol_silent {table : ModuleTable} {kind : SymbolKind} {name : String}
    {arity : Nat} {fixity : OperatorFixity} {localDeclaration : Bool} {range : SourceRange}
    {s : ElabState} (hs : s.Sound)
    (h : Silent (after (allocateSymbol table kind name arity fixity localDeclaration range) s)) :
    value (allocateSymbol table kind name arity fixity localDeclaration range) s =
        some (allocatedInfo table s.nextSymbol kind name arity fixity localDeclaration range) ∧
      after (allocateSymbol table kind name arity fixity localDeclaration range) s =
        { s with nextSymbol := s.nextSymbol + 1 } := by
  have hsilent : Silent s :=
    (quiet_allocateSymbol table kind name arity fixity localDeclaration range s).silent h
  have hhalted : s.halted = false := ElabState.Clean.not_halted ⟨hs, hsilent⟩
  rw [allocateSymbol] at h ⊢
  rw [after_bind, value_get, after_get, if_neg (by simp [hhalted])] at h
  rw [value_bind, after_bind, value_get, after_get, if_neg (by simp [hhalted])]
  split at h
  · exact absurd h (not_silent_report rfl hs fun _ herrors => herrors)
  · rename_i hlimit
    rw [if_neg hlimit]
    exact ⟨rfl, rfl⟩

theorem insertEntry_silent {table : ModuleTable} {entry : SymbolInfo} {s : ElabState}
    (hs : s.Sound) (h : Silent (after (insertEntry table entry) s)) :
    after (insertEntry table entry) s = s ∧
      (value (insertEntry table entry) s = { table with entries := table.entries ++ [entry] } ∨
        ∃ existing ∈ table.entries, existing.kind = .recursive ∧ entry.kind = .definition ∧
          existing.name = entry.name ∧ value (insertEntry table entry) s =
            { table with entries := table.entries.map (completeEntry existing entry) }) := by
  rw [insertEntry] at h ⊢
  split
  · exact ⟨rfl, Or.inl rfl⟩
  · rename_i existing hfind
    rw [hfind] at h
    dsimp only at h
    split at h
    · rename_i hkinds
      obtain ⟨hexisting, hentry⟩ := Bool.and_eq_true_iff.mp hkinds
      split at h
      · rename_i harity
        rw [if_pos hkinds, if_pos harity]
        have hfound := List.find?_some hfind
        have hnames := (Bool.and_eq_true_iff.mp hfound).2
        exact ⟨rfl, Or.inr ⟨existing, List.mem_of_find?_eq_some hfind, eq_of_beq hexisting,
          eq_of_beq hentry, eq_of_beq hnames, rfl⟩⟩
      · exact absurd h (not_silent_report rfl hs fun _ herrors => herrors)
    · exact absurd h (not_silent_report rfl hs fun _ herrors => herrors)

theorem declare_silent {kind : SymbolKind} {inheritedLocal : Bool} {table : ModuleTable}
    {name : String} {arity : Nat} {fixity : OperatorFixity} {range : SourceRange}
    {finish : SymbolInfo → SymbolInfo} {s : ElabState} (hs : s.Sound)
    (h : Silent (after (declare kind inheritedLocal table name arity fixity range finish) s)) :
    (after (declare kind inheritedLocal table name arity fixity range finish) s).nextSymbol =
        s.nextSymbol + 1 ∧
      ∃ info, info = finish (allocatedInfo table s.nextSymbol kind name arity fixity
          inheritedLocal range) ∧
        (value (declare kind inheritedLocal table name arity fixity range finish) s =
            { table with entries := table.entries ++ [info] } ∨
          ∃ existing ∈ table.entries, existing.kind = .recursive ∧ info.kind = .definition ∧
            existing.name = info.name ∧ value (declare kind inheritedLocal table name arity fixity range finish) s =
              { table with entries := table.entries.map (completeEntry existing info) }) := by
  rw [declare] at h ⊢
  rw [after_bind] at h
  have hquiet : ∀ allocated, Steps Quiet (match allocated with
      | some info => insertEntry table (finish info)
      | none => pure table) := by
    intro allocated
    cases allocated with
    | none => exact steps_pure _
    | some info => exact quiet_insertEntry table (finish info)
  obtain ⟨hvalue, hafter⟩ :=
    allocateSymbol_silent hs ((hquiet _ _).toLater.silent h)
  rw [hvalue, hafter] at h
  rw [value_bind, after_bind, hvalue, hafter]
  have hsound : ElabState.Sound { s with nextSymbol := s.nextSymbol + 1 } :=
    (quiet_set_nextSymbol s (Nat.le_succ _)).sound hs
  obtain ⟨hstate, htable⟩ := insertEntry_silent hsound h
  exact ⟨by rw [hstate], _, rfl, htable⟩

/-! ### Growing a table -/

section Growth
variable {start stop : Nat} {header table : ModuleTable} {vars : List (NameDecl × Bool)}

theorem Tabulated.mono (h : Tabulated start stop header vars table) {later : Nat}
    (hle : stop ≤ later) : Tabulated start later header vars table :=
  { h with bounds := fun entry hentry =>
      ⟨(h.bounds entry hentry).1, (h.bounds entry hentry).2.trans_le hle⟩ }

theorem nodup_symbols_append (h : Tabulated start stop header vars table) {entry : SymbolInfo}
    (hsymbol : entry.symbol = stop) : ((table.entries ++ [entry]).map SymbolInfo.symbol).Nodup := by
  rw [List.map_append, List.map_singleton, hsymbol, List.nodup_append]
  refine ⟨h.symbols, List.nodup_singleton _, ?_⟩
  intro symbol hmem last hlast
  obtain ⟨existing, hexisting, rfl⟩ := List.mem_map.mp hmem
  obtain rfl := List.mem_singleton.mp hlast
  exact (h.bounds existing hexisting).2.ne

theorem Tabulated.append (h : Tabulated start stop header vars table) (hle : start ≤ stop)
    {entry : SymbolInfo} {added : List (NameDecl × Bool)} (hsymbol : entry.symbol = stop)
    (hdeclared : entry.declaredIn = header.name)
    (hvariable : List.Forall₂ (fun info declared =>
      info = variableInfo header.name header.logicalPath info.symbol declared)
      ([entry].filter SymbolInfo.isVariable) added) :
    Tabulated start (stop + 1) header (vars ++ added)
      { table with entries := table.entries ++ [entry] } where
  name := h.name
  logicalPath := h.logicalPath
  extendsEdges := h.extendsEdges
  «variables» := by
    rw [tableVariables, List.filter_append]
    exact List.rel_append h.«variables» hvariable
  symbols := nodup_symbols_append h hsymbol
  bounds := by
    intro existing hexisting
    rcases List.mem_append.mp hexisting with hin | hin
    · exact (h.mono (Nat.le_succ _)).bounds existing hin
    · obtain rfl := List.mem_singleton.mp hin
      exact ⟨hsymbol ▸ hle, hsymbol ▸ Nat.lt_succ_self _⟩
  declaredIn := by
    intro existing hexisting
    rcases List.mem_append.mp hexisting with hin | hin
    · exact h.declaredIn existing hin
    · exact List.mem_singleton.mp hin ▸ hdeclared

theorem completeEntry_symbol (existing entry other : SymbolInfo) :
    (completeEntry existing entry other).symbol = other.symbol ∧
      (completeEntry existing entry other).kind = other.kind ∧
      (completeEntry existing entry other).declaredIn = other.declaredIn := by
  rw [completeEntry]
  split <;> exact ⟨rfl, rfl, rfl⟩

theorem Tabulated.complete (h : Tabulated start stop header vars table) {existing : SymbolInfo}
    (hexisting : existing ∈ table.entries) (hkind : existing.kind = .recursive)
    (entry : SymbolInfo) :
    Tabulated start stop header vars
      { table with entries := table.entries.map (completeEntry existing entry) } := by
  have hvariables : (table.entries.map (completeEntry existing entry)).filter
      SymbolInfo.isVariable = tableVariables table := by
    rw [List.filter_map, tableVariables]
    have hsame : SymbolInfo.isVariable ∘ completeEntry existing entry =
        SymbolInfo.isVariable := by
      funext other
      rw [Function.comp, SymbolInfo.isVariable, (completeEntry_symbol existing entry other).2.1,
        SymbolInfo.isVariable]
    rw [hsame]
    refine List.map_congr_left (g := id) (fun other hother => ?_) |>.trans (List.map_id _)
    obtain ⟨hother, hvariable⟩ := List.mem_filter.mp hother
    rw [completeEntry, if_neg, id]
    intro hsymbol
    have heq : other = existing :=
      eq_of_key_eq h.symbols hother hexisting (eq_of_beq hsymbol)
    rw [heq, SymbolInfo.isVariable, hkind] at hvariable
    exact Bool.noConfusion hvariable
  refine ⟨h.name, h.logicalPath, h.extendsEdges, ?_, ?_, ?_, ?_⟩
  · rw [tableVariables, hvariables]
    exact h.«variables»
  · rw [List.map_map]
    have hsame : SymbolInfo.symbol ∘ completeEntry existing entry = SymbolInfo.symbol :=
      funext fun other => (completeEntry_symbol existing entry other).1
    rw [hsame]
    exact h.symbols
  · intro other hother
    obtain ⟨inner, hinner, rfl⟩ := List.mem_map.mp hother
    rw [(completeEntry_symbol existing entry inner).1]
    exact h.bounds inner hinner
  · intro other hother
    obtain ⟨inner, hinner, rfl⟩ := List.mem_map.mp hother
    rw [(completeEntry_symbol existing entry inner).2.2]
    exact h.declaredIn inner hinner

/-- A later form of an entry: only a `RECURSIVE` one may have got another definition. -/
structure Updates (entry later : SymbolInfo) : Prop where
  name : later.name = entry.name
  kind : later.kind = entry.kind
  assumption : later.assumption? = entry.assumption?
  statement : later.theorem? = entry.theorem?
  definition : later.definition? = entry.definition? ∨ entry.kind = .recursive ∧
    ∃ definition, later.definition? = some definition ∧ definition.name = entry.name

theorem Updates.refl (entry : SymbolInfo) : Updates entry entry := ⟨rfl, rfl, rfl, rfl, Or.inl rfl⟩

theorem Updates.trans {entry mid later : SymbolInfo} (h : Updates entry mid)
    (h' : Updates mid later) : Updates entry later where
  name := h'.name.trans h.name
  kind := h'.kind.trans h.kind
  assumption := h'.assumption.trans h.assumption
  statement := h'.statement.trans h.statement
  definition := by
    rcases h'.definition with hsame | ⟨hkind, definition, hdefinition, hname⟩
    · rw [hsame]
      exact h.definition
    · exact Or.inr ⟨h.kind ▸ hkind, definition, hdefinition, hname.trans h.name⟩

/-- Every entry and every instance of the table is in the later one. -/
structure Grows (table later : ModuleTable) : Prop where
  entries : ∀ entry ∈ table.entries, ∃ entry' ∈ later.entries, Updates entry entry'
  sites : ∀ site ∈ table.instanceSites, ∃ site' ∈ later.instanceSites,
    site'.declaration = site.declaration

theorem Grows.refl (table : ModuleTable) : Grows table table :=
  ⟨fun entry hentry => ⟨entry, hentry, Updates.refl entry⟩, fun site hsite => ⟨site, hsite, rfl⟩⟩

theorem Grows.trans {mid later : ModuleTable} (h : Grows table mid) (h' : Grows mid later) :
    Grows table later where
  entries := fun entry hentry => by
    obtain ⟨entry', hentry', hupdates⟩ := h.entries entry hentry
    obtain ⟨last, hlast, hupdates'⟩ := h'.entries entry' hentry'
    exact ⟨last, hlast, hupdates.trans hupdates'⟩
  sites := fun site hsite => by
    obtain ⟨site', hsite', hsame⟩ := h.sites site hsite
    obtain ⟨last, hlast, hsame'⟩ := h'.sites site' hsite'
    exact ⟨last, hlast, hsame'.trans hsame⟩

theorem grows_append (table : ModuleTable) (entry : SymbolInfo) :
    Grows table { table with entries := table.entries ++ [entry] } :=
  ⟨fun other hother => ⟨other, List.mem_append_left _ hother, Updates.refl other⟩,
    (Grows.refl table).sites⟩

/-- Only the completed declaration is updated, since symbols are distinct. -/
theorem Tabulated.grows_complete (h : Tabulated start stop header vars table)
    {existing entry : SymbolInfo} (hexisting : existing ∈ table.entries)
    (hkind : existing.kind = .recursive) (hname : existing.name = entry.name)
    (hbody : ∃ definition, entry.definition? = some definition ∧ definition.name = entry.name) :
    Grows table { table with entries := table.entries.map (completeEntry existing entry) } where
  sites := (Grows.refl table).sites
  entries := fun other hother => by
    refine ⟨_, List.mem_map_of_mem hother, ?_⟩
    rw [completeEntry]
    split
    · rename_i hsymbol
      obtain rfl : other = existing :=
        eq_of_key_eq h.symbols hother hexisting (eq_of_beq hsymbol)
      exact ⟨rfl, rfl, rfl, rfl, Or.inr ⟨hkind, hname ▸ hbody⟩⟩
    · exact Updates.refl other

/-- The table has the body of a declaration; where the name was declared `RECURSIVE`, that of a
definition of the name. -/
def Holds (table : ModuleTable) : Declaration → Prop
  | .operator definition => ∃ entry ∈ table.entries, entry.name = definition.name ∧
      (entry.definition? = some definition ∨ entry.kind = .recursive ∧
        ∃ other, entry.definition? = some other ∧ other.name = definition.name)
  | .assumption declared => ∃ entry ∈ table.entries, entry.assumption? = some declared
  | .theoremDeclaration declared => ∃ entry ∈ table.entries, entry.theorem? = some declared
  | .instanceDeclaration declared => ∃ site ∈ table.instanceSites,
      site.declaration = { declared with isLocal := site.declaration.isLocal }
  | .localDeclaration _ inner => Holds table inner
  | .constant _ _ | .variable _ _ | .recursive _ _ | .extendsDeclaration _ => True

theorem Grows.holds {later : ModuleTable} (h : Grows table later) {declaration : Declaration}
    (hholds : Holds table declaration) : Holds later declaration := by
  induction declaration with
  | operator definition =>
    obtain ⟨entry, hentry, hname, hbody⟩ := hholds
    obtain ⟨entry', hentry', hupdates⟩ := h.entries entry hentry
    refine ⟨entry', hentry', hupdates.name.trans hname, ?_⟩
    rcases hupdates.definition with hsame | ⟨hkind, other, hother, hothername⟩
    · rw [hsame, hupdates.kind]
      exact hbody
    · exact Or.inr ⟨hupdates.kind.trans hkind, other, hother, hothername.trans hname⟩
  | assumption declared =>
    obtain ⟨entry, hentry, hbody⟩ := hholds
    obtain ⟨entry', hentry', hupdates⟩ := h.entries entry hentry
    exact ⟨entry', hentry', hupdates.assumption.trans hbody⟩
  | theoremDeclaration declared =>
    obtain ⟨entry, hentry, hbody⟩ := hholds
    obtain ⟨entry', hentry', hupdates⟩ := h.entries entry hentry
    exact ⟨entry', hentry', hupdates.statement.trans hbody⟩
  | instanceDeclaration declared =>
    obtain ⟨site, hsite, hdeclared⟩ := hholds
    obtain ⟨site', hsite', hsame⟩ := h.sites site hsite
    refine ⟨site', hsite', ?_⟩
    rw [hsame]
    exact hdeclared
  | localDeclaration range inner ih => exact ih hholds
  | constant | «variable» | recursive | extendsDeclaration => trivial

end Growth

/-! ### Tabulating declarations -/

/-- A silent run of `m` on `table` adds the variables `added` and ends in a table as `P` says. -/
def Adds (table : ModuleTable) (added : List (NameDecl × Bool)) (P : ModuleTable → Prop)
    (m : ElabM ModuleTable) : Prop :=
  ∀ ⦃start : Nat⦄ ⦃header : ModuleTable⦄ ⦃vars : List (NameDecl × Bool)⦄ ⦃s : ElabState⦄,
    s.Sound → start ≤ s.nextSymbol → Tabulated start s.nextSymbol header vars table →
    Silent (after m s) →
    Tabulated start (after m s).nextSymbol header (vars ++ added) (value m s) ∧
      Grows table (value m s) ∧ P (value m s)

theorem Adds.mono {table : ModuleTable} {added : List (NameDecl × Bool)}
    {P Q : ModuleTable → Prop} {m : ElabM ModuleTable} (h : Adds table added P m)
    (hPQ : ∀ later, P later → Q later) : Adds table added Q m := by
  intro start header vars s hs hstart htable hsilent
  obtain ⟨htabulated, hgrows, hP⟩ := h hs hstart htable hsilent
  exact ⟨htabulated, hgrows, hPQ _ hP⟩

theorem adds_pure (table : ModuleTable) : Adds table [] (fun _ => True) (pure table) := by
  intro start header vars s _ _ h _
  rw [List.append_nil]
  exact ⟨h, Grows.refl table, trivial⟩

theorem adds_declare_variable (table : ModuleTable) (declared : NameDecl) (inheritedLocal : Bool) :
    Adds table [(declared, inheritedLocal)] (fun _ => True)
      (declare .variable inheritedLocal table declared.name 0 .functional declared.range id) := by
  intro start header vars s hs hstart h hsilent
  obtain ⟨hnext, info, hinfo, hvalue⟩ := declare_silent hs hsilent
  rw [hnext]
  rcases hvalue with hvalue | ⟨-, -, -, hkind, -⟩
  · rw [hvalue]
    refine ⟨h.append hstart ?_ ?_ ?_, grows_append table info, trivial⟩
    · rw [hinfo]
      rfl
    · rw [hinfo]
      exact h.name
    · rw [hinfo, id, allocatedInfo, h.name, h.logicalPath]
      exact List.Forall₂.cons rfl List.Forall₂.nil
  · rw [hinfo] at hkind
    exact SymbolKind.noConfusion hkind

/-- What `finish` makes of the entry of a declaration: it adds the body. -/
structure Finishes (kind : SymbolKind) (name : String) (finish : SymbolInfo → SymbolInfo) :
    Prop where
  definition : kind = .definition → ∀ info,
    ∃ definition, (finish info).definition? = some definition ∧ definition.name = name
  symbol : ∀ info, (finish info).symbol = info.symbol
  kind : ∀ info, (finish info).kind = info.kind
  name : ∀ info, (finish info).name = info.name
  declaredIn : ∀ info, (finish info).declaredIn = info.declaredIn

theorem finishes_id {kind : SymbolKind} (hkind : kind ≠ .definition) (name : String) :
    Finishes kind name id :=
  ⟨fun h => absurd h hkind, fun _ => rfl, fun _ => rfl, fun _ => rfl, fun _ => rfl⟩

/-- Any other declaration: its entry is in the table, as it is or as the completion of a
`RECURSIVE` one. -/
theorem adds_declare_other (table : ModuleTable) {kind : SymbolKind} (hkind : kind ≠ .variable)
    (inheritedLocal : Bool) (name : String) (arity : Nat) (fixity : OperatorFixity)
    (range : SourceRange) {finish : SymbolInfo → SymbolInfo} (hfinish : Finishes kind name finish) :
    Adds table [] (fun later => ∃ symbol, ∃ entry ∈ later.entries, entry.name = name ∧
        entry.definition? = (finish (allocatedInfo table symbol kind name arity fixity
          inheritedLocal range)).definition? ∧
        (kind ≠ .definition → entry = finish (allocatedInfo table symbol kind name arity fixity
          inheritedLocal range)))
      (declare kind inheritedLocal table name arity fixity range finish) := by
  intro start header vars s hs hstart h hsilent
  obtain ⟨hnext, info, hinfo, hvalue⟩ := declare_silent hs hsilent
  have hinfoname : info.name = name := by
    rw [hinfo, hfinish.name]
    rfl
  rw [hnext]
  rcases hvalue with hvalue | ⟨existing, hexisting, hrecursive, hdefinition, hname, hvalue⟩
  -- A fresh entry.
  · rw [hvalue]
    refine ⟨h.append hstart ?_ ?_ ?_, grows_append table info, s.nextSymbol, info,
      List.mem_append_right _ List.mem_cons_self, hinfoname, hinfo ▸ rfl, fun _ => hinfo⟩
    · rw [hinfo, hfinish.symbol]
      rfl
    · rw [hinfo, hfinish.declaredIn]
      exact h.name
    · have hnot : info.isVariable = false := by
        rw [hinfo, SymbolInfo.isVariable, hfinish.kind]
        exact beq_eq_false_iff_ne.mpr hkind
      rw [List.filter_cons_of_neg (by simp [hnot]), List.filter_nil]
      exact List.Forall₂.nil
  -- The completion of a `RECURSIVE` declaration, which keeps its symbol.
  · have hkind' : kind = .definition := by
      rw [hinfo, hfinish.kind] at hdefinition
      exact hdefinition
    have hbody : ∃ definition, info.definition? = some definition ∧
        definition.name = info.name := by
      rw [hinfoname, hinfo]
      exact hfinish.definition hkind' _
    have hcompleted : completeEntry existing info existing =
        { existing with fixity := info.fixity, definition? := info.definition? } :=
      if_pos (beq_self_eq_true _)
    rw [hvalue, List.append_nil]
    refine ⟨(h.complete hexisting hrecursive info).mono (Nat.le_succ _),
      h.grows_complete hexisting hrecursive hname hbody, s.nextSymbol, _,
      List.mem_map_of_mem hexisting, ?_, ?_, fun hnot => absurd hkind' hnot⟩
    · rw [hcompleted]
      exact hname.trans hinfoname
    · rw [hcompleted, hinfo]

theorem adds_foldlM {ι : Type} (added : ι → List (NameDecl × Bool))
    {P : ι → ModuleTable → Prop}
    (hP : ∀ item table later, Grows table later → P item table → P item later)
    {f : ModuleTable → ι → ElabM ModuleTable} (hquiet : ∀ table item, Steps Quiet (f table item))
    (hadds : ∀ table item, Adds table (added item) (P item) (f table item)) (items : List ι)
    (table : ModuleTable) :
    Adds table (items.flatMap added) (fun later => ∀ item ∈ items, P item later)
      (items.foldlM f table) := by
  intro start header vars s hs hstart h hsilent
  have hinvariant := foldlM_invariant backward_quiet (fun table item _ => hquiet table item)
    (I := fun done later t => t.Sound ∧ start ≤ t.nextSymbol ∧
      Tabulated start t.nextSymbol header (vars ++ done.flatMap added) later ∧
      Grows table later ∧ ∀ item ∈ done, P item later)
    (fun done item _ current t ht hsilent => ?_) []
    ⟨hs, hstart, by simpa using h, Grows.refl table, nofun⟩ hsilent
  · exact hinvariant.2.2
  · obtain ⟨hsound, hle, htable, hgrown, hdone⟩ := ht
    have hlater := (hquiet current item t).toLater
    obtain ⟨hnext, hgrows, hitem⟩ := hadds current item hsound hle htable hsilent
    rw [List.append_assoc] at hnext
    rw [List.flatMap_append, List.flatMap_singleton]
    refine ⟨hlater.sound hsound, hle.trans hlater.symbols, hnext, hgrown.trans hgrows, ?_⟩
    refine List.forall_mem_append.mpr ⟨fun other hother => ?_, List.forall_mem_singleton.mpr hitem⟩
    exact hP other _ _ hgrows (hdone other hother)

theorem adds_declare_others {ι : Type} {kind : SymbolKind} (hkind : kind ≠ .variable)
    (hbodiless : kind ≠ .definition) (inheritedLocal : Bool) (name : ι → String) (arity : ι → Nat)
    (range : ι → SourceRange) (items : List ι) (table : ModuleTable) :
    Adds table [] (fun _ => True) (items.foldlM (fun current item =>
      declare kind inheritedLocal current (name item) (arity item) .functional (range item) id)
      table) := by
  have hfold := adds_foldlM (P := fun _ _ => True) (fun _ : ι => []) (fun _ _ _ _ h => h)
    (fun _ item => quiet_declare kind inheritedLocal _ (name item) (arity item) .functional
      (range item) id)
    (fun table item => (adds_declare_other table hkind inheritedLocal (name item) (arity item)
      .functional (range item) (finishes_id hbodiless (name item))).mono fun _ _ => trivial)
    items table
  rw [List.flatMap_eq_nil_iff.mpr fun _ _ => rfl] at hfold
  exact hfold.mono fun _ _ => trivial

theorem adds_tabulateDeclaration (table : ModuleTable) (declaration : Declaration)
    (inheritedLocal : Bool) :
    Adds table (variablesOf inheritedLocal declaration) (fun later => Holds later declaration)
      (tabulateDeclaration table declaration inheritedLocal) := by
  induction declaration generalizing inheritedLocal with
  | «variable» range names =>
    have hfold := adds_foldlM (P := fun _ _ => True) (fun declared => [(declared, inheritedLocal)])
      (fun _ _ _ _ h => h) (fun _ _ => quiet_declare _ _ _ _ _ _ _ _)
      (fun table declared => adds_declare_variable table declared inheritedLocal) names table
    rw [← List.map_eq_flatMap] at hfold
    exact hfold.mono fun _ _ => trivial
  | constant range names =>
    exact adds_declare_others (by decide) (by decide) inheritedLocal OperatorDecl.name (fun _ => 0)
      OperatorDecl.range names table
  | recursive range operators =>
    exact adds_declare_others (by decide) (by decide) inheritedLocal OperatorDecl.name
      OperatorDecl.arity OperatorDecl.range operators table
  | operator definition =>
    have hfinish : Finishes .definition definition.name
        fun info => { info with definition? := some definition } :=
      ⟨fun _ _ => ⟨definition, rfl, rfl⟩, fun _ => rfl, fun _ => rfl, fun _ => rfl, fun _ => rfl⟩
    refine (adds_declare_other table (by decide) inheritedLocal definition.name
      definition.parameters.length definition.fixity definition.nameRange hfinish).mono
      fun later hlater => ?_
    obtain ⟨symbol, entry, hentry, hname, hbody, -⟩ := hlater
    exact ⟨entry, hentry, hname, Or.inl hbody⟩
  | assumption declared =>
    have hfinish : Finishes .assumption (declared.name.getD "")
        fun info => { info with assumption? := some declared } :=
      ⟨fun h => absurd h (by decide), fun _ => rfl, fun _ => rfl, fun _ => rfl, fun _ => rfl⟩
    refine (adds_declare_other table (by decide) inheritedLocal (declared.name.getD "") 0
      .functional declared.range hfinish).mono fun later hlater => ?_
    obtain ⟨symbol, entry, hentry, -, -, hsame⟩ := hlater
    exact ⟨entry, hentry, hsame (by decide) ▸ rfl⟩
  | theoremDeclaration declared =>
    have hfinish : Finishes .theoremKind (declared.name.getD "")
        fun info => { info with theorem? := some declared } :=
      ⟨fun h => absurd h (by decide), fun _ => rfl, fun _ => rfl, fun _ => rfl, fun _ => rfl⟩
    refine (adds_declare_other table (by decide) inheritedLocal (declared.name.getD "") 0
      .functional declared.range hfinish).mono fun later hlater => ?_
    obtain ⟨symbol, entry, hentry, -, -, hsame⟩ := hlater
    exact ⟨entry, hentry, hsame (by decide) ▸ rfl⟩
  | localDeclaration range inner ih => exact ih true
  -- An instance is a site and no entry.
  | instanceDeclaration declaration =>
    intro start header vars s _ _ h _
    rw [variablesOf.eq_3 _ _ (by simp) (by simp), List.append_nil]
    refine ⟨⟨h.name, h.logicalPath, h.extendsEdges, h.«variables», h.symbols, h.bounds,
      h.declaredIn⟩, ⟨(Grows.refl table).entries, fun site hsite => ⟨site, ?_, rfl⟩⟩, _,
      List.mem_append_right _ List.mem_cons_self, ?_⟩
    · exact List.mem_append_left _ hsite
    · cases inheritedLocal <;> rfl
  | extendsDeclaration declaration => exact adds_pure table

/-! ### Tables of a graph -/

theorem countDeclaration_silent {table : ModuleTable} {range : SourceRange} {s : ElabState}
    (hs : s.Sound) (h : Silent (after (countDeclaration table range) s)) :
    value (countDeclaration table range) s = true ∧
      (after (countDeclaration table range) s).nextSymbol = s.nextSymbol := by
  rw [countDeclaration] at h ⊢
  rw [after_bind, value_get, after_get] at h
  rw [value_bind, after_bind, value_get, after_get]
  split at h
  · exact absurd h (not_silent_report rfl hs fun _ herrors => herrors)
  · rename_i hlimit
    rw [if_neg hlimit]
    exact ⟨rfl, rfl⟩

theorem adds_tabulateCounted (table : ModuleTable) (declaration : Declaration) :
    Adds table (variablesOf false declaration) (fun later => Holds later declaration)
      (tabulateCounted table declaration) := by
  intro start header vars s hs hstart h hsilent
  rw [tabulateCounted, after_bind] at hsilent ⊢
  rw [value_bind]
  have hquiet : ∀ charged, Steps Quiet (if charged = true then
      tabulateDeclaration table declaration false else pure table) := by
    intro charged
    split
    · exact quiet_tabulateDeclaration _ _ _
    · exact steps_pure _
  obtain ⟨hvalue, hnext⟩ := countDeclaration_silent hs ((hquiet _ _).toLater.silent hsilent)
  have hsound := (quiet_countDeclaration table declaration.range s).sound hs
  rw [hvalue, if_pos rfl] at hsilent ⊢
  refine adds_tabulateDeclaration table declaration false hsound ?_ ?_ hsilent
  · rwa [hnext]
  · rwa [hnext]

theorem quiet_tabulateCounted (table : ModuleTable) (declaration : Declaration) :
    Steps Quiet (tabulateCounted table declaration) := by
  refine (quiet_countDeclaration _ _).bind fun charged => ?_
  split
  · exact quiet_tabulateDeclaration _ _ _
  · exact steps_pure _

theorem quiet_buildTable (graph : ResolvedModuleGraph) (node : ModuleNode) :
    Steps Quiet (buildTable graph node) :=
  (steps_foldlM (fun _ _ _ => quiet_tabulateCounted _ _) _).bind fun _ => steps_pure _

/-- The table of one node, with symbols from `start` to `stop` and the bodies of the module. -/
structure NodeTable (graph : ResolvedModuleGraph) (start stop : Nat) (node : ModuleNode)
    (table : ModuleTable) : Prop
    extends Tabulated start stop (emptyTable graph node) (moduleVariables node) table where
  holds : ∀ declaration ∈ node.module.declarations, Holds table declaration

theorem grows_resolveSites (graph : ResolvedModuleGraph) (owner : ModuleName)
    (table : ModuleTable) :
    Grows table { table with
      instanceSites := table.instanceSites.map (resolveInstanceSite graph owner) } where
  entries := (Grows.refl table).entries
  sites := fun site hsite => by
    refine ⟨_, List.mem_map_of_mem hsite, ?_⟩
    rw [resolveInstanceSite]
    split <;> rfl

theorem buildTable_silent {graph : ResolvedModuleGraph} {node : ModuleNode} {s : ElabState}
    (hs : s.Sound) (h : Silent (after (buildTable graph node) s)) :
    NodeTable graph s.nextSymbol (after (buildTable graph node) s).nextSymbol node
      (value (buildTable graph node) s) := by
  have hempty : Tabulated s.nextSymbol s.nextSymbol (emptyTable graph node) []
      (emptyTable graph node) :=
    ⟨rfl, rfl, rfl, List.Forall₂.nil, List.nodup_nil, by simp [emptyTable], by simp [emptyTable]⟩
  obtain ⟨hfold, -, hholds⟩ := adds_foldlM (variablesOf false)
    (P := fun declaration later => Holds later declaration)
    (fun _ _ _ hgrows hheld => hgrows.holds hheld) quiet_tabulateCounted adds_tabulateCounted
    node.module.declarations (emptyTable graph node) hs le_rfl hempty h
  refine ⟨⟨hfold.name, hfold.logicalPath, hfold.extendsEdges, hfold.«variables», hfold.symbols,
    hfold.bounds, hfold.declaredIn⟩, fun declaration hdeclaration => ?_⟩
  exact (grows_resolveSites graph node.name _).holds (hholds declaration hdeclaration)

def tableEntries (tables : List ModuleTable) : List SymbolInfo :=
  tables.flatMap ModuleTable.entries

/-- The tables of `nodes`, with one symbol for each entry. -/
structure TabulatedNodes (graph : ResolvedModuleGraph) (nodes : List ModuleNode)
    (s : ElabState) : Prop where
  tables : List.Forall₂ (fun node table => ∃ start stop, NodeTable graph start stop node table)
    nodes s.tables
  symbols : ((tableEntries s.tables).map SymbolInfo.symbol).Nodup
  bounds : ∀ entry ∈ tableEntries s.tables, entry.symbol < s.nextSymbol

theorem TabulatedNodes.append {graph : ResolvedModuleGraph} {nodes : List ModuleNode}
    {node : ModuleNode} {s t : ElabState} {table : ModuleTable}
    (h : TabulatedNodes graph nodes s) (htables : t.tables = s.tables ++ [table])
    (hle : s.nextSymbol ≤ t.nextSymbol)
    (htable : NodeTable graph s.nextSymbol t.nextSymbol node table) :
    TabulatedNodes graph (nodes ++ [node]) t where
  tables := by
    rw [htables]
    exact List.rel_append h.tables (List.Forall₂.cons ⟨_, _, htable⟩ List.Forall₂.nil)
  symbols := by
    rw [htables, tableEntries, List.flatMap_append, List.flatMap_singleton, List.map_append,
      List.nodup_append]
    refine ⟨h.symbols, htable.symbols, ?_⟩
    intro symbol hmem symbol' hmem'
    obtain ⟨entry, hentry, rfl⟩ := List.mem_map.mp hmem
    obtain ⟨entry', hentry', rfl⟩ := List.mem_map.mp hmem'
    exact ((h.bounds entry hentry).trans_le (htable.bounds entry' hentry').1).ne
  bounds := by
    rw [htables, tableEntries, List.flatMap_append, List.flatMap_singleton]
    intro entry hentry
    rcases List.mem_append.mp hentry with hin | hin
    · exact (h.bounds entry hin).trans_le hle
    · exact (htable.bounds entry hin).2

structure Unmemoized (s t : ElabState) : Prop extends Later s t where
  closures : t.closures = s.closures

instance : IsPreorder ElabState Unmemoized where
  refl s := ⟨refl_of Later s, rfl⟩
  trans _ _ _ h h' := ⟨trans_of Later h.toLater h'.toLater, h'.closures.trans h.closures⟩

theorem backward_unmemoized : Backward Unmemoized Silent := fun _ _ h => h.toLater.silent

theorem unmemoized_tabulateNode (graph : ResolvedModuleGraph) (node : ModuleNode) :
    Steps Unmemoized (tabulateNode graph node) := by
  refine steps_get.bind fun state => ?_
  split
  · exact steps_pure _
  intro s
  have hquiet := quiet_buildTable graph node s
  exact ⟨⟨fun hs => ⟨(hquiet.sound hs).halted, (hquiet.sound hs).notified⟩, hquiet.errors,
    hquiet.symbols⟩, hquiet.closures⟩

theorem unmemoized_tabulateGraph (graph : ResolvedModuleGraph) :
    Steps Unmemoized (tabulateGraph graph) :=
  steps_forM fun node _ => unmemoized_tabulateNode graph node

theorem tabulateGraph_silent {graph : ResolvedModuleGraph} {s : ElabState} (hs : s.Sound)
    (htables : s.tables = []) (h : Silent (after (tabulateGraph graph) s)) :
    TabulatedNodes graph graph.nodes (after (tabulateGraph graph) s) := by
  have hstart : TabulatedNodes graph [] s := by
    refine ⟨?_, ?_, ?_⟩ <;> rw [htables]
    · exact List.Forall₂.nil
    · exact List.nodup_nil
    · simp [tableEntries]
  refine (forM_invariant backward_unmemoized
    (fun node _ => unmemoized_tabulateNode graph node)
    (I := fun done t => t.Sound ∧ TabulatedNodes graph done t)
    (fun done node _ t ht hsilent => ?_) [] ⟨hs, hstart⟩ h).2
  obtain ⟨hsound, hdone⟩ := ht
  have hlater := (unmemoized_tabulateNode graph node t).toLater
  refine ⟨hlater.sound hsound, ?_⟩
  have hhalted : t.halted = false :=
    ElabState.Clean.not_halted ⟨hsound, hlater.silent hsilent⟩
  rw [tabulateNode, after_bind, value_get, after_get, if_neg (by simp [hhalted])] at hsilent ⊢
  have hquiet := quiet_buildTable graph node t
  have htable := buildTable_silent hsound
    (show Silent (after (buildTable graph node) t) from hsilent)
  refine hdone.append ?_ hquiet.symbols htable
  rw [after_bind, after_bind, after_get, value_get, after_set, hquiet.tables]

end MirrorsCore.Tla
