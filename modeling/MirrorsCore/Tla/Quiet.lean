import Mathlib
import MirrorsCore.Lib.StateSteps
import MirrorsCore.Tla.Elaborate

/-! What the stages leave alone: no error is ever taken back, and only tabulation
and the memo of `closureOf` write the tables and the closures. -/

namespace MirrorsCore.Tla
open MirrorsCore.Lib

namespace ElabState

/-- Halting and dropped diagnostics never happen without an error. -/
structure Sound (s : ElabState) : Prop where
  halted : s.halted = true → s.buffer.hasErrors = true
  notified : s.truncatedNotified = true → s.buffer.hasErrors = true

/-- A state that `elaborate` accepts. -/
def Clean (s : ElabState) : Prop := s.Sound ∧ s.buffer.hasErrors = false

theorem Clean.not_halted {s : ElabState} (h : s.Clean) : s.halted = false := by
  cases hhalted : s.halted with
  | false => rfl
  | true => exact absurd (h.1.halted hhalted) (by simp [h.2])

theorem Clean.not_failed {s : ElabState} (h : s.Clean) : failed s = false := by
  rw [failed, h.not_halted, Bool.false_or]
  exact h.2

end ElabState

/-- A step that keeps soundness and errors. -/
structure Later (s t : ElabState) : Prop where
  sound : s.Sound → t.Sound
  errors : s.buffer.hasErrors = true → t.buffer.hasErrors = true
  symbols : s.nextSymbol ≤ t.nextSymbol

instance : IsPreorder ElabState Later where
  refl _ := ⟨id, id, Nat.le_refl _⟩
  trans _ _ _ h h' := ⟨h'.sound ∘ h.sound, h'.errors ∘ h.errors, h.symbols.trans h'.symbols⟩

/-- A step that also keeps the tables, and every memo. -/
structure Settled (s t : ElabState) : Prop extends Later s t where
  tables : t.tables = s.tables
  memos : s.closures ⊆ t.closures

instance : IsPreorder ElabState Settled where
  refl s := ⟨refl_of Later s, rfl, List.Subset.refl _⟩
  trans _ _ _ h h' := ⟨trans_of Later h.toLater h'.toLater, h'.tables.trans h.tables,
    List.Subset.trans h.memos h'.memos⟩

/-- A step that adds no memo. -/
structure Quiet (s t : ElabState) : Prop extends Later s t where
  tables : t.tables = s.tables
  closures : t.closures = s.closures

theorem Quiet.toSettled {s t : ElabState} (h : Quiet s t) : Settled s t :=
  ⟨h.toLater, h.tables, h.closures ▸ List.Subset.refl _⟩

instance : IsPreorder ElabState Quiet where
  refl s := ⟨refl_of Later s, rfl, rfl⟩
  trans _ _ _ h h' := ⟨trans_of Later h.toLater h'.toLater, h'.tables.trans h.tables,
    h'.closures.trans h.closures⟩

/-- Accepting is a property of the past. -/
theorem Later.clean {s t : ElabState} (h : Later s t) (hs : s.Sound) (ht : t.Clean) :
    s.Clean := by
  refine ⟨hs, ?_⟩
  cases herrors : s.buffer.hasErrors with
  | false => rfl
  | true => exact absurd (h.errors herrors) (by simp [ht.2])

/-- No error is recorded: the property of states that a later state hands back. -/
def Silent (s : ElabState) : Prop := s.buffer.hasErrors = false

theorem Later.silent {s t : ElabState} (h : Later s t) (ht : Silent t) : Silent s := by
  cases herrors : s.buffer.hasErrors with
  | false => exact herrors
  | true => exact absurd (h.errors herrors) (by simp [show t.buffer.hasErrors = false from ht])

theorem backward_settled : Backward Settled Silent := fun _ _ h => h.toLater.silent

theorem backward_quiet : Backward Quiet Silent := fun _ _ h => h.toLater.silent

/-! ### Reporting -/

theorem hasErrors_report {diagnostic : Diagnostic} (h : diagnostic.hasErrorSeverity = true)
    {s : ElabState} (hs : s.Sound) : (after (report diagnostic) s).buffer.hasErrors = true := by
  rw [report, after_bind, value_get, after_get]
  dsimp only
  split
  · exact DiagnosticBuffer.hasErrors_pushForced rfl
  · rename_i hnotice
    rcases DiagnosticBuffer.hasErrors_or_truncated_push h with hpush | htruncated
    · exact hpush
    · -- the notice was given before, with its own error
      rw [htruncated, Bool.true_and, Bool.not_eq_true, Bool.not_eq_false'] at hnotice
      exact DiagnosticBuffer.hasErrors_push (hs.notified hnotice)

theorem not_silent_report {α : Type} {diagnostic : Diagnostic}
    (h : diagnostic.hasErrorSeverity = true) {f : PUnit → ElabM α} {s : ElabState}
    (hs : s.Sound)
    (hf : ∀ t, t.buffer.hasErrors = true → (after (f ⟨⟩) t).buffer.hasErrors = true) :
    ¬ Silent (after (report diagnostic >>= f) s) := by
  intro hsilent
  have herrors := hf _ (hasErrors_report h hs)
  exact absurd (herrors.symm.trans hsilent) Bool.noConfusion

theorem quiet_report {diagnostic : Diagnostic} (h : diagnostic.hasErrorSeverity = true) :
    Steps Quiet (report diagnostic) := by
  intro s
  have herrors : s.buffer.hasErrors = true →
      (after (report diagnostic) s).buffer.hasErrors = true := by
    intro hs
    rw [report, after_bind, value_get, after_get]
    dsimp only
    split
    · exact DiagnosticBuffer.hasErrors_pushForced rfl
    · exact DiagnosticBuffer.hasErrors_push hs
  have hsound : s.Sound → (after (report diagnostic) s).Sound := fun hs =>
    ⟨fun _ => hasErrors_report h hs, fun _ => hasErrors_report h hs⟩
  have hrest : (after (report diagnostic) s).nextSymbol = s.nextSymbol ∧
      (after (report diagnostic) s).tables = s.tables ∧
      (after (report diagnostic) s).closures = s.closures := by
    rw [report, after_bind, value_get, after_get]
    dsimp only
    split <;> exact ⟨rfl, rfl, rfl⟩
  exact ⟨⟨hsound, herrors, hrest.1.ge⟩, hrest.2.1, hrest.2.2⟩

theorem quiet_report_halt {diagnostic : Diagnostic} (h : diagnostic.hasErrorSeverity = true)
    {m : ElabM Unit} (hm : Steps Quiet m) :
    Steps Quiet (do report diagnostic; m; halt) := by
  intro s
  have hreport := quiet_report h s
  have hrest := hm (after (report diagnostic) s)
  have hquiet := trans_of Quiet hreport hrest
  refine ⟨⟨fun hs => ?_, hquiet.errors, hquiet.symbols⟩, hquiet.tables, hquiet.closures⟩
  have herrors := hrest.errors (hasErrors_report h hs)
  exact ⟨fun _ => herrors, fun _ => herrors⟩

theorem quiet_set_nextSymbol (s : ElabState) {n : Nat} (h : s.nextSymbol ≤ n) :
    Quiet s { s with nextSymbol := n } :=
  ⟨⟨fun hs => ⟨hs.halted, hs.notified⟩, id, h⟩, rfl, rfl⟩

/-! ### Allocation and merging -/

theorem quiet_allocateSymbol (table : ModuleTable) (kind : SymbolKind) (name : String)
    (arity : Nat) (fixity : OperatorFixity) (localDeclaration : Bool) (range : SourceRange) :
    Steps Quiet (allocateSymbol table kind name arity fixity localDeclaration range) := by
  refine steps_get_bind fun s => ?_
  split
  · exact refl_of Quiet s
  split
  · exact quiet_report_halt rfl (steps_pure ()) s
  · exact quiet_set_nextSymbol s (Nat.le_succ _)

theorem quiet_insertEntry (table : ModuleTable) (entry : SymbolInfo) :
    Steps Quiet (insertEntry table entry) := by
  rw [insertEntry]
  split
  · exact steps_pure _
  split
  · split
    · exact steps_pure _
    · exact (quiet_report rfl).bind fun _ => steps_pure _
  · exact (quiet_report rfl).bind fun _ => steps_pure _

theorem quiet_declare (kind : SymbolKind) (inheritedLocal : Bool) (table : ModuleTable)
    (name : String) (arity : Nat) (fixity : OperatorFixity) (range : SourceRange)
    (finish : SymbolInfo → SymbolInfo) :
    Steps Quiet (declare kind inheritedLocal table name arity fixity range finish) := by
  refine (quiet_allocateSymbol table kind name arity fixity inheritedLocal range).bind
    fun allocated => ?_
  cases allocated with
  | none => exact steps_pure _
  | some info => exact quiet_insertEntry table (finish info)

theorem quiet_tabulateDeclaration (table : ModuleTable) (declaration : Declaration)
    (inheritedLocal : Bool) :
    Steps Quiet (tabulateDeclaration table declaration inheritedLocal) := by
  induction declaration generalizing inheritedLocal with
  | constant range names | «variable» range names | recursive range operators =>
    exact steps_foldlM (fun _ _ _ => quiet_declare _ _ _ _ _ _ _ _) _
  | operator definition | assumption declared | theoremDeclaration declared =>
    exact quiet_declare _ _ _ _ _ _ _ _
  | localDeclaration range inner ih => exact ih true
  | instanceDeclaration declaration => exact steps_pure _
  | extendsDeclaration declaration => exact steps_pure _

theorem quiet_countDeclaration (table : ModuleTable) (range : SourceRange) :
    Steps Quiet (countDeclaration table range) := by
  refine steps_get_bind fun s => ?_
  split
  · exact quiet_report_halt rfl (steps_pure ()) s
  · exact ⟨⟨fun hs => ⟨hs.halted, hs.notified⟩, id, le_rfl⟩, rfl, rfl⟩

theorem quiet_mergeEntry (entries : List ClosureEntry) (entry : ClosureEntry) :
    Steps Quiet (mergeEntry entries entry) := by
  rw [mergeEntry]
  split
  · split <;> exact steps_pure _
  split
  · exact steps_pure _
  split
  · exact steps_pure _
  · exact (quiet_report rfl).bind fun _ => steps_pure _

theorem quiet_allocateFor (table : ModuleTable) (kind : SymbolKind) (name : String)
    (arity : Nat) (fixity : OperatorFixity) (site : InstanceSite) (range : SourceRange)
    (finish : SymbolInfo → SymbolInfo) :
    Steps Quiet (allocateFor table kind name arity fixity site range finish) :=
  (quiet_allocateSymbol _ _ _ _ _ _ _).bind fun _ => steps_pure _

theorem quiet_mergeSome (entries : List ClosureEntry) (importPath : List ModuleName)
    (frames : List InstanceFrame) (result : Option SymbolInfo) :
    Steps Quiet (mergeSome entries importPath frames result) := by
  cases result with
  | none => exact steps_pure _
  | some info => exact quiet_mergeEntry _ _

theorem quiet_mergeAllocated {allocated : ElabM (Option SymbolInfo)}
    (hallocated : Steps Quiet allocated) (entries : List ClosureEntry)
    (importPath : List ModuleName) (frames : List InstanceFrame) :
    Steps Quiet (mergeAllocated allocated entries importPath frames) :=
  hallocated.bind fun result => quiet_mergeSome entries importPath frames result

/-! ### Checking stages -/

theorem quiet_reportArity (table : ModuleTable) (range : SourceRange) (rendered : String)
    (argumentCount expected : Nat) (declaration? : Option SymbolInfo) :
    Steps Quiet (reportArity table range rendered argumentCount expected declaration?) := by
  cases declaration? <;> exact quiet_report rfl

theorem quiet_checkArity (profile : LanguageProfile) (table : ModuleTable)
    (reference : OperatorRef) (argumentCount expected : Nat) (declaration? : Option SymbolInfo) :
    Steps Quiet (checkArity profile table reference argumentCount expected declaration?) := by
  rw [checkArity]
  split
  · exact steps_pure _
  · exact quiet_reportArity _ _ _ _ _ _

theorem quiet_checkExplicitSubstitutions (table : ModuleTable) (site : InstanceSite)
    (targets : List ClosureEntry) :
    Steps Quiet (checkExplicitSubstitutions table site targets) := by
  refine (steps_foldlM (fun seen substitution _ => ?_) []).bind fun _ => steps_pure _
  rw [checkExplicitSubstitution]
  split
  · exact (quiet_report rfl).bind fun _ => steps_pure _
  split
  · exact (quiet_report rfl).bind fun _ => steps_pure _
  split
  · exact (quiet_report rfl).bind fun _ => steps_pure _
  · exact steps_pure _

theorem quiet_checkImplicitSubstitutions (table : ModuleTable) (closure : ClosureResult)
    (site : InstanceSite) (targets : List ClosureEntry) :
    Steps Quiet (checkImplicitSubstitutions table closure site targets) := by
  refine steps_forM fun target _ => ?_
  rw [checkImplicitSubstitution]
  split
  · exact steps_pure _
  split
  · exact quiet_report rfl
  split
  · exact quiet_report rfl
  · exact steps_pure _

theorem quiet_checkInstances : Steps Quiet checkInstances := by
  refine steps_get.bind fun state => steps_forM fun table _ => steps_get.bind fun latest => ?_
  split
  · split
    · exact steps_pure _
    · refine steps_get.bind fun current => steps_forM fun site _ => ?_
      rw [checkModuleInstance]
      split
      · exact quiet_checkExplicitSubstitutions _ _ _
      split
      · exact steps_pure _
      · exact (quiet_checkExplicitSubstitutions _ _ _).bind fun _ =>
          quiet_checkImplicitSubstitutions _ _ _ _
  · exact steps_pure _

theorem quiet_resolveQualified (profile : LanguageProfile) (table : ModuleTable)
    (closure : ClosureResult) (reference : OperatorRef) (argumentCount : Nat)
    (qualifier : String) :
    Steps Quiet (resolveQualified profile table closure reference argumentCount qualifier) := by
  refine steps_get.bind fun state => ?_
  dsimp only
  split
  · exact quiet_report rfl
  split
  · exact quiet_report rfl
  split
  · split
    · exact quiet_checkArity _ _ _ _ _ _
    · exact quiet_report rfl
  · split
    · exact quiet_report rfl
    split
    · exact quiet_report rfl
    · exact quiet_checkArity _ _ _ _ _ _

theorem quiet_resolveReference (profile : LanguageProfile) (table : ModuleTable)
    (closure : ClosureResult) (names : List (String × Nat)) (reference : OperatorRef)
    (argumentCount : Nat) :
    Steps Quiet (resolveReference profile table closure names reference argumentCount) := by
  rw [resolveReference]
  split
  · exact quiet_resolveQualified _ _ _ _ _ _
  split
  · exact quiet_checkArity _ _ _ _ _ _
  split
  · exact quiet_checkArity _ _ _ _ _ _
  split
  · split
    · exact steps_pure _
    · exact quiet_reportArity _ _ _ _ _ _
  split
  · exact quiet_checkArity _ _ _ _ _ _
  · exact quiet_report rfl

theorem quiet_whenSome {α : Type} (item : Option α) {action : α → ElabM Unit}
    (h : ∀ item, Steps Quiet (action item)) : Steps Quiet (whenSome item action) := by
  cases item with
  | none => exact steps_pure _
  | some item => exact h item

section Traversal
variable {resolve : List (String × Nat) → Expression → ElabM Unit}

theorem quiet_resolveUnder (hresolve : ∀ names expression, Steps Quiet (resolve names expression))
    (names : List (String × Nat)) (bounds : List Bound) (body : Expression) :
    Steps Quiet (resolveUnder resolve names bounds body) := by
  exact (steps_foldlM (fun current bound _ =>
    (quiet_whenSome bound.domain (hresolve current)).bind fun _ => steps_pure _) names).bind
    fun extended => hresolve extended body

theorem quiet_resolveExpression (profile : LanguageProfile) (table : ModuleTable)
    (closure : ClosureResult) (fuel : Nat) (names : List (String × Nat))
    (expression : Expression) :
    Steps Quiet (resolveExpression profile table closure fuel names expression) := by
  induction fuel generalizing names expression with
  | zero => exact quiet_report_halt rfl (steps_pure ())
  | succ fuel ih =>
    cases expression with
    | name reference range => exact quiet_resolveReference _ _ _ _ _ _
    | boolean | integer | string | currentValue => exact steps_pure _
    | tuple items range | set items range => exact steps_forM fun item _ => ih names item
    | record fields range | recordSet fields range =>
      exact steps_forM fun field _ => ih names field.value
    | function bounds body range | choose bounds body range | quantifier kind bounds body range
    | setBuilder body bounds range | setFilter bounds body range =>
      exact quiet_resolveUnder ih names bounds body
    | functionSet first second range | functionApply first second range =>
      exact (ih names first).bind fun _ => ih names second
    | apply reference arguments range =>
      exact (quiet_resolveReference _ _ _ _ _ _).bind fun _ =>
        steps_forM fun argument _ => ih names argument
    | select base field range => exact ih names base
    | ifThenElse condition thenBranch elseBranch range =>
      exact (ih names condition).bind fun _ => (ih names thenBranch).bind fun _ =>
        ih names elseBranch
    | case arms range =>
      exact steps_forM fun arm _ =>
        (quiet_whenSome arm.guard (ih names)).bind fun _ => ih names arm.value
    | letIn definitions body range =>
      exact (steps_forM fun definition _ => ih _ definition.body).bind fun _ => ih _ body
    | except base specifications range =>
      refine (ih names base).bind fun _ => steps_forM fun specification _ => ?_
      refine (steps_forM fun element _ => ?_).bind fun _ => ih names specification.value
      cases element with
      | index index range => exact ih names index
      | field name range => exact steps_pure _

end Traversal

theorem quiet_resolveEntry (profile : LanguageProfile) (table : ModuleTable)
    (closure : ClosureResult) (entry : SymbolInfo) :
    Steps Quiet (resolveEntry profile table closure entry) := by
  have hresolve := quiet_resolveExpression profile table closure (expressionFuel table)
  exact (quiet_whenSome _ fun _ => hresolve _ _).bind fun _ =>
    (quiet_whenSome _ fun _ => hresolve _ _).bind fun _ =>
      quiet_whenSome _ fun _ => hresolve _ _

theorem quiet_resolveGraph (profile : LanguageProfile) (graph : ResolvedModuleGraph) :
    Steps Quiet (resolveGraph profile graph) := by
  refine steps_forM fun node _ => steps_get.bind fun state => ?_
  split
  · exact steps_pure _
  refine steps_get.bind fun current => ?_
  split
  · exact steps_pure _
  split
  · exact steps_pure _
  split
  · exact steps_pure _
  · exact steps_forM fun entry _ => quiet_resolveEntry _ _ _ _

theorem quiet_reportEnabledProblems (problems : List SourceLocation) :
    Steps Quiet (reportEnabledProblems problems) := steps_forM fun _ _ => quiet_report rfl

theorem quiet_set_levels (s : ElabState) (levels : List (SymbolId × Level)) :
    Quiet s { s with levels } :=
  ⟨⟨fun hs => ⟨hs.halted, hs.notified⟩, id, le_rfl⟩, rfl, rfl⟩

theorem quiet_iterateLevels (budget : Nat) (loop : LevelLoop) :
    Steps Quiet (iterateLevels budget loop) := by
  induction budget generalizing loop with
  | zero => exact steps_pure _
  | succ budget ih =>
    rw [iterateLevels]
    split
    · exact steps_get_bind fun s =>
        trans_of Quiet (quiet_set_levels s (levelPass s).levels) (ih _ _)
    · exact steps_pure _

theorem quiet_computeLevels : Steps Quiet computeLevels := by
  refine steps_get_bind fun s => ?_
  rw [after_bind, after_set]
  refine trans_of Quiet (quiet_set_levels s (initialLevels s)) ?_
  dsimp only
  refine ((quiet_iterateLevels _ _).bind fun loop => steps_get.bind fun final => ?_) _
  split
  · exact quiet_report_halt rfl (quiet_reportEnabledProblems _)
  · exact quiet_reportEnabledProblems _

theorem quiet_checkActualLevel (table : ModuleTable) (scope : SymbolLevels)
    (substitution : Substitution) : Steps Quiet (checkActualLevel table scope substitution) := by
  rw [checkActualLevel]
  split
  · refine (quiet_reportEnabledProblems _).bind fun _ => ?_
    split
    · exact quiet_report rfl
    · exact steps_pure _
  · exact (quiet_reportEnabledProblems _).bind fun _ => quiet_report rfl

theorem quiet_checkImplicitLevel (table : ModuleTable) (closure : ClosureResult)
    (levels : List (SymbolId × Level)) (site : InstanceSite) (target : ClosureEntry) :
    Steps Quiet (checkImplicitLevel table closure levels site target) := by
  rw [checkImplicitLevel]
  split
  · exact steps_pure _
  split
  · exact steps_pure _
  dsimp only
  split
  · exact quiet_report rfl
  · exact steps_pure _

theorem quiet_checkSubstitutionLevels : Steps Quiet checkSubstitutionLevels := by
  refine steps_get.bind fun state => steps_forM fun table _ => steps_get.bind fun latest => ?_
  split
  · split
    · exact steps_pure _
    · refine steps_forM fun site _ => ?_
      rw [checkSiteLevels]
      split
      · refine (steps_forM fun _ _ => quiet_checkActualLevel _ _ _).bind fun _ => ?_
        split
        · exact steps_pure _
        · exact steps_forM fun _ _ => quiet_checkImplicitLevel _ _ _ _ _
      · exact steps_pure _
  · exact steps_pure _

theorem quiet_checkAssumptions : Steps Quiet checkAssumptions := by
  refine steps_get.bind fun state => steps_forM fun table _ => steps_forM fun entry _ => ?_
  rw [checkAssumption]
  split
  · exact steps_pure _
  dsimp only
  split
  · exact quiet_report rfl
  · exact steps_pure _

theorem Steps.whenNotDone {R : ElabState → ElabState → Prop} [IsPreorder ElabState R]
    {action : ElabM Unit} (h : Steps R action) : Steps R (whenNotDone action) := by
  refine Lib.Steps.bind (steps_get.bind fun _ => steps_pure _) fun done => ?_
  cases done with
  | true => exact steps_pure _
  | false => exact h

end MirrorsCore.Tla
