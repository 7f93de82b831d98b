import Mathlib
import MirrorsCore.Tla.InstanceFacts

/-! What acceptance says about names: every reference in a body denotes a bound name, an
effective declaration, an operator of the language or one of a standard module, and has as many
arguments as that takes. -/

namespace MirrorsCore.Tla
open MirrorsCore.Lib

/-! ### References -/

/-- The qualified reference denotes an operator with `count` parameters: of the standard module
or of the captured one that its instance names. -/
def DenotesQualified (closures : List (ModuleName × ClosureResult)) (closure : ClosureResult)
    (qualifier spelling : String) (count : Nat) : Prop :=
  ∃ entry, closure.entries.find? (fun entry =>
      entry.info.kind == .instanceKind && entry.info.name == qualifier) = some entry ∧
    ∃ site, entry.info.instanceSite? = some site ∧
      match site.resolution with
      | .standardCatalog => ∃ fact, standardOperatorFacts.find? (fun fact =>
            fact.name == spelling &&
              standardExports site.declaration.moduleName fact.module) = some fact ∧
          fact.arity = count
      | .localSource => ∃ child,
          closures.find? (fun memo => memo.1 == site.declaration.moduleName) = some child ∧
          ∃ declared, child.2.entries.find? (fun entry =>
              !entry.info.name.isEmpty && entry.info.name == spelling &&
                !entry.info.localDeclaration &&
                (entry.info.kind == .definition || entry.info.kind == .recursive)) =
              some declared ∧
            declared.info.arity = count

/-- The reference denotes something that takes `count` arguments: without a qualifier, the
bound names hide the declarations, these the language's operators, and these the standard
ones. -/
def Denotes (profile : LanguageProfile) (closures : List (ModuleName × ClosureResult))
    (closure : ClosureResult) (names : List (String × Nat)) (reference : OperatorRef)
    (count : Nat) : Prop :=
  match reference.qualifier with
  | some qualifier => DenotesQualified closures closure qualifier
      (canonicalSpelling profile reference.spelling) count
  | none =>
      match names.find? (fun entry =>
          entry.1 == canonicalSpelling profile reference.spelling) with
      | some bound => bound.2 = count
      | none =>
          match closure.entries.find? (fun entry => !entry.info.name.isEmpty &&
              entry.info.name == canonicalSpelling profile reference.spelling &&
                entry.info.kind != .instanceKind) with
          | some entry => entry.info.arity = count
          | none =>
              match languageOperatorFacts.find? (fun fact =>
                  fact.name == canonicalSpelling profile reference.spelling) with
              | some fact => count ∈ fact.arities
              | none => ∃ fact, standardOperatorFacts.find? (fun fact =>
                    fact.name == canonicalSpelling profile reference.spelling &&
                      closure.availableStandards.contains fact.module) = some fact ∧
                  fact.arity = count

section References
variable (profile : LanguageProfile) (table : ModuleTable) (closure : ClosureResult)
  (reference : OperatorRef) (argumentCount : Nat)

end References

/-! ### Expressions -/

def boundNames (bounds : List Bound) : List (String × Nat) :=
  bounds.map fun bound => (bound.name, 0)

/-- Every reference of the expression denotes something that takes its arguments, where `names`
are bound. -/
inductive Resolved (denotes : List (String × Nat) → OperatorRef → Nat → Prop) :
    List (String × Nat) → Expression → Prop
  | name {names reference range} (h : denotes names reference 0) :
      Resolved denotes names (.name reference range)
  | boolean {names value range} : Resolved denotes names (.boolean value range)
  | integer {names value range} : Resolved denotes names (.integer value range)
  | string {names value range} : Resolved denotes names (.string value range)
  | tuple {names items range} (h : ∀ item ∈ items, Resolved denotes names item) :
      Resolved denotes names (.tuple items range)
  | set {names items range} (h : ∀ item ∈ items, Resolved denotes names item) :
      Resolved denotes names (.set items range)
  | record {names fields range}
      (h : ∀ field ∈ fields, Resolved denotes names (RecordField.value field)) :
      Resolved denotes names (.record fields range)
  | recordSet {names fields range}
      (h : ∀ field ∈ fields, Resolved denotes names (RecordField.value field)) :
      Resolved denotes names (.recordSet fields range)
  | function {names bounds body range}
      (hbounds : ∀ before bound behind, bounds = before ++ bound :: behind →
        ∀ domain ∈ Bound.domain bound, Resolved denotes (names ++ boundNames before) domain)
      (hbody : Resolved denotes (names ++ boundNames bounds) body) :
      Resolved denotes names (.function bounds body range)
  | functionSet {names domain codomain range} (hdomain : Resolved denotes names domain)
      (hcodomain : Resolved denotes names codomain) :
      Resolved denotes names (.functionSet domain codomain range)
  | apply {names reference arguments range} (h : denotes names reference arguments.length)
      (harguments : ∀ argument ∈ arguments, Resolved denotes names argument) :
      Resolved denotes names (.apply reference arguments range)
  | functionApply {names func index range} (hfunc : Resolved denotes names func)
      (hindex : Resolved denotes names index) :
      Resolved denotes names (.functionApply func index range)
  | select {names base field range} (h : Resolved denotes names base) :
      Resolved denotes names (.select base field range)
  | ifThenElse {names condition thenBranch elseBranch range}
      (hcondition : Resolved denotes names condition) (hthen : Resolved denotes names thenBranch)
      (helse : Resolved denotes names elseBranch) :
      Resolved denotes names (.ifThenElse condition thenBranch elseBranch range)
  | case {names arms range}
      (hguards : ∀ arm ∈ arms, ∀ guard ∈ CaseArm.guard arm, Resolved denotes names guard)
      (hvalues : ∀ arm ∈ arms, Resolved denotes names (CaseArm.value arm)) :
      Resolved denotes names (.case arms range)
  | letIn {names definitions body range}
      (hdefinitions : ∀ definition ∈ definitions, Resolved denotes
        (names ++ definitions.map (fun definition =>
          (definition.name, definition.parameters.length)) ++ parameterNames definition)
        definition.body)
      (hbody : Resolved denotes (names ++ definitions.map fun definition =>
        (definition.name, definition.parameters.length)) body) :
      Resolved denotes names (.letIn definitions body range)
  | choose {names bounds body range}
      (hbounds : ∀ before bound behind, bounds = before ++ bound :: behind →
        ∀ domain ∈ Bound.domain bound, Resolved denotes (names ++ boundNames before) domain)
      (hbody : Resolved denotes (names ++ boundNames bounds) body) :
      Resolved denotes names (.choose bounds body range)
  | quantifier {names kind bounds body range}
      (hbounds : ∀ before bound behind, bounds = before ++ bound :: behind →
        ∀ domain ∈ Bound.domain bound, Resolved denotes (names ++ boundNames before) domain)
      (hbody : Resolved denotes (names ++ boundNames bounds) body) :
      Resolved denotes names (.quantifier kind bounds body range)
  | setBuilder {names element bounds range}
      (hbounds : ∀ before bound behind, bounds = before ++ bound :: behind →
        ∀ domain ∈ Bound.domain bound, Resolved denotes (names ++ boundNames before) domain)
      (hbody : Resolved denotes (names ++ boundNames bounds) element) :
      Resolved denotes names (.setBuilder element bounds range)
  | setFilter {names bounds predicate range}
      (hbounds : ∀ before bound behind, bounds = before ++ bound :: behind →
        ∀ domain ∈ Bound.domain bound, Resolved denotes (names ++ boundNames before) domain)
      (hbody : Resolved denotes (names ++ boundNames bounds) predicate) :
      Resolved denotes names (.setFilter bounds predicate range)
  | except {names base specifications range} (hbase : Resolved denotes names base)
      (hpaths : ∀ specification ∈ specifications, ∀ index range,
        .index index range ∈ ExceptSpec.path specification → Resolved denotes names index)
      (hvalues : ∀ specification ∈ specifications,
        Resolved denotes names (ExceptSpec.value specification)) :
      Resolved denotes names (.except base specifications range)
  | currentValue {names range} : Resolved denotes names (.currentValue range)

section Expressions
variable {P : List (String × Nat) → Expression → ElabState → Prop}
  {resolve : List (String × Nat) → Expression → ElabM Unit}

end Expressions

section Names
variable (profile : LanguageProfile) (table : ModuleTable) (closure : ClosureResult)

/-- The bodies of a declaration are resolved in its module. -/
structure EntryResolved (state : ElabState) (closure : ClosureResult) (entry : SymbolInfo) :
    Prop where
  definition : ∀ definition ∈ entry.definition?,
    Resolved (Denotes profile state.closures closure) (parameterNames definition) definition.body
  assumption : ∀ declaration ∈ entry.assumption?,
    Resolved (Denotes profile state.closures closure) [] declaration.body
  statement : ∀ declaration ∈ entry.theorem?,
    Resolved (Denotes profile state.closures closure) [] declaration.statement

end Names

/-! ### The modules of an accepted graph -/

section Accepted
variable {profile : LanguageProfile} {limits : ElaborationLimits} {graph : ResolvedModuleGraph}
  {facts : ElaboratedModule}

theorem EntryResolved.closures {s t : ElabState} {closure : ClosureResult} {entry : SymbolInfo}
    (h : EntryResolved profile s closure entry) (hclosures : t.closures = s.closures) :
    EntryResolved profile t closure entry where
  definition := hclosures ▸ h.definition
  assumption := hclosures ▸ h.assumption
  statement := hclosures ▸ h.statement

end Accepted

end MirrorsCore.Tla
