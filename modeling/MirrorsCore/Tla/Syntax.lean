import Mathlib
import MirrorsCore.Tla.Source

/-! Abstract syntax of parsed modules (`Core/Tla/Syntax.lean`). -/

namespace MirrorsCore.Tla

/-- A module-qualified operator reference in canonical spelling. -/
structure OperatorRef where
  qualifier : Option String
  spelling : String
  range : SourceRange
  deriving DecidableEq

inductive OperatorFixity where
  | functional
  | prefixOperator
  | infixOperator
  | postfixOperator
  deriving DecidableEq

inductive QuantifierKind where
  | forall
  | exists
  deriving DecidableEq

structure OperatorParameter where
  name : String
  arity : Nat
  range : SourceRange
  deriving DecidableEq

mutual

inductive Expression where
  | name (reference : OperatorRef) (range : SourceRange)
  | boolean (value : Bool) (range : SourceRange)
  | integer (value : Int) (range : SourceRange)
  | string (value : String) (range : SourceRange)
  | tuple (items : List Expression) (range : SourceRange)
  | set (items : List Expression) (range : SourceRange)
  | record (fields : List RecordField) (range : SourceRange)
  | recordSet (fields : List RecordField) (range : SourceRange)
  | function (bounds : List Bound) (body : Expression) (range : SourceRange)
  | functionSet (domain codomain : Expression) (range : SourceRange)
  | apply (operator : OperatorRef) (arguments : List Expression) (range : SourceRange)
  | functionApply (func index : Expression) (range : SourceRange)
  | select (base : Expression) (field : String) (range : SourceRange)
  | ifThenElse (condition thenBranch elseBranch : Expression) (range : SourceRange)
  | case (arms : List CaseArm) (range : SourceRange)
  | letIn (definitions : List OperatorDefinition) (body : Expression) (range : SourceRange)
  | choose (bounds : List Bound) (body : Expression) (range : SourceRange)
  | quantifier (kind : QuantifierKind) (bounds : List Bound) (body : Expression)
      (range : SourceRange)
  | setBuilder (element : Expression) (bounds : List Bound) (range : SourceRange)
  | setFilter (bounds : List Bound) (predicate : Expression) (range : SourceRange)
  | except (base : Expression) (specifications : List ExceptSpec) (range : SourceRange)
  | currentValue (range : SourceRange)

structure Bound where
  name : String
  domain : Option Expression
  range : SourceRange

structure RecordField where
  name : String
  value : Expression
  range : SourceRange

/-- A `CASE` arm; the guard is absent for the `OTHER` arm. -/
structure CaseArm where
  guard : Option Expression
  value : Expression
  range : SourceRange

inductive ExceptPathElement where
  | field (name : String) (range : SourceRange)
  | index (index : Expression) (range : SourceRange)

structure ExceptSpec where
  path : List ExceptPathElement
  value : Expression
  range : SourceRange

structure OperatorDefinition where
  name : String
  nameRange : SourceRange
  fixity : OperatorFixity
  parameters : List OperatorParameter
  body : Expression
  range : SourceRange

end

def Expression.range : Expression → SourceRange
  | .name _ range => range
  | .boolean _ range => range
  | .integer _ range => range
  | .string _ range => range
  | .tuple _ range => range
  | .set _ range => range
  | .record _ range => range
  | .recordSet _ range => range
  | .function _ _ range => range
  | .functionSet _ _ range => range
  | .apply _ _ range => range
  | .functionApply _ _ range => range
  | .select _ _ range => range
  | .ifThenElse _ _ _ range => range
  | .case _ range => range
  | .letIn _ _ range => range
  | .choose _ _ range => range
  | .quantifier _ _ _ range => range
  | .setBuilder _ _ range => range
  | .setFilter _ _ range => range
  | .except _ _ range => range
  | .currentValue range => range

structure NameDecl where
  name : String
  range : SourceRange
  deriving DecidableEq

structure OperatorDecl where
  name : String
  arity : Nat
  range : SourceRange
  deriving DecidableEq

/-- One `INSTANCE ... WITH` substitution. -/
structure Substitution where
  formal : String
  formalArity : Nat
  formalRange : SourceRange
  actual : Expression
  range : SourceRange

structure InstanceDeclaration where
  name : Option String
  moduleName : ModuleName
  substitutions : List Substitution
  isLocal : Bool
  range : SourceRange

structure ImportedModule where
  name : ModuleName
  range : SourceRange
  deriving DecidableEq

structure ExtendsDeclaration where
  modules : List ImportedModule
  isLocal : Bool
  range : SourceRange
  deriving DecidableEq

inductive AssumptionKind where
  | assume
  | assumption
  | axiomKind
  deriving DecidableEq

structure Assumption where
  kind : AssumptionKind
  name : Option String
  body : Expression
  range : SourceRange

inductive TheoremKind where
  | theoremKind
  | lemmaKind
  | proposition
  | corollary
  deriving DecidableEq

inductive ProofTreatment where
  | omitted
  | opaqueProof
  deriving DecidableEq

structure ProofRegion where
  treatment : ProofTreatment
  range : SourceRange
  deriving DecidableEq

structure Theorem where
  kind : TheoremKind
  name : Option String
  statement : Expression
  proof : Option ProofRegion
  range : SourceRange

inductive Declaration where
  | constant (range : SourceRange) (names : List OperatorDecl)
  | variable (range : SourceRange) (names : List NameDecl)
  | recursive (range : SourceRange) (operators : List OperatorDecl)
  | operator (definition : OperatorDefinition)
  | localDeclaration (range : SourceRange) (declaration : Declaration)
  | instanceDeclaration (declaration : InstanceDeclaration)
  | assumption (declaration : Assumption)
  | theoremDeclaration (declaration : Theorem)
  | extendsDeclaration (declaration : ExtendsDeclaration)

def Declaration.range : Declaration → SourceRange
  | .constant statement _ => statement
  | .variable statement _ => statement
  | .recursive statement _ => statement
  | .operator definition => definition.range
  | .localDeclaration statement _ => statement
  | .instanceDeclaration declaration => declaration.range
  | .assumption declaration => declaration.range
  | .theoremDeclaration declaration => declaration.range
  | .extendsDeclaration declaration => declaration.range

structure ParsedModule where
  name : ModuleName
  declarations : List Declaration
  range : SourceRange

end MirrorsCore.Tla
