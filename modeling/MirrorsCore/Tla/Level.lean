import Mathlib
import MirrorsCore.Tla.Syntax

/-! Expression levels (`Core/Tla/Level.lean`): the lattice constant, state,
action, temporal, and the syntactic classification under a fuel count. -/

namespace MirrorsCore.Tla

inductive Level where
  | constant
  | state
  | action
  | temporal
  deriving DecidableEq

namespace Level

def rank : Level → Nat
  | .constant => 0
  | .state => 1
  | .action => 2
  | .temporal => 3

def max (left right : Level) : Level :=
  if left.rank ≥ right.rank then left else right

def toString : Level → String
  | .constant => "constant"
  | .state => "state"
  | .action => "action"
  | .temporal => "temporal"

instance : ToString Level where
  toString := Level.toString

end Level

/-- Level of one visible or qualified module symbol, when it is known. -/
abbrev SymbolLevels := String → Option Level

def referenceKey (reference : OperatorRef) : String :=
  (reference.qualifier.map (fun qualifier => qualifier ++ "!")).getD "" ++ reference.spelling

/-- Bound names win over module symbols; an unresolved name is constant. -/
def referenceLevel (symbols : SymbolLevels) (bounds : List (String × Level))
    (reference : OperatorRef) : Level :=
  let key := referenceKey reference
  match bounds.find? (fun bound => bound.1 == key) with
  | some bound => bound.2
  | none => (symbols key).getD Level.constant

def levelJoin (levels : List (Option Level)) : Option Level :=
  levels.foldl
    (fun total level =>
      match total, level with
      | some left, some right => some (Level.max left right)
      | _, _ => none)
    (some Level.constant)

def applicationLevel (operator arguments : Level) (spelling : String) : Level :=
  match spelling with
  | "[]" | "<>" | "~>" | "WF_" | "SF_" => Level.temporal
  | "ENABLED" => Level.state
  | "'" | "[]_" | "<<>>_" | "UNCHANGED" => Level.max Level.action arguments
  | _ => Level.max operator arguments

def bindings (bounds : List (String × Level)) (boundList : List Bound) :
    List (String × Level) :=
  bounds ++ boundList.map (fun bound => (bound.name, Level.constant))

/-- A level with the ranges of the `ENABLED` applications found above `action`. -/
abbrev LevelResult := Option Level × List SourceRange

def joinedLevels (results : List LevelResult) : LevelResult :=
  (levelJoin (results.map Prod.fst), results.flatMap Prod.snd)

def maxLevels (left right : LevelResult) : LevelResult :=
  match left, right with
  | (some first, leftProblems), (some second, rightProblems) =>
      (some (Level.max first second), leftProblems ++ rightProblems)
  | (_, leftProblems), (_, rightProblems) => (none, leftProblems ++ rightProblems)

def classifyExpressionLevel (fuel : Nat) (symbols : SymbolLevels)
    (bounds : List (String × Level)) (expression : Expression) : LevelResult :=
  match fuel with
  | 0 => (none, [])
  | fuel + 1 =>
      let recur := classifyExpressionLevel fuel symbols bounds
      let boundResults (boundList : List Bound) : List LevelResult :=
        boundList.map (fun bound =>
          match bound.domain with
          | some domain => recur domain
          | none => (some Level.constant, []))
      let bodyUnder (boundList : List Bound) (body : Expression) : LevelResult :=
        maxLevels (joinedLevels (boundResults boundList))
          (classifyExpressionLevel fuel symbols (bindings bounds boundList) body)
      match expression with
      | .name reference _ => (some (referenceLevel symbols bounds reference), [])
      | .boolean _ _ => (some Level.constant, [])
      | .integer _ _ => (some Level.constant, [])
      | .string _ _ => (some Level.constant, [])
      | .tuple items _ => joinedLevels (items.map recur)
      | .set items _ => joinedLevels (items.map recur)
      | .record fields _ => joinedLevels (fields.map (fun field => recur field.value))
      | .recordSet fields _ => joinedLevels (fields.map (fun field => recur field.value))
      | .function boundList body _ => bodyUnder boundList body
      | .functionSet domain codomain _ => maxLevels (recur domain) (recur codomain)
      | .apply reference arguments range =>
          match joinedLevels (arguments.map recur) with
          | (some argumentsLevel, problems) =>
              let level := applicationLevel (referenceLevel symbols bounds reference)
                argumentsLevel reference.spelling
              if reference.spelling == "ENABLED" &&
                  argumentsLevel.rank > Level.action.rank then
                (level, problems ++ [range])
              else
                (level, problems)
          | (none, problems) => (none, problems)
      | .functionApply func index _ => maxLevels (recur func) (recur index)
      | .select base _ _ => recur base
      | .ifThenElse condition thenBranch elseBranch _ =>
          maxLevels (recur condition) (maxLevels (recur thenBranch) (recur elseBranch))
      | .case arms _ =>
          joinedLevels (arms.map (fun arm =>
            match arm.guard with
            | some guard => maxLevels (recur guard) (recur arm.value)
            | none => recur arm.value))
      | .letIn definitions body _ =>
          let (extended, problems) := definitions.foldl
            (fun (accumulated, problems) definition =>
              match classifyExpressionLevel fuel symbols
                  (accumulated ++ definition.parameters.map
                    (fun parameter => (parameter.name, Level.constant)))
                  definition.body with
              | (some level, bodyProblems) =>
                  (accumulated ++ [(definition.name, level)], problems ++ bodyProblems)
              | (none, bodyProblems) => (accumulated, problems ++ bodyProblems))
            (bounds, [])
          match classifyExpressionLevel fuel symbols extended body with
          | (some level, bodyProblems) => (some level, problems ++ bodyProblems)
          | (none, bodyProblems) => (none, problems ++ bodyProblems)
      | .choose boundList body _ => bodyUnder boundList body
      | .quantifier _ boundList body _ => bodyUnder boundList body
      | .setBuilder element boundList _ => bodyUnder boundList element
      | .setFilter boundList predicate _ => bodyUnder boundList predicate
      | .except base specifications _ =>
          maxLevels (recur base) (joinedLevels (specifications.map (fun specification =>
            let pathResults := specification.path.map (fun element =>
              match element with
              | .field _ _ => (some Level.constant, [])
              | .index index _ => recur index)
            maxLevels (joinedLevels pathResults) (recur specification.value))))
      | .currentValue _ => (some Level.constant, [])

def expressionLevel (fuel : Nat) (symbols : SymbolLevels) (bounds : List (String × Level))
    (expression : Expression) : Option Level :=
  (classifyExpressionLevel fuel symbols bounds expression).1

def classifyDefinitionLevel (fuel : Nat) (symbols : SymbolLevels)
    (bounds : List (String × Level)) (definition : OperatorDefinition) : LevelResult :=
  classifyExpressionLevel fuel symbols
    (bounds ++ definition.parameters.map (fun parameter => (parameter.name, Level.constant)))
    definition.body

def definitionLevel (fuel : Nat) (symbols : SymbolLevels) (bounds : List (String × Level))
    (definition : OperatorDefinition) : Option Level :=
  (classifyDefinitionLevel fuel symbols bounds definition).1

end MirrorsCore.Tla
