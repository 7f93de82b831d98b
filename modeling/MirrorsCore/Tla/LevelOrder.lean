import Mathlib
import MirrorsCore.Lib.Saturation
import MirrorsCore.Tla.LevelPass

/-! Levels as an ordered set, and classification as a monotone function of the levels of
the symbols and of the bound names. -/

namespace MirrorsCore.Tla
open MirrorsCore.Lib

theorem Level.rank_injective : Function.Injective Level.rank := fun a b h => by
  cases a <;> cases b <;> first | rfl | exact absurd h (by decide)

instance : LinearOrder Level := LinearOrder.lift' Level.rank Level.rank_injective

theorem Level.le_iff {a b : Level} : a ≤ b ↔ a.rank ≤ b.rank := Iff.rfl

theorem Level.max_eq (a b : Level) : Level.max a b = a ⊔ b := by
  cases a <;> cases b <;> decide

theorem Level.max_mono {a b a' b' : Level} (h : a ≤ a') (h' : b ≤ b') :
    Level.max a b ≤ Level.max a' b' := by
  rw [Level.max_eq, Level.max_eq]
  exact sup_le_sup h h'

theorem applicationLevel_mono {operator operator' arguments arguments' : Level}
    (h : operator ≤ operator') (h' : arguments ≤ arguments') (spelling : String) :
    applicationLevel operator arguments spelling ≤
      applicationLevel operator' arguments' spelling := by
  unfold applicationLevel
  split <;> first
    | exact le_refl _
    | exact Level.max_mono (le_refl _) h'
    | exact Level.max_mono h h'

/-! ### Results -/

/-- Both fail, or the second level is as high or higher. -/
abbrev LevelLe (low high : Option Level) : Prop := Option.Rel (· ≤ ·) low high

theorem levelLe_refl (level : Option Level) : LevelLe level level := by
  cases level with
  | none => exact .none
  | some level => exact .some (le_refl level)

theorem levelJoin_mono {low high : List (Option Level)} (h : List.Forall₂ LevelLe low high) :
    LevelLe (levelJoin low) (levelJoin high) := by
  unfold levelJoin
  suffices hfold : ∀ total total', LevelLe total total' →
      LevelLe (List.foldl _ total low) (List.foldl _ total' high) from
    hfold _ _ (levelLe_refl _)
  induction h with
  | nil => exact fun _ _ htotal => htotal
  | cons hlevel _ ih =>
    intro total total' htotal
    rw [List.foldl_cons, List.foldl_cons]
    refine ih _ _ ?_
    cases htotal with
    | none => exact .none
    | some hle =>
      cases hlevel with
      | none => exact .none
      | some hle' => exact .some (Level.max_mono hle hle')

theorem joinedLevels_mono {α : Type} {xs : List α} {low high : α → LevelResult}
    (h : ∀ x ∈ xs, LevelLe (low x).1 (high x).1) :
    LevelLe (joinedLevels (xs.map low)).1 (joinedLevels (xs.map high)).1 := by
  unfold joinedLevels
  dsimp only
  rw [List.map_map, List.map_map]
  refine levelJoin_mono (List.forall₂_map_left_iff.mpr (List.forall₂_map_right_iff.mpr ?_))
  exact List.forall₂_same.mpr h

theorem maxLevels_mono {low low' high high' : LevelResult} (h : LevelLe low.1 high.1)
    (h' : LevelLe low'.1 high'.1) : LevelLe (maxLevels low low').1 (maxLevels high high').1 := by
  obtain ⟨first, problems⟩ := low
  obtain ⟨second, problems'⟩ := low'
  obtain ⟨third, problems''⟩ := high
  obtain ⟨fourth, problems'''⟩ := high'
  cases h with
  | none => exact .none
  | some hle =>
    cases h' with
    | none => exact .none
    | some hle' => exact .some (Level.max_mono hle hle')

/-! ### Scopes -/

/-- The same bound names, at levels as high or higher. -/
abbrev BoundsLe (low high : List (String × Level)) : Prop :=
  List.Forall₂ (fun bound bound' => bound.1 = bound'.1 ∧ bound.2 ≤ bound'.2) low high

/-- The same symbols known, at levels as high or higher. -/
def SymbolsLe (low high : SymbolLevels) : Prop := ∀ key, LevelLe (low key) (high key)

theorem boundsLe_refl (bounds : List (String × Level)) : BoundsLe bounds bounds :=
  List.forall₂_same.mpr fun _ _ => ⟨rfl, le_refl _⟩

theorem BoundsLe.append {low high low' high' : List (String × Level)} (h : BoundsLe low high)
    (h' : BoundsLe low' high') : BoundsLe (low ++ low') (high ++ high') := List.rel_append h h'

theorem referenceLevel_mono {symbols symbols' : SymbolLevels} {low high : List (String × Level)}
    (hsymbols : SymbolsLe symbols symbols') (hbounds : BoundsLe low high)
    (reference : OperatorRef) :
    referenceLevel symbols low reference ≤ referenceLevel symbols' high reference := by
  unfold referenceLevel
  dsimp only
  induction hbounds with
  | nil =>
    have hkey := hsymbols (referenceKey reference)
    generalize symbols (referenceKey reference) = first at hkey
    generalize symbols' (referenceKey reference) = second at hkey
    cases hkey with
    | none => exact le_refl _
    | some hle => exact hle
  | @cons bound bound' _ _ hbound _ ih =>
    rw [List.find?_cons, List.find?_cons, hbound.1]
    cases bound'.1 == referenceKey reference with
    | true => exact hbound.2
    | false => exact ih

/-! ### Classification -/

section Classify
variable {symbols symbols' : SymbolLevels}

theorem bodyUnder_mono {low high : List (String × Level)}
    {classify classify' : List (String × Level) → Expression → LevelResult}
    (h : ∀ {low high}, BoundsLe low high → ∀ expression,
      LevelLe (classify low expression).1 (classify' high expression).1)
    (hbounds : BoundsLe low high) (boundList : List Bound) (body : Expression) :
    LevelLe
      (maxLevels
        (joinedLevels (boundList.map fun bound =>
          match bound.domain with
          | some domain => classify low domain
          | none => (some Level.constant, [])))
        (classify (bindings low boundList) body)).1
      (maxLevels
        (joinedLevels (boundList.map fun bound =>
          match bound.domain with
          | some domain => classify' high domain
          | none => (some Level.constant, [])))
        (classify' (bindings high boundList) body)).1 := by
  refine maxLevels_mono (joinedLevels_mono fun bound _ => ?_) (h ?_ body)
  · cases bound.domain with
    | none => exact levelLe_refl _
    | some domain => exact h hbounds domain
  · exact hbounds.append (boundsLe_refl _)

/-- The scope of a `LET` body, as the traversal builds it. -/
def letBounds (classify : List (String × Level) → Expression → LevelResult)
    (definitions : List OperatorDefinition) (bounds : List (String × Level))
    (problems : List SourceRange) : List (String × Level) × List SourceRange :=
  definitions.foldl
    (fun (accumulated, problems) definition =>
      match classify
          (accumulated ++ definition.parameters.map
            (fun parameter => (parameter.name, Level.constant)))
          definition.body with
      | (some level, bodyProblems) =>
          (accumulated ++ [(definition.name, level)], problems ++ bodyProblems)
      | (none, bodyProblems) => (accumulated, problems ++ bodyProblems))
    (bounds, problems)

theorem letBounds_mono {classify classify' : List (String × Level) → Expression → LevelResult}
    (h : ∀ {low high}, BoundsLe low high → ∀ expression,
      LevelLe (classify low expression).1 (classify' high expression).1)
    {low high : List (String × Level)} (hbounds : BoundsLe low high)
    (definitions : List OperatorDefinition) (problems problems' : List SourceRange) :
    BoundsLe (letBounds classify definitions low problems).1
      (letBounds classify' definitions high problems').1 := by
  induction definitions generalizing low high problems problems' with
  | nil => exact hbounds
  | cons definition definitions ih =>
    unfold letBounds at ih ⊢
    rw [List.foldl_cons, List.foldl_cons]
    have hbody := h (hbounds.append (boundsLe_refl (definition.parameters.map
      fun parameter => (parameter.name, Level.constant)))) definition.body
    dsimp only
    generalize classify _ definition.body = first at hbody ⊢
    generalize classify' _ definition.body = second at hbody ⊢
    obtain ⟨level, inner⟩ := first
    obtain ⟨level', inner'⟩ := second
    cases hbody with
    | none => exact ih hbounds _ _
    | @some lower higher hle =>
      have hadded : BoundsLe [(definition.name, lower)] [(definition.name, higher)] :=
        .cons ⟨rfl, hle⟩ .nil
      exact ih (hbounds.append hadded) _ _

/-- Higher symbols and bound names make higher levels; whether there is a level depends on
neither. -/
theorem classifyExpressionLevel_mono (hsymbols : SymbolsLe symbols symbols') (fuel : Nat)
    {low high : List (String × Level)} (hbounds : BoundsLe low high) (expression : Expression) :
    LevelLe (classifyExpressionLevel fuel symbols low expression).1
      (classifyExpressionLevel fuel symbols' high expression).1 := by
  induction fuel generalizing low high expression with
  | zero => exact .none
  | succ fuel ih =>
    unfold classifyExpressionLevel
    cases expression with
    | name reference range => exact .some (referenceLevel_mono hsymbols hbounds reference)
    | boolean | integer | string | currentValue => exact levelLe_refl _
    | tuple items range | set items range => exact joinedLevels_mono fun item _ => ih hbounds item
    | record fields range | recordSet fields range =>
      exact joinedLevels_mono fun field _ => ih hbounds field.value
    | function boundList body range | choose boundList body range
    | quantifier kind boundList body range | setBuilder body boundList range
    | setFilter boundList body range => exact bodyUnder_mono ih hbounds boundList body
    | functionSet first second range | functionApply first second range =>
      exact maxLevels_mono (ih hbounds first) (ih hbounds second)
    | apply reference arguments range =>
      have harguments : LevelLe
          (joinedLevels (arguments.map (classifyExpressionLevel fuel symbols low))).1
          (joinedLevels (arguments.map (classifyExpressionLevel fuel symbols' high))).1 :=
        joinedLevels_mono fun argument _ => ih hbounds argument
      have hoperator := referenceLevel_mono hsymbols hbounds reference
      dsimp only
      generalize joinedLevels (arguments.map (classifyExpressionLevel fuel symbols low)) = first
        at harguments
      generalize joinedLevels (arguments.map (classifyExpressionLevel fuel symbols' high)) = second
        at harguments
      obtain ⟨level, problems⟩ := first
      obtain ⟨level', problems'⟩ := second
      cases harguments with
      | none => exact .none
      | some hle =>
        dsimp only
        split <;> split <;> exact .some (applicationLevel_mono hoperator hle reference.spelling)
    | select base field range => exact ih hbounds base
    | ifThenElse condition thenBranch elseBranch range =>
      exact maxLevels_mono (ih hbounds condition)
        (maxLevels_mono (ih hbounds thenBranch) (ih hbounds elseBranch))
    | case arms range =>
      refine joinedLevels_mono fun arm _ => ?_
      cases arm.guard with
      | none => exact ih hbounds arm.value
      | some guard => exact maxLevels_mono (ih hbounds guard) (ih hbounds arm.value)
    -- The scope of the body has the levels of the definitions, which are higher as well.
    | letIn definitions body range =>
      have hscope := letBounds_mono ih hbounds definitions [] []
      have hbody := ih hscope body
      unfold letBounds at hbody
      dsimp only
      generalize classifyExpressionLevel fuel symbols _ body = first at hbody ⊢
      generalize classifyExpressionLevel fuel symbols' _ body = second at hbody ⊢
      obtain ⟨level, problems⟩ := first
      obtain ⟨level', problems'⟩ := second
      cases hbody with
      | none => exact .none
      | some hle => exact .some hle
    | except base specifications range =>
      refine maxLevels_mono (ih hbounds base) (joinedLevels_mono fun specification _ => ?_)
      refine maxLevels_mono (joinedLevels_mono fun element _ => ?_) (ih hbounds specification.value)
      cases element with
      | field name range => exact levelLe_refl _
      | index index range => exact ih hbounds index

theorem classifyDefinitionLevel_mono (hsymbols : SymbolsLe symbols symbols') (fuel : Nat)
    (definition : OperatorDefinition) :
    LevelLe (classifyDefinitionLevel fuel symbols [] definition).1
      (classifyDefinitionLevel fuel symbols' [] definition).1 :=
  classifyExpressionLevel_mono hsymbols fuel (boundsLe_refl _) definition.body

/-! ### Depth -/

/-- The parts of an expression that its level is joined from; a `LET` definition without a
level only leaves its name without one. -/
def Expression.levelParts : Expression → List Expression
  | .name _ _ | .boolean _ _ | .integer _ _ | .string _ _ | .currentValue _ => []
  | .tuple items _ | .set items _ => items
  | .record fields _ | .recordSet fields _ => fields.map RecordField.value
  | .function bounds body _ | .choose bounds body _ | .quantifier _ bounds body _
  | .setBuilder body bounds _ | .setFilter bounds body _ => bounds.filterMap Bound.domain ++ [body]
  | .functionSet first second _ | .functionApply first second _ => [first, second]
  | .apply _ arguments _ => arguments
  | .select base _ _ => [base]
  | .ifThenElse condition thenBranch elseBranch _ => [condition, thenBranch, elseBranch]
  | .case arms _ => arms.flatMap fun arm => arm.guard.toList ++ [arm.value]
  | .letIn _ body _ => [body]
  | .except base specifications _ =>
      base :: specifications.flatMap fun specification =>
        (specification.path.filterMap fun
          | .field _ _ => none
          | .index index _ => some index) ++ [specification.value]

/-- No part of a part, and so on, lies `fuel` steps down. -/
def Expression.Fits : Nat → Expression → Prop
  | 0, _ => False
  | fuel + 1, expression => ∀ part ∈ expression.levelParts, part.Fits fuel

theorem isSome_foldl {α : Type} {join : Option α → Option α → Option α}
    (hjoin : ∀ total item, (join total item).isSome = (total.isSome && item.isSome))
    (total : Option α) (items : List (Option α)) :
    (items.foldl join total).isSome = true ↔
      total.isSome = true ∧ ∀ item ∈ items, item.isSome = true := by
  induction items generalizing total with
  | nil => simp
  | cons item items ih => rw [List.foldl_cons, ih, hjoin]; simp [and_assoc]

theorem isSome_levelJoin {levels : List (Option Level)} :
    (levelJoin levels).isSome = true ↔ ∀ level ∈ levels, level.isSome = true := by
  refine (isSome_foldl (fun total level => ?_) (some .constant) levels).trans (and_iff_right rfl)
  cases total <;> cases level <;> rfl

theorem isSome_joinedLevels {results : List LevelResult} :
    (joinedLevels results).1.isSome = true ↔ ∀ result ∈ results, result.1.isSome = true := by
  unfold joinedLevels
  rw [isSome_levelJoin, List.forall_mem_map]

theorem isSome_maxLevels {first second : LevelResult} :
    (maxLevels first second).1.isSome = true ↔ first.1.isSome = true ∧ second.1.isSome = true := by
  obtain ⟨level, problems⟩ := first
  obtain ⟨level', problems'⟩ := second
  cases level <;> cases level' <;> simp [maxLevels]

theorem isSome_bodyUnder {fuel : Nat}
    (classify : List (String × Level) → Expression → LevelResult)
    (h : ∀ {bounds expression}, (classify bounds expression).1.isSome = true ↔
      expression.Fits fuel)
    (bounds : List (String × Level)) (boundList : List Bound) (body : Expression) :
    (maxLevels
        (joinedLevels (boundList.map fun bound =>
          match bound.domain with
          | some domain => classify bounds domain
          | none => (some Level.constant, [])))
        (classify (bindings bounds boundList) body)).1.isSome = true ↔
      ∀ part ∈ boundList.filterMap Bound.domain ++ [body], part.Fits fuel := by
  rw [isSome_maxLevels, isSome_joinedLevels, List.forall_mem_map, h, List.forall_mem_append,
    List.forall_mem_singleton, List.forall_mem_filterMap]
  refine and_congr_left' (forall₂_congr fun bound _ => ?_)
  cases bound.domain with
  | none => simp
  | some domain => simp [h]

/-- An expression has a level exactly when it is no deeper than the fuel, whatever the names in
it stand for. -/
theorem isSome_classifyExpressionLevel {fuel : Nat} {bounds : List (String × Level)}
    {expression : Expression} :
    (classifyExpressionLevel fuel symbols bounds expression).1.isSome = true ↔
      expression.Fits fuel := by
  induction fuel generalizing bounds expression with
  | zero => exact iff_of_false Bool.false_ne_true id
  | succ fuel ih =>
    unfold classifyExpressionLevel Expression.Fits
    cases expression with
    | name | boolean | integer | string | currentValue => simp [Expression.levelParts]
    | tuple items range | set items range =>
      simp [Expression.levelParts, isSome_joinedLevels, ih]
    | record fields range | recordSet fields range =>
      simp [Expression.levelParts, isSome_joinedLevels, ih]
    | function boundList body range | choose boundList body range
    | quantifier kind boundList body range | setBuilder body boundList range
    | setFilter boundList body range =>
      dsimp only [Expression.levelParts]
      exact isSome_bodyUnder (classifyExpressionLevel fuel symbols) ih bounds boundList body
    | functionSet first second range | functionApply first second range =>
      simp [Expression.levelParts, isSome_maxLevels, ih]
    | apply reference arguments range =>
      have harguments : (joinedLevels
          (arguments.map (classifyExpressionLevel fuel symbols bounds))).1.isSome = true ↔
          ∀ part ∈ arguments, part.Fits fuel := by
        simp [isSome_joinedLevels, ih]
      refine Iff.trans ?_ harguments
      dsimp only
      generalize joinedLevels (arguments.map (classifyExpressionLevel fuel symbols bounds)) = result
      obtain ⟨_ | level, problems⟩ := result
      · rfl
      · dsimp only
        split <;> rfl
    | select base field range => simp [Expression.levelParts, ih]
    | ifThenElse condition thenBranch elseBranch range =>
      simp [Expression.levelParts, isSome_maxLevels, ih]
    | case arms range =>
      rw [isSome_joinedLevels, List.forall_mem_map, Expression.levelParts, List.forall_mem_flatMap]
      refine forall₂_congr fun arm _ => ?_
      cases arm.guard <;> simp [isSome_maxLevels, ih]
    -- The levels of the local definitions only add bounds, on which nothing depends.
    | letIn definitions body range =>
      rw [Expression.levelParts, List.forall_mem_singleton]
      dsimp only
      generalize List.foldl _ (bounds, []) definitions = scope
      refine Iff.trans ?_ (@ih scope.1 body)
      generalize classifyExpressionLevel fuel symbols scope.1 body = result
      obtain ⟨_ | level, problems⟩ := result <;> rfl
    | except base specifications range =>
      simp only [isSome_maxLevels, isSome_joinedLevels, List.forall_mem_map, ih]
      rw [Expression.levelParts, List.forall_mem_cons, List.forall_mem_flatMap]
      refine and_congr_right' (forall₂_congr fun specification _ => ?_)
      rw [List.forall_mem_append, List.forall_mem_singleton, List.forall_mem_filterMap]
      refine and_congr_left' (forall₂_congr fun element _ => ?_)
      cases element <;> simp [ih]

end Classify

/-! ### Symbols of a module -/

theorem levelOf?_eq (levels : List (SymbolId × Level)) (symbol : SymbolId) :
    levelOf? levels symbol = levels.lookup symbol := by
  unfold levelOf?
  induction levels with
  | nil => rfl
  | cons entry levels ih =>
    rw [List.find?_cons, List.lookup_cons, BEq.comm]
    cases symbol == entry.1 with
    | true => rfl
    | false => exact ih

section Scope
variable {low high : List (SymbolId × Level)}

theorem levelOf?_mono (h : Below low high) (symbol : SymbolId) :
    LevelLe (levelOf? low symbol) (levelOf? high symbol) := by
  rw [levelOf?_eq, levelOf?_eq]
  exact h symbol

theorem scopeLevels_mono (h : Below low high) (entries : List ClosureEntry) :
    SymbolsLe (scopeLevels entries low) (scopeLevels entries high) := by
  intro key
  unfold scopeLevels
  split
  · exact .none
  · exact levelOf?_mono h _

theorem closureOf?_levels (state : ElabState) (levels : List (SymbolId × Level))
    (name : ModuleName) : closureOf? { state with levels } name = closureOf? state name := rfl

theorem declaredLevel_mono (h : Below low high) {symbols symbols' : SymbolLevels}
    (hsymbols : SymbolsLe symbols symbols') (fuel : Nat) (info : SymbolInfo) :
    LevelLe
      (match info.definition? with
        | none => levelOf? low info.symbol
        | some definition => definitionLevel fuel symbols [] definition)
      (match info.definition? with
        | none => levelOf? high info.symbol
        | some definition => definitionLevel fuel symbols' [] definition) := by
  cases info.definition? with
  | none => exact levelOf?_mono h info.symbol
  | some definition => exact classifyDefinitionLevel_mono hsymbols fuel definition

theorem instancedKeyLevel_mono (state : ElabState) (h : Below low high) (fuel : Nat)
    (origin : ModuleName) (frames : List InstanceFrame) (key : String) :
    LevelLe (instancedKeyLevel { state with levels := low } fuel origin frames key)
      (instancedKeyLevel { state with levels := high } fuel origin frames key) := by
  induction fuel generalizing origin frames key with
  | zero => exact .none
  | succ fuel ih =>
    unfold instancedKeyLevel
    simp only [closureOf?_levels]
    split
    · split
      · exact .none
      split
      · exact .none
      split
      · exact levelLe_refl _
      split
      · exact .none
      · exact declaredLevel_mono h (fun inner => ih _ _ inner) fuel _
    · split
      · split
        · exact .none
        split
        · exact declaredLevel_mono h (fun inner => ih _ _ inner) fuel _
        · exact declaredLevel_mono h (fun inner => ih _ _ inner) fuel _
        · exact levelOf?_mono h _
      split
      · exact classifyExpressionLevel_mono (fun inner => ih _ _ inner) fuel (boundsLe_refl _) _
      split
      · split
        · exact ih _ _ _
        · exact declaredLevel_mono h (fun inner => ih _ _ inner) fuel _
      · exact .none

theorem moduleScope_mono (state : ElabState) (h : Below low high) (entries : List ClosureEntry)
    (origin : ModuleName) :
    SymbolsLe (moduleScope state entries low origin) (moduleScope state entries high origin) := by
  intro key
  have hscope := scopeLevels_mono h entries key
  unfold moduleScope
  generalize scopeLevels entries low key = first at hscope
  generalize scopeLevels entries high key = second at hscope
  cases hscope with
  | none => exact instancedKeyLevel_mono state h _ _ _ _
  | some hle => exact .some hle

end Scope
end MirrorsCore.Tla
