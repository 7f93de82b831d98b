import Mathlib
import MirrorsCore.Tla.EffectiveFacts
import MirrorsCore.Tla.LevelOrder

/-! The levels of an accepted graph: the least assignment above the declared levels that
gives every body no more than its symbol has. -/

namespace MirrorsCore.Tla
open MirrorsCore.Lib

/-- What a state asks of the levels: the level of each definition and assumption in the scope
of its module, and of each exposed definition under its substitution frames. -/
inductive LevelRule (state : ElabState) (levels : List (SymbolId × Level)) :
    SymbolId → Option Level → Prop
  | definition {table : ModuleTable} {memo : ModuleName × ClosureResult} {entry : SymbolInfo}
      {definition : OperatorDefinition} (htable : table ∈ state.tables)
      (hmemo : state.closures.find? (fun memo => memo.1 == table.name) = some memo)
      (hentry : entry ∈ table.entries) (hdefinition : entry.definition? = some definition) :
      LevelRule state levels entry.symbol
        (definitionLevel (expressionFuel table)
          (moduleScope state memo.2.entries levels entry.declaredIn) [] definition)
  | assumption {table : ModuleTable} {memo : ModuleName × ClosureResult} {entry : SymbolInfo}
      {declaration : Assumption} (htable : table ∈ state.tables)
      (hmemo : state.closures.find? (fun memo => memo.1 == table.name) = some memo)
      (hentry : entry ∈ table.entries) (hassumption : entry.assumption? = some declaration) :
      LevelRule state levels entry.symbol
        (expressionLevel (expressionFuel table)
          (moduleScope state memo.2.entries levels entry.declaredIn) [] declaration.body)
  | exposed {table : ModuleTable} {memo : ModuleName × ClosureResult} {entry : ClosureEntry}
      {definition : OperatorDefinition} (htable : table ∈ state.tables)
      (hmemo : state.closures.find? (fun memo => memo.1 == table.name) = some memo)
      (hentry : entry ∈ memo.2.entries) (hframes : entry.frames.isEmpty = false)
      (hdefinition : entry.info.definition? = some definition) :
      LevelRule state levels entry.info.symbol
        (definitionLevel (expressionFuel table)
          (fun key => instancedKeyLevel { state with levels } (levelFuel state)
            entry.info.declaredIn entry.frames key)
          [] definition)

/-- The bodies that the rules classify, each with its fuel. -/
inductive LevelBody (state : ElabState) : Nat → Expression → Prop
  | definition {table : ModuleTable} {memo : ModuleName × ClosureResult} {entry : SymbolInfo}
      {definition : OperatorDefinition} (htable : table ∈ state.tables)
      (hmemo : state.closures.find? (fun memo => memo.1 == table.name) = some memo)
      (hentry : entry ∈ table.entries) (hdefinition : entry.definition? = some definition) :
      LevelBody state (expressionFuel table) definition.body
  | assumption {table : ModuleTable} {memo : ModuleName × ClosureResult} {entry : SymbolInfo}
      {declaration : Assumption} (htable : table ∈ state.tables)
      (hmemo : state.closures.find? (fun memo => memo.1 == table.name) = some memo)
      (hentry : entry ∈ table.entries) (hassumption : entry.assumption? = some declaration) :
      LevelBody state (expressionFuel table) declaration.body
  | exposed {table : ModuleTable} {memo : ModuleName × ClosureResult} {entry : ClosureEntry}
      {definition : OperatorDefinition} (htable : table ∈ state.tables)
      (hmemo : state.closures.find? (fun memo => memo.1 == table.name) = some memo)
      (hentry : entry ∈ memo.2.entries) (hframes : entry.frames.isEmpty = false)
      (hdefinition : entry.info.definition? = some definition) :
      LevelBody state (expressionFuel table) definition.body

theorem exists_levelBody {state : ElabState} {levels : List (SymbolId × Level)}
    {symbol : SymbolId} {candidate : Option Level} (h : LevelRule state levels symbol candidate) :
    ∃ fuel body, LevelBody state fuel body ∧ (candidate.isSome = true ↔ body.Fits fuel) := by
  cases h with
  | definition htable hmemo hentry hdefinition =>
    exact ⟨_, _, .definition htable hmemo hentry hdefinition, isSome_classifyExpressionLevel⟩
  | assumption htable hmemo hentry hassumption =>
    exact ⟨_, _, .assumption htable hmemo hentry hassumption, isSome_classifyExpressionLevel⟩
  | exposed htable hmemo hentry hframes hdefinition =>
    exact ⟨_, _, .exposed htable hmemo hentry hframes hdefinition, isSome_classifyExpressionLevel⟩

theorem exists_levelRule {state : ElabState} {fuel : Nat} {body : Expression}
    (h : LevelBody state fuel body) (levels : List (SymbolId × Level)) :
    ∃ symbol candidate, LevelRule state levels symbol candidate ∧
      (candidate.isSome = true ↔ body.Fits fuel) := by
  cases h with
  | definition htable hmemo hentry hdefinition =>
    exact ⟨_, _, .definition htable hmemo hentry hdefinition, isSome_classifyExpressionLevel⟩
  | assumption htable hmemo hentry hassumption =>
    exact ⟨_, _, .assumption htable hmemo hentry hassumption, isSome_classifyExpressionLevel⟩
  | exposed htable hmemo hentry hframes hdefinition =>
    exact ⟨_, _, .exposed htable hmemo hentry hframes hdefinition, isSome_classifyExpressionLevel⟩

/-- Every body is no deeper than its fuel. -/
def BodiesFit (state : ElabState) : Prop := ∀ fuel body, LevelBody state fuel body → body.Fits fuel

theorem bodiesFit_of_saturated {state : ElabState} {levels : List (SymbolId × Level)}
    (h : Saturated (LevelRule state) levels) : BodiesFit state := by
  intro fuel body hbody
  obtain ⟨symbol, candidate, hrule, hfits⟩ := exists_levelRule hbody levels
  obtain ⟨value, rfl, -⟩ := h symbol candidate hrule
  exact hfits.mp rfl

theorem levelRule_levels (state : ElabState) (levels : List (SymbolId × Level)) :
    LevelRule { state with levels } = LevelRule state := by
  funext current symbol candidate
  refine propext ⟨fun h => ?_, fun h => ?_⟩
  · cases h with
    | definition htable hmemo hentry hdefinition =>
      exact .definition htable hmemo hentry hdefinition
    | assumption htable hmemo hentry hassumption =>
      exact .assumption htable hmemo hentry hassumption
    | exposed htable hmemo hentry hframes hdefinition =>
      exact .exposed htable hmemo hentry hframes hdefinition
  · cases h with
    | definition htable hmemo hentry hdefinition =>
      exact .definition htable hmemo hentry hdefinition
    | assumption htable hmemo hentry hassumption =>
      exact .assumption htable hmemo hentry hassumption
    | exposed htable hmemo hentry hframes hdefinition =>
      exact .exposed htable hmemo hentry hframes hdefinition

theorem monotone_levelRule (state : ElabState) : Rules.Monotone (LevelRule state) := by
  intro low high symbol candidate hbelow h
  cases h with
  | definition htable hmemo hentry hdefinition =>
    exact ⟨_, .definition htable hmemo hentry hdefinition,
      classifyDefinitionLevel_mono (moduleScope_mono state hbelow _ _) _ _⟩
  | assumption htable hmemo hentry hassumption =>
    exact ⟨_, .assumption htable hmemo hentry hassumption,
      classifyExpressionLevel_mono (moduleScope_mono state hbelow _ _) _ (boundsLe_refl _) _⟩
  | exposed htable hmemo hentry hframes hdefinition =>
    exact ⟨_, .exposed htable hmemo hentry hframes hdefinition,
      classifyDefinitionLevel_mono (fun key => instancedKeyLevel_mono state hbelow _ _ _ key) _ _⟩

/-! ### One pass -/

def LevelPass.progress (pass : LevelPass) : Progress SymbolId Level :=
  ⟨pass.levels, pass.changed, pass.failed⟩

theorem raiseLevel_eq (levels : List (SymbolId × Level)) (symbol : SymbolId)
    (candidate : Level) :
    raiseLevel levels symbol candidate =
      (raiseAt levels symbol candidate, rises levels symbol candidate) := by
  have hlookup := levelOf?_eq levels symbol
  unfold levelOf? at hlookup
  unfold raiseLevel raiseAt rises
  cases hfind : levels.find? (fun entry => entry.1 == symbol) with
  | none =>
    rw [hfind] at hlookup
    rw [← hlookup]
  | some entry =>
    rw [hfind] at hlookup
    rw [← hlookup]
    dsimp only
    rw [Level.max_eq]
    by_cases hle : candidate ≤ entry.2
    · rw [sup_eq_left.mpr hle, if_pos (beq_self_eq_true entry.2), if_pos hle,
        decide_eq_false (not_lt.mpr hle)]
    · have hlt : entry.2 < candidate := lt_of_not_ge hle
      rw [sup_eq_right.mpr hlt.le, if_neg (by simpa using hlt.ne'), if_neg hle,
        decide_eq_true hlt]
      rfl

theorem progress_raise (pass : LevelPass) (symbol : SymbolId) (candidate : Option Level) :
    (pass.raise symbol candidate).progress = pass.progress.take symbol candidate := by
  cases candidate with
  | none => rfl
  | some candidate =>
    unfold LevelPass.raise LevelPass.progress Progress.take
    dsimp only
    rw [raiseLevel_eq]
    dsimp only
    cases hrises : rises pass.levels symbol candidate with
    | true => rfl
    | false => rw [raiseAt_of_not_rises hrises]; rfl

theorem progress_classify (table : ModuleTable) (pass : LevelPass) (symbol : SymbolId)
    (result : LevelResult) :
    (pass.classify table symbol result).progress = pass.progress.take symbol result.1 :=
  progress_raise _ symbol result.1

section Pass
variable {state : ElabState} {table : ModuleTable} {memo : ModuleName × ClosureResult}

theorem pass_foldl {α : Type} {f : LevelPass → α → LevelPass} {xs : List α}
    {rules : Rules SymbolId Level}
    (h : ∀ pass, ∀ x ∈ xs, Pass rules pass.progress (f pass x).progress) (pass : LevelPass) :
    Pass rules pass.progress (xs.foldl f pass).progress := by
  induction xs generalizing pass with
  | nil => exact .refl
  | cons x xs ih =>
    rw [List.foldl_cons]
    exact (h pass x List.mem_cons_self).trans
      (ih (fun pass y hy => h pass y (List.mem_cons_of_mem _ hy)) _)

theorem exists_turn {α : Type} {f : LevelPass → α → LevelPass} {xs : List α}
    {rules : Rules SymbolId Level}
    (h : ∀ pass, ∀ x ∈ xs, Pass rules pass.progress (f pass x).progress) (pass : LevelPass)
    {x : α} (hx : x ∈ xs) :
    ∃ mid : LevelPass, Pass rules pass.progress mid.progress ∧
      Pass rules (f mid x).progress (xs.foldl f pass).progress := by
  obtain ⟨before, behind, rfl⟩ := List.append_of_mem hx
  refine ⟨before.foldl f pass, pass_foldl (fun pass y hy => ?_) pass, ?_⟩
  · exact h pass y (List.mem_append_left _ hy)
  · rw [List.foldl_append, List.foldl_cons]
    exact pass_foldl (fun pass y hy =>
      h pass y (List.mem_append_right _ (List.mem_cons_of_mem _ hy))) _

/-- The pass after the definition of an entry, before its assumption. -/
def definitionPass (state : ElabState) (table : ModuleTable) (closure : ClosureResult)
    (pass : LevelPass) (entry : SymbolInfo) : LevelPass :=
  match entry.definition? with
  | some definition =>
      LevelPass.classify table pass entry.symbol
        (classifyDefinitionLevel (expressionFuel table)
          (moduleScope state closure.entries pass.levels entry.declaredIn) [] definition)
  | none => pass

theorem levelPassEntry_eq (closure : ClosureResult) (pass : LevelPass) (entry : SymbolInfo) :
    levelPassEntry state table closure pass entry =
      match entry.assumption? with
      | some declaration =>
          LevelPass.classify table (definitionPass state table closure pass entry) entry.symbol
            (classifyExpressionLevel (expressionFuel table)
              (moduleScope state closure.entries pass.levels entry.declaredIn) []
              declaration.body)
      | none => definitionPass state table closure pass entry := rfl

section Entry
variable (htable : table ∈ state.tables)
  (hmemo : state.closures.find? (fun memo => memo.1 == table.name) = some memo)
include htable hmemo

theorem pass_definition {entry : SymbolInfo} (hentry : entry ∈ table.entries)
    (pass : LevelPass) :
    Pass (LevelRule state) pass.progress
      (definitionPass state table memo.2 pass entry).progress := by
  unfold definitionPass
  cases hdefinition : entry.definition? with
  | none => exact .refl
  | some definition =>
    dsimp only
    rw [progress_classify]
    exact Pass.refl.take (.definition htable hmemo hentry hdefinition) (Below.refl _)
      fun _ => rfl

theorem pass_assumption {entry : SymbolInfo} (hentry : entry ∈ table.entries)
    (pass : LevelPass) :
    Pass (LevelRule state) (definitionPass state table memo.2 pass entry).progress
      (levelPassEntry state table memo.2 pass entry).progress := by
  have hfirst := pass_definition htable hmemo hentry pass
  rw [levelPassEntry_eq]
  cases hassumption : entry.assumption? with
  | none => exact .refl
  | some declaration =>
    dsimp only
    rw [progress_classify]
    exact Pass.refl.take (.assumption htable hmemo hentry hassumption) hfirst.values_below
      fun hchanged => (hfirst.unchanged hchanged).1.symm

theorem pass_entry {entry : SymbolInfo} (hentry : entry ∈ table.entries) (pass : LevelPass) :
    Pass (LevelRule state) pass.progress
      (levelPassEntry state table memo.2 pass entry).progress :=
  (pass_definition htable hmemo hentry pass).trans (pass_assumption htable hmemo hentry pass)

theorem pass_exposed {entry : ClosureEntry} (hentry : entry ∈ memo.2.entries)
    (pass : LevelPass) :
    Pass (LevelRule state) pass.progress (levelPassExposed state table pass entry).progress := by
  unfold levelPassExposed
  cases hframes : entry.frames.isEmpty with
  | true => exact .refl
  | false =>
    rw [if_pos (by simp)]
    cases hdefinition : entry.info.definition? with
    | none => exact .refl
    | some definition =>
      dsimp only
      rw [progress_raise]
      exact Pass.refl.take (.exposed htable hmemo hentry hframes hdefinition) (Below.refl _)
        fun _ => rfl

end Entry

theorem pass_table (htable : table ∈ state.tables) (pass : LevelPass) :
    Pass (LevelRule state) pass.progress (levelPassTable state pass table).progress := by
  unfold levelPassTable
  cases hmemo : state.closures.find? (fun memo => memo.1 == table.name) with
  | none => exact .refl
  | some memo =>
    exact (pass_foldl (fun pass _ hentry => pass_entry htable hmemo hentry pass) pass).trans
      (pass_foldl (fun pass _ hentry => pass_exposed htable hmemo hentry pass) _)

theorem pass_levelPass (state : ElabState) :
    Pass (LevelRule state) ⟨state.levels, false, false⟩ (levelPass state).progress :=
  pass_foldl (fun pass _ htable => pass_table htable pass) { levels := state.levels }

theorem levelPassTable_eq
    (hmemo : state.closures.find? (fun memo => memo.1 == table.name) = some memo)
    (pass : LevelPass) :
    levelPassTable state pass table =
      memo.2.entries.foldl (levelPassExposed state table)
        (table.entries.foldl (levelPassEntry state table memo.2) pass) := by
  rw [levelPassTable, hmemo]

theorem saturated_levelPass (hchanged : (levelPass state).changed = false)
    (hfailed : (levelPass state).failed = false) :
    Saturated (LevelRule state) (levelPass state).levels := by
  have hturn {table : ModuleTable} (htable : table ∈ state.tables) :
      ∃ mid : LevelPass, Pass (LevelRule state)
        (levelPassTable state mid table).progress (levelPass state).progress := by
    obtain ⟨mid, -, hafter⟩ := exists_turn (fun pass _ htable => pass_table htable pass)
      { levels := state.levels } htable
    exact ⟨mid, hafter⟩
  intro symbol candidate h
  -- each rule had its turn in the pass, and found there the levels that the pass leaves
  cases h with
  | @definition table memo entry definition htable hmemo hentry hdefinition =>
    obtain ⟨mid, hrest⟩ := hturn htable
    rw [levelPassTable_eq hmemo] at hrest
    obtain ⟨turn, -, hentries⟩ :=
      exists_turn (fun pass _ h => pass_entry htable hmemo h pass) mid hentry
    have hexposed := pass_foldl (fun pass _ h => pass_exposed htable hmemo h pass)
      (table.entries.foldl (levelPassEntry state table memo.2) mid)
    have hafter := ((pass_assumption htable hmemo hentry turn).trans hentries).trans
      (hexposed.trans hrest)
    have hsame := (((pass_definition htable hmemo hentry turn).trans hafter).unchanged hchanged).1
    rw [definitionPass, hdefinition] at hafter
    dsimp only at hafter
    rw [progress_classify] at hafter
    have hsettled := hafter.settled hchanged hfailed
    rw [show (levelPass state).levels = turn.levels from hsame]
    exact hsettled
  | @assumption table memo entry declaration htable hmemo hentry hassumption =>
    obtain ⟨mid, hrest⟩ := hturn htable
    rw [levelPassTable_eq hmemo] at hrest
    obtain ⟨turn, -, hentries⟩ :=
      exists_turn (fun pass _ h => pass_entry htable hmemo h pass) mid hentry
    have hexposed := pass_foldl (fun pass _ h => pass_exposed htable hmemo h pass)
      (table.entries.foldl (levelPassEntry state table memo.2) mid)
    have hafter := hentries.trans (hexposed.trans hrest)
    have hfirst := pass_definition htable hmemo hentry turn
    have hunchanged := ((pass_assumption htable hmemo hentry turn).trans hafter).unchanged hchanged
    have hsame := hunchanged.1.trans (hfirst.unchanged hunchanged.2).1
    rw [levelPassEntry_eq, hassumption] at hafter
    dsimp only at hafter
    rw [progress_classify] at hafter
    obtain ⟨value, hvalue, hrises⟩ := hafter.settled hchanged hfailed
    rw [← hunchanged.1, hsame] at hrises
    rw [show (levelPass state).levels = turn.levels from hsame]
    exact ⟨value, hvalue, hrises⟩
  | @exposed table memo entry definition htable hmemo hentry hframes hdefinition =>
    obtain ⟨mid, hrest⟩ := hturn htable
    rw [levelPassTable_eq hmemo] at hrest
    obtain ⟨turn, -, hexposed⟩ :=
      exists_turn (fun pass _ h => pass_exposed htable hmemo h pass)
        (table.entries.foldl (levelPassEntry state table memo.2) mid) hentry
    have hafter := hexposed.trans hrest
    have hsame := (((pass_exposed htable hmemo hentry turn).trans hafter).unchanged hchanged).1
    rw [levelPassExposed, if_pos (by simp [hframes]), hdefinition] at hafter
    dsimp only at hafter
    rw [progress_raise] at hafter
    rw [show (levelPass state).levels = turn.levels from hsame]
    exact hafter.settled hchanged hfailed

end Pass

/-! ### The iteration -/

def levelSlack (level : Level) : Nat := 3 - level.rank

theorem levelSlack_le (level : Level) : levelSlack level ≤ 3 := Nat.sub_le 3 level.rank

theorem strictAnti_levelSlack : StrictAnti levelSlack := by
  intro low high h
  have hlt : low.rank < high.rank := h
  have hle : high.rank ≤ 3 := by cases high <;> decide
  unfold levelSlack
  omega

/-- What an iteration makes of the levels of `s` with `budget` rounds: they rise, stay below
what is saturated, are saturated once a round changes nothing, and that comes within the
room that is left. -/
structure Iterated (s : ElabState) (budget : Nat) (keys : List SymbolId) (start : LevelLoop)
    (result : LevelLoop) (levels : List (SymbolId × Level)) : Prop where
  raised : Below s.levels levels
  bounded : ∀ high, Saturated (LevelRule s) high → Below s.levels high → Below levels high
  settled : start.running = true → result.running = false → result.failed = false →
    Saturated (LevelRule s) levels
  failed : start.failed = false → result.failed = true →
    ∃ values key, LevelRule s values key none
  ends : (∀ key value, s.levels.lookup key = some value → key ∈ keys) → start.running = true →
    room levelSlack keys s.levels < budget → result.running = false

theorem iterateLevels_stopped (budget : Nat) {loop : LevelLoop} (h : loop.running = false) :
    iterateLevels budget loop = pure loop := by
  cases budget with
  | zero => rfl
  | succ budget => rw [iterateLevels, if_neg (by simp [h])]

theorem iterated_iterateLevels (keys : List SymbolId) (budget : Nat) (loop : LevelLoop)
    (s : ElabState) :
    ∃ levels, after (iterateLevels budget loop) s = { s with levels } ∧
      Iterated s budget keys loop (value (iterateLevels budget loop) s) levels := by
  induction budget generalizing loop s with
  | zero =>
    refine ⟨s.levels, rfl, Below.refl _, fun _ _ h => h, fun hrunning hended => ?_,
      fun hstart hfailed => ?_, fun _ _ h => absurd h (Nat.not_lt_zero _)⟩
    · exact absurd (hrunning.symm.trans hended) (by simp)
    · exact absurd (hstart.symm.trans hfailed) (by simp)
  | succ budget ih =>
    cases hrunning : loop.running with
    | false =>
      rw [iterateLevels_stopped _ hrunning]
      exact ⟨s.levels, rfl, Below.refl _, fun _ _ h => h,
        fun h => absurd (hrunning.symm.trans h) (by simp),
        fun hstart hfailed => absurd (hstart.symm.trans hfailed) (by simp),
        fun _ h => absurd (hrunning.symm.trans h) (by simp)⟩
    | true =>
      have hpass := pass_levelPass s
      have hbounded : ∀ high, Saturated (LevelRule s) high → Below s.levels high →
          Below (levelPass s).levels high := fun high hsaturated hbelow =>
        hpass.bounded (monotone_levelRule s) hsaturated hbelow
      have hfailing : loop.failed = false → (loop.failed || (levelPass s).failed) = true →
          ∃ values key, LevelRule s values key none := fun hstart hfailed => by
        rw [hstart, Bool.false_or] at hfailed
        exact hpass.exists_none rfl hfailed
      rw [iterateLevels, if_pos hrunning]
      simp only [after_bind, value_bind, value_get, after_get, after_set]
      cases hnext : ((levelPass s).changed && !(levelPass s).failed) with
      | false =>
        -- the last round: nothing rose, or a rule had no candidate
        rw [iterateLevels_stopped budget rfl]
        refine ⟨_, rfl, hpass.values_below, hbounded, fun _ _ hfailed => ?_, hfailing,
          fun _ _ _ => rfl⟩
        obtain ⟨-, hpassed⟩ := Bool.or_eq_false_iff.mp hfailed
        rw [hpassed, Bool.not_false, Bool.and_true] at hnext
        exact saturated_levelPass hnext hpassed
      | true =>
        obtain ⟨hchanged, -⟩ := Bool.and_eq_true_iff.mp hnext
        obtain ⟨levels, hafter, hiterated⟩ := ih
          { running := true
            failed := loop.failed || (levelPass s).failed
            enabledProblems := (levelPass s).enabledProblems }
          { s with levels := (levelPass s).levels }
        have hrules := levelRule_levels s (levelPass s).levels
        refine ⟨levels, hafter, hpass.values_below.trans hiterated.raised,
          fun high hsaturated hbelow => ?_, fun _ hended hfailed => ?_,
          fun hstart hfailed => ?_, fun hkeys _ hroom => ?_⟩
        · exact hiterated.bounded high (hrules ▸ hsaturated) (hbounded high hsaturated hbelow)
        · exact hrules ▸ hiterated.settled rfl hended hfailed
        · -- this round failed, or a later one did
          cases hround : (loop.failed || (levelPass s).failed) with
          | true => exact hfailing hstart hround
          | false => exact hrules ▸ hiterated.failed hround hfailed
        · -- a level rose in this round, which took room
          have hless := (hpass.room_lt strictAnti_levelSlack hkeys rfl).2 hchanged
          refine hiterated.ends (fun key value hvalue => ?_) rfl
            (hless.trans_le (Nat.le_of_lt_succ hroom))
          obtain ⟨old, hold⟩ := hpass.values_below.exists_lookup hvalue
          exact hkeys key old hold

theorem iterateLevels_extra {budget : Nat} {loop : LevelLoop} {s : ElabState}
    (h : (value (iterateLevels budget loop) s).running = false) (extra : Nat) :
    (iterateLevels (budget + extra) loop).run s = (iterateLevels budget loop).run s := by
  induction budget generalizing loop s with
  | zero =>
    have hstopped : loop.running = false := h
    rw [Nat.zero_add, iterateLevels_stopped extra hstopped, iterateLevels_stopped 0 hstopped]
  | succ budget ih =>
    cases hrunning : loop.running with
    | false => rw [iterateLevels_stopped _ hrunning, iterateLevels_stopped _ hrunning]
    | true =>
      rw [iterateLevels, if_pos hrunning] at h
      rw [Nat.succ_add, iterateLevels, iterateLevels, if_pos hrunning, if_pos hrunning]
      exact ih h

/-- The least assignment above the declared levels that is saturated. -/
structure LeastLevels (state : ElabState) (levels : List (SymbolId × Level)) : Prop where
  declared : Below (initialLevels state) levels
  saturated : Saturated (LevelRule state) levels
  least : ∀ high, Saturated (LevelRule state) high → Below (initialLevels state) high →
    Below levels high

theorem LeastLevels.of_levels {state : ElabState} {levels stored : List (SymbolId × Level)}
    (h : LeastLevels state levels) : LeastLevels { state with levels := stored } levels where
  declared := h.declared
  saturated := levelRule_levels state stored ▸ h.saturated
  least := fun high hsaturated hbelow => h.least high (levelRule_levels state stored ▸ hsaturated)
    hbelow

end MirrorsCore.Tla
