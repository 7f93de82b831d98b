import Mathlib
import MirrorsCore.Tla.ExpressionSteps

/-! The column rule through every re-entry of the expression grammar. The watched
parser reports each prefix list that is opened at or left of the enclosing
bullet; it is the plain parser exactly when every list keeps its column. -/

namespace MirrorsCore.Tla
open Lib Lib.Monitor CstNode

/-! ### The watched parser -/

/-- Report a prefix list that would open at the enclosing boundary. -/
def reportBoundary (level : Nat) : ParserM Unit := do
  match ← nextInfixAt? level with
  | some leading =>
      let inside ← atJunctionBoundary
      if isJunctionSpelling leading.canonical && inside then
        let range ← currentRange
        emitError ParseCode.precedenceConflict "a prefix list opens left of its enclosing list" range
      else
        return ()
  | none => return ()

/-- The parser of expressions, with a report in front of every level. -/
def watchedExpression : Nat → Nat → ParserM Expression
  | 0, _ => expressionExhausted
  | fuel + 1, level => do
    openFrame .expression
    reportBoundary level
    let expression ← parseExpressionLevel (watchedExpression fuel) fuel level
    closeFrame
    return expression

variable {c : Setting} {α : Type} {s t : ParserState}

/-! ### Operators at the current token -/

theorem value_nextInfixAt? {level : Nat} {entry : OperatorEntry}
    (h : value (nextInfixAt? level) s = some entry) :
    ∃ token, s.tokens[s.position]? = some token ∧
      infixOperatorOf? s.parserProfile s.profile token = some entry ∧ entry.level = level := by
  unfold nextInfixAt? at h
  rw [value_bind, value_get, after_get] at h
  cases htoken : s.tokens[s.position]? with
  | none =>
    rw [htoken] at h
    cases h
  | some token =>
    rw [htoken] at h
    dsimp only at h
    cases hentry : infixOperatorOf? s.parserProfile s.profile token with
    | none =>
      rw [hentry] at h
      cases h
    | some found =>
      rw [hentry] at h
      change (if (found.level == level) = true then some found else none) = some entry at h
      split_ifs at h with hlevel
      obtain rfl := Option.some.inj h
      exact ⟨token, rfl, hentry, beq_iff_eq.1 hlevel⟩

theorem value_nextInfixAt?_of {level : Nat} {token : Token} {entry : OperatorEntry}
    (htoken : s.tokens[s.position]? = some token)
    (hentry : infixOperatorOf? s.parserProfile s.profile token = some entry)
    (hlevel : entry.level = level) : value (nextInfixAt? level) s = some entry := by
  unfold nextInfixAt?
  rw [value_bind, value_get, after_get, htoken]
  dsimp only
  rw [hentry]
  change (if (entry.level == level) = true then some entry else none) = some entry
  rw [if_pos (beq_iff_eq.2 hlevel)]

theorem canonical_of_findOperator {parserProfile : ParserProfile} {spelling : String}
    {fixity : SymbolFixity} {entry : OperatorEntry}
    (h : parserProfile.findOperator? spelling fixity = some entry) :
    entry ∈ parserProfile.operators ∧ entry.canonical = spelling := by
  unfold ParserProfile.findOperator? at h
  obtain ⟨found, hmem, hfound⟩ := List.exists_of_findSome?_eq_some h
  split_ifs at hfound with haccepts
  obtain rfl := Option.some.inj hfound
  rw [Bool.and_eq_true] at haccepts
  exact ⟨hmem, beq_iff_eq.1 haccepts.1⟩

theorem symbolOf_of_infixOperator {parserProfile : ParserProfile} {profile : LanguageProfile}
    {token : Token} {entry : OperatorEntry}
    (h : infixOperatorOf? parserProfile profile token = some entry) :
    symbolOf? profile token = some entry.canonical ∧ entry ∈ parserProfile.operators := by
  unfold infixOperatorOf? operatorOf? at h
  unfold symbolOf?
  cases hkind : token.kind with
  | symbol symbol =>
    rw [hkind] at h
    obtain ⟨hmem, hcanonical⟩ := canonical_of_findOperator h
    exact ⟨by rw [hcanonical], hmem⟩
  | _ =>
    rw [hkind] at h
    cases h

theorem symbolSpelling_of_symbolOf {profile : LanguageProfile} {token : Token} {spelling : String}
    (h : symbolOf? profile token = some spelling) : symbolSpelling profile token = spelling := by
  unfold symbolOf? at h
  cases hkind : token.kind with
  | symbol symbol =>
    rw [hkind] at h
    exact Option.some.inj h
  | _ =>
    rw [hkind] at h
    cases h

theorem symbolOf_of_isJunction {profile : LanguageProfile} {token : Token}
    (h : isJunction profile token = true) :
    symbolOf? profile token = some (symbolSpelling profile token) ∧
      isJunctionSpelling (symbolSpelling profile token) = true := by
  unfold isJunction at h
  cases hsymbol : symbolOf? profile token with
  | none =>
    rw [hsymbol] at h
    exact absurd h Bool.false_ne_true
  | some spelling =>
    rw [hsymbol] at h
    rw [symbolSpelling_of_symbolOf hsymbol]
    exact ⟨rfl, h⟩

theorem value_atJunctionBoundary {token : Token} (htoken : s.tokens[s.position]? = some token)
    (hjunction : isJunction s.profile token = true) :
    value atJunctionBoundary s = true ↔ ¬ Beyond s.profile s.junctionBoundaryColumn token := by
  have hspelling := (symbolOf_of_isJunction hjunction).2
  unfold atJunctionBoundary Beyond
  rw [value_bind, value_get, after_get, htoken]
  cases hboundary : s.junctionBoundaryColumn with
  | none =>
    refine ⟨fun h => absurd h Bool.false_ne_true, fun h => absurd ?_ h⟩
    exact fun _ column hcolumn => nomatch hcolumn
  | some column =>
    change (isJunctionSpelling (symbolSpelling s.profile token) &&
      decide (token.range.start.column ≤ column)) = true ↔ _
    rw [hspelling, Bool.true_and, decide_eq_true_eq, hjunction]
    constructor
    · intro hle hbeyond
      exact absurd (hbeyond rfl column rfl) (Nat.not_lt.2 hle)
    · intro h
      by_contra hlt
      refine h fun _ other hother => ?_
      obtain rfl := Option.some.inj hother
      exact Nat.lt_of_not_le hlt

theorem beyond_of_atJunctionBoundary {token : Token}
    (htoken : s.tokens[s.position]? = some token)
    (h : value atJunctionBoundary s = false) :
    Beyond s.profile s.junctionBoundaryColumn token := by
  cases hjunction : isJunction s.profile token with
  | false => exact beyond_of_not_junction hjunction
  | true =>
    by_contra hbeyond
    rw [(value_atJunctionBoundary htoken hjunction).2 hbeyond] at h
    exact Bool.false_ne_true h.symm

theorem le_foldl_max (operators : List OperatorEntry) (best : Nat) :
    best ≤ operators.foldl (fun best entry => Nat.max best entry.level) best ∧
      ∀ entry ∈ operators,
        entry.level ≤ operators.foldl (fun best entry => Nat.max best entry.level) best := by
  induction operators generalizing best with
  | nil => exact ⟨le_rfl, nofun⟩
  | cons first rest ih =>
    obtain ⟨hbest, hrest⟩ := ih (Nat.max best first.level)
    rw [List.foldl_cons]
    refine ⟨(Nat.le_max_left _ _).trans hbest, fun entry hentry => ?_⟩
    rcases List.mem_cons.1 hentry with rfl | hmem
    · exact (Nat.le_max_right _ _).trans hbest
    · exact hrest entry hmem

theorem level_le_tightestLevel {parserProfile : ParserProfile} {entry : OperatorEntry}
    (h : entry ∈ parserProfile.operators) : entry.level ≤ parserProfile.tightestLevel :=
  (le_foldl_max parserProfile.operators _).2 entry h

/-! ### An operand cannot be a junction -/

section Operand
variable {self self' : Nat → ParserM Expression}
  (hself : ∀ level, (reading c).Watches (self level) (self' level))
include hself

theorem failed_parsePrefix (hs : (reading c).inv s) {token : Token}
    (htoken : s.tokens[s.position]? = some token) (hjunction : isJunction c.profile token = true)
    (fuel : Nat) : (after (parsePrefix self fuel) s).Failed := by
  obtain ⟨hsymbol, hspelling⟩ := symbolOf_of_isJunction hjunction
  have hmem := eq_of_isJunctionSpelling hspelling
  obtain ⟨symbol, hkind⟩ : ∃ symbol, token.kind = .symbol symbol := by
    by_contra hnone
    rw [isJunction_of_kind fun symbol hkind => hnone ⟨symbol, hkind⟩] at hjunction
    exact Bool.false_ne_true hjunction
  have hother {other : String} (h : isJunctionSpelling other = false) :
      ¬ (symbolSpelling c.profile token == other) = true := fun heq => by
    rw [← beq_iff_eq.1 heq, hspelling] at h
    exact Bool.false_ne_true h.symm
  have hbracket {other : String} (h : other ∈ ["(", "<<", "\x7b", "[", "@"]) :
      ¬ (symbol.canonical == other) = true := fun heq => by
    have hplain := plain_of_bracket (c := c) htoken hkind heq h token htoken
    rw [hjunction] at hplain
    exact Bool.false_ne_true hplain.symm
  have hpeek : value peek? s = some token := htoken
  have hkeyword : keywordOf? token = none := by
    unfold keywordOf?
    rw [hkind]
  -- A junction is no keyword, no prefix operator and no bracket, so no production takes it.
  have hskipped : after (parsePrefix self fuel) s = after (parseSymbolOrPrimary self) s := by
    unfold parsePrefix
    rw [reads_currentRange.after_bind, reads_peek?.after_bind, hpeek]
    dsimp only
    rw [hkeyword]
  have hoperand : after (parseSymbolOrPrimary self) s = after (parseOperand self) s := by
    have hprofile : value profileOf s = c.profile := hs.1
    have hparser : value parserProfileOf s = c.parserProfile := hs.2.1
    unfold parseSymbolOrPrimary
    rw [reads_profileOf.after_bind, reads_parserProfileOf.after_bind, reads_currentRange.after_bind,
      reads_peek?.after_bind, hprofile, hparser, hpeek]
    dsimp only
    unfold symbolOrPrimaryAt
    rw [hsymbol]
    dsimp only
    rw [c.tables.no_prefix _ hmem, if_neg (hother rfl), if_neg (hother rfl)]
  have hprimary : (after (parsePrimary self true) s).Failed := by
    unfold parsePrimary
    rw [reads_currentRange.after_bind, reads_peek?.after_bind, hpeek]
    dsimp only
    unfold primaryAt
    rw [hkind]
    dsimp only
    rw [if_neg (hbracket (by decide)), if_neg (hbracket (by decide)),
      if_neg (hbracket (by decide)), if_neg (hbracket (by decide)),
      if_neg (hbracket (by decide))]
    unfold rejectPrimary
    exact failed_after_emitError _ _ _
  rw [hskipped, hoperand]
  unfold parseOperand
  rw [after_bind]
  have hlater := (watches_parsePrimary hself true s hs).later
  obtain ⟨forest, forest', hw⟩ :=
    watches_parserLoop (watchesLoop_postfixStep hself) (value (parsePrimary self true) s) _ (hlater.inv hs)
  exact hw.ends.moves.failed hprimary

end Operand

/-! ### Operators with their operands -/

def IsOperand (forest : List CstNode) : Prop :=
  ∃ range children, forest = [.node .expression range children]

/-- Operator tokens, each with the expression node behind it. -/
inductive Pairs (ok : Token → Prop) : List CstNode → Prop
  | nil : Pairs ok []
  | cons {token : Token} {range : SourceRange} {children rest : List CstNode} (htoken : ok token)
      (hrest : Pairs ok rest) : Pairs ok (.token token :: .node .expression range children :: rest)

theorem Pairs.append {ok : Token → Prop} {front back : List CstNode} (h : Pairs ok front)
    (h' : Pairs ok back) : Pairs ok (front ++ back) := by
  induction h with
  | nil => exact h'
  | cons htoken _ ih => exact .cons htoken ih

theorem mem_listItems {profile : LanguageProfile} {bullet : Token} {front back : List CstNode}
    (h : Pairs (fun token => sameBullet profile bullet token = true) front)
    (hback : listItems profile bullet back = []) {item : CstNode} :
    item ∈ listItems profile bullet (front ++ back) ↔
      item ∈ front ∧ ∃ range children, item = .node .expression range children := by
  induction h with
  | nil =>
    rw [List.nil_append, hback]
    simp
  | @cons token range children rest htoken _ ih =>
    rw [List.cons_append, List.cons_append, listItems, if_pos htoken, List.mem_cons, ih,
      List.mem_cons, List.mem_cons]
    constructor
    · rintro (rfl | ⟨hmem, hnode⟩)
      · exact ⟨Or.inr (Or.inl rfl), _, _, rfl⟩
      · exact ⟨Or.inr (Or.inr hmem), hnode⟩
    · rintro ⟨rfl | rfl | hmem, hnode⟩
      · obtain ⟨_, _, hnode⟩ := hnode
        cases hnode
      · exact Or.inl rfl
      · exact Or.inr ⟨hmem, hnode⟩

/-- A parser of operands: without failure it adds one expression node. -/
def WatchesOperand (c : Setting) (m m' : ParserM Expression) : Prop :=
  ∀ s, (reading c).inv s → ∃ forest forest',
    Extends forest s (after m s) ∧ (¬ (after m s).Failed → IsOperand forest) ∧
    Extends forest' s (after m' s) ∧ (¬ (after m' s).Failed → IsOperand forest') ∧
    Lockstep ParserState.Failed (Respected c.profile c.boundary forest) s m m'

theorem WatchesOperand.watches {m m' : ParserM Expression} (h : WatchesOperand c m m') :
    (reading c).Watches m m' := by
  intro s hs
  obtain ⟨forest, forest', hext, -, hext', -, hlockstep⟩ := h s hs
  exact ⟨forest, forest', hext, hext', trivial, trivial, hlockstep⟩

theorem extends_pair {ok : Token → Prop} {token : Token} {forest : List CstNode}
    (htoken : s.tokens[s.position]? = some token) (hok : ok token)
    (hext : Extends forest (s.consume token) t) (hoperand : ¬ t.Failed → IsOperand forest) :
    Extends (.token token :: forest) s t ∧ (¬ t.Failed → Pairs ok (.token token :: forest)) := by
  refine ⟨(extends_consume htoken).trans hext, fun hclean => ?_⟩
  obtain ⟨range, children, rfl⟩ := hoperand hclean
  exact .cons hok .nil

theorem remaining_pair {token : Token} {forest : List CstNode}
    (htoken : s.tokens[s.position]? = some token) (hext : Extends forest (s.consume token) t) :
    t.remaining < s.remaining := hext.moves.remaining_le.trans_lt (remaining_consume htoken)

def chaining (c : Setting) : Monitor ParserState CstNode :=
  (reading c).shaped (Pairs fun _ => True) .nil .append

theorem watch_chainOperand {self self' : Nat → ParserM Expression} {level : Nat}
    (hself : WatchesOperand c (self (level + 1)) (self' (level + 1))) (hs : (reading c).inv s)
    {token : Token} (htoken : s.tokens[s.position]? = some token)
    (heof : token.kind.isEof = false) (hbeyond : Beyond c.profile c.boundary token) :
    (chaining c).Watch s (chainOperand self level) (chainOperand self' level) fun _ t =>
      t.remaining < s.remaining := by
  have hadvance := after_advance htoken heof
  obtain ⟨forest, forest', hext, hoperand, hext', hoperand', hlockstep⟩ :=
    hself (s.consume token) hs
  unfold chainOperand
  refine ⟨.token token :: forest, .token token :: forest', ?_, ?_, ?_, ?_, ?_⟩
  · rw [after_bind, hadvance]
    exact extends_pair htoken trivial hext hoperand
  · rw [after_bind, hadvance]
    exact extends_pair htoken trivial hext' hoperand'
  · rw [after_bind, hadvance]
    exact remaining_pair htoken hext
  · rw [after_bind, hadvance]
    exact remaining_pair htoken hext'
  · rw [← hadvance] at hlockstep
    refine hlockstep.afterStep.convert fun _ => ?_
    change _ ↔ Respected c.profile c.boundary _
    rw [respected_cons, respected_token, and_iff_right hbeyond]

/-! ### Items under their bullet -/

def Setting.under (c : Setting) (column : Nat) : Setting := { c with boundary := some column }

def ItemsRespected (profile : LanguageProfile) (column : Nat) (forest : List CstNode) : Prop :=
  ∀ range children, CstNode.node .expression range children ∈ forest →
    Respected profile (some column) [.node .expression range children]

def listing (c : Setting) (bullet : Token) : Monitor ParserState CstNode :=
  Monitor.shaped
    { reading c with
      good := ItemsRespected c.profile bullet.column
      good_nil := nofun
      good_append := by
        intro front back
        unfold ItemsRespected
        simp only [List.mem_append, or_imp, forall_and] }
    (Pairs fun token => sameBullet c.profile bullet token = true) .nil .append

theorem itemsRespected_pair {profile : LanguageProfile} {column : Nat} {token : Token}
    {forest : List CstNode} (h : IsOperand forest) :
    ItemsRespected profile column (.token token :: forest) ↔
      Respected profile (some column) forest := by
  obtain ⟨range, children, rfl⟩ := h
  unfold ItemsRespected
  constructor
  · exact fun h => h range children (by simp)
  · intro h range' children' hmem
    rcases List.mem_cons.1 hmem with heq | hmem
    · cases heq
    · rw [List.mem_singleton.1 hmem]
      exact h

/-- The state that an item is read from. -/
def ParserState.under (s : ParserState) (column : Option Nat) : ParserState :=
  { s with junctionBoundaryColumn := column }

theorem run_withJunctionBoundary (column : Nat) (m : ParserM α) :
    (withJunctionBoundary column m).run s =
      (value m (s.under (some column)),
        (after m (s.under (some column))).under s.junctionBoundaryColumn) := rfl

theorem extends_under {column : Nat} {forest : List CstNode}
    (h : Extends forest (s.under (some column)) t) :
    Extends forest s (t.under s.junctionBoundaryColumn) := by
  obtain ⟨hmoves, hframes, hspans⟩ := h
  exact ⟨⟨hmoves.profile, hmoves.parserProfile, hmoves.tokens, rfl, hmoves.unread,
    hmoves.position, hmoves.halted, hmoves.failed⟩, hframes, hspans⟩

theorem lockstep_withJunctionBoundary {column : Nat} {m m' : ParserM α} {good : Prop}
    (h : Lockstep ParserState.Failed good (s.under (some column)) m m') :
    Lockstep ParserState.Failed good s (withJunctionBoundary column m)
      (withJunctionBoundary column m') := by
  have hrun (hrun : m'.run (s.under (some column)) = m.run (s.under (some column))) :
      (withJunctionBoundary column m').run s = (withJunctionBoundary column m).run s := by
    have hvalue := congrArg Prod.fst hrun
    have hafter := congrArg Prod.snd hrun
    change value m' _ = value m _ at hvalue
    change after m' _ = after m _ at hafter
    rw [run_withJunctionBoundary, run_withJunctionBoundary, hvalue, hafter]
  constructor
  · intro hclean
    obtain ⟨heq, hgood⟩ := h.sound hclean
    exact ⟨hrun heq, hgood⟩
  · exact fun hclean hgood => hrun (h.complete hclean hgood)

theorem watch_junctionItem {self self' : Nat → ParserM Expression} {bullet token : Token}
    (hself : WatchesOperand (c.under bullet.column) (self 0) (self' 0))
    (hs : (reading c).inv s) (htoken : s.tokens[s.position]? = some token)
    (heof : token.kind.isEof = false) (hsame : sameBullet c.profile bullet token = true) :
    (listing c bullet).Watch s (junctionItem self bullet.column)
      (junctionItem self' bullet.column) fun _ t => t.remaining < s.remaining := by
  have hadvance := after_advance htoken heof
  obtain ⟨forest, forest', hext, hoperand, hext', hoperand', hlockstep⟩ :=
    hself ((s.consume token).under (some bullet.column)) ⟨hs.1, hs.2.1, rfl⟩
  unfold junctionItem
  refine ⟨.token token :: forest, .token token :: forest', ?_, ?_, ?_, ?_, ?_⟩
  · rw [after_bind, hadvance]
    exact extends_pair htoken hsame (extends_under hext) hoperand
  · rw [after_bind, hadvance]
    exact extends_pair htoken hsame (extends_under hext') hoperand'
  · rw [after_bind, hadvance]
    exact remaining_pair htoken (extends_under hext)
  · rw [after_bind, hadvance]
    exact remaining_pair htoken (extends_under hext')
  · have hitem := lockstep_withJunctionBoundary hlockstep
    rw [← hadvance] at hitem
    refine hitem.afterStep.convert fun hclean => ?_
    rw [after_bind, hadvance] at hclean
    exact (itemsRespected_pair (hoperand hclean)).symm

/-! ### Loops over pairs -/

theorem extends_emitLimit (code message : String) (range : SourceRange) :
    Extends [] s (after (emitLimit code message range) s) :=
  ⟨⟨rfl, rfl, rfl, rfl, rfl, rfl, fun _ => rfl,
    fun _ => failed_after_emitError code message range⟩, rfl, spans_nil rfl rfl rfl⟩

theorem infixOperatorOf_of_symbolOf {parserProfile : ParserProfile} {profile : LanguageProfile}
    {token : Token} {spelling : String} (h : symbolOf? profile token = some spelling) :
    infixOperatorOf? parserProfile profile token =
      parserProfile.findOperator? spelling .infixOperator := by
  have hspelling := symbolSpelling_of_symbolOf h
  unfold symbolOf? at h
  unfold infixOperatorOf? operatorOf?
  cases hkind : token.kind with
  | symbol symbol =>
    dsimp only
    rw [hspelling]
  | _ =>
    rw [hkind] at h
    cases h

theorem watchesLoop_infixChainStep {self self' : Nat → ParserM Expression} {level : Nat}
    (hself : WatchesOperand c (self (level + 1)) (self' (level + 1))) :
    (chaining c).WatchesLoop ParserState.remaining (infixChainStep self level)
      (infixChainStep self' level) fun _ _ => True := by
  intro chain s hs
  unfold infixChainStep
  refine WatchTo.reads reads_halted? fun _ _ => WatchTo.ite (fun _ => ?_) fun _ => ?_
  · exact watch_pure (round_done trivial)
  refine WatchTo.reads reads_atJunctionBoundary fun inside hinside => WatchTo.ite (fun _ => ?_) ?_
  · exact watch_pure (round_done trivial)
  intro houtside
  refine WatchTo.reads (reads_nextInfixAt? level) fun entry? hentry => ?_
  cases entry? with
  | none => exact watch_pure (round_done trivial)
  | some entry =>
    obtain ⟨token, htoken, hoperator, -⟩ := value_nextInfixAt? hentry.symm
    have heof := isEof_of_symbolOf (symbolOf_of_infixOperator hoperator).1
    have hbeyond : Beyond c.profile c.boundary token := by
      rw [← hs.1, ← hs.2.2]
      exact beyond_of_atJunctionBoundary htoken
        (hinside.symm.trans (Bool.eq_false_of_not_eq_true houtside))
    dsimp only
    cases associationConflict chain.first entry with
    | none =>
      refine (watch_chainOperand hself hs htoken heof hbeyond).bind fun _ _ _ hlt => ?_
      exact watch_pure (round_yield hlt)
    | some message =>
      refine WatchTo.reads reads_currentRange fun range _ => ?_
      refine WatchTo.bind (Q := fun _ _ => True) (watch_silent ?_ trivial) fun _ _ _ _ => ?_
      · exact ⟨extends_emitLimit _ _ _, fun _ => .nil⟩
      · exact watch_pure (round_done trivial)

/-- The current token does not start another item. -/
def Setting.Ended (c : Setting) (bullet : Token) (s : ParserState) : Prop :=
  ∀ token ∈ s.tokens[s.position]?, sameBullet c.profile bullet token = false

section List
variable {self self' : Nat → ParserM Expression} {level : Nat} {bullet : Token}
  {opening : SourceRange} {leading : OperatorEntry}
  (hcolumn : opening.start.column = bullet.column)
  (hleading : infixOperatorOf? c.parserProfile c.profile bullet = some leading)
  (hlevel : leading.level = level) (hjunction : isJunction c.profile bullet = true)
include hcolumn hleading

theorem sameBullet_iff (hjunction : isJunction c.profile bullet = true) {token : Token}
    {entry : OperatorEntry}
    (hentry : infixOperatorOf? c.parserProfile c.profile token = some entry) :
    (token.range.start.column == opening.start.column && entry.canonical == leading.canonical) =
      sameBullet c.profile bullet token := by
  have htoken := (symbolOf_of_infixOperator hentry).1
  have hbullet := (symbolOf_of_infixOperator hleading).1
  rw [isJunction_of_symbolOf hbullet] at hjunction
  unfold sameBullet Token.column
  rw [hcolumn, isJunction_of_symbolOf htoken, symbolSpelling_of_symbolOf htoken,
    symbolSpelling_of_symbolOf hbullet]
  unfold Token.column
  by_cases hsame : entry.canonical = leading.canonical
  · rw [hsame, hjunction, beq_self_eq_true, Bool.and_true, Bool.true_and, Bool.true_and]
  · rw [beq_eq_false_iff_ne.2 hsame, Bool.and_false, Bool.and_false, Bool.false_and]

omit hcolumn in
theorem infixOperatorOf_of_sameBullet {token : Token} (h : sameBullet c.profile bullet token = true) :
    infixOperatorOf? c.parserProfile c.profile token = some leading := by
  unfold sameBullet at h
  rw [Bool.and_eq_true, Bool.and_eq_true] at h
  obtain ⟨htoken, -⟩ := symbolOf_of_isJunction h.1.1
  have hbullet := (symbolOf_of_infixOperator hleading).1
  rw [infixOperatorOf_of_symbolOf htoken, beq_iff_eq.1 h.1.2, symbolSpelling_of_symbolOf hbullet,
    ← infixOperatorOf_of_symbolOf hbullet]
  exact hleading

include hlevel hjunction

theorem watchesLoop_junctionListStep
    (hself : WatchesOperand (c.under bullet.column) (self 0) (self' 0)) :
    (listing c bullet).WatchesLoop ParserState.remaining
      (junctionListStep self level opening leading)
      (junctionListStep self' level opening leading) fun _ => c.Ended bullet := by
  intro list s hs
  have hprofile : s.profile = c.profile := hs.1
  have hparser : s.parserProfile = c.parserProfile := hs.2.1
  unfold junctionListStep
  refine WatchTo.reads (reads_nextInfixAt? level) fun entry? hentry => ?_
  cases entry? with
  | none =>
    refine watch_pure (round_done fun token htoken => ?_)
    by_contra hsame
    have hoperator := infixOperatorOf_of_sameBullet hleading (Bool.eq_true_of_not_eq_false hsame)
    rw [← hprofile, ← hparser] at hoperator
    rw [value_nextInfixAt?_of htoken hoperator hlevel] at hentry
    cases hentry
  | some entry =>
    obtain ⟨token, htoken, hoperator, -⟩ := value_nextInfixAt? hentry.symm
    rw [hprofile, hparser] at hoperator
    have hrange : value currentRange s = token.range := by
      unfold currentRange
      rw [value_bind, value_get, after_get, htoken]
      rfl
    refine WatchTo.reads reads_currentRange fun range hvalue => ?_
    obtain rfl : range = token.range := hvalue.trans hrange
    rw [sameBullet_iff hcolumn hleading hjunction hoperator, hcolumn]
    refine WatchTo.ite (fun hsame => ?_) fun hother => ?_
    · have heof := isEof_of_symbolOf (symbolOf_of_infixOperator hoperator).1
      refine (watch_junctionItem hself hs htoken heof hsame).bind fun _ _ _ hlt => ?_
      exact watch_pure (round_yield hlt)
    · refine watch_pure (round_done fun other htoken' => ?_)
      obtain rfl : token = other := Option.some.inj (htoken.symm.trans htoken')
      exact Bool.eq_false_of_not_eq_true hother

omit hcolumn in
theorem watch_parseJunctionList
    (hself : WatchesOperand (c.under bullet.column) (self 0) (self' 0)) (hs : (reading c).inv s)
    (hbullet : s.tokens[s.position]? = some bullet) :
    (listing c bullet).Watch s (parseJunctionList self level leading)
      (parseJunctionList self' level leading) fun _ => c.Ended bullet := by
  have hrange : value currentRange s = bullet.range := by
    unfold currentRange
    rw [value_bind, value_get, after_get, hbullet]
    rfl
  have hsame : sameBullet c.profile bullet bullet = true := by
    unfold sameBullet
    rw [hjunction, beq_self_eq_true, beq_self_eq_true]
    rfl
  have heof := isEof_of_symbolOf (symbolOf_of_infixOperator hleading).1
  unfold parseJunctionList
  refine WatchTo.reads reads_currentRange fun opening hvalue => ?_
  obtain rfl : opening = bullet.range := hvalue.trans hrange
  refine (watch_junctionItem hself hs hbullet heof hsame).bind fun first t hst _ => ?_
  exact (watchesLoop_junctionListStep rfl hleading hlevel hjunction hself).loop first (hst.inv hs)

end List

/-! ### One precedence level -/

/-- What a level adds to the frame of its expression node. -/
def LevelKept (c : Setting) (forest : List CstNode) : Prop :=
  ∀ range, Respected c.profile c.boundary [.node .expression range forest]

theorem prefixList_of_node {profile : LanguageProfile} {kind : CstKind}
    {range inner : SourceRange} {children rest : List CstNode} :
    prefixList? profile (.node .expression range (.node kind inner children :: rest)) = none := rfl

theorem respected_range {range range' : SourceRange} {forest : List CstNode} :
    Respected c.profile c.boundary [.node .expression range forest] ↔
      Respected c.profile c.boundary [.node .expression range' forest] := by
  have hlist : prefixList? c.profile (.node .expression range forest) =
      prefixList? c.profile (.node .expression range' forest) := by
    cases forest with
    | nil => rfl
    | cons first rest => cases first <;> rfl
  have hkeeps : KeepsColumn c.profile (.node .expression range forest) ↔
      KeepsColumn c.profile (.node .expression range' forest) := by
    unfold KeepsColumn
    rw [hlist]
  rw [respected_node, respected_node, hkeeps]

theorem levelKept_of_operand {front back : List CstNode} (h : IsOperand front) :
    LevelKept c (front ++ back) ↔
      Respected c.profile c.boundary front ∧ Respected c.profile c.boundary back := by
  obtain ⟨range, children, rfl⟩ := h
  unfold LevelKept
  rw [← respected_append]
  have hkeeps (outer : SourceRange) : KeepsColumn c.profile
      (.node .expression outer ([.node .expression range children] ++ back)) := by
    intro list hlist
    rw [List.singleton_append, prefixList_of_node] at hlist
    cases hlist
  constructor
  · exact fun h => (respected_node.1 (h zeroRange)).2
  · exact fun h outer => respected_node.2 ⟨hkeeps outer, h⟩

theorem respected_of_pairs {bullet : Token} {forest : List CstNode}
    (hjunction : isJunction c.profile bullet = true)
    (hbeyond : Beyond c.profile c.boundary bullet)
    (h : Pairs (fun token => sameBullet c.profile bullet token = true) forest)
    (hitems : ItemsRespected c.profile bullet.column forest) :
    Respected c.profile c.boundary forest := by
  have hinner : ∀ outer ∈ c.boundary, outer < bullet.column := hbeyond hjunction
  induction h with
  | nil => exact respected_nil
  | @cons token range children rest htoken _ ih =>
    rw [respected_cons_cons]
    refine ⟨respected_token.2 fun _ => ?_, ?_, ih fun range' children' hmem => ?_⟩
    · unfold sameBullet at htoken
      rw [Bool.and_eq_true, beq_iff_eq] at htoken
      rw [htoken.2]
      exact hinner
    · exact (hitems range children (by simp)).weaken fun outer houter => (hinner outer houter).le
    · exact hitems range' children' (by simp [hmem])

theorem mem_leafTokens_head {leaf : Token} {forest : List CstNode}
    (h : forest.head? = some (.token leaf)) : leaf ∈ leafTokensList forest := by
  cases forest with
  | nil => cases h
  | cons first rest =>
    obtain rfl : first = .token leaf := Option.some.inj h
    exact List.mem_append_left _ (List.mem_singleton_self leaf)

theorem levelKept_of_list {bullet : Token} {front back : List CstNode}
    (hjunction : isJunction c.profile bullet = true)
    (hpairs : Pairs (fun token => sameBullet c.profile bullet token = true) front)
    (hhead : front.head? = some (.token bullet)) (hback : listItems c.profile bullet back = []) :
    LevelKept c (front ++ back) ↔
      Beyond c.profile c.boundary bullet ∧ ItemsRespected c.profile bullet.column front ∧
        Respected c.profile c.boundary back := by
  have hlist (range : SourceRange) :
      prefixList? c.profile (.node .expression range (front ++ back)) =
        some (bullet, listItems c.profile bullet (front ++ back)) := by
    cases front with
    | nil => cases hhead
    | cons first rest =>
      obtain rfl : first = .token bullet := Option.some.inj hhead
      rw [List.cons_append, prefixList?, if_pos hjunction]
  unfold LevelKept
  constructor
  · intro h
    obtain ⟨hkeeps, hforest⟩ := respected_node.1 (h zeroRange)
    obtain ⟨hfront, hrest⟩ := respected_append.1 hforest
    refine ⟨hfront.2 bullet (mem_leafTokens_head hhead), fun range children hmem => ?_, hrest⟩
    refine ⟨fun node hnode => hfront.1 node ?_, fun leaf hleaf => ?_⟩
    · rw [subtreesList_singleton] at hnode
      exact mem_subtreesList.2 ⟨_, hmem, hnode⟩
    · rw [leafTokensList_singleton] at hleaf
      refine hkeeps _ (hlist zeroRange) _ ?_ leaf hleaf
      exact (mem_listItems hpairs hback).2 ⟨hmem, range, children, rfl⟩
  · rintro ⟨hbeyond, hitems, hrest⟩ range
    refine respected_node.2 ⟨?_, respected_append.2 ⟨?_, hrest⟩⟩
    · intro list hmem item hitem leaf hleaf
      rw [hlist] at hmem
      obtain rfl := Option.some.inj hmem
      obtain ⟨hfront, itemRange, children, rfl⟩ := (mem_listItems hpairs hback).1 hitem
      refine (hitems itemRange children hfront).2 leaf ?_
      rwa [leafTokensList_singleton]
    · exact respected_of_pairs hjunction hbeyond hpairs hitems

theorem current_of_extends {token : Token} {rest : List CstNode}
    (h : Extends (.token token :: rest) s t) : s.tokens[s.position]? = some token := by
  have hunread := h.moves.unread
  rw [leafTokensList, leafTokens] at hunread
  have hhead := congrArg List.head? hunread
  rwa [List.head?_drop] at hhead

theorem head_of_items {bullet : Token} {forest : List CstNode}
    (hbullet : s.tokens[s.position]? = some bullet)
    (hsame : sameBullet c.profile bullet bullet = true)
    (hpairs : Pairs (fun token => sameBullet c.profile bullet token = true) forest)
    (hext : Extends forest s t) (hended : c.Ended bullet t) :
    forest.head? = some (.token bullet) := by
  cases hpairs with
  | nil =>
    have hposition : t.position = s.position := hext.moves.position
    have hcurrent : t.tokens[t.position]? = some bullet := by
      rw [hext.moves.tokens, hposition, hbullet]
    rw [hended bullet hcurrent] at hsame
    exact absurd hsame Bool.false_ne_true
  | cons =>
    have hcurrent := current_of_extends hext
    rw [hbullet] at hcurrent
    rw [Option.some.inj hcurrent]
    rfl

theorem listItems_of_ended {bullet : Token} {forest : List CstNode} {ok : Token → Prop}
    (hpairs : Pairs ok forest) (hext : Extends forest s t) (hended : c.Ended bullet s) :
    listItems c.profile bullet forest = [] := by
  cases hpairs with
  | nil => rfl
  | cons =>
    have hother := hended _ (current_of_extends hext)
    rw [listItems, hother]
    rfl

/-- No prefix list of this level starts here at or left of the boundary. -/
def Opens (s : ParserState) (level : Nat) : Prop :=
  ∀ leading, value (nextInfixAt? level) s = some leading →
    isJunctionSpelling leading.canonical = true → value atJunctionBoundary s = false

theorem opens_iff {level : Nat} {leading : OperatorEntry} {bullet : Token}
    (hleading : value (nextInfixAt? level) s = some leading)
    (hjunction : isJunctionSpelling leading.canonical = true)
    (hbullet : s.tokens[s.position]? = some bullet)
    (hoperator : infixOperatorOf? s.parserProfile s.profile bullet = some leading) :
    Opens s level ↔ Beyond s.profile s.junctionBoundaryColumn bullet := by
  have hspelling := (symbolOf_of_infixOperator hoperator).1
  have hat := value_atJunctionBoundary hbullet ((isJunction_of_symbolOf hspelling).trans hjunction)
  constructor
  · exact fun h => beyond_of_atJunctionBoundary hbullet (h leading hleading hjunction)
  · intro h other _ _
    by_contra hinside
    exact hat.1 (Bool.eq_true_of_not_eq_false hinside) h

/-- A level watches another one, but for `opens`: that no list is opened too far left. -/
def WatchesLevel (c : Setting) (opens : Prop) (s : ParserState) (m m' : ParserM Expression) :
    Prop :=
  ∃ forest forest' good, Extends forest s (after m s) ∧ Extends forest' s (after m' s) ∧
    Lockstep ParserState.Failed good s m m' ∧
    (¬ (after m s).Failed → (opens ∧ good ↔ LevelKept c forest))

theorem WatchesLevel.congr {opens opens' : Prop} {m m' n n' : ParserM Expression}
    (h : WatchesLevel c opens s n n') (hopens : opens ↔ opens') (hm : m.run s = n.run s)
    (hm' : m'.run s = n'.run s) : WatchesLevel c opens' s m m' := by
  obtain ⟨forest, forest', good, hext, hext', hlockstep, hkept⟩ := h
  have hafter : after m s = after n s := congrArg Prod.snd hm
  have hafter' : after m' s = after n' s := congrArg Prod.snd hm'
  rw [← hopens]
  exact ⟨forest, forest', good, hafter ▸ hext, hafter' ▸ hext', hlockstep.congr hm hm',
    hafter ▸ hkept⟩

theorem watchesLevel_of_parts {first first' : ParserM Expression} {opens good : Prop}
    {chain chain' : Expression → ParserM Expression} {front front' : List CstNode}
    (hs : (reading c).inv s) (hext : Extends front s (after first s))
    (hext' : Extends front' s (after first' s))
    (hfirst : Lockstep ParserState.Failed good s first first')
    (hchain : ∀ a t, (reading c).inv t → (chaining c).Watch t (chain a) (chain' a) fun _ _ => True)
    (hkept : ∀ back, ¬ (after first s).Failed → Pairs (fun _ => True) back →
      Extends back (after first s) (after (first >>= chain) s) →
      (opens ∧ good ∧ Respected c.profile c.boundary back ↔ LevelKept c (front ++ back))) :
    WatchesLevel c opens s (first >>= chain) (first' >>= chain') := by
  have ht : (reading c).inv (after first s) := (reading c).inv_of_emits hext hs
  have ht' : (reading c).inv (after first' s) := (reading c).inv_of_emits hext' hs
  obtain ⟨back, _, hw⟩ := hchain (value first s) _ ht
  obtain ⟨_, back', hw'⟩ := hchain (value first' s) _ ht'
  have hends : Extends back (after first s) (after (first >>= chain) s) := hw.ends.1
  have hends' : Extends back' (after first' s) (after (first' >>= chain') s) := hw'.ends'.1
  refine ⟨front ++ back, front' ++ back', _, hext.trans hends, hext'.trans hends',
    hfirst.bind hw.lockstep hends.moves.failed hends'.moves.failed, fun hclean => ?_⟩
  exact hkept back (fun hfailed => hclean (hends.moves.failed hfailed)) (hw.ends.2 hclean) hends

def levelChain (self : Nat → ParserM Expression) (level : Nat) (left : Expression) :
    ParserM Expression := do
  let chain ← parserLoop (infixChainStep self level) { first := none, left }
  return chain.left

def levelStart (self : Nat → ParserM Expression) (level : Nat) :
    Option OperatorEntry → ParserM Expression
  | some leading =>
      if isJunctionSpelling leading.canonical then parseJunctionList self level leading
      else self (level + 1)
  | none => self (level + 1)

theorem run_levelOperand {self : Nat → ParserM Expression} {level : Nat} :
    (levelOperand self level >>= levelChain self level).run s =
      (levelStart self level (value (nextInfixAt? level) s) >>= levelChain self level).run s := by
  have hstart : (levelOperand self level).run s =
      (levelStart self level (value (nextInfixAt? level) s)).run s := by
    unfold levelOperand
    rw [(reads_nextInfixAt? level).run_bind]
    cases value (nextInfixAt? level) s <;> rfl
  rw [StateT.run_bind, hstart, ← StateT.run_bind]

section Level
variable {self self' : Nat → ParserM Expression} {level : Nat}
  (hself : ∀ boundary level,
    WatchesOperand { c with boundary } (self level) (self' level))
include hself

theorem watch_chain (left : Expression) (ht : (reading c).inv t) :
    (chaining c).Watch t (levelChain self level left) (levelChain self' level left)
      fun _ _ => True :=
  ((watchesLoop_infixChainStep (hself c.boundary (level + 1))).loop _ ht).bind
    fun _ _ _ _ => watch_pure trivial

theorem watchesLevel_of_operand (level : Nat) (hs : (reading c).inv s) :
    WatchesLevel c True s
      (self (level + 1) >>= levelChain self level)
      (self' (level + 1) >>= levelChain self' level) := by
  obtain ⟨front, front', hext, hoperand, hext', -, hlockstep⟩ := hself c.boundary (level + 1) s hs
  refine watchesLevel_of_parts hs hext hext' hlockstep (fun left t ht => watch_chain hself left ht) ?_
  intro back hclean _ _
  rw [true_and, levelKept_of_operand (hoperand hclean)]

theorem watchesLevel_of_list (hs : (reading c).inv s) {bullet : Token} {leading : OperatorEntry}
    (hbullet : s.tokens[s.position]? = some bullet)
    (hleading : infixOperatorOf? c.parserProfile c.profile bullet = some leading)
    (hlevel : leading.level = level) (hjunction : isJunction c.profile bullet = true) :
    WatchesLevel c (Beyond c.profile c.boundary bullet) s
      (parseJunctionList self level leading >>= levelChain self level)
      (parseJunctionList self' level leading >>= levelChain self' level) := by
  have hsame : sameBullet c.profile bullet bullet = true := by
    unfold sameBullet
    rw [hjunction, beq_self_eq_true, beq_self_eq_true]
    rfl
  obtain ⟨front, front', hw⟩ := watch_parseJunctionList hleading hlevel hjunction
    (hself (some bullet.column) 0) hs hbullet
  refine watchesLevel_of_parts hs hw.ends.1 hw.ends'.1 hw.lockstep
    (fun left t ht => watch_chain hself left ht) fun back hclean hpairs hback => ?_
  have hitems := hw.ends.2 hclean
  have hhead := head_of_items hbullet hsame hitems hw.ends.1 hw.post
  have hnone := listItems_of_ended hpairs hback hw.post
  exact (levelKept_of_list hjunction hitems hhead hnone).symm

theorem watchesLevel_of_prefixed (hs : (reading c).inv s) (fuel : Nat) :
    WatchesLevel c True s (parsePrefix self fuel) (parsePrefix self' fuel) := by
  have hwatches : ∀ level, (reading c).Watches (self level) (self' level) := fun level =>
    (hself c.boundary level).watches
  obtain ⟨forest, forest', hw⟩ := watches_parsePrefix hwatches fuel s hs
  refine ⟨forest, forest', _, hw.ends, hw.ends', hw.lockstep, fun hclean => ?_⟩
  rw [true_and]
  have hkeeps (range : SourceRange) :
      KeepsColumn c.profile (.node .expression range forest) := by
    intro list hlist
    cases forest with
    | nil => cases hlist
    | cons first rest =>
      cases first with
      | node kind inner children => cases hlist
      | token leaf =>
        have hplain : isJunction c.profile leaf = false := by
          by_contra hjunction
          exact hclean (failed_parsePrefix hwatches hs (current_of_extends hw.ends)
            (Bool.eq_true_of_not_eq_false hjunction) fuel)
        rw [prefixList?, hplain] at hlist
        cases hlist
  constructor
  · exact fun hgood range => respected_node.2 ⟨hkeeps range, hgood⟩
  · exact fun h => (respected_node.1 (h zeroRange)).2

omit hself in
theorem run_parseExpressionLevel (hs : (reading c).inv s) (fuel : Nat)
    (hlevel : ¬ level > c.parserProfile.tightestLevel) :
    (parseExpressionLevel self fuel level).run s =
      (levelOperand self level >>= levelChain self level).run s := by
  have hparser : value parserProfileOf s = c.parserProfile := hs.2.1
  unfold parseExpressionLevel
  rw [reads_parserProfileOf.run_bind, hparser, if_neg hlevel]
  rfl

omit hself in
theorem opens_of_gt (hs : (reading c).inv s) (hlevel : level > c.parserProfile.tightestLevel) :
    Opens s level := by
  intro leading hleading
  obtain ⟨token, -, hoperator, rfl⟩ := value_nextInfixAt? hleading
  rw [hs.2.1] at hoperator
  have hle := level_le_tightestLevel (symbolOf_of_infixOperator hoperator).2
  exact absurd hlevel (Nat.not_lt.2 hle)

theorem watchesLevel_parseExpressionLevel (level : Nat) (hs : (reading c).inv s) (fuel : Nat) :
    WatchesLevel c (Opens s level) s (parseExpressionLevel self fuel level)
      (parseExpressionLevel self' fuel level) := by
  by_cases hlevel : level > c.parserProfile.tightestLevel
  · have hparser : value parserProfileOf s = c.parserProfile := hs.2.1
    refine (watchesLevel_of_prefixed hself hs fuel).congr
      (iff_of_true trivial (opens_of_gt hs hlevel)) ?_ ?_
    · unfold parseExpressionLevel
      rw [reads_parserProfileOf.run_bind, hparser, if_pos hlevel]
    · unfold parseExpressionLevel
      rw [reads_parserProfileOf.run_bind, hparser, if_pos hlevel]
  · have hrun (n : Nat → ParserM Expression) :
        (parseExpressionLevel n fuel level).run s =
          (levelStart n level (value (nextInfixAt? level) s) >>= levelChain n level).run s := by
      rw [run_parseExpressionLevel hs fuel hlevel, run_levelOperand]
    cases hentry : value (nextInfixAt? level) s with
    | none =>
      rw [hentry] at hrun
      have hopens : Opens s level := fun leading hleading => by
        rw [hentry] at hleading
        cases hleading
      exact (watchesLevel_of_operand hself level hs).congr (iff_of_true trivial hopens)
        (hrun self) (hrun self')
    | some leading =>
      rw [hentry] at hrun
      by_cases hjunction : isJunctionSpelling leading.canonical = true
      · obtain ⟨bullet, hbullet, hoperator, hat⟩ := value_nextInfixAt? hentry
        have hopens := opens_iff hentry hjunction hbullet hoperator
        rw [hs.1, hs.2.1] at hoperator
        rw [hs.1, hs.2.2] at hopens
        have hlist (n : Nat → ParserM Expression) :
            levelStart n level (some leading) = parseJunctionList n level leading :=
          if_pos hjunction
        have hbulletJunction : isJunction c.profile bullet = true := by
          rw [isJunction_of_symbolOf (symbolOf_of_infixOperator hoperator).1, hjunction]
        refine (watchesLevel_of_list hself hs hbullet hoperator hat hbulletJunction).congr
          hopens.symm ?_ ?_
        · rw [hrun, hlist]
        · rw [hrun, hlist]
      · have hoperand (n : Nat → ParserM Expression) :
            levelStart n level (some leading) = n (level + 1) := if_neg hjunction
        have hopens : Opens s level := fun other hother hspelling => by
          obtain rfl := Option.some.inj (hentry.symm.trans hother)
          exact absurd hspelling hjunction
        refine (watchesLevel_of_operand hself level hs).congr
          (iff_of_true trivial hopens) ?_ ?_
        · rw [hrun, hoperand]
        · rw [hrun, hoperand]

end Level

/-! ### The report in front of a level -/

variable {level : Nat}

theorem after_reportBoundary (hopens : Opens s level) : after (reportBoundary level) s = s := by
  unfold reportBoundary
  rw [(reads_nextInfixAt? level).after_bind]
  cases hentry : value (nextInfixAt? level) s with
  | none => rfl
  | some leading =>
    dsimp only
    rw [reads_atJunctionBoundary.after_bind, if_neg]
    · rfl
    · rw [Bool.and_eq_true]
      rintro ⟨hjunction, hinside⟩
      rw [hopens leading hentry hjunction] at hinside
      exact Bool.false_ne_true hinside

theorem failed_reportBoundary (hopens : ¬ Opens s level) :
    (after (reportBoundary level) s).Failed := by
  unfold Opens at hopens
  push Not at hopens
  obtain ⟨leading, hleading, hjunction, hinside⟩ := hopens
  unfold reportBoundary
  rw [(reads_nextInfixAt? level).after_bind, hleading]
  dsimp only
  rw [reads_atJunctionBoundary.after_bind, hjunction, Bool.eq_true_of_not_eq_false hinside,
    if_pos (Bool.and_self true), reads_currentRange.after_bind]
  exact failed_after_emitError _ _ _

theorem extends_reportBoundary : Extends [] s (after (reportBoundary level) s) := by
  unfold reportBoundary
  rw [(reads_nextInfixAt? level).after_bind]
  cases value (nextInfixAt? level) s with
  | none => exact Extends.refl s
  | some leading =>
    dsimp only
    rw [reads_atJunctionBoundary.after_bind]
    split_ifs
    · rw [reads_currentRange.after_bind]
      exact ⟨⟨rfl, rfl, rfl, rfl, rfl, rfl, id,
        fun _ => failed_after_emitError _ _ _⟩, rfl, spans_nil rfl rfl rfl⟩
    · exact Extends.refl s

theorem watchesNode_of_level {m m' : ParserM Expression}
    (h : ∀ s, (reading c).inv s → WatchesLevel c (Opens s level) s m m')
    (hs : (reading c).inv s) :
    ∃ forest forest', Extends forest s (after m s) ∧
      Extends forest' s (after (reportBoundary level >>= fun _ => m') s) ∧
      Lockstep ParserState.Failed (LevelKept c forest) s m
        (reportBoundary level >>= fun _ => m') := by
  obtain ⟨forest, forest', good, hext, hext', hlockstep, hkept⟩ := h s hs
  by_cases hopens : Opens s level
  · have hquiet := after_reportBoundary hopens
    have hrun : (reportBoundary level >>= fun _ => m').run s = m'.run s := by
      rw [run_bind, hquiet]
    have hafter : after (reportBoundary level >>= fun _ => m') s = after m' s :=
      congrArg Prod.snd hrun
    refine ⟨forest, forest', hext, hafter ▸ hext', ?_⟩
    refine (hlockstep.convert fun hclean => ?_).congr rfl hrun
    rw [← hkept hclean, and_iff_right hopens]
  · -- The report has failed the watched run, and the list breaks its column.
    have hreport := failed_reportBoundary hopens
    have ht : (reading c).inv (after (reportBoundary level) s) :=
      (reading c).inv_of_emits extends_reportBoundary hs
    obtain ⟨_, forest', _, _, hext', _, _⟩ := h _ ht
    have hlate : (after (reportBoundary level >>= fun _ => m') s).Failed := hext'.moves.failed hreport
    refine ⟨forest, forest', hext, extends_reportBoundary.trans hext', ?_, ?_⟩
    · exact fun hclean => absurd hlate hclean
    · exact fun hclean hgood => absurd ((hkept hclean).2 hgood).1 hopens

theorem watchesOperand_of_level {m m' : ParserM Expression}
    (h : ∀ s, (reading c).inv s → ∃ forest forest', Extends forest s (after m s) ∧
      Extends forest' s (after m' s) ∧ Lockstep ParserState.Failed (LevelKept c forest) s m m') :
    WatchesOperand c
      (openFrame .expression >>= fun _ => m >>= fun e => closeFrame >>= fun _ => pure e)
      (openFrame .expression >>= fun _ => m' >>= fun e => closeFrame >>= fun _ => pure e) := by
  intro s hs
  obtain ⟨forest, forest', hext, hext', hlockstep⟩ := h (after (openFrame .expression) s) hs
  refine ⟨_, _, extends_node (c := c) (extends_closing hext), fun _ => ⟨_, _, rfl⟩,
    extends_node (c := c) (extends_closing hext'), fun _ => ⟨_, _, rfl⟩, ?_⟩
  refine (hlockstep.beforeStep fun _ _ => Iff.rfl).afterStep.convert fun _ => ?_
  exact ⟨fun h => h _, fun h range => respected_range.1 h⟩

theorem watchesOperand_exhausted : WatchesOperand c expressionExhausted expressionExhausted := by
  intro s hs
  have hfailed : (after expressionExhausted s).Failed := by
    unfold expressionExhausted
    rw [reads_currentRange.after_bind]
    exact failed_after_emitError _ _ _
  have hext : Extends [] s (after expressionExhausted s) := by
    unfold expressionExhausted
    rw [reads_currentRange.after_bind]
    exact extends_emitLimit _ _ _
  refine ⟨[], [], hext, fun hclean => absurd hfailed hclean, hext,
    fun hclean => absurd hfailed hclean, ?_⟩
  exact Lockstep.self fun hclean => absurd hfailed hclean

/-- Every re-entry of the expression grammar, by the fuel it has. -/
theorem watchesOperand_parseExpression (fuel level : Nat) (boundary : Option Nat) :
    WatchesOperand { c with boundary } (parseExpression fuel level) (watchedExpression fuel level) := by
  induction fuel generalizing level boundary with
  | zero => exact watchesOperand_exhausted
  | succ fuel ih =>
    have hlevel (t : ParserState) (ht : (reading { c with boundary }).inv t) :=
      watchesLevel_parseExpressionLevel (c := { c with boundary })
        (fun boundary level => ih level boundary) level ht fuel
    exact watchesOperand_of_level (c := { c with boundary }) fun s hs =>
      watchesNode_of_level hlevel hs

end MirrorsCore.Tla
