import Mathlib
import MirrorsCore.Tla.ExpressionParser
import MirrorsCore.Tla.ParserSteps

/-! Every parser of the expression grammar below the precedence levels is watched
when the parser of nested expressions is: it consumes no junction itself. -/

namespace MirrorsCore.Tla
open Lib Lib.Monitor

variable {c : Setting} {α β : Type} {s t u : ParserState}

/-- The current token is no junction. -/
def Setting.Plain (c : Setting) (s : ParserState) : Prop :=
  ∀ token ∈ s.tokens[s.position]?, isJunction c.profile token = false

theorem watches_advance_of_plain (h : c.Plain s) :
    (reading c).Watch s advance advance fun _ _ => True :=
  (watch_advance fun token htoken => beyond_of_not_junction (h token htoken)).mono
    fun _ _ _ => trivial

theorem plain_of_kind {token : Token} (htoken : s.tokens[s.position]? = some token)
    (h : ∀ symbol, token.kind ≠ .symbol symbol) : c.Plain s := by
  intro other hother
  obtain rfl : token = other := Option.some.inj (htoken.symm.trans hother)
  exact isJunction_of_kind h

theorem plain_of_symbolOf {token : Token} {spelling : String}
    (htoken : s.tokens[s.position]? = some token)
    (hspelling : symbolOf? c.profile token = some spelling)
    (h : isJunctionSpelling spelling = false) : c.Plain s := by
  intro other hother
  obtain rfl : token = other := Option.some.inj (htoken.symm.trans hother)
  exact (isJunction_of_symbolOf hspelling).trans h

theorem watches_reads {m : ParserM α} (hm : Reads m) {f f' : α → ParserM β}
    (h : ∀ a, (reading c).Watches (f a) (f' a)) :
    (reading c).Watches (m >>= f) (m >>= f') := fun s hs =>
  WatchTo.reads hm fun a _ => h a s hs

theorem watches_report (code message : String) (range : SourceRange) (a : α) :
    (reading c).Watches (emitError code message range >>= fun _ => pure a)
      (emitError code message range >>= fun _ => pure a) :=
  (watches_emitError code message range).bind fun _ => watches_pure a

/-! ### Loops of the parser -/

/-- The rounds of a parser loop are watched, and end or shorten the input. -/
abbrev Setting.WatchesLoop (c : Setting) (body body' : β → ParserM (ForInStep β)) : Prop :=
  (reading c).WatchesLoop ParserState.remaining body body' fun _ _ => True

theorem watches_parserLoop {body body' : β → ParserM (ForInStep β)}
    (h : c.WatchesLoop body body') (b : β) :
    (reading c).Watches (parserLoop body b) (parserLoop body' b) := h.watches b

theorem watch_done (b : β) :
    (reading c).Watch t (pure (.done b)) (pure (.done b))
      (Round ParserState.remaining s fun _ _ => True) := watch_pure (round_done trivial)

theorem watch_yield (b : β) (h : t.remaining < s.remaining) :
    (reading c).Watch t (pure (.yield b)) (pure (.yield b))
      (Round ParserState.remaining s fun _ _ => True) := watch_pure (round_yield h)

theorem watch_report (code message : String) (ht : (reading c).inv t) (range : SourceRange)
    (b : β) :
    (reading c).Watch t (emitError code message range >>= fun _ => pure (.done b))
      (emitError code message range >>= fun _ => pure (.done b))
      (Round ParserState.remaining s fun _ _ => True) :=
  (watches_emitError code message range).andThen ht fun _ _ _ _ => watch_done b

theorem watch_separator {separator : String} (hseparator : isJunctionSpelling separator = false)
    (ht : (reading c).inv t) (hle : t.remaining ≤ s.remaining) (again last : β) :
    (reading c).Watch t
      (consumeSymbol separator >>= fun ok =>
        if ok = true then pure (.yield again) else pure (.done last))
      (consumeSymbol separator >>= fun ok =>
        if ok = true then pure (.yield again) else pure (.done last))
      (Round ParserState.remaining s fun _ _ => True) :=
  (watch_consumeSymbol ht.1 hseparator).bind fun _ _ _ hlt =>
    WatchTo.ite (fun hok => watch_yield again ((hlt hok).trans_le hle)) fun _ => watch_done last

/-! ### Operand lists of declarations -/

section AritySpec
variable {spec spec' : ParserM Nat}

theorem watches_aritySpecItem (h : (reading c).Watches spec spec') (arity : Nat) :
    (reading c).Watches (aritySpecItem spec arity) (aritySpecItem spec' arity) := by
  unfold aritySpecItem
  refine watches_consumeIdentifier.bind fun name? => ?_
  cases name? with
  | some name =>
    refine (watches_consumeSymbol rfl).bind fun _ => Watches.ite ?_ (watches_pure _)
    exact h.bind fun _ => watches_pure _
  | none =>
    refine (watches_consumeSymbol rfl).bind fun _ => Watches.ite (watches_pure _) ?_
    exact watches_expectName.bind fun _ => watches_pure _

theorem watchesLoop_aritySpecStep (h : (reading c).Watches spec spec') :
    c.WatchesLoop (aritySpecStep spec) (aritySpecStep spec') := by
  intro arity s hs
  unfold aritySpecStep
  refine WatchTo.reads (reads_peekSymbol _) fun _ _ => ?_
  refine WatchTo.reads reads_halted? fun _ _ => WatchTo.ite (fun _ => watch_done _) fun _ => ?_
  refine (watches_aritySpecItem h arity).andThen hs fun arity t hst ht => ?_
  exact watch_separator rfl ht (remaining_le_of_later hst) _ _

theorem watches_aritySpecInterior (h : (reading c).Watches spec spec') :
    (reading c).Watches (aritySpecInterior spec) (aritySpecInterior spec') := by
  unfold aritySpecInterior
  refine (watches_parserLoop (watchesLoop_aritySpecStep h) 0).bind fun _ => ?_
  exact (watches_expectSymbol rfl).bind fun _ => watches_pure _

end AritySpec

theorem watches_aritySpecExhausted :
    (reading c).Watches aritySpecExhausted aritySpecExhausted := by
  unfold aritySpecExhausted
  exact watches_reads reads_currentRange fun range =>
    (watches_emitLimit _ _ range).bind fun _ => watches_pure _

theorem watches_parseAritySpec (fuel : Nat) :
    (reading c).Watches (parseAritySpec fuel) (parseAritySpec fuel) := by
  induction fuel with
  | zero =>
    unfold parseAritySpec
    exact watches_reads reads_currentRange fun opening =>
      (watches_withNesting watches_aritySpecExhausted opening).bind fun _ => watches_pure _
  | succ fuel ih =>
    unfold parseAritySpec
    exact watches_reads reads_currentRange fun opening =>
      (watches_withNesting (watches_aritySpecInterior ih) opening).bind fun _ => watches_pure _

theorem watches_parameterArity (fuel : Nat) :
    (reading c).Watches (parameterArity fuel) (parameterArity fuel) := by
  unfold parameterArity
  refine (watches_consumeSymbol rfl).bind fun _ => Watches.ite ?_ (watches_pure _)
  exact (watches_parseAritySpec _).bind fun _ => watches_pure _

theorem watchesLoop_parameterListStep (fuel : Nat) :
    c.WatchesLoop (parameterListStep fuel) (parameterListStep fuel) := by
  intro parameters s hs
  unfold parameterListStep
  refine WatchTo.reads (reads_peekSymbol _) fun _ _ => ?_
  refine WatchTo.reads reads_halted? fun _ _ => WatchTo.ite (fun _ => watch_done _) fun _ => ?_
  refine WatchTo.reads reads_currentRange fun _ _ => ?_
  refine watches_expectName.andThen hs fun named? t hst ht => ?_
  cases named? with
  | none => exact watch_done _
  | some named =>
    refine (watches_parameterArity fuel).andThen ht fun arity u htu hu => ?_
    refine WatchTo.reads reads_currentStop fun stop _ => ?_
    exact watch_separator rfl hu (remaining_le_of_later (hst.trans htu)) _ _

theorem watches_parseParameterList (fuel : Nat) :
    (reading c).Watches (parseParameterList fuel) (parseParameterList fuel) := by
  have hinterior : (reading c).Watches (parameterListInterior fuel) (parameterListInterior fuel) := by
    unfold parameterListInterior
    refine (watches_parserLoop (watchesLoop_parameterListStep fuel) []).bind fun _ => ?_
    exact (watches_expectSymbol rfl).bind fun _ => watches_pure _
  unfold parseParameterList
  exact watches_reads reads_currentRange fun opening =>
    (watches_withNesting hinterior opening).bind fun _ => watches_pure _

/-! ### Delimited forms -/

theorem reads_subscriptFollows? : Reads subscriptFollows? := by
  unfold subscriptFollows?
  refine reads_peek?.bind fun token? => ?_
  cases token? with
  | none => exact reads_pure _
  | some token =>
    dsimp only
    cases token.kind <;> exact reads_pure _

theorem watch_bracketed {interior interior' : SourceRange → ParserM α}
    {f f' : SourceRange → Option α → ParserM β} (hs : (reading c).inv s) (hplain : c.Plain s)
    (hinterior : ∀ range, (reading c).Watches (interior range) (interior' range))
    (hf : ∀ range a, (reading c).Watches (f range a) (f' range a)) :
    (reading c).Watch s
      (currentRange >>= fun range => advance >>= fun _ =>
        withNesting range (interior range) >>= f range)
      (currentRange >>= fun range => advance >>= fun _ =>
        withNesting range (interior' range) >>= f' range) fun _ _ => True := by
  refine WatchTo.reads reads_currentRange fun range _ => ?_
  refine (watches_advance_of_plain hplain).bind fun _ t hst _ => ?_
  exact (watches_withNesting (hinterior range) range).bind (hf range) t (hst.inv hs)

theorem watches_skipClosing {closing : String} (hclosing : isJunctionSpelling closing = false)
    (a : α) :
    (reading c).Watches (consumeSymbol closing >>= fun _ => pure a)
      (consumeSymbol closing >>= fun _ => pure a) :=
  (watches_consumeSymbol hclosing).bind fun _ => watches_pure a

theorem watches_closed {closing : String} (hclosing : isJunctionSpelling closing = false)
    (a : SourcePosition → α) :
    (reading c).Watches
      (expectSymbol closing >>= fun _ => currentStop >>= fun stop => pure (a stop))
      (expectSymbol closing >>= fun _ => currentStop >>= fun stop => pure (a stop)) :=
  (watches_expectSymbol hclosing).bind fun _ =>
    watches_reads reads_currentStop fun _ => watches_pure _

theorem watch_parseLiteral (hplain : c.Plain s) (literal : Expression) :
    (reading c).Watch s (parseLiteral literal) (parseLiteral literal) fun _ _ => True := by
  unfold parseLiteral
  exact (watches_advance_of_plain hplain).bind fun _ _ _ _ => watch_pure trivial

theorem watches_rejectPrimary (token : Token) (range : SourceRange) :
    (reading c).Watches (rejectPrimary token range) (rejectPrimary token range) := by
  unfold rejectPrimary
  exact watches_report _ _ token.range _

theorem watches_rejectEnd (range : SourceRange) :
    (reading c).Watches (rejectEnd range) (rejectEnd range) := by
  unfold rejectEnd
  exact watches_report _ _ range _

theorem plain_of_bracket {token : Token} {symbol : Symbol} {spelling : String}
    (htoken : s.tokens[s.position]? = some token) (hkind : token.kind = .symbol symbol)
    (hspelling : symbol.canonical == spelling)
    (hmem : spelling ∈ ["(", "<<", "\x7b", "[", "@"]) : c.Plain s := by
  have hsymbol : symbolOf? c.profile token =
      some ((c.profile.canonicalFor? spelling).getD spelling) := by
    unfold symbolOf? symbolSpelling
    rw [hkind]
    dsimp only
    rw [beq_iff_eq.1 hspelling]
  exact plain_of_symbolOf htoken hsymbol (c.tables.brackets spelling hmem)

theorem eq_of_isJunctionSpelling {spelling : String} (h : isJunctionSpelling spelling = true) :
    spelling ∈ ["/\\", "\\/"] := by
  rcases Bool.or_eq_true_iff.1 h with h | h
  · rw [beq_iff_eq.1 h]
    decide
  · rw [beq_iff_eq.1 h]
    decide

theorem not_junction_of_prefixOperator {spelling : String} {entry : OperatorEntry}
    (h : c.parserProfile.findOperator? spelling .prefixOperator = some entry) :
    isJunctionSpelling spelling = false := by
  cases hspelling : isJunctionSpelling spelling with
  | false => rfl
  | true =>
    rw [c.tables.no_prefix spelling (eq_of_isJunctionSpelling hspelling)] at h
    cases h

theorem not_junction_of_postfixOperator {spelling : String} {entry : OperatorEntry}
    (h : c.parserProfile.findOperator? spelling .postfixOperator = some entry) :
    isJunctionSpelling spelling = false := by
  cases hspelling : isJunctionSpelling spelling with
  | false => rfl
  | true =>
    rw [c.tables.no_postfix spelling (eq_of_isJunctionSpelling hspelling)] at h
    cases h

theorem not_junction_of_userPostfix {spelling : String}
    (h : isUserPostfixSpelling c.parserProfile spelling = true) :
    isJunctionSpelling spelling = false := by
  cases hspelling : isJunctionSpelling spelling with
  | false => rfl
  | true =>
    unfold isUserPostfixSpelling at h
    rw [Bool.and_eq_true, Bool.and_eq_true] at h
    have hsome := c.tables.has_infix spelling (eq_of_isJunctionSpelling hspelling)
    rw [Option.isSome_iff_exists] at hsome
    obtain ⟨entry, hentry⟩ := hsome
    rw [hentry] at h
    exact absurd h.1.2 Bool.false_ne_true

theorem watch_parseForm {kind : CstKind} (hkind : kind ≠ .expression)
    {interior interior' : SourceRange → ParserM Expression} (hs : (reading c).inv s)
    (hplain : c.Plain s)
    (h : ∀ range, (reading c).Watches (interior range) (interior' range)) :
    (reading c).Watch s (parseForm kind interior) (parseForm kind interior') fun _ _ => True := by
  unfold parseForm
  refine WatchTo.reads reads_currentRange fun range _ => ?_
  refine (watches_advance_of_plain hplain).bind fun _ t hst _ => ?_
  refine watches_openFrame hkind (fun u hu => ?_) t (hst.inv hs)
  exact (watches_withNesting (h range) range).andThen hu fun _ _ _ _ =>
    watch_closeFrame fun _ => reads_pure _

section Grammar
variable {self self' : Nat → ParserM Expression}
  (hself : ∀ level, (reading c).Watches (self level) (self' level))
include hself

theorem watches_parseSubscriptElement :
    (reading c).Watches (parseSubscriptElement self) (parseSubscriptElement self') := by
  intro s hs
  unfold parseSubscriptElement
  refine WatchTo.reads reads_currentRange fun range _ => WatchTo.reads reads_peek? fun token? hpeek => ?_
  cases token? with
  | none => exact watches_report _ _ range _ s hs
  | some token =>
    dsimp only
    cases hkind : token.kind with
    | identifier =>
      have hplain : c.Plain s := plain_of_kind hpeek.symm fun symbol => by rw [hkind]; exact nofun
      refine WatchTo.ite (fun _ => ?_) fun _ => WatchTo.ite (fun _ => ?_) fun _ => ?_
      · exact (watches_advance_of_plain hplain).bind fun _ t hst _ => hself _ t (hst.inv hs)
      · exact (watches_advance_of_plain hplain).bind fun _ _ _ _ => watch_pure trivial
      · exact watches_report _ _ token.range _ s hs
    | _ => exact watches_report _ _ token.range _ s hs

theorem watchesLoop_delimitedStep {closing : String} :
    c.WatchesLoop (delimitedStep self closing) (delimitedStep self' closing) := by
  intro list s hs
  unfold delimitedStep
  refine WatchTo.reads (reads_peekSymbol _) fun _ _ => WatchTo.ite (fun _ => watch_done _) fun _ => ?_
  refine WatchTo.reads reads_halted? fun _ _ => WatchTo.ite (fun _ => watch_done _) fun _ => ?_
  refine (hself 0).andThen hs fun item t hst ht => ?_
  refine WatchTo.reads (reads_peekSymbol _) fun _ _ => WatchTo.ite (fun _ => watch_done _) fun _ => ?_
  refine (watch_consumeSymbol ht.1 rfl).bind fun ok u htu hlt => WatchTo.ite (fun hok => ?_) fun _ => ?_
  · exact watch_yield _ ((hlt hok).trans_le (remaining_le_of_later hst))
  · refine WatchTo.reads reads_currentRange fun range _ => ?_
    exact watch_report _ _ (htu.inv ht) range _

theorem watches_parseDelimitedExpressions {closing : String}
    (hclosing : isJunctionSpelling closing = false) :
    (reading c).Watches (parseDelimitedExpressions self closing)
      (parseDelimitedExpressions self' closing) := by
  unfold parseDelimitedExpressions
  refine (watches_parserLoop (watchesLoop_delimitedStep hself) _).bind fun list => ?_
  exact Watches.ite ((watches_consumeSymbol hclosing).bind fun _ => watches_pure _)
    (watches_pure _)

theorem watchesLoop_setItemsStep : c.WatchesLoop (setItemsStep self) (setItemsStep self') := by
  intro list s hs
  unfold setItemsStep
  refine WatchTo.reads (reads_peekSymbol _) fun _ _ => WatchTo.ite (fun _ => watch_done _) fun _ => ?_
  refine WatchTo.reads (reads_peekSymbol _) fun _ _ => WatchTo.ite (fun _ => watch_done _) fun _ => ?_
  refine WatchTo.reads reads_halted? fun _ _ => WatchTo.ite (fun _ => watch_done _) fun _ => ?_
  refine (hself 0).andThen hs fun item t hst ht => ?_
  refine WatchTo.reads (reads_peekSymbol _) fun _ _ => WatchTo.ite (fun _ => watch_done _) fun _ => ?_
  refine WatchTo.reads (reads_peekSymbol _) fun _ _ => WatchTo.ite (fun _ => watch_done _) fun _ => ?_
  refine (watch_consumeSymbol ht.1 rfl).bind fun ok u htu hlt => WatchTo.ite (fun hok => ?_) fun _ => ?_
  · exact watch_yield _ ((hlt hok).trans_le (remaining_le_of_later hst))
  · refine WatchTo.reads reads_currentRange fun range _ => ?_
    exact watch_report _ _ (htu.inv ht) range _

theorem watches_parseSetItems : (reading c).Watches (parseSetItems self) (parseSetItems self') :=
  watches_parserLoop (watchesLoop_setItemsStep hself) _

theorem watch_parseParenthesized (hs : (reading c).inv s) (hplain : c.Plain s) :
    (reading c).Watch s (parseParenthesized self) (parseParenthesized self') fun _ _ => True := by
  unfold parseParenthesized
  refine watch_bracketed hs hplain (fun _ => watches_parseDelimitedExpressions hself rfl) ?_
  intro range list?
  cases list? with
  | none => exact watches_skipClosing rfl _
  | some list =>
    refine Watches.ite (watches_pure _) ?_
    rcases list.1 with _ | ⟨first, _ | ⟨second, rest⟩⟩
    · exact watches_reads reads_currentStop fun _ => watches_pure _
    · exact watches_pure _
    · exact watches_reads reads_currentStop fun _ => watches_pure _

theorem watches_angleInterior (range : SourceRange) :
    (reading c).Watches (angleInterior self range) (angleInterior self' range) := by
  unfold angleInterior
  refine (watches_parseDelimitedExpressions hself rfl).bind fun list =>
    Watches.ite (watches_pure _) ?_
  refine watches_reads reads_currentStop fun stop => ?_
  refine watches_reads reads_subscriptFollows? fun _ => Watches.ite ?_ (watches_pure _)
  exact (watches_parseSubscriptElement hself).bind fun _ => watches_pure _

theorem watch_parseAngle (hs : (reading c).inv s) (hplain : c.Plain s) :
    (reading c).Watch s (parseAngle self) (parseAngle self') fun _ _ => True := by
  unfold parseAngle
  refine watch_bracketed hs hplain (watches_angleInterior hself) fun range result? => ?_
  cases result? with
  | none => exact watches_skipClosing rfl _
  | some result => exact watches_pure _

theorem watchesLoop_boundsStep (allowUnbounded : Bool) :
    c.WatchesLoop (boundsStep self allowUnbounded) (boundsStep self' allowUnbounded) := by
  intro list s hs
  unfold boundsStep
  refine WatchTo.reads reads_currentRange fun boundStart _ => ?_
  refine watches_expectName.andThen hs fun named? t hst ht => ?_
  cases named? with
  | none => exact watch_done _
  | some named =>
    refine (watches_consumeSymbol rfl).andThen ht fun _ u htu hu => WatchTo.ite (fun _ => ?_) fun _ => ?_
    · refine (hself 0).andThen hu fun domain v huv hv => ?_
      exact watch_separator rfl hv (remaining_le_of_later (hst.trans (htu.trans huv))) _ _
    · refine WatchTo.ite (fun _ => ?_) fun _ => WatchTo.ite (fun _ => ?_) fun _ => ?_
      · exact watch_separator rfl hu (remaining_le_of_later (hst.trans htu)) _ _
      · exact watch_report _ _ hu named.2 _
      · refine WatchTo.reads reads_currentRange fun range _ => ?_
        exact watch_report _ _ hu range _

theorem watches_parseBounds (allowUnbounded : Bool) :
    (reading c).Watches (parseBounds self allowUnbounded) (parseBounds self' allowUnbounded) := by
  unfold parseBounds
  exact (watches_parserLoop (watchesLoop_boundsStep hself allowUnbounded) _).bind
    fun _ => watches_pure _

theorem watches_setComprehension (items : List Expression) (range : SourceRange) :
    (reading c).Watches (setComprehension self items range) (setComprehension self' items range) := by
  unfold setComprehension
  refine (watches_consumeSymbol rfl).bind fun _ => Watches.ite ?_ ?_
  · unfold setFilter
    exact (hself 0).bind fun _ => watches_closed rfl _
  · cases items with
    | nil => exact watches_pure _
    | cons element rest =>
      dsimp only
      unfold setBuilder
      exact (watches_parseBounds hself false).bind fun _ => watches_closed rfl _

theorem watches_braceInterior (range : SourceRange) :
    (reading c).Watches (braceInterior self range) (braceInterior self' range) := by
  unfold braceInterior
  refine (watches_consumeSymbol rfl).bind fun _ => Watches.ite ?_ ?_
  · exact watches_reads reads_currentStop fun _ => watches_pure _
  · refine (watches_parseSetItems hself).bind fun list => Watches.ite (watches_pure _) ?_
    exact Watches.ite (watches_closed rfl _) (watches_setComprehension hself _ range)

theorem watch_parseBrace (hs : (reading c).inv s) (hplain : c.Plain s) :
    (reading c).Watch s (parseBrace self) (parseBrace self') fun _ _ => True := by
  unfold parseBrace
  refine watch_bracketed hs hplain (watches_braceInterior hself) fun range result? => ?_
  cases result? with
  | none => exact watches_skipClosing rfl _
  | some result => exact watches_pure _

/-! ### Brackets -/

theorem watchesLoop_fieldsStep {separator : String}
    (hseparator : isJunctionSpelling separator = false) :
    c.WatchesLoop (fieldsStep self separator) (fieldsStep self' separator) := by
  intro fields s hs
  unfold fieldsStep
  refine (watch_consumeSymbol hs.1 rfl).bind fun ok t hst hlt =>
    WatchTo.ite (fun hok => ?_) fun _ => watch_done _
  refine WatchTo.reads reads_currentRange fun range _ => ?_
  refine watches_expectName.andThen (hst.inv hs) fun named? u htu hu => ?_
  have hle := (remaining_le_of_later htu).trans_lt (hlt hok)
  cases named? with
  | none => exact watch_yield _ hle
  | some named =>
    refine (watches_expectSymbol hseparator).andThen hu fun _ v huv hv => ?_
    refine (hself 0).andThen hv fun value w hvw _ => ?_
    exact watch_yield _ ((remaining_le_of_later (huv.trans hvw)).trans_lt hle)

theorem watches_parseFields {separator : String}
    (hseparator : isJunctionSpelling separator = false) (name : String) (first : Expression) :
    (reading c).Watches (parseFields self separator name first)
      (parseFields self' separator name first) := by
  unfold parseFields
  refine (hself 0).bind fun value => ?_
  refine (watches_parserLoop (watchesLoop_fieldsStep hself hseparator) _).bind fun _ => ?_
  exact (watches_expectSymbol rfl).bind fun _ => watches_pure _

theorem watches_bracketRecordSet (range : SourceRange) (first : Expression) :
    (reading c).Watches (bracketRecordSet self range first) (bracketRecordSet self' range first) := by
  unfold bracketRecordSet
  cases recordFieldName? first with
  | none => exact watches_reads reads_currentRange fun range => watches_report _ _ range _
  | some name =>
    exact (watches_parseFields hself rfl name first).bind fun _ =>
      watches_reads reads_currentStop fun _ => watches_pure _

theorem watches_bracketRecord (range : SourceRange) (first : Expression) :
    (reading c).Watches (bracketRecord self range first) (bracketRecord self' range first) := by
  unfold bracketRecord
  cases recordFieldName? first with
  | none => exact watches_reads reads_currentRange fun range => watches_report _ _ range _
  | some name =>
    exact (watches_parseFields hself rfl name first).bind fun _ =>
      watches_reads reads_currentStop fun _ => watches_pure _

theorem watchesLoop_functionBoundsStep :
    c.WatchesLoop (functionBoundsStep self) (functionBoundsStep self') := by
  intro bounds s hs
  unfold functionBoundsStep
  refine (watch_consumeSymbol hs.1 rfl).bind fun ok t hst hlt =>
    WatchTo.ite (fun hok => ?_) fun _ => watch_done _
  refine (hself 0).andThen (hst.inv hs) fun item u htu hu => ?_
  have hle := (remaining_le_of_later htu).trans_lt (hlt hok)
  cases boundOf? item with
  | some bound => exact watch_yield _ hle
  | none =>
    refine WatchTo.reads reads_currentRange fun range _ => ?_
    refine (watches_emitError _ _ range).andThen hu fun _ v huv _ => ?_
    exact watch_yield _ ((remaining_le_of_later huv).trans_lt hle)

theorem watches_bracketMapsTo (range : SourceRange) (first : Expression) :
    (reading c).Watches (bracketMapsTo self range first) (bracketMapsTo self' range first) := by
  unfold bracketMapsTo
  cases boundOf? first with
  | none => exact watches_bracketRecord hself range first
  | some bound =>
    dsimp only
    unfold bracketFunction
    refine (watches_parserLoop (watchesLoop_functionBoundsStep hself) _).bind fun _ => ?_
    exact (hself 0).bind fun _ => watches_closed rfl _

theorem watchesLoop_exceptPathStep :
    c.WatchesLoop (exceptPathStep self) (exceptPathStep self') := by
  intro path s hs
  unfold exceptPathStep
  refine WatchTo.reads reads_peek? fun token? hpeek => ?_
  cases token? with
  | none => exact watch_done _
  | some token =>
    refine WatchTo.reads reads_profileOf fun profile hprofile => ?_
    obtain rfl : profile = c.profile := hprofile.trans hs.1
    have hstep : ∀ {spelling : String}, isJunctionSpelling spelling = false →
        isSymbolToken c.profile token spelling = true →
        (reading c).Watch s advance advance fun _ t => t.remaining < s.remaining := by
      intro spelling hplain hsymbol
      have hspelling := symbolOf_of_isSymbolToken hsymbol
      exact watch_advance_of hpeek.symm ((isJunction_of_symbolOf hspelling).trans hplain)
        (isEof_of_symbolOf hspelling)
    refine WatchTo.ite (fun hdot => ?_) fun _ => WatchTo.ite (fun hopen => ?_) fun _ => watch_done _
    · refine (hstep rfl hdot).bind fun _ t hst hlt => ?_
      refine WatchTo.reads reads_currentRange fun range _ => ?_
      refine watches_expectName.andThen (hst.inv hs) fun named? u htu _ => ?_
      cases named? with
      | none => exact watch_done _
      | some named => exact watch_yield _ ((remaining_le_of_later htu).trans_lt hlt)
    · refine (hstep rfl hopen).bind fun _ t hst hlt => ?_
      refine (hself 0).andThen (hst.inv hs) fun index u htu hu => ?_
      refine (watches_expectSymbol rfl).andThen hu fun _ v huv _ => ?_
      refine WatchTo.reads reads_currentStop fun stop _ => ?_
      exact watch_yield _ ((remaining_le_of_later (htu.trans huv)).trans_lt hlt)

theorem watches_parseExceptSpec :
    (reading c).Watches (parseExceptSpec self) (parseExceptSpec self') := by
  unfold parseExceptSpec
  refine watches_reads reads_currentRange fun _ => ?_
  refine (watches_expectSymbol rfl).bind fun _ => ?_
  refine (watches_parserLoop (watchesLoop_exceptPathStep hself) _).bind fun _ => ?_
  refine (watches_expectSymbol rfl).bind fun _ => ?_
  exact (hself 0).bind fun _ => watches_pure _

theorem watchesLoop_exceptStep : c.WatchesLoop (exceptStep self) (exceptStep self') := by
  intro specifications s hs
  unfold exceptStep
  refine WatchTo.reads (reads_peekSymbol _) fun _ _ => WatchTo.ite (fun _ => watch_done _) fun _ => ?_
  refine (watches_parseExceptSpec hself).andThen hs fun specification t hst ht => ?_
  exact watch_separator rfl ht (remaining_le_of_later hst) _ _

theorem watches_bracketSubscript (range : SourceRange) (first : Expression) :
    (reading c).Watches (bracketSubscript self range first) (bracketSubscript self' range first) := by
  unfold bracketSubscript
  refine watches_reads reads_subscriptFollows? fun _ => Watches.ite ?_ ?_
  · exact (watches_parseSubscriptElement hself).bind fun _ => watches_pure _
  · exact watches_reads reads_currentRange fun range => watches_report _ _ range _

theorem watches_parseBracketBody (range : SourceRange) :
    (reading c).Watches (parseBracketBody self range) (parseBracketBody self' range) := by
  unfold parseBracketBody
  refine (hself 0).bind fun first => ?_
  refine (watches_consumeSymbol rfl).bind fun _ =>
    Watches.ite (watches_bracketRecordSet hself range first) ?_
  refine (watches_consumeSymbol rfl).bind fun _ =>
    Watches.ite (watches_bracketMapsTo hself range first) ?_
  refine (watches_consumeSymbol rfl).bind fun _ => Watches.ite ?_ ?_
  · unfold bracketFunctionSet
    exact (hself 0).bind fun _ => watches_closed rfl _
  refine (watches_consumeKeyword _).bind fun _ => Watches.ite ?_ ?_
  · unfold bracketExcept
    exact (watches_parserLoop (watchesLoop_exceptStep hself) _).bind fun _ => watches_closed rfl _
  refine (watches_consumeSymbol rfl).bind fun _ =>
    Watches.ite (watches_bracketSubscript hself range first) ?_
  exact watches_reads reads_currentRange fun range => watches_report _ _ range _

theorem watch_parseBracket (hs : (reading c).inv s) (hplain : c.Plain s) :
    (reading c).Watch s (parseBracket self) (parseBracket self') fun _ _ => True := by
  unfold parseBracket
  refine watch_bracketed hs hplain (watches_parseBracketBody hself) fun range result? => ?_
  cases result? with
  | none => exact watches_skipClosing rfl _
  | some result => exact watches_pure _

/-! ### Primaries and postfix operators -/

theorem watches_applicationInterior (reference : OperatorRef) (token : Token) :
    (reading c).Watches (applicationInterior self reference token)
      (applicationInterior self' reference token) := by
  unfold applicationInterior
  refine watches_reads reads_currentRange fun opening => ?_
  refine (watches_consumeSymbol rfl).bind fun _ => ?_
  refine (watches_withNesting (watches_parseDelimitedExpressions hself rfl) opening).bind ?_
  intro list?
  cases list? with
  | none => exact watches_skipClosing rfl _
  | some list => exact Watches.ite (watches_pure _) (watches_pure _)

theorem watch_parseNamedApplication (hs : (reading c).inv s) (hplain : c.Plain s) (token : Token)
    (allowApplication : Bool) :
    (reading c).Watch s (parseNamedApplication self token allowApplication)
      (parseNamedApplication self' token allowApplication) fun _ _ => True := by
  unfold parseNamedApplication
  refine (watches_advance_of_plain hplain).bind fun _ t hst _ => ?_
  refine watches_reads (reads_peekSymbol _) (fun _ => ?_) t (hst.inv hs)
  exact Watches.ite (watches_applicationInterior hself _ token) (watches_pure _)

theorem watch_primaryAt (hs : (reading c).inv s) {token : Token}
    (htoken : s.tokens[s.position]? = some token) (range : SourceRange) (allowApplication : Bool) :
    (reading c).Watch s (primaryAt self token range allowApplication)
      (primaryAt self' token range allowApplication) fun _ _ => True := by
  unfold primaryAt
  cases hkind : token.kind with
  | symbol symbol =>
    refine WatchTo.ite (fun h => ?_) fun _ => ?_
    · exact watch_parseParenthesized hself hs (plain_of_bracket htoken hkind h (by decide))
    refine WatchTo.ite (fun h => ?_) fun _ => ?_
    · exact watch_parseAngle hself hs (plain_of_bracket htoken hkind h (by decide))
    refine WatchTo.ite (fun h => ?_) fun _ => ?_
    · exact watch_parseBrace hself hs (plain_of_bracket htoken hkind h (by decide))
    refine WatchTo.ite (fun h => ?_) fun _ => ?_
    · exact watch_parseBracket hself hs (plain_of_bracket htoken hkind h (by decide))
    refine WatchTo.ite (fun h => ?_) fun _ => watches_rejectPrimary token range s hs
    exact watch_parseLiteral (plain_of_bracket htoken hkind h (by decide)) _
  | moduleHeader => exact watches_rejectPrimary token range s hs
  | moduleEnd => exact watches_rejectPrimary token range s hs
  | eof => exact watches_rejectPrimary token range s hs
  | keyword keyword =>
    have hplain : c.Plain s := plain_of_kind htoken fun symbol => by rw [hkind]; exact nofun
    refine WatchTo.ite (fun _ => watch_parseLiteral hplain _) fun _ => ?_
    refine WatchTo.ite (fun _ => watch_parseLiteral hplain _) fun _ => ?_
    refine WatchTo.ite (fun _ => watch_parseLiteral hplain _) fun _ => ?_
    refine WatchTo.ite (fun _ => watch_parseLiteral hplain _) fun _ => ?_
    exact watches_rejectPrimary token range s hs
  | integer value =>
    exact watch_parseLiteral (plain_of_kind htoken fun symbol => by rw [hkind]; exact nofun) _
  | string =>
    exact watch_parseLiteral (plain_of_kind htoken fun symbol => by rw [hkind]; exact nofun) _
  | identifier =>
    have hplain : c.Plain s := plain_of_kind htoken fun symbol => by rw [hkind]; exact nofun
    exact watch_parseNamedApplication hself hs hplain token allowApplication
  | qualifiedName =>
    have hplain : c.Plain s := plain_of_kind htoken fun symbol => by rw [hkind]; exact nofun
    exact watch_parseNamedApplication hself hs hplain token allowApplication

theorem watches_parsePrimary (allowApplication : Bool) :
    (reading c).Watches (parsePrimary self allowApplication) (parsePrimary self' allowApplication) := by
  intro s hs
  unfold parsePrimary
  refine WatchTo.reads reads_currentRange fun range _ => WatchTo.reads reads_peek? fun token? h => ?_
  cases token? with
  | none => exact watches_rejectEnd range s hs
  | some token => exact watch_primaryAt hself hs h.symm range allowApplication

theorem watchesLoop_postfixStep : c.WatchesLoop (postfixStep self) (postfixStep self') := by
  intro result s hs
  unfold postfixStep
  refine WatchTo.reads reads_halted? fun _ _ => WatchTo.ite (fun _ => watch_done _) fun _ => ?_
  refine WatchTo.reads reads_profileOf fun profile hprofile => ?_
  refine WatchTo.reads reads_parserProfileOf fun parserProfile hparser => ?_
  obtain rfl : profile = c.profile := hprofile.trans hs.1
  obtain rfl : parserProfile = c.parserProfile := hparser.trans hs.2.1
  refine WatchTo.reads reads_peek? fun token? hpeek => ?_
  cases token? with
  | none => exact watch_done _
  | some token =>
    dsimp only
    cases hspelling : symbolOf? c.profile token with
    | none => exact watch_done _
    | some spelling =>
      -- whatever is consumed here is known to be no junction
      have hstep (hplain : isJunctionSpelling spelling = false) :
          (reading c).Watch s advance advance fun _ t => t.remaining < s.remaining :=
        watch_advance_of hpeek.symm ((isJunction_of_symbolOf hspelling).trans hplain)
          (isEof_of_symbolOf hspelling)
      have happly (hplain : isJunctionSpelling spelling = false) (name : String) :
          (reading c).Watch s (postfixApply name token result) (postfixApply name token result)
            (Round ParserState.remaining s fun _ _ => True) := by
        unfold postfixApply
        exact (hstep hplain).bind fun _ _ _ hlt => watch_yield _ hlt
      have hliteral {name : String} (h : spelling == name)
          (hname : isJunctionSpelling name = false) : isJunctionSpelling spelling = false := by
        rwa [beq_iff_eq.1 h]
      refine WatchTo.ite (fun h => happly (hliteral h rfl) _) fun _ => ?_
      refine WatchTo.ite (fun h => ?_) fun _ => WatchTo.ite (fun h => ?_) fun _ => ?_
      · unfold postfixIndex
        refine WatchTo.reads reads_currentRange fun opening _ => ?_
        refine (hstep (hliteral h rfl)).bind fun _ t hst hlt => ?_
        refine (watches_withNesting (hself 0) opening).andThen (hst.inv hs) fun index? u htu hu => ?_
        have hle := (remaining_le_of_later htu).trans_lt hlt
        cases index? with
        | none => exact (watches_consumeSymbol rfl).andThen hu fun _ _ _ _ => watch_done _
        | some index =>
          refine (watches_expectSymbol rfl).andThen hu fun _ v huv _ => ?_
          refine WatchTo.reads reads_currentStop fun stop _ => ?_
          exact watch_yield _ ((remaining_le_of_later huv).trans_lt hle)
      · unfold postfixSelect
        refine (hstep (hliteral h rfl)).bind fun _ t hst hlt => ?_
        refine watches_expectName.andThen (hst.inv hs) fun named? u htu _ => ?_
        cases named? with
        | none => exact watch_done _
        | some named => exact watch_yield _ ((remaining_le_of_later htu).trans_lt hlt)
      · unfold postfixOperator
        have hentry : postfixOperatorOf? c.parserProfile c.profile token =
            c.parserProfile.findOperator? spelling .postfixOperator := by
          unfold symbolOf? at hspelling
          unfold postfixOperatorOf? operatorOf?
          cases hkind : token.kind <;> rw [hkind] at hspelling <;> cases hspelling
          rfl
        rw [hentry]
        cases hfound : c.parserProfile.findOperator? spelling .postfixOperator with
        | some entry => exact happly (not_junction_of_postfixOperator hfound) _
        | none =>
          exact WatchTo.ite (fun h => happly (not_junction_of_userPostfix h) _)
            fun _ => watch_done _

theorem watches_parseOperand : (reading c).Watches (parseOperand self) (parseOperand self') := by
  unfold parseOperand
  exact (watches_parsePrimary hself true).bind fun primary =>
    watches_parserLoop (watchesLoop_postfixStep hself) primary

/-! ### Keyword forms -/

theorem watches_ifInterior (range : SourceRange) :
    (reading c).Watches (ifInterior self range) (ifInterior self' range) := by
  unfold ifInterior
  refine (hself 0).bind fun _ => (watches_expectKeyword _).bind fun _ => ?_
  refine (hself 0).bind fun _ => (watches_expectKeyword _).bind fun _ => ?_
  exact (hself 0).bind fun _ => watches_pure _

theorem watchesLoop_caseStep : c.WatchesLoop (caseStep self) (caseStep self') := by
  intro arms s hs
  unfold caseStep
  refine WatchTo.reads reads_halted? fun _ _ => ?_
  refine WatchTo.reads (reads_peekSymbol _) fun _ _ => WatchTo.ite (fun _ => watch_done _) fun _ => ?_
  refine WatchTo.reads reads_currentRange fun armStart _ => ?_
  refine WatchTo.reads (reads_peekKeyword _) fun other hother => WatchTo.ite (fun htrue => ?_) fun _ => ?_
  · obtain ⟨token, htoken, hkeyword⟩ := value_peekKeyword (hother.symm.trans htrue)
    have hplain : c.Plain s := plain_of_kind htoken fun symbol => by
      rw [kind_of_isKeyword hkeyword]
      exact nofun
    unfold caseOther
    refine (watches_advance_of_plain hplain).bind fun _ t hst _ => ?_
    refine (watches_expectSymbol rfl).andThen (hst.inv hs) fun _ u _ hu => ?_
    exact (hself 0).andThen hu fun _ _ _ _ => watch_done _
  · unfold caseGuarded
    refine (hself 0).andThen hs fun guard t hst ht => ?_
    refine (watches_consumeSymbol rfl).andThen ht fun ok u htu hu => WatchTo.ite (fun _ => ?_) fun _ => ?_
    · refine (hself 0).andThen hu fun value v huv hv => ?_
      exact watch_separator rfl hv (remaining_le_of_later (hst.trans (htu.trans huv))) _ _
    · refine WatchTo.reads reads_currentRange fun range _ => ?_
      exact watch_report _ _ hu range _

theorem watches_caseInterior (range : SourceRange) :
    (reading c).Watches (caseInterior self range) (caseInterior self' range) := by
  unfold caseInterior
  refine (watches_parserLoop (watchesLoop_caseStep hself) _).bind fun _ => ?_
  exact watches_reads reads_currentStop fun _ => watches_pure _

omit hself in
theorem watches_letParameters (fuel : Nat) :
    (reading c).Watches (letParameters fuel) (letParameters fuel) := by
  unfold letParameters
  exact (watches_consumeSymbol rfl).bind fun _ =>
    Watches.ite (watches_parseParameterList fuel) (watches_pure _)

theorem watchesLoop_letStep (fuel : Nat) :
    c.WatchesLoop (letStep self fuel) (letStep self' fuel) := by
  intro definitions s hs
  unfold letStep
  refine WatchTo.reads (reads_peekKeyword _) fun _ _ => ?_
  refine WatchTo.reads reads_halted? fun _ _ => WatchTo.ite (fun _ => watch_done _) fun _ => ?_
  refine WatchTo.reads reads_peek? fun token? hpeek => ?_
  cases token? with
  | none => exact watch_done _
  | some token =>
    dsimp only
    cases hname : identifierOf? token with
    | none =>
      refine WatchTo.reads reads_currentRange fun range _ => ?_
      exact watch_report _ _ hs range _
    | some name =>
      dsimp only
      unfold letDefinition
      refine (watch_advance_of hpeek.symm (isJunction_of_identifierOf hname)
        (isEof_of_identifierOf hname)).bind fun _ t hst hlt => ?_
      refine (watches_letParameters fuel).andThen (hst.inv hs) fun parameters u htu hu => ?_
      refine (watches_consumeSymbol rfl).andThen hu fun _ v huv hv => WatchTo.ite (fun _ => ?_) fun _ => ?_
      · refine (hself 0).andThen hv fun body w hvw _ => ?_
        exact watch_yield _
          ((remaining_le_of_later (htu.trans (huv.trans hvw))).trans_lt hlt)
      · refine WatchTo.reads reads_currentRange fun range _ => ?_
        exact watch_report _ _ hv range _

theorem watches_letInterior (fuel : Nat) (range : SourceRange) :
    (reading c).Watches (letInterior self fuel range) (letInterior self' fuel range) := by
  unfold letInterior
  refine (watches_parserLoop (watchesLoop_letStep hself fuel) _).bind fun _ => ?_
  refine (watches_expectKeyword _).bind fun _ => ?_
  exact (hself 0).bind fun _ => watches_pure _

theorem watches_chooseInterior (range : SourceRange) :
    (reading c).Watches (chooseInterior self range) (chooseInterior self' range) := by
  have hbody (name : String) (nameRange : SourceRange) (domain : Option Expression) :
      (reading c).Watches (chooseBody self range name nameRange domain)
        (chooseBody self' range name nameRange domain) := by
    unfold chooseBody
    exact (watches_expectSymbol rfl).bind fun _ => (hself 0).bind fun _ => watches_pure _
  unfold chooseInterior
  refine watches_expectName.bind fun named? => ?_
  cases named? with
  | none => exact watches_pure _
  | some named =>
    refine (watches_consumeSymbol rfl).bind fun _ => Watches.ite ?_ (hbody _ _ none)
    exact (hself 0).bind fun domain => hbody _ _ (some domain)

theorem watches_quantifierInterior (kind : QuantifierKind) (range : SourceRange) :
    (reading c).Watches (quantifierInterior self kind range)
      (quantifierInterior self' kind range) := by
  unfold quantifierInterior
  refine (watches_parseBounds hself true).bind fun _ => (watches_expectSymbol rfl).bind fun _ => ?_
  exact (hself 0).bind fun _ => watches_pure _

theorem watches_fairnessInterior (spelling : String) (range : SourceRange) :
    (reading c).Watches (fairnessInterior self spelling range)
      (fairnessInterior self' spelling range) := by
  unfold fairnessInterior
  refine (watches_parsePrimary hself false).bind fun subscript => ?_
  refine (watches_consumeSymbol rfl).bind fun _ => Watches.ite ?_ (watches_pure _)
  exact (watches_parseDelimitedExpressions hself rfl).bind fun list =>
    Watches.ite (watches_pure _) (watches_pure _)

theorem watch_parseFairness (hs : (reading c).inv s) (hplain : c.Plain s) (spelling : String) :
    (reading c).Watch s (parseFairness self spelling) (parseFairness self' spelling)
      fun _ _ => True := by
  unfold parseFairness
  exact watch_bracketed hs hplain (watches_fairnessInterior hself spelling) fun _ _ =>
    watches_pure _

/-! ### Prefix operators -/

theorem watch_parsePrefixApplication (hs : (reading c).inv s) (hplain : c.Plain s)
    (spelling : String) (token : Token) :
    (reading c).Watch s (parsePrefixApplication self spelling token)
      (parsePrefixApplication self' spelling token) fun _ _ => True := by
  unfold parsePrefixApplication
  refine (watches_advance_of_plain hplain).bind fun _ t hst _ => ?_
  refine (watches_withNesting (hself levelPrefix) token.range).bind (fun argument? => ?_) t
    (hst.inv hs)
  cases argument? <;> exact watches_pure _

theorem watches_parseSymbolOrPrimary :
    (reading c).Watches (parseSymbolOrPrimary self) (parseSymbolOrPrimary self') := by
  intro s hs
  unfold parseSymbolOrPrimary
  refine WatchTo.reads reads_profileOf fun profile hprofile => ?_
  refine WatchTo.reads reads_parserProfileOf fun parserProfile hparser => ?_
  obtain rfl : profile = c.profile := hprofile.trans hs.1
  obtain rfl : parserProfile = c.parserProfile := hparser.trans hs.2.1
  refine WatchTo.reads reads_currentRange fun range _ => WatchTo.reads reads_peek? fun token? h => ?_
  cases token? with
  | none => exact watches_rejectEnd range s hs
  | some token =>
    dsimp only
    unfold symbolOrPrimaryAt
    cases hspelling : symbolOf? c.profile token with
    | none => exact watches_parseOperand hself s hs
    | some spelling =>
      have hplain (hnot : isJunctionSpelling spelling = false) : c.Plain s :=
        plain_of_symbolOf h.symm hspelling hnot
      have hliteral {name : String} (h : spelling == name)
          (hname : isJunctionSpelling name = false) : c.Plain s := by
        refine hplain ?_
        rwa [beq_iff_eq.1 h]
      refine WatchTo.ite (fun h => ?_) fun _ => WatchTo.ite (fun h => ?_) fun _ => ?_
      · exact watch_parseForm (by decide) hs (hliteral h rfl)
          (watches_quantifierInterior hself .forall)
      · exact watch_parseForm (by decide) hs (hliteral h rfl)
          (watches_quantifierInterior hself .exists)
      · cases hfound : c.parserProfile.findOperator? spelling .prefixOperator with
        | some entry =>
          exact watch_parsePrefixApplication hself hs (hplain (not_junction_of_prefixOperator hfound)) _ token
        | none => exact watches_parseOperand hself s hs

theorem watches_parsePrefix (fuel : Nat) :
    (reading c).Watches (parsePrefix self fuel) (parsePrefix self' fuel) := by
  intro s hs
  unfold parsePrefix
  refine WatchTo.reads reads_currentRange fun range _ => WatchTo.reads reads_peek? fun token? h => ?_
  cases token? with
  | none => exact watches_rejectEnd range s hs
  | some token =>
    dsimp only
    cases hkeyword : keywordOf? token with
    | none => exact watches_parseSymbolOrPrimary hself s hs
    | some keyword =>
      have hplain : c.Plain s := plain_of_kind h.symm fun symbol => by
        rw [kind_of_keywordOf hkeyword]
        exact nofun
      dsimp only
      unfold keywordPrefix
      refine WatchTo.ite (fun _ => watch_parsePrefixApplication hself hs hplain _ token) fun _ => ?_
      refine WatchTo.ite (fun _ => watch_parseFairness hself hs hplain _) fun _ => ?_
      refine WatchTo.ite (fun _ => watch_parseFairness hself hs hplain _) fun _ => ?_
      refine WatchTo.ite (fun _ => ?_) fun _ => WatchTo.ite (fun _ => ?_) fun _ => ?_
      · exact watch_parseForm (by decide) hs hplain (watches_ifInterior hself)
      · exact watch_parseForm (by decide) hs hplain (watches_caseInterior hself)
      refine WatchTo.ite (fun _ => ?_) fun _ => WatchTo.ite (fun _ => ?_) fun _ => ?_
      · exact watch_parseForm (by decide) hs hplain (watches_letInterior hself fuel)
      · exact watch_parseForm (by decide) hs hplain (watches_chooseInterior hself)
      · exact watches_parseSymbolOrPrimary hself s hs

end Grammar
end MirrorsCore.Tla
