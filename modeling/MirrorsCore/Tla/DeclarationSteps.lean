import Mathlib
import MirrorsCore.Tla.DeclarationParser
import MirrorsCore.Tla.ExpressionSteps

/-! Declarations, proof regions and the module loop, watched like expressions.
They stand outside every prefix list, so any token may be consumed here. -/

namespace MirrorsCore.Tla
open Lib Lib.Monitor

variable {c : Setting} {α β : Type} {s t u : ParserState}

/-- There is a token to consume. -/
def ParserState.Going (s : ParserState) : Prop :=
  ∃ token, s.tokens[s.position]? = some token ∧ token.kind.isEof = false

/-- A round of a scan, which watches itself. -/
abbrev Setting.ScanRound (c : Setting) (s : ParserState) (m : ParserM (ForInStep β)) : Prop :=
  (reading c).Watch s m m (Round ParserState.remaining s fun _ _ => True)

/-! ### Comma-separated names -/

theorem watchesLoop_nameListStep {readItem : String → SourceRange → ParserM (Option β)}
    (hitem : ∀ name range, (reading c).Watches (readItem name range) (readItem name range)) :
    c.WatchesLoop (nameListStep readItem) (nameListStep readItem) := by
  intro list s hs
  unfold nameListStep
  refine watches_expectName.andThen hs fun named? t hst ht => ?_
  cases named? with
  | none => exact watch_done _
  | some named =>
    refine (hitem named.1 named.2).andThen ht fun item u htu hu => ?_
    exact watch_separator rfl hu (remaining_le_of_later (hst.trans htu)) _ _

theorem watches_parseNameList (hb : c.boundary = none) {kind : CstKind} (hkind : kind ≠ .expression)
    {readItem : String → SourceRange → ParserM (Option β)}
    (hitem : ∀ name range, (reading c).Watches (readItem name range) (readItem name range))
    (build : List β → SourcePosition → Declaration) :
    (reading c).Watches (parseNameList kind readItem build) (parseNameList kind readItem build) := by
  unfold parseNameList
  refine watches_openFrame hkind fun s hs => ?_
  refine (watches_advance hb).andThen hs fun _ t _ ht => ?_
  refine (watches_parserLoop (watchesLoop_nameListStep hitem) _).andThen ht fun list u _ _ => ?_
  refine watch_closeFrame fun _ => ?_
  split_ifs
  · exact reads_currentStop.bind fun _ => reads_pure _
  · exact reads_pure _

theorem watches_readImportedModule (name : String) (range : SourceRange) :
    (reading c).Watches (readImportedModule name range) (readImportedModule name range) := by
  unfold readImportedModule
  cases ModuleName.ofString? name with
  | some moduleName => exact watches_pure _
  | none => exact watches_report _ _ range none

theorem watches_optionalArity (fuel : Nat) :
    (reading c).Watches (optionalArity fuel) (optionalArity fuel) := by
  unfold optionalArity
  exact (watches_consumeSymbol rfl).bind fun _ =>
    Watches.ite (watches_parseAritySpec fuel) (watches_pure _)

theorem watches_readRecursiveOperator (fuel : Nat) (name : String) (range : SourceRange) :
    (reading c).Watches (readRecursiveOperator fuel name range)
      (readRecursiveOperator fuel name range) := by
  unfold readRecursiveOperator
  exact (watches_optionalArity fuel).bind fun _ =>
    watches_reads reads_currentStop fun _ => watches_pure _

/-! ### Opaque proof regions -/

section Proofs
variable (hb : c.boundary = none)

theorem scanRound_stop (code message : String) (hs : (reading c).inv s) (range : SourceRange)
    (scan : β) : c.ScanRound s (stopScan code message range scan) := by
  unfold stopScan
  refine (watches_emitError code message range).andThen hs fun _ t _ ht => ?_
  exact watches_haltParser.andThen ht fun _ _ _ _ => watch_done scan

theorem scanRound_limit (code message : String) (hs : (reading c).inv s) (range : SourceRange)
    (scan : β) :
    c.ScanRound s (emitLimit code message range >>= fun _ => pure (.done scan)) :=
  (watches_emitLimit code message range).andThen hs fun _ _ _ _ => watch_done scan

include hb

theorem watch_advance_going (hgo : s.Going) :
    (reading c).Watch s advance advance fun _ t => t.remaining < s.remaining := by
  obtain ⟨token, htoken, heof⟩ := hgo
  exact (watch_advance fun _ _ => hb ▸ beyond_none).mono fun _ _ h => h token htoken heof

theorem scanRound_advance (hgo : s.Going) (scan : β) :
    c.ScanRound s (advance >>= fun _ => pure (.yield scan)) :=
  (watch_advance_going hb hgo).bind fun _ _ _ hlt => watch_yield scan hlt

theorem scanRound_close (hgo : s.Going) (scan : β) :
    c.ScanRound s (advance >>= fun _ => pure (.done scan)) :=
  (watch_advance_going hb hgo).bind fun _ _ _ _ => watch_done scan

theorem watches_advanceBy (n : Nat) : (reading c).Watches (advanceBy n) (advanceBy n) := by
  induction n with
  | zero => exact watches_pure _
  | succ n ih => exact (watches_advance hb).bind fun _ => ih

theorem watch_advanceBy {n : Nat} (hs : (reading c).inv s) (hgo : s.Going) (hn : 0 < n) :
    (reading c).Watch s (advanceBy n) (advanceBy n) fun _ t => t.remaining < s.remaining := by
  obtain ⟨n, rfl⟩ : ∃ k, n = k + 1 := ⟨n - 1, by omega⟩
  rw [advanceBy]
  refine (watch_advance_going hb hgo).bind fun _ t hst hlt => ?_
  have hrest := (watches_advanceBy hb n t (hst.inv hs)).forward
  exact hrest.mono fun _ _ hlater => (remaining_le_of_later hlater).trans_lt hlt

theorem scanRound_qed (hs : (reading c).inv s) (hgo : s.Going) (token : Token) (scan : ProofScan) :
    c.ScanRound s (proofQed token scan) := by
  unfold proofQed mismatchedQed
  cases scan.pendingLevel with
  | some level =>
    rcases scan.scopes.getLast? with _ | ⟨_ | ⟨openLevel, charged⟩⟩
    · exact scanRound_stop _ _ hs _ _
    · exact scanRound_stop _ _ hs _ _
    · refine WatchTo.ite (fun _ => ?_) fun _ => scanRound_stop _ _ hs _ _
      refine (watch_advance_going hb hgo).bind fun _ _ _ hlt => ?_
      exact WatchTo.ite (fun _ => watch_done _) fun _ => watch_yield _ hlt
  | none =>
    rcases scan.scopes.getLast? with _ | ⟨_ | ⟨openLevel, charged⟩⟩
    · exact scanRound_close hb hgo _
    · exact scanRound_advance hb hgo _
    · exact scanRound_close hb hgo _

theorem scanRound_nested (hs : (reading c).inv s) (hgo : s.Going) (token : Token)
    (scan : ProofScan) : c.ScanRound s (proofNested token scan) := by
  unfold proofNested exhaustedProof deepProof
  refine WatchTo.reads (fun _ => rfl) fun state _ => WatchTo.ite (fun _ => ?_) fun _ => ?_
  · refine (watch_advance_going hb hgo).bind fun _ t hst hlt => ?_
    refine (watches_advance hb).andThen (hst.inv hs) fun _ u htu _ => ?_
    exact watch_yield _ ((remaining_le_of_later htu).trans_lt hlt)
  · refine WatchTo.ite (fun _ => scanRound_limit _ _ hs _ _) fun _ => ?_
    exact WatchTo.ite (fun _ => scanRound_limit _ _ hs _ _) fun _ => scanRound_advance hb hgo _

theorem scanRound_label (hs : (reading c).inv s) (hgo : s.Going) (token : Token)
    {label : ProofStepLabel} (hlabel : 0 < label.length) (scan : ProofScan) :
    c.ScanRound s (proofLabel token label scan) := by
  unfold proofLabel exhaustedProof deepProof
  refine WatchTo.reads (fun _ => rfl) fun state _ => ?_
  refine WatchTo.ite (fun _ => scanRound_stop _ _ hs _ _) fun _ => ?_
  refine WatchTo.ite (fun _ => scanRound_limit _ _ hs _ _) fun _ => ?_
  refine WatchTo.ite (fun _ => scanRound_limit _ _ hs _ _) fun _ => ?_
  exact (watch_advanceBy hb hs hgo hlabel).bind fun _ _ _ hlt => watch_yield _ hlt

theorem scanRound_other (hs : (reading c).inv s) (hgo : s.Going) (token : Token)
    (scan : ProofScan) : c.ScanRound s (proofOther token scan) := by
  unfold proofOther proofAdvance
  cases keywordOf? token with
  | none => exact scanRound_advance hb hgo _
  | some keyword =>
    exact WatchTo.ite (fun _ => scanRound_stop _ _ hs _ _) fun _ => scanRound_advance hb hgo _

omit hb in
/-- A step label has at least one token. -/
theorem length_of_proofStepLabelAt? {profile : LanguageProfile} {tokens : List Token}
    {position : Nat} {label : ProofStepLabel}
    (h : proofStepLabelAt? profile tokens position = some label) : 0 < label.length := by
  unfold proofStepLabelAt? at h
  split at h
  · split_ifs at h
    split at h
    · split_ifs at h
      split at h
      · rw [← Option.some.inj h]
        exact Nat.succ_pos _
      · cases h
    · cases h
  · cases h

theorem scanRound_structure (hs : (reading c).inv s) (hgo : s.Going) (token : Token)
    (scan : ProofScan) : c.ScanRound s (proofStructure token scan) := by
  unfold proofStructure
  refine WatchTo.reads (fun _ => rfl) fun state hstate => ?_
  refine WatchTo.ite (fun _ => scanRound_advance hb hgo _) fun _ => ?_
  refine WatchTo.ite (fun _ => scanRound_qed hb hs hgo token scan) fun _ => ?_
  refine WatchTo.ite (fun _ => scanRound_nested hb hs hgo token scan) fun _ => ?_
  cases hlabel : proofStepLabelAt? state.profile state.tokens state.position with
  | none => exact scanRound_other hb hs hgo token scan
  | some label => exact scanRound_label hb hs hgo token (length_of_proofStepLabelAt? hlabel) scan

theorem scanRound_token (hs : (reading c).inv s) (hgo : s.Going) (token : Token)
    (scan : ProofScan) : c.ScanRound s (proofToken token scan) := by
  unfold proofToken
  refine WatchTo.reads reads_profileOf fun profile _ => ?_
  dsimp only
  cases delimiterOpener? (symbolSpelling profile token) with
  | some _ =>
    exact WatchTo.ite (fun _ => scanRound_advance hb hgo _) fun _ => scanRound_stop _ _ hs _ _
  | none =>
    cases delimiterCloser? (symbolSpelling profile token) with
    | some closer => exact scanRound_advance hb hgo _
    | none => exact scanRound_structure hb hs hgo token scan

omit hb in
theorem going_of_not_end {token : Token} (htoken : s.tokens[s.position]? = some token)
    (h : ¬ (token.kind.isEof || token.kind == .moduleEnd) = true) : s.Going := by
  rw [Bool.or_eq_true, not_or] at h
  exact ⟨token, htoken, Bool.eq_false_of_not_eq_true h.1⟩

theorem watchesLoop_proofRegionStep : c.WatchesLoop proofRegionStep proofRegionStep := by
  intro scan s hs
  unfold proofRegionStep
  refine WatchTo.reads reads_halted? fun _ _ => WatchTo.ite (fun _ => watch_done _) fun _ => ?_
  refine WatchTo.reads (fun _ => rfl) fun state hstate => ?_
  obtain rfl : state = s := hstate
  cases htoken : state.tokens[state.position]? with
  | none => exact scanRound_stop _ _ hs _ _
  | some token =>
    refine WatchTo.ite (fun _ => scanRound_stop _ _ hs _ _) fun hend => ?_
    exact scanRound_token hb hs (going_of_not_end htoken hend) token scan

theorem watches_scanProofRegion (fuel : Nat) :
    (reading c).Watches (scanProofRegion fuel) (scanProofRegion fuel) := by
  unfold scanProofRegion
  exact (watches_parserLoop (watchesLoop_proofRegionStep hb) _).bind fun _ => watches_pure _

theorem scanRound_by (hs : (reading c).inv s) (hgo : s.Going) (token : Token) (scan : ByScan) :
    c.ScanRound s (byToken token scan) := by
  unfold byToken byAdvance
  refine WatchTo.reads (fun _ => rfl) fun state _ => ?_
  dsimp only
  cases delimiterOpener? (symbolSpelling state.profile token) with
  | some _ =>
    exact WatchTo.ite (fun _ => scanRound_advance hb hgo _) fun _ => scanRound_stop _ _ hs _ _
  | none =>
    cases delimiterCloser? (symbolSpelling state.profile token) with
    | some closer => exact scanRound_advance hb hgo _
    | none =>
      exact WatchTo.ite (fun _ => scanRound_stop _ _ hs _ _) fun _ => scanRound_advance hb hgo _

theorem watchesLoop_proofByStep : c.WatchesLoop proofByStep proofByStep := by
  intro scan s hs
  unfold proofByStep
  refine WatchTo.reads reads_halted? fun _ _ => WatchTo.ite (fun _ => watch_done _) fun _ => ?_
  refine WatchTo.reads (fun _ => rfl) fun state hstate => ?_
  obtain rfl : state = s := hstate
  cases htoken : state.tokens[state.position]? with
  | none => exact watch_done _
  | some token =>
    refine WatchTo.ite (fun _ => watch_done _) fun hend => ?_
    refine WatchTo.ite (fun _ => watch_done _) fun _ => ?_
    exact scanRound_by hb hs (going_of_not_end htoken hend) token scan

omit hb in
theorem watches_checkByScan (scan : ByScan) :
    (reading c).Watches (checkByScan scan) (checkByScan scan) := by
  unfold checkByScan
  refine Watches.ite ?_ (Watches.ite ?_ (watches_pure _))
  · exact watches_reads reads_currentRange fun range => watches_emitLimit _ _ range
  · exact watches_reads reads_currentRange fun range => watches_emitLimit _ _ range

theorem watches_scanProofByTerminal :
    (reading c).Watches scanProofByTerminal scanProofByTerminal := by
  unfold scanProofByTerminal
  refine (watches_parserLoop (watchesLoop_proofByStep hb) _).bind fun scan => ?_
  exact watches_reads reads_halted? fun _ => Watches.ite (watches_pure _) (watches_checkByScan scan)

omit hb in
theorem reads_proofRegionOf (treatment : ProofTreatment) (range : SourceRange) :
    Reads (proofRegionOf treatment range) := by
  unfold proofRegionOf
  exact reads_currentStop.bind fun _ => reads_pure _

omit hb in
theorem watches_of_reads {m : ParserM α} (hm : Reads m) : (reading c).Watches m m := by
  intro s _
  refine watch_silent ?_ trivial
  rw [hm s]
  exact Extends.refl s

theorem watches_proofBody (fuel : Nat) (range : SourceRange) :
    (reading c).Watches (proofBody fuel range) (proofBody fuel range) := by
  have hregion (treatment : ProofTreatment) :
      (reading c).Watches (proofRegionOf treatment range) (proofRegionOf treatment range) :=
    watches_of_reads (reads_proofRegionOf treatment range)
  unfold proofBody
  refine (watches_consumeKeyword _).bind fun _ => Watches.ite (hregion _) ?_
  refine (watches_consumeKeyword _).bind fun _ => Watches.ite (hregion _) ?_
  exact (watches_scanProofRegion hb fuel).bind fun _ => hregion _

theorem watches_optionalProof (fuel : Nat) :
    (reading c).Watches (optionalProof fuel) (optionalProof fuel) := by
  unfold optionalProof
  refine watches_reads reads_currentRange fun range => watches_reads (reads_peekKeyword _) fun _ => ?_
  refine Watches.ite (watches_openFrame (by decide) fun s hs => ?_)
    (watches_reads (reads_peekKeyword _) fun _ =>
      Watches.ite (watches_openFrame (by decide) fun s hs => ?_) (watches_pure _))
  · refine (watches_advance hb).andThen hs fun _ t _ ht => ?_
    exact (watches_proofBody hb fuel range).andThen ht fun _ _ _ _ =>
      watch_closeFrame fun _ => reads_pure _
  · refine (watches_advance hb).andThen hs fun _ t _ ht => ?_
    exact (watches_scanProofByTerminal hb).andThen ht fun _ _ _ _ =>
      watch_closeFrame fun _ => reads_proofRegionOf _ range

end Proofs

/-! ### Declarations with expressions -/

section Declarations
variable {self self' : Nat → Nat → ParserM Expression} (hb : c.boundary = none)
  (hself : ∀ fuel level, (reading c).Watches (self fuel level) (self' fuel level))
include hb

theorem watches_statementName : (reading c).Watches statementName statementName := by
  unfold statementName
  refine watches_reads reads_peek? fun first? => watches_reads (reads_peekAt? 1) fun second? => ?_
  refine watches_reads reads_profileOf fun profile => ?_
  cases first?.bind identifierOf? with
  | none => exact watches_pure none
  | some candidate =>
    cases second?.bind (symbolOf? profile) with
    | none => exact watches_pure none
    | some spelling =>
      refine Watches.ite ?_ (watches_pure none)
      exact (watches_advance hb).bind fun _ => (watches_advance hb).bind fun _ => watches_pure _

include hself

theorem watches_parseAssumption (kind : AssumptionKind) (fuel : Nat) (range : SourceRange) :
    (reading c).Watches (parseAssumption self kind fuel range)
      (parseAssumption self' kind fuel range) := by
  unfold parseAssumption
  refine watches_openFrame (by decide) fun s hs => ?_
  refine (watches_advance hb).andThen hs fun _ t _ ht => ?_
  refine (watches_statementName hb).andThen ht fun name u _ hu => ?_
  exact (hself fuel 0).andThen hu fun body _ _ _ => watch_closeFrame fun _ => reads_pure _

theorem watches_parseTheorem (kind : TheoremKind) (fuel : Nat) (range : SourceRange) :
    (reading c).Watches (parseTheorem self kind fuel range)
      (parseTheorem self' kind fuel range) := by
  unfold parseTheorem
  refine watches_openFrame (by decide) fun s hs => ?_
  refine (watches_advance hb).andThen hs fun _ t _ ht => ?_
  refine (watches_statementName hb).andThen ht fun name u _ hu => ?_
  refine (hself fuel 0).andThen hu fun statement v _ hv => ?_
  refine (watches_optionalProof hb fuel).andThen hv fun proof _ _ _ => ?_
  exact watch_closeFrame fun _ => reads_currentStop.bind fun _ => reads_pure _

omit hb in
theorem watchesLoop_substitutionStep (fuel : Nat) :
    c.WatchesLoop (substitutionStep self fuel) (substitutionStep self' fuel) := by
  intro substitutions s hs
  unfold substitutionStep
  refine WatchTo.reads reads_currentRange fun range _ => ?_
  refine watches_expectName.andThen hs fun named? t hst ht => ?_
  cases named? with
  | none => exact watch_done _
  | some named =>
    refine (watches_optionalArity fuel).andThen ht fun arity u htu hu => ?_
    refine (watches_expectSymbol rfl).andThen hu fun _ v huv hv => ?_
    refine (hself fuel 0).andThen hv fun actual w hvw hw => ?_
    exact watch_separator rfl hw
      (remaining_le_of_later (hst.trans (htu.trans (huv.trans hvw)))) _ _

omit hb in
theorem watches_parseSubstitutions (fuel : Nat) :
    (reading c).Watches (parseSubstitutions self fuel) (parseSubstitutions self' fuel) := by
  unfold parseSubstitutions
  exact (watches_consumeKeyword _).bind fun _ =>
    Watches.ite (watches_parserLoop (watchesLoop_substitutionStep hself fuel) _) (watches_pure _)

omit hb in
theorem watches_parseInstanceBody (fuel : Nat) (name : Option String) (isLocal : Bool)
    (range : SourceRange) :
    (reading c).Watches (parseInstanceBody self fuel name isLocal range)
      (parseInstanceBody self' fuel name isLocal range) := by
  unfold parseInstanceBody
  refine watches_openFrame (by decide) fun s hs => ?_
  refine (watches_consumeKeyword _).andThen hs fun _ t _ ht => ?_
  refine watches_expectName.andThen ht fun named? u _ hu => ?_
  cases named? with
  | none => exact watch_closeFrame fun _ => reads_pure _
  | some named =>
    dsimp only
    cases ModuleName.ofString? named.1 with
    | none =>
      exact (watches_emitError _ _ range).andThen hu fun _ _ _ _ =>
        watch_closeFrame fun _ => reads_pure _
    | some moduleName =>
      refine (watches_parseSubstitutions hself fuel).andThen hu fun _ _ _ _ => ?_
      exact watch_closeFrame fun _ => reads_currentStop.bind fun _ => reads_pure _

omit hb in
theorem watch_definitionBody (fuel : Nat) {build : Expression → Option Declaration}
    (hs : (reading c).inv s) :
    WatchTo (closing c) s
      (expectSymbol "==" >>= fun _ => self fuel 0 >>= fun body => closeFrame >>= fun _ =>
        pure (build body))
      (expectSymbol "==" >>= fun _ => self' fuel 0 >>= fun body => closeFrame >>= fun _ =>
        pure (build body)) fun _ _ => True := by
  refine (watches_expectSymbol rfl).andThen hs fun _ t _ ht => ?_
  exact (hself fuel 0).andThen ht fun _ _ _ _ => watch_closeFrame fun _ => reads_pure _

omit hb in
theorem watches_parsePrefixDefinition (fuel : Nat) (range operatorRange : SourceRange)
    (canonical : String) :
    (reading c).Watches (parsePrefixDefinition self fuel range operatorRange canonical)
      (parsePrefixDefinition self' fuel range operatorRange canonical) := by
  unfold parsePrefixDefinition
  refine watches_openFrame (by decide) fun s hs => ?_
  refine watches_expectName.andThen hs fun named? t _ ht => ?_
  cases named? with
  | none => exact watch_closeFrame fun _ => reads_pure _
  | some named => exact watch_definitionBody hself fuel ht

theorem watch_postfixDefinition (fuel : Nat) (range : SourceRange)
    (named operator : String × SourceRange) (hs : (reading c).inv s) :
    WatchTo (closing c) s (postfixDefinition self fuel range named operator)
      (postfixDefinition self' fuel range named operator) fun _ _ => True := by
  unfold postfixDefinition
  exact (watches_advance hb).andThen hs fun _ t _ ht => watch_definitionBody hself fuel ht

theorem watch_infixDefinition (fuel : Nat) (range : SourceRange) (named : String × SourceRange)
    (entry : OperatorEntry) (operatorRange : SourceRange) (hs : (reading c).inv s) :
    WatchTo (closing c) s (infixDefinition self fuel range named entry operatorRange)
      (infixDefinition self' fuel range named entry operatorRange) fun _ _ => True := by
  unfold infixDefinition
  refine (watches_advance hb).andThen hs fun _ t _ ht => ?_
  refine watches_expectName.andThen ht fun right? u _ hu => ?_
  cases right? with
  | none => exact watch_closeFrame fun _ => reads_pure _
  | some right => exact watch_definitionBody hself fuel hu

omit hb in
theorem watch_functionalDefinition (fuel : Nat) (range : SourceRange)
    (named : String × SourceRange) (parameters : List OperatorParameter)
    (hs : (reading c).inv s) :
    WatchTo (closing c) s (functionalDefinition self fuel range named parameters)
      (functionalDefinition self' fuel range named parameters) fun _ _ => True := by
  unfold functionalDefinition
  refine (watches_expectSymbol rfl).andThen hs fun _ t _ ht => ?_
  refine WatchTo.reads (reads_peekKeyword _) fun _ _ => WatchTo.ite (fun _ => ?_) fun _ => ?_
  · refine (watches_parseInstanceBody hself fuel _ false range).andThen ht fun _ _ _ _ => ?_
    exact watch_closeFrame fun _ => reads_pure _
  · exact (hself fuel 0).andThen ht fun _ _ _ _ => watch_closeFrame fun _ => reads_pure _

omit hb hself in
theorem watches_optionalParameters (fuel : Nat) :
    (reading c).Watches (optionalParameters fuel) (optionalParameters fuel) := by
  unfold optionalParameters
  exact (watches_consumeSymbol rfl).bind fun _ =>
    Watches.ite (watches_parseParameterList fuel) (watches_pure _)

theorem watches_parseDefinitionOrInstance (fuel : Nat) (range : SourceRange) :
    (reading c).Watches (parseDefinitionOrInstance self fuel range)
      (parseDefinitionOrInstance self' fuel range) := by
  unfold parseDefinitionOrInstance
  refine watches_openFrame (by decide) fun s hs => ?_
  refine watches_expectName.andThen hs fun named? t _ ht => ?_
  cases named? with
  | none => exact watch_closeFrame fun _ => reads_pure _
  | some named =>
    refine (watches_optionalParameters fuel).andThen ht fun parameters u _ hu => ?_
    refine WatchTo.reads reads_profileOf fun profile _ => ?_
    refine WatchTo.reads reads_parserProfileOf fun parserProfile _ => ?_
    refine WatchTo.reads reads_peek? fun next? _ => WatchTo.reads (reads_peekAt? 1) fun after? _ => ?_
    cases postfixName? parserProfile profile parameters next? after? with
    | some operator => exact watch_postfixDefinition hb hself fuel range named operator hu
    | none =>
      dsimp only
      cases infixName? parserProfile profile next? with
      | some operator => exact watch_infixDefinition hb hself fuel range named _ _ hu
      | none => exact watch_functionalDefinition hself fuel range named parameters hu

omit hb hself in
theorem watches_rejectDeclaration (token : Token) :
    (reading c).Watches (rejectDeclaration token) (rejectDeclaration token) :=
  watches_report _ _ token.range none

omit hself in
theorem watches_parseLocal (range : SourceRange) {inner inner' : ParserM (Option Declaration)}
    (hinner : (reading c).Watches inner inner') :
    (reading c).Watches (parseLocal range inner) (parseLocal range inner') := by
  unfold parseLocal
  refine watches_openFrame (by decide) fun s hs => ?_
  refine (watches_advance hb).andThen hs fun _ t _ ht => ?_
  refine (watches_withNesting hinner range).andThen ht fun inner? _ _ _ => ?_
  refine watch_closeFrame fun _ => ?_
  cases inner?.bind id with
  | some declaration => exact reads_currentStop.bind fun _ => reads_pure _
  | none => exact reads_pure _

theorem watches_keywordDeclaration {inner inner' : ParserM (Option Declaration)}
    (hinner : (reading c).Watches inner inner') (fuel : Nat) (range : SourceRange) (token : Token)
    (keyword : String) :
    (reading c).Watches (keywordDeclaration self inner fuel range token keyword)
      (keywordDeclaration self' inner' fuel range token keyword) := by
  have hassumption (kind : AssumptionKind) := watches_parseAssumption hb hself kind fuel range
  have htheorem (kind : TheoremKind) := watches_parseTheorem hb hself kind fuel range
  unfold keywordDeclaration
  refine Watches.ite (watches_parseNameList hb (by decide) watches_readImportedModule _) ?_
  refine Watches.ite (watches_parseNameList hb (by decide) (fun _ _ => watches_pure _) _) ?_
  refine Watches.ite (watches_parseNameList hb (by decide) (fun _ _ => watches_pure _) _) ?_
  refine Watches.ite
    (watches_parseNameList hb (by decide) (watches_readRecursiveOperator fuel) _) ?_
  refine Watches.ite (hassumption _) (Watches.ite (hassumption _) (Watches.ite (hassumption _) ?_))
  refine Watches.ite (htheorem _) (Watches.ite (htheorem _) (Watches.ite (htheorem _) ?_))
  refine Watches.ite (htheorem _) (Watches.ite (watches_parseLocal hb range hinner) ?_)
  refine Watches.ite ?_ (Watches.ite (watches_parsePrefixDefinition hself fuel range _ _)
    (watches_rejectDeclaration token))
  exact (watches_parseInstanceBody hself fuel none false range).bind fun _ => watches_pure _

theorem watches_symbolDeclaration (fuel : Nat) (range : SourceRange) (token : Token) :
    (reading c).Watches (symbolDeclaration self fuel range token)
      (symbolDeclaration self' fuel range token) := by
  unfold symbolDeclaration
  refine watches_reads reads_parserProfileOf fun parserProfile => ?_
  refine watches_reads reads_profileOf fun profile => ?_
  cases prefixDefinitionOf? parserProfile profile token with
  | some canonical =>
    exact (watches_advance hb).bind fun _ => watches_parsePrefixDefinition hself fuel range _ _
  | none => exact watches_rejectDeclaration token

omit hb hself in
theorem watches_declarationExhausted :
    (reading c).Watches declarationExhausted declarationExhausted := by
  unfold declarationExhausted
  exact watches_reads reads_currentRange fun range =>
    (watches_emitLimit _ _ range).bind fun _ => watches_pure _

/-- Nested `LOCAL` wrappers spend the fuel. -/
theorem watches_parseDeclarationBody (fuel : Nat) :
    (reading c).Watches (parseDeclarationBody self fuel) (parseDeclarationBody self' fuel) := by
  induction fuel with
  | zero => exact watches_declarationExhausted
  | succ fuel ih =>
    unfold parseDeclarationBody
    refine watches_reads reads_currentRange fun range => watches_reads reads_peek? fun token? => ?_
    cases token? with
    | none => exact watches_report _ _ range none
    | some token =>
      dsimp only
      unfold declarationAt
      cases keywordOf? token with
      | some keyword => exact watches_keywordDeclaration hb hself ih (fuel + 1) range token keyword
      | none =>
        dsimp only
        cases token.kind with
        | identifier => exact watches_parseDefinitionOrInstance hb hself (fuel + 1) range
        | symbol _ => exact watches_symbolDeclaration hb hself (fuel + 1) range token
        | _ => exact watches_rejectDeclaration token

theorem watches_parseDeclaration (fuel : Nat) :
    (reading c).Watches (parseDeclaration self fuel) (parseDeclaration self' fuel) := by
  intro s hs
  unfold parseDeclaration
  refine WatchTo.reads (fun _ => rfl) fun state _ => WatchTo.reads reads_currentRange fun range _ => ?_
  refine WatchTo.ite (fun _ => ?_) fun _ => ?_
  · exact (watches_emitLimit _ _ range).bind (fun _ => watches_pure _) s hs
  · refine (watches_parseDeclarationBody hb hself fuel).andThen hs fun declaration? t _ ht => ?_
    cases declaration? with
    | none => exact watch_pure trivial
    | some declaration =>
      refine WatchTo.bind (Q := fun _ _ => True) (watch_silent (Extends.silent rfl) trivial) ?_
      exact fun _ _ _ _ => watch_pure trivial

end Declarations

/-! ### The module loop -/

section Modules
variable {self self' : Nat → Nat → ParserM Expression} (hb : c.boundary = none)
  (hself : ∀ fuel level, (reading c).Watches (self fuel level) (self' fuel level))

theorem remaining_lt_of_later (h : (reading c).Later s t) (hgo : s.Going)
    (hhalted : s.halted = false) (hmoved : t.position ≠ s.position ∨ t.halted = true) :
    t.remaining < s.remaining := by
  obtain ⟨forest, hext⟩ := h
  obtain ⟨token, htoken, -⟩ := hgo
  obtain ⟨hlt, -⟩ := List.getElem?_eq_some_iff.1 htoken
  have hmoves : Moves (CstNode.leafTokensList forest) s t := hext.moves
  have hposition := hmoves.position
  unfold ParserState.remaining
  rw [hmoves.tokens, hhalted]
  rcases hmoved with hmoved | ht
  · have hone : (if t.halted = true then 0 else 1) ≤ 1 := by split_ifs <;> decide
    simp only [Bool.false_eq_true, if_false]
    omega
  · rw [ht]
    simp only [Bool.false_eq_true, if_true, if_false]
    omega

include hb

theorem watch_recover (hgo : s.Going) :
    (reading c).Watch s recover recover fun _ t => t.remaining < s.remaining := by
  obtain ⟨token, htoken, heof⟩ := hgo
  have hopen : (after (openFrame .recovery) s).tokens[(after (openFrame .recovery) s).position]? =
      some token := htoken
  have hconsume : after recover s =
      after closeFrame ((after (openFrame .recovery) s).consume token) := by
    unfold recover
    rw [after_bind, after_bind, after_advance hopen heof]
  have hnode := extends_node (c := c) (extends_closing (extends_consume hopen))
  refine watch_self _ (hconsume.symm ▸ hnode) (fun _ => ?_) ?_
  · refine (respected_node_of_kind (by decide)).2 (respected_token.2 ?_)
    rw [hb]
    exact beyond_none
  · rw [hconsume]
    exact remaining_consume hopen

include hself

theorem watch_declarationStep (fuel : Nat) (hs : (reading c).inv s) (hgo : s.Going)
    (hhalted : s.halted = false) :
    (reading c).Watch s (declarationStep self fuel) (declarationStep self' fuel)
      (Round ParserState.remaining s fun _ _ => True) := by
  unfold declarationStep
  refine WatchTo.reads reads_position fun before hbefore => ?_
  refine (watches_parseDeclaration hb hself fuel).andThen hs fun _ t hst _ => ?_
  refine WatchTo.reads reads_position fun position hposition => ?_
  refine WatchTo.reads reads_halted? fun halted ht => ?_
  obtain rfl : before = s.position := hbefore
  obtain rfl : position = t.position := hposition
  obtain rfl : halted = t.halted := ht
  refine WatchTo.ite (fun hstuck => ?_) fun hmoved => ?_
  · -- The declaration consumed nothing, so the token is still there.
    rw [Bool.and_eq_true, beq_iff_eq] at hstuck
    obtain ⟨forest, hext⟩ := id hst
    obtain ⟨token, htoken, heof⟩ := hgo
    have hmoves : Moves (CstNode.leafTokensList forest) s t := hext.moves
    have hgo : t.Going := by
      refine ⟨token, ?_, heof⟩
      rw [hmoves.tokens, hstuck.1, htoken]
    refine (watch_recover hb hgo).bind fun _ _ _ hlt => ?_
    exact watch_yield _ (hlt.trans_le (remaining_le_of_later hst))
  · refine watch_yield _ (remaining_lt_of_later hst hgo hhalted ?_)
    by_contra hnone
    rw [not_or, not_not] at hnone
    refine hmoved ?_
    rw [hnone.1, beq_self_eq_true, Bool.eq_false_of_not_eq_true hnone.2]
    rfl

theorem watchesLoop_moduleStep (fuel : Nat) :
    c.WatchesLoop (moduleStep self fuel) (moduleStep self' fuel) := by
  intro _ s hs
  unfold moduleStep
  refine WatchTo.reads reads_halted? fun halted hhalted => WatchTo.ite (fun _ => watch_done _) ?_
  intro hrunning
  refine WatchTo.reads reads_peek? fun token? htoken => ?_
  cases token? with
  | none => exact watch_done _
  | some token =>
    refine WatchTo.ite (fun _ => watch_done _) fun hend => ?_
    have hgo := going_of_not_end htoken.symm hend
    refine watch_declarationStep hb hself fuel hs hgo ?_
    exact hhalted.symm.trans (Bool.eq_false_of_not_eq_true hrunning)

omit hself

theorem watches_consumeModuleEnd :
    (reading c).Watches consumeModuleEnd consumeModuleEnd := by
  unfold consumeModuleEnd
  refine watches_reads reads_peek? fun token? => ?_
  cases token? with
  | none => exact watches_pure false
  | some token =>
    exact Watches.ite ((watches_advance hb).bind fun _ => watches_pure true) (watches_pure false)

omit hb in
theorem watches_modify {f : ParserState → ParserState} (hf : ∀ s, Extends [] s (f s)) :
    (reading c).Watches (modify f) (modify f) := fun s _ => watch_silent (hf s) trivial

theorem watches_moduleHeaderAt (token : Token) :
    (reading c).Watches (moduleHeaderAt token) (moduleHeaderAt token) := by
  unfold moduleHeaderAt
  refine Watches.ite ?_ (watches_emitError _ _ token.range)
  refine (watches_advance hb).bind fun _ => ?_
  refine (watches_modify fun s => Extends.silent rfl).bind fun _ => ?_
  exact Watches.ite (watches_emitError _ _ token.range) (watches_pure _)

theorem watches_parseModuleHeader (range : SourceRange) :
    (reading c).Watches (parseModuleHeader range) (parseModuleHeader range) := by
  unfold parseModuleHeader
  refine watches_reads reads_peek? fun token? => ?_
  cases token? with
  | none => exact watches_emitError _ _ range
  | some token => exact watches_moduleHeaderAt hb token

omit hb in
theorem watches_rejectPlusCal : (reading c).Watches rejectPlusCal rejectPlusCal := by
  unfold rejectPlusCal
  refine watches_reads (fun _ => rfl) fun state => ?_
  cases plusCalRange? state.tokens with
  | none => exact watches_pure _
  | some range => exact watches_emitError _ _ range

theorem watches_parseModuleEnd (range : SourceRange) :
    (reading c).Watches (parseModuleEnd range) (parseModuleEnd range) := by
  unfold parseModuleEnd
  exact (watches_consumeModuleEnd hb).bind fun _ =>
    Watches.ite (watches_pure _) (watches_emitError _ _ range)

omit hb in
theorem watches_closeModule (start : SourcePosition) :
    (reading c).Watches (closeModule start) (closeModule start) := fun _ _ =>
  -- whatever the check reports, the state it found is set back
  watch_silent (Extends.silent rfl) trivial

include hself

theorem watches_moduleBody (fuel : Nat) :
    (reading c).Watches (moduleBody self fuel) (moduleBody self' fuel) := by
  unfold moduleBody
  refine watches_reads reads_currentRange fun headerRange => ?_
  refine (watches_parseModuleHeader hb headerRange).bind fun _ => ?_
  refine watches_rejectPlusCal.bind fun _ => ?_
  refine (watches_parserLoop (watchesLoop_moduleStep hb hself fuel) ()).bind fun _ => ?_
  refine watches_reads reads_currentRange fun endRange => ?_
  exact (watches_parseModuleEnd hb endRange).bind fun _ => watches_closeModule _

omit hself

theorem watchesLoop_drainStep :
    (reading c).WatchesLoop ParserState.remaining drainStep drainStep fun _ t =>
      t.tokens[t.position]? = none := by
  intro _ s hs
  unfold drainStep
  refine WatchTo.reads (fun _ => rfl) fun state hstate => ?_
  obtain rfl : state = s := hstate
  cases htoken : state.tokens[state.position]? with
  | none => exact watch_pure (round_done htoken)
  | some token =>
    have hgood : (reading c).good [.token token] := by
      refine respected_token.2 ?_
      rw [hb]
      exact beyond_none
    refine WatchTo.bind (Q := fun _ t => t.remaining < state.remaining)
      (watch_self [.token token] (extends_consume htoken) (fun _ => hgood) (remaining_consume htoken)) ?_
    exact fun _ _ _ hlt => watch_pure (round_yield hlt)

end Modules
end MirrorsCore.Tla
