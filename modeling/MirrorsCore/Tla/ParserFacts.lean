import Mathlib
import MirrorsCore.Tla.DeclarationSteps
import MirrorsCore.Tla.JunctionColumns

/-! What a whole parse returns: a tree over exactly the tokens of the stream, with
nested ranges, and the column rule of its prefix lists as a check of the run. -/

namespace MirrorsCore.Tla
open Lib Lib.Monitor CstNode

variable {c : Setting} {profile : LanguageProfile} {parserProfile : ParserProfile}
  {s t : ParserState}

/-! ### The end of a run -/

def ParserState.outcome (state : ParserState) : ParseOutcome :=
  { cst := { root := rootOf state.frames }
    module? := outcomeModule? state
    diagnostics := outcomeDiagnostics state }

theorem root_outcome : s.outcome.cst.root = rootOf s.frames := rfl

theorem hasErrors_outcome : s.outcome.hasErrors = true ↔ s.Failed := by
  unfold ParserState.outcome ParseOutcome.hasErrors outcomeDiagnostics ParserState.Failed
  dsimp only
  cases htruncated : s.diagnostics.truncated with
  | true =>
    rw [if_pos rfl, List.any_append]
    refine iff_of_true ?_ (Or.inr rfl)
    rw [Bool.or_eq_true]
    exact Or.inr rfl
  | false =>
    rw [if_neg Bool.false_ne_true]
    exact ⟨Or.inl, fun h => h.resolve_right Bool.false_ne_true⟩

theorem after_closeFramesTo {remaining : Nat} (h : s.frames.length ≤ remaining) (fuel : Nat) :
    after (closeFramesTo remaining fuel) s = s := by
  cases fuel with
  | zero => rfl
  | succ fuel =>
    unfold closeFramesTo
    rw [after_bind, value_get, after_get, if_neg (Nat.not_lt.2 h)]
    rfl

theorem value_finishParser (fuel : Nat)
    (h : (after (parserLoop drainStep ()) s).frames.length ≤ 1) :
    value (finishParser fuel) s = (after (parserLoop drainStep ()) s).outcome := by
  unfold finishParser
  rw [value_bind, value_bind, after_closeFramesTo h]
  rfl

def moduleText (self : Nat → Nat → ParserM Expression) (fuel : Nat) : ParserM Unit := do
  moduleBody self fuel
  parserLoop drainStep ()

theorem watch_moduleText (hb : c.boundary = none) {self self' : Nat → Nat → ParserM Expression}
    (hself : ∀ fuel level, (reading c).Watches (self fuel level) (self' fuel level)) (fuel : Nat)
    (hs : (reading c).inv s) :
    (reading c).Watch s (moduleText self fuel) (moduleText self' fuel) fun _ t =>
      t.tokens[t.position]? = none := by
  unfold moduleText
  refine (watches_moduleBody hb hself fuel).andThen hs fun _ t _ ht => ?_
  exact (watchesLoop_drainStep hb).loop () ht

/-- A finished run has read the whole stream into its root node. -/
structure Finished (tokens : List Token) (forest : List CstNode) (outcome : ParseOutcome) :
    Prop where
  root : ∃ range, outcome.cst.root = .node .moduleRoot range forest
  leaves : leafTokensList forest = tokens
  nested : TokensFrom 0 tokens → outcome.cst.rangesNested = true

def readOut (self : Nat → Nat → ParserM Expression) (fuel : Nat) (s : ParserState) :
    ParserState :=
  after (moduleText self fuel) (after (openFrame .moduleRoot) s)

section ReadOut
variable {self : Nat → Nat → ParserM Expression} {fuel : Nat} {forest : List CstNode}

theorem value_parseModule (h : (readOut self fuel s).frames.length ≤ 1) :
    value (parseModule self fuel) s = (readOut self fuel s).outcome := by
  have hread : readOut self fuel s = after (parserLoop drainStep ())
      (after (moduleBody self fuel) (after (openFrame .moduleRoot) s)) := by
    unfold readOut moduleText
    rw [after_bind]
  rw [hread] at h ⊢
  unfold parseModule parseModuleCore
  rw [value_bind, after_bind]
  exact value_finishParser fuel h

theorem frames_readOut (hs : s.frames = [])
    (hext : Extends forest (after (openFrame .moduleRoot) s) (readOut self fuel s)) :
    (readOut self fuel s).frames =
      [{ kind := .moduleRoot, fallback := ⟨s.lastStop, s.lastStop⟩, children := forest }] := by
  have hopen : (after (openFrame .moduleRoot) s).frames =
      [{ kind := .moduleRoot, fallback := ⟨s.lastStop, s.lastStop⟩ }] := by
    change _ :: s.frames = _
    rw [hs]
  rw [hext.frames, hopen, addChildren_cons]
  rfl

theorem finished_parseModule (hs : s.frames = []) (hposition : s.position = 0)
    (hstop : s.lastStop.offset = 0)
    (hext : Extends forest (after (openFrame .moduleRoot) s) (readOut self fuel s))
    (hend : (readOut self fuel s).tokens[(readOut self fuel s).position]? = none) :
    Finished s.tokens forest (value (parseModule self fuel) s) := by
  have hframes := frames_readOut hs hext
  have hroot : rootOf (readOut self fuel s).frames =
      .node .moduleRoot (nodeRange ⟨s.lastStop, s.lastStop⟩ forest) forest := by
    rw [hframes]
    rfl
  have hopen : (after (openFrame .moduleRoot) s).tokens.drop
      (after (openFrame .moduleRoot) s).position = s.tokens := by
    change s.tokens.drop s.position = s.tokens
    rw [hposition, List.drop_zero]
  have hvalue : value (parseModule self fuel) s = (readOut self fuel s).outcome := by
    refine value_parseModule ?_
    rw [hframes]
    exact le_rfl
  rw [hvalue]
  refine ⟨⟨_, root_outcome.trans hroot⟩, ?_, fun hordered => ?_⟩
  · have hunread := hext.moves.unread
    rw [hopen, List.drop_eq_nil_of_le (List.getElem?_eq_none_iff.1 hend), List.append_nil] at hunread
    exact hunread.symm
  · have hstart : (after (openFrame .moduleRoot) s).Ordered := by
      unfold ParserState.Ordered
      rw [hopen]
      change TokensFrom s.lastStop.offset s.tokens
      rw [hstop]
      exact hordered
    obtain ⟨-, hwithin⟩ := hext.spans hstart
    have hnode : Within s.lastStop.offset (readOut self fuel s).lastStop.offset
        [.node .moduleRoot (nodeRange ⟨s.lastStop, s.lastStop⟩ forest) forest] :=
      hwithin.node rfl rfl
    unfold CstModule.rangesNested
    rw [root_outcome, hroot]
    exact rangesNested_of_within hnode

end ReadOut

/-! ### The column rule of a whole parse -/

theorem junctionListsKept_iff {tree : CstNode} :
    JunctionListsKept profile tree ↔ Respected profile none [tree] := by
  unfold JunctionListsKept Respected
  rw [subtreesList_singleton]
  exact ⟨fun h => ⟨h, fun _ _ => beyond_none⟩, And.left⟩

theorem junctionListsKept_root {range : SourceRange} {forest : List CstNode} :
    JunctionListsKept profile (.node .moduleRoot range forest) ↔
      Respected profile none forest := by
  rw [junctionListsKept_iff, respected_node_of_kind (by decide)]

section Stream
variable (tables : JunctionTables profile parserProfile) (limits : ParserLimits)
  (source : SourceUnit) (stream : TokenStream)

/-- The setting of a stream: no list is open around a module. -/
def JunctionTables.setting (tables : JunctionTables profile parserProfile) : Setting :=
  { profile, parserProfile, boundary := none, tables }

def startState (profile : LanguageProfile) (parserProfile : ParserProfile) (limits : ParserLimits)
    (source : SourceUnit) (stream : TokenStream) : ParserState :=
  after (openFrame .moduleRoot) (parserStart profile parserProfile limits source stream)

def streamFuel (stream : TokenStream) : Nat := 32 * stream.tokens.length + 4096

theorem text_of_streamProblem {source : SourceUnit} {stream : TokenStream}
    (h : streamProblem? source stream = none) : stream.text = source.normalizedText := by
  unfold streamProblem? at h
  cases hlast : stream.tokens.getLast? with
  | none =>
    rw [hlast] at h
    cases h
  | some last =>
    rw [hlast] at h
    dsimp only at h
    by_cases heof : (!last.isEof) = true
    · rw [if_pos heof] at h
      cases h
    · rw [if_neg heof] at h
      cases hearlier : stream.tokens.dropLast.find? Token.isEof with
      | some earlier =>
        rw [hearlier] at h
        cases h
      | none =>
        rw [hearlier] at h
        dsimp only at h
        by_contra hne
        rw [if_pos (bne_iff_ne.2 hne)] at h
        cases h

theorem hasErrors_streamProblem {failure : ParseOutcome}
    (h : streamProblem? source stream = some failure) : failure.hasErrors = true := by
  unfold streamProblem? at h
  cases hlast : stream.tokens.getLast? with
  | none =>
    rw [hlast] at h
    rw [← Option.some.inj h]
    rfl
  | some last =>
    rw [hlast] at h
    dsimp only at h
    by_cases heof : (!last.isEof) = true
    · rw [if_pos heof] at h
      rw [← Option.some.inj h]
      rfl
    · rw [if_neg heof] at h
      cases hearlier : stream.tokens.dropLast.find? Token.isEof with
      | some earlier =>
        rw [hearlier] at h
        rw [← Option.some.inj h]
        rfl
      | none =>
        rw [hearlier] at h
        dsimp only at h
        split_ifs at h
        rw [← Option.some.inj h]
        rfl

theorem watch_stream :
    (reading tables.setting).Watch (startState profile parserProfile limits source stream)
      (moduleText parseExpression (streamFuel stream))
      (moduleText watchedExpression (streamFuel stream)) fun _ t =>
        t.tokens[t.position]? = none := by
  have hself (fuel level : Nat) : (reading tables.setting).Watches (parseExpression fuel level)
      (watchedExpression fuel level) :=
    (watchesOperand_parseExpression (c := tables.setting) fuel level none).watches
  exact watch_moduleText rfl hself _ ⟨rfl, rfl, rfl⟩

variable {source stream}

theorem parseStreamWith_of_none (self : Nat → Nat → ParserM Expression)
    (h : streamProblem? source stream = none) :
    parseStreamWith self profile parserProfile limits source stream =
      value (parseModule self (streamFuel stream))
        (parserStart profile parserProfile limits source stream) := by
  unfold parseStreamWith
  rw [h]
  rfl

theorem parseStreamWith_of_some (self : Nat → Nat → ParserM Expression) {failure : ParseOutcome}
    (h : streamProblem? source stream = some failure) :
    parseStreamWith self profile parserProfile limits source stream = failure := by
  unfold parseStreamWith
  rw [h]

def endState (self : Nat → Nat → ParserM Expression) (profile : LanguageProfile)
    (parserProfile : ParserProfile) (limits : ParserLimits) (source : SourceUnit)
    (stream : TokenStream) : ParserState :=
  after (moduleText self (streamFuel stream))
    (startState profile parserProfile limits source stream)

theorem outcome_parseStream (self : Nat → Nat → ParserM Expression) {forest : List CstNode}
    (h : streamProblem? source stream = none)
    (hext : Extends forest (startState profile parserProfile limits source stream)
      (endState self profile parserProfile limits source stream)) :
    parseStreamWith self profile parserProfile limits source stream =
      (endState self profile parserProfile limits source stream).outcome := by
  rw [parseStreamWith_of_none limits self h]
  have hframes := frames_readOut (s := parserStart profile parserProfile limits source stream)
    rfl hext
  refine value_parseModule ?_
  rw [hframes]
  exact le_rfl

include tables in
theorem finished_parseStream (h : streamProblem? source stream = none) :
    ∃ forest, Finished stream.tokens forest
      (parseStream profile parserProfile limits source stream) := by
  obtain ⟨forest, _, hw⟩ := watch_stream tables limits source stream
  refine ⟨forest, ?_⟩
  unfold parseStream
  rw [parseStreamWith_of_none limits parseExpression h]
  exact finished_parseModule rfl rfl rfl hw.ends hw.post

end Stream

/-- The tree of a parse holds exactly the tokens of its stream, so that its text is
the source text, and over ordered tokens its ranges nest. -/
theorem parseStream_lossless (tables : JunctionTables profile parserProfile)
    (limits : ParserLimits) {source : SourceUnit} {stream : TokenStream}
    (h : streamProblem? source stream = none) :
    (parseStream profile parserProfile limits source stream).cst.root.leafTokens = stream.tokens ∧
      (parseStream profile parserProfile limits source stream).cst.losslessAgainst stream = true ∧
      (parseStream profile parserProfile limits source stream).cst.text = source.normalizedText ∧
      (TokensFrom 0 stream.tokens →
        (parseStream profile parserProfile limits source stream).cst.rangesNested = true) := by
  obtain ⟨forest, hfinished⟩ := finished_parseStream tables limits h
  obtain ⟨range, hroot⟩ := hfinished.root
  have hleaves : (parseStream profile parserProfile limits source stream).cst.root.leafTokens =
      stream.tokens := by
    rw [hroot, leafTokens, hfinished.leaves]
  refine ⟨hleaves, losslessAgainst_of_leafTokens hleaves, ?_, hfinished.nested⟩
  rw [CstModule.text, text_eq_join, hleaves]
  exact text_of_streamProblem h

/-- The watched parser and the parser return the same, as long as every prefix list of what one
of them accepts keeps its column. -/
theorem lockstep_parseStream (tables : JunctionTables profile parserProfile)
    (limits : ParserLimits) (source : SourceUnit) (stream : TokenStream) :
    ((parseStreamWith watchedExpression profile parserProfile limits source stream).hasErrors =
        false →
      parseStreamWith watchedExpression profile parserProfile limits source stream =
          parseStream profile parserProfile limits source stream ∧
        JunctionListsKept profile
          (parseStream profile parserProfile limits source stream).cst.root) ∧
      ((parseStream profile parserProfile limits source stream).hasErrors = false →
        JunctionListsKept profile
            (parseStream profile parserProfile limits source stream).cst.root →
          parseStreamWith watchedExpression profile parserProfile limits source stream =
            parseStream profile parserProfile limits source stream) := by
  cases hproblem : streamProblem? source stream with
  -- A stream with a problem is refused before any token is read.
  | some failure =>
    have herrors := hasErrors_streamProblem source stream hproblem
    unfold parseStream
    rw [parseStreamWith_of_some limits _ hproblem, parseStreamWith_of_some limits _ hproblem,
      herrors]
    exact ⟨nofun, nofun⟩
  | none =>
    obtain ⟨forest, forest', hw⟩ := watch_stream tables limits source stream
    have hplain := outcome_parseStream limits parseExpression hproblem hw.ends
    have hwatched := outcome_parseStream limits watchedExpression hproblem hw.ends'
    have hfinished := (finished_parseModule rfl rfl rfl hw.ends hw.post).root
    obtain ⟨range, hroot⟩ := hfinished
    have hkept : JunctionListsKept profile
        (parseStream profile parserProfile limits source stream).cst.root ↔
        Respected profile none forest := by
      unfold parseStream
      rw [parseStreamWith_of_none limits parseExpression hproblem, hroot, junctionListsKept_root]
    have hclean (u : ParserState) : u.outcome.hasErrors = false ↔ ¬ u.Failed := by
      rw [← hasErrors_outcome, Bool.not_eq_true]
    rw [hkept]
    unfold parseStream
    rw [hplain, hwatched, hclean, hclean]
    have hlockstep := hw.lockstep
    have hsame (hrun : (moduleText watchedExpression (streamFuel stream)).run
        (startState profile parserProfile limits source stream) =
        (moduleText parseExpression (streamFuel stream)).run
        (startState profile parserProfile limits source stream)) :
        endState watchedExpression profile parserProfile limits source stream =
          endState parseExpression profile parserProfile limits source stream :=
      congrArg Prod.snd hrun
    constructor
    · intro h
      obtain ⟨hrun, hgood⟩ := hlockstep.sound h
      exact ⟨congrArg _ (hsame hrun), hgood⟩
    · intro h hgood
      exact congrArg _ (hsame (hlockstep.complete h hgood))

/-- The watched parser accepts what the parser accepts with every prefix list in its
columns, and then returns the same. -/
theorem parseStream_watched (tables : JunctionTables profile parserProfile)
    (limits : ParserLimits) (source : SourceUnit) (stream : TokenStream) :
    ((parseStreamWith watchedExpression profile parserProfile limits source stream).hasErrors =
        false ↔
      (parseStream profile parserProfile limits source stream).hasErrors = false ∧
        JunctionListsKept profile
          (parseStream profile parserProfile limits source stream).cst.root) ∧
      ((parseStreamWith watchedExpression profile parserProfile limits source stream).hasErrors =
          false →
        parseStreamWith watchedExpression profile parserProfile limits source stream =
          parseStream profile parserProfile limits source stream) := by
  obtain ⟨hsound, hcomplete⟩ := lockstep_parseStream tables limits source stream
  refine ⟨⟨fun h => ?_, fun h => ?_⟩, fun h => (hsound h).1⟩
  · obtain ⟨hsame, hkept⟩ := hsound h
    rw [← hsame]
    exact ⟨h, hsame ▸ hkept⟩
  · rw [hcomplete h.1 h.2]
    exact h.1

/-! ### A list that leaves its column -/

def sampleToken (kind : TokenKind) (spelling lead : String) (line column : Nat) : Token :=
  let range : SourceRange := ⟨⟨0, line, column⟩, ⟨0, line, column + spelling.length⟩⟩
  { kind
    spelling
    range
    leadingTrivia := if lead.isEmpty then [] else [{ kind := .whitespace, spelling := lead, range }]
    trailingTrivia := [] }

/-- The second bullet continues the implication of the first, not the list. -/
def sampleStream : TokenStream := ⟨[
  sampleToken .moduleHeader "---- MODULE M ----" "" 1 1,
  sampleToken .identifier "Op" "\n" 2 1,
  sampleToken (.symbol ⟨"=="⟩) "==" " " 2 4,
  sampleToken (.symbol ⟨"/\\"⟩) "/\\" "\n  " 3 3,
  sampleToken (.keyword "TRUE") "TRUE" " " 3 6,
  sampleToken (.symbol ⟨"=>"⟩) "=>" " " 3 11,
  sampleToken (.symbol ⟨"/\\"⟩) "/\\" "\n  " 4 3,
  sampleToken (.keyword "FALSE") "FALSE" " " 4 6,
  sampleToken .moduleEnd "====" "\n" 5 1,
  sampleToken .eof "" "\n" 6 1]⟩

def sampleSource : SourceUnit :=
  { logicalPath := "M.tla"
    normalizedText := "---- MODULE M ----\nOp ==\n  /\\ TRUE =>\n  /\\ FALSE\n====\n"
    normalizedUtf8 := ByteArray.empty
    contentSha256 := "" }

theorem parseStream_watched_sample :
    ((parseStreamWith watchedExpression .default .default {} sampleSource sampleStream).hasErrors =
        false ↔
      (parseStream .default .default {} sampleSource sampleStream).hasErrors = false ∧
        JunctionListsKept .default
          (parseStream .default .default {} sampleSource sampleStream).cst.root) ∧
      ((parseStreamWith watchedExpression .default .default {} sampleSource
          sampleStream).hasErrors = false →
        parseStreamWith watchedExpression .default .default {} sampleSource sampleStream =
          parseStream .default .default {} sampleSource sampleStream) :=
  parseStream_watched junctionTables_default {} sampleSource sampleStream

/-- The parser takes the sample without an error, the watched parser does not. -/
example : (parseStream .default .default {} sampleSource sampleStream).hasErrors = false ∧
    (parseStreamWith watchedExpression .default .default {} sampleSource sampleStream).hasErrors =
      true := by decide +kernel

/-! ### Loops -/

theorem parserLoop_eq_repeatM {β : Type} [Nonempty β] {body body' : β → ParserM (ForInStep β)}
    {R : β → ParserState → Prop}
    (h : (reading c).WatchesLoop ParserState.remaining body body' R) (b : β)
    (hs : (reading c).inv s) :
    (parserLoop body b).run s = (repeatM (fun x => turn <$> body x) b).run s :=
  boundedLoop_eq_repeatM h.productive b hs

/-- The setting of a state: its tables and the bullet column around it. -/
def JunctionTables.settingAt {s : ParserState} (tables : JunctionTables s.profile s.parserProfile) :
    Setting :=
  { profile := s.profile
    parserProfile := s.parserProfile
    boundary := s.junctionBoundaryColumn
    tables }

/-- The loops over the arms of a `CASE` and the definitions of a `LET` end by themselves in
every state, those over the declarations of a module and the tokens after it where no list is
open: cut off by the tokens left, they are what they are without a bound. -/
theorem parserLoops_unbounded {s : ParserState} (tables : JunctionTables s.profile s.parserProfile)
    (fuel : Nat) :
    (∀ arms, (parserLoop (caseStep (parseExpression fuel)) arms).run s =
        (repeatM (fun x => turn <$> caseStep (parseExpression fuel) x) arms).run s) ∧
      (∀ definitions, (parserLoop (letStep (parseExpression fuel) fuel) definitions).run s =
        (repeatM (fun x => turn <$> letStep (parseExpression fuel) fuel x) definitions).run s) ∧
      (s.junctionBoundaryColumn = none →
        ((parserLoop (moduleStep parseExpression fuel) ()).run s =
            (repeatM (fun x => turn <$> moduleStep parseExpression fuel x) ()).run s) ∧
          (parserLoop drainStep ()).run s =
            (repeatM (fun x => turn <$> drainStep x) ()).run s) := by
  have hs : (reading tables.settingAt).inv s := ⟨rfl, rfl, rfl⟩
  have hself (fuel level : Nat) : (reading tables.settingAt).Watches (parseExpression fuel level)
      (watchedExpression fuel level) :=
    (watchesOperand_parseExpression (c := tables.settingAt) fuel level _).watches
  refine ⟨fun arms => parserLoop_eq_repeatM (watchesLoop_caseStep (hself fuel)) arms hs,
    fun definitions =>
      parserLoop_eq_repeatM (watchesLoop_letStep (hself fuel) fuel) definitions hs,
    fun hb => ⟨parserLoop_eq_repeatM (watchesLoop_moduleStep hb hself fuel) () hs,
      parserLoop_eq_repeatM (watchesLoop_drainStep hb) () hs⟩⟩

/-- The sample inside a list whose bullets stand at `boundary`, or outside of all. -/
def sampleState (boundary : Option Nat) : ParserState :=
  { startState .default .default {} sampleSource sampleStream with
    junctionBoundaryColumn := boundary }

theorem parserLoops_unbounded_sample :
    ((parserLoop (caseStep (parseExpression 100)) []).run (sampleState (some 3)) =
        (repeatM (fun x => turn <$> caseStep (parseExpression 100) x) []).run
          (sampleState (some 3))) ∧
      ((parserLoop (letStep (parseExpression 100) 100) []).run (sampleState (some 3)) =
        (repeatM (fun x => turn <$> letStep (parseExpression 100) 100 x) []).run
          (sampleState (some 3))) ∧
      ((parserLoop (moduleStep parseExpression 100) ()).run (sampleState none) =
        (repeatM (fun x => turn <$> moduleStep parseExpression 100 x) ()).run (sampleState none)) ∧
      (parserLoop drainStep ()).run (sampleState none) =
        (repeatM (fun x => turn <$> drainStep x) ()).run (sampleState none) := by
  have inner := parserLoops_unbounded (s := sampleState (some 3)) junctionTables_default 100
  have outer := parserLoops_unbounded (s := sampleState none) junctionTables_default 100
  exact ⟨inner.1 [], inner.2.1 [], outer.2.2 rfl⟩

end MirrorsCore.Tla
