import Mathlib
import MirrorsCore.Lib.Watched
import MirrorsCore.Tla.Junctions
import MirrorsCore.Tla.Spans

/-! What a parser step does to the state: it reads a run of tokens, adds trees
over exactly these tokens to the open frame, and keeps the boundary column. -/

namespace MirrorsCore.Tla
open Lib Lib.Monitor CstNode

/-- An error was reported, or a report was refused. -/
def ParserState.Failed (state : ParserState) : Prop :=
  state.diagnostics.hasErrors = true ∨ state.diagnostics.truncated = true

/-- `t` is reached from `s` by reading `leaves`. -/
structure Moves (leaves : List Token) (s t : ParserState) : Prop where
  profile : t.profile = s.profile
  parserProfile : t.parserProfile = s.parserProfile
  tokens : t.tokens = s.tokens
  boundary : t.junctionBoundaryColumn = s.junctionBoundaryColumn
  unread : s.tokens.drop s.position = leaves ++ t.tokens.drop t.position
  position : t.position = s.position + leaves.length
  halted : s.halted = true → t.halted = true
  failed : s.Failed → t.Failed

namespace Moves

theorem refl (s : ParserState) : Moves [] s s := ⟨rfl, rfl, rfl, rfl, rfl, rfl, id, id⟩

theorem trans {front back : List Token} {s t u : ParserState} (h : Moves front s t)
    (h' : Moves back t u) : Moves (front ++ back) s u where
  profile := h'.profile.trans h.profile
  parserProfile := h'.parserProfile.trans h.parserProfile
  tokens := h'.tokens.trans h.tokens
  boundary := h'.boundary.trans h.boundary
  unread := by rw [h.unread, h'.unread, List.append_assoc]
  position := by rw [h'.position, h.position, List.length_append, Nat.add_assoc]
  halted := h'.halted ∘ h.halted
  failed := h'.failed ∘ h.failed

theorem remaining_le {leaves : List Token} {s t : ParserState} (h : Moves leaves s t) :
    t.remaining ≤ s.remaining := by
  unfold ParserState.remaining
  have hhalted : (if t.halted = true then 0 else 1) ≤ if s.halted = true then 0 else 1 := by
    by_cases hs : s.halted = true
    · rw [if_pos (h.halted hs)]
      exact Nat.zero_le _
    · rw [if_neg hs]
      split_ifs <;> decide
  have hposition := h.position
  rw [h.tokens]
  omega

end Moves

def addChildren (frames : List Frame) (forest : List CstNode) : List Frame :=
  forest.foldl pushChild frames

theorem addChildren_append (frames : List Frame) (front back : List CstNode) :
    addChildren frames (front ++ back) = addChildren (addChildren frames front) back :=
  List.foldl_append

theorem addChildren_cons (frame : Frame) (rest : List Frame) (forest : List CstNode) :
    addChildren (frame :: rest) forest =
      { frame with children := frame.children ++ forest } :: rest := by
  induction forest generalizing frame with
  | nil =>
    rw [List.append_nil]
    rfl
  | cons child forest ih =>
    change addChildren ({ frame with children := frame.children ++ [child] } :: rest) forest = _
    rw [ih, List.append_assoc]
    rfl

/-- The unread tokens are in order behind the last token read. -/
def ParserState.Ordered (state : ParserState) : Prop :=
  TokensFrom state.lastStop.offset (state.tokens.drop state.position)

/-- Over ordered tokens, what is added to the open frame lies between the two states. -/
def Spans (forest : List CstNode) (s t : ParserState) : Prop :=
  s.Ordered → t.Ordered ∧ Within s.lastStop.offset t.lastStop.offset forest

theorem spans_nil {s t : ParserState} (htokens : t.tokens = s.tokens)
    (hposition : t.position = s.position) (hstop : t.lastStop = s.lastStop) : Spans [] s t := by
  intro h
  unfold ParserState.Ordered
  rw [htokens, hposition, hstop]
  exact ⟨h, le_rfl⟩

theorem Spans.trans {front back : List CstNode} {s t u : ParserState} (h : Spans front s t)
    (h' : Spans back t u) : Spans (front ++ back) s u := by
  intro hs
  obtain ⟨ht, hfront⟩ := h hs
  obtain ⟨hu, hback⟩ := h' ht
  exact ⟨hu, hfront.append hback⟩

/-- `t` is reached from `s` by adding `forest` to the open frame. -/
structure Extends (forest : List CstNode) (s t : ParserState) : Prop where
  moves : Moves (leafTokensList forest) s t
  frames : t.frames = addChildren s.frames forest
  spans : Spans forest s t

theorem Extends.refl (s : ParserState) : Extends [] s s :=
  ⟨Moves.refl s, rfl, spans_nil rfl rfl rfl⟩

theorem Extends.silent {s t : ParserState}
    (h : t = { s with
      nesting := t.nesting
      declarations := t.declarations
      declarationCount := t.declarationCount
      moduleName := t.moduleName
      moduleRange := t.moduleRange }) : Extends [] s t := by
  rw [h]
  exact ⟨⟨rfl, rfl, rfl, rfl, rfl, rfl, id, id⟩, rfl, spans_nil rfl rfl rfl⟩

theorem Extends.trans {front back : List CstNode} {s t u : ParserState} (h : Extends front s t)
    (h' : Extends back t u) : Extends (front ++ back) s u where
  moves := by
    rw [leafTokensList_append]
    exact h.moves.trans h'.moves
  frames := by rw [h'.frames, h.frames, addChildren_append]
  spans := h.spans.trans h'.spans

/-! ### Consuming a token -/

theorem extends_consume {s : ParserState} {token : Token}
    (h : s.tokens[s.position]? = some token) : Extends [.token token] s (s.consume token) := by
  obtain ⟨hlt, htoken⟩ := List.getElem?_eq_some_iff.1 h
  have hunread : s.tokens.drop s.position = token :: s.tokens.drop (s.position + 1) := by
    rw [List.drop_eq_getElem_cons hlt, htoken]
  refine ⟨⟨rfl, rfl, rfl, rfl, ?_, rfl, id, id⟩, rfl, fun hs => ?_⟩
  · rw [leafTokensList_singleton, hunread]
    rfl
  · unfold ParserState.Ordered at hs
    rw [hunread] at hs
    obtain ⟨hstart, hrange, hrest⟩ := hs
    exact ⟨hrest, hstart, hrange, rfl, le_rfl⟩

theorem remaining_consume {s : ParserState} {token : Token}
    (h : s.tokens[s.position]? = some token) : (s.consume token).remaining < s.remaining := by
  obtain ⟨hlt, -⟩ := List.getElem?_eq_some_iff.1 h
  unfold ParserState.remaining ParserState.consume
  dsimp only
  omega

theorem after_advance {s : ParserState} {token : Token} (h : s.tokens[s.position]? = some token)
    (heof : token.kind.isEof = false) : after advance s = s.consume token := by
  unfold advance
  rw [after_bind, value_get, after_get, h]
  dsimp only
  rw [heof]
  rfl

theorem after_advance_of_none {s : ParserState} (h : s.tokens[s.position]? = none) :
    after advance s = s := by
  unfold advance
  rw [after_bind, value_get, after_get, h]
  rfl

theorem after_advance_of_eof {s : ParserState} {token : Token}
    (h : s.tokens[s.position]? = some token) (heof : token.kind.isEof = true) :
    after advance s = s := by
  unfold advance
  rw [after_bind, value_get, after_get, h]
  dsimp only
  rw [heof]
  rfl

/-! ### The monitor of a parser run -/

/-- The tables of a run and the bullet column around it. -/
structure Setting where
  profile : LanguageProfile
  parserProfile : ParserProfile
  boundary : Option Nat
  tables : JunctionTables profile parserProfile

/-- Runs in one setting, watched for the column rule. -/
def reading (c : Setting) : Monitor ParserState CstNode where
  inv s := s.profile = c.profile ∧ s.parserProfile = c.parserProfile ∧
    s.junctionBoundaryColumn = c.boundary
  emits := Extends
  failed := ParserState.Failed
  good := Respected c.profile c.boundary
  emits_nil := Extends.refl
  emits_append := Extends.trans
  inv_of_emits := by
    rintro forest s t h ⟨hprofile, hparser, hboundary⟩
    exact ⟨h.moves.profile.trans hprofile, h.moves.parserProfile.trans hparser,
      h.moves.boundary.trans hboundary⟩
  failed_of_emits h := h.moves.failed
  good_nil := respected_nil
  good_append := respected_append

variable {c : Setting} {profile : LanguageProfile} {α β : Type} {s t : ParserState}

theorem remaining_le_of_later (h : (reading c).Later s t) :
    t.remaining ≤ s.remaining := by
  obtain ⟨forest, hforest⟩ := h
  exact hforest.moves.remaining_le

/-- A run that ends by closing the open frame. -/
def closing (c : Setting) : Ending (reading c) where
  ends forest s t := Moves (leafTokensList forest) s t ∧
    t.frames = wrapTop (addChildren s.frames forest) ∧ Spans forest s t
  prepend := by
    rintro front back s t u h ⟨hmoves, hframes, hspans⟩
    refine ⟨?_, ?_, h.spans.trans hspans⟩
    · rw [leafTokensList_append]
      exact h.moves.trans hmoves
    · rw [hframes, h.frames, addChildren_append]
  failed_of_ends h := h.1.failed

/-! ### Reads -/

theorem reads_peek? : Reads peek? := fun _ => rfl

theorem reads_peekAt? (offset : Nat) : Reads (peekAt? offset) := fun _ => rfl

theorem reads_currentRange : Reads currentRange := fun s => by
  unfold currentRange
  rw [after_bind, value_get, after_get]
  cases s.tokens[s.position]? <;> rfl

theorem reads_currentStop : Reads currentStop := fun _ => rfl

theorem reads_position : Reads position := fun _ => rfl

theorem reads_halted? : Reads halted? := fun _ => rfl

theorem reads_profileOf : Reads profileOf := fun _ => rfl

theorem reads_parserProfileOf : Reads parserProfileOf := fun _ => rfl

theorem reads_peekSymbol (canonical : String) : Reads (peekSymbol canonical) := by
  unfold peekSymbol
  refine reads_profileOf.bind fun profile => reads_peek?.bind fun token? => ?_
  cases token? <;> exact reads_pure _

theorem reads_peekKeyword (canonical : String) : Reads (peekKeyword canonical) := by
  unfold peekKeyword
  refine reads_peek?.bind fun token? => ?_
  cases token? <;> exact reads_pure _

theorem reads_atJunctionBoundary : Reads atJunctionBoundary := fun s => by
  unfold atJunctionBoundary
  rw [after_bind, value_get, after_get]
  cases s.junctionBoundaryColumn <;> cases s.tokens[s.position]? <;> rfl

theorem reads_nextInfixAt? (level : Nat) : Reads (nextInfixAt? level) := fun s => by
  unfold nextInfixAt?
  rw [after_bind, value_get, after_get]
  cases s.tokens[s.position]? with
  | none => rfl
  | some token =>
    dsimp only
    cases infixOperatorOf? s.parserProfile s.profile token <;> rfl

theorem value_peekSymbol {canonical : String} (h : value (peekSymbol canonical) s = true) :
    ∃ token, s.tokens[s.position]? = some token ∧
      isSymbolToken s.profile token canonical = true := by
  have hpeek : value peek? (after profileOf s) = s.tokens[s.position]? := rfl
  unfold peekSymbol at h
  rw [value_bind, value_bind, hpeek] at h
  cases htoken : s.tokens[s.position]? with
  | none =>
    rw [htoken] at h
    exact absurd h Bool.false_ne_true
  | some token =>
    rw [htoken] at h
    exact ⟨token, rfl, h⟩

theorem value_peekKeyword {canonical : String} (h : value (peekKeyword canonical) s = true) :
    ∃ token, s.tokens[s.position]? = some token ∧ token.kind.isKeyword canonical = true := by
  have hpeek : value peek? s = s.tokens[s.position]? := rfl
  unfold peekKeyword at h
  rw [value_bind, hpeek] at h
  cases htoken : s.tokens[s.position]? with
  | none =>
    rw [htoken] at h
    exact absurd h Bool.false_ne_true
  | some token =>
    rw [htoken] at h
    exact ⟨token, rfl, h⟩

/-! ### Watching the primitives -/

theorem watch_advance (h : ∀ token ∈ s.tokens[s.position]?, Beyond c.profile c.boundary token) :
    (reading c).Watch s advance advance fun _ t =>
      ∀ token ∈ s.tokens[s.position]?, token.kind.isEof = false → t.remaining < s.remaining := by
  cases htoken : s.tokens[s.position]? with
  | none =>
    refine watch_silent ?_ nofun
    rw [after_advance_of_none htoken]
    exact Extends.refl s
  | some token =>
    cases heof : token.kind.isEof with
    | true =>
      refine watch_silent ?_ ?_
      · rw [after_advance_of_eof htoken heof]
        exact Extends.refl s
      · rintro _ ⟨⟩ hfalse
        rw [heof] at hfalse
        exact absurd hfalse.symm Bool.false_ne_true
    | false =>
      refine watch_self [.token token] ?_ (fun _ => respected_token.2 (h token htoken)) ?_
      · rw [after_advance htoken heof]
        exact extends_consume htoken
      · intro _ _ _
        rw [after_advance htoken heof]
        exact remaining_consume htoken

theorem watch_advance_of {token : Token} (h : s.tokens[s.position]? = some token)
    (hjunction : isJunction c.profile token = false) (heof : token.kind.isEof = false) :
    (reading c).Watch s advance advance fun _ t =>
      t.remaining < s.remaining := by
  refine (watch_advance fun other hother => ?_).mono fun _ t ht => ht token h heof
  obtain rfl : token = other := Option.some.inj (h.symm.trans hother)
  exact beyond_of_not_junction hjunction

/-- Outside every list any token may be consumed. -/
theorem watches_advance (h : c.boundary = none) : (reading c).Watches advance advance :=
  fun _ _ => (watch_advance fun _ _ => h ▸ beyond_none).mono fun _ _ _ => trivial

theorem isJunction_of_symbolOf {token : Token} {spelling : String}
    (h : symbolOf? profile token = some spelling) :
    isJunction profile token = isJunctionSpelling spelling := by
  unfold isJunction
  rw [h]

theorem isJunction_of_none {token : Token} (h : symbolOf? profile token = none) :
    isJunction profile token = false := by
  unfold isJunction
  rw [h]

theorem isEof_of_symbolOf {token : Token} {spelling : String}
    (h : symbolOf? profile token = some spelling) : token.kind.isEof = false := by
  unfold symbolOf? at h
  cases hkind : token.kind <;> rw [hkind] at h <;> first | rfl | cases h

theorem symbolOf_of_isSymbolToken {token : Token} {canonical : String}
    (h : isSymbolToken profile token canonical = true) :
    symbolOf? profile token = some canonical := by
  unfold isSymbolToken at h
  cases hsymbol : symbolOf? profile token with
  | none =>
    rw [hsymbol] at h
    exact absurd h Bool.false_ne_true
  | some spelling =>
    rw [hsymbol] at h
    rw [beq_iff_eq.1 h]

theorem kind_of_isKeyword {kind : TokenKind} {canonical : String}
    (h : kind.isKeyword canonical = true) : kind = .keyword canonical := by
  cases kind with
  | keyword spelling => rw [beq_iff_eq.1 h]
  | _ => exact absurd h Bool.false_ne_true

theorem kind_of_identifierOf {token : Token} {name : String}
    (h : identifierOf? token = some name) : token.kind = .identifier := by
  unfold identifierOf? at h
  cases hkind : token.kind <;> rw [hkind] at h <;> first | rfl | cases h

theorem kind_of_keywordOf {token : Token} {keyword : String}
    (h : keywordOf? token = some keyword) : token.kind = .keyword keyword := by
  unfold keywordOf? at h
  cases hkind : token.kind with
  | keyword spelling =>
    rw [hkind] at h
    rw [Option.some.inj h]
  | _ =>
    rw [hkind] at h
    cases h

theorem isJunction_of_kind {token : Token} (h : ∀ symbol, token.kind ≠ .symbol symbol) :
    isJunction profile token = false := by
  refine isJunction_of_none ?_
  unfold symbolOf?
  cases hkind : token.kind with
  | symbol symbol => exact absurd hkind (h symbol)
  | _ => rfl

theorem watch_consumeSymbol {canonical : String} (hs : s.profile = c.profile)
    (hcanonical : isJunctionSpelling canonical = false) :
    (reading c).Watch s (consumeSymbol canonical)
      (consumeSymbol canonical) fun ok t => ok = true → t.remaining < s.remaining := by
  unfold consumeSymbol
  refine WatchTo.reads (reads_peekSymbol canonical) fun found hfound => WatchTo.ite ?_ ?_
  · intro htrue
    obtain ⟨token, htoken, hsymbol⟩ := value_peekSymbol (hfound.symm.trans htrue)
    rw [hs] at hsymbol
    have hspelling := symbolOf_of_isSymbolToken hsymbol
    have hjunction := (isJunction_of_symbolOf hspelling).trans hcanonical
    exact (watch_advance_of htoken hjunction (isEof_of_symbolOf hspelling)).bind
      fun _ t _ ht => watch_pure fun _ => ht
  · exact fun _ => watch_pure fun h => absurd h Bool.false_ne_true

theorem watches_consumeSymbol {canonical : String}
    (hcanonical : isJunctionSpelling canonical = false) :
    (reading c).Watches (consumeSymbol canonical)
      (consumeSymbol canonical) := fun _ hs =>
  (watch_consumeSymbol hs.1 hcanonical).mono fun _ _ _ => trivial

theorem watch_consumeKeyword (canonical : String) :
    (reading c).Watch s (consumeKeyword canonical)
      (consumeKeyword canonical) fun ok t => ok = true → t.remaining < s.remaining := by
  unfold consumeKeyword
  refine WatchTo.reads (reads_peekKeyword canonical) fun found hfound => WatchTo.ite ?_ ?_
  · intro htrue
    obtain ⟨token, htoken, hkeyword⟩ := value_peekKeyword (hfound.symm.trans htrue)
    have hkind := kind_of_isKeyword hkeyword
    have hjunction : isJunction c.profile token = false :=
      isJunction_of_kind fun symbol => by rw [hkind]; exact nofun
    have heof : token.kind.isEof = false := by rw [hkind]; rfl
    exact (watch_advance_of htoken hjunction heof).bind fun _ t _ ht => watch_pure fun _ => ht
  · exact fun _ => watch_pure fun h => absurd h Bool.false_ne_true

theorem watches_consumeKeyword (canonical : String) :
    (reading c).Watches (consumeKeyword canonical)
      (consumeKeyword canonical) := fun _ _ =>
  (watch_consumeKeyword canonical).mono fun _ _ _ => trivial

/-! ### Diagnostics -/

theorem failed_after_emitError (code message : String) (range : SourceRange) :
    (after (emitError code message range) s).Failed :=
  DiagnosticBuffer.hasErrors_or_truncated_push rfl

theorem watch_emitError (code message : String) (range : SourceRange) :
    (reading c).Watch s (emitError code message range)
      (emitError code message range) fun _ t => t.Failed :=
  have hfailed := failed_after_emitError code message range
  watch_silent
    ⟨⟨rfl, rfl, rfl, rfl, rfl, rfl, id, fun _ => hfailed⟩, rfl, spans_nil rfl rfl rfl⟩ hfailed

theorem watches_emitError (code message : String) (range : SourceRange) :
    (reading c).Watches (emitError code message range)
      (emitError code message range) := fun _ _ =>
  (watch_emitError code message range).mono fun _ _ _ => trivial

theorem watches_haltParser :
    (reading c).Watches haltParser haltParser := fun _ _ =>
  watch_silent
    ⟨⟨rfl, rfl, rfl, rfl, rfl, rfl, fun _ => rfl, id⟩, rfl, spans_nil rfl rfl rfl⟩ trivial

theorem watches_emitLimit (code message : String) (range : SourceRange) :
    (reading c).Watches (emitLimit code message range)
      (emitLimit code message range) := by
  unfold emitLimit
  exact (watches_emitError code message range).bind fun _ => watches_haltParser

theorem watches_expectSymbol {canonical : String}
    (hcanonical : isJunctionSpelling canonical = false) :
    (reading c).Watches (expectSymbol canonical)
      (expectSymbol canonical) := by
  unfold expectSymbol
  refine (watches_consumeSymbol hcanonical).bind fun ok => Watches.ite (watches_pure _) ?_
  intro s hs
  refine WatchTo.reads reads_currentRange fun range _ => ?_
  exact (watches_emitError _ _ range).bind (fun _ => watches_pure _) s hs

theorem watches_expectKeyword (canonical : String) :
    (reading c).Watches (expectKeyword canonical)
      (expectKeyword canonical) := by
  unfold expectKeyword
  refine (watches_consumeKeyword canonical).bind fun ok => Watches.ite (watches_pure _) ?_
  intro s hs
  refine WatchTo.reads reads_currentRange fun range _ => ?_
  exact (watches_emitError _ _ range).bind (fun _ => watches_pure _) s hs

theorem isJunction_of_identifierOf {token : Token} {name : String}
    (h : identifierOf? token = some name) : isJunction profile token = false :=
  isJunction_of_kind fun symbol => by rw [kind_of_identifierOf h]; exact nofun

theorem isEof_of_identifierOf {token : Token} {name : String}
    (h : identifierOf? token = some name) : token.kind.isEof = false := by
  rw [kind_of_identifierOf h]
  rfl

theorem watches_consumeIdentifier :
    (reading c).Watches consumeIdentifier consumeIdentifier := by
  intro s _
  unfold consumeIdentifier
  refine WatchTo.reads reads_peek? fun token? hpeek => ?_
  cases token? with
  | none => exact watch_pure trivial
  | some token =>
    cases hname : identifierOf? token with
    | none =>
      dsimp only
      rw [hname]
      exact watch_pure trivial
    | some name =>
      dsimp only
      rw [hname]
      exact (watch_advance_of hpeek.symm (isJunction_of_identifierOf hname)
        (isEof_of_identifierOf hname)).bind fun _ _ _ _ => watch_pure trivial

theorem watches_expectName :
    (reading c).Watches expectName expectName := by
  intro s hs
  unfold expectName
  refine WatchTo.reads reads_peek? fun token? hpeek => ?_
  cases token? with
  | none =>
    refine WatchTo.reads reads_currentRange fun range _ => ?_
    exact (watches_emitError _ _ range).bind (fun _ => watches_pure _) s hs
  | some token =>
    dsimp only
    cases hname : identifierOf? token with
    | none => exact (watches_emitError _ _ token.range).bind (fun _ => watches_pure _) s hs
    | some name =>
      exact (watch_advance_of hpeek.symm (isJunction_of_identifierOf hname)
        (isEof_of_identifierOf hname)).bind fun _ _ _ _ => watch_pure trivial

/-! ### Nesting and frames -/

theorem watches_withNesting {m m' : ParserM α}
    (h : (reading c).Watches m m') (opening : SourceRange) :
    (reading c).Watches (withNesting opening m)
      (withNesting opening m') := by
  intro s hs
  unfold withNesting
  refine WatchTo.reads (fun _ => rfl) fun state hstate => WatchTo.ite (fun _ => ?_) fun _ => ?_
  · exact (watches_emitLimit _ _ opening).bind (fun _ => watches_pure _) s hs
  · obtain rfl : state = s := hstate
    refine WatchTo.bind (Q := fun _ _ => True) (watch_silent (Extends.silent rfl) trivial) ?_
    intro _ t hst _
    refine h.andThen (hst.inv hs) fun result u _ _ => ?_
    refine WatchTo.bind (Q := fun _ _ => True) (watch_silent (Extends.silent rfl) trivial) ?_
    exact fun _ _ _ _ => watch_pure trivial

theorem extends_node {kind : CstKind} {forest : List CstNode}
    (h : (closing c).ends forest (after (openFrame kind) s) t) :
    Extends [.node kind (nodeRange ⟨s.lastStop, s.lastStop⟩ forest) forest] s t := by
  obtain ⟨hmoves, hframes, hspans⟩ := h
  have hopen : (after (openFrame kind) s).frames =
      { kind, fallback := ⟨s.lastStop, s.lastStop⟩ } :: s.frames := rfl
  refine ⟨?_, ?_, fun hs => ?_⟩
  · rw [leafTokensList_singleton, leafTokens]
    exact ⟨hmoves.profile, hmoves.parserProfile, hmoves.tokens, hmoves.boundary, hmoves.unread,
      hmoves.position, hmoves.halted, hmoves.failed⟩
  · rw [hframes, hopen, addChildren_cons]
    rfl
  · obtain ⟨ht, hwithin⟩ := hspans hs
    exact ⟨ht, hwithin.node rfl rfl⟩

theorem extends_closing {forest : List CstNode} (h : Extends forest s t) :
    (closing c).ends forest s (after closeFrame t) := by
  obtain ⟨hmoves, hframes, hspans⟩ := h
  refine ⟨⟨hmoves.profile, hmoves.parserProfile, hmoves.tokens, hmoves.boundary, hmoves.unread,
    hmoves.position, hmoves.halted, hmoves.failed⟩, ?_, hspans⟩
  rw [← hframes]
  rfl

/-- A frame that is opened and then closed is one node. -/
theorem watches_openFrame {kind : CstKind} {m m' : ParserM α} (hkind : kind ≠ .expression)
    (h : ∀ s, (reading c).inv s →
      WatchTo (closing c) s m m' fun _ _ => True) :
    (reading c).Watches (openFrame kind >>= fun _ => m)
      (openFrame kind >>= fun _ => m') := by
  intro s hs
  obtain ⟨forest, forest', hw⟩ := h (after (openFrame kind) s) hs
  refine ⟨_, _, extends_node hw.ends, extends_node hw.ends', trivial, trivial, ?_⟩
  exact hw.lockstep.afterStep.convert fun _ => (respected_node_of_kind hkind).symm

theorem watch_closeFrame {f : PUnit → ParserM α} (hf : ∀ a, Reads (f a)) :
    WatchTo (closing c) s (closeFrame >>= f) (closeFrame >>= f)
      fun _ _ => True := by
  refine watch_silent ?_ trivial
  rw [after_bind, hf]
  exact extends_closing (Extends.refl s)

end MirrorsCore.Tla
