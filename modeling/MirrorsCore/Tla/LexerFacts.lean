import Mathlib
import MirrorsCore.Tla.TokenSteps

/-! What the lexer accepts. The tokens of an accepted source, with their trivia,
tile its text: nothing is lost or read twice, and every offset, line and column
is that of the text. -/

namespace MirrorsCore.Tla
open Lib

variable {cs : List Char} {context : LexContext} {i j k : Nat} {c : Char}

/-! ### Silent buffers -/

/-- Nothing was reported, not even to a budget. -/
structure DiagnosticBuffer.Silent (buffer : DiagnosticBuffer) : Prop where
  noErrors : buffer.hasErrors = false
  notTruncated : buffer.truncated = false

section Buffers
variable {limits : DiagnosticLimits} {buffer : DiagnosticBuffer} {d : Diagnostic}

theorem not_silent_push (h : d.hasErrorSeverity = true) :
    ¬ (buffer.push limits d).Silent := by
  intro hsilent
  have hpushed : (buffer.push limits d).hasErrors = true ∨ (buffer.push limits d).truncated = true :=
    DiagnosticBuffer.hasErrors_or_truncated_push h
  rcases hpushed with herror | htruncated
  · exact Bool.noConfusion (herror.symm.trans hsilent.noErrors)
  · exact Bool.noConfusion (htruncated.symm.trans hsilent.notTruncated)

theorem truncated_push (h : buffer.truncated = true) :
    (buffer.push limits d).truncated = true := by
  unfold DiagnosticBuffer.truncated at h ⊢
  rw [decide_eq_true_eq] at h ⊢
  unfold DiagnosticBuffer.push
  dsimp only
  split
  · exact Nat.succ_pos _
  · exact h

theorem silent_of_push (h : (buffer.push limits d).Silent) : buffer.Silent := by
  refine ⟨?_, ?_⟩
  · by_contra herror
    have hpushed : (buffer.push limits d).hasErrors = true :=
      DiagnosticBuffer.hasErrors_push (Bool.eq_true_of_not_eq_false herror)
    exact Bool.noConfusion (hpushed.symm.trans h.noErrors)
  · by_contra htruncated
    have hpushed : (buffer.push limits d).truncated = true :=
      truncated_push (Bool.eq_true_of_not_eq_false htruncated)
    exact Bool.noConfusion (hpushed.symm.trans h.notTruncated)

theorem silent_of_foldl_push {diagnostics : List Diagnostic}
    (h : (diagnostics.foldl (DiagnosticBuffer.push limits) buffer).Silent) : buffer.Silent := by
  induction diagnostics generalizing buffer with
  | nil => exact h
  | cons d diagnostics ih => exact silent_of_push (ih h)

theorem nil_of_foldl_push {diagnostics : List Diagnostic} (herrors : OnlyErrors diagnostics)
    (h : (diagnostics.foldl (DiagnosticBuffer.push limits) buffer).Silent) : diagnostics = [] := by
  cases diagnostics with
  | nil => rfl
  | cons d diagnostics =>
    rw [List.foldl_cons] at h
    exact absurd (silent_of_foldl_push h) (not_silent_push (herrors d List.mem_cons_self))

end Buffers

/-! ### Source pre-scan -/

def PlainText (bytes : ByteArray) : Prop :=
  ∃ cs, bytes.data.toList = encodeChars cs ∧ ∀ c ∈ cs, isControlScalar c = false

theorem encodeChars_injective {front back : List Char} (h : encodeChars front = encodeChars back) :
    front = back := by
  rw [← toList_toUTF8_ofList, ← toList_toUTF8_ofList, Array.toList_inj] at h
  have hbytes : (String.ofList front).toByteArray = (String.ofList back).toByteArray :=
    ByteArray.ext h
  exact String.ofList_injective (String.toByteArray_inj.1 hbytes)

/-- The bytes before the offset are plain, or a problem is on record. -/
structure ProblemScan.Sound (bytes : ByteArray) (scan : ProblemScan) : Prop where
  plain : scan.buffer.Silent → scan.offset ≤ bytes.size ∧ ∃ front,
    bytes.data.toList = encodeChars front ++ bytes.data.toList.drop scan.offset ∧
      ∀ c ∈ front, isControlScalar c = false
  refuted : ¬ scan.buffer.Silent → ¬ PlainText bytes
  errors : OnlyErrors scan.buffer.diagnostics

theorem exists_rest_of_plain {bytes : ByteArray} {front : List Char} {offset : Nat}
    (hsplit : bytes.data.toList = encodeChars front ++ bytes.data.toList.drop offset)
    (hplain : PlainText bytes) :
    ∃ rest, bytes.data.toList.drop offset = encodeChars rest ∧
      ∀ c ∈ rest, isControlScalar c = false := by
  obtain ⟨cs, hcs, hcontrol⟩ := hplain
  obtain ⟨rest, hrest⟩ := exists_rest_of_prefix hsplit hcs
  refine ⟨rest, hrest, fun c hc => hcontrol c ?_⟩
  rw [hrest, ← encodeChars_append, hcs] at hsplit
  rw [encodeChars_injective hsplit]
  exact List.mem_append_right _ hc

theorem onlyErrors_push {limits : DiagnosticLimits} {buffer : DiagnosticBuffer} {d : Diagnostic}
    (hbuffer : OnlyErrors buffer.diagnostics) (h : d.hasErrorSeverity = true) :
    OnlyErrors (buffer.push limits d).diagnostics := by
  unfold DiagnosticBuffer.push
  dsimp only
  split
  · exact hbuffer
  · exact hbuffer.append (onlyErrors_singleton h)

theorem sound_problemStep (limits : LexerLimits) (source : SourceUnit) {scan : ProblemScan}
    (hscan : scan.Sound source.normalizedUtf8) (hlt : scan.offset < source.normalizedUtf8.size) :
    (problemStep limits source scan).Sound source.normalizedUtf8 ∧
      scan.offset < (problemStep limits source scan).offset := by
  unfold problemStep
  cases hdecode : decodeUtf8At source.normalizedUtf8 scan.offset with
  | ok decoded =>
    obtain ⟨hpos, hle⟩ := add_width_le hdecode
    have hdrop := (decodeUtf8At_iff.1
      (show _ = Except.ok (decoded.1, decoded.2) from hdecode)).1
    refine ⟨?_, Nat.lt_add_of_pos_right hpos⟩
    dsimp only
    by_cases hcontrol : isControlScalar decoded.1 = true
    · rw [if_pos hcontrol]
      refine ⟨fun hsilent => absurd hsilent (not_silent_push rfl), fun _ hplain => ?_,
        onlyErrors_push hscan.errors rfl⟩
      by_cases hsilent : scan.buffer.Silent
      · -- The control scalar is the first of the rest.
        obtain ⟨-, front, hfront, -⟩ := hscan.plain hsilent
        obtain ⟨rest, hrest, hall⟩ := exists_rest_of_plain hfront hplain
        cases rest with
        | nil =>
          rw [encodeChars_nil, List.drop_eq_nil_iff, ← size_eq_length] at hrest
          omega
        | cons c rest =>
          rw [encodeChars_cons] at hrest
          rw [← scalar_unique _ hrest hdrop, hall c List.mem_cons_self] at hcontrol
          cases hcontrol
      · exact hscan.refuted hsilent hplain
    · rw [if_neg hcontrol]
      refine ⟨fun hsilent => ⟨hle, ?_⟩, hscan.refuted, hscan.errors⟩
      obtain ⟨-, front, hfront, hall⟩ := hscan.plain hsilent
      refine ⟨front ++ [decoded.1], ?_, ?_⟩
      · rw [encodeChars_append, encodeChars_cons, encodeChars_nil, List.append_nil]
        exact drop_add hdrop hfront
      · intro c hc
        rcases List.mem_append.1 hc with hc | hc
        · exact hall c hc
        · rw [List.mem_singleton.1 hc]
          exact Bool.eq_false_of_not_eq_true hcontrol
  | error problem =>
    refine ⟨⟨fun hsilent => absurd hsilent (not_silent_push rfl), fun _ hplain => ?_,
      onlyErrors_push hscan.errors rfl⟩, Nat.lt_succ_self _⟩
    by_cases hsilent : scan.buffer.Silent
    · obtain ⟨-, front, hfront, -⟩ := hscan.plain hsilent
      obtain ⟨rest, hrest, -⟩ := exists_rest_of_plain hfront hplain
      cases rest with
      | nil =>
        rw [encodeChars_nil, List.drop_eq_nil_iff, ← size_eq_length] at hrest
        omega
      | cons c rest =>
        rw [encodeChars_cons] at hrest
        rw [decodeUtf8At_of_decoded (decoded_of_drop hrest)] at hdecode
        cases hdecode
    · exact hscan.refuted hsilent hplain

theorem sound_scanSourceProblems (limits : LexerLimits) (source : SourceUnit) :
    ((scanSourceProblems limits source).Silent ↔ PlainText source.normalizedUtf8) ∧
      OnlyErrors (scanSourceProblems limits source).diagnostics := by
  have hloop := whileLoop_spec (ProblemScan.Sound source.normalizedUtf8)
    (fun scan => source.normalizedUtf8.size - scan.offset)
    (fun scan => scan.offset < source.normalizedUtf8.size && !scan.buffer.truncated)
    (problemStep limits source) {} ?_
    ⟨fun _ => ⟨Nat.zero_le _, [], rfl, nofun⟩, fun h => absurd ⟨rfl, rfl⟩ h, onlyErrors_nil⟩
  · unfold scanSourceProblems
    dsimp only
    generalize whileLoop _ _ _ _ = scan at hloop ⊢
    obtain ⟨hsound, hdone⟩ := hloop
    refine ⟨⟨fun hsilent => ?_, fun hplain => ?_⟩, hsound.errors⟩
    · obtain ⟨hle, front, hfront, hall⟩ := hsound.plain hsilent
      rw [hsilent.notTruncated, Bool.not_false, Bool.and_true, decide_eq_false_iff_not] at hdone
      rw [List.drop_eq_nil_of_le (Nat.le_of_not_lt hdone), List.append_nil] at hfront
      exact ⟨front, hfront, hall⟩
    · by_contra hsilent
      exact hsound.refuted hsilent hplain
  · intro scan hscan htest
    rw [Bool.and_eq_true, decide_eq_true_eq] at htest
    obtain ⟨hsound, hmoved⟩ := sound_problemStep limits source hscan htest.1
    exact ⟨hsound, Nat.sub_lt_sub_left htest.1 hmoved⟩

/-- The pre-scan reports errors only, so it is silent when it reports nothing. -/
theorem silent_scanSourceProblems_iff (limits : LexerLimits) (source : SourceUnit) :
    ((scanSourceProblems limits source).diagnostics = [] ∧
      (scanSourceProblems limits source).truncated = false) ↔
        (scanSourceProblems limits source).Silent := by
  obtain ⟨-, herrors⟩ := sound_scanSourceProblems limits source
  constructor
  · rintro ⟨hnil, htruncated⟩
    refine ⟨?_, htruncated⟩
    unfold DiagnosticBuffer.hasErrors
    rw [hnil]
    rfl
  · intro hsilent
    refine ⟨?_, hsilent.notTruncated⟩
    have hnone := hsilent.noErrors
    unfold DiagnosticBuffer.hasErrors at hnone
    refine List.eq_nil_iff_forall_not_mem.2 fun d hd => ?_
    exact List.any_eq_false.1 hnone d hd (herrors d hd)

/-- The pre-scan passes exactly the encodings of texts without control scalars. -/
theorem scanSourceProblems_iff (limits : LexerLimits) (source : SourceUnit) :
    ((scanSourceProblems limits source).diagnostics = [] ∧
      (scanSourceProblems limits source).truncated = false) ↔ PlainText source.normalizedUtf8 :=
  (silent_scanSourceProblems_iff limits source).trans (sound_scanSourceProblems limits source).1

/-! ### Tiles of tokens -/

def tokenTiles (token : Token) : List (String × SourceRange) :=
  token.leadingTrivia.map triviaTile ++
    ((token.spelling, token.range) :: token.trailingTrivia.map triviaTile)

/-- A stream as the texts it is made of, in order. -/
def TokenStream.tiles (stream : TokenStream) : List (String × SourceRange) :=
  stream.tokens.flatMap tokenTiles

def LexState.tiles (state : LexState) : List (String × SourceRange) :=
  state.flush.flatMap tokenTiles ++ state.pendingLeading.map triviaTile

/-- All trivia of a token have the text of their kind. -/
def Token.TriviaSpells (token : Token) : Prop :=
  ∀ item ∈ token.leadingTrivia ++ token.trailingTrivia, item.Spells

def TokenSpells (profile : LexicalProfile) (token : Token) : Prop :=
  Spelled profile token.kind token.spelling ∧ token.TriviaSpells

/-- The state over the text in front of its index. -/
structure LexState.Exact (cs : List Char) (profile : LexicalProfile) (state : LexState) : Prop where
  position : (state.line, state.column) = lineColumn cs state.index
  tiles : Tiles cs 0 state.index state.tiles
  spells : ∀ token ∈ state.flush, TokenSpells profile token
  pending : ∀ item ∈ state.pendingLeading, item.Spells
  bare : ∀ token, state.previous = some token →
    token.trailingTrivia = [] ∧ state.pendingLeading = []

/-! Trivia. -/

theorem flush_attach (state : LexState) (items : List Trivia) :
    (state.attach items).previous = none ∧ (state.attach items).index = state.index ∧
      (state.attach items).buffer = state.buffer ∧ (state.attach items).aborted = state.aborted := by
  unfold LexState.attach
  cases state.previous <;> exact ⟨rfl, rfl, rfl, rfl⟩

theorem tiles_attach {profile : LexicalProfile} {state : LexState} (items : List Trivia)
    (h : state.Exact cs profile) :
    (state.attach items).tiles = state.tiles ++ items.map triviaTile := by
  have hsplit : items.takeWhile (fun item => item.kind != .newline) ++
      items.dropWhile (fun item => item.kind != .newline) = items := List.takeWhile_append_dropWhile
  conv_rhs => rw [← hsplit, List.map_append]
  have hbare := h.bare
  unfold LexState.attach LexState.tiles LexState.flush
  cases hprevious : state.previous with
  | none =>
    dsimp only
    rw [List.map_append, List.map_append, List.append_assoc, List.append_assoc]
  | some token =>
    obtain ⟨htrailing, hpending⟩ := hbare token hprevious
    dsimp only
    rw [hpending, List.nil_append, List.map_nil, List.append_nil, List.flatMap_append,
      List.flatMap_append, List.flatMap_singleton, List.flatMap_singleton]
    unfold tokenTiles
    dsimp only
    rw [htrailing, List.map_nil]
    simp only [List.append_assoc, List.cons_append, List.nil_append]

theorem spells_attach {profile : LexicalProfile} {state : LexState} {items : List Trivia}
    (h : ∀ token ∈ state.flush, TokenSpells profile token)
    (hitems : ∀ item ∈ items, item.Spells) :
    ∀ token ∈ (state.attach items).flush, TokenSpells profile token := by
  unfold LexState.attach LexState.flush at *
  cases hprevious : state.previous with
  | none =>
    rw [hprevious] at h
    exact h
  | some previous =>
    rw [hprevious] at h
    dsimp only at h ⊢
    intro token htoken
    rcases List.mem_append.1 htoken with htoken | htoken
    · exact h token (List.mem_append_left _ htoken)
    -- The previous token gets the items of its line.
    · obtain ⟨hspelled, htrivia⟩ := h previous (List.mem_append_right _ List.mem_cons_self)
      rw [List.mem_singleton.1 htoken]
      refine ⟨hspelled, fun item hitem => ?_⟩
      rcases List.mem_append.1 hitem with hleading | hbefore
      · exact htrivia item (List.mem_append_left _ hleading)
      · exact hitems item (List.takeWhile_subset _ hbefore)

theorem pending_attach {state : LexState} {items : List Trivia}
    (h : ∀ item ∈ state.pendingLeading, item.Spells) (hitems : ∀ item ∈ items, item.Spells) :
    ∀ item ∈ (state.attach items).pendingLeading, item.Spells := by
  intro item hitem
  have hsplit : item ∈ state.pendingLeading ∨ item ∈ items := by
    unfold LexState.attach at hitem
    cases hprevious : state.previous with
    | none =>
      rw [hprevious] at hitem
      dsimp only at hitem
      rwa [List.append_assoc, List.takeWhile_append_dropWhile, List.mem_append] at hitem
    | some previous =>
      rw [hprevious] at hitem
      exact (List.mem_append.1 hitem).imp_right fun hafter => List.dropWhile_subset _ hafter
  rcases hsplit with hpending | hnew
  · exact h item hpending
  · exact hitems item hnew

theorem exact_skipTrivia (h : context.Over cs) {state : LexState} (hlength : state.index ≤ cs.length)
    (hexact : state.buffer.Silent → state.Exact cs context.profile) :
    state.index ≤ (skipTrivia context state).index ∧
      (skipTrivia context state).index ≤ cs.length ∧
      (skipTrivia context state).aborted = state.aborted ∧
      (skipTrivia context state).previous = none ∧
      cs[(skipTrivia context state).index]? ≠ some '\n' ∧
      ((skipTrivia context state).buffer.Silent →
        state.buffer.Silent ∧ (skipTrivia context state).Exact cs context.profile) := by
  obtain ⟨hrun, hspelled, hbreak⟩ := sound_scanTrivia h.layout context.source context.limits hlength
    state.line state.column
  unfold skipTrivia
  dsimp only
  generalize scanTrivia context.source context.limits context.bytes context.chars state.index
    state.line state.column = run at hrun hspelled hbreak ⊢
  obtain ⟨hprevious, -, hbuffer, haborted⟩ :=
    flush_attach (state.report context.limits run.diagnostics) run.items
  refine ⟨hrun.le, hrun.le_length, haborted, hprevious, hbreak, fun hsilent => ?_⟩
  rw [hbuffer] at hsilent
  have hbefore : state.buffer.Silent := silent_of_foldl_push hsilent
  have hstate := hexact hbefore
  -- Reporting does not touch what is exact.
  have hreported : (state.report context.limits run.diagnostics).Exact cs context.profile :=
    ⟨hstate.position, hstate.tiles, hstate.spells, hstate.pending, hstate.bare⟩
  have hitems : ∀ item ∈ run.items, item.Spells :=
    hspelled (nil_of_foldl_push hrun.errors hsilent)
  have hspells := spells_attach hreported.spells hitems
  have hpending := pending_attach hreported.pending hitems
  refine ⟨hbefore, hrun.position hstate.position, ?_, hspells, hpending, fun token htoken => ?_⟩
  · have htiles := tiles_attach run.items hreported
    refine Eq.mpr (congrArg (Tiles cs 0 run.index) htiles) ?_
    exact hstate.tiles.append (hrun.tiles hstate.position)
  · rw [hprevious] at htoken
    cases htoken

/-! Tokens. -/

def PieceState.flush (state : PieceState) : List Token :=
  match state.previous with
  | some token => state.tokens ++ [token]
  | none => state.tokens

def PieceState.tiles (state : PieceState) : List (String × SourceRange) :=
  state.flush.flatMap tokenTiles ++ state.leading.map triviaTile

/-- The pieces of one scan so far, up to `j`. -/
structure PieceState.Exact (cs : List Char) (profile : LexicalProfile) (j : Nat)
    (state : PieceState) : Prop where
  tiles : Tiles cs 0 j state.tiles
  spells : ∀ token ∈ state.flush, TokenSpells profile token
  pending : ∀ item ∈ state.leading, item.Spells
  bare : ∀ token, state.previous = some token → token.trailingTrivia = []

theorem flush_emitPiece (context : LexContext) (i line column : Nat) (state : PieceState)
    (piece : TokenPiece) :
    (emitPiece context i line column state piece).flush = state.flush ++
      [{ kind := piece.kind
         spelling := context.textBetween piece.startIndex piece.stopIndex
         range := pieceRange context i line column piece
         leadingTrivia := state.leading
         trailingTrivia := [] }] := by
  unfold emitPiece PieceState.flush
  cases state.previous <;> rfl

theorem exact_emitPiece (h : context.Over cs) {line column : Nat} {state : PieceState}
    {piece : TokenPiece} (hposition : (line, column) = lineColumn cs i)
    (hstate : state.Exact cs context.profile piece.startIndex)
    (hstart : OneLine cs i piece.startIndex) (hline : OneLine cs i piece.stopIndex)
    (hle : piece.startIndex ≤ piece.stopIndex) (hspells : PieceSpells cs context.profile piece) :
    (emitPiece context i line column state piece).Exact cs context.profile piece.stopIndex := by
  have hflush := flush_emitPiece context i line column state piece
  have hrange : pieceRange context i line column piece =
      ⟨positionAt cs piece.startIndex, positionAt cs piece.stopIndex⟩ := by
    unfold pieceRange positionAt LexContext.offsetAt
    rw [h.layout.byteOffsetAt_eq, h.layout.byteOffsetAt_eq, ← lineColumn_of_oneLine hstart hposition,
      ← lineColumn_of_oneLine hline hposition]
  refine ⟨?_, ?_, nofun, ?_⟩
  · have htiles : (emitPiece context i line column state piece).tiles = state.tiles ++
        [(String.ofList (between cs piece.startIndex piece.stopIndex),
          ⟨positionAt cs piece.startIndex, positionAt cs piece.stopIndex⟩)] := by
      unfold PieceState.tiles
      rw [hflush, hrange, h.textBetween, List.flatMap_append, List.flatMap_singleton]
      show _ ++ (state.leading.map triviaTile ++ [_]) ++ [] = _
      rw [List.append_nil, List.append_assoc]
    rw [htiles]
    exact hstate.tiles.append (Tiles.singleton hle hline.le_length)
  -- The new token has the trivia that were pending.
  · rw [hflush]
    intro token htoken
    rcases List.mem_append.1 htoken with htoken | htoken
    · exact hstate.spells token htoken
    · rw [List.mem_singleton.1 htoken]
      refine ⟨?_, fun item hitem => ?_⟩
      · show Spelled context.profile piece.kind (context.textBetween _ _)
        rw [h.textBetween]
        exact hspells
      · rw [List.append_nil] at hitem
        exact hstate.pending item hitem
  · intro token htoken
    obtain rfl := Option.some.inj htoken
    rfl

theorem silent_of_emitPiece {line column : Nat} {state : PieceState} {piece : TokenPiece}
    (h : (emitPiece context i line column state piece).buffer.Silent) : state.buffer.Silent := by
  unfold emitPiece at h
  dsimp only at h
  split_ifs at h
  · exact silent_of_push h
  · exact h

theorem silent_of_foldl_emitPiece {line column : Nat} {state : PieceState}
    {pieces : List TokenPiece}
    (h : (pieces.foldl (emitPiece context i line column) state).buffer.Silent) :
    state.buffer.Silent := by
  induction pieces generalizing state with
  | nil => exact h
  | cons piece pieces ih => exact silent_of_emitPiece (ih h)

theorem exact_foldl_emitPiece (h : context.Over cs) {line column : Nat}
    {pieces : List TokenPiece} {state : PieceState} (hposition : (line, column) = lineColumn cs i)
    (hcontiguous : Contiguous j k pieces) (hij : i ≤ j) (hline : OneLine cs i k)
    (hspells : ∀ piece ∈ pieces, PieceSpells cs context.profile piece)
    (hstate : state.Exact cs context.profile j) :
    (pieces.foldl (emitPiece context i line column) state).Exact cs context.profile k := by
  induction pieces generalizing j state with
  | nil =>
    obtain rfl : j = k := hcontiguous
    exact hstate
  | cons piece pieces ih =>
    obtain ⟨rfl, hle, hrest⟩ := hcontiguous
    have hstop : OneLine cs i piece.stopIndex := hline.left (hij.trans hle) hrest.le
    refine ih hrest (hij.trans hle) (fun p hp => hspells p (List.mem_cons_of_mem _ hp)) ?_
    exact exact_emitPiece h hposition hstate (hstop.left hij hle) hstop hle
      (hspells piece List.mem_cons_self)

theorem leading_foldl_emitPiece {line column : Nat} {pieces : List TokenPiece}
    (hne : pieces ≠ []) (state : PieceState) :
    (pieces.foldl (emitPiece context i line column) state).leading = [] := by
  induction pieces using List.reverseRecOn with
  | nil => exact absurd rfl hne
  | append_singleton pieces piece _ =>
    rw [List.foldl_append, List.foldl_cons, List.foldl_nil]
    rfl

theorem exact_emitPieces (h : context.Over cs) {state : LexState} {scan : TokenScan}
    (hstate : state.Exact cs context.profile)
    (hscan : scan.Sound cs context.profile state.index)
    (hsilent : (emitPieces context state scan).buffer.Silent) :
    (emitPieces context state scan).Exact cs context.profile := by
  unfold emitPieces at hsilent ⊢
  dsimp only at hsilent ⊢
  have hnil : scan.diagnostics = [] :=
    nil_of_foldl_push hscan.errors (silent_of_foldl_emitPiece hsilent)
  have hline : OneLine cs state.index scan.stopIndex :=
    ⟨hscan.contiguous.le, hscan.le_length, hscan.oneLine hnil⟩
  have hstart : PieceState.Exact cs context.profile state.index
      { buffer := (state.report context.limits scan.diagnostics).buffer
        tokens := state.tokens
        previous := state.previous
        leading := state.pendingLeading } :=
    ⟨hstate.tiles, hstate.spells, hstate.pending,
      fun token htoken => (hstate.bare token htoken).1⟩
  have hfold := exact_foldl_emitPiece h hstate.position hscan.contiguous le_rfl hline
    (hscan.spells hnil) hstart
  have htiles := hfold.tiles
  unfold PieceState.tiles at htiles
  rw [leading_foldl_emitPiece hscan.nonempty] at htiles
  exact ⟨lineColumn_of_oneLine hline hstate.position, htiles, hfold.spells, nofun,
    fun token htoken => ⟨hfold.bare token htoken, rfl⟩⟩

/-! ### Main loop -/

structure LexState.Sound (cs : List Char) (profile : LexicalProfile) (state : LexState) : Prop where
  le_length : state.index ≤ cs.length
  exact : state.buffer.Silent → state.Exact cs profile
  aborted : state.aborted = true → ¬ state.buffer.Silent

theorem sound_lexToken (h : context.Over cs) {state : LexState}
    (hstate : state.Sound cs context.profile) (hbreak : cs[state.index]? ≠ some '\n') :
    (lexToken context state).Sound cs context.profile ∧
      state.index ≤ (lexToken context state).index ∧
      ((lexToken context state).aborted = true ∨ cs.length ≤ (lexToken context state).index ∨
        state.index < (lexToken context state).index) := by
  unfold lexToken
  by_cases htruncated : state.buffer.truncated = true
  · rw [if_pos htruncated]
    have hloud : ¬ state.buffer.Silent := fun hsilent =>
      Bool.noConfusion (htruncated.symm.trans hsilent.notTruncated)
    exact ⟨⟨hstate.le_length, fun hsilent => absurd hsilent hloud, fun _ => hloud⟩, le_rfl,
      Or.inl rfl⟩
  rw [if_neg htruncated, h.layout.charAt?_eq]
  cases hget : cs[state.index]? with
  | none => exact ⟨hstate, le_rfl, Or.inr (Or.inl (List.getElem?_eq_none_iff.1 hget))⟩
  | some current =>
    have hcurrent : current ≠ '\n' := fun heq => hbreak (heq ▸ hget)
    obtain ⟨hscan, hmoved⟩ := sound_scanToken h hget hcurrent state.line state.column
    generalize state.tokens.length + (if state.previous.isSome then 1 else 0) = emitted
    dsimp only
    by_cases hmany : emitted ≥ context.limits.maxTokens
    · rw [if_pos hmany]
      have hloud : ¬ (state.buffer.push context.limits.diagnosticLimits
          (tokenLimitDiagnostic context state)).Silent := not_silent_push rfl
      exact ⟨⟨hstate.le_length, fun hsilent => absurd hsilent hloud, fun _ => hloud⟩, le_rfl,
        Or.inl rfl⟩
    · rw [if_neg hmany]
      have hbefore : (emitPieces context state
          (scanToken context current state.index state.line state.column)).buffer.Silent →
            state.buffer.Silent :=
        fun hsilent => silent_of_foldl_push (silent_of_foldl_emitPiece hsilent)
      refine ⟨⟨hscan.le_length, fun hsilent => ?_, fun haborted hsilent => ?_⟩, hmoved.le,
        Or.inr (Or.inr hmoved)⟩
      · exact exact_emitPieces h (hstate.exact (hbefore hsilent)) hscan hsilent
      · rcases Bool.or_eq_true_iff.1 haborted with haborted | htruncated'
        · exact hstate.aborted haborted (hbefore hsilent)
        · exact Bool.noConfusion (htruncated'.symm.trans hsilent.notTruncated)

theorem sound_lexStep (h : context.Over cs) {state : LexState}
    (hstate : state.Sound cs context.profile) :
    (lexStep context state).Sound cs context.profile ∧
      state.index ≤ (lexStep context state).index ∧
      ((lexStep context state).aborted = true ∨ cs.length ≤ (lexStep context state).index ∨
        state.index < (lexStep context state).index) := by
  obtain ⟨hle, hlength, haborted, -, hbreak, hexact⟩ :=
    exact_skipTrivia h hstate.le_length hstate.exact
  have hskipped : (skipTrivia context state).Sound cs context.profile := by
    refine ⟨hlength, fun hsilent => (hexact hsilent).2, fun habort hsilent => ?_⟩
    rw [haborted] at habort
    exact hstate.aborted habort (hexact hsilent).1
  obtain ⟨hsound, hmoved, hprogress⟩ := sound_lexToken h hskipped hbreak
  refine ⟨hsound, hle.trans hmoved, ?_⟩
  rcases hprogress with hprogress | hprogress | hprogress
  · exact Or.inl hprogress
  · exact Or.inr (Or.inl hprogress)
  · exact Or.inr (Or.inr (hle.trans_lt hprogress))

theorem sound_lexLoop (h : context.Over cs) :
    (lexLoop context).Sound cs context.profile ∧
      ((lexLoop context).buffer.Silent → (lexLoop context).index = cs.length) := by
  have hloop : (lexLoop context).Sound cs context.profile ∧
      (!(lexLoop context).aborted && (lexLoop context).index < context.chars.length) = false := by
    refine whileLoop_spec _ _ _ _ _ ?_
      ⟨Nat.zero_le _, fun _ => ⟨rfl, rfl, nofun, nofun, nofun⟩, nofun⟩
    intro state hstate htest
    rw [Bool.and_eq_true, Bool.not_eq_true', decide_eq_true_eq, h.layout.length] at htest
    obtain ⟨hsound, hle, hprogress⟩ := sound_lexStep h hstate
    refine ⟨hsound, ?_⟩
    have hone : (if state.aborted then 0 else 1) = 1 :=
      if_neg fun habort => Bool.noConfusion (htest.1.symm.trans habort)
    rw [h.layout.length, hone]
    rcases hprogress with habort | hend | hmoved
    · rw [if_pos habort]
      exact Nat.lt_succ_of_le (Nat.sub_le_sub_left hle _)
    · rw [Nat.sub_eq_zero_of_le hend]
      split <;> omega
    · have hless := Nat.sub_lt_sub_left htest.2 hmoved
      split <;> omega
  generalize lexLoop context = state at hloop ⊢
  obtain ⟨hsound, hdone⟩ := hloop
  refine ⟨hsound, fun hsilent => le_antisymm hsound.le_length ?_⟩
  rw [Bool.and_eq_false_iff, Bool.not_eq_false', decide_eq_false_iff_not, h.layout.length] at hdone
  rcases hdone with habort | hend
  · exact absurd hsilent (hsound.aborted habort)
  · exact Nat.le_of_not_lt hend

/-- A silent scan tiles the text and ends with its only end token. -/
theorem scanTokens_silent (h : context.Over cs)
    (hsilent : (scanTokens context).diagnostics.Silent) :
    Tiles cs 0 cs.length (TokenStream.tiles ⟨(scanTokens context).tokens⟩) ∧
      ∃ front last, (scanTokens context).tokens = front ++ [last] ∧ last.kind = .eof ∧
        last.TriviaSpells ∧ ∀ token ∈ front, TokenSpells context.profile token := by
  obtain ⟨hsound, hend⟩ := sound_lexLoop h
  unfold scanTokens at hsilent ⊢
  dsimp only at hsilent ⊢
  generalize lexLoop context = state at hsound hend hsilent ⊢
  have hexact := hsound.exact hsilent
  have hindex := hend hsilent
  have hlast : (eofToken context state).TriviaSpells := by
    intro item hitem
    rw [eofToken, List.append_nil] at hitem
    exact hexact.pending item hitem
  refine ⟨?_, state.flush, eofToken context state, rfl, rfl, hlast, hexact.spells⟩
  have hsize : context.bytes.size = offsetOf cs cs.length := by
    rw [offsetOf_of_le le_rfl, h.layout.size]
  have hposition : (⟨context.bytes.size, state.line, state.column⟩ : SourcePosition) =
      positionAt cs cs.length := by
    unfold positionAt
    rw [hsize, ← hindex, ← hexact.position]
  have htiles : TokenStream.tiles ⟨state.flush ++ [eofToken context state]⟩ = state.tiles ++
      [(String.ofList (between cs cs.length cs.length),
        ⟨positionAt cs cs.length, positionAt cs cs.length⟩)] := by
    unfold TokenStream.tiles LexState.tiles
    rw [List.flatMap_append, List.flatMap_singleton, between_self, ← hposition, List.append_assoc]
    rfl
  rw [htiles]
  have hstate := hexact.tiles
  rw [hindex] at hstate
  exact hstate.append (Tiles.singleton le_rfl le_rfl)

/-! ### Accepted sources -/

section Accepted
variable {profile : LexicalProfile} {limits : LexerLimits} {source : SourceUnit}
  {stream : TokenStream}

theorem lex_eq_ok (h : lex profile limits source = .ok stream) :
    PlainText source.normalizedUtf8 ∧
      (scanTokens (lexContext profile limits source)).diagnostics.Silent ∧
      (scanTokens (lexContext profile limits source)).tokens = stream.tokens := by
  unfold lex at h
  dsimp only at h
  split_ifs at h with hsize hproblem herror
  rw [Bool.or_eq_true, not_or, Bool.not_eq_true, Bool.not_eq_true, Bool.not_eq_false',
    List.isEmpty_iff] at hproblem
  rw [Bool.or_eq_true, not_or, Bool.not_eq_true, Bool.not_eq_true] at herror
  obtain rfl := Except.ok.inj h
  have hsilent := (silent_scanSourceProblems_iff limits source).1 ⟨hproblem.2, hproblem.1⟩
  exact ⟨(sound_scanSourceProblems limits source).1.1 hsilent, ⟨herror.1, herror.2⟩, rfl⟩

theorem over_lexContext (aliases : profile.OneLineAliases)
    (h : source.normalizedUtf8.data.toList = encodeChars cs) :
    (lexContext profile limits source).Over cs :=
  ⟨layout_of_bytes h, rfl, aliases⟩

theorem eq_toUTF8 {bytes : ByteArray} (h : bytes.data.toList = encodeChars cs) :
    bytes = (String.ofList cs).toUTF8 := by
  apply ByteArray.ext
  rw [← Array.toList_inj, toList_toUTF8_ofList, h]

/-- The tokens and trivia of an accepted source are its text, cut into pieces with
their exact offsets, lines and columns. -/
theorem tiles_of_lex (aliases : profile.OneLineAliases)
    (h : lex profile limits source = .ok stream) :
    ∃ text : String, source.normalizedUtf8 = text.toUTF8 ∧
      (∀ c ∈ text.toList, isControlScalar c = false) ∧
      Tiles text.toList 0 text.toList.length stream.tiles := by
  obtain ⟨⟨cs, hcs, hcontrol⟩, hsilent, htokens⟩ := lex_eq_ok h
  obtain ⟨htiles, -⟩ := scanTokens_silent (over_lexContext aliases hcs) hsilent
  refine ⟨String.ofList cs, eq_toUTF8 hcs, ?_, ?_⟩
  · rw [String.toList_ofList]
    exact hcontrol
  · rw [String.toList_ofList]
    rw [htokens] at htiles
    exact htiles

/-- Every token of an accepted source but the last spells its kind, the last one is the only
end token, and all trivia spell theirs. -/
theorem spells_of_lex (aliases : profile.OneLineAliases)
    (h : lex profile limits source = .ok stream) :
    ∃ front last, stream.tokens = front ++ [last] ∧ last.kind = .eof ∧ last.TriviaSpells ∧
      ∀ token ∈ front, TokenSpells profile token := by
  obtain ⟨⟨cs, hcs, -⟩, hsilent, htokens⟩ := lex_eq_ok h
  obtain ⟨-, front, last, hsplit, hlast, htrivia, hspells⟩ :=
    scanTokens_silent (over_lexContext aliases hcs) hsilent
  exact ⟨front, last, htokens ▸ hsplit, hlast, htrivia, hspells⟩

/-- The lexer cuts an accepted source without loss: the tokens and trivia are its text, piece
by piece, each at its exact offset, line and column; every token and every trivium spells its
kind; and the only end token stands last. -/
theorem lex_cuts (aliases : profile.OneLineAliases) (plain : profile.PlainScalars)
    (h : lex profile limits source = .ok stream) :
    (∃ text : String, source.normalizedUtf8 = text.toUTF8 ∧
      (∀ c ∈ text.toList, isControlScalar c = false) ∧
      Tiles text.toList 0 text.toList.length stream.tiles) ∧
    (∃ front last, stream.tokens = front ++ [last] ∧ last.kind = .eof ∧
      ∀ token ∈ front, Spells profile token.kind token.spelling) ∧
    ∀ token ∈ stream.tokens, ∀ item ∈ token.leadingTrivia ++ token.trailingTrivia,
      item.Spells := by
  obtain ⟨front, last, hsplit, hlast, htrivia, hspells⟩ := spells_of_lex aliases h
  refine ⟨tiles_of_lex aliases h, ⟨front, last, hsplit, hlast, ?_⟩, ?_⟩
  · intro token htoken
    rcases (hspells token htoken).1 with hspelled | hraw
    · exact hspelled
    · exact spells_of_rawScalar plain hraw
  · intro token htoken
    rw [hsplit] at htoken
    rcases List.mem_append.1 htoken with htoken | htoken
    · exact (hspells token htoken).2
    · rw [List.mem_singleton.1 htoken]
      exact htrivia

end Accepted

theorem oneLineAliases_default : LanguageProfile.default.OneLineAliases := by
  unfold LanguageProfile.OneLineAliases
  decide +kernel

theorem plainScalars_default : LanguageProfile.default.PlainScalars := by
  have hsingle : (LanguageProfile.default.symbols.all fun group =>
      group.spellings.all fun spelling => decide (spelling.toList.length ≠ 1) ||
        group.canonical == spelling || spelling.toList.all fun c => decide (0x7F < c.toNat)) =
          true := by
    decide +kernel
  have hlonger : (LanguageProfile.default.symbols.all fun group =>
      group.spellings.all fun spelling => decide (spelling.toList.length < 2) ||
        spelling.toList.head?.all fun c => decide (c.toNat ≤ 0x7F)) = true := by
    decide +kernel
  simp only [List.all_eq_true, Bool.or_eq_true, decide_eq_true_eq, beq_iff_eq] at hsingle hlonger
  intro group hgroup spelling hspelling c hc htext
  rcases hsingle group hgroup spelling hspelling with (hlength | heq) | hunicode
  · rw [htext] at hlength
    exact absurd rfl hlength
  · exact Or.inl heq
  · refine Or.inr ⟨hunicode c hc, fun other hother longer hmem hlong hhead => ?_⟩
    rcases hlonger other hother longer hmem with hshort | hascii
    · exact absurd hlong (Nat.not_le_of_lt hshort)
    · rw [hhead, Option.all_some, decide_eq_true_eq] at hascii
      exact absurd hascii (Nat.not_le_of_lt (hunicode c hc))

/-! ### A sample source -/

def sampleText : String := "---- MODULE M ----\nOp == \\A x \\in S : x /= 1\n====\n"

def sampleCapture : SourceUnit :=
  { logicalPath := "M.tla"
    normalizedText := sampleText
    normalizedUtf8 := sampleText.toUTF8
    contentSha256 := "" }

def lexedSample : TokenStream := (lex .default {} sampleCapture).toOption.getD ⟨[]⟩

theorem lex_sample : lex .default {} sampleCapture = .ok lexedSample := by
  have hok : (lex .default {} sampleCapture).isOk = true := by decide +kernel
  unfold lexedSample
  rcases hlex : lex .default {} sampleCapture with diagnostics | stream
  · rw [hlex] at hok
    cases hok
  · rfl

theorem lex_cuts_sample :
    (∃ text : String, sampleCapture.normalizedUtf8 = text.toUTF8 ∧
      (∀ c ∈ text.toList, isControlScalar c = false) ∧
      Tiles text.toList 0 text.toList.length lexedSample.tiles) ∧
    (∃ front last, lexedSample.tokens = front ++ [last] ∧ last.kind = .eof ∧
      ∀ token ∈ front, Spells LexicalProfile.default token.kind token.spelling) ∧
    ∀ token ∈ lexedSample.tokens, ∀ item ∈ token.leadingTrivia ++ token.trailingTrivia,
      item.Spells :=
  lex_cuts oneLineAliases_default plainScalars_default lex_sample

end MirrorsCore.Tla
