import Mathlib
import MirrorsCore.Tla.LexerFacts
import MirrorsCore.Tla.ParserFacts

/-! Lexing and parsing one captured unit (`Core/Tla/Source.lean`,
`Core/Tla/Parser.lean`). A stream that the lexer returns is one that the parser
takes, so the tree of a unit is its text. -/

namespace MirrorsCore.Tla

/-! ### Source units and entry points -/

/-- `CRLF` and lone `CR` become `LF`. -/
def normalizeNewlines (text : String) : String :=
  (text.replace "\r\n" "\n").replace "\r" "\n"

/-- A captured unit; the digest of its bytes is a parameter. -/
def SourceUnit.create (digestHex : ByteArray → String) (logicalPath rawText : String) :
    SourceUnit :=
  let normalizedText := normalizeNewlines rawText
  let normalizedUtf8 := normalizedText.toUTF8
  { logicalPath, normalizedText, normalizedUtf8, contentSha256 := digestHex normalizedUtf8 }

/-- The captured text, bytes and digest agree. -/
def SourceUnit.consistent (digestHex : ByteArray → String) (unit : SourceUnit) : Bool :=
  decide (unit.normalizedText.toUTF8 = unit.normalizedUtf8) &&
    digestHex unit.normalizedUtf8 == unit.contentSha256

def parseSource (profile : LexicalProfile) (parserProfile : ParserProfile)
    (lexerLimits : LexerLimits) (limits : ParserLimits) (source : SourceUnit) : ParseOutcome :=
  match lex profile lexerLimits source with
  | .ok stream => parseStream profile.toLanguageProfile parserProfile limits source stream
  | .error diagnostics => { cst := emptyRoot, module? := none, diagnostics }

def parseUnit (source : SourceUnit) : ParseOutcome :=
  parseSource LexicalProfile.default ParserProfile.default {} {} source

variable {profile : LexicalProfile} {parserProfile : ParserProfile} {lexerLimits : LexerLimits}
  {limits : ParserLimits} {source : SourceUnit} {stream : TokenStream}

/-! ### Streams of the lexer -/

theorem text_eq_join_tiles (stream : TokenStream) :
    stream.text = String.join (stream.tiles.map Prod.fst) := by
  unfold TokenStream.text TokenStream.tiles
  induction stream.tokens with
  | nil => rfl
  | cons token tokens ih =>
    have htoken : token.text = String.join ((tokenTiles token).map Prod.fst) := by
      unfold Token.text tokenTiles
      rw [List.map_append, List.map_map, List.map_cons, List.map_map, List.append_assoc]
      rfl
    rw [List.map_cons, CstNode.join_cons, ih, List.flatMap_cons, List.map_append,
      CstNode.join_append, htoken]

section Order
variable {cs : List Char} {i k : Nat}

theorem Tiles.split {front back : List (String × SourceRange)} (h : Tiles cs i k (front ++ back)) :
    ∃ j, Tiles cs i j front ∧ Tiles cs j k back := by
  induction front generalizing i with
  | nil => exact ⟨i, rfl, h⟩
  | cons tile front ih =>
    obtain ⟨m, hle, hlength, htile, hrest⟩ := h
    obtain ⟨j, hfront, hback⟩ := ih hrest
    exact ⟨j, ⟨m, hle, hlength, htile, hfront⟩, hback⟩

theorem tokensFrom_of_tiles {tokens : List Token} {lo : Nat}
    (h : Tiles cs i k (tokens.flatMap tokenTiles)) (hlo : lo ≤ offsetOf cs i) :
    TokensFrom lo tokens := by
  induction tokens generalizing i lo with
  | nil => exact trivial
  | cons token tokens ih =>
    rw [List.flatMap_cons] at h
    obtain ⟨j, htoken, hrest⟩ := h.split
    unfold tokenTiles at htoken
    obtain ⟨start, hleading, stop, hle, -, htile, htrailing⟩ := htoken.split
    obtain ⟨-, hrange⟩ := Prod.mk.inj htile
    have hstart : token.range.start.offset = offsetOf cs start := by
      rw [hrange]
      rfl
    have hstop : token.range.stop.offset = offsetOf cs stop := by
      rw [hrange]
      rfl
    refine ⟨?_, ?_, ih hrest ?_⟩
    · rw [hstart]
      exact hlo.trans (offsetOf_mono hleading.le)
    · rw [hstart, hstop]
      exact offsetOf_mono hle
    · rw [hstop]
      exact offsetOf_mono htrailing.le

end Order

theorem eq_normalizedText (hbytes : source.normalizedUtf8 = source.normalizedText.toUTF8)
    {text : String} (h : source.normalizedUtf8 = text.toUTF8) : text = source.normalizedText :=
  String.toByteArray_inj.1 (h.symm.trans hbytes)

theorem lex_text (aliases : profile.OneLineAliases)
    (hbytes : source.normalizedUtf8 = source.normalizedText.toUTF8)
    (h : lex profile lexerLimits source = .ok stream) :
    stream.text = source.normalizedText ∧ TokensFrom 0 stream.tokens := by
  obtain ⟨text, htext, -, htiles⟩ := tiles_of_lex aliases h
  obtain rfl := eq_normalizedText hbytes htext
  refine ⟨?_, tokensFrom_of_tiles htiles (Nat.zero_le _)⟩
  rw [text_eq_join_tiles, htiles.join, between_zero, List.take_length, String.ofList_toList]

theorem not_isEof_of_spells {token : Token} (h : TokenSpells profile token) :
    token.isEof = false := by
  unfold Token.isEof TokenKind.isEof
  cases hkind : token.kind with
  | eof =>
    obtain ⟨hspells | hraw, -⟩ := h
    · rw [hkind] at hspells
      exact hspells.elim
    · exact TokenKind.noConfusion (hkind.symm.trans hraw.1)
  | _ => rfl

theorem streamProblem?_of_lex (aliases : profile.OneLineAliases)
    (hbytes : source.normalizedUtf8 = source.normalizedText.toUTF8)
    (h : lex profile lexerLimits source = .ok stream) : streamProblem? source stream = none := by
  obtain ⟨front, last, hsplit, hlast, -, hspells⟩ := spells_of_lex aliases h
  obtain ⟨htext, -⟩ := lex_text aliases hbytes h
  have heof : last.isEof = true := by
    unfold Token.isEof
    rw [hlast]
    rfl
  have hfind : front.find? Token.isEof = none := by
    refine List.find?_eq_none.2 fun token htoken => ?_
    rw [not_isEof_of_spells (hspells token htoken)]
    exact Bool.false_ne_true
  unfold streamProblem?
  rw [hsplit, List.getLast?_concat, List.dropLast_concat]
  dsimp only
  rw [heof, hfind, htext]
  simp

theorem headerName_of_lex (aliases : profile.OneLineAliases)
    (h : lex profile lexerLimits source = .ok stream) {token : Token}
    (htoken : token ∈ stream.tokens) (hkind : token.kind = .moduleHeader) :
    ∃ name, token.moduleHeaderName? = some name ∧ ModuleName.valid name = true := by
  obtain ⟨front, last, hsplit, hlast, -, hspells⟩ := spells_of_lex aliases h
  rw [hsplit] at htoken
  rcases List.mem_append.1 htoken with htoken | htoken
  · obtain ⟨hspell | hraw, -⟩ := hspells token htoken
    · rw [hkind] at hspell
      obtain ⟨name, hheader⟩ := hspell
      have hvalid : ModuleName.valid name = true := by
        obtain ⟨_, _, _, _, _, -, -, -, -, -, hvalid, -⟩ := hheader
        exact hvalid
      exact ⟨name, moduleHeaderName?_of_headerLine hkind hheader, hvalid⟩
    · exact TokenKind.noConfusion (hkind.symm.trans hraw.1)
  · rw [List.mem_singleton.1 htoken, hlast] at hkind
    cases hkind

/-- The parser takes what the lexer makes: it finds no problem with the stream, and it can read
a valid name from every module header. -/
theorem parser_takes_lexed (aliases : profile.OneLineAliases)
    (hbytes : source.normalizedUtf8 = source.normalizedText.toUTF8)
    (h : lex profile lexerLimits source = .ok stream) :
    streamProblem? source stream = none ∧
      ∀ token ∈ stream.tokens, token.kind = .moduleHeader →
        ∃ name, token.moduleHeaderName? = some name ∧ ModuleName.valid name = true :=
  ⟨streamProblem?_of_lex aliases hbytes h, fun _ htoken hkind =>
    headerName_of_lex aliases h htoken hkind⟩

theorem parser_takes_lexed_sample :
    streamProblem? sampleCapture lexedSample = none ∧
      ∀ token ∈ lexedSample.tokens, token.kind = .moduleHeader →
        ∃ name, token.moduleHeaderName? = some name ∧ ModuleName.valid name = true :=
  parser_takes_lexed oneLineAliases_default rfl lex_sample

/-! ### The tree of a unit -/

/-- The tree of a unit that lexes holds its tokens, reads as its text, and nests. -/
theorem parseSource_lossless (aliases : profile.OneLineAliases)
    (tables : JunctionTables profile.toLanguageProfile parserProfile)
    (hbytes : source.normalizedUtf8 = source.normalizedText.toUTF8)
    (h : lex profile lexerLimits source = .ok stream) (limits : ParserLimits) :
    (parseSource profile parserProfile lexerLimits limits source).cst.root.leafTokens =
        stream.tokens ∧
      (parseSource profile parserProfile lexerLimits limits source).cst.text =
        source.normalizedText ∧
      (parseSource profile parserProfile lexerLimits limits source).cst.rangesNested = true := by
  obtain ⟨hleaves, -, htext, hnested⟩ :=
    parseStream_lossless tables limits (streamProblem?_of_lex aliases hbytes h)
  obtain ⟨-, hordered⟩ := lex_text aliases hbytes h
  unfold parseSource
  rw [h]
  exact ⟨hleaves, htext, hnested hordered⟩

theorem parseSource_lossless_sample :
    (parseSource .default .default {} {} sampleCapture).cst.root.leafTokens =
        lexedSample.tokens ∧
      (parseSource .default .default {} {} sampleCapture).cst.text =
        sampleCapture.normalizedText ∧
      (parseSource .default .default {} {} sampleCapture).cst.rangesNested = true :=
  parseSource_lossless oneLineAliases_default junctionTables_default rfl lex_sample {}

/-! ### Bullet columns -/

/-- An accepted stream keeps every bullet column exactly if no list opens, within an item, at or
left of the bullet of that item: what the report in front of every level looks for. -/
theorem listsKept_iff_opened_within {language : LanguageProfile}
    (tables : JunctionTables language parserProfile)
    (h : (parseStream language parserProfile limits source stream).hasErrors = false) :
    JunctionListsKept language
        (parseStream language parserProfile limits source stream).cst.root ↔
      (parseStreamWith watchedExpression language parserProfile limits source stream).hasErrors =
        false := by
  obtain ⟨hsound, hcomplete⟩ := lockstep_parseStream tables limits source stream
  constructor
  · intro hkept
    rw [hcomplete h hkept]
    exact h
  · intro hwatched
    exact (hsound hwatched).2

def bulletCapture (text : String) : SourceUnit :=
  { logicalPath := "M.tla"
    normalizedText := text
    normalizedUtf8 := text.toUTF8
    contentSha256 := "" }

/-- A list in an item of a list, further right. -/
def nestedBullets : SourceUnit :=
  bulletCapture
    "---- MODULE M ----\nOp ==\n  /\\ TRUE =>\n     \\/ TRUE\n     \\/ FALSE\n  /\\ FALSE\n====\n"

/-- The second bullet opens a list as the conclusion of the first item. -/
def strayBullet : SourceUnit :=
  bulletCapture "---- MODULE M ----\nOp ==\n  /\\ TRUE =>\n  /\\ FALSE\n====\n"

def lexed (source : SourceUnit) : TokenStream := (lex .default {} source).toOption.getD ⟨[]⟩

theorem listsKept_iff_opened_within_nested :
    JunctionListsKept .default (parseStream .default .default {} nestedBullets
        (lexed nestedBullets)).cst.root ↔
      (parseStreamWith watchedExpression .default .default {} nestedBullets
        (lexed nestedBullets)).hasErrors = false := by
  have haccepted : (parseStream .default .default {} nestedBullets
      (lexed nestedBullets)).hasErrors = false := by
    decide +kernel
  exact listsKept_iff_opened_within junctionTables_default haccepted

/-- Both sides hold where lists nest to the right. -/
example : (parseStreamWith watchedExpression .default .default {} nestedBullets
    (lexed nestedBullets)).hasErrors = false := by decide +kernel

theorem strayBullet_leaves_column :
    (parseStream .default .default {} strayBullet (lexed strayBullet)).hasErrors = false ∧
      ¬ JunctionListsKept .default
        (parseStream .default .default {} strayBullet (lexed strayBullet)).cst.root := by
  have haccepted : (parseStream .default .default {} strayBullet (lexed strayBullet)).hasErrors =
      false := by
    decide +kernel
  have hreported : (parseStreamWith watchedExpression .default .default {} strayBullet
      (lexed strayBullet)).hasErrors = true := by
    decide +kernel
  -- If the lists kept their columns, the watched parser would accept as well.
  refine ⟨haccepted, fun hkept => ?_⟩
  have hsame := (lockstep_parseStream junctionTables_default {} strayBullet
    (lexed strayBullet)).2 haccepted hkept
  rw [hsame, haccepted] at hreported
  cases hreported

end MirrorsCore.Tla
