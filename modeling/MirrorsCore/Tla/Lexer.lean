import Mathlib
import MirrorsCore.Lib.WhileLoop
import MirrorsCore.Tla.Profile
import MirrorsCore.Tla.Token
import MirrorsCore.Tla.Utf8

/-! The lexer (`Core/Tla/Lexer.lean`): decoded scalars, trivia, operator aliases,
one token at a position, and the main loop. -/

namespace MirrorsCore.Tla
open Lib

/-! ### Profile and limits -/

/-- The language profile with the tables that only the lexer reads. -/
structure LexicalProfile extends LanguageProfile where
  keywords : List String
  prefixKeywords : List String
  stagedUnicode : List String

def defaultKeywords : List String := [
  "ASSUME", "ASSUMPTION", "AXIOM", "BOOLEAN", "BY", "CASE", "CHOOSE",
  "CONSTANT", "CONSTANTS", "COROLLARY", "DEF", "DEFS", "DOMAIN", "ELSE",
  "ENABLED", "EXCEPT", "EXTENDS", "FALSE", "HAVE", "HIDE", "IF", "IN",
  "INSTANCE", "LEMMA", "LET", "LOCAL", "MODULE", "NEW", "OBVIOUS", "OMITTED",
  "ONLY", "OTHER", "PICK", "PROOF", "PROPOSITION", "PROVE", "QED", "RECURSIVE",
  "STATE", "STRING", "SUBSET", "TAKE", "THEOREM", "THEN", "TRUE", "UNCHANGED",
  "UNION", "VARIABLE", "VARIABLES", "WHEN", "WITNESS", "WITH"]

def defaultPrefixKeywords : List String := ["WF_", "SF_"]

def stagedUnicodeOperatorSpellings : List String := [
  "∨", "¬", "⇒", "⇔", "≡", "∉", "⊆", "⊂", "⊇", "⊃", "∪", "∩",
  "≠", "≥", "⟨", "⟩", "↦", "‥", "□", "◇", "≜", "→", "←", "∘", "×",
  "÷", "≺", "≻", "∼", "≈", "∙", "⋆", "○"]

namespace LexicalProfile

def default : LexicalProfile :=
  { LanguageProfile.default with
    keywords := defaultKeywords
    prefixKeywords := defaultPrefixKeywords
    stagedUnicode := stagedUnicodeOperatorSpellings }

def keyword? (profile : LexicalProfile) (spelling : String) : Option String :=
  if profile.keywords.contains spelling then some spelling else none

/-- The longest prefix reserved word of `spelling`, with its length. -/
def prefixKeywordAt? (profile : LexicalProfile) (spelling : String) : Option (String × Nat) :=
  profile.prefixKeywords.foldl (fun found candidate =>
    let length := candidate.toList.length
    if spelling.startsWith candidate && length > (found.map Prod.snd).getD 0 then
      some (candidate, length)
    else found) none

def isStagedUnicode (profile : LexicalProfile) (spelling : String) : Bool :=
  profile.stagedUnicode.contains spelling

end LexicalProfile

structure LexerLimits where
  maxSourceBytes : Nat := 4 * 1024 * 1024
  maxTokens : Nat := 1000000
  maxTokenBytes : Nat := 1024 * 1024
  maxIdentifierBytes : Nat := 256
  maxIntegerDigits : Nat := 1024
  maxCommentDepth : Nat := 64
  maxDiagnostics : Nat := 64
  maxDiagnosticBytes : Nat := 1024 * 1024
  deriving DecidableEq

def LexerLimits.diagnosticLimits (limits : LexerLimits) : DiagnosticLimits :=
  { maxCount := limits.maxDiagnostics, maxBytes := limits.maxDiagnosticBytes }

namespace LexCode

def invalidUtf8 : String := "TLA-LEX-INVALID-UTF8"
def controlCharacter : String := "TLA-LEX-CONTROL-CHARACTER"
def unicodeStaged : String := "TLA-LEX-UNICODE-STAGED"
def unknownCharacter : String := "TLA-LEX-UNKNOWN-CHARACTER"
def unterminatedString : String := "TLA-LEX-UNTERMINATED-STRING"
def newlineInString : String := "TLA-LEX-NEWLINE-IN-STRING"
def invalidEscape : String := "TLA-LEX-INVALID-ESCAPE"
def invalidNumber : String := "TLA-LEX-INVALID-NUMBER"
def integerTooLarge : String := "TLA-LEX-INTEGER-TOO-LARGE"
def identifierTooLarge : String := "TLA-LEX-IDENTIFIER-TOO-LARGE"
def unterminatedComment : String := "TLA-LEX-UNTERMINATED-COMMENT"
def commentNesting : String := "TLA-LEX-COMMENT-NESTING"
def tokenTooLarge : String := "TLA-LEX-TOKEN-TOO-LARGE"
def tooManyTokens : String := "TLA-LEX-TOO-MANY-TOKENS"
def sourceTooLarge : String := "TLA-LEX-SOURCE-TOO-LARGE"
def diagnosticsTruncated : String := "TLA-LEX-DIAGNOSTICS-TRUNCATED"

end LexCode

/-! ### Decoded scalars -/

structure SourceChar where
  character : Char
  offset : Nat
  width : Nat
  deriving DecidableEq

/-- The fallback is for bytes that are not UTF-8. -/
def decodeChar (bytes : ByteArray) (offset : Nat) : Char × Nat :=
  match decodeUtf8At bytes offset with
  | .ok decoded => decoded
  | .error _ => (Char.ofNat 0xFFFD, 1)

structure CharScan where
  characters : List SourceChar := []
  offset : Nat := 0

def decodeCharsStep (bytes : ByteArray) (scan : CharScan) : CharScan :=
  let decoded := decodeChar bytes scan.offset
  { characters := scan.characters ++ [⟨decoded.1, scan.offset, decoded.2⟩]
    offset := scan.offset + decoded.2 }

def decodeChars (bytes : ByteArray) : List SourceChar :=
  (whileLoop (fun scan => bytes.size - scan.offset) (fun scan => scan.offset < bytes.size)
    (decodeCharsStep bytes) {}).characters

def byteOffsetAt (chars : List SourceChar) (bytes : ByteArray) (index : Nat) : Nat :=
  match chars[index]? with
  | some char => char.offset
  | none => bytes.size

def charAt? (chars : List SourceChar) (index : Nat) : Option Char :=
  match chars[index]? with
  | some char => some char.character
  | none => none

def slice (bytes : ByteArray) (start stop : Nat) : String :=
  match String.fromUTF8? (bytes.extract start stop) with
  | some text => text
  | none => ""

/-- C0 except tab and line breaks, DEL, and the C1 block. -/
def isControlScalar (character : Char) : Bool :=
  let code := character.toNat
  (code < 0x20 && character != '\t' && character != '\n' && character != '\r') ||
    (0x7F ≤ code && code ≤ 0x9F)

def utf8ProblemName : Utf8Problem → String
  | .unexpectedContinuationByte _ => "unexpectedContinuationByte"
  | .truncatedSequence _ _ _ => "truncatedSequence"
  | .overlongEncoding _ => "overlongEncoding"
  | .surrogateCodePoint _ => "surrogateCodePoint"
  | .codePointOutOfRange _ => "codePointOutOfRange"

def lexDiagnostic (source : SourceUnit) (code message : String) (range : SourceRange) :
    Diagnostic :=
  Diagnostic.error code .lex message (SourceLocation.ofUnit source range)

def pointRange (offset line column : Nat) : SourceRange :=
  { start := ⟨offset, line, column⟩, stop := ⟨offset, line, column⟩ }

def spanRange (startOffset stopOffset line column : Nat) : SourceRange :=
  { start := ⟨startOffset, line, column⟩, stop := ⟨stopOffset, line, column⟩ }

/-! ### Source pre-scan -/

structure ProblemScan where
  buffer : DiagnosticBuffer := {}
  offset : Nat := 0
  line : Nat := 1
  column : Nat := 1

def controlDiagnostic (source : SourceUnit) (character : Char) (width : Nat) (scan : ProblemScan) :
    Diagnostic :=
  (lexDiagnostic source LexCode.controlCharacter
    "control character is outside the revision-1 profile"
    (spanRange scan.offset (scan.offset + width) scan.line scan.column)).withArgument
    "code" (toString character.toNat)

def utf8Diagnostic (source : SourceUnit) (problem : Utf8Problem) (scan : ProblemScan) :
    Diagnostic :=
  (lexDiagnostic source LexCode.invalidUtf8 "source is not valid UTF-8"
    (spanRange scan.offset (scan.offset + 1) scan.line scan.column)).withArgument
    "problem" (utf8ProblemName problem)

def problemStep (limits : LexerLimits) (source : SourceUnit) (scan : ProblemScan) : ProblemScan :=
  match decodeUtf8At source.normalizedUtf8 scan.offset with
  | .ok decoded =>
      { buffer :=
          if isControlScalar decoded.1 then
            scan.buffer.push limits.diagnosticLimits
              (controlDiagnostic source decoded.1 decoded.2 scan)
          else scan.buffer
        offset := scan.offset + decoded.2
        line := if decoded.1 == '\n' then scan.line + 1 else scan.line
        column := if decoded.1 == '\n' then 1 else scan.column + 1 }
  | .error problem =>
      { scan with
        buffer := scan.buffer.push limits.diagnosticLimits (utf8Diagnostic source problem scan)
        offset := scan.offset + 1
        column := scan.column + 1 }

/-- Invalid UTF-8 and control scalars, up to the diagnostic budget. -/
def scanSourceProblems (limits : LexerLimits) (source : SourceUnit) : DiagnosticBuffer :=
  let bytes := source.normalizedUtf8
  (whileLoop (fun scan : ProblemScan => bytes.size - scan.offset)
    (fun scan => scan.offset < bytes.size && !scan.buffer.truncated) (problemStep limits source)
    {}).buffer

/-! ### Runs of scalars -/

def accepts (chars : List SourceChar) (accept : Char → Bool) (index : Nat) : Bool :=
  match chars[index]? with
  | some char => accept char.character
  | none => false

/-- The end of the run of accepted scalars that starts at `index`. -/
def runStop (accept : Char → Bool) (chars : List SourceChar) (index : Nat) : Nat :=
  whileLoop (fun current => chars.length - current) (accepts chars accept) (· + 1) index

def isHorizontalSpace (character : Char) : Bool :=
  character == ' ' || character == '\t'

def isStructuralSymbol (character : Char) : Bool :=
  character == '(' || character == ')' || character == '[' || character == ']' ||
    character == '\x7b' || character == '\x7d' || character == ','

def skipHorizontalSpaces : List SourceChar → Nat → Nat := runStop isHorizontalSpace

/-! ### Annotations -/

def isAnnotationBlank (character : Char) : Bool :=
  isHorizontalSpace character || character == '\n'

def dropAnnotationBlank (skipNewlines : Bool) : List Char → List Char
  | [] => []
  | character :: rest =>
      if isHorizontalSpace character || (skipNewlines && character == '\n') then
        dropAnnotationBlank skipNewlines rest
      else
        character :: rest

def isAnnotationNameChar (character : Char) : Bool :=
  isAsciiIdentifierChar character || character == '.' || character == '-'

def takeAnnotationName : List Char → List Char
  | [] => []
  | character :: rest =>
      if isAnnotationNameChar character then character :: takeAnnotationName rest else []

def dropAnnotationName : List Char → List Char
  | [] => []
  | character :: rest =>
      if isAnnotationNameChar character then dropAnnotationName rest else character :: rest

def trimAnnotationBlank (characters : List Char) : List Char :=
  ((characters.dropWhile isAnnotationBlank).reverse.dropWhile isAnnotationBlank).reverse

def stripAnnotationSemicolon (characters : List Char) : List Char :=
  match (trimAnnotationBlank characters).reverse with
  | ';' :: rest => trimAnnotationBlank rest.reverse
  | _ => trimAnnotationBlank characters

def annotationKindOf (name : String) : String :=
  if name.isEmpty then "annotation"
  else if name == "type" then "apalache.type"
  else s!"annotation:{name}"

/-- The annotation kind and payload of a comment payload that starts with `@`. -/
def annotationOfPayload? (block : Bool) (payload : List Char) : Option (String × String) :=
  match dropAnnotationBlank block payload with
  | '@' :: rest =>
      let name := String.ofList (takeAnnotationName rest)
      let afterName := dropAnnotationName rest
      let afterColon :=
        match afterName with
        | ':' :: tail => tail
        | _ => afterName
      some (annotationKindOf name, String.ofList (stripAnnotationSemicolon afterColon))
  | _ => none

/-- Between the opener of a comment and its terminator. -/
def commentPayload (bytes : ByteArray) (chars : List SourceChar) (payloadIndex stopIndex : Nat)
    (block closed : Bool) : List Char :=
  let payloadStop := if block && closed then stopIndex - 2 else stopIndex
  (slice bytes (byteOffsetAt chars bytes payloadIndex)
    (byteOffsetAt chars bytes payloadStop)).toList

/-! ### Trivia -/

structure TriviaRun where
  items : List Trivia := []
  index : Nat
  line : Nat
  column : Nat
  diagnostics : List Diagnostic := []
  scanning : Bool := true

/-- The item between two positions, with what it is annotated with. -/
def triviaItem (bytes : ByteArray) (chars : List SourceChar) (kind : TriviaKind)
    (note? : Option (String × String)) (start stop : Nat × Nat × Nat) : Trivia :=
  let startOffset := byteOffsetAt chars bytes start.1
  let stopOffset := byteOffsetAt chars bytes stop.1
  { kind := if note?.isSome then TriviaKind.annotation else kind
    spelling := slice bytes startOffset stopOffset
    range := { start := ⟨startOffset, start.2.1, start.2.2⟩, stop := ⟨stopOffset, stop.2.1, stop.2.2⟩ }
    annotationKind := note?.map Prod.fst
    annotationPayload := note?.map Prod.snd }

/-- The run after an item that ends at `stop`. -/
def TriviaRun.add (run : TriviaRun) (bytes : ByteArray) (chars : List SourceChar)
    (kind : TriviaKind) (note? : Option (String × String)) (stop : Nat × Nat × Nat) :
    TriviaRun :=
  { run with
    items := run.items ++
      [triviaItem bytes chars kind note? (run.index, run.line, run.column) stop]
    index := stop.1
    line := stop.2.1
    column := stop.2.2 }

def spaceItem (bytes : ByteArray) (chars : List SourceChar) (run : TriviaRun) : TriviaRun :=
  let stop := skipHorizontalSpaces chars run.index
  run.add bytes chars .whitespace none (stop, run.line, run.column + (stop - run.index))

def newlineItem (bytes : ByteArray) (chars : List SourceChar) (run : TriviaRun) : TriviaRun :=
  run.add bytes chars .newline none (run.index + 1, run.line + 1, 1)

def lineCommentItem (bytes : ByteArray) (chars : List SourceChar) (run : TriviaRun) : TriviaRun :=
  let stop := runStop (· != '\n') chars (run.index + 2)
  let note? :=
    annotationOfPayload? false (commentPayload bytes chars (run.index + 2) stop false false)
  run.add bytes chars .lineComment note? (stop, run.line, run.column + (stop - run.index))

structure BlockScan where
  index : Nat
  line : Nat
  column : Nat
  depth : Nat := 0
  nestingReported : Bool := false
  done : Bool := false
  diagnostics : List Diagnostic

def nestingDiagnostic (source : SourceUnit) (limits : LexerLimits) (bytes : ByteArray)
    (chars : List SourceChar) (scan : BlockScan) : Diagnostic :=
  (lexDiagnostic source LexCode.commentNesting
    "block comment nesting exceeds the configured limit"
    (spanRange (byteOffsetAt chars bytes scan.index) (byteOffsetAt chars bytes (scan.index + 2))
      scan.line scan.column)).withArgument "limit" (toString limits.maxCommentDepth)

def blockStep (source : SourceUnit) (limits : LexerLimits) (bytes : ByteArray)
    (chars : List SourceChar) (scan : BlockScan) : BlockScan :=
  let character? := charAt? chars scan.index
  let nextCharacter? := charAt? chars (scan.index + 1)
  if character? == some '(' && nextCharacter? == some '*' then
    let report := scan.depth + 1 > limits.maxCommentDepth && !scan.nestingReported
    { scan with
      depth := scan.depth + 1
      nestingReported := scan.nestingReported || report
      diagnostics :=
        if report then scan.diagnostics ++ [nestingDiagnostic source limits bytes chars scan]
        else scan.diagnostics
      index := scan.index + 2
      column := scan.column + 2 }
  else if character? == some '*' && nextCharacter? == some ')' then
    { scan with
      depth := scan.depth - 1
      index := scan.index + 2
      column := scan.column + 2
      done := scan.depth - 1 == 0 }
  else
    { scan with
      line := if character? == some '\n' then scan.line + 1 else scan.line
      column := if character? == some '\n' then 1 else scan.column + 1
      index := scan.index + 1 }

def scanBlock (source : SourceUnit) (limits : LexerLimits) (bytes : ByteArray)
    (chars : List SourceChar) (run : TriviaRun) : BlockScan :=
  whileLoop (fun scan : BlockScan => chars.length - scan.index)
    (fun scan => !scan.done && scan.index < chars.length) (blockStep source limits bytes chars)
    { index := run.index, line := run.line, column := run.column, diagnostics := run.diagnostics }

def unterminatedDiagnostic (source : SourceUnit) (bytes : ByteArray) (chars : List SourceChar)
    (run : TriviaRun) (stop : Nat) : Diagnostic :=
  lexDiagnostic source LexCode.unterminatedComment
    "block comment is not terminated before end of source"
    (spanRange (byteOffsetAt chars bytes run.index) (byteOffsetAt chars bytes stop)
      run.line run.column)

def blockCommentItem (source : SourceUnit) (limits : LexerLimits) (bytes : ByteArray)
    (chars : List SourceChar) (run : TriviaRun) : TriviaRun :=
  let scan := scanBlock source limits bytes chars run
  let note? :=
    annotationOfPayload? true
      (commentPayload bytes chars (run.index + 2) scan.index true scan.done)
  { run.add bytes chars .blockComment note? (scan.index, scan.line, scan.column) with
    diagnostics :=
      if scan.depth > 0 then
        scan.diagnostics ++ [unterminatedDiagnostic source bytes chars run scan.index]
      else scan.diagnostics }

def triviaStep (source : SourceUnit) (limits : LexerLimits) (bytes : ByteArray)
    (chars : List SourceChar) (run : TriviaRun) : TriviaRun :=
  let current? := charAt? chars run.index
  let next? := charAt? chars (run.index + 1)
  if current?.any isHorizontalSpace then
    spaceItem bytes chars run
  else if current? == some '\n' then
    newlineItem bytes chars run
  else if current? == some '\\' && next? == some '*' then
    lineCommentItem bytes chars run
  else if current? == some '(' && next? == some '*' then
    blockCommentItem source limits bytes chars run
  else
    { run with scanning := false }

def scanTrivia (source : SourceUnit) (limits : LexerLimits) (bytes : ByteArray)
    (chars : List SourceChar) (startIndex startLine startColumn : Nat) : TriviaRun :=
  whileLoop
    (fun run : TriviaRun => (chars.length - run.index) + if run.scanning then 1 else 0)
    (fun run => run.scanning && run.index < chars.length)
    (triviaStep source limits bytes chars)
    { index := startIndex, line := startLine, column := startColumn }

/-! ### Operator aliases -/

structure AliasEntry where
  spelling : String
  canonical : String
  characters : List Char
  byteLength : Nat
  deriving DecidableEq

def bucketIndex (character : Char) : Nat :=
  let code := character.toNat
  if 0x21 ≤ code && code ≤ 0x7E then code - 0x21 else 94

/-- Longer spellings first, then in alphabetical order. -/
def aliasBefore (entry existing : AliasEntry) : Bool :=
  if entry.byteLength != existing.byteLength then
    entry.byteLength > existing.byteLength
  else
    entry.spelling < existing.spelling

structure AliasInsertion where
  result : List AliasEntry := []
  inserted : Bool := false

def insertAliasStep (entry : AliasEntry) (scan : AliasInsertion) (existing : AliasEntry) :
    AliasInsertion :=
  if !scan.inserted && aliasBefore entry existing then
    { result := scan.result ++ [entry, existing], inserted := true }
  else
    { scan with result := scan.result ++ [existing] }

def insertAlias (entry : AliasEntry) (entries : List AliasEntry) : List AliasEntry :=
  let scan := entries.foldl (insertAliasStep entry) {}
  if scan.inserted then scan.result else scan.result ++ [entry]

def aliasEntryOf (canonical spelling : String) : AliasEntry :=
  { spelling
    canonical
    characters := spelling.toList
    byteLength := spelling.toUTF8.size }

def addAlias (canonical : String) (buckets : List (List AliasEntry)) (spelling : String) :
    List (List AliasEntry) :=
  match spelling.toList.head? with
  | none => buckets
  | some first =>
      let index := bucketIndex first
      buckets.set index (insertAlias (aliasEntryOf canonical spelling) (buckets.getD index []))

/-- The aliases of a profile by their first scalar. -/
def buildAliasBuckets (profile : LanguageProfile) : List (List AliasEntry) :=
  profile.symbols.foldl (fun buckets group =>
    group.spellings.foldl (addAlias group.canonical) buckets) (List.replicate 95 [])

structure AliasMatch where
  offset : Nat := 0
  matched : Bool := true

def matchesAliasStep (entry : AliasEntry) (chars : List SourceChar) (index : Nat)
    (scan : AliasMatch) : AliasMatch :=
  if charAt? chars (index + scan.offset) == entry.characters[scan.offset]? then
    { scan with offset := scan.offset + 1 }
  else
    { scan with matched := false }

def matchesAliasAt (entry : AliasEntry) (chars : List SourceChar) (index : Nat) : Bool :=
  if index + entry.characters.length > chars.length then
    false
  else
    (whileLoop
      (fun scan : AliasMatch =>
        (entry.characters.length - scan.offset) + if scan.matched then 1 else 0)
      (fun scan => scan.matched && scan.offset < entry.characters.length)
      (matchesAliasStep entry chars index) {}).matched

def aliasesAt (buckets : List (List AliasEntry)) (chars : List SourceChar) (index : Nat) :
    List AliasEntry :=
  match charAt? chars index with
  | some character => buckets.getD (bucketIndex character) []
  | none => []

def longestAliasMatch? (buckets : List (List AliasEntry)) (chars : List SourceChar)
    (index : Nat) : Option (String × Nat) :=
  (aliasesAt buckets chars index).findSome? fun entry =>
    if matchesAliasAt entry chars index then some (entry.canonical, entry.characters.length)
    else none

/-! ### Digits -/

def radixDigitValue? (radix : Nat) (character : Char) : Option Nat :=
  let code := character.toNat
  let candidate :=
    if 0x30 ≤ code && code ≤ 0x39 then some (code - 0x30)
    else if 0x41 ≤ code && code ≤ 0x46 then some (code - 0x41 + 10)
    else if 0x61 ≤ code && code ≤ 0x66 then some (code - 0x61 + 10)
    else none
  match candidate with
  | some value => if value < radix then some value else none
  | none => none

def foldRadixDigits (radix : Nat) (digits : List Char) : Int :=
  digits.foldl (fun value character =>
    match radixDigitValue? radix character with
    | some digit => value * (radix : Int) + (digit : Int)
    | none => value) 0

def charsBetween (chars : List SourceChar) (start stop : Nat) : List Char :=
  ((chars.drop start).take (stop - start)).map SourceChar.character

/-! ### Token scanning -/

structure TokenPiece where
  kind : TokenKind
  startIndex : Nat
  stopIndex : Nat

structure TokenScan where
  pieces : List TokenPiece
  stopIndex : Nat
  diagnostics : List Diagnostic

def singlePiece (kind : TokenKind) (startIndex stopIndex : Nat) : TokenScan :=
  { pieces := [⟨kind, startIndex, stopIndex⟩], stopIndex, diagnostics := [] }

def rejectedPiece (spelling : String) (startIndex stopIndex : Nat) (diagnostic : Diagnostic) :
    TokenScan :=
  { pieces := [⟨.symbol ⟨spelling⟩, startIndex, stopIndex⟩]
    stopIndex
    diagnostics := [diagnostic] }

def isIdentifierStart (character : Char) : Bool :=
  isAsciiLetter character || character == '_'

def isOperatorRunChar (character : Char) : Bool :=
  !isAsciiIdentifierChar character && !isHorizontalSpace character &&
    character != '\n' && !isStructuralSymbol character && character != '"' &&
    !isControlScalar character

def startsLineComment (chars : List SourceChar) (index : Nat) : Bool :=
  charAt? chars index == some '\\' && charAt? chars (index + 1) == some '*'

def maxOperatorRunStop (chars : List SourceChar) (startIndex : Nat) : Nat :=
  whileLoop (fun index => chars.length - index)
    (fun index => accepts chars isOperatorRunChar index && !startsLineComment chars index)
    (· + 1) startIndex

def dashRunStop : List SourceChar → Nat → Nat := runStop (· == '-')

def wordRunStop : List SourceChar → Nat → Nat := runStop isAsciiIdentifierChar

def endOfLineAt (chars : List SourceChar) (index : Nat) : Bool :=
  match charAt? chars (skipHorizontalSpaces chars index) with
  | some character => character == '\n'
  | none => true

/-- `---- MODULE Name ----` on a line of its own. -/
def moduleHeaderStop? (chars : List SourceChar) (bytes : ByteArray) (startIndex : Nat) :
    Option Nat :=
  let dashesStop := dashRunStop chars startIndex
  if dashesStop - startIndex < 4 then none
  else
    let keywordStart := skipHorizontalSpaces chars dashesStop
    let keywordStop := wordRunStop chars keywordStart
    if keywordStop == keywordStart then none
    else
      let keyword := slice bytes (byteOffsetAt chars bytes keywordStart)
        (byteOffsetAt chars bytes keywordStop)
      if keyword != "MODULE" then none
      else
        let nameStart := skipHorizontalSpaces chars keywordStop
        let nameStop := wordRunStop chars nameStart
        let name := slice bytes (byteOffsetAt chars bytes nameStart)
          (byteOffsetAt chars bytes nameStop)
        if !ModuleName.valid name then none
        else
          let trailingStart := skipHorizontalSpaces chars nameStop
          let trailingStop := dashRunStop chars trailingStart
          if trailingStop - trailingStart < 4 then none
          else if !endOfLineAt chars trailingStop then none
          else some trailingStop

def moduleEndStop? (chars : List SourceChar) (startIndex : Nat) : Option Nat :=
  let index := runStop (· == '=') chars startIndex
  if index - startIndex < 4 then none
  else if !endOfLineAt chars index then none
  else some index

structure LexContext where
  profile : LexicalProfile
  limits : LexerLimits
  source : SourceUnit
  bytes : ByteArray
  chars : List SourceChar
  buckets : List (List AliasEntry)

namespace LexContext

def offsetAt (context : LexContext) (index : Nat) : Nat :=
  byteOffsetAt context.chars context.bytes index

def textBetween (context : LexContext) (start stop : Nat) : String :=
  slice context.bytes (context.offsetAt start) (context.offsetAt stop)

end LexContext

structure StringScan where
  index : Nat
  closed : Bool := false
  lineBreak : Bool := false
  diagnostics : List Diagnostic := []

def isEscape (escaped : Char) : Bool :=
  escaped == '"' || escaped == '\\' || escaped == 't' ||
    escaped == 'n' || escaped == 'r' || escaped == 'f'

def escapeDiagnostic (context : LexContext) (startIndex line column : Nat) (index : Nat)
    (escaped : Char) : Diagnostic :=
  (lexDiagnostic context.source LexCode.invalidEscape "unsupported string escape"
    (spanRange (context.offsetAt index) (context.offsetAt (index + 2)) line
      (column + (index - startIndex)))).withArgument
    "escape" (String.ofList ['\\', escaped])

def stringStep (context : LexContext) (startIndex line column : Nat) (scan : StringScan) :
    StringScan :=
  let character? := charAt? context.chars scan.index
  if character? == some '\\' then
    match charAt? context.chars (scan.index + 1) with
    | some escaped =>
        { scan with
          diagnostics :=
            if isEscape escaped then scan.diagnostics
            else scan.diagnostics ++
              [escapeDiagnostic context startIndex line column scan.index escaped]
          index := scan.index + 2 }
    | none => { scan with index := scan.index + 1 }
  else if character? == some '"' then
    { scan with closed := true, index := scan.index + 1 }
  else if character? == some '\n' then
    { scan with lineBreak := true }
  else
    { scan with index := scan.index + 1 }

def stringBody (context : LexContext) (startIndex line column : Nat) : StringScan :=
  whileLoop
    (fun scan : StringScan =>
      (context.chars.length - scan.index) + if scan.lineBreak then 0 else 1)
    (fun scan => !scan.closed && !scan.lineBreak && scan.index < context.chars.length)
    (stringStep context startIndex line column) { index := startIndex + 1 }

def unclosedDiagnostic (context : LexContext) (startIndex line column : Nat)
    (code message : String) (stopIndex : Nat) : Diagnostic :=
  lexDiagnostic context.source code message
    (spanRange (context.offsetAt startIndex) (context.offsetAt stopIndex) line column)

def scanString (context : LexContext) (startIndex line column : Nat) : TokenScan :=
  let scan := stringBody context startIndex line column
  { pieces := [⟨.string, startIndex, scan.index⟩]
    stopIndex := scan.index
    diagnostics :=
      if scan.lineBreak then
        scan.diagnostics ++ [unclosedDiagnostic context startIndex line column
          LexCode.newlineInString "string literal is not terminated before the end of the line"
          scan.index]
      else if !scan.closed then
        scan.diagnostics ++ [unclosedDiagnostic context startIndex line column
          LexCode.unterminatedString "string literal is not terminated before end of source"
          scan.index]
      else
        scan.diagnostics }

structure WordScan where
  stop : Nat
  parts : List (Nat × Nat)

def scanWordParts (chars : List SourceChar) (startIndex : Nat) : WordScan :=
  let index := wordRunStop chars startIndex
  whileLoop (fun scan : WordScan => chars.length - scan.stop)
    (fun scan => charAt? chars scan.stop == some '!' && accepts chars isIdentifierStart (scan.stop + 1))
    (fun scan =>
      let partStop := wordRunStop chars (scan.stop + 1)
      { stop := partStop, parts := scan.parts ++ [(scan.stop + 1, partStop)] })
    { stop := index, parts := [(startIndex, index)] }

def identifierDiagnostic (context : LexContext) (startIndex line column : Nat)
    (part : Nat × Nat) (partBytes : Nat) : Diagnostic :=
  ((lexDiagnostic context.source LexCode.identifierTooLarge
    "identifier exceeds the configured byte limit"
    ⟨⟨context.offsetAt part.1, line, column + (part.1 - startIndex)⟩,
      ⟨context.offsetAt part.2, line, column + (part.2 - startIndex)⟩⟩).withArgument
    "limit" (toString context.limits.maxIdentifierBytes)).withArgument
    "observed" (toString partBytes)

def identifierDiagnostics (context : LexContext) (startIndex line column : Nat)
    (parts : List (Nat × Nat)) : List Diagnostic :=
  parts.foldl (fun diagnostics part =>
    let partBytes := context.offsetAt part.2 - context.offsetAt part.1
    if partBytes > context.limits.maxIdentifierBytes then
      diagnostics ++ [identifierDiagnostic context startIndex line column part partBytes]
    else diagnostics) []

def scanIdentifier (context : LexContext) (startIndex line column : Nat) : TokenScan :=
  let word := scanWordParts context.chars startIndex
  let firstStop := (word.parts.headD (startIndex, startIndex)).2
  let spelling := context.textBetween startIndex firstStop
  match context.profile.prefixKeywordAt? spelling with
  | some found =>
      singlePiece (.keyword found.1) startIndex (min (startIndex + found.2) firstStop)
  | none =>
      match context.profile.keyword? spelling with
      | some canonical => singlePiece (.keyword canonical) startIndex firstStop
      | none =>
          { pieces :=
              [⟨if word.parts.length > 1 then .qualifiedName else .identifier, startIndex,
                word.stop⟩]
            stopIndex := word.stop
            diagnostics := identifierDiagnostics context startIndex line column word.parts }

def radixPrefix? (chars : List SourceChar) (startIndex : Nat) : Option Nat :=
  match charAt? chars (startIndex + 1), charAt? chars (startIndex + 2) with
  | some prefixCharacter, some third =>
      if prefixCharacter == 'o' && isAsciiDigit third then some 8
      else if prefixCharacter == 'h' && (radixDigitValue? 16 third).isSome then some 16
      else if prefixCharacter == 'b' && isAsciiDigit third then some 2
      else none
  | _, _ => none

def isRadixDigit (radix : Nat) (character : Char) : Bool :=
  if radix == 16 then (radixDigitValue? 16 character).isSome else isAsciiDigit character

def tooLargeDiagnostic (context : LexContext) (range : SourceRange) (digits : List Char) :
    Diagnostic :=
  ((lexDiagnostic context.source LexCode.integerTooLarge
    "integer literal exceeds the configured digit limit" range).withArgument
    "limit" (toString context.limits.maxIntegerDigits)).withArgument
    "observed" (toString digits.length)

def LexContext.lineRange (context : LexContext) (startIndex line column stop : Nat) :
    SourceRange :=
  ⟨⟨context.offsetAt startIndex, line, column⟩,
    ⟨context.offsetAt stop, line, column + (stop - startIndex)⟩⟩

def scanRadixNumber (context : LexContext) (startIndex line column radix : Nat) : TokenScan :=
  let index := runStop (isRadixDigit radix) context.chars (startIndex + 2)
  let digits := charsBetween context.chars (startIndex + 2) index
  let spelling := context.textBetween startIndex index
  let range := context.lineRange startIndex line column index
  if digits.any fun character => (radixDigitValue? radix character).isNone then
    rejectedPiece spelling startIndex index
      ((lexDiagnostic context.source LexCode.invalidNumber
        "digit is outside the radix of this integer spelling" range).withArgument
        "radix" (toString radix))
  else if digits.length > context.limits.maxIntegerDigits then
    rejectedPiece spelling startIndex index (tooLargeDiagnostic context range digits)
  else
    singlePiece (.integer (foldRadixDigits radix digits)) startIndex index

/-- The end of a fraction or an exponent behind a decimal integer. -/
def unsupportedStop? (chars : List SourceChar) (index : Nat) : Option Nat :=
  if charAt? chars index == some '.' && accepts chars isAsciiDigit (index + 1) then
    some (runStop isAsciiDigit chars (index + 2))
  else if charAt? chars index == some 'e' || charAt? chars index == some 'E' then
    let signed :=
      if charAt? chars (index + 1) == some '+' || charAt? chars (index + 1) == some '-' then
        index + 2
      else index + 1
    if accepts chars isAsciiDigit signed then some (runStop isAsciiDigit chars (signed + 1))
    else none
  else none

def scanDecimal (context : LexContext) (startIndex line column : Nat) : TokenScan :=
  let index := runStop isAsciiDigit context.chars startIndex
  let digits := charsBetween context.chars startIndex index
  match unsupportedStop? context.chars index with
  | some stop =>
      rejectedPiece (context.textBetween startIndex stop) startIndex stop
        (lexDiagnostic context.source LexCode.invalidNumber
          "decimal fractions and exponents are outside the revision-1 profile"
          (context.lineRange startIndex line column stop))
  | none =>
      if digits.length > context.limits.maxIntegerDigits then
        rejectedPiece (context.textBetween startIndex index) startIndex index
          (tooLargeDiagnostic context (context.lineRange startIndex line column index) digits)
      else
        singlePiece (.integer (foldRadixDigits 10 digits)) startIndex index

def scanBackslashWord (context : LexContext) (startIndex : Nat) : TokenScan :=
  let index := wordRunStop context.chars (startIndex + 1)
  let spelling := context.textBetween startIndex index
  singlePiece (.symbol ⟨(context.profile.canonicalFor? spelling).getD spelling⟩) startIndex index

structure RunSplit where
  pieces : List TokenPiece := []
  index : Nat

def RunSplit.add (split : RunSplit) (canonical : String) (length : Nat) : RunSplit :=
  { pieces := split.pieces ++ [⟨.symbol ⟨canonical⟩, split.index, split.index + length⟩]
    index := split.index + length }

def scalarText (chars : List SourceChar) (index : Nat) : String :=
  String.ofList (charAt? chars index).toList

def decomposeStep (context : LexContext) (stopIndex : Nat) (split : RunSplit) : RunSplit :=
  match longestAliasMatch? context.buckets context.chars split.index with
  | some found =>
      if split.index + found.2 ≤ stopIndex then split.add found.1 found.2
      else split.add (scalarText context.chars split.index) 1
  | none => split.add (scalarText context.chars split.index) 1

/-- An operator run without a spelling of its own, split at the longest aliases. -/
def decomposeRun? (context : LexContext) (startIndex stopIndex : Nat) :
    Option (List TokenPiece) :=
  let split := whileLoop (fun split : RunSplit => stopIndex - split.index)
    (fun split => split.index < stopIndex) (decomposeStep context stopIndex)
    { index := startIndex }
  if split.pieces.length ≥ 2 then some split.pieces else none

def scanSymbol (context : LexContext) (startIndex : Nat) : TokenScan :=
  match longestAliasMatch? context.buckets context.chars startIndex with
  | some found => singlePiece (.symbol ⟨found.1⟩) startIndex (startIndex + found.2)
  | none =>
      if accepts context.chars isStructuralSymbol startIndex then
        singlePiece (.symbol ⟨scalarText context.chars startIndex⟩) startIndex (startIndex + 1)
      else
        let stop := maxOperatorRunStop context.chars startIndex
        let run := context.textBetween startIndex stop
        match context.profile.canonicalFor? run with
        | some canonical => singlePiece (.symbol ⟨canonical⟩) startIndex stop
        | none =>
            match decomposeRun? context startIndex stop with
            | some pieces => { pieces, stopIndex := stop, diagnostics := [] }
            | none => singlePiece (.symbol ⟨run⟩) startIndex stop

/-- A scalar outside ASCII: an admitted alias, or an error that names it. -/
def scanUnicode (context : LexContext) (current : Char) (startIndex line column : Nat) :
    TokenScan :=
  match longestAliasMatch? context.buckets context.chars startIndex with
  | some found => singlePiece (.symbol ⟨found.1⟩) startIndex (startIndex + found.2)
  | none =>
      let spelling := context.textBetween startIndex (startIndex + 1)
      let staged := context.profile.isStagedUnicode spelling
      let code := if staged then LexCode.unicodeStaged else LexCode.unknownCharacter
      let message :=
        if staged then "Unicode operator spelling is staged out of the revision-6 profile"
        else "character is outside the Unicode aliases admitted by the revision-6 profile"
      rejectedPiece spelling startIndex (startIndex + 1)
        (((lexDiagnostic context.source code message
          (context.lineRange startIndex line column (startIndex + 1))).withArgument
          "spelling" spelling).withArgument "code" (toString current.toNat))

def scanBackslash (context : LexContext) (startIndex line column : Nat) : TokenScan :=
  match radixPrefix? context.chars startIndex with
  | some radix => scanRadixNumber context startIndex line column radix
  | none =>
      if accepts context.chars isAsciiIdentifierChar (startIndex + 1) then
        scanBackslashWord context startIndex
      else
        scanSymbol context startIndex

def lineStartAt (chars : List SourceChar) (index : Nat) : Bool :=
  index == 0 || charAt? chars (index - 1) == some '\n'

def scanTokenAt (context : LexContext) (current : Char) (startIndex line column : Nat) :
    TokenScan :=
  let lineStart := lineStartAt context.chars startIndex
  if current.toNat > 0x7F then
    scanUnicode context current startIndex line column
  else if current == '"' then
    scanString context startIndex line column
  else if current == '-' && lineStart then
    match moduleHeaderStop? context.chars context.bytes startIndex with
    | some stopIndex => singlePiece .moduleHeader startIndex stopIndex
    | none => scanSymbol context startIndex
  else if current == '=' && lineStart then
    match moduleEndStop? context.chars startIndex with
    | some stopIndex => singlePiece .moduleEnd startIndex stopIndex
    | none => scanSymbol context startIndex
  else if isIdentifierStart current then
    scanIdentifier context startIndex line column
  else if isAsciiDigit current then
    scanDecimal context startIndex line column
  else if current == '\\' then
    scanBackslash context startIndex line column
  else
    scanSymbol context startIndex

/-! ### Main loop -/

structure LexState where
  buffer : DiagnosticBuffer := {}
  tokens : List Token := []
  pendingLeading : List Trivia := []
  previous : Option Token := none
  index : Nat := 0
  line : Nat := 1
  column : Nat := 1
  aborted : Bool := false

namespace LexState

def report (state : LexState) (limits : LexerLimits) (diagnostics : List Diagnostic) : LexState :=
  { state with
    buffer := diagnostics.foldl (DiagnosticBuffer.push limits.diagnosticLimits) state.buffer }

/-- Trivia up to the line break belongs to the previous token, the rest to the next. -/
def attach (state : LexState) (items : List Trivia) : LexState :=
  let before := items.takeWhile fun item => item.kind != .newline
  let after := items.dropWhile fun item => item.kind != .newline
  match state.previous with
  | some token =>
      { state with
        tokens := state.tokens ++ [{ token with trailingTrivia := before }]
        previous := none
        pendingLeading := state.pendingLeading ++ after }
  | none => { state with pendingLeading := state.pendingLeading ++ before ++ after }

def flush (state : LexState) : List Token :=
  match state.previous with
  | some token => state.tokens ++ [token]
  | none => state.tokens

end LexState

/-- A scan that always moves on. -/
def scanToken (context : LexContext) (current : Char) (index line column : Nat) : TokenScan :=
  let scanned := scanTokenAt context current index line column
  if scanned.stopIndex > index then
    scanned
  else
    { pieces := [⟨.symbol ⟨String.ofList [current]⟩, index, index + 1⟩]
      stopIndex := index + 1
      diagnostics := scanned.diagnostics }

structure PieceState where
  buffer : DiagnosticBuffer
  tokens : List Token
  previous : Option Token
  leading : List Trivia

def pieceRange (context : LexContext) (index line column : Nat) (piece : TokenPiece) :
    SourceRange :=
  ⟨⟨context.offsetAt piece.startIndex, line, column + (piece.startIndex - index)⟩,
    ⟨context.offsetAt piece.stopIndex, line, column + (piece.stopIndex - index)⟩⟩

def tokenSizeDiagnostic (context : LexContext) (range : SourceRange) : Diagnostic :=
  (lexDiagnostic context.source LexCode.tokenTooLarge "token exceeds the configured byte limit"
    range).withArgument "limit" (toString context.limits.maxTokenBytes)

def emitPiece (context : LexContext) (index line column : Nat) (state : PieceState)
    (piece : TokenPiece) : PieceState :=
  let range := pieceRange context index line column piece
  let token : Token :=
    { kind := piece.kind
      spelling := context.textBetween piece.startIndex piece.stopIndex
      range
      leadingTrivia := state.leading
      trailingTrivia := [] }
  { buffer :=
      if range.stop.offset - range.start.offset > context.limits.maxTokenBytes then
        state.buffer.push context.limits.diagnosticLimits (tokenSizeDiagnostic context range)
      else state.buffer
    tokens :=
      match state.previous with
      | some pending => state.tokens ++ [pending]
      | none => state.tokens
    previous := some token
    leading := [] }

def emitPieces (context : LexContext) (state : LexState) (scan : TokenScan) : LexState :=
  let reported := state.report context.limits scan.diagnostics
  let pieces := scan.pieces.foldl (emitPiece context state.index state.line state.column)
    { buffer := reported.buffer
      tokens := state.tokens
      previous := state.previous
      leading := state.pendingLeading }
  { buffer := pieces.buffer
    tokens := pieces.tokens
    pendingLeading := []
    previous := pieces.previous
    index := scan.stopIndex
    line := state.line
    column := state.column + (scan.stopIndex - state.index)
    aborted := state.aborted || pieces.buffer.truncated }

def tokenLimitDiagnostic (context : LexContext) (state : LexState) : Diagnostic :=
  (lexDiagnostic context.source LexCode.tooManyTokens "token count exceeds the configured limit"
    (pointRange (context.offsetAt state.index) state.line state.column)).withArgument
    "limit" (toString context.limits.maxTokens)

def skipTrivia (context : LexContext) (state : LexState) : LexState :=
  let run := scanTrivia context.source context.limits context.bytes context.chars state.index
    state.line state.column
  { (state.report context.limits run.diagnostics).attach run.items with
    index := run.index
    line := run.line
    column := run.column }

def lexToken (context : LexContext) (state : LexState) : LexState :=
  if state.buffer.truncated then
    { state with aborted := true }
  else
    match charAt? context.chars state.index with
    | none => state
    | some current =>
        let emitted := state.tokens.length + if state.previous.isSome then 1 else 0
        if emitted ≥ context.limits.maxTokens then
          { state.report context.limits [tokenLimitDiagnostic context state] with aborted := true }
        else
          emitPieces context state
            (scanToken context current state.index state.line state.column)

def lexStep (context : LexContext) (state : LexState) : LexState :=
  lexToken context (skipTrivia context state)

def lexLoop (context : LexContext) : LexState :=
  whileLoop
    (fun state : LexState => (context.chars.length - state.index) + if state.aborted then 0 else 1)
    (fun state => !state.aborted && state.index < context.chars.length) (lexStep context) {}

structure TokenScanResult where
  tokens : List Token
  diagnostics : DiagnosticBuffer
  endPosition : SourcePosition
  aborted : Bool

def eofToken (context : LexContext) (state : LexState) : Token :=
  let endPosition : SourcePosition := ⟨context.bytes.size, state.line, state.column⟩
  { kind := .eof
    spelling := ""
    range := ⟨endPosition, endPosition⟩
    leadingTrivia := state.pendingLeading
    trailingTrivia := [] }

def scanTokens (context : LexContext) : TokenScanResult :=
  let state := lexLoop context
  { tokens := state.flush ++ [eofToken context state]
    diagnostics := state.buffer
    endPosition := ⟨context.bytes.size, state.line, state.column⟩
    aborted := state.aborted }

/-! ### Entry point -/

def truncationNotice (source : SourceUnit) (buffer : DiagnosticBuffer)
    (endPosition : SourcePosition) : Diagnostic :=
  (lexDiagnostic source LexCode.diagnosticsTruncated
    "diagnostic budget exhausted; further diagnostics were dropped"
    ⟨endPosition, endPosition⟩).withArgument "dropped" (toString buffer.dropped)

def finishDiagnostics (source : SourceUnit) (buffer : DiagnosticBuffer)
    (endPosition : SourcePosition) : List Diagnostic :=
  if buffer.truncated then buffer.diagnostics ++ [truncationNotice source buffer endPosition]
  else buffer.diagnostics

def sourceSizeDiagnostic (limits : LexerLimits) (source : SourceUnit) : Diagnostic :=
  ((lexDiagnostic source LexCode.sourceTooLarge "source exceeds the configured byte limit"
    (pointRange 0 1 1)).withArgument "limit" (toString limits.maxSourceBytes)).withArgument
    "observed" (toString source.normalizedUtf8.size)

def lexContext (profile : LexicalProfile) (limits : LexerLimits) (source : SourceUnit) :
    LexContext :=
  { profile
    limits
    source
    bytes := source.normalizedUtf8
    chars := decodeChars source.normalizedUtf8
    buckets := buildAliasBuckets profile.toLanguageProfile }

def lex (profile : LexicalProfile) (limits : LexerLimits) (source : SourceUnit) :
    Except (List Diagnostic) TokenStream :=
  let bytes := source.normalizedUtf8
  if bytes.size > limits.maxSourceBytes then
    .error [sourceSizeDiagnostic limits source]
  else
    let problemBuffer := scanSourceProblems limits source
    if problemBuffer.truncated || !problemBuffer.diagnostics.isEmpty then
      .error (finishDiagnostics source problemBuffer ⟨bytes.size, 1, 1⟩)
    else
      let result := scanTokens (lexContext profile limits source)
      if result.diagnostics.diagnostics.any Diagnostic.hasErrorSeverity ||
          result.diagnostics.truncated then
        .error (finishDiagnostics source result.diagnostics result.endPosition)
      else
        .ok { tokens := result.tokens }

end MirrorsCore.Tla
