import Mathlib
import MirrorsCore.Lib.BoundedLoop
import MirrorsCore.Tla.Profile
import MirrorsCore.Tla.Syntax
import MirrorsCore.Tla.Token

/-! The parser's state, its operator lookups and its token access
(`Core/Tla/Parser.lean`, up to the expression grammar). -/

namespace MirrorsCore.Tla
open Lib

structure ParserLimits where
  maxDeclarations : Nat := 4096
  maxNestingDepth : Nat := 256
  maxDiagnostics : Nat := 64
  maxDiagnosticBytes : Nat := 1024 * 1024
  deriving DecidableEq

def ParserLimits.diagnosticLimits (limits : ParserLimits) : DiagnosticLimits :=
  { maxCount := limits.maxDiagnostics, maxBytes := limits.maxDiagnosticBytes }

namespace ParseCode

def moduleHeader : String := "TLA-PARSE-MODULE-HEADER"
def moduleEnd : String := "TLA-PARSE-MODULE-END"
def trailingContent : String := "TLA-PARSE-TRAILING-CONTENT"
def expectedIdentifier : String := "TLA-PARSE-EXPECTED-IDENTIFIER"
def expectedExpression : String := "TLA-PARSE-EXPECTED-EXPRESSION"
def mixedBounds : String := "TLA-PARSE-MIXED-BOUNDS"
def expectedToken : String := "TLA-PARSE-EXPECTED-TOKEN"
def declarationLimit : String := "TLA-PARSE-DECLARATION-LIMIT"
def nestingDepth : String := "TLA-PARSE-NESTING-DEPTH"
def recursionLimit : String := "TLA-PARSE-RECURSION-LIMIT"
def precedenceConflict : String := "TLA-PARSE-PRECEDENCE-CONFLICT"
def pluscal : String := "TLA-PARSE-PLUSCAL-STAGED"
def proofTermination : String := "TLA-PARSE-PROOF-TERMINATION"
def proofUnsupported : String := "TLA-PARSE-PROOF-UNSUPPORTED"
def diagnosticsTruncated : String := "TLA-PARSE-DIAGNOSTICS-TRUNCATED"
def streamEof : String := "TLA-PARSE-STREAM-EOF"
def streamTextMismatch : String := "TLA-PARSE-STREAM-TEXT-MISMATCH"

end ParseCode

/-! ### Operator identity of a token -/

/-- The profile's canonical spelling, or the token's own one outside it. -/
def symbolSpelling (profile : LanguageProfile) (token : Token) : String :=
  match token.kind with
  | .symbol symbol => (profile.canonicalFor? symbol.canonical).getD symbol.canonical
  | _ => token.spelling

def structuralOperatorExclusions : List String := ["\\A", "\\E"]

def isUserOperatorSpelling (spelling : String) : Bool :=
  spelling.startsWith "\\" && !structuralOperatorExclusions.contains spelling

def isUserPostfixSpelling (parserProfile : ParserProfile) (spelling : String) : Bool :=
  isUserOperatorSpelling spelling &&
    (parserProfile.findOperator? spelling .infixOperator).isNone &&
    (parserProfile.findOperator? spelling .prefixOperator).isNone

def operatorOf? (fixity : SymbolFixity) (parserProfile : ParserProfile)
    (profile : LanguageProfile) (token : Token) : Option OperatorEntry :=
  match token.kind with
  | .symbol _ => parserProfile.findOperator? (symbolSpelling profile token) fixity
  | _ => none

def infixOperatorOf? : ParserProfile → LanguageProfile → Token → Option OperatorEntry :=
  operatorOf? .infixOperator

def prefixOperatorOf? : ParserProfile → LanguageProfile → Token → Option OperatorEntry :=
  operatorOf? .prefixOperator

def postfixOperatorOf? : ParserProfile → LanguageProfile → Token → Option OperatorEntry :=
  operatorOf? .postfixOperator

def postfixDefinitionName? (parserProfile : ParserProfile) (profile : LanguageProfile)
    (token : Token) : Option String :=
  match token.kind with
  | .symbol _ =>
      let spelling := symbolSpelling profile token
      match postfixOperatorOf? parserProfile profile token with
      | some entry => some entry.canonical
      | none => if isUserPostfixSpelling parserProfile spelling then some spelling else none
  | _ => none

/-- A prefix definition needs a prefix entry and no infix entry. -/
def prefixDefinitionOf? (parserProfile : ParserProfile) (profile : LanguageProfile)
    (token : Token) : Option String :=
  match token.kind with
  | .symbol _ =>
      let spelling := symbolSpelling profile token
      match parserProfile.findOperator? spelling .prefixOperator with
      | some entry =>
          if (parserProfile.findOperator? spelling .infixOperator).isSome then none
          else some entry.canonical
      | none => none
  | _ => none

/-! ### State -/

/-- An open concrete-syntax frame with the children consumed so far. -/
structure Frame where
  kind : CstKind
  fallback : SourceRange
  children : List CstNode := []

structure ParserState where
  profile : LanguageProfile
  parserProfile : ParserProfile
  limits : ParserLimits
  source : SourceUnit
  tokens : List Token
  position : Nat := 0
  lastStop : SourcePosition := ⟨0, 1, 1⟩
  nesting : Nat := 0
  frames : List Frame := []
  diagnostics : DiagnosticBuffer := {}
  declarations : List Declaration := []
  declarationCount : Nat := 0
  moduleName : Option ModuleName := none
  moduleRange : SourceRange := zeroRange
  /-- The bullet column of the enclosing prefix list, if any. -/
  junctionBoundaryColumn : Option Nat := none
  halted : Bool := false

abbrev ParserM := StateM ParserState

/-- The variant of every parser loop: a round that goes on consumes a token or
halts the parser. -/
def ParserState.remaining (state : ParserState) : Nat :=
  (state.tokens.length - state.position) + if state.halted then 0 else 1

def parserLoop {β : Type} (body : β → ParserM (ForInStep β)) (b : β) : ParserM β :=
  boundedLoop ParserState.remaining body b

/-! ### Frames and leaves -/

def pushChild (frames : List Frame) (child : CstNode) : List Frame :=
  match frames with
  | [] => []
  | frame :: rest => { frame with children := frame.children ++ [child] } :: rest

/-- From the first child's start through the last child's stop. -/
def nodeRange (fallback : SourceRange) (children : List CstNode) : SourceRange :=
  match children with
  | [] => fallback
  | first :: _ =>
      match children.getLast? with
      | some last => ⟨first.range.start, last.range.stop⟩
      | none => fallback

def wrapFrame (frame : Frame) : CstNode :=
  .node frame.kind (nodeRange frame.fallback frame.children) frame.children

def emptyRoot : CstModule :=
  { root := .node .moduleRoot zeroRange [] }

/-! ### Token access -/

def peek? : ParserM (Option Token) := do
  let state ← get
  return state.tokens[state.position]?

def peekAt? (offset : Nat) : ParserM (Option Token) := do
  let state ← get
  return state.tokens[state.position + offset]?

def currentRange : ParserM SourceRange := do
  let state ← get
  match state.tokens[state.position]? with
  | some token => return token.range
  | none => return ⟨state.lastStop, state.lastStop⟩

def currentStop : ParserM SourcePosition := do
  let state ← get
  return state.lastStop

def position : ParserM Nat := do
  let state ← get
  return state.position

def halted? : ParserM Bool := do
  let state ← get
  return state.halted

def profileOf : ParserM LanguageProfile := do
  let state ← get
  return state.profile

def parserProfileOf : ParserM ParserProfile := do
  let state ← get
  return state.parserProfile

def ParserState.consume (state : ParserState) (token : Token) : ParserState :=
  { state with
    position := state.position + 1
    lastStop := token.range.stop
    frames := pushChild state.frames (.token token) }

/-- Consume the current token, unless it is the end of the stream. -/
def advance : ParserM Unit := do
  let state ← get
  match state.tokens[state.position]? with
  | none => pure ()
  | some token =>
      if token.kind.isEof then
        pure ()
      else
        set (state.consume token)

def openFrame (kind : CstKind) : ParserM Unit := do
  let state ← get
  set { state with
        frames := { kind, fallback := ⟨state.lastStop, state.lastStop⟩ } :: state.frames }

/-- The frame stack after its innermost frame is wrapped into a node. -/
def wrapTop (frames : List Frame) : List Frame :=
  match frames with
  | [] => []
  | frame :: rest => pushChild rest (wrapFrame frame)

def closeFrame : ParserM Unit := do
  let state ← get
  set { state with frames := wrapTop state.frames }

def closeFramesTo (remaining : Nat) : Nat → ParserM Unit
  | 0 => pure ()
  | fuel + 1 => do
    let state ← get
    if state.frames.length > remaining then
      closeFrame
      closeFramesTo remaining fuel
    else
      pure ()

/-! ### Diagnostics -/

def stateLocation (state : ParserState) (range : SourceRange) : SourceLocation :=
  { moduleName := state.moduleName, logicalPath := state.source.logicalPath, range }

def emitError (code message : String) (range : SourceRange) : ParserM Unit := do
  let state ← get
  let diagnostic := Diagnostic.error code .parse message (stateLocation state range)
  set { state with
        diagnostics := state.diagnostics.push state.limits.diagnosticLimits diagnostic }

def haltParser : ParserM Unit :=
  modify fun state => { state with halted := true }

def emitLimit (code message : String) (range : SourceRange) : ParserM Unit := do
  emitError code message range
  haltParser

/-- Run `body` one nested syntax level deeper, or report the depth limit. -/
def withNesting {α : Type} (opening : SourceRange) (body : ParserM α) : ParserM (Option α) := do
  let state ← get
  if state.nesting + 1 > state.limits.maxNestingDepth then
    emitLimit ParseCode.nestingDepth
      s!"nested syntax exceeds the depth limit of {state.limits.maxNestingDepth}" opening
    return none
  else
    let saved := state.nesting
    set { state with nesting := saved + 1 }
    let result ← body
    modify fun current => { current with nesting := saved }
    return some result

def renderSpelling (spelling : String) : String :=
  if spelling.length > 24 then (spelling.take 24).toString ++ "..." else spelling

def decodeEscapes : List Char → List Char
  | [] => []
  | '\\' :: escaped :: rest =>
      (match escaped with
        | '"' => '"'
        | '\\' => '\\'
        | 't' => '\t'
        | 'n' => '\n'
        | 'r' => '\r'
        | 'f' => Char.ofNat 12
        | other => other) :: decodeEscapes rest
  | '\\' :: [] => ['\\']
  | character :: rest => character :: decodeEscapes rest

/-- The value of a string token: its body with each escape read once. -/
def decodeStringLiteral (spelling : String) : String :=
  let body := match spelling.toList with
    | '"' :: rest =>
        match rest.reverse with
        | '"' :: reversed => reversed.reverse
        | _ => rest
    | other => other
  String.ofList (decodeEscapes body)

/-! ### Token classification -/

def keywordOf? (token : Token) : Option String :=
  match token.kind with
  | .keyword spelling => some spelling
  | _ => none

def symbolOf? (profile : LanguageProfile) (token : Token) : Option String :=
  match token.kind with
  | .symbol _ => some (symbolSpelling profile token)
  | _ => none

def identifierOf? (token : Token) : Option String :=
  match token.kind with
  | .identifier => some token.spelling
  | _ => none

def qualifiedOf? (token : Token) : Option (String × String) :=
  match token.kind with
  | .qualifiedName =>
      match token.spelling.splitOn "!" with
      | [qualifier, name] => some (qualifier, name)
      | _ => none
  | _ => none

def isSymbolToken (profile : LanguageProfile) (token : Token) (canonical : String) : Bool :=
  match symbolOf? profile token with
  | some spelling => spelling == canonical
  | none => false

def peekSymbol (canonical : String) : ParserM Bool := do
  let profile ← profileOf
  match ← peek? with
  | some token => return isSymbolToken profile token canonical
  | none => return false

def peekKeyword (canonical : String) : ParserM Bool := do
  match ← peek? with
  | some token => return token.kind.isKeyword canonical
  | none => return false

def consumeSymbol (canonical : String) : ParserM Bool := do
  if ← peekSymbol canonical then
    advance
    return true
  else
    return false

def consumeKeyword (canonical : String) : ParserM Bool := do
  if ← peekKeyword canonical then
    advance
    return true
  else
    return false

def consumeIdentifier : ParserM (Option String) := do
  match ← peek? with
  | some token =>
      match identifierOf? token with
      | some name =>
          advance
          return some name
      | none => return none
  | none => return none

def expectSymbol (canonical : String) : ParserM Bool := do
  if ← consumeSymbol canonical then
    return true
  else
    let range ← currentRange
    emitError ParseCode.expectedToken s!"expected '{canonical}'" range
    return false

def expectKeyword (canonical : String) : ParserM Bool := do
  if ← consumeKeyword canonical then
    return true
  else
    let range ← currentRange
    emitError ParseCode.expectedToken s!"expected the reserved word '{canonical}'" range
    return false

def expectName : ParserM (Option (String × SourceRange)) := do
  match ← peek? with
  | some token =>
      match identifierOf? token with
      | some name =>
          advance
          return some (name, token.range)
      | none =>
          emitError ParseCode.expectedIdentifier
            s!"expected a name but found '{renderSpelling token.spelling}'" token.range
          return none
  | none =>
      let range ← currentRange
      emitError ParseCode.expectedIdentifier "expected a name before end of input" range
      return none

/-! ### Junction boundary -/

/-- Run one junction-list item under the column of its bullet. -/
def withJunctionBoundary {α : Type} (column : Nat) (action : ParserM α) : ParserM α := do
  let previous := (← get).junctionBoundaryColumn
  modify fun state => { state with junctionBoundaryColumn := some column }
  let result ← action
  modify fun state => { state with junctionBoundaryColumn := previous }
  return result

/-- The current token is a junction at or left of the enclosing bullet column. -/
def atJunctionBoundary : ParserM Bool := do
  let state ← get
  match state.junctionBoundaryColumn, state.tokens[state.position]? with
  | some column, some token =>
      let spelling := symbolSpelling state.profile token
      return isJunctionSpelling spelling && token.range.start.column ≤ column
  | _, _ => return false

/-- The infix operator of exactly `level` that the next token starts. -/
def nextInfixAt? (level : Nat) : ParserM (Option OperatorEntry) := do
  let state ← get
  match state.tokens[state.position]? with
  | none => return none
  | some token =>
      match infixOperatorOf? state.parserProfile state.profile token with
      | none => return none
      | some entry => return if entry.level == level then some entry else none

end MirrorsCore.Tla
