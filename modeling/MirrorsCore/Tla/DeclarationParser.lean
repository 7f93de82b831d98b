import Mathlib
import MirrorsCore.Tla.ExpressionParser

/-! Declarations, opaque proof regions and whole modules (`Core/Tla/Parser.lean`,
from the declaration parsers to the entry points). The parser of expressions is
an argument up to the last definition. -/

namespace MirrorsCore.Tla

/-! ### What starts a declaration -/

def declarationKeywords : List String := [
  "CONSTANT", "CONSTANTS", "VARIABLE", "VARIABLES", "RECURSIVE", "LOCAL",
  "EXTENDS", "INSTANCE", "ASSUME", "ASSUMPTION", "AXIOM", "THEOREM", "LEMMA",
  "PROPOSITION", "COROLLARY"]

def isDeclarationKeyword (canonical : String) : Bool :=
  declarationKeywords.contains canonical

def startsDeclarationAt? (profile : LanguageProfile) (tokens : List Token)
    (position : Nat) : Bool :=
  match tokens[position]? with
  | none => false
  | some token =>
      match keywordOf? token with
      | some keyword => isDeclarationKeyword keyword
      | none =>
          match token.kind with
          | .identifier =>
              match tokens[position + 1]? with
              | some next =>
                  match symbolOf? profile next with
                  | some spelling => spelling == "=="
                  | none => false
              | none => false
          | _ => false

def plusCalText? (spelling : String) : Bool :=
  (spelling.splitOn "--algorithm").length > 1 ||
    (spelling.splitOn "--fair algorithm").length > 1

def tokenPlusCalRange? (token : Token) : Option SourceRange :=
  let trivia := token.leadingTrivia ++ token.trailingTrivia
  trivia.findSome? fun item =>
    match item.kind with
    | .lineComment => if plusCalText? item.spelling then some item.range else none
    | .blockComment => if plusCalText? item.spelling then some item.range else none
    | _ => none

def plusCalRange? (tokens : List Token) : Option SourceRange :=
  tokens.findSome? tokenPlusCalRange?

/-! ### Comma-separated names -/

def recordDeclaration (declaration : Declaration) : ParserM Unit :=
  modify fun state =>
    { state with
      declarations := state.declarations ++ [declaration]
      declarationCount := state.declarationCount + 1 }

/-- The list after one more item; a missing item spoils it. -/
def addItem {β : Type} (list : List β × Bool) (item : Option β) : List β × Bool :=
  match item with
  | some b => (list.1 ++ [b], list.2)
  | none => (list.1, false)

def nameListStep {β : Type} (readItem : String → SourceRange → ParserM (Option β))
    (list : List β × Bool) : ParserM (ForInStep (List β × Bool)) := do
  match ← expectName with
  | none => return .done (list.1, false)
  | some named =>
      let item ← readItem named.1 named.2
      if ← consumeSymbol "," then
        return .yield (addItem list item)
      else
        return .done (addItem list item)

def parseNameList {β : Type} (kind : CstKind)
    (readItem : String → SourceRange → ParserM (Option β))
    (build : List β → SourcePosition → Declaration) : ParserM (Option Declaration) := do
  openFrame kind
  advance
  let list ← parserLoop (nameListStep readItem) ([], true)
  closeFrame
  if list.2 && !list.1.isEmpty then
    let stop ← currentStop
    return some (build list.1 stop)
  else
    return none

def readImportedModule (name : String) (nameRange : SourceRange) :
    ParserM (Option ImportedModule) := do
  match ModuleName.ofString? name with
  | some moduleName => return some { name := moduleName, range := nameRange }
  | none =>
      emitError ParseCode.expectedIdentifier
        s!"'{renderSpelling name}' is not a module name" nameRange
      return none

def parseExtends (isLocal : Bool) (startRange : SourceRange) : ParserM (Option Declaration) :=
  parseNameList .extendsDeclaration readImportedModule fun modules stop =>
    .extendsDeclaration { modules, isLocal, range := ⟨startRange.start, stop⟩ }

def parseConstants (startRange : SourceRange) : ParserM (Option Declaration) :=
  parseNameList .declaration
    (fun name range => return some ({ name, arity := 0, range } : OperatorDecl))
    fun names stop => .constant ⟨startRange.start, stop⟩ names

def parseVariables (startRange : SourceRange) : ParserM (Option Declaration) :=
  parseNameList .declaration (fun name range => return some ({ name, range } : NameDecl))
    fun names stop => .variable ⟨startRange.start, stop⟩ names

def optionalArity (fuel : Nat) : ParserM Nat := do
  if ← consumeSymbol "(" then
    parseAritySpec fuel
  else
    return 0

def readRecursiveOperator (fuel : Nat) (name : String) (nameRange : SourceRange) :
    ParserM (Option OperatorDecl) := do
  let arity ← optionalArity fuel
  let stop ← currentStop
  return some { name, arity, range := ⟨nameRange.start, stop⟩ }

def parseRecursive (fuel : Nat) (startRange : SourceRange) : ParserM (Option Declaration) :=
  parseNameList .declaration (readRecursiveOperator fuel)
    fun operators stop => .recursive ⟨startRange.start, stop⟩ operators

/-! ### Opaque proof regions -/

/-- `ASSUME` and `ASSUMPTION` are proof steps; other declarations are foreign. -/
def foreignProofDeclarationKeyword (canonical : String) : Bool :=
  isDeclarationKeyword canonical && canonical != "ASSUME" && canonical != "ASSUMPTION"

def delimiterCloser? : String → Option String
  | "(" => some ")"
  | "[" => some "]"
  | "\x7b" => some "\x7d"
  | "<<" => some ">>"
  | _ => none

def delimiterOpener? : String → Option String
  | ")" => some "("
  | "]" => some "["
  | "\x7d" => some "\x7b"
  | ">>" => some "<<"
  | _ => none

def proofLabelTokenLimit : Nat := 8

/-- The index of the `.` that ends a label body, among `remaining` tokens. -/
def proofLabelDotFrom? (profile : LanguageProfile) (tokens : List Token)
    (index count : Nat) : Nat → Option Nat
  | 0 => none
  | remaining + 1 =>
      match tokens[index]? with
      | none => none
      | some token =>
          match token.kind with
          | .identifier => proofLabelDotFrom? profile tokens (index + 1) (count + 1) remaining
          | .integer _ => proofLabelDotFrom? profile tokens (index + 1) (count + 1) remaining
          | .symbol _ =>
              if count > 0 && symbolSpelling profile token == "." then some index else none
          | _ => none

def proofLabelDot? (profile : LanguageProfile) (tokens : List Token) (position : Nat) :
    Option Nat :=
  proofLabelDotFrom? profile tokens position 0 (proofLabelTokenLimit + 1)

/-- A step label `<level>label.` and the number of its tokens. -/
structure ProofStepLabel where
  level : Nat
  length : Nat
  deriving DecidableEq

def proofStepLabelAt? (profile : LanguageProfile) (tokens : List Token) (position : Nat) :
    Option ProofStepLabel :=
  match tokens[position]?, tokens[position + 1]?, tokens[position + 2]? with
  | some opening, some levelToken, some closing =>
      if symbolSpelling profile opening != "<" || symbolSpelling profile closing != ">" then
        none
      else
        match levelToken.kind with
        | .integer level =>
            if level ≤ 0 then
              none
            else
              match proofLabelDot? profile tokens (position + 3) with
              | some dot => some { level := level.toNat, length := dot - position + 1 }
              | none => none
        | _ => none
  | _, _, _ => none

/-- An open scope of a proof; `charged` scopes spend nesting depth. -/
inductive ProofScope where
  | region
  | step (level : Nat) (charged : Bool)
  deriving DecidableEq

structure ProofScan where
  scopes : List ProofScope := []
  delimiters : List String := []
  depth : Nat := 0
  budget : Nat
  pendingLevel : Option Nat := none

/-- One error, and the end of the scan. -/
def stopScan {β : Type} (code message : String) (range : SourceRange) (scan : β) :
    ParserM (ForInStep β) := do
  emitError code message range
  haltParser
  return .done scan

def advanceBy : Nat → ParserM Unit
  | 0 => pure ()
  | n + 1 => do
    advance
    advanceBy n

def proofAdvance (scan : ProofScan) : ParserM (ForInStep ProofScan) := do
  advance
  return .yield { scan with pendingLevel := none }

def mismatchedQed (token : Token) (scan : ProofScan) : ParserM (ForInStep ProofScan) :=
  stopScan ParseCode.proofUnsupported
    "a QED step label does not close the innermost open step proof" token.range scan

/-- A `QED` closes the step it is labelled for, the innermost nested region, or
the whole region. -/
def proofQed (token : Token) (scan : ProofScan) : ParserM (ForInStep ProofScan) :=
  match scan.pendingLevel, scan.scopes.getLast? with
  | some level, some (.step openLevel charged) =>
      if level == openLevel then do
        advance
        let scan : ProofScan :=
          { scan with
            pendingLevel := none
            depth := if charged then scan.depth - 1 else scan.depth
            scopes := scan.scopes.dropLast }
        if scan.scopes.isEmpty then
          return .done scan
        else
          return .yield scan
      else
        mismatchedQed token scan
  | some _, _ => mismatchedQed token scan
  | none, some .region => do
      advance
      return .yield { scan with depth := scan.depth - 1, scopes := scan.scopes.dropLast }
  | none, some (.step _ _) => do
      advance
      return .done { scan with scopes := scan.scopes.dropLast }
  | none, none => do
      advance
      return .done scan

def exhaustedProof (token : Token) (scan : ProofScan) : ParserM (ForInStep ProofScan) := do
  emitLimit ParseCode.recursionLimit "parser resource budget exhausted inside a proof region"
    token.range
  return .done scan

def deepProof (maxNestingDepth : Nat) (token : Token) (scan : ProofScan) :
    ParserM (ForInStep ProofScan) := do
  emitLimit ParseCode.nestingDepth
    s!"nested proof scope exceeds the depth limit of {maxNestingDepth}" token.range
  return .done scan

def isTerminalProof (next? : Option Token) : Bool :=
  match next? with
  | some next => next.kind.isKeyword "OMITTED" || next.kind.isKeyword "OBVIOUS"
  | none => false

/-- A `PROOF` inside a region: one terminal pair, or a nested region. -/
def proofNested (token : Token) (scan : ProofScan) : ParserM (ForInStep ProofScan) := do
  let state ← get
  if isTerminalProof state.tokens[state.position + 1]? then
    advance
    advance
    return .yield { scan with pendingLevel := none }
  else if scan.budget = 0 then
    exhaustedProof token scan
  else if state.nesting + scan.depth + 1 > state.limits.maxNestingDepth then
    deepProof state.limits.maxNestingDepth token scan
  else
    advance
    return .yield
      { scan with
        budget := scan.budget - 1
        depth := scan.depth + 1
        scopes := scan.scopes ++ [.region]
        pendingLevel := none }

def opensLevel (scan : ProofScan) (label : ProofStepLabel) : Bool :=
  match scan.scopes.getLast? with
  | some (.step openLevel _) => label.level == openLevel + 1
  | _ => true

def levelOk (scan : ProofScan) (label : ProofStepLabel) : Bool :=
  match scan.scopes.getLast? with
  | some (.step openLevel _) => label.level == openLevel || label.level == openLevel + 1
  | _ => true

/-- A step label repeats the open level or opens the next one. -/
def proofLabel (token : Token) (label : ProofStepLabel) (scan : ProofScan) :
    ParserM (ForInStep ProofScan) := do
  let state ← get
  let charged := opensLevel scan label && !scan.scopes.isEmpty
  if !levelOk scan label then
    stopScan ParseCode.proofUnsupported
      "proof step levels must repeat the open level or open the next one" token.range scan
  else if charged && scan.budget == 0 then
    exhaustedProof token scan
  else if charged && state.nesting + scan.depth + 1 > state.limits.maxNestingDepth then
    deepProof state.limits.maxNestingDepth token scan
  else
    advanceBy label.length
    return .yield
      { scan with
        budget := if charged then scan.budget - 1 else scan.budget
        depth := if charged then scan.depth + 1 else scan.depth
        scopes :=
          if opensLevel scan label then scan.scopes ++ [.step label.level charged]
          else scan.scopes
        pendingLevel := some label.level }

/-- Every other proof token stays opaque, except a foreign declaration. -/
def proofOther (token : Token) (scan : ProofScan) : ParserM (ForInStep ProofScan) :=
  match keywordOf? token with
  | some keyword =>
      if foreignProofDeclarationKeyword keyword then
        stopScan ParseCode.proofUnsupported
          s!"'{keyword}' cannot appear inside an opaque proof region" token.range scan
      else
        proofAdvance scan
  | none => proofAdvance scan

def proofStructure (token : Token) (scan : ProofScan) : ParserM (ForInStep ProofScan) := do
  let state ← get
  if scan.delimiters.length > 0 then
    proofAdvance scan
  else if token.kind.isKeyword "QED" then
    proofQed token scan
  else if token.kind.isKeyword "PROOF" then
    proofNested token scan
  else
    match proofStepLabelAt? state.profile state.tokens state.position with
    | some label => proofLabel token label scan
    | none => proofOther token scan

def proofToken (token : Token) (scan : ProofScan) : ParserM (ForInStep ProofScan) := do
  let profile ← profileOf
  let spelling := symbolSpelling profile token
  match delimiterOpener? spelling with
  | some _ =>
      if scan.delimiters.getLast? == some spelling then
        proofAdvance { scan with delimiters := scan.delimiters.dropLast }
      else
        stopScan ParseCode.proofUnsupported
          s!"proof region closes '{renderSpelling spelling}' without a matching delimiter"
          token.range scan
  | none =>
      match delimiterCloser? spelling with
      | some closer => proofAdvance { scan with delimiters := scan.delimiters ++ [closer] }
      | none => proofStructure token scan

def proofRegionStep (scan : ProofScan) : ParserM (ForInStep ProofScan) := do
  if ← halted? then
    return .done scan
  else
    let state ← get
    match state.tokens[state.position]? with
    | none =>
        stopScan ParseCode.proofTermination
          "proof region reaches end of input before its matching QED"
          ⟨state.lastStop, state.lastStop⟩ scan
    | some token =>
        if token.kind.isEof || token.kind == .moduleEnd then
          stopScan ParseCode.proofTermination
            "proof region reaches the module terminator before its matching QED" token.range scan
        else
          proofToken token scan

/-- Scan one region from behind its `PROOF` through the matching `QED`. -/
def scanProofRegion (fuel : Nat) : ParserM Unit := do
  let _ ← parserLoop proofRegionStep { budget := fuel }
  return ()

structure ByScan where
  delimiters : List String := []
  arguments : Nat := 0

def byAdvance (scan : ByScan) : ParserM (ForInStep ByScan) := do
  advance
  return .yield { scan with arguments := scan.arguments + 1 }

def byToken (token : Token) (scan : ByScan) : ParserM (ForInStep ByScan) := do
  let state ← get
  let spelling := symbolSpelling state.profile token
  match delimiterOpener? spelling with
  | some _ =>
      if scan.delimiters.getLast? == some spelling then
        byAdvance { scan with delimiters := scan.delimiters.dropLast }
      else
        stopScan ParseCode.proofUnsupported
          s!"BY proof step closes '{renderSpelling spelling}' without a matching delimiter"
          token.range scan
  | none =>
      match delimiterCloser? spelling with
      | some closer => byAdvance { scan with delimiters := scan.delimiters ++ [closer] }
      | none =>
          if scan.delimiters.isEmpty &&
              (token.kind.isKeyword "QED" || token.kind.isKeyword "PROOF" ||
                (proofStepLabelAt? state.profile state.tokens state.position).isSome) then
            stopScan ParseCode.proofUnsupported
              "a terminal BY proof step cannot carry nested proof syntax" token.range scan
          else
            byAdvance scan

def proofByStep (scan : ByScan) : ParserM (ForInStep ByScan) := do
  if ← halted? then
    return .done scan
  else
    let state ← get
    match state.tokens[state.position]? with
    | none => return .done scan
    | some token =>
        if token.kind.isEof || token.kind == .moduleEnd then
          return .done scan
        else if scan.delimiters.isEmpty &&
            startsDeclarationAt? state.profile state.tokens state.position then
          return .done scan
        else
          byToken token scan

/-- A `BY` step has arguments and closes its delimiters. -/
def checkByScan (scan : ByScan) : ParserM Unit := do
  if scan.arguments == 0 then
    let range ← currentRange
    emitLimit ParseCode.proofUnsupported "a BY proof step needs at least one argument" range
  else if !scan.delimiters.isEmpty then
    let range ← currentRange
    emitLimit ParseCode.proofUnsupported "BY proof step leaves a delimiter unclosed" range
  else
    return ()

def scanProofByTerminal : ParserM Unit := do
  let scan ← parserLoop proofByStep {}
  if ← halted? then
    return ()
  else
    checkByScan scan

/-! ### Declarations with expressions -/

section Declarations
variable (parseExpression : Nat → Nat → ParserM Expression)

/-- The name of a statement, when `Name ==` stands before it. -/
def statementName : ParserM (Option String) := do
  let first? ← peek?
  let second? ← peekAt? 1
  let profile ← profileOf
  match first?.bind identifierOf?, second?.bind (symbolOf? profile) with
  | some candidate, some spelling =>
      if spelling == "==" then
        advance
        advance
        return some candidate
      else
        return none
  | _, _ => return none

def parseAssumption (kind : AssumptionKind) (fuel : Nat) (startRange : SourceRange) :
    ParserM (Option Declaration) := do
  openFrame .assumption
  advance
  let name ← statementName
  let body ← parseExpression fuel 0
  closeFrame
  return some (.assumption { kind, name, body, range := ⟨startRange.start, body.range.stop⟩ })

def proofRegionOf (treatment : ProofTreatment) (proofStart : SourceRange) :
    ParserM (Option ProofRegion) := do
  let stop ← currentStop
  return some { treatment, range := ⟨proofStart.start, stop⟩ }

/-- What follows the word `PROOF`: a terminal word or a structured proof. -/
def proofBody (fuel : Nat) (proofStart : SourceRange) : ParserM (Option ProofRegion) := do
  if ← consumeKeyword "OMITTED" then
    proofRegionOf .omitted proofStart
  else if ← consumeKeyword "OBVIOUS" then
    proofRegionOf .opaqueProof proofStart
  else
    scanProofRegion fuel
    proofRegionOf .opaqueProof proofStart

def optionalProof (fuel : Nat) : ParserM (Option ProofRegion) := do
  let proofStart ← currentRange
  if ← peekKeyword "PROOF" then
    openFrame .proofRegion
    advance
    let proof ← proofBody fuel proofStart
    closeFrame
    return proof
  else if ← peekKeyword "BY" then
    openFrame .proofRegion
    advance
    scanProofByTerminal
    closeFrame
    proofRegionOf .opaqueProof proofStart
  else
    return none

def parseTheorem (kind : TheoremKind) (fuel : Nat) (startRange : SourceRange) :
    ParserM (Option Declaration) := do
  openFrame .theoremDeclaration
  advance
  let name ← statementName
  let statement ← parseExpression fuel 0
  let proof ← optionalProof fuel
  closeFrame
  let stop ← currentStop
  return some (.theoremDeclaration
    { kind, name, statement, proof, range := ⟨startRange.start, stop⟩ })

def substitutionStep (fuel : Nat) (substitutions : List Substitution) :
    ParserM (ForInStep (List Substitution)) := do
  let formalStart ← currentRange
  match ← expectName with
  | none => return .done substitutions
  | some named =>
      let formalArity ← optionalArity fuel
      let _ ← expectSymbol "<-"
      let actual ← parseExpression fuel 0
      let substitutions := substitutions ++
        [{ formal := named.1
           formalArity
           formalRange := named.2
           actual
           range := ⟨formalStart.start, actual.range.stop⟩ }]
      if ← consumeSymbol "," then
        return .yield substitutions
      else
        return .done substitutions

def parseSubstitutions (fuel : Nat) : ParserM (List Substitution) := do
  if ← consumeKeyword "WITH" then
    parserLoop (substitutionStep parseExpression fuel) []
  else
    return []

def parseInstanceBody (fuel : Nat) (name : Option String) (isLocal : Bool)
    (startRange : SourceRange) : ParserM (Option InstanceDeclaration) := do
  openFrame .instanceDeclaration
  let _ ← consumeKeyword "INSTANCE"
  match ← expectName with
  | none =>
      closeFrame
      return none
  | some named =>
      match ModuleName.ofString? named.1 with
      | none =>
          emitError ParseCode.expectedIdentifier
            s!"'{renderSpelling named.1}' is not a module name" startRange
          closeFrame
          return none
      | some moduleName =>
          let substitutions ← parseSubstitutions parseExpression fuel
          closeFrame
          let stop ← currentStop
          return some
            { name, moduleName, substitutions, isLocal, range := ⟨startRange.start, stop⟩ }

def parsePrefixDefinition (fuel : Nat) (startRange operatorRange : SourceRange)
    (canonical : String) : ParserM (Option Declaration) := do
  openFrame .operatorDefinition
  match ← expectName with
  | none =>
      closeFrame
      return none
  | some named =>
      let _ ← expectSymbol "=="
      let body ← parseExpression fuel 0
      closeFrame
      return some (.operator
        { name := canonical
          nameRange := operatorRange
          fixity := .prefixOperator
          parameters := [{ name := named.1, arity := 0, range := named.2 }]
          body
          range := ⟨startRange.start, body.range.stop⟩ })

def optionalParameters (fuel : Nat) : ParserM (List OperatorParameter) := do
  if ← consumeSymbol "(" then
    parseParameterList fuel
  else
    return []

/-- `y \op == e`: a postfix operator after one operand and before `==`. -/
def postfixName? (parserProfile : ParserProfile) (profile : LanguageProfile)
    (parameters : List OperatorParameter) (next? after? : Option Token) :
    Option (String × SourceRange) :=
  match next? with
  | some token =>
      match postfixDefinitionName? parserProfile profile token with
      | some canonical =>
          if parameters.isEmpty then
            match after? with
            | some after =>
                if isSymbolToken profile after "==" then some (canonical, token.range) else none
            | none => none
          else none
      | none => none
  | none => none

def infixName? (parserProfile : ParserProfile) (profile : LanguageProfile)
    (next? : Option Token) : Option (OperatorEntry × SourceRange) :=
  match next? with
  | some token =>
      match infixOperatorOf? parserProfile profile token with
      | some entry => some (entry, token.range)
      | none => none
  | none => none

def postfixDefinition (fuel : Nat) (startRange : SourceRange)
    (named operator : String × SourceRange) : ParserM (Option Declaration) := do
  advance
  let _ ← expectSymbol "=="
  let body ← parseExpression fuel 0
  closeFrame
  return some (.operator
    { name := operator.1
      nameRange := operator.2
      fixity := .postfixOperator
      parameters := [{ name := named.1, arity := 0, range := named.2 }]
      body
      range := ⟨startRange.start, body.range.stop⟩ })

def infixDefinition (fuel : Nat) (startRange : SourceRange) (named : String × SourceRange)
    (entry : OperatorEntry) (operatorRange : SourceRange) : ParserM (Option Declaration) := do
  advance
  match ← expectName with
  | none =>
      closeFrame
      return none
  | some right =>
      let _ ← expectSymbol "=="
      let body ← parseExpression fuel 0
      closeFrame
      return some (.operator
        { name := entry.canonical
          nameRange := operatorRange
          fixity := .infixOperator
          parameters := [{ name := named.1, arity := 0, range := named.2 },
            { name := right.1, arity := 0, range := right.2 }]
          body
          range := ⟨startRange.start, body.range.stop⟩ })

def functionalDefinition (fuel : Nat) (startRange : SourceRange) (named : String × SourceRange)
    (parameters : List OperatorParameter) : ParserM (Option Declaration) := do
  let _ ← expectSymbol "=="
  if ← peekKeyword "INSTANCE" then
    let declaration? ← parseInstanceBody parseExpression fuel (some named.1) false startRange
    closeFrame
    return declaration?.map .instanceDeclaration
  else
    let body ← parseExpression fuel 0
    closeFrame
    return some (.operator
      { name := named.1
        nameRange := named.2
        fixity := .functional
        parameters
        body
        range := ⟨startRange.start, body.range.stop⟩ })

def parseDefinitionOrInstance (fuel : Nat) (startRange : SourceRange) :
    ParserM (Option Declaration) := do
  openFrame .operatorDefinition
  match ← expectName with
  | none =>
      closeFrame
      return none
  | some named =>
      let parameters ← optionalParameters fuel
      let profile ← profileOf
      let parserProfile ← parserProfileOf
      let next? ← peek?
      let after? ← peekAt? 1
      match postfixName? parserProfile profile parameters next? after? with
      | some operator => postfixDefinition parseExpression fuel startRange named operator
      | none =>
          match infixName? parserProfile profile next? with
          | some operator =>
              infixDefinition parseExpression fuel startRange named operator.1 operator.2
          | none => functionalDefinition parseExpression fuel startRange named parameters

def rejectDeclaration (token : Token) : ParserM (Option Declaration) := do
  emitError ParseCode.expectedToken
    s!"expected a declaration but found '{renderSpelling token.spelling}'" token.range
  return none

def parseUnnamedInstance (fuel : Nat) (startRange : SourceRange) :
    ParserM (Option Declaration) := do
  let declaration? ← parseInstanceBody parseExpression fuel none false startRange
  return declaration?.map .instanceDeclaration

def parseLocal (startRange : SourceRange) (inner : ParserM (Option Declaration)) :
    ParserM (Option Declaration) := do
  openFrame .declaration
  advance
  let inner? ← withNesting startRange inner
  closeFrame
  match inner?.bind id with
  | some declaration =>
      let stop ← currentStop
      return some (.localDeclaration ⟨startRange.start, stop⟩ declaration)
  | none => return none

def keywordDeclaration (inner : ParserM (Option Declaration)) (fuel : Nat)
    (startRange : SourceRange) (token : Token) (keyword : String) : ParserM (Option Declaration) :=
  if keyword == "EXTENDS" then parseExtends false startRange
  else if keyword == "CONSTANT" || keyword == "CONSTANTS" then parseConstants startRange
  else if keyword == "VARIABLE" || keyword == "VARIABLES" then parseVariables startRange
  else if keyword == "RECURSIVE" then parseRecursive fuel startRange
  else if keyword == "ASSUME" then parseAssumption parseExpression .assume fuel startRange
  else if keyword == "ASSUMPTION" then parseAssumption parseExpression .assumption fuel startRange
  else if keyword == "AXIOM" then parseAssumption parseExpression .axiomKind fuel startRange
  else if keyword == "THEOREM" then parseTheorem parseExpression .theoremKind fuel startRange
  else if keyword == "LEMMA" then parseTheorem parseExpression .lemmaKind fuel startRange
  else if keyword == "PROPOSITION" then parseTheorem parseExpression .proposition fuel startRange
  else if keyword == "COROLLARY" then parseTheorem parseExpression .corollary fuel startRange
  else if keyword == "LOCAL" then parseLocal startRange inner
  else if keyword == "INSTANCE" then parseUnnamedInstance parseExpression fuel startRange
  else if prefixKeywords.contains keyword then
    parsePrefixDefinition parseExpression fuel startRange token.range keyword
  else rejectDeclaration token

def symbolDeclaration (fuel : Nat) (startRange : SourceRange) (token : Token) :
    ParserM (Option Declaration) := do
  let parserProfile ← parserProfileOf
  let profile ← profileOf
  match prefixDefinitionOf? parserProfile profile token with
  | some canonical =>
      advance
      parsePrefixDefinition parseExpression fuel startRange token.range canonical
  | none => rejectDeclaration token

def declarationAt (inner : ParserM (Option Declaration)) (fuel : Nat) (startRange : SourceRange)
    (token : Token) : ParserM (Option Declaration) :=
  match keywordOf? token with
  | some keyword => keywordDeclaration parseExpression inner fuel startRange token keyword
  | none =>
      match token.kind with
      | .identifier => parseDefinitionOrInstance parseExpression fuel startRange
      | .symbol _ => symbolDeclaration parseExpression fuel startRange token
      | _ => rejectDeclaration token

def declarationExhausted : ParserM (Option Declaration) := do
  let range ← currentRange
  emitLimit ParseCode.recursionLimit "parser resource budget exhausted in a declaration" range
  return none

/-- One declaration; nested `LOCAL` wrappers spend the fuel. -/
def parseDeclarationBody : Nat → ParserM (Option Declaration)
  | 0 => declarationExhausted
  | fuel + 1 => do
    let startRange ← currentRange
    match ← peek? with
    | none =>
        emitError ParseCode.expectedToken "expected a declaration before end of input" startRange
        return none
    | some token =>
        declarationAt parseExpression (parseDeclarationBody fuel) (fuel + 1) startRange token

def parseDeclaration (fuel : Nat) : ParserM Bool := do
  let state ← get
  let startRange ← currentRange
  if state.declarationCount + 1 > state.limits.maxDeclarations then
    emitLimit ParseCode.declarationLimit
      s!"declaration count exceeds the limit of {state.limits.maxDeclarations}" startRange
    return false
  else
    match ← parseDeclarationBody parseExpression fuel with
    | some declaration =>
        recordDeclaration declaration
        return true
    | none => return false

/-! ### Modules -/

def consumeModuleEnd : ParserM Bool := do
  match ← peek? with
  | some token =>
      if token.kind == .moduleEnd then
        advance
        return true
      else
        return false
  | none => return false

def moduleHeaderAt (token : Token) : ParserM Unit := do
  if token.kind == .moduleHeader then
    advance
    let name := token.moduleHeaderName?
    modify fun state => { state with moduleName := name.bind ModuleName.ofString? }
    if name.isNone then
      emitError ParseCode.moduleHeader "the module header does not name a module" token.range
    else
      return ()
  else
    emitError ParseCode.moduleHeader
      s!"expected a module header line but found '{renderSpelling token.spelling}'" token.range

def parseModuleHeader (headerRange : SourceRange) : ParserM Unit := do
  match ← peek? with
  | none => emitError ParseCode.moduleHeader "expected a module header line" headerRange
  | some token => moduleHeaderAt token

def rejectPlusCal : ParserM Unit := do
  let state ← get
  match plusCalRange? state.tokens with
  | some range =>
      emitError ParseCode.pluscal
        "PlusCal algorithm blocks are staged out of the revision-1 profile; pre-translate the module first"
        range
  | none => return ()

/-- Keep a token that starts no declaration in a recovery node. -/
def recover : ParserM Unit := do
  openFrame .recovery
  advance
  closeFrame

/-- One declaration; a declaration that consumed nothing loses one token. -/
def declarationStep (fuel : Nat) : ParserM (ForInStep Unit) := do
  let before ← position
  let _ ← parseDeclaration parseExpression fuel
  let after ← position
  let halted ← halted?
  if after == before && !halted then
    recover
    return .yield ()
  else
    return .yield ()

def moduleStep (fuel : Nat) (_ : Unit) : ParserM (ForInStep Unit) := do
  if ← halted? then
    return .done ()
  else
    match ← peek? with
    | none => return .done ()
    | some token =>
        if token.kind.isEof || token.kind == .moduleEnd then
          return .done ()
        else
          declarationStep parseExpression fuel

def parseModuleEnd (endRange : SourceRange) : ParserM Unit := do
  if ← consumeModuleEnd then
    return ()
  else
    emitError ParseCode.moduleEnd "module terminator '====' is missing before end of input" endRange

def rejectTrailing (state : ParserState) : ParserM Unit :=
  match state.tokens[state.position]? with
  | some token =>
      if token.kind.isEof then
        return ()
      else
        emitError ParseCode.trailingContent "tokens follow the module terminator" token.range
  | none => return ()

/-- The state read before the check is set back, so a report of trailing content is lost. -/
def closeModule (start : SourcePosition) : ParserM Unit := do
  let state ← get
  rejectTrailing state
  set { state with moduleRange := ⟨start, state.lastStop⟩ }

def moduleBody (fuel : Nat) : ParserM Unit := do
  let headerRange ← currentRange
  parseModuleHeader headerRange
  rejectPlusCal
  parserLoop (moduleStep parseExpression fuel) ()
  let endRange ← currentRange
  parseModuleEnd endRange
  closeModule headerRange.start

def parseModuleCore (fuel : Nat) : ParserM Unit := do
  openFrame .moduleRoot
  moduleBody parseExpression fuel

end Declarations

/-- A parse result; the module is present only without error diagnostics. -/
structure ParseOutcome where
  cst : CstModule
  module? : Option ParsedModule
  diagnostics : List Diagnostic

namespace ParseOutcome

def hasErrors (outcome : ParseOutcome) : Bool :=
  outcome.diagnostics.any Diagnostic.hasErrorSeverity

def succeeded (outcome : ParseOutcome) : Bool :=
  !outcome.hasErrors && outcome.module?.isSome

end ParseOutcome

def truncationDiagnostic (state : ParserState) : Diagnostic :=
  { code := ParseCode.diagnosticsTruncated
    severity := .error
    stage := .parse
    message := "diagnostic budget exhausted; further diagnostics were dropped"
    primary := stateLocation state ⟨state.lastStop, state.lastStop⟩
    related := []
    arguments := [("dropped", toString state.diagnostics.dropped)] }

def drainStep (_ : Unit) : ParserM (ForInStep Unit) := do
  let state ← get
  match state.tokens[state.position]? with
  | none => return .done ()
  | some token =>
      set (state.consume token)
      return .yield ()

def rootOf (frames : List Frame) : CstNode :=
  match frames with
  | frame :: _ => wrapFrame frame
  | [] => emptyRoot.root

def outcomeDiagnostics (state : ParserState) : List Diagnostic :=
  if state.diagnostics.truncated then
    state.diagnostics.diagnostics ++ [truncationDiagnostic state]
  else
    state.diagnostics.diagnostics

def outcomeModule? (state : ParserState) : Option ParsedModule :=
  if (outcomeDiagnostics state).any Diagnostic.hasErrorSeverity then
    none
  else
    match state.moduleName with
    | some name => some { name, declarations := state.declarations, range := state.moduleRange }
    | none => none

/-- Retain every remaining token, close every frame, assemble the outcome. -/
def finishParser (fuel : Nat) : ParserM ParseOutcome := do
  parserLoop drainStep ()
  closeFramesTo 1 fuel
  let state ← get
  return {
    cst := { root := rootOf state.frames }
    module? := outcomeModule? state
    diagnostics := outcomeDiagnostics state }

def parseModule (parseExpression : Nat → Nat → ParserM Expression) (fuel : Nat) :
    ParserM ParseOutcome := do
  parseModuleCore parseExpression fuel
  finishParser fuel

/-! ### Entry points -/

def streamFailure (source : SourceUnit) (code message : String) (range : SourceRange) :
    ParseOutcome :=
  { cst := emptyRoot
    module? := none
    diagnostics := [Diagnostic.error code .parse message (SourceLocation.ofUnit source range)] }

/-- A stream carries exactly one `eof`, at its end, and reproduces its source. -/
def streamProblem? (source : SourceUnit) (stream : TokenStream) : Option ParseOutcome :=
  match stream.tokens.getLast? with
  | none =>
      some (streamFailure source ParseCode.streamEof
        "token stream carries no tokens; one final eof is required" zeroRange)
  | some last =>
      if !last.isEof then
        some (streamFailure source ParseCode.streamEof
          "token stream must end with exactly one eof token" last.range)
      else
        match stream.tokens.dropLast.find? Token.isEof with
        | some earlier =>
            some (streamFailure source ParseCode.streamEof
              "token stream carries more than one eof token" earlier.range)
        | none =>
            if stream.text != source.normalizedText then
              some (streamFailure source ParseCode.streamTextMismatch
                "token stream text does not reproduce the captured unit" last.range)
            else
              none

def parserStart (profile : LanguageProfile) (parserProfile : ParserProfile)
    (limits : ParserLimits) (source : SourceUnit) (stream : TokenStream) : ParserState :=
  { profile, parserProfile, limits, source, tokens := stream.tokens }

def parseStreamWith (parseExpression : Nat → Nat → ParserM Expression)
    (profile : LanguageProfile) (parserProfile : ParserProfile) (limits : ParserLimits)
    (source : SourceUnit) (stream : TokenStream) : ParseOutcome :=
  match streamProblem? source stream with
  | some failure => failure
  | none =>
      let fuel := 32 * stream.tokens.length + 4096
      ((parseModule parseExpression fuel).run
        (parserStart profile parserProfile limits source stream)).1

def parseStream (profile : LanguageProfile) (parserProfile : ParserProfile)
    (limits : ParserLimits) (source : SourceUnit) (stream : TokenStream) : ParseOutcome :=
  parseStreamWith parseExpression profile parserProfile limits source stream

end MirrorsCore.Tla
