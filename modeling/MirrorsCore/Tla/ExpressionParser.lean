import Mathlib
import MirrorsCore.Tla.ParserState

/-! The expression grammar (`Core/Tla/Parser.lean`). Each parser of the source's
mutual block takes the parser of nested expressions as an argument; the last
definitions tie the knot, one unit of fuel for each nested expression. -/

namespace MirrorsCore.Tla

/-! ### Expression construction -/

def placeholderExpression (range : SourceRange) : Expression :=
  .currentValue range

def applicationRange (start : SourcePosition) (arguments : List Expression) : SourceRange :=
  match arguments.getLast? with
  | some last => ⟨start, last.range.stop⟩
  | none => ⟨start, start⟩

def applyOperator (spelling : String) (operatorRange : SourceRange)
    (arguments : List Expression) (range : SourceRange) : Expression :=
  .apply { qualifier := none, spelling, range := operatorRange } arguments range

def infixApplication (entry : OperatorEntry) (left right : Expression) : Expression :=
  let range : SourceRange := ⟨left.range.start, right.range.stop⟩
  applyOperator entry.canonical range [left, right] range

def prefixApplication (spelling : String) (argument : Expression)
    (operatorRange : SourceRange) : Expression :=
  let range : SourceRange := ⟨operatorRange.start, argument.range.stop⟩
  applyOperator spelling operatorRange [argument] range

def boundOf? (expression : Expression) : Option Bound :=
  match expression with
  | .apply operator [.name reference _, domain] range =>
      if operator.spelling == "\\in" then
        some { name := reference.spelling, domain := some domain, range }
      else
        none
  | _ => none

def recordFieldName? (expression : Expression) : Option String :=
  match expression with
  | .name reference _ => if reference.qualifier.isNone then some reference.spelling else none
  | _ => none

/-- Why `entry` cannot follow `first` at one precedence level, if it cannot. -/
def associationConflict (first : Option OperatorEntry) (entry : OperatorEntry) : Option String :=
  match first with
  | none => none
  | some previous =>
      if previous.canonical == entry.canonical then
        match entry.association with
        | .none => some s!"'{entry.canonical}' does not chain without parentheses"
        | _ => none
      else
        match entry.association with
        | .left => none
        | .right => none
        | _ =>
            some s!"'{previous.canonical}' and '{entry.canonical}' share one precedence level and need parentheses"

/-! ### Operand lists of declarations -/

/-- The arity after one more operand: a name, itself applied or not, or `_`. -/
def aritySpecItem (parseAritySpec : ParserM Nat) (arity : Nat) : ParserM Nat := do
  match ← consumeIdentifier with
  | some _ =>
      if ← consumeSymbol "(" then
        let inner ← parseAritySpec
        return arity + if inner == 0 then 1 else inner
      else
        return arity + 1
  | none =>
      if ← consumeSymbol "_" then
        return arity + 1
      else
        let _ ← expectName
        return arity

def aritySpecStep (parseAritySpec : ParserM Nat) (arity : Nat) : ParserM (ForInStep Nat) := do
  if (← peekSymbol ")") || (← halted?) then
    return .done arity
  else
    let arity ← aritySpecItem parseAritySpec arity
    if ← consumeSymbol "," then
      return .yield arity
    else
      return .done arity

def aritySpecInterior (parseAritySpec : ParserM Nat) : ParserM Nat := do
  let arity ← parserLoop (aritySpecStep parseAritySpec) 0
  let _ ← expectSymbol ")"
  return arity

def aritySpecExhausted : ParserM Nat := do
  let range ← currentRange
  emitLimit ParseCode.recursionLimit
    "parser resource budget exhausted in an arity specification" range
  return 0

/-- The arity of one parenthesized operand list, up to its closing `)`. -/
def parseAritySpec : Nat → ParserM Nat
  | 0 => do
    let opening ← currentRange
    let parsed? ← withNesting opening aritySpecExhausted
    return parsed?.getD 0
  | fuel + 1 => do
    let opening ← currentRange
    let parsed? ← withNesting opening (aritySpecInterior (parseAritySpec fuel))
    return parsed?.getD 0

def parameterArity (fuel : Nat) : ParserM Nat := do
  if ← consumeSymbol "(" then
    let parsed ← parseAritySpec (fuel - 1)
    return if parsed == 0 then 1 else parsed
  else
    return 0

def parameterListStep (fuel : Nat) (parameters : List OperatorParameter) :
    ParserM (ForInStep (List OperatorParameter)) := do
  if (← peekSymbol ")") || (← halted?) then
    return .done parameters
  else
    let parameterRange ← currentRange
    match ← expectName with
    | none => return .done parameters
    | some named =>
        let arity ← parameterArity fuel
        let stop ← currentStop
        let parameters := parameters ++
          [{ name := named.1, arity, range := ⟨parameterRange.start, stop⟩ }]
        if ← consumeSymbol "," then
          return .yield parameters
        else
          return .done parameters

def parameterListInterior (fuel : Nat) : ParserM (List OperatorParameter) := do
  let parameters ← parserLoop (parameterListStep fuel) []
  let _ ← expectSymbol ")"
  return parameters

def parseParameterList (fuel : Nat) : ParserM (List OperatorParameter) := do
  let opening ← currentRange
  let parsed? ← withNesting opening (parameterListInterior fuel)
  return parsed?.getD []

/-! ### Subscripts -/

def subscriptFollows? : ParserM Bool := do
  match ← peek? with
  | some token =>
      match token.kind with
      | .identifier => return token.spelling.startsWith "_"
      | _ => return false
  | none => return false

section Grammar
variable (parseExpression : Nat → ParserM Expression)

def parseSubscriptElement : ParserM Expression := do
  let range ← currentRange
  match ← peek? with
  | none =>
      emitError ParseCode.expectedExpression "expected a subscript" range
      return placeholderExpression range
  | some token =>
      match token.kind with
      | .identifier =>
          if token.spelling == "_" then
            advance
            parseExpression levelPrefix
          else if token.spelling.startsWith "_" then
            advance
            return .name
              { qualifier := none
                spelling := (token.spelling.drop 1).toString
                range := token.range }
              token.range
          else
            emitError ParseCode.expectedExpression
              s!"expected a subscript but found '{renderSpelling token.spelling}'" token.range
            return placeholderExpression range
      | _ =>
          emitError ParseCode.expectedExpression
            s!"expected a subscript but found '{renderSpelling token.spelling}'" token.range
          return placeholderExpression range

/-! ### Delimited forms -/

def delimitedStep (closing : String) (list : List Expression × Bool) :
    ParserM (ForInStep (List Expression × Bool)) := do
  if ← peekSymbol closing then
    return .done list
  else if ← halted? then
    return .done (list.1, false)
  else
    let item ← parseExpression 0
    let items := list.1 ++ [item]
    if ← peekSymbol closing then
      return .done (items, list.2)
    else if ← consumeSymbol "," then
      return .yield (items, list.2)
    else
      let range ← currentRange
      emitError ParseCode.expectedToken s!"expected ',' or '{closing}' in a list" range
      return .done (items, false)

/-- Comma-separated expressions; the closing symbol is consumed on success. -/
def parseDelimitedExpressions (closing : String) : ParserM (List Expression × Bool) := do
  let list ← parserLoop (delimitedStep parseExpression closing) ([], true)
  if list.2 then
    let _ ← consumeSymbol closing
    return list
  else
    return list

structure SetItems where
  items : List Expression
  ok : Bool
  comprehension : Bool

def setItemsStep (list : SetItems) : ParserM (ForInStep SetItems) := do
  if ← peekSymbol "\x7d" then
    return .done list
  else if ← peekSymbol ":" then
    return .done { list with comprehension := true }
  else if ← halted? then
    return .done { list with ok := false }
  else
    let item ← parseExpression 0
    let list := { list with items := list.items ++ [item] }
    if ← peekSymbol "\x7d" then
      return .done list
    else if ← peekSymbol ":" then
      return .done { list with comprehension := true }
    else if ← consumeSymbol "," then
      return .yield list
    else
      let range ← currentRange
      emitError ParseCode.expectedToken "expected ',', ':', or '\x7d' in a set expression" range
      return .done { list with ok := false }

/-- Comma-separated expressions up to the closing brace or the `:` of a
comprehension, which stay unread. -/
def parseSetItems : ParserM SetItems :=
  parserLoop (setItemsStep parseExpression) { items := [], ok := true, comprehension := false }

def parseParenthesized : ParserM Expression := do
  let startSpan ← currentRange
  advance
  match ← withNesting startSpan (parseDelimitedExpressions parseExpression ")") with
  | none =>
      let _ ← consumeSymbol ")"
      return placeholderExpression startSpan
  | some list =>
      if !list.2 then
        return list.1.head?.getD (placeholderExpression startSpan)
      else
        match list.1 with
        | [only] => return only
        | items =>
            let stop ← currentStop
            return .tuple items ⟨startSpan.start, stop⟩

def angleInterior (startSpan : SourceRange) : ParserM Expression := do
  let list ← parseDelimitedExpressions parseExpression ">>"
  if !list.2 then
    return list.1.head?.getD (placeholderExpression startSpan)
  else
    let stop ← currentStop
    let tuple := Expression.tuple list.1 ⟨startSpan.start, stop⟩
    if ← subscriptFollows? then
      let subscript ← parseSubscriptElement parseExpression
      return applyOperator "<<>>_" startSpan [tuple, subscript]
        ⟨startSpan.start, subscript.range.stop⟩
    else
      return tuple

/-- A tuple, or the angle action `<<A>>_v`. -/
def parseAngle : ParserM Expression := do
  let startSpan ← currentRange
  advance
  match ← withNesting startSpan (angleInterior parseExpression startSpan) with
  | some expression => return expression
  | none =>
      let _ ← consumeSymbol ">>"
      return placeholderExpression startSpan

structure BoundList where
  bounds : List Bound
  bounded : Bool

def boundsStep (allowUnbounded : Bool) (list : BoundList) : ParserM (ForInStep BoundList) := do
  let boundStart ← currentRange
  match ← expectName with
  | none => return .done list
  | some named =>
      if ← consumeSymbol "\\in" then
        let domain ← parseExpression 0
        let list : BoundList :=
          { bounds := list.bounds ++
              [{ name := named.1
                 domain := some domain
                 range := ⟨boundStart.start, domain.range.stop⟩ }]
            bounded := true }
        if ← consumeSymbol "," then
          return .yield list
        else
          return .done list
      else if allowUnbounded && !list.bounded then
        let list : BoundList :=
          { list with
            bounds := list.bounds ++
              [{ name := named.1
                 domain := none
                 range := ⟨boundStart.start, named.2.stop⟩ }] }
        if ← consumeSymbol "," then
          return .yield list
        else
          return .done list
      else if allowUnbounded then
        emitError ParseCode.mixedBounds
          "a bounded quantifier binder cannot be followed by an unbounded name" named.2
        return .done list
      else
        let range ← currentRange
        emitError ParseCode.expectedToken "expected '\\in' in a bound" range
        return .done list

/-- Comma-separated binders; only quantifiers may leave out the domain. -/
def parseBounds (allowUnbounded : Bool) : ParserM (List Bound) := do
  let list ← parserLoop (boundsStep parseExpression allowUnbounded)
    { bounds := [], bounded := false }
  return list.bounds

def setFilter (bounds : List Bound) (startSpan : SourceRange) : ParserM Expression := do
  let predicate ← parseExpression 0
  let _ ← expectSymbol "\x7d"
  let stop ← currentStop
  return .setFilter bounds predicate ⟨startSpan.start, stop⟩

def setBuilder (element : Expression) (startSpan : SourceRange) : ParserM Expression := do
  let bounds ← parseBounds parseExpression false
  let _ ← expectSymbol "\x7d"
  let stop ← currentStop
  return .setBuilder element bounds ⟨startSpan.start, stop⟩

/-- A filter when every item is a bound, else a builder over one element. -/
def setComprehension (items : List Expression) (startSpan : SourceRange) : ParserM Expression := do
  let _ ← consumeSymbol ":"
  let bounds := items.filterMap boundOf?
  if !items.isEmpty && bounds.length == items.length then
    setFilter parseExpression bounds startSpan
  else
    match items with
    | [] => return placeholderExpression startSpan
    | element :: _ => setBuilder parseExpression element startSpan

def braceInterior (startSpan : SourceRange) : ParserM Expression := do
  if ← consumeSymbol "\x7d" then
    let stop ← currentStop
    return .set [] ⟨startSpan.start, stop⟩
  else
    let list ← parseSetItems parseExpression
    if !list.ok then
      return list.items.head?.getD (placeholderExpression startSpan)
    else if !list.comprehension then
      let _ ← expectSymbol "\x7d"
      let stop ← currentStop
      return .set list.items ⟨startSpan.start, stop⟩
    else
      setComprehension parseExpression list.items startSpan

/-- The empty set, a set literal, a set filter or a set builder. -/
def parseBrace : ParserM Expression := do
  let startSpan ← currentRange
  advance
  match ← withNesting startSpan (braceInterior parseExpression startSpan) with
  | some expression => return expression
  | none =>
      let _ ← consumeSymbol "\x7d"
      return placeholderExpression startSpan

/-- One more field after a comma; `separator` stands between name and value. -/
def fieldsStep (separator : String) (fields : List RecordField) :
    ParserM (ForInStep (List RecordField)) := do
  if ← consumeSymbol "," then
    let fieldRange ← currentRange
    match ← expectName with
    | none => return .yield fields
    | some named =>
        let _ ← expectSymbol separator
        let value ← parseExpression 0
        return .yield (fields ++
          [{ name := named.1, value, range := ⟨fieldRange.start, value.range.stop⟩ }])
  else
    return .done fields

/-- The fields from the first value on, through the closing bracket. -/
def parseFields (separator name : String) (first : Expression) : ParserM (List RecordField) := do
  let value ← parseExpression 0
  let fields ← parserLoop (fieldsStep parseExpression separator)
    [{ name, value, range := ⟨first.range.start, value.range.stop⟩ }]
  let _ ← expectSymbol "]"
  return fields

def bracketRecordSet (startSpan : SourceRange) (first : Expression) : ParserM Expression := do
  match recordFieldName? first with
  | none =>
      let range ← currentRange
      emitError ParseCode.expectedExpression "expected a field name before ':'" range
      return placeholderExpression startSpan
  | some name =>
      let fields ← parseFields parseExpression ":" name first
      let stop ← currentStop
      return .recordSet fields ⟨startSpan.start, stop⟩

def bracketRecord (startSpan : SourceRange) (first : Expression) : ParserM Expression := do
  match recordFieldName? first with
  | none =>
      let range ← currentRange
      emitError ParseCode.expectedExpression "expected a field name before '|->'" range
      return placeholderExpression startSpan
  | some name =>
      let fields ← parseFields parseExpression "|->" name first
      let stop ← currentStop
      return .record fields ⟨startSpan.start, stop⟩

def functionBoundsStep (bounds : List Bound) : ParserM (ForInStep (List Bound)) := do
  if ← consumeSymbol "," then
    let item ← parseExpression 0
    match boundOf? item with
    | some next => return .yield (bounds ++ [next])
    | none =>
        let range ← currentRange
        emitError ParseCode.expectedExpression
          "expected a bound 'name \\in domain' after ','" range
        return .yield bounds
  else
    return .done bounds

def bracketFunction (startSpan : SourceRange) (bound : Bound) : ParserM Expression := do
  let bounds ← parserLoop (functionBoundsStep parseExpression) [bound]
  let body ← parseExpression 0
  let _ ← expectSymbol "]"
  let stop ← currentStop
  return .function bounds body ⟨startSpan.start, stop⟩

def bracketMapsTo (startSpan : SourceRange) (first : Expression) : ParserM Expression := do
  match boundOf? first with
  | some bound => bracketFunction parseExpression startSpan bound
  | none => bracketRecord parseExpression startSpan first

def exceptPathStep (path : List ExceptPathElement) :
    ParserM (ForInStep (List ExceptPathElement)) := do
  match ← peek? with
  | none => return .done path
  | some token =>
      let profile ← profileOf
      if isSymbolToken profile token "." then
        advance
        let segmentRange ← currentRange
        match ← expectName with
        | none => return .done path
        | some named => return .yield (path ++ [.field named.1 segmentRange])
      else if isSymbolToken profile token "[" then
        advance
        let index ← parseExpression 0
        let _ ← expectSymbol "]"
        let stop ← currentStop
        return .yield (path ++ [.index index ⟨token.range.start, stop⟩])
      else
        return .done path

def parseExceptSpec : ParserM ExceptSpec := do
  let startSpan ← currentRange
  let _ ← expectSymbol "!"
  let path ← parserLoop (exceptPathStep parseExpression) []
  let _ ← expectSymbol "="
  let value ← parseExpression 0
  return { path, value, range := ⟨startSpan.start, value.range.stop⟩ }

def exceptStep (specifications : List ExceptSpec) : ParserM (ForInStep (List ExceptSpec)) := do
  if ← peekSymbol "]" then
    return .done specifications
  else
    let specification ← parseExceptSpec parseExpression
    if ← consumeSymbol "," then
      return .yield (specifications ++ [specification])
    else
      return .done (specifications ++ [specification])

def bracketExcept (startSpan : SourceRange) (first : Expression) : ParserM Expression := do
  let specifications ← parserLoop (exceptStep parseExpression) []
  let _ ← expectSymbol "]"
  let stop ← currentStop
  return .except first specifications ⟨startSpan.start, stop⟩

def bracketFunctionSet (startSpan : SourceRange) (first : Expression) : ParserM Expression := do
  let codomain ← parseExpression 0
  let _ ← expectSymbol "]"
  let stop ← currentStop
  return .functionSet first codomain ⟨startSpan.start, stop⟩

def bracketSubscript (startSpan : SourceRange) (first : Expression) : ParserM Expression := do
  if ← subscriptFollows? then
    let subscript ← parseSubscriptElement parseExpression
    return applyOperator "[]_" startSpan [first, subscript] ⟨startSpan.start, subscript.range.stop⟩
  else
    let range ← currentRange
    emitError ParseCode.expectedToken "expected a subscript after ']'" range
    return first

def parseBracketBody (startSpan : SourceRange) : ParserM Expression := do
  let first ← parseExpression 0
  if ← consumeSymbol ":" then
    bracketRecordSet parseExpression startSpan first
  else if ← consumeSymbol "|->" then
    bracketMapsTo parseExpression startSpan first
  else if ← consumeSymbol "->" then
    bracketFunctionSet parseExpression startSpan first
  else if ← consumeKeyword "EXCEPT" then
    bracketExcept parseExpression startSpan first
  else if ← consumeSymbol "]" then
    bracketSubscript parseExpression startSpan first
  else
    let range ← currentRange
    emitError ParseCode.expectedToken
      "expected '|->', '->', 'EXCEPT', or ']' inside brackets" range
    return first

/-- A record, a function, a function set, an update or an action subscript. -/
def parseBracket : ParserM Expression := do
  let startSpan ← currentRange
  advance
  match ← withNesting startSpan (parseBracketBody parseExpression startSpan) with
  | some result => return result
  | none =>
      let _ ← consumeSymbol "]"
      return placeholderExpression startSpan

/-! ### Primaries and postfix operators -/

def applicationInterior (reference : OperatorRef) (token : Token) : ParserM Expression := do
  let opening ← currentRange
  let _ ← consumeSymbol "("
  match ← withNesting opening (parseDelimitedExpressions parseExpression ")") with
  | none =>
      let _ ← consumeSymbol ")"
      return .name reference token.range
  | some list =>
      if list.2 then
        return .apply reference list.1 (applicationRange token.range.start list.1)
      else
        return .name reference token.range

def namedReference (token : Token) : OperatorRef :=
  match qualifiedOf? token with
  | some (qualifier, name) =>
      { qualifier := some qualifier, spelling := name, range := token.range }
  | none => { qualifier := none, spelling := token.spelling, range := token.range }

def parseNamedApplication (token : Token) (allowApplication : Bool) : ParserM Expression := do
  advance
  if allowApplication && (← peekSymbol "(") then
    applicationInterior parseExpression (namedReference token) token
  else
    return .name (namedReference token) token.range

def parseLiteral (literal : Expression) : ParserM Expression := do
  advance
  return literal

def rejectPrimary (token : Token) (range : SourceRange) : ParserM Expression := do
  emitError ParseCode.expectedExpression
    s!"expected an expression but found '{renderSpelling token.spelling}'" token.range
  return placeholderExpression range

def keywordName (keyword : String) (token : Token) : Expression :=
  .name { qualifier := none, spelling := keyword, range := token.range } token.range

def primaryAt (token : Token) (range : SourceRange) (allowApplication : Bool) :
    ParserM Expression :=
  match token.kind with
  | .integer value => parseLiteral (.integer value token.range)
  | .string => parseLiteral (.string (decodeStringLiteral token.spelling) token.range)
  | .keyword keyword =>
      if keyword == "TRUE" then parseLiteral (.boolean true token.range)
      else if keyword == "FALSE" then parseLiteral (.boolean false token.range)
      else if keyword == "BOOLEAN" then parseLiteral (keywordName "BOOLEAN" token)
      else if keyword == "STRING" then parseLiteral (keywordName "STRING" token)
      else rejectPrimary token range
  | .identifier => parseNamedApplication parseExpression token allowApplication
  | .qualifiedName => parseNamedApplication parseExpression token allowApplication
  | .symbol symbol =>
      if symbol.canonical == "(" then parseParenthesized parseExpression
      else if symbol.canonical == "<<" then parseAngle parseExpression
      else if symbol.canonical == "\x7b" then parseBrace parseExpression
      else if symbol.canonical == "[" then parseBracket parseExpression
      else if symbol.canonical == "@" then parseLiteral (.currentValue token.range)
      else rejectPrimary token range
  | _ => rejectPrimary token range

def rejectEnd (range : SourceRange) : ParserM Expression := do
  emitError ParseCode.expectedExpression "expected an expression before end of input" range
  return placeholderExpression range

def parsePrimary (allowApplication : Bool) : ParserM Expression := do
  let range ← currentRange
  match ← peek? with
  | none => rejectEnd range
  | some token => primaryAt parseExpression token range allowApplication

def postfixIndex (result : Expression) : ParserM (ForInStep Expression) := do
  let opening ← currentRange
  advance
  match ← withNesting opening (parseExpression 0) with
  | some index =>
      let _ ← expectSymbol "]"
      let stop ← currentStop
      return .yield (.functionApply result index ⟨result.range.start, stop⟩)
  | none =>
      let _ ← consumeSymbol "]"
      return .done result

def postfixSelect (result : Expression) : ParserM (ForInStep Expression) := do
  advance
  match ← expectName with
  | none => return .done result
  | some named => return .yield (.select result named.1 ⟨result.range.start, named.2.stop⟩)

def postfixApply (spelling : String) (token : Token) (result : Expression) :
    ParserM (ForInStep Expression) := do
  advance
  return .yield
    (applyOperator spelling token.range [result] ⟨result.range.start, token.range.stop⟩)

/-- A postfix operator of the table, or one that the table does not own. -/
def postfixOperator (profile : LanguageProfile) (parserProfile : ParserProfile) (token : Token)
    (spelling : String) (result : Expression) : ParserM (ForInStep Expression) := do
  match postfixOperatorOf? parserProfile profile token with
  | some entry => postfixApply entry.canonical token result
  | none =>
      if isUserPostfixSpelling parserProfile spelling then
        postfixApply spelling token result
      else
        return .done result

def postfixStep (result : Expression) : ParserM (ForInStep Expression) := do
  if ← halted? then
    return .done result
  else
    let profile ← profileOf
    let parserProfile ← parserProfileOf
    match ← peek? with
    | none => return .done result
    | some token =>
        match symbolOf? profile token with
        | none => return .done result
        | some spelling =>
            if spelling == "'" then postfixApply "'" token result
            else if spelling == "[" then postfixIndex parseExpression result
            else if spelling == "." then postfixSelect result
            else postfixOperator profile parserProfile token spelling result

def parsePostfix (expression : Expression) : ParserM Expression :=
  parserLoop (postfixStep parseExpression) expression

def parseOperand : ParserM Expression := do
  let primary ← parsePrimary parseExpression true
  parsePostfix parseExpression primary

/-! ### Keyword forms -/

def ifInterior (startSpan : SourceRange) : ParserM Expression := do
  let condition ← parseExpression 0
  let _ ← expectKeyword "THEN"
  let thenBranch ← parseExpression 0
  let _ ← expectKeyword "ELSE"
  let elseBranch ← parseExpression 0
  return .ifThenElse condition thenBranch elseBranch ⟨startSpan.start, elseBranch.range.stop⟩

/-- Consume the opening token and read `interior` one level deeper in a frame. -/
def parseForm (kind : CstKind) (interior : SourceRange → ParserM Expression) :
    ParserM Expression := do
  let startSpan ← currentRange
  advance
  openFrame kind
  let parsed? ← withNesting startSpan (interior startSpan)
  closeFrame
  return parsed?.getD (placeholderExpression startSpan)

def parseIf : ParserM Expression := parseForm .ifExpression (ifInterior parseExpression)

def caseOther (arms : List CaseArm) (armStart : SourceRange) :
    ParserM (ForInStep (List CaseArm)) := do
  advance
  let _ ← expectSymbol "->"
  let value ← parseExpression 0
  return .done (arms ++ [{ guard := none, value, range := ⟨armStart.start, value.range.stop⟩ }])

def caseGuarded (arms : List CaseArm) (armStart : SourceRange) :
    ParserM (ForInStep (List CaseArm)) := do
  let guard ← parseExpression 0
  if ← consumeSymbol "->" then
    let value ← parseExpression 0
    let arms := arms ++
      [{ guard := some guard, value, range := ⟨armStart.start, value.range.stop⟩ }]
    if ← consumeSymbol "[]" then
      return .yield arms
    else
      return .done arms
  else
    let range ← currentRange
    emitError ParseCode.expectedToken "expected '->' in a CASE arm" range
    return .done arms

def caseStep (arms : List CaseArm) : ParserM (ForInStep (List CaseArm)) := do
  if (← halted?) || (← peekSymbol "====") then
    return .done arms
  else
    let armStart ← currentRange
    if ← peekKeyword "OTHER" then
      caseOther parseExpression arms armStart
    else
      caseGuarded parseExpression arms armStart

def caseInterior (startSpan : SourceRange) : ParserM Expression := do
  let arms ← parserLoop (caseStep parseExpression) []
  let stop ← currentStop
  return .case arms ⟨startSpan.start, stop⟩

def parseCase : ParserM Expression := parseForm .caseExpression (caseInterior parseExpression)

def letParameters (fuel : Nat) : ParserM (List OperatorParameter) := do
  if ← consumeSymbol "(" then
    parseParameterList fuel
  else
    return []

def letDefinition (fuel : Nat) (definitions : List OperatorDefinition) (token : Token)
    (name : String) : ParserM (ForInStep (List OperatorDefinition)) := do
  advance
  let parameters ← letParameters fuel
  if ← consumeSymbol "==" then
    let body ← parseExpression 0
    return .yield (definitions ++
      [{ name
         nameRange := token.range
         fixity := .functional
         parameters
         body
         range := ⟨token.range.start, body.range.stop⟩ }])
  else
    let range ← currentRange
    emitError ParseCode.expectedToken "expected '==' in a LET definition" range
    return .done definitions

def letStep (fuel : Nat) (definitions : List OperatorDefinition) :
    ParserM (ForInStep (List OperatorDefinition)) := do
  if (← peekKeyword "IN") || (← halted?) then
    return .done definitions
  else
    match ← peek? with
    | none => return .done definitions
    | some token =>
        match identifierOf? token with
        | none =>
            let range ← currentRange
            emitError ParseCode.expectedIdentifier "expected a LET definition name" range
            return .done definitions
        | some name => letDefinition parseExpression fuel definitions token name

def letInterior (fuel : Nat) (startSpan : SourceRange) : ParserM Expression := do
  let definitions ← parserLoop (letStep parseExpression fuel) []
  let _ ← expectKeyword "IN"
  let body ← parseExpression 0
  return .letIn definitions body ⟨startSpan.start, body.range.stop⟩

def parseLet (fuel : Nat) : ParserM Expression :=
  parseForm .letExpression (letInterior parseExpression fuel)

def chooseBody (startSpan : SourceRange) (name : String) (nameRange : SourceRange)
    (domain : Option Expression) : ParserM Expression := do
  let _ ← expectSymbol ":"
  let body ← parseExpression 0
  return .choose [{ name, domain, range := ⟨nameRange.start, body.range.stop⟩ }] body
    ⟨startSpan.start, body.range.stop⟩

def chooseInterior (startSpan : SourceRange) : ParserM Expression := do
  match ← expectName with
  | none => return placeholderExpression startSpan
  | some named =>
      if ← consumeSymbol "\\in" then
        let domain ← parseExpression 0
        chooseBody parseExpression startSpan named.1 named.2 (some domain)
      else
        chooseBody parseExpression startSpan named.1 named.2 none

def parseChoose : ParserM Expression := parseForm .quantifier (chooseInterior parseExpression)

def quantifierInterior (kind : QuantifierKind) (startSpan : SourceRange) : ParserM Expression := do
  let bounds ← parseBounds parseExpression true
  let _ ← expectSymbol ":"
  let body ← parseExpression 0
  return .quantifier kind bounds body ⟨startSpan.start, body.range.stop⟩

def parseQuantifier (kind : QuantifierKind) : ParserM Expression :=
  parseForm .quantifier (quantifierInterior parseExpression kind)

def fairnessInterior (spelling : String) (startSpan : SourceRange) : ParserM Expression := do
  let subscript ← parsePrimary parseExpression false
  if ← consumeSymbol "(" then
    let list ← parseDelimitedExpressions parseExpression ")"
    if list.2 then
      let all := subscript :: list.1
      return .apply { qualifier := none, spelling, range := startSpan } all
        (applicationRange startSpan.start all)
    else
      return prefixApplication spelling subscript startSpan
  else
    return prefixApplication spelling subscript startSpan

/-- `WF_v(A)` and `SF_v(A)`; the subscript becomes the first argument. -/
def parseFairness (spelling : String) : ParserM Expression := do
  let startSpan ← currentRange
  advance
  let parsed? ← withNesting startSpan (fairnessInterior parseExpression spelling startSpan)
  return parsed?.getD (placeholderExpression startSpan)

/-! ### Prefix operators -/

/-- A prefix operator and its argument, one nested level deeper. -/
def parsePrefixApplication (spelling : String) (token : Token) : ParserM Expression := do
  advance
  match ← withNesting token.range (parseExpression levelPrefix) with
  | some argument => return prefixApplication spelling argument token.range
  | none => return placeholderExpression token.range

def symbolOrPrimaryAt (profile : LanguageProfile) (parserProfile : ParserProfile)
    (token : Token) : ParserM Expression :=
  match symbolOf? profile token with
  | none => parseOperand parseExpression
  | some spelling =>
      if spelling == "\\A" then parseQuantifier parseExpression .forall
      else if spelling == "\\E" then parseQuantifier parseExpression .exists
      else
        match parserProfile.findOperator? spelling .prefixOperator with
        | some entry => parsePrefixApplication parseExpression entry.canonical token
        | none => parseOperand parseExpression

def parseSymbolOrPrimary : ParserM Expression := do
  let profile ← profileOf
  let parserProfile ← parserProfileOf
  let range ← currentRange
  match ← peek? with
  | none => rejectEnd range
  | some token => symbolOrPrimaryAt parseExpression profile parserProfile token

def prefixKeywords : List String := ["ENABLED", "UNCHANGED", "DOMAIN", "SUBSET", "UNION"]

def keywordPrefix (fuel : Nat) (token : Token) (keyword : String) : ParserM Expression :=
  if prefixKeywords.contains keyword then parsePrefixApplication parseExpression keyword token
  else if keyword == "WF_" then parseFairness parseExpression "WF_"
  else if keyword == "SF_" then parseFairness parseExpression "SF_"
  else if keyword == "IF" then parseIf parseExpression
  else if keyword == "CASE" then parseCase parseExpression
  else if keyword == "LET" then parseLet parseExpression fuel
  else if keyword == "CHOOSE" then parseChoose parseExpression
  else parseSymbolOrPrimary parseExpression

/-- Prefix operators, keyword forms, quantifiers and the operand itself. -/
def parsePrefix (fuel : Nat) : ParserM Expression := do
  let range ← currentRange
  match ← peek? with
  | none => rejectEnd range
  | some token =>
      match keywordOf? token with
      | some keyword => keywordPrefix parseExpression fuel token keyword
      | none => parseSymbolOrPrimary parseExpression

/-! ### Precedence levels -/

def junctionItem (column : Nat) : ParserM Expression := do
  advance
  withJunctionBoundary column (parseExpression 0)

/-- The list goes on at its own operator in its own column. -/
def junctionListStep (level : Nat) (opening : SourceRange) (leading : OperatorEntry)
    (list : Expression) : ParserM (ForInStep Expression) := do
  match ← nextInfixAt? level with
  | some entry =>
      let range ← currentRange
      if range.start.column == opening.start.column && entry.canonical == leading.canonical then
        let right ← junctionItem parseExpression opening.start.column
        return .yield (infixApplication leading list right)
      else
        return .done list
  | none => return .done list

def parseJunctionList (level : Nat) (leading : OperatorEntry) : ParserM Expression := do
  let opening ← currentRange
  let list ← junctionItem parseExpression opening.start.column
  parserLoop (junctionListStep parseExpression level opening leading) list

structure InfixChain where
  first : Option OperatorEntry
  left : Expression

def chainOperand (level : Nat) : ParserM Expression := do
  advance
  parseExpression (level + 1)

def infixChainStep (level : Nat) (chain : InfixChain) : ParserM (ForInStep InfixChain) := do
  if ← halted? then
    return .done chain
  else if ← atJunctionBoundary then
    return .done chain
  else
    match ← nextInfixAt? level with
    | none => return .done chain
    | some entry =>
        match associationConflict chain.first entry with
        | some message =>
            let range ← currentRange
            emitLimit ParseCode.precedenceConflict message range
            return .done chain
        | none =>
            let right ← chainOperand parseExpression level
            return .yield
              { first := some (chain.first.getD entry)
                left := infixApplication entry chain.left right }

/-- The first operand of a level: a prefix list when a junction of this level
opens one, else an expression of the next tighter level. -/
def levelOperand (level : Nat) : ParserM Expression := do
  match ← nextInfixAt? level with
  | some leading =>
      if isJunctionSpelling leading.canonical then
        parseJunctionList parseExpression level leading
      else
        parseExpression (level + 1)
  | none => parseExpression (level + 1)

/-- One precedence level: a tighter operand, then the infix chain. -/
def parseExpressionLevel (fuel level : Nat) : ParserM Expression := do
  let parserProfile ← parserProfileOf
  if level > parserProfile.tightestLevel then
    parsePrefix parseExpression fuel
  else
    let left ← levelOperand parseExpression level
    let chain ← parserLoop (infixChainStep parseExpression level) { first := none, left }
    return chain.left

end Grammar

def expressionExhausted : ParserM Expression := do
  let range ← currentRange
  emitLimit ParseCode.recursionLimit
    "parser resource budget exhausted before a checked limit" range
  return placeholderExpression range

/-- An expression at `level`; every nested expression costs one unit of fuel. -/
def parseExpression : Nat → Nat → ParserM Expression
  | 0, _ => expressionExhausted
  | fuel + 1, level => do
    openFrame .expression
    let expression ← parseExpressionLevel (parseExpression fuel) fuel level
    closeFrame
    return expression

end MirrorsCore.Tla
