import Mathlib
import MirrorsCore.Tla.Source

/-! Tokens with their trivia (`Core/Tla/Token.lean`) and the lossless concrete
syntax tree over them (`Core/Tla/Syntax.lean`). -/

namespace MirrorsCore.Tla

inductive TriviaKind where
  | whitespace
  | newline
  | lineComment
  | blockComment
  | annotation
  deriving DecidableEq

structure Trivia where
  kind : TriviaKind
  spelling : String
  range : SourceRange
  annotationKind : Option String := none
  annotationPayload : Option String := none
  deriving DecidableEq

/-- An operator in the canonical spelling the lexer chose for it. -/
structure Symbol where
  canonical : String
  deriving DecidableEq

inductive TokenKind where
  | identifier
  | qualifiedName
  | keyword (canonical : String)
  | integer (value : Int)
  | string
  | symbol (symbol : Symbol)
  | moduleHeader
  | moduleEnd
  | eof
  deriving DecidableEq

namespace TokenKind

def isEof : TokenKind → Bool
  | .eof => true
  | _ => false

def isKeyword (kind : TokenKind) (canonical : String) : Bool :=
  match kind with
  | .keyword spelling => spelling == canonical
  | _ => false

end TokenKind

structure Token where
  kind : TokenKind
  spelling : String
  range : SourceRange
  leadingTrivia : List Trivia
  trailingTrivia : List Trivia
  deriving DecidableEq

namespace Token

def text (token : Token) : String :=
  String.join
    (token.leadingTrivia.map Trivia.spelling ++ [token.spelling] ++
      token.trailingTrivia.map Trivia.spelling)

def isEof (token : Token) : Bool := token.kind.isEof

def dropWhile (predicate : Char → Bool) : List Char → List Char
  | [] => []
  | character :: rest =>
      if predicate character then dropWhile predicate rest else character :: rest

def isHeaderBlank (character : Char) : Bool :=
  character == ' ' || character == '\t'

def isHeaderDash (character : Char) : Bool := character == '-'

def takeWordFrom (acc : List Char) : List Char → List Char × List Char
  | [] => (acc.reverse, [])
  | character :: tail =>
      if isAsciiIdentifierChar character then takeWordFrom (character :: acc) tail
      else (acc.reverse, character :: tail)

def takeWord (characters : List Char) : String × List Char :=
  (String.ofList (takeWordFrom [] characters).1, (takeWordFrom [] characters).2)

/-- The module name of a header line. -/
def moduleHeaderName? (token : Token) : Option String :=
  if token.kind != .moduleHeader then
    none
  else
    let afterDashes := dropWhile isHeaderDash token.spelling.toList
    let afterBlank := dropWhile isHeaderBlank afterDashes
    let (firstWord, rest) := takeWord afterBlank
    if firstWord != "MODULE" then
      none
    else
      let (name, _) := takeWord (dropWhile isHeaderBlank rest)
      if ModuleName.valid name then some name else none

end Token

structure TokenStream where
  tokens : List Token
  deriving DecidableEq

def TokenStream.text (stream : TokenStream) : String :=
  String.join (stream.tokens.map Token.text)

/-! ### Concrete syntax -/

inductive CstKind where
  | moduleRoot
  | declaration
  | extendsDeclaration
  | operatorDefinition
  | instanceDeclaration
  | assumption
  | theoremDeclaration
  | proofRegion
  | expression
  | ifExpression
  | caseExpression
  | letExpression
  | quantifier
  | recovery
  deriving DecidableEq

inductive CstNode where
  | token (leaf : Token)
  | node (kind : CstKind) (range : SourceRange) (children : List CstNode)

namespace CstNode

def range : CstNode → SourceRange
  | .token leaf => leaf.range
  | .node _ range _ => range

mutual

def leafTokens : CstNode → List Token
  | .token leaf => [leaf]
  | .node _ _ children => leafTokensList children

def leafTokensList : List CstNode → List Token
  | [] => []
  | child :: rest => child.leafTokens ++ leafTokensList rest

end

mutual

def tokenCount : CstNode → Nat
  | .token _ => 1
  | .node _ _ children => countTokens children

def countTokens : List CstNode → Nat
  | [] => 0
  | child :: rest => child.tokenCount + countTokens rest

end

mutual

def text : CstNode → String
  | .token leaf => leaf.text
  | .node _ _ children => textList children

def textList : List CstNode → String
  | [] => ""
  | child :: rest => child.text ++ textList rest

end

mutual

/-- Children lie inside their parent, in order and without overlap. -/
def rangesNested : CstNode → Bool
  | .token _ => true
  | .node _ outer children => nestedList outer children

def nestedList (outer : SourceRange) : List CstNode → Bool
  | [] => true
  | child :: rest =>
      decide (outer.start.offset ≤ child.range.start.offset) &&
        decide (child.range.stop.offset ≤ outer.stop.offset) &&
        child.rangesNested &&
        match rest with
        | [] => true
        | next :: _ =>
            decide (child.range.stop.offset ≤ next.range.start.offset) &&
              nestedList outer rest

end

mutual

def subtrees : CstNode → List CstNode
  | .token leaf => [.token leaf]
  | .node kind range children => .node kind range children :: subtreesList children

def subtreesList : List CstNode → List CstNode
  | [] => []
  | child :: rest => child.subtrees ++ subtreesList rest

end

@[simp] theorem leafTokensList_append (front back : List CstNode) :
    leafTokensList (front ++ back) = leafTokensList front ++ leafTokensList back := by
  induction front with
  | nil => rfl
  | cons child rest ih =>
    rw [List.cons_append, leafTokensList, leafTokensList, ih, List.append_assoc]

@[simp] theorem subtreesList_append (front back : List CstNode) :
    subtreesList (front ++ back) = subtreesList front ++ subtreesList back := by
  induction front with
  | nil => rfl
  | cons child rest ih =>
    rw [List.cons_append, subtreesList, subtreesList, ih, List.append_assoc]

theorem mem_subtreesList {tree : CstNode} {forest : List CstNode} :
    tree ∈ subtreesList forest ↔ ∃ child ∈ forest, tree ∈ child.subtrees := by
  induction forest with
  | nil => simp [subtreesList]
  | cons child rest ih => simp [subtreesList, ih]

end CstNode

structure CstModule where
  root : CstNode

namespace CstModule

def tokenCount (cst : CstModule) : Nat := cst.root.tokenCount

def text (cst : CstModule) : String := cst.root.text

/-- Every token of the stream, once and in order. -/
def losslessAgainst (cst : CstModule) (stream : TokenStream) : Bool :=
  cst.tokenCount == stream.tokens.length && cst.text == stream.text

def rangesNested (cst : CstModule) : Bool := cst.root.rangesNested

end CstModule

/-! ### Leaves decide the text -/

namespace CstNode

theorem join_cons (first : String) (rest : List String) :
    String.join (first :: rest) = first ++ String.join rest := by
  rw [← String.toList_inj, String.toList_append, String.toList_join, String.toList_join]
  rfl

theorem join_append (front back : List String) :
    String.join (front ++ back) = String.join front ++ String.join back := by
  induction front with
  | nil => rfl
  | cons first rest ih =>
    rw [List.cons_append, join_cons, join_cons, ih, String.append_assoc]

mutual

theorem text_eq_join (tree : CstNode) : tree.text = String.join (tree.leafTokens.map Token.text) := by
  cases tree with
  | token leaf =>
    rw [text, leafTokens, List.map_singleton, join_cons]
    exact (String.append_empty).symm
  | node kind range children =>
    rw [text, leafTokens]
    exact textList_eq_join children

theorem textList_eq_join (forest : List CstNode) :
    textList forest = String.join ((leafTokensList forest).map Token.text) := by
  cases forest with
  | nil => rfl
  | cons child rest =>
    rw [textList, leafTokensList, List.map_append, join_append, text_eq_join child,
      textList_eq_join rest]

end

mutual

theorem tokenCount_eq_length (tree : CstNode) : tree.tokenCount = tree.leafTokens.length := by
  cases tree with
  | token leaf => rfl
  | node kind range children =>
    rw [tokenCount, leafTokens]
    exact countTokens_eq_length children

theorem countTokens_eq_length (forest : List CstNode) :
    countTokens forest = (leafTokensList forest).length := by
  cases forest with
  | nil => rfl
  | cons child rest =>
    rw [countTokens, leafTokensList, List.length_append, tokenCount_eq_length child,
      countTokens_eq_length rest]

end

end CstNode

theorem losslessAgainst_of_leafTokens {cst : CstModule} {stream : TokenStream}
    (h : cst.root.leafTokens = stream.tokens) : cst.losslessAgainst stream = true := by
  have hcount : cst.tokenCount = stream.tokens.length := by
    rw [CstModule.tokenCount, CstNode.tokenCount_eq_length, h]
  have htext : cst.text = stream.text := by
    rw [CstModule.text, CstNode.text_eq_join, h]
    rfl
  unfold CstModule.losslessAgainst
  rw [hcount, htext, beq_self_eq_true, beq_self_eq_true]
  rfl

end MirrorsCore.Tla
