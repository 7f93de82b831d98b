import Mathlib
import MirrorsCore.Tla.Source

/-! The language profile (`Core/Tla/Lexer.lean`) and the parser's operator table
(`Core/Tla/Parser.lean`): canonical spellings, fixity, precedence, association. -/

namespace MirrorsCore.Tla

structure SymbolAlias where
  canonical : String
  spellings : List String
  deriving DecidableEq

def defaultSymbolAliases : List SymbolAlias := [
  ⟨"==", ["=="]⟩,
  ⟨"/\\", ["/\\", "\\land", "∧"]⟩,
  ⟨"\\/", ["\\/", "\\lor"]⟩,
  ⟨"~", ["~", "\\lnot", "\\neg"]⟩,
  ⟨"=>", ["=>"]⟩,
  ⟨"<=>", ["<=>", "\\equiv"]⟩,
  ⟨"#", ["#", "/="]⟩,
  ⟨"=<", ["=<", "<=", "\\leq", "≤"]⟩,
  ⟨">=", [">=", "\\geq"]⟩,
  ⟨"\\in", ["\\in", "∈"]⟩,
  ⟨"\\notin", ["\\notin"]⟩,
  ⟨"\\subseteq", ["\\subseteq"]⟩,
  ⟨"\\subset", ["\\subset"]⟩,
  ⟨"\\supseteq", ["\\supseteq"]⟩,
  ⟨"\\supset", ["\\supset"]⟩,
  ⟨"\\cup", ["\\cup", "\\union"]⟩,
  ⟨"\\cap", ["\\cap", "\\intersect"]⟩,
  ⟨"\\X", ["\\X", "\\times"]⟩,
  ⟨"\\o", ["\\o"]⟩,
  ⟨"\\div", ["\\div"]⟩,
  ⟨"\\circ", ["\\circ"]⟩,
  ⟨"\\oplus", ["\\oplus"]⟩,
  ⟨"\\prec", ["\\prec"]⟩,
  ⟨"\\succ", ["\\succ"]⟩,
  ⟨"\\sim", ["\\sim"]⟩,
  ⟨"\\approx", ["\\approx"]⟩,
  ⟨"\\bullet", ["\\bullet"]⟩,
  ⟨"\\star", ["\\star"]⟩,
  ⟨"\\bigcirc", ["\\bigcirc"]⟩,
  ⟨"\\A", ["\\A"]⟩,
  ⟨"\\E", ["\\E"]⟩,
  ⟨"\\", ["\\"]⟩,
  ⟨"..", [".."]⟩,
  ⟨"|->", ["|->"]⟩,
  ⟨"<<", ["<<"]⟩,
  ⟨">>", [">>"]⟩,
  ⟨"[]", ["[]"]⟩,
  ⟨"<>", ["<>"]⟩,
  ⟨"~>", ["~>"]⟩,
  ⟨"->", ["->"]⟩,
  ⟨"<-", ["<-"]⟩,
  ⟨"=", ["="]⟩,
  ⟨"<", ["<"]⟩,
  ⟨">", [">"]⟩,
  ⟨"+", ["+"]⟩,
  ⟨"-", ["-"]⟩,
  ⟨"*", ["*"]⟩,
  ⟨"/", ["/"]⟩,
  ⟨"'", ["'"]⟩,
  ⟨"!", ["!"]⟩,
  ⟨"@", ["@"]⟩,
  ⟨".", ["."]⟩,
  ⟨":", [":"]⟩,
  ⟨"%", ["%"]⟩,
  ⟨"^", ["^"]⟩,
  ⟨"|", ["|"]⟩,
  ⟨"&", ["&"]⟩,
  ⟨"?", ["?"]⟩,
  ⟨"$", ["$"]⟩,
  ⟨";", [";"]⟩]

/-- The spellings of the language profile; reserved words belong to the lexer. -/
structure LanguageProfile where
  name : String
  symbols : List SymbolAlias
  deriving DecidableEq

namespace LanguageProfile

def default : LanguageProfile :=
  { name := "mirrors-tla-frontend-profile-6"
    symbols := defaultSymbolAliases }

def canonicalFor? (profile : LanguageProfile) (spelling : String) : Option String :=
  profile.symbols.findSome? fun group =>
    if group.spellings.contains spelling then some group.canonical else none

end LanguageProfile

/-! ### Operator table -/

inductive SymbolFixity where
  | prefixOperator
  | infixOperator
  | postfixOperator
  deriving DecidableEq

/-- How operators at one precedence level chain. -/
inductive OperatorAssociation where
  | none
  | left
  | right
  | same
  deriving DecidableEq

structure OperatorEntry where
  canonical : String
  fixity : SymbolFixity
  level : Nat
  association : OperatorAssociation
  deriving DecidableEq

def OperatorEntry.accepts (entry : OperatorEntry) (spelling : String) : Bool :=
  entry.canonical == spelling

def levelEquivalence : Nat := 1
def levelImplication : Nat := 2
def levelJunction : Nat := 3
def levelRelational : Nat := 5
def levelRange : Nat := 6
def levelAdditive : Nat := 7
def levelMultiplicative : Nat := 8
def levelPower : Nat := 9
def levelPrefix : Nat := 10

def isJunctionSpelling (spelling : String) : Bool :=
  spelling == "/\\" || spelling == "\\/"

structure ParserProfile where
  name : String
  operators : List OperatorEntry
  deriving DecidableEq

namespace ParserProfile

def revisionTwoOperators : List OperatorEntry := [
  ⟨"~", .prefixOperator, levelPrefix, .none⟩,
  ⟨"-", .prefixOperator, levelPrefix, .none⟩,
  ⟨"[]", .prefixOperator, levelPrefix, .none⟩,
  ⟨"<>", .prefixOperator, levelPrefix, .none⟩,
  ⟨"<=>", .infixOperator, levelEquivalence, .none⟩,
  ⟨"=>", .infixOperator, levelImplication, .none⟩,
  ⟨"~>", .infixOperator, levelImplication, .none⟩,
  ⟨"/\\", .infixOperator, levelJunction, .same⟩,
  ⟨"\\/", .infixOperator, levelJunction, .same⟩,
  ⟨"=", .infixOperator, levelRelational, .none⟩,
  ⟨"#", .infixOperator, levelRelational, .none⟩,
  ⟨"<", .infixOperator, levelRelational, .none⟩,
  ⟨">", .infixOperator, levelRelational, .none⟩,
  ⟨"=<", .infixOperator, levelRelational, .none⟩,
  ⟨">=", .infixOperator, levelRelational, .none⟩,
  ⟨"\\in", .infixOperator, levelRelational, .none⟩,
  ⟨"\\notin", .infixOperator, levelRelational, .none⟩,
  ⟨"\\subseteq", .infixOperator, levelRelational, .none⟩,
  ⟨"\\subset", .infixOperator, levelRelational, .none⟩,
  ⟨"\\supseteq", .infixOperator, levelRelational, .none⟩,
  ⟨"\\supset", .infixOperator, levelRelational, .none⟩,
  ⟨"\\prec", .infixOperator, levelRelational, .none⟩,
  ⟨"\\succ", .infixOperator, levelRelational, .none⟩,
  ⟨"\\sim", .infixOperator, levelRelational, .none⟩,
  ⟨"\\approx", .infixOperator, levelRelational, .none⟩,
  ⟨"..", .infixOperator, levelRange, .none⟩,
  ⟨"+", .infixOperator, levelAdditive, .left⟩,
  ⟨"-", .infixOperator, levelAdditive, .left⟩,
  ⟨"\\cup", .infixOperator, levelAdditive, .left⟩,
  ⟨"\\cap", .infixOperator, levelAdditive, .left⟩,
  ⟨"\\oplus", .infixOperator, levelAdditive, .left⟩,
  ⟨"\\", .infixOperator, levelAdditive, .left⟩,
  ⟨"*", .infixOperator, levelMultiplicative, .left⟩,
  ⟨"/", .infixOperator, levelMultiplicative, .left⟩,
  ⟨"\\circ", .infixOperator, levelMultiplicative, .left⟩,
  ⟨"\\div", .infixOperator, levelMultiplicative, .left⟩,
  ⟨"%", .infixOperator, levelMultiplicative, .left⟩,
  ⟨"\\o", .infixOperator, levelMultiplicative, .left⟩,
  ⟨"\\bullet", .infixOperator, levelMultiplicative, .left⟩,
  ⟨"\\star", .infixOperator, levelMultiplicative, .left⟩,
  ⟨"\\bigcirc", .infixOperator, levelMultiplicative, .left⟩,
  ⟨"\\X", .infixOperator, levelMultiplicative, .left⟩,
  ⟨"^", .infixOperator, levelPower, .left⟩]

def default : ParserProfile :=
  { name := "mirrors-tla-frontend-profile-6"
    operators := revisionTwoOperators }

def tightestLevel (profile : ParserProfile) : Nat :=
  profile.operators.foldl (fun best entry => Nat.max best entry.level) (levelPrefix - 1)

def findOperator? (profile : ParserProfile) (spelling : String) (fixity : SymbolFixity) :
    Option OperatorEntry :=
  profile.operators.findSome? fun entry =>
    if entry.accepts spelling && entry.fixity == fixity then some entry else none

end ParserProfile
end MirrorsCore.Tla
