import Mathlib
import MirrorsCore.Tla.ParserState

/-! The column rule of prefix junction lists, read off a concrete syntax tree. A
list is an expression node that starts with a junction; its items follow that
bullet and every further bullet of the same operator and column. -/

namespace MirrorsCore.Tla
open CstNode

def isJunction (profile : LanguageProfile) (token : Token) : Bool :=
  match symbolOf? profile token with
  | some spelling => isJunctionSpelling spelling
  | none => false

def Token.column (token : Token) : Nat := token.range.start.column

/-- The token starts an item of the list that `bullet` opened. -/
def sameBullet (profile : LanguageProfile) (bullet token : Token) : Bool :=
  isJunction profile token && symbolSpelling profile token == symbolSpelling profile bullet &&
    token.column == bullet.column

/-- The nodes behind the bullets at the front of a forest. -/
def listItems (profile : LanguageProfile) (bullet : Token) : List CstNode → List CstNode
  | .token next :: item :: rest =>
      if sameBullet profile bullet next then item :: listItems profile bullet rest else []
  | _ => []

/-- The bullet and the items of the prefix list that a node is. -/
def prefixList? (profile : LanguageProfile) : CstNode → Option (Token × List CstNode)
  | .node .expression _ (.token bullet :: rest) =>
      if isJunction profile bullet then
        some (bullet, listItems profile bullet (.token bullet :: rest))
      else
        none
  | _ => none

/-- Not a junction at or left of the boundary column. -/
def Beyond (profile : LanguageProfile) (boundary : Option Nat) (token : Token) : Prop :=
  isJunction profile token = true → ∀ column ∈ boundary, column < token.column

instance (profile : LanguageProfile) (boundary : Option Nat) (token : Token) :
    Decidable (Beyond profile boundary token) := by
  unfold Beyond
  infer_instance

/-- No item of the node's prefix list holds a junction at or left of its bullet. -/
def KeepsColumn (profile : LanguageProfile) (tree : CstNode) : Prop :=
  ∀ list ∈ prefixList? profile tree, ∀ item ∈ list.2, ∀ leaf ∈ item.leafTokens,
    Beyond profile (some list.1.column) leaf

instance (profile : LanguageProfile) (tree : CstNode) : Decidable (KeepsColumn profile tree) := by
  unfold KeepsColumn
  infer_instance

/-- Every prefix list of the tree respects its bullet column. -/
def JunctionListsKept (profile : LanguageProfile) (tree : CstNode) : Prop :=
  ∀ node ∈ tree.subtrees, KeepsColumn profile node

instance (profile : LanguageProfile) (tree : CstNode) :
    Decidable (JunctionListsKept profile tree) := by
  unfold JunctionListsKept
  infer_instance

/-- Junctions are infix operators only, and no bracket stands for one. -/
structure JunctionTables (profile : LanguageProfile) (parserProfile : ParserProfile) : Prop where
  no_prefix : ∀ spelling ∈ ["/\\", "\\/"],
    parserProfile.findOperator? spelling .prefixOperator = none
  no_postfix : ∀ spelling ∈ ["/\\", "\\/"],
    parserProfile.findOperator? spelling .postfixOperator = none
  has_infix : ∀ spelling ∈ ["/\\", "\\/"],
    (parserProfile.findOperator? spelling .infixOperator).isSome = true
  brackets : ∀ spelling ∈ ["(", "<<", "\x7b", "[", "@"],
    isJunctionSpelling ((profile.canonicalFor? spelling).getD spelling) = false

theorem junctionTables_default : JunctionTables .default .default where
  no_prefix := by decide
  no_postfix := by decide
  has_infix := by decide
  brackets := by decide

section Rules
variable {profile : LanguageProfile} {boundary : Option Nat}

theorem beyond_of_not_junction {token : Token} (h : isJunction profile token = false) :
    Beyond profile boundary token := fun hj => absurd (h ▸ hj) Bool.false_ne_true

theorem beyond_none {token : Token} : Beyond profile none token := fun _ _ h => nomatch h

theorem Beyond.weaken {token : Token} {column : Nat} (h : Beyond profile (some column) token)
    (hle : ∀ outer ∈ boundary, outer ≤ column) : Beyond profile boundary token :=
  fun hj outer houter => (hle outer houter).trans_lt (h hj column rfl)

/-- What a run may add inside an item: its lists keep their columns, and it holds
no junction at or left of the boundary. -/
def Respected (profile : LanguageProfile) (boundary : Option Nat) (forest : List CstNode) : Prop :=
  (∀ node ∈ subtreesList forest, KeepsColumn profile node) ∧
    ∀ leaf ∈ leafTokensList forest, Beyond profile boundary leaf

theorem respected_nil : Respected profile boundary [] := ⟨nofun, nofun⟩

theorem respected_append {front back : List CstNode} :
    Respected profile boundary (front ++ back) ↔
      Respected profile boundary front ∧ Respected profile boundary back := by
  unfold Respected
  rw [subtreesList_append, leafTokensList_append]
  simp only [List.mem_append, or_imp, forall_and]
  exact and_and_and_comm

theorem respected_cons {child : CstNode} {rest : List CstNode} :
    Respected profile boundary (child :: rest) ↔
      Respected profile boundary [child] ∧ Respected profile boundary rest := by
  rw [← respected_append]
  rfl

theorem respected_cons_cons {first second : CstNode} {rest : List CstNode} :
    Respected profile boundary (first :: second :: rest) ↔
      Respected profile boundary [first] ∧ Respected profile boundary [second] ∧
        Respected profile boundary rest := by
  rw [← respected_append, ← respected_append]
  rfl

theorem keepsColumn_token {leaf : Token} : KeepsColumn profile (.token leaf) := nofun

theorem respected_token {leaf : Token} :
    Respected profile boundary [.token leaf] ↔ Beyond profile boundary leaf := by
  unfold Respected
  rw [subtreesList, leafTokensList, subtreesList, leafTokensList, subtrees, leafTokens]
  simp [keepsColumn_token]

theorem subtreesList_singleton (tree : CstNode) : subtreesList [tree] = tree.subtrees := by
  rw [subtreesList, subtreesList, List.append_nil]

theorem leafTokensList_singleton (tree : CstNode) : leafTokensList [tree] = tree.leafTokens := by
  rw [leafTokensList, leafTokensList, List.append_nil]

theorem respected_node {kind : CstKind} {range : SourceRange} {children : List CstNode} :
    Respected profile boundary [.node kind range children] ↔
      KeepsColumn profile (.node kind range children) ∧ Respected profile boundary children := by
  unfold Respected
  rw [subtreesList_singleton, leafTokensList_singleton, subtrees, leafTokens]
  simp only [List.mem_cons, forall_eq_or_imp, and_assoc]

theorem keepsColumn_of_kind {kind : CstKind} {range : SourceRange} {children : List CstNode}
    (h : kind ≠ .expression) : KeepsColumn profile (.node kind range children) := by
  intro list hlist
  have hnone : prefixList? profile (.node kind range children) = none := by
    unfold prefixList?
    split
    · rename_i heq
      exact absurd (CstNode.node.inj heq).1 h
    · rfl
  rw [hnone] at hlist
  cases hlist

theorem respected_node_of_kind {kind : CstKind} {range : SourceRange} {children : List CstNode}
    (h : kind ≠ .expression) :
    Respected profile boundary [.node kind range children] ↔
      Respected profile boundary children := by
  rw [respected_node, and_iff_right (keepsColumn_of_kind h)]

theorem Respected.weaken {column : Nat} {forest : List CstNode}
    (h : Respected profile (some column) forest) (hle : ∀ outer ∈ boundary, outer ≤ column) :
    Respected profile boundary forest :=
  ⟨h.1, fun leaf hleaf => (h.2 leaf hleaf).weaken hle⟩

end Rules
end MirrorsCore.Tla
