import Mathlib
import MirrorsCore.Tla.ParserState

/-! Ordered source spans. Trees over ordered tokens, each node spanning its
children, nest: no child leaves its parent and no siblings overlap. -/

namespace MirrorsCore.Tla
open CstNode

/-- Tokens in order, without overlap, from `lo` on. -/
def TokensFrom (lo : Nat) : List Token → Prop
  | [] => True
  | leaf :: rest =>
      lo ≤ leaf.range.start.offset ∧ leaf.range.start.offset ≤ leaf.range.stop.offset ∧
        TokensFrom leaf.range.stop.offset rest

/-- Nested trees in order between two offsets. -/
def Within (lo hi : Nat) : List CstNode → Prop
  | [] => lo ≤ hi
  | child :: rest =>
      lo ≤ child.range.start.offset ∧ child.range.start.offset ≤ child.range.stop.offset ∧
        child.rangesNested = true ∧ Within child.range.stop.offset hi rest

variable {lo mid hi : Nat} {forest : List CstNode}

theorem Within.append {front back : List CstNode} (h : Within lo mid front)
    (h' : Within mid hi back) : Within lo hi (front ++ back) := by
  induction front generalizing lo with
  | nil =>
    cases back with
    | nil => exact h.trans h'
    | cons child rest => exact ⟨h.trans h'.1, h'.2⟩
  | cons child rest ih =>
    obtain ⟨hstart, hrange, hnested, hrest⟩ := h
    exact ⟨hstart, hrange, hnested, ih hrest⟩

theorem Within.le (h : Within lo hi forest) : lo ≤ hi := by
  induction forest generalizing lo with
  | nil => exact h
  | cons child rest ih =>
    obtain ⟨hstart, hrange, -, hrest⟩ := h
    exact hstart.trans (hrange.trans (ih hrest))

theorem Within.getLast {last : CstNode} (h : Within lo hi forest)
    (hlast : forest.getLast? = some last) :
    Within lo last.range.stop.offset forest ∧ last.range.stop.offset ≤ hi := by
  induction forest generalizing lo with
  | nil => cases hlast
  | cons child rest ih =>
    obtain ⟨hstart, hrange, hnested, hrest⟩ := h
    cases rest with
    | nil =>
      obtain rfl : child = last := Option.some.inj hlast
      exact ⟨⟨hstart, hrange, hnested, le_rfl⟩, hrest⟩
    | cons next rest =>
      rw [List.getLast?_cons_cons] at hlast
      obtain ⟨hwithin, hle⟩ := ih hrest hlast
      exact ⟨⟨hstart, hrange, hnested, hwithin⟩, hle⟩

theorem nestedList_of_within {outer : SourceRange} (h : Within lo hi forest)
    (hlo : outer.start.offset ≤ lo) (hhi : hi ≤ outer.stop.offset) :
    nestedList outer forest = true := by
  induction forest generalizing lo with
  | nil => rfl
  | cons child rest ih =>
    obtain ⟨hstart, hrange, hnested, hrest⟩ := h
    have houter : outer.start.offset ≤ child.range.start.offset := hlo.trans hstart
    have hstop : child.range.stop.offset ≤ outer.stop.offset := hrest.le.trans hhi
    have hsiblings := ih hrest (houter.trans hrange)
    cases rest with
    | nil =>
      rw [nestedList, decide_eq_true houter, decide_eq_true hstop, hnested]
      rfl
    | cons next rest =>
      rw [nestedList, decide_eq_true houter, decide_eq_true hstop, hnested,
        decide_eq_true hrest.1, hsiblings]
      rfl

theorem Within.node {kind : CstKind} {fallback : SourceRange} (h : Within lo hi forest)
    (hstart : fallback.start.offset = lo) (hstop : fallback.stop.offset = lo) :
    Within lo hi [.node kind (nodeRange fallback forest) forest] := by
  cases forest with
  | nil =>
    refine ⟨hstart.ge, ?_, rfl, ?_⟩
    · exact (hstart.trans hstop.symm).le
    · exact hstop.le.trans h
  | cons first rest =>
    obtain ⟨last, hlast⟩ : ∃ last, (first :: rest).getLast? = some last :=
      ⟨_, List.getLast?_eq_some_getLast (List.cons_ne_nil first rest)⟩
    have hrange : nodeRange fallback (first :: rest) = ⟨first.range.start, last.range.stop⟩ := by
      rw [nodeRange, hlast]
    obtain ⟨hwithin, hle⟩ := h.getLast hlast
    have hinner : Within first.range.start.offset last.range.stop.offset (first :: rest) :=
      ⟨le_rfl, hwithin.2⟩
    rw [hrange]
    refine ⟨h.1, hinner.le, ?_, hle⟩
    rw [rangesNested]
    exact nestedList_of_within hinner le_rfl le_rfl

theorem rangesNested_of_within {tree : CstNode} (h : Within lo hi [tree]) :
    tree.rangesNested = true := h.2.2.1

end MirrorsCore.Tla
