import Mathlib

/-! Depth-first exploration of a graph that is discovered while it is walked. The
open nodes form the current path, innermost first. An edge to an open node is never
recorded, so the edges among closed nodes have no cycle. -/

namespace MirrorsCore.Lib
variable {N : Type}

/-- `seen` and `edges` stand in discovery order; an edge is an owner and its target. -/
structure Search (N : Type) where
  opened : List N
  seen : List N
  edges : List (N × N)

namespace Search

def start (root : N) : Search N := { opened := [root], seen := [root], edges := [] }

def Edge (s : Search N) (owner target : N) : Prop := (owner, target) ∈ s.edges

inductive Step : Search N → Search N → Prop
  | reuse {node target : N} {rest seen : List N} {edges : List (N × N)}
      (hseen : target ∈ seen) (hclosed : target ∉ node :: rest) :
      Step ⟨node :: rest, seen, edges⟩ ⟨node :: rest, seen, edges ++ [(node, target)]⟩
  | descend {node target : N} {rest seen : List N} {edges : List (N × N)}
      (hfresh : target ∉ seen) :
      Step ⟨node :: rest, seen, edges⟩
        ⟨target :: node :: rest, seen ++ [target], edges ++ [(node, target)]⟩
  | close {node : N} {rest seen : List N} {edges : List (N × N)} :
      Step ⟨node :: rest, seen, edges⟩ ⟨rest, seen, edges⟩

/-- What holds of every search from `root`. An edge of an open node leads to a closed
node or further up the path; an edge of a closed node leads to a closed node. -/
structure Ok (root : N) (s : Search N) : Prop where
  openedNodup : s.opened.Nodup
  seenNodup : s.seen.Nodup
  openedSeen : ∀ node ∈ s.opened, node ∈ s.seen
  first : s.seen.head? = some root
  bottom : s.opened = [] ∨ s.opened.getLast? = some root
  ends : ∀ edge ∈ s.edges, edge.1 ∈ s.seen ∧ edge.2 ∈ s.seen
  openEdges : ∀ edge ∈ s.edges, ∀ up down, s.opened = up ++ edge.1 :: down →
    edge.2 ∉ edge.1 :: down
  closedEdges : ∀ edge ∈ s.edges, edge.1 ∉ s.opened → edge.2 ∉ s.opened
  path : s.opened.IsChain fun upper lower => s.Edge lower upper
  reached : ∀ node ∈ s.seen, Relation.ReflTransGen s.Edge root node
  settled : ∀ node ∈ s.seen, node ∉ s.opened → Acc (fun target owner => s.Edge owner target) node

theorem ok_start (root : N) : Ok root (start root) where
  openedNodup := List.nodup_singleton root
  seenNodup := List.nodup_singleton root
  openedSeen := fun _ h => h
  first := rfl
  bottom := .inr rfl
  ends := fun _ h => absurd h List.not_mem_nil
  openEdges := fun _ h => absurd h List.not_mem_nil
  closedEdges := fun _ h => absurd h List.not_mem_nil
  path := List.isChain_singleton root
  reached := fun node h => by
    rw [start, List.mem_singleton] at h
    rw [h]
  settled := fun _ h hopen => absurd h hopen

theorem reaches_mono {s t : Search N} (h : s.edges ⊆ t.edges) {owner target : N}
    (hreach : Relation.ReflTransGen s.Edge owner target) :
    Relation.ReflTransGen t.Edge owner target :=
  Relation.ReflTransGen.mono (fun _ _ hedge => h hedge) _ _ hreach

theorem acc_of_agree {R R' : N → N → Prop} {inside : N → Prop}
    (hclosed : ∀ target owner, inside owner → R target owner → inside target)
    (hagree : ∀ target owner, inside owner → R' target owner → R target owner)
    {node : N} (hin : inside node) (h : Acc R node) : Acc R' node := by
  induction h with
  | intro node _ ih =>
    refine Acc.intro node fun target hstep => ?_
    have hold : R target node := hagree target node hin hstep
    exact ih target hold (hclosed target node hin hold)

section Ok
variable {root node target : N} {rest seen : List N} {edges : List (N × N)}

theorem Ok.settled_append (h : Ok root ⟨node :: rest, seen, edges⟩) {t : Search N}
    (hedges : t.edges = edges ++ [(node, target)]) {closed : N} (hseen : closed ∈ seen)
    (hclosed : closed ∉ node :: rest) :
    Acc (fun target owner => t.Edge owner target) closed := by
  have hold : Acc (fun target owner => (owner, target) ∈ edges) closed :=
    h.settled closed hseen hclosed
  have hin : closed ∈ seen ∧ closed ∉ node :: rest := ⟨hseen, hclosed⟩
  have hclosedUnder : ∀ target owner, owner ∈ seen ∧ owner ∉ node :: rest →
      (owner, target) ∈ edges → target ∈ seen ∧ target ∉ node :: rest :=
    fun target owner hin hedge => ⟨(h.ends _ hedge).2, h.closedEdges _ hedge hin.2⟩
  refine acc_of_agree hclosedUnder (fun target owner hin hedge => ?_) hin hold
  rw [Edge, hedges] at hedge
  rcases List.mem_append.mp hedge with hold | hnew
  · exact hold
  · rw [List.mem_singleton, Prod.mk.injEq] at hnew
    exact absurd (hnew.1 ▸ List.mem_cons_self) hin.2

theorem Ok.reuse (h : Ok root ⟨node :: rest, seen, edges⟩) (hseen : target ∈ seen)
    (hclosed : target ∉ node :: rest) :
    Ok root ⟨node :: rest, seen, edges ++ [(node, target)]⟩ := by
  have hgrow : edges ⊆ edges ++ [(node, target)] := List.subset_append_left _ _
  have hnode : node ∈ seen := h.openedSeen node List.mem_cons_self
  refine { openedNodup := h.openedNodup, seenNodup := h.seenNodup, openedSeen := h.openedSeen,
           first := h.first, bottom := h.bottom, ends := ?_, openEdges := ?_, closedEdges := ?_,
           path := ?_, reached := ?_, settled := ?_ }
  · intro edge hedge
    rcases List.mem_append.mp hedge with hold | hnew
    · exact h.ends edge hold
    · rw [List.mem_singleton.mp hnew]
      exact ⟨hnode, hseen⟩
  · intro edge hedge up down hsplit
    rcases List.mem_append.mp hedge with hold | hnew
    · exact h.openEdges edge hold up down hsplit
    · obtain rfl := List.mem_singleton.mp hnew
      intro hdown
      have hsplit' : node :: rest = up ++ node :: down := hsplit
      exact hclosed (hsplit' ▸ List.mem_append_right up hdown)
  · intro edge hedge hopen
    rcases List.mem_append.mp hedge with hold | hnew
    · exact h.closedEdges edge hold hopen
    · obtain rfl := List.mem_singleton.mp hnew
      exact absurd List.mem_cons_self hopen
  · exact h.path.imp fun _ _ hedge => hgrow hedge
  · exact fun n hn => reaches_mono hgrow (h.reached n hn)
  · exact fun closed hseen hclosed => h.settled_append rfl hseen hclosed

theorem Ok.descend (h : Ok root ⟨node :: rest, seen, edges⟩) (hfresh : target ∉ seen) :
    Ok root ⟨target :: node :: rest, seen ++ [target], edges ++ [(node, target)]⟩ := by
  have hgrow : edges ⊆ edges ++ [(node, target)] := List.subset_append_left _ _
  have hnode : node ∈ seen := h.openedSeen node List.mem_cons_self
  have hopen : target ∉ node :: rest := fun hmem => hfresh (h.openedSeen target hmem)
  refine { openedNodup := List.nodup_cons.mpr ⟨hopen, h.openedNodup⟩, seenNodup := ?_,
           openedSeen := ?_, first := ?_, bottom := .inr ?_, ends := ?_, openEdges := ?_,
           closedEdges := ?_, path := ?_, reached := ?_, settled := ?_ }
  · exact List.nodup_append.mpr ⟨h.seenNodup, List.nodup_singleton _, fun a ha b hb hab =>
      hfresh (List.mem_singleton.mp hb ▸ hab ▸ ha)⟩
  · intro n hn
    rcases List.mem_cons.mp hn with rfl | hn
    · exact List.mem_append_right _ (List.mem_singleton_self _)
    · exact List.mem_append_left _ (h.openedSeen n hn)
  · have hfirst : seen.head? = some root := h.first
    rw [List.head?_append, hfirst, Option.some_or]
  · have hbottom : (node :: rest).getLast? = some root :=
      h.bottom.resolve_left (List.cons_ne_nil node rest)
    rw [List.getLast?_cons_cons, hbottom]
  · intro edge hedge
    rcases List.mem_append.mp hedge with hold | hnew
    · exact ⟨List.mem_append_left _ (h.ends edge hold).1,
        List.mem_append_left _ (h.ends edge hold).2⟩
    · rw [List.mem_singleton.mp hnew]
      exact ⟨List.mem_append_left _ hnode, List.mem_append_right _ (List.mem_singleton_self _)⟩
  · intro edge hedge up down hsplit
    have howner : edge.1 ∈ seen := by
      rcases List.mem_append.mp hedge with hold | hnew
      · exact (h.ends edge hold).1
      · rw [List.mem_singleton.mp hnew]
        exact hnode
    -- the fresh node owns no edge, so the owner lies on the old path
    rcases up with - | ⟨first, up⟩
    · rw [List.nil_append, List.cons.injEq] at hsplit
      exact absurd (hsplit.1 ▸ howner) hfresh
    · rw [List.cons_append, List.cons.injEq] at hsplit
      rcases List.mem_append.mp hedge with hold | hnew
      · exact h.openEdges edge hold up down hsplit.2
      · obtain rfl := List.mem_singleton.mp hnew
        intro hdown
        exact hopen (hsplit.2 ▸ List.mem_append_right up hdown)
  · intro edge hedge howner
    rw [List.mem_cons, not_or] at howner
    rcases List.mem_append.mp hedge with hold | hnew
    · rw [List.mem_cons, not_or]
      refine ⟨fun heq => hfresh (heq ▸ (h.ends edge hold).2), ?_⟩
      exact h.closedEdges edge hold howner.2
    · obtain rfl := List.mem_singleton.mp hnew
      exact absurd List.mem_cons_self howner.2
  · refine List.isChain_cons_cons.mpr ⟨?_, h.path.imp fun _ _ hedge => hgrow hedge⟩
    exact List.mem_append_right _ (List.mem_singleton_self _)
  · intro n hn
    have hmono : ∀ n ∈ seen, Relation.ReflTransGen
        (Edge ⟨target :: node :: rest, seen ++ [target], edges ++ [(node, target)]⟩) root n :=
      fun n hn => reaches_mono hgrow (h.reached n hn)
    rcases List.mem_append.mp hn with hn | hn
    · exact hmono n hn
    · obtain rfl := List.mem_singleton.mp hn
      exact (hmono node hnode).tail (List.mem_append_right _ (List.mem_singleton_self _))
  · intro closed hseen hclosed
    rw [List.mem_cons, not_or] at hclosed
    rcases List.mem_append.mp hseen with hseen | hseen
    · exact h.settled_append rfl hseen hclosed.2
    · exact absurd (List.mem_singleton.mp hseen) hclosed.1

theorem Ok.close (h : Ok root ⟨node :: rest, seen, edges⟩) : Ok root ⟨rest, seen, edges⟩ := by
  refine { openedNodup := (List.nodup_cons.mp h.openedNodup).2, seenNodup := h.seenNodup,
           openedSeen := fun n hn => h.openedSeen n (List.mem_cons_of_mem _ hn),
           first := h.first, bottom := ?_, ends := h.ends, openEdges := ?_, closedEdges := ?_,
           path := h.path.tail, reached := h.reached, settled := ?_ }
  · rcases rest with - | ⟨next, rest⟩
    · exact .inl rfl
    · have hbottom : (node :: next :: rest).getLast? = some root :=
        h.bottom.resolve_left (List.cons_ne_nil node (next :: rest))
      rw [List.getLast?_cons_cons] at hbottom
      exact .inr hbottom
  · intro edge hedge up down hsplit
    have hrest : rest = up ++ edge.1 :: down := hsplit
    exact h.openEdges edge hedge (node :: up) down (by rw [hrest]; rfl)
  · intro edge hedge howner
    by_cases hnode : edge.1 = node
    · have hup := h.openEdges edge hedge [] rest (by rw [hnode]; rfl)
      exact fun hmem => hup (List.mem_cons_of_mem _ hmem)
    · have hold := h.closedEdges edge hedge fun hmem =>
        (List.mem_cons.mp hmem).elim hnode howner
      exact fun hmem => hold (List.mem_cons_of_mem _ hmem)
  · intro closed hseen hclosed
    by_cases hnode : closed = node
    · -- every edge of the node just closed leads to a node closed before it
      subst hnode
      refine Acc.intro closed fun target hedge => ?_
      have hup := h.openEdges (closed, target) hedge [] rest rfl
      exact h.settled target (h.ends _ hedge).2 hup
    · exact h.settled closed hseen fun hmem => (List.mem_cons.mp hmem).elim hnode hclosed

end Ok

section Runs
variable {root : N} {s t : Search N}

theorem Step.ok (hstep : Step s t) (h : Ok root s) : Ok root t := by
  cases hstep with
  | reuse hseen hclosed => exact h.reuse hseen hclosed
  | descend hfresh => exact h.descend hfresh
  | close => exact h.close

theorem ok_run (hrun : Relation.ReflTransGen Step s t) (h : Ok root s) : Ok root t := by
  induction hrun with
  | refl => exact h
  | tail _ hstep ih => exact hstep.ok ih

theorem Step.edges_subset (hstep : Step s t) : s.edges ⊆ t.edges := by
  cases hstep with
  | reuse => exact List.subset_append_left _ _
  | descend => exact List.subset_append_left _ _
  | close => exact List.Subset.refl _

theorem edges_subset_of_run (hrun : Relation.ReflTransGen Step s t) : s.edges ⊆ t.edges := by
  induction hrun with
  | refl => exact List.Subset.refl _
  | tail _ hstep ih => exact fun _ hedge => hstep.edges_subset (ih hedge)

/-- When the path is empty, what was recorded has no cycle. -/
theorem Ok.wellFounded (h : Ok root s) (hdone : s.opened = []) :
    WellFounded fun target owner => s.Edge owner target := by
  refine ⟨fun node => ?_⟩
  by_cases hseen : node ∈ s.seen
  · exact h.settled node hseen (hdone ▸ List.not_mem_nil)
  · exact Acc.intro node fun target hedge => absurd (h.ends _ hedge).1 hseen

theorem Ok.path_from (h : Ok root s) {up down : List N} {target : N}
    (hsplit : s.opened = up ++ target :: down) :
    (target :: up.reverse).IsChain s.Edge := by
  have hpath : (up ++ [target]).IsChain fun upper lower => s.Edge lower upper := by
    have hall := h.path
    rw [hsplit, List.append_cons] at hall
    exact hall.left_of_append
  rw [← List.isChain_reverse] at hpath
  simpa using hpath

theorem Ok.reaches_top (h : Ok root s) {node target : N} {rest : List N}
    (hopened : s.opened = node :: rest) (htarget : target ∈ node :: rest) :
    Relation.ReflTransGen s.Edge target node := by
  have hpath : (node :: rest).IsChain fun upper lower => s.Edge lower upper := hopened ▸ h.path
  clear hopened
  induction rest generalizing node with
  | nil => rw [List.mem_singleton.mp htarget]
  | cons next rest ih =>
    rcases List.mem_cons.mp htarget with rfl | htarget
    · exact .refl
    · obtain ⟨hstep, hpath⟩ := List.isChain_cons_cons.mp hpath
      exact (ih htarget hpath).tail hstep

/-- The whole path, outermost first. -/
theorem Ok.path_from_root (h : Ok root s) (hopen : s.opened ≠ []) :
    s.opened.reverse.IsChain s.Edge ∧ s.opened.reverse.head? = some root := by
  refine ⟨List.isChain_reverse.mpr h.path, ?_⟩
  rw [List.head?_reverse]
  exact h.bottom.resolve_left hopen

theorem Ok.length_le (h : Ok root s) : s.opened.length ≤ s.seen.length :=
  (h.openedNodup.subperm h.openedSeen).length_le

end Runs
end Search
end MirrorsCore.Lib
