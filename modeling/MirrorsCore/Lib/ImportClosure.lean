import Mathlib
import MirrorsCore.Lib.StableUnique

/-! Closures of declarations over a well-founded import relation. A hidden import
shows its module's exports to the importer only. `exports` and `effective` follow
that rule import by import; `reached` lets the import that brings a declaration
first decide. `reached_eq_effective_iff` says when the two agree. -/

namespace MirrorsCore.Lib

/-- Nodes with their imports in source order and their own declarations. -/
structure ImportSystem (N E V : Type) where
  edges : N → List E
  target : E → N
  hidden : E → Bool
  own : N → List V
  isLocal : V → Bool

/-- A declaration with the imports that lead to it, outermost first. -/
abbrev Occurrence (E V : Type) := V × List E

variable {N E V : Type}

def extend (e : E) (o : Occurrence E V) : Occurrence E V := (o.1, e :: o.2)

/-- What the imports bring, in order, and then the own declarations. -/
def arrivals (blocks : List (E × List (Occurrence E V))) (own : List V) :
    List (Occurrence E V) :=
  blocks.flatMap (fun block => block.2.map (extend block.1)) ++ own.map fun v => (v, [])

theorem map_fst_extend (e : E) (os : List (Occurrence E V)) :
    (os.map (extend e)).map Prod.fst = os.map Prod.fst := by
  rw [List.map_map]
  rfl

theorem arrivals_cons (block : E × List (Occurrence E V))
    (blocks : List (E × List (Occurrence E V))) (own : List V) :
    arrivals (block :: blocks) own = block.2.map (extend block.1) ++ arrivals blocks own := by
  simp [arrivals]

theorem mem_fst_arrivals {blocks : List (E × List (Occurrence E V))} {own : List V} {v : V} :
    v ∈ (arrivals blocks own).map Prod.fst ↔
      (∃ block ∈ blocks, v ∈ block.2.map Prod.fst) ∨ v ∈ own := by
  induction blocks with
  | nil => simp [arrivals]
  | cons block blocks ih =>
    rw [arrivals_cons, List.map_append, List.mem_append, map_fst_extend, ih, ← or_assoc]
    simp only [List.exists_mem_cons_iff]

variable [DecidableEq V]

/-- The first occurrence of every declaration that arrives. -/
def gather (blocks : List (E × List (Occurrence E V))) (own : List V) :
    List (Occurrence E V) :=
  stableUnique Prod.fst (arrivals blocks own)

theorem nodup_gather (blocks : List (E × List (Occurrence E V))) (own : List V) :
    ((gather blocks own).map Prod.fst).Nodup := nodup_stableUnique _

theorem mem_fst_gather {blocks : List (E × List (Occurrence E V))} {own : List V} {v : V} :
    v ∈ (gather blocks own).map Prod.fst ↔
      (∃ block ∈ blocks, v ∈ block.2.map Prod.fst) ∨ v ∈ own := by
  rw [gather, mem_map_stableUnique, mem_fst_arrivals]

theorem mem_gather_of_cons {block : E × List (Occurrence E V)}
    {blocks : List (E × List (Occurrence E V))} {own : List V} {o : Occurrence E V}
    (hblock : (block.2.map Prod.fst).Nodup) :
    o ∈ gather (block :: blocks) own ↔ o ∈ block.2.map (extend block.1) ∨
      (o ∈ gather blocks own ∧ o.1 ∉ block.2.map Prod.fst) := by
  have hself : stableUnique Prod.fst (block.2.map (extend block.1)) =
      block.2.map (extend block.1) :=
    stableUnique_eq_self (by rwa [map_fst_extend])
  rw [gather, arrivals_cons, mem_stableUnique_append, hself, map_fst_extend, gather]

theorem mem_gather_own {own : List V} {o : Occurrence E V} :
    o ∈ gather [] own ↔ o.2 = [] ∧ o.1 ∈ own := by
  have hpath : ∀ o ∈ gather ([] : List (E × List (Occurrence E V))) own,
      o.2 = [] ∧ o.1 ∈ own := by
    intro o ho
    have hmem := (sublist_stableUnique _).subset ho
    obtain ⟨v, hv, rfl⟩ := List.mem_map.mp hmem
    exact ⟨rfl, hv⟩
  refine ⟨hpath o, fun ⟨hnil, hown⟩ => ?_⟩
  have hfst : o.1 ∈ (gather ([] : List (E × List (Occurrence E V))) own).map Prod.fst :=
    mem_fst_gather.mpr (Or.inr hown)
  obtain ⟨o', ho', heq⟩ := List.mem_map.mp hfst
  have hsame : o' = o := Prod.ext heq ((hpath o' ho').1.trans hnil.symm)
  exact hsame ▸ ho'

theorem mem_gather_cons {blocks : List (E × List (Occurrence E V))} {own : List V} {v : V} {e : E}
    {path : List E} (hblocks : ∀ block ∈ blocks, (block.2.map Prod.fst).Nodup) :
    (v, e :: path) ∈ gather blocks own ↔
      ∃ before os after, blocks = before ++ (e, os) :: after ∧ (v, path) ∈ os ∧
        ∀ block ∈ before, v ∉ block.2.map Prod.fst := by
  induction blocks with
  | nil =>
    have hnot : (v, e :: path) ∉ gather ([] : List (E × List (Occurrence E V))) own :=
      fun h => absurd (mem_gather_own.mp h).1 (List.cons_ne_nil _ _)
    simp [hnot]
  | cons block blocks ih =>
    obtain ⟨hblock, hrest⟩ := List.forall_mem_cons.mp hblocks
    rw [mem_gather_of_cons hblock, ih hrest]
    constructor
    · rintro (h | ⟨⟨before, os, after, rfl, hos, hbefore⟩, hnot⟩)
      · obtain ⟨⟨v', path'⟩, hmem, heq⟩ := List.mem_map.mp h
        obtain ⟨rfl, hcons⟩ := Prod.mk.inj heq
        obtain ⟨rfl, rfl⟩ := List.cons.inj hcons
        exact ⟨[], block.2, blocks, rfl, hmem, by simp⟩
      · exact ⟨block :: before, os, after, rfl, hos, List.forall_mem_cons.mpr ⟨hnot, hbefore⟩⟩
    · rintro ⟨before, os, after, heq, hos, hbefore⟩
      cases before with
      | nil =>
        obtain ⟨rfl, rfl⟩ := List.cons.inj heq
        exact Or.inl (List.mem_map.mpr ⟨(v, path), hos, rfl⟩)
      | cons first before =>
        obtain ⟨rfl, rfl⟩ := List.cons.inj heq
        obtain ⟨hfirst, hbefore⟩ := List.forall_mem_cons.mp hbefore
        exact Or.inr ⟨⟨before, os, after, rfl, hos, hbefore⟩, hfirst⟩

theorem mem_gather_nil {blocks : List (E × List (Occurrence E V))} {own : List V} {v : V}
    (hblocks : ∀ block ∈ blocks, (block.2.map Prod.fst).Nodup) :
    (v, []) ∈ gather blocks own ↔
      v ∈ own ∧ ∀ block ∈ blocks, v ∉ block.2.map Prod.fst := by
  induction blocks with
  | nil =>
    rw [mem_gather_own]
    simp
  | cons block blocks ih =>
    obtain ⟨hblock, hrest⟩ := List.forall_mem_cons.mp hblocks
    rw [mem_gather_of_cons hblock, ih hrest, List.forall_mem_cons]
    constructor
    · rintro (h | ⟨⟨hown, hblocks⟩, hnot⟩)
      · obtain ⟨⟨v', path'⟩, -, heq⟩ := List.mem_map.mp h
        exact absurd (Prod.mk.inj heq).2 (List.cons_ne_nil _ _)
      · exact ⟨hown, hnot, hblocks⟩
    · rintro ⟨hown, hnot, hblocks⟩
      exact Or.inr ⟨⟨hown, hblocks⟩, hnot⟩

namespace ImportSystem
variable (S : ImportSystem N E V)

def Imports (d n : N) : Prop := ∃ e ∈ S.edges n, S.target e = d

/-- The import that brings the occurrence is not hidden, or it is an own
declaration that is not local. -/
def reexported (o : Occurrence E V) : Bool :=
  match o.2 with
  | [] => !S.isLocal o.1
  | e :: _ => !S.hidden e

def publicEdges (n : N) : List E := (S.edges n).filter fun e => !S.hidden e

def publicOwn (n : N) : List V := (S.own n).filter fun v => !S.isLocal v

variable {S} (hwf : WellFounded S.Imports)

omit [DecidableEq V] in
theorem imports_target {n : N} {e : E} (h : e ∈ S.edges n) : S.Imports (S.target e) n :=
  ⟨e, h, rfl⟩

/-- What a node shows to a node that imports it. -/
noncomputable def exports : N → List (Occurrence E V) :=
  hwf.fix fun n rec =>
    gather ((S.publicEdges n).attach.map fun e =>
      (e.1, rec (S.target e.1) (imports_target (List.mem_of_mem_filter e.2)))) (S.publicOwn n)

/-- What a node itself sees. -/
noncomputable def effective (n : N) : List (Occurrence E V) :=
  gather ((S.edges n).map fun e => (e, exports hwf (S.target e))) (S.own n)

/-- What a node sees when each declaration keeps the status of the import that
brought it first. -/
noncomputable def reached : N → List (Occurrence E V) :=
  hwf.fix fun n rec =>
    gather ((S.edges n).attach.map fun e =>
      (e.1, (rec (S.target e.1) (imports_target e.2)).filter S.reexported)) (S.own n)

/-- What a node passes on under the same reading. -/
noncomputable def passedOn (n : N) : List (Occurrence E V) :=
  (reached hwf n).filter S.reexported

/-- A node passes a declaration on when the first of its imports that passes it
on is not hidden, or, without such an import, when it declares it publicly. -/
noncomputable def passes : N → V → Bool :=
  hwf.fix fun n rec v =>
    (((S.edges n).attach.map fun e =>
        (e.1, rec (S.target e.1) (imports_target e.2) v)).find? Prod.snd).elim
      (decide (v ∈ S.own n) && !S.isLocal v) fun first => !S.hidden first.1

theorem exports_eq (n : N) : exports hwf n =
    gather ((S.publicEdges n).map fun e => (e, exports hwf (S.target e))) (S.publicOwn n) := by
  rw [exports, hwf.fix_eq]
  congr 1
  exact List.attach_map_val (f := fun e => (e, exports hwf (S.target e)))

theorem reached_eq (n : N) : reached hwf n =
    gather ((S.edges n).map fun e => (e, passedOn hwf (S.target e))) (S.own n) := by
  rw [reached, hwf.fix_eq]
  congr 1
  exact List.attach_map_val (f := fun e => (e, passedOn hwf (S.target e)))

theorem passes_eq (n : N) (v : V) : passes hwf n v =
    ((S.edges n).find? fun e => passes hwf (S.target e) v).elim
      (decide (v ∈ S.own n) && !S.isLocal v) fun e => !S.hidden e := by
  have hmap : ((S.edges n).attach.map fun e => (e.1, passes hwf (S.target e.1) v)) =
      (S.edges n).map fun e => (e, passes hwf (S.target e) v) :=
    List.attach_map_val (f := fun e => (e, passes hwf (S.target e) v))
  calc passes hwf n v
      = (((S.edges n).attach.map fun e => (e.1, passes hwf (S.target e.1) v)).find?
          Prod.snd).elim (decide (v ∈ S.own n) && !S.isLocal v) fun first =>
            !S.hidden first.1 := by rw [passes, hwf.fix_eq]
    _ = _ := by
      rw [hmap, List.find?_map, Option.elim_map]
      rfl

theorem nodup_exports (n : N) : ((exports hwf n).map Prod.fst).Nodup := by
  rw [exports_eq]
  exact nodup_gather _ _

theorem nodup_reached (n : N) : ((reached hwf n).map Prod.fst).Nodup := by
  rw [reached_eq]
  exact nodup_gather _ _

theorem nodup_passedOn (n : N) : ((passedOn hwf n).map Prod.fst).Nodup :=
  ((List.filter_sublist).map _).nodup (nodup_reached hwf n)

theorem mem_gather_edges {edges : List E} {exported : E → List (Occurrence E V)} {own : List V}
    (hexported : ∀ e, ((exported e).map Prod.fst).Nodup) {v : V} {e : E} {path : List E} :
    (v, e :: path) ∈ gather (edges.map fun e => (e, exported e)) own ↔
      ∃ before after, edges = before ++ e :: after ∧ (v, path) ∈ exported e ∧
        ∀ e' ∈ before, v ∉ (exported e').map Prod.fst := by
  rw [mem_gather_cons (List.forall_mem_map.mpr fun e _ => hexported e)]
  constructor
  · rintro ⟨before, os, after, heq, hos, hbefore⟩
    obtain ⟨left, right, rfl, rfl, hright⟩ := List.map_eq_append_iff.mp heq
    obtain ⟨e', rest, rfl, hblock, rfl⟩ := List.map_eq_cons_iff.mp hright
    obtain ⟨rfl, rfl⟩ := Prod.mk.inj hblock
    exact ⟨left, rest, rfl, hos, fun e'' he'' => hbefore _ (List.mem_map_of_mem he'')⟩
  · rintro ⟨before, after, rfl, hos, hbefore⟩
    refine ⟨before.map fun e => (e, exported e), exported e,
      after.map fun e => (e, exported e), by simp, hos, ?_⟩
    exact List.forall_mem_map.mpr hbefore

theorem mem_gather_edges_nil {edges : List E} {exported : E → List (Occurrence E V)}
    {own : List V} (hexported : ∀ e, ((exported e).map Prod.fst).Nodup) {v : V} :
    (v, []) ∈ gather (edges.map fun e => (e, exported e)) own ↔
      v ∈ own ∧ ∀ e ∈ edges, v ∉ (exported e).map Prod.fst := by
  rw [mem_gather_nil (List.forall_mem_map.mpr fun e _ => hexported e), List.forall_mem_map]

theorem mem_fst_gather_edges {edges : List E} {exported : E → List (Occurrence E V)}
    {own : List V} {v : V} :
    v ∈ (gather (edges.map fun e => (e, exported e)) own).map Prod.fst ↔
      (∃ e ∈ edges, v ∈ (exported e).map Prod.fst) ∨ v ∈ own := by
  rw [mem_fst_gather]
  refine or_congr_left ⟨?_, ?_⟩
  · rintro ⟨block, hblock, hv⟩
    obtain ⟨e, he, rfl⟩ := List.mem_map.mp hblock
    exact ⟨e, he, hv⟩
  · rintro ⟨e, he, hv⟩
    exact ⟨_, List.mem_map_of_mem he, hv⟩

theorem mem_reached_cons {n : N} {v : V} {e : E} {path : List E} :
    (v, e :: path) ∈ reached hwf n ↔
      ∃ before after, S.edges n = before ++ e :: after ∧ (v, path) ∈ passedOn hwf (S.target e) ∧
        ∀ e' ∈ before, v ∉ (passedOn hwf (S.target e')).map Prod.fst := by
  rw [reached_eq, mem_gather_edges fun e => nodup_passedOn hwf (S.target e)]

theorem mem_reached_nil {n : N} {v : V} : (v, []) ∈ reached hwf n ↔
    v ∈ S.own n ∧ ∀ e ∈ S.edges n, v ∉ (passedOn hwf (S.target e)).map Prod.fst := by
  rw [reached_eq, mem_gather_edges_nil fun e => nodup_passedOn hwf (S.target e)]

theorem mem_exports_cons {n : N} {v : V} {e : E} {path : List E} :
    (v, e :: path) ∈ exports hwf n ↔
      ∃ before after, S.publicEdges n = before ++ e :: after ∧
        (v, path) ∈ exports hwf (S.target e) ∧
        ∀ e' ∈ before, v ∉ (exports hwf (S.target e')).map Prod.fst := by
  rw [exports_eq, mem_gather_edges fun e => nodup_exports hwf (S.target e)]

theorem mem_exports_nil {n : N} {v : V} : (v, []) ∈ exports hwf n ↔
    v ∈ S.publicOwn n ∧ ∀ e ∈ S.publicEdges n, v ∉ (exports hwf (S.target e)).map Prod.fst := by
  rw [exports_eq, mem_gather_edges_nil fun e => nodup_exports hwf (S.target e)]

theorem passes_iff {n : N} {v : V} :
    passes hwf n v = true ↔ v ∈ (passedOn hwf n).map Prod.fst := by
  induction n using hwf.induction with
  | _ n ih =>
    rw [passes_eq]
    cases hfind : (S.edges n).find? fun e => passes hwf (S.target e) v with
    | some e =>
      obtain ⟨hpasses, before, after, hedges, hbefore⟩ := List.find?_eq_some_iff_append.mp hfind
      have hmem : ∀ e' ∈ before ++ e :: after, e' ∈ S.edges n := fun e' he' => hedges ▸ he'
      obtain ⟨⟨v', path⟩, hpath, rfl⟩ := List.mem_map.mp
        ((ih _ (imports_target (hmem e (by simp)))).mp hpasses)
      have hreached : (v', e :: path) ∈ reached hwf n := by
        refine (mem_reached_cons hwf).mpr ⟨before, after, hedges, hpath, fun e' he' hin => ?_⟩
        have htrue := (ih _ (imports_target (hmem e' (List.mem_append_left _ he')))).mpr hin
        simpa [htrue] using hbefore e' he'
      constructor
      · intro hhidden
        exact List.mem_map.mpr ⟨_, List.mem_filter.mpr ⟨hreached, hhidden⟩, rfl⟩
      · intro hin
        obtain ⟨o, ho, hv⟩ := List.mem_map.mp hin
        obtain ⟨ho, hre⟩ := List.mem_filter.mp ho
        have hsame := eq_of_key_eq (nodup_reached hwf n) ho hreached hv
        rw [hsame] at hre
        exact hre
    | none =>
      have hnone : ∀ e ∈ S.edges n, v ∉ (passedOn hwf (S.target e)).map Prod.fst := by
        intro e he hin
        have hfalse := List.find?_eq_none.mp hfind e he
        exact hfalse ((ih _ (imports_target he)).mpr hin)
      rw [Option.elim_none, Bool.and_eq_true, decide_eq_true_eq]
      constructor
      · rintro ⟨hown, hlocal⟩
        have hreached := (mem_reached_nil hwf).mpr ⟨hown, hnone⟩
        exact List.mem_map.mpr ⟨_, List.mem_filter.mpr ⟨hreached, hlocal⟩, rfl⟩
      · intro hin
        obtain ⟨⟨v', path⟩, ho, rfl⟩ := List.mem_map.mp hin
        obtain ⟨ho, hre⟩ := List.mem_filter.mp ho
        cases path with
        | nil => exact ⟨((mem_reached_nil hwf).mp ho).1, hre⟩
        | cons e path =>
          obtain ⟨before, after, hedges, hpath, -⟩ := (mem_reached_cons hwf).mp ho
          have he : e ∈ S.edges n := hedges ▸ List.mem_append_right _ List.mem_cons_self
          exact absurd (List.mem_map.mpr ⟨_, hpath, rfl⟩) (hnone e he)

theorem mem_exports_of_passedOn {n : N} {v : V} (h : v ∈ (passedOn hwf n).map Prod.fst) :
    v ∈ (exports hwf n).map Prod.fst := by
  induction n using hwf.induction with
  | _ n ih =>
    obtain ⟨⟨v', path⟩, ho, rfl⟩ := List.mem_map.mp h
    obtain ⟨ho, hre⟩ := List.mem_filter.mp ho
    rw [exports_eq, mem_fst_gather_edges]
    cases path with
    | nil =>
      exact Or.inr (List.mem_filter.mpr ⟨((mem_reached_nil hwf).mp ho).1, hre⟩)
    | cons e path =>
      obtain ⟨before, after, hedges, hpath, -⟩ := (mem_reached_cons hwf).mp ho
      have he : e ∈ S.edges n := hedges ▸ List.mem_append_right _ List.mem_cons_self
      exact Or.inl ⟨e, List.mem_filter.mpr ⟨he, hre⟩,
        ih _ (imports_target he) (List.mem_map.mpr ⟨_, hpath, rfl⟩)⟩

theorem passes_of_reached {n : N} {v : V} {path : List E} (h : (v, path) ∈ reached hwf n) :
    ∀ e ∈ path, passes hwf (S.target e) v = true := by
  induction path generalizing n with
  | nil => simp
  | cons e path ih =>
    obtain ⟨before, after, -, hpath, -⟩ := (mem_reached_cons hwf).mp h
    refine List.forall_mem_cons.mpr ⟨?_, ih (List.mem_filter.mp hpath).1⟩
    exact (passes_iff hwf).mpr (List.mem_map.mpr ⟨_, hpath, rfl⟩)

theorem mem_effective_cons {n : N} {v : V} {e : E} {path : List E} :
    (v, e :: path) ∈ effective hwf n ↔
      ∃ before after, S.edges n = before ++ e :: after ∧
        (v, path) ∈ exports hwf (S.target e) ∧
        ∀ e' ∈ before, v ∉ (exports hwf (S.target e')).map Prod.fst := by
  rw [effective, mem_gather_edges fun e => nodup_exports hwf (S.target e)]

theorem mem_effective_nil {n : N} {v : V} : (v, []) ∈ effective hwf n ↔
    v ∈ S.own n ∧ ∀ e ∈ S.edges n, v ∉ (exports hwf (S.target e)).map Prod.fst := by
  rw [effective, mem_gather_edges_nil fun e => nodup_exports hwf (S.target e)]

theorem mem_effective_of_reached {n : N} {v : V} (h : v ∈ (reached hwf n).map Prod.fst) :
    v ∈ (effective hwf n).map Prod.fst := by
  rw [reached_eq, mem_fst_gather_edges] at h
  rw [effective, mem_fst_gather_edges]
  exact h.imp (fun ⟨e, he, hv⟩ => ⟨e, he, mem_exports_of_passedOn hwf hv⟩) id

omit [DecidableEq V] in
theorem split_cases {α : Type} {before after before' after' : List α} {a a' : α}
    (h : before ++ a :: after = before' ++ a' :: after') :
    a ∈ before' ∨ a' ∈ before ∨ (before = before' ∧ a = a') := by
  induction before generalizing before' with
  | nil =>
    cases before' with
    | nil => exact Or.inr (Or.inr ⟨rfl, (List.cons.inj h).1⟩)
    | cons first before' => exact Or.inl ((List.cons.inj h).1 ▸ List.mem_cons_self)
  | cons first before ih =>
    cases before' with
    | nil => exact Or.inr (Or.inl ((List.cons.inj h).1 ▸ List.mem_cons_self))
    | cons first' before' =>
      obtain ⟨rfl, hrest⟩ := List.cons.inj h
      rcases ih hrest with hin | hin | ⟨rfl, rfl⟩
      · exact Or.inl (List.mem_cons_of_mem _ hin)
      · exact Or.inr (Or.inl (List.mem_cons_of_mem _ hin))
      · exact Or.inr (Or.inr ⟨rfl, rfl⟩)

/-- An exported occurrence is passed on, over the same imports, when every node on
its way passes the declaration on. -/
theorem mem_passedOn_of_exports {n : N} {v : V} {path : List E}
    (h : (v, path) ∈ exports hwf n) (hn : passes hwf n v = true)
    (hpath : ∀ e ∈ path, passes hwf (S.target e) v = true) : (v, path) ∈ passedOn hwf n := by
  induction path generalizing n with
  | nil =>
    obtain ⟨hown, hnone⟩ := (mem_exports_nil hwf).mp h
    obtain ⟨⟨v', path⟩, ho, rfl⟩ := List.mem_map.mp ((passes_iff hwf).mp hn)
    obtain ⟨hreached, hre⟩ := List.mem_filter.mp ho
    cases path with
    | nil => exact ho
    | cons e path =>
      obtain ⟨before, after, hedges, hin, -⟩ := (mem_reached_cons hwf).mp hreached
      have he : e ∈ S.edges n := hedges ▸ List.mem_append_right _ List.mem_cons_self
      exact absurd (mem_exports_of_passedOn hwf (List.mem_map.mpr ⟨_, hin, rfl⟩))
        (hnone e (List.mem_filter.mpr ⟨he, hre⟩))
  | cons e path ih =>
    obtain ⟨before, after, hedges, hin, hbefore⟩ := (mem_exports_cons hwf).mp h
    obtain ⟨he, hpublic⟩ := List.mem_filter.mp
      (show e ∈ S.publicEdges n from hedges ▸ List.mem_append_right _ List.mem_cons_self)
    obtain ⟨hpasses, hpath⟩ := List.forall_mem_cons.mp hpath
    have hrest := ih hin hpasses hpath
    obtain ⟨⟨v', path'⟩, ho, rfl⟩ := List.mem_map.mp ((passes_iff hwf).mp hn)
    obtain ⟨hreached, hre⟩ := List.mem_filter.mp ho
    cases path' with
    | nil =>
      exact absurd (List.mem_map.mpr ⟨_, hrest, rfl⟩) (((mem_reached_nil hwf).mp hreached).2 e he)
    | cons e' path' =>
      -- The first import that passes it on is public, so it is the one that exports it first.
      obtain ⟨before', after', hedges', hin', hbefore'⟩ := (mem_reached_cons hwf).mp hreached
      have hpublic' : S.publicEdges n = before'.filter (fun e => !S.hidden e) ++
          e' :: after'.filter (fun e => !S.hidden e) := by
        rw [publicEdges, hedges', List.filter_append,
          List.filter_cons_of_pos (p := fun e => !S.hidden e) hre]
      rcases split_cases (hedges.symm.trans hpublic') with hlt | hlt | ⟨-, rfl⟩
      · exact absurd (List.mem_map.mpr ⟨_, hrest, rfl⟩)
          (hbefore' e (List.mem_filter.mp hlt).1)
      · exact absurd (mem_exports_of_passedOn hwf (List.mem_map.mpr ⟨_, hin', rfl⟩))
          (hbefore e' hlt)
      · have hsame := eq_of_key_eq (nodup_passedOn hwf (S.target e)) hrest hin' rfl
        rw [(Prod.mk.inj hsame).2]
        exact ho

section Order
omit [DecidableEq V]

/-- All ways over which a declaration can arrive, hidden imports included. -/
noncomputable def arrivalOrder : N → List (Occurrence E V) :=
  hwf.fix fun n rec =>
    arrivals ((S.edges n).attach.map fun e =>
      (e.1, rec (S.target e.1) (imports_target e.2))) (S.own n)

theorem arrivalOrder_eq (n : N) : arrivalOrder hwf n =
    arrivals ((S.edges n).map fun e => (e, arrivalOrder hwf (S.target e))) (S.own n) := by
  rw [arrivalOrder, hwf.fix_eq]
  congr 1
  exact List.attach_map_val (f := fun e => (e, arrivalOrder hwf (S.target e)))

theorem extend_injective (e : E) : Function.Injective (extend (V := V) e) := by
  intro o o' h
  obtain ⟨hv, hpath⟩ := Prod.mk.inj h
  exact Prod.ext hv (List.cons.inj hpath).2

theorem nodup_arrivals {edges : List E} {blocks : E → List (Occurrence E V)} {own : List V}
    (hedges : edges.Nodup) (hown : own.Nodup) (hblocks : ∀ e ∈ edges, (blocks e).Nodup) :
    (arrivals (edges.map fun e => (e, blocks e)) own).Nodup := by
  induction edges with
  | nil =>
    refine hown.map fun v v' h => ?_
    exact (Prod.mk.inj h).1
  | cons e edges ih =>
    obtain ⟨he, hedges⟩ := List.nodup_cons.mp hedges
    obtain ⟨hblock, hblocks⟩ := List.forall_mem_cons.mp hblocks
    rw [List.map_cons, arrivals_cons, List.nodup_append]
    refine ⟨hblock.map (extend_injective e), ih hedges hblocks, ?_⟩
    rintro o ho o' ho' rfl
    obtain ⟨inner, -, rfl⟩ := List.mem_map.mp ho
    rcases List.mem_append.mp ho' with h | h
    · obtain ⟨block, hmem, hin⟩ := List.mem_flatMap.mp h
      obtain ⟨e', he', rfl⟩ := List.mem_map.mp hmem
      obtain ⟨inner', -, heq⟩ := List.mem_map.mp hin
      obtain rfl : e' = e := (List.cons.inj (Prod.mk.inj heq).2).1
      exact he he'
    · obtain ⟨v, -, heq⟩ := List.mem_map.mp h
      exact absurd (Prod.mk.inj heq).2.symm (List.cons_ne_nil _ _)

theorem nodup_arrivalOrder (hedges : ∀ n, (S.edges n).Nodup) (hown : ∀ n, (S.own n).Nodup)
    (n : N) : (arrivalOrder hwf n).Nodup := by
  induction n using hwf.induction with
  | _ n ih =>
    rw [arrivalOrder_eq]
    exact nodup_arrivals (hedges n) (hown n) fun e he => ih _ (imports_target he)

theorem sublist_arrivals {left right : List E} {small large : E → List (Occurrence E V)}
    {own own' : List V} (hedges : left.Sublist right)
    (hblocks : ∀ e ∈ left, (small e).Sublist (large e)) (hown : own.Sublist own') :
    (arrivals (left.map fun e => (e, small e)) own).Sublist
      (arrivals (right.map fun e => (e, large e)) own') := by
  induction hedges with
  | slnil => exact hown.map _
  | cons e _ ih =>
    rw [List.map_cons, arrivals_cons]
    exact (ih hblocks).trans (List.sublist_append_right _ _)
  | cons_cons e _ ih =>
    obtain ⟨hblock, hblocks⟩ := List.forall_mem_cons.mp hblocks
    rw [List.map_cons, List.map_cons, arrivals_cons, arrivals_cons]
    exact (hblock.map _).append (ih hblocks)

end Order

theorem sublist_gather {left right : List E} {small large : E → List (Occurrence E V)}
    {own own' : List V} (hedges : left.Sublist right)
    (hblocks : ∀ e ∈ left, (small e).Sublist (large e)) (hown : own.Sublist own') :
    (gather (left.map fun e => (e, small e)) own).Sublist
      (arrivals (right.map fun e => (e, large e)) own') :=
  (sublist_stableUnique _).trans (sublist_arrivals hedges hblocks hown)

theorem exports_sublist (n : N) : (exports hwf n).Sublist (arrivalOrder hwf n) := by
  induction n using hwf.induction with
  | _ n ih =>
    rw [exports_eq, arrivalOrder_eq]
    exact sublist_gather List.filter_sublist
      (fun e he => ih _ (imports_target (List.mem_of_mem_filter he))) List.filter_sublist

theorem effective_sublist (n : N) : (effective hwf n).Sublist (arrivalOrder hwf n) := by
  rw [effective, arrivalOrder_eq]
  exact sublist_gather (List.Sublist.refl _) (fun e _ => exports_sublist hwf (S.target e))
    (List.Sublist.refl _)

theorem reached_sublist (n : N) : (reached hwf n).Sublist (arrivalOrder hwf n) := by
  induction n using hwf.induction with
  | _ n ih =>
    rw [reached_eq, arrivalOrder_eq]
    exact sublist_gather (List.Sublist.refl _)
      (fun e he => List.filter_sublist.trans (ih _ (imports_target he))) (List.Sublist.refl _)

/-- Letting the first import decide gives the effective closure exactly when every
node on the way of an effective declaration passes it on. -/
theorem reached_eq_effective_iff (hedges : ∀ n, (S.edges n).Nodup)
    (hown : ∀ n, (S.own n).Nodup) (n : N) :
    reached hwf n = effective hwf n ↔
      ∀ o ∈ effective hwf n, ∀ e ∈ o.2, passes hwf (S.target e) o.1 = true := by
  constructor
  · rintro heq ⟨v, path⟩ ho
    exact passes_of_reached hwf (heq ▸ ho)
  · intro h
    have hsub : ∀ o ∈ effective hwf n, o ∈ reached hwf n := by
      rintro ⟨v, path⟩ ho
      have hpath := h _ ho
      cases path with
      | nil =>
        obtain ⟨hmem, hnone⟩ := (mem_effective_nil hwf).mp ho
        exact (mem_reached_nil hwf).mpr
          ⟨hmem, fun e he hin => hnone e he (mem_exports_of_passedOn hwf hin)⟩
      | cons e path =>
        obtain ⟨before, after, hsplit, hin, hbefore⟩ := (mem_effective_cons hwf).mp ho
        obtain ⟨hfirst, hrest⟩ := List.forall_mem_cons.mp hpath
        exact (mem_reached_cons hwf).mpr ⟨before, after, hsplit,
          mem_passedOn_of_exports hwf hin hfirst hrest,
          fun e' he' hin' => hbefore e' he' (mem_exports_of_passedOn hwf hin')⟩
    refine eq_of_sublist_of_mem_iff (nodup_arrivalOrder hwf hedges hown n)
      (reached_sublist hwf n) (effective_sublist hwf n) fun o => ⟨fun ho => ?_, hsub o⟩
    have hkey := mem_effective_of_reached hwf (List.mem_map.mpr ⟨o, ho, rfl⟩)
    obtain ⟨o', ho', heq⟩ := List.mem_map.mp hkey
    rw [eq_of_key_eq (nodup_reached hwf n) ho (hsub o' ho') heq.symm]
    exact ho'

end ImportSystem
end MirrorsCore.Lib
