import Mathlib
import MirrorsCore.Tla.ResolverFacts

/-! What a resolution does on the way to its result: the limits that hold in every state,
the dependency cycle that a refusal names, and the reads that the provider sees. -/

namespace MirrorsCore.Tla.Resolver
open MirrorsCore.Lib (Search run_bind_of)

variable {ω : Type} {config : ResolverConfig ω} {root : ModuleRef} {unit : SourceUnit}
  {parsed : ParsedModule} {w w' : ω} {walk : Walk ω}

/-! ### Limits -/

/-- Every open module is one deeper than the module below it. -/
def Depths : List Frame → Prop
  | [] => True
  | frame :: rest => frame.depth = rest.length ∧ Depths rest

/-- The limits, with a path of edges of bounded length to every captured module. -/
structure Within (limits : ResolverLimits) (root : ModuleName) (walk : Walk ω) : Prop where
  modules : walk.state.nodes.length ≤ max 1 limits.maxModules
  edges : walk.state.edges.length ≤ limits.maxDependencyEdges
  depths : Depths walk.stack
  near : ∀ node ∈ walk.state.nodes, ∃ path : List ModuleName,
    path.IsChain walk.search.Edge ∧ path.head? = some root ∧ path.getLast? = some node.name ∧
      path.length ≤ limits.maxDependencyDepth + 1

theorem turn_edge_mono {a b : Walk ω} (hturn : Turn config a b) {owner target : ModuleName}
    (h : a.search.Edge owner target) : b.search.Edge owner target :=
  Search.edges_subset_of_run hturn.search h

theorem Within.near_of_nodes {limits : ResolverLimits} {a b : Walk ω}
    (h : Within limits root.moduleName a) (hturn : Turn config a b)
    (hnodes : b.state.nodes = a.state.nodes) {node : ModuleNode} (hnode : node ∈ b.state.nodes) :
    ∃ path : List ModuleName, path.IsChain b.search.Edge ∧ path.head? = some root.moduleName ∧
      path.getLast? = some node.name ∧ path.length ≤ limits.maxDependencyDepth + 1 := by
  obtain ⟨path, hchain, hpath⟩ := h.near node (hnodes ▸ hnode)
  exact ⟨path, hchain.imp fun _ _ => turn_edge_mono hturn, hpath⟩

theorem Within.turn {a b : Walk ω} (h : Within config.limits root.moduleName a)
    (hok : Search.Ok root.moduleName b.search) (hturn : Turn config a b) :
    Within config.limits root.moduleName b := by
  have hnear := h.near_of_nodes hturn
  have hmono : ∀ owner target, a.search.Edge owner target → b.search.Edge owner target :=
    fun _ _ => turn_edge_mono hturn
  cases hturn with
  | close hdone => exact ⟨h.modules, h.edges, h.depths.2, fun _ hnode => hnear rfl hnode⟩
  | @visit frame rest state w w' site advance hsite hvisit =>
    have hdepths : Depths (frame.advanced :: rest) := h.depths
    cases hvisit with
    | reuse hedges =>
      exact ⟨h.modules, length_recordEdge_edges.trans_le hedges, hdepths,
        fun _ hnode => hnear rfl hnode⟩
    | reusePinned hedges =>
      exact ⟨h.modules, length_recordEdge_edges.trans_le hedges, hdepths,
        fun _ hnode => hnear rfl hnode⟩
    | pin hrequested =>
      exact ⟨h.modules, length_recordEdge_edges.trans_le hrequested.edges, hdepths,
        fun _ hnode => hnear rfl hnode⟩
    | @capture w₁ w₂ unit parsed hrequested hread hparses hname =>
      have hdepth : frame.depth = rest.length := h.depths.1
      have hnext : frame.depth + 1 = (frame.advanced :: rest).length := by
        rw [List.length_cons, hdepth]
      refine ⟨?_, length_recordEdge_edges.trans_le hrequested.edges, ⟨hnext, hdepths⟩, ?_⟩
      · have hmodules := hrequested.modules
        change (state.nodes ++ [captureNode unit parsed]).length ≤ _
        rw [List.length_append, List.length_singleton]
        exact le_max_of_le_right hmodules
      · intro node hnode
        rcases List.mem_append.mp hnode with hold | hnew
        · obtain ⟨path, hchain, hpath⟩ := h.near node hold
          exact ⟨path, hchain.imp hmono, hpath⟩
        · -- the open modules lead from the root to the module just captured
          rw [List.mem_singleton.mp hnew]
          obtain ⟨hchain, hhead⟩ := hok.path_from_root (List.cons_ne_nil _ _)
          refine ⟨_, hchain, hhead, by rw [List.getLast?_reverse]; rfl, ?_⟩
          have hlimit := hrequested.depth
          rw [List.length_reverse, Walk.search, List.length_map]
          simp only [Option.toList_some, List.length_append, List.length_cons, List.length_nil]
          omega

theorem within_of_reached (h : Reached config root w walk) :
    Within config.limits root.moduleName walk := by
  refine Reached.induction (fun unit parsed w₁ hstarted => ?_) (fun a b hreached hturn ih => ?_) h
  · refine ⟨le_max_left _ _, Nat.zero_le _, ⟨rfl, trivial⟩, fun node hnode => ?_⟩
    rw [List.mem_singleton.mp hnode]
    exact ⟨[root.moduleName], List.isChain_singleton _, rfl, by rw [← hstarted.name]; rfl,
      Nat.le_add_left _ _⟩
  · obtain ⟨unit, parsed, w₁, hstarted, hturns⟩ := hreached
    have hnext : Reached config root w b := ⟨unit, parsed, w₁, hstarted, hturns.tail hturn⟩
    exact ih.turn hnext.search hturn

/-- The work budget never decides: with more of it the exploration ends the same way, and
always because it is done or because a site is refused. -/
theorem loop_workBudget (config : ResolverConfig ω) (unit : SourceUnit) (parsed : ParsedModule)
    (w : ω) (extra : Nat) :
    (loop config (workBudget config.limits + extra) (startWalk unit parsed w).stack
        (startWalk unit parsed w).state).run w =
      (loop config (workBudget config.limits) (startWalk unit parsed w).stack
        (startWalk unit parsed w).state).run w ∧
    Ends config (startWalk unit parsed w)
      ((loop config (workBudget config.limits) (startWalk unit parsed w).stack
        (startWalk unit parsed w).state).run w) := by
  have henough : potential config.limits (startWalk unit parsed w) < workBudget config.limits :=
    potential_startWalk config.limits
  exact ⟨loop_eq_of_potential_lt (Nat.lt_add_right extra henough) henough, ends_loop henough⟩

/-! ### Cycles -/

def Declares (nodes : List ModuleNode) (owner dependency : ModuleName) : Prop :=
  ∃ node ∈ nodes, node.name = owner ∧ ∃ site ∈ node.module.dependencies,
    site.moduleName = dependency

theorem declares_of_frame (h : Recorded config walk) {frame : Frame} (hframe : frame ∈ walk.stack)
    {site : DependencyDeclaration} (hsite : site ∈ frame.sites) :
    Declares walk.state.nodes frame.owner site.moduleName := by
  obtain ⟨node, hnode, hexplores⟩ := h.frames frame hframe
  exact ⟨node, hnode, hexplores.owner.symm, site, hexplores.sites ▸ hsite, rfl⟩

theorem mem_of_mem_zipIdx {sites : List DependencyDeclaration} {entry : DependencyDeclaration × Nat}
    (h : entry ∈ sites.zipIdx) : entry.1 ∈ sites :=
  List.mem_of_getElem? (List.mem_zipIdx_iff_getElem?.mp h)

theorem declares_of_edge (h : Recorded config walk) {edge : ModuleEdge}
    (hedge : edge ∈ walk.state.edges) :
    Declares walk.state.nodes edge.owner edge.dependency := by
  obtain ⟨node, hnode, hname⟩ := h.owners edge hedge
  have hrecorded : (edgeSite edge, edge.declarationOrder) ∈
      recordedSites walk.state.edges edge.owner :=
    List.mem_map.mpr ⟨edge, List.mem_filter.mpr ⟨hedge, beq_self_eq_true _⟩, rfl⟩
  by_cases hopen : ∃ frame ∈ walk.stack, frame.owner = edge.owner
  · obtain ⟨frame, hframe, howner⟩ := hopen
    rw [← howner, h.opened frame hframe] at hrecorded
    have hsite := List.mem_of_mem_take (mem_of_mem_zipIdx hrecorded)
    rw [← howner]
    exact declares_of_frame h hframe hsite
  · rw [← hname, h.closed node hnode fun frame hframe howner =>
      hopen ⟨frame, hframe, howner.trans hname⟩] at hrecorded
    exact ⟨node, hnode, hname, edgeSite edge, mem_of_mem_zipIdx hrecorded, rfl⟩

theorem declares_of_search (h : Recorded config walk) {owner dependency : ModuleName}
    (hedge : walk.search.Edge owner dependency) :
    Declares walk.state.nodes owner dependency := by
  obtain ⟨edge, hmem, -, rfl, rfl⟩ := mem_edgeEnds.mp hedge
  exact declares_of_edge h hmem

theorem indexOfOwner?_eq_some {stack : List Frame} {name : ModuleName}
    (h : ∃ frame ∈ stack, frame.owner = name) :
    ∃ up entry down, stack = up ++ entry :: down ∧ entry.owner = name ∧
      indexOfOwner? stack name = some up.length := by
  induction stack with
  | nil => simp at h
  | cons frame rest ih =>
    by_cases howner : frame.owner = name
    · exact ⟨[], frame, rest, rfl, howner, by simp [indexOfOwner?, howner]⟩
    · obtain ⟨other, hother, hname⟩ := h
      have hrest : ∃ frame ∈ rest, frame.owner = name :=
        ⟨other, (List.mem_cons.mp hother).resolve_left fun heq => howner (heq ▸ hname), hname⟩
      obtain ⟨up, entry, down, rfl, hentry, hindex⟩ := ih hrest
      exact ⟨frame :: up, entry, down, rfl, hentry, by simp [indexOfOwner?, howner, hindex]⟩

theorem cyclePath_eq {stack : List Frame} {name : ModuleName}
    (h : ∃ frame ∈ stack, frame.owner = name) :
    ∃ up entry down, stack = up ++ entry :: down ∧ entry.owner = name ∧
      cyclePath stack name = name :: (up.map Frame.owner).reverse ++ [name] := by
  obtain ⟨up, entry, down, rfl, hentry, hindex⟩ := indexOfOwner?_eq_some h
  refine ⟨up, entry, down, rfl, hentry, ?_⟩
  have htake : (up ++ entry :: down).take (up.length + 1) = up ++ [entry] := by
    rw [List.append_cons]
    exact List.take_left' List.length_append
  unfold cyclePath
  rw [hindex, Option.getD_some]
  dsimp only
  rw [htake]
  simp [hentry]

/-- When a site asks for an open module, the names that the failure reports lead from that
module back to it along declared dependencies of captured modules, and no module but it
occurs twice. -/
theorem cyclePath_closed {frame : Frame} {rest : List Frame} {state : ResolverState}
    {site : DependencyDeclaration} (h : Reached config root w ⟨frame :: rest, state, w'⟩)
    (hsite : frame.sites[frame.next]? = some site)
    (hopen : ∃ entry ∈ frame :: rest, entry.owner = site.moduleName) :
    ∃ names, cyclePath (frame :: rest) site.moduleName = names ++ [site.moduleName] ∧
      names.head? = some site.moduleName ∧ names.Nodup ∧
      (names ++ [site.moduleName]).IsChain (Declares state.nodes) := by
  have hrecorded := recorded_of_reached h
  have hok := h.search
  obtain ⟨up, entry, down, hsplit, hentry, hpath⟩ := cyclePath_eq hopen
  have hopened : (frame :: rest).map Frame.owner =
      up.map Frame.owner ++ site.moduleName :: down.map Frame.owner := by
    rw [hsplit, List.map_append, List.map_cons, hentry]
  refine ⟨_, hpath, rfl, ?_, ?_⟩
  · have hnodup : (up.map Frame.owner ++ site.moduleName :: down.map Frame.owner).Nodup :=
      hopened ▸ hok.openedNodup
    rw [List.append_cons] at hnodup
    have hleft := List.nodup_reverse.mpr (List.nodup_append.mp hnodup).1
    rwa [List.reverse_append] at hleft
  · have hchain : (site.moduleName :: (up.map Frame.owner).reverse).IsChain
        (Declares state.nodes) :=
      (hok.path_from hopened).imp fun _ _ hedge => declares_of_search hrecorded hedge
    refine List.isChain_append.mpr ⟨hchain, List.isChain_singleton _, fun last hlast next hnext => ?_⟩
    -- the last module before the repetition is the one on top of the path
    have htop : last = frame.owner := by
      have hhead : (up.map Frame.owner ++ [site.moduleName]).head? = some frame.owner := by
        have hall := congrArg List.head? hopened
        rw [List.append_cons, List.head?_append, List.map_cons, List.head?_cons] at hall
        rcases up with - | ⟨first, up⟩
        · exact hall.symm
        · exact hall.symm
      have hlast' : (site.moduleName :: (up.map Frame.owner).reverse).getLast? = some last := hlast
      rw [← List.reverse_concat, List.getLast?_reverse] at hlast'
      rw [hhead] at hlast'
      exact (Option.some.inj hlast').symm
    have hnext' : next = site.moduleName := (Option.some.inj hnext).symm
    rw [htop, hnext']
    exact declares_of_frame hrecorded List.mem_cons_self (List.mem_of_getElem? hsite)

theorem Refusal.cycleFailure_of_open {failure : ResolverFailure}
    (h : Refusal config stack frame site state w failure w')
    (hedges : state.edges.length + 1 ≤ config.limits.maxDependencyEdges)
    (hopen : ∃ entry ∈ stack, entry.owner = site.moduleName) :
    failure = cycleFailure stack frame site := by
  have hclosed : ¬ Unseen config stack site state := fun hunseen => by
    obtain ⟨entry, hentry, howner⟩ := hopen
    exact hunseen.offPath entry hentry howner
  cases h with
  | tooManyEdges hspent => exact absurd hedges (Nat.not_le_of_lt hspent)
  | cycle => rfl
  | tooDeep _ hunseen => exact absurd hunseen hclosed
  | tooManyModules _ hunseen => exact absurd hunseen hclosed
  | unreadable hrequested => exact absurd hrequested.toUnseen hclosed
  | missing hrequested => exact absurd hrequested.toUnseen hclosed
  | unsupplied hrequested => exact absurd hrequested.toUnseen hclosed
  | inconsistent hrequested => exact absurd hrequested.toUnseen hclosed
  | unparsed hrequested => exact absurd hrequested.toUnseen hclosed
  | recaptured hrequested => exact absurd hrequested.toUnseen hclosed
  | repinned hrequested => exact absurd hrequested.toUnseen hclosed
  | misnamed hrequested => exact absurd hrequested.toUnseen hclosed

/-- Every failure is the one that its reason, in the root or in a site that a reached state
refuses, is reported as. A site that asks for an open module fails with a closed walk of
declared dependencies, unless the edges are spent. -/
theorem resolve_refused {failure : ResolverFailure}
    (h : (resolve config root).run w = (.error failure, w')) :
    RootRefusal config root w failure w' ∨
      ∃ frame rest state w₁ site, Reached config root w ⟨frame :: rest, state, w₁⟩ ∧
        frame.sites[frame.next]? = some site ∧
        Refusal config (frame :: rest) frame site state w₁ failure w' ∧
        (state.edges.length + 1 ≤ config.limits.maxDependencyEdges →
          (∃ entry ∈ frame :: rest, entry.owner = site.moduleName) →
          failure = cycleFailure (frame :: rest) frame site ∧
            ∃ names, cyclePath (frame :: rest) site.moduleName = names ++ [site.moduleName] ∧
              names.head? = some site.moduleName ∧ names.Nodup ∧
              (names ++ [site.moduleName]).IsChain (Declares state.nodes)) := by
  have hresolved : Resolved config root w ((resolve config root).run w) := resolved_resolve
  rw [h] at hresolved
  rcases hresolved with hroot | ⟨walk, hreached, hstops⟩
  · exact .inl hroot
  · cases hstops with
    | refused hsite hrefusal =>
      exact .inr ⟨_, _, _, _, _, hreached, hsite, hrefusal, fun hedges hopen =>
        ⟨hrefusal.cycleFailure_of_open hedges hopen, cyclePath_closed hreached hsite hopen⟩⟩

def cycleRoot : ModuleRef := ⟨⟨"P"⟩, "P.tla"⟩

def cycleSample : ResolverFailure :=
  match ((resolve sampleConfig cycleRoot).run ()).1 with
  | .error failure => failure
  | .ok _ => { diagnostics := [] }

theorem resolve_cycleSample :
    (resolve sampleConfig cycleRoot).run () = (.error cycleSample, ()) := by
  have hrefused : ((resolve sampleConfig cycleRoot).run ()).1.isOk = false := by decide +kernel
  unfold cycleSample
  rcases hrun : (resolve sampleConfig cycleRoot).run () with ⟨failure | graph, w⟩
  · rfl
  · rw [hrun] at hrefused
    cases hrefused

theorem resolve_refused_sample :
    RootRefusal sampleConfig cycleRoot () cycleSample () ∨
      ∃ frame rest state w₁ site, Reached sampleConfig cycleRoot () ⟨frame :: rest, state, w₁⟩ ∧
        frame.sites[frame.next]? = some site ∧
        Refusal sampleConfig (frame :: rest) frame site state w₁ cycleSample () ∧
        (state.edges.length + 1 ≤ sampleConfig.limits.maxDependencyEdges →
          (∃ entry ∈ frame :: rest, entry.owner = site.moduleName) →
          cycleSample = cycleFailure (frame :: rest) frame site ∧
            ∃ names, cyclePath (frame :: rest) site.moduleName = names ++ [site.moduleName] ∧
              names.head? = some site.moduleName ∧ names.Nodup ∧
              (names ++ [site.moduleName]).IsChain (Declares state.nodes)) :=
  resolve_refused resolve_cycleSample

/-! ### Reads -/

/-- Run `m` beside a log that it does not touch. -/
def beside {α : Type} (m : StateM ω α) : StateM (ω × List ModuleName) α := fun s =>
  ((m.run s.1).1, ((m.run s.1).2, s.2))

/-- The same configuration; its world also lists the dependencies that were read. -/
def logged (config : ResolverConfig ω) : ResolverConfig (ω × List ModuleName) :=
  { provider :=
      { readRoot := fun ref => beside (config.provider.readRoot ref)
        readDependency := fun name s =>
          let read := (config.provider.readDependency name).run s.1
          (read.1, (read.2, s.2 ++ [name]))
        resolveStandard := fun name => beside (config.provider.resolveStandard name) }
    parse := fun unit => beside (config.parse unit)
    limits := config.limits
    digestHex := config.digestHex }

theorem run_beside {α : Type} {m : StateM ω α} {s s' : ω × List ModuleName} {a : α}
    (h : (beside m).run s = (a, s')) : s'.2 = s.2 := by
  have hworld : ((beside m).run s).2 = s' := congrArg Prod.snd h
  rw [← hworld]
  rfl

theorem run_readDependency_logged {s s' : ω × List ModuleName} {name : ModuleName}
    {read : Except SourceReadError SourceUnit}
    (h : ((logged config).provider.readDependency name).run s = (read, s')) :
    s'.2 = s.2 ++ [name] := by
  have hworld : (((logged config).provider.readDependency name).run s).2 = s' :=
    congrArg Prod.snd h
  rw [← hworld]
  rfl

theorem parses_logged {s s' : ω × List ModuleName} (h : Parses (logged config) unit parsed s s') :
    s'.2 = s.2 := by
  obtain ⟨outcome, hparse, -⟩ := h.outcome
  exact run_beside hparse

/-- The names bound so far: captured modules, then pinned ones. -/
def boundNames (state : ResolverState) : List ModuleName :=
  state.nodes.map ModuleNode.name ++ state.standardModules.map StandardModule.name

/-- Every bound name but the root was read once, and nothing else was. -/
structure ReadOnce (root : ModuleName) (walk : Walk (ω × List ModuleName)) : Prop where
  bound : (root :: walk.world.2).Perm (boundNames walk.state)
  distinct : (boundNames walk.state).Nodup

section Logged
variable {frame : Frame} {stack : List Frame} {site : DependencyDeclaration}
  {state : ResolverState} {lw lw' : ω × List ModuleName}
  {a b : Walk (ω × List ModuleName)}

theorem Requested.fresh (h : Requested (logged config) stack frame site state) :
    site.moduleName ∉ boundNames state := fun hmem => by
  rcases List.mem_append.mp hmem with hnode | hstandard
  · obtain ⟨node, hnode, hname⟩ := List.mem_map.mp hnode
    exact h.uncaptured node hnode hname
  · obtain ⟨standard, hstandard, hname⟩ := List.mem_map.mp hstandard
    exact h.unpinned standard hstandard hname

theorem boundNames_captured (hname : parsed.name = site.moduleName) :
    (boundNames (captured state frame site unit parsed)).Perm
      (boundNames state ++ [site.moduleName]) := by
  have hnode : (captured state frame site unit parsed).nodes.map ModuleNode.name =
      state.nodes.map ModuleNode.name ++ [site.moduleName] := by
    rw [← hname]
    exact List.map_append
  have hstandard : (captured state frame site unit parsed).standardModules =
      state.standardModules := rfl
  unfold boundNames
  rw [hnode, hstandard, List.append_assoc, List.append_assoc]
  exact List.Perm.append_left _ List.perm_append_comm

theorem boundNames_pinned {standard : StandardModule} (hname : standard.name = site.moduleName) :
    boundNames (pinned state frame site standard) = boundNames state ++ [site.moduleName] := by
  have hstandard : (pinned state frame site standard).standardModules.map StandardModule.name =
      state.standardModules.map StandardModule.name ++ [site.moduleName] := by
    rw [← hname]
    exact List.map_append
  unfold boundNames
  rw [hstandard, List.append_assoc]
  rfl

theorem nodup_concat {names : List ModuleName} {name : ModuleName} (h : names.Nodup)
    (hfresh : name ∉ names) : (names ++ [name]).Nodup :=
  List.nodup_append.mpr ⟨h, List.nodup_singleton _, fun _ hx _ hy heq =>
    hfresh (List.mem_singleton.mp hy ▸ heq ▸ hx)⟩

theorem ReadOnce.bind (h : ReadOnce root.moduleName a) (hlog : b.world.2 =
      a.world.2 ++ [site.moduleName])
    (hbound : (boundNames b.state).Perm (boundNames a.state ++ [site.moduleName]))
    (hfresh : site.moduleName ∉ boundNames a.state) : ReadOnce root.moduleName b where
  bound := by
    rw [hlog, ← List.cons_append]
    exact (h.bound.append_right _).trans hbound.symm
  distinct := hbound.nodup_iff.mpr (nodup_concat h.distinct hfresh)

theorem ReadOnce.turn (hnames : NamesStandards (logged config))
    (h : ReadOnce root.moduleName a) (hturn : Turn (logged config) a b) :
    ReadOnce root.moduleName b := by
  cases hturn with
  | close hdone => exact ⟨h.bound, h.distinct⟩
  | visit hsite hvisit =>
    cases hvisit with
    | reuse => exact ⟨h.bound, h.distinct⟩
    | reusePinned => exact ⟨h.bound, h.distinct⟩
    | pin hrequested hread hcatalog =>
      refine h.bind ?_ (List.Perm.of_eq (boundNames_pinned (hnames _ _ _ _ hcatalog)))
        hrequested.fresh
      exact (run_beside hcatalog).trans (run_readDependency_logged hread)
    | capture hrequested hread hparses hname =>
      refine h.bind ?_ (boundNames_captured hname) hrequested.fresh
      exact (parses_logged hparses).trans (run_readDependency_logged hread)

end Logged

end MirrorsCore.Tla.Resolver
