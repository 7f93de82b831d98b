import Mathlib
import MirrorsCore.Tla.Effective
import MirrorsCore.Tla.ResolverSteps

/-! The graphs that the resolver returns: their edges are the declared dependencies,
they have no cycle, everything in them is reached from the root, and the limits hold. -/

namespace MirrorsCore.Tla.Resolver
open MirrorsCore.Lib (Search run_bind_of)

variable {ω : Type} {config : ResolverConfig ω} {root : ModuleRef} {unit : SourceUnit}
  {parsed : ParsedModule} {w w' : ω} {walk : Walk ω}

/-! ### Runs -/

structure Started (config : ResolverConfig ω) (root : ModuleRef) (w : ω) (unit : SourceUnit)
    (parsed : ParsedModule) (w' : ω) : Prop where
  captured : ∃ w₁, (config.provider.readRoot root).run w = (.ok unit, w₁) ∧
    Parses config unit parsed w₁ w'
  name : parsed.name = root.moduleName

/-- Why the root is refused, and with what failure. -/
inductive RootRefusal (config : ResolverConfig ω) (root : ModuleRef) (w : ω) :
    ResolverFailure → ω → Prop
  | unreadable {error : SourceReadError} {w₁ : ω}
      (hread : (config.provider.readRoot root).run w = (.error error, w₁)) :
      RootRefusal config root w (rootReadFailure root error) w₁
  | inconsistent {unit : SourceUnit} {w₁ : ω}
      (hread : (config.provider.readRoot root).run w = (.ok unit, w₁))
      (hconsistent : unit.consistent config.digestHex = false) :
      RootRefusal config root w
        (graphError GraphCode.invalidCapture "captured root bytes and digest disagree"
          (ownerLocation root.moduleName unit.logicalPath zeroRange)) w₁
  | unparsed {unit : SourceUnit} {w₁ w₂ : ω} {outcome : ParseOutcome}
      (hread : (config.provider.readRoot root).run w = (.ok unit, w₁))
      (hconsistent : unit.consistent config.digestHex = true)
      (hparse : (config.parse unit).run w₁ = (outcome, w₂)) (hfailed : outcome.succeeded = false) :
      RootRefusal config root w
        (unparsedFailure (ownerLocation root.moduleName unit.logicalPath zeroRange) outcome) w₂
  | misnamed {unit : SourceUnit} {w₁ w₂ : ω} {parsed : ParsedModule}
      (hread : (config.provider.readRoot root).run w = (.ok unit, w₁))
      (hparses : Parses config unit parsed w₁ w₂) (hname : parsed.name ≠ root.moduleName) :
      RootRefusal config root w (rootHeaderMismatch root unit parsed) w₂

def startWalk (unit : SourceUnit) (parsed : ParsedModule) (w : ω) : Walk ω :=
  { stack := [openFrame unit parsed 0 none]
    state := { nodes := [captureNode unit parsed] }
    world := w }

def Reached (config : ResolverConfig ω) (root : ModuleRef) (w : ω) (walk : Walk ω) : Prop :=
  ∃ unit parsed w₁, Started config root w unit parsed w₁ ∧
    Turns config (startWalk unit parsed w₁) walk

def ResolverState.graph (root : ModuleName) (state : ResolverState) : ResolvedGraph :=
  { root
    nodes := state.nodes
    edges := state.edges
    standardModules := state.standardModules }

def Resolved (config : ResolverConfig ω) (root : ModuleRef) (w : ω) :
    Except ResolverFailure ResolvedGraph × ω → Prop
  | (.ok graph, w') => ∃ final, graph = final.graph root.moduleName ∧
      Reached config root w ⟨[], final, w'⟩
  | (.error failure, w') => RootRefusal config root w failure w' ∨
      ∃ walk, Reached config root w walk ∧ Stops config walk failure w'

theorem potential_startWalk (limits : ResolverLimits) :
    potential limits (startWalk unit parsed w) < workBudget limits := by
  simp only [potential, startWalk, workBudget, List.length_cons, List.length_nil]
  omega

theorem resolved_resolveFrom {w₁ : ω} (hstart : Started config root w unit parsed w₁) :
    Resolved config root w ((resolveFrom config root unit parsed).run w₁) := by
  unfold resolveFrom
  have henough : potential config.limits (startWalk unit parsed w₁) < workBudget config.limits :=
    potential_startWalk config.limits
  have hends := ends_loop henough
  rcases hloop : (loop config (workBudget config.limits) [openFrame unit parsed 0 none]
      { nodes := [captureNode unit parsed] }).run w₁ with ⟨failure | final, w'⟩
  · rw [hloop] at hends
    rw [run_bind_of hloop]
    obtain ⟨walk, hturns, hstops⟩ := hends
    exact .inr ⟨walk, ⟨unit, parsed, w₁, hstart, hturns⟩, hstops⟩
  · rw [hloop] at hends
    rw [run_bind_of hloop]
    exact ⟨final, rfl, unit, parsed, w₁, hstart, hends⟩

theorem resolved_resolve : Resolved config root w ((resolve config root).run w) := by
  unfold resolve
  rcases hread : (config.provider.readRoot root).run w with ⟨error | unit, w₁⟩
  · rw [run_bind_of hread]
    exact .inl (.unreadable hread)
  · rw [run_bind_of hread]
    dsimp only
    by_cases hconsistent : unit.consistent config.digestHex = true
    · rw [if_neg (by simp [hconsistent])]
      rcases hparse : (config.parse unit).run w₁ with ⟨outcome, w₂⟩
      rw [run_bind_of hparse]
      by_cases herrors : outcome.hasErrors = true
      · rw [if_pos herrors, ← unparsedFailure_of_errors herrors]
        exact .inl (.unparsed hread hconsistent hparse
          (by simp [ParseOutcome.succeeded, herrors]))
      · rw [if_neg herrors]
        rcases hmodule : outcome.module? with - | parsed
        · dsimp only
          rw [← unparsedFailure_of_not_errors herrors]
          exact .inl (.unparsed hread hconsistent hparse
            (by simp [ParseOutcome.succeeded, hmodule]))
        · have hparses : Parses config unit parsed w₁ w₂ :=
            ⟨hconsistent, outcome, hparse, by simpa using herrors, hmodule⟩
          dsimp only
          by_cases hname : parsed.name = root.moduleName
          · rw [if_neg (by simpa using hname)]
            exact resolved_resolveFrom ⟨⟨w₁, hread, hparses⟩, hname⟩
          · rw [if_pos (bne_iff_ne.mpr hname)]
            exact .inl (.misnamed hread hparses hname)
    · rw [if_pos (by simp [hconsistent])]
      exact .inl (.inconsistent hread (by simpa using hconsistent))

theorem reached_of_resolve {graph : ResolvedGraph}
    (h : (resolve config root).run w = (.ok graph, w')) :
    ∃ final, graph = final.graph root.moduleName ∧ Reached config root w ⟨[], final, w'⟩ := by
  have hresolved : Resolved config root w ((resolve config root).run w) := resolved_resolve
  rw [h] at hresolved
  exact hresolved

theorem Reached.induction {motive : Walk ω → Prop}
    (hstart : ∀ unit parsed w₁, Started config root w unit parsed w₁ →
      motive (startWalk unit parsed w₁))
    (hturn : ∀ a b, Reached config root w a → Turn config a b → motive a → motive b)
    (h : Reached config root w walk) : motive walk := by
  obtain ⟨unit, parsed, w₁, hstarted, hturns⟩ := h
  induction hturns with
  | refl => exact hstart unit parsed w₁ hstarted
  | @tail a b hturns hstep ih => exact hturn a b ⟨unit, parsed, w₁, hstarted, hturns⟩ hstep ih

theorem Reached.search (h : Reached config root w walk) :
    Search.Ok root.moduleName walk.search := by
  obtain ⟨unit, parsed, w₁, hstarted, hturns⟩ := h
  have hstart : (startWalk unit parsed w₁).search = Search.start root.moduleName := by
    rw [← hstarted.name]
    rfl
  exact Search.ok_run (turns_search hturns) (hstart ▸ Search.ok_start _)

/-! ### Acyclic graphs -/

def LocalEdge (graph : ResolvedModuleGraph) (owner dependency : ModuleName) : Prop :=
  ∃ edge ∈ graph.edges, edge.resolution = .localSource ∧ edge.owner = owner ∧
    edge.dependency = dependency

theorem search_edge_iff {owner dependency : ModuleName} :
    walk.search.Edge owner dependency ↔
      LocalEdge (walk.state.graph root.moduleName).toResolvedModuleGraph owner dependency :=
  mem_edgeEnds

theorem wellFounded_resolve {graph : ResolvedGraph}
    (h : (resolve config root).run w = (.ok graph, w')) :
    WellFounded fun dependency owner => LocalEdge graph.toResolvedModuleGraph owner dependency := by
  obtain ⟨final, rfl, hreached⟩ := reached_of_resolve h
  have hwf := hreached.search.wellFounded rfl
  exact Subrelation.wf (fun {_ _} hedge => search_edge_iff.mpr hedge) hwf

theorem mem_nodes_resolve_iff {graph : ResolvedGraph}
    (h : (resolve config root).run w = (.ok graph, w')) {name : ModuleName} :
    (∃ node ∈ graph.nodes, node.name = name) ↔
      Relation.ReflTransGen (LocalEdge graph.toResolvedModuleGraph) root.moduleName name := by
  obtain ⟨final, rfl, hreached⟩ := reached_of_resolve h
  have hok := hreached.search
  constructor
  · rintro ⟨node, hnode, rfl⟩
    have hpath := hok.reached node.name (List.mem_map_of_mem hnode)
    exact Relation.ReflTransGen.mono (fun _ _ hedge => search_edge_iff.mp hedge) _ _ hpath
  · intro hpath
    have hseen : name ∈ final.nodes.map ModuleNode.name := by
      cases hpath with
      | refl => exact List.mem_of_mem_head? hok.first
      | tail _ hedge => exact (hok.ends _ (search_edge_iff.mpr hedge)).2
    exact List.mem_map.mp hseen

/-- Whatever the provider and the parser answer in the course of a run, the dependencies
between captured modules have no cycle, and the captured modules are those that the root
depends on, directly or not. -/
theorem resolve_explores {graph : ResolvedGraph}
    (h : (resolve config root).run w = (.ok graph, w')) :
    (WellFounded fun dependency owner =>
        LocalEdge graph.toResolvedModuleGraph owner dependency) ∧
      ∀ name, (∃ node ∈ graph.nodes, node.name = name) ↔
        Relation.ReflTransGen (LocalEdge graph.toResolvedModuleGraph) root.moduleName name :=
  ⟨wellFounded_resolve h, fun _ => mem_nodes_resolve_iff h⟩

/-! ### A sample resolution -/

def sampleUnit (name text : String) : SourceUnit :=
  { logicalPath := name ++ ".tla"
    normalizedText := text
    normalizedUtf8 := text.toUTF8
    contentSha256 := "" }

def sampleUnits : List (ModuleName × SourceUnit) := [
  (⟨"R"⟩, sampleUnit "R" "---- MODULE R ----\nEXTENDS A, Naturals\n====\n"),
  (⟨"A"⟩, sampleUnit "A" "---- MODULE A ----\nVARIABLE x\n====\n"),
  (⟨"P"⟩, sampleUnit "P" "---- MODULE P ----\nEXTENDS Q\n====\n"),
  (⟨"Q"⟩, sampleUnit "Q" "---- MODULE Q ----\nEXTENDS P\n====\n")]

def readSample (name : ModuleName) : StateM Unit (Except SourceReadError SourceUnit) :=
  match sampleUnits.find? (fun entry => entry.1 == name) with
  | some entry => pure (.ok entry.2)
  | none => pure (.error (.notFound name))

def sampleCatalog : StandardModuleCatalog := ⟨[⟨⟨"Naturals"⟩, .languageDefined, none⟩]⟩

def sampleProvider : SourceProvider Unit :=
  { readRoot := fun ref => readSample ref.moduleName
    readDependency := readSample
    resolveStandard := SourceProvider.standardLookup sampleCatalog }

def sampleConfig : ResolverConfig Unit :=
  { provider := sampleProvider
    parse := fun unit => pure (parseUnit unit)
    digestHex := fun _ => "" }

def sampleRoot : ModuleRef := ⟨⟨"R"⟩, "R.tla"⟩

def sampleGraph : ResolvedGraph :=
  ((resolve sampleConfig sampleRoot).run ()).1.toOption.getD
    { root := sampleRoot.moduleName, nodes := [], edges := [], standardModules := [] }

theorem resolve_sample : (resolve sampleConfig sampleRoot).run () = (.ok sampleGraph, ()) := by
  have hok : ((resolve sampleConfig sampleRoot).run ()).1.isOk = true := by decide +kernel
  unfold sampleGraph
  rcases hrun : (resolve sampleConfig sampleRoot).run () with ⟨failure | graph, w⟩
  · rw [hrun] at hok
    cases hok
  · rfl

theorem resolve_explores_sample :
    (WellFounded fun dependency owner =>
        LocalEdge sampleGraph.toResolvedModuleGraph owner dependency) ∧
      ∀ name, (∃ node ∈ sampleGraph.nodes, node.name = name) ↔
        Relation.ReflTransGen (LocalEdge sampleGraph.toResolvedModuleGraph)
          sampleRoot.moduleName name :=
  resolve_explores resolve_sample

/-! ### Recorded dependencies -/

def edgeSite (edge : ModuleEdge) : DependencyDeclaration :=
  { kind := edge.kind
    moduleName := edge.dependency
    isLocal := edge.isLocal
    substitutions := edge.substitutions
    range := edge.range }

/-- The sites recorded for `owner`, each with its position among the owner's sites. -/
def recordedSites (edges : List ModuleEdge) (owner : ModuleName) :
    List (DependencyDeclaration × Nat) :=
  (edges.filter fun edge => edge.owner == owner).map fun edge =>
    (edgeSite edge, edge.declarationOrder)

/-- `node` is a captured unit as the parser took it. -/
structure Sourced (config : ResolverConfig ω) (node : ModuleNode) : Prop where
  name : node.name = node.module.name
  path : node.logicalPath = node.unit.logicalPath
  parses : ∃ w w', Parses config node.unit node.module w w'

structure Explores (frame : Frame) (node : ModuleNode) : Prop where
  owner : frame.owner = node.name
  path : frame.logicalPath = node.logicalPath
  sites : frame.sites = node.module.dependencies

/-- An open module has its sites recorded up to the next one, a closed module has all. -/
structure Recorded (config : ResolverConfig ω) (walk : Walk ω) : Prop where
  nodes : ∀ node ∈ walk.state.nodes, Sourced config node
  frames : ∀ frame ∈ walk.stack, ∃ node ∈ walk.state.nodes, Explores frame node
  owners : ∀ edge ∈ walk.state.edges, ∃ node ∈ walk.state.nodes, node.name = edge.owner
  opened : ∀ frame ∈ walk.stack,
    recordedSites walk.state.edges frame.owner = (frame.sites.take frame.next).zipIdx
  closed : ∀ node ∈ walk.state.nodes, (∀ frame ∈ walk.stack, frame.owner ≠ node.name) →
    recordedSites walk.state.edges node.name = node.module.dependencies.zipIdx

section Step
variable {stack rest : List Frame} {frame : Frame} {site : DependencyDeclaration}
  {state : ResolverState} {advance : Advance}

theorem recordedSites_recordEdge {index : Nat} {resolution : DependencyResolution}
    {owner : ModuleName} :
    recordedSites (recordEdge state frame site index resolution).edges owner =
      recordedSites state.edges owner ++ if frame.owner = owner then [(site, index)] else [] := by
  unfold recordedSites recordEdge
  rw [List.filter_append, List.map_append, List.append_cancel_left_eq]
  by_cases howner : frame.owner = owner
  · simp [howner, edgeSite]
  · simp [howner]

theorem recordedSites_eq_nil {edges : List ModuleEdge} {owner : ModuleName}
    (h : ∀ edge ∈ edges, edge.owner ≠ owner) : recordedSites edges owner = [] := by
  rw [recordedSites, List.map_eq_nil_iff, List.filter_eq_nil_iff]
  exact fun edge hedge howner => h edge hedge (eq_of_beq howner)

/-- What a visit adds: one edge, and a node with its frame when a module was captured. -/
inductive Grows (config : ResolverConfig ω) (frame : Frame) (site : DependencyDeclaration)
    (state : ResolverState) : Advance → Prop
  | edge {resolution : DependencyResolution} {advance : Advance} (hframe : advance.frame = none)
      (hnodes : advance.state.nodes = state.nodes)
      (hedges : advance.state.edges = (recordEdge state frame site frame.next resolution).edges) :
      Grows config frame site state advance
  | node {unit : SourceUnit} {parsed : ParsedModule} {w₁ w₂ : ω} {advance : Advance}
      (hframe : advance.frame = some (entered frame site unit parsed))
      (hnodes : advance.state.nodes = state.nodes ++ [captureNode unit parsed])
      (hedges : advance.state.edges = (recordEdge state frame site frame.next .localSource).edges)
      (hparses : Parses config unit parsed w₁ w₂) (hname : parsed.name = site.moduleName)
      (hfresh : ∀ node ∈ state.nodes, node.name ≠ parsed.name) :
      Grows config frame site state advance

theorem Visit.grows (h : Visit config stack frame site state w advance w') :
    Grows config frame site state advance := by
  cases h with
  | reuse => exact .edge rfl rfl rfl
  | reusePinned => exact .edge rfl rfl rfl
  | pin => exact .edge rfl rfl rfl
  | capture hrequested hread hparses hname =>
    exact .node rfl rfl rfl hparses hname fun node hnode =>
      hname ▸ hrequested.uncaptured node hnode

theorem zipIdx_take_succ {sites : List DependencyDeclaration} {n : Nat}
    (h : sites[n]? = some site) :
    (sites.take (n + 1)).zipIdx = (sites.take n).zipIdx ++ [(site, n)] := by
  have hlength : (sites.take n).length = n :=
    List.length_take_of_le (Nat.le_of_lt (List.getElem?_eq_some_iff.mp h).1)
  rw [List.take_add_one, h, List.zipIdx_append, Option.toList_some, Nat.zero_add, hlength]
  rfl

theorem Recorded.sites_visit (h : Recorded config ⟨frame :: rest, state, w⟩)
    (hsite : frame.sites[frame.next]? = some site) {resolution : DependencyResolution} :
    recordedSites (recordEdge state frame site frame.next resolution).edges frame.owner =
      (frame.sites.take (frame.next + 1)).zipIdx := by
  have hold : recordedSites state.edges frame.owner = (frame.sites.take frame.next).zipIdx :=
    h.opened frame List.mem_cons_self
  rw [recordedSites_recordEdge, if_pos rfl, hold, zipIdx_take_succ hsite]

theorem recordedSites_other {resolution : DependencyResolution} {owner : ModuleName}
    (h : frame.owner ≠ owner) :
    recordedSites (recordEdge state frame site frame.next resolution).edges owner =
      recordedSites state.edges owner := by
  rw [recordedSites_recordEdge, if_neg h, List.append_nil]

theorem owner_ne_of_mem (hok : Search.Ok root.moduleName
      (Walk.search ⟨frame :: rest, state, w⟩)) {other : Frame} (hother : other ∈ rest) :
    frame.owner ≠ other.owner := fun heq => by
  have hnodup : (frame.owner :: rest.map Frame.owner).Nodup := hok.openedNodup
  exact (List.nodup_cons.mp hnodup).1 (heq ▸ List.mem_map_of_mem hother)

theorem Recorded.close (h : Recorded config ⟨frame :: rest, state, w⟩)
    (hok : Search.Ok root.moduleName (Walk.search ⟨frame :: rest, state, w⟩))
    (hdone : frame.sites[frame.next]? = none) : Recorded config ⟨rest, state, w⟩ where
  nodes := h.nodes
  frames := fun other hother => h.frames other (List.mem_cons_of_mem _ hother)
  owners := h.owners
  opened := fun other hother => h.opened other (List.mem_cons_of_mem _ hother)
  closed := fun node hnode hclosed => by
    by_cases hnow : frame.owner = node.name
    · obtain ⟨explored, hexplored, hframe⟩ := h.frames frame List.mem_cons_self
      have hsame : explored = node := List.inj_on_of_nodup_map hok.seenNodup hexplored hnode
        (hframe.owner.symm.trans hnow)
      have hlast := h.opened frame List.mem_cons_self
      rw [List.take_of_length_le (List.getElem?_eq_none_iff.mp hdone), hframe.sites, hsame,
        hnow] at hlast
      exact hlast
    · exact h.closed node hnode fun other hother =>
        (List.mem_cons.mp hother).elim (fun heq => heq ▸ hnow) (hclosed other)

theorem Recorded.edge (h : Recorded config ⟨frame :: rest, state, w⟩)
    (hok : Search.Ok root.moduleName (Walk.search ⟨frame :: rest, state, w⟩))
    (hsite : frame.sites[frame.next]? = some site) {resolution : DependencyResolution}
    {state' : ResolverState} (hnodes : state'.nodes = state.nodes)
    (hedges : state'.edges = (recordEdge state frame site frame.next resolution).edges) :
    Recorded config ⟨frame.advanced :: rest, state', w'⟩ where
  nodes := by simpa only [hnodes] using h.nodes
  frames := fun other hother => by
    simp only [hnodes]
    rcases List.mem_cons.mp hother with rfl | hother
    · obtain ⟨node, hnode, hframe⟩ := h.frames frame List.mem_cons_self
      exact ⟨node, hnode, hframe.owner, hframe.path, hframe.sites⟩
    · exact h.frames other (List.mem_cons_of_mem _ hother)
  owners := fun edge hedge => by
    simp only [hnodes]
    rw [hedges] at hedge
    rcases List.mem_append.mp hedge with hold | hnew
    · exact h.owners edge hold
    · obtain ⟨node, hnode, hframe⟩ := h.frames frame List.mem_cons_self
      rw [List.mem_singleton.mp hnew]
      exact ⟨node, hnode, hframe.owner.symm⟩
  opened := fun other hother => by
    simp only [hedges]
    rcases List.mem_cons.mp hother with rfl | hother
    · exact h.sites_visit hsite
    · rw [recordedSites_other (owner_ne_of_mem hok hother)]
      exact h.opened other (List.mem_cons_of_mem _ hother)
  closed := fun node hnode hclosed => by
    simp only [hnodes, hedges] at hnode ⊢
    have htop : frame.owner ≠ node.name := hclosed frame.advanced List.mem_cons_self
    rw [recordedSites_other htop]
    refine h.closed node hnode fun other hother => ?_
    rcases List.mem_cons.mp hother with rfl | hother
    · exact htop
    · exact hclosed other (List.mem_cons_of_mem _ hother)

theorem Recorded.node {unit : SourceUnit} {parsed : ParsedModule} {w₁ w₂ : ω}
    {walk : Walk ω} (h : Recorded config walk) (hparses : Parses config unit parsed w₁ w₂)
    (hfresh : ∀ node ∈ walk.state.nodes, node.name ≠ parsed.name) {state' : ResolverState}
    (hnodes : state'.nodes = walk.state.nodes ++ [captureNode unit parsed])
    (hedges : state'.edges = walk.state.edges) {depth : Nat}
    {enteredBy : Option (ModuleName × String × SourceRange)} :
    Recorded config ⟨openFrame unit parsed depth enteredBy :: walk.stack, state', w'⟩ where
  nodes := fun node hnode => by
    rw [hnodes] at hnode
    rcases List.mem_append.mp hnode with hold | hnew
    · exact h.nodes node hold
    · rw [List.mem_singleton.mp hnew]
      exact ⟨rfl, rfl, w₁, w₂, hparses⟩
  frames := fun other hother => by
    simp only [hnodes]
    rcases List.mem_cons.mp hother with rfl | hother
    · exact ⟨captureNode unit parsed, List.mem_append_right _ (List.mem_singleton_self _),
        rfl, rfl, rfl⟩
    · obtain ⟨node, hnode, hframe⟩ := h.frames other hother
      exact ⟨node, List.mem_append_left _ hnode, hframe⟩
  owners := fun edge hedge => by
    rw [hedges] at hedge
    obtain ⟨node, hnode, howner⟩ := h.owners edge hedge
    exact ⟨node, hnodes ▸ List.mem_append_left _ hnode, howner⟩
  opened := fun other hother => by
    simp only [hedges]
    rcases List.mem_cons.mp hother with rfl | hother
    · refine recordedSites_eq_nil fun edge hedge howner => ?_
      obtain ⟨node, hnode, hname⟩ := h.owners edge hedge
      exact hfresh node hnode (hname.trans howner)
    · exact h.opened other hother
  closed := fun node hnode hclosed => by
    rw [hnodes] at hnode
    simp only [hedges]
    rcases List.mem_append.mp hnode with hold | hnew
    · exact h.closed node hold fun other hother => hclosed other (List.mem_cons_of_mem _ hother)
    · rw [List.mem_singleton.mp hnew] at hclosed
      exact absurd rfl (hclosed (openFrame unit parsed depth enteredBy) List.mem_cons_self)

end Step

theorem Recorded.turn {a b : Walk ω} (h : Recorded config a)
    (hok : Search.Ok root.moduleName a.search) (hturn : Turn config a b) : Recorded config b := by
  cases hturn with
  | close hdone => exact h.close hok hdone
  | @visit frame rest state w w' site advance hsite hvisit =>
    cases hvisit.grows with
    | edge hframe hnodes hedges =>
      rw [hframe]
      exact h.edge hok hsite hnodes hedges
    | @node unit parsed w₁ w₂ _ hframe hnodes hedges hparses hname hfresh =>
      rw [hframe]
      have hrecorded : Recorded config ⟨frame.advanced :: rest,
          recordEdge state frame site frame.next .localSource, w'⟩ := h.edge hok hsite rfl rfl
      exact hrecorded.node hparses hfresh hnodes hedges

theorem recorded_of_reached (h : Reached config root w walk) : Recorded config walk := by
  refine Reached.induction (fun unit parsed w₁ hstarted => ?_) (fun a b hreached hturn ih => ?_) h
  · obtain ⟨w₀, -, hparses⟩ := hstarted.captured
    have hempty : Recorded config ⟨[], {}, w₁⟩ :=
      ⟨fun _ h => absurd h List.not_mem_nil, fun _ h => absurd h List.not_mem_nil,
        fun _ h => absurd h List.not_mem_nil, fun _ h => absurd h List.not_mem_nil,
        fun _ h => absurd h List.not_mem_nil⟩
    have hnodes : ({ nodes := [captureNode unit parsed] } : ResolverState).nodes =
        [] ++ [captureNode unit parsed] := rfl
    exact hempty.node hparses (fun _ h => absurd h List.not_mem_nil) hnodes rfl
  · exact ih.turn hreached.search hturn

/-- The catalog answers with the module that was asked for. -/
def NamesStandards (config : ResolverConfig ω) : Prop :=
  ∀ name w standard w', (config.provider.resolveStandard name).run w = (.ok standard, w') →
    standard.name = name

/-- A pinned module is not captured, and an edge to the catalog leads to a pinned module. -/
structure Pinned (walk : Walk ω) : Prop where
  targets : ∀ edge ∈ walk.state.edges, edge.resolution = .standardCatalog →
    ∃ standard ∈ walk.state.standardModules, standard.name = edge.dependency
  apart : ∀ standard ∈ walk.state.standardModules, ∀ node ∈ walk.state.nodes,
    node.name ≠ standard.name
  supplied : ∀ standard ∈ walk.state.standardModules, standard.kind ≠ .filesystemSupplied

section Pins
variable {frame : Frame} {stack stack' : List Frame} {site : DependencyDeclaration}
  {state : ResolverState}

theorem Pinned.of_stack (h : Pinned ⟨stack, state, w⟩) : Pinned ⟨stack', state, w'⟩ :=
  ⟨h.targets, h.apart, h.supplied⟩

theorem Pinned.record (h : Pinned ⟨stack, state, w⟩) {resolution : DependencyResolution}
    (hpinned : resolution = .standardCatalog →
      ∃ standard ∈ state.standardModules, standard.name = site.moduleName) :
    Pinned ⟨stack', recordEdge state frame site frame.next resolution, w'⟩ where
  targets := fun edge hedge hstandard => by
    rcases List.mem_append.mp hedge with hold | hnew
    · exact h.targets edge hold hstandard
    · rw [List.mem_singleton.mp hnew] at hstandard ⊢
      exact hpinned hstandard
  apart := h.apart
  supplied := h.supplied

theorem Pinned.pin (h : Pinned ⟨stack, state, w⟩) {standard : StandardModule}
    (hname : standard.name = site.moduleName)
    (hnew : ∀ node ∈ state.nodes, node.name ≠ site.moduleName)
    (hkind : standard.kind ≠ .filesystemSupplied) :
    Pinned ⟨stack', pinned state frame site standard, w'⟩ := by
  have hadded : Pinned (ω := ω) ⟨stack, { state with
      standardModules := state.standardModules ++ [standard] }, w⟩ := by
    refine ⟨fun edge hedge hstandard => ?_, fun other hother node hnode => ?_,
      fun other hother => ?_⟩
    · obtain ⟨known, hknown, heq⟩ := h.targets edge hedge hstandard
      exact ⟨known, List.mem_append_left _ hknown, heq⟩
    · rcases List.mem_append.mp hother with hold | hadd
      · exact h.apart other hold node hnode
      · rw [List.mem_singleton.mp hadd, hname]
        exact hnew node hnode
    · rcases List.mem_append.mp hother with hold | hadd
      · exact h.supplied other hold
      · rw [List.mem_singleton.mp hadd]
        exact hkind
  exact hadded.record fun _ => ⟨standard, List.mem_append_right _ (List.mem_singleton_self _),
    hname⟩

theorem Pinned.capture (h : Pinned ⟨stack, state, w⟩) {unit : SourceUnit} {parsed : ParsedModule}
    (hname : parsed.name = site.moduleName)
    (hunpinned : ∀ standard ∈ state.standardModules, standard.name ≠ site.moduleName) :
    Pinned ⟨stack', captured state frame site unit parsed, w'⟩ := by
  have hadded : Pinned (ω := ω) ⟨stack, { state with
      nodes := state.nodes ++ [captureNode unit parsed] }, w⟩ := by
    refine ⟨h.targets, fun standard hstandard node hnode => ?_, h.supplied⟩
    rcases List.mem_append.mp hnode with hold | hnew
    · exact h.apart standard hstandard node hold
    · rw [List.mem_singleton.mp hnew]
      exact fun heq => hunpinned standard hstandard (heq.symm.trans hname)
  exact hadded.record fun hlocal => DependencyResolution.noConfusion hlocal

end Pins

theorem pinned_of_reached (hnames : NamesStandards config) (h : Reached config root w walk) :
    Pinned walk := by
  refine Reached.induction (fun unit parsed w₁ _ => ?_) (fun a b _ hturn ih => ?_) h
  · exact ⟨fun _ h => absurd h List.not_mem_nil, fun _ h => absurd h List.not_mem_nil,
      fun _ h => absurd h List.not_mem_nil⟩
  · cases hturn with
    | close hdone => exact ih.of_stack
    | visit hsite hvisit =>
      cases hvisit with
      | reuse => exact ih.record fun hlocal => DependencyResolution.noConfusion hlocal
      | reusePinned hedges hnew hseen => exact ih.record fun _ => hseen
      | pin hrequested hread hcatalog hkind =>
        exact ih.pin (hnames _ _ _ _ hcatalog) hrequested.uncaptured hkind
      | capture hrequested hread hparses hname => exact ih.capture hname hrequested.unpinned

theorem namesStandards_of_lookup {catalog : StandardModuleCatalog}
    (h : config.provider.resolveStandard = SourceProvider.standardLookup catalog) :
    NamesStandards config := by
  intro name w standard w' hrun
  rw [h, SourceProvider.standardLookup] at hrun
  rcases hfind : catalog.find? name with - | entry
  · rw [hfind] at hrun
    cases congrArg Prod.fst hrun
  · rw [hfind] at hrun
    obtain rfl := Except.ok.inj (congrArg Prod.fst hrun)
    exact eq_of_beq (List.find?_some (p := fun entry : StandardModule => entry.name == name) hfind)

/-- Every edge of a returned graph leads to a captured module or to a pinned one, as its
resolution says, and no module is both. -/
theorem pinned_resolve (hnames : NamesStandards config) {graph : ResolvedGraph}
    (h : (resolve config root).run w = (.ok graph, w')) :
    (∀ edge ∈ graph.edges, edge.resolution = .localSource →
        ∃ node ∈ graph.nodes, node.name = edge.dependency) ∧
      (∀ edge ∈ graph.edges, edge.resolution = .standardCatalog →
        ∃ standard ∈ graph.standardModules, standard.name = edge.dependency) ∧
      ∀ standard ∈ graph.standardModules, standard.kind ≠ .filesystemSupplied ∧
        ∀ node ∈ graph.nodes, node.name ≠ standard.name := by
  obtain ⟨final, rfl, hreached⟩ := reached_of_resolve h
  have hpinned := pinned_of_reached hnames hreached
  refine ⟨fun edge hedge hlocal => ?_, hpinned.targets, fun standard hstandard =>
    ⟨hpinned.supplied standard hstandard, hpinned.apart standard hstandard⟩⟩
  have hends := hreached.search.ends _ (mem_edgeEnds.mpr ⟨edge, hedge, hlocal, rfl, rfl⟩)
  exact List.mem_map.mp hends.2

theorem pinned_resolve_sample :
    (∀ edge ∈ sampleGraph.edges, edge.resolution = .localSource →
        ∃ node ∈ sampleGraph.nodes, node.name = edge.dependency) ∧
      (∀ edge ∈ sampleGraph.edges, edge.resolution = .standardCatalog →
        ∃ standard ∈ sampleGraph.standardModules, standard.name = edge.dependency) ∧
      ∀ standard ∈ sampleGraph.standardModules, standard.kind ≠ .filesystemSupplied ∧
        ∀ node ∈ sampleGraph.nodes, node.name ≠ standard.name :=
  pinned_resolve (namesStandards_of_lookup rfl) resolve_sample

theorem acyclic_resolve (hnames : NamesStandards config) {graph : ResolvedGraph}
    (h : (resolve config root).run w = (.ok graph, w')) :
    Acyclic graph.toResolvedModuleGraph := by
  refine Subrelation.wf (fun {dependency name} himports => ?_) (wellFounded_resolve h)
  obtain ⟨final, rfl, hreached⟩ := reached_of_resolve h
  have hpinned := pinned_of_reached hnames hreached
  obtain ⟨edge, hedge, rfl⟩ := himports
  obtain ⟨hmem, howner, hcaptured⟩ := mem_capturedEdges hedge
  obtain ⟨node, hnode⟩ := Option.isSome_iff_exists.mp hcaptured
  refine ⟨edge.1, hmem, ?_, howner, rfl⟩
  cases hresolution : edge.1.resolution with
  | localSource => rfl
  | standardCatalog =>
    -- a pinned target is not captured, and this one is
    obtain ⟨standard, hstandard, hname⟩ := hpinned.targets edge.1 hmem hresolution
    have hsame : node.name = edge.1.dependency := by simpa using List.find?_some hnode
    exact absurd (hsame.trans hname.symm)
      (hpinned.apart standard hstandard node (List.mem_of_find?_eq_some hnode))

end MirrorsCore.Tla.Resolver
