import Mathlib
import MirrorsCore.Tla.ResolverRuns

/-! Resolution in a closed world, where the provider and the parser always give the same
answers. Whether it succeeds, and what it captures, is then a matter of the dependencies
that the sources declare. -/

namespace MirrorsCore.Tla.Resolver
open MirrorsCore.Lib (Search run_bind_of)
open Relation (ReflTransGen TransGen)

variable {ω : Type} {config : ResolverConfig ω} {root : ModuleRef} {w w' : ω} {walk : Walk ω}

structure Files where
  read : ModuleName → Except SourceReadError SourceUnit
  standard : ModuleName → Except SourceReadError StandardModule
  parse : SourceUnit → ParseOutcome

/-- `config` answers from `files`; the catalog names the module that was asked for. -/
structure Serves (config : ResolverConfig ω) (root : ModuleRef) (files : Files) : Prop where
  first : ∀ w, (config.provider.readRoot root).run w = (files.read root.moduleName, w)
  dependency : ∀ name, name ≠ root.moduleName → ∀ w,
    (config.provider.readDependency name).run w = (files.read name, w)
  standard : ∀ name w, (config.provider.resolveStandard name).run w = (files.standard name, w)
  parse : ∀ unit w, (config.parse unit).run w = (files.parse unit, w)
  names : ∀ name standard, files.standard name = .ok standard → standard.name = name

/-! ### Declared dependencies -/

/-- `name` is a source that parses as the module of that name. -/
structure Supplies (config : ResolverConfig ω) (files : Files) (name : ModuleName)
    (unit : SourceUnit) (parsed : ParsedModule) : Prop where
  read : files.read name = .ok unit
  consistent : unit.consistent config.digestHex = true
  noErrors : (files.parse unit).hasErrors = false
  module : (files.parse unit).module? = some parsed
  name : parsed.name = name

def Supplied (config : ResolverConfig ω) (files : Files) (name : ModuleName) : Prop :=
  ∃ unit parsed, Supplies config files name unit parsed

/-- `name` has no source and is a standard module. -/
structure Standard (files : Files) (name : ModuleName) : Prop where
  absent : ∃ other, files.read name = .error (.notFound other)
  catalog : ∃ standard, files.standard name = .ok standard ∧ standard.kind ≠ .filesystemSupplied

/-- The source of `owner` declares `dependency`. -/
def Needs (config : ResolverConfig ω) (files : Files) (owner dependency : ModuleName) : Prop :=
  ∃ unit parsed, Supplies config files owner unit parsed ∧
    ∃ site ∈ parsed.dependencies, site.moduleName = dependency

/-- Every module that `root` needs is supplied or standard, and none needs itself. -/
structure Complete (config : ResolverConfig ω) (files : Files) (root : ModuleName) : Prop where
  first : Supplied config files root
  available : ∀ name, ReflTransGen (Needs config files) root name →
    Supplied config files name ∨ Standard files name
  acyclic : ∀ name, ReflTransGen (Needs config files) root name →
    ¬ TransGen (Needs config files) name name

variable {files : Files} {name owner dependency : ModuleName} {unit : SourceUnit}
  {parsed : ParsedModule}

theorem Supplies.unique {unit' : SourceUnit} {parsed' : ParsedModule}
    (h : Supplies config files name unit parsed) (h' : Supplies config files name unit' parsed') :
    unit = unit' ∧ parsed = parsed' := by
  have hunit : unit = unit' := Except.ok.inj (h.read.symm.trans h'.read)
  subst hunit
  exact ⟨rfl, Option.some.inj (h.module.symm.trans h'.module)⟩

theorem Supplied.not_standard (h : Supplied config files name) : ¬ Standard files name := by
  rintro ⟨⟨other, habsent⟩, -⟩
  obtain ⟨unit, parsed, hsupplies⟩ := h
  rw [hsupplies.read] at habsent
  cases habsent

theorem supplied_of_needs (h : Needs config files owner dependency) :
    Supplied config files owner := by
  obtain ⟨unit, parsed, hsupplies, -⟩ := h
  exact ⟨unit, parsed, hsupplies⟩

theorem supplies_of_parses (hserves : Serves config root files)
    (hread : files.read name = .ok unit) (hparses : Parses config unit parsed w w')
    (hname : parsed.name = name) : Supplies config files name unit parsed := by
  obtain ⟨outcome, hrun, herrors, hmodule⟩ := hparses.outcome
  have houtcome : outcome = files.parse unit :=
    congrArg Prod.fst (hrun.symm.trans (hserves.parse unit w))
  exact ⟨hread, hparses.consistent, houtcome ▸ herrors, houtcome ▸ hmodule, hname⟩

/-! ### Reached states -/

/-- Captured modules are the supplied ones, pinned modules are standard. -/
structure Known (config : ResolverConfig ω) (files : Files) (walk : Walk ω) : Prop where
  nodes : ∀ node ∈ walk.state.nodes, Supplies config files node.name node.unit node.module
  standards : ∀ standard ∈ walk.state.standardModules, Standard files standard.name

theorem exists_root_node (h : Reached config root w walk) :
    ∃ node ∈ walk.state.nodes, node.name = root.moduleName :=
  List.mem_map.mp (List.mem_of_mem_head? h.search.first)

section Visit
variable {frame : Frame} {stack rest : List Frame} {site : DependencyDeclaration}
  {state : ResolverState}

theorem read_of_requested (hserves : Serves config root files)
    (hreached : Reached config root w ⟨stack, state, w'⟩) {read : Except SourceReadError SourceUnit}
    {w₁ w₂ : ω} (hrequested : Requested config stack frame site state)
    (hread : (config.provider.readDependency site.moduleName).run w₁ = (read, w₂)) :
    files.read site.moduleName = read := by
  obtain ⟨node, hnode, hname⟩ := exists_root_node hreached
  have hne : site.moduleName ≠ root.moduleName := fun heq =>
    hrequested.uncaptured node hnode (hname.trans heq.symm)
  exact congrArg Prod.fst ((hserves.dependency _ hne w₁).symm.trans hread)

theorem standard_of_catalog (hserves : Serves config root files)
    {answer : Except SourceReadError StandardModule} {w₁ w₂ : ω}
    (hcatalog : (config.provider.resolveStandard name).run w₁ = (answer, w₂)) :
    files.standard name = answer :=
  congrArg Prod.fst ((hserves.standard name w₁).symm.trans hcatalog)

end Visit

theorem namesStandards_of_serves (hserves : Serves config root files) : NamesStandards config :=
  fun _ _ _ _ hrun => hserves.names _ _ (standard_of_catalog hserves hrun)

theorem known_of_reached (hserves : Serves config root files) (h : Reached config root w walk) :
    Known config files walk := by
  refine Reached.induction (fun unit parsed w₁ hstarted => ?_) (fun a b hreached hturn ih => ?_) h
  · obtain ⟨w₀, hread, hparses⟩ := hstarted.captured
    have hunit : files.read root.moduleName = .ok unit :=
      congrArg Prod.fst ((hserves.first w).symm.trans hread)
    refine ⟨fun node hnode => ?_, fun _ h => absurd h List.not_mem_nil⟩
    rw [List.mem_singleton.mp hnode]
    rw [← hstarted.name] at hunit
    exact supplies_of_parses hserves hunit hparses rfl
  · cases hturn with
    | close hdone => exact ⟨ih.nodes, ih.standards⟩
    | @visit frame rest state w₀ w₁ site advance hsite hvisit =>
      cases hvisit with
      | reuse => exact ⟨ih.nodes, ih.standards⟩
      | reusePinned => exact ⟨ih.nodes, ih.standards⟩
      | @pin w₂ w₃ other standard hrequested hread hcatalog hkind =>
        refine ⟨ih.nodes, fun known hknown => ?_⟩
        rcases List.mem_append.mp hknown with hold | hnew
        · exact ih.standards known hold
        · have hanswer := standard_of_catalog hserves hcatalog
          rw [List.mem_singleton.mp hnew, hserves.names _ _ hanswer]
          exact ⟨⟨other, read_of_requested hserves hreached hrequested hread⟩,
            standard, hanswer, hkind⟩
      | @capture w₂ w₃ unit parsed hrequested hread hparses hname =>
        refine ⟨fun node hnode => ?_, ih.standards⟩
        rcases List.mem_append.mp hnode with hold | hnew
        · exact ih.nodes node hold
        · rw [List.mem_singleton.mp hnew]
          have hunit := read_of_requested hserves hreached hrequested hread
          rw [← hname] at hunit
          exact supplies_of_parses hserves hunit hparses rfl

theorem needs_of_declares (h : Known config files walk)
    (hdeclares : Declares walk.state.nodes owner dependency) :
    Needs config files owner dependency := by
  obtain ⟨node, hnode, rfl, hsite⟩ := hdeclares
  exact ⟨node.unit, node.module, h.nodes node hnode, hsite⟩

theorem needed_of_mem (hserves : Serves config root files) (h : Reached config root w walk)
    {node : ModuleNode} (hnode : node ∈ walk.state.nodes) :
    ReflTransGen (Needs config files) root.moduleName node.name := by
  have hpath := h.search.reached node.name (List.mem_map_of_mem hnode)
  refine ReflTransGen.mono (fun _ _ hedge => ?_) _ _ hpath
  exact needs_of_declares (known_of_reached hserves h)
    (declares_of_search (recorded_of_reached h) hedge)

/-! ### Returned graphs -/

section Graph
variable {graph : ResolvedGraph}

theorem edge_of_needs (hserves : Serves config root files)
    (h : (resolve config root).run w = (.ok graph, w'))
    (howner : ∃ node ∈ graph.nodes, node.name = owner)
    (hneeds : Needs config files owner dependency) :
    LocalEdge graph.toResolvedModuleGraph owner dependency ∨ Standard files dependency := by
  obtain ⟨final, rfl, hreached⟩ := reached_of_resolve h
  have hknown := known_of_reached hserves hreached
  have hpinned := pinned_of_reached (namesStandards_of_serves hserves) hreached
  obtain ⟨node, hnode, rfl⟩ := howner
  obtain ⟨unit, parsed, hsupplies, site, hsite, rfl⟩ := hneeds
  obtain ⟨-, rfl⟩ := hsupplies.unique (hknown.nodes node hnode)
  have hclosed := (recorded_of_reached hreached).closed node hnode
    fun _ hframe => absurd hframe List.not_mem_nil
  -- the site has its edge, and the edge says how it was resolved
  obtain ⟨index, hindex⟩ := List.mem_iff_getElem?.mp hsite
  have hmem : (site, index) ∈ recordedSites final.edges node.name :=
    hclosed ▸ List.mem_zipIdx_iff_getElem?.mpr hindex
  obtain ⟨edge, hedge, heq⟩ := List.mem_map.mp hmem
  obtain ⟨hedge, hedgeOwner⟩ := List.mem_filter.mp hedge
  obtain ⟨rfl, -⟩ := Prod.mk.inj heq
  cases hresolution : edge.resolution with
  | localSource => exact .inl ⟨edge, hedge, hresolution, eq_of_beq hedgeOwner, rfl⟩
  | standardCatalog =>
    obtain ⟨standard, hstandard, hname⟩ := hpinned.targets edge hedge hresolution
    have hkind := hknown.standards standard hstandard
    rw [hname] at hkind
    exact .inr hkind

theorem captured_or_standard (hserves : Serves config root files)
    (h : (resolve config root).run w = (.ok graph, w'))
    (hneeded : ReflTransGen (Needs config files) root.moduleName name) :
    (∃ node ∈ graph.nodes, node.name = name) ∨ Standard files name := by
  induction hneeded with
  | refl => exact .inl ((mem_nodes_resolve_iff h).mpr .refl)
  | tail _ hneeds ih =>
    rcases ih with howner | hstandard
    · rcases edge_of_needs hserves h howner hneeds with hedge | hstandard
      · exact .inl ((mem_nodes_resolve_iff h).mpr (((mem_nodes_resolve_iff h).mp howner).tail hedge))
      · exact .inr hstandard
    · exact absurd hstandard (supplied_of_needs hneeds).not_standard

theorem localEdges_of_needs (hserves : Serves config root files)
    (h : (resolve config root).run w = (.ok graph, w')) (howner : ∃ node ∈ graph.nodes,
      node.name = owner) (hneeds : TransGen (Needs config files) owner dependency)
    (hsupplied : Supplied config files dependency) :
    TransGen (LocalEdge graph.toResolvedModuleGraph) owner dependency := by
  induction hneeds with
  | single hstep =>
    exact .single ((edge_of_needs hserves h howner hstep).resolve_right hsupplied.not_standard)
  | tail _ hstep ih =>
    have hpath := ih (supplied_of_needs hstep)
    have hmiddle := (mem_nodes_resolve_iff h).mpr
      (((mem_nodes_resolve_iff h).mp howner).trans hpath.to_reflTransGen)
    exact hpath.tail ((edge_of_needs hserves h hmiddle hstep).resolve_right
      hsupplied.not_standard)

theorem captured_iff_needed (hserves : Serves config root files)
    (h : (resolve config root).run w = (.ok graph, w')) :
    (∃ node ∈ graph.nodes, node.name = name ∧ node.unit = unit ∧ node.module = parsed) ↔
      ReflTransGen (Needs config files) root.moduleName name ∧
        Supplies config files name unit parsed := by
  constructor
  · rintro ⟨node, hnode, rfl, rfl, rfl⟩
    obtain ⟨final, rfl, hreached⟩ := reached_of_resolve h
    exact ⟨needed_of_mem hserves hreached hnode,
      (known_of_reached hserves hreached).nodes node hnode⟩
  · rintro ⟨hneeded, hsupplies⟩
    rcases captured_or_standard hserves h hneeded with ⟨node, hnode, rfl⟩ | hstandard
    · obtain ⟨final, rfl, hreached⟩ := reached_of_resolve h
      obtain ⟨hunit, hmodule⟩ :=
        ((known_of_reached hserves hreached).nodes node hnode).unique hsupplies
      exact ⟨node, hnode, rfl, hunit, hmodule⟩
    · exact absurd hstandard (Supplied.not_standard ⟨unit, parsed, hsupplies⟩)

theorem complete_of_resolve (hserves : Serves config root files)
    (h : (resolve config root).run w = (.ok graph, w')) :
    Complete config files root.moduleName := by
  obtain ⟨final, hgraph, hreached⟩ := reached_of_resolve h
  have hknown := known_of_reached hserves hreached
  have hsupplied : ∀ name, (∃ node ∈ graph.nodes, node.name = name) →
      Supplied config files name := by
    rintro name ⟨node, hnode, rfl⟩
    subst hgraph
    exact ⟨node.unit, node.module, hknown.nodes node hnode⟩
  refine ⟨hsupplied _ ((mem_nodes_resolve_iff h).mpr .refl), fun name hneeded => ?_,
    fun name hneeded hcycle => ?_⟩
  · exact (captured_or_standard hserves h hneeded).imp (hsupplied name) id
  · have hname : Supplied config files name := by
      obtain ⟨next, hneeds, -⟩ := TransGen.head'_iff.mp hcycle
      exact supplied_of_needs hneeds
    have hcaptured := (captured_or_standard hserves h hneeded).resolve_right hname.not_standard
    have hedges := localEdges_of_needs hserves h hcaptured hcycle hname
    have hwf := (wellFounded_resolve h).transGen
    exact hwf.irrefl.irrefl name (Relation.transGen_swap.mpr hedges)

/-- A root that resolves has all it needs. A module is captured exactly when the root needs it
and its source is supplied, and it is captured with that source. -/
theorem resolve_closedWorld (hserves : Serves config root files)
    (h : (resolve config root).run w = (.ok graph, w')) :
    Complete config files root.moduleName ∧
      ∀ name unit parsed,
        (∃ node ∈ graph.nodes, node.name = name ∧ node.unit = unit ∧ node.module = parsed) ↔
          ReflTransGen (Needs config files) root.moduleName name ∧
            Supplies config files name unit parsed :=
  ⟨complete_of_resolve hserves h, fun _ _ _ => captured_iff_needed hserves h⟩

end Graph

/-! ### Inline sources -/

def inlineFiles (digestHex : ByteArray → String) (sources : List (ModuleName × String))
    (catalog : StandardModuleCatalog) (parse : SourceUnit → ParseOutcome) : Files :=
  { read := fun name =>
      match sources.find? (fun entry => entry.1 == name) with
      | some entry => .ok (SourceUnit.create digestHex (name.name ++ ".tla") entry.2)
      | none => .error (.notFound name)
    standard := fun name =>
      match catalog.find? name with
      | some entry => .ok entry
      | none => .error (.standardModuleUnavailable name)
    parse }

/-- A closed source map is a closed world. -/
theorem serves_inlineSources {sources : List (ModuleName × String)}
    {catalog : StandardModuleCatalog} {parse : SourceUnit → ParseOutcome}
    (hprovider : config.provider =
      SourceProvider.inlineSources config.digestHex sources catalog)
    (hparse : config.parse = fun unit => pure (parse unit)) (root : ModuleRef) :
    Serves config root (inlineFiles config.digestHex sources catalog parse) := by
  have hread : ∀ name w, (SourceProvider.inlineLookup (ω := ω) config.digestHex sources name).run w =
      ((inlineFiles config.digestHex sources catalog parse).read name, w) := by
    intro name w
    unfold SourceProvider.inlineLookup inlineFiles
    dsimp only
    cases sources.find? fun entry => entry.1 == name with
    | none => rfl
    | some entry => rfl
  have hstandard : ∀ name w, (SourceProvider.standardLookup (ω := ω) catalog name).run w =
      ((inlineFiles config.digestHex sources catalog parse).standard name, w) := by
    intro name w
    unfold SourceProvider.standardLookup inlineFiles
    dsimp only
    cases catalog.find? name with
    | none => rfl
    | some entry => rfl
  refine ⟨fun w => ?_, fun name _ w => ?_, fun name w => ?_, fun unit w => ?_,
    fun name standard h => ?_⟩
  · rw [hprovider]
    exact hread root.moduleName w
  · rw [hprovider]
    exact hread name w
  · rw [hprovider]
    exact hstandard name w
  · rw [hparse]
    rfl
  · unfold inlineFiles at h
    dsimp only at h
    split at h
    · rename_i entry hfind
      obtain rfl := Except.ok.inj h
      exact eq_of_beq (List.find?_some (p := fun entry : StandardModule => entry.name == name) hfind)
    · cases h

/-! ### A sample world -/

def sampleFiles : Files :=
  { read := fun name => ((readSample name).run ()).1
    standard := fun name => ((sampleProvider.resolveStandard name).run ()).1
    parse := parseUnit }

theorem serves_sample (root : ModuleRef) : Serves sampleConfig root sampleFiles where
  first := fun _ => rfl
  dependency := fun _ _ _ => rfl
  standard := fun _ _ => rfl
  parse := fun _ _ => rfl
  names := fun name standard h => by
    have hnames : NamesStandards sampleConfig := namesStandards_of_lookup rfl
    exact hnames name () standard () (Prod.ext h rfl)

theorem resolve_closedWorld_sample :
    Complete sampleConfig sampleFiles sampleRoot.moduleName ∧
      ∀ name unit parsed,
        (∃ node ∈ sampleGraph.nodes, node.name = name ∧ node.unit = unit ∧
            node.module = parsed) ↔
          ReflTransGen (Needs sampleConfig sampleFiles) sampleRoot.moduleName name ∧
            Supplies sampleConfig sampleFiles name unit parsed :=
  resolve_closedWorld (serves_sample sampleRoot) resolve_sample

/-! ### Sufficient limits -/

def declaredNames (files : Files) (name : ModuleName) : List ModuleName :=
  match files.read name with
  | .ok unit => ((files.parse unit).module?.map fun parsed =>
      parsed.dependencies.map fun site => site.moduleName).getD []
  | .error _ => []

def siteCount (files : Files) (name : ModuleName) : Nat := (declaredNames files name).length

/-- The limits have room for `names` and for every dependency that they declare. -/
structure Room (config : ResolverConfig ω) (files : Files) (root : ModuleName)
    (names : List ModuleName) : Prop where
  needed : ∀ name, ReflTransGen (Needs config files) root name → name ∈ names
  modules : names.length ≤ config.limits.maxModules
  depth : names.length ≤ config.limits.maxDependencyDepth + 1
  edges : (names.map (siteCount files)).sum ≤ config.limits.maxDependencyEdges

theorem declaredNames_eq (h : Supplies config files name unit parsed) :
    declaredNames files name = parsed.dependencies.map fun site => site.moduleName := by
  unfold declaredNames
  rw [h.read]
  dsimp only
  rw [h.module]
  rfl

theorem siteCount_eq (h : Supplies config files name unit parsed) :
    siteCount files name = parsed.dependencies.length := by
  rw [siteCount, declaredNames_eq h, List.length_map]

theorem mem_of_needed {root : ModuleName} {names : List ModuleName} (hroot : root ∈ names)
    (hclosed : ∀ owner ∈ names, ∀ dependency ∈ declaredNames files owner, dependency ∈ names)
    (h : ReflTransGen (Needs config files) root name) : name ∈ names := by
  induction h with
  | refl => exact hroot
  | tail _ hneeds ih =>
    obtain ⟨unit, parsed, hsupplies, site, hsite, rfl⟩ := hneeds
    refine hclosed _ ih _ ?_
    rw [declaredNames_eq hsupplies]
    exact List.mem_map_of_mem hsite

theorem length_le_sum_of_count_le {l names : List ModuleName} {bound : ModuleName → Nat}
    (hmem : ∀ x ∈ l, x ∈ names) (hcount : ∀ x ∈ l, l.count x ≤ bound x) :
    l.length ≤ (names.map bound).sum := by
  have hsub : l.dedup.Subperm names :=
    (List.nodup_dedup l).subperm fun x hx => hmem x (List.mem_dedup.mp hx)
  obtain ⟨part, hperm, hsublist⟩ := hsub
  calc l.length = (l.dedup.map fun x => l.count x).sum := (List.sum_map_count_dedup_eq_length l).symm
    _ ≤ (l.dedup.map bound).sum :=
        List.sum_le_sum fun x hx => hcount x (List.mem_dedup.mp hx)
    _ = (part.map bound).sum := ((hperm.map bound).sum_eq).symm
    _ ≤ (names.map bound).sum :=
        (hsublist.map bound).sum_le_sum fun _ _ => Nat.zero_le _

theorem count_owner {edges : List ModuleEdge} {owner : ModuleName} :
    (edges.map ModuleEdge.owner).count owner = (recordedSites edges owner).length := by
  rw [recordedSites, List.length_map, List.count, List.countP_map, List.countP_eq_length_filter]
  rfl

/-- No module has more edges than it declares dependencies. -/
theorem count_le_siteCount (hrecorded : Recorded config walk) (hknown : Known config files walk)
    {edge : ModuleEdge} (hedge : edge ∈ walk.state.edges) :
    (walk.state.edges.map ModuleEdge.owner).count edge.owner ≤ siteCount files edge.owner := by
  rw [count_owner]
  obtain ⟨node, hnode, hname⟩ := hrecorded.owners edge hedge
  by_cases hopen : ∃ frame ∈ walk.stack, frame.owner = edge.owner
  · obtain ⟨frame, hframe, howner⟩ := hopen
    obtain ⟨explored, hexplored, hexplores⟩ := hrecorded.frames frame hframe
    rw [← howner, hrecorded.opened frame hframe, List.length_zipIdx, hexplores.owner,
      siteCount_eq (hknown.nodes explored hexplored), hexplores.sites]
    exact List.length_take_le' _ _
  · rw [← hname, hrecorded.closed node hnode fun frame hframe howner =>
      hopen ⟨frame, hframe, howner.trans hname⟩, List.length_zipIdx,
      siteCount_eq (hknown.nodes node hnode)]

section Refused
variable {frame : Frame} {rest : List Frame} {site : DependencyDeclaration}
  {state : ResolverState} {names : List ModuleName}

theorem edges_lt_limit (hserves : Serves config root files)
    (hroom : Room config files root.moduleName names)
    (hreached : Reached config root w ⟨frame :: rest, state, w'⟩)
    (hsite : frame.sites[frame.next]? = some site) :
    state.edges.length + 1 ≤ config.limits.maxDependencyEdges := by
  have hknown := known_of_reached hserves hreached
  let next : Walk ω :=
    ⟨frame.advanced :: rest, recordEdge state frame site frame.next .localSource, w'⟩
  have hrecorded : Recorded config next :=
    (recorded_of_reached hreached).edge hreached.search hsite rfl rfl
  have hknown' : Known config files next := ⟨hknown.nodes, hknown.standards⟩
  have hlength : (next.state.edges.map ModuleEdge.owner).length = state.edges.length + 1 := by
    rw [List.length_map]
    exact length_recordEdge_edges
  rw [← hlength]
  refine (length_le_sum_of_count_le (fun owner howner => ?_) fun owner howner => ?_).trans
    hroom.edges
  · obtain ⟨edge, hedge, rfl⟩ := List.mem_map.mp howner
    obtain ⟨node, hnode, hname⟩ := hrecorded.owners edge hedge
    exact hname ▸ hroom.needed _ (needed_of_mem hserves hreached hnode)
  · obtain ⟨edge, hedge, rfl⟩ := List.mem_map.mp howner
    exact count_le_siteCount hrecorded hknown' hedge

theorem nodes_lt_room (hserves : Serves config root files)
    (hroom : Room config files root.moduleName names)
    (hreached : Reached config root w ⟨frame :: rest, state, w'⟩)
    (hneeded : ReflTransGen (Needs config files) root.moduleName name)
    (hnew : ∀ node ∈ state.nodes, node.name ≠ name) :
    state.nodes.length + 1 ≤ names.length := by
  have hfresh : name ∉ state.nodes.map ModuleNode.name := fun hmem => by
    obtain ⟨node, hnode, hname⟩ := List.mem_map.mp hmem
    exact hnew node hnode hname
  have hnodup : (name :: state.nodes.map ModuleNode.name).Nodup :=
    List.nodup_cons.mpr ⟨hfresh, hreached.search.seenNodup⟩
  have hsub : (name :: state.nodes.map ModuleNode.name).Subperm names := by
    refine hnodup.subperm fun other hother => hroom.needed other ?_
    rcases List.mem_cons.mp hother with rfl | hother
    · exact hneeded
    · obtain ⟨node, hnode, rfl⟩ := List.mem_map.mp hother
      exact needed_of_mem hserves hreached hnode
  have hlength := hsub.length_le
  rwa [List.length_cons, List.length_map] at hlength

theorem depth_le_nodes (hreached : Reached config root w ⟨frame :: rest, state, w'⟩) :
    frame.depth + 1 ≤ state.nodes.length := by
  have hdepth : frame.depth = rest.length := (within_of_reached hreached).depths.1
  have hlength : ((frame :: rest).map Frame.owner).length ≤
      (state.nodes.map ModuleNode.name).length := hreached.search.length_le
  rw [List.length_map, List.length_map, List.length_cons] at hlength
  omega

theorem not_refused (hserves : Serves config root files)
    (hcomplete : Complete config files root.moduleName)
    (hroom : Room config files root.moduleName names)
    (hreached : Reached config root w ⟨frame :: rest, state, w'⟩)
    (hsite : frame.sites[frame.next]? = some site) {failure : ResolverFailure} {w₁ : ω}
    (hrefusal : Refusal config (frame :: rest) frame site state w' failure w₁) : False := by
  have hknown := known_of_reached hserves hreached
  have hrecorded := recorded_of_reached hreached
  obtain ⟨owner, howner, hexplores⟩ := hrecorded.frames frame List.mem_cons_self
  have hneeds : Needs config files frame.owner site.moduleName :=
    needs_of_declares hknown (declares_of_frame hrecorded List.mem_cons_self
      (List.mem_of_getElem? hsite))
  have hneeded : ReflTransGen (Needs config files) root.moduleName site.moduleName :=
    (hexplores.owner ▸ needed_of_mem hserves hreached howner).tail hneeds
  have havailable := hcomplete.available site.moduleName hneeded
  -- a source that can be read is one that is supplied
  have hread : ∀ {unit}, files.read site.moduleName = .ok unit →
      ∃ parsed, Supplies config files site.moduleName unit parsed := fun {unit} hunit => by
    obtain ⟨unit', parsed, hsupplies⟩ := havailable.resolve_right fun hstandard => by
      obtain ⟨other, habsent⟩ := hstandard.absent
      cases hunit.symm.trans habsent
    obtain rfl := Except.ok.inj (hunit.symm.trans hsupplies.read)
    exact ⟨parsed, hsupplies⟩
  -- and one that is not found is standard
  have habsent : ∀ {other}, files.read site.moduleName = .error (.notFound other) →
      Standard files site.moduleName := fun hother => havailable.resolve_left fun hsupplied => by
    obtain ⟨unit, parsed, hsupplies⟩ := hsupplied
    cases hother.symm.trans hsupplies.read
  -- and it declares the module asked for
  have hsame : ∀ {unit parsed w₁ w₂}, files.read site.moduleName = .ok unit →
      Parses config unit parsed w₁ w₂ → parsed.name = site.moduleName := by
    intro unit parsed w₁ w₂ hunit hparses
    obtain ⟨supplied, hsupplies⟩ := hread hunit
    obtain ⟨outcome, hparse, -, hmodule⟩ := hparses.outcome
    obtain rfl := congrArg Prod.fst (hparse.symm.trans (hserves.parse _ _))
    exact (Option.some.inj (hmodule.symm.trans hsupplies.module)) ▸ hsupplies.name
  cases hrefusal with
  | tooManyEdges h => exact Nat.not_le_of_lt h (edges_lt_limit hserves hroom hreached hsite)
  | cycle _ h =>
    obtain ⟨entry, hentry, howner⟩ := h
    have hpath : ReflTransGen (Walk.search ⟨frame :: rest, state, w'⟩).Edge site.moduleName
        frame.owner := hreached.search.reaches_top rfl (howner ▸ List.mem_map_of_mem hentry)
    have hneedsPath : ReflTransGen (Needs config files) site.moduleName frame.owner :=
      ReflTransGen.mono (fun _ _ hedge =>
        needs_of_declares hknown (declares_of_search hrecorded hedge)) _ _ hpath
    exact hcomplete.acyclic site.moduleName hneeded (TransGen.tail' hneedsPath hneeds)
  | tooDeep h hunseen =>
    have hmodules := nodes_lt_room hserves hroom hreached hneeded hunseen.uncaptured
    have hdepth := depth_le_nodes hreached
    have hlimit := hroom.depth
    omega
  | tooManyModules h hunseen =>
    have hmodules := nodes_lt_room hserves hroom hreached hneeded hunseen.uncaptured
    have hlimit := hroom.modules
    omega
  | unreadable hrequested hrun h =>
    have hanswer := read_of_requested hserves hreached hrequested hrun
    rcases havailable with ⟨unit, parsed, hsupplies⟩ | hstandard
    · cases hanswer.symm.trans hsupplies.read
    · obtain ⟨other, hother⟩ := hstandard.absent
      exact h other (Except.error.inj (hanswer.symm.trans hother))
  | missing hrequested hrun hcatalog =>
    obtain ⟨standard, hstandard, -⟩ :=
      (habsent (read_of_requested hserves hreached hrequested hrun)).catalog
    cases (standard_of_catalog hserves hcatalog).symm.trans hstandard
  | unsupplied hrequested hrun hcatalog h =>
    obtain ⟨standard, hstandard, hkind⟩ :=
      (habsent (read_of_requested hserves hreached hrequested hrun)).catalog
    obtain rfl := Except.ok.inj ((standard_of_catalog hserves hcatalog).symm.trans hstandard)
    exact hkind h
  | inconsistent hrequested hrun h =>
    obtain ⟨parsed, hsupplies⟩ := hread (read_of_requested hserves hreached hrequested hrun)
    exact Bool.false_ne_true (h.symm.trans hsupplies.consistent)
  | unparsed hrequested hrun hconsistent hparse h =>
    obtain ⟨parsed, hsupplies⟩ := hread (read_of_requested hserves hreached hrequested hrun)
    obtain rfl := congrArg Prod.fst (hparse.symm.trans (hserves.parse _ _))
    simp [ParseOutcome.succeeded, hsupplies.noErrors, hsupplies.module] at h
  | recaptured hrequested hrun hparses h =>
    have hname := hsame (read_of_requested hserves hreached hrequested hrun) hparses
    rw [hname, find?_nodes_eq_none_iff.mpr hrequested.uncaptured] at h
    cases h
  | repinned hrequested hrun hparses _ h =>
    obtain ⟨standard, hstandard, heq⟩ := h
    have hname := hsame (read_of_requested hserves hreached hrequested hrun) hparses
    exact hrequested.unpinned standard hstandard (heq.trans hname)
  | misnamed hrequested hrun hparses h =>
    exact h (hsame (read_of_requested hserves hreached hrequested hrun) hparses)

end Refused

theorem not_rootRefused (hserves : Serves config root files)
    (hcomplete : Complete config files root.moduleName) {failure : ResolverFailure} :
    ¬ RootRefusal config root w failure w' := by
  obtain ⟨unit, parsed, hsupplies⟩ := hcomplete.first
  have hread := hserves.first w
  rw [hsupplies.read] at hread
  intro hrefusal
  cases hrefusal with
  | unreadable h => cases congrArg Prod.fst (h.symm.trans hread)
  | inconsistent h hconsistent =>
    obtain rfl := Except.ok.inj (congrArg Prod.fst (h.symm.trans hread))
    exact Bool.false_ne_true (hconsistent.symm.trans hsupplies.consistent)
  | unparsed h _ hparse hfailed =>
    obtain rfl := Except.ok.inj (congrArg Prod.fst (h.symm.trans hread))
    obtain rfl := congrArg Prod.fst (hparse.symm.trans (hserves.parse _ _))
    simp [ParseOutcome.succeeded, hsupplies.noErrors, hsupplies.module] at hfailed
  | misnamed h hparses hname =>
    obtain rfl := Except.ok.inj (congrArg Prod.fst (h.symm.trans hread))
    obtain ⟨outcome, hparse, -, hmodule⟩ := hparses.outcome
    obtain rfl := congrArg Prod.fst (hparse.symm.trans (hserves.parse _ _))
    exact hname ((Option.some.inj (hmodule.symm.trans hsupplies.module)) ▸ hsupplies.name)

/-- With room enough, a root resolves exactly when every module it needs is supplied or
standard and none needs itself. -/
theorem resolve_succeeds_iff (hserves : Serves config root files) {names : List ModuleName}
    (hroom : Room config files root.moduleName names) :
    (∃ graph w', (resolve config root).run w = (.ok graph, w')) ↔
      Complete config files root.moduleName := by
  refine ⟨fun ⟨graph, w', h⟩ => complete_of_resolve hserves h, fun hcomplete => ?_⟩
  have hresolved : Resolved config root w ((resolve config root).run w) := resolved_resolve
  rcases hrun : (resolve config root).run w with ⟨failure | graph, w'⟩
  · rw [hrun] at hresolved
    rcases hresolved with hroot | ⟨walk, hreached, hstops⟩
    · exact absurd hroot (not_rootRefused hserves hcomplete)
    · cases hstops with
      | refused hsite hrefusal =>
        exact (not_refused hserves hcomplete hroom hreached hsite hrefusal).elim
  · exact ⟨graph, w', rfl⟩

theorem room_sample : Room sampleConfig sampleFiles sampleRoot.moduleName
    [⟨"R"⟩, ⟨"A"⟩, ⟨"Naturals"⟩] where
  needed := fun _ h => mem_of_needed List.mem_cons_self (by decide +kernel) h
  modules := by decide
  depth := by decide
  edges := by decide +kernel

theorem resolve_succeeds_iff_sample :
    (∃ graph w', (resolve sampleConfig sampleRoot).run () = (.ok graph, w')) ↔
      Complete sampleConfig sampleFiles sampleRoot.moduleName :=
  resolve_succeeds_iff (serves_sample sampleRoot) room_sample

end MirrorsCore.Tla.Resolver
