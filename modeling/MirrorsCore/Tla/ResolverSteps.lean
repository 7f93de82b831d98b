import Mathlib
import MirrorsCore.Lib.DepthFirst
import MirrorsCore.Tla.Resolver

/-! What one visit of a dependency site can do, the turns of the resolver's loop, and
the depth-first search that the turns perform. -/

namespace MirrorsCore.Tla.Resolver
open MirrorsCore.Lib (Search run_bind_of)

variable {ω : Type} {config : ResolverConfig ω} {stack rest : List Frame} {frame : Frame}
  {site : DependencyDeclaration} {state : ResolverState} {w w' : ω}

/-! ### One visit -/

/-- There is room for an edge, and its module is not in the graph. -/
structure Unseen (config : ResolverConfig ω) (stack : List Frame) (site : DependencyDeclaration)
    (state : ResolverState) : Prop where
  edges : state.edges.length + 1 ≤ config.limits.maxDependencyEdges
  offPath : ∀ entry ∈ stack, entry.owner ≠ site.moduleName
  uncaptured : ∀ node ∈ state.nodes, node.name ≠ site.moduleName
  unpinned : ∀ standard ∈ state.standardModules, standard.name ≠ site.moduleName

/-- The guards that a site passes before the provider is asked for it. -/
structure Requested (config : ResolverConfig ω) (stack : List Frame) (frame : Frame)
    (site : DependencyDeclaration) (state : ResolverState) : Prop
    extends Unseen config stack site state where
  depth : frame.depth + 1 ≤ config.limits.maxDependencyDepth
  modules : state.nodes.length + 1 ≤ config.limits.maxModules

/-- The parser takes `unit` for the module `parsed`. -/
structure Parses (config : ResolverConfig ω) (unit : SourceUnit) (parsed : ParsedModule)
    (w w' : ω) : Prop where
  consistent : unit.consistent config.digestHex = true
  outcome : ∃ outcome, (config.parse unit).run w = (outcome, w') ∧ outcome.hasErrors = false ∧
    outcome.module? = some parsed

/-- The failure for a unit that does not parse to a module. -/
def unparsedFailure (location : SourceLocation) (outcome : ParseOutcome) : ResolverFailure :=
  if outcome.hasErrors then parseFailure location outcome.diagnostics
  else parseOutcomeFailure location

/-- Why a site is refused, and with what failure. -/
inductive Refusal (config : ResolverConfig ω) (stack : List Frame) (frame : Frame)
    (site : DependencyDeclaration) (state : ResolverState) : ω → ResolverFailure → ω → Prop
  | tooManyEdges {w : ω} (h : config.limits.maxDependencyEdges < state.edges.length + 1) :
      Refusal config stack frame site state w
        (limitFailure GraphCode.tooManyEdges frame site config.limits.maxDependencyEdges
          (state.edges.length + 1)) w
  | cycle {w : ω} (hedges : state.edges.length + 1 ≤ config.limits.maxDependencyEdges)
      (h : ∃ entry ∈ stack, entry.owner = site.moduleName) :
      Refusal config stack frame site state w (cycleFailure stack frame site) w
  | tooDeep {w : ω} (h : config.limits.maxDependencyDepth < frame.depth + 1)
      (hunseen : Unseen config stack site state) :
      Refusal config stack frame site state w
        (depthLimitFailure frame site config.limits.maxDependencyDepth) w
  | tooManyModules {w : ω} (h : config.limits.maxModules < state.nodes.length + 1)
      (hunseen : Unseen config stack site state) :
      Refusal config stack frame site state w
        (limitFailure GraphCode.tooManyModules frame site config.limits.maxModules
          (state.nodes.length + 1)) w
  | unreadable {w w₁ : ω} {error : SourceReadError}
      (hrequested : Requested config stack frame site state)
      (hread : (config.provider.readDependency site.moduleName).run w = (.error error, w₁))
      (h : ∀ name, error ≠ .notFound name) :
      Refusal config stack frame site state w (dependencyReadFailure frame site error) w₁
  | missing {w w₁ w₂ : ω} {name : ModuleName} {error : SourceReadError}
      (hrequested : Requested config stack frame site state)
      (hread : (config.provider.readDependency site.moduleName).run w =
        (.error (.notFound name), w₁))
      (hcatalog : (config.provider.resolveStandard site.moduleName).run w₁ = (.error error, w₂)) :
      Refusal config stack frame site state w (missingModule frame site error.message) w₂
  | unsupplied {w w₁ w₂ : ω} {name : ModuleName} {standard : StandardModule}
      (hrequested : Requested config stack frame site state)
      (hread : (config.provider.readDependency site.moduleName).run w =
        (.error (.notFound name), w₁))
      (hcatalog : (config.provider.resolveStandard site.moduleName).run w₁ = (.ok standard, w₂))
      (h : standard.kind = .filesystemSupplied) :
      Refusal config stack frame site state w (missingModule frame site
        "the pinned catalog requires a captured source for this module") w₂
  | inconsistent {w w₁ : ω} {unit : SourceUnit}
      (hrequested : Requested config stack frame site state)
      (hread : (config.provider.readDependency site.moduleName).run w = (.ok unit, w₁))
      (h : unit.consistent config.digestHex = false) :
      Refusal config stack frame site state w
        (inconsistentCapture frame site "captured bytes and digest disagree") w₁
  | unparsed {w w₁ w₂ : ω} {unit : SourceUnit} {outcome : ParseOutcome}
      (hrequested : Requested config stack frame site state)
      (hread : (config.provider.readDependency site.moduleName).run w = (.ok unit, w₁))
      (hconsistent : unit.consistent config.digestHex = true)
      (hparse : (config.parse unit).run w₁ = (outcome, w₂)) (h : outcome.succeeded = false) :
      Refusal config stack frame site state w
        (unparsedFailure (ownerLocation frame.owner frame.logicalPath site.range) outcome) w₂
  | recaptured {w w₁ w₂ : ω} {unit : SourceUnit} {parsed : ParsedModule} {original : ModuleNode}
      (hrequested : Requested config stack frame site state)
      (hread : (config.provider.readDependency site.moduleName).run w = (.ok unit, w₁))
      (hparses : Parses config unit parsed w₁ w₂)
      (h : state.nodes.find? (fun node => node.name == parsed.name) = some original) :
      Refusal config stack frame site state w
        (duplicateModule frame site parsed.name (alreadyCaptured parsed.name original)) w₂
  | repinned {w w₁ w₂ : ω} {unit : SourceUnit} {parsed : ParsedModule}
      (hrequested : Requested config stack frame site state)
      (hread : (config.provider.readDependency site.moduleName).run w = (.ok unit, w₁))
      (hparses : Parses config unit parsed w₁ w₂)
      (hnew : ∀ node ∈ state.nodes, node.name ≠ parsed.name)
      (h : ∃ standard ∈ state.standardModules, standard.name = parsed.name) :
      Refusal config stack frame site state w
        (duplicateModule frame site parsed.name (alreadyPinned parsed.name)) w₂
  | misnamed {w w₁ w₂ : ω} {unit : SourceUnit} {parsed : ParsedModule}
      (hrequested : Requested config stack frame site state)
      (hread : (config.provider.readDependency site.moduleName).run w = (.ok unit, w₁))
      (hparses : Parses config unit parsed w₁ w₂) (h : parsed.name ≠ site.moduleName)
      (hnew : ∀ node ∈ state.nodes, node.name ≠ parsed.name)
      (hunpinned : ∀ standard ∈ state.standardModules, standard.name ≠ parsed.name) :
      Refusal config stack frame site state w
        (dependencyHeaderMismatch frame site unit parsed.name) w₂

def captured (state : ResolverState) (frame : Frame) (site : DependencyDeclaration)
    (unit : SourceUnit) (parsed : ParsedModule) : ResolverState :=
  recordEdge { state with nodes := state.nodes ++ [captureNode unit parsed] } frame site
    frame.next .localSource

def pinned (state : ResolverState) (frame : Frame) (site : DependencyDeclaration)
    (standard : StandardModule) : ResolverState :=
  recordEdge { state with standardModules := state.standardModules ++ [standard] } frame site
    frame.next .standardCatalog

def entered (frame : Frame) (site : DependencyDeclaration) (unit : SourceUnit)
    (parsed : ParsedModule) : Frame :=
  openFrame unit parsed (frame.depth + 1) (some (frame.owner, frame.logicalPath, site.range))

/-- What a site that is not refused does. -/
inductive Visit (config : ResolverConfig ω) (stack : List Frame) (frame : Frame)
    (site : DependencyDeclaration) (state : ResolverState) : ω → Advance → ω → Prop
  | reuse {w : ω} (hedges : state.edges.length + 1 ≤ config.limits.maxDependencyEdges)
      (hpath : ∀ entry ∈ stack, entry.owner ≠ site.moduleName)
      (hseen : ∃ node ∈ state.nodes, node.name = site.moduleName) :
      Visit config stack frame site state w
        { state := recordEdge state frame site frame.next .localSource } w
  | reusePinned {w : ω} (hedges : state.edges.length + 1 ≤ config.limits.maxDependencyEdges)
      (hnew : ∀ node ∈ state.nodes, node.name ≠ site.moduleName)
      (hseen : ∃ standard ∈ state.standardModules, standard.name = site.moduleName) :
      Visit config stack frame site state w
        { state := recordEdge state frame site frame.next .standardCatalog } w
  | pin {w w₁ w₂ : ω} {name : ModuleName} {standard : StandardModule}
      (hrequested : Requested config stack frame site state)
      (hread : (config.provider.readDependency site.moduleName).run w =
        (.error (.notFound name), w₁))
      (hcatalog : (config.provider.resolveStandard site.moduleName).run w₁ = (.ok standard, w₂))
      (hkind : standard.kind ≠ .filesystemSupplied) :
      Visit config stack frame site state w { state := pinned state frame site standard } w₂
  | capture {w w₁ w₂ : ω} {unit : SourceUnit} {parsed : ParsedModule}
      (hrequested : Requested config stack frame site state)
      (hread : (config.provider.readDependency site.moduleName).run w = (.ok unit, w₁))
      (hparses : Parses config unit parsed w₁ w₂) (hname : parsed.name = site.moduleName) :
      Visit config stack frame site state w
        { state := captured state frame site unit parsed
          frame := some (entered frame site unit parsed) } w₂

def Visited (config : ResolverConfig ω) (stack : List Frame) (frame : Frame)
    (site : DependencyDeclaration) (state : ResolverState) (w : ω) :
    Except ResolverFailure Advance × ω → Prop
  | (.ok advance, w') => Visit config stack frame site state w advance w'
  | (.error failure, w') => Refusal config stack frame site state w failure w'

theorem find?_nodes_eq_none_iff {name : ModuleName} :
    state.nodes.find? (fun node => node.name == name) = none ↔
      ∀ node ∈ state.nodes, node.name ≠ name := by
  rw [List.find?_eq_none]
  simp only [beq_iff_eq]

theorem adoptParsed_eq (hrequested : Requested config stack frame site state) {unit : SourceUnit}
    {parsed : ParsedModule} (hname : parsed.name = site.moduleName) :
    adoptParsed frame site frame.next state (frame.depth + 1) unit parsed =
      .ok { state := captured state frame site unit parsed
            frame := some (entered frame site unit parsed) } := by
  have hnodes : state.nodes.find? (fun node => node.name == parsed.name) = none := by
    rw [hname]
    exact find?_nodes_eq_none_iff.mpr hrequested.uncaptured
  have hstandard : state.standardModules.any (fun standard => standard.name == parsed.name) =
      false := by
    rw [hname, List.any_eq_false]
    exact fun standard hmem heq => hrequested.unpinned standard hmem (eq_of_beq heq)
  unfold adoptParsed
  simp only [hnodes, hstandard]
  rw [if_neg Bool.false_ne_true, if_neg (by simp [hname])]
  rfl

theorem visited_misnamed (hrequested : Requested config stack frame site state)
    {unit : SourceUnit} {parsed : ParsedModule} {w₁ w₂ : ω}
    (hread : (config.provider.readDependency site.moduleName).run w = (.ok unit, w₁))
    (hparses : Parses config unit parsed w₁ w₂) (hname : parsed.name ≠ site.moduleName) :
    Visited config stack frame site state w
      (adoptParsed frame site frame.next state (frame.depth + 1) unit parsed, w₂) := by
  unfold adoptParsed
  dsimp only
  cases horiginal : state.nodes.find? (fun node => node.name == parsed.name) with
  | some original => exact .recaptured hrequested hread hparses horiginal
  | none =>
    have hnew := find?_nodes_eq_none_iff.mp horiginal
    dsimp only
    by_cases hpinned : (state.standardModules.any fun standard => standard.name == parsed.name) =
        true
    · rw [if_pos hpinned]
      obtain ⟨standard, hstandard, heq⟩ := List.any_eq_true.mp hpinned
      exact .repinned hrequested hread hparses hnew ⟨standard, hstandard, eq_of_beq heq⟩
    · rw [if_neg hpinned, if_pos (bne_iff_ne.mpr hname)]
      exact .misnamed hrequested hread hparses hname hnew fun standard hstandard heq =>
        hpinned (List.any_eq_true.mpr ⟨standard, hstandard, beq_iff_eq.mpr heq⟩)

theorem unparsedFailure_of_errors {location : SourceLocation} {outcome : ParseOutcome}
    (h : outcome.hasErrors = true) :
    unparsedFailure location outcome = parseFailure location outcome.diagnostics := if_pos h

theorem unparsedFailure_of_not_errors {location : SourceLocation} {outcome : ParseOutcome}
    (h : ¬ outcome.hasErrors = true) :
    unparsedFailure location outcome = parseOutcomeFailure location := if_neg h

theorem visited_adopt (hrequested : Requested config stack frame site state) {unit : SourceUnit}
    {w₁ : ω} (hread : (config.provider.readDependency site.moduleName).run w = (.ok unit, w₁)) :
    Visited config stack frame site state w
      ((adopt config frame site frame.next state (frame.depth + 1) unit).run w₁) := by
  unfold adopt
  by_cases hconsistent : unit.consistent config.digestHex = true
  · rw [if_neg (by simp [hconsistent])]
    rcases hparse : (config.parse unit).run w₁ with ⟨outcome, w₂⟩
    rw [run_bind_of hparse]
    by_cases herrors : outcome.hasErrors = true
    · rw [if_pos herrors, ← unparsedFailure_of_errors herrors]
      exact .unparsed hrequested hread hconsistent hparse (by simp [ParseOutcome.succeeded, herrors])
    · rw [if_neg herrors]
      rcases hmodule : outcome.module? with - | parsed
      · dsimp only
        rw [← unparsedFailure_of_not_errors herrors]
        exact .unparsed hrequested hread hconsistent hparse
          (by simp [ParseOutcome.succeeded, hmodule])
      · have hparses : Parses config unit parsed w₁ w₂ :=
          ⟨hconsistent, outcome, hparse, by simpa using herrors, hmodule⟩
        by_cases hname : parsed.name = site.moduleName
        · simp only [adoptParsed_eq hrequested hname]
          exact .capture hrequested hread hparses hname
        · exact visited_misnamed hrequested hread hparses hname
  · rw [if_pos (by simp [hconsistent])]
    exact .inconsistent hrequested hread (by simpa using hconsistent)

theorem visited_resolveStandard (hrequested : Requested config stack frame site state)
    {w₁ : ω} {name : ModuleName}
    (hread : (config.provider.readDependency site.moduleName).run w =
      (.error (.notFound name), w₁)) :
    Visited config stack frame site state w
      ((resolveStandard config frame site frame.next state).run w₁) := by
  unfold resolveStandard
  rcases hcatalog : (config.provider.resolveStandard site.moduleName).run w₁ with
    ⟨error | standard, w₂⟩
  · rw [run_bind_of hcatalog]
    exact .missing hrequested hread hcatalog
  · rw [run_bind_of hcatalog]
    by_cases hkind : standard.kind = .filesystemSupplied
    · simp only [hkind, beq_self_eq_true]
      exact .unsupplied hrequested hread hcatalog hkind
    · dsimp only
      rw [if_neg (by simpa using hkind)]
      exact .pin hrequested hread hcatalog hkind

theorem visited_requestDependency (hrequested : Requested config stack frame site state) :
    Visited config stack frame site state w
      ((requestDependency config frame site frame.next state (frame.depth + 1)).run w) := by
  unfold requestDependency
  rcases hread : (config.provider.readDependency site.moduleName).run w with ⟨error | unit, w₁⟩
  · rw [run_bind_of hread]
    cases error with
    | notFound name => exact visited_resolveStandard hrequested hread
    | _ => exact .unreadable hrequested hread (fun name h => by cases h)
  · rw [run_bind_of hread]
    exact visited_adopt hrequested hread

theorem visited_resolveDependency :
    Visited config stack frame site state w
      ((resolveDependency config stack frame site state).run w) := by
  unfold resolveDependency
  dsimp only
  split_ifs with hedges hpath hseen hpinned hdepth hmodules
  · exact .tooManyEdges hedges
  · obtain ⟨entry, hentry, howner⟩ := List.any_eq_true.mp hpath
    exact .cycle (Nat.le_of_not_lt hedges) ⟨entry, hentry, eq_of_beq howner⟩
  all_goals
    have hoff : ∀ entry ∈ stack, entry.owner ≠ site.moduleName := fun entry hentry howner =>
      hpath (List.any_eq_true.mpr ⟨entry, hentry, beq_iff_eq.mpr howner⟩)
  · obtain ⟨node, hnode⟩ := Option.isSome_iff_exists.mp hseen
    exact .reuse (Nat.le_of_not_lt hedges) hoff
      ⟨node, List.mem_of_find?_eq_some hnode, by simpa using List.find?_some hnode⟩
  all_goals
    have hnew : ∀ node ∈ state.nodes, node.name ≠ site.moduleName :=
      find?_nodes_eq_none_iff.mp (by simpa using hseen)
  · obtain ⟨standard, hstandard, hname⟩ := List.any_eq_true.mp hpinned
    exact .reusePinned (Nat.le_of_not_lt hedges) hnew ⟨standard, hstandard, eq_of_beq hname⟩
  all_goals
    have hunseen : Unseen config stack site state :=
      ⟨Nat.le_of_not_lt hedges, hoff, hnew, fun standard hstandard hname =>
        hpinned (List.any_eq_true.mpr ⟨standard, hstandard, beq_iff_eq.mpr hname⟩)⟩
  · exact .tooDeep hdepth hunseen
  · exact .tooManyModules hmodules hunseen
  · exact visited_requestDependency
      ⟨hunseen, Nat.le_of_not_lt hdepth, Nat.le_of_not_lt hmodules⟩

/-! ### Turns of the loop -/

structure Walk (ω : Type) where
  stack : List Frame
  state : ResolverState
  world : ω

def Frame.advanced (frame : Frame) : Frame := { frame with next := frame.next + 1 }

inductive Turn (config : ResolverConfig ω) : Walk ω → Walk ω → Prop
  | close {frame : Frame} {rest : List Frame} {state : ResolverState} {w : ω}
      (hdone : frame.sites[frame.next]? = none) :
      Turn config ⟨frame :: rest, state, w⟩ ⟨rest, state, w⟩
  | visit {frame : Frame} {rest : List Frame} {state : ResolverState} {w w' : ω}
      {site : DependencyDeclaration} {advance : Advance}
      (hsite : frame.sites[frame.next]? = some site)
      (hvisit : Visit config (frame :: rest) frame site state w advance w') :
      Turn config ⟨frame :: rest, state, w⟩
        ⟨advance.frame.toList ++ frame.advanced :: rest, advance.state, w'⟩

abbrev Turns (config : ResolverConfig ω) : Walk ω → Walk ω → Prop :=
  Relation.ReflTransGen (Turn config)

/-- A turn that ends the loop with a failure. -/
inductive Stops (config : ResolverConfig ω) : Walk ω → ResolverFailure → ω → Prop
  | refused {frame : Frame} {rest : List Frame} {state : ResolverState} {w w' : ω}
      {site : DependencyDeclaration} {failure : ResolverFailure}
      (hsite : frame.sites[frame.next]? = some site)
      (hrefusal : Refusal config (frame :: rest) frame site state w failure w') :
      Stops config ⟨frame :: rest, state, w⟩ failure w'

/-- What the turns still to come may use up. -/
def potential (limits : ResolverLimits) (walk : Walk ω) : Nat :=
  (limits.maxDependencyEdges - walk.state.edges.length) +
    (limits.maxModules - walk.state.nodes.length) + walk.stack.length

theorem recordEdge_nodes {index : Nat} {resolution : DependencyResolution} :
    (recordEdge state frame site index resolution).nodes = state.nodes := rfl

theorem length_recordEdge_edges {index : Nat} {resolution : DependencyResolution} :
    (recordEdge state frame site index resolution).edges.length = state.edges.length + 1 :=
  List.length_append

theorem Turn.potential_lt {a b : Walk ω} (h : Turn config a b) :
    potential config.limits b < potential config.limits a := by
  cases h with
  | close hdone =>
    simp only [potential, List.length_cons]
    omega
  | visit hsite hvisit =>
    cases hvisit with
    | reuse hedges =>
      simp only [potential, length_recordEdge_edges, recordEdge_nodes, Option.toList_none,
        List.nil_append, List.length_cons]
      omega
    | reusePinned hedges =>
      simp only [potential, length_recordEdge_edges, recordEdge_nodes, Option.toList_none,
        List.nil_append, List.length_cons]
      omega
    | pin hrequested =>
      have hedges := hrequested.edges
      simp only [potential, pinned, length_recordEdge_edges, recordEdge_nodes,
        Option.toList_none, List.nil_append, List.length_cons]
      omega
    | capture hrequested =>
      have hedges := hrequested.edges
      have hmodules := hrequested.modules
      simp only [potential, captured, length_recordEdge_edges, recordEdge_nodes,
        Option.toList_some, List.length_append, List.length_cons, List.length_nil]
      omega

def Ends (config : ResolverConfig ω) (start : Walk ω) :
    Except ResolverFailure ResolverState × ω → Prop
  | (.ok final, w') => Turns config start ⟨[], final, w'⟩
  | (.error failure, w') => ∃ walk, Turns config start walk ∧ Stops config walk failure w'

theorem Turn.ends {a b : Walk ω} (h : Turn config a b)
    {result : Except ResolverFailure ResolverState × ω} (hends : Ends config b result) :
    Ends config a result := by
  rcases result with ⟨failure | final, w'⟩
  · obtain ⟨walk, hturns, hstops⟩ := hends
    exact ⟨walk, Relation.ReflTransGen.head h hturns, hstops⟩
  · exact Relation.ReflTransGen.head h hends

theorem ends_loop {fuel : Nat} {stack : List Frame} {state : ResolverState} {w : ω}
    (h : potential config.limits ⟨stack, state, w⟩ < fuel) :
    Ends config ⟨stack, state, w⟩ ((loop config fuel stack state).run w) := by
  induction fuel generalizing stack state w with
  | zero => exact absurd h (Nat.not_lt_zero _)
  | succ budget ih =>
    rcases stack with - | ⟨frame, rest⟩
    · exact Relation.ReflTransGen.refl
    · unfold loop
      rcases hsite : frame.sites[frame.next]? with - | site
      · have hturn : Turn config ⟨frame :: rest, state, w⟩ ⟨rest, state, w⟩ := .close hsite
        exact hturn.ends (ih (Nat.lt_of_lt_of_le hturn.potential_lt (Nat.le_of_lt_succ h)))
      · have hvisited : Visited config (frame :: rest) frame site state w _ :=
          visited_resolveDependency
        dsimp only
        rcases hrun : (resolveDependency config (frame :: rest) frame site state).run w with
          ⟨failure | advance, w'⟩
        · rw [hrun] at hvisited
          rw [run_bind_of hrun]
          exact ⟨_, .refl, .refused hsite hvisited⟩
        · rw [hrun] at hvisited
          rw [run_bind_of hrun]
          have hturn : Turn config ⟨frame :: rest, state, w⟩
              ⟨advance.frame.toList ++ frame.advanced :: rest, advance.state, w'⟩ :=
            .visit hsite hvisited
          have hless := Nat.lt_of_lt_of_le hturn.potential_lt (Nat.le_of_lt_succ h)
          rcases hframe : advance.frame with - | opened
          · rw [hframe] at hturn hless
            simp only [hframe]
            exact hturn.ends (ih hless)
          · rw [hframe] at hturn hless
            simp only [hframe]
            exact hturn.ends (ih hless)

/-- Work beyond the potential changes nothing. -/
theorem loop_eq_of_potential_lt {fuel fuel' : Nat} {stack : List Frame} {state : ResolverState}
    {w : ω} (h : potential config.limits ⟨stack, state, w⟩ < fuel)
    (h' : potential config.limits ⟨stack, state, w⟩ < fuel') :
    (loop config fuel stack state).run w = (loop config fuel' stack state).run w := by
  induction fuel generalizing fuel' stack state w with
  | zero => exact absurd h (Nat.not_lt_zero _)
  | succ budget ih =>
    rcases fuel' with - | budget'
    · exact absurd h' (Nat.not_lt_zero _)
    rcases stack with - | ⟨frame, rest⟩
    · rfl
    · have hnext : ∀ b : Walk ω, Turn config ⟨frame :: rest, state, w⟩ b →
          (loop config budget b.stack b.state).run b.world =
            (loop config budget' b.stack b.state).run b.world := fun b hturn =>
        ih (Nat.lt_of_lt_of_le hturn.potential_lt (Nat.le_of_lt_succ h))
          (Nat.lt_of_lt_of_le hturn.potential_lt (Nat.le_of_lt_succ h'))
      unfold loop
      rcases hsite : frame.sites[frame.next]? with - | site
      · exact hnext _ (.close hsite)
      · have hvisited : Visited config (frame :: rest) frame site state w _ :=
          visited_resolveDependency
        dsimp only
        rcases hrun : (resolveDependency config (frame :: rest) frame site state).run w with
          ⟨failure | advance, w'⟩
        · rw [run_bind_of hrun, run_bind_of hrun]
        · rw [hrun] at hvisited
          rw [run_bind_of hrun, run_bind_of hrun]
          have hturn := hnext _ (.visit hsite hvisited)
          rcases hframe : advance.frame with - | opened
          · rw [hframe] at hturn
            simp only [hframe]
            exact hturn
          · rw [hframe] at hturn
            simp only [hframe]
            exact hturn

/-! ### The search that the turns perform -/

def capturedEdge (edge : ModuleEdge) : Bool := edge.resolution == .localSource

def edgeEnds (edges : List ModuleEdge) : List (ModuleName × ModuleName) :=
  (edges.filter capturedEdge).map fun edge => (edge.owner, edge.dependency)

def Walk.search (walk : Walk ω) : Search ModuleName :=
  { opened := walk.stack.map Frame.owner
    seen := walk.state.nodes.map ModuleNode.name
    edges := edgeEnds walk.state.edges }

theorem edgeEnds_record_local {index : Nat} :
    edgeEnds (recordEdge state frame site index .localSource).edges =
      edgeEnds state.edges ++ [(frame.owner, site.moduleName)] := by
  simp [edgeEnds, recordEdge, capturedEdge]

theorem edgeEnds_record_standard {index : Nat} :
    edgeEnds (recordEdge state frame site index .standardCatalog).edges =
      edgeEnds state.edges := by
  simp [edgeEnds, recordEdge, capturedEdge]

theorem mem_edgeEnds {edges : List ModuleEdge} {owner dependency : ModuleName} :
    (owner, dependency) ∈ edgeEnds edges ↔
      ∃ edge ∈ edges, edge.resolution = .localSource ∧ edge.owner = owner ∧
        edge.dependency = dependency := by
  simp only [edgeEnds, capturedEdge, List.mem_map, List.mem_filter, beq_iff_eq, Prod.mk.injEq,
    and_assoc]

theorem Turn.search {a b : Walk ω} (h : Turn config a b) :
    Relation.ReflTransGen Search.Step a.search b.search := by
  cases h with
  | close hdone => exact .single .close
  | @visit frame rest state w w' site advance hsite hvisit =>
    cases hvisit with
    | reuse hedges hpath hseen =>
      have hopen : site.moduleName ∉ frame.owner :: rest.map Frame.owner := fun hmem => by
        obtain ⟨entry, hentry, howner⟩ := List.mem_map.mp (List.map_cons ▸ hmem)
        exact hpath entry hentry howner
      obtain ⟨node, hnode, hname⟩ := hseen
      refine .single ?_
      simp only [Walk.search, edgeEnds_record_local, Option.toList_none, List.nil_append,
        List.map_cons, recordEdge_nodes]
      exact .reuse (hname ▸ List.mem_map_of_mem hnode) hopen
    | reusePinned =>
      simp only [Walk.search, edgeEnds_record_standard, Option.toList_none, List.nil_append,
        List.map_cons, recordEdge_nodes]
      exact .refl
    | pin =>
      simp only [Walk.search, pinned, edgeEnds_record_standard, Option.toList_none,
        List.nil_append, List.map_cons, recordEdge_nodes]
      exact .refl
    | @capture w₁ w₂ unit parsed hrequested hread hparses hname =>
      have hfresh : site.moduleName ∉ state.nodes.map ModuleNode.name := fun hmem => by
        obtain ⟨node, hnode, hsame⟩ := List.mem_map.mp hmem
        exact hrequested.uncaptured node hnode hsame
      refine .single ?_
      simp only [Walk.search, captured, edgeEnds_record_local, Option.toList_some,
        List.singleton_append, List.map_cons, recordEdge_nodes, List.map_append, List.map_nil]
      rw [show (entered frame site unit parsed).owner = site.moduleName from hname,
        show (captureNode unit parsed).name = site.moduleName from hname]
      exact .descend hfresh

theorem turns_search {a b : Walk ω} (h : Turns config a b) :
    Relation.ReflTransGen Search.Step a.search b.search := by
  induction h with
  | refl => exact .refl
  | tail _ hturn ih => exact ih.trans hturn.search

end MirrorsCore.Tla.Resolver
