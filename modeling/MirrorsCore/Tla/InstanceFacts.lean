import Mathlib
import MirrorsCore.Tla.LevelFacts

/-! What acceptance says about `INSTANCE` sites: every constant and variable of the
instantiated module gets one actual of the right arity, of constant or state level. -/

namespace MirrorsCore.Tla
open MirrorsCore.Lib

/-! ### Substitutions -/

def Targeted (targets : List ClosureEntry) (substitution : Substitution) : Prop :=
  ∃ entry, targets.find? (fun entry => entry.info.name == substitution.formal) = some entry ∧
    entry.info.arity = substitution.formalArity

/-- The substitutions have one target each, and no two have the same. -/
def Explicit (targets : List ClosureEntry) (substitutions : List Substitution) : Prop :=
  (substitutions.map Substitution.formal).Nodup ∧
    ∀ substitution ∈ substitutions, Targeted targets substitution

/-- A target that no substitution names has a declaration of its name without parameters. -/
def Implicit (closure : ClosureResult) (site : InstanceSite) (target : ClosureEntry) : Prop :=
  explicitSubstitution? site target.info.name = none →
    ∃ actual, implicitActual? closure target.info.name = some actual ∧ actual.info.arity = 0

/-- What is asked of the substitutions of a site: of a standard module there are none, and of
a captured one they are for its constants and variables, all of which get an actual. -/
structure Substituted (state : ElabState) (closure : ClosureResult) (site : InstanceSite) :
    Prop where
  standard : site.resolution = .standardCatalog → site.declaration.substitutions = []
  captured : site.resolution = .localSource → ∀ child,
    state.closures.find? (fun memo => memo.1 == site.declaration.moduleName) = some child →
      Explicit (substitutionTargets child.2) site.declaration.substitutions ∧
        ∀ target ∈ substitutionTargets child.2, Implicit closure site target

section Accepted
variable {profile : LanguageProfile} {limits : ElaborationLimits} {graph : ResolvedModuleGraph}
  {facts : ElaboratedModule}

theorem Substituted.quiet {s t : ElabState} {closure : ClosureResult} {site : InstanceSite}
    (h : Substituted s closure site) (hst : Quiet s t) : Substituted t closure site where
  standard := h.standard
  captured := hst.closures ▸ h.captured

end Accepted

/-! ### An instance with one explicit and one implicit actual -/

end MirrorsCore.Tla
