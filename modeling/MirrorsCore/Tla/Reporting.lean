import Mathlib
import MirrorsCore.Tla.EffectiveFacts

/-! Checks: stages that only report, and what they ask of the state that they read. -/

namespace MirrorsCore.Tla
open MirrorsCore.Lib

/-- A stage that reports nothing exactly if `P`, and that leaves the state as it is unless it
reports. -/
structure Asks {α : Type} (m : ElabM α) (P : ElabState → Prop) : Prop where
  quiet : Steps Quiet m
  still : ∀ {s : ElabState}, s.Sound → Silent (after m s) → after m s = s
  silent : ∀ {s : ElabState}, s.Sound → Silent s → (Silent (after m s) ↔ P s)

section Asks
variable {α β ι : Type} {m : ElabM α} {P Q : ElabState → Prop}

theorem Asks.congr (h : Asks m P) (hiff : ∀ s, P s ↔ Q s) : Asks m Q :=
  ⟨h.quiet, h.still, fun hs hsilent => (h.silent hs hsilent).trans (hiff _)⟩

theorem asks_pure (a : α) : Asks (pure a : ElabM α) fun _ => True :=
  ⟨steps_pure a, fun _ _ => rfl, fun _ hsilent => iff_of_true hsilent trivial⟩

theorem not_silent_after_report {diagnostic : Diagnostic}
    (h : diagnostic.hasErrorSeverity = true) {s : ElabState} (hs : s.Sound) :
    ¬ Silent (after (report diagnostic) s) := fun hsilent =>
  absurd ((hasErrors_report h hs).symm.trans hsilent) Bool.noConfusion

theorem asks_report {diagnostic : Diagnostic} (h : diagnostic.hasErrorSeverity = true) :
    Asks (report diagnostic) fun _ => False where
  quiet := quiet_report h
  still := fun hs hsilent => absurd hsilent (not_silent_after_report h hs)
  silent := fun hs _ => iff_of_false (not_silent_after_report h hs) id

theorem Asks.bind_value {f : α → ElabM β} {Q : α → ElabState → Prop} (hm : Asks m P)
    (hf : ∀ a, Asks (f a) (Q a)) : Asks (m >>= f) fun s => P s ∧ Q (value m s) s where
  quiet := Lib.Steps.bind hm.quiet fun a => (hf a).quiet
  still := by
    intro s hs hsilent
    rw [after_bind] at hsilent ⊢
    have hfirst := hm.still hs (((hf _).quiet _).toLater.silent hsilent)
    rw [hfirst] at hsilent ⊢
    exact (hf _).still hs hsilent
  silent := by
    intro s hs hsilent
    have hquiet := (hf (value m s)).quiet (after m s)
    rw [after_bind]
    constructor
    · intro hrest
      have hfirst := hquiet.toLater.silent hrest
      rw [hm.still hs hfirst] at hrest
      exact ⟨(hm.silent hs hsilent).mp hfirst, ((hf _).silent hs hsilent).mp hrest⟩
    · rintro ⟨hP, hQ⟩
      have hfirst := (hm.silent hs hsilent).mpr hP
      rw [hm.still hs hfirst]
      exact ((hf _).silent hs hsilent).mpr hQ

theorem Asks.bind {f : α → ElabM β} (hm : Asks m P) (hf : ∀ a, Asks (f a) Q) :
    Asks (m >>= f) fun s => P s ∧ Q s := hm.bind_value hf

theorem asks_get_bind {f : ElabState → ElabM α} {P : ElabState → ElabState → Prop}
    (h : ∀ state, Asks (f state) (P state)) : Asks (get >>= f) fun s => P s s :=
  ⟨steps_get_bind fun s => (h s).quiet s, fun {s} hs hsilent => (h s).still hs hsilent,
    fun {s} hs hsilent => (h s).silent hs hsilent⟩

theorem asks_forM {f : ι → ElabM PUnit} {P : ι → ElabState → Prop} (hf : ∀ x, Asks (f x) (P x))
    (xs : List ι) : Asks (xs.forM f) fun s => ∀ x ∈ xs, P x s := by
  induction xs with
  | nil =>
    apply (asks_pure _).congr
    simp
  | cons x xs ih =>
    rw [List.forM_eq_forM, List.forM_cons]
    have hboth := (hf x).bind fun _ => ih
    apply hboth.congr
    simp

theorem asks_reportIf {c : Prop} [Decidable c] {diagnostic : Diagnostic}
    (h : diagnostic.hasErrorSeverity = true) :
    Asks (if c then report diagnostic else pure ()) fun _ => ¬ c := by
  split
  · rename_i hc
    apply (asks_report h).congr
    simp [hc]
  · rename_i hc
    apply (asks_pure _).congr
    simp [hc]

end Asks

/-- A check that reports nothing only if `P`. -/
def Demands {α : Type} (m : ElabM α) (P : ElabState → Prop) : Prop :=
  ∃ Q, Asks m Q ∧ ∀ s, Q s → P s

section Demands
variable {α β ι : Type} {m : ElabM α} {P Q : ElabState → Prop}

theorem Demands.mono (h : Demands m P) (hPQ : ∀ s, P s → Q s) : Demands m Q := by
  obtain ⟨R, hasks, hR⟩ := h
  exact ⟨R, hasks, fun s hs => hPQ s (hR s hs)⟩

theorem Demands.bind {f : β → ElabM α} {m : ElabM β} (hm : Demands m P)
    (hf : ∀ b, Demands (f b) Q) : Demands (m >>= f) fun s => P s ∧ Q s := by
  obtain ⟨R, hasks, hR⟩ := hm
  choose R' hasks' hR' using hf
  exact ⟨_, hasks.bind_value hasks', fun s hs => ⟨hR s hs.1, hR' _ s hs.2⟩⟩

end Demands

/-! ### Assumptions and `ENABLED` -/

theorem asks_reportEnabledProblems (problems : List SourceLocation) :
    Asks (reportEnabledProblems problems) fun _ => problems = [] := by
  have heach : Asks (reportEnabledProblems problems) fun _ => ∀ location ∈ problems, False :=
    asks_forM (fun _ => asks_report rfl) problems
  exact heach.congr fun s => List.eq_nil_iff_forall_not_mem.symm

def ConstantAssumptions (s : ElabState) : Prop :=
  ∀ table ∈ s.tables, ∀ entry ∈ table.entries, entry.assumption?.isSome = true →
    (levelOf? s.levels entry.symbol).getD .constant = .constant

theorem asks_checkAssumption (levels : List (SymbolId × Level)) (table : ModuleTable)
    (entry : SymbolInfo) :
    Asks (checkAssumption levels table entry) fun _ => entry.assumption?.isSome = true →
      (levelOf? levels entry.symbol).getD .constant = .constant := by
  rw [checkAssumption]
  cases entry.assumption? with
  | none =>
    apply (asks_pure _).congr
    simp
  | some declaration =>
    apply (asks_reportIf rfl).congr
    simp

theorem asks_checkAssumptions : Asks checkAssumptions ConstantAssumptions :=
  asks_get_bind (P := fun state _ => ConstantAssumptions state) fun state =>
    asks_forM (fun table => asks_forM (asks_checkAssumption state.levels table) table.entries)
      state.tables

end MirrorsCore.Tla
