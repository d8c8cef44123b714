import Mathlib.Tactic.Common

/-!
# Labelled runs

A transition system is a relation `step s l t`: label `l` takes `s` to `t`. A run
records its labels, so that a property of what happened earlier can be stated over it.
-/

variable {σ Λ : Type}

/-- `Run step s ls t`: the labels `ls`, taken in order, lead from `s` to `t`. -/
inductive Run (step : σ → Λ → σ → Prop) : σ → List Λ → σ → Prop
  | nil (s : σ) : Run step s [] s
  | snoc {s t u : σ} {ls : List Λ} {l : Λ} :
      Run step s ls t → step t l u → Run step s (ls ++ [l]) u

namespace Run

variable {step : σ → Λ → σ → Prop}

/-- An invariant of every step holds in every state a run reaches. -/
theorem invariant {I : σ → Prop} (hstep : ∀ s l t, I s → step s l t → I t) {s t : σ}
    {ls : List Λ} (hrun : Run step s ls t) (hs : I s) : I t := by
  induction hrun with
  | nil => exact hs
  | snoc _ hlast ih => exact hstep _ _ _ ih hlast

/-- A relation that is reflexive, transitive and contains every step from a state with
the invariant contains every run from such a state. -/
theorem relation {I : σ → Prop} {R : σ → σ → Prop} (hrefl : ∀ s, R s s)
    (htrans : ∀ s t u, R s t → R t u → R s u)
    (hinv : ∀ s l t, I s → step s l t → I t)
    (hstep : ∀ s l t, I s → step s l t → R s t) {s t : σ} {ls : List Λ}
    (hrun : Run step s ls t) (hs : I s) : R s t := by
  induction hrun with
  | nil => exact hrefl _
  | snoc hpre hlast ih =>
    exact htrans _ _ _ ih (hstep _ _ _ (invariant hinv hpre hs) hlast)

theorem single {s t : σ} {l : Λ} (h : step s l t) : Run step s [l] t :=
  snoc (nil s) h

theorem append {s t u : σ} {ls ms : List Λ} (h : Run step s ls t) (h' : Run step t ms u) :
    Run step s (ls ++ ms) u := by
  induction h' with
  | nil => simpa using h
  | snoc _ hlast ih =>
    rw [← List.append_assoc]
    exact snoc ih hlast

/-- Fewer steps are allowed, fewer runs exist. -/
theorem mono {step' : σ → Λ → σ → Prop} (h : ∀ s l t, step s l t → step' s l t) {s t : σ}
    {ls : List Λ} (hrun : Run step s ls t) : Run step' s ls t := by
  induction hrun with
  | nil => exact nil _
  | snoc _ hlast ih => exact snoc ih (h _ _ _ hlast)

/-- A view of the states that every step moves as some step of another system moves its own
states turns runs into runs of that system. -/
theorem project {σ' Λ' : Type} {step' : σ' → Λ' → σ' → Prop} {I : σ → Prop} (view : σ → σ')
    (hinv : ∀ s l t, I s → step s l t → I t)
    (hstep : ∀ s l t, I s → step s l t → ∃ l', step' (view s) l' (view t)) {s t : σ}
    {ls : List Λ} (hrun : Run step s ls t) (hs : I s) : ∃ ls', Run step' (view s) ls' (view t) := by
  induction hrun with
  | nil => exact ⟨[], nil _⟩
  | snoc hpre hlast ih =>
    obtain ⟨ls', hrun'⟩ := ih
    obtain ⟨l', hlast'⟩ := hstep _ _ _ (invariant hinv hpre hs) hlast
    exact ⟨ls' ++ [l'], snoc hrun' hlast'⟩

/-- A view of the states and labels that turns steps into steps turns runs into runs. -/
theorem map {σ' Λ' : Type} {step' : σ' → Λ' → σ' → Prop} {I : σ → Prop} (view : σ → σ')
    (event : Λ → Λ') (hinv : ∀ s l t, I s → step s l t → I t)
    (hstep : ∀ s l t, I s → step s l t → step' (view s) (event l) (view t)) {s t : σ} {ls : List Λ}
    (hrun : Run step s ls t) (hs : I s) : Run step' (view s) (ls.map event) (view t) := by
  induction hrun with
  | nil => exact nil _
  | snoc hpre hlast ih =>
    rw [List.map_append]
    exact snoc ih (hstep _ _ _ (invariant hinv hpre hs) hlast)

/-- A run whose labels all satisfy `P` is a run of the steps with such labels. -/
theorem restrict {P : Λ → Prop} {s t : σ} {ls : List Λ} (hrun : Run step s ls t)
    (hlabels : ∀ l ∈ ls, P l) : Run (fun s l t => step s l t ∧ P l) s ls t := by
  induction hrun with
  | nil => exact nil _
  | snoc _ hlast ih =>
    refine snoc (ih fun l hl => hlabels l (List.mem_append_left _ hl)) ⟨hlast, hlabels _ ?_⟩
    simp

/-- The run of a function that gives the next state, where there is one. -/
theorem of_foldlM {next : σ → Λ → Option σ} {s t : σ} {ls : List Λ}
    (h : ls.foldlM next s = some t) : Run (fun s l t => next s l = some t) s ls t := by
  induction ls generalizing s with
  | nil =>
    cases h
    exact nil _
  | cons l ls ih =>
    rw [List.foldlM_cons] at h
    obtain ⟨u, hfirst, hrest⟩ := Option.bind_eq_some_iff.mp h
    have hstep : Run (fun s l t => next s l = some t) s [l] u := single hfirst
    exact hstep.append (ih hrest)

end Run
