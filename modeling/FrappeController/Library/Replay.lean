import Mathlib.Tactic.Common

/-!
# Resubmissions, remembered in full or by the newest

Two stores accept items one after the other. One remembers the newest item it accepted, the
other all of them, and each has its own rule for what is new. `step_iff` says which next item
the two answer alike and take a resubmission for one; `advancing_remember`, that after it they
still hold the same items.
-/

namespace Replay

variable {α : Type} [DecidableEq α]

/-- The rule for a new item: acceptable on its own, and after the newest one. -/
structure Rule (α : Type) where
  valid : α → Bool
  follows : α → α → Bool

/-- The rule on a new item, after the items accepted before, newest first. -/
def Rule.admits (rule : Rule α) (accepted : List α) (x : α) : Bool :=
  rule.valid x && (accepted.head?.map (rule.follows · x)).getD true

/-- The answer of the store that remembers the newest item. -/
def answerNewest (rule : Rule α) (accepted : List α) (x : α) : Bool :=
  accepted.head? == some x || rule.admits accepted x

/-- The answer of the store that remembers every item; it checks a repetition too. -/
def answerSeen (rule : Rule α) (accepted : List α) (x : α) : Bool :=
  rule.valid x && (accepted.contains x || (accepted.head?.map (rule.follows · x)).getD true)

/-- The items accepted after another one was submitted. -/
def remember (rule : Rule α) (accepted : List α) (x : α) : List α :=
  if accepted.head? ≠ some x ∧ rule.admits accepted x = true then x :: accepted else accepted

section Answers

variable {rule : Rule α} {accepted : List α} {x : α}

theorem answerNewest_of_head (h : accepted.head? = some x) :
    answerNewest rule accepted x = true ∧ remember rule accepted x = accepted := by
  simp [answerNewest, remember, h]

theorem answerNewest_of_ne (h : accepted.head? ≠ some x) :
    answerNewest rule accepted x = rule.admits accepted x ∧ remember rule accepted x =
      if rule.admits accepted x = true then x :: accepted else accepted := by
  have hother : (accepted.head? == some x) = false := by simpa using h
  simp [answerNewest, remember, h, hother]

theorem answerSeen_of_mem (h : x ∈ accepted) : answerSeen rule accepted x = rule.valid x := by
  simp [answerSeen, h]

theorem answerSeen_of_notMem (h : x ∉ accepted) :
    answerSeen rule accepted x = rule.admits accepted x := by
  simp [answerSeen, Rule.admits, h]

end Answers

variable (newest seen : Rule α)

/-- An item both stores treat alike: the newest one again, or one not accepted before that both
rules admit or neither does. -/
def Harmless (accepted : List α) (x : α) : Prop :=
  accepted.head? = some x ∨
    (x ∉ accepted ∧ newest.admits accepted x = seen.admits accepted x)

def AllHarmless : List α → List α → Prop
  | _, [] => True
  | accepted, x :: rest =>
    Harmless newest seen accepted x ∧ AllHarmless (remember newest accepted x) rest

variable {newest seen}

/-- What two stores that agreed so far have accepted. -/
structure Advancing (newest seen : Rule α) (accepted : List α) : Prop where
  valid : ∀ x ∈ accepted, seen.valid x = true
  follows : accepted.Pairwise fun newer older => newest.follows older newer = true

theorem advancing_remember {accepted : List α} (h : Advancing newest seen accepted)
    (htrans : ∀ {a b c}, newest.follows a b = true → newest.follows b c = true →
      newest.follows a c = true) {x : α} (hx : Harmless newest seen accepted x) :
    Advancing newest seen (remember newest accepted x) := by
  unfold remember
  split
  · rename_i hnew
    obtain ⟨hlast, hadmits⟩ := hnew
    have hseen : seen.admits accepted x = true :=
      (hx.resolve_left hlast).2 ▸ hadmits
    simp only [Rule.admits, Bool.and_eq_true] at hseen hadmits
    refine ⟨List.forall_mem_cons.mpr ⟨hseen.1, h.valid⟩, List.pairwise_cons.mpr ⟨?_, h.follows⟩⟩
    intro older holder
    cases accepted with
    | nil => cases holder
    | cons last earlier =>
      have hfollows : newest.follows last x = true := by simpa using hadmits.2
      rcases List.mem_cons.mp holder with rfl | holder
      · exact hfollows
      · exact htrans ((List.pairwise_cons.mp h.follows).1 older holder) hfollows
  · exact h

section Ranked

variable {rank : α → ℕ}
  (hrank : ∀ {older newer}, newest.follows older newer = true → rank older < rank newer)
include hrank

omit [DecidableEq α] in
/-- An older item does not follow the newest. -/
theorem not_admits_of_mem {accepted : List α} (h : Advancing newest seen accepted) {x : α}
    (hx : x ∈ accepted) : newest.admits accepted x = false := by
  cases accepted with
  | nil => cases hx
  | cons last earlier =>
    have hle : rank x ≤ rank last := by
      rcases List.mem_cons.mp hx with rfl | hx
      · exact Nat.le_refl _
      · exact Nat.le_of_lt (hrank ((List.pairwise_cons.mp h.follows).1 x hx))
    have hnot : newest.follows last x = false := by
      by_contra hfollows
      have hlt := hrank (Bool.not_eq_false _ ▸ hfollows : newest.follows last x = true)
      omega
    simp [Rule.admits, hnot]

/-- One submission: the answers are as they should be exactly for a harmless item. -/
theorem step_iff {accepted : List α} (h : Advancing newest seen accepted) (x : α) :
    (answerNewest newest accepted x = answerSeen seen accepted x ∧
      (x ∈ accepted → answerNewest newest accepted x = true)) ↔
      Harmless newest seen accepted x := by
  unfold Harmless
  by_cases hlast : accepted.head? = some x
  · have hmem : x ∈ accepted := List.mem_of_mem_head? hlast
    simp [(answerNewest_of_head hlast).1, answerSeen_of_mem hmem, h.valid x hmem, hlast]
  · rw [(answerNewest_of_ne hlast).1]
    by_cases hmem : x ∈ accepted
    · simp [not_admits_of_mem hrank h hmem, hmem, hlast]
    · simp [answerSeen_of_notMem hmem, hmem, hlast]

end Ranked

end Replay
