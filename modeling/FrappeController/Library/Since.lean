import Mathlib.Tactic.Common

/-!
# Past-time properties of a history

A history is the list of its events, the newest last. `Since p q` holds of a history in which an
event with `p` has occurred and none with `q` has followed it; either may look at the history before
the event. A loop that keeps such a fact in a variable is verified event by event (`since_snoc`).
-/

variable {α : Type}

/-- An event with `p`, followed by no event with `q`. -/
inductive Since (p q : List α → α → Prop) : List α → Prop
  | now {past : List α} {e : α} : p past e → Since p q (past ++ [e])
  | later {past : List α} {e : α} : Since p q past → ¬ q past e → Since p q (past ++ [e])

namespace Since

variable {p p' q q' : List α → α → Prop} {past : List α} {e : α}

@[simp] theorem not_nil : ¬ Since p q [] := by
  intro h
  generalize hpast : ([] : List α) = past at h
  cases h with
  | now => exact absurd hpast.symm (List.append_ne_nil_of_right_ne_nil _ (List.cons_ne_nil _ _))
  | later => exact absurd hpast.symm (List.append_ne_nil_of_right_ne_nil _ (List.cons_ne_nil _ _))

/-- What one more event changes. -/
theorem since_snoc : Since p q (past ++ [e]) ↔ p past e ∨ Since p q past ∧ ¬ q past e := by
  constructor
  · intro h
    generalize hhistory : past ++ [e] = history at h
    cases h with
    | now hp =>
      obtain ⟨hpast, he⟩ := List.append_inj' hhistory rfl
      rw [hpast, List.singleton_inj.mp he]
      exact .inl hp
    | later hsince hq =>
      obtain ⟨hpast, he⟩ := List.append_inj' hhistory rfl
      rw [hpast, List.singleton_inj.mp he]
      exact .inr ⟨hsince, hq⟩
  · intro h
    rcases h with hp | ⟨hsince, hq⟩
    · exact .now hp
    · exact .later hsince hq

theorem mono (hp : ∀ past e, p past e → p' past e) (hq : ∀ past e, q' past e → q past e)
    {history : List α} (h : Since p q history) : Since p' q' history := by
  induction h with
  | now he => exact .now (hp _ _ he)
  | later _ hne ih => exact .later ih fun he => hne (hq _ _ he)

/-- One event at most is the last one of a kind: two facts that each end the other agree. -/
theorem agree {ι : Type} {P Q : ι → List α → α → Prop}
    (hends : ∀ i past e, P i past e → ∀ j, Q j past e)
    (hone : ∀ i j past e, P i past e → P j past e → i = j) {history : List α} {i j : ι}
    (hi : Since (P i) (Q i) history) (hj : Since (P j) (Q j) history) : i = j := by
  induction hi with
  | @now past e he =>
    rcases since_snoc.mp hj with he' | ⟨-, hne⟩
    · exact hone i j past e he he'
    · exact absurd (hends i past e he j) hne
  | @later past e _ hne ih =>
    rcases since_snoc.mp hj with he' | ⟨hbefore, -⟩
    · exact absurd (hends j past e he' i) hne
    · exact ih hbefore

end Since
