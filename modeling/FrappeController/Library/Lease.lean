import Mathlib.Order.Basic
import FrappeController.Library.Run

/-!
# Exclusive leases

An item is leased again only once its last lease has expired, and never after it was closed.
The steps of an item carry no clock: a run may read its instants from anywhere, and still

* `lease_le_of_run`: a later lease begins when the earlier one has expired;
* `not_lease_of_closed`: a closed item is never leased.
-/

namespace Lease

/-- Where an item stands. -/
inductive Slot (τ : Type) where
  | free
  | held (expiry : τ)
  | closed

/-- What happens to an item. -/
inductive Event (τ : Type) where
  | lease (now expiry : τ)
  | close
  | other

variable {τ : Type} [Preorder τ]

/-- The item may be leased at `now`. -/
def Slot.Available (slot : Slot τ) (now : τ) : Prop :=
  match slot with
  | free => True
  | held expiry => expiry ≤ now
  | closed => False

/-- One step of an item. Other events leave it alone or close it. -/
inductive Move : Slot τ → Event τ → Slot τ → Prop
  | lease {slot : Slot τ} {now expiry : τ} (havailable : slot.Available now)
      (hforward : now ≤ expiry) : Move slot (.lease now expiry) (.held expiry)
  | close (slot : Slot τ) : Move slot .close .closed
  | stay (slot : Slot τ) : Move slot .other slot
  | drop (slot : Slot τ) : Move slot .other .closed

/-- The item cannot be leased before `t`. -/
def Slot.Until (t : τ) (slot : Slot τ) : Prop :=
  match slot with
  | free => False
  | held expiry => t ≤ expiry
  | closed => True

theorem Slot.Until.le_of_available {t now : τ} {slot : Slot τ} (h : slot.Until t)
    (havailable : slot.Available now) : t ≤ now := by
  cases slot with
  | free => exact h.elim
  | held expiry => exact le_trans h havailable
  | closed => exact havailable.elim

theorem until_move {t : τ} {slot slot' : Slot τ} {e : Event τ} (h : slot.Until t)
    (hmove : Move slot e slot') : slot'.Until t := by
  cases hmove with
  | lease havailable hforward => exact (h.le_of_available havailable).trans hforward
  | close => trivial
  | stay => exact h
  | drop => trivial

theorem closed_move {slot slot' : Slot τ} {e : Event τ} (h : slot = .closed)
    (hmove : Move slot e slot') : slot' = .closed := by
  subst h
  cases hmove with
  | lease havailable => exact havailable.elim
  | close => rfl
  | stay => rfl
  | drop => rfl

theorem move_of_eq {slot slot' : Slot τ} (h : slot' = slot) : ∃ e, Move slot e slot' :=
  ⟨.other, h ▸ .stay slot⟩

variable {slot₀ slot₁ slot₂ slot₃ : Slot τ} {es : List (Event τ)}

/-- Two leases of an item do not overlap. -/
theorem lease_le_of_run {now expiry now' expiry' : τ}
    (hfirst : Move slot₀ (.lease now expiry) slot₁) (hrun : Run Move slot₁ es slot₂)
    (hsecond : Move slot₂ (.lease now' expiry') slot₃) : expiry ≤ now' := by
  have hheld : slot₁.Until expiry := by
    cases hfirst
    exact le_refl expiry
  have huntil : slot₂.Until expiry :=
    Run.invariant (I := Slot.Until expiry) (fun _ _ _ h hmove => until_move h hmove) hrun hheld
  cases hsecond with
  | lease havailable => exact huntil.le_of_available havailable

/-- A closed item is not leased again. -/
theorem not_lease_of_closed {now expiry : τ} (hclose : Move slot₀ .close slot₁)
    (hrun : Run Move slot₁ es slot₂) : ¬ Move slot₂ (.lease now expiry) slot₃ := by
  intro hlease
  have hclosed : slot₂ = .closed := by
    refine Run.invariant (I := (· = .closed)) (fun _ _ _ h hmove => closed_move h hmove) hrun ?_
    cases hclose
    rfl
  subst hclosed
  cases hlease with
  | lease havailable => exact havailable

end Lease
