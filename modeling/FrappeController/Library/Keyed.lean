import Mathlib.Data.List.Sort
import Mathlib.Data.List.Forall2

/-!
# Lists in the order of a key

Items of different keys have one order: two lists of the same items, each in strictly increasing
order of the key, are the same list (`eq_of_perm_of_strict`). The last part reads every item of a
list through a function that may raise.
-/

namespace Keyed

variable {α β κ : Type} {ε : Type}

/-! ## Sorting by a key -/

section Sorting

variable [LinearOrder κ] (key : α → κ)

/-- The items in the order of their keys; items of one key keep their order. -/
def sortOn (items : List α) : List α := items.insertionSort fun a b => key a ≤ key b

/-- In strictly increasing order of the key. -/
def Strict (items : List α) : Prop := items.Pairwise fun a b => key a < key b

variable {key}

theorem perm_sortOn (items : List α) : (sortOn key items).Perm items :=
  List.perm_insertionSort _ items

theorem map_key_sortOn (items : List α) :
    (sortOn key items).map key = (items.map key).insertionSort (· ≤ ·) :=
  List.map_insertionSort (fun a b => key a ≤ key b) (· ≤ ·) key items fun _ _ _ _ => Iff.rfl

/-- Different keys leave no two items in one place. -/
theorem strict_sortOn {items : List α} (h : (items.map key).Nodup) :
    Strict key (sortOn key items) := by
  have hsorted : ((sortOn key items).map key).Pairwise (· ≤ ·) := by
    rw [map_key_sortOn]
    exact List.pairwise_insertionSort (· ≤ ·) (items.map key)
  have hnodup : ((sortOn key items).map key).Nodup :=
    ((perm_sortOn items).map key).nodup_iff.mpr h
  have hstrict : ((sortOn key items).map key).Pairwise (· < ·) :=
    (hsorted.and hnodup).imp fun hab => lt_of_le_of_ne hab.1 hab.2
  exact List.pairwise_map.mp hstrict

theorem Strict.nodup {items : List α} (h : Strict key items) : (items.map key).Nodup :=
  (List.pairwise_map.mpr h).imp fun hab => ne_of_lt hab

/-- Sorting leaves the keys of such a list where they are. -/
theorem Strict.keys_sorted {items : List α} (h : Strict key items) :
    (items.map key).insertionSort (· ≤ ·) = items.map key := by
  apply List.Pairwise.insertionSort_eq
  exact (List.pairwise_map.mpr h).imp fun hab => le_of_lt hab

/-- There is one strictly increasing order of given items. -/
theorem eq_of_perm_of_strict {items items' : List α} (hperm : items.Perm items')
    (h : Strict key items) (h' : Strict key items') : items = items' := by
  refine List.Perm.eq_of_pairwise ?_ h h' hperm
  intro a b _ _ hab hba
  exact absurd (hab.trans hba) (lt_irrefl _)

end Sorting

/-! ## Reading every item -/

/-- A list is read when each of its items is. -/
theorem mapM_eq_ok {f : α → Except ε β} {items : List α} {out : List β} :
    items.mapM f = .ok out ↔ List.Forall₂ (fun a b => f a = .ok b) items out := by
  induction items generalizing out with
  | nil =>
    rw [List.mapM_nil, List.forall₂_nil_left_iff]
    constructor
    · intro h
      exact (Except.ok.inj h).symm
    · intro h
      rw [h]
      rfl
  | cons a rest ih =>
    rw [List.mapM_cons, List.forall₂_cons_left_iff]
    cases ha : f a with
    | error e =>
      constructor
      · intro h
        cases h
      · intro h
        obtain ⟨b, bs, hb, -⟩ := h
        cases hb
    | ok b =>
      constructor
      · intro h
        cases hrest : rest.mapM f with
        | error e =>
          rw [hrest] at h
          cases h
        | ok bs =>
          rw [hrest] at h
          exact ⟨b, bs, rfl, ih.mp hrest, (Except.ok.inj h).symm⟩
      · intro h
        obtain ⟨b', bs, hb, hbs, hout⟩ := h
        rw [ih.mpr hbs, hout, Except.ok.inj hb]
        rfl

theorem exists_mapM {f : α → Except ε β} {items : List α} (h : ∀ a ∈ items, ∃ b, f a = .ok b) :
    ∃ out, items.mapM f = .ok out := by
  induction items with
  | nil => exact ⟨[], rfl⟩
  | cons a rest ih =>
    obtain ⟨b, hb⟩ := h a List.mem_cons_self
    obtain ⟨bs, hbs⟩ := ih fun a' ha' => h a' (List.mem_cons_of_mem a ha')
    exact ⟨b :: bs, mapM_eq_ok.mpr (.cons hb (mapM_eq_ok.mp hbs))⟩

theorem exists_mem_of_mem {r : α → β → Prop} {items : List α} {out : List β}
    (hall : List.Forall₂ r items out) {a : α} (ha : a ∈ items) : ∃ b ∈ out, r a b := by
  induction hall with
  | nil => exact absurd ha List.not_mem_nil
  | cons hhead _ ih =>
    rcases List.mem_cons.mp ha with heq | hmem
    · exact ⟨_, List.mem_cons_self, heq ▸ hhead⟩
    · obtain ⟨b, hb, hab⟩ := ih hmem
      exact ⟨b, List.mem_cons_of_mem _ hb, hab⟩

/-- What is read, seen through two projections that agree. -/
theorem map_eq_of_forall₂ {γ : Type} {g : β → γ} {h : α → γ} {items : List α} {out : List β}
    (hall : List.Forall₂ (fun a b => g b = h a) items out) : out.map g = items.map h := by
  induction hall with
  | nil => rfl
  | cons hhead _ ih => rw [List.map_cons, List.map_cons, hhead, ih]

/-- Every item read as itself. -/
theorem mapM_self {f : α → Except ε α} {items : List α} (h : ∀ a ∈ items, f a = .ok a) :
    items.mapM f = .ok items :=
  mapM_eq_ok.mpr (List.forall₂_same.mpr h)

end Keyed
