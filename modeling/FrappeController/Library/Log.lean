import Mathlib.Data.List.Nodup
import Mathlib.Data.List.Range

/-!
# Numbered logs

A log is a list of numbered entries in the order they were appended. It is numbered when
its numbers are `1, 2, …, last`; such a log grows only by entries numbered from `last + 1`,
and then no number is ever given to a second entry.
-/

/-- The numbers of the log are `1, 2, …, last`. -/
def Numbered {α : Type} (log : List (ℕ × α)) (last : ℕ) : Prop :=
  log.map Prod.fst = List.range' 1 last

instance {α : Type} (log : List (ℕ × α)) (last : ℕ) : Decidable (Numbered log last) :=
  inferInstanceAs (Decidable (log.map Prod.fst = List.range' 1 last))

namespace Numbered

variable {α : Type} {log : List (ℕ × α)} {last : ℕ}

theorem empty : Numbered ([] : List (ℕ × α)) 0 := rfl

theorem snoc (h : Numbered log last) (a : α) : Numbered (log ++ [(last + 1, a)]) (last + 1) := by
  rw [Numbered, List.map_append, h, List.range'_concat]
  simp [Nat.add_comm]

theorem nodup (h : Numbered log last) : (log.map Prod.fst).Nodup := by
  rw [h]
  exact List.nodup_range'

/-- A number has one entry. -/
theorem unique (h : Numbered log last) {n : ℕ} {a b : α} (ha : (n, a) ∈ log)
    (hb : (n, b) ∈ log) : a = b := by
  have := List.inj_on_of_nodup_map h.nodup ha hb rfl
  exact (Prod.mk.inj this).2

/-- A number has its entry once. -/
theorem filter_number [DecidableEq α] (h : Numbered log last) {n : ℕ} {a : α}
    (ha : (n, a) ∈ log) : log.filter (fun e => e.1 = n) = [(n, a)] := by
  have hnodup := h.nodup
  clear h
  induction log with
  | nil => cases ha
  | cons e log ih =>
    rw [List.map_cons] at hnodup
    obtain ⟨hfresh, hnodup⟩ := List.nodup_cons.mp hnodup
    rcases List.mem_cons.mp ha with rfl | ha
    · -- no later entry has this number
      have hnone : log.filter (fun e => e.1 = n) = [] := by
        refine List.filter_eq_nil_iff.mpr fun e he hn => hfresh ?_
        exact List.mem_map.mpr ⟨e, he, by simpa using hn⟩
      simp [hnone]
    · have hne : e.1 ≠ n := fun heq => hfresh (List.mem_map.mpr ⟨(n, a), ha, heq.symm⟩)
      simp [hne, ih ha hnodup]

end Numbered
