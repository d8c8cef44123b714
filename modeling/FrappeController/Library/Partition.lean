import Mathlib.Data.List.TakeWhile

/-!
# Texts cut at a separator

`before sep s` is what precedes the first separator and `after? sep s` what follows it, nothing where
there is none. A text is put together and cut again without loss where the first part is free of the
separator.
-/

namespace Partition

variable {α : Type} [DecidableEq α] {sep c : α} {a b s : List α}

/-- What precedes the first separator. -/
def before (sep : α) (s : List α) : List α := s.takeWhile (· != sep)

/-- What follows the first separator, where there is one. -/
def after? (sep : α) (s : List α) : Option (List α) :=
  match s.dropWhile (· != sep) with
  | [] => none
  | _ :: rest => some rest

/-- What follows the last separator; the whole text where there is none. -/
def afterLast (sep : α) (s : List α) : List α := (s.reverse.takeWhile (· != sep)).reverse

theorem notMem_before : sep ∉ before sep s := by
  intro hmem
  have hne := List.mem_takeWhile_imp (p := (· != sep)) hmem
  exact absurd rfl (bne_iff_ne.mp hne)

theorem mem_of_mem_before (h : c ∈ before sep s) : c ∈ s := List.takeWhile_subset _ h

/-- A text without the separator. -/
theorem before_of_notMem (h : sep ∉ s) : before sep s = s := by
  apply List.takeWhile_eq_self_iff.mpr
  intro c hc
  exact bne_iff_ne.mpr fun hsame => h (hsame ▸ hc)

theorem after?_of_notMem (h : sep ∉ s) : after? sep s = none := by
  have hnil : s.dropWhile (· != sep) = [] := by
    apply List.dropWhile_eq_nil_iff.mpr
    intro c hc
    exact bne_iff_ne.mpr fun hsame => h (hsame ▸ hc)
  rw [after?, hnil]

/-- A first part without the separator. -/
theorem before_append (h : sep ∉ a) : before sep (a ++ sep :: b) = a := by
  induction a with
  | nil => simp [before]
  | cons c rest ih =>
    rw [List.mem_cons, not_or] at h
    have hrest := ih h.2
    unfold before at hrest ⊢
    rw [List.cons_append, List.takeWhile_cons, if_pos (bne_iff_ne.mpr (Ne.symm h.1)), hrest]

theorem after?_append (h : sep ∉ a) : after? sep (a ++ sep :: b) = some b := by
  induction a with
  | nil => simp [after?]
  | cons c rest ih =>
    rw [List.mem_cons, not_or] at h
    have hrest := ih h.2
    unfold after? at hrest ⊢
    rw [List.cons_append, List.dropWhile_cons, if_pos (bne_iff_ne.mpr (Ne.symm h.1))]
    exact hrest

/-- What was cut is the text. -/
theorem eq_of_after? (h : after? sep s = some b) : s = before sep s ++ sep :: b := by
  unfold after? at h
  split at h
  · cases h
  · rename_i c rest hdrop
    have hc : c = sep := by
      by_contra hne
      have hhead := List.head?_dropWhile_not (· != sep) s
      rw [hdrop] at hhead
      exact absurd (bne_iff_ne.mpr hne) (by simpa using hhead)
    have hsplit := List.takeWhile_append_dropWhile (p := (· != sep)) (l := s)
    rw [hdrop, hc, Option.some.inj h] at hsplit
    exact hsplit.symm

theorem after?_eq_none (h : after? sep s = none) : sep ∉ s := by
  intro hmem
  obtain ⟨a, b, hs, ha⟩ := List.eq_append_cons_of_mem hmem
  rw [hs, after?_append ha] at h
  cases h

theorem afterLast_of_notMem (h : sep ∉ s) : afterLast sep s = s := by
  have hreverse : before sep s.reverse = s.reverse :=
    before_of_notMem fun hmem => h (List.mem_reverse.mp hmem)
  unfold before at hreverse
  rw [afterLast, hreverse, List.reverse_reverse]

end Partition
