import Mathlib.Algebra.BigOperators.Group.List.Basic
import Mathlib.Algebra.Order.Monoid.NatCast
import Mathlib.Data.List.Basic
import Mathlib.Algebra.GroupWithZero.Nat

/-!
# Length-prefixed parts

A part of a text is written as its size, a mark and its tokens. The size is the sum of the sizes of
the tokens, so it need not be their number. A reader knows from the size where the part ends, so
the tokens may be marks, digits and separators: a text is read back part by part, whatever follows
(`joined_append_inj`).
-/

namespace LengthPrefixed

variable {α : Type}

/-- How sizes are measured and written. -/
structure Format (α : Type) where
  size : α → ℕ
  size_pos : ∀ a, 0 < size a
  digits : ℕ → List α
  digits_injective : Function.Injective digits
  mark : α
  mark_notMem : ∀ n, mark ∉ digits n

/-- Texts whose first marks are at the same place. -/
theorem separated_inj {a : α} {s s' t t' : List α} (hs : a ∉ s) (hs' : a ∉ s')
    (h : s ++ a :: t = s' ++ a :: t') : s = s' ∧ t = t' := by
  induction s generalizing s' with
  | nil =>
    cases s' with
    | nil => exact ⟨rfl, (List.cons.inj h).2⟩
    | cons b s' => exact absurd (List.mem_cons.mpr (.inl (List.cons.inj h).1)) hs'
  | cons b s ih =>
    cases s' with
    | nil => exact absurd (List.mem_cons.mpr (.inl (List.cons.inj h).1.symm)) hs
    | cons b' s' =>
      have hhead : b = b' := (List.cons.inj h).1
      have htail := ih (fun hmem => hs (List.mem_cons_of_mem _ hmem))
        (fun hmem => hs' (List.mem_cons_of_mem _ hmem)) (List.cons.inj h).2
      exact ⟨by rw [hhead, htail.1], htail.2⟩

namespace Format

variable (F : Format α)

/-- The size of a part. -/
def total (tokens : List α) : ℕ := (tokens.map F.size).sum

def part (tokens : List α) : List α := F.digits (F.total tokens) ++ F.mark :: tokens

/-- Parts with a separator between them. -/
def joined (separator : α) (parts : List (List α)) : List α :=
  [separator].intercalate (parts.map F.part)

variable {F}

theorem total_cons (a : α) (tokens : List α) :
    F.total (a :: tokens) = F.size a + F.total tokens := by
  simp only [total, List.map_cons, List.sum_cons]

/-- Where a part of a known size ends. -/
theorem eq_of_total {tokens tokens' rest rest' : List α}
    (hsize : F.total tokens = F.total tokens') (h : tokens ++ rest = tokens' ++ rest') :
    tokens = tokens' ∧ rest = rest' := by
  induction tokens generalizing tokens' with
  | nil =>
    cases tokens' with
    | nil => exact ⟨rfl, h⟩
    | cons a' tokens' =>
      have hpos := F.size_pos a'
      rw [total_cons] at hsize
      have hzero : F.total [] = 0 := rfl
      omega
  | cons a tokens ih =>
    cases tokens' with
    | nil =>
      have hpos := F.size_pos a
      rw [total_cons] at hsize
      have hzero : F.total [] = 0 := rfl
      omega
    | cons a' tokens' =>
      have hhead : a = a' := (List.cons.inj h).1
      subst hhead
      rw [total_cons, total_cons] at hsize
      have htail := ih (by omega) (List.cons.inj h).2
      exact ⟨by rw [htail.1], htail.2⟩

/-- A part is read from the start of a text. -/
theorem part_append_inj {tokens tokens' rest rest' : List α}
    (h : F.part tokens ++ rest = F.part tokens' ++ rest') : tokens = tokens' ∧ rest = rest' := by
  simp only [part, List.append_assoc, List.cons_append] at h
  have hmark := separated_inj (F.mark_notMem _) (F.mark_notMem _) h
  exact eq_of_total (F.digits_injective hmark.1) hmark.2

/-- As many parts are read from the start of a text. -/
theorem joined_append_inj {separator : α} {parts parts' : List (List α)} {rest rest' : List α}
    (hlength : parts.length = parts'.length)
    (h : F.joined separator parts ++ rest = F.joined separator parts' ++ rest') :
    parts = parts' ∧ rest = rest' := by
  induction parts generalizing parts' with
  | nil =>
    have hnil : parts' = [] := List.length_eq_zero_iff.mp hlength.symm
    subst hnil
    exact ⟨rfl, h⟩
  | cons first more ih =>
    match parts' with
    | first' :: more' =>
      have hlen : more.length = more'.length := Nat.succ.inj hlength
      match more, more' with
      | [], [] =>
        simp only [joined, List.map_cons, List.map_nil, List.intercalate_singleton] at h
        have hfirst := part_append_inj h
        exact ⟨by rw [hfirst.1], hfirst.2⟩
      | second :: more, second' :: more' =>
        simp only [joined, List.map_cons, List.intercalate_cons_cons, List.append_assoc] at h
        have hfirst := part_append_inj h
        have hrest := ih hlen (List.append_cancel_left hfirst.2)
        exact ⟨by rw [hfirst.1, hrest.1], hrest.2⟩

end Format

end LengthPrefixed
