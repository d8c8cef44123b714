import Mathlib.Data.List.Sort

/-!
# Rotating through a shrinking set in batches

A run takes the first items after a cursor and moves the cursor behind them; a batch that is not
full ends the sweep, and the next run starts over. Items may leave between two runs. An item that
stays is taken within two sweeps, whatever the cursor was at first (`taken_within`).
-/

namespace Rotation

variable {α : Type} [LinearOrder α]

/-- The first items after the cursor, at most `size` of them. -/
def batch (size : ℕ) (items : List α) (cursor : α) : List α :=
  ((items.filter fun x => decide (cursor < x)).insertionSort (· ≤ ·)).take size

/-- The cursor after a run: the last item of a full batch, or `start`. -/
def advance (size : ℕ) (start : α) (items : List α) (cursor : α) : α :=
  let taken := batch size items cursor
  if taken.length = size then taken.getLast?.getD start else start

/-- How many items lie after the cursor. -/
def above (items : List α) (cursor : α) : ℕ := (items.filter fun x => decide (cursor < x)).length

/-- How many items lie after the cursor and before `c`. -/
def between (items : List α) (cursor c : α) : ℕ :=
  (items.filter fun x => decide (cursor < x ∧ x < c)).length

section Batch

variable {size : ℕ} {items : List α} {cursor : α}

theorem sorted_batch (size : ℕ) (items : List α) (cursor : α) :
    (batch size items cursor).Pairwise (· ≤ ·) :=
  (List.pairwise_insertionSort (· ≤ ·) _).sublist (List.take_sublist _ _)

theorem mem_of_mem_batch {x : α} (h : x ∈ batch size items cursor) : x ∈ items ∧ cursor < x := by
  have hsorted := List.mem_of_mem_take h
  rw [List.mem_insertionSort, List.mem_filter, decide_eq_true_eq] at hsorted
  exact hsorted

theorem nodup_batch (h : items.Nodup) : (batch size items cursor).Nodup := by
  have hfilter : (items.filter fun x => decide (cursor < x)).Nodup := h.filter _
  have hsorted := (List.perm_insertionSort (· ≤ ·)
    (items.filter fun x => decide (cursor < x))).nodup_iff.mpr hfilter
  exact hsorted.sublist (List.take_sublist _ _)

/-- Items that were not taken lie behind a full batch. -/
theorem lt_of_notMem_batch {c : α} (hc : c ∈ items) (hcursor : cursor < c)
    (hmissed : c ∉ batch size items cursor) :
    (batch size items cursor).length = size ∧ ∀ x ∈ batch size items cursor, x < c := by
  have hmem : c ∈ (items.filter fun x => decide (cursor < x)).insertionSort (· ≤ ·) := by
    rw [List.mem_insertionSort, List.mem_filter, decide_eq_true_eq]
    exact ⟨hc, hcursor⟩
  have hsorted := List.pairwise_insertionSort (· ≤ ·) (items.filter fun x => decide (cursor < x))
  have hparts := List.take_append_drop size
    ((items.filter fun x => decide (cursor < x)).insertionSort (· ≤ ·))
  rw [← hparts] at hmem hsorted
  have hdrop := (List.mem_append.mp hmem).resolve_left hmissed
  constructor
  · have hlong : size ≤ ((items.filter fun x => decide (cursor < x)).insertionSort
        (· ≤ ·)).length := by
      by_contra hshort
      rw [List.drop_eq_nil_of_le (by omega)] at hdrop
      cases hdrop
    rw [batch, List.length_take]
    omega
  · intro x hx
    have hle := (List.pairwise_append.mp hsorted).2.2 x hx c hdrop
    have hne : x ≠ c := by
      intro heq
      rw [heq] at hx
      exact hmissed hx
    exact lt_of_le_of_ne hle hne

/-- The last item of a batch is its largest. -/
theorem le_getLast (h : batch size items cursor ≠ []) :
    ∀ x ∈ batch size items cursor, x ≤ (batch size items cursor).getLast h := by
  intro x hx
  have hsorted := sorted_batch size items cursor
  rw [← List.dropLast_append_getLast h] at hsorted hx
  rcases List.mem_append.mp hx with hx | hx
  · exact (List.pairwise_append.mp hsorted).2.2 x hx _ (List.mem_singleton_self _)
  · exact (List.mem_singleton.mp hx).le

theorem advance_of_full (start : α) (hsize : 0 < size)
    (hfull : (batch size items cursor).length = size) :
    ∃ h : batch size items cursor ≠ [],
      advance size start items cursor = (batch size items cursor).getLast h := by
  have hne : batch size items cursor ≠ [] := by
    intro hnil
    rw [hnil, List.length_nil] at hfull
    omega
  refine ⟨hne, ?_⟩
  rw [advance, if_pos hfull, List.getLast?_eq_some_getLast hne, Option.getD_some]

omit [LinearOrder α] in
theorem length_le_of_subset {xs ys : List α} (hnodup : xs.Nodup) (h : xs ⊆ ys) :
    xs.length ≤ ys.length := (List.subperm_of_subset hnodup h).length_le

/-- A full batch is as many items fewer to come: those of `p'` are still among those of `p`, and
the batch is among those of `p` only. -/
theorem count_advance {p p' : α → Prop} [DecidablePred p] [DecidablePred p'] (hnodup : items.Nodup)
    (hfull : (batch size items cursor).length = size)
    (hbatch : ∀ x ∈ batch size items cursor, p x ∧ ¬p' x) (hless : ∀ x, p' x → p x) :
    (items.filter fun x => decide (p' x)).length + size ≤
      (items.filter fun x => decide (p x)).length := by
  have hdisjoint : List.Disjoint (items.filter fun x => decide (p' x)) (batch size items cursor) := by
    intro x hx hx'
    rw [List.mem_filter, decide_eq_true_eq] at hx
    exact (hbatch x hx').2 hx.2
  have happend : ((items.filter fun x => decide (p' x)) ++ batch size items cursor).Nodup :=
    (hnodup.filter _).append (nodup_batch hnodup) hdisjoint
  have hsubset : (items.filter fun x => decide (p' x)) ++ batch size items cursor ⊆
      items.filter fun x => decide (p x) := by
    intro x hx
    rw [List.mem_filter, decide_eq_true_eq]
    rcases List.mem_append.mp hx with hx | hx
    · rw [List.mem_filter, decide_eq_true_eq] at hx
      exact ⟨hx.1, hless x hx.2⟩
    · exact ⟨(mem_of_mem_batch hx).1, (hbatch x hx).1⟩
  have hlength := length_le_of_subset happend hsubset
  rw [List.length_append, hfull] at hlength
  exact hlength

/-- A run that does not take an item ahead of the cursor comes closer to it by a full batch. -/
theorem advance_ahead (start : α) {c : α} (hsize : 0 < size) (hnodup : items.Nodup)
    (hc : c ∈ items) (hcursor : cursor < c) (hmissed : c ∉ batch size items cursor) :
    advance size start items cursor < c
      ∧ between items (advance size start items cursor) c + size ≤ between items cursor c := by
  obtain ⟨hfull, hbefore⟩ := lt_of_notMem_batch hc hcursor hmissed
  obtain ⟨hne, hnext⟩ := advance_of_full start hsize hfull
  have hlast := List.getLast_mem hne
  rw [hnext]
  refine ⟨hbefore _ hlast, count_advance hnodup hfull ?_ ?_⟩
  · intro x hx
    exact ⟨⟨(mem_of_mem_batch hx).2, hbefore x hx⟩,
      fun h => absurd h.1 (not_lt.mpr (le_getLast hne x hx))⟩
  · intro x hx
    exact ⟨(mem_of_mem_batch hlast).2.trans hx.1, hx.2⟩

/-- A run behind an item starts over, or has fewer items to come by a full batch. -/
theorem advance_behind (start : α) (hsize : 0 < size) (hnodup : items.Nodup) :
    advance size start items cursor = start ∨ cursor ≤ advance size start items cursor
      ∧ above items (advance size start items cursor) + size ≤ above items cursor := by
  by_cases hfull : (batch size items cursor).length = size
  · obtain ⟨hne, hnext⟩ := advance_of_full start hsize hfull
    have hlast := (mem_of_mem_batch (List.getLast_mem hne)).2
    rw [hnext]
    refine .inr ⟨hlast.le, count_advance hnodup hfull ?_ ?_⟩
    · intro x hx
      exact ⟨(mem_of_mem_batch hx).2, not_lt.mpr (le_getLast hne x hx)⟩
    · intro x hx
      exact hlast.trans hx
  · exact .inl (if_neg hfull)

end Batch

/-! ## Runs -/

/-- Consecutive runs over items that may leave: each takes its batch and hands its cursor on. -/
structure Rotates (size : ℕ) (start : α) (runs : ℕ) (items : ℕ → List α) (cursor : ℕ → α) :
    Prop where
  positive : 0 < size
  nodup : ∀ i < runs, (items i).Nodup
  after_start : ∀ i < runs, ∀ x ∈ items i, start < x
  leave : ∀ i, i + 1 < runs → items (i + 1) ⊆ items i
  moves : ∀ i, i + 1 < runs → cursor (i + 1) = advance size start (items i) (cursor i)

section Runs

variable {size : ℕ} {start : α} {runs : ℕ} {items : ℕ → List α} {cursor : ℕ → α} {c : α}

theorem Rotates.length_le (h : Rotates size start runs items cursor) {i : ℕ} (hi : i < runs) :
    (items i).length ≤ (items 0).length := by
  induction i with
  | zero => exact Nat.le_refl _
  | succ i ih =>
    have hle := length_le_of_subset (h.nodup (i + 1) hi) (h.leave i hi)
    have hfirst := ih (by omega)
    omega

theorem Rotates.filter_le (h : Rotates size start runs items cursor) {i : ℕ} (hi : i + 1 < runs)
    (p : α → Bool) : ((items (i + 1)).filter p).length ≤ ((items i).filter p).length := by
  apply length_le_of_subset ((h.nodup (i + 1) hi).filter p)
  intro x hx
  rw [List.mem_filter] at hx ⊢
  exact ⟨h.leave i hi hx.1, hx.2⟩

/-- An item ahead of the cursor is taken before the sweep ends. -/
theorem Rotates.taken_ahead (h : Rotates size start runs items cursor)
    (hc : ∀ i < runs, c ∈ items i) (k : ℕ) {i : ℕ} (hi : i + k ≤ runs) (hcursor : cursor i < c)
    (hcount : between (items i) (cursor i) c < size * k) :
    ∃ j < i + k, c ∈ batch size (items j) (cursor j) := by
  induction k generalizing i with
  | zero => omega
  | succ k ih =>
    by_cases htaken : c ∈ batch size (items i) (cursor i)
    · exact ⟨i, by omega, htaken⟩
    · obtain ⟨hnext, hcloser⟩ := advance_ahead start h.positive (h.nodup i (by omega))
        (hc i (by omega)) hcursor htaken
      rw [Nat.mul_succ] at hcount
      have hk : 0 < k := by
        by_contra hzero
        have hnone : k = 0 := by omega
        rw [hnone, Nat.mul_zero] at hcount
        omega
      have hrun : i + 1 < runs := by omega
      have hleft : between (items (i + 1)) (cursor (i + 1)) c < size * k := by
        have hshrunk := h.filter_le hrun fun x => decide (cursor (i + 1) < x ∧ x < c)
        rw [← h.moves i hrun] at hcloser
        show ((items (i + 1)).filter _).length < _
        unfold between at hcloser hcount
        omega
      rw [← h.moves i hrun] at hnext
      obtain ⟨j, hj, hjtaken⟩ := ih (by omega) hnext hleft
      exact ⟨j, by omega, hjtaken⟩

/-- A cursor that is not before an item starts over. -/
theorem Rotates.starts_over (h : Rotates size start runs items cursor) (k : ℕ) {i : ℕ}
    (hi : i + k < runs) (hcount : above (items i) (cursor i) < size * k) :
    ∃ j, j ≤ i + k ∧ cursor j = start := by
  induction k generalizing i with
  | zero => omega
  | succ k ih =>
    have hrun : i + 1 < runs := by omega
    have hbehind : _ ∨ cursor i ≤ _ ∧ _ :=
      advance_behind start h.positive (h.nodup i (by omega))
    rcases hbehind with hstart | ⟨-, hfewer⟩
    · refine ⟨i + 1, by omega, ?_⟩
      rw [h.moves i hrun, hstart]
    · rw [Nat.mul_succ] at hcount
      have hleft : above (items (i + 1)) (cursor (i + 1)) < size * k := by
        have hshrunk := h.filter_le hrun fun x => decide (cursor (i + 1) < x)
        rw [← h.moves i hrun] at hfewer
        show ((items (i + 1)).filter _).length < _
        unfold above at hfewer hcount
        omega
      obtain ⟨j, hj, hjstart⟩ := ih (by omega) hleft
      exact ⟨j, by omega, hjstart⟩

/-- An item that stays is taken within two sweeps. -/
theorem Rotates.taken_within {n : ℕ} (hn : (items 0).length ≤ n)
    (h : Rotates size start (2 * (n / size + 1)) items cursor)
    (hc : ∀ i < 2 * (n / size + 1), c ∈ items i) :
    ∃ i < 2 * (n / size + 1), c ∈ batch size (items i) (cursor i) := by
  have hbound : n < size * (n / size + 1) := Nat.lt_mul_div_succ n h.positive
  have hpositive : 0 < n / size + 1 := Nat.succ_pos _
  generalize n / size + 1 = sweep at h hc hbound hpositive ⊢
  have hcount : ∀ i < 2 * sweep, ∀ p : α → Bool, ((items i).filter p).length < size * sweep := by
    intro i hi p
    have hfilter := List.length_filter_le p (items i)
    have hfirst := h.length_le hi
    omega
  by_cases hahead : cursor 0 < c
  · obtain ⟨j, hj, htaken⟩ := h.taken_ahead hc sweep (i := 0) (by omega) hahead
      (hcount 0 (by omega) _)
    exact ⟨j, by omega, htaken⟩
  · obtain ⟨j, hj, hstart⟩ := h.starts_over sweep (i := 0) (by omega) (hcount 0 (by omega) _)
    have hlt : cursor j < c := by
      rw [hstart]
      exact h.after_start j (by omega) c (hc j (by omega))
    obtain ⟨k, hk, htaken⟩ := h.taken_ahead hc sweep (i := j) (by omega) hlt
      (hcount j (by omega) _)
    exact ⟨k, by omega, htaken⟩

end Runs

end Rotation
