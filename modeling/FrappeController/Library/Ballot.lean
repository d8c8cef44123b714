import Mathlib.Data.Int.Notation
import Mathlib.Data.List.Count
import Mathlib.Tactic.Common

/-!
# Polls with a recorded tally

A poll records, beside its votes, the number of votes in favour and the outcome.
`Poll.cast` records a vote by a voter who counted `seen` votes in favour before it;
`Poll.tallied_cast_iff` says when the record is right afterwards. A `Registry` keeps the
polls of many keys and all their votes in one list.
-/

/-- The outcome the votes determine: one vote against decides; otherwise `required` votes in
favour do. -/
def verdict (required : ℤ) (votes : List Bool) : Option Bool :=
  if false ∈ votes then some false
  else if required ≤ votes.count true then some true
  else none

theorem verdict_append_false (required : ℤ) (votes : List Bool) :
    verdict required (votes ++ [false]) = some false := by
  simp [verdict]

theorem verdict_append_true (required : ℤ) (votes : List Bool) :
    verdict required (votes ++ [true]) =
      if false ∈ votes then some false
      else if required ≤ votes.count true + 1 then some true else none := by
  simp [verdict]

/-- A poll; an exempt one takes no votes. -/
structure Poll (κ : Type) where
  key : κ
  required : ℤ
  count : ℤ
  outcome : Option Bool
  exempt : Bool

namespace Poll

variable {κ : Type}

/-- The record says what the votes determine. -/
def Tallied (p : Poll κ) (votes : List Bool) : Prop :=
  p.count = votes.count true ∧ p.outcome = verdict p.required votes

/-- A vote by a voter who counted `seen` votes in favour before: a vote in favour is added to
what was counted, and decides if it reaches the threshold. -/
def cast (p : Poll κ) (seen : ℕ) (vote : Bool) : Poll κ :=
  if vote then
    { p with
      count := seen + 1
      outcome := if p.required ≤ seen + 1 then some true else p.outcome }
  else { p with outcome := some false }

@[simp] theorem cast_key (p : Poll κ) (seen : ℕ) (vote : Bool) :
    (p.cast seen vote).key = p.key := by
  cases vote <;> rfl

@[simp] theorem cast_required (p : Poll κ) (seen : ℕ) (vote : Bool) :
    (p.cast seen vote).required = p.required := by
  cases vote <;> rfl

@[simp] theorem cast_exempt (p : Poll κ) (seen : ℕ) (vote : Bool) :
    (p.cast seen vote).exempt = p.exempt := by
  cases vote <;> rfl

/-- The voter counted every vote in favour, and no vote against is overlooked if the vote
decides. -/
def Counted (required : ℤ) (votes : List Bool) (seen : ℕ) (vote : Bool) : Prop :=
  vote = true → seen = votes.count true ∧ (required ≤ seen + 1 → false ∉ votes)

/-- A correct record stays correct exactly when the voter counted what the votes say. -/
theorem tallied_cast_iff {p : Poll κ} {votes : List Bool} (h : p.Tallied votes) (seen : ℕ)
    (vote : Bool) :
    (p.cast seen vote).Tallied (votes ++ [vote]) ↔ Counted p.required votes seen vote := by
  obtain ⟨hcount, houtcome⟩ := h
  cases vote with
  | false => simp [Tallied, cast, Counted, hcount, verdict_append_false]
  | true =>
    have hseen : ((seen : ℤ) + 1 = ((votes ++ [true]).count true : ℕ)) ↔
        seen = votes.count true := by
      rw [List.count_append, List.count_singleton_self]
      omega
    simp only [Tallied, cast, Counted, if_true, hseen, true_imp_iff]
    refine and_congr_right fun hsame => ?_
    rw [verdict_append_true, ← hsame, houtcome]
    by_cases hagainst : false ∈ votes
    · by_cases hdecides : p.required ≤ (seen : ℤ) + 1
      · simp [hagainst, hdecides]
      · simp [hagainst, hdecides, verdict]
    · by_cases hdecides : p.required ≤ (seen : ℤ) + 1
      · simp [hagainst, hdecides]
      · -- the threshold was not reached before either
        have hbefore : ¬ p.required ≤ (votes.count true : ℤ) := by omega
        simp [hagainst, hdecides, verdict, hbefore]

end Poll

/-- The polls of many keys, and every vote with its key. -/
structure Registry (κ : Type) where
  polls : List (Poll κ)
  votes : List (κ × Bool)

namespace Registry

variable {κ : Type} [DecidableEq κ]

/-- The votes of one key. -/
def votesFor (reg : Registry κ) (key : κ) : List Bool :=
  (reg.votes.filter fun v => decide (v.1 = key)).map Prod.snd

/-- The vote is recorded in the poll of its key. -/
def cast (reg : Registry κ) (key : κ) (seen : ℕ) (vote : Bool) : Registry κ where
  polls := reg.polls.map fun p => if p.key = key then p.cast seen vote else p
  votes := reg.votes ++ [(key, vote)]

/-- One poll a key, every poll that takes votes is tallied, and an exempt one has none. -/
structure Tallied (reg : Registry κ) : Prop where
  keys : (reg.polls.map Poll.key).Nodup
  tallied : ∀ p ∈ reg.polls, p.exempt = false → p.Tallied (reg.votesFor p.key)
  untouched : ∀ p ∈ reg.polls, p.exempt = true → reg.votesFor p.key = []

omit [DecidableEq κ] in
/-- The older registry's polls are still there, with their thresholds, and none became
exempt. -/
def Since (older newer : Registry κ) : Prop :=
  ∀ p ∈ older.polls, ∃ p' ∈ newer.polls, p'.key = p.key ∧ p'.required = p.required ∧
    (p'.exempt = true → p.exempt = true)

omit [DecidableEq κ] in
theorem Since.refl (reg : Registry κ) : Since reg reg := fun p hp => ⟨p, hp, rfl, rfl, id⟩

omit [DecidableEq κ] in
theorem Since.trans {a b c : Registry κ} (h : Since a b) (h' : Since b c) : Since a c := by
  intro p hp
  obtain ⟨p', hp', hkey, hrequired, hexempt⟩ := h p hp
  obtain ⟨p'', hp'', hkey', hrequired', hexempt'⟩ := h' p' hp'
  exact ⟨p'', hp'', hkey'.trans hkey, hrequired'.trans hrequired, hexempt ∘ hexempt'⟩

theorem votesFor_cast_self (reg : Registry κ) (key : κ) (seen : ℕ) (vote : Bool) :
    (reg.cast key seen vote).votesFor key = reg.votesFor key ++ [vote] := by
  simp [votesFor, cast, List.filter_append]

theorem votesFor_cast_of_ne (reg : Registry κ) {key key' : κ} (seen : ℕ) (vote : Bool)
    (h : key' ≠ key) : (reg.cast key seen vote).votesFor key' = reg.votesFor key' := by
  simp [votesFor, cast, List.filter_append, h.symm]

theorem since_cast (reg : Registry κ) (key : κ) (seen : ℕ) (vote : Bool) :
    Since reg (reg.cast key seen vote) := by
  intro p hp
  refine ⟨_, List.mem_map_of_mem hp, ?_⟩
  split <;> simp

/-- A vote on a poll keeps the registry tallied if its voter counted the poll's votes. -/
theorem Tallied.cast {reg : Registry κ} (h : reg.Tallied) {key : κ} {seen : ℕ} {vote : Bool}
    (hcounted : ∀ p ∈ reg.polls, p.key = key → p.exempt = false ∧
      Poll.Counted p.required (reg.votesFor key) seen vote) :
    (reg.cast key seen vote).Tallied where
  keys := by
    have hkeys : (reg.cast key seen vote).polls.map Poll.key = reg.polls.map Poll.key := by
      rw [Registry.cast, List.map_map]
      refine List.map_congr_left fun p _ => ?_
      simp only [Function.comp_apply]
      split <;> simp
    rw [hkeys]
    exact h.keys
  tallied := by
    intro p' hp' hexempt
    obtain ⟨p, hp, rfl⟩ := List.mem_map.mp hp'
    by_cases hkey : p.key = key
    · rw [if_pos hkey, Poll.cast_key, hkey, votesFor_cast_self]
      obtain ⟨htakes, hvoter⟩ := hcounted p hp hkey
      exact (Poll.tallied_cast_iff (hkey ▸ h.tallied p hp htakes) seen vote).mpr hvoter
    · rw [if_neg hkey] at hexempt ⊢
      rw [votesFor_cast_of_ne reg seen vote hkey]
      exact h.tallied p hp hexempt
  untouched := by
    intro p' hp' hexempt
    obtain ⟨p, hp, rfl⟩ := List.mem_map.mp hp'
    by_cases hkey : p.key = key
    · -- the vote is on a poll that takes votes
      rw [if_pos hkey, Poll.cast_exempt, (hcounted p hp hkey).1] at hexempt
      cases hexempt
    · rw [if_neg hkey] at hexempt ⊢
      rw [votesFor_cast_of_ne reg seen vote hkey]
      exact h.untouched p hp hexempt

/-- Polls are opened, and nothing else changes. -/
structure Opens (reg reg' : Registry κ) : Prop where
  votes : reg'.votes = reg.votes
  keys : (reg'.polls.map Poll.key).Nodup
  kept : ∀ p ∈ reg.polls, p ∈ reg'.polls
  opened : ∀ p ∈ reg'.polls, p ∈ reg.polls ∨
    (reg'.votesFor p.key = [] ∧
      (p.exempt = false → p.count = 0 ∧ p.outcome = none ∧ 0 < p.required))

theorem Opens.since {reg reg' : Registry κ} (h : Opens reg reg') : Since reg reg' :=
  fun p hp => ⟨p, h.kept p hp, rfl, rfl, id⟩

theorem Opens.votesFor {reg reg' : Registry κ} (h : Opens reg reg') (key : κ) :
    reg'.votesFor key = reg.votesFor key := by
  rw [Registry.votesFor, h.votes, Registry.votesFor]

theorem Opens.tallied {reg reg' : Registry κ} (h : Opens reg reg') (htallied : reg.Tallied) :
    reg'.Tallied where
  keys := h.keys
  tallied := by
    intro p hp hexempt
    -- an old proposal has the votes it had, a new one has none
    rcases h.opened p hp with hold | ⟨hnone, hopen⟩
    · rw [h.votesFor p.key]
      exact htallied.tallied p hold hexempt
    · obtain ⟨hcount, houtcome, hrequired⟩ := hopen hexempt
      -- none is not enough, since a proposal asks for one vote at least
      have hunreached : ¬ p.required ≤ 0 := by omega
      rw [hnone]
      exact ⟨by simpa using hcount, by simp [houtcome, verdict, hunreached]⟩
  untouched := by
    intro p hp hexempt
    rcases h.opened p hp with hold | ⟨hnone, -⟩
    · rw [h.votesFor p.key]
      exact htallied.untouched p hold hexempt
    · exact hnone

end Registry
