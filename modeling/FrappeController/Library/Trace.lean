import FrappeController.Library.Transaction

/-!
# Transactions that record what they do

`recorded entry m` does what `m` does and adds `entry` to a list beside the state, whether `m`
returns or raises. A program over such steps tracks the same program over the plain ones
(`Tracks`): the list is an observation and changes nothing.
-/

namespace Transaction

variable {ε σ τ α β : Type}

/-- The result without the recorded entries. -/
def forget : EStateM.Result ε (σ × List τ) α → EStateM.Result ε σ α
  | .ok a s => .ok a s.1
  | .error e s => .error e s.1

/-- Run `m` and record nothing. -/
def silent (m : EStateM ε σ α) : EStateM ε (σ × List τ) α := fun s =>
  match m s.1 with
  | .ok a s' => .ok a (s', s.2)
  | .error e s' => .error e (s', s.2)

/-- Run `m` and record the entry. -/
def recorded (entry : τ) (m : EStateM ε σ α) : EStateM ε (σ × List τ) α := fun s =>
  match m s.1 with
  | .ok a s' => .ok a (s', s.2 ++ [entry])
  | .error e s' => .error e (s', s.2 ++ [entry])

theorem recorded_eq_ok {entry : τ} {m : EStateM ε σ α} {s t : σ × List τ} {a : α}
    (h : recorded entry m s = .ok a t) : m s.1 = .ok a t.1 ∧ t.2 = s.2 ++ [entry] := by
  unfold recorded at h
  cases hm : m s.1 with
  | ok b u =>
    rw [hm] at h
    cases h
    exact ⟨rfl, rfl⟩
  | error e u =>
    rw [hm] at h
    cases h

theorem recorded_eq_error {entry : τ} {m : EStateM ε σ α} {s t : σ × List τ} {e : ε}
    (h : recorded entry m s = .error e t) : m s.1 = .error e t.1 ∧ t.2 = s.2 ++ [entry] := by
  unfold recorded at h
  cases hm : m s.1 with
  | ok b u =>
    rw [hm] at h
    cases h
  | error e' u =>
    rw [hm] at h
    cases h
    exact ⟨rfl, rfl⟩

/-- The state a result holds. -/
def stateOf : EStateM.Result ε σ α → σ
  | .ok _ s => s
  | .error _ s => s

/-- On every state and whatever was recorded before, `m'` does what `m` does. -/
def Tracks (m' : EStateM ε (σ × List τ) α) (m : EStateM ε σ α) : Prop :=
  ∀ s log, forget (m' (s, log)) = m s

namespace Tracks

theorem silent (m : EStateM ε σ α) : Tracks (τ := τ) (silent m) m := by
  intro s log
  unfold Transaction.silent
  dsimp only
  cases m s <;> rfl

theorem recorded (entry : τ) (m : EStateM ε σ α) : Tracks (recorded entry m) m := by
  intro s log
  unfold Transaction.recorded
  dsimp only
  cases m s <;> rfl

theorem pure (a : α) : Tracks (σ := σ) (ε := ε) (τ := τ) (Pure.pure a) (Pure.pure a) :=
  fun _ _ => rfl

theorem query (f : σ → Except ε α) :
    Tracks (τ := τ) (Transaction.query fun s => f s.1) (Transaction.query f) := by
  intro s log
  rw [query_apply, query_apply]
  dsimp only
  cases f s <;> rfl

theorem bind {m' : EStateM ε (σ × List τ) α} {m : EStateM ε σ α}
    {f' : α → EStateM ε (σ × List τ) β} {f : α → EStateM ε σ β} (hm : Tracks m' m)
    (hf : ∀ a, Tracks (f' a) (f a)) : Tracks (m' >>= f') (m >>= f) := by
  intro s log
  have h := hm s log
  rw [bind_apply, bind_apply]
  cases hm' : m' (s, log) with
  | ok a s' =>
    rw [hm'] at h
    rw [← h]
    exact hf a s'.1 s'.2
  | error e s' =>
    rw [hm'] at h
    rw [← h]
    rfl

theorem ite {c : Prop} [Decidable c] {m' n' : EStateM ε (σ × List τ) α} {m n : EStateM ε σ α}
    (hm : Tracks m' m) (hn : Tracks n' n) : Tracks (if c then m' else n') (if c then m else n) := by
  by_cases hc : c
  · simpa [hc] using hm
  · simpa [hc] using hn

theorem forEach {f' : β → EStateM ε (σ × List τ) Unit} {f : β → EStateM ε σ Unit}
    (hf : ∀ b, Tracks (f' b) (f b)) :
    ∀ bs, Tracks (Transaction.forEach f' bs) (Transaction.forEach f bs)
  | [] => pure ()
  | b :: bs => bind (hf b) fun _ => forEach hf bs

end Tracks

end Transaction
