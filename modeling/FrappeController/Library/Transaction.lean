import Mathlib.Tactic.Common

/-!
# Transactions that keep their writes when they raise

A step against a database either returns or raises, and in both cases leaves the
writes it made so far behind: undoing them is a separate act (a rollback to a
savepoint, or of the whole transaction). `EStateM` is exactly this monad, since its
`error` carries the state the exception was raised in.

Three things live here:

* `query`, the lift of a read that may raise, and `committed`, the state a finished
  transaction leaves behind (its own if it returned, the one it began in if it raised);
* `Triple`, a specification with one postcondition for a return and one for a raise,
  and its rules for the constructors of the monad;
* `forEach`, the loop over a list whose body may raise, with its invariant rule.
-/

namespace Transaction

variable {ε σ α β : Type}

/-! ## Reads, and the state a transaction leaves behind -/

/-- Run a read of the current state; it never changes the state, even when it raises. -/
def query (f : σ → Except ε α) : EStateM ε σ α := fun s =>
  match f s with
  | .ok a => .ok a s
  | .error e => .error e s

/-- The state after the transaction ends: an exception rolls every write back. -/
def committed (m : EStateM ε σ α) (s : σ) : σ :=
  match m s with
  | .ok _ s' => s'
  | .error _ _ => s

/-- What the caller of a transaction sees. -/
def outcome (m : EStateM ε σ α) (s : σ) : Except ε α :=
  match m s with
  | .ok a _ => .ok a
  | .error e _ => .error e

/-- The same step again for every element, in order, until one of them raises. -/
def forEach (f : α → EStateM ε σ Unit) : List α → EStateM ε σ Unit
  | [] => pure ()
  | a :: rest => do
      f a
      forEach f rest

@[simp] theorem query_ok {f : σ → Except ε α} {s : σ} {a : α} (h : f s = .ok a) :
    query f s = .ok a s := by
  simp [query, h]

@[simp] theorem query_error {f : σ → Except ε α} {s : σ} {e : ε} (h : f s = .error e) :
    query f s = .error e s := by
  simp [query, h]

/-! The steps of the monad, each read at one state. -/

theorem bind_apply (m : EStateM ε σ α) (f : α → EStateM ε σ β) (s : σ) :
    (m >>= f) s = match m s with
      | .ok a s' => f a s'
      | .error e s' => .error e s' := rfl

theorem pure_apply (a : α) (s : σ) : (pure a : EStateM ε σ α) s = .ok a s := rfl

theorem get_apply (s : σ) : (get : EStateM ε σ σ) s = .ok s s := rfl

theorem modify_apply (f : σ → σ) (s : σ) :
    (modify f : EStateM ε σ PUnit) s = .ok ⟨⟩ (f s) := rfl

theorem query_apply (f : σ → Except ε α) (s : σ) :
    query f s = match f s with
      | .ok a => .ok a s
      | .error e => .error e s := rfl

/-- A sequence returns when its first step returns and its second then does. -/
theorem bind_apply_eq_ok {m : EStateM ε σ α} {f : α → EStateM ε σ β} {s t : σ} {b : β} :
    (m >>= f) s = .ok b t ↔ ∃ a s', m s = .ok a s' ∧ f a s' = .ok b t := by
  rw [bind_apply]
  cases m s <;> simp

theorem query_eq_ok {f : σ → Except ε α} {s t : σ} {a : α} :
    query f s = .ok a t ↔ f s = .ok a ∧ s = t := by
  unfold query
  cases f s <;> simp

theorem committed_of_ok {m : EStateM ε σ α} {s s' : σ} {a : α} (h : m s = .ok a s') :
    committed m s = s' := by
  simp [committed, h]

theorem committed_of_error {m : EStateM ε σ α} {s s' : σ} {e : ε} (h : m s = .error e s') :
    committed m s = s := by
  simp [committed, h]

/-! ## Reads that raise -/

/-- A chain of reads returns when each of its links does. -/
theorem bind_eq_ok {x : Except ε α} {f : α → Except ε β} {b : β} :
    (x >>= f) = .ok b ↔ ∃ a, x = .ok a ∧ f a = .ok b := by
  cases x <;> simp [bind, Except.bind]

/-- A chain of reads raises at its first link that does. -/
theorem bind_eq_error {x : Except ε α} {f : α → Except ε β} {e : ε} :
    (x >>= f) = .error e ↔ x = .error e ∨ ∃ a, x = .ok a ∧ f a = .error e := by
  cases x <;> simp [bind, Except.bind]

theorem exists_eq_ok_of_isOk {x : Except ε α} (h : x.isOk = true) : ∃ a, x = .ok a := by
  cases x with
  | ok a => exact ⟨a, rfl⟩
  | error e => cases h

/-! ## Specifications -/

/-- From a state satisfying `P`, the step returns in `Q` or raises in `E`. -/
def Triple (P : σ → Prop) (m : EStateM ε σ α) (Q : α → σ → Prop) (E : ε → σ → Prop) : Prop :=
  ∀ s, P s → match m s with
    | .ok a s' => Q a s'
    | .error e s' => E e s'

namespace Triple

variable {P P' : σ → Prop} {Q Q' : α → σ → Prop} {R : β → σ → Prop} {E E' : ε → σ → Prop}
variable {m : EStateM ε σ α} {f : α → EStateM ε σ β}

/-- What a triple says about one run that returned. -/
theorem ok (h : Triple P m Q E) {s s' : σ} {a : α} (hs : P s) (hm : m s = .ok a s') :
    Q a s' := by
  have := h s hs
  rwa [hm] at this

/-- What a triple says about one run that raised. -/
theorem error (h : Triple P m Q E) {s s' : σ} {e : ε} (hs : P s) (hm : m s = .error e s') :
    E e s' := by
  have := h s hs
  rwa [hm] at this

theorem intro (hok : ∀ s a s', P s → m s = .ok a s' → Q a s')
    (herror : ∀ s e s', P s → m s = .error e s' → E e s') : Triple P m Q E := by
  intro s hs
  cases hm : m s with
  | ok a s' => exact hok s a s' hs hm
  | error e s' => exact herror s e s' hs hm

theorem conseq (h : Triple P m Q E) (hP : ∀ s, P' s → P s) (hQ : ∀ a s, Q a s → Q' a s)
    (hE : ∀ e s, E e s → E' e s) : Triple P' m Q' E' := by
  refine intro (fun s a s' hs hm => ?_) (fun s e s' hs hm => ?_)
  · exact hQ a s' (h.ok (hP s hs) hm)
  · exact hE e s' (h.error (hP s hs) hm)

theorem pure {a : α} (h : ∀ s, P s → Q a s) : Triple P (Pure.pure a) Q E :=
  fun s hs => h s hs

theorem throw {e : ε} (h : ∀ s, P s → E e s) :
    Triple P (MonadExcept.throw e : EStateM ε σ α) Q E :=
  fun s hs => h s hs

theorem bind (hm : Triple P m Q E) (hf : ∀ a, Triple (Q a) (f a) R E) :
    Triple P (m >>= f) R E := by
  intro s hs
  rw [bind_apply]
  cases h : m s with
  | ok a s' => exact hf a s' (hm.ok hs h)
  | error e s' => exact hm.error hs h

theorem query {g : σ → Except ε α} (hok : ∀ s a, P s → g s = .ok a → Q a s)
    (herror : ∀ s e, P s → g s = .error e → E e s) : Triple P (Transaction.query g) Q E := by
  intro s hs
  cases h : g s with
  | ok a => simpa [h] using hok s a hs h
  | error e => simpa [h] using herror s e hs h

/-- A read at a known state: the rest is specified from that state and what was read there. -/
theorem query_bind {g : σ → Except ε α} {k : α → EStateM ε σ β} {s₀ : σ}
    (hok : ∀ a, g s₀ = .ok a → Triple (· = s₀) (k a) R E)
    (herror : ∀ e, g s₀ = .error e → E e s₀) :
    Triple (· = s₀) (Transaction.query g >>= k) R E := by
  refine bind (Q := fun a s => s = s₀ ∧ g s₀ = .ok a) (query ?_ ?_) fun a s hs => ?_
  · rintro s a rfl ha
    exact ⟨rfl, ha⟩
  · rintro s e rfl he
    exact herror e he
  · exact hok a hs.2 s hs.1

theorem modify {g : σ → σ} {Q : Unit → σ → Prop} (h : ∀ s, P s → Q () (g s)) :
    Triple P (modify g : EStateM ε σ Unit) Q E :=
  fun s hs => h s hs

theorem ite {c : Prop} [Decidable c] {m' : EStateM ε σ α}
    (htrue : c → Triple P m Q E) (hfalse : ¬ c → Triple P m' Q E) :
    Triple P (if c then m else m') Q E := by
  by_cases hc : c
  · simpa [hc] using htrue hc
  · simpa [hc] using hfalse hc

/-- The loop rule: an invariant indexed by the elements still to come. -/
theorem forEach {body : α → EStateM ε σ Unit} {I : List α → σ → Prop}
    (hbody : ∀ a rest, Triple (I (a :: rest)) (body a) (fun _ => I rest) E) :
    ∀ as, Triple (I as) (Transaction.forEach body as) (fun _ => I []) E
  | [] => pure fun _ hs => hs
  | a :: rest => bind (hbody a rest) fun _ => forEach hbody rest

/-- The same, where every element leaves a fact about itself. -/
theorem forEach_mem {body : α → EStateM ε σ Unit} {I : List α → σ → Prop} {fact : α → Prop}
    {as : List α}
    (hbody : ∀ a ∈ as, ∀ rest, Triple (I (a :: rest)) (body a) (fun _ s => I rest s ∧ fact a) E) :
    Triple (I as) (Transaction.forEach body as) (fun _ s => I [] s ∧ ∀ a ∈ as, fact a) E := by
  induction as with
  | nil => exact pure fun s hs => ⟨hs, fun a ha => absurd ha List.not_mem_nil⟩
  | cons a rest ih =>
    have hrest := ih fun b hb => hbody b (List.mem_cons_of_mem a hb)
    refine bind (hbody a List.mem_cons_self rest) fun _ => ?_
    refine intro (fun s u s' hs hm => ?_) fun s e s' hs hm => hrest.error hs.1 hm
    obtain ⟨hI, hfacts⟩ := hrest.ok hs.1 hm
    exact ⟨hI, List.forall_mem_cons.mpr ⟨hs.2, hfacts⟩⟩

end Triple

end Transaction
