import Mathlib.Logic.Relation
import Mathlib.Tactic.Common

/-!
# Programs that may be stopped between their statements

A program reads the state and runs statements on it, which may raise. An attempt at it may stop
after any number of statements and leave behind the state of that moment (`stops`).

* `Triple`: what holds wherever an attempt stops, and what a complete one establishes.
* `Resumed`: a program that goes on where it was stopped. Any number of attempts at it leave only
  what a single one can leave, and a later one ends like the first (`attempts_resumed`).

Both have one rule for each construct.
-/

namespace Interruption

/-- Statements, each of which may depend on what was read before it. -/
inductive Program (ε σ : Type) where
  | done
  | raise (e : ε)
  | read (k : σ → Program ε σ)
  | write (f : σ → Except ε σ) (k : Program ε σ)

variable {ε σ α : Type}

namespace Program

/-- The outcome of an attempt that is not stopped. -/
def run : Program ε σ → σ → Except ε σ
  | done, s => .ok s
  | raise e, _ => .error e
  | read k, s => (k s).run s
  | write f k, s =>
    match f s with
    | .ok s' => k.run s'
    | .error e => .error e

/-- The states an attempt can leave behind. -/
def stops : Program ε σ → σ → List σ
  | done, s => [s]
  | raise _, s => [s]
  | read k, s => (k s).stops s
  | write f k, s =>
    s :: match f s with
      | .ok s' => k.stops s'
      | .error _ => []

/-- A loop over `items`, one statement for each. -/
def writes (f : α → σ → Except ε σ) (items : List α) (k : Program ε σ) : Program ε σ :=
  items.foldr (fun a k => write (f a) k) k

theorem writes_append (f : α → σ → Except ε σ) (items items' : List α) (k : Program ε σ) :
    k.writes f (items ++ items') = (k.writes f items').writes f items :=
  List.foldr_append

/-- The states that any number of stopped attempts can leave behind. -/
def Attempts (p : Program ε σ) : σ → σ → Prop :=
  Relation.ReflTransGen fun s t => t ∈ p.stops s

theorem mem_stops_self (p : Program ε σ) (s : σ) : s ∈ p.stops s := by
  induction p with
  | done => exact List.mem_singleton_self s
  | raise _ => exact List.mem_singleton_self s
  | read k ih => exact ih s
  | write f k _ => exact List.mem_cons_self

/-- From `s`, the whole program comes down to `p`. -/
structure ComesTo (whole p : Program ε σ) (s : σ) : Prop where
  run : whole.run s = p.run s
  stops : whole.stops s ⊆ p.stops s

namespace ComesTo

variable {whole k : Program ε σ} {f : σ → Except ε σ} {s : σ}

theorem refl (p : Program ε σ) (s : σ) : p.ComesTo p s :=
  ⟨rfl, List.Subset.refl _⟩

theorem read {k : σ → Program ε σ} (h : whole.ComesTo (.read k) s) : whole.ComesTo (k s) s :=
  ⟨h.run, h.stops⟩

/-- A statement that changes nothing any more. -/
theorem write (h : whole.ComesTo (.write f k) s) (hf : f s = .ok s) : whole.ComesTo k s := by
  have hrun : (Program.write f k).run s = k.run s := by
    rw [Program.run, hf]
  have hstops : (Program.write f k).stops s = s :: k.stops s := by
    rw [Program.stops, hf]
  refine ⟨h.run.trans hrun, fun t ht => ?_⟩
  have ht' : t ∈ s :: k.stops s := hstops ▸ h.stops ht
  rcases List.mem_cons.mp ht' with rfl | hmem
  · exact mem_stops_self k t
  · exact hmem

theorem writes {f : α → σ → Except ε σ} {items : List α} (h : whole.ComesTo (k.writes f items) s)
    (hf : ∀ a ∈ items, f a s = .ok s) : whole.ComesTo k s := by
  induction items with
  | nil => exact h
  | cons a rest ih =>
    have hrest : whole.ComesTo (k.writes f rest) s := h.write (hf a List.mem_cons_self)
    exact ih hrest fun a' ha' => hf a' (List.mem_cons_of_mem _ ha')

end ComesTo

end Program

open Program

/-- From a state with `P`, an attempt that completes ends in a state with `Q`, and one that stops
leaves a state with `C`. -/
def Triple (P : σ → Prop) (p : Program ε σ) (Q C : σ → Prop) : Prop :=
  ∀ s, P s → (∀ t, p.run s = .ok t → Q t) ∧ ∀ t ∈ p.stops s, C t

namespace Triple

variable {P R Q C : σ → Prop} {p k : Program ε σ} {f : σ → Except ε σ}

theorem done (hQ : ∀ s, P s → Q s) (hC : ∀ s, P s → C s) :
    Triple P (.done : Program ε σ) Q C := by
  intro s hs
  refine ⟨fun t ht => ?_, fun t ht => ?_⟩
  · rw [← Except.ok.inj ht]
    exact hQ s hs
  · rw [List.mem_singleton.mp ht]
    exact hC s hs

theorem raise {e : ε} (hC : ∀ s, P s → C s) : Triple P (.raise e : Program ε σ) Q C := by
  intro s hs
  refine ⟨fun t ht => ?_, fun t ht => ?_⟩
  · exact absurd ht (by simp [run])
  · rw [List.mem_singleton.mp ht]
    exact hC s hs

/-- What a program goes on with was read in the state it goes on from. -/
theorem read {k : σ → Program ε σ} (hk : ∀ s, P s → Triple (· = s) (k s) Q C) :
    Triple P (.read k) Q C :=
  fun s hs => hk s hs s rfl

theorem write (hC : ∀ s, P s → C s) (hf : ∀ s s', P s → f s = .ok s' → R s')
    (hk : Triple R k Q C) : Triple P (.write f k) Q C := by
  intro s hs
  rw [run, stops]
  cases hok : f s with
  | ok s' =>
    have hrest := hk s' (hf s s' hs hok)
    refine ⟨hrest.1, fun t ht => ?_⟩
    rcases List.mem_cons.mp ht with rfl | hmem
    · exact hC t hs
    · exact hrest.2 t hmem
  | error e =>
    refine ⟨fun t ht => absurd ht (by simp), fun t ht => ?_⟩
    rw [List.mem_singleton.mp ht]
    exact hC s hs

/-- The loop rule: an invariant indexed by the items still to come. -/
theorem writes {f : α → σ → Except ε σ} {I : List α → σ → Prop} {items : List α}
    (hC : ∀ rest s, I rest s → C s)
    (hf : ∀ a rest s s', I (a :: rest) s → f a s = .ok s' → I rest s')
    (hk : Triple (I []) k Q C) : Triple (I items) (k.writes f items) Q C := by
  induction items with
  | nil => exact hk
  | cons a rest ih => exact write (hC _) (hf a rest) ih

/-- The rule for a statement that does not raise. -/
theorem write_ok {g : σ → σ} (hC : ∀ s, P s → C s) (hg : ∀ s, P s → R (g s))
    (hk : Triple R k Q C) : Triple P (.write (fun s => .ok (g s)) k) Q C := by
  refine write hC (fun s s' hs hok => ?_) hk
  have hs' : g s = s' := Except.ok.inj hok
  exact hs' ▸ hg s hs

theorem writes_ok {g : α → σ → σ} {I : List α → σ → Prop} {items : List α}
    (hC : ∀ rest s, I rest s → C s) (hg : ∀ a rest s, I (a :: rest) s → I rest (g a s))
    (hk : Triple (I []) k Q C) :
    Triple (I items) (k.writes (fun a s => .ok (g a s)) items) Q C := by
  refine writes hC (fun a rest s s' hs hok => ?_) hk
  have hs' : g a s = s' := Except.ok.inj hok
  exact hs' ▸ hg a rest s hs

theorem conseq (h : Triple P p Q C) (hP : ∀ s, R s → P s) : Triple R p Q C :=
  fun s hs => h s (hP s hs)

end Triple

/-- Where an attempt at `p` stops, the whole program goes on with what `p` had left to do. -/
def Resumed (whole : Program ε σ) (P : σ → Prop) (p : Program ε σ) : Prop :=
  ∀ s, P s → ∀ t ∈ p.stops s, whole.run t = p.run s ∧ whole.stops t ⊆ p.stops s

namespace Resumed

variable {P R : σ → Prop} {whole k : Program ε σ} {f : σ → Except ε σ}

theorem done (h : ∀ s, P s → whole.ComesTo .done s) : Resumed whole P .done := by
  intro s hs t ht
  rw [List.mem_singleton.mp ht]
  exact ⟨(h s hs).run, (h s hs).stops⟩

theorem raise {e : ε} (h : ∀ s, P s → whole.ComesTo (.raise e) s) :
    Resumed whole P (.raise e) := by
  intro s hs t ht
  rw [List.mem_singleton.mp ht]
  exact ⟨(h s hs).run, (h s hs).stops⟩

theorem read {k : σ → Program ε σ} (hk : ∀ s, P s → Resumed whole (· = s) (k s)) :
    Resumed whole P (.read k) :=
  fun s hs => hk s hs s rfl

theorem write (h : ∀ s, P s → whole.ComesTo (.write f k) s)
    (hf : ∀ s s', P s → f s = .ok s' → R s') (hk : Resumed whole R k) :
    Resumed whole P (.write f k) := by
  intro s hs t ht
  have hself : whole.run s = (Program.write f k).run s ∧ whole.stops s ⊆ (Program.write f k).stops s :=
    ⟨(h s hs).run, (h s hs).stops⟩
  rw [run, stops] at hself ⊢
  rw [stops] at ht
  cases hok : f s with
  | ok s' =>
    rw [hok] at hself ht
    rcases List.mem_cons.mp ht with rfl | hmem
    · exact hself
    · have hrest := hk s' (hf s s' hs hok) t hmem
      exact ⟨hrest.1, fun u hu => List.mem_cons_of_mem _ (hrest.2 hu)⟩
  | error e =>
    rw [hok] at hself ht
    rw [List.mem_singleton.mp ht]
    exact hself

theorem writes {f : α → σ → Except ε σ} {I : List α → σ → Prop} {items : List α}
    (h : ∀ rest s, I rest s → whole.ComesTo (k.writes f rest) s)
    (hf : ∀ a rest s s', I (a :: rest) s → f a s = .ok s' → I rest s')
    (hk : Resumed whole (I []) k) : Resumed whole (I items) (k.writes f items) := by
  induction items with
  | nil => exact hk
  | cons a rest ih => exact write (h _) (hf a rest) ih

theorem write_ok {g : σ → σ} (h : ∀ s, P s → whole.ComesTo (.write (fun s => .ok (g s)) k) s)
    (hg : ∀ s, P s → R (g s)) (hk : Resumed whole R k) :
    Resumed whole P (.write (fun s => .ok (g s)) k) := by
  refine write h (fun s s' hs hok => ?_) hk
  have hs' : g s = s' := Except.ok.inj hok
  exact hs' ▸ hg s hs

theorem writes_ok {g : α → σ → σ} {I : List α → σ → Prop} {items : List α}
    (h : ∀ rest s, I rest s → whole.ComesTo (k.writes (fun a s => .ok (g a s)) rest) s)
    (hg : ∀ a rest s, I (a :: rest) s → I rest (g a s)) (hk : Resumed whole (I []) k) :
    Resumed whole (I items) (k.writes (fun a s => .ok (g a s)) items) := by
  refine writes h (fun a rest s s' hs hok => ?_) hk
  have hs' : g a s = s' := Except.ok.inj hok
  exact hs' ▸ hg a rest s hs

theorem conseq {p : Program ε σ} (h : Resumed whole P p) (hP : ∀ s, R s → P s) :
    Resumed whole R p :=
  fun s hs => h s (hP s hs)

end Resumed

/-- Any number of stopped attempts leave a state that a single one can leave, and from it the
program ends as it would have ended at once. -/
theorem attempts_resumed {p : Program ε σ} {s t : σ} (h : Resumed p (· = s) p)
    (ht : p.Attempts s t) : p.run t = p.run s ∧ t ∈ p.stops s := by
  induction ht with
  | refl => exact ⟨rfl, mem_stops_self p s⟩
  | tail _ hlast ih =>
    obtain ⟨-, hsub⟩ := h s rfl _ ih.2
    have hstop := hsub hlast
    exact ⟨(h s rfl _ hstop).1, hstop⟩

end Interruption
