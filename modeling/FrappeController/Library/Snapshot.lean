import FrappeController.Library.Run
import Mathlib.Logic.Function.Basic

/-!
# Transactions over snapshots

A transaction reads the state that was committed when it began, with its own writes applied
to it, and its writes take effect on whatever state is committed when it ends. Nothing
detects that two transactions read and wrote the same thing, so a commit may overwrite what
another one wrote since the snapshot.

A transaction is a list of statements. Each reads the transaction's own view and answers the
write it makes, so that transactions interleave statement by statement (`Snapshot.Step`).
`Snapshot.invariant` is the rule for what every committed state of a run satisfies: it asks
only what a whole transaction does to a state committed since its snapshot.
-/

namespace Snapshot

variable {σ ε ρ : Type}

/-- A statement reads a view and answers its write, or fails. -/
abbrev Statement (ε σ : Type) := σ → Except ε (σ → σ)

/-- What the statements write together, each on the view the ones before it left. -/
def perform : List (Statement ε σ) → σ → Except ε (σ → σ)
  | [], _ => .ok id
  | statement :: rest, view =>
    match statement view with
    | .error e => .error e
    | .ok write =>
      match perform rest (write view) with
      | .error e => .error e
      | .ok writes => .ok (writes ∘ write)

theorem perform_cons_eq_ok {statement : Statement ε σ} {rest : List (Statement ε σ)} {view : σ}
    {writes : σ → σ} :
    perform (statement :: rest) view = .ok writes ↔ ∃ write last, statement view = .ok write ∧
      perform rest (write view) = .ok last ∧ writes = last ∘ write := by
  rw [perform]
  cases hstatement : statement view with
  | error e => simp
  | ok write =>
    cases hrest : perform rest (write view) with
    | error e => simp [hrest]
    | ok last => simp [hrest, eq_comm]

/-- One more statement at the end. -/
theorem perform_snoc {done : List (Statement ε σ)} {statement : Statement ε σ} {view : σ}
    {writes write : σ → σ} (hdone : perform done view = .ok writes)
    (hlast : statement (writes view) = .ok write) :
    perform (done ++ [statement]) view = .ok (write ∘ writes) := by
  induction done generalizing view writes with
  | nil =>
    cases hdone
    exact perform_cons_eq_ok.mpr ⟨write, id, hlast, rfl, rfl⟩
  | cons first rest ih =>
    obtain ⟨write₁, last, hfirst, hrest, rfl⟩ := perform_cons_eq_ok.mp hdone
    exact perform_cons_eq_ok.mpr ⟨write₁, write ∘ last, hfirst, ih hrest hlast, rfl⟩

/-- The composite write of statements that all succeed. -/
def performed (statements : List (Statement ε σ)) (view : σ) : σ → σ :=
  match perform statements view with
  | .error _ => id
  | .ok writes => writes

theorem perform_eq_performed {statements : List (Statement ε σ)} {view : σ}
    (h : (perform statements view).isOk = true) :
    perform statements view = .ok (performed statements view) := by
  unfold performed
  cases hperform : perform statements view with
  | error e =>
    rw [hperform] at h
    cases h
  | ok writes => rfl

/-! ## The system -/

/-- A transaction under way. Its view is its snapshot with its writes. -/
structure Transaction (ε σ ρ : Type) where
  request : ρ
  snapshot : σ
  writes : σ → σ
  rest : List (Statement ε σ)

/-- The committed state, and the transactions under way by their number. -/
structure System (ε σ ρ : Type) where
  committed : σ
  active : ℕ → Option (Transaction ε σ ρ)

namespace System

variable (s : System ε σ ρ)

/-- The system with the transaction `number` replaced, or ended. -/
def setActive (number : ℕ) (t : Option (Transaction ε σ ρ)) : System ε σ ρ :=
  { s with active := Function.update s.active number t }

theorem setActive_setActive (number : ℕ) (t t' : Option (Transaction ε σ ρ)) :
    (s.setActive number t).setActive number t' = s.setActive number t' := by
  simp only [setActive, Function.update_idem]

theorem setActive_active (number : ℕ) (t : Option (Transaction ε σ ρ)) :
    (s.setActive number t).active number = t :=
  Function.update_self ..

@[simp] theorem setActive_committed (number : ℕ) (t : Option (Transaction ε σ ρ)) :
    (s.setActive number t).committed = s.committed := rfl

theorem setActive_eq_some {number other : ℕ} {t : Option (Transaction ε σ ρ)}
    {t' : Transaction ε σ ρ} (h : (s.setActive number t).active other = some t') :
    t = some t' ∨ s.active other = some t' := by
  simp only [setActive] at h
  by_cases hsame : other = number
  · subst hsame
    rw [Function.update_self] at h
    exact .inl h
  · rw [Function.update_of_ne hsame] at h
    exact .inr h

/-- A system without transactions. -/
def idle (c : σ) : System ε σ ρ := ⟨c, fun _ => none⟩

end System

inductive Label (ρ : Type) where
  | begin (number : ℕ) (request : ρ)
  | execute (number : ℕ)
  | commit (number : ℕ)
  | other

/-- One step: a transaction begins, executes its next statement (and ends if that fails), or
commits; or something else changes the committed state. -/
inductive Step (program : ρ → List (Statement ε σ)) (other : σ → σ → Prop) :
    System ε σ ρ → Label ρ → System ε σ ρ → Prop
  | begin {s : System ε σ ρ} {number : ℕ} {request : ρ} (hfree : s.active number = none) :
      Step program other s (.begin number request)
        (s.setActive number (some ⟨request, s.committed, id, program request⟩))
  | execute {s : System ε σ ρ} {number : ℕ} {t : Transaction ε σ ρ} {statement : Statement ε σ}
      {rest : List (Statement ε σ)} {write : σ → σ} (ht : s.active number = some t)
      (hrest : t.rest = statement :: rest) (hok : statement (t.writes t.snapshot) = .ok write) :
      Step program other s (.execute number)
        (s.setActive number (some { t with writes := write ∘ t.writes, rest := rest }))
  | abort {s : System ε σ ρ} {number : ℕ} {t : Transaction ε σ ρ} {statement : Statement ε σ}
      {rest : List (Statement ε σ)} {e : ε} (ht : s.active number = some t)
      (hrest : t.rest = statement :: rest) (herror : statement (t.writes t.snapshot) = .error e) :
      Step program other s (.execute number) (s.setActive number none)
  | commit {s : System ε σ ρ} {number : ℕ} {t : Transaction ε σ ρ}
      (ht : s.active number = some t) (hdone : t.rest = []) :
      Step program other s (.commit number)
        ({ s with committed := t.writes s.committed }.setActive number none)
  | other {s : System ε σ ρ} {c : σ} (hother : other s.committed c) :
      Step program other s .other { s with committed := c }

/-- The commits of a step satisfy `Ok`, a condition on the request, its snapshot and the state
it commits to. -/
def Commits (Ok : ρ → σ → σ → Prop) (s : System ε σ ρ) (l : Label ρ) : Prop :=
  ∀ number, l = .commit number → ∀ t, s.active number = some t →
    Ok t.request t.snapshot s.committed

/-! ## The invariant rule -/

/-- What holds of a transaction under way: it has executed the first statements of its program
on its snapshot, and the committed state has moved on from that snapshot. -/
def Underway (program : ρ → List (Statement ε σ)) (Since : σ → σ → Prop) (c : σ)
    (t : Transaction ε σ ρ) : Prop :=
  Since t.snapshot c ∧ ∃ done, program t.request = done ++ t.rest ∧
    perform done t.snapshot = .ok t.writes

/-- If a whole transaction keeps `Inv` when it commits to a state reached since its snapshot,
and so do the other changes, then every committed state of a run satisfies `Inv`. -/
theorem invariant {program : ρ → List (Statement ε σ)} {other : σ → σ → Prop}
    {Inv : σ → Prop} {Since : σ → σ → Prop} {Ok : ρ → σ → σ → Prop}
    (hrefl : ∀ c, Inv c → Since c c)
    (hcommit : ∀ request snapshot c writes, Inv c → Since snapshot c → Ok request snapshot c →
      perform (program request) snapshot = .ok writes →
        Inv (writes c) ∧ ∀ older, Since older c → Since older (writes c))
    (hother : ∀ c c', Inv c → other c c' → Inv c' ∧ ∀ older, Since older c → Since older c')
    {s t : System ε σ ρ} {ls : List (Label ρ)}
    (hrun : Run (fun s l t => Step program other s l t ∧ Commits Ok s l) s ls t)
    (hidle : ∀ number, s.active number = none) (hstart : Inv s.committed) : Inv t.committed := by
  -- with the invariant, every open transaction has run a prefix of its program over its snapshot
  let I : System ε σ ρ → Prop := fun s => Inv s.committed ∧
    ∀ number t, s.active number = some t → Underway program Since s.committed t
  have hstep : ∀ s l t, I s → Step program other s l t ∧ Commits Ok s l → I t := by
    rintro s l t ⟨hinv, hactive⟩ ⟨hstep, hok⟩
    cases hstep with
    | @begin number request hfree =>
      refine ⟨hinv, fun number' t' ht' => ?_⟩
      rcases s.setActive_eq_some ht' with hnew | hold
      · cases hnew
        exact ⟨hrefl _ hinv, [], rfl, rfl⟩
      · exact hactive number' t' hold
    | @execute number t statement rest write ht hrest hwrite =>
      refine ⟨hinv, fun number' t' ht' => ?_⟩
      rcases s.setActive_eq_some ht' with hnew | hold
      · cases hnew
        -- one statement more of the program has been performed
        obtain ⟨hsince, done, hprogram, hdone⟩ := hactive number t ht
        have hperform := perform_snoc hdone hwrite
        refine ⟨hsince, done ++ [statement], ?_, hperform⟩
        rw [hprogram, hrest, List.append_assoc]
        rfl
      · exact hactive number' t' hold
    | abort ht hrest herror =>
      refine ⟨hinv, fun number' t' ht' => ?_⟩
      rcases s.setActive_eq_some ht' with hnew | hold
      · cases hnew
      · exact hactive number' t' hold
    -- a commit performs its writes on the newest version; the other transactions keep their
    -- snapshots
    | @commit number t ht hdone =>
      obtain ⟨hsince, done, hprogram, hperform⟩ := hactive number t ht
      rw [hdone, List.append_nil] at hprogram
      obtain ⟨hinv', hlater⟩ := hcommit _ _ _ _ hinv hsince (hok number rfl t ht)
        (hprogram ▸ hperform)
      refine ⟨hinv', fun number' t' ht' => ?_⟩
      rcases System.setActive_eq_some _ ht' with hnew | hold
      · cases hnew
      · obtain ⟨hsince', hrest'⟩ := hactive number' t' hold
        exact ⟨hlater _ hsince', hrest'⟩
    | @other c hchange =>
      obtain ⟨hinv', hlater⟩ := hother _ _ hinv hchange
      refine ⟨hinv', fun number' t' ht' => ?_⟩
      obtain ⟨hsince', hrest'⟩ := hactive number' t' ht'
      exact ⟨hlater _ hsince', hrest'⟩
  have hinit : I s := ⟨hstart, fun number t ht => by rw [hidle number] at ht; cases ht⟩
  exact (hrun.invariant hstep hinit).1

/-! ## Whole transactions -/

section Whole

variable {program : ρ → List (Statement ε σ)} {other : σ → σ → Prop} {Ok : ρ → σ → σ → Prop}

/-- A transaction whose statements all succeed can execute the rest of them. -/
theorem run_execute {s : System ε σ ρ} {number : ℕ} {t : Transaction ε σ ρ} {last : σ → σ}
    (ht : s.active number = some t) (hperform : perform t.rest (t.writes t.snapshot) = .ok last) :
    Run (fun s l t => Step program other s l t ∧ Commits Ok s l) s
      (List.replicate t.rest.length (.execute number))
      (s.setActive number (some { t with writes := last ∘ t.writes, rest := [] })) := by
  obtain ⟨request, snapshot, writes, rest⟩ := t
  dsimp only at hperform ⊢
  induction rest generalizing s writes last with
  | nil =>
    cases hperform
    have hsame : s.setActive number (some ⟨request, snapshot, id ∘ writes, []⟩) = s := by
      rw [Function.id_comp, ← ht]
      simp only [System.setActive, Function.update_eq_self]
    rw [hsame]
    exact .nil s
  | cons statement rest ih =>
    obtain ⟨write, last, hwrite, hrest, rfl⟩ := perform_cons_eq_ok.mp hperform
    have hfirst : Step program other s (.execute number)
        (s.setActive number (some ⟨request, snapshot, write ∘ writes, rest⟩)) :=
      .execute ht rfl hwrite
    have hlater := ih (write ∘ writes) (s.setActive_active number _) hrest
    rw [System.setActive_setActive] at hlater
    exact (Run.single ⟨hfirst, fun _ h => by cases h⟩).append hlater

/-- A request can begin and execute all its statements. -/
theorem run_request {s : System ε σ ρ} {number : ℕ} {request : ρ} {writes : σ → σ}
    (hfree : s.active number = none)
    (hperform : perform (program request) s.committed = .ok writes) :
    Run (fun s l t => Step program other s l t ∧ Commits Ok s l) s
      (.begin number request :: List.replicate (program request).length (.execute number))
      (s.setActive number (some ⟨request, s.committed, writes, []⟩)) := by
  have hbegin : Step program other s (.begin number request)
      (s.setActive number (some ⟨request, s.committed, id, program request⟩)) := .begin hfree
  let t : Transaction ε σ ρ := ⟨request, s.committed, id, program request⟩
  have hexecute : Run (fun s l t => Step program other s l t ∧ Commits Ok s l)
      (s.setActive number (some t)) (List.replicate t.rest.length (.execute number))
      ((s.setActive number (some t)).setActive number
        (some { t with writes := writes ∘ t.writes, rest := [] })) :=
    run_execute (s.setActive_active number _) hperform
  rw [System.setActive_setActive] at hexecute
  exact (Run.single ⟨hbegin, fun _ h => by cases h⟩).append hexecute

end Whole

end Snapshot
