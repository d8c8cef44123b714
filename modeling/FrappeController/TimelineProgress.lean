import FrappeController.Library.Since
import FrappeController.OperationTimeline
import Mathlib.Data.List.Induction

/-!
# What the events of an operation say about its steps

The abstract timeline: events are marks, steps are names of any type, and the progress after a
history is what its marks say (`Progress.run`). Each variable of the fold is a past-time property of
the history: the step in progress, the last failure, the steps left open.
-/

namespace FrappeController
namespace OperationTimeline

/-- What an event reports: of a step, of an execution, or nothing. -/
inductive Mark (ν σ : Type) where
  | started (step : ν)
  | completed (step : ν)
  | compensated (step : ν)
  | resumed (step : ν)
  | failed (step : ν)
  | restarted
  | retryScheduled
  | finished (state : σ)
  | other

variable {ν σ : Type}

namespace Mark

/-- The event reports of that step. -/
def Reports (n : ν) (e : Mark ν σ) : Prop :=
  e = .started n ∨ e = .completed n ∨ e = .compensated n ∨ e = .resumed n ∨ e = .failed n

def isRestart : Mark ν σ → Bool
  | .restarted => true
  | _ => false

def finish? : Mark ν σ → Option σ
  | .finished state => some state
  | _ => none

end Mark

/-! ## Histories -/

abbrev History (ν σ : Type) := List (Mark ν σ)

/-- Another step has started or failed, or the execution begins again. -/
def NextMark (_ : History ν σ) (e : Mark ν σ) : Prop :=
  (∃ n, e = .started n) ∨ (∃ n, e = .failed n) ∨ e = .restarted

/-- The step has started or failed. -/
def Marks (x : ν) (_ : History ν σ) (e : Mark ν σ) : Prop := e = .started x ∨ e = .failed x

/-- The last step that started or failed in this execution. -/
def LastMarked (x : ν) : History ν σ → Prop := Since (Marks x) NextMark

/-- No step has started or failed in this execution since this one failed. -/
def LastFailed (x : ν) : History ν σ → Prop := Since (fun _ e => e = .failed x) NextMark

/-- The last step that started in this execution, unless it has completed. -/
def InProgress (m : ν) : History ν σ → Prop :=
  Since (fun _ e => e = .started m)
    (fun _ e => (∃ n, e = .started n) ∨ e = .completed m ∨ e = .restarted)

/-- The step has completed or was rolled back since it last started or failed. -/
def Left (x : ν) : History ν σ → Prop :=
  Since (fun _ e => e = .completed x ∨ e = .compensated x)
    (Marks x)

/-- A retry is announced while the step is in progress. -/
def Awaits (n : ν) (past : History ν σ) (e : Mark ν σ) : Prop :=
  e = .retryScheduled ∧ InProgress n past

/-- A retry of the step is awaited; nothing has been reported of it since. -/
def Waiting (n : ν) : History ν σ → Prop := Since (Awaits n) (fun _ e => e.Reports n)

/-- The step has started or awaits a retry; nothing has been reported of it since. -/
def LeftOpen (n : ν) : History ν σ → Prop :=
  Since (fun past e => e = .started n ∨ Awaits n past e) (fun _ e => e.Reports n)

/-- The step was rolled back and is not taken up again. -/
def RolledBack (n : ν) : History ν σ → Prop :=
  Since (fun _ e => e = .compensated n)
    (fun past e => e = .started n ∨ e = .completed n ∨ e = .failed n ∨ Awaits n past e)

/-- How the execution ended: its last `execution.finished`. -/
def lastFinish (es : History ν σ) : Option σ :=
  (es.reverse.takeWhile fun e => !e.isRestart).findSome? Mark.finish?

/-! ## Progress -/

/-- The variables of the fold. -/
structure Progress (ν σ : Type) where
  active : Option ν := none
  stopped : Option ν := none
  finalState : Option σ := none
  status : ν → Status := fun _ => .pending

variable [DecidableEq ν]

namespace Progress

/-- The status of one step takes a new value. -/
def set (p : Progress ν σ) (n : ν) (status : Status) : Progress ν σ :=
  { p with status := Function.update p.status n status }

/-- One event. -/
def next (p : Progress ν σ) : Mark ν σ → Progress ν σ
  | .started n => { p.set n .running with active := some n, stopped := none }
  | .completed n =>
    { p.set n .completed with active := if p.active = some n then none else p.active }
  | .compensated n => p.set n .compensated
  | .resumed n =>
    if p.status n ≠ .completed ∧ p.status n ≠ .compensated then p.set n .resumed else p
  | .failed n => { p.set n .failed with stopped := some n }
  | .restarted => { p with active := none, stopped := none, finalState := none }
  | .retryScheduled =>
    match p.active with
    | some active => p.set active .retrying
    | none => p
  | .finished state => { p with finalState := some state }
  | .other => p

/-- The progress after a history. -/
def run (es : History ν σ) : Progress ν σ := es.foldl next {}

theorem run_snoc (es : History ν σ) (e : Mark ν σ) : run (es ++ [e]) = (run es).next e := by
  rw [run, List.foldl_append]
  rfl

/-! ## What the variables say of the history -/

theorem active_run (es : History ν σ) (m : ν) :
    (run es).active = some m ↔ InProgress m es := by
  induction es using List.reverseRecOn with
  | nil => simp [run, InProgress]
  | append_singleton past e ih =>
    rw [run_snoc, InProgress, Since.since_snoc]
    cases e with
    | started n => simp [next]
    -- the completion of another step leaves the step in progress
    | completed n =>
      show (if (run past).active = some n then none else (run past).active) = some m ↔ _
      by_cases hn : (run past).active = some n
      · rw [if_pos hn]
        have hsame : InProgress m past → m = n := fun h => by
          rw [ih.mpr h] at hn
          exact Option.some.inj hn
        simp only [reduceCtorEq, false_iff]
        intro h
        rcases h with h | ⟨hbefore, hends⟩
        · cases h
        · exact hends (.inr (.inl (by rw [hsame hbefore])))
      · rw [if_neg hn, ih]
        have hother : InProgress m past → m ≠ n := fun h hmn => hn (hmn ▸ ih.mpr h)
        constructor
        · intro h
          refine .inr ⟨h, fun hends => ?_⟩
          rcases hends with ⟨k, hk⟩ | hk | hk
          · cases hk
          · exact hother h (Mark.completed.inj hk).symm
          · cases hk
        · intro h
          rcases h with h | h
          · cases h
          · exact h.1
    | resumed n =>
      -- a resumption and a scheduled retry change statuses only
      have hactive : ((run past).next (.resumed n)).active = (run past).active := by
        simp only [next]
        split <;> rfl
      rw [hactive, ih]
      simp [InProgress]
    | restarted => simp [next]
    | retryScheduled =>
      have hactive : ((run past).next .retryScheduled).active = (run past).active := by
        simp only [next]
        split <;> rfl
      rw [hactive, ih]
      simp [InProgress]
    | compensated n | failed n | finished state | other =>
      simp only [next, set]
      rw [ih]
      simp [InProgress]

theorem stopped_run (es : History ν σ) (x : ν) :
    (run es).stopped = some x ↔ LastFailed x es := by
  induction es using List.reverseRecOn with
  | nil => simp [run, LastFailed]
  | append_singleton past e ih =>
    rw [run_snoc, LastFailed, Since.since_snoc]
    cases e with
    | started n => simp [next, NextMark]
    | failed n => simp [next, NextMark]
    | restarted => simp [next, NextMark]
    | resumed n =>
      have hstopped : ((run past).next (.resumed n)).stopped = (run past).stopped := by
        simp only [next]
        split <;> rfl
      rw [hstopped, ih]
      simp [LastFailed, NextMark]
    -- a retry keeps the failed step
    | retryScheduled =>
      have hstopped : ((run past).next .retryScheduled).stopped = (run past).stopped := by
        simp only [next]
        split <;> rfl
      rw [hstopped, ih]
      simp [LastFailed, NextMark]
    | completed n | compensated n | finished state | other =>
      simp only [next, set]
      rw [ih]
      simp [LastFailed, NextMark]

theorem finalState_run (es : History ν σ) : (run es).finalState = lastFinish es := by
  induction es using List.reverseRecOn with
  | nil => rfl
  | append_singleton past e ih =>
    have hsnoc : lastFinish (past ++ [e])
        = if e.isRestart then none else (e.finish?).or (lastFinish past) := by
      rw [lastFinish, List.reverse_append, List.reverse_singleton, List.singleton_append,
        List.takeWhile_cons]
      cases e <;> rfl
    rw [run_snoc, hsnoc, ← ih]
    cases e with
    | resumed n =>
      simp only [next]
      split <;> rfl
    | retryScheduled =>
      simp only [next]
      split <;> rfl
    | _ => rfl

/-- The status of a step after an event. -/
theorem status_next (p : Progress ν σ) (e : Mark ν σ) (n : ν) : (p.next e).status n =
    match e with
    | .started m => if n = m then .running else p.status n
    | .completed m => if n = m then .completed else p.status n
    | .compensated m => if n = m then .compensated else p.status n
    | .resumed m =>
      if n = m ∧ p.status n ≠ .completed ∧ p.status n ≠ .compensated then .resumed else p.status n
    | .failed m => if n = m then .failed else p.status n
    | .retryScheduled => if p.active = some n then .retrying else p.status n
    | .restarted | .finished _ | .other => p.status n := by
  cases e with
  | started m | completed m | compensated m | failed m => exact Function.update_apply _ _ _ _
  | resumed m =>
    by_cases hn : n = m
    · subst hn
      -- a step that is done stays done
      by_cases hkept : p.status n ≠ .completed ∧ p.status n ≠ .compensated
      · simp only [next]
        rw [if_pos hkept, if_pos ⟨trivial, hkept⟩]
        exact Function.update_self _ _ _
      · simp only [next]
        rw [if_neg hkept, if_neg fun h => hkept h.2]
    · have hskip : ¬ (n = m ∧ p.status n ≠ .completed ∧ p.status n ≠ .compensated) :=
        fun h => hn h.1
      simp only [next]
      rw [if_neg hskip]
      split
      · exact Function.update_of_ne hn _ _
      · rfl
  | retryScheduled =>
    simp only [next]
    split
    · rename_i m hactive
      rw [hactive]
      show Function.update p.status m .retrying n = _
      -- the step that waits is the one in progress
      rw [Function.update_apply]
      simp only [Option.some.injEq, eq_comm]
    · rename_i hactive
      rw [hactive]
      rfl
  | restarted | finished _ | other => rfl

theorem awaits_iff (past : History ν σ) (e : Mark ν σ) (n : ν) :
    Awaits n past e ↔ e = .retryScheduled ∧ (run past).active = some n := by
  rw [Awaits, active_run]

/-- A step waits for a retry exactly when its status says so. -/
theorem waiting_run (es : History ν σ) (n : ν) :
    (run es).status n = .retrying ↔ Waiting n es := by
  induction es using List.reverseRecOn with
  | nil => simp [run, Waiting]
  | append_singleton past e ih =>
    rw [run_snoc, Waiting, Since.since_snoc, status_next, awaits_iff]
    have hbefore : Since (Awaits n) (fun _ e => e.Reports n) past
        ↔ (run past).status n = .retrying := ih.symm
    rw [hbefore]
    cases e with
    | started m | completed m | compensated m | failed m =>
      by_cases hn : n = m
      · simp [hn, Mark.Reports]
      · simp [hn, Ne.symm hn, Mark.Reports]
    | resumed m =>
      by_cases hn : n = m
      · subst hn
        cases hstatus : (run past).status n <;> simp [Mark.Reports]
      · simp [hn, Ne.symm hn, Mark.Reports]
    | retryScheduled =>
      by_cases hactive : (run past).active = some n
      · simp [hactive]
      · simp [hactive, Mark.Reports]
    | restarted | finished _ | other => simp [Mark.Reports]

/-- The steps left open are those whose status is running or retrying. -/
theorem leftOpen_run (es : History ν σ) (n : ν) :
    (run es).status n = .running ∨ (run es).status n = .retrying ↔ LeftOpen n es := by
  induction es using List.reverseRecOn with
  | nil => simp [run, LeftOpen]
  | append_singleton past e ih =>
    rw [run_snoc, LeftOpen, Since.since_snoc, status_next, awaits_iff]
    have hbefore : Since (fun past e => e = .started n ∨ Awaits n past e)
        (fun _ e => e.Reports n) past
        ↔ (run past).status n = .running ∨ (run past).status n = .retrying := ih.symm
    rw [hbefore]
    cases e with
    | started m | completed m | compensated m | failed m =>
      by_cases hn : n = m
      · simp [hn, Mark.Reports]
      · simp [hn, Ne.symm hn, Mark.Reports]
    | resumed m =>
      by_cases hn : n = m
      · subst hn
        cases hstatus : (run past).status n <;> simp [Mark.Reports]
      · simp [hn, Ne.symm hn, Mark.Reports]
    | retryScheduled =>
      by_cases hactive : (run past).active = some n
      · simp [hactive]
      · simp [hactive, Mark.Reports]
    | restarted | finished _ | other => simp [Mark.Reports]

/-- The steps rolled back are those whose status is compensated. -/
theorem rolledBack_run (es : History ν σ) (n : ν) :
    (run es).status n = .compensated ↔ RolledBack n es := by
  induction es using List.reverseRecOn with
  | nil => simp [run, RolledBack]
  | append_singleton past e ih =>
    rw [run_snoc, RolledBack, Since.since_snoc, status_next, awaits_iff]
    have hbefore : Since (fun _ e => e = .compensated n)
        (fun past e => e = .started n ∨ e = .completed n ∨ e = .failed n ∨ Awaits n past e) past
        ↔ (run past).status n = .compensated := ih.symm
    rw [hbefore]
    cases e with
    | started m | completed m | compensated m | failed m =>
      by_cases hn : n = m
      · simp [hn]
      · simp [hn, Ne.symm hn]
    | resumed m =>
      by_cases hn : n = m
      · subst hn
        cases hstatus : (run past).status n <;> simp
      · simp [hn]
    | retryScheduled =>
      by_cases hactive : (run past).active = some n
      · simp [hactive]
      · simp [hactive]
    | restarted | finished _ | other => simp

end Progress

/-! ## Where an execution stopped -/

section Stops

variable {es : History ν σ} {m x : ν}

omit [DecidableEq ν]

theorem LastFailed.marked (h : LastFailed x es) : LastMarked x es :=
  h.mono (fun _ _ he => .inr he) fun _ _ he => he

theorem RolledBack.left (h : RolledBack x es) : Left x es := by
  refine h.mono (fun _ _ he => .inr he) fun _ _ he => ?_
  rcases he with he | he
  · exact .inl he
  · exact .inr (.inr (.inl he))

/-- One step at most is the last that started or failed. -/
theorem LastMarked.agree (hm : LastMarked m es) (hx : LastMarked x es) : m = x := by
  refine Since.agree (P := Marks) (Q := fun _ => NextMark) ?_ ?_ hm hx
  · intro n past e he _
    rcases he with he | he
    · exact .inl ⟨n, he⟩
    · exact .inr (.inl ⟨n, he⟩)
  · intro n k past e hn hk
    rcases hn with hn | hn <;> rcases hk with hk | hk <;> rw [hn] at hk
    · exact Mark.started.inj hk
    · cases hk
    · cases hk
    · exact Mark.failed.inj hk

/-- The last step marked failed, or it started and is in progress or was left. -/
theorem LastMarked.cases_on_end (h : LastMarked x es) :
    LastFailed x es ∨ InProgress x es ∨ Left x es := by
  induction h with
  | now he =>
    rcases he with he | he
    · exact .inr (.inl (.now he))
    · exact .inl (.now he)
  | @later past e _ hne ih =>
    rcases ih with hfailed | hprogress | hleft
    · exact .inl (.later hfailed hne)
    · by_cases hcompleted : e = .completed x
      · exact .inr (.inr (.now (.inl hcompleted)))
      · refine .inr (.inl (.later hprogress fun hends => ?_))
        rcases hends with hstarted | hends | hrestarted
        · exact hne (.inl hstarted)
        · exact hcompleted hends
        · exact hne (.inr (.inr hrestarted))
    · refine .inr (.inr (.later hleft fun hends => ?_))
      rcases hends with hstarted | hfailed
      · exact hne (.inl ⟨x, hstarted⟩)
      · exact hne (.inr (.inl ⟨x, hfailed⟩))

/-- The step in progress is the last one marked, unless a step has failed since. -/
theorem InProgress.marked (h : InProgress m es) :
    LastMarked m es ∨ ∃ x, LastFailed x es := by
  induction h with
  | now he => exact .inl (.now (.inl he))
  | @later past e _ hne ih =>
    by_cases hfailed : ∃ n, e = .failed n
    · obtain ⟨n, hn⟩ := hfailed
      exact .inr ⟨n, .now hn⟩
    · have hnext : ¬ NextMark past e := by
        intro hnext
        rcases hnext with hstarted | hmark | hrestarted
        · exact hne (.inl hstarted)
        · exact hfailed hmark
        · exact hne (.inr (.inr hrestarted))
      rcases ih with hmarked | ⟨x, hx⟩
      · exact .inl (.later hmarked hnext)
      · exact .inr ⟨x, .later hx hnext⟩

end Stops

/-- The step at which the execution stopped, where one is given, is the last that started or failed,
and that one is given unless it has completed or was rolled back since. -/
def StopsAt (es : History ν σ) (stopped : Option ν) : Prop :=
  (∀ x, stopped = some x → LastMarked x es)
    ∧ ∀ x, LastMarked x es → ¬ Left x es → stopped = some x

/-- No step fails while another one is in progress, unless that one is rolled back. -/
def FailsInProgress (es : History ν σ) : Prop :=
  ∀ m x, InProgress m es → LastFailed x es → m = x ∨ RolledBack m es

namespace Progress

/-- The step reported: the one in progress, unless rolled back, or else the last failure. -/
def reported (p : Progress ν σ) : Option ν :=
  match p.active with
  | some m => if p.status m = .compensated then p.stopped else some m
  | none => p.stopped

theorem reported_of_inProgress {es : History ν σ} {m : ν} (hm : InProgress m es)
    (hkept : ¬ RolledBack m es) : (run es).reported = some m := by
  rw [reported, (active_run es m).mpr hm]
  exact if_neg fun h => hkept ((rolledBack_run es m).mp h)

theorem reported_eq_some {es : History ν σ} {x : ν} (h : (run es).reported = some x) :
    InProgress x es ∧ ¬ RolledBack x es ∨ LastFailed x es := by
  unfold reported at h
  split at h
  · rename_i m hactive
    split at h
    · exact .inr ((stopped_run es x).mp h)
    · rename_i hkept
      rw [← Option.some.inj h]
      exact .inl ⟨(active_run es m).mp hactive, fun hback => hkept ((rolledBack_run es m).mpr hback)⟩
  · exact .inr ((stopped_run es x).mp h)

/-- When the step reported is the one at which the execution stopped. -/
theorem stopsAt_reported_iff (es : History ν σ) :
    StopsAt es (run es).reported ↔ FailsInProgress es := by
  constructor
  · intro h m x hm hx
    -- a step that was rolled back is no longer reported
    by_cases hback : RolledBack m es
    · exact .inr hback
    · have hlast := h.1 m (reported_of_inProgress hm hback)
      exact .inl (hlast.agree hx.marked)
  · intro hfails
    constructor
    · intro x hx
      rcases reported_eq_some hx with ⟨hprogress, hkept⟩ | hfailed
      · rcases hprogress.marked with hmarked | ⟨y, hy⟩
        · exact hmarked
        · rcases hfails x y hprogress hy with hsame | hback
          · rw [hsame]
            exact hy.marked
          · exact absurd hback hkept
      · exact hfailed.marked
    · intro x hmarked hleft
      -- what ended last at the step decides
      rcases hmarked.cases_on_end with hfailed | hprogress | hgone
      · have hstopped := (stopped_run es x).mpr hfailed
        unfold reported
        split
        · rename_i m hactive
          split
          · exact hstopped
          · rename_i hkept
            rcases hfails m x ((active_run es m).mp hactive) hfailed with hsame | hback
            · rw [hsame]
            · exact absurd ((rolledBack_run es m).mpr hback) hkept
        · exact hstopped
      · exact reported_of_inProgress hprogress fun hback => hleft hback.left
      · exact absurd hgone hleft

/-! ## Compensation of another step -/

/-- The same progress, but that the step `k` may be compensated. -/
structure Compensates (k : ν) (p p' : Progress ν σ) : Prop where
  active : p'.active = p.active
  stopped : p'.stopped = p.stopped
  finalState : p'.finalState = p.finalState
  others : ∀ n, n ≠ k → p'.status n = p.status n
  itself : p'.status k = p.status k ∨ p'.status k = .compensated

theorem next_active (p : Progress ν σ) (e : Mark ν σ) : (p.next e).active = match e with
    | .started n => some n
    | .completed n => if p.active = some n then none else p.active
    | .restarted => none
    | _ => p.active := by
  cases e with
  | resumed n =>
    simp only [next]
    split <;> rfl
  | retryScheduled =>
    simp only [next]
    split <;> rfl
  | _ => rfl

theorem next_stopped (p : Progress ν σ) (e : Mark ν σ) : (p.next e).stopped = match e with
    | .started _ | .restarted => none
    | .failed n => some n
    | _ => p.stopped := by
  cases e with
  | resumed n =>
    simp only [next]
    split <;> rfl
  | retryScheduled =>
    simp only [next]
    split <;> rfl
  | _ => rfl

theorem next_finalState (p : Progress ν σ) (e : Mark ν σ) : (p.next e).finalState = match e with
    | .restarted => none
    | .finished state => some state
    | _ => p.finalState := by
  cases e with
  | resumed n =>
    simp only [next]
    split <;> rfl
  | retryScheduled =>
    simp only [next]
    split <;> rfl
  | _ => rfl

theorem Compensates.next {k : ν} {p p' : Progress ν σ} (h : Compensates k p p') (e : Mark ν σ) :
    Compensates k (p.next e) (p'.next e) where
  active := by rw [next_active, next_active, h.active]
  stopped := by rw [next_stopped, next_stopped, h.stopped]
  finalState := by rw [next_finalState, next_finalState, h.finalState]
  others := by
    intro n hn
    rw [status_next, status_next, h.others n hn, h.active]
  itself := by
    rw [status_next, status_next, h.active]
    rcases h.itself with hsame | hback
    · rw [hsame]
      exact .inl rfl
    · rw [hback]
      cases e with
      | started m | completed m | compensated m | failed m =>
        by_cases hk : k = m
        · simp only [if_pos hk, true_or]
        · simp only [if_neg hk, or_true]
      | resumed m => simp
      | retryScheduled =>
        by_cases hactive : p.active = some k
        · simp only [if_pos hactive, true_or]
        · simp only [if_neg hactive, or_true]
      | restarted | finished _ | other => exact .inr rfl

theorem Compensates.foldl {k : ν} {p p' : Progress ν σ} (h : Compensates k p p')
    (es : History ν σ) : Compensates k (es.foldl Progress.next p) (es.foldl Progress.next p') := by
  induction es generalizing p p' with
  | nil => exact h
  | cons e rest ih => exact ih (h.next e)

/-- A compensation more, anywhere in the history. -/
theorem compensates_insert (past rest : History ν σ) (k : ν) :
    Compensates k (run (past ++ rest)) (run (past ++ .compensated k :: rest)) := by
  rw [run, run, List.foldl_append, List.foldl_append, List.foldl_cons]
  apply Compensates.foldl
  refine ⟨rfl, rfl, rfl, fun n hn => ?_, .inr ?_⟩
  · exact Function.update_of_ne hn _ _
  · exact Function.update_self _ _ _

theorem Compensates.reported {k : ν} {p p' : Progress ν σ} (h : Compensates k p p')
    (hother : p.reported ≠ some k) : p'.reported = p.reported := by
  unfold Progress.reported at hother ⊢
  rw [h.active, h.stopped]
  split
  · rename_i m hactive
    by_cases hm : m = k
    · subst hm
      have hback : p.status m = .compensated := by
        by_contra hkept
        rw [hactive] at hother
        exact hother (if_neg hkept)
      have hback' : p'.status m = .compensated := by
        rcases h.itself with hsame | hdone
        · rw [hsame]
          exact hback
        · exact hdone
      rw [if_pos hback, if_pos hback']
    · rw [h.others m hm]
  · rfl

end Progress

end OperationTimeline
end FrappeController
