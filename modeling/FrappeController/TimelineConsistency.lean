import FrappeController.TimelineProgress

/-!
# Consistency of the timeline

The loop of `model` computes the progress its events report (`follows_scan`). From there: when the
rows of a finished operation are settled, when the step shown as stopped is the right one, and that
neither the order in which the events arrive nor a compensation of another step matters.
-/

namespace FrappeController
namespace OperationTimeline

open CsvImport (JsText)

variable {rt : JsRuntime}

/-! ## The rows -/

section Rows

variable {rows : List Row} {name n : JsText} {f : Row → Row}

/-- A row is there when its name is. -/
theorem has_eq_true : has rows n = true ↔ n ∈ rows.map Row.name := by
  simp [has]

/-- A write keeps the names. -/
theorem names_write (hf : ∀ row, (f row).name = row.name) :
    (write name f rows).map Row.name = rows.map Row.name := by
  rw [write, List.map_map]
  apply List.map_congr_left
  intro row _
  by_cases hname : row.name = name
  · simp [hname, hf]
  · simp [hname]

/-- A write adds no row. -/
theorem has_write (hf : ∀ row, (f row).name = row.name) : has (write name f rows) n = has rows n := by
  rw [Bool.eq_iff_iff, has_eq_true, has_eq_true, names_write hf]

/-- A write changes the status of the row of that name only. -/
theorem statusOf_write {g : Status → Status} (hf : ∀ row, (f row).name = row.name)
    (hg : ∀ row, (f row).status = g row.status) : statusOf (write name f rows) n =
      if n = name ∧ has rows name = true then g (statusOf rows n) else statusOf rows n := by
  have hfind : (write name f rows).find? (fun row => row.name == n)
      = (rows.find? fun row => row.name == n).map fun row => if row.name = name then f row else row := by
    rw [write, List.find?_map]
    congr 2
    funext row
    by_cases hname : row.name = name
    · simp [hname, hf]
    · simp [hname]
  unfold statusOf
  rw [hfind]
  cases hrow : rows.find? (fun row => row.name == n) with
  | none =>
    have hmissing : ¬ (n = name ∧ has rows name = true) := by
      intro h
      rw [h.1] at hrow
      have hnone := List.find?_eq_none.mp hrow
      obtain ⟨row, hmem, hname⟩ := List.any_eq_true.mp h.2
      exact hnone row hmem hname
    rw [if_neg hmissing]
    rfl
  | some row =>
    have hname : row.name = n := eq_of_beq (List.find?_some hrow :)
    by_cases hsame : n = name
    · have hpresent : has rows name = true := by
        refine List.any_eq_true.mpr ⟨row, List.mem_of_find?_eq_some hrow, ?_⟩
        rw [hname, hsame]
        exact beq_self_eq_true _
      rw [if_pos ⟨hsame, hpresent⟩]
      simp [hname, hsame, hg]
    · rw [if_neg fun h => hsame h.1]
      simp [hname, hsame]

/-- A write of other columns keeps every status. -/
theorem statusOf_write_same (hf : ∀ row, (f row).name = row.name)
    (hg : ∀ row, (f row).status = row.status) :
    statusOf (write name f rows) n = statusOf rows n := by
  rw [statusOf_write (g := id) hf hg]
  exact ite_self _

/-- The row of the name is there, and those that were. -/
theorem has_ensure : has (ensure rt rows name) n = (has rows n || n == name) := by
  unfold ensure
  split
  · rename_i hpresent
    by_cases hsame : n = name
    · rw [hsame, hpresent]
      rfl
    · simp [hsame]
  · rw [BEq.comm]
    simp [has]

/-- A new row is pending, like a step that has none. -/
theorem statusOf_ensure : statusOf (ensure rt rows name) n = statusOf rows n := by
  unfold ensure
  split
  · rfl
  · unfold statusOf
    rw [List.find?_append]
    cases hrow : rows.find? (fun row => row.name == n) with
    | some row => rfl
    | none =>
      rw [Option.none_or]
      simp only [List.find?_singleton]
      split <;> rfl

/-- A row is only added under a new name. -/
theorem nodup_ensure (h : (rows.map Row.name).Nodup) :
    ((ensure rt rows name).map Row.name).Nodup := by
  unfold ensure
  split
  · exact h
  · rename_i hmissing
    rw [List.map_append]
    refine h.append (List.nodup_singleton _) fun other hmem hnew => ?_
    rw [List.mem_singleton.mp hnew] at hmem
    exact hmissing (has_eq_true.mpr hmem)

/-- A row of the map is the row of its name. -/
theorem statusOf_mem (h : (rows.map Row.name).Nodup) {row : Row} (hrow : row ∈ rows) :
    statusOf rows row.name = row.status := by
  induction rows with
  | nil => exact absurd hrow List.not_mem_nil
  | cons first rest ih =>
    rw [List.map_cons, List.nodup_cons] at h
    unfold statusOf
    rw [List.find?_cons]
    rcases List.mem_cons.mp hrow with hsame | hmem
    · rw [hsame, beq_self_eq_true]
      rfl
    · have hother : (first.name == row.name) = false := by
        apply beq_false_of_ne
        intro hname
        exact h.1 (hname ▸ List.mem_map_of_mem hmem)
      rw [hother]
      exact ih h.2 hmem

end Rows

/-! ## The loop -/

/-- What an event reports. -/
def mark (rt : JsRuntime) (event : Event) : Mark JsText JsValue :=
  if isStep rt event then
    if event.is "step.started" then .started (stepName rt event)
    else if event.is "step.completed" then .completed (stepName rt event)
    else if event.is "step.compensated" then .compensated (stepName rt event)
    else if event.is "step.resumed" then .resumed (stepName rt event)
    else if event.is "step.failed" then .failed (stepName rt event)
    else .other
  else if event.is "execution.started" then .restarted
  else if event.is "execution.retry_scheduled" then .retryScheduled
  else if event.is "execution.finished" then .finished ((details rt event).get "state")
  else .other

/-- The variables of the loop are the progress. -/
structure Follows (s : Scan) (p : Progress JsText JsValue) : Prop where
  active : s.active = p.active
  stopped : s.stopped = p.stopped
  finalState : s.finalState = p.finalState.getD .null
  status : ∀ n, statusOf s.rows n = p.status n
  known : ∀ m, s.active = some m → has s.rows m = true
  names : (s.rows.map Row.name).Nodup

/-- An event has one type. -/
theorem Event.is_other {event : Event} {a b : String} (h : event.is a = true)
    (hne : (js a == js b) = false) : event.is b = false := by
  unfold Event.is at h ⊢
  rw [eq_of_beq h]
  exact hne

/-- An event of a step is of no other type. -/
theorem is_of_isStep {event : Event} {a : String} (h : isStep rt event = true)
    (hstart : (js "step.").isPrefixOf (js a) = false) : event.is a = false := by
  rw [isStep, Bool.and_eq_true] at h
  apply Bool.eq_false_iff.mpr
  intro his
  have hkind : event.kind = js a := eq_of_beq his
  rw [hkind, hstart] at h
  exact absurd h.1 Bool.false_ne_true

/-- Other events restart nothing. -/
theorem not_restarted {event : Event} {s : Scan} (h : event.is "execution.started" = false) :
    restart event s = s := if_neg (Bool.eq_false_iff.mp h)

/-- Other events retry nothing. -/
theorem not_retried {event : Event} {s : Scan} (h : event.is "execution.retry_scheduled" = false) :
    retried event s = s := if_neg (Bool.eq_false_iff.mp h)

/-- Other events finish nothing. -/
theorem not_finished {event : Event} {s : Scan} (h : event.is "execution.finished" = false) :
    finished rt event s = s := if_neg (Bool.eq_false_iff.mp h)

/-- The plan of an execution adds no row. -/
theorem has_listed {event : Event} {s : Scan} {n : JsText} :
    has (listed rt event s).rows n = has s.rows n := by
  unfold listed
  split
  · exact has_write fun _ => rfl
  · rfl

/-- A counted attempt adds no row. -/
theorem has_attempted {event : Event} {s : Scan} {name n : JsText} :
    has (attempted event name s).rows n = has s.rows n := has_write fun _ => rfl

/-- A compensation reports its step, where it names one. -/
theorem mark_compensated {event : Event} (h : event.is "step.compensated" = true) :
    mark rt event = if isStep rt event then .compensated (stepName rt event) else .other := by
  have hstarted : event.is "step.started" = false := event.is_other h (by decide)
  have hcompleted : event.is "step.completed" = false := event.is_other h (by decide)
  have hrestarted : event.is "execution.started" = false := event.is_other h (by decide)
  have hretried : event.is "execution.retry_scheduled" = false := event.is_other h (by decide)
  have hfinished : event.is "execution.finished" = false := event.is_other h (by decide)
  simp [mark, h, hstarted, hcompleted, hrestarted, hretried, hfinished]

namespace Follows

variable {s : Scan} {p : Progress JsText JsValue} {event : Event}

/-- A write that leaves the status. -/
theorem write (h : Follows s p) {name : JsText} {f : Row → Row} (hf : ∀ row, (f row).name = row.name)
    (hg : ∀ row, (f row).status = row.status) :
    Follows { s with rows := OperationTimeline.write name f s.rows } p where
  active := h.active
  stopped := h.stopped
  finalState := h.finalState
  status n := by
    rw [statusOf_write_same hf hg]
    exact h.status n
  known m hm := by
    rw [has_write hf]
    exact h.known m hm
  names := by
    rw [names_write hf]
    exact h.names

/-- The plan of an execution changes no status. -/
theorem listed (h : Follows s p) : Follows (listed rt event s) p := by
  unfold OperationTimeline.listed
  split
  · exact h.write (fun _ => rfl) fun _ => rfl
  · exact h

/-- The row of a step that reports is there, as in the progress. -/
theorem ensure (h : Follows s p) (name : JsText) :
    Follows { s with rows := ensure rt s.rows name } p where
  active := h.active
  stopped := h.stopped
  finalState := h.finalState
  status n := by
    rw [statusOf_ensure]
    exact h.status n
  known m hm := by
    rw [has_ensure, h.known m hm]
    rfl
  names := nodup_ensure h.names

/-- A write that sets the status. -/
theorem set (h : Follows s p) {name : JsText} {f : Row → Row} {g : Status → Status}
    {s' : Scan} {p' : Progress JsText JsValue}
    (hrows : s'.rows = OperationTimeline.write name f s.rows)
    (hf : ∀ row, (f row).name = row.name) (hg : ∀ row, (f row).status = g row.status)
    (hhas : has s.rows name = true) (hactive : s'.active = p'.active)
    (hstopped : s'.stopped = p'.stopped) (hfinal : s'.finalState = p'.finalState.getD .null)
    (hknown : ∀ m, s'.active = some m → m = name ∨ s.active = some m)
    (hstatus : ∀ n, p'.status n = if n = name then g (p.status n) else p.status n) :
    Follows s' p' where
  active := hactive
  stopped := hstopped
  finalState := hfinal
  status n := by
    rw [hrows, statusOf_write hf hg, hstatus, h.status]
    simp only [hhas, and_true]
  known m hm := by
    rw [hrows, has_write hf]
    rcases hknown m hm with hsame | hbefore
    · rw [hsame]
      exact hhas
    · exact h.known m hbefore
  names := by
    rw [hrows, names_write hf]
    exact h.names

/-- The event of a step. -/
theorem stepped (h : Follows s p) (hstep : isStep rt event = true)
    (hhas : has s.rows (stepName rt event) = true) :
    Follows (stepped event (stepName rt event) s) (p.next (mark rt event)) := by
  unfold OperationTimeline.stepped mark
  rw [if_pos hstep]
  -- the types of events exclude each other, and are tried in the order of the code
  by_cases hstarted : event.is "step.started" = true
  · rw [if_pos hstarted, if_pos hstarted]
    exact h.set (g := fun _ => .running) rfl (fun _ => rfl) (fun _ => rfl) hhas rfl rfl
      h.finalState (fun m hm => .inl (Option.some.inj hm).symm) (Progress.status_next p _)
  rw [if_neg hstarted, if_neg hstarted]
  by_cases hcompleted : event.is "step.completed" = true
  · rw [if_pos hcompleted, if_pos hcompleted]
    refine h.set (g := fun _ => .completed) rfl (fun _ => rfl) (fun _ => rfl) hhas ?_ h.stopped
      h.finalState ?_ (Progress.status_next p _)
    -- a completed step is no longer the active one
    · show (if s.active = some _ then none else s.active) = _
      rw [h.active]
      rfl
    · intro m hm
      by_cases hsame : s.active = some (stepName rt event)
      · exact absurd ((if_pos hsame).symm.trans hm) (by simp)
      · exact .inr ((if_neg hsame).symm.trans hm)
  rw [if_neg hcompleted, if_neg hcompleted]
  by_cases hcompensated : event.is "step.compensated" = true
  · rw [if_pos hcompensated, if_pos hcompensated]
    exact h.set (g := fun _ => .compensated) rfl (fun _ => rfl) (fun _ => rfl) hhas h.active
      h.stopped h.finalState (fun m hm => .inr hm) (Progress.status_next p _)
  rw [if_neg hcompensated, if_neg hcompensated]
  by_cases hresumed : event.is "step.resumed" = true
  · rw [if_pos hresumed, if_pos hresumed]
    -- a resumed step keeps a status that says it is done
    refine h.set (g := fun status =>
        if status ≠ .completed ∧ status ≠ .compensated then .resumed else status) rfl ?_ ?_
      hhas ?_ ?_ ?_ (fun m hm => .inr hm) ?_
    · intro row
      split <;> rfl
    · intro row
      split <;> rfl
    · rw [Progress.next_active]
      exact h.active
    · rw [Progress.next_stopped]
      exact h.stopped
    · rw [Progress.next_finalState]
      exact h.finalState
    · intro n
      rw [Progress.status_next]
      by_cases hn : n = stepName rt event
      · simp only [hn, true_and, if_true]
      · simp only [hn, false_and, if_false]
  rw [if_neg hresumed, if_neg hresumed]
  by_cases hfailed : event.is "step.failed" = true
  · rw [if_pos hfailed, if_pos hfailed]
    exact h.set (g := fun _ => .failed) rfl (fun _ => rfl) (fun _ => rfl) hhas h.active rfl
      h.finalState (fun m hm => .inr hm) (Progress.status_next p _)
  rw [if_neg hfailed, if_neg hfailed]
  exact h

/-- An event that is not of a step. -/
theorem restart (h : Follows s p) (hstart : event.is "execution.started" = true) :
    Follows (restart event s) (p.next .restarted) := by
  unfold OperationTimeline.restart
  rw [if_pos hstart]
  exact ⟨rfl, rfl, rfl, h.status, fun m hm => absurd hm (by simp), h.names⟩

/-- A scheduled retry is one event of the progress. -/
theorem retried (h : Follows s p) (hretry : event.is "execution.retry_scheduled" = true) :
    Follows (retried event s) (p.next .retryScheduled) := by
  unfold OperationTimeline.retried
  rw [if_pos hretry]
  cases hactive : s.active with
  | none =>
    have hnext : p.next .retryScheduled = p := by
      unfold Progress.next
      rw [← h.active, hactive]
    rw [hnext]
    refine ⟨?_, h.stopped, h.finalState, h.status, fun m hm => absurd hm (by simp), h.names⟩
    rw [← h.active, hactive]
  | some m =>
    have hp : p.active = some m := h.active ▸ hactive
    refine h.set (g := fun _ => .retrying) rfl (fun _ => rfl) (fun _ => rfl) (h.known m hactive)
      ?_ ?_ ?_ (fun k hk => .inr (hactive.trans hk)) ?_
    · rw [Progress.next_active]
      exact hp.symm
    · rw [Progress.next_stopped]
      exact h.stopped
    · rw [Progress.next_finalState]
      exact h.finalState
    · intro n
      rw [Progress.status_next]
      show (if p.active = some n then _ else _) = _
      rw [hp]
      by_cases hn : n = m
      · simp only [hn, if_true]
      · rw [if_neg hn, if_neg fun hsame => hn (Option.some.inj hsame).symm]

/-- The end of an execution is one event of the progress. -/
theorem finished (h : Follows s p) (hfinish : event.is "execution.finished" = true) :
    Follows (finished rt event s) (p.next (.finished ((details rt event).get "state"))) := by
  unfold OperationTimeline.finished
  rw [if_pos hfinish]
  exact ⟨h.active, h.stopped, rfl, h.status, h.known, h.names⟩

/-- One event of the loop is one event of the progress. -/
theorem step (h : Follows s p) (event : Event) :
    Follows (step rt s event) (p.next (mark rt event)) := by
  by_cases hstep : isStep rt event = true
  -- an event of a step is no event of the execution, so the other branches do nothing
  · have hstart : event.is "execution.started" = false := is_of_isStep hstep (by decide)
    have hretry : event.is "execution.retry_scheduled" = false := is_of_isStep hstep (by decide)
    have hfinish : event.is "execution.finished" = false := is_of_isStep hstep (by decide)
    have hstepped : OperationTimeline.step rt s event
        = OperationTimeline.stepped event (stepName rt event)
          (attempted event (stepName rt event) (OperationTimeline.listed rt event
            { s with rows := OperationTimeline.ensure rt s.rows (stepName rt event) })) := by
      simp only [OperationTimeline.step, if_pos hstep]
      rw [not_restarted hstart, not_retried hretry, not_finished hfinish]
    rw [hstepped]
    have hensured : Follows
        { s with rows := OperationTimeline.ensure rt s.rows (stepName rt event) } p := h.ensure _
    have hlisted : Follows (OperationTimeline.listed rt event _) p := hensured.listed
    have hattempted : Follows (attempted event (stepName rt event) _) p :=
      hlisted.write (fun _ => rfl) fun _ => rfl
    refine hattempted.stepped hstep ?_
    -- the step has a row, which was ensured first
    rw [has_attempted, has_listed, has_ensure, beq_self_eq_true, Bool.or_true]
  · unfold mark
    rw [if_neg hstep]
    have hstepped : OperationTimeline.step rt s event = OperationTimeline.finished rt event
        (OperationTimeline.retried event (OperationTimeline.listed rt event
          (OperationTimeline.restart event s))) := by
      simp [OperationTimeline.step, hstep]
    rw [hstepped]
    -- the events of the execution exclude each other
    by_cases hstart : event.is "execution.started" = true
    · rw [if_pos hstart, not_retried (event.is_other hstart (by decide)),
        not_finished (event.is_other hstart (by decide))]
      exact (h.restart hstart).listed
    rw [if_neg hstart, not_restarted (Bool.eq_false_iff.mpr hstart)]
    by_cases hretry : event.is "execution.retry_scheduled" = true
    · rw [if_pos hretry, not_finished (event.is_other hretry (by decide))]
      exact h.listed.retried hretry
    rw [if_neg hretry, not_retried (Bool.eq_false_iff.mpr hretry)]
    by_cases hfinish : event.is "execution.finished" = true
    · rw [if_pos hfinish]
      exact h.listed.finished hfinish
    · rw [if_neg hfinish, not_finished (Bool.eq_false_iff.mpr hfinish)]
      exact h.listed

end Follows

/-- Planned rows are pending, each step once. -/
theorem follows_planned (doc : Doc) (events : List Event) :
    Follows { rows := planned rt doc events } {} := by
  have hfoldl : ∀ (steps : List JsText) (rows : List Row), Follows { rows } {} →
      Follows { rows := steps.foldl (ensure rt) rows } {} := by
    intro steps
    induction steps with
    | nil => exact fun rows h => h
    | cons name rest ih => exact fun rows h => ih _ (h.ensure name)
  refine hfoldl _ [] ⟨rfl, rfl, rfl, fun n => rfl, fun m hm => ?_, List.nodup_nil⟩
  cases hm

/-- The loop computes the progress its events report. -/
theorem follows_scan (doc : Doc) (events : List Event) :
    Follows (scan rt doc events) (Progress.run (events.map (mark rt))) := by
  have hfoldl : ∀ (events : List Event) (s : Scan) (p : Progress JsText JsValue), Follows s p →
      Follows (events.foldl (step rt) s) ((events.map (mark rt)).foldl Progress.next p) := by
    intro events
    induction events with
    | nil => exact fun s p h => h
    | cons event rest ih => exact fun s p h => ih _ _ (h.step event)
  exact hfoldl events _ _ (follows_planned doc events)

/-! ## The order of the events -/

/-- The order of arrival does not matter where the numbers differ. -/
theorem inOrder_perm {events events' : List Event} (hdistinct : (events.map Event.sequence).Nodup)
    (hperm : events'.Perm events) : inOrder events' = inOrder events := by
  have hdistinct' : (events'.map Event.sequence).Nodup :=
    (hperm.map Event.sequence).nodup_iff.mpr hdistinct
  refine Keyed.eq_of_perm_of_strict ?_ (Keyed.strict_sortOn hdistinct')
    (Keyed.strict_sortOn hdistinct)
  exact ((Keyed.perm_sortOn events').trans hperm).trans (Keyed.perm_sortOn events).symm

/-- One more event takes its place among the others. -/
theorem inOrder_cons (event : Event) (events : List Event) :
    ∃ past rest, inOrder events = past ++ rest ∧ inOrder (event :: events) = past ++ event :: rest := by
  refine ⟨_, _, (List.takeWhile_append_dropWhile (p := fun other =>
    decide (¬ event.sequence ≤ other.sequence))).symm, ?_⟩
  exact List.orderedInsert_eq_take_drop (fun a b : Event => a.sequence ≤ b.sequence) event
    (inOrder events)

/-! ## The model -/

/-- What the events report, in the order of their numbers. -/
def history (rt : JsRuntime) (events : List Event) : History JsText JsValue :=
  (inOrder events).map (mark rt)

/-- The state the document and its last `execution.finished` show. -/
def stateAfter (doc : Doc) (es : History JsText JsValue) : JsValue :=
  shownState doc ((lastFinish es).getD .null)

section Model

variable {doc : Doc} {events : List Event}

/-- The state of the model is that after the events. -/
theorem state_model : (model rt doc events).state = stateAfter doc (history rt events) := by
  show shownState doc (scan rt doc (inOrder events)).finalState = _
  rw [(follows_scan doc (inOrder events)).finalState, Progress.finalState_run]
  rfl

/-- The step in progress when a failed execution ended. -/
theorem interrupted_eq {state : JsValue} {s : Scan} {p : Progress JsText JsValue}
    (h : Follows s p) (hterminal : terminal state = true)
    (hfailed : state.isText "succeeded" = false) : interrupted state s =
      match p.active with
      | some m => if p.status m = .compensated then none else some m
      | none => none := by
  unfold interrupted
  rw [h.active]
  cases p.active with
  | none => rfl
  | some m =>
    by_cases hback : p.status m = .compensated
    · simp [hterminal, hfailed, h.status, hback]
    · simp [hterminal, hfailed, h.status, hback]

/-- The stopped step of the model is that of the progress. -/
theorem stopped_model (hterminal : terminal (model rt doc events).state = true)
    (hfailed : (model rt doc events).state.isText "succeeded" = false) :
    (model rt doc events).stopped = (Progress.run (history rt events)).reported := by
  have h : Follows (scan rt doc (inOrder events)) _ := follows_scan doc (inOrder events)
  show (interrupted (model rt doc events).state _).or (scan rt doc (inOrder events)).stopped = _
  rw [interrupted_eq h hterminal hfailed, h.stopped]
  unfold Progress.reported history
  cases (Progress.run ((inOrder events).map (mark rt))).active with
  | none => rfl
  | some m =>
    simp only
    split <;> rfl

/-- No step of a finished operation is shown as going on. -/
def Settled (status : Status) : Prop := status ≠ .running ∧ status ≠ .retrying ∧ status ≠ .pending

/-- What the last pass makes of a row once the operation has ended. -/
theorem settled_settleRow {state : JsValue} {stopped : Option JsText} {stopIndex : Option ℕ}
    {row : Row} {index : ℕ} (hterminal : terminal state = true) :
    Settled (settleRow state stopped stopIndex row index).status
      ↔ row.status ≠ .retrying ∧ (row.status = .running → state.isText "succeeded" = true) := by
  unfold settleRow Settled
  cases hafter : (stopped.any CsvImport.isTruthy && stopIndex.all (· < index)) <;>
    cases hstatus : row.status <;> cases hsucceeded : state.isText "succeeded" <;>
    simp [hstatus, hterminal]

/-- What the last pass makes of all rows follows from their statuses. -/
theorem forall_interruptedRows {state : JsValue} {s : Scan} {es : List Event} {P : Status → Prop}
    (hfailed : P .failed) (hstopped : P .stopped) :
    (∀ row ∈ interruptedRows doc es state s, P row.status)
      ↔ ∀ row ∈ s.rows, interrupted state s ≠ some row.name → P row.status := by
  unfold interruptedRows
  split
  · rename_i active hactive
    rw [write, List.forall_mem_map, hactive]
    refine forall₂_congr fun row _ => ?_
    by_cases hname : row.name = active
    · have hset : P (if state.isText "failed" then .failed else .stopped) := by
        split
        · exact hfailed
        · exact hstopped
      simp [hname, hset]
    · simp [hname, Ne.symm hname]
  · rename_i hnone
    simp [hnone]

/-- What holds of all changed rows is decided row by row. -/
theorem forall_mapIdx {rows : List Row} {f : ℕ → Row → Row} {P Q : Status → Prop}
    (hf : ∀ index row, P (f index row).status ↔ Q row.status) :
    (∀ row ∈ rows.mapIdx f, P row.status) ↔ ∀ row ∈ rows, Q row.status := by
  induction rows generalizing f with
  | nil => simp
  | cons row rest ih =>
    rw [List.mapIdx_cons, List.forall_mem_cons, List.forall_mem_cons, hf,
      ih fun index row => hf (index + 1) row]

/-- The rows of a finished operation, by the statuses of the loop. -/
theorem settled_rows_iff (hterminal : terminal (model rt doc events).state = true) :
    (∀ row ∈ (model rt doc events).rows, Settled row.status)
      ↔ ∀ n, interrupted (model rt doc events).state (scan rt doc (inOrder events)) ≠ some n →
        (Progress.run (history rt events)).status n ≠ .retrying
          ∧ ((Progress.run (history rt events)).status n = .running →
            (model rt doc events).state.isText "succeeded" = true) := by
  have h : Follows (scan rt doc (inOrder events)) _ := follows_scan doc (inOrder events)
  -- the last pass settles every row that waits in no retry, apart from the interrupted one
  have hrows : (∀ row ∈ (model rt doc events).rows, Settled row.status)
      ↔ ∀ row ∈ (scan rt doc (inOrder events)).rows,
        interrupted (model rt doc events).state (scan rt doc (inOrder events)) ≠ some row.name →
        row.status ≠ .retrying
          ∧ (row.status = .running → (model rt doc events).state.isText "succeeded" = true) := by
    refine (forall_mapIdx (P := Settled) (Q := fun status => status ≠ .retrying
      ∧ (status = .running → (model rt doc events).state.isText "succeeded" = true))
      fun index row => settled_settleRow hterminal).trans ?_
    exact forall_interruptedRows (P := fun status => status ≠ .retrying
      ∧ (status = .running → (model rt doc events).state.isText "succeeded" = true))
      (by simp) (by simp)
  rw [hrows]
  constructor
  · intro hall n hother
    by_cases hhas : has (scan rt doc (inOrder events)).rows n = true
    · obtain ⟨row, hrow, hname⟩ := List.mem_map.mp (has_eq_true.mp hhas)
      have hstatus := statusOf_mem h.names hrow
      rw [h.status, hname] at hstatus
      rw [history, hstatus]
      exact hall row hrow (hname ▸ hother)
    -- a step without a row is pending in the progress
    · have hpending : (Progress.run (history rt events)).status n = .pending := by
        rw [history, ← h.status, statusOf]
        rw [List.find?_eq_none.mpr fun row hrow hname => hhas ?_]
        · rfl
        · exact List.any_eq_true.mpr ⟨row, hrow, hname⟩
      rw [hpending]
      exact ⟨by decide, fun hrunning => absurd hrunning (by decide)⟩
  · intro hall row hrow hother
    have hstatus := statusOf_mem h.names hrow
    rw [h.status] at hstatus
    rw [← hstatus]
    exact hall row.name hother

/-- When the rows of an operation that succeeded are settled. -/
theorem settled_succeeded_iff (hterminal : terminal (model rt doc events).state = true)
    (hsucceeded : (model rt doc events).state.isText "succeeded" = true) :
    (∀ row ∈ (model rt doc events).rows, Settled row.status)
      ↔ ∀ n, ¬ Waiting n (history rt events) := by
  have hnone : interrupted (model rt doc events).state (scan rt doc (inOrder events)) = none := by
    unfold interrupted
    split
    · rw [hsucceeded]
      simp
    · rfl
  rw [settled_rows_iff hterminal, hnone]
  refine forall_congr' fun n => ?_
  rw [← Progress.waiting_run]
  simp [hsucceeded]

/-- When the rows of an operation that ended without success are settled. -/
theorem settled_failed_iff (hterminal : terminal (model rt doc events).state = true)
    (hfailed : (model rt doc events).state.isText "succeeded" = false) :
    (∀ row ∈ (model rt doc events).rows, Settled row.status)
      ↔ ∀ n, LeftOpen n (history rt events) → InProgress n (history rt events) := by
  rw [settled_rows_iff hterminal, interrupted_eq (follows_scan doc (inOrder events)) hterminal hfailed]
  show (∀ n, (match (Progress.run (history rt events)).active with
    | some m => if (Progress.run (history rt events)).status m = .compensated then none else some m
    | none => none) ≠ some n → _) ↔ _
  refine forall_congr' fun n => ?_
  rw [← Progress.leftOpen_run, ← Progress.active_run]
  cases hactive : (Progress.run (history rt events)).active with
  | none => simp [hfailed, not_or, and_comm]
  | some m =>
    by_cases hm : m = n
    · subst hm
      cases hstatus : (Progress.run (history rt events)).status m <;> simp [hfailed, hstatus]
    · by_cases hback : (Progress.run (history rt events)).status m = .compensated
      · simp [hm, hback, hfailed, not_or, and_comm]
      · simp [hm, hback, hfailed, not_or, and_comm]

/-- A compensation of another step, wherever it stands among the events, leaves the state and the
step shown as stopped. -/
theorem compensation_inserted (hterminal : terminal (model rt doc events).state = true)
    (hfailed : (model rt doc events).state.isText "succeeded" = false) {event : Event}
    (hevent : event.is "step.compensated" = true)
    (hother : (model rt doc events).stopped ≠ some (stepName rt event)) :
    (model rt doc (event :: events)).stopped = (model rt doc events).stopped := by
  obtain ⟨past, rest, hevents, hmore⟩ := inOrder_cons event events
  have hbefore : history rt events = past.map (mark rt) ++ rest.map (mark rt) := by
    rw [history, hevents, List.map_append]
  have hafter : history rt (event :: events)
      = past.map (mark rt) ++ mark rt event :: rest.map (mark rt) := by
    rw [history, hmore, List.map_append, List.map_cons]
  have hmodel := stopped_model hterminal hfailed
  rw [hmodel] at hother ⊢
  have hboth : (model rt doc (event :: events)).state = (model rt doc events).state
      ∧ (Progress.run (history rt (event :: events))).reported
        = (Progress.run (history rt events)).reported := by
    rw [state_model, state_model, stateAfter, stateAfter, ← Progress.finalState_run,
      ← Progress.finalState_run]
    by_cases hstep : isStep rt event = true
    · have hmark : mark rt event = .compensated (stepName rt event) := by
        rw [mark_compensated hevent, if_pos hstep]
      have hcompensates := Progress.compensates_insert (past.map (mark rt)) (rest.map (mark rt))
        (stepName rt event)
      rw [← hbefore, ← hmark, ← hafter] at hcompensates
      exact ⟨by rw [hcompensates.finalState], hcompensates.reported hother⟩
    · have hmark : mark rt event = .other := by
        rw [mark_compensated hevent, if_neg hstep]
      have hrun : Progress.run (history rt (event :: events)) = Progress.run (history rt events) := by
        rw [hafter, hbefore, hmark, Progress.run, Progress.run, List.foldl_append, List.foldl_append]
        rfl
      rw [hrun]
      exact ⟨rfl, rfl⟩
  rw [← hboth.1] at hterminal hfailed
  rw [stopped_model hterminal hfailed, hboth.2]

end Model

/-! ## Consistency -/

/-- What the timeline promises of an operation and its events. -/
structure Consistent (rt : JsRuntime) (doc : Doc) (events : List Event) : Prop where
  /-- The events may arrive in any order. -/
  order : ∀ events', events'.Perm events → model rt doc events' = model rt doc events
  /-- Once the operation has ended no step goes on. -/
  settled : terminal (model rt doc events).state = true →
    (model rt doc events).active = none ∧ ∀ row ∈ (model rt doc events).rows, Settled row.status
  /-- The step shown as stopped is the last that started or failed. -/
  stops : terminal (model rt doc events).state = true →
    (model rt doc events).state.isText "succeeded" = false →
    StopsAt (history rt events) (model rt doc events).stopped
  /-- A compensation of another step does not move it. -/
  compensation : terminal (model rt doc events).state = true →
    (model rt doc events).state.isText "succeeded" = false →
    ∀ event, event.is "step.compensated" = true → event.sequence ∉ events.map Event.sequence →
      (model rt doc events).stopped ≠ some (stepName rt event) →
      (model rt doc (event :: events)).stopped = (model rt doc events).stopped

/-- No step is left waiting for a retry when the operation succeeds; when it ends otherwise, only
the step in progress is open, and no other step has failed beside it. -/
def Orderly (state : JsValue) (es : History JsText JsValue) : Prop :=
  if state.isText "succeeded" = true then ∀ n, ¬ Waiting n es
  else (∀ n, LeftOpen n es → InProgress n es) ∧ FailsInProgress es

/-- The timeline keeps its promises exactly for orderly events. -/
theorem consistent_iff (rt : JsRuntime) (doc : Doc) (events : List Event)
    (hdistinct : (events.map Event.sequence).Nodup) : Consistent rt doc events ↔
      (terminal (stateAfter doc (history rt events)) = true →
        Orderly (stateAfter doc (history rt events)) (history rt events)) := by
  rw [← state_model]
  constructor
  · intro h hterminal
    unfold Orderly
    have hrows := (h.settled hterminal).2
    by_cases hsucceeded : (model rt doc events).state.isText "succeeded" = true
    · rw [if_pos hsucceeded]
      exact (settled_succeeded_iff hterminal hsucceeded).mp hrows
    · rw [if_neg hsucceeded]
      have hfailed := Bool.eq_false_iff.mpr hsucceeded
      have hstops := h.stops hterminal hfailed
      rw [stopped_model hterminal hfailed] at hstops
      exact ⟨(settled_failed_iff hterminal hfailed).mp hrows,
        (Progress.stopsAt_reported_iff _).mp hstops⟩
  · intro horderly
    have hactive : terminal (model rt doc events).state = true → (model rt doc events).active = none :=
      fun hterminal => if_pos hterminal
    refine ⟨fun events' hperm => ?_, fun hterminal => ⟨hactive hterminal, ?_⟩,
      fun hterminal hfailed => ?_, fun hterminal hfailed event hevent _ hother => ?_⟩
    · unfold model
      rw [inOrder_perm hdistinct hperm]
    · have h := horderly hterminal
      unfold Orderly at h
      by_cases hsucceeded : (model rt doc events).state.isText "succeeded" = true
      · rw [if_pos hsucceeded] at h
        exact (settled_succeeded_iff hterminal hsucceeded).mpr h
      · rw [if_neg hsucceeded] at h
        exact (settled_failed_iff hterminal (Bool.eq_false_iff.mpr hsucceeded)).mpr h.1
    · have h := horderly hterminal
      rw [Orderly, if_neg (Bool.eq_false_iff.mp hfailed)] at h
      rw [stopped_model hterminal hfailed]
      exact (Progress.stopsAt_reported_iff _).mpr h.2
    · exact compensation_inserted hterminal hfailed hevent hother

namespace Sample

/-- `JSON.parse` of the details below. -/
def runtime : JsRuntime where
  parse text := if text = js "\x7b\x7d" then some (.object []) else none
  translate := js

def event (sequence : ℤ) (kind : String) (step : JsValue) : Event :=
  { sequence, kind := js kind, step }

def dns : JsValue := .string (js "dns")

def doc (state : String) : Doc :=
  { operation_type := js "site.create_blank", state := .string (js state) }

/-- One step, reported in the wrong order of arrival. -/
def succeeded : List Event :=
  [event 3 "step.completed" dns, event 2 "step.started" dns, event 1 "execution.started" .null]

/-- The step waits for a retry; the second execution ends before it starts the step again. -/
def retried : List Event :=
  [event 1 "execution.started" .null, event 2 "step.started" dns,
    event 3 "execution.retry_scheduled" .null, event 4 "execution.started" .null,
    event 5 "execution.finished" .null]

end Sample

/-- The events of the sample arrive out of order, and its timeline is consistent. -/
theorem consistent_sample : Consistent Sample.runtime (Sample.doc "succeeded") Sample.succeeded := by
  have hdistinct : (Sample.succeeded.map Event.sequence).Nodup := by decide
  refine (consistent_iff _ _ _ hdistinct).mpr fun _ => ?_
  have hhistory : history Sample.runtime Sample.succeeded
      = [.restarted, .started (js "dns"), .completed (js "dns")] := by
    with_unfolding_all rfl
  have hsucceeded : (stateAfter (Sample.doc "succeeded")
      (history Sample.runtime Sample.succeeded)).isText "succeeded" = true := by
    with_unfolding_all rfl
  rw [Orderly, if_pos hsucceeded, hhistory]
  intro n hwaiting
  rw [← Progress.waiting_run] at hwaiting
  by_cases hn : n = js "dns"
  · simp [Progress.run, Progress.next, Progress.set, hn] at hwaiting
  · simp [Progress.run, Progress.next, Progress.set, hn] at hwaiting

/-- The step that waited for a retry is shown as waiting after the operation has failed. -/
theorem retry_left_waiting : ¬ Consistent Sample.runtime (Sample.doc "failed") Sample.retried := by
  intro h
  have hterminal : terminal (model Sample.runtime (Sample.doc "failed") Sample.retried).state = true := by
    with_unfolding_all rfl
  have hwaiting : (model Sample.runtime (Sample.doc "failed") Sample.retried).rows.any
      (fun row => row.status == .retrying) = true := by
    with_unfolding_all rfl
  obtain ⟨row, hrow, hstatus⟩ := List.any_eq_true.mp hwaiting
  exact ((h.settled hterminal).2 row hrow).2.1 (eq_of_beq hstatus)

end OperationTimeline
end FrappeController
