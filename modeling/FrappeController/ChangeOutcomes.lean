import FrappeController.BrowseCache
import FrappeController.SourceDataTheorems

/-!
# A change that has returned is over

Whatever snapshots the calls read the journal in, no call sends the write of a change of which a
call has returned an outcome (`Settled.quiet`): the calls of a request id exclude each other while
they hold its lock, and the primary key of the journal stops one that did not see the row.
-/

namespace FrappeController
namespace SourceData

variable {R : Runtime} {w w' : World} {n m : ℕ} {call : Call}

/-- The journal has a row of that name. -/
def Logged (w : World) (name : LogName) : Prop := ∃ row ∈ w.journal, row.name = name

/-- The source may still make the write. -/
def Phase.Sending (phase : Phase) : Prop := phase = .intended ∨ phase = .performing

/-- What a call relies on, whatever snapshot it has. -/
structure Owned (R : Runtime) (w : World) (n : ℕ) (r : Running) : Prop where
  request : 1 ≤ r.phase.rank → w.locks (.request r.call.requestId) = some n
  record : 3 ≤ r.phase.rank → w.locks (.record (r.call.recordHash R)) = some n
  viewed : ∀ view, r.phase = .begun view ∨ r.phase = .locked view →
    ∀ row ∈ view, Logged w row.name
  /-- Until it commits its intent, no row has its name. -/
  unlogged : r.phase = .inserted → ¬ Logged w r.call.logName
  logged : 5 ≤ r.phase.rank → Logged w r.call.logName

structure Settled (R : Runtime) (w : World) : Prop where
  calls : ∀ n r, w.running n = some r → Owned R w n r
  logged : ∀ n call answer, (n, call, answer) ∈ w.answers → answer.reported = true →
    Logged w call.logName
  quiet : ∀ n call answer, (n, call, answer) ∈ w.answers → answer.reported = true →
    ∀ m r, w.running m = some r → r.call.logName = call.logName → ¬ r.phase.Sending

/-! ## What the steps of one call leave to the others -/

/-- A frame that keeps the names of the journal. -/
structure NamedFrame (n : ℕ) (w w' : World) : Prop extends Frame n w w' where
  names : ∀ name, Logged w name → Logged w' name

theorem NamedFrame.of_locks
    (hlocks : ∀ key m, w.locks key = some m → m ≠ n → w'.locks key = some m)
    (hjournal : w'.journal = w.journal) (hperformed : w'.performed = w.performed) :
    NamedFrame n w w' where
  toFrame := .of_locks hlocks hjournal hperformed
  names := fun name hname => by
    obtain ⟨row, hrow, hrowname⟩ := hname
    exact ⟨row, by rw [hjournal]; exact hrow, hrowname⟩

/-- Only the call that holds the lock of a request id adds a row of it. -/
theorem NamedFrame.logged_back (hframe : NamedFrame n w w') {name : LogName}
    (hlock : w.locks (.request name.requestId) ≠ some n) (h : Logged w' name) : Logged w name := by
  obtain ⟨row, hrow, hname⟩ := h
  rw [← hname] at hlock
  exact ⟨row, (hframe.rows row hlock).mp hrow, hname⟩

theorem NamedFrame.owned (hframe : NamedFrame n w w') (hne : m ≠ n) {r : Running}
    (h : Owned R w m r) : Owned R w' m r where
  request := fun hrank => hframe.locks _ _ (h.request hrank) hne
  record := fun hrank => hframe.locks _ _ (h.record hrank) hne
  viewed := fun view hview row hrow => hframe.names _ (h.viewed view hview row hrow)
  unlogged := by
    intro hphase hlogged
    have hlock : w.locks (.request r.call.logName.requestId) ≠ some n := by
      intro hn
      have hheld : w.locks (.request r.call.requestId) = some m := h.request (by rw [hphase]; simp)
      rw [show r.call.logName.requestId = r.call.requestId from rfl, hheld] at hn
      exact hne (Option.some.inj hn)
    exact h.unlogged hphase (hframe.logged_back hlock hlogged)
  logged := fun hrank => hframe.names _ (h.logged hrank)

section Update

variable {r? : Option Running}

theorem owned_update (h : Settled R w) (hframe : NamedFrame n w w')
    (hrunning : w'.running = Function.update w.running n r?)
    (hself : ∀ r, r? = some r → Owned R w' n r) :
    ∀ m r, w'.running m = some r → Owned R w' m r := by
  intro m r hr
  rw [hrunning] at hr
  by_cases hm : m = n
  · subst hm
    rw [Function.update_self] at hr
    exact hself r hr
  · rw [Function.update_of_ne hm] at hr
    exact hframe.owned hm (h.calls m r hr)

/-- A call moves on: it may begin to send only what no call has reported. -/
theorem Settled.moved (h : Settled R w) (hframe : NamedFrame n w w')
    (hrunning : w'.running = Function.update w.running n r?)
    (hself : ∀ r, r? = some r → Owned R w' n r) (hanswers : w'.answers = w.answers)
    (hsending : ∀ r, r? = some r → r.phase.Sending → ∀ m c answer, (m, c, answer) ∈ w.answers →
      answer.reported = true → r.call.logName ≠ c.logName) : Settled R w' where
  calls := owned_update h hframe hrunning hself
  logged := by
    intro m c answer hmem hreported
    rw [hanswers] at hmem
    exact hframe.names _ (h.logged m c answer hmem hreported)
  quiet := by
    intro k c answer hmem hreported m r hr hname
    rw [hanswers] at hmem
    rw [hrunning] at hr
    by_cases hm : m = n
    · subst hm
      rw [Function.update_self] at hr
      intro hsend
      exact hsending r hr hsend k c answer hmem hreported hname
    · rw [Function.update_of_ne hm] at hr
      exact h.quiet k c answer hmem hreported m r hr hname

/-- A call answers. If it reports an outcome, it held the lock and its row was there. -/
theorem Settled.finished (h : Settled R w) (hframe : NamedFrame n w w') {answer : Answer}
    (hrunning : w'.running = Function.update w.running n none)
    (hanswers : w'.answers = w.answers ++ [(n, call, answer)])
    (hreports : answer.reported = true →
      w.locks (.request call.requestId) = some n ∧ Logged w call.logName) : Settled R w' where
  calls := owned_update h hframe hrunning fun r hr => by cases hr
  logged := by
    intro m c reply hmem hreported
    rw [hanswers] at hmem
    rcases List.mem_append.mp hmem with hold | hnew
    · exact hframe.names _ (h.logged m c reply hold hreported)
    · cases List.mem_singleton.mp hnew
      exact hframe.names _ (hreports hreported).2
  quiet := by
    intro k c reply hmem hreported m r hr hname hsend
    rw [hrunning] at hr
    have hm : m ≠ n := by
      intro hm
      rw [hm, Function.update_self] at hr
      cases hr
    rw [Function.update_of_ne hm] at hr
    rw [hanswers] at hmem
    rcases List.mem_append.mp hmem with hold | hnew
    · exact h.quiet k c reply hold hreported m r hr hname hsend
    · cases List.mem_singleton.mp hnew
      -- both would hold the lock of the request id
      have hrank : 1 ≤ r.phase.rank := by
        rcases hsend with hphase | hphase <;> rw [hphase] <;> simp
      have hheld := (h.calls m r hr).request hrank
      have hid : r.call.requestId = call.requestId := congrArg LogName.requestId hname
      rw [hid, (hreports hreported).1] at hheld
      exact hm (Option.some.inj hheld).symm

end Update

/-! ## The steps -/

/-- An outcome the journal reports is that of a row of the change. -/
theorem row_of_consult {view : List LogRow} {answer : Answer} (h : consult R view call = some answer)
    (hreported : answer.reported = true) : ∃ row ∈ view, row.name = call.logName := by
  unfold consult at h
  split at h
  · cases h
    exact absurd hreported (by decide)
  · cases hfind : view.find? fun row => row.name == call.logName with
    | none =>
      rw [hfind] at h
      cases h
    | some row =>
      have hname : row.name = call.logName := by simpa using List.find?_some hfind
      exact ⟨row, List.mem_of_find?_eq_some hfind, hname⟩

theorem logged_append {row : LogRow} {name : LogName} :
    Logged { w with journal := w.journal ++ [row] } name ↔ Logged w name ∨ row.name = name := by
  constructor
  · intro h
    obtain ⟨other, hother, hname⟩ := h
    rcases List.mem_append.mp hother with hold | hnew
    · exact .inl ⟨other, hold, hname⟩
    · rw [List.mem_singleton.mp hnew] at hname
      exact .inr hname
  · intro h
    rcases h with ⟨other, hother, hname⟩ | hname
    · exact ⟨other, List.mem_append_left _ hother, hname⟩
    · exact ⟨row, List.mem_append_right _ (List.mem_singleton.mpr rfl), hname⟩

/-- The intent is written. -/
theorem Settled.inserted (h : Settled R w) (hr : w.running n = some ⟨call, .inserted⟩) :
    Settled R ({ w with journal := w.journal ++ [call.intent R] }.move n call .intended) := by
  have hself := h.calls n _ hr
  have hrequest := hself.request (by simp)
  have hframe : NamedFrame n w
      ({ w with journal := w.journal ++ [call.intent R] }.move n call .intended) := {
    locks := fun _ _ hm _ => hm
    rows := by
      intro row hrow
      have hne : row ≠ call.intent R := fun heq => hrow (by rw [heq]; exact hrequest)
      show row ∈ w.journal ++ [call.intent R] ↔ row ∈ w.journal
      simp [hne]
    performed := fun _ _ => Iff.rfl
    names := fun name hname => logged_append.mpr (.inl hname) }
  refine h.moved hframe rfl (fun r heq => ?_) rfl (fun r heq _ m c answer hmem hreported hname => ?_)
  · cases heq
    exact {
      request := fun _ => hrequest
      record := fun _ => hself.record (by simp)
      viewed := by simp
      unlogged := fun hphase => by cases hphase
      logged := fun _ => logged_append.mpr (.inr rfl) }
  · -- a reported change has its row already
    cases heq
    have hlogged := h.logged m c answer hmem hreported
    rw [← hname] at hlogged
    exact hself.unlogged rfl hlogged

theorem logged_saveOutcome {name : LogName} {result : List (String × Json)} {name' : LogName} :
    Logged { w with journal := saveOutcome name result w.journal } name' ↔ Logged w name' := by
  have hname : ∀ row : LogRow,
      (if row.name = name then { row with status := statusOf result, output := some result }
        else row).name = row.name := by
    intro row
    split <;> rfl
  constructor
  · intro h
    obtain ⟨row, hrow, hrowname⟩ := h
    obtain ⟨old, hold, heq⟩ := List.mem_map.mp hrow
    rw [← heq, hname old] at hrowname
    exact ⟨old, hold, hrowname⟩
  · intro h
    obtain ⟨row, hrow, hrowname⟩ := h
    exact ⟨_, List.mem_map_of_mem hrow, (hname row).trans hrowname⟩

/-- The outcome is written to the row of the intent. -/
theorem Settled.saved (h : Settled R w) {result : List (String × Json)}
    (hr : w.running n = some ⟨call, .finished result⟩) :
    Settled R ({ w with journal := saveOutcome call.logName result w.journal }.move n call
      (.recorded result)) := by
  have hself := h.calls n _ hr
  have hrequest := hself.request (by simp)
  have hframe : NamedFrame n w ({ w with journal := saveOutcome call.logName result w.journal }.move n
      call (.recorded result)) := {
    locks := fun _ _ hm _ => hm
    rows := by
      intro row hrow
      have hother : row.name ≠ call.logName := fun heq => hrow (by rw [heq]; exact hrequest)
      show row ∈ saveOutcome call.logName result w.journal ↔ row ∈ w.journal
      exact mem_saveOutcome_of_ne hother
    performed := fun _ _ => Iff.rfl
    names := fun name hname => logged_saveOutcome.mpr hname }
  refine h.moved hframe rfl (fun r heq => ?_) rfl (fun r heq hsend => ?_)
  · cases heq
    exact {
      request := fun _ => hrequest
      record := fun _ => hself.record (by simp)
      viewed := by simp
      unlogged := fun hphase => by cases hphase
      logged := fun _ => logged_saveOutcome.mpr (hself.logged (by simp)) }
  · cases heq
    rcases hsend with hphase | hphase <;> cases hphase

/-- A step of a call that writes nothing and does not begin to send. -/
theorem Settled.quiet_move (h : Settled R w)
    (hlocks : ∀ key m, w.locks key = some m → m ≠ n → w'.locks key = some m)
    (hjournal : w'.journal = w.journal) (hperformed : w'.performed = w.performed)
    (hanswers : w'.answers = w.answers) {phase : Phase}
    (hrunning : w'.running = Function.update w.running n (some ⟨call, phase⟩))
    (hself : Owned R w' n ⟨call, phase⟩) (hsending : ¬ phase.Sending) : Settled R w' := by
  refine h.moved (.of_locks hlocks hjournal hperformed) hrunning (fun r heq => ?_) hanswers
    (fun r heq hsend => ?_)
  · cases heq
    exact hself
  · cases heq
    exact absurd hsend hsending

/-- A call that ends without an outcome. -/
theorem Settled.ended (h : Settled R w)
    (hlocks : ∀ key m, w.locks key = some m → m ≠ n → w'.locks key = some m)
    (hjournal : w'.journal = w.journal) (hperformed : w'.performed = w.performed) {answer : Answer}
    (hrunning : w'.running = Function.update w.running n none)
    (hanswers : w'.answers = w.answers ++ [(n, call, answer)]) (hanswer : answer.reported = false) :
    Settled R w' :=
  h.finished (.of_locks hlocks hjournal hperformed) hrunning hanswers fun hreported =>
    absurd (hanswer.symm.trans hreported) Bool.false_ne_true

section Advance

variable {view : List LogRow}

/-- The lock of the request id is asked for. -/
theorem Settled.begun (h : Settled R w) (hr : w.running n = some ⟨call, .begun view⟩)
    (source : Source) : Settled R (SourceData.advance R w n call source (.begun view)) := by
  have hself := h.calls n _ hr
  show Settled R (if (w.locks (.request call.requestId)).isSome then _ else _)
  split
  · exact h.ended (fun _ _ hm _ => hm) rfl rfl rfl rfl rfl
  · rename_i hfree
    have hfree : w.locks (.request call.requestId) = none := by simpa using hfree
    refine h.quiet_move (keeps_acquire hfree) rfl rfl rfl rfl ?_ (by simp [Phase.Sending])
    exact {
      request := fun _ => Function.update_self ..
      record := fun hrank => absurd hrank (by simp)
      viewed := by
        intro view' hview row hrow
        rcases hview with hview | hview <;> cases hview
        exact hself.viewed view (.inl rfl) row hrow
      unlogged := fun hphase => by cases hphase
      logged := fun hrank => absurd hrank (by simp) }

/-- The journal is consulted: what it reports has its row. -/
theorem Settled.locked (h : Settled R w) (hr : w.running n = some ⟨call, .locked view⟩)
    (source : Source) : Settled R (SourceData.advance R w n call source (.locked view)) := by
  have hself := h.calls n _ hr
  have hrequest : w.locks (.request call.requestId) = some n := hself.request (by simp)
  rw [advance_locked]
  cases hconsult : consult R view call with
  | some answer =>
    refine h.finished (.of_locks (frame_leave answer hrequest).locks rfl rfl) rfl rfl
      fun hreported => ?_
    obtain ⟨row, hrow, hname⟩ := row_of_consult hconsult hreported
    have hlogged := hself.viewed view (.inr rfl) row hrow
    rw [hname] at hlogged
    exact ⟨hrequest, hlogged⟩
  | none =>
    refine h.quiet_move (fun _ _ hm _ => hm) rfl rfl rfl rfl ?_ (by simp [Phase.Sending])
    exact {
      request := fun _ => hrequest
      record := fun hrank => absurd hrank (by simp)
      viewed := by simp
      unlogged := fun hphase => by cases hphase
      logged := fun hrank => absurd hrank (by simp) }

/-- The lock of the record is asked for. -/
theorem Settled.checked (h : Settled R w) (hr : w.running n = some ⟨call, .checked⟩)
    (source : Source) : Settled R (SourceData.advance R w n call source .checked) := by
  have hrequest : w.locks (.request call.requestId) = some n :=
    (h.calls n _ hr).request (by simp)
  show Settled R (if (w.locks (.record (call.recordHash R))).isSome then _ else _)
  split
  · exact h.ended (frame_leave .busy hrequest).locks rfl rfl rfl rfl rfl
  · rename_i hfree
    have hfree : w.locks (.record (call.recordHash R)) = none := by simpa using hfree
    have hstill : Function.update w.locks (.record (call.recordHash R)) (some n)
        (.request call.requestId) = some n := by
      rw [Function.update_of_ne (by simp), hrequest]
    refine h.quiet_move (keeps_acquire hfree) rfl rfl rfl rfl ?_ (by simp [Phase.Sending])
    exact {
      request := fun _ => hstill
      record := fun _ => Function.update_self ..
      viewed := by simp
      unlogged := fun hphase => by cases hphase
      logged := fun hrank => absurd hrank (by simp) }

/-- The row is inserted only where the journal has none of its name, whatever the snapshot says. -/
theorem Settled.ready (h : Settled R w) (hr : w.running n = some ⟨call, .ready⟩)
    (source : Source) : Settled R (SourceData.advance R w n call source .ready) := by
  have hself := h.calls n _ hr
  have hrequest : w.locks (.request call.requestId) = some n := hself.request (by simp)
  have hrecord : w.locks (.record (call.recordHash R)) = some n := hself.record (by simp)
  show Settled R (if w.journal.any _ then _ else _)
  split
  · exact h.ended (frame_leaveBoth R .duplicateEntry hrequest hrecord).locks rfl rfl rfl rfl rfl
  · rename_i hany
    refine h.quiet_move (fun _ _ hm _ => hm) rfl rfl rfl rfl ?_ (by simp [Phase.Sending])
    exact {
      request := fun _ => hrequest
      record := fun _ => hrecord
      viewed := by simp
      unlogged := by
        intro _ hlogged
        obtain ⟨row, hrow, hname⟩ := hlogged
        exact hany (List.any_eq_true.mpr ⟨row, hrow, beq_iff_eq.mpr hname⟩)
      logged := fun hrank => absurd hrank (by simp) }

/-- The write is sent: nobody has reported its change. -/
theorem Settled.sent (h : Settled R w) (hr : w.running n = some ⟨call, .intended⟩) :
    Settled R ({ w with performed := w.performed ++ [(n, call)] }.move n call .performing) := by
  have hself := h.calls n _ hr
  have hframe : NamedFrame n w
      ({ w with performed := w.performed ++ [(n, call)] }.move n call .performing) := {
    locks := fun _ _ hm _ => hm
    rows := fun _ _ => Iff.rfl
    performed := by
      intro p hp
      have hne : p ≠ (n, call) := fun heq => hp (by rw [heq]; exact hself.request (by simp))
      show p ∈ w.performed ++ [(n, call)] ↔ p ∈ w.performed
      simp [hne]
    names := fun _ hname => hname }
  refine h.moved hframe rfl (fun r heq => ?_) rfl
    (fun r heq _ m c answer hmem hreported hname => ?_)
  · cases heq
    exact {
      request := fun _ => hself.request (by simp)
      record := fun _ => hself.record (by simp)
      viewed := by simp
      unlogged := fun hphase => by cases hphase
      logged := fun _ => hself.logged (by simp) }
  · cases heq
    exact h.quiet m c answer hmem hreported n _ hr hname (.inl rfl)

/-- `perform` has given something. -/
theorem Settled.settle (h : Settled R w) {phase : Phase} (hr : w.running n = some ⟨call, phase⟩)
    (hrank : 5 ≤ phase.rank) (performed : Performed) :
    Settled R (SourceData.settle R w n call performed) := by
  have hself := h.calls n _ hr
  have hrequest : w.locks (.request call.requestId) = some n := by
    apply hself.request
    show 1 ≤ phase.rank
    omega
  have hrecord : w.locks (.record (call.recordHash R)) = some n := by
    apply hself.record
    show 3 ≤ phase.rank
    omega
  unfold SourceData.settle
  split
  · refine h.quiet_move (fun _ _ hm _ => hm) rfl rfl rfl rfl ?_ (by simp [Phase.Sending])
    exact {
      request := fun _ => hrequest
      record := fun _ => hrecord
      viewed := by simp
      unlogged := fun hphase => by cases hphase
      logged := fun _ => hself.logged hrank }
  · exact h.ended (frame_leaveBoth R .raised hrequest hrecord).locks rfl rfl rfl rfl rfl

end Advance

/-- The next statement of a call. -/
theorem Settled.advance (h : Settled R w) {r : Running} (hr : w.running n = some r)
    (source : Source) : Settled R (SourceData.advance R w n r.call source r.phase) := by
  obtain ⟨call, phase⟩ := r
  cases phase with
  | begun view => exact h.begun hr source
  | locked view => exact h.locked hr source
  | checked => exact h.checked hr source
  | ready => exact h.ready hr source
  | inserted => exact h.inserted hr
  | intended =>
    rw [advance_intended]
    split
    · exact h.settle hr (by simp) _
    · exact h.sent hr
  | performing => exact h.settle hr (by simp) source.written
  | finished result => exact h.saved hr
  | recorded result =>
    have hself := h.calls n _ hr
    have hrequest : w.locks (.request call.requestId) = some n := hself.request (by simp)
    have hframe := frame_leaveBoth R (.performed result) hrequest (hself.record (by simp))
    exact h.finished (.of_locks hframe.locks rfl rfl) rfl rfl fun _ =>
      ⟨hrequest, hself.logged (by simp)⟩

theorem Settled.step {l : Label} (h : Settled R w) (hstep : SourceData.step R w l = some w') :
    Settled R w' := by
  cases l with
  | begin call =>
    simp only [SourceData.step] at hstep
    split at hstep
    · cases hstep
      refine h.quiet_move (fun _ _ hm _ => hm) rfl rfl rfl rfl ?_ (by simp [Phase.Sending])
      exact {
        request := fun hrank => absurd hrank (by simp)
        record := fun hrank => absurd hrank (by simp)
        -- what a new call has seen is the journal
        viewed := by
          intro view hview row hrow
          rcases hview with hview | hview <;> cases hview
          exact ⟨row, hrow, rfl⟩
        unlogged := fun hphase => by cases hphase
        logged := fun hrank => absurd hrank (by simp) }
    · cases hstep
  | next n source =>
    obtain ⟨r, hr, heq⟩ := Option.map_eq_some_iff.mp hstep
    rw [← heq]
    exact h.advance hr source
  | crash n =>
    obtain ⟨r, hr, heq⟩ := Option.map_eq_some_iff.mp hstep
    rw [← heq]
    exact h.moved (.of_locks (fun _ _ hm _ => hm) rfl rfl) rfl (fun r hr => by cases hr) rfl
      (fun r hr => by cases hr)
  | expire key =>
    simp only [SourceData.step] at hstep
    cases hkey : w.locks key with
    | none =>
      rw [hkey] at hstep
      cases hstep
    | some n =>
      simp only [hkey] at hstep
      split at hstep
      · cases hstep
      · rename_i hdead
        cases hstep
        -- only the lock of a call that is gone expires
        have hnone : w.running n = none := by simpa using hdead
        have hrunning : w.running = Function.update w.running n none := by
          rw [← hnone, Function.update_eq_self]
        exact h.moved (.of_locks (keeps_release hkey) rfl rfl) hrunning (fun r hr => by cases hr) rfl
          (fun r hr => by cases hr)

variable (R) in
theorem settled_initial : Settled R World.initial where
  calls := fun _ _ h => by cases h
  logged := fun _ _ _ h => by cases h
  quiet := fun _ _ _ h => by cases h

/-! ## What a step answers -/

/-- Where a reported outcome comes from: the journal, or the call's own write. -/
inductive Reports (R : Runtime) (w : World) (n : ℕ) (call : Call) : Answer → Prop
  | recorded {view : List LogRow} {output : List (String × Json)}
      (hr : w.running n = some ⟨call, .locked view⟩)
      (hconsult : consult R view call = some (.recorded output)) (h : notFailed output = true) :
      Reports R w n call (.recorded output)
  | performed {result : List (String × Json)} (hr : w.running n = some ⟨call, .recorded result⟩)
      (h : notFailed result = true) : Reports R w n call (.performed result)

/-- What the next statement of a call does to the calls and the answers. -/
structure Advanced (R : Runtime) (w : World) (n : ℕ) (w' : World) : Prop where
  alive : ∃ r, w.running n = some r
  next : w'.next = w.next
  running : ∃ r?, w'.running = Function.update w.running n r? ∧
    ∀ call result, w.running n = some ⟨call, .recorded result⟩ → r? = none
  answers : w'.answers = w.answers ∨ ∃ call answer, w'.answers = w.answers ++ [(n, call, answer)] ∧
    (answer.reported = true → Reports R w n call answer)

theorem Advanced.moved {phase phase' : Phase} (hr : w.running n = some ⟨call, phase⟩)
    (hphase : ∀ result, phase ≠ .recorded result) (hnext : w'.next = w.next)
    (hrunning : w'.running = Function.update w.running n (some ⟨call, phase'⟩))
    (hanswers : w'.answers = w.answers) : Advanced R w n w' where
  alive := ⟨_, hr⟩
  next := hnext
  running := by
    refine ⟨_, hrunning, fun call' result hr' => ?_⟩
    have hsame : some ⟨call, phase⟩ = some (⟨call', .recorded result⟩ : Running) := hr.symm.trans hr'
    cases hsame
    exact absurd rfl (hphase result)
  answers := .inl hanswers

theorem Advanced.answered {answer : Answer} {r : Running} (hr : w.running n = some r) (hnext : w'.next = w.next)
    (hrunning : w'.running = Function.update w.running n none)
    (hanswers : w'.answers = w.answers ++ [(n, call, answer)])
    (hreports : answer.reported = true → Reports R w n call answer) : Advanced R w n w' where
  alive := ⟨r, hr⟩
  next := hnext
  running := ⟨none, hrunning, fun _ _ _ => rfl⟩
  answers := .inr ⟨call, answer, hanswers, hreports⟩

theorem silent {answer : Answer} (hfalse : answer.reported = false) :
    answer.reported = true → Reports R w n call answer :=
  fun htrue => absurd (hfalse.symm.trans htrue) Bool.false_ne_true

/-- The answer of the journal, if it reports an outcome, is a recorded one. -/
theorem reports_of_consult {view : List LogRow} {answer : Answer}
    (hr : w.running n = some ⟨call, .locked view⟩) (hconsult : consult R view call = some answer)
    (hreported : answer.reported = true) : Reports R w n call answer := by
  cases answer with
  | recorded output => exact .recorded hr hconsult hreported
  | performed result => exact absurd hconsult (consult_ne_performed result)
  | busy => exact silent rfl hreported
  | rejected message => exact silent rfl hreported
  | duplicateEntry => exact silent rfl hreported
  | raised => exact silent rfl hreported

theorem advanced_settle {phase : Phase} (hr : w.running n = some ⟨call, phase⟩)
    (hphase : ∀ result, phase ≠ .recorded result) (performed : Performed) :
    Advanced R w n (settle R w n call performed) := by
  unfold settle
  split
  · exact .moved hr hphase rfl rfl rfl
  · exact .answered hr rfl rfl rfl (silent rfl)

theorem advanced {r : Running} (hr : w.running n = some r) (source : Source) :
    Advanced R w n (advance R w n r.call source r.phase) := by
  obtain ⟨call, phase⟩ := r
  cases phase with
  | begun view =>
    show Advanced R w n (if (w.locks (.request call.requestId)).isSome then _ else _)
    split
    · exact .answered hr rfl rfl rfl (silent rfl)
    · exact .moved hr (by simp) rfl rfl rfl
  | locked view =>
    rw [advance_locked]
    cases hconsult : consult R view call with
    | some answer => exact .answered hr rfl rfl rfl (reports_of_consult hr hconsult)
    | none => exact .moved hr (by simp) rfl rfl rfl
  | checked =>
    show Advanced R w n (if (w.locks (.record (call.recordHash R))).isSome then _ else _)
    split
    · exact .answered hr rfl rfl rfl (silent rfl)
    · exact .moved hr (by simp) rfl rfl rfl
  | ready =>
    show Advanced R w n (if w.journal.any _ then _ else _)
    split
    · exact .answered hr rfl rfl rfl (silent rfl)
    · exact .moved hr (by simp) rfl rfl rfl
  | inserted => exact .moved hr (by simp) rfl rfl rfl
  | intended =>
    rw [advance_intended]
    split
    · exact advanced_settle hr (by simp) _
    · exact .moved hr (by simp) rfl rfl rfl
  | performing => exact advanced_settle hr (by simp) source.written
  | finished result => exact .moved hr (by simp) rfl rfl rfl
  | recorded result =>
    exact .answered hr rfl rfl rfl fun hreported => .performed hr hreported

/-- What a step does to the calls and the answers. -/
inductive Stepped (R : Runtime) (w w' : World) : Label → Prop
  | begin {call : Call} {r : Running} (hnext : w'.next = w.next + 1)
      (hrunning : w'.running = Function.update w.running w.next (some r))
      (hanswers : w'.answers = w.answers) : Stepped R w w' (.begin call)
  | next {n : ℕ} {source : Source} (h : Advanced R w n w') : Stepped R w w' (.next n source)
  | ended {l : Label} (hnext : w'.next = w.next)
      (hrunning : ∀ m r, w'.running m = some r → w.running m = some r)
      (hanswers : w'.answers = w.answers) : Stepped R w w' l

theorem stepped {l : Label} (hstep : SourceData.step R w l = some w') : Stepped R w w' l := by
  cases l with
  | begin call =>
    simp only [SourceData.step] at hstep
    split at hstep
    · cases hstep
      exact .begin rfl rfl rfl
    · cases hstep
  | next n source =>
    obtain ⟨r, hr, heq⟩ := Option.map_eq_some_iff.mp hstep
    rw [← heq]
    exact .next (advanced hr source)
  | crash n =>
    obtain ⟨r, hr, heq⟩ := Option.map_eq_some_iff.mp hstep
    rw [← heq]
    refine .ended rfl (fun m r hm => ?_) rfl
    have hupdate : Function.update w.running n none m = some r := hm
    by_cases hne : m = n
    · rw [hne, Function.update_self] at hupdate
      cases hupdate
    · rw [Function.update_of_ne hne] at hupdate
      exact hupdate
  | expire key =>
    simp only [SourceData.step] at hstep
    cases hkey : w.locks key with
    | none =>
      rw [hkey] at hstep
      cases hstep
    | some n =>
      simp only [hkey] at hstep
      split at hstep
      · cases hstep
      · cases hstep
        exact .ended rfl (fun _ _ hm => hm) rfl

end SourceData
end FrappeController
