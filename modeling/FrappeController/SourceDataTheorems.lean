import FrappeController.Library.Run
import FrappeController.SourceData

/-!
# What the change journal guarantees

The invariant (`Inv`) says what a call under way may rely on (`Holds`): the locks it took, and
what the journal says about its request id. It is kept by every step in which a call consults
the journal in a snapshot that agrees with the committed journal on its request id (`Fresh`).
-/

namespace FrappeController
namespace SourceData

variable (R : Runtime)

/-! ## Identical requests -/

/-- The two calls have the same data, up to the order of the record's keys. -/
structure SameData (c c' : Call) : Prop where
  action : c.action = c'.action
  resource : c.resource = c'.resource
  user : c.user = c'.user
  origin : c.origin = c'.origin
  record : (Json.obj c.record).sorted = (Json.obj c'.record).sorted

theorem sorted_data (c : Call) :
    c.data.sorted = .obj [("action", .str c.action.text), ("origin", .str c.origin),
      ("record", (Json.obj c.record).sorted), ("resource", .str c.resource),
      ("user", .str c.user)] := by
  have hsort : ∀ a b d e f : Json, sortByKey [("user", a), ("origin", b), ("action", d),
      ("resource", e), ("record", f)] = [("action", d), ("origin", b), ("record", f),
      ("resource", e), ("user", a)] := by
    intro a b d e f
    have hbefore : "record" < "resource" ∧ "action" < "record" ∧ "action" < "origin"
        ∧ "origin" < "record" := by decide
    have hafter : ¬ "resource" < "record" ∧ ¬ "origin" < "action" ∧ ¬ "user" < "action"
        ∧ ¬ "user" < "origin" ∧ ¬ "user" < "record" ∧ ¬ "user" < "resource" := by decide
    simp [sortByKey, insertByKey, hbefore, hafter]
  exact congrArg Json.obj (hsort ..)

theorem text_injective {a b : Action} (h : a.text = b.text) : a = b := by
  cases a <;> cases b <;> first | rfl | exact absurd h (by decide)

/-- The payload text is equal exactly for identical data. -/
theorem payload_eq_iff {R : Runtime} (hfloat : FloatRepr R) (c c' : Call) :
    c.payload R = c'.payload R ↔ SameData c c' := by
  constructor
  · intro h
    have hsorted := dumpsWith_injective hfloat .spaced h
    rw [sorted_data, sorted_data] at hsorted
    simp only [Json.obj.injEq, List.cons.injEq, Prod.mk.injEq, true_and, Json.str.injEq,
      and_true] at hsorted
    obtain ⟨haction, horigin, hrecord, hresource, huser⟩ := hsorted
    exact ⟨text_injective haction, hresource, huser, horigin, hrecord⟩
  · intro h
    unfold Call.payload Runtime.dumpsWith
    rw [sorted_data, sorted_data, h.action, h.resource, h.user, h.origin, h.record]

/-- The two records have the same fields, texts up to case. -/
structure SameFields (fields fields' : List (String × Json)) : Prop where
  keys : (fields.map Prod.fst).Nodup
  keys' : (fields'.map Prod.fst).Nodup
  entries : ∀ entry, entry ∈ fields.map (fun f => (f.1, Call.casefolded R f.2)) ↔
    entry ∈ fields'.map (fun f => (f.1, Call.casefolded R f.2))

/-- The two calls change the same record of the source: edits or deletions of one id, or additions
of matching records. -/
def SameRecord (c c' : Call) : Prop :=
  c.origin = c'.origin ∧ c.resource = c'.resource ∧
    match c.action, c'.action with
    | .add, .add => SameFields R c.record c'.record
    | .add, .edit | .add, .delete | .edit, .add | .delete, .add => False
    | .edit, .edit | .edit, .delete | .delete, .edit | .delete, .delete =>
      Json.get c.record "id" = Json.get c'.record "id"

variable {R} in
/-- Matching records fold to one object. -/
theorem sorted_eq_of_sameFields {fields fields' : List (String × Json)}
    (h : SameFields R fields fields') :
    (Json.obj (fields.map fun f => (f.1, Call.casefolded R f.2))).sorted =
      (Json.obj (fields'.map fun f => (f.1, Call.casefolded R f.2))).sorted := by
  have hkeys : ∀ fields : List (String × Json),
      (fields.map fun f => (f.1, Call.casefolded R f.2)).map Prod.fst = fields.map Prod.fst := by
    intro fields
    rw [List.map_map]
    rfl
  have hnodup := h.keys
  have hnodup' := h.keys'
  rw [← hkeys] at hnodup hnodup'
  have hperm : (fields.map fun f => (f.1, Call.casefolded R f.2)).Perm
      (fields'.map fun f => (f.1, Call.casefolded R f.2)) :=
    (List.perm_ext_iff_of_nodup hnodup.of_map hnodup'.of_map).mpr h.entries
  have hsorted : ∀ fields : List (String × Json), (fields.map Prod.fst).Nodup →
      ((Json.sortedFields fields).map Prod.fst).Nodup := by
    intro fields hfields
    rw [Json.keys_sortedFields]
    exact hfields
  show Json.obj (sortByKey (Json.sortedFields _)) = Json.obj (sortByKey (Json.sortedFields _))
  congr 1
  apply sortByKey_eq_of_perm (hsorted _ hnodup)
  · refine (perm_sortByKey _).trans ?_
    rw [Json.sortedFields_eq_map, Json.sortedFields_eq_map]
    exact hperm.symm.map _
  · exact pairwise_sortByKey (hsorted _ hnodup')

variable {R} in
/-- Two calls for one record ask for one lock. -/
theorem recordHash_eq {c c' : Call} (h : SameRecord R c c') : c.recordHash R = c'.recordHash R := by
  obtain ⟨horigin, hresource, hrecord⟩ := h
  have hlock : (c.lockRecord R).sorted = (c'.lockRecord R).sorted := by
    unfold Call.lockRecord
    split at hrecord
    · rename_i haction haction'
      rw [haction, haction']
      exact sorted_eq_of_sameFields hrecord
    all_goals first
      | exact hrecord.elim
      | rename_i haction haction'
        rw [haction, haction', hrecord]
  have hsorted : ∀ c : Call, (Json.arr [.str c.origin, .str c.resource, c.lockRecord R]).sorted
      = .arr [.str c.origin, .str c.resource, (c.lockRecord R).sorted] := fun _ => rfl
  unfold Call.recordHash Runtime.dumpsWith
  rw [hsorted, hsorted, horigin, hresource, hlock]

/-! ## What a call relies on -/

/-- How far a phase is. -/
@[simp] def Phase.rank : Phase → ℕ
  | .begun _ => 0
  | .locked _ => 1
  | .checked => 2
  | .ready => 3
  | .inserted => 4
  | .intended => 5
  | .performing => 6
  | .finished _ => 7
  | .recorded _ => 8

/-- The outcome a phase has committed. -/
def Phase.outcome? : Phase → Option (List (String × Json))
  | .recorded result => some result
  | _ => none

structure Holds (w : World) (n : ℕ) (r : Running) : Prop where
  request : 1 ≤ r.phase.rank → w.locks (.request r.call.requestId) = some n
  record : 3 ≤ r.phase.rank → w.locks (.record (r.call.recordHash R)) = some n
  /-- Until it commits its intent, the request id is new. -/
  unlogged : 2 ≤ r.phase.rank → r.phase.rank ≤ 4 →
    ∀ row ∈ w.journal, row.name.requestId ≠ r.call.requestId
  /-- Until it begins its external write, the request id has none. -/
  unperformed : 2 ≤ r.phase.rank → r.phase.rank ≤ 5 →
    ∀ p ∈ w.performed, p.2.requestId ≠ r.call.requestId
  logged : 5 ≤ r.phase.rank → ∃ row ∈ w.journal, row.name = r.call.logName
    ∧ row.data = r.call.payload R ∧ row.output = r.phase.outcome?

structure Inv (w : World) : Prop where
  calls : ∀ n r, w.running n = some r → Holds R w n r
  /-- One row a request id. -/
  rows : (w.journal.map fun row => row.name.requestId).Nodup
  authored : ∀ row ∈ w.journal, ∃ c : Call, row.name = c.logName ∧ row.data = c.payload R
  logged : ∀ p ∈ w.performed, ∃ row ∈ w.journal, row.name = p.2.logName
    ∧ row.data = p.2.payload R
  once : (w.performed.map fun p => p.2.requestId).Nodup
  outcomes : ∀ n c result, (n, c, Answer.performed result) ∈ w.answers →
    ∃ row ∈ w.journal, row.name = c.logName ∧ row.data = c.payload R ∧ row.output = some result

/-- On the rows of the request id the snapshot is up to date. -/
def Agrees (view journal : List LogRow) (requestId : String) : Prop :=
  ∀ row : LogRow, row.name.requestId = requestId → (row ∈ view ↔ row ∈ journal)

/-- A call that consults the journal sees every commit of its request id. -/
def Fresh (w : World) (l : Label) : Prop :=
  ∀ n source, l = .next n source → ∀ call view, w.running n = some ⟨call, .locked view⟩ →
    Agrees view w.journal call.requestId

/-! ## Reading the journal -/

section Consult

variable {R} {view journal : List LogRow} {call : Call}

/-- A call goes on only if no row has its request id. -/
theorem unlogged_of_consult (hfresh : Agrees view journal call.requestId)
    (h : consult R view call = none) : ∀ row ∈ journal, row.name.requestId ≠ call.requestId := by
  intro row hrow hid
  have hview : row ∈ view := (hfresh row hid).mpr hrow
  unfold consult at h
  split at h
  · cases h
  · rename_i hother
    have haction : row.name.action = call.action := by
      by_contra hne
      exact hother (List.any_eq_true.mpr ⟨row, hview, by simp [hid, hne]⟩)
    have hname : row.name = call.logName := by
      cases hn : row.name with
      | mk action requestId =>
        rw [hn] at haction hid
        rw [Call.logName, ← haction, ← hid]
    split at h
    · rename_i hnone
      exact absurd (beq_iff_eq.mpr hname) (by simpa using List.find?_eq_none.mp hnone row hview)
    · split at h <;> cases h

theorem consult_ne_performed (result : List (String × Json)) :
    consult R view call ≠ some (.performed result) := by
  unfold consult
  split
  · simp
  · split
    · simp
    · split <;> simp

/-- A request id that has a row is answered from it: with the outcome, for identical data, and
with a rejection for any other action or data. -/
theorem consult_of_row (hfresh : Agrees view journal call.requestId)
    (hrows : (journal.map fun row => row.name.requestId).Nodup) {row : LogRow}
    (hrow : row ∈ journal) (hid : row.name.requestId = call.requestId) :
    if row.name = call.logName ∧ row.data = call.payload R then
      consult R view call = some (.recorded (row.output.getD call.uncertain))
    else ∃ message, consult R view call = some (.rejected message) := by
  have hview : row ∈ view := (hfresh row hid).mpr hrow
  -- the request id identifies the row
  have honly : ∀ other ∈ view, other.name.requestId = call.requestId → other = row := by
    intro other hother hoid
    exact List.inj_on_of_nodup_map hrows ((hfresh other hoid).mp hother) hrow (hoid.trans hid.symm)
  by_cases hname : row.name = call.logName
  -- the row is of the same action, so the first check passes
  · have hnone : (view.any fun row =>
        row.name.requestId == call.requestId && row.name.action != call.action) = false := by
      refine List.any_eq_false.mpr fun other hother => ?_
      intro h
      obtain ⟨hoid, haction⟩ := Bool.and_eq_true_iff.mp h
      rw [honly other hother (eq_of_beq hoid), hname] at haction
      simp [Call.logName] at haction
    have hfind : (view.find? fun row => row.name == call.logName) = some row := by
      cases hfound : view.find? fun row => row.name == call.logName with
      | none => exact absurd hname (by simpa using List.find?_eq_none.mp hfound row hview)
      | some other =>
        have hother : other.name = call.logName := by simpa using List.find?_some hfound
        rw [honly other (List.mem_of_find?_eq_some hfound) (by rw [hother]; rfl)]
    unfold consult
    rw [hnone, hfind]
    by_cases hdata : row.data = call.payload R
    · rw [if_pos ⟨hname, hdata⟩]
      simp [hdata]
    · rw [if_neg fun h => hdata h.2]
      exact ⟨_, by simp [hdata]; rfl⟩
  · rw [if_neg fun h => hname h.1]
    -- the row is of another action, which the first check refuses
    have hany : (view.any fun row =>
        row.name.requestId == call.requestId && row.name.action != call.action) = true := by
      refine List.any_eq_true.mpr ⟨row, hview, ?_⟩
      have haction : row.name.action ≠ call.action := by
        intro h
        refine hname ?_
        cases hn : row.name with
        | mk action requestId =>
          rw [hn] at h hid
          rw [Call.logName, ← h, ← hid]
      simp [hid, haction]
    unfold consult
    rw [hany]
    exact ⟨_, rfl⟩

end Consult

/-! ## What a step leaves alone -/

/-- A step of the call `n` keeps the locks of the others, and the rows and the writes of the
request ids it has not locked. -/
structure Frame (n : ℕ) (w w' : World) : Prop where
  locks : ∀ key m, w.locks key = some m → m ≠ n → w'.locks key = some m
  rows : ∀ row : LogRow, w.locks (.request row.name.requestId) ≠ some n →
    (row ∈ w'.journal ↔ row ∈ w.journal)
  performed : ∀ p : ℕ × Call, w.locks (.request p.2.requestId) ≠ some n →
    (p ∈ w'.performed ↔ p ∈ w.performed)

section Frame

variable {n m : ℕ} {w w' : World} {call : Call} {r : Running}

/-- What a call relies on is left alone by the steps of the others. -/
theorem Frame.holds (hframe : Frame n w w') (hne : m ≠ n) (h : Holds R w m r) :
    Holds R w' m r := by
  have hlocked : 1 ≤ r.phase.rank → w.locks (.request r.call.requestId) ≠ some n := by
    intro hrank hn
    rw [h.request hrank] at hn
    exact hne (Option.some.inj hn)
  exact {
    request := fun hrank => hframe.locks _ _ (h.request hrank) hne
    record := fun hrank => hframe.locks _ _ (h.record hrank) hne
    unlogged := by
      intro hlow hhigh row hrow hid
      have hfree := hlocked (by omega)
      rw [← hid] at hfree
      exact h.unlogged hlow hhigh row ((hframe.rows row hfree).mp hrow) hid
    unperformed := by
      intro hlow hhigh p hp hid
      have hfree := hlocked (by omega)
      rw [← hid] at hfree
      exact h.unperformed hlow hhigh p ((hframe.performed p hfree).mp hp) hid
    logged := by
      intro hrank
      obtain ⟨row, hrow, hname, hrest⟩ := h.logged hrank
      have hfree := hlocked (by omega)
      have hid : row.name.requestId = r.call.requestId := by rw [hname]; rfl
      rw [← hid] at hfree
      exact ⟨row, (hframe.rows row hfree).mpr hrow, hname, hrest⟩ }

/-- A step that writes neither the journal nor to the outside. -/
theorem Frame.of_locks (hlocks : ∀ key m, w.locks key = some m → m ≠ n → w'.locks key = some m)
    (hjournal : w'.journal = w.journal) (hperformed : w'.performed = w.performed) :
    Frame n w w' where
  locks := hlocks
  rows := fun row _ => by rw [hjournal]
  performed := fun p _ => by rw [hperformed]

theorem keeps_acquire {key : LockKey} (hfree : w.locks key = none) :
    ∀ key' m, w.locks key' = some m → m ≠ n → (w.acquire n key).locks key' = some m := by
  intro key' m hm _
  have hother : key' ≠ key := by
    intro h
    rw [h, hfree] at hm
    cases hm
  show Function.update w.locks key (some n) key' = some m
  rw [Function.update_of_ne hother, hm]

theorem keeps_release {key : LockKey} (hheld : w.locks key = some n) :
    ∀ key' m, w.locks key' = some m → m ≠ n → (w.release key).locks key' = some m := by
  intro key' m hm hne
  have hother : key' ≠ key := by
    intro h
    rw [h, hheld] at hm
    exact hne (Option.some.inj hm).symm
  show Function.update w.locks key none key' = some m
  rw [Function.update_of_ne hother, hm]

theorem frame_leave (answer : Answer) (hrequest : w.locks (.request call.requestId) = some n) :
    Frame n w (w.leave n call answer) :=
  .of_locks (keeps_release hrequest) rfl rfl

theorem frame_leaveBoth (answer : Answer) (hrequest : w.locks (.request call.requestId) = some n)
    (hrecord : w.locks (.record (call.recordHash R)) = some n) :
    Frame n w (w.leaveBoth n call R answer) := by
  have hstill : (w.release (.record (call.recordHash R))).locks (.request call.requestId)
      = some n := by
    show Function.update w.locks (LockKey.record (call.recordHash R)) none
      (LockKey.request call.requestId) = some n
    rw [Function.update_of_ne (by simp), hrequest]
  refine .of_locks (fun key m hm hne => ?_) rfl rfl
  exact keeps_release hstill key m (keeps_release hrecord key m hm hne) hne

end Frame

/-! ## What a step keeps -/

section Step

variable {R} {w w' : World} {n : ℕ}

/-- A step that writes neither the journal nor to the outside keeps the invariant, if the calls
still hold what they rely on and the answers are in the journal. -/
theorem Inv.quiet (hinv : Inv R w) (hjournal : w'.journal = w.journal)
    (hperformed : w'.performed = w.performed)
    (hanswers : ∀ n c result, (n, c, Answer.performed result) ∈ w'.answers →
      ∃ row ∈ w.journal, row.name = c.logName ∧ row.data = c.payload R ∧ row.output = some result)
    (hcalls : ∀ m r, w'.running m = some r → Holds R w' m r) : Inv R w' where
  calls := hcalls
  rows := by rw [hjournal]; exact hinv.rows
  authored := by rw [hjournal]; exact hinv.authored
  logged := by rw [hjournal, hperformed]; exact hinv.logged
  once := by rw [hperformed]; exact hinv.once
  outcomes := by rw [hjournal]; exact hanswers

/-- The calls of a step that moves or ends the call `n` only. -/
theorem calls_update (hinv : Inv R w) (hframe : Frame n w w') {r? : Option Running}
    (hrunning : w'.running = Function.update w.running n r?)
    (hself : ∀ r, r? = some r → Holds R w' n r) :
    ∀ m r, w'.running m = some r → Holds R w' m r := by
  intro m r hr
  rw [hrunning] at hr
  by_cases hm : m = n
  · subst hm
    rw [Function.update_self] at hr
    exact hself r hr
  · rw [Function.update_of_ne hm] at hr
    exact hframe.holds R hm (hinv.calls m r hr)

/-- A call ends with an answer that is no outcome of its write, or that is in the journal. -/
theorem finish_kept (hinv : Inv R w) (call : Call) (answer : Answer) (hframe : Frame n w w')
    (hjournal : w'.journal = w.journal) (hperformed : w'.performed = w.performed)
    (hrunning : w'.running = Function.update w.running n none)
    (hanswers : w'.answers = w.answers ++ [(n, call, answer)])
    (hanswer : ∀ result, answer = .performed result → ∃ row ∈ w.journal,
      row.name = call.logName ∧ row.data = call.payload R ∧ row.output = some result) :
    Inv R w' := by
  refine hinv.quiet hjournal hperformed ?_ (calls_update hinv hframe hrunning (by simp))
  intro m c result hm
  rw [hanswers] at hm
  rcases List.mem_append.mp hm with hm | hm
  · exact hinv.outcomes m c result hm
  · cases List.mem_singleton.mp hm
    exact hanswer result rfl

/-- The intent is written: the request id has its row. -/
theorem inserted_kept (hinv : Inv R w) {call : Call} (hr : w.running n = some ⟨call, .inserted⟩) :
    Inv R ({ w with journal := w.journal ++ [call.intent R] }.move n call .intended) := by
  have hself := hinv.calls n _ hr
  have hrequest := hself.request (by simp)
  have hunlogged := hself.unlogged (by simp) (by simp)
  -- only the call's own row is added, so no other call is concerned
  have hframe : Frame n w ({ w with journal := w.journal ++ [call.intent R] }.move n call .intended)
      := {
    locks := fun _ _ hm _ => hm
    rows := by
      intro row hrow
      have hne : row ≠ call.intent R := fun h => hrow (by rw [h]; exact hrequest)
      show row ∈ w.journal ++ [call.intent R] ↔ row ∈ w.journal
      simp [hne]
    performed := fun _ _ => Iff.rfl }
  have hold : ∀ row ∈ w.journal, row ∈ w.journal ++ [call.intent R] :=
    fun row hrow => List.mem_append_left _ hrow
  exact {
    calls := by
      refine calls_update hinv hframe rfl fun r h => ?_
      cases h
      exact {
        request := fun _ => hrequest
        record := fun _ => hself.record (by simp)
        unlogged := fun _ h => absurd h (by simp)
        unperformed := fun _ _ => hself.unperformed (by simp) (by simp)
        logged := fun _ => ⟨call.intent R, List.mem_append_right _ (by simp), rfl, rfl, rfl⟩ }
    rows := by
      show ((w.journal ++ [call.intent R]).map fun row => row.name.requestId).Nodup
      rw [List.map_append, List.nodup_append]
      -- the request id was not logged before, by the call's own invariant
      refine ⟨hinv.rows, by simp, ?_⟩
      intro id hid id' hid'
      obtain ⟨row, hrow, rfl⟩ := List.mem_map.mp hid
      rw [List.mem_singleton.mp hid']
      exact hunlogged row hrow
    authored := by
      intro row hrow
      rcases List.mem_append.mp hrow with hrow | hrow
      · exact hinv.authored row hrow
      · rw [List.mem_singleton.mp hrow]
        exact ⟨call, rfl, rfl⟩
    logged := by
      intro p hp
      obtain ⟨row, hrow, hlogged⟩ := hinv.logged p hp
      exact ⟨row, hold row hrow, hlogged⟩
    once := hinv.once
    outcomes := by
      intro m c result hm
      obtain ⟨row, hrow, hlogged⟩ := hinv.outcomes m c result hm
      exact ⟨row, hold row hrow, hlogged⟩ }

/-- The external write begins: it is the first one of its request id. -/
theorem intended_kept (hinv : Inv R w) {call : Call} (hr : w.running n = some ⟨call, .intended⟩) :
    Inv R ({ w with performed := w.performed ++ [(n, call)] }.move n call .performing) := by
  have hself := hinv.calls n _ hr
  have hrequest := hself.request (by simp)
  have hunperformed := hself.unperformed (by simp) (by simp)
  obtain ⟨row, hrow, hname, hdata, houtput⟩ := hself.logged (by simp)
  -- only the call's own entry is added, so no other call is concerned
  have hframe : Frame n w
      ({ w with performed := w.performed ++ [(n, call)] }.move n call .performing) := {
    locks := fun _ _ hm _ => hm
    rows := fun _ _ => Iff.rfl
    performed := by
      intro p hp
      have hne : p ≠ (n, call) := fun h => hp (by rw [h]; exact hrequest)
      show p ∈ w.performed ++ [(n, call)] ↔ p ∈ w.performed
      simp [hne] }
  exact {
    calls := by
      refine calls_update hinv hframe rfl fun r h => ?_
      cases h
      exact {
        request := fun _ => hrequest
        record := fun _ => hself.record (by simp)
        unlogged := fun _ h => absurd h (by simp)
        unperformed := fun _ h => absurd h (by simp)
        logged := fun _ => ⟨row, hrow, hname, hdata, houtput⟩ }
    rows := hinv.rows
    authored := hinv.authored
    logged := by
      intro p hp
      rcases List.mem_append.mp hp with hp | hp
      · exact hinv.logged p hp
      · rw [List.mem_singleton.mp hp]
        exact ⟨row, hrow, hname, hdata⟩
    once := by
      show ((w.performed ++ [(n, call)]).map fun p => p.2.requestId).Nodup
      rw [List.map_append, List.nodup_append]
      -- the call has not performed before, by its own invariant
      refine ⟨hinv.once, by simp, ?_⟩
      intro id hid id' hid'
      obtain ⟨p, hp, rfl⟩ := List.mem_map.mp hid
      rw [List.mem_singleton.mp hid']
      exact hunperformed p hp
    outcomes := hinv.outcomes }

theorem saveOutcome_names (name : LogName) (result : List (String × Json)) (journal : List LogRow) :
    (saveOutcome name result journal).map (fun row => row.name.requestId)
      = journal.map fun row => row.name.requestId := by
  unfold saveOutcome
  rw [List.map_map]
  refine List.map_congr_left fun row _ => ?_
  show (if row.name = name then _ else row : LogRow).name.requestId = row.name.requestId
  split <;> rfl

/-- A row keeps its name and data, and its output too unless it is the row of the call. -/
theorem mem_saveOutcome (name : LogName) (result : List (String × Json)) {journal : List LogRow}
    {row : LogRow} (h : row ∈ journal) : ∃ row' ∈ saveOutcome name result journal,
      row'.name = row.name ∧ row'.data = row.data ∧
      row'.output = if row.name = name then some result else row.output := by
  refine ⟨_, List.mem_map_of_mem h, ?_⟩
  split <;> exact ⟨rfl, rfl, rfl⟩

/-- The rows of other names stay as they are. -/
theorem mem_saveOutcome_of_ne {name : LogName} {result : List (String × Json)}
    {journal : List LogRow} {row : LogRow} (hother : row.name ≠ name) :
    row ∈ saveOutcome name result journal ↔ row ∈ journal := by
  refine List.mem_map.trans ⟨?_, fun h => ⟨row, h, if_neg hother⟩⟩
  rintro ⟨old, hold, rfl⟩
  by_cases holdname : old.name = name
  · rw [if_pos holdname] at hother
    exact absurd holdname hother
  · rw [if_neg holdname]
    exact hold

/-- The outcome is written to the row of the intent. -/
theorem finished_kept (hinv : Inv R w) {call : Call} {result : List (String × Json)}
    (hr : w.running n = some ⟨call, .finished result⟩) :
    Inv R ({ w with journal := saveOutcome call.logName result w.journal }.move n call
      (.recorded result)) := by
  have hself := hinv.calls n _ hr
  have hrequest := hself.request (by simp)
  obtain ⟨intent, hintent, hname, hdata, hnone⟩ := hself.logged (by simp)
  have hframe : Frame n w ({ w with journal := saveOutcome call.logName result w.journal }.move n
      call (.recorded result)) := {
    locks := fun _ _ hm _ => hm
    rows := by
      intro row hrow
      have hother : row.name ≠ call.logName := fun h => hrow (by rw [h]; exact hrequest)
      exact mem_saveOutcome_of_ne hother
    performed := fun _ _ => Iff.rfl }
  exact {
    calls := by
      refine calls_update hinv hframe rfl fun r h => ?_
      cases h
      exact {
        request := fun _ => hrequest
        record := fun _ => hself.record (by simp)
        unlogged := fun _ h => absurd h (by simp)
        unperformed := fun _ h => absurd h (by simp)
        logged := by
          intro _
          obtain ⟨row, hrow, hname', hdata', houtput⟩ := mem_saveOutcome call.logName result
            hintent
          rw [if_pos hname] at houtput
          exact ⟨row, hrow, hname'.trans hname, hdata'.trans hdata, houtput⟩ }
    rows := by
      show ((saveOutcome call.logName result w.journal).map fun row => row.name.requestId).Nodup
      rw [saveOutcome_names]
      exact hinv.rows
    authored := by
      intro row hrow
      obtain ⟨old, hold, rfl⟩ := List.mem_map.mp hrow
      obtain ⟨c, hc⟩ := hinv.authored old hold
      refine ⟨c, ?_⟩
      split <;> exact hc
    logged := by
      intro p hp
      obtain ⟨row, hrow, hname, hdata⟩ := hinv.logged p hp
      obtain ⟨row', hrow', hname', hdata', -⟩ := mem_saveOutcome call.logName result
        hrow
      exact ⟨row', hrow', hname'.trans hname, hdata'.trans hdata⟩
    once := hinv.once
    outcomes := by
      intro m c result' hm
      obtain ⟨row, hrow, hrowname, hrowdata, hrowoutput⟩ := hinv.outcomes m c result' hm
      -- the row of the call has no outcome yet
      have hother : row.name ≠ call.logName := by
        intro h
        have hsame : row = intent := List.inj_on_of_nodup_map hinv.rows hrow hintent
          (congrArg LogName.requestId (h.trans hname.symm))
        rw [hsame, hnone] at hrowoutput
        cases hrowoutput
      obtain ⟨row', hrow', hname', hdata', houtput'⟩ := mem_saveOutcome call.logName result
        hrow
      rw [if_neg hother] at houtput'
      exact ⟨row', hrow', hname'.trans hrowname, hdata'.trans hrowdata,
        houtput'.trans hrowoutput⟩ }

/-- A call moves on without writing: it still holds what it relies on. -/
theorem Inv.moved (hinv : Inv R w) (hframe : Frame n w w') (hjournal : w'.journal = w.journal)
    (hperformed : w'.performed = w.performed) (hanswers : w'.answers = w.answers) {r : Running}
    (hrunning : w'.running = Function.update w.running n (some r)) (hholds : Holds R w' n r) :
    Inv R w' := by
  refine hinv.quiet hjournal hperformed (by rw [hanswers]; exact hinv.outcomes) ?_
  refine calls_update hinv hframe hrunning fun r' h => ?_
  cases h
  exact hholds

section Advance

variable {call : Call} {view : List LogRow}

/-- The lock of the request id is asked for. -/
theorem begun_kept (hinv : Inv R w) (source : Source) :
    Inv R (advance R w n call source (.begun view)) := by
  show Inv R (if (w.locks (.request call.requestId)).isSome then _ else _)
  split
  · exact finish_kept hinv call .busy (.of_locks (fun _ _ h _ => h) rfl rfl) rfl rfl rfl rfl
      (by simp)
  · rename_i hfree
    have hfree : w.locks (.request call.requestId) = none := by simpa using hfree
    refine hinv.moved (.of_locks (keeps_acquire hfree) rfl rfl) rfl rfl rfl rfl ?_
    exact {
      request := fun _ => Function.update_self ..
      record := fun h => absurd h (by simp)
      unlogged := fun h => absurd h (by simp)
      unperformed := fun h => absurd h (by simp)
      logged := fun h => absurd h (by simp) }

/-- The journal is consulted: a call that goes on has a new request id. -/
theorem locked_kept (hinv : Inv R w) (hr : w.running n = some ⟨call, .locked view⟩)
    (source : Source) (hfresh : Agrees view w.journal call.requestId) :
    Inv R (advance R w n call source (.locked view)) := by
  have hrequest : w.locks (.request call.requestId) = some n :=
    (hinv.calls n _ hr).request (by simp)
  rw [advance_locked]
  cases hconsult : consult R view call with
  | some answer =>
    refine finish_kept hinv call answer (frame_leave answer hrequest) rfl rfl rfl rfl ?_
    intro result hanswer
    rw [hanswer] at hconsult
    exact absurd hconsult (consult_ne_performed result)
  | none =>
    have hunlogged := unlogged_of_consult hfresh hconsult
    refine hinv.moved (.of_locks (fun _ _ h _ => h) rfl rfl) rfl rfl rfl rfl ?_
    exact {
      request := fun _ => hrequest
      record := fun h => absurd h (by simp)
      unlogged := fun _ _ => hunlogged
      unperformed := by
        -- a write that was sent would have its row
        intro _ _ p hp hid
        obtain ⟨row, hrow, hname, -⟩ := hinv.logged p hp
        exact hunlogged row hrow ((congrArg LogName.requestId hname).trans hid)
      logged := fun h => absurd h (by simp) }

/-- The lock of the record is asked for. -/
theorem checked_kept (hinv : Inv R w) (hr : w.running n = some ⟨call, .checked⟩)
    (source : Source) : Inv R (advance R w n call source .checked) := by
  have hself := hinv.calls n _ hr
  have hrequest : w.locks (.request call.requestId) = some n := hself.request (by simp)
  show Inv R (if (w.locks (.record (call.recordHash R))).isSome then _ else _)
  split
  · exact finish_kept hinv call .busy (frame_leave .busy hrequest) rfl rfl rfl rfl (by simp)
  · rename_i hfree
    have hfree : w.locks (.record (call.recordHash R)) = none := by simpa using hfree
    have hstill : Function.update w.locks (.record (call.recordHash R)) (some n)
        (.request call.requestId) = some n := by
      rw [Function.update_of_ne (by simp), hrequest]
    refine hinv.moved (.of_locks (keeps_acquire hfree) rfl rfl) rfl rfl rfl rfl ?_
    exact {
      request := fun _ => hstill
      record := fun _ => Function.update_self ..
      unlogged := fun _ _ => hself.unlogged (by simp) (by simp)
      unperformed := fun _ _ => hself.unperformed (by simp) (by simp)
      logged := fun h => absurd h (by simp) }

/-- The row is inserted, if the primary key lets it. -/
theorem ready_kept (hinv : Inv R w) (hr : w.running n = some ⟨call, .ready⟩) (source : Source) :
    Inv R (advance R w n call source .ready) := by
  have hself := hinv.calls n _ hr
  have hrequest : w.locks (.request call.requestId) = some n := hself.request (by simp)
  have hrecord : w.locks (.record (call.recordHash R)) = some n := hself.record (by simp)
  show Inv R (if w.journal.any _ then _ else _)
  split
  · exact finish_kept hinv call .duplicateEntry
      (frame_leaveBoth R .duplicateEntry hrequest hrecord) rfl rfl rfl rfl (by simp)
  · refine hinv.moved (.of_locks (fun _ _ h _ => h) rfl rfl) rfl rfl rfl rfl ?_
    exact {
      request := fun _ => hrequest
      record := fun _ => hrecord
      unlogged := fun _ _ => hself.unlogged (by simp) (by simp)
      unperformed := fun _ _ => hself.unperformed (by simp) (by simp)
      logged := fun h => absurd h (by simp) }

/-- `perform` has given something, with a write or without one. -/
theorem settle_kept (hinv : Inv R w) {phase : Phase} (hr : w.running n = some ⟨call, phase⟩)
    (hrank : 5 ≤ phase.rank) (hnone : phase.outcome? = none) (performed : Performed) :
    Inv R (settle R w n call performed) := by
  have hself := hinv.calls n _ hr
  have hrequest : w.locks (.request call.requestId) = some n := by
    apply hself.request
    show 1 ≤ phase.rank
    omega
  have hrecord : w.locks (.record (call.recordHash R)) = some n := by
    apply hself.record
    show 3 ≤ phase.rank
    omega
  unfold settle
  split
  · rename_i result _
    refine hinv.moved (.of_locks (fun _ _ h _ => h) rfl rfl) rfl rfl rfl rfl ?_
    exact {
      request := fun _ => hrequest
      record := fun _ => hrecord
      unlogged := fun _ h => absurd h (by simp)
      unperformed := fun _ h => absurd h (by simp)
      logged := by
        intro _
        obtain ⟨row, hrow, hname, hdata, houtput⟩ := hself.logged hrank
        exact ⟨row, hrow, hname, hdata, houtput.trans hnone⟩ }
  · exact finish_kept hinv call .raised (frame_leaveBoth R .raised hrequest hrecord) rfl rfl rfl
      rfl (by simp)

end Advance

/-- The next statement of a call keeps the invariant. -/
theorem advance_kept (hinv : Inv R w) {r : Running} (hr : w.running n = some r)
    (source : Source) (hfresh : ∀ view, r.phase = .locked view →
      Agrees view w.journal r.call.requestId) : Inv R (advance R w n r.call source r.phase) := by
  obtain ⟨call, phase⟩ := r
  cases phase with
  | begun view => exact begun_kept hinv source
  | locked view => exact locked_kept hinv hr source (hfresh view rfl)
  | checked => exact checked_kept hinv hr source
  | ready => exact ready_kept hinv hr source
  | inserted => exact inserted_kept hinv hr
  | intended =>
    rw [advance_intended]
    split
    · exact settle_kept hinv hr (by simp) rfl _
    · exact intended_kept hinv hr
  | performing => exact settle_kept hinv hr (by simp) rfl source.written
  | finished result => exact finished_kept hinv hr
  | recorded result =>
    have hself := hinv.calls n _ hr
    refine finish_kept hinv call (.performed result) (frame_leaveBoth R (.performed result)
      (hself.request (by simp)) (hself.record (by simp))) rfl rfl rfl rfl ?_
    intro result' hanswer
    cases hanswer
    exact hself.logged (by simp)

theorem step_kept {l : Label} (hinv : Inv R w) (hstep : step R w l = some w') (hfresh : Fresh w l) :
    Inv R w' := by
  cases l with
  | begin call =>
    simp only [step] at hstep
    split at hstep
    · cases hstep
      -- a new call has done nothing yet
      have hframe : Frame w.next w ({ w with next := w.next + 1 }.move w.next call
          (.begun w.journal)) := .of_locks (fun _ _ h _ => h) rfl rfl
      refine hinv.quiet rfl rfl hinv.outcomes (calls_update hinv hframe rfl fun r h => ?_)
      cases h
      exact {
        request := fun h => absurd h (by simp)
        record := fun h => absurd h (by simp)
        unlogged := fun h => absurd h (by simp)
        unperformed := fun h => absurd h (by simp)
        logged := fun h => absurd h (by simp) }
    · cases hstep
  | next n source =>
    obtain ⟨r, hr, rfl⟩ := Option.map_eq_some_iff.mp hstep
    refine advance_kept hinv hr source fun view hphase => ?_
    refine hfresh n source rfl r.call view ?_
    rw [hr, ← hphase]
  | crash n =>
    obtain ⟨r, hr, rfl⟩ := Option.map_eq_some_iff.mp hstep
    -- a crash ends the call and leaves its rows and locks behind
    have hframe : Frame n w (w.drop n) := .of_locks (fun _ _ h _ => h) rfl rfl
    exact hinv.quiet rfl rfl hinv.outcomes (calls_update hinv hframe rfl (by simp))
  | expire key =>
    simp only [step] at hstep
    cases hkey : w.locks key with
    | none =>
      rw [hkey] at hstep
      cases hstep
    | some n =>
      simp only [hkey] at hstep
      split at hstep
      · cases hstep
      · rename_i hdead
        cases hstep
        have hframe : Frame n w (w.release key) := .of_locks (keeps_release hkey) rfl rfl
        refine hinv.quiet rfl rfl hinv.outcomes fun m r hr => ?_
        -- only the lock of a call that is gone expires
        have hne : m ≠ n := by
          rintro rfl
          have hr : w.running m = some r := hr
          rw [hr] at hdead
          exact hdead rfl
        exact hframe.holds R hne (hinv.calls m r hr)

end Step

/-! ## The journal in every run -/

theorem inv_initial : Inv R World.initial where
  calls := fun _ _ h => by cases h
  rows := List.nodup_nil
  authored := fun _ h => by cases h
  logged := fun _ h => by cases h
  once := List.nodup_nil
  outcomes := fun _ _ _ h => by cases h

/-- What the journal promises in a state. -/
structure Promised (w : World) : Prop where
  /-- One external write a request id, over all actions and users. -/
  once : (w.performed.map fun p => p.2.requestId).Nodup
  /-- Every row is the intent of a call. -/
  authored : ∀ row ∈ w.journal, ∃ c : Call, row.name = c.logName ∧ row.data = c.payload R
  /-- A write that was sent has its intent in the journal. -/
  logged : ∀ p ∈ w.performed, ∃ row ∈ w.journal, row.name = p.2.logName
    ∧ row.data = p.2.payload R
  /-- An outcome that was returned is in the journal. -/
  outcomes : ∀ n c result, (n, c, Answer.performed result) ∈ w.answers →
    ∃ row ∈ w.journal, row.name = c.logName ∧ row.data = c.payload R ∧ row.output = some result
  /-- A call whose request id is locked, by a call under way or by one whose process died, is refused
  as in progress. -/
  busy : ∀ n call view, w.running n = some ⟨call, .begun view⟩ →
    (w.locks (.request call.requestId)).isSome →
    ∀ source, advance R w n call source (.begun view) = w.finish n call .busy
  /-- Any other call that repeats a request id of the journal ends there: with the recorded outcome
  or the uncertain state for identical data, with a rejection for any other. -/
  repeated : ∀ n call view, w.running n = some ⟨call, .locked view⟩ →
    Agrees view w.journal call.requestId → ∀ c : Call, ∀ row ∈ w.journal,
    row.name = c.logName → row.data = c.payload R → c.requestId = call.requestId →
    ∃ answer, (∀ source, advance R w n call source (.locked view) = w.leave n call answer) ∧
      (SameData c call → answer = .recorded (row.output.getD call.uncertain)) ∧
      (¬ SameData c call → ∃ message, answer = .rejected message)
  /-- Two external writes in progress are for different records. -/
  exclusive : ∀ n m c c', w.running n = some ⟨c, .performing⟩ →
    w.running m = some ⟨c', .performing⟩ → SameRecord R c c' → n = m

variable {R} in
theorem Inv.promised (hfloat : FloatRepr R) {w : World} (hinv : Inv R w) : Promised R w where
  once := hinv.once
  authored := hinv.authored
  logged := hinv.logged
  outcomes := hinv.outcomes
  busy := fun _ _ _ _ hlocked _ => if_pos hlocked
  repeated := by
    intro n call view _ hfresh c row hrow hname hdata hid
    have hsame : (row.name = call.logName ∧ row.data = call.payload R) ↔ SameData c call := by
      rw [hdata, payload_eq_iff hfloat]
      constructor
      · exact fun h => h.2
      · intro h
        refine ⟨?_, h⟩
        rw [hname, Call.logName, Call.logName, h.action, hid]
    have hrowid : row.name.requestId = call.requestId := by
      rw [hname]
      exact hid
    have hconsult := consult_of_row (R := R) hfresh hinv.rows hrow hrowid
    by_cases hsamedata : SameData c call
    · rw [if_pos (hsame.mpr hsamedata)] at hconsult
      refine ⟨_, fun _ => ?_, fun _ => rfl, fun h => absurd hsamedata h⟩
      simp only [advance, hconsult]
    · rw [if_neg fun h => hsamedata (hsame.mp h)] at hconsult
      obtain ⟨message, hconsult⟩ := hconsult
      refine ⟨.rejected message, fun _ => ?_, fun h => absurd h hsamedata, fun _ => ⟨message, rfl⟩⟩
      simp only [advance, hconsult]
  exclusive := by
    intro n m c c' hn hm hsame
    have hholds := (hinv.calls n _ hn).record (by simp)
    have hholds' := (hinv.calls m _ hm).record (by simp)
    dsimp only at hholds hholds'
    rw [recordHash_eq hsame, hholds'] at hholds
    exact (Option.some.inj hholds).symm

variable {R} in
/-- In every run in which the calls consult the journal in a snapshot that is up to date on their
request id, whatever their order and wherever their processes die, the journal keeps its
promises in every state. -/
theorem journal_kept (hfloat : FloatRepr R) {ls : List Label} {w : World}
    (hrun : Run (fun w l w' => step R w l = some w' ∧ Fresh w l) World.initial ls w) :
    Promised R w := by
  have hkept : ∀ w l w', Inv R w → step R w l = some w' ∧ Fresh w l → Inv R w' :=
    fun _ _ _ hinv hstep => step_kept hinv hstep.1 hstep.2
  exact (hrun.invariant hkept (inv_initial R)).promised hfloat

/-! ## One call after the other

A call that nothing runs beside reads the journal as it is. -/

section Serial

variable {R} {w w' : World} {n : ℕ} {call : Call}

/-- The snapshot of the call, while it has one to consult, is the journal. -/
def Current (w : World) (n : ℕ) : Prop :=
  ∀ r view, w.running n = some r → r.phase = .begun view ∨ r.phase = .locked view →
    view = w.journal

theorem fresh_of_current (h : Current w n) (source : Source) : Fresh w (.next n source) := by
  intro m source' hlabel call view hr row _
  cases hlabel
  rw [h ⟨call, .locked view⟩ view hr (.inr rfl)]

theorem current_begin (h : step R w (.begin call) = some w') : Current w' w.next := by
  simp only [step] at h
  split at h
  · cases h
    intro r view hr hview
    have hr' : Function.update w.running w.next (some ⟨call, .begun w.journal⟩) w.next = some r := hr
    rw [Function.update_self] at hr'
    cases hr'
    rcases hview with hview | hview
    · cases hview
      rfl
    · cases hview
  · cases h

/-- A call that has ended has no snapshot. -/
theorem current_of_none (h : w.running n = none) : Current w n := by
  intro r view hr
  rw [h] at hr
  cases hr

/-- A phase after the journal was consulted has no snapshot. -/
theorem current_of_rank {phase : Phase} (h : w.running n = some ⟨call, phase⟩)
    (hrank : 2 ≤ phase.rank) : Current w n := by
  intro r view hr hview
  have hself : (⟨call, phase⟩ : Running) = r := Option.some.inj (h.symm.trans hr)
  have hphase : phase = r.phase := congrArg Running.phase hself
  rcases hview with hview | hview
  · rw [hphase, hview, Phase.rank] at hrank
    omega
  · rw [hphase, hview, Phase.rank] at hrank
    omega

theorem current_settle (performed : Performed) : Current (settle R w n call performed) n := by
  unfold settle
  split
  · exact current_of_rank (Function.update_self ..) (by simp)
  · exact current_of_none (Function.update_self ..)

/-- The next statement of the call reads the same journal, or needs it no more. -/
theorem current_next {source : Source} (hcurrent : Current w n)
    (h : step R w (.next n source) = some w') : Current w' n := by
  obtain ⟨⟨call, phase⟩, hr, heq⟩ := Option.map_eq_some_iff.mp h
  subst heq
  show Current (advance R w n call source phase) n
  -- a call is asked for a current view only until it has consulted the journal
  cases phase with
  | begun view =>
    have hview := hcurrent _ view hr (.inl rfl)
    show Current (if (w.locks (.request call.requestId)).isSome then _ else _) n
    split
    · exact current_of_none (Function.update_self ..)
    · intro r view' hr' hview'
      have hmoved : Function.update w.running n (some ⟨call, .locked view⟩) n = some r := hr'
      rw [Function.update_self] at hmoved
      cases hmoved
      rcases hview' with hview' | hview'
      · cases hview'
      · cases hview'
        exact hview
  | locked view =>
    rw [advance_locked]
    cases consult R view call with
    | some answer => exact current_of_none (Function.update_self ..)
    | none => exact current_of_rank (Function.update_self ..) (by simp)
  | checked =>
    show Current (if (w.locks (.record (call.recordHash R))).isSome then _ else _) n
    split
    · exact current_of_none (Function.update_self ..)
    · exact current_of_rank (Function.update_self ..) (by simp)
  | ready =>
    show Current (if w.journal.any _ then _ else _) n
    split
    · exact current_of_none (Function.update_self ..)
    · exact current_of_rank (Function.update_self ..) (by simp)
  | inserted => exact current_of_rank (Function.update_self ..) (by simp)
  | intended =>
    rw [advance_intended]
    split
    · exact current_settle _
    · exact current_of_rank (Function.update_self ..) (by simp)
  | performing => exact current_settle _
  | finished result => exact current_of_rank (Function.update_self ..) (by simp)
  | recorded result => exact current_of_none (Function.update_self ..)

/-- The statements of a call that nothing runs beside. -/
theorem run_statements {sources : List Source} (hcurrent : Current w n)
    (h : (sources.map (Label.next n)).foldlM (step R) w = some w') :
    Run (fun w l w' => step R w l = some w' ∧ Fresh w l) w (sources.map (Label.next n)) w' := by
  induction sources generalizing w with
  | nil =>
    cases h
    exact .nil _
  | cons source rest ih =>
    rw [List.map_cons, List.foldlM_cons] at h
    obtain ⟨u, hfirst, hrest⟩ := Option.bind_eq_some_iff.mp h
    have hlater := ih (current_next hcurrent hfirst) hrest
    exact (Run.single ⟨hfirst, fresh_of_current hcurrent source⟩).append hlater

variable (R) in
/-- The calls one after the other, each with what the source gives to its statements. -/
def serial (w : World) : List (Call × List Source) → Option World
  | [] => some w
  | (call, sources) :: rest =>
    (step R w (.begin call)).bind fun begun =>
      ((sources.map (Label.next w.next)).foldlM (step R) begun).bind fun done => serial done rest

/-- Calls that do not overlap consult the journal in fresh snapshots. -/
theorem run_serial {calls : List (Call × List Source)} (h : serial R w calls = some w') :
    ∃ ls, Run (fun w l w' => step R w l = some w' ∧ Fresh w l) w ls w' := by
  induction calls generalizing w with
  | nil =>
    cases h
    exact ⟨[], .nil _⟩
  | cons first rest ih =>
    obtain ⟨begun, hbegin, hrest⟩ := Option.bind_eq_some_iff.mp h
    obtain ⟨done, hdone, hlast⟩ := Option.bind_eq_some_iff.mp hrest
    have hfirst : Run (fun w l w' => step R w l = some w' ∧ Fresh w l) w [.begin first.1] begun :=
      Run.single ⟨hbegin, fun _ _ hlabel => by cases hlabel⟩
    have hcall := hfirst.append (run_statements (current_begin hbegin) hdone)
    obtain ⟨ls, hlater⟩ := ih hlast
    exact ⟨_, hcall.append hlater⟩

end Serial

/-! ## Calls with one request id -/

namespace Sample

def requestId : String := "6f1c2b9e-3d47-4a58-9c10-7be2f4d1a001"

def origin : String := "https://dev-priv-api.kaleam.net"

/-- The colour that is removed. -/
def black : List (String × Json) := [("id", .int 5), ("colorNameEN", .str "Black")]

/-- The colour that is edited. -/
def white : List (String × Json) := [("id", .int 6), ("colorNameEN", .str "White")]

def blackSnapshot : String := "64e85e0b7edad5a1334c47c9bfc4fa270e4a743552eec1a9b80592e49785000c"

def whiteSnapshot : String := "bfd33723061739b6461686e280fe7e1c39df2af827c522af7c9635207634aacd"

/-- The texts the calls hash: the two locked records and the two reviewed ones. -/
def digests : List (Text × String) := [
  ("[\"https://dev-priv-api.kaleam.net\", \"colors\", \x7b\"id\": 5\x7d]".toList,
    "6a99868b69168485825027c3b2272a007575053e989145138389d83d2f430fe0"),
  ("[\"https://dev-priv-api.kaleam.net\", \"colors\", \x7b\"id\": 6\x7d]".toList,
    "7d8d17e4c519495a0f3f7e19953f4c86eab2b5fb24ac7aa4b27807d1f40dac9a"),
  ("[\"https://dev-priv-api.kaleam.net\",\x7b\"colorNameEN\":\"Black\",\"id\":5\x7d]".toList,
    blackSnapshot),
  ("[\"https://dev-priv-api.kaleam.net\",\x7b\"colorNameEN\":\"White\",\"id\":6\x7d]".toList,
    whiteSnapshot)]

def runtime : Runtime where
  sha256 text := (digests.lookup text).getD ""
  loads _ := none
  unread _ := .decode
  uuid text := if text.length = 36 then some text.toLower else none
  uuid5 _ _ := ""
  casefold text := text.toLower
  lower text := text.toLower
  fromisoformat _ := .invalid
  floatRepr := ratioText

def remove : Call where
  action := .delete
  resource := "colors"
  record := [("id", .int 5), ("snapshot", .str blackSnapshot)]
  requestId := requestId
  user := "alice@example.com"
  origin := origin

def edit : Call where
  action := .edit
  resource := "colors"
  record := [("id", .int 6), ("snapshot", .str whiteSnapshot),
    ("changes", .obj [("colorNameEN", .str "Ivory")])]
  requestId := requestId
  user := "alice@example.com"
  origin := origin

/-- The source holds the reviewed colour and deletes it. -/
def deletes : Source where
  fetched := .body (.obj black) .same
  written := outcomeOf "deleted" "Record deleted."

/-- The source holds the reviewed colour with another name and updates it. -/
def updates : Source where
  fetched := .body (.obj white) .differs
  written := outcomeOf "updated" "Record updated."

/-- The next statements of a call. -/
def statements (n count : ℕ) (source : Source) : List Label :=
  List.replicate count (.next n source)

/-- What a call was told. -/
def told : Answer → String
  | .busy => "busy"
  | .rejected message => message
  | .recorded output | .performed output =>
    match Json.get output "state" with
    | .str state => state
    | _ => ""
  | .duplicateEntry => "duplicate"
  | .raised => "raised"

end Sample

/-- A removal performs its write; the same request again is told its outcome, and an edit with its
request id is rejected. -/
theorem journal_kept_sample :
    ∃ ls w, Run (fun w l w' => step Sample.runtime w l = some w' ∧ Fresh w l) World.initial ls w ∧
      w.performed.length = 1 ∧
      w.answers.map (fun answer => Sample.told answer.2.2) = ["deleted", "deleted",
        "This change request ID belongs to a different action."] ∧
      Promised Sample.runtime w := by
  obtain ⟨w, hw, htold⟩ := Option.map_eq_some_iff.mp (show
    (serial Sample.runtime World.initial [(Sample.remove, List.replicate 9 Sample.deletes),
      (Sample.remove, List.replicate 2 Sample.deletes),
      (Sample.edit, List.replicate 2 Sample.updates)]).map (fun w =>
        (w.performed.length, w.answers.map fun answer => Sample.told answer.2.2))
      = some (1, ["deleted", "deleted",
        "This change request ID belongs to a different action."]) by decide +kernel)
  obtain ⟨ls, hrun⟩ := run_serial hw
  obtain ⟨hone, hanswers⟩ := Prod.mk.inj htold
  exact ⟨ls, w, hrun, hone, hanswers, journal_kept (floatRepr_of_ratioText rfl) hrun⟩

/-- The edit of one colour has read the settings before the removal of another, with the same
request id, began. It does not see the intent of the removal, so that both writes are sent. -/
theorem stale_snapshot_performs_twice :
    ∃ ls w, Run (fun w l w' => step Sample.runtime w l = some w') World.initial ls w ∧
      w.performed.map (fun p => p.2.action) = [.delete, .edit] ∧
      ¬ (w.performed.map fun p => p.2.requestId).Nodup := by
  obtain ⟨w, hw, htwice⟩ := Option.map_eq_some_iff.mp (show
    ((.begin Sample.edit :: .begin Sample.remove :: Sample.statements 1 9 Sample.deletes
      ++ Sample.statements 0 6 Sample.updates).foldlM (step Sample.runtime) World.initial).map
        (fun w => (w.performed.map fun p => p.2.action, w.performed.map fun p => p.2.requestId))
      = some ([.delete, .edit], [Sample.requestId, Sample.requestId]) by
    decide +kernel)
  obtain ⟨hactions, hids⟩ := Prod.mk.inj htwice
  refine ⟨_, w, Run.of_foldlM hw, hactions, ?_⟩
  rw [hids]
  simp

end SourceData
end FrappeController
