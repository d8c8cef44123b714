import FrappeController.Inventory
import FrappeController.JsonText
import Mathlib.Logic.Function.Basic

/-!
# `api/source_data.py`: journalled changes of the external catalog

`add`, `edit` and `remove` validate their arguments and call `_change`, which writes the
intent to the journal (the `Integration Request` rows), performs the external write, and
writes the outcome. A call moves on statement by statement (`advance`), other calls run
between its statements, and its process may die between any two of them.

The journal is read in the snapshot the call's transaction has taken when it read the
settings, before it asked for a lock (MariaDB's repeatable read).
-/

namespace FrappeController
namespace SourceData

inductive Action where
  | add | edit | delete
  deriving DecidableEq, Repr

def Action.text : Action → String
  | .add => "add"
  | .edit => "edit"
  | .delete => "delete"

/-- The validated arguments of `_change`, and the origin of the settings. -/
structure Call where
  action : Action
  resource : String
  record : List (String × Json)
  requestId : String
  user : String
  origin : String

/-- `"controller-source-" + action + "-" + UUID(request_id).hex`, of a canonical request id. -/
structure LogName where
  action : Action
  requestId : String
  deriving DecidableEq, Repr

inductive LogStatus where
  | queued | completed | failed
  deriving DecidableEq, Repr

/-- The columns of an `Integration Request` row that `_change` reads or decides. The output is
kept decoded. -/
structure LogRow where
  name : LogName
  data : Text
  status : LogStatus
  output : Option (List (String × Json))

namespace Call

variable (R : Runtime) (call : Call)

def logName : LogName := ⟨call.action, call.requestId⟩

/-- The value `payload` encodes. -/
def data : Json :=
  .obj [("user", .str call.user), ("origin", .str call.origin), ("action", .str call.action.text),
    ("resource", .str call.resource), ("record", .obj call.record)]

/-- `payload` -/
def payload : Text := R.dumpsWith .spaced call.data

/-- A text without its case, any other value as it is. -/
def casefolded : Json → Json
  | .str text => .str (R.casefold text)
  | value => value

/-- `lock_record` -/
def lockRecord : Json :=
  match call.action with
  | .add => .obj (call.record.map fun f => (f.1, casefolded R f.2))
  | .edit | .delete => .obj [("id", Json.get call.record "id")]

/-- `record_hash` -/
def recordHash : String :=
  R.sha256 ((R.dumpsWith .spaced
    (.arr [.str call.origin, .str call.resource, call.lockRecord R])).flatMap Inventory.asciiEscape)

/-- `mapping.update({"request_id": request_id, **record})` -/
def withRequest (fields : List (String × Json)) : List (String × Json) :=
  call.record.foldl (fun fields f => Json.set fields f.1 f.2)
    (Json.set fields "request_id" (.str call.requestId))

/-- The answer for an intent without a recorded outcome. -/
def uncertain : List (String × Json) :=
  call.withRequest [("state", .str "uncertain"), ("message", .str ("This change is in progress or"
    ++ " was interrupted. Check the source before trying again."))]

/-- The row of the intent. -/
def intent : LogRow := ⟨call.logName, call.payload R, .queued, none⟩

end Call

/-- `log.status` for the state of an outcome. -/
def statusOf (result : List (String × Json)) : LogStatus :=
  match Json.get result "state" with
  | .str "added" | .str "existing" | .str "deleted" | .str "missing" | .str "updated"
  | .str "unchanged" => .completed
  | .str "failed" => .failed
  | _ => .queued

/-- `log.status = …; log.output = …` on the row of that name. -/
def saveOutcome (name : LogName) (result : List (String × Json)) (journal : List LogRow) :
    List LogRow :=
  journal.map fun row =>
    if row.name = name then { row with status := statusOf result, output := some result } else row

/-- What a call ends with. -/
inductive Answer where
  /-- "A matching change is in progress. Check its result before trying again." -/
  | busy
  | rejected (message : String)
  /-- The recorded outcome, or the uncertain state. -/
  | recorded (output : List (String × Json))
  | performed (result : List (String × Json))
  | duplicateEntry
  /-- An exception of the external call other than `SourceDataError`. -/
  | raised

/-- What the journal says to a call: its answer, or nothing if the request id is new. -/
def consult (R : Runtime) (journal : List LogRow) (call : Call) : Option Answer :=
  if journal.any fun row =>
      row.name.requestId == call.requestId && row.name.action != call.action then
    some (.rejected "This change request ID belongs to a different action.")
  else
    match journal.find? fun row => row.name == call.logName with
    | none => none
    | some row =>
      if row.data ≠ call.payload R then
        some (.rejected "This change request ID belongs to a different request.")
      else some (.recorded (row.output.getD call.uncertain))

/-! ## `perform`

`add_record`, `edit_record` and `delete_record` ask the source first, and send their write only where
its answer calls for one. -/

/-- What `perform` gives. -/
inductive Performed where
  | returned (result : List (String × Json))
  /-- `SourceDataError` -/
  | refused (message : String)
  | raised

/-- What comparing the record of the source with the changes of an edit gives. -/
inductive Compared where
  /-- `validate_fields` refuses the merged name of a vehicle. -/
  | refused (message : String)
  | raised
  | same
  | differs

/-- What the GET of a change gives. -/
inductive Fetched where
  /-- HTTP 404 -/
  | missing
  | body (value : Json) (compared : Compared)
  /-- `SourceDataError` -/
  | refused (message : String)
  | raised

/-- `{"state": state, "message": message}` -/
def outcomeOf (state message : String) : Performed :=
  .returned [("state", .str state), ("message", .str message)]

/-- "Source API returned an unexpected record structure." -/
def unexpectedStructure : Performed :=
  .refused "Source API returned an unexpected record structure."

namespace Call

variable (R : Runtime) (call : Call)

/-- `snapshot(record)` -/
def snapshot (record : List (String × Json)) : String :=
  R.sha256 (R.dumps (.arr [.str call.origin, .obj record]))

/-- `snapshot(current) == expected_snapshot` -/
def reviewed (current : List (String × Json)) : Bool :=
  Json.pyEq (.str (call.snapshot R current)) (Json.get call.record "snapshot")

/-- `isinstance(row, dict)` -/
def isDict : Json → Bool
  | .obj _ => true
  | _ => false

/-- `add_record` up to its write: what it gives without one. -/
def addRecord : Fetched → Option Performed
  | .missing =>
    some (.refused "Source API is unavailable (HTTP 404). Please try again later.")
  | .refused message => some (.refused message)
  | .raised => some .raised
  | .body (.arr rows) _ =>
    if rows.length > 10000 || !rows.all isDict then some unexpectedStructure
    else if rows.isEmpty then none
    else some (outcomeOf "existing" "A matching record already exists. No change made.")
  | .body _ _ => some unexpectedStructure

/-- `delete_record` up to its write. -/
def deleteRecord : Fetched → Option Performed
  | .missing =>
    some (outcomeOf "missing" "Record is already absent. No deletion submitted.")
  | .refused message => some (.refused message)
  | .raised => some .raised
  | .body .null _ =>
    some (outcomeOf "missing" "Record is already absent. No deletion submitted.")
  | .body (.obj current) _ =>
    if Json.pyEq (Json.get current "id") (Json.get call.record "id") && call.reviewed R current then
      none
    else some (outcomeOf "failed" "Record changed since review. Reload and review it again.")
  | .body _ _ =>
    some (outcomeOf "failed" "Record changed since review. Reload and review it again.")

/-- `edit_record` up to its write, with the record `get_record` gives. -/
def editRecord : Fetched → Option Performed
  | .missing | .body .null _ =>
    some (.refused "This record no longer exists. Reload the records.")
  | .refused message => some (.refused message)
  | .raised => some .raised
  | .body (.obj current) compared =>
    match Json.get current "id", Json.get call.record "id" with
    | .int id, .int recordId =>
      if id ≠ recordId then some unexpectedStructure
      else if call.reviewed R current = false then
        some (outcomeOf "failed"
          "Record changed since review. Reopen the editor and review it again.")
      else
        match compared with
        | .refused message => some (.refused message)
        | .raised => some .raised
        | .same => some (outcomeOf "unchanged" "No changes detected. No update submitted.")
        | .differs => none
    | _, _ => some unexpectedStructure
  | .body _ _ => some unexpectedStructure

/-- `perform` up to its write. -/
def perform (fetched : Fetched) : Option Performed :=
  match call.action with
  | .add => addRecord fetched
  | .edit => call.editRecord R fetched
  | .delete => call.deleteRecord R fetched

end Call

/-- The result `_change` records, without the request. -/
def resultOf? : Performed → Option (List (String × Json))
  | .returned result => some result
  | .refused message =>
    some [("state", .str "failed"), ("message", .str (message ++ " No change was submitted."))]
  | .raised => none

/-! ## Calls under way -/

/-- The two locks of `_change`. -/
inductive LockKey where
  /-- `"controller-source-request:" + request_id` -/
  | request (requestId : String)
  /-- `"controller-source-record:" + record_hash` -/
  | record (recordHash : String)
  deriving DecidableEq, Repr

/-- How far a call has come. -/
inductive Phase where
  /-- The settings are read, and with them the snapshot is taken. -/
  | begun (view : List LogRow)
  /-- It holds the request lock. -/
  | locked (view : List LogRow)
  /-- The request id is new to it. -/
  | checked
  /-- It holds the record lock as well. -/
  | ready
  | inserted
  /-- The intent is committed. -/
  | intended
  /-- Its write is sent, and not answered yet. -/
  | performing
  | finished (result : List (String × Json))
  /-- The outcome is committed. -/
  | recorded (result : List (String × Json))

structure Running where
  call : Call
  phase : Phase

/-- The committed journal, the cache locks with the number of the call that took each, the
calls whose processes are alive, and what happened so far. -/
structure World where
  journal : List LogRow
  locks : LockKey → Option ℕ
  running : ℕ → Option Running
  /-- The number of the next call. -/
  next : ℕ
  /-- The external writes that were sent, by the number of the call. -/
  performed : List (ℕ × Call)
  answers : List (ℕ × Call × Answer)

namespace World

variable (w : World) (n : ℕ) (call : Call)

def initial : World := ⟨[], fun _ => none, fun _ => none, 0, [], []⟩

def acquire (key : LockKey) : World := { w with locks := Function.update w.locks key (some n) }

def release (key : LockKey) : World := { w with locks := Function.update w.locks key none }

def move (phase : Phase) : World :=
  { w with running := Function.update w.running n (some ⟨call, phase⟩) }

def drop : World := { w with running := Function.update w.running n none }

def finish (answer : Answer) : World :=
  { w.drop n with answers := w.answers ++ [(n, call, answer)] }

/-- The answer of a call that held the request lock. -/
def leave (answer : Answer) : World := (w.release (.request call.requestId)).finish n call answer

/-- The answer of a call that held both locks. -/
def leaveBoth (R : Runtime) (answer : Answer) : World :=
  (w.release (.record (call.recordHash R))).leave n call answer

end World

/-- What the source gives to the next statement of a call, if it asks for it: the answer to the GET
of the change, and what `_write` makes of the answer to the write. -/
structure Source where
  fetched : Fetched
  written : Performed

variable (R : Runtime)

/-- `perform` has given something: it is recorded next, or an exception ends the call. -/
def settle (w : World) (n : ℕ) (call : Call) (performed : Performed) : World :=
  match resultOf? performed with
  | some result => w.move n call (.finished (call.withRequest result))
  | none => w.leaveBoth n call R .raised

/-- The next statement of a call. -/
def advance (w : World) (n : ℕ) (call : Call) (source : Source) : Phase → World
  | .begun view =>
    if (w.locks (.request call.requestId)).isSome then w.finish n call .busy
    else (w.acquire n (.request call.requestId)).move n call (.locked view)
  | .locked view =>
    match consult R view call with
    | some answer => w.leave n call answer
    | none => w.move n call .checked
  | .checked =>
    if (w.locks (.record (call.recordHash R))).isSome then w.leave n call .busy
    else (w.acquire n (.record (call.recordHash R))).move n call .ready
  | .ready =>
    -- the primary key sees rows the snapshot does not
    if w.journal.any fun row => row.name == call.logName then w.leaveBoth n call R .duplicateEntry
    else w.move n call .inserted
  | .inserted => { w with journal := w.journal ++ [call.intent R] }.move n call .intended
  | .intended =>
    match call.perform R source.fetched with
    | some performed => settle R w n call performed
    | none => { w with performed := w.performed ++ [(n, call)] }.move n call .performing
  | .performing => settle R w n call source.written
  | .finished result =>
    { w with journal := saveOutcome call.logName result w.journal }.move n call (.recorded result)
  | .recorded result => w.leaveBoth n call R (.performed result)

theorem advance_locked (w : World) (n : ℕ) (call : Call) (source : Source)
    (view : List LogRow) :
    advance R w n call source (.locked view) = match consult R view call with
      | some answer => w.leave n call answer
      | none => w.move n call .checked := rfl

theorem advance_intended (w : World) (n : ℕ) (call : Call) (source : Source) :
    advance R w n call source .intended = match call.perform R source.fetched with
      | some performed => settle R w n call performed
      | none => { w with performed := w.performed ++ [(n, call)] }.move n call .performing := rfl

inductive Label where
  | begin (call : Call)
  | next (n : ℕ) (source : Source)
  /-- The process of a call dies. -/
  | crash (n : ℕ)
  /-- The time of a lock whose process is dead runs out. -/
  | expire (key : LockKey)

/-- One step. A call begins only with a canonical request id. -/
def step (w : World) : Label → Option World
  | .begin call =>
    if R.uuid call.requestId = some call.requestId then
      some ({ w with next := w.next + 1 }.move w.next call (.begun w.journal))
    else none
  | .next n source => (w.running n).map fun r => advance R w n r.call source r.phase
  | .crash n => (w.running n).map fun _ => w.drop n
  | .expire key =>
    match w.locks key with
    | none => none
    | some n => if (w.running n).isSome then none else some (w.release key)

end SourceData
end FrappeController
