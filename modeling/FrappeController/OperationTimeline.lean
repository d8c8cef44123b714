import FrappeController.CsvImport
import FrappeController.Library.Keyed
import Mathlib.Data.Rat.Defs

/-!
# `operation_timeline.js`: the timeline of an operation

`model` folds the events an Agent reported into one row for each step of the workflow. The events
are those of the Operation Event table; `details_json` is parsed by `JSON.parse`.
-/

namespace FrappeController
namespace OperationTimeline

open CsvImport (JsText unit)

def js (s : String) : JsText := s.toList.map unit

inductive JsNumber where
  | finite (value : ℚ)
  | infinite (negative : Bool)
  deriving DecidableEq

/-- What `JSON.parse` returns, and `undefined`. The fields of an object have different names. -/
inductive JsValue where
  | undefined
  | null
  | bool (value : Bool)
  | number (value : JsNumber)
  | string (text : JsText)
  | array (items : List JsValue)
  | object (fields : List (JsText × JsValue))

namespace JsValue

/-- `Boolean(value)` -/
def truthy : JsValue → Bool
  | .undefined | .null => false
  | .bool value => value
  | .number value => decide (value ≠ .finite 0)
  | .string text => CsvImport.isTruthy text
  | .array _ | .object _ => true

/-- `value === text` -/
def isText (text : String) : JsValue → Bool
  | .string s => s == js text
  | _ => false

/-- `value.name` -/
def get (name : String) : JsValue → JsValue
  | .object fields => (fields.lookup (js name)).getD .undefined
  | _ => .undefined

/-- `typeof value === "object"`, `null` left out. -/
def isObject : JsValue → Bool
  | .array _ | .object _ => true
  | _ => false

/-- `a || b` -/
def or (a b : JsValue) : JsValue := if a.truthy then a else b

/-- The texts of an array that holds nothing else. -/
def texts? : JsValue → Option (List JsText)
  | .array items => items.mapM fun item => match item with
    | .string s => some s
    | _ => none
  | _ => none

def isArray : JsValue → Bool
  | .array _ => true
  | _ => false

end JsValue

/-- What the page is loaded with. -/
structure JsRuntime where
  /-- `JSON.parse(text)`, nothing where it throws -/
  parse : JsText → Option JsValue
  /-- `__(text)` -/
  translate : String → JsText

/-- A row of Operation Event. -/
structure Event where
  sequence : ℤ
  kind : JsText
  step : JsValue := .null
  details_json : JsText := []
  attempt : JsValue := .null
  agent_created_at : JsValue := .null

/-- The fields of a Controller Operation. -/
structure Doc where
  operation_type : JsText
  state : JsValue
  completed_at : JsValue := .null
  error_code : JsValue := .null

inductive Status where
  | pending | running | completed | compensated | resumed | failed | retrying
  | stopped | not_reached | unreported
  deriving DecidableEq, Repr

structure Row where
  name : JsText
  label : JsText
  status : Status := .pending
  events : List Event := []
  started : JsValue := .null
  ended : JsValue := .null
  attempt : JsValue := .null

/-! ## Tables -/

def terminalStates : List String :=
  ["succeeded", "failed", "cancelled", "timed_out", "needs_intervention", "dead_letter", "rejected"]

/-- `terminal.has(state)` -/
def terminal (state : JsValue) : Bool := terminalStates.any fun name => state.isText name

def create : List String :=
  ["preflight_reserve", "dns", "route", "new_site", "scheduler_enable", "verify", "complete"]

def restore : List String :=
  ["preflight", "pre_operation_backup", "maintenance_on", "scheduler_off", "resolve_manifest",
    "restore", "migrate", "verify", "scheduler_on", "maintenance_off"]

def fromBackup : List String :=
  ["preflight_reserve", "resolve_manifest", "prefetch_manifest", "dns", "route", "new_site",
    "restore", "migrate", "scheduler_enable", "verify", "complete"]

def plans : List (String × List String) :=
  [("site.create_blank", create), ("site.create", fromBackup),
    ("site.create_from_backup", fromBackup), ("site.restore", restore), ("site.reinstall", restore),
    ("site.backup", ["preflight", "backup", "verify"]),
    ("site.migrate", ["preflight", "maintenance_on", "scheduler_off", "migrate", "verify",
      "scheduler_on", "maintenance_off"]),
    ("site.delete", ["preflight", "pre_operation_backup", "maintenance_on", "scheduler_off",
      "verify", "quarantine"]),
    ("site.scheduler.enable", ["preflight", "scheduler_on", "verify"]),
    ("site.scheduler.disable", ["preflight", "scheduler_off", "verify"]),
    ("site.maintenance.enable", ["preflight", "maintenance_on", "verify"]),
    ("site.maintenance.disable", ["preflight", "maintenance_off", "verify"]),
    ("site.config.update", ["preflight", "config_update", "verify"])]

def labels : List (String × String) :=
  [("preflight_reserve", "Check target and reserve site"), ("preflight", "Check prerequisites"),
    ("resolve_manifest", "Locate backup"), ("prefetch_manifest", "Download backup"),
    ("dns", "Create DNS record"), ("route", "Create routing configuration"),
    ("new_site", "Create site"), ("restore", "Restore backup"), ("migrate", "Migrate site"),
    ("verify", "Verify site"), ("complete", "Complete provisioning"),
    ("scheduler_enable", "Enable scheduler"), ("scheduler_on", "Enable scheduler"),
    ("scheduler_off", "Disable scheduler"), ("maintenance_on", "Enable maintenance mode"),
    ("maintenance_off", "Disable maintenance mode"), ("backup", "Create backup"),
    ("pre_operation_backup", "Create safety backup"),
    ("config_update", "Update site configuration"), ("quarantine", "Quarantine site"),
    ("ensure_apps", "Install required applications"),
    ("required_apps", "Verify required applications"),
    ("public_https", "Verify public DNS, TLS and HTTP"),
    ("handover", "Deliver Administrator access"),
    ("restore_access", "Restore Administrator access after backup restore")]

/-- `table[key]` of an own property. -/
def own? {α : Type} (table : List (String × α)) (key : JsText) : Option α :=
  (table.find? fun entry => js entry.1 == key).map Prod.snd

/-! ## Events -/

variable (rt : JsRuntime)

/-- `details` -/
def details (event : Event) : JsValue :=
  match rt.parse (if event.details_json = [] then js "\x7b\x7d" else event.details_json) with
  | some value => if value.isObject then value else .object []
  | none => .object []

/-- `stepName` -/
def stepName (event : Event) : JsText :=
  match event.step.or ((details rt event).get "step") with
  | .string value => value
  | _ => []

/-- `event.kind === kind` -/
def Event.is (event : Event) (kind : String) : Bool := event.kind == js kind

/-- `event.kind.startsWith("step.") && Boolean(name)` -/
def isStep (event : Event) : Bool :=
  (js "step.").isPrefixOf event.kind && CsvImport.isTruthy (stepName rt event)

/-- The events in the order of their numbers. -/
def inOrder (input : List Event) : List Event := Keyed.sortOn Event.sequence input

/-! ## The loop -/

/-- The variables of `model`. -/
structure Scan where
  rows : List Row := []
  active : Option JsText := none
  stopped : Option JsText := none
  finalState : JsValue := .null
  finalError : JsValue := .null
  retrying : Bool := false

/-- `rows.has(name)` -/
def has (rows : List Row) (name : JsText) : Bool := rows.any fun row => row.name == name

/-- `ensure` -/
def ensure (rows : List Row) (name : JsText) : List Row :=
  if has rows name then rows
  else rows ++ [{ name, label := match own? labels name with
    | some label => rt.translate label
    | none => name }]

/-- Write the row of that name. -/
def write (name : JsText) (f : Row → Row) (rows : List Row) : List Row :=
  rows.map fun row => if row.name = name then f row else row

/-- `rows.get(name).status` -/
def statusOf (rows : List Row) (name : JsText) : Status :=
  ((rows.find? fun row => row.name == name).map Row.status).getD .pending

/-- `declaredSteps` -/
def declaredSteps (events : List Event) : Option (List JsText) := do
  let declared ← events.reverse.find? fun event =>
    event.is "plan.persisted" && ((details rt event).get "steps").isArray
  let steps ← ((details rt declared).get "steps").texts?
  if steps.length ≤ 128 then some steps else none

/-- The rows of the workflow. -/
def planned (doc : Doc) (events : List Event) : List Row :=
  let steps := match declaredSteps rt events with
    | some steps => steps
    | none => ((own? plans doc.operation_type).getD []).map js
  steps.foldl (ensure rt) []

/-- The row an event is listed under. -/
def rowName (rows : List Row) (event : Event) : Option JsText :=
  let name := stepName rt event
  if name ≠ [] ∧ has rows name then some name
  else if event.kind.contains (unit '.') then
    some (event.kind.takeWhile (· != unit '.'))
  else none

/-- `execution.started` begins again. -/
def restart (event : Event) (s : Scan) : Scan :=
  if event.is "execution.started" then
    { s with active := none, stopped := none, finalState := .null, finalError := .null,
             retrying := false }
  else s

/-- `row.events.push(event)` -/
def listed (event : Event) (s : Scan) : Scan :=
  match rowName rt s.rows event with
  | some name =>
    { s with rows := write name (fun row => { row with events := row.events ++ [event] }) s.rows }
  | none => s

/-- `row.attempt = event.attempt` -/
def attempted (event : Event) (name : JsText) (s : Scan) : Scan :=
  { s with rows := write name (fun row =>
      { row with attempt := match event.attempt with
        | .null | .undefined => row.attempt
        | attempt => attempt }) s.rows }

/-- A step and its row. -/
def stepped (event : Event) (name : JsText) (s : Scan) : Scan :=
  if event.is "step.started" then
    { s with rows := write name (fun row =>
               { row with status := .running, started := event.agent_created_at, ended := .null })
               s.rows
             active := some name, stopped := none, retrying := false }
  else if event.is "step.completed" then
    { s with rows := write name (fun row =>
               { row with status := .completed, ended := event.agent_created_at }) s.rows
             active := if s.active = some name then none else s.active }
  else if event.is "step.compensated" then
    -- Compensation of an earlier step must not move the failure marker.
    { s with rows := write name (fun row =>
               { row with status := .compensated, ended := event.agent_created_at }) s.rows }
  else if event.is "step.resumed" then
    { s with rows := write name (fun row =>
               if row.status ≠ .completed ∧ row.status ≠ .compensated then
                 { row with status := .resumed }
               else row) s.rows }
  else if event.is "step.failed" then
    { s with rows := write name (fun row =>
               { row with status := .failed, ended := event.agent_created_at }) s.rows
             stopped := some name }
  else s

/-- `execution.retry_scheduled` -/
def retried (event : Event) (s : Scan) : Scan :=
  if event.is "execution.retry_scheduled" then
    { s with retrying := true
             rows := match s.active with
               | some active => write active (fun row => { row with status := .retrying }) s.rows
               | none => s.rows }
  else s

/-- `execution.finished` -/
def finished (event : Event) (s : Scan) : Scan :=
  if event.is "execution.finished" then
    { s with finalState := (details rt event).get "state"
             finalError := (details rt event).get "error_code" }
  else s

/-- One event. -/
def step (s : Scan) (event : Event) : Scan :=
  let name := stepName rt event
  let s := restart event s
  let s := if isStep rt event then { s with rows := ensure rt s.rows name } else s
  let s := listed rt event s
  let s := if isStep rt event then stepped event name (attempted event name s) else s
  finished rt event (retried event s)

/-- The loop over the events. -/
def scan (doc : Doc) (events : List Event) : Scan :=
  events.foldl (step rt) { rows := planned rt doc events }

/-! ## The model -/

/-- What `model` returns. -/
structure Timeline where
  rows : List Row
  events : List Event
  state : JsValue
  stopped : Option JsText
  active : Option JsText
  error : JsValue
  retrying : Bool
  deliveryFailure : Option Event
  knownPlan : Bool
  awaitingAcknowledgement : Bool

/-- The state shown. -/
def shownState (doc : Doc) (finalState : JsValue) : JsValue :=
  if terminal doc.state then doc.state
  else if finalState.truthy && !finalState.isText "succeeded" then finalState
  else doc.state

/-- The step in progress when the execution ended, unless it was rolled back. -/
def interrupted (state : JsValue) (s : Scan) : Option JsText :=
  match s.active with
  | some active =>
    if terminal state && !state.isText "succeeded" && statusOf s.rows active != .compensated then
      some active
    else none
  | none => none

/-- The row of that step. -/
def interruptedRows (doc : Doc) (events : List Event) (state : JsValue) (s : Scan) : List Row :=
  match interrupted state s with
  | some active => write active (fun row =>
      { row with
          status := if state.isText "failed" then .failed else .stopped
          ended := doc.completed_at.or
            (((events.reverse.find? fun event => event.is "execution.finished").map
              Event.agent_created_at).getD .undefined) }) s.rows
  | none => s.rows

/-- The last pass over the rows, `index` the place of the row. -/
def settleRow (state : JsValue) (stopped : Option JsText) (stopIndex : Option ℕ) (row : Row)
    (index : ℕ) : Row :=
  let row := if row.status = .pending ∧ terminal state = true then
      { row with
          status := if stopped.any CsvImport.isTruthy && stopIndex.all (· < index) then .not_reached
            else .unreported }
    else row
  if row.status = .running ∧ state.isText "succeeded" = true then
    { row with status := .unreported }
  else row

/-- `model` -/
def model (doc : Doc) (input : List Event) : Timeline :=
  let events := inOrder input
  let s := scan rt doc events
  let state := shownState doc s.finalState
  let stopped := (interrupted state s).or s.stopped
  let rows := interruptedRows doc events state s
  let stopIndex := rows.findIdx? fun row => some row.name == stopped
  { rows := rows.mapIdx fun index row => settleRow state stopped stopIndex row index
    events
    state
    stopped
    active := if terminal state then none else s.active
    error := doc.error_code.or s.finalError
    retrying := !terminal state && s.retrying
    deliveryFailure := events.reverse.find? fun event => event.is "delivery.controller_failed"
    knownPlan := (own? plans doc.operation_type).isSome
    awaitingAcknowledgement := s.finalState.isText "succeeded" && !terminal doc.state }

end OperationTimeline
end FrappeController
