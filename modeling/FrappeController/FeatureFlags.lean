import FrappeController.Tables

/-!
# `feature_flags.py`: the deployment's feature gates

The feature file is part of the database state (`Database.featureConfig`); a file that does
not load reads as the disabled configuration, which is one of its values.
-/

namespace FrappeController

/-- `ENVIRONMENTS` -/
def environments : List String := ["development", "staging", "production"]

/-- `environment in _ENVIRONMENT_SET`, on a nullable value. -/
def knownEnvironment (environment : Option String) : Option String :=
  environment.filter environments.contains

/-- `_OPERATION_FEATURE` -/
def operationFeatures : List (String × String) :=
  [("site.backup", "backup_and_verify"), ("site.verify", "backup_and_verify"),
    ("site.scheduler.enable", "routine_operations"),
    ("site.scheduler.disable", "routine_operations"),
    ("site.maintenance.enable", "routine_operations"),
    ("site.maintenance.disable", "routine_operations"),
    ("site.config.update", "routine_operations"), ("site.config.set", "routine_operations"),
    ("site.create", "restore_and_reinstall"), ("site.create_blank", "restore_and_reinstall"),
    ("site.create_from_backup", "restore_and_reinstall"),
    ("site.restore", "restore_and_reinstall"), ("site.reinstall", "restore_and_reinstall"),
    ("site.migrate", "restore_and_reinstall"), ("site.delete", "quarantine_delete")]

/-- `operation_type in {"data.update", "data.update.break_glass"}` -/
def isDataUpdate (operationType : String) : Bool :=
  operationType == "data.update" || operationType == "data.update.break_glass"

namespace FeatureConfig

/-- `FeatureConfig.enabled` -/
def enabled (config : FeatureConfig) (feature environment : String) : Bool :=
  config.masterEnabled && ((config.features.lookup feature).getD []).contains environment

end FeatureConfig

variable (R : Runtime)

/-- `command["payload"]["dry_run"]` of a payload text, where it is a boolean. -/
def dryRun? (payloadJson : Text) : Option Bool :=
  match R.loads payloadJson with
  | some (.obj command) =>
    match Json.get command "payload" with
    | .obj payload =>
      match Json.get payload "dry_run" with
      | .bool b => some b
      | _ => none
    | _ => none
  | _ => none

/-- `operation_feature` -/
def operationFeature (operationType : String) (payloadJson : Text) : Option String :=
  if isDataUpdate operationType then
    (dryRun? R payloadJson).map fun b => if b then "data_update_preview" else "data_update_apply"
  else operationFeatures.lookup operationType

/-- `operation_enabled` -/
def operationEnabled (config : FeatureConfig) (environment operationType : String) (payloadJson : Text)
    (bulkParent : Option String) : Bool :=
  if operationType = "operation.cancel" then true
  else
    match operationFeature R operationType payloadJson with
    | none => false
    | some feature =>
      config.enabled feature environment
        && (!truthy bulkParent || config.enabled "bulk_operations" environment)

/-- `agent_environment` -/
def agentEnvironment (db : Database) (agentId : String) : Option String :=
  if agentId = "" then none
  else knownEnvironment ((db.agents.find? fun a => a.agentId == agentId).map (·.environment))

/-- `target_environment` -/
def targetEnvironment (db : Database) (agentId : String) (managedSite : Option String) :
    Option String :=
  match orNone managedSite with
  | some site => knownEnvironment ((Table.get? db.sites site).map (·.environment))
  | none => agentEnvironment db agentId

/-- `require_feature` -/
def requireFeature (db : Database) (feature : String) (environment : Option String) :
    Except Exc Unit :=
  match knownEnvironment environment with
  | none => .error (.permission "Controller feature is disabled")
  | some environment =>
    if db.featureConfig.enabled feature environment then .ok ()
    else .error (.permission "Controller feature is disabled")

/-- `require_operation` -/
def requireOperation (db : Database) (environment : Option String)
    (operationType : String) (payloadJson : Text) (bulkParent : Option String) : Except Exc Unit :=
  match knownEnvironment environment with
  | none => .error (.permission "Controller feature is disabled")
  | some environment =>
    if operationEnabled R db.featureConfig environment operationType payloadJson bulkParent then
      .ok ()
    else .error (.permission "Controller feature is disabled")

/-- `bulk_parent_enabled` -/
def bulkParentEnabled (db : Database) (parent : String) : Bool :=
  let targets := (db.bulkTargets.filter fun b => b.bulkOperation == parent).take 1001
  !targets.isEmpty && targets.all fun b =>
    environments.contains b.environmentSnapshot
      && db.featureConfig.enabled "bulk_operations" b.environmentSnapshot

/-- `enabled_operations_for_agent`, in some order. -/
def enabledOperationsForAgent (db : Database) (agentId : String) : List String :=
  match agentEnvironment db agentId with
  | none => ["operation.cancel"]
  | some environment =>
    let config := db.featureConfig
    ((operationFeatures.filter fun f => config.enabled f.2 environment).map Prod.fst)
      ++ (if config.enabled "data_update_preview" environment
            || config.enabled "data_update_apply" environment
          then ["data.update", "data.update.break_glass"] else [])
      ++ ["operation.cancel"]

end FrappeController
