import FrappeController.AgentRuns
import FrappeController.CanonicalJson
import FrappeController.FrappeInventoryTheorems
import FrappeController.OperationLifecycle

/-!
# The command an agent receives

A dispatch fixes the command of an operation as a text and a hash. Every lease decodes that text,
compares it with the live rows and sends it with a new validity.

`command_immutable` says that all deliveries of an operation are one command, the one its hash
was fixed for, and that heartbeats and leases never make the comparison fail: it reads no column
a heartbeat writes.
-/

namespace FrappeController
namespace CommandSnapshot

open Dispatcher FrappeStore
open FrappeInventory (Session read readForUpdate write setBenches setSites)
open Transaction (bind_eq_ok bind_apply_eq_ok query_eq_ok)

/-! ## The system -/

/-- The columns that fix the command of an operation. -/
structure SameCommand (op op' : ControllerOperation) : Prop where
  name : op'.name = op.name
  operationId : op'.operationId = op.operationId
  commandJson : op'.commandJson = op.commandJson
  commandHash : op'.commandHash = op.commandHash

variable (R : Runtime) (lifetime clockSkew : ℕ)

/-- An operation as it is authored: its id is `str(uuid.UUID(..))`, and `ControllerOperation.validate`
found its site. -/
structure Authored (db : Database) (op : ControllerOperation) : Prop where
  canonical : R.uuid op.operationId = some op.operationId
  site : ∀ name, op.managedSite = some name → (Table.get? db.sites name).isSome = true

structure Schema (db : Database) : Prop where
  names : Table.Unique db.operations
  ids : (db.operations.map (·.operationId)).Nodup
  authored : ∀ op ∈ db.operations, Authored R db op

/-- Operations that still wait for their dispatch. -/
structure Start (db : Database) : Prop where
  schema : Schema R db
  undispatched : ∀ op ∈ db.operations, op.commandHash = none

/-- Any other transaction: authoring, approvals, results, events, the bulk scheduler. The columns
of the command are immutable fields of the document. -/
structure OtherStep (db db' : Database) : Prop where
  schema : Schema R db'
  kept : ∀ op ∈ db.operations, ∃ op' ∈ db'.operations, SameCommand op op'
  old : ∀ op' ∈ db'.operations, (∃ op ∈ db.operations, SameCommand op op') ∨ op'.commandHash = none

inductive Label where
  /-- With the envelope a dispatch returned, if it returned. -/
  | dispatch (name : String) (envelope : Option (List (String × Json)))
  /-- With the envelope the poll delivered, if it delivered one. -/
  | lease (envelope : Option (List (String × Json)))
  | heartbeat
  | other

/-- One commit. -/
inductive Step : Database → Label → Database → Prop
  | dispatch {db : Database} (name : String) (now : DateTime) :
      Step db (.dispatch name
          (Transaction.outcome (dispatch R lifetime name now) db).toOption)
        (Transaction.committed (dispatch R lifetime name now) db)
  | lease {db : Database} (agentId : String) (now : DateTime)
      (allowedOperationTypes : Option (List String)) (commandFilter : Candidate → Bool)
      (locked : List String) :
      Step db (.lease (Transaction.outcome (leaseCommand R lifetime clockSkew agentId now
          allowedOperationTypes commandFilter locked) db).toOption.join)
        (Transaction.committed (leaseCommand R lifetime clockSkew agentId now
          allowedOperationTypes commandFilter locked) db)
  | heartbeat {db : Database} (agentId : String) (state : Json) (observedAt : DateTime)
      (view : Database) :
      Step db .heartbeat (FrappeInventory.serve R agentId state observedAt view db).2
  | other {db db' : Database} (h : OtherStep R db db') : Step db .other db'

/-- A heartbeat, or a lease with its bookkeeping. -/
def Label.bookkeeping : Label → Bool
  | .lease _ | .heartbeat => true
  | .dispatch _ _ | .other => false

/-- A dispatch of the run fixed that hash for the operation. -/
def FixedBy (labels : List Label) (name digest : String) : Prop :=
  ∃ env, .dispatch name (some env) ∈ labels ∧ immutableCommandHash R env = .ok digest

/-- The dispatch of an operation that waited for it. -/
structure Queues (db : Database) (name : String) (now : DateTime) (env : List (String × Json))
    (db' : Database) : Prop where
  waiting : ∃ op, db.operation? name = some op ∧ op.state = .awaitingApproval
  returned : dispatch R lifetime name now db = .ok env db'

/-- The envelope is a `dict`, and `json.loads` reads back what `json.dumps` wrote. -/
structure ReadsBack (env : List (String × Json)) : Prop where
  distinct : (Json.obj env).Distinct
  loads : R.loads (R.dumps (.obj env)) = some (Json.obj env).sorted

variable {R lifetime clockSkew}
variable {db db' view : Database} {op op' : ControllerOperation} {l : Label} {labels : List Label}

/-! ## Deliveries -/

/-- Every operation has the command of itself. -/
theorem SameCommand.refl (op : ControllerOperation) : SameCommand op op := ⟨rfl, rfl, rfl, rfl⟩

/-- The columns stay fixed over two steps. -/
theorem SameCommand.trans {op'' : ControllerOperation} (h : SameCommand op op')
    (h' : SameCommand op' op'') : SameCommand op op'' :=
  ⟨h'.name.trans h.name, h'.operationId.trans h.operationId, h'.commandJson.trans h.commandJson,
    h'.commandHash.trans h.commandHash⟩

/-- Setting a key that is left out changes nothing that is kept. -/
theorem without_set {fields : List (String × Json)} {key : String} {value : Json}
    {keys : List String} (hkey : keys.contains key = true) :
    Json.without (Json.set fields key value) keys = Json.without fields keys := by
  unfold Json.set Json.without
  split
  · clear * - hkey
    induction fields with
    | nil => rfl
    | cons f rest ih =>
      rw [List.map_cons]
      by_cases hname : f.1 = key
      · simp only [hname, beq_self_eq_true, if_true, List.filter_cons, hkey, Bool.not_true,
          Bool.false_eq_true, if_false]
        exact ih
      · simp only [beq_eq_false_iff_ne.mpr hname, Bool.false_eq_true, if_false, List.filter_cons,
          ih]
  · have hnone : [(key, value)].filter (fun f => !keys.contains f.1) = [] := by
      simp only [List.filter_cons, hkey, Bool.not_true, Bool.false_eq_true, if_false,
        List.filter_nil]
    rw [List.filter_append, hnone, List.append_nil]

/-- A new validity does not change the command. -/
theorem immutableCommand_stamp (now : DateTime) (fields : List (String × Json)) :
    immutableCommand (stamp lifetime now fields) = immutableCommand fields := by
  unfold immutableCommand stamp
  rw [without_set rfl, without_set rfl]

/-- A command that is read back with its hash is accepted. -/
theorem persisted_of_loads {text : Text} {digest : String} {fields : List (String × Json)}
    (hloads : R.loads text = some (.obj fields)) (hsha : isSha256 digest = true)
    (hdigest : immutableCommandHash R fields = .ok digest) :
    persisted R (some text) (some digest) = .ok fields := by
  have hread : decoded R "persisted command is invalid" (some text) = .ok (.inl (.obj fields)) :=
    decoded_eq_ok_inl.mpr hloads
  unfold persisted
  refine bind_eq_ok.mpr ⟨_, hread, bind_eq_ok.mpr ⟨(), ensure_eq_ok.mpr hsha, ?_⟩⟩
  exact bind_eq_ok.mpr ⟨digest, hdigest, bind_eq_ok.mpr
    ⟨(), ensure_eq_ok.mpr (beq_self_eq_true _), rfl⟩⟩

/-- The operation a candidate of the scan stands for. -/
theorem mem_leasable {agentId : String} {allowedOperationTypes : Option (List String)}
    {locked : List String} {now : DateTime} {c : Candidate}
    (h : c ∈ leasable db agentId allowedOperationTypes locked now) :
    ∃ op ∈ db.operations, c.name = op.name ∧ c.commandJson = op.commandJson ∧
      c.commandHash = op.commandHash := by
  obtain ⟨op, hop, hc⟩ := List.mem_filterMap.mp (List.mem_of_mem_take h)
  rw [List.mem_insertionSort] at hop
  simp only [candidate?, Option.bind_eq_bind, Option.bind_eq_some_iff] at hc
  obtain ⟨_, -, hc⟩ := hc
  split at hc
  · cases hc
    exact ⟨op, hop, rfl, rfl, rfl⟩
  · cases hc

/-- A delivered envelope is the stored command of one operation, with a new validity. -/
theorem leaseCommand_delivers (hnames : Table.Unique db.operations) {agentId : String}
    {now : DateTime} {allowedOperationTypes : Option (List String)}
    {commandFilter : Candidate → Bool} {locked : List String} {env : List (String × Json)}
    (h : leaseCommand R lifetime clockSkew agentId now allowedOperationTypes commandFilter locked
      db = .ok (some env) db') :
    ∃ op ∈ db.operations, ∃ fields, persisted R op.commandJson op.commandHash = .ok fields ∧
      immutableCommand env = immutableCommand fields ∧
      Json.get env "operation_id" = .str op.operationId := by
  rcases Lifecycle.leaseCommand_eq_ok h with ⟨hnone, -⟩ | ⟨found, db₁, hscan, hlease⟩
  · cases hnone
  rcases hlease with ⟨-, hnone, -⟩ | ⟨c, env₀, rfl, henv, -⟩
  · cases hnone
  cases henv
  have hhead := (firstValid_sound rfl hscan).1.symm
  have hvalid : validatePersisted R lifetime db c.name c.commandJson c.commandHash now =
      .ok env₀ := validation_of_headOfLine R lifetime hhead
  obtain ⟨op, hop, hname, hjson, hhash⟩ :=
    mem_leasable (List.mem_of_mem_filter (mem_of_headOfLine R lifetime hhead))
  simp only [validatePersisted, bind_eq_ok, pure, Except.pure, Except.ok.injEq] at hvalid
  obtain ⟨fields, hpersisted, _, hsnapshot, rfl⟩ := hvalid
  obtain ⟨row, payload, _, _, _, hrow, -, hexpected, -⟩ := validateSnapshot_eq_ok.mp hsnapshot
  obtain ⟨hmem, hrowName⟩ := operationRow?_eq_some hrow
  -- the compared row is the candidate's
  have hsame : row.op = op := Table.eq_of_mem hnames hmem hop (hrowName.trans hname)
  have hid : Json.get fields "operation_id" = .str row.op.operationId :=
    Json.eq_str_of_pyEq (hexpected ("operation_id", .str row.op.operationId) (by simp [expected]))
  rw [hjson, hhash] at hpersisted
  refine ⟨op, hop, fields, hpersisted, ?_, ?_⟩
  · rw [immutableCommand_stamp, immutableCommand_stamp]
  · rw [← hsame, ← hid]
    simp only [stamp]
    rw [Json.get_set_of_ne _ _ (by decide), Json.get_set_of_ne _ _ (by decide),
      Json.get_set_of_ne _ _ (by decide), Json.get_set_of_ne _ _ (by decide)]

/-! ## What a heartbeat leaves alone -/

section Keeps

variable {ρ κ : Type} [Named ρ]

/-- Every row a lookup finds is found again, with the same key. -/
def Keeps (key : ρ → κ) (old new : List ρ) : Prop :=
  ∀ name r, Table.get? old name = some r → ∃ r', Table.get? new name = some r' ∧ key r' = key r

/-- A table keeps its own rows. -/
theorem Keeps.refl (key : ρ → κ) (table : List ρ) : Keeps key table table :=
  fun _ r hr => ⟨r, hr, rfl⟩

/-- Rows are kept over two steps. -/
theorem Keeps.trans {key : ρ → κ} {a b c : List ρ} (h : Keeps key a b) (h' : Keeps key b c) :
    Keeps key a c := by
  intro name r hr
  obtain ⟨r', hr', hkey⟩ := h name r hr
  obtain ⟨r'', hr'', hkey'⟩ := h' name r' hr'
  exact ⟨r'', hr'', hkey'.trans hkey⟩

/-- A write that leaves name and key as they are keeps every row. -/
theorem keeps_setValue {key : ρ → κ} {f : ρ → ρ} (hname : ∀ r, Named.name (f r) = Named.name r)
    (hkey : ∀ r, key (f r) = key r) (written : String) (table : List ρ) :
    Keeps key table (Table.setValue written f table) := by
  intro name r hr
  by_cases hsame : name = written
  · subst hsame
    exact ⟨f r, by rw [Table.get?_setValue_self hname, hr, Option.map_some], hkey r⟩
  · exact ⟨r, by rw [Table.get?_setValue_of_ne hname _ hsame, hr], rfl⟩

/-- New rows hide no old one. -/
theorem keeps_append (key : ρ → κ) (table rows : List ρ) : Keeps key table (table ++ rows) := by
  intro name r hr
  exact ⟨r, by rw [Table.get?, List.find?_append, ← Table.get?, hr, Option.some_or], rfl⟩

end Keeps

/-- What identifies an agent to its commands. -/
def agentIdentity (agent : ServerAgent) : String × String := (agent.agentId, agent.audience)

/-- The two versions differ in agents, benches and sites at most, and not in who they are. -/
structure SameFleet (db db' : Database) : Prop where
  rest : db' = { db with agents := db'.agents, benches := db'.benches, sites := db'.sites }
  agents : Keeps agentIdentity db.agents db'.agents
  benches : Keeps Bench.benchId db.benches db'.benches
  sites : Keeps ManagedSite.siteId db.sites db'.sites

/-- Every version has the fleet of itself. -/
theorem SameFleet.refl (db : Database) : SameFleet db db :=
  ⟨rfl, .refl _ _, .refl _ _, .refl _ _⟩

/-- The fleet stays the same over two steps. -/
theorem SameFleet.trans {db'' : Database} (h : SameFleet db db') (h' : SameFleet db' db'') :
    SameFleet db db'' where
  rest := by rw [h'.rest, h.rest]
  agents := h.agents.trans h'.agents
  benches := h.benches.trans h'.benches
  sites := h.sites.trans h'.sites

/-- A statement after which the fleet is the same. -/
def KeepsFleet {α : Type} (m : EStateM Exc Session α) : Prop :=
  ∀ s a s', m s = .ok a s' → SameFleet s.current s'.current

section KeepsFleet

variable {α β : Type} {m : EStateM Exc Session α}

/-- Two statements that keep the fleet keep it one after the other. -/
theorem KeepsFleet.bind {f : α → EStateM Exc Session β} (hm : KeepsFleet m)
    (hf : ∀ a, KeepsFleet (f a)) : KeepsFleet (m >>= f) := by
  intro s b s' h
  obtain ⟨a, t, ha, hb⟩ := bind_apply_eq_ok.mp h
  exact (hm s a t ha).trans (hf a t b s' hb)

/-- A result writes nothing. -/
theorem KeepsFleet.pure (a : α) : KeepsFleet (pure a) := by
  intro s b s' h
  cases h
  exact .refl _

/-- A query writes nothing. -/
theorem KeepsFleet.query (f : Session → Except Exc α) : KeepsFleet (Transaction.query f) := by
  intro s a s' h
  obtain ⟨-, rfl⟩ := query_eq_ok.mp h
  exact .refl _

/-- A write keeps the fleet when every version it makes has the same one. -/
theorem KeepsFleet.write {f : Database → Database} (h : ∀ db, SameFleet db (f db)) :
    KeepsFleet (FrappeInventory.write f) := by
  intro s a s' hwrite
  rw [FrappeInventory.write_eq_ok.mp hwrite]
  exact h _

/-- A loop keeps the fleet when its body does. -/
theorem KeepsFleet.forEach {body : α → EStateM Exc Session Unit} (h : ∀ a, KeepsFleet (body a)) :
    ∀ items, KeepsFleet (Transaction.forEach body items)
  | [] => .pure ()
  | a :: rest => .bind (h a) fun _ => KeepsFleet.forEach h rest

end KeepsFleet

/-- A write on benches that leaves their names and ids as they are keeps the fleet. -/
theorem keepsFleet_setBenches (names : List String) {f : Bench → Bench}
    (hname : ∀ b, (f b).name = b.name) (hid : ∀ b, (f b).benchId = b.benchId) :
    KeepsFleet (setBenches names f) := by
  unfold setBenches
  refine .forEach (fun name => .write fun db => ?_) names
  exact ⟨rfl, .refl _ _, keeps_setValue hname hid name _, .refl _ _⟩

/-- A write on sites that leaves their names and ids as they are keeps the fleet. -/
theorem keepsFleet_setSites (names : List String) {f : ManagedSite → ManagedSite}
    (hname : ∀ s, (f s).name = s.name) (hid : ∀ s, (f s).siteId = s.siteId) :
    KeepsFleet (setSites names f) := by
  unfold setSites
  refine .forEach (fun name => .write fun db => ?_) names
  exact ⟨rfl, .refl _ _, .refl _ _, keeps_setValue hname hid name _⟩

section Upsert

variable (agent : ServerAgent) (status : ReportedStatus) (observedAt : DateTime)

/-- A reported site is updated in its own row or gets a new one. -/
theorem keepsFleet_upsertSite (benchId : String) (site : SiteSnapshot) :
    KeepsFleet (FrappeInventory.upsertSite R agent status observedAt benchId site) := by
  refine .bind (.query _) fun present => ?_
  by_cases hpresent : present = true
  · rw [if_pos hpresent]
    exact keepsFleet_setSites _ (fun _ => rfl) (fun _ => rfl)
  · rw [if_neg hpresent]
    refine .bind (.query _) fun _ => .bind (.query _) fun _ => .bind (.query _) fun _ =>
      .write fun db => ?_
    exact ⟨rfl, .refl _ _, .refl _ _, keeps_append _ _ _⟩

/-- A reported bench is updated in its own row or gets a new one, and so are its sites. -/
theorem keepsFleet_upsertBench (bench : BenchSnapshot) :
    KeepsFleet (FrappeInventory.upsertBench R agent status observedAt bench) := by
  refine .bind (.bind (.query _) fun present => ?_) fun _ =>
    .forEach (fun site => keepsFleet_upsertSite agent status observedAt bench.benchId site) _
  by_cases hpresent : present = true
  · rw [if_pos hpresent]
    exact keepsFleet_setBenches _ (fun _ => rfl) (fun _ => rfl)
  · rw [if_neg hpresent]
    refine .bind (.query _) fun _ => .bind (.query _) fun _ => .write fun db => ?_
    exact ⟨rfl, .refl _ _, keeps_append _ _ _, .refl _ _⟩

end Upsert

/-- The checks of the owners only read. -/
theorem keepsFleet_checkOwners (agentId : String) (benches : List BenchSnapshot) :
    KeepsFleet (Transaction.forEach (fun bench => do
      Inventory.checkBenchOwner (FrappeInventory.repository R) agentId bench.benchId
      Transaction.forEach (fun site =>
        Inventory.checkSiteOwner (FrappeInventory.repository R) agentId bench.benchId site.domain)
        bench.sites) benches) := by
  intro s u s' h
  rw [FrappeInventory.checks_eq_ok h]
  exact .refl _

/-- A heartbeat keeps the fleet: it updates rows in place, adds rows, and deletes none. -/
theorem keepsFleet_replaceInventory (agentId : String) (heartbeat : HeartbeatInventory)
    (previousDigest : Option String) (revision : ℕ) (observedAt : DateTime) :
    KeepsFleet (FrappeInventory.replaceInventory R agentId heartbeat previousDigest revision
      observedAt) := by
  refine .bind (.query _) fun agent => .bind (.forEach (fun bench => ?_) _) fun _ =>
    .bind (.forEach (fun bench => .forEach (fun site => ?_) _) _) fun _ => .bind (.query _) fun old =>
    .bind (keepsFleet_setBenches _ (fun _ => rfl) (fun _ => rfl)) fun _ =>
    .bind (keepsFleet_setSites _ (fun _ => rfl) (fun _ => rfl)) fun _ =>
    .bind (.forEach (fun bench => keepsFleet_upsertBench agent _ observedAt bench) _) fun _ =>
    .write fun db => ?_
  · intro s u s' h
    rw [(FrappeInventory.checkBenchOwner_eq_ok h).1]
    exact .refl _
  · intro s u s' h
    rw [(FrappeInventory.checkSiteOwner_eq_ok h).1]
    exact .refl _
  · refine ⟨rfl, ?_, .refl _ _, .refl _ _⟩
    exact keeps_setValue (f := FrappeInventory.reportAgent R heartbeat revision observedAt)
      (fun _ => rfl) (fun _ => rfl) agent.name db.agents

/-- A heartbeat changes the inventory of agents, benches and sites, and nobody's identity. -/
theorem sameFleet_serve (agentId : String) (state : Json) (observedAt : DateTime)
    (view db : Database) :
    SameFleet db (FrappeInventory.serve R agentId state observedAt view db).2 := by
  have hkeeps : KeepsFleet (FrappeInventory.heartbeat R agentId state observedAt) :=
    .bind (.query _) fun _ => .bind (.query _) fun agentId => .bind (.query _) fun _ =>
      .bind (.query _) fun heartbeat => .bind (.query _) fun previous =>
      .bind (keepsFleet_checkOwners agentId _) fun _ =>
      .bind (keepsFleet_replaceInventory agentId heartbeat _ _ observedAt) fun _ => .pure _
  unfold FrappeInventory.serve
  cases hrun : FrappeInventory.heartbeat R agentId state observedAt { view, current := db } with
  | ok delta session => exact hkeeps _ _ _ hrun
  | error e session => exact .refl db

/-! ## The comparison with the live rows -/

/-- The row of an operation is found exactly with its agent and its bench. -/
theorem operationRow?_eq {name : String} {row : OperationRow} :
    operationRow? db name = some row ↔ ∃ op agent bench, db.operation? name = some op ∧
      Table.get? db.agents op.serverAgent = some agent ∧
      Table.get? db.benches op.bench = some bench ∧
      row = {
        op, agentId := agent.agentId, audience := agent.audience, agentEnabled := agent.enabled
        currentInventoryRevision := agent.inventoryDigest, agentDraining := agent.drainRequested
        benchId := bench.benchId
        siteId := (op.managedSite.bind (Table.get? db.sites)).map (·.siteId)
        siteDomain := (op.managedSite.bind (Table.get? db.sites)).map (·.domain) } := by
  simp only [operationRow?, Option.bind_eq_bind, Option.bind_eq_some_iff]
  constructor
  · rintro ⟨op, hop, agent, hagent, bench, hbench, hrow⟩
    cases hrow
    exact ⟨op, agent, bench, hop, hagent, hbench, rfl⟩
  · rintro ⟨op, agent, bench, hop, hagent, hbench, rfl⟩
    exact ⟨op, hop, agent, hagent, bench, hbench, rfl⟩

/-- A stored command that agrees with the rows agrees with them after a heartbeat. -/
theorem validateSnapshot_sameFleet {name : String} {fields : List (String × Json)} {u : Unit}
    (hfleet : SameFleet db db') (hauthored : ∀ op ∈ db.operations, Authored R db op)
    (h : validateSnapshot R db name fields = .ok u) :
    validateSnapshot R db' name fields = .ok u := by
  obtain ⟨row, payload, claimed, t, claims, hrow, hloads, hexpected, harr, ht, hsame, hrevision,
    hclaims, heq⟩ := validateSnapshot_eq_ok.mp h
  obtain ⟨op, agent, bench, hop, hagent, hbench, rfl⟩ := operationRow?_eq.mp hrow
  obtain ⟨hrest, hagents, hbenches, hsites⟩ := hfleet
  obtain ⟨agent', hagent', hidentity⟩ := hagents _ agent hagent
  obtain ⟨bench', hbench', hbenchId⟩ := hbenches _ bench hbench
  have hsiteId : (op.managedSite.bind (Table.get? db'.sites)).map (·.siteId) =
      (op.managedSite.bind (Table.get? db.sites)).map (·.siteId) := by
    cases hmanaged : op.managedSite with
    | none => rfl
    | some name =>
      obtain ⟨site, hsite⟩ := Option.isSome_iff_exists.mp
        ((hauthored op (Table.get?_mem hop)).site name hmanaged)
      obtain ⟨site', hsite', hid⟩ := hsites name site hsite
      rw [Option.bind_some, Option.bind_some, hsite, hsite', Option.map_some, Option.map_some, hid]
  obtain ⟨hagentId, haudience⟩ := Prod.mk.inj hidentity
  have hop' : db'.operation? name = some op := by
    rw [hrest]
    exact hop
  have htarget : target db' name = .ok t := by
    rw [hrest]
    exact ht
  have hlive : approvalClaims db' op t = .ok claims := by
    rw [hrest]
    exact hclaims
  refine validateSnapshot_eq_ok.mpr ⟨_, payload, claimed, t, claims,
    operationRow?_eq.mpr ⟨op, agent', bench', hop', hagent', hbench', rfl⟩, hloads, ?_, harr,
    htarget, hsame, hrevision, hlive, heq⟩
  intro f hf
  refine hexpected f ?_
  simp only [expected, hagentId, haudience, hbenchId, hsiteId] at hf ⊢
  exact hf

/-! ## What a lease leaves alone -/

/-- The scan for a valid command changes no command, whatever it quarantines. -/
theorem commandsOf_firstValid {commandFilter : Candidate → Bool} {now : DateTime}
    {queue : List Candidate} {found : Option (Candidate × List (String × Json))}
    (h : firstValid R lifetime commandFilter now queue db = .ok found db') :
    commandsOf db' = commandsOf db := by
  induction queue generalizing db with
  | nil =>
    cases h
    rfl
  | cons c rest ih =>
    cases hfilter : commandFilter c with
    | false =>
      rw [firstValid_cons_skip c rest hfilter] at h
      exact ih h
    | true =>
      rw [firstValid_cons rfl c rest hfilter] at h
      split at h
      · cases h
        rfl
      · exact (ih h).trans (commandsOf_quarantine c now db)
      · cases h

/-- A lease changes no command. -/
theorem commandsOf_leaseCommand (agentId : String) (now : DateTime)
    (allowedOperationTypes : Option (List String)) (commandFilter : Candidate → Bool)
    (locked : List String) (db : Database) :
    commandsOf (Transaction.committed (leaseCommand R lifetime clockSkew agentId now
      allowedOperationTypes commandFilter locked) db) = commandsOf db := by
  cases hrun : leaseCommand R lifetime clockSkew agentId now allowedOperationTypes commandFilter
    locked db with
  | error e s => rw [Transaction.committed_of_error hrun]
  | ok result db' =>
    rw [Transaction.committed_of_ok hrun]
    rcases Lifecycle.leaseCommand_eq_ok hrun with ⟨-, rfl⟩ | ⟨found, db₁, hscan, hlease⟩
    · rfl
    · rcases hlease with ⟨-, -, rfl⟩ | ⟨c, env, -, -, rfl⟩
      · exact commandsOf_firstValid hscan
      · exact (commandsOf_advance (f := lease lifetime clockSkew now)
          (g := fun t => { t with state := .leased }) (h := id) (fun _ => rfl) (fun _ => rfl)
          (fun _ => rfl) _ _ _).trans (commandsOf_firstValid hscan)

/-- Operations that differ in their progress only have one command and one site. -/
theorem sameCommand_of_withoutProgress (h : withoutProgress op' = withoutProgress op) :
    SameCommand op op' ∧ op'.managedSite = op.managedSite := by
  have hname := congrArg ControllerOperation.name h
  have hid := congrArg ControllerOperation.operationId h
  have hjson := congrArg ControllerOperation.commandJson h
  have hhash := congrArg ControllerOperation.commandHash h
  have hsite := congrArg ControllerOperation.managedSite h
  exact ⟨⟨hname, hid, hjson, hhash⟩, hsite⟩

/-- With the same commands, every operation is found again. -/
theorem exists_of_commandsOf (h : commandsOf db' = commandsOf db) (hop : op ∈ db.operations) :
    ∃ op' ∈ db'.operations, withoutProgress op' = withoutProgress op := by
  have hoperations : db'.operations.map withoutProgress = db.operations.map withoutProgress :=
    congrArg Database.operations h
  have hmem : withoutProgress op ∈ db'.operations.map withoutProgress := by
    rw [hoperations]
    exact List.mem_map_of_mem hop
  exact List.mem_map.mp hmem

/-! ## One step -/

/-- The schema holds where names, ids and sites are kept. -/
theorem Schema.of_eq (h : Schema R db)
    (hnames : db'.operations.map (·.name) = db.operations.map (·.name))
    (hids : db'.operations.map (·.operationId) = db.operations.map (·.operationId))
    (hold : ∀ op' ∈ db'.operations, ∃ op ∈ db.operations,
      op'.operationId = op.operationId ∧ op'.managedSite = op.managedSite)
    (hsites : ∀ name, (Table.get? db.sites name).isSome = true →
      (Table.get? db'.sites name).isSome = true) : Schema R db' where
  names := by
    show (db'.operations.map (·.name)).Nodup
    rw [hnames]
    exact h.names
  ids := by
    rw [hids]
    exact h.ids
  authored op' hop' := by
    obtain ⟨op, hop, hid, hsite⟩ := hold op' hop'
    have hauthored := h.authored op hop
    refine ⟨?_, fun name hname => hsites name (hauthored.site name (hsite ▸ hname))⟩
    rw [hid]
    exact hauthored.canonical

/-- What one step keeps, and what it adds. -/
structure Kept (R : Runtime) (l : Label) (db db' : Database) : Prop where
  schema : Schema R db'
  fixed : ∀ op ∈ db.operations, op.commandHash ≠ none → ∃ op' ∈ db'.operations, SameCommand op op'
  old : ∀ op' ∈ db'.operations, ∀ digest, op'.commandHash = some digest →
    (∃ op ∈ db.operations, SameCommand op op') ∨ FixedBy R [l] op'.name digest

/-- A step that changes no command keeps all of it. -/
theorem Kept.of_commandsOf (hschema : Schema R db) (h : commandsOf db' = commandsOf db) :
    Kept R l db db' where
  schema := by
    have hoperations : db'.operations.map withoutProgress = db.operations.map withoutProgress :=
      congrArg Database.operations h
    refine hschema.of_eq ?_ ?_ ?_ ?_
    · simpa [List.map_map, Function.comp_def, withoutProgress] using
        congrArg (List.map (·.name)) hoperations
    · simpa [List.map_map, Function.comp_def, withoutProgress] using
        congrArg (List.map (·.operationId)) hoperations
    · intro op' hop'
      obtain ⟨op, hop, hsame⟩ := exists_of_commandsOf h.symm hop'
      obtain ⟨hcommand, hsite⟩ := sameCommand_of_withoutProgress hsame.symm
      exact ⟨op, hop, hcommand.operationId, hsite⟩
    · intro name
      have hsites := congrArg Database.sites h
      change db'.sites = db.sites at hsites
      rw [hsites]
      exact id
  fixed op hop _ := by
    obtain ⟨op', hop', hsame⟩ := exists_of_commandsOf h hop
    exact ⟨op', hop', (sameCommand_of_withoutProgress hsame).1⟩
  old op' hop' _ _ := by
    obtain ⟨op, hop, hsame⟩ := exists_of_commandsOf h.symm hop'
    exact .inl ⟨op, hop, (sameCommand_of_withoutProgress hsame.symm).1⟩

/-- A step that changes inventories only keeps all of it. -/
theorem Kept.of_sameFleet (hschema : Schema R db) (h : SameFleet db db') : Kept R l db db' := by
  have hoperations : db'.operations = db.operations := by rw [h.rest]
  refine ⟨hschema.of_eq ?_ ?_ ?_ ?_, ?_, ?_⟩
  · rw [hoperations]
  · rw [hoperations]
  · intro op' hop'
    exact ⟨op', hoperations ▸ hop', rfl, rfl⟩
  · intro name hname
    obtain ⟨site, hsite⟩ := Option.isSome_iff_exists.mp hname
    obtain ⟨site', hsite', -⟩ := h.sites name site hsite
    rw [hsite']
    rfl
  · intro op hop _
    exact ⟨op, hoperations ▸ hop, .refl op⟩
  · intro op' hop' _ _
    exact .inl ⟨op', hoperations ▸ hop', .refl op'⟩

/-- The write of a dispatch, on an operation without a command hash. -/
theorem Kept.of_queue (hschema : Schema R db)
    (hhashes : ∀ op ∈ db.operations, op.commandHash ≠ some "") {name digest : String} {text : Text}
    {g : OperationTarget → OperationTarget} (hop : db.operation? name = some op)
    (hnone : orNone op.commandHash = none) (hfixed : FixedBy R [l] name digest) :
    Kept R l db (db.advance name none (queue text digest) g id) := by
  have hrows : ∀ op' ∈ (db.advance name none (queue text digest) g id).operations,
      ∃ q ∈ db.operations, op' = if q.name = name then queue text digest q else q := by
    intro op' hop'
    obtain ⟨q, hq, rfl⟩ := Lifecycle.mem_operations_advance.mp hop'
    exact ⟨q, hq, rfl⟩
  refine ⟨hschema.of_eq ?_ ?_ ?_ fun _ => id, ?_, ?_⟩
  · exact Table.map_update (f := queue text digest) (g := (·.name)) _ (fun _ => rfl) db.operations
  · exact Table.map_update (f := queue text digest) (g := (·.operationId)) _ (fun _ => rfl)
      db.operations
  · intro op' hop'
    obtain ⟨q, hq, rfl⟩ := hrows op' hop'
    refine ⟨q, hq, ?_⟩
    split <;> exact ⟨rfl, rfl⟩
  · intro q hq hsome
    refine ⟨q, Lifecycle.mem_operations_advance.mpr ⟨q, hq, if_neg fun hname => ?_⟩, .refl q⟩
    -- the operation that is queued has no hash yet
    have hsame : q = op :=
      Table.eq_of_mem hschema.names hq (Table.get?_mem hop) (hname.trans (Table.get?_name hop).symm)
    rw [hsame] at hsome
    obtain ⟨h, hh⟩ := Option.ne_none_iff_exists'.mp hsome
    have hempty : h ≠ "" := fun he => hhashes op (Table.get?_mem hop) (he ▸ hh)
    rw [orNone_eq_some.mpr ⟨hh, hempty⟩] at hnone
    cases hnone
  · intro op' hop' hash hhash
    obtain ⟨q, hq, rfl⟩ := hrows op' hop'
    by_cases hname : q.name = name
    · rw [if_pos hname] at hhash ⊢
      cases hhash
      refine .inr ?_
      show FixedBy R [l] q.name digest
      rw [hname]
      exact hfixed
    · rw [if_neg hname]
      exact .inl ⟨q, hq, .refl q⟩

/-- Every commit keeps what is kept, by one case for each kind of transaction. -/
theorem Step.kept (hschema : Schema R db) (hhashes : ∀ op ∈ db.operations, op.commandHash ≠ some "")
    (hstep : Step R lifetime clockSkew db l db') : Kept R l db db' := by
  cases hstep with
  | dispatch name now =>
    cases hrun : Dispatcher.dispatch R lifetime name now db with
    | error e s =>
      rw [Transaction.committed_of_error hrun]
      exact .of_commandsOf hschema rfl
    | ok env db' =>
      rw [Transaction.committed_of_ok hrun]
      obtain ⟨-, ⟨rfl, -⟩ | ⟨op, digest, text, hop, -, hnone, hdigest, -, rfl⟩⟩ :=
        Lifecycle.dispatch_eq_ok hrun
      · exact .of_commandsOf hschema rfl
      · refine .of_queue hschema hhashes hop hnone ⟨env, ?_, hdigest⟩
        rw [Transaction.outcome, hrun]
        exact List.mem_singleton.mpr rfl
  | lease agentId now allowedOperationTypes commandFilter locked =>
    exact .of_commandsOf hschema (commandsOf_leaseCommand ..)
  | heartbeat agentId state observedAt view =>
    exact .of_sameFleet hschema (sameFleet_serve agentId state observedAt view db)
  | other h =>
    refine ⟨h.schema, fun op hop _ => h.kept op hop, fun op' hop' digest hdigest => ?_⟩
    rcases h.old op' hop' with hold | hnone
    · exact .inl hold
    · rw [hnone] at hdigest
      cases hdigest

/-! ## Runs -/

/-- What holds after a run: every command hash was fixed by a dispatch, and every delivery is the
stored command of one operation. -/
structure Inv (R : Runtime) (labels : List Label) (db : Database) : Prop where
  schema : Schema R db
  fixed : ∀ op ∈ db.operations, ∀ digest, op.commandHash = some digest →
    FixedBy R labels op.name digest
  delivered : ∀ env, .lease (some env) ∈ labels → ∃ op ∈ db.operations, ∃ fields,
    persisted R op.commandJson op.commandHash = .ok fields ∧
    immutableCommand env = immutableCommand fields ∧
    Json.get env "operation_id" = .str op.operationId

/-- A hash that was fixed stays fixed in a longer run. -/
theorem FixedBy.mono {labels' : List Label} {name digest : String} (h : FixedBy R labels name digest)
    (hsub : labels ⊆ labels') : FixedBy R labels' name digest := by
  obtain ⟨env, hmem, hdigest⟩ := h
  exact ⟨env, hsub hmem, hdigest⟩

/-- A fixed hash is a digest. -/
theorem isSha256_of_fixedBy (hhex : ∀ text, isSha256 (R.sha256 text) = true) {name digest : String}
    (h : FixedBy R labels name digest) : isSha256 digest = true := by
  obtain ⟨env, -, hdigest⟩ := h
  simp only [immutableCommandHash, bind_eq_ok, pure, Except.pure, Except.ok.injEq] at hdigest
  obtain ⟨text, -, rfl⟩ := hdigest
  exact hhex text

/-- No stored hash is the empty text that reads as none. -/
theorem Inv.hashes (hhex : ∀ text, isSha256 (R.sha256 text) = true) (h : Inv R labels db) :
    ∀ op ∈ db.operations, op.commandHash ≠ some "" := by
  intro op hop hempty
  have hsha := isSha256_of_fixedBy hhex (h.fixed op hop "" hempty)
  cases hsha

/-- One more commit keeps the invariant. -/
theorem Inv.step (hhex : ∀ text, isSha256 (R.sha256 text) = true) (h : Inv R labels db)
    (hstep : Step R lifetime clockSkew db l db') : Inv R (labels ++ [l]) db' := by
  have hkept := hstep.kept h.schema (h.hashes hhex)
  refine ⟨hkept.schema, ?_, ?_⟩
  · intro op' hop' digest hdigest
    rcases hkept.old op' hop' digest hdigest with ⟨op, hop, hsame⟩ | hfixed
    · rw [hsame.name]
      exact (h.fixed op hop digest (hsame.commandHash.symm.trans hdigest)).mono
        (List.subset_append_left _ _)
    · exact hfixed.mono (List.subset_append_right _ _)
  · intro env henv
    -- the operation a delivery is of, in the version before the step
    have hbefore : ∃ op ∈ db.operations, ∃ fields,
        persisted R op.commandJson op.commandHash = .ok fields ∧
        immutableCommand env = immutableCommand fields ∧
        Json.get env "operation_id" = .str op.operationId := by
      rcases List.mem_append.mp henv with henv | henv
      · exact h.delivered env henv
      · have hl := List.mem_singleton.mp henv
        cases hstep with
        | lease agentId now allowedOperationTypes commandFilter locked =>
          cases hrun : leaseCommand R lifetime clockSkew agentId now allowedOperationTypes
            commandFilter locked db with
          | error e s =>
            rw [Transaction.outcome, hrun] at hl
            cases hl
          | ok result db' =>
            rw [Transaction.outcome, hrun] at hl
            cases hl
            exact leaseCommand_delivers h.schema.names hrun
        | _ => cases hl
    obtain ⟨op, hop, fields, hpersisted, hcommand, hid⟩ := hbefore
    obtain ⟨digest, hdigest, -⟩ := digest_of_persisted hpersisted
    obtain ⟨op', hop', hsame⟩ := hkept.fixed op hop (by rw [hdigest]; exact Option.some_ne_none _)
    refine ⟨op', hop', fields, ?_, hcommand, ?_⟩
    · rw [hsame.commandJson, hsame.commandHash]
      exact hpersisted
    · rw [hsame.operationId]
      exact hid

/-- The invariant holds after every run. -/
theorem inv_of_run (hhex : ∀ text, isSha256 (R.sha256 text) = true) {start : Database}
    (hstart : Start R start) (hrun : Run (Step R lifetime clockSkew) start labels db) :
    Inv R labels db := by
  induction hrun with
  | nil =>
    refine ⟨hstart.schema, ?_, ?_⟩
    · intro op hop digest hdigest
      rw [hstart.undispatched op hop] at hdigest
      cases hdigest
    · intro env henv
      cases henv
  | snoc _ hlast ih => exact ih.step hhex hlast

/-! ## The stored command after its dispatch -/

/-- A payload that was accepted. -/
theorem payload_eq_ok {fields : List (String × Json)} {hash : String}
    (h : payload R op = .ok (fields, hash)) :
    R.loads op.payloadJson = some (.obj fields) ∧ hash = op.payloadHash := by
  unfold payload at h
  rw [bind_eq_ok] at h
  obtain ⟨read, hread, h⟩ := h
  split at h
  · simp only [bind_eq_ok, ensure_eq_ok, exists_const, beq_iff_eq, pure, Except.pure,
      Except.ok.injEq, Prod.mk.injEq] at h
    obtain ⟨-, text, -, hhash, rfl, rfl⟩ := h
    exact ⟨decoded_eq_ok_inl.mp hread, hhash⟩
  · rw [bind_eq_ok] at h
    obtain ⟨_, -, h⟩ := h
    cases h
  · cases h

/-- The comparison of an operation with its target at a lease. -/
def boundTo (op : ControllerOperation) (t : OperationTarget) : Bool :=
  t.serverAgent == op.serverAgent && t.bench == op.bench
    && orNone t.managedSite == orNone op.managedSite
    && t.operationTypeSnapshot == op.operationType
    && t.payloadHashSnapshot == op.payloadHash

/-- The operation's own part of a command that was built. -/
theorem checked_identity {name operationId payloadHash : String} {row : OperationRow}
    {fields : List (String × Json)} {t : OperationTarget}
    (h : checked R db name = .ok (row, operationId, fields, payloadHash, t)) :
    row.op.protocolVersion = "1.0" ∧ R.uuid row.op.operationId = some operationId ∧
      R.loads row.op.payloadJson = some (.obj fields) ∧ payloadHash = row.op.payloadHash ∧
      boundTo row.op t = true ∧
      ((orNone t.inventoryRevisionSnapshot).map isSha256).getD true = true := by
  unfold checked at h
  split at h
  · cases h
  · rename_i found hfound
    simp only [bind_eq_ok, ensure_eq_ok, exists_const, Bool.and_eq_true, beq_iff_eq] at h
    obtain ⟨-, -, ⟨hprotocol, -⟩, h⟩ := h
    split at h
    · cases h
    · rename_i uuid huuid
      simp only [bind_eq_ok, ensure_eq_ok, exists_const, Bool.and_eq_true, beq_iff_eq] at h
      obtain ⟨-, -, ⟨decoded, hash⟩, hdecoded, t', -, hsame, h⟩ := h
      obtain ⟨hloads, hhash⟩ := payload_eq_ok hdecoded
      obtain ⟨⟨⟨⟨⟨hagent, hbench⟩, hsite⟩, -⟩, htype⟩, hpayloadHash⟩ := hsame
      have hbound : boundTo found.op t' = true := by
        unfold boundTo
        rw [hagent, hbench, hsite, htype, hpayloadHash]
        simp
      split at h
      · rename_i hnone
        cases h
        exact ⟨hprotocol, huuid, hloads, hhash, hbound, by rw [hnone]; rfl⟩
      · rename_i revision hsome
        simp only [bind_eq_ok, ensure_eq_ok, exists_const, Bool.and_eq_true, beq_iff_eq] at h
        obtain ⟨⟨hsha, -⟩, h⟩ := h
        cases h
        exact ⟨hprotocol, huuid, hloads, hhash, hbound, by rw [hsome]; exact hsha⟩

/-! ### The rows after the dispatch -/

section Queue

variable {name digest : String} {text : Text}

/-- The column `dispatch` writes on the target. -/
def queueTarget (t : OperationTarget) : OperationTarget := { t with state := .queued }

/-- The version a dispatch leaves behind. -/
def queued (name : String) (text : Text) (digest : String) (db : Database) : Database :=
  db.advance name none (queue text digest) queueTarget id

/-- The row of an operation after its dispatch, with the command and its hash. -/
theorem operationRow?_queued {row : OperationRow} (h : operationRow? db name = some row) :
    operationRow? (queued name text digest db) name =
      some { row with op := queue text digest row.op } := by
  obtain ⟨op, agent, bench, hop, hagent, hbench, rfl⟩ := operationRow?_eq.mp h
  refine operationRow?_eq.mpr ⟨queue text digest op, agent, bench, ?_, hagent, hbench, rfl⟩
  show Table.get? (Table.setValue name (queue text digest) db.operations) name = _
  rw [Table.get?_setValue_self (f := queue text digest) (fun _ => rfl)]
  exact congrArg (Option.map (queue text digest)) hop

/-- The target of an operation after its dispatch. -/
theorem target_queued {t : OperationTarget} (h : target db name = .ok t) :
    target (queued name text digest db) name = .ok (queueTarget t) := by
  unfold target at h
  split at h
  · rename_i found hfilter
    cases h
    have hmem : t ∈ db.operationTargets.filter fun t => t.operation == name := by
      rw [hfilter]
      exact List.mem_singleton.mpr rfl
    have hname : t.operation = name := beq_iff_eq.mp (List.mem_filter.mp hmem).2
    have hqueued : (queued name text digest db).operationTargets.filter
        (fun t => t.operation == name) = [queueTarget t] := by
      show (Table.update (fun t : OperationTarget => t.operation = name) queueTarget
        db.operationTargets).filter _ = _
      rw [Table.filter_update _ queueTarget (fun _ => rfl), hfilter, Table.update_cons,
        if_pos hname]
      rfl
    unfold target
    rw [hqueued]
  · cases h

/-- A dispatch does not change what was approved. -/
theorem approvalClaims_queued (op : ControllerOperation) (t : OperationTarget) :
    approvalClaims (queued name text digest db) (queue text digest op)
      (queueTarget t) = approvalClaims db op t :=
  rfl

end Queue

/-- The fields of a stored command are those of the envelope it was encoded from, up to the order
of the keys in their values. -/
theorem pyEq_get_sorted {env : List (String × Json)} (hdistinct : (Json.obj env).Distinct)
    (hvalid : validateJson R false false (.obj env) = .ok ()) (key : String) :
    Json.pyEq (Json.get (sortByKey (Json.sortedFields env)) key) (Json.get env key) = true := by
  rw [Json.Distinct] at hdistinct
  obtain ⟨hkeys, hfields⟩ := hdistinct
  rw [Json.getField_sorted hkeys]
  cases hlookup : env.lookup key with
  | none =>
    unfold Json.get
    rw [hlookup]
    rfl
  | some value =>
    have hmem : (key, value) ∈ env := (lookup_eq_some_iff hkeys).mp hlookup
    have hget : Json.get env key = value := by
      unfold Json.get
      rw [hlookup]
      rfl
    rw [hget]
    refine Json.pyEq_sorted R value (Json.distinctFields_iff.mp hfields _ hmem) ?_
    have heach := validateFields_eq_ok.mp hvalid _ hmem
    rw [heach]
    rfl

/-- The hash of a stored command is that of the envelope it was encoded from. -/
theorem immutableCommandHash_sorted {env : List (String × Json)}
    (hdistinct : (Json.obj env).Distinct) {digest : String}
    (h : immutableCommandHash R env = .ok digest) :
    immutableCommandHash R (sortByKey (Json.sortedFields env)) = .ok digest := by
  rw [Json.Distinct] at hdistinct
  obtain ⟨hkeys, hfields⟩ := hdistinct
  have hsortedKeys : ((Json.sortedFields env).map Prod.fst).Nodup := by
    rw [Json.keys_sortedFields]
    exact hkeys
  have hcommand : Json.obj (immutableCommand (sortByKey (Json.sortedFields env))) =
      (Json.obj (immutableCommand env)).sorted := by
    rw [immutableCommand, Json.without, filter_sortByKey hsortedKeys, Json.sorted, immutableCommand,
      Json.without, Json.sortedFields_eq_map, Json.sortedFields_eq_map, List.filter_map]
    rfl
  have hpart : (Json.obj (immutableCommand env)).Distinct := by
    rw [Json.Distinct]
    refine ⟨hkeys.sublist (List.filter_sublist.map Prod.fst), Json.distinctFields_iff.mpr ?_⟩
    exact fun f hf => Json.distinctFields_iff.mp hfields f (List.mem_of_mem_filter hf)
  simp only [immutableCommandHash, bind_eq_ok, canonicalJson_eq_ok] at h ⊢
  obtain ⟨text, ⟨hvalid, htext⟩, hdigest⟩ := h
  refine ⟨text, ⟨?_, ?_⟩, hdigest⟩
  · have hok := validateJson_sorted R false false (Json.obj (immutableCommand env))
    rw [← hcommand, hvalid] at hok
    obtain ⟨u, hu⟩ := Transaction.exists_eq_ok_of_isOk hok
    exact hu
  · rw [hcommand, R.dumps_sorted _ hpart]
    exact htext

variable (lifetime) in
/-- Every compared field has the live value in the command. -/
theorem get_command (now : DateTime) (claims : List Json) {row : OperationRow}
    {operationId payloadHash : String} {fields : List (String × Json)} (hprotocol : row.op.protocolVersion = "1.0")
    (hid : operationId = row.op.operationId) (hhash : payloadHash = row.op.payloadHash) :
    ∀ f ∈ expected row (.obj fields),
      Json.get (command lifetime now row operationId fields payloadHash claims) f.1 = f.2 := by
  subst hid hhash
  intro f hf
  simp only [expected, List.mem_cons, List.not_mem_nil, or_false, hprotocol] at hf
  rcases hf with rfl | rfl | rfl | rfl | rfl | rfl | rfl | rfl | rfl | rfl | rfl <;> rfl

/-- The text a dispatch stores agrees with the rows it leaves behind. -/
theorem validateSnapshot_queued {name digest : String} {now : DateTime}
    {env : List (String × Json)} {text : Text} (hauthored : ∀ op ∈ db.operations, Authored R db op)
    (h : envelope R lifetime db name now = .ok env)
    (hvalid : validateJson R false false (.obj env) = .ok ()) (hreads : ReadsBack R env) :
    validateSnapshot R (queued name text digest db) name (sortByKey (Json.sortedFields env)) =
      .ok () := by
  simp only [envelope, bind_eq_ok, Prod.exists, pure, Except.pure, Except.ok.injEq] at h
  obtain ⟨row, operationId, fields, payloadHash, t, hchecked, claims, hclaims, rfl⟩ := h
  obtain ⟨hrow, ht⟩ := checked_eq_ok hchecked
  obtain ⟨hprotocol, huuid, hloads, hhash, hbound, hrevision⟩ := checked_identity hchecked
  obtain ⟨hmem, hname⟩ := operationRow?_eq_some hrow
  have hid : operationId = row.op.operationId :=
    Option.some.inj (huuid.symm.trans (hauthored row.op hmem).canonical)
  have hstored := pyEq_get_sorted hreads.distinct hvalid
  have hclaimed := hstored "approval_claims"
  rw [command_approval_claims, Json.getField_sorted (by
    have hdistinct := hreads.distinct
    rw [Json.Distinct] at hdistinct
    exact hdistinct.1), command_approval_claims, Json.sorted] at hclaimed
  refine validateSnapshot_eq_ok.mpr ⟨_, .obj fields, Json.sortedItems claims, queueTarget t, claims,
    operationRow?_queued hrow, hloads, ?_, ?_, target_queued (hname ▸ ht), hbound, hrevision,
    (approvalClaims_queued row.op t).trans hclaims, hclaimed⟩
  · intro f hf
    have hlive := get_command lifetime now claims hprotocol hid hhash f hf
    rw [← hlive]
    exact hstored f.1
  · rw [Json.getField_sorted (by
      have hdistinct := hreads.distinct
      rw [Json.Distinct] at hdistinct
      exact hdistinct.1), command_approval_claims, Json.sorted]

/-- What the bookkeeping after a dispatch keeps. -/
structure Queued (R : Runtime) (name : String) (fields : List (String × Json)) (db : Database) :
    Prop where
  schema : Schema R db
  stored : ∃ op, db.operation? name = some op ∧
    persisted R op.commandJson op.commandHash = .ok fields
  agrees : validateSnapshot R db name fields = .ok ()

/-- A dispatch whose text reads back leaves a deliverable command behind. -/
theorem queued_of_dispatch (hhex : ∀ text, isSha256 (R.sha256 text) = true) (hschema : Schema R db)
    (hhashes : ∀ op ∈ db.operations, op.commandHash ≠ some "") {name : String} {now : DateTime}
    {env : List (String × Json)} (h : Queues R lifetime db name now env db')
    (hreads : ReadsBack R env) : Queued R name (sortByKey (Json.sortedFields env)) db' := by
  obtain ⟨waiting, hwaiting, hstate⟩ := h.waiting
  obtain ⟨henv, ⟨-, op, hop, hqueued⟩ | ⟨op, digest, text, hop, -, hnone, hdigest, htext, rfl⟩⟩ :=
    Lifecycle.dispatch_eq_ok h.returned
  · -- the operation was not queued already
    rw [hwaiting] at hop
    cases hop
    rw [hstate] at hqueued
    cases hqueued
  · obtain ⟨hvalid, rfl⟩ := (canonicalJson_eq_ok R).mp htext
    have hfixed : FixedBy R [.dispatch name (some env)] name digest :=
      ⟨env, List.mem_singleton.mpr rfl, hdigest⟩
    refine ⟨(Kept.of_queue hschema hhashes hop hnone hfixed).schema,
      ⟨queue (R.dumps (.obj env)) digest op, ?_, ?_⟩,
      validateSnapshot_queued hschema.authored henv hvalid hreads⟩
    · show Table.get? (Table.setValue name (queue _ digest) db.operations) name = _
      rw [Table.get?_setValue_self (f := queue (R.dumps (.obj env)) digest) (fun _ => rfl)]
      exact congrArg (Option.map _) hop
    · exact persisted_of_loads hreads.loads (isSha256_of_fixedBy hhex hfixed)
        (immutableCommandHash_sorted hreads.distinct hdigest)

/-- A step that changes no command keeps it deliverable. -/
theorem Queued.of_commandsOf {name : String} {fields : List (String × Json)}
    (h : Queued R name fields db) (hsame : commandsOf db' = commandsOf db) :
    Queued R name fields db' := by
  refine ⟨(Kept.of_commandsOf (l := .other) h.schema hsame).schema, ?_, ?_⟩
  · obtain ⟨op, hop, hpersisted⟩ := h.stored
    have hlookup : (db'.operation? name).map withoutProgress =
        (db.operation? name).map withoutProgress := by
      have hoperations : db'.operations.map withoutProgress = db.operations.map withoutProgress :=
        congrArg Database.operations hsame
      rw [Database.operation?, Database.operation?, ← Table.get?_map (f := withoutProgress)
        (fun _ => rfl), hoperations, Table.get?_map (f := withoutProgress) (fun _ => rfl)]
    rw [hop, Option.map_some, Option.map_eq_some_iff] at hlookup
    obtain ⟨op', hop', hprogress⟩ := hlookup
    obtain ⟨hcommand, -⟩ := sameCommand_of_withoutProgress hprogress
    refine ⟨op', hop', ?_⟩
    rw [hcommand.commandJson, hcommand.commandHash]
    exact hpersisted
  · rw [← validateSnapshot_commandsOf, hsame, validateSnapshot_commandsOf]
    exact h.agrees

/-- A step that changes inventories only keeps a command deliverable. -/
theorem Queued.of_sameFleet {name : String} {fields : List (String × Json)}
    (h : Queued R name fields db) (hfleet : SameFleet db db') : Queued R name fields db' := by
  refine ⟨(Kept.of_sameFleet (l := .other) h.schema hfleet).schema, ?_,
    validateSnapshot_sameFleet hfleet h.schema.authored h.agrees⟩
  obtain ⟨op, hop, hpersisted⟩ := h.stored
  refine ⟨op, ?_, hpersisted⟩
  rw [hfleet.rest]
  exact hop

/-- Heartbeats and leases keep a queued command deliverable. -/
theorem Queued.step {name : String} {fields : List (String × Json)} (h : Queued R name fields db)
    (hstep : Step R lifetime clockSkew db l db') (hl : l.bookkeeping = true) :
    Queued R name fields db' := by
  cases hstep with
  | lease agentId now allowedOperationTypes commandFilter locked =>
    exact h.of_commandsOf (commandsOf_leaseCommand ..)
  | heartbeat agentId state observedAt view =>
    exact h.of_sameFleet (sameFleet_serve agentId state observedAt view db)
  | _ => cases hl

/-- A run of heartbeats and leases keeps a command deliverable. -/
theorem Queued.run {name : String} {fields : List (String × Json)} (h : Queued R name fields db)
    (hrun : Run (Step R lifetime clockSkew) db labels db')
    (hlabels : ∀ l ∈ labels, l.bookkeeping = true) : Queued R name fields db' :=
  Run.invariant (I := Queued R name fields) (fun _ _ _ h hstep => h.step hstep.1 hstep.2)
    (hrun.restrict hlabels) h

/-- All deliveries of an operation are one command, whose hash its dispatch fixed; and after its
dispatch, heartbeats and leases never make the stored command fail its validation. -/
theorem command_immutable {start : Database} (hhex : ∀ text, isSha256 (R.sha256 text) = true)
    (hstart : Start R start) (hrun : Run (Step R lifetime clockSkew) start labels db) :
    (∀ env env', .lease (some env) ∈ labels → .lease (some env') ∈ labels →
      Json.get env "operation_id" = Json.get env' "operation_id" →
      immutableCommand env = immutableCommand env') ∧
    (∀ env, .lease (some env) ∈ labels → ∃ op ∈ db.operations, ∃ digest,
      Json.get env "operation_id" = .str op.operationId ∧ op.commandHash = some digest ∧
      immutableCommandHash R env = .ok digest ∧ FixedBy R labels op.name digest) ∧
    ∀ name now env db₁ labels₁ db₂, Queues R lifetime db name now env db₁ → ReadsBack R env →
      Run (Step R lifetime clockSkew) db₁ labels₁ db₂ → (∀ l ∈ labels₁, l.bookkeeping = true) →
      ∀ now', ∃ op env', db₂.operation? name = some op ∧
        validatePersisted R lifetime db₂ name op.commandJson op.commandHash now' = .ok env' := by
  have hinv := inv_of_run hhex hstart hrun
  refine ⟨?_, ?_, ?_⟩
  · intro env env' henv henv' hid
    obtain ⟨op, hop, fields, hpersisted, hcommand, hopId⟩ := hinv.delivered env henv
    obtain ⟨op', hop', fields', hpersisted', hcommand', hopId'⟩ := hinv.delivered env' henv'
    rw [hopId, hopId'] at hid
    -- operation ids are unique, so both are the stored command of one row
    have hsame : op = op' := List.inj_on_of_nodup_map hinv.schema.ids hop hop' (Json.str.inj hid)
    subst hsame
    rw [hpersisted] at hpersisted'
    cases hpersisted'
    rw [hcommand, hcommand']
  · intro env henv
    obtain ⟨op, hop, fields, hpersisted, hcommand, hid⟩ := hinv.delivered env henv
    obtain ⟨digest, hdigest, -, hhash⟩ := digest_of_persisted hpersisted
    refine ⟨op, hop, digest, hid, hdigest, ?_, hinv.fixed op hop digest hdigest⟩
    unfold immutableCommandHash at hhash ⊢
    rw [hcommand]
    exact hhash
  · intro name now env db₁ labels₁ db₂ hqueues hreads hrun₁ hlabels now'
    have hqueued := (queued_of_dispatch hhex hinv.schema (hinv.hashes hhex) hqueues hreads).run
      hrun₁ hlabels
    obtain ⟨op, hop, hpersisted⟩ := hqueued.stored
    refine ⟨op, stamp lifetime now' (sortByKey (Json.sortedFields env)), hop, ?_⟩
    simp only [validatePersisted, bind_eq_ok, pure, Except.pure]
    exact ⟨_, hpersisted, (), hqueued.agrees, rfl⟩

/-! ## The sample operation, delivered twice -/

namespace Sample

open Dispatcher.Sample hiding operation

def commandDigest : String := "5cbbb694e06a176ffd7aad1ad0d444f7d1c982719c9ba4d616123115c684e802"

/-- The digest of an inventory without benches. -/
def inventoryDigest : String := "cfdb2420812b3c4311ec9f8d471e11bd946f13a75ec0e9f9dd7a53c7a06f4db9"

/-- The envelope of the operation. -/
def command : List (String × Json) :=
  [("protocol_version", .str "1.0"), ("operation_id", .str operationId),
    ("idempotency_key", .str ("site.migrate:" ++ operationId)), ("agent_id", .str "agent-1"),
    ("audience", .str "frappe-controller"), ("bench_id", .str "bench-1"),
    ("site_id", .str "site-1"), ("operation", .str "site.migrate"), ("payload", .obj []),
    ("requested_by", .str "operator@example.com"),
    ("approval_claims", .arr []),
    ("issued_at", .str (timestamp now)), ("expires_at", .str (timestamp (now.addSeconds 300))),
    ("payload_hash", .str emptyDigest)]

/-- A runtime that knows the digests and documents of the texts that occur. -/
def runtime : Runtime :=
  { Dispatcher.Sample.runtime [] [] with
    sha256 := fun text =>
      if text = ['{', '}'] then emptyDigest
      else if text = Inventory.canonicalJson (Dispatcher.Sample.runtime [] [])
        AgentRuns.Sample.inventory then inventoryDigest
      else commandDigest
    loads := fun text =>
      if text = ['{', '}'] then some (.obj []) else some (Json.obj command).sorted }

/-- The operation, without the need of an approval. -/
def operation : ControllerOperation :=
  { Dispatcher.Sample.operation with
    approvalPolicy := none, approvalStatus := .notRequired, requiredApprovals := 0
    approvalCount := 0 }

/-- The agent has not reported its inventory yet. -/
def start : Database :=
  { database with
    agents := [{ agent with inventoryDigest := none }]
    operations := [operation]
    operationApprovals := []
    operationTargets := [{ operationTarget with inventoryRevisionSnapshot := none }] }

def later (seconds : ℕ) : DateTime := now.addSeconds seconds

def dispatched : Database := Transaction.committed (dispatch runtime 300 operationId now) start

/-- Its first inventory is without benches. -/
def state : Json :=
  .obj [("status", .str "ready"), ("version", .str "1.0.0"), ("inventory_digest", .str inventoryDigest),
    ("inventory", Inventory.snapshotJson AgentRuns.Sample.inventory)]

def reported : Database :=
  (FrappeInventory.serve runtime "agent-1" state (later 1) dispatched dispatched).2

def poll (seconds : ℕ) : DbM (Option (List (String × Json))) :=
  leaseCommand runtime 300 5 "agent-1" (later seconds) none (fun _ => true) []

/-- The first lease, and the one after it expired. -/
def leased : Database := Transaction.committed (poll 2) reported

@[inherit_doc leased]
def leasedAgain : Database := Transaction.committed (poll 400) leased

/-- Every digest of the sample runtime is in hexadecimal. -/
theorem hex (text : Text) : isSha256 (runtime.sha256 text) = true := by
  have hdigests : ∀ digest ∈ [emptyDigest, inventoryDigest, commandDigest],
      isSha256 digest = true := by decide +kernel
  refine hdigests _ ?_
  simp only [runtime]
  split
  · simp
  · split <;> simp

/-- The sample starts with an operation that waits for its dispatch. -/
theorem start_start : Start runtime start where
  schema := {
    names := by decide
    ids := by decide
    authored := by
      intro op hop
      rw [List.mem_singleton.mp hop]
      refine ⟨by decide +kernel, ?_⟩
      rintro _ ⟨⟩
      decide }
  undispatched := by
    intro op hop
    rw [List.mem_singleton.mp hop]
    rfl

/-- The envelope of the sample operation. -/
theorem envelope_start : envelope runtime 300 start operationId now = .ok command := by
  with_unfolding_all rfl

/-- The keys of the sample envelope differ. -/
theorem distinct_command : (Json.obj command).Distinct := by
  simp [Json.Distinct, Json.DistinctFields, Json.DistinctItems, command, Json.keys]

/-- The sample runtime reads its envelope back. -/
theorem loads_command :
    runtime.loads (runtime.dumps (.obj command)) = some (Json.obj command).sorted := by
  have hne : runtime.dumps (.obj command) ≠ ['{', '}'] := by decide +kernel
  have hloads : runtime.loads = fun text =>
      if text = ['{', '}'] then some (.obj []) else some (Json.obj command).sorted := rfl
  rw [hloads]
  exact if_neg hne

/-- The dispatch of the sample operation. -/
theorem queues : Queues runtime 300 start operationId now command dispatched := by
  have hok : (Transaction.outcome (dispatch runtime 300 operationId now) start).isOk = true := by
    decide +kernel
  cases hrun : dispatch runtime 300 operationId now start with
  | error e s =>
    rw [Transaction.outcome, hrun] at hok
    cases hok
  | ok env db =>
    have henv := (Lifecycle.dispatch_eq_ok hrun).1
    rw [envelope_start] at henv
    cases henv
    refine ⟨⟨operation, by with_unfolding_all rfl, rfl⟩, ?_⟩
    rw [dispatched, Transaction.committed_of_ok hrun]
    exact hrun

/-- The envelope a poll delivers, if any. -/
def delivery (m : DbM (Option (List (String × Json)))) (db : Database) :
    Option (List (String × Json)) :=
  (Transaction.outcome m db).toOption.join

/-- Both polls of the sample deliver the operation. -/
theorem delivered : ∃ env env', delivery (poll 2) reported = some env ∧
    delivery (poll 400) leased = some env' ∧
    Json.get env "operation_id" = .str operationId ∧
    Json.get env' "operation_id" = .str operationId := by
  have hstr : ∀ x : Json, x.str? = some operationId → x = .str operationId := by
    intro x hx
    cases x <;> cases hx
    rfl
  have hids : (delivery (poll 2) reported).bind (fun env => (Json.get env "operation_id").str?) =
        some operationId ∧
      (delivery (poll 400) leased).bind (fun env => (Json.get env "operation_id").str?) =
        some operationId := by
    decide +kernel
  obtain ⟨env, henv, hid⟩ := Option.bind_eq_some_iff.mp hids.1
  obtain ⟨env', henv', hid'⟩ := Option.bind_eq_some_iff.mp hids.2
  exact ⟨env, env', henv, henv', hstr _ hid, hstr _ hid'⟩

/-- A heartbeat and two leases. -/
theorem run_leases (db : Database) (hdb : db = dispatched) : Run (Step runtime 300 5) db
    [.heartbeat, .lease (delivery (poll 2) reported), .lease (delivery (poll 400) leased)]
    leasedAgain := by
  subst hdb
  exact ((Run.nil dispatched).snoc (.heartbeat "agent-1" state (later 1) dispatched)).snoc
    (.lease "agent-1" (later 2) none (fun _ => true) []) |>.snoc
    (.lease "agent-1" (later 400) none (fun _ => true) [])

end Sample

/-- Two deliveries of the sample operation, after its agent reported another inventory: they are
one command, and it still validates. -/
theorem command_immutable_sample :
    (∃ env env' labels, Run (Step Sample.runtime 300 5) Sample.start labels Sample.leasedAgain ∧
      .lease (some env) ∈ labels ∧ .lease (some env') ∈ labels ∧
      immutableCommand env = immutableCommand env') ∧
    ∃ op env', Sample.leasedAgain.operation? Dispatcher.Sample.operationId = some op ∧
      validatePersisted Sample.runtime 300 Sample.leasedAgain Dispatcher.Sample.operationId
        op.commandJson op.commandHash (Sample.later 500) = .ok env' := by
  constructor
  · obtain ⟨env, env', henv, henv', hid, hid'⟩ := Sample.delivered
    have hrun := (Run.single (Step.dispatch (R := Sample.runtime) Dispatcher.Sample.operationId
      Dispatcher.Sample.now)).append (Sample.run_leases _ rfl)
    rw [henv, henv'] at hrun
    exact ⟨env, env', _, hrun, by simp, by simp,
      (command_immutable Sample.hex Sample.start_start hrun).1 env env' (by simp) (by simp)
        (hid.trans hid'.symm)⟩
  · have hnil : Run (Step Sample.runtime 300 5) Sample.start [] Sample.start := .nil _
    refine (command_immutable Sample.hex Sample.start_start hnil).2.2 _ _ _ _ _ _ Sample.queues
      ⟨Sample.distinct_command, Sample.loads_command⟩ (Sample.run_leases _ rfl) ?_ _
    intro l hl
    simp only [List.mem_cons, List.not_mem_nil, or_false] at hl
    rcases hl with rfl | rfl | rfl <;> rfl

end CommandSnapshot

end FrappeController
