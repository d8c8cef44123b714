import FrappeController.FrappeInventoryTheorems
import FrappeController.Library.Run

/-!
# Benches and sites follow the heartbeats of their agents

Heartbeats of any agents interleave with transactions that leave benches, sites and the stored
inventories alone. The state is the history of committed versions, newest first, so that the
plain reads of a heartbeat may see any of them.

The invariant (`Inv`) relates every two versions (`Later`: owners stay, revisions grow, and an
equal revision means the same stored inventory) and, in the newest one, the rows of each agent
to the inventory it stores (`Covered`). A heartbeat diffs against the inventory it read in its
view; the compare-and-set makes that the stored one (`stored_eq`), so that its writes are a
`Projection.Pass` on each table.
-/

namespace FrappeController
namespace InventoryProjection

open FrappeInventory Inventory Projection

/-! ## The system -/

/-- The unique columns and the links of the tables. -/
structure Schema (db : Database) : Prop where
  agents : Table.Unique db.agents
  agentIds : (db.agents.map (·.agentId)).Nodup
  benches : Table.Unique db.benches
  sites : Table.Unique db.sites
  benchNamed : ∀ bench ∈ db.benches, benchNamed bench
  siteNamed : ∀ site ∈ db.sites, siteNamed site
  benchAgent : ∀ bench ∈ db.benches, ∃ agent ∈ db.agents, agent.name = bench.serverAgent
  siteBench : ∀ site ∈ db.sites, ∃ bench ∈ db.benches,
    bench.name = site.bench ∧ bench.serverAgent = site.serverAgent

variable (R : Runtime)

/-- The agent has not reported a bench yet. -/
def Unreported (agent : ServerAgent) : Prop :=
  ∀ stored, storedInventory R agent = .ok (some stored) → stored.benches = []

/-- No bench and no site yet. -/
structure Start (db : Database) : Prop where
  schema : Schema db
  benches : db.benches = []
  sites : db.sites = []
  unreported : ∀ agent ∈ db.agents, Unreported R agent

/-- The same agent, with the inventory it stored. -/
structure SameInventory (agent agent' : ServerAgent) : Prop where
  name : agent'.name = agent.name
  agentId : agent'.agentId = agent.agentId
  revision : agent'.inventoryRevision = agent.inventoryRevision
  digest : agent'.inventoryDigest = agent.inventoryDigest
  snapshot : agent'.inventorySnapshotJson = agent.inventorySnapshotJson

/-- Any transaction that leaves benches, sites and the stored inventories alone: enrollment,
signed requests, upgrades, the life of operations. It may add agents. -/
structure OtherStep (db db' : Database) : Prop where
  schema : Schema db'
  benches : db'.benches = db.benches
  sites : db'.sites = db.sites
  kept : ∀ agent ∈ db.agents, ∃ agent' ∈ db'.agents, SameInventory agent agent'
  old : ∀ agent' ∈ db'.agents, (∃ agent ∈ db.agents, SameInventory agent agent') ∨
    (Unreported R agent' ∧ ∀ agent ∈ db.agents, agent.name ≠ agent'.name)

inductive Label where
  | heartbeat (agentId : String) (state : Json) (observedAt : DateTime) (view : Database)
  | other

/-- One commit. -/
inductive Step : List Database → Label → List Database → Prop
  | heartbeat {db : Database} {older : List Database} {agentId : String} {state : Json}
      {observedAt : DateTime} {view : Database} (hview : view ∈ db :: older) :
      Step (db :: older) (.heartbeat agentId state observedAt view)
        ((serve R agentId state observedAt view db).2 :: db :: older)
  | other {db db' : Database} {older : List Database} (h : OtherStep R db db') :
      Step (db :: older) .other (db' :: db :: older)

/-- The document of the snapshot a heartbeat stores decodes to the snapshot's fields. -/
def ReadsBack (state : Json) : Prop :=
  ∀ heartbeat, parseHeartbeatState R state = .ok heartbeat →
    R.loads (Inventory.canonicalJson R heartbeat.inventory) =
      some (snapshotJson heartbeat.inventory).sorted

/-- The JSON library reads back what a label stores. -/
def Label.ReadsBack : Label → Prop
  | .heartbeat _ state _ _ => InventoryProjection.ReadsBack R state
  | .other => True

/-! ## Versions -/

/-- What holds between a version and any later one. -/
structure Later (old new : Database) : Prop where
  benches : Kept Bench.serverAgent old.benches new.benches
  sites : Kept siteOwnership old.sites new.sites
  agents : ∀ agent ∈ old.agents, ∃ agent' ∈ new.agents, agent'.name = agent.name ∧
    agent'.agentId = agent.agentId ∧ agent.inventoryRevision ≤ agent'.inventoryRevision ∧
    (agent'.inventoryRevision = agent.inventoryRevision → SameInventory agent agent')

/-- An agent stores its own inventory. -/
theorem SameInventory.refl (agent : ServerAgent) : SameInventory agent agent :=
  ⟨rfl, rfl, rfl, rfl, rfl⟩

/-- The stored inventory stays the same over two steps. -/
theorem SameInventory.trans {a b c : ServerAgent} (h : SameInventory a b)
    (h' : SameInventory b c) : SameInventory a c :=
  ⟨h'.name.trans h.name, h'.agentId.trans h.agentId, h'.revision.trans h.revision,
    h'.digest.trans h.digest, h'.snapshot.trans h.snapshot⟩

/-- A version is later than itself. -/
theorem Later.refl (db : Database) : Later db db :=
  ⟨Kept.refl _, Kept.refl _, fun agent hagent =>
    ⟨agent, hagent, rfl, rfl, Nat.le_refl _, fun _ => .refl agent⟩⟩

/-- Later versions of later ones are later. -/
theorem Later.trans {a b c : Database} (h : Later a b) (h' : Later b c) : Later a c where
  benches := h.benches.trans h'.benches
  sites := h.sites.trans h'.sites
  agents agent hagent := by
    obtain ⟨second, hsecond, hname, hid, hle, hsame⟩ := h.agents agent hagent
    obtain ⟨third, hthird, hname', hid', hle', hsame'⟩ := h'.agents second hsecond
    refine ⟨third, hthird, hname'.trans hname, hid'.trans hid, hle.trans hle', fun heq => ?_⟩
    -- equal ends pin the revision in the middle
    have hmiddle : second.inventoryRevision = agent.inventoryRevision := by omega
    exact (hsame hmiddle).trans (hsame' (heq.trans hmiddle.symm))

variable {R}

/-- What is decoded depends on the stored columns only. -/
theorem storedInventory_congr {agent agent' : ServerAgent} (h : SameInventory agent agent') :
    storedInventory R agent' = storedInventory R agent := by
  unfold storedInventory
  rw [h.digest, h.snapshot, h.revision]

/-- A decoded inventory has the revision of its agent. -/
theorem storedInventory_revision {agent : ServerAgent} {stored : StoredInventory}
    (h : storedInventory R agent = .ok (some stored)) :
    stored.revision = agent.inventoryRevision := by
  unfold storedInventory at h
  split at h
  · obtain ⟨loaded, -, hloaded⟩ := Transaction.bind_eq_ok.mp h
    cases hloaded
    rfl
  · cases h

/-- The benches an inventory lists, none if there is none. -/
def listed (stored : Option StoredInventory) : List BenchSnapshot :=
  (stored.map (·.benches)).getD []

/-- An agent's rows against a list of benches: what is active is listed, and what is listed has
a row. -/
structure Lists (db : Database) (agent : String) (benches : List BenchSnapshot) : Prop where
  benchWithin : Within Bench.serverAgent (· = agent) Bench.enabled (benches.map (·.benchId))
    db.benches
  benchHolds : Holds Bench.serverAgent (· = agent) (benches.map (·.benchId)) db.benches
  siteWithin : Within siteOwnership (·.1 = agent) isServing (domains benches) db.sites
  siteHolds : Holds siteOwnership (·.1 = agent) (domains benches) db.sites

/-- An agent without rows lists nothing. -/
theorem lists_nil {db : Database} {agent : String}
    (hbenches : ∀ bench ∈ db.benches, bench.serverAgent ≠ agent)
    (hsites : ∀ site ∈ db.sites, site.serverAgent ≠ agent) : Lists db agent [] where
  benchWithin r hr hmine := absurd hmine (hbenches r hr)
  benchHolds n hn := absurd hn (by simp)
  siteWithin r hr hmine := absurd hmine (hsites r hr)
  siteHolds n hn := absurd hn (by simp [domains])

variable (R) in
/-- Each agent's rows follow the inventory it stores. -/
def Covered (db : Database) : Prop :=
  ∀ agent ∈ db.agents, ∀ stored, storedInventory R agent = .ok stored →
    Lists db agent.name (listed stored)

variable (R) in
/-- The invariant of the histories. -/
structure Inv (history : List Database) : Prop where
  schema : ∀ db ∈ history, Schema db
  later : history.Pairwise fun newer older => Later older newer
  covered : ∀ db older, history = db :: older → Covered R db

/-- The head of a history is later than each of its versions. -/
theorem Inv.later_head {db view : Database} {older : List Database} (h : Inv R (db :: older))
    (hview : view ∈ db :: older) : Later view db := by
  rcases List.mem_cons.mp hview with rfl | hview
  · exact .refl _
  · exact (List.pairwise_cons.mp h.later).1 view hview

/-- One more version. -/
theorem Inv.cons {db db' : Database} {older : List Database} (h : Inv R (db :: older))
    (hschema : Schema db') (hlater : Later db db') (hcovered : Covered R db') :
    Inv R (db' :: db :: older) where
  schema := List.forall_mem_cons.mpr ⟨hschema, h.schema⟩
  later := by
    refine List.pairwise_cons.mpr ⟨fun view hview => ?_, h.later⟩
    exact (h.later_head hview).trans hlater
  covered := by
    rintro _ _ ⟨⟩
    exact hcovered

/-! ## What a heartbeat read -/

/-- An agent that is found has the id it was looked up by. -/
theorem agent?_eq_some {db : Database} {agentId : String} {agent : ServerAgent}
    (h : agent? db agentId = some agent) : agent ∈ db.agents ∧ agent.agentId = agentId :=
  ⟨List.mem_of_find?_eq_some h, by simpa using List.find?_some h⟩

/-- Agent ids identify agents. -/
theorem Schema.agent_eq {db : Database} (h : Schema db) {a b : ServerAgent} (ha : a ∈ db.agents)
    (hb : b ∈ db.agents) (hid : a.agentId = b.agentId) : a = b :=
  List.inj_on_of_nodup_map h.agentIds ha hb hid

section Accepted

variable {agentId : String} {state : Json} {observedAt : DateTime} {view db db' : Database}
  {agent : ServerAgent} {heartbeat : HeartbeatInventory} {old : Option StoredInventory}
  (h : Accepted R agentId state observedAt view db db' agent heartbeat old)
include h

/-- The inventory the heartbeat read in its view is the one its locked agent row stores. -/
theorem stored_eq (hdb : Schema db) (hlater : Later view db) :
    storedInventory R agent = .ok old := by
  obtain ⟨hmem, hid⟩ := agent?_eq_some h.locked
  have hnone : old = none → storedInventory R agent = .ok old := by
    rintro rfl
    unfold storedInventory
    rw [h.digest]
    rfl
  have hstored := h.stored
  unfold currentInventory at hstored
  cases hseen : agent? view agentId with
  | none =>
    rw [hseen] at hstored
    cases hstored
    exact hnone rfl
  | some seen =>
    rw [hseen] at hstored
    cases hold : old with
    | none => exact hold ▸ hnone hold
    | some inventory =>
      obtain ⟨hseen, hseenId⟩ := agent?_eq_some hseen
      obtain ⟨agent', hagent', -, hid', -, hsame⟩ := hlater.agents seen hseen
      have hself : agent' = agent :=
        hdb.agent_eq hagent' hmem (hid'.trans (hseenId.trans hid.symm))
      subst hself
      -- the compare-and-set compared revisions, too
      have hrevision : agent'.inventoryRevision = seen.inventoryRevision := by
        rw [h.revision, hold]
        exact storedInventory_revision (hstored.trans (congrArg Except.ok hold))
      rw [storedInventory_congr (hsame hrevision)]
      exact hstored.trans (congrArg Except.ok hold)

/-- An agent of the view that goes by the same agent id is the locked one. -/
theorem name_of_view (hdb : Schema db) (hlater : Later view db) {seen : ServerAgent}
    (hseen : seen ∈ view.agents) (hseenId : seen.agentId = agentId) : seen.name = agent.name := by
  obtain ⟨hmem, hid⟩ := agent?_eq_some h.locked
  obtain ⟨agent', hagent', hname, hid', -⟩ := hlater.agents seen hseen
  have hself : agent' = agent := hdb.agent_eq hagent' hmem (hid'.trans (hseenId.trans hid.symm))
  rw [← hname, hself]

/-- The benches it reports are free in its view. -/
theorem free_benches (hdb : Schema db) (hview : Schema view) (hlater : Later view db) :
    Free Bench.serverAgent (heartbeat.inventory.benches.map (benchClaim agent)) view.benches := by
  intro claim hclaim row hrow hn
  obtain ⟨bench, hbench, rfl⟩ := List.mem_map.mp hclaim
  obtain ⟨seen, hseen, hname⟩ := hview.benchAgent row hrow
  have hrowId : row.benchId = bench.benchId := (hview.benchNamed row hrow).trans hn
  have howner : benchOwner view bench.benchId = some seen.agentId := by
    unfold benchOwner
    cases hfind : view.benches.find? fun b => b.benchId == bench.benchId with
    | none =>
      exact absurd (by simpa using hrowId) (List.find?_eq_none.mp hfind row hrow)
    | some found =>
      have hfound := List.mem_of_find?_eq_some hfind
      have hfoundId : found.benchId = bench.benchId := by simpa using List.find?_some hfind
      have hsame : found = row := Table.eq_of_mem hview.benches hfound hrow
        ((hview.benchNamed found hfound).symm.trans (hfoundId.trans hn.symm))
      have hget : Table.get? view.agents found.serverAgent = some seen := by
        rw [hsame, ← hname]
        exact Table.get?_of_mem hview.agents hseen
      simp [hget]
  have hid := h.benchOwner bench hbench _ howner
  show row.serverAgent = agent.name
  rw [← hname]
  exact name_of_view h hdb hlater hseen hid

/-- The sites it reports are free in its view. -/
theorem free_sites (hdb : Schema db) (hview : Schema view) (hlater : Later view db) :
    Free siteOwnership (heartbeat.inventory.benches.flatMap (siteClaims agent)) view.sites := by
  intro claim hclaim row hrow hn
  obtain ⟨bench, hbench, hclaim⟩ := List.mem_flatMap.mp hclaim
  obtain ⟨site, hsite, rfl⟩ := List.mem_map.mp hclaim
  obtain ⟨rowBench, hrowBench, hbenchName, hbenchAgent⟩ := hview.siteBench row hrow
  obtain ⟨seen, hseen, hname⟩ := hview.benchAgent rowBench hrowBench
  have hrowDomain : row.domain = site.domain := (hview.siteNamed row hrow).trans hn
  have howner : siteOwner view site.domain = some (seen.agentId, row.bench) := by
    unfold siteOwner
    cases hfind : view.sites.find? fun s => s.domain == site.domain with
    | none =>
      exact absurd (by simpa using hrowDomain) (List.find?_eq_none.mp hfind row hrow)
    | some found =>
      have hfound := List.mem_of_find?_eq_some hfind
      have hfoundDomain : found.domain = site.domain := by simpa using List.find?_some hfind
      have hsame : found = row := Table.eq_of_mem hview.sites hfound hrow
        ((hview.siteNamed found hfound).symm.trans (hfoundDomain.trans hn.symm))
      have hagent : Table.get? view.agents found.serverAgent = some seen := by
        rw [hsame, ← hbenchAgent, ← hname]
        exact Table.get?_of_mem hview.agents hseen
      have hget : Table.get? view.benches found.bench = some rowBench := by
        rw [hsame, ← hbenchName]
        exact Table.get?_of_mem hview.benches hrowBench
      have hid : rowBench.benchId = row.bench :=
        (hview.benchNamed rowBench hrowBench).trans hbenchName
      simp [hagent, hget, hid]
  have hid := h.siteOwner bench hbench site hsite _ howner
  show (row.serverAgent, row.bench) = (agent.name, bench.benchId)
  obtain ⟨hagentId, hbenchId⟩ := Prod.mk.inj hid
  have hagentName := name_of_view h hdb hlater hseen hagentId
  rw [hbenchId, ← hbenchAgent, ← hname, hagentName]

/-! ## What a heartbeat writes -/

omit h in
/-- A snapshot is not encoded as an empty text. -/
theorem canonicalJson_ne_nil (snapshot : InventorySnapshot) :
    Inventory.canonicalJson R snapshot ≠ [] := by
  have hbrace : asciiEscape '{' ≠ [] := by decide
  rw [Inventory.canonicalJson, dumpsAscii, snapshotJson, Runtime.dumps_obj, List.flatMap_cons]
  exact List.append_ne_nil_of_left_ne_nil hbrace _

/-- The reported inventory was parsed, so it is valid. -/
theorem valid_inventory : ValidSnapshot R heartbeat.inventory :=
  parseHeartbeatState_valid h.parsed

omit h in
/-- The claims on benches are by bench id. -/
theorem keys_benchClaims :
    (heartbeat.inventory.benches.map (benchClaim agent)).map Prod.fst =
      heartbeat.inventory.benches.map (·.benchId) := by
  rw [List.map_map]
  rfl

omit h in
/-- The claims on sites are by domain. -/
theorem keys_siteClaims :
    (heartbeat.inventory.benches.flatMap (siteClaims agent)).map Prod.fst =
      domains heartbeat.inventory.benches := by
  rw [List.map_flatMap]
  refine List.flatMap_congr fun bench _ => ?_
  rw [siteClaims, List.map_map]
  rfl

omit h in
/-- A bench is removed that was listed and is listed no more. -/
theorem mem_removedBenches {benches : List BenchSnapshot} {n : String} :
    n ∈ removedBenches old benches ↔
      n ∈ (listed old).map (·.benchId) ∧ n ∉ benches.map (·.benchId) := by
  rw [removedBenches, sortTexts, List.mem_insertionSort, List.mem_filter]
  simp [listed]

omit h in
/-- A site is removed that was listed and is listed no more. -/
theorem mem_removedSites {benches : List BenchSnapshot} {n : String} :
    n ∈ removedSites old benches ↔ n ∈ domains (listed old) ∧ n ∉ domains benches := by
  rw [removedSites, sortTexts, List.mem_insertionSort, List.mem_filter]
  simp [listed]

variable (hdb : Schema db) (hview : Schema view) (hlater : Later view db) (hcovered : Covered R db)
include hdb hview hlater hcovered

omit hview in
/-- Before the heartbeat the agent has the rows of its stored inventory. -/
theorem lists_old : Lists db agent.name (listed old) :=
  hcovered agent (agent?_eq_some h.locked).1 old (stored_eq h hdb hlater)

/-- The benches pass from the old list to the reported one. -/
theorem pass_benches :
    Pass Bench.serverAgent (· = agent.name) Bench.enabled benchNamed
      (heartbeat.inventory.benches.map (benchClaim agent)) db.benches db'.benches := by
  have hlists := lists_old h hdb hlater hcovered
  obtain ⟨reported, hreport, rfl⟩ := h.written
  refine pass_of_upserts (f := removeBench) (fun _ => rfl) (fun _ => rfl) (fun _ => rfl)
    (fun _ hnamed => hnamed) (fun n => ?_) hdb.benches hlater.benches hlists.benchWithin
    hlists.benchHolds (free_benches h hdb hview hlater) ?_ ?_ hreport.benches
  · rw [keys_benchClaims]
    exact mem_removedBenches
  · rw [keys_benchClaims]
    have hids := (valid_inventory h).ids
    simp only [Bool.and_eq_true, decide_eq_true_eq] at hids
    exact hids.2
  · intro claim hclaim
    obtain ⟨bench, -, rfl⟩ := List.mem_map.mp hclaim
    rfl

/-- The sites pass from the old list to the reported one. -/
theorem pass_sites :
    Pass siteOwnership (·.1 = agent.name) isServing siteNamed
      (heartbeat.inventory.benches.flatMap (siteClaims agent)) db.sites db'.sites := by
  have hlists := lists_old h hdb hlater hcovered
  obtain ⟨reported, hreport, rfl⟩ := h.written
  refine pass_of_upserts (f := removeSite) (fun _ => rfl) (fun _ => rfl) (fun _ => rfl)
    (fun _ hnamed => hnamed) (fun n => ?_) hdb.sites hlater.sites hlists.siteWithin
    hlists.siteHolds (free_sites h hdb hview hlater) ?_ ?_ hreport.sites
  · rw [keys_siteClaims]
    exact mem_removedSites
  · rw [keys_siteClaims]
    exact (valid_inventory h).domains
  · intro claim hclaim
    obtain ⟨bench, -, hclaim⟩ := List.mem_flatMap.mp hclaim
    obtain ⟨site, -, rfl⟩ := List.mem_map.mp hclaim
    rfl

omit hdb hview hlater hcovered in
/-- The only agent written is the one that reports. -/
theorem agents_written : db'.agents = Table.setValue agent.name
    (reportAgent R heartbeat (agent.inventoryRevision + 1) observedAt) db.agents := by
  obtain ⟨reported, -, rfl⟩ := h.written
  rfl

omit hview hlater hcovered in
/-- The agent's own row is the only one that changes. -/
theorem mem_agents {row : ServerAgent} :
    row ∈ db'.agents ↔ (row ∈ db.agents ∧ row.name ≠ agent.name) ∨
      row = reportAgent R heartbeat (agent.inventoryRevision + 1) observedAt agent := by
  obtain ⟨hmem, -⟩ := agent?_eq_some h.locked
  rw [agents_written h, Table.setValue, Table.mem_update]
  constructor
  · rintro ⟨q, hq, rfl⟩
    by_cases hn : Named.name q = agent.name
    · right
      rw [if_pos hn, Table.eq_of_mem hdb.agents hq hmem hn]
    · left
      rw [if_neg hn]
      exact ⟨hq, hn⟩
  · rintro (⟨hrow, hn⟩ | rfl)
    · exact ⟨row, hrow, if_neg hn⟩
    · exact ⟨agent, hmem, if_pos rfl⟩

/-- The schema holds after the heartbeat. -/
theorem schema_after : Schema db' := by
  have hbenches := pass_benches h hdb hview hlater hcovered
  have hsites := pass_sites h hdb hview hlater hcovered
  -- a heartbeat writes neither names nor ids of agents
  have hnames : db'.agents.map (·.name) = db.agents.map (·.name) := by
    rw [agents_written h]
    exact Table.map_update (fun row => Named.name row = agent.name)
      (reportAgent R heartbeat (agent.inventoryRevision + 1) observedAt) (fun _ => rfl) db.agents
  have hids : db'.agents.map (·.agentId) = db.agents.map (·.agentId) := by
    rw [agents_written h]
    exact Table.map_update (fun row => Named.name row = agent.name)
      (reportAgent R heartbeat (agent.inventoryRevision + 1) observedAt) (fun _ => rfl) db.agents
  have hagent : ∀ a ∈ db.agents, ∃ a' ∈ db'.agents, a'.name = a.name := by
    intro a ha
    have hname : a.name ∈ db'.agents.map (·.name) := hnames ▸ List.mem_map_of_mem ha
    exact List.mem_map.mp hname
  refine ⟨?_, hids ▸ hdb.agentIds, hbenches.written.unique hdb.benches,
    hsites.written.unique hdb.sites, hbenches.valid hdb.benchNamed, hsites.valid hdb.siteNamed,
    fun bench hbench => ?_, fun site hsite => ?_⟩
  · show (db'.agents.map (·.name)).Nodup
    rw [hnames]
    exact hdb.agents
  -- a bench after the heartbeat was there before, or is claimed by the agent
  · rcases hbenches.origin bench hbench with ⟨q, hq, -, howner⟩ | hclaim
    · obtain ⟨a, ha, hname⟩ := hdb.benchAgent q hq
      obtain ⟨a', ha', hname'⟩ := hagent a ha
      exact ⟨a', ha', hname'.trans (hname.trans howner)⟩
    · obtain ⟨b, -, hb⟩ := List.mem_map.mp hclaim
      obtain ⟨a', ha', hname'⟩ := hagent agent (agent?_eq_some h.locked).1
      exact ⟨a', ha', hname'.trans (congrArg Prod.snd hb)⟩
  -- likewise a site, whose bench has to follow its owner
  · rcases hsites.origin site hsite with ⟨q, hq, -, howner⟩ | hclaim
    · obtain ⟨b, hb, hname, hagentOf⟩ := hdb.siteBench q hq
      obtain ⟨b', hb', hname', howner'⟩ := hbenches.written.kept b hb
      obtain ⟨hagentSame, hbenchSame⟩ := Prod.mk.inj howner
      exact ⟨b', hb', hname'.trans (hname.trans hbenchSame),
        howner'.trans (hagentOf.trans hagentSame)⟩
    · -- a reported site lies on a reported bench
      obtain ⟨bench, hbench, hclaim⟩ := List.mem_flatMap.mp hclaim
      obtain ⟨reported, -, hreported⟩ := List.mem_map.mp hclaim
      obtain ⟨-, hpair⟩ := Prod.mk.inj hreported
      obtain ⟨hagentSame, hbenchSame⟩ := Prod.mk.inj hpair
      obtain ⟨b', hb', hname', howner', -⟩ :=
        hbenches.present _ (List.mem_map_of_mem hbench)
      exact ⟨b', hb', hname'.trans hbenchSame, howner'.trans hagentSame⟩

/-- The heartbeat makes a later version. -/
theorem later_after : Later db db' where
  benches := (pass_benches h hdb hview hlater hcovered).written.kept
  sites := (pass_sites h hdb hview hlater hcovered).written.kept
  agents a ha := by
    by_cases hn : a.name = agent.name
    · have hself := Table.eq_of_mem hdb.agents ha (agent?_eq_some h.locked).1 hn
      refine ⟨_, (mem_agents h hdb).mpr (.inr rfl), hn.symm, hself ▸ rfl, ?_, fun heq => ?_⟩
      · rw [hself]
        exact Nat.le_succ _
      · rw [hself] at heq
        exact absurd heq (Nat.succ_ne_self _)
    · exact ⟨a, (mem_agents h hdb).mpr (.inl ⟨ha, hn⟩), rfl, rfl, Nat.le_refl _, fun _ => .refl a⟩

omit h hdb hview hlater hcovered in
/-- A stored inventory is decoded from its text and checked against its digest. -/
theorem storedInventory_eq {row : ServerAgent} {digest : String} {encoded : Text}
    (hdigest : orNone row.inventoryDigest = some digest)
    (hencoded : row.inventorySnapshotJson.filter (· ≠ []) = some encoded) :
    storedInventory R row = (do
      let stored ← loadSnapshot R encoded digest
      return some { stored with revision := row.inventoryRevision }) := by
  rw [storedInventory, hdigest, hencoded]

omit hdb hview hlater hcovered in
/-- The inventory it stored reads back as the reported one. -/
theorem stored_after (hread : ReadsBack R state) :
    storedInventory R (reportAgent R heartbeat (agent.inventoryRevision + 1) observedAt agent) =
      .ok (some { digest := heartbeat.inventoryDigest, benches := heartbeat.inventory.benches
                  revision := agent.inventoryRevision + 1 }) := by
  have hparsed := h.parsed
  -- what the parse established of the digest
  have hdigest : isSha256 heartbeat.inventoryDigest = true ∧
      isText heartbeat.inventoryDigest.toList 64 = true ∧
      (digest R heartbeat.inventory == heartbeat.inventoryDigest) = true := by
    unfold parseHeartbeatState at hparsed
    simp only [Transaction.bind_eq_ok] at hparsed
    obtain ⟨raw, -, -, -, status, -, hparsed⟩ := hparsed
    split at hparsed
    · cases hparsed
    · simp only [Transaction.bind_eq_ok, ensure_eq_ok] at hparsed
      obtain ⟨version, -, hash, htext, -, hsha, inventory, -, -, hequal, hparsed⟩ := hparsed
      cases hparsed
      exact ⟨hsha, (text_eq_ok.mp htext).2, hequal⟩
  obtain ⟨hsha, htext, hequal⟩ := hdigest
  have hnonempty : orNone (some heartbeat.inventoryDigest) = some heartbeat.inventoryDigest := by
    refine orNone_eq_some.mpr ⟨rfl, fun hempty => ?_⟩
    rw [hempty] at hsha
    exact absurd hsha (by decide)
  -- the stored text is parsed as a heartbeat with the status and version of a stored one
  have hload : loadSnapshot R (Inventory.canonicalJson R heartbeat.inventory)
      heartbeat.inventoryDigest = .ok { digest := heartbeat.inventoryDigest
                                        benches := heartbeat.inventory.benches, revision := 0 } := by
    unfold loadSnapshot
    rw [hread heartbeat hparsed]
    have hbody : parseHeartbeatState R (.obj [("status", .str "ready"),
        ("version", .str "stored"), ("inventory_digest", .str heartbeat.inventoryDigest),
        ("inventory", (snapshotJson heartbeat.inventory).sorted)]) =
        .ok { heartbeat with status := .ready, version := "stored" } := by
      unfold parseHeartbeatState
      simp only [Transaction.bind_eq_ok, ensure_eq_ok, exact]
      refine ⟨_, rfl, (), by simp [Ingestion.sameKeys, Json.keys], "ready", text_eq_ok.mpr ⟨rfl, by decide⟩, ?_⟩
      show (_ >>= _) = _
      simp only [Transaction.bind_eq_ok, ensure_eq_ok]
      exact ⟨"stored", text_eq_ok.mpr ⟨rfl, by decide⟩, heartbeat.inventoryDigest,
        text_eq_ok.mpr ⟨rfl, htext⟩, (), hsha, heartbeat.inventory,
        parseInventory_snapshotJson (valid_inventory h), (), hequal, rfl⟩
    show (parseHeartbeatState R _ >>= _) = _
    rw [hbody]
    rfl
  -- an empty text would read as no inventory
  have hencoded : (some (Inventory.canonicalJson R heartbeat.inventory)).filter (· ≠ []) =
      some (Inventory.canonicalJson R heartbeat.inventory) := by
    exact Option.filter_eq_some_iff.mpr ⟨rfl, decide_eq_true (canonicalJson_ne_nil _)⟩
  have hrow : storedInventory R (reportAgent R heartbeat (agent.inventoryRevision + 1) observedAt
      agent) = _ := storedInventory_eq hnonempty hencoded
  rw [hrow, hload]
  rfl

/-- After the heartbeat every agent has the rows of the inventory it stores. -/
theorem covered_after (hread : ReadsBack R state) : Covered R db' := by
  have hbenches := pass_benches h hdb hview hlater hcovered
  have hsites := pass_sites h hdb hview hlater hcovered
  intro row hrow stored hstored
  rcases (mem_agents h hdb).mp hrow with ⟨hrow, hn⟩ | rfl
  · -- another agent: its rows and its inventory are the ones it had
    have hlists := hcovered row hrow stored hstored
    refine ⟨fun r hr hmine hact => ?_, hlists.benchHolds.kept hbenches.written.kept,
      fun r hr hmine hact => ?_, hlists.siteHolds.kept hsites.written.kept⟩
    · have hother : ¬ r.serverAgent = agent.name := fun hsame => hn (hmine.symm.trans hsame)
      exact hlists.benchWithin r ((hbenches.written.others r hother).mp hr) hmine hact
    · have hother : ¬ (siteOwnership r).1 = agent.name := fun hsame => hn (hmine.symm.trans hsame)
      exact hlists.siteWithin r ((hsites.written.others r hother).mp hr) hmine hact
  · cases (stored_after h hread).symm.trans hstored
    refine ⟨keys_benchClaims ▸ hbenches.within, fun n hn => ?_,
      keys_siteClaims ▸ hsites.within, fun n hn => ?_⟩
    · have hkey : n ∈ (heartbeat.inventory.benches.map (benchClaim agent)).map Prod.fst := by
        rw [keys_benchClaims]
        exact hn
      obtain ⟨claim, hclaim, rfl⟩ := List.mem_map.mp hkey
      obtain ⟨r, hr, hname, howner, -⟩ := hbenches.present claim hclaim
      obtain ⟨bench, -, rfl⟩ := List.mem_map.mp hclaim
      exact ⟨r, hr, hname, howner⟩
    · have hkey : n ∈ (heartbeat.inventory.benches.flatMap (siteClaims agent)).map Prod.fst := by
        rw [keys_siteClaims]
        exact hn
      obtain ⟨claim, hclaim, rfl⟩ := List.mem_map.mp hkey
      obtain ⟨r, hr, hname, howner, -⟩ := hsites.present claim hclaim
      obtain ⟨bench, -, hsite⟩ := List.mem_flatMap.mp hclaim
      obtain ⟨site, -, rfl⟩ := List.mem_map.mp hsite
      exact ⟨r, hr, hname, congrArg Prod.fst howner⟩

end Accepted

/-! ## Runs -/

/-- The invariant holds at the start. -/
theorem Start.inv {db : Database} (h : Start R db) : Inv R [db] where
  schema := by
    intro v hv
    exact List.mem_singleton.mp hv ▸ h.schema
  later := List.pairwise_singleton _ _
  covered := by
    rintro _ _ ⟨⟩ agent hagent stored hstored
    have hlisted : listed stored = [] := by
      cases stored with
      | none => rfl
      | some stored => exact h.unreported agent hagent stored hstored
    rw [hlisted]
    refine lists_nil (fun r hr => ?_) (fun r hr => ?_)
    · rw [h.benches] at hr
      cases hr
    · rw [h.sites] at hr
      cases hr

/-- Any other transaction makes a later version. -/
theorem OtherStep.later {db db' : Database} (h : OtherStep R db db') : Later db db' where
  benches := h.benches ▸ Kept.refl _
  sites := h.sites ▸ Kept.refl _
  agents agent hagent := by
    obtain ⟨agent', hagent', hsame⟩ := h.kept agent hagent
    exact ⟨agent', hagent', hsame.name, hsame.agentId, hsame.revision.ge, fun _ => hsame⟩

/-- Any other transaction keeps the rows of every agent. -/
theorem OtherStep.covered {db db' : Database} (h : OtherStep R db db') (hdb : Schema db)
    (hcovered : Covered R db) : Covered R db' := by
  intro agent' hagent' stored hstored
  have htables : ∀ {name : String} {benches : List BenchSnapshot}, Lists db name benches →
      Lists db' name benches := by
    rintro name benches ⟨hbw, hbh, hsw, hsh⟩
    exact ⟨h.benches ▸ hbw, h.benches ▸ hbh, h.sites ▸ hsw, h.sites ▸ hsh⟩
  rcases h.old agent' hagent' with ⟨agent, hagent, hsame⟩ | ⟨hfresh, hname⟩
  · rw [storedInventory_congr hsame] at hstored
    rw [hsame.name]
    exact htables (hcovered agent hagent stored hstored)
  · -- a new agent has no rows
    have hlisted : listed stored = [] := by
      cases stored with
      | none => rfl
      | some stored => exact hfresh stored hstored
    rw [hlisted]
    refine htables (lists_nil (fun r hr hmine => ?_) (fun r hr hmine => ?_))
    · obtain ⟨agent, hagent, howner⟩ := hdb.benchAgent r hr
      exact absurd (howner.trans hmine) (hname agent hagent)
    · obtain ⟨bench, hbench, -, hagentOf⟩ := hdb.siteBench r hr
      obtain ⟨agent, hagent, howner⟩ := hdb.benchAgent bench hbench
      exact absurd (howner.trans (hagentOf.trans hmine)) (hname agent hagent)

/-- The inventory a heartbeat of the view `view` finds, if it is accepted. -/
theorem serve_cases (agentId : String) (state : Json) (observedAt : DateTime)
    (view db : Database) :
    (∃ delta db' agent heartbeat old, serve R agentId state observedAt view db = (.ok delta, db') ∧
      Accepted R agentId state observedAt view db db' agent heartbeat old) ∨
      ∃ e, serve R agentId state observedAt view db = (.error e, db) := by
  unfold serve
  cases hrun : heartbeat R agentId state observedAt { view, current := db } with
  | ok delta session =>
    obtain ⟨agent, heartbeat, old, haccepted⟩ := heartbeat_eq_ok hrun
    exact .inl ⟨delta, session.current, agent, heartbeat, old, rfl, haccepted⟩
  | error e session => exact .inr ⟨e, rfl⟩

/-- One more commit keeps the invariant. -/
theorem Step.inv {history history' : List Database} {l : Label} (hstep : Step R history l history')
    (hread : l.ReadsBack R) (h : Inv R history) : Inv R history' := by
  cases hstep with
  | @heartbeat db older agentId state observedAt view hview =>
    have hdb := h.schema db (by simp)
    have hcovered := h.covered db older rfl
    rcases serve_cases agentId state observedAt view db with
      ⟨delta, db', agent, heartbeat, old, hserve, haccepted⟩ | ⟨e, hserve⟩
    · have hlater := h.later_head hview
      have hschema := h.schema view hview
      rw [hserve]
      exact h.cons (schema_after haccepted hdb hschema hlater hcovered)
        (later_after haccepted hdb hschema hlater hcovered)
        (covered_after haccepted hdb hschema hlater hcovered hread)
    · rw [hserve]
      exact h.cons hdb (.refl db) hcovered
  | @other db db' older hother =>
    have hdb := h.schema db (by simp)
    exact h.cons hother.schema hother.later (hother.covered hdb (h.covered db older rfl))

/-- The invariant holds of the history of every run. -/
theorem inv_of_run {db₀ : Database} {labels : List Label} {history : List Database}
    (hstart : Start R db₀) (hrun : Run (Step R) [db₀] labels history)
    (hread : ∀ l ∈ labels, l.ReadsBack R) : Inv R history :=
  (hrun.restrict hread).invariant (fun _ _ _ h hstep => hstep.1.inv hstep.2 h) hstart.inv

variable (R) in
/-- What an accepted heartbeat makes of the tables. -/
structure Projects (agentId : String) (state : Json) (db db' : Database) (agent : ServerAgent)
    (heartbeat : HeartbeatInventory) : Prop where
  parsed : parseHeartbeatState R state = .ok heartbeat
  locked : agent? db agentId = some agent
  revision : ∃ agent', agent? db' agentId = some agent' ∧ agent'.name = agent.name ∧
    agent'.inventoryRevision = agent.inventoryRevision + 1
  otherAgents : ∀ row : ServerAgent, row.name ≠ agent.name → (row ∈ db'.agents ↔ row ∈ db.agents)
  otherBenches : ∀ bench : Bench, bench.serverAgent ≠ agent.name →
    (bench ∈ db'.benches ↔ bench ∈ db.benches)
  otherSites : ∀ site : ManagedSite, site.serverAgent ≠ agent.name →
    (site ∈ db'.sites ↔ site ∈ db.sites)
  benches : ∀ id, (∃ bench ∈ db'.benches, bench.name = id ∧ bench.serverAgent = agent.name ∧
    bench.enabled = true) ↔ ∃ bench ∈ heartbeat.inventory.benches, bench.benchId = id
  sites : ∀ domain id, (∃ site ∈ db'.sites, site.name = domain ∧ site.serverAgent = agent.name ∧
    site.bench = id ∧ isServing site = true) ↔
    ∃ bench ∈ heartbeat.inventory.benches, bench.benchId = id ∧
      ∃ site ∈ bench.sites, site.domain = domain

/-- An accepted heartbeat projects its inventory to the tables, whatever version its plain reads
saw. -/
theorem Inv.projects {db view db' : Database} {older : List Database} {agentId : String}
    {state : Json} {observedAt : DateTime} {agent : ServerAgent} {heartbeat : HeartbeatInventory}
    {old : Option StoredInventory} (h : Inv R (db :: older)) (hview : view ∈ db :: older)
    (haccepted : Accepted R agentId state observedAt view db db' agent heartbeat old) :
    Projects R agentId state db db' agent heartbeat := by
  have hdb := h.schema db (by simp)
  have hlater := h.later_head hview
  have hschema := h.schema view hview
  have hcovered := h.covered db older rfl
  have hbenches := pass_benches haccepted hdb hschema hlater hcovered
  have hsites := pass_sites haccepted hdb hschema hlater hcovered
  have hafter := schema_after haccepted hdb hschema hlater hcovered
  obtain ⟨hmem, hid⟩ := agent?_eq_some haccepted.locked
  refine ⟨haccepted.parsed, haccepted.locked, ?_, fun row hn => ?_,
    fun bench hn => hbenches.written.others bench hn, fun site hn => hsites.written.others site hn,
    fun id => ?_, fun domain id => ?_⟩
  · refine ⟨reportAgent R heartbeat (agent.inventoryRevision + 1) observedAt agent, ?_, rfl, rfl⟩
    -- the written agent row is found again under its id
    have hrow := (mem_agents haccepted hdb).mpr (.inr rfl)
    cases hfind : agent? db' agentId with
    | none =>
      have hnot := List.find?_eq_none.mp hfind _ hrow
      exact absurd (beq_iff_eq.mpr hid) hnot
    | some found =>
      obtain ⟨hfound, hfoundId⟩ := agent?_eq_some hfind
      rw [hafter.agent_eq hfound hrow (hfoundId.trans hid.symm)]
  · rw [mem_agents haccepted hdb]
    constructor
    · rintro (⟨hrow, -⟩ | rfl)
      · exact hrow
      · exact absurd rfl hn
    · intro hrow
      exact .inl ⟨hrow, hn⟩
  -- active benches are the reported claims, whatever was active before
  · have hactive := hbenches.active_iff hafter.benches (fun claim hclaim => by
      obtain ⟨bench, -, rfl⟩ := List.mem_map.mp hclaim
      rfl) id agent.name
    constructor
    · rintro ⟨bench, hbench, hname, howner, hon⟩
      obtain ⟨reported, hreported, hclaim⟩ :=
        List.mem_map.mp (hactive.mp ⟨bench, hbench, hname, howner, rfl, hon⟩)
      exact ⟨reported, hreported, congrArg Prod.fst hclaim⟩
    · rintro ⟨reported, hreported, rfl⟩
      obtain ⟨bench, hbench, hname, howner, -, hon⟩ :=
        hactive.mpr (List.mem_map_of_mem (f := benchClaim agent) hreported)
      exact ⟨bench, hbench, hname, howner, hon⟩
  -- likewise the sites, whose claim names the bench too
  · have hactive := hsites.active_iff hafter.sites (fun claim hclaim => by
      obtain ⟨bench, -, hsite⟩ := List.mem_flatMap.mp hclaim
      obtain ⟨site, -, rfl⟩ := List.mem_map.mp hsite
      rfl) domain (agent.name, id)
    constructor
    · rintro ⟨site, hsite, hname, howner, hbench, hon⟩
      have hownership : siteOwnership site = (agent.name, id) := by rw [← howner, ← hbench]; rfl
      obtain ⟨bench, hbench, hclaim⟩ :=
        List.mem_flatMap.mp (hactive.mp ⟨site, hsite, hname, hownership, rfl, hon⟩)
      obtain ⟨reported, hreported, hsame⟩ := List.mem_map.mp hclaim
      obtain ⟨hdomain, hpair⟩ := Prod.mk.inj hsame
      exact ⟨bench, hbench, congrArg Prod.snd hpair, reported, hreported, hdomain⟩
    · rintro ⟨bench, hbench, rfl, reported, hreported, rfl⟩
      have hclaim : (reported.domain, (agent.name, bench.benchId)) ∈
          heartbeat.inventory.benches.flatMap (siteClaims agent) :=
        List.mem_flatMap.mpr ⟨bench, hbench, List.mem_map.mpr ⟨reported, hreported, rfl⟩⟩
      obtain ⟨site, hsite, hname, howner, -, hon⟩ := hactive.mpr hclaim
      obtain ⟨hagentOf, hbenchOf⟩ := Prod.mk.inj howner
      exact ⟨site, hsite, hname, hagentOf, hbenchOf, hon⟩

/-- Owners never change; and whatever version its plain reads see, a heartbeat that is rejected
changes nothing, and one that is accepted leaves the rows of other agents alone, makes the
agent's enabled benches and serving sites the reported ones, and adds one to its revision. -/
theorem inventory_projection {db₀ : Database} {labels : List Label} {history : List Database}
    (hstart : Start R db₀) (hrun : Run (Step R) [db₀] labels history)
    (hread : ∀ l ∈ labels, l.ReadsBack R) :
    history.Pairwise (fun newer older => Kept Bench.serverAgent older.benches newer.benches ∧
      Kept siteOwnership older.sites newer.sites) ∧
    ∀ db older, history = db :: older → ∀ agentId state observedAt, ∀ view ∈ history,
      match serve R agentId state observedAt view db with
      | (.ok _, db') => ∃ agent heartbeat, Projects R agentId state db db' agent heartbeat
      | (.error _, db') => db' = db := by
  have hinv := inv_of_run hstart hrun hread
  refine ⟨hinv.later.imp fun hlater => ⟨hlater.benches, hlater.sites⟩, ?_⟩
  rintro db older rfl agentId state observedAt view hview
  rcases serve_cases agentId state observedAt view db with
    ⟨delta, db', agent, heartbeat, old, hserve, haccepted⟩ | ⟨e, hserve⟩
  · rw [hserve]
    exact ⟨agent, heartbeat, hinv.projects hview haccepted⟩
  · rw [hserve]

/-! ## A run -/

namespace Sample

/-- One bench with one site. -/
def inventory : InventorySnapshot where
  schemaVersion := 1
  inventoryVersion := "1.0"
  benches := [{
    benchId := "bench-a", versions := [("frappe", "15.0.0")], capabilities := ["site.verify"]
    sites := [{ domain := "a.example.org", apps := [], schedulerEnabled := some true
                maintenanceMode := some false, databaseName := "a" }]
    requiredApps := none }]

/-- A digest. -/
def hash : String := "0000000000000000000000000000000000000000000000000000000000000000"

/-- The runtime's functions, before any document is known. -/
def base : Runtime where
  sha256 _ := hash
  loads _ := none
  unread _ := .decode
  uuid _ := none
  uuid5 _ name := name
  casefold text := text
  lower text := text
  fromisoformat _ := .invalid
  floatRepr _ := "0.0"

/-- The documents a heartbeat of this inventory stores, decoded. -/
def loads (text : List Char) : Option Json :=
  if text = Inventory.canonicalJson base inventory then some (snapshotJson inventory).sorted
  else if text = pairsText base [("frappe", "15.0.0")] then
    some (.arr [pairJson ("frappe", "15.0.0")])
  else if text = textsText base ["site.verify"] then some (texts ["site.verify"])
  else if text = "[]".toList then some (.arr [])
  else none

def runtime : Runtime := { base with loads := loads }

def state : Json :=
  .obj [("status", .str "ready"), ("version", .str "1.0.0"), ("inventory_digest", .str hash),
    ("inventory", snapshotJson inventory)]

def parsed : HeartbeatInventory where
  status := .ready
  version := "1.0.0"
  inventoryDigest := hash
  inventory := inventory

/-- An agent that has not reported yet. -/
def agent : ServerAgent where
  name := "agent-a"
  agentId := "agent-a"
  environment := "production"
  enabled := true
  audience := "frappe-controller"
  drainRequested := false
  inventoryDigest := none

def db : Database where
  agents := [agent]
  benches := []
  sites := []
  policies := []
  operations := []
  operationTargets := []
  operationApprovals := []
  operationEvents := []
  bulkOperations := []
  bulkTargets := []
  bulkApprovals := []
  roles := []
  featureConfig := { masterEnabled := false, features := [] }

/-- The sample state is parsed. -/
theorem parse_state : parseHeartbeatState runtime state = .ok parsed := by decide +kernel

/-- The sample text of the inventory decodes. -/
theorem loads_snapshotText :
    loads (Inventory.canonicalJson base inventory) = some (snapshotJson inventory).sorted := by
  rw [loads, if_pos rfl]

/-- The sample runtime decodes what it stored. -/
theorem loads_snapshot :
    runtime.loads (Inventory.canonicalJson runtime parsed.inventory) =
      some (snapshotJson parsed.inventory).sorted := by
  have htext : Inventory.canonicalJson runtime parsed.inventory =
      Inventory.canonicalJson base inventory := by decide +kernel
  have hloads : runtime.loads = loads := rfl
  have hinventory : parsed.inventory = inventory := rfl
  rw [htext, hloads, hinventory]
  exact loads_snapshotText

/-- The sample heartbeat reads back. -/
theorem readsBack : ReadsBack runtime state := by
  intro heartbeat hheartbeat
  rw [parse_state] at hheartbeat
  rw [← Except.ok.inj hheartbeat]
  exact loads_snapshot

/-- The sample starts without benches and sites. -/
theorem start : Start runtime db where
  schema := by
    refine ⟨by decide, by decide, by decide, by decide, ?_, ?_, ?_, ?_⟩
    · intro bench hbench
      cases hbench
    · intro site hsite
      cases hsite
    · intro bench hbench
      cases hbench
    · intro site hsite
      cases hsite
  benches := rfl
  sites := rfl
  unreported := by
    intro a ha stored hstored
    cases List.mem_singleton.mp ha
    cases hstored

/-- The version a first heartbeat leaves behind. -/
def reported : Database := (serve runtime "agent-a" state ⟨0⟩ db db).2

/-- The first sample heartbeat is accepted. -/
theorem accepted : (serve runtime "agent-a" state ⟨0⟩ db db).1.isOk = true := by decide +kernel

/-- The run of the first sample heartbeat. -/
theorem run : Run (Step runtime) [db] [.heartbeat "agent-a" state ⟨0⟩ db] [reported, db] :=
  Run.single (Step.heartbeat (List.mem_singleton.mpr rfl))

/-- Its label reads back. -/
theorem run_readsBack :
    ∀ l ∈ [Label.heartbeat "agent-a" state ⟨0⟩ db], l.ReadsBack runtime := by
  intro l hl
  rw [List.mem_singleton.mp hl]
  exact readsBack

attribute [irreducible] runtime state db reported

end Sample

/-- A second heartbeat, whose plain reads still see the empty tables. -/
theorem inventory_projection_sample :
    (serve Sample.runtime "agent-a" Sample.state ⟨0⟩ Sample.db Sample.db).1.isOk = true ∧
    match serve Sample.runtime "agent-a" Sample.state ⟨1⟩ Sample.db Sample.reported with
    | (.ok _, db') => ∃ agent heartbeat,
      Projects Sample.runtime "agent-a" Sample.state Sample.reported db' agent heartbeat
    | (.error _, db') => db' = Sample.reported :=
  ⟨Sample.accepted,
    (inventory_projection Sample.start Sample.run Sample.run_readsBack).2 Sample.reported
      [Sample.db] rfl "agent-a" Sample.state ⟨1⟩ Sample.db
      (List.mem_cons_of_mem _ (List.mem_singleton.mpr rfl))⟩

end InventoryProjection

end FrappeController
