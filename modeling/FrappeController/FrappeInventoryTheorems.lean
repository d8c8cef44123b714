import FrappeController.FrappeInventory
import FrappeController.InventoryTheorems
import FrappeController.Library.Projection

/-!
# What an accepted heartbeat writes

`heartbeat_eq_ok` takes a heartbeat that returned apart: the agent row it locked, the inventory
it diffed against, the ownership it checked in its view, and its writes, which are a pass of
removals and one of reports on each of the two tables (`Library.Projection`).
-/

namespace FrappeController
namespace FrappeInventory

open Inventory Projection
open Transaction (bind_apply_eq_ok query_eq_ok bind_eq_ok)

variable {R : Runtime} {s s' : Session}

/-! ## The statements of a transaction -/

theorem read_eq_ok {α : Type} {f : Database → Except Exc α} {a : α} :
    read f s = .ok a s' ↔ f s.view = .ok a ∧ s = s' :=
  query_eq_ok

theorem readForUpdate_eq_ok {α : Type} {f : Database → Except Exc α} {a : α} :
    readForUpdate f s = .ok a s' ↔ f s.current = .ok a ∧ s = s' :=
  query_eq_ok

theorem write_eq_ok {f : Database → Database} {u : Unit} :
    write f s = .ok u s' ↔ s' = { view := f s.view, current := f s.current } := by
  rw [write, Transaction.modify_apply]
  constructor
  · intro h
    cases h
    rfl
  · rintro rfl
    rfl

/-- A statement that does not write returns in the session it began in. -/
theorem forEach_eq_ok {α : Type} {body : α → EStateM Exc Session Unit} {P : α → Prop}
    (hbody : ∀ {x u t}, body x s = .ok u t → s = t ∧ P x) {xs : List α} {u : Unit}
    (h : Transaction.forEach body xs s = .ok u s') : s = s' ∧ ∀ x ∈ xs, P x := by
  induction xs with
  | nil =>
    cases h
    exact ⟨rfl, fun x hx => by cases hx⟩
  | cons x rest ih =>
    obtain ⟨⟨⟩, t, hx, hrest⟩ := bind_apply_eq_ok.mp h
    obtain ⟨rfl, hP⟩ := hbody hx
    obtain ⟨hs, hall⟩ := ih hrest
    exact ⟨hs, List.forall_mem_cons.mpr ⟨hP, hall⟩⟩

/-! ## Removals -/

theorem setBenches_eq_ok {names : List String} {f : Bench → Bench} {u : Unit}
    (h : setBenches names f s = .ok u s') :
    s' = { view := { s.view with benches := removals f names s.view.benches }
           current := { s.current with benches := removals f names s.current.benches } } := by
  induction names generalizing s with
  | nil =>
    cases h
    rfl
  | cons name rest ih =>
    obtain ⟨⟨⟩, t, hfirst, hrest⟩ := bind_apply_eq_ok.mp h
    rw [write_eq_ok] at hfirst
    subst hfirst
    exact ih hrest

theorem setSites_eq_ok {names : List String} {f : ManagedSite → ManagedSite} {u : Unit}
    (h : setSites names f s = .ok u s') :
    s' = { view := { s.view with sites := removals f names s.view.sites }
           current := { s.current with sites := removals f names s.current.sites } } := by
  induction names generalizing s with
  | nil =>
    cases h
    rfl
  | cons name rest ih =>
    obtain ⟨⟨⟩, t, hfirst, hrest⟩ := bind_apply_eq_ok.mp h
    rw [write_eq_ok] at hfirst
    subst hfirst
    exact ih hrest

/-! ## Reports -/

/-- The owner of a site: its agent and its bench. -/
def siteOwnership (site : ManagedSite) : String × String := (site.serverAgent, site.bench)

/-- A site that is active or in maintenance. -/
def isServing (site : ManagedSite) : Bool :=
  site.status == .active || site.status == .maintenance

/-- A bench goes by its id. -/
def benchNamed (bench : Bench) : Prop := bench.benchId = bench.name

/-- A site goes by its domain. -/
def siteNamed (site : ManagedSite) : Prop := site.domain = site.name

/-- A report of benches and sites, and nothing else. -/
structure Report (benches : List (String × String)) (sites : List (String × (String × String)))
    (s s' : Session) : Prop where
  benches : Upserts Bench.serverAgent Bench.enabled benchNamed benches s.view.benches
    s.current.benches s'.view.benches s'.current.benches
  sites : Upserts siteOwnership isServing siteNamed sites s.view.sites s.current.sites
    s'.view.sites s'.current.sites
  view : s'.view = { s.view with benches := s'.view.benches, sites := s'.view.sites }
  current : s'.current =
    { s.current with benches := s'.current.benches, sites := s'.current.sites }

theorem Report.refl (s : Session) : Report [] [] s s := ⟨.nil _ _, .nil _ _, rfl, rfl⟩

theorem Report.append {t : Session} {benches benches' : List (String × String)}
    {sites sites' : List (String × (String × String))} (h : Report benches sites s t)
    (h' : Report benches' sites' t s') : Report (benches ++ benches') (sites ++ sites') s s' where
  benches := h.benches.append h'.benches
  sites := h.sites.append h'.sites
  view := by rw [h'.view, h.view]
  current := by rw [h'.current, h.current]

/-- The reports of a list, one after the other. -/
theorem Report.forEach {α : Type} {body : α → EStateM Exc Session Unit}
    {benches : α → List (String × String)} {sites : α → List (String × (String × String))}
    (hbody : ∀ {x u s s'}, body x s = .ok u s' → Report (benches x) (sites x) s s') {xs : List α}
    {u : Unit} (h : Transaction.forEach body xs s = .ok u s') :
    Report (xs.flatMap benches) (xs.flatMap sites) s s' := by
  induction xs generalizing s with
  | nil =>
    cases h
    exact .refl _
  | cons x rest ih =>
    obtain ⟨⟨⟩, t, hx, hrest⟩ := bind_apply_eq_ok.mp h
    rw [List.flatMap_cons, List.flatMap_cons]
    exact (hbody hx).append (ih hrest)

section Upsert

variable {agent : ServerAgent} {status : ReportedStatus} {observedAt : DateTime} {u : Unit}

/-- What a reported site claims. -/
def siteClaims (agent : ServerAgent) (bench : BenchSnapshot) :
    List (String × (String × String)) :=
  bench.sites.map fun site => (site.domain, (agent.name, bench.benchId))

/-- What a reported bench claims. -/
def benchClaim (agent : ServerAgent) (bench : BenchSnapshot) : String × String :=
  (bench.benchId, agent.name)

theorem isServing_reportSite (benchId : String) (site : SiteSnapshot) (row : ManagedSite) :
    isServing (reportSite R agent status observedAt benchId site row) = true := by
  by_cases hmode : site.maintenanceMode = some true
  · simp [isServing, reportSite, hmode]
  · simp [isServing, reportSite, hmode]

theorem insertSite_eq_ok {site : ManagedSite} (h : insertSite R site s = .ok u s') :
    (∀ q ∈ s.current.sites, q.name ≠ site.name) ∧
      s' = { view := { s.view with sites := s.view.sites ++ [site] }
             current := { s.current with sites := s.current.sites ++ [site] } } := by
  obtain ⟨⟨⟩, t, hvalid, h⟩ := bind_apply_eq_ok.mp h
  obtain ⟨-, rfl⟩ := read_eq_ok.mp hvalid
  obtain ⟨⟨⟩, t', hlengths, h⟩ := bind_apply_eq_ok.mp h
  obtain ⟨-, rfl⟩ := read_eq_ok.mp hlengths
  obtain ⟨⟨⟩, t', hindex, h⟩ := bind_apply_eq_ok.mp h
  obtain ⟨hfresh, rfl⟩ := readForUpdate_eq_ok.mp hindex
  rw [write_eq_ok] at h
  refine ⟨fun q hq hname => ?_, h⟩
  have hnone := List.any_eq_false.mp ((Bool.not_eq_true' _).mp (ensure_eq_ok.mp hfresh)) q hq
  exact hnone (by simp [hname])

theorem insertBench_eq_ok {bench : Bench} (h : insertBench R bench s = .ok u s') :
    (∀ q ∈ s.current.benches, q.name ≠ bench.name) ∧
      s' = { view := { s.view with benches := s.view.benches ++ [bench] }
             current := { s.current with benches := s.current.benches ++ [bench] } } := by
  obtain ⟨⟨⟩, t, hvalid, h⟩ := bind_apply_eq_ok.mp h
  obtain ⟨-, rfl⟩ := read_eq_ok.mp hvalid
  obtain ⟨⟨⟩, t', hindex, h⟩ := bind_apply_eq_ok.mp h
  obtain ⟨hfresh, rfl⟩ := readForUpdate_eq_ok.mp hindex
  rw [write_eq_ok] at h
  refine ⟨fun q hq hname => ?_, h⟩
  have hnone := List.any_eq_false.mp ((Bool.not_eq_true' _).mp (ensure_eq_ok.mp hfresh)) q hq
  exact hnone (by simp [hname])

theorem upsertSite_eq_ok {benchId : String} {site : SiteSnapshot}
    (h : upsertSite R agent status observedAt benchId site s = .ok u s') :
    Report [] [(site.domain, (agent.name, benchId))] s s' := by
  obtain ⟨present, t, hread, h⟩ := bind_apply_eq_ok.mp h
  obtain ⟨hpresent, rfl⟩ := read_eq_ok.mp hread
  cases hpresent
  -- whether the row exists is asked of the snapshot
  by_cases hexists : (Table.get? s.view.sites site.domain).isSome = true
  · rw [if_pos hexists] at h
    have hwrite := setSites_eq_ok h
    subst hwrite
    refine ⟨.nil _ _, ?_, rfl, rfl⟩
    exact .cons (.update (f := reportSite R agent status observedAt benchId site) hexists
      (fun _ => rfl) (fun _ => rfl) (fun row => isServing_reportSite benchId site row)
      (fun _ hn _ => hn.symm)) (.nil _ _)
  · rw [if_neg hexists] at h
    -- an insert needs a name that is free among the current rows too
    obtain ⟨hfresh, rfl⟩ := insertSite_eq_ok h
    refine ⟨.nil _ _, ?_, rfl, rfl⟩
    have hnamed : siteNamed
        (reportSite R agent status observedAt benchId site (newSite site.domain)) := rfl
    exact .cons (.insert hfresh rfl rfl (isServing_reportSite benchId site _) hnamed) (.nil _ _)

theorem upsertBenchRow_eq_ok {bench : BenchSnapshot}
    (h : upsertBenchRow R agent status observedAt bench s = .ok u s') :
    Report [benchClaim agent bench] [] s s' := by
  obtain ⟨present, t, hread, h⟩ := bind_apply_eq_ok.mp h
  obtain ⟨hpresent, rfl⟩ := read_eq_ok.mp hread
  cases hpresent
  -- whether the row exists is asked of the snapshot
  by_cases hexists : (Table.get? s.view.benches bench.benchId).isSome = true
  · rw [if_pos hexists] at h
    have hwrite := setBenches_eq_ok h
    subst hwrite
    refine ⟨?_, .nil _ _, rfl, rfl⟩
    exact .cons (.update (f := reportBench R agent status observedAt bench) hexists
      (fun _ => rfl) (fun _ => rfl) (fun _ => rfl) (fun _ _ hvalid => hvalid)) (.nil _ _)
  · rw [if_neg hexists] at h
    obtain ⟨hfresh, rfl⟩ := insertBench_eq_ok h
    refine ⟨?_, .nil _ _, rfl, rfl⟩
    have hnamed : benchNamed
        (reportBench R agent status observedAt bench (newBench bench.benchId)) := rfl
    exact .cons (.insert hfresh rfl rfl rfl hnamed) (.nil _ _)

theorem upsertBench_eq_ok {bench : BenchSnapshot}
    (h : upsertBench R agent status observedAt bench s = .ok u s') :
    Report [benchClaim agent bench] (siteClaims agent bench) s s' := by
  obtain ⟨⟨⟩, t, hrow, hsites⟩ := bind_apply_eq_ok.mp h
  have hreport : Report (bench.sites.flatMap fun _ => [])
      (bench.sites.flatMap fun site => [(site.domain, (agent.name, bench.benchId))]) t s' :=
    Report.forEach (fun hx => upsertSite_eq_ok hx) hsites
  have hnone : (bench.sites.flatMap fun _ => ([] : List (String × String))) = [] := by simp
  have hclaims : (bench.sites.flatMap fun site => [(site.domain, (agent.name, bench.benchId))])
      = siteClaims agent bench := List.map_eq_flatMap.symm
  rw [hnone, hclaims] at hreport
  exact (upsertBenchRow_eq_ok hrow).append hreport

end Upsert

/-! ## Ownership checks -/

theorem checkBenchOwner_eq_ok {agentId benchId : String} {u : Unit}
    (h : checkBenchOwner (owners R) agentId benchId s = .ok u s') :
    s = s' ∧ ∀ owner, benchOwner s.view benchId = some owner → owner = agentId := by
  obtain ⟨owner, t, hread, h⟩ := bind_apply_eq_ok.mp h
  obtain ⟨howner, rfl⟩ := (read_eq_ok (f := fun db => .ok (benchOwner db benchId))).mp hread
  cases howner
  split at h
  · cases h
  · rename_i hcheck
    cases h
    refine ⟨rfl, fun owner howner => ?_⟩
    simpa [howner] using hcheck

theorem checkSiteOwner_eq_ok {agentId benchId domain : String} {u : Unit}
    (h : checkSiteOwner (owners R) agentId benchId domain s = .ok u s') :
    s = s' ∧ ∀ owner, siteOwner s.view domain = some owner → owner = (agentId, benchId) := by
  obtain ⟨owner, t, hread, h⟩ := bind_apply_eq_ok.mp h
  obtain ⟨howner, rfl⟩ := (read_eq_ok (f := fun db => .ok (siteOwner db domain))).mp hread
  cases howner
  split at h
  · cases h
  · rename_i hcheck
    cases h
    refine ⟨rfl, fun owner howner => ?_⟩
    simpa [howner] using hcheck

/-! ## A heartbeat -/

/-- The names of the benches an agent no longer reports. -/
def removedBenches (old : Option StoredInventory) (benches : List BenchSnapshot) : List String :=
  sortTexts ((((old.map (·.benches)).getD []).map (·.benchId)).filter fun id =>
    !(benches.map (·.benchId)).contains id)

/-- The domains of the sites an agent no longer reports. -/
def removedSites (old : Option StoredInventory) (benches : List BenchSnapshot) : List String :=
  sortTexts ((domains ((old.map (·.benches)).getD [])).filter fun domain =>
    !(domains benches).contains domain)

/-- The tables after the removals. -/
def remove (old : Option StoredInventory) (benches : List BenchSnapshot) (db : Database) :
    Database :=
  { db with
    benches := removals removeBench (removedBenches old benches) db.benches
    sites := removals removeSite (removedSites old benches) db.sites }

/-- The writes of a heartbeat: removals, reports, and the agent's own columns. -/
def Writes (R : Runtime) (agent : ServerAgent) (heartbeat : HeartbeatInventory) (revision : ℕ)
    (observedAt : DateTime) (old : Option StoredInventory) (view db db' : Database) : Prop :=
  ∃ reported : Session,
    Report (heartbeat.inventory.benches.map (benchClaim agent))
      (heartbeat.inventory.benches.flatMap (siteClaims agent))
      { view := remove old heartbeat.inventory.benches view
        current := remove old heartbeat.inventory.benches db } reported ∧
    db' = { reported.current with
      agents := Table.setValue agent.name (reportAgent R heartbeat revision observedAt) db.agents }

/-- An accepted heartbeat. -/
structure Accepted (R : Runtime) (agentId : String) (state : Json) (observedAt : DateTime)
    (view db db' : Database) (agent : ServerAgent) (heartbeat : HeartbeatInventory)
    (old : Option StoredInventory) : Prop where
  parsed : parseHeartbeatState R state = .ok heartbeat
  locked : agent? db agentId = some agent
  enabled : agent.enabled = true
  stored : currentInventory R view agentId = .ok old
  digest : orNone agent.inventoryDigest = old.map (·.digest)
  revision : agent.inventoryRevision = (old.map (·.revision)).getD 0
  benchOwner : ∀ bench ∈ heartbeat.inventory.benches, ∀ owner,
    benchOwner view bench.benchId = some owner → owner = agentId
  siteOwner : ∀ bench ∈ heartbeat.inventory.benches, ∀ site ∈ bench.sites, ∀ owner,
    siteOwner view site.domain = some owner → owner = (agentId, bench.benchId)
  written : Writes R agent heartbeat (agent.inventoryRevision + 1) observedAt old view db db'

theorem lockAgent_eq_ok {agentId : String} {previousDigest : Option String} {revision : ℕ}
    {db : Database} {agent : ServerAgent}
    (h : lockAgent agentId previousDigest revision db = .ok agent) :
    agent? db agentId = some agent ∧ agent.enabled = true ∧
      orNone agent.inventoryDigest = previousDigest ∧ agent.inventoryRevision + 1 = revision := by
  unfold lockAgent at h
  split at h
  · cases h
  · rename_i locked hlocked
    simp only [bind_eq_ok, ensure_eq_ok, Bool.and_eq_true, beq_iff_eq] at h
    obtain ⟨-, henabled, -, ⟨hdigest, hrevision⟩, h⟩ := h
    cases h
    exact ⟨hlocked, henabled, hdigest, hrevision⟩

theorem replaceInventory_eq_ok {agentId : String} {heartbeat : HeartbeatInventory}
    {previousDigest : Option String} {revision : ℕ} {observedAt : DateTime} {u : Unit}
    (h : replaceInventory R agentId heartbeat previousDigest revision observedAt s = .ok u s') :
    ∃ agent old, lockAgent agentId previousDigest revision s.current = .ok agent ∧
      currentInventory R s.view agentId = .ok old ∧
      (∀ bench ∈ heartbeat.inventory.benches, ∀ owner,
        benchOwner s.view bench.benchId = some owner → owner = agentId) ∧
      (∀ bench ∈ heartbeat.inventory.benches, ∀ site ∈ bench.sites, ∀ owner,
        siteOwner s.view site.domain = some owner → owner = (agentId, bench.benchId)) ∧
      Writes R agent heartbeat revision observedAt old s.view s.current s'.current := by
  obtain ⟨agent, t, hagent, h⟩ := bind_apply_eq_ok.mp h
  obtain ⟨hlock, rfl⟩ := readForUpdate_eq_ok.mp hagent
  obtain ⟨⟨⟩, t, hcheckBenches, h⟩ := bind_apply_eq_ok.mp h
  obtain ⟨rfl, hbenches⟩ := forEach_eq_ok (fun hx => checkBenchOwner_eq_ok hx) hcheckBenches
  obtain ⟨⟨⟩, t, hcheckSites, h⟩ := bind_apply_eq_ok.mp h
  obtain ⟨rfl, hsites⟩ :=
    forEach_eq_ok (fun hx => forEach_eq_ok (fun hy => checkSiteOwner_eq_ok hy) hx) hcheckSites
  obtain ⟨old, t, hinventory, h⟩ := bind_apply_eq_ok.mp h
  obtain ⟨hold, rfl⟩ := read_eq_ok.mp hinventory
  obtain ⟨⟨⟩, t₁, hremoved, h⟩ := bind_apply_eq_ok.mp h
  obtain ⟨⟨⟩, t₂, hmissing, h⟩ := bind_apply_eq_ok.mp h
  -- rows the heartbeat leaves out are deactivated first
  have hremove : t₂ = { view := remove old heartbeat.inventory.benches s.view
                        current := remove old heartbeat.inventory.benches s.current } := by
    have hremoved := setBenches_eq_ok hremoved
    subst hremoved
    exact setSites_eq_ok hmissing
  obtain ⟨⟨⟩, t₃, hreport, h⟩ := bind_apply_eq_ok.mp h
  -- then what it reports is written, bench by bench
  have hreport : Report (heartbeat.inventory.benches.flatMap fun bench => [benchClaim agent bench])
      (heartbeat.inventory.benches.flatMap (siteClaims agent)) t₂ t₃ :=
    Report.forEach (fun hx => upsertBench_eq_ok hx) hreport
  rw [← List.map_eq_flatMap, hremove] at hreport
  rw [write_eq_ok] at h
  refine ⟨agent, old, hlock, hold, hbenches, hsites, t₃, hreport, ?_⟩
  rw [h, hreport.current]
  rfl

/-- The checks of `reconcile` write nothing. -/
theorem checks_eq_ok {agentId : String} {benches : List BenchSnapshot} {u : Unit}
    (h : Transaction.forEach (fun bench => do
      checkBenchOwner (repository R) agentId bench.benchId
      Transaction.forEach (fun site =>
        checkSiteOwner (repository R) agentId bench.benchId site.domain) bench.sites) benches s =
      .ok u s') : s = s' := by
  refine (forEach_eq_ok (P := fun _ => True) ?_ h).1
  intro bench u t hbench
  obtain ⟨⟨⟩, t', howner, hsites⟩ := bind_apply_eq_ok.mp hbench
  have howner : checkBenchOwner (owners R) agentId bench.benchId s = .ok () t' := howner
  obtain ⟨rfl, -⟩ := checkBenchOwner_eq_ok howner
  have hsites : Transaction.forEach (fun site =>
    checkSiteOwner (owners R) agentId bench.benchId site.domain) bench.sites s = .ok u t := hsites
  exact ⟨(forEach_eq_ok (fun hx => checkSiteOwner_eq_ok hx) hsites).1, trivial⟩

theorem heartbeat_eq_ok {agentId : String} {state : Json} {observedAt : DateTime}
    {delta : InventoryDelta} (h : heartbeat R agentId state observedAt s = .ok delta s') :
    ∃ agent heartbeat old,
      Accepted R agentId state observedAt s.view s.current s'.current agent heartbeat old := by
  obtain ⟨_, t, hrecord, h⟩ := bind_apply_eq_ok.mp h
  obtain ⟨-, rfl⟩ := query_eq_ok.mp hrecord
  obtain ⟨agentId', t, htext, h⟩ := bind_apply_eq_ok.mp h
  obtain ⟨hid, rfl⟩ := query_eq_ok.mp htext
  cases (text_eq_ok.mp hid).1
  obtain ⟨_, t, hagent, h⟩ := bind_apply_eq_ok.mp h
  obtain ⟨-, rfl⟩ := query_eq_ok.mp hagent
  obtain ⟨heartbeat, t, hstate, h⟩ := bind_apply_eq_ok.mp h
  obtain ⟨hparse, rfl⟩ := query_eq_ok.mp hstate
  obtain ⟨previous, t, hinventory, h⟩ := bind_apply_eq_ok.mp h
  obtain ⟨hprevious, rfl⟩ :=
    (read_eq_ok (f := fun db => currentInventory R db agentId)).mp hinventory
  obtain ⟨⟨⟩, t, hchecks, h⟩ := bind_apply_eq_ok.mp h
  -- the checks read only
  have hcheck := checks_eq_ok hchecks
  subst hcheck
  obtain ⟨⟨⟩, t', hreplace, h⟩ := bind_apply_eq_ok.mp h
  cases h
  obtain ⟨agent, old, hlock, hold, hbenches, hsites, hwritten⟩ := replaceInventory_eq_ok hreplace
  obtain ⟨hlocked, henabled, hdigest, hrevision⟩ := lockAgent_eq_ok hlock
  -- the inventory read before the lock is the one read after it
  cases hprevious.symm.trans hold
  rw [← hrevision] at hwritten
  refine ⟨agent, heartbeat, previous, hparse, hlocked, henabled, hold, hdigest, ?_, hbenches,
    hsites, hwritten⟩
  -- the revision follows the previous one, or is the first
  cases previous with
  | none => exact Nat.succ.inj hrevision
  | some previous => exact Nat.succ.inj hrevision

end FrappeInventory

end FrappeController
