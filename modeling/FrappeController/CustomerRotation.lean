import FrappeController.CustomerSites
import FrappeController.DispatcherTheorems
import FrappeController.Library.Rotation
import FrappeController.OperationAuthoringTheorems
import Mathlib.Data.String.Basic

/-!
# The scheduled reconciliation of Customers

`reconcile_customer_sites` checks a batch of the Customers whose site may be linked, and keeps the
name it has come to in the cache. The candidates of a run instantiate `Rotation`: whatever the
cursor is at first, a Customer that stays a candidate is checked within two sweeps.
-/

namespace FrappeController
namespace CustomerSites

open FrappeInventory (Session read read_eq_ok readForUpdate_eq_ok)
open Transaction (bind_apply_eq_ok)

/-- The order of the names in the database; `""` is before every name. -/
structure Collation where
  order : LinearOrder String
  empty_lt : ∀ name : String, name ≠ "" → order.lt "" name

/-- `_RECONCILE_BATCH_SIZE` -/
def reconcileBatchSize : ℕ := 100

variable (R : Runtime) (C : Collation)

/-- The rows the query joins: a succeeded creation, and the site the inventory shows for it. -/
def isCandidate (db : Database) (customer : Customer) : Bool :=
  !truthy customer.managedSite
    && match customer.siteCreationOperation.bind db.operation? with
      | none => false
      | some operation =>
        operation.operationType == "site.create_blank" && operation.state == .succeeded
          && match payloadDomain R operation.payloadJson with
            | .ok (some domain) => db.sites.any fun site =>
              site.domain == domain && site.serverAgent == operation.serverAgent
                && site.bench == operation.bench
                && (site.status == .active || site.status == .maintenance)
                && site.inventoryUpdatedAt.isSome
            | _ => false

/-- The names of the candidates. -/
def candidates (db : Database) : List String :=
  (db.customers.filter (isCandidate R db)).map (·.name)

/-- `... AND c.name > %s ORDER BY c.name LIMIT %s` -/
def reconcileBatch (cursor : String) (db : Database) : List String :=
  @Rotation.batch String C.order reconcileBatchSize (candidates R db) cursor

/-- `candidates[-1].name if len(candidates) == _RECONCILE_BATCH_SIZE else ""` -/
def nextCursor (batch : List String) : String :=
  if batch.length = reconcileBatchSize then batch.getLast?.getD "" else ""

/-- One check of the loop. -/
def reconcileEach (now : DateTime) (customer : String) : EStateM Exc Session Unit := do
  let _ ← reconcileCustomerSite R customer now

/-- `reconcile_customer_sites`, from the value of the cache to its next one. -/
def reconcileCustomerSites (now : DateTime) (cached : Option String) :
    EStateM Exc Session String := do
  let batch ← read fun db => .ok (reconcileBatch R C ((orNone cached).getD "") db)
  Transaction.forEach (reconcileEach R now) batch
  return nextCursor batch

/-! ## Runs -/

/-- A run of the job: the value of the cache, and the transaction it begins. -/
structure SweepRun where
  now : DateTime
  cached : Option String
  session : Session

/-- The cursor of a run. -/
def SweepRun.cursor (run : SweepRun) : String := (orNone run.cached).getD ""

variable {R C}

/-- The loop came to the Customer and checked it. -/
def SweepRun.Checks (R : Runtime) (C : Collation) (run : SweepRun) (customer : String) : Prop :=
  ∃ (before after : List String) (s s' : Session) (linked : Bool),
    reconcileBatch R C run.cursor run.session.view = before ++ customer :: after
      ∧ Transaction.forEach (reconcileEach R run.now) before run.session = .ok () s
      ∧ reconcileCustomerSite R customer run.now s = .ok linked s'

/-- Consecutive runs, none of which raises. Between two of them other transactions may commit
anything that adds no candidate; the cache keeps what a run wrote. -/
structure Sweeps (R : Runtime) (C : Collation) (runs : ℕ) (run : ℕ → SweepRun) : Prop where
  named : ∀ i < runs, ∀ customer ∈ (run i).session.view.customers, customer.name ≠ ""
  unique : ∀ i < runs, ((run i).session.view.customers.map (·.name)).Nodup
  leave : ∀ i, i + 1 < runs →
    candidates R (run (i + 1)).session.view ⊆ candidates R (run i).session.view
  answered : ∀ i < runs, ∃ next s',
    reconcileCustomerSites R C (run i).now (run i).cached (run i).session = .ok next s'
      ∧ (i + 1 < runs → (run (i + 1)).cached = some next)

/-- A loop that ends came to every element. -/
theorem forEach_reaches {ε σ α : Type} {f : α → EStateM ε σ Unit} {xs : List α} {s s' : σ}
    (h : Transaction.forEach f xs s = .ok () s') {x : α} (hx : x ∈ xs) :
    ∃ before after t t', xs = before ++ x :: after
      ∧ Transaction.forEach f before s = .ok () t ∧ f x t = .ok () t' := by
  induction xs generalizing s with
  | nil => cases hx
  | cons y rest ih =>
    obtain ⟨⟨⟩, t, hy, hrest⟩ := bind_apply_eq_ok.mp h
    rcases List.mem_cons.mp hx with rfl | hx
    · exact ⟨[], rest, s, t, rfl, rfl, hy⟩
    · obtain ⟨before, after, u, u', hsplit, hbefore, hfound⟩ := ih hrest hx
      refine ⟨y :: before, after, u, u', ?_, ?_, hfound⟩
      · rw [hsplit]
        rfl
      · exact bind_apply_eq_ok.mpr ⟨(), t, hy, hbefore⟩

theorem reconcileCustomerSites_eq_ok {now : DateTime} {cached : Option String} {next : String}
    {s s' : Session} (h : reconcileCustomerSites R C now cached s = .ok next s') :
    next = nextCursor (reconcileBatch R C ((orNone cached).getD "") s.view)
      ∧ Transaction.forEach (reconcileEach R now)
        (reconcileBatch R C ((orNone cached).getD "") s.view) s = .ok () s' := by
  obtain ⟨batch, t, hread, h⟩ := bind_apply_eq_ok.mp h
  obtain ⟨hbatch, rfl⟩ := read_eq_ok.mp hread
  obtain ⟨⟨⟩, t, hloop, h⟩ := bind_apply_eq_ok.mp h
  cases hbatch
  cases h
  exact ⟨rfl, hloop⟩

/-- Every name of the batch of a run that does not raise is checked. -/
theorem checks_of_mem {run : SweepRun} {next : String} {s' : Session} {customer : String}
    (h : reconcileCustomerSites R C run.now run.cached run.session = .ok next s')
    (hmem : customer ∈ reconcileBatch R C run.cursor run.session.view) : run.Checks R C customer := by
  obtain ⟨-, hloop⟩ := reconcileCustomerSites_eq_ok h
  obtain ⟨before, after, t, t', hsplit, hbefore, hcheck⟩ := forEach_reaches hloop hmem
  obtain ⟨linked, u, hlinked, -⟩ := bind_apply_eq_ok.mp hcheck
  exact ⟨before, after, t, u, linked, hsplit, hbefore, hlinked⟩

theorem cursor_of_cached {run : SweepRun} {next : String} (h : run.cached = some next) :
    run.cursor = next := by
  rw [SweepRun.cursor, h]
  by_cases hempty : next = ""
  · rw [hempty]
    rfl
  · rw [orNone, Option.filter_some, if_pos (by simpa using hempty), Option.getD_some]

/-- The runs of the job rotate through the candidates. -/
theorem Sweeps.rotates {runs : ℕ} {run : ℕ → SweepRun} (h : Sweeps R C runs run) :
    @Rotation.Rotates String C.order reconcileBatchSize "" runs
      (fun i => candidates R (run i).session.view) fun i => (run i).cursor := by
  let _ := C.order
  refine ⟨by decide, ?_, ?_, h.leave, ?_⟩
  · intro i hi
    exact (h.unique i hi).sublist (List.filter_sublist.map _)
  · intro i hi name hname
    obtain ⟨customer, hcustomer, rfl⟩ := List.mem_map.mp hname
    exact C.empty_lt _ (h.named i hi customer (List.mem_filter.mp hcustomer).1)
  · intro i hi
    -- the cursor a run leaves is the cursor the next one reads
    obtain ⟨next, s', hanswer, hkept⟩ := h.answered i (by omega)
    obtain ⟨hnext, -⟩ := reconcileCustomerSites_eq_ok hanswer
    have hcursor : (run (i + 1)).cursor = next := cursor_of_cached (hkept hi)
    show (run (i + 1)).cursor = _
    rw [hcursor, hnext]
    rfl

/-- A Customer that stays a candidate is checked within two sweeps. -/
theorem customers_rotate (R : Runtime) (C : Collation) (n : ℕ) (run : ℕ → SweepRun)
    (hn : (candidates R (run 0).session.view).length = n)
    (hruns : Sweeps R C (2 * (n / 100 + 1)) run) (customer : String)
    (hstays : ∀ i < 2 * (n / 100 + 1), customer ∈ candidates R (run i).session.view) :
    ∃ i < 2 * (n / 100 + 1), (run i).Checks R C customer := by
  let _ := C.order
  obtain ⟨i, hi, htaken⟩ := Rotation.Rotates.taken_within hn.le hruns.rotates hstays
  obtain ⟨next, s', hanswer, -⟩ := hruns.answered i hi
  exact ⟨i, hi, checks_of_mem hanswer htaken⟩

/-! ## A sample -/

namespace Sample

/-- The order of the code points. -/
def codePoints : Collation where
  order := inferInstance
  empty_lt := by
    intro name hname
    show "" < name
    rw [String.lt_iff_toList_lt]
    cases hchars : name.toList with
    | nil => exact absurd (String.toList_injective hchars) hname
    | cons c rest => exact List.nil_lt_cons c rest

def payloadJson : Text := "\x7b\"domain\":\"one.example\"\x7d".toList

def runtime : Runtime :=
  Dispatcher.Sample.runtime [] [(payloadJson, .obj [("domain", .str "one.example")])]

/-- The names of the Customers, each before the next. -/
def name (i : ℕ) : String := String.ofList (List.replicate (i + 1) 'c')

def customer (i : ℕ) : Customer where
  name := name i
  managedSite := none
  siteCreationOperation := some Dispatcher.Sample.operationId
  modified := Dispatcher.Sample.now

/-- A creation that has succeeded, whose site is not ready to be handed over, and one Customer
more than a batch takes. -/
def database : Database :=
  { Dispatcher.Sample.database with
    operations := [{ Dispatcher.Sample.operation with
      operationType := "site.create_blank", state := .succeeded, payloadJson }]
    sites := [{ Dispatcher.Sample.site with
      status := .active, inventoryUpdatedAt := some Dispatcher.Sample.now }]
    customers := (List.range 101).map customer }

/-- The first run finds the cursor at the last Customer, and each later one what the run before it
left. -/
def cursor : ℕ → String
  | 0 => name 100
  | i + 1 => nextCursor (reconcileBatch runtime codePoints ((orNone (some (cursor i))).getD "") database)

def run (i : ℕ) : SweepRun where
  now := Dispatcher.Sample.now
  cached := some (cursor i)
  session := ⟨database, database⟩

theorem name_injective : Function.Injective name := by
  intro i j h
  have hlength := congrArg List.length (String.ofList_injective h)
  rw [List.length_replicate, List.length_replicate] at hlength
  omega

theorem names_nodup : (database.customers.map (·.name)).Nodup := by
  show (((List.range 101).map customer).map (·.name)).Nodup
  rw [List.map_map]
  exact List.nodup_range.map name_injective

theorem name_ne_empty (i : ℕ) : name i ≠ "" := by
  intro h
  have hempty : List.replicate (i + 1) 'c' = [] := String.ofList_injective h
  cases hempty

theorem candidates_database : candidates runtime database = (List.range 101).map name := by
  have hall : ∀ c ∈ database.customers, isCandidate runtime database c = true := by
    intro c hc
    obtain ⟨i, -, rfl⟩ := List.mem_map.mp hc
    with_unfolding_all rfl
  rw [candidates, List.filter_eq_self.mpr hall]
  show ((List.range 101).map customer).map (·.name) = _
  rw [List.map_map]
  rfl

/-- From the start of a sweep, a run takes a full batch. -/
theorem full_batch :
    (reconcileBatch runtime codePoints "" database).length = reconcileBatchSize := by
  have hall : ∀ x ∈ (List.range 101).map name, decide ("" < x) = true := by
    intro x hx
    obtain ⟨i, -, rfl⟩ := List.mem_map.mp hx
    exact decide_eq_true (codePoints.empty_lt _ (name_ne_empty i))
  show (((candidates runtime database).filter fun x => decide ("" < x)).insertionSort (· ≤ ·)
    |>.take reconcileBatchSize).length = _
  rw [candidates_database, List.filter_eq_self.mpr hall, List.length_take, List.length_insertionSort,
    List.length_map, List.length_range]
  rfl

/-- The check of a Customer whose site is not ready changes nothing. -/
theorem checked {c : Customer} (hc : c ∈ database.customers) :
    reconcileCustomerSite runtime c.name Dispatcher.Sample.now ⟨database, database⟩ =
      .ok false ⟨database, database⟩ := by
  have hrow : Table.get? database.customers c.name = some c := Table.get?_of_mem names_nodup hc
  have hlock : lockCustomer c.name ⟨database, database⟩ = .ok c ⟨database, database⟩ := by
    refine bind_apply_eq_ok.mpr ⟨(), _, readForUpdate_eq_ok.mpr ⟨?_, rfl⟩, getDoc_of_some hrow⟩
    rw [hrow]
    rfl
  refine bind_apply_eq_ok.mpr ⟨c, _, hlock, ?_⟩
  obtain ⟨i, -, rfl⟩ := List.mem_map.mp hc
  with_unfolding_all rfl

theorem answers (i : ℕ) : reconcileCustomerSites runtime codePoints (run i).now (run i).cached
    (run i).session = .ok (cursor (i + 1)) ⟨database, database⟩ := by
  -- no site of the batch changes the database
  have hloop : ∀ batch : List String, (∀ n ∈ batch, n ∈ database.customers.map (·.name)) →
      Transaction.forEach (reconcileEach runtime Dispatcher.Sample.now) batch
        (⟨database, database⟩ : Session) = .ok () ⟨database, database⟩ := by
    intro batch hbatch
    induction batch with
    | nil => rfl
    | cons n rest ih =>
      rw [List.forall_mem_cons] at hbatch
      obtain ⟨c, hc, rfl⟩ := List.mem_map.mp hbatch.1
      refine bind_apply_eq_ok.mpr ⟨(), _, ?_, ih hbatch.2⟩
      exact bind_apply_eq_ok.mpr ⟨false, _, checked hc, rfl⟩
  refine bind_apply_eq_ok.mpr ⟨_, _, read_eq_ok.mpr ⟨rfl, rfl⟩, ?_⟩
  refine bind_apply_eq_ok.mpr ⟨(), _, hloop _ fun n hn => ?_, rfl⟩
  -- the batch is taken from the candidates
  have hcandidate := (@Rotation.mem_of_mem_batch String codePoints.order _ _ _ _ hn).1
  exact (List.filter_sublist.map _).subset hcandidate

theorem sweeps (runs : ℕ) : Sweeps runtime codePoints runs run where
  named := by
    intro i _ c hc
    obtain ⟨j, -, rfl⟩ := List.mem_map.mp hc
    exact name_ne_empty j
  unique := fun i _ => names_nodup
  leave := fun i _ => List.Subset.refl _
  answered := fun i _ => ⟨cursor (i + 1), _, answers i, fun _ => rfl⟩

end Sample

/-- A sweep over the Customers takes two runs; the last of them is checked. -/
theorem customers_rotate_sample :
    (reconcileBatch Sample.runtime Sample.codePoints "" Sample.database).length
        = reconcileBatchSize ∧
      ∃ i < 2 * (101 / 100 + 1),
        (Sample.run i).Checks Sample.runtime Sample.codePoints (Sample.name 100) := by
  have hlength : (candidates Sample.runtime (Sample.run 0).session.view).length = 101 := by
    show (candidates Sample.runtime Sample.database).length = 101
    rw [Sample.candidates_database, List.length_map, List.length_range]
  refine ⟨Sample.full_batch, ?_⟩
  apply customers_rotate Sample.runtime Sample.codePoints 101 Sample.run hlength (Sample.sweeps _)
  intro i _
  show Sample.name 100 ∈ candidates Sample.runtime Sample.database
  rw [Sample.candidates_database]
  exact List.mem_map_of_mem (List.mem_range.mpr (by decide))

end CustomerSites

end FrappeController
