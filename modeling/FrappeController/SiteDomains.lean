import FrappeController.InventoryProjection
import FrappeController.LifecycleAuthoringTheorems

/-!
# Domains a Managed Site can store

The heartbeat parser and the lifecycle normalizer accept the same names (`Inventory.isDomain`). A
Managed Site takes those of them whose top-level label is alphabetic and which fit its columns of
140 characters (`fits`). A heartbeat that reports a new site of any other name is rejected as a
whole, as is one whose new site has the domain of another row.
-/

namespace FrappeController
namespace SiteDomains

open FrappeInventory
open Inventory (isDomain isLabel parseSite parseHeartbeatState)
open Transaction (Triple bind_eq_error bind_apply_eq_ok query_eq_ok)

/-- A top-level label of two or more letters. -/
def alphabeticTop (domain : String) : Bool :=
  let top := (domain.toList.splitOn '.').getLast?.getD []
  top.all Ingestion.isLower && 2 ≤ top.length

/-- What `ManagedSite.validate` says of a domain it does not take. -/
def notFqdn : Exc := .validation "Domain must be a normalized FQDN"

variable {R : Runtime}

/-! ## The two grammars -/

/-- The labels before the last are the same in both grammars, and so are the lengths. -/
theorem isFqdn_eq {domain : String} (h : isDomain domain = true) :
    isFqdn domain = alphabeticTop domain := by
  simp only [isDomain, Bool.and_eq_true, decide_eq_true_eq] at h
  have hlabels := h.2
  have hnonempty : domain.toList.splitOn '.' ≠ [] := by
    intro hnil
    have hcount := h.1.2
    rw [hnil] at hcount
    exact absurd hcount (by decide)
  have htop : isLabel ((domain.toList.splitOn '.').getLast?.getD []) = true := by
    rw [List.getLast?_eq_getLast_of_ne_nil hnonempty, Option.getD_some]
    exact List.all_eq_true.mp hlabels _ (List.getLast_mem hnonempty)
  have hshort : ((domain.toList.splitOn '.').getLast?.getD []).length ≤ 63 := by
    simp only [isLabel, Bool.and_eq_true, decide_eq_true_eq] at htop
    exact htop.2
  have hinit : (domain.toList.splitOn '.').dropLast.all isLabel = true := by
    refine List.all_eq_true.mpr fun label hlabel => ?_
    exact List.all_eq_true.mp hlabels label (List.dropLast_subset _ hlabel)
  simp only [isFqdn, alphabeticTop, hinit, h.1.1, h.1.2, hshort, decide_true, Bool.and_true,
    Bool.true_and]

/-- A legal lower-case name is normalized. -/
theorem normalizedDomain_eq {domain : String} (h : isDomain domain = true)
    (hlower : R.lower domain = domain) : normalizedDomain R domain = domain := by
  have hlast := LifecycleAuthoring.getLast?_domain h
  have hpoint : domain.toList.reverse.dropWhile (· == '.') = domain.toList.reverse := by
    cases hrev : domain.toList.reverse with
    | nil => rfl
    | cons c rest =>
      have hc : (c == '.') = false := by
        apply beq_false_of_ne
        intro hdot
        apply hlast
        rw [← List.head?_reverse, hrev, hdot]
        rfl
      rw [List.dropWhile_cons, hc, if_neg Bool.false_ne_true]
  rw [normalizedDomain, hlower, hpoint, List.reverse_reverse, String.ofList_toList]

/-! ## Errors about a domain -/

/-- Raised where a Managed Site cannot hold a domain: `validate` takes it for no FQDN, or it is
longer than the columns it goes to. -/
def unstorable : Exc → Bool
  | .validation message => message == "Domain must be a normalized FQDN"
  | .characterLengthExceeded field => field == "site_id" || field == "domain"
  | _ => false

/-- Raised where another Managed Site has the name, the site id or the domain. -/
def taken : Exc → Bool
  | .duplicateEntry message => startsWith message "Managed Site "
  | _ => false

/-- The error is about no domain. -/
def Quiet (e : Exc) : Prop := unstorable e = false ∧ taken e = false

/-- A domain a new Managed Site can hold. -/
def fits (domain : String) : Bool := alphabeticTop domain && domain.length ≤ 140

/-! ## Saving a site -/

/-- The two errors of a malformed list. -/
theorem requireJsonList_eq_error {value : Option Text} {field : String} {e : Exc}
    (h : requireJsonList R value field = .error e) :
    e = .validation (field ++ " must contain valid JSON")
      ∨ e = .validation (field ++ " has the wrong JSON shape") := by
  unfold requireJsonList at h
  split at h
  · exact .inl (Except.error.inj h).symm
  · cases h
  · exact .inr (Except.error.inj h).symm

/-- A malformed list is no error about a domain. -/
theorem quiet_requireJsonList {value : Option Text} {field : String} {e : Exc}
    (hinvalid : unstorable (.validation (field ++ " must contain valid JSON")) = false)
    (hshape : unstorable (.validation (field ++ " has the wrong JSON shape")) = false)
    (h : requireJsonList R value field = .error e) : Quiet e := by
  rcases requireJsonList_eq_error h with rfl | rfl
  · exact ⟨hinvalid, rfl⟩
  · exact ⟨hshape, rfl⟩

/-- A check raises its own error. -/
theorem ensure_eq_error {condition : Bool} {e e' : Exc} :
    ensure condition e = .error e' ↔ condition = false ∧ e = e' := by
  cases condition <;> simp [ensure]

/-- The other checks of a Managed Site have messages of their own. -/
theorem validateSite_error {db : Database} {row : ManagedSite} {e : Exc}
    (h : validateSite R db row = .error e) :
    e = notFqdn ∧ (normalizedDomain R row.domain == row.domain && isFqdn row.domain) = false
      ∨ Quiet e := by
  simp only [validateSite, bind_eq_error] at h
  rcases h with h | ⟨_, -, h | ⟨_, -, h | ⟨_, -, h | ⟨_, -, h⟩⟩⟩⟩
  · obtain ⟨hdomain, rfl⟩ := ensure_eq_error.mp h
    exact .inl ⟨rfl, hdomain⟩
  · exact .inr (quiet_requireJsonList (by decide) (by decide) h)
  · exact .inr (quiet_requireJsonList (by decide) (by decide) h)
  · obtain ⟨-, rfl⟩ := ensure_eq_error.mp h
    exact .inr ⟨by decide, rfl⟩
  · simp only [requireLinkValue] at h
    split at h
    · cases h
    · cases h
      exact .inr ⟨by decide, rfl⟩

/-- A site is refused for its domain exactly where the domain is not normalized or no FQDN. -/
theorem validateSite_eq_notFqdn {db : Database} {row : ManagedSite} :
    validateSite R db row = .error notFqdn ↔
      (normalizedDomain R row.domain == row.domain && isFqdn row.domain) = false := by
  constructor
  · intro h
    rcases validateSite_error h with ⟨-, hdomain⟩ | ⟨hquiet, -⟩
    · exact hdomain
    · cases hquiet
  · intro h
    rw [validateSite, h]
    rfl

/-- A row of an accepted name is refused for its domain exactly if its top-level label is not
alphabetic. -/
theorem refused_iff {domain : String} (h : isDomain domain = true)
    (hlower : R.lower domain = domain) (db : Database) {row : ManagedSite}
    (hrow : row.domain = domain) :
    validateSite R db row = .error notFqdn ↔ alphabeticTop domain = false := by
  rw [validateSite_eq_notFqdn, hrow, normalizedDomain_eq h hlower, isFqdn_eq h, beq_self_eq_true,
    Bool.true_and]

/-- Frappe refuses a row named by its domain exactly if the domain is longer than its columns. -/
theorem checkLengths_iff {row : ManagedSite} (hsite : row.siteId = row.domain) :
    (∀ e, checkLengths row = .error e → unstorable e = false) ↔ row.domain.length ≤ 140 := by
  constructor
  · intro h
    by_contra hlong
    have hrefused : checkLengths row = .error (.characterLengthExceeded "site_id") := by
      have hfirst : checkLength "site_id" row.siteId =
          .error (.characterLengthExceeded "site_id") := by
        rw [checkLength, hsite, ensure_eq_error]
        exact ⟨decide_eq_false hlong, rfl⟩
      rw [checkLengths, hfirst]
      rfl
    exact absurd (h _ hrefused) (by decide)
  · intro hshort e h
    have hcolumn : ∀ field, checkLength field row.domain = .ok () := by
      intro field
      rw [checkLength, ensure_eq_ok, decide_eq_true_eq]
      exact hshort
    rw [checkLengths, hsite, hcolumn, hcolumn] at h
    obtain ⟨-, rfl⟩ := ensure_eq_error.mp h
    rfl

/-- A value that is too long is no duplicate. -/
theorem taken_checkLengths {row : ManagedSite} {e : Exc} (h : checkLengths row = .error e) :
    taken e = false := by
  simp only [checkLengths, checkLength, bind_eq_error, ensure_eq_error] at h
  rcases h with ⟨-, rfl⟩ | ⟨_, -, ⟨-, rfl⟩ | ⟨_, -, -, rfl⟩⟩ <;> rfl

/-- A name the heartbeat parser accepted. -/
structure Parsed (R : Runtime) (domain : String) : Prop where
  legal : isDomain domain = true
  lower : R.lower domain = domain

/-- The domain of a parsed site was accepted by the parser. -/
theorem parsed_of_valid {site : SiteSnapshot} (h : Inventory.ValidSite R site) :
    Parsed R site.domain := by
  have hdomain := h.domain
  rw [Bool.and_eq_true, beq_iff_eq] at hdomain
  exact ⟨hdomain.2, hdomain.1.symm⟩

/-! ## The rows of the sites during a heartbeat -/

/-- The table has a row of the domain, or can be given one. -/
def Storable (table : List ManagedSite) (domain : String) : Prop :=
  (Table.get? table domain).isSome = true ∨ fits domain = true

/-- The row has that name, that site id or that domain. -/
def UsesRow (row : ManagedSite) (domain : String) : Prop :=
  row.name = domain ∨ row.siteId = domain ∨ row.domain = domain

/-- Some row of the table uses the domain. -/
def Uses (table : List ManagedSite) (domain : String) : Prop := ∃ row ∈ table, UsesRow row domain

/-- The heartbeat finds a row of the domain, or no committed row uses it. -/
def Available (view current : List ManagedSite) (domain : String) : Prop :=
  (Table.get? view domain).isSome = true ∨ ¬ Uses current domain

/-- The rows are those of the table before, and new ones of domains a row can store. -/
structure Grown (old new : List ManagedSite) : Prop where
  kept : ∀ name, (Table.get? old name).isSome = true → (Table.get? new name).isSome = true
  added : ∀ name, (Table.get? new name).isSome = true → Storable old name

/-- A table has grown from itself. -/
theorem Grown.refl (table : List ManagedSite) : Grown table table :=
  ⟨fun _ h => h, fun _ h => .inl h⟩

/-- The names of the rows decide which of them are there. -/
theorem isSome_get? {table : List ManagedSite} {name : String} :
    (Table.get? table name).isSome = true ↔ name ∈ table.map Named.name := by
  rw [Table.get?, List.find?_isSome, List.mem_map]
  simp only [beq_iff_eq]

/-- Rewriting columns lets a table grow no row and lose none. -/
theorem Grown.of_names {old new new' : List ManagedSite} (h : Grown old new)
    (hnames : new'.map Named.name = new.map Named.name) : Grown old new' := by
  have hsame : ∀ name, (Table.get? new' name).isSome = true
      ↔ (Table.get? new name).isSome = true := by
    intro name
    rw [isSome_get?, isSome_get?, hnames]
  exact ⟨fun name hold => (hsame name).mpr (h.kept name hold),
    fun name hnew => h.added name ((hsame name).mp hnew)⟩

/-- A row whose domain fits lets the table grow. -/
theorem Grown.append {old new : List ManagedSite} (h : Grown old new) {row : ManagedSite}
    (hrow : fits (Named.name row) = true) : Grown old (new ++ [row]) := by
  refine ⟨fun name hold => ?_, fun name hnew => ?_⟩
  · rw [isSome_get?, List.map_append]
    exact List.mem_append_left _ (isSome_get?.mp (h.kept name hold))
  · rw [isSome_get?, List.map_append] at hnew
    rcases List.mem_append.mp hnew with hnew | hnew
    · exact h.added name (isSome_get?.mpr hnew)
    · have heq : name = Named.name row := List.mem_singleton.mp hnew
      exact .inr (heq ▸ hrow)

/-! ## A heartbeat -/

section Heartbeat

variable {agent : ServerAgent} {status : ReportedStatus} {observedAt : DateTime} {s₀ : Session}
  {pending : List String} {bad duplicate : Prop}

/-- Since the heartbeat began the tables have grown, and no row has come to use one of the domains
that are still to be written. -/
structure During (s₀ : Session) (pending : List String) (s : Session) : Prop where
  nodup : pending.Nodup
  grown : Grown s₀.view.sites s.view.sites
  unused : ∀ domain ∈ pending, Uses s.current.sites domain → Uses s₀.current.sites domain

/-- A step raises an error about a domain only for a reason. -/
def Only (bad duplicate : Prop) (e : Exc) (_ : Session) : Prop :=
  (unstorable e = true → bad) ∧ (taken e = true → duplicate)

/-- An error about no domain needs no reason. -/
theorem only_of_quiet {e : Exc} {s : Session} (h : Quiet e) : Only bad duplicate e s :=
  ⟨fun hbad => absurd (h.1.symm.trans hbad) Bool.false_ne_true,
    fun htaken => absurd (h.2.symm.trans htaken) Bool.false_ne_true⟩

/-- A reason may be weakened. -/
theorem Only.mono {bad' duplicate' : Prop} (hbad : bad → bad')
    (hduplicate : duplicate → duplicate') {e : Exc} {s : Session} (h : Only bad duplicate e s) :
    Only bad' duplicate' e s :=
  ⟨fun he => hbad (h.1 he), fun he => hduplicate (h.2 he)⟩

/-- Rewriting the rows of one name keeps the tables grown if the new columns use no domain that is
still to come. -/
theorem During.set {s : Session} (h : During s₀ pending s) {f : ManagedSite → ManagedSite}
    (hname : ∀ row, Named.name (f row) = Named.name row)
    (huses : ∀ row, ∀ domain ∈ pending, UsesRow (f row) domain → UsesRow row domain)
    (name : String) :
    During s₀ pending
      { view := { s.view with sites := Table.setValue name f s.view.sites }
        current := { s.current with sites := Table.setValue name f s.current.sites } } := by
  refine ⟨h.nodup, h.grown.of_names (Table.map_update _ _ hname s.view.sites), ?_⟩
  rintro domain hdomain ⟨row, hrow, hused⟩
  obtain ⟨before, hbefore, rfl⟩ := (Table.mem_update _ _).mp hrow
  refine h.unused domain hdomain ⟨before, hbefore, ?_⟩
  split at hused
  · exact huses before domain hdomain hused
  · exact hused

/-- Rewriting site rows keeps the tables grown where the new columns use no domain to come. -/
theorem setSites_during {names : List String} {f : ManagedSite → ManagedSite}
    (hname : ∀ row, Named.name (f row) = Named.name row)
    (huses : ∀ row, ∀ domain ∈ pending, UsesRow (f row) domain → UsesRow row domain) :
    Triple (During s₀ pending) (setSites names f) (fun _ => During s₀ pending)
      (Only bad duplicate) := by
  refine Triple.forEach (I := fun _ => During s₀ pending) (fun name rest => ?_) names
  exact Triple.modify fun _ hs => hs.set hname huses name

/-- Rewriting bench rows leaves the sites as they are. -/
theorem setBenches_during {names : List String} {f : Bench → Bench} :
    Triple (During s₀ pending) (setBenches names f) (fun _ => During s₀ pending)
      (Only bad duplicate) := by
  refine Triple.forEach (I := fun _ => During s₀ pending) (fun name rest => ?_) names
  exact Triple.modify fun _ hs => ⟨hs.nodup, hs.grown, hs.unused⟩

/-- A read that raises something else. -/
theorem query_during {α : Type} {f : Session → Except Exc α} {P : Session → Prop}
    (hquiet : ∀ s e, f s = .error e → Quiet e) :
    Triple P (Transaction.query f) (fun a s => P s ∧ f s = .ok a) (Only bad duplicate) :=
  Triple.query (fun _ _ hs ha => ⟨hs, ha⟩) fun s e _ he => only_of_quiet (hquiet s e he)

/-- A plain read keeps the tables, and its errors are about no domain. -/
theorem read_during {α : Type} {f : Database → Except Exc α} {P : Session → Prop}
    (hquiet : ∀ db e, f db = .error e → Quiet e) :
    Triple P (read f) (fun a s => P s ∧ f s.view = .ok a) (Only bad duplicate) :=
  query_during fun s => hquiet s.view

/-- A locking read keeps the tables, and its errors are about no domain. -/
theorem readForUpdate_during {α : Type} {f : Database → Except Exc α} {P : Session → Prop}
    (hquiet : ∀ db e, f db = .error e → Quiet e) :
    Triple P (readForUpdate f) (fun a s => P s ∧ f s.current = .ok a) (Only bad duplicate) :=
  query_during fun s => hquiet s.current

/-- A read that does not raise. -/
theorem readOk_during {α : Type} {g : Database → α} {P : Session → Prop} :
    Triple P (read fun db => .ok (g db)) (fun _ => P) (Only bad duplicate) :=
  Triple.query (fun _ _ hs _ => hs) fun _ _ _ he => by cases he

/-- The checks of a bench are about no domain. -/
theorem quiet_validateBench {db : Database} {bench : Bench} {e : Exc}
    (h : validateBench R db bench = .error e) : Quiet e := by
  simp only [validateBench, bind_eq_error] at h
  rcases h with h | ⟨_, -, h | ⟨_, -, h⟩⟩
  · exact quiet_requireJsonList (by decide) (by decide) h
  · exact quiet_requireJsonList (by decide) (by decide) h
  · obtain ⟨-, rfl⟩ := ensure_eq_error.mp h
    exact ⟨by decide, rfl⟩

/-- A new bench leaves the sites as they are. -/
theorem insertBench_during {bench : Bench} :
    Triple (During s₀ pending) (insertBench R bench) (fun _ => During s₀ pending)
      (Only bad duplicate) := by
  refine Triple.bind (read_during fun db e => quiet_validateBench) fun _ => ?_
  refine Triple.bind (readForUpdate_during fun db e he => ?_) fun _ => ?_
  · obtain ⟨-, rfl⟩ := ensure_eq_error.mp he
    refine ⟨rfl, ?_⟩
    -- the message begins with another DocType
    have hmessage : ("Bench " ++ bench.name).toList = 'B' :: "ench ".toList ++ bench.name.toList := by
      rw [String.toList_append]
      rfl
    rw [taken, startsWith, hmessage]
    rfl
  · exact Triple.modify fun s hs => ⟨hs.1.1.nodup, hs.1.1.grown, hs.1.1.unused⟩

/-- A new row, named by its domain. -/
structure Fresh (row : ManagedSite) : Prop where
  name : row.name = row.domain
  siteId : row.siteId = row.domain

/-- The new row keeps the tables grown: the domain is used from now on, and no longer to come. -/
theorem During.append {s : Session} {row : ManagedSite} (h : During s₀ (row.domain :: pending) s)
    (hfresh : Fresh row) (hfits : fits row.domain = true) :
    During s₀ pending
      { view := { s.view with sites := s.view.sites ++ [row] }
        current := { s.current with sites := s.current.sites ++ [row] } } := by
  obtain ⟨hnew, hnodup⟩ := List.nodup_cons.mp h.nodup
  refine ⟨hnodup, h.grown.append ?_, ?_⟩
  · show fits row.name = true
    rw [hfresh.name]
    exact hfits
  · rintro domain hdomain ⟨used, hused, huses⟩
    rcases List.mem_append.mp hused with hused | hused
    · exact h.unused domain (List.mem_cons_of_mem _ hdomain) ⟨used, hused, huses⟩
    · have hsame : row.domain = domain := by
        rw [List.mem_singleton.mp hused] at huses
        rcases huses with huses | huses | huses
        · exact hfresh.name ▸ huses
        · exact hfresh.siteId ▸ huses
        · exact huses
      exact absurd (hsame ▸ hdomain) hnew

/-- The two reasons a domain does not fit. -/
theorem fits_eq_false {domain : String}
    (h : alphabeticTop domain = false ∨ ¬ domain.length ≤ 140) : fits domain = false := by
  rcases h with htop | hlong
  · rw [fits, htop, Bool.false_and]
  · rw [fits, decide_eq_false hlong, Bool.and_false]

/-- `validate` refuses a new row for its top-level label only. -/
theorem validateSite_during {row : ManagedSite} (hparsed : Parsed R row.domain)
    {P : Session → Prop} :
    Triple P (read fun db => validateSite R db row)
      (fun _ s => P s ∧ alphabeticTop row.domain = true)
      (Only (fits row.domain = false) duplicate) := by
  refine Triple.query (fun s u hs hvalid => ⟨hs, ?_⟩) fun s e _ he => ?_
  · by_contra htop
    have hrefused := (refused_iff hparsed.legal hparsed.lower s.view rfl).mpr
      (Bool.eq_false_of_not_eq_true htop)
    cases hrefused.symm.trans hvalid
  · rcases validateSite_error he with ⟨rfl, -⟩ | hquiet
    · have htop := (refused_iff hparsed.legal hparsed.lower s.view rfl).mp he
      exact ⟨fun _ => fits_eq_false (.inl htop), fun htaken => by cases htaken⟩
    · exact only_of_quiet hquiet

/-- Then Frappe refuses what its columns cannot hold. -/
theorem checkLengths_during {row : ManagedSite} (hfresh : Fresh row) {P : Session → Prop} :
    Triple (fun s => P s ∧ alphabeticTop row.domain = true) (read fun _ => checkLengths row)
      (fun _ s => P s ∧ fits row.domain = true) (Only (fits row.domain = false) duplicate) := by
  refine Triple.query (fun s u hs hvalid => ⟨hs.1, ?_⟩) fun s e _ he => ⟨fun hbad => ?_, ?_⟩
  · have hshort : row.domain.length ≤ 140 := by
      refine (checkLengths_iff hfresh.siteId).mp fun e he => ?_
      cases he.symm.trans hvalid
    rw [fits, hs.2, decide_eq_true hshort]
    rfl
  · apply fits_eq_false
    refine .inr fun hshort => ?_
    have hquiet := (checkLengths_iff hfresh.siteId).mpr hshort e he
    exact Bool.false_ne_true (hquiet.symm.trans hbad)
  · intro htaken
    exact absurd ((taken_checkLengths he).symm.trans htaken) Bool.false_ne_true

/-- The check of the unique columns finds a row that uses the domain. -/
theorem uses_of_taken {table : List ManagedSite} {row : ManagedSite} (hfresh : Fresh row)
    (h : (table.any fun used =>
      used.name == row.name || used.siteId == row.siteId || used.domain == row.domain) = true) :
    Uses table row.domain := by
  obtain ⟨used, hused, hsame⟩ := List.any_eq_true.mp h
  refine ⟨used, hused, ?_⟩
  simp only [Bool.or_eq_true, beq_iff_eq, hfresh.name, hfresh.siteId] at hsame
  rcases hsame with (hname | hsite) | hdomain
  · exact .inl hname
  · exact .inr (.inl hsite)
  · exact .inr (.inr hdomain)

/-- A new row has been found to fit, and to be the only one of its domain. -/
theorem insertSite_during {row : ManagedSite} (hparsed : Parsed R row.domain)
    (hfresh : Fresh row) :
    Triple (During s₀ (row.domain :: pending)) (insertSite R row)
      (fun _ s => During s₀ pending s ∧ fits row.domain = true)
      (Only (fits row.domain = false) (Uses s₀.current.sites row.domain)) := by
  refine Triple.bind (validateSite_during hparsed) fun _ => ?_
  refine Triple.bind (checkLengths_during hfresh) fun _ => ?_
  refine Triple.bind (Q := fun _ s => During s₀ (row.domain :: pending) s ∧ fits row.domain = true)
    (Triple.query (fun _ _ hs _ => hs) fun s e hs he => ?_)
    fun _ => Triple.modify fun s hs => ⟨hs.1.append hfresh hs.2, hs.2⟩
  -- last the unique columns: the error names a row that uses the domain already
  obtain ⟨hany, rfl⟩ := ensure_eq_error.mp he
  refine ⟨fun hbad => (by cases hbad), fun _ => hs.1.unused row.domain List.mem_cons_self ?_⟩
  rw [Bool.not_eq_false'] at hany
  exact uses_of_taken hfresh hany

/-- The report rewrites a row of its domain, which is no longer to come. -/
theorem reportSite_during {benchId : String} {site : SiteSnapshot} :
    Triple (During s₀ (site.domain :: pending))
      (setSites [site.domain] (reportSite R agent status observedAt benchId site))
      (fun _ => During s₀ pending) (Only bad duplicate) := by
  have hset : site.domain ∉ pending → Triple (During s₀ pending)
      (setSites [site.domain] (reportSite R agent status observedAt benchId site))
      (fun _ => During s₀ pending) (Only bad duplicate) := by
    intro hnew
    refine setSites_during (fun _ => rfl) ?_
    rintro row domain hdomain (hname | hsite | hsame)
    · exact .inl hname
    · exact .inr (.inl hsite)
    · have hlater : site.domain ∈ pending := (show site.domain = domain from hsame) ▸ hdomain
      exact absurd hlater hnew
  have hpending : ∀ s, During s₀ (site.domain :: pending) s →
      site.domain ∉ pending ∧ During s₀ pending s := fun s hs =>
    ⟨(List.nodup_cons.mp hs.nodup).1, (List.nodup_cons.mp hs.nodup).2, hs.grown,
      fun domain hdomain => hs.unused domain (List.mem_cons_of_mem _ hdomain)⟩
  refine Triple.intro (fun s u s' hs hrun => ?_) fun s e s' hs hrun => ?_
  · obtain ⟨hnew, hduring⟩ := hpending s hs
    exact (hset hnew).ok hduring hrun
  · obtain ⟨hnew, hduring⟩ := hpending s hs
    exact (hset hnew).error hduring hrun

/-- A reported site is storable once it has been written; an error about it says that it is not, or
that another row uses its domain. -/
theorem upsertSite_during {benchId : String} {site : SiteSnapshot}
    (hparsed : Parsed R site.domain) :
    Triple (During s₀ (site.domain :: pending))
      (upsertSite R agent status observedAt benchId site)
      (fun _ s => During s₀ pending s ∧ Storable s₀.view.sites site.domain)
      (Only (¬ Storable s₀.view.sites site.domain)
        (¬ Available s₀.view.sites s₀.current.sites site.domain)) := by
  have hupdate : Triple (During s₀ (site.domain :: pending))
      (setSites [site.domain] (reportSite R agent status observedAt benchId site))
      (fun _ => During s₀ pending) (Only (¬ Storable s₀.view.sites site.domain)
        (¬ Available s₀.view.sites s₀.current.sites site.domain)) := reportSite_during
  have hinsert : Triple (During s₀ (site.domain :: pending))
      (insertSite R (reportSite R agent status observedAt benchId site (newSite site.domain)))
      (fun _ s => During s₀ pending s ∧ fits site.domain = true)
      (Only (fits site.domain = false) (Uses s₀.current.sites site.domain)) :=
    @insertSite_during R s₀ pending
      (reportSite R agent status observedAt benchId site (newSite site.domain)) hparsed ⟨rfl, rfl⟩
  refine Triple.bind (read_during fun db e he => by cases he) fun present => ?_
  refine Triple.intro (fun s u s' hs hrun => ?_) fun s e s' hs hrun => ?_
  · have hpresent : (Table.get? s.view.sites site.domain).isSome = present :=
      Except.ok.inj hs.2
    by_cases hcase : present = true
    · rw [if_pos hcase] at hrun
      exact ⟨hupdate.ok hs.1 hrun, hs.1.grown.added site.domain (hpresent.trans hcase)⟩
    · rw [if_neg hcase] at hrun
      obtain ⟨hduring, hfits⟩ := hinsert.ok hs.1 hrun
      exact ⟨hduring, .inr hfits⟩
  · have hpresent : (Table.get? s.view.sites site.domain).isSome = present :=
      Except.ok.inj hs.2
    by_cases hcase : present = true
    · rw [if_pos hcase] at hrun
      exact hupdate.error hs.1 hrun
    · rw [if_neg hcase] at hrun
      -- no row of the name is there now, so none was there when the heartbeat began
      have habsent : ¬ (Table.get? s₀.view.sites site.domain).isSome = true := fun hold =>
        hcase (hpresent.symm.trans (hs.1.grown.kept site.domain hold))
      refine Only.mono ?_ ?_ (hinsert.error hs.1 hrun)
      · rintro hunfit (hold | hfits)
        · exact habsent hold
        · exact Bool.false_ne_true (hunfit.symm.trans hfits)
      · rintro hused (hold | hfree)
        · exact habsent hold
        · exact hfree hused

/-- The sites of a bench. -/
theorem upsertBench_during {bench : BenchSnapshot} (hvalid : Inventory.ValidBench R bench) :
    Triple (During s₀ (bench.sites.map (·.domain) ++ pending))
      (upsertBench R agent status observedAt bench)
      (fun _ s => During s₀ pending s ∧ ∀ site ∈ bench.sites, Storable s₀.view.sites site.domain)
      (Only (∃ site ∈ bench.sites, ¬ Storable s₀.view.sites site.domain)
        (∃ site ∈ bench.sites, ¬ Available s₀.view.sites s₀.current.sites site.domain)) := by
  have hrow : Triple (During s₀ (bench.sites.map (·.domain) ++ pending))
      (upsertBenchRow R agent status observedAt bench)
      (fun _ => During s₀ (bench.sites.map (·.domain) ++ pending))
      (Only (∃ site ∈ bench.sites, ¬ Storable s₀.view.sites site.domain)
        (∃ site ∈ bench.sites, ¬ Available s₀.view.sites s₀.current.sites site.domain)) := by
    refine Triple.bind (read_during fun db e he => by cases he) fun present => ?_
    refine Triple.ite (fun _ => ?_) fun _ => ?_
    · exact setBenches_during.conseq (fun s hs => hs.1) (fun _ _ h => h) fun _ _ h => h
    · exact insertBench_during.conseq (fun s hs => hs.1) (fun _ _ h => h) fun _ _ h => h
  refine Triple.bind hrow fun _ => Triple.forEach_mem
    (I := fun rest => During s₀ (rest.map SiteSnapshot.domain ++ pending)) fun site hsite rest => ?_
  refine (upsertSite_during (parsed_of_valid (hvalid.sites site hsite))).conseq
    (fun _ h => h) (fun _ _ h => h) fun e s => Only.mono ?_ ?_
  · exact fun hnot => ⟨site, hsite, hnot⟩
  · exact fun hnot => ⟨site, hsite, hnot⟩

end Heartbeat

/-- Every reported site is storable. -/
def AllStorable (table : List ManagedSite) (heartbeat : HeartbeatInventory) : Prop :=
  ∀ bench ∈ heartbeat.inventory.benches, ∀ site ∈ bench.sites, Storable table site.domain

/-- No reported site without a row has the domain of another row. -/
def AllAvailable (view current : List ManagedSite) (heartbeat : HeartbeatInventory) : Prop :=
  ∀ bench ∈ heartbeat.inventory.benches, ∀ site ∈ bench.sites, Available view current site.domain

section Answer

variable {bad duplicate : Prop}

/-- An ownership check has an error of its own. -/
theorem checkBenchOwner_during {P : Session → Prop} {agentId benchId : String} :
    Triple P (Inventory.checkBenchOwner (owners R) agentId benchId) (fun _ => P)
      (Only bad duplicate) := by
  refine Triple.bind (readOk_during (g := fun db => benchOwner db benchId)) fun owner => ?_
  refine Triple.ite (fun _ => ?_) fun _ => Triple.pure fun s hs => hs
  exact Triple.throw fun s hs => only_of_quiet ⟨rfl, rfl⟩

@[inherit_doc checkBenchOwner_during]
theorem checkSiteOwner_during {P : Session → Prop} {agentId benchId domain : String} :
    Triple P (Inventory.checkSiteOwner (owners R) agentId benchId domain) (fun _ => P)
      (Only bad duplicate) := by
  refine Triple.bind (readOk_during (g := fun db => siteOwner db domain)) fun owner => ?_
  refine Triple.ite (fun _ => ?_) fun _ => Triple.pure fun s hs => hs
  exact Triple.throw fun s hs => only_of_quiet ⟨rfl, rfl⟩

/-- The errors of the agent lock are about no domain. -/
theorem quiet_lockAgent {agentId : String} {previousDigest : Option String} {revision : ℕ}
    {db : Database} {e : Exc} (h : lockAgent agentId previousDigest revision db = .error e) :
    Quiet e := by
  unfold lockAgent at h
  split at h
  · cases h
    exact ⟨rfl, rfl⟩
  · simp only [bind_eq_error] at h
    rcases h with h | ⟨_, -, h | ⟨_, -, h⟩⟩
    · obtain ⟨-, rfl⟩ := ensure_eq_error.mp h
      exact ⟨rfl, rfl⟩
    · obtain ⟨-, rfl⟩ := ensure_eq_error.mp h
      exact ⟨rfl, rfl⟩
    · cases h

/-- The writes of a heartbeat whose stored inventory reads. -/
theorem replaceInventory_during {agentId : String} {heartbeat : HeartbeatInventory}
    {previousDigest : Option String} {revision : ℕ} {observedAt : DateTime} {s₀ : Session}
    {old : Option StoredInventory}
    (hvalid : Inventory.ValidSnapshot R heartbeat.inventory)
    (hstored : currentInventory R s₀.view agentId = .ok old) :
    Triple (· = s₀) (replaceInventory R agentId heartbeat previousDigest revision observedAt)
      (fun _ _ => AllStorable s₀.view.sites heartbeat)
      (Only (¬ AllStorable s₀.view.sites heartbeat)
        (¬ AllAvailable s₀.view.sites s₀.current.sites heartbeat)) := by
  let pending := Inventory.domains heartbeat.inventory.benches
  have hstart : During s₀ pending s₀ := ⟨hvalid.domains, Grown.refl _, fun _ _ h => h⟩
  have hchecks : Triple (· = s₀) (Transaction.forEach (fun bench =>
      Inventory.checkBenchOwner (owners R) agentId bench.benchId) heartbeat.inventory.benches)
      (fun _ => (· = s₀)) (Only (¬ AllStorable s₀.view.sites heartbeat)
        (¬ AllAvailable s₀.view.sites s₀.current.sites heartbeat)) :=
    Triple.forEach (I := fun _ => (· = s₀)) (fun _ _ => checkBenchOwner_during) _
  have hsites : Triple (· = s₀) (Transaction.forEach (fun bench =>
      Transaction.forEach (fun site => Inventory.checkSiteOwner (owners R) agentId bench.benchId
        site.domain) bench.sites) heartbeat.inventory.benches)
      (fun _ => (· = s₀)) (Only (¬ AllStorable s₀.view.sites heartbeat)
        (¬ AllAvailable s₀.view.sites s₀.current.sites heartbeat)) :=
    Triple.forEach (I := fun _ => (· = s₀))
      (fun bench _ => Triple.forEach (I := fun _ => (· = s₀)) (fun _ _ => checkSiteOwner_during)
        bench.sites) _
  refine Triple.bind (readForUpdate_during fun db e => quiet_lockAgent) fun agent => ?_
  refine Triple.bind (hchecks.conseq (fun s hs => hs.1) (fun _ _ h => h) fun _ _ h => h)
    fun _ => ?_
  refine Triple.bind hsites fun _ => Triple.query_bind (fun stored _ => ?_) fun e he => ?_
  swap
  · cases hstored.symm.trans he
  refine Triple.bind (Q := fun _ => During s₀ pending) ?_ fun _ => ?_
  · exact setBenches_during.conseq (fun s hs => hs ▸ hstart) (fun _ _ h => h) fun _ _ h => h
  refine Triple.bind (setSites_during (fun _ => rfl) fun _ _ _ h => h) fun _ => ?_
  refine Triple.bind (Q := fun _ _ => AllStorable s₀.view.sites heartbeat) ?_
    fun _ => Triple.modify fun s hs => hs
  -- the benches one after the other, with the domains of the later ones still to come
  have hupserts : Triple (During s₀ pending)
      (Transaction.forEach (upsertBench R agent heartbeat.status observedAt)
        heartbeat.inventory.benches)
      (fun _ s => During s₀ [] s ∧ AllStorable s₀.view.sites heartbeat)
      (Only (¬ AllStorable s₀.view.sites heartbeat)
        (¬ AllAvailable s₀.view.sites s₀.current.sites heartbeat)) := by
    refine Triple.forEach_mem (I := fun rest => During s₀ (Inventory.domains rest))
      fun bench hbench rest => ?_
    refine (upsertBench_during (hvalid.benches bench hbench)).conseq (fun _ h => h)
      (fun _ _ h => h) fun e s => Only.mono ?_ ?_
    · rintro ⟨site, hsite, hnot⟩ hall
      exact hnot (hall bench hbench site hsite)
    · rintro ⟨site, hsite, hnot⟩ hall
      exact hnot (hall bench hbench site hsite)
  exact hupserts.conseq (fun _ h => h) (fun _ _ h => h.2) fun _ _ h => h

end Answer

/-- The document of a heartbeat passes the protocol, and the stored inventory reads. -/
structure Checked (R : Runtime) (agentId : String) (state : Json) (view : Database)
    (heartbeat : HeartbeatInventory) : Prop where
  recorded : (recordHeartbeat R state).isOk = true
  parsed : parseHeartbeatState R state = .ok heartbeat
  stored : (currentInventory R view agentId).isOk = true

/-- A malformed agent id is no error about a domain. -/
theorem quiet_agentText {agentId : String} {e : Exc}
    (h : Inventory.text (.str agentId) "agent_id" 128 = .error e) : Quiet e := by
  simp only [Inventory.text] at h
  split at h
  · cases h
  · cases h
    exact ⟨rfl, rfl⟩

/-- A heartbeat that passed the protocol writes site after site, from the tables it found. -/
theorem heartbeat_during {agentId : String} {state : Json} {observedAt : DateTime}
    {heartbeat : HeartbeatInventory} {s₀ : Session}
    (hchecked : Checked R agentId state s₀.view heartbeat) :
    Triple (· = s₀) (FrappeInventory.heartbeat R agentId state observedAt)
      (fun _ _ => AllStorable s₀.view.sites heartbeat)
      (Only (¬ AllStorable s₀.view.sites heartbeat)
        (¬ AllAvailable s₀.view.sites s₀.current.sites heartbeat)) := by
  obtain ⟨digest, hrecorded⟩ := Transaction.exists_eq_ok_of_isOk hchecked.recorded
  obtain ⟨stored, hstored⟩ := Transaction.exists_eq_ok_of_isOk hchecked.stored
  have hvalid : Inventory.ValidSnapshot R heartbeat.inventory :=
    Inventory.parseHeartbeatState_valid hchecked.parsed
  refine Triple.query_bind (fun _ _ => ?_) fun e he => ?_
  swap
  · cases hrecorded.symm.trans he
  refine Triple.query_bind (fun agentId' hagentId => ?_) fun e he => ?_
  swap
  · exact only_of_quiet (quiet_agentText he)
  cases (Inventory.text_eq_ok.mp hagentId).1
  refine Triple.query_bind (fun _ _ => ?_) fun e he => ?_
  swap
  · obtain ⟨-, rfl⟩ := ensure_eq_error.mp he
    exact only_of_quiet ⟨rfl, rfl⟩
  refine Triple.query_bind (fun heartbeat' hparsed => ?_) fun e he => ?_
  swap
  · cases hchecked.parsed.symm.trans he
  cases hchecked.parsed.symm.trans hparsed
  refine Triple.query_bind (fun previous _ => ?_) fun e he => ?_
  swap
  · cases hstored.symm.trans he
  -- The ownership checks come back to the state they began in.
  have hchecks : Triple (· = s₀) (Transaction.forEach (fun bench => do
      Inventory.checkBenchOwner (repository R) agentId bench.benchId
      Transaction.forEach (fun site => Inventory.checkSiteOwner (repository R) agentId
        bench.benchId site.domain) bench.sites) heartbeat.inventory.benches)
      (fun _ => (· = s₀)) (Only (¬ AllStorable s₀.view.sites heartbeat)
        (¬ AllAvailable s₀.view.sites s₀.current.sites heartbeat)) := by
    refine Triple.forEach (I := fun _ => (· = s₀)) (fun bench _ => ?_) _
    refine Triple.bind (checkBenchOwner_during (R := R)) fun _ => ?_
    exact Triple.forEach (I := fun _ => (· = s₀)) (fun _ _ => checkSiteOwner_during (R := R))
      bench.sites
  refine Triple.bind hchecks fun _ => ?_
  refine Triple.bind (replaceInventory_during hvalid hstored) fun _ => ?_
  exact Triple.pure fun s hs => hs

/-- A heartbeat is refused for a domain only where a site without a row has one that cannot be
stored, or one that another row uses; and it is never accepted where one cannot be stored. -/
theorem serve_storable {agentId : String} {state : Json} {observedAt : DateTime}
    {view db : Database} {heartbeat : HeartbeatInventory}
    (hchecked : Checked R agentId state view heartbeat) :
    (∀ e, (serve R agentId state observedAt view db).1 = .error e →
        (unstorable e = true → ¬ AllStorable view.sites heartbeat)
          ∧ (taken e = true → ¬ AllAvailable view.sites db.sites heartbeat))
      ∧ ((serve R agentId state observedAt view db).1.isOk = true →
        AllStorable view.sites heartbeat) := by
  have hrun : Triple (· = (⟨view, db⟩ : Session))
      (FrappeInventory.heartbeat R agentId state observedAt) _ _ := heartbeat_during hchecked
  rw [serve]
  cases hresult : FrappeInventory.heartbeat R agentId state observedAt ⟨view, db⟩ with
  | ok delta session =>
    refine ⟨fun e h => ?_, fun _ => hrun.ok rfl hresult⟩
    cases h
  | error e session =>
    refine ⟨fun e' h => ?_, fun h => ?_⟩
    · cases h
      exact hrun.error rfl hresult
    · cases h

/-! ## The domains of the lifecycle normalizer -/

/-- The domain of a normalized payload is a legal name. -/
theorem domain_of_validate {lib : StrLibrary} {operation : String}
    {payload : PyJson} {authorization : LifecycleAuthoring.Authorization}
    (h : LifecycleAuthoring.validate lib operation payload = .ok authorization) :
    ∃ name, PyJson.field authorization.normalizedPayload "domain" = .str (.ofString name)
      ∧ isDomain name = true := by
  obtain ⟨fields, -, -, hnormalized, -⟩ := LifecycleAuthoring.validate_eq_ok.mp h
  simp only [LifecycleAuthoring.normalize, Transaction.bind_eq_ok] at hnormalized
  obtain ⟨-, -, base, hbase, extra, -, confirmation, -, hall⟩ := hnormalized
  simp only [LifecycleAuthoring.base, Transaction.bind_eq_ok] at hbase
  obtain ⟨timeout, -, digest, -, name, hname, hfields⟩ := hbase
  refine ⟨name, ?_, LifecycleAuthoring.isDomain_of_domain hname⟩
  rw [← Except.ok.inj hall, ← Except.ok.inj hfields]
  rfl

/-! ## The exact condition -/

/-- A row of an accepted name passes `validate` exactly where the top-level label is alphabetic, and
Frappe's own check of its columns exactly where the name has at most 140 characters. -/
theorem row_storable_iff {name : String} (hlegal : isDomain name = true)
    (hlower : R.lower name = name) (db : Database) {row : ManagedSite} (hrow : row.domain = name) :
    (validateSite R db row ≠ .error notFqdn ↔ alphabeticTop name = true) ∧
      (row.siteId = name → ((∀ e, checkLengths row = .error e → unstorable e = false) ↔
        name.length ≤ 140)) := by
  constructor
  · rw [Ne, refused_iff hlegal hlower db hrow, Bool.not_eq_false]
  · intro hsite
    rw [checkLengths_iff (hsite.trans hrow.symm), hrow]

/-- A name of 144 characters, under `com`. -/
example : isDomain (String.ofList (List.replicate 63 'a' ++ '.' :: List.replicate 63 'a' ++
      '.' :: List.replicate 12 'a' ++ ".com".toList)) = true ∧
    fits (String.ofList (List.replicate 63 'a' ++ '.' :: List.replicate 63 'a' ++
      '.' :: List.replicate 12 'a' ++ ".com".toList)) = false := by
  decide +kernel

/-- The names the two normalizers accept are stored as Managed Sites exactly where the top-level
label is alphabetic and the name fits its columns. A heartbeat is refused for a domain only where
a site without a row has another one, or one that another row uses. -/
theorem domains_storable_iff (R : Runtime) (lib : StrLibrary)
    (hlower : ∀ name, isDomain name = true → R.lower name = name) :
    (∀ parent index value site db row, parseSite R parent index value = .ok site →
        row.domain = site.domain →
        (validateSite R db row ≠ .error notFqdn ↔ alphabeticTop site.domain = true)
          ∧ (row.siteId = site.domain →
            ((∀ e, checkLengths row = .error e → unstorable e = false) ↔
              site.domain.length ≤ 140)))
      ∧ (∀ operation payload authorization,
        LifecycleAuthoring.validate lib operation payload = .ok authorization →
        ∃ name, PyJson.field authorization.normalizedPayload "domain" = .str (.ofString name)
          ∧ ∀ db row, row.domain = name →
            (validateSite R db row ≠ .error notFqdn ↔ alphabeticTop name = true)
              ∧ (row.siteId = name →
                ((∀ e, checkLengths row = .error e → unstorable e = false) ↔ name.length ≤ 140)))
      ∧ ∀ agentId state observedAt view db heartbeat, Checked R agentId state view heartbeat →
        (∀ e, (serve R agentId state observedAt view db).1 = .error e →
            (unstorable e = true → ¬ AllStorable view.sites heartbeat)
              ∧ (taken e = true → ¬ AllAvailable view.sites db.sites heartbeat))
          ∧ ((serve R agentId state observedAt view db).1.isOk = true →
            AllStorable view.sites heartbeat) := by
  refine ⟨?_, ?_, fun _ _ _ _ _ _ hchecked => serve_storable hchecked⟩
  · intro parent index value site db row hsite hrow
    have hparsed := parsed_of_valid (Inventory.parseSite_valid hsite)
    exact row_storable_iff hparsed.legal hparsed.lower db hrow
  · intro operation payload authorization hvalidate
    obtain ⟨name, hfield, hname⟩ := domain_of_validate hvalidate
    exact ⟨name, hfield, fun db row hrow => row_storable_iff hname (hlower name hname) db hrow⟩

/-! ## A sample -/

namespace Sample

/-- One bench with one site, under a top-level domain in punycode. -/
def inventory : InventorySnapshot where
  schemaVersion := 1
  inventoryVersion := "1.0"
  benches := [{
    benchId := "bench-a", versions := [], capabilities := []
    sites := [{ domain := "shop.xn--p1ai", apps := [], schedulerEnabled := none
                maintenanceMode := none, databaseName := "a" }]
    requiredApps := none }]

/-- Every list a row of this heartbeat stores is empty. -/
def runtime : Runtime :=
  { InventoryProjection.Sample.base with loads := fun _ => some (.arr []) }

def state : Json :=
  .obj [("status", .str "ready"), ("version", .str "1.0.0"),
    ("inventory_digest", .str InventoryProjection.Sample.hash),
    ("inventory", Inventory.snapshotJson inventory)]

def parsed : HeartbeatInventory where
  status := .ready
  version := "1.0.0"
  inventoryDigest := InventoryProjection.Sample.hash
  inventory := inventory

def db : Database :=
  { agents := [InventoryProjection.Sample.agent], benches := [], sites := [], policies := []
    operations := [], operationTargets := [], operationApprovals := [], operationEvents := []
    bulkOperations := [], bulkTargets := [], bulkApprovals := [], roles := []
    featureConfig := { masterEnabled := false, features := [] } }

/-- The codecs on lower-case ASCII. -/
def codecs : StrLibrary where
  lower name := name
  casefold name := name
  idna name := some name

/-- Whether an answer is that error. -/
def isError {α : Type} (e : Exc) : Except Exc α → Bool
  | .ok _ => false
  | .error e' => e' == e

/-- An answer is the error that it is found to be. -/
theorem eq_error {α : Type} {e : Exc} {answer : Except Exc α} (h : isError e answer = true) :
    answer = .error e := by
  cases answer with
  | ok value => cases h
  | error e' => rw [beq_iff_eq.mp h]

/-- The sample heartbeat passes the protocol. -/
theorem checked : Checked runtime "agent-a" state db parsed where
  recorded := by decide +kernel
  parsed := by decide +kernel
  stored := by decide +kernel

/-- The sample heartbeat is refused. -/
theorem refused : (serve runtime "agent-a" state ⟨0⟩ db db).1 = .error notFqdn :=
  eq_error (by decide +kernel)

end Sample

/-- A heartbeat that passes the protocol and owns what it reports is rejected for a domain. -/
theorem punycode_top_refused :
    Checked Sample.runtime "agent-a" Sample.state Sample.db Sample.parsed ∧
      (serve Sample.runtime "agent-a" Sample.state ⟨0⟩ Sample.db Sample.db).1 = .error notFqdn :=
  ⟨Sample.checked, Sample.refused⟩

/-- The sample domain cannot be stored, since its heartbeat is refused for a domain. -/
theorem domains_storable_iff_sample : ¬ AllStorable Sample.db.sites Sample.parsed := by
  have hlower : ∀ name, isDomain name = true → Sample.runtime.lower name = name :=
    fun name _ => rfl
  obtain ⟨-, -, hheartbeat⟩ :=
    domains_storable_iff Sample.runtime Sample.codecs hlower
  exact (hheartbeat "agent-a" Sample.state ⟨0⟩ Sample.db Sample.db Sample.parsed
    Sample.checked).1 _ Sample.refused |>.1 rfl

end SiteDomains

end FrappeController
