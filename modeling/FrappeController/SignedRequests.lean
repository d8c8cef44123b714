import FrappeController.AgentRuns

/-!
# Replay protection of signed requests

Every row keeps the sequence number of the last request accepted under its key. The check locks
the row; the other writers of the two columns do not keep the number, so that replay protection
rests on what they write not being behind what was committed before.

Here the requests interleave: the state of a run is the history of committed versions, and the
plain reads of a request see any of them.
-/

namespace FrappeController
namespace SignedRequests

open AgentRuns hiding Label Step
open AgentRequests (HttpRequest canonical checkSignature)
open ServerAgent (stored decimal)

/-! ## Interleaved runs -/

inductive Label where
  /-- A request that began with the version `view`. -/
  | request (request : Request) (now : DateTime) (view : Database) (accepted : Bool)
  | other

variable (D : Deployment)

inductive Step : List Database → Label → List Database → Prop
  | request {db : Database} {older : List Database} (request : Request) (now : DateTime)
      {view : Database} (hview : view ∈ db :: older) :
      Step (db :: older) (.request request now view (serve D now request view db).1.isOk)
        ((serve D now request view db).2 :: db :: older)
  | other {db db' : Database} {older : List Database} (h : db'.agents = db.agents) :
      Step (db :: older) .other (db' :: db :: older)

/-! ## Accepted requests -/

/-- What makes two signed requests the same. -/
structure SignedId where
  agentId : String
  action : String
  sequence : String
  signature : String
  body : Text
  deriving DecidableEq, Repr

@[inherit_doc SignedId]
def signedId (request : HttpRequest) (action : String) : SignedId where
  agentId := request.agentId
  action := action
  sequence := request.sequence
  signature := request.signature
  body := request.body

/-- The signed request a label accepts. -/
def accepted? : Label → Option SignedId
  | .request (.signed request action _) _ _ true => some (signedId request action)
  | _ => none

/-- The signature of the request verifies under the key. -/
def Verifies (id : SignedId) (key : String) : Prop :=
  D.crypto.verify key id.signature (canonical D.runtime id.agentId id.action id.sequence id.body) =
    true

/-- Some committed version of the agent's row had the key. -/
def Held (history : List Database) (name key : String) : Prop :=
  ∃ db ∈ history, ∃ row ∈ db.agents, row.name = name ∧ row.signingPublicKeyEd25519 = some key

/-- No signature of an accepted request verifies under two keys its agent has had. -/
def OneKey (labels : List Label) (history : List Database) : Prop :=
  ∀ id ∈ labels.filterMap accepted?, ∀ key key', Held history id.agentId key →
    Held history id.agentId key' → Verifies D id key → Verifies D id key' → key = key'

/-! ## The counter -/

/-- The number of the last accepted request, as the check reads it. -/
def counter (row : ServerAgent) : ℕ :=
  decimal ((orNone row.lastSignedRequestAtNs).getD "0").toList

/-- No committed version of the agent's row had that key with a higher number. -/
def NotBehind (history : List Database) (name key : String) (number : ℕ) : Prop :=
  ∀ db ∈ history, ∀ row ∈ db.agents, row.name = name → row.signingPublicKeyEd25519 = some key →
    counter row ≤ number

/-- A saved copy of the row is not behind. -/
def CopyNotBehind (history : List Database) (copy : ServerAgent) : Prop :=
  ∀ key, copy.signingPublicKeyEd25519 = some key → NotBehind history copy.name key (counter copy)

/-- An unused token pins a key under which the agent has had no request accepted; and a saved
form, or the copy an upgrade step saves, has the row's stamp only if it is not behind. -/
def Careful : List Database → Label → Prop
  | db :: older, .request (.enroll _ agentId pem) _ _ true =>
    ∀ row ∈ db.agents, row.name = agentId → row.enrollmentConsumedAt = none →
      ∀ key, D.crypto.publicKey pem = some key → NotBehind (db :: older) agentId key 0
  | history, .request (.saveForm document) _ _ true => CopyNotBehind history document
  | db :: older, .request request _ view true =>
    request.kinds ≠ [] → ∀ row ∈ db.agents, request.agentId? D = some row.name →
      ∀ loaded, Table.get? view.agents row.name = some loaded → row.modified = loaded.modified →
        CopyNotBehind (db :: older) loaded
  | _, _ => True

variable {D} {db view : Database} {older history history' : List Database} {labels : List Label}
variable {l : Label} {row row' : ServerAgent} {now : DateTime} {request : Request}

theorem NotBehind.mono {name key : String} {number number' : ℕ} (h : NotBehind history name key number)
    (hle : number ≤ number') : NotBehind history name key number' :=
  fun v hv q hq hname hkey => (h v hv q hq hname hkey).trans hle

/-- The next version is not ahead either. -/
theorem NotBehind.cons {name key : String} {number : ℕ} (h : NotBehind history name key number)
    (hrow : ∀ q ∈ db.agents, q.name = name → q.signingPublicKeyEd25519 = some key →
      counter q ≤ number) : NotBehind (db :: history) name key number := by
  intro v hv
  rcases List.mem_cons.mp hv with rfl | hv
  · exact hrow
  · exact h v hv

theorem counter_of_sequence {sequence : String} (h : ServerAgent.isSequence sequence = true) :
    counter { row with lastSignedRequestAtNs := some sequence } = decimal sequence.toList := by
  have hne : sequence ≠ "" := by
    rintro rfl
    cases h
  unfold counter
  rw [orNone_eq_some.mpr ⟨rfl, hne⟩]
  rfl

/-- What the signature check found on the locked row. -/
theorem checkSignature_eq_ok {signed : HttpRequest} {action : String}
    (h : checkSignature D.runtime D.crypto signed action row = .ok ()) :
    ∃ key, row.signingPublicKeyEd25519 = some key ∧
      D.crypto.verify key signed.signature
        (canonical D.runtime signed.agentId action signed.sequence signed.body) = true ∧
      counter row < decimal signed.sequence.toList := by
  simp only [checkSignature, Transaction.bind_eq_ok, ensure_eq_ok, Bool.and_eq_true,
    decide_eq_true_eq] at h
  obtain ⟨-, -, -, hhex, -, hverify, -, hsequence⟩ := h
  cases hkey : row.signingPublicKeyEd25519 with
  | none =>
    rw [hkey] at hhex
    cases hhex
  | some key =>
    rw [hkey] at hverify
    exact ⟨key, rfl, hverify, hsequence⟩

theorem stored_keys (t : DateTime) (a : ServerAgent) :
    (stored t a).signingPublicKeyEd25519 = a.signingPublicKeyEd25519 ∧
      counter (stored t a) = counter a := by
  unfold stored counter
  rw [ServerAgent.normalize_eq]
  exact ⟨rfl, rfl⟩

/-- An upgrade change leaves the key and the counter as loaded. -/
theorem keys_of_change {zone : DateTime → DateTime} {kind : AgentUpgrades.Kind} {a b : ServerAgent}
    (h : AgentUpgrades.Change zone now kind a b) :
    b.signingPublicKeyEd25519 = a.signingPublicKeyEd25519 ∧ counter b = counter a := by
  cases h <;> exact ⟨rfl, rfl⟩

/-- What an accepted careful request leaves in a row is not behind. -/
theorem copyNotBehind_of_write (hcareful : Careful D (db :: older) (.request request now view true))
    (hrow : row ∈ db.agents) (hahead : CopyNotBehind (db :: older) row)
    (hwrite : Write D now view request row row') : CopyNotBehind (db :: older) row' := by
  cases hwrite with
  -- neither a token nor a heartbeat writes the key or its counter
  | createToken => exact hahead
  | heartbeat => exact hahead
  -- a key that is pinned starts at zero, which `Careful` allows only for a key not seen
  | @enroll _ rawToken agentId key pem hname hunused hkey =>
    rintro _ ⟨⟩
    have hzero : counter (AgentRequests.pinKey D.crypto key now row) = 0 := by
      show decimal "0".toList = 0
      decide
    rw [hzero]
    show NotBehind _ row.name key 0
    rw [hname]
    exact hcareful row hrow hname hunused key hkey
  -- the counter moves up
  | @signed _ signed action timeNs hname hsequence hcheck =>
    obtain ⟨held, hheld, -, hless⟩ := checkSignature_eq_ok hcheck
    intro key hkey
    rw [counter_of_sequence hsequence]
    exact (hahead key hkey).mono hless.le
  | @saveForm _ document hname =>
    obtain ⟨hkey, hcounter⟩ := stored_keys (D.zone now) document
    intro key hheld
    rw [ServerAgent.stored_name, hcounter]
    exact hcareful key (hkey.symm.trans hheld)
  -- an upgrade saves the copy it loaded
  | @upgrade _ kind _ loaded document hkind hnamed hfound hchange hstamp =>
    obtain ⟨hkey, hcounter⟩ := stored_keys (D.zone now) document
    obtain ⟨hkey', hcounter'⟩ := keys_of_change hchange
    intro key hheld
    rw [ServerAgent.stored_name, hcounter, hchange.name, hcounter']
    have hcopy : CopyNotBehind (db :: older) loaded := by
      cases request with
      | admin user call =>
        exact hcareful (List.ne_nil_of_mem hkind) row hrow hnamed loaded hfound hstamp
      | route routed action =>
        exact hcareful (List.ne_nil_of_mem hkind) row hrow hnamed loaded hfound hstamp
      | _ => cases hkind
    exact hcopy key (hkey'.symm.trans (hkey.symm.trans hheld))

/-! ## The journal of a run -/

/-- An accepted request, and the key it was accepted under. -/
structure Entry where
  id : SignedId
  key : String

/-- The accepted requests of a run with their keys. Under one key of one agent, the numbers
increase. -/
structure Journal (D : Deployment) (labels : List Label) (history : List Database)
    (entries : List Entry) : Prop where
  ids : entries.map Entry.id = labels.filterMap accepted?
  verified : ∀ e ∈ entries, Verifies D e.id e.key
  recorded : ∀ e ∈ entries, ∃ db ∈ history, ∃ row ∈ db.agents, row.name = e.id.agentId ∧
    row.signingPublicKeyEd25519 = some e.key ∧ decimal e.id.sequence.toList ≤ counter row
  increasing : entries.Pairwise fun a b => a.id.agentId = b.id.agentId → a.key = b.key →
    decimal a.id.sequence.toList < decimal b.id.sequence.toList

theorem Journal.cons {entries : List Entry} (h : Journal D labels history entries)
    (hl : accepted? l = none) (db : Database) : Journal D (labels ++ [l]) (db :: history) entries := by
  constructor
  · rw [List.filterMap_append, List.filterMap_cons, hl, List.filterMap_nil, List.append_nil]
    exact h.ids
  · exact h.verified
  · intro e he
    obtain ⟨v, hv, hrow⟩ := h.recorded e he
    exact ⟨v, List.mem_cons_of_mem _ hv, hrow⟩
  · exact h.increasing

/-- A request accepted on a row that is not behind continues the journal. -/
theorem Journal.snoc {entries : List Entry} {e : Entry} {after : Database}
    (h : Journal D labels (db :: older) entries) (hl : accepted? l = some e.id)
    (hverified : Verifies D e.id e.key) (hname : row.name = e.id.agentId)
    (hkey : row.signingPublicKeyEd25519 = some e.key)
    (hahead : CopyNotBehind (db :: older) row) (hless : counter row < decimal e.id.sequence.toList)
    (hafter : ∃ r ∈ after.agents, r.name = e.id.agentId ∧ r.signingPublicKeyEd25519 = some e.key ∧
      decimal e.id.sequence.toList ≤ counter r) :
    Journal D (labels ++ [l]) (after :: db :: older) (entries ++ [e]) := by
  constructor
  · rw [List.map_append, List.filterMap_append, List.filterMap_cons, hl, h.ids]
    rfl
  · intro e' he'
    rcases List.mem_append.mp he' with he' | he'
    · exact h.verified e' he'
    · rw [List.mem_singleton.mp he']
      exact hverified
  · intro e' he'
    rcases List.mem_append.mp he' with he' | he'
    · obtain ⟨v, hv, hrow⟩ := h.recorded e' he'
      exact ⟨v, List.mem_cons_of_mem _ hv, hrow⟩
    · rw [List.mem_singleton.mp he']
      exact ⟨after, List.mem_cons_self, hafter⟩
  · rw [List.pairwise_append]
    refine ⟨h.increasing, List.pairwise_singleton _ _, ?_⟩
    intro e' he' new hnew hagent hsame
    rw [List.mem_singleton.mp hnew] at hagent hsame ⊢
    -- the earlier request is recorded in a version the row is not behind
    obtain ⟨v, hv, q, hq, hqname, hqkey, hqcounter⟩ := h.recorded e' he'
    have hbound := hahead e.key hkey v hv q hq (hqname.trans (hagent.trans hname.symm))
      (hqkey.trans (congrArg some hsame))
    omega

/-- What holds after a careful run. -/
structure Inv (D : Deployment) (labels : List Label) (history : List Database) : Prop where
  keyed : ∀ db ∈ history, Keyed db.agents
  names : ∀ db older, history = db :: older → ∀ v ∈ history, ∀ q ∈ v.agents,
    ∃ r ∈ db.agents, r.name = q.name
  ahead : ∀ db older, history = db :: older → ∀ r ∈ db.agents, CopyNotBehind history r
  journal : ∃ entries, Journal D labels history entries

/-- A row of the next version that is not behind the earlier ones is not behind its own. -/
theorem CopyNotBehind.cons {after : Database} (h : CopyNotBehind history row)
    (hkeyed : Keyed after.agents) (hrow : row ∈ after.agents) :
    CopyNotBehind (after :: history) row := by
  intro key hkey
  refine (h key hkey).cons fun q hq hname _ => ?_
  rw [Table.eq_of_mem hkeyed.unique hq hrow hname]

/-- The next version, if its names include the earlier ones and its rows are not behind. -/
theorem Inv.cons {after : Database} (h : Inv D labels (db :: older)) (hkeyed : Keyed after.agents)
    (hnames : ∀ q ∈ db.agents, ∃ r ∈ after.agents, r.name = q.name)
    (hahead : ∀ r ∈ after.agents, CopyNotBehind (db :: older) r)
    (hjournal : ∃ entries, Journal D (labels ++ [l]) (after :: db :: older) entries) :
    Inv D (labels ++ [l]) (after :: db :: older) := by
  refine ⟨?_, ?_, ?_, hjournal⟩
  · intro v hv
    rcases List.mem_cons.mp hv with rfl | hv
    · exact hkeyed
    · exact h.keyed v hv
  · rintro _ _ ⟨⟩ v hv q hq
    rcases List.mem_cons.mp hv with rfl | hv
    · exact ⟨q, hq, rfl⟩
    · obtain ⟨r, hr, hname⟩ := h.names db older rfl v hv q hq
      obtain ⟨r', hr', hname'⟩ := hnames r hr
      exact ⟨r', hr', hname'.trans hname⟩
  · rintro _ _ ⟨⟩ r hr
    exact (hahead r hr).cons hkeyed hr

/-- A step that leaves the agents' rows alone. -/
theorem Inv.same {after : Database} (h : Inv D labels (db :: older))
    (hagents : after.agents = db.agents) (hl : accepted? l = none) :
    Inv D (labels ++ [l]) (after :: db :: older) := by
  obtain ⟨entries, hjournal⟩ := h.journal
  refine h.cons ?_ ?_ ?_ ⟨entries, hjournal.cons hl after⟩
  · rw [hagents]
    exact h.keyed db List.mem_cons_self
  · intro q hq
    exact ⟨q, hagents ▸ hq, rfl⟩
  · intro r hr
    exact h.ahead db older rfl r (hagents ▸ hr)

/-- An accepted signed request writes its number on the row it was checked on. -/
theorem signed_effect {agents agents' : List ServerAgent} {signed : HttpRequest} {action : String}
    {timeNs : ℤ} (h : Effect D now view agents (.signed signed action timeNs) agents') :
    ∃ row ∈ agents, row.name = signed.agentId ∧
      checkSignature D.runtime D.crypto signed action row = .ok () ∧
      ∃ r ∈ agents', r.name = signed.agentId ∧
        r.signingPublicKeyEd25519 = row.signingPublicKeyEd25519 ∧
        decimal signed.sequence.toList ≤ counter r := by
  cases h with
  | same hoptional => cases hoptional
  | @write _ row row' hrow hwrite =>
    have hmem : row' ∈ Table.setValue row.name (fun _ => row') agents :=
      (Table.mem_update _ _).mpr ⟨row, hrow, if_pos rfl⟩
    cases hwrite with
    | upgrade hkind => cases hkind
    | signed hname hsequence hcheck =>
      exact ⟨row, hrow, hname, hcheck, _, hmem, hname, rfl, (counter_of_sequence hsequence).ge⟩

theorem Inv.step (h : Inv D labels history) (hcareful : Careful D history l)
    (hstep : Step D history l history') : Inv D (labels ++ [l]) history' := by
  cases hstep with
  | other hagents => exact h.same hagents rfl
  | @request db older request now view hview =>
    have hkeyed := h.keyed db List.mem_cons_self
    rcases serve_cases (D := D) now hkeyed request view with
      ⟨after, hserve, heffect⟩ | ⟨e, hserve⟩
    · rw [hserve] at hcareful ⊢
      change Careful D (db :: older) (.request request now view true) at hcareful
      refine h.cons (heffect.keyed hkeyed) (fun q hq => heffect.names_kept hq) ?_ ?_
      · intro r hr
        rcases heffect.row_cases hr with ⟨hmem, -⟩ | ⟨row, hrow, -, hwrite⟩ |
          ⟨document, -, hfresh, -⟩
        · exact h.ahead db older rfl r hmem
        · exact copyNotBehind_of_write hcareful hrow (h.ahead db older rfl row hrow) hwrite
        · -- no committed version had a row of that name
          intro key _ v hv q hq hname
          obtain ⟨known, hknown, hsame⟩ := h.names db older rfl v hv q hq
          exact absurd (hsame.trans hname) (Table.get?_eq_none.mp hfresh known hknown)
      · obtain ⟨entries, hjournal⟩ := h.journal
        cases request with
        | signed signed action timeNs =>
          obtain ⟨row, hrow, hname, hcheck, hafter⟩ := signed_effect heffect
          obtain ⟨key, hkey, hverify, hless⟩ := checkSignature_eq_ok hcheck
          rw [hkey] at hafter
          have hverified : Verifies D (signedId signed action) key := hverify
          exact ⟨entries ++ [⟨signedId signed action, key⟩],
            Journal.snoc (e := ⟨signedId signed action, key⟩) hjournal rfl hverified hname hkey
              (h.ahead db older rfl row hrow) hless hafter⟩
        | _ => exact ⟨entries, hjournal.cons rfl after⟩
    · rw [hserve]
      refine h.same rfl ?_
      show accepted? (.request request now view false) = none
      cases request <;> rfl

theorem inv_of_run {db₀ : Database} (hstart : db₀.agents = [])
    (hrun : Run (fun s l t => Step D s l t ∧ Careful D s l) [db₀] labels history) :
    Inv D labels history := by
  generalize hhistory : [db₀] = history₀ at hrun
  induction hrun with
  | nil =>
    subst hhistory
    -- no agent is enrolled at the start
    have hnone : ∀ row, row ∉ db₀.agents := fun row hrow => by
      rw [hstart] at hrow
      cases hrow
    refine ⟨?_, ?_, ?_, [], rfl, ?_, ?_, List.Pairwise.nil⟩
    · intro v hv
      rw [List.mem_singleton.mp hv, hstart]
      exact keyed_nil
    · rintro _ _ ⟨⟩ v hv q hq
      rw [List.mem_singleton.mp hv] at hq
      exact absurd hq (hnone q)
    · rintro _ _ ⟨⟩ r hr
      exact absurd hr (hnone r)
    · intro e he
      cases he
    · intro e he
      cases he
  | snoc _ hlast ih => exact ih.step hlast.2 hlast.1

/-- In every interleaving of careful requests, no signed request is accepted twice. -/
theorem accepted_once {db₀ : Database} (hstart : db₀.agents = [])
    (hrun : Run (fun s l t => Step D s l t ∧ Careful D s l) [db₀] labels history)
    (honeKey : OneKey D labels history) : (labels.filterMap accepted?).Nodup := by
  obtain ⟨entries, hjournal⟩ := (inv_of_run hstart hrun).journal
  have hheld : ∀ e ∈ entries, Held history e.id.agentId e.key := by
    intro e he
    obtain ⟨v, hv, row, hrow, hname, hkey, -⟩ := hjournal.recorded e he
    exact ⟨v, hv, row, hrow, hname, hkey⟩
  have hmem : ∀ e ∈ entries, e.id ∈ labels.filterMap accepted? := by
    intro e he
    rw [← hjournal.ids]
    exact List.mem_map_of_mem he
  rw [← hjournal.ids]
  refine List.pairwise_map.mpr (hjournal.increasing.imp_of_mem ?_)
  intro a b ha hb hincreasing hsame
  -- one request twice would be accepted under one key, with a number above its own
  have hverified := hjournal.verified b hb
  have hheldB := hheld b hb
  rw [← hsame] at hverified hheldB
  have hkey := honeKey a.id (hmem a ha) a.key b.key (hheld a ha) hheldB (hjournal.verified a ha)
    hverified
  have hless := hincreasing (congrArg SignedId.agentId hsame) hkey
  rw [hsame] at hless
  exact lt_irrefl _ hless

/-! ## A site with one agent -/

/-- The history after the requests, one after the other, each with its instant. -/
def play (D : Deployment) : List (Request × DateTime) → List Database → List Database
  | (request, now) :: rest, db :: older =>
    play D rest ((serve D now request db db).2 :: db :: older)
  | _, history => history

@[inherit_doc play]
def labelsOf (D : Deployment) : List (Request × DateTime) → List Database → List Label
  | (request, now) :: rest, db :: older =>
    .request request now db (serve D now request db db).1.isOk
      :: labelsOf D rest ((serve D now request db db).2 :: db :: older)
  | _, _ => []

/-- Every request of the list is careful where it is made. -/
def AllCareful (D : Deployment) : List (Request × DateTime) → List Database → Prop
  | (request, now) :: rest, db :: older =>
    (∀ accepted, Careful D (db :: older) (.request request now db accepted)) ∧
      AllCareful D rest ((serve D now request db db).2 :: db :: older)
  | _, _ => True

theorem run_play (requests : List (Request × DateTime)) (history : List Database) :
    Run (Step D) history (labelsOf D requests history) (play D requests history) := by
  fun_induction labelsOf D requests history with
  | case1 request now rest db older ih =>
    rw [play]
    exact (Run.single (.request request now List.mem_cons_self)).append ih
  | case2 requests history hnot =>
    rw [play]
    · exact .nil history
    · exact hnot

theorem run_play_careful {requests : List (Request × DateTime)} {history : List Database}
    (h : AllCareful D requests history) :
    Run (fun s l t => Step D s l t ∧ Careful D s l) history (labelsOf D requests history)
      (play D requests history) := by
  fun_induction labelsOf D requests history with
  | case1 request now rest db older ih =>
    rw [AllCareful] at h
    rw [play]
    exact (Run.single ⟨.request request now List.mem_cons_self, h.1 _⟩).append (ih h.2)
  | case2 requests history hnot =>
    rw [play]
    · exact .nil history
    · exact hnot

namespace Sample

open AgentRuns.Sample (zeros ones agent start)

def signature : String := String.ofList (List.replicate 86 'A')

/-- A request of the agent for its upgrade, signed at its instant. -/
def poll (sequence : String) : HttpRequest where
  method := "POST"
  mimetype := "application/json"
  agentId := "agent-a"
  sequence := sequence
  signature := signature
  body := "\x7b\x7d".toList

/-- 100 s after the epoch. -/
def first : HttpRequest := poll "100000000000"

def second : HttpRequest := poll "100000000001"

def third : HttpRequest := poll "100000000002"

def message (request : HttpRequest) : Text :=
  canonical AgentRuns.Sample.runtime "agent-a" "upgrade" request.sequence request.body

/-- Two key pairs. One has signed the first two requests, and the other the third. -/
def crypto : Crypto where
  verify key signed text := signed == signature
    && ((key == zeros && (text == message first || text == message second))
      || (key == ones && text == message third))
  tokenHash token := if token = "first" then zeros else ones
  keyDigest _ := ones
  publicKey pem := if pem.head? = some 'A' then some zeros else some ones

def deployment : Deployment := { AgentRuns.Sample.deployment id with crypto := crypto }

/-- An enrollment with the key the letter stands for. -/
def enroll (token : String) (letter : Char) : Request :=
  .enroll token "agent-a" (List.replicate 64 letter)

def createToken (token : String) : Request := .createToken "agent-a" "admin" 600 token

def signed (request : HttpRequest) : Request := .signed request "upgrade" 100000000000

/-- The agent enrolls and has a request accepted. -/
def enrolled : List (Request × DateTime) :=
  [(.create agent, ⟨0⟩), (createToken "first", ⟨1⟩), (enroll "first" 'A', ⟨2⟩),
    (signed first, ⟨3⟩)]

/-- It enrolls again with its key, and the request comes again. -/
def again : List (Request × DateTime) :=
  enrolled ++ [(createToken "second", ⟨4⟩), (enroll "second" 'A', ⟨5⟩), (signed first, ⟨6⟩)]

/-- It has another request accepted, enrolls with a new key and has a third one accepted. Both
earlier requests come again, before and after the new key. -/
def rotated : List (Request × DateTime) :=
  enrolled ++ [(signed second, ⟨4⟩), (signed first, ⟨5⟩), (createToken "second", ⟨6⟩),
    (enroll "second" 'B', ⟨7⟩), (signed second, ⟨8⟩), (signed third, ⟨9⟩)]

theorem careful_signed (request : HttpRequest) (now : DateTime) (db : Database)
    (older : List Database) (accepted : Bool) :
    Careful deployment (db :: older) (.request (signed request) now db accepted) := by
  cases accepted with
  | false => trivial
  | true => exact fun hkinds => absurd rfl hkinds

theorem careful_createToken (token : String) (now : DateTime) (db : Database)
    (older : List Database) (accepted : Bool) :
    Careful deployment (db :: older) (.request (createToken token) now db accepted) := by
  cases accepted with
  | false => trivial
  | true => exact fun hkinds => absurd rfl hkinds

theorem careful_enroll {token : String} {letter : Char} {db : Database} {older : List Database}
    (h : ∀ key, crypto.publicKey (List.replicate 64 letter) = some key →
      NotBehind (db :: older) "agent-a" key 0) (now : DateTime) (accepted : Bool) :
    Careful deployment (db :: older) (.request (enroll token letter) now db accepted) := by
  cases accepted with
  | false => trivial
  | true => exact fun row _ _ _ key hkey => h key hkey

theorem careful : AllCareful deployment rotated [start] := by
  refine ⟨?_, careful_createToken "first" _ _ _, careful_enroll ?_ _, careful_signed first _ _ _,
    careful_signed second _ _ _, careful_signed first _ _ _, careful_createToken "second" _ _ _,
    careful_enroll ?_ _, careful_signed second _ _ _, careful_signed third _ _ _, trivial⟩
  · intro accepted
    cases accepted with
    | false => trivial
    | true => exact fun hkinds => absurd rfl hkinds
  · -- no number is recorded yet
    rintro _ ⟨⟩
    show NotBehind (play deployment (rotated.take 2) [start]) "agent-a" zeros 0
    unfold NotBehind
    decide +kernel
  · -- the agent has not had the other key
    rintro _ ⟨⟩
    show NotBehind (play deployment (rotated.take 7) [start]) "agent-a" ones 0
    unfold NotBehind
    decide +kernel

/-- All versions of the row hold one of the two keys, if any. -/
def TwoKeys (history : List Database) : Prop :=
  ∀ db ∈ history, ∀ row ∈ db.agents, ∀ key ∈ row.signingPublicKeyEd25519, key = zeros ∨ key = ones

instance (history : List Database) : Decidable (TwoKeys history) :=
  inferInstanceAs (Decidable (∀ db ∈ history, ∀ row ∈ db.agents,
    ∀ key ∈ row.signingPublicKeyEd25519, key = zeros ∨ key = ones))

instance (id : SignedId) (key : String) : Decidable (Verifies deployment id key) :=
  inferInstanceAs (Decidable (_ = true))

theorem oneKey {labels : List Label} {history : List Database} (h : TwoKeys history)
    (hids : ∀ id ∈ labels.filterMap accepted?,
      ¬ (Verifies deployment id zeros ∧ Verifies deployment id ones)) :
    OneKey deployment labels history := by
  rintro id hid key key' ⟨db, hdb, row, hrow, -, hkey⟩ ⟨db', hdb', row', hrow', -, hkey'⟩ hv hv'
  rcases h db hdb row hrow key hkey with rfl | rfl
  · rcases h db' hdb' row' hrow' key' hkey' with rfl | rfl
    · rfl
    · exact absurd ⟨hv, hv'⟩ (hids id hid)
  · rcases h db' hdb' row' hrow' key' hkey' with rfl | rfl
    · exact absurd ⟨hv', hv⟩ (hids id hid)
    · rfl

/-- Whether the request of a label was answered. -/
def answered : Label → Bool
  | .request _ _ _ accepted => accepted
  | .other => false

theorem rotated_accepted :
    (labelsOf deployment rotated [start]).map answered =
        [true, true, true, true, true, false, true, true, false, true] ∧
      (labelsOf deployment rotated [start]).filterMap accepted? =
        [signedId first "upgrade", signedId second "upgrade", signedId third "upgrade"] ∧
      TwoKeys (play deployment rotated [start]) := by
  decide +kernel

theorem again_accepted :
    (labelsOf deployment again [start]).filterMap accepted? =
        [signedId first "upgrade", signedId first "upgrade"] ∧
      TwoKeys (play deployment again [start]) := by
  decide +kernel

/-- No request verifies under both keys. -/
theorem verifies_once : ∀ id ∈ [signedId first "upgrade", signedId second "upgrade",
    signedId third "upgrade"],
      ¬ (Verifies deployment id zeros ∧ Verifies deployment id ones) := by
  decide +kernel

end Sample

/-- A request is accepted again once its agent has enrolled again, with the same key. -/
theorem replayed : ∃ labels history,
    Run (Step Sample.deployment) [AgentRuns.Sample.start] labels history ∧
      OneKey Sample.deployment labels history ∧ ¬ (labels.filterMap accepted?).Nodup := by
  refine ⟨_, _, run_play Sample.again _, Sample.oneKey Sample.again_accepted.2 ?_, ?_⟩
  · rw [Sample.again_accepted.1]
    intro id hid
    refine Sample.verifies_once id (List.mem_cons.mpr (.inl ?_))
    simpa using hid
  · rw [Sample.again_accepted.1]
    decide

/-- Three requests are accepted, under two keys, and what comes again is refused. -/
theorem accepted_once_sample :
    (labelsOf Sample.deployment Sample.rotated [AgentRuns.Sample.start]).map Sample.answered =
        [true, true, true, true, true, false, true, true, false, true] ∧
      (labelsOf Sample.deployment Sample.rotated [AgentRuns.Sample.start]).filterMap accepted? =
        [signedId Sample.first "upgrade", signedId Sample.second "upgrade",
          signedId Sample.third "upgrade"] ∧
      ((labelsOf Sample.deployment Sample.rotated [AgentRuns.Sample.start]).filterMap
        accepted?).Nodup := by
  obtain ⟨hanswered, haccepted, hkeys⟩ := Sample.rotated_accepted
  have honeKey : OneKey Sample.deployment
      (labelsOf Sample.deployment Sample.rotated [AgentRuns.Sample.start])
      (play Sample.deployment Sample.rotated [AgentRuns.Sample.start]) :=
    Sample.oneKey hkeys (haccepted ▸ Sample.verifies_once)
  exact ⟨hanswered, haccepted, accepted_once (D := Sample.deployment) rfl
    (run_play_careful Sample.careful) honeKey⟩

end SignedRequests

end FrappeController
