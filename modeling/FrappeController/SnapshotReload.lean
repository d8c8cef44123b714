import FrappeController.InventoryProjection
import FrappeController.JsonRoundTrip

/-!
# A stored inventory reloads to what was accepted

`canonical_json` of an accepted snapshot is read by `json.loads`, and what is read is accepted with
the same digest as the same snapshot. Two accepted snapshots with one text are therefore equal.
-/

namespace FrappeController
namespace SnapshotReload

open Inventory FrappeInventory Reader

variable {R : Runtime} {L : Reader}

/-! ## The document of a snapshot -/

theorem readable_arr {items : List Json} {depth : ℕ} (h : ∀ x ∈ items, Readable R L x depth) :
    Readable R L (.arr items) (depth + 1) :=
  ⟨Nat.succ_pos depth, (readableItems_iff R L).mpr h⟩

theorem readable_obj {fields : List (String × Json)} {depth : ℕ} (hkeys : (Json.keys fields).Nodup)
    (h : ∀ f ∈ fields, Readable R L f.2 depth) : Readable R L (.obj fields) (depth + 1) :=
  ⟨Nat.succ_pos depth, hkeys, (readableFields_iff R L).mpr h⟩

/-- An array of texts or of pairs of texts, one level down for each bracket. -/
theorem readable_texts (items : List String) (depth : ℕ) :
    Readable R L (texts items) (depth + 1) := by
  apply readable_arr
  intro x hx
  obtain ⟨s, -, rfl⟩ := List.mem_map.mp hx
  trivial

theorem readable_pairs (pairs : List (String × String)) (depth : ℕ) :
    Readable R L (.arr (pairs.map pairJson)) (depth + 2) := by
  apply readable_arr
  intro x hx
  obtain ⟨pair, -, rfl⟩ := List.mem_map.mp hx
  exact readable_texts [pair.1, pair.2] depth

theorem readable_optionalBool (b : Option Bool) (depth : ℕ) :
    Readable R L (optionalBool b) depth := by
  cases b <;> trivial

theorem readable_siteJson (site : SiteSnapshot) (depth : ℕ) :
    Readable R L (siteJson site) (depth + 3) := by
  apply readable_obj
  · simp [Json.keys]
  · intro f hf
    simp only [List.mem_cons, List.not_mem_nil, or_false] at hf
    rcases hf with rfl | rfl | rfl | rfl | rfl
    · trivial
    · exact readable_pairs site.apps depth
    · exact readable_optionalBool _ _
    · exact readable_optionalBool _ _
    · trivial

theorem readable_benchJson (bench : BenchSnapshot) (depth : ℕ) :
    Readable R L (benchJson bench) (depth + 5) := by
  apply readable_obj (nodup_benchFields bench)
  intro f hf
  -- the fixed fields, and the required apps where they are reported
  rcases List.mem_append.mp hf with hf | hf
  · simp only [List.mem_cons, List.not_mem_nil, or_false] at hf
    rcases hf with rfl | rfl | rfl | rfl
    · trivial
    · exact readable_pairs bench.versions (depth + 2)
    · exact readable_texts bench.capabilities (depth + 3)
    · apply readable_arr
      intro x hx
      obtain ⟨site, -, rfl⟩ := List.mem_map.mp hx
      exact readable_siteJson site depth
  · cases hrequired : bench.requiredApps with
    | none =>
      rw [hrequired] at hf
      cases hf
    | some apps =>
      rw [hrequired] at hf
      rw [List.mem_singleton.mp hf]
      exact readable_texts apps (depth + 3)

/-- An accepted snapshot is seven levels deep, and its only number is the schema version. -/
theorem readable_snapshotJson {snapshot : InventorySnapshot} (h : ValidSnapshot R snapshot)
    (hdepth : 7 ≤ L.depth) (hdigits : 1 ≤ L.intDigits) :
    Readable R L (snapshotJson snapshot) L.depth := by
  apply readable_mono R L _ hdepth
  apply readable_obj (by simp [Json.keys])
  intro f hf
  simp only [List.mem_cons, List.not_mem_nil, or_false] at hf
  rcases hf with rfl | rfl | rfl
  · rw [h.schemaVersion]
    exact hdigits
  · trivial
  · apply readable_arr
    intro x hx
    obtain ⟨bench, -, rfl⟩ := List.mem_map.mp hx
    exact readable_benchJson bench 0

/-! ## Accepted heartbeats -/

/-- What an accepted state has been checked for. -/
structure Accepted (R : Runtime) (heartbeat : HeartbeatInventory) : Prop where
  valid : ValidSnapshot R heartbeat.inventory
  digestText : isText heartbeat.inventoryDigest.toList 64 = true
  sha256 : isSha256 heartbeat.inventoryDigest = true
  digest : digest R heartbeat.inventory = heartbeat.inventoryDigest

theorem accepted {state : Json} {heartbeat : HeartbeatInventory}
    (h : parseHeartbeatState R state = .ok heartbeat) : Accepted R heartbeat := by
  unfold parseHeartbeatState at h
  simp only [Transaction.bind_eq_ok] at h
  obtain ⟨raw, -, -, -, status, -, h⟩ := h
  split at h
  · cases h
  · simp only [Transaction.bind_eq_ok, ensure_eq_ok] at h
    obtain ⟨version, -, hash, htext, -, hsha, inventory, hinventory, -, hequal, h⟩ := h
    cases h
    exact ⟨parseInventory_valid hinventory, (text_eq_ok.mp htext).2, hsha, eq_of_beq hequal⟩

/-- The text of an accepted snapshot is read as its document. -/
theorem loads_canonicalJson (hloads : R.loads = L.json?) (hdepth : 7 ≤ L.depth)
    (hdigits : 1 ≤ L.intDigits) {snapshot : InventorySnapshot} (h : ValidSnapshot R snapshot) :
    R.loads (Inventory.canonicalJson R snapshot) = some (snapshotJson snapshot).sorted := by
  rw [hloads]
  exact json?_dumpsAscii (readable_snapshotJson h hdepth hdigits)

/-- Every heartbeat stores a text that reads back. -/
theorem readsBack_of_loads (hloads : R.loads = L.json?) (hdepth : 7 ≤ L.depth)
    (hdigits : 1 ≤ L.intDigits) (state : Json) : InventoryProjection.ReadsBack R state :=
  fun _ h => loads_canonicalJson hloads hdepth hdigits (accepted h).valid

/-- The state `_load_snapshot` parses. -/
def storedState (digest : String) (raw : Json) : Json :=
  .obj [("status", .str "ready"), ("version", .str "stored"), ("inventory_digest", .str digest),
    ("inventory", raw)]

/-- The document of an accepted snapshot is accepted with its digest. -/
theorem parse_storedState {heartbeat : HeartbeatInventory} (h : Accepted R heartbeat) :
    parseHeartbeatState R
      (storedState heartbeat.inventoryDigest (snapshotJson heartbeat.inventory).sorted)
      = .ok { heartbeat with status := .ready, version := "stored" } := by
  unfold parseHeartbeatState storedState
  simp only [Transaction.bind_eq_ok, ensure_eq_ok, exact]
  refine ⟨_, rfl, (), by simp [Ingestion.sameKeys, Json.keys], "ready",
    text_eq_ok.mpr ⟨rfl, by decide⟩, ?_⟩
  show (_ >>= _) = _
  simp only [Transaction.bind_eq_ok, ensure_eq_ok]
  exact ⟨"stored", text_eq_ok.mpr ⟨rfl, by decide⟩, heartbeat.inventoryDigest,
    text_eq_ok.mpr ⟨rfl, h.digestText⟩, (), h.sha256, heartbeat.inventory,
    parseInventory_snapshotJson h.valid, (), beq_iff_eq.mpr h.digest, rfl⟩

/-- Two accepted snapshots of one text are one snapshot. -/
theorem canonicalJson_injective (hloads : R.loads = L.json?) (hdepth : 7 ≤ L.depth)
    (hdigits : 1 ≤ L.intDigits) {snapshot snapshot' : InventorySnapshot}
    (h : ValidSnapshot R snapshot) (h' : ValidSnapshot R snapshot')
    (htext : Inventory.canonicalJson R snapshot = Inventory.canonicalJson R snapshot') :
    snapshot = snapshot' := by
  have hread := loads_canonicalJson hloads hdepth hdigits h
  rw [htext, loads_canonicalJson hloads hdepth hdigits h'] at hread
  have hparsed := parseInventory_snapshotJson h
  rw [← Option.some.inj hread, parseInventory_snapshotJson h'] at hparsed
  exact (Except.ok.inj hparsed).symm

/-- What a heartbeat had accepted is what its stored text reloads to, and it is told apart by its
text and, where no two texts share a digest, by its digest. -/
theorem snapshot_round_trip (hloads : R.loads = L.json?) (hdepth : 7 ≤ L.depth)
    (hdigits : 1 ≤ L.intDigits) :
    (∀ state heartbeat, parseHeartbeatState R state = .ok heartbeat →
      ∃ raw, R.loads (Inventory.canonicalJson R heartbeat.inventory) = some raw
        ∧ parseHeartbeatState R (storedState heartbeat.inventoryDigest raw)
          = .ok { heartbeat with status := .ready, version := "stored" }
        ∧ loadSnapshot R (Inventory.canonicalJson R heartbeat.inventory) heartbeat.inventoryDigest
          = .ok { digest := heartbeat.inventoryDigest, benches := heartbeat.inventory.benches
                  revision := 0 }
        ∧ digest R heartbeat.inventory = heartbeat.inventoryDigest)
    ∧ (∀ state state' heartbeat heartbeat', parseHeartbeatState R state = .ok heartbeat →
      parseHeartbeatState R state' = .ok heartbeat' →
      Inventory.canonicalJson R heartbeat.inventory = Inventory.canonicalJson R heartbeat'.inventory
        → heartbeat.inventory = heartbeat'.inventory)
    ∧ (Function.Injective R.sha256 →
      ∀ state state' heartbeat heartbeat', parseHeartbeatState R state = .ok heartbeat →
        parseHeartbeatState R state' = .ok heartbeat' →
        heartbeat.inventoryDigest = heartbeat'.inventoryDigest →
        heartbeat.inventory = heartbeat'.inventory) := by
  refine ⟨?_, ?_, ?_⟩
  · intro state heartbeat h
    have haccepted := accepted h
    -- the stored text is read back as the value it was written from
    have hread := loads_canonicalJson hloads hdepth hdigits haccepted.valid
    have hparsed := parse_storedState haccepted
    refine ⟨_, hread, hparsed, ?_, haccepted.digest⟩
    unfold loadSnapshot
    rw [hread]
    show (parseHeartbeatState R (storedState heartbeat.inventoryDigest
      (snapshotJson heartbeat.inventory).sorted) >>= _) = _
    rw [hparsed]
    rfl
  · intro state state' heartbeat heartbeat' h h' htext
    -- equal texts are read back as equal values
    exact canonicalJson_injective hloads hdepth hdigits (accepted h).valid (accepted h').valid htext
  · intro hinjective state state' heartbeat heartbeat' h h' hdigest
    apply canonicalJson_injective hloads hdepth hdigits (accepted h).valid (accepted h').valid
    -- equal digests have equal texts
    apply hinjective
    show digest R heartbeat.inventory = digest R heartbeat'.inventory
    rw [(accepted h).digest, (accepted h').digest, hdigest]

/-! ## A snapshot with required apps and characters outside ASCII -/

namespace Sample

def inventory : InventorySnapshot where
  schemaVersion := 1
  inventoryVersion := "1.0"
  benches := [{
    benchId := "bench-a", versions := [("frappe", "15.0 ü😀")], capabilities := ["site.verify"]
    sites := [], requiredApps := some ["frappe", "erpnext"] }]

def reader : Reader := { depth := 900, intDigits := 4300, readFloat := fun _ => .nan }

/-- The runtime's functions, before the one digest that is read. -/
def base : Runtime :=
  { InventoryProjection.Sample.base with loads := reader.json?
                                         unread := reader.unread
                                         sha256 := fun text => "x" ++ String.ofList text }

def hash : String := "e4f5d2cfea5b52bf43436073e25f06390bf424cdb1760a3b15af58d2adb94f64"

def runtime : Runtime :=
  { base with
    sha256 := fun text =>
      if text = Inventory.canonicalJson base inventory then hash else "x" ++ String.ofList text }

theorem toList_other (text : Text) : ("x" ++ String.ofList text).toList = 'x' :: text := by
  simp [String.toList_append]

theorem sha256_injective : Function.Injective runtime.sha256 := by
  -- the one true digest starts with another letter than the rest
  have hdiffer : ∀ text : Text, hash ≠ "x" ++ String.ofList text := by
    intro text h
    have hchars := congrArg String.toList h
    rw [toList_other] at hchars
    have hhead : some 'e' = some 'x' := congrArg List.head? hchars
    exact absurd hhead (by decide)
  intro t t' h
  simp only [runtime] at h
  split at h
  · rename_i ht
    split at h
    · rename_i ht'
      rw [ht, ht']
    · exact absurd h (hdiffer t')
  · split at h
    · exact absurd h.symm (hdiffer t)
    · have hchars := congrArg String.toList h
      rw [toList_other, toList_other] at hchars
      exact (List.cons.inj hchars).2

def state : Json :=
  .obj [("status", .str "ready"), ("version", .str "1.0.0"), ("inventory_digest", .str hash),
    ("inventory", snapshotJson inventory)]

def parsed : HeartbeatInventory where
  status := .ready
  version := "1.0.0"
  inventoryDigest := hash
  inventory := inventory

theorem parse_state : parseHeartbeatState runtime state = .ok parsed := by decide +kernel

end Sample

/-- A snapshot with required apps, Unicode text and its real digest reloads. -/
theorem snapshot_round_trip_sample :
    parseHeartbeatState Sample.runtime Sample.state = .ok Sample.parsed
    ∧ loadSnapshot Sample.runtime
        (Inventory.canonicalJson Sample.runtime Sample.parsed.inventory) Sample.hash
      = .ok { digest := Sample.hash, benches := Sample.parsed.inventory.benches, revision := 0 }
    ∧ ∀ state heartbeat, parseHeartbeatState Sample.runtime state = .ok heartbeat →
      heartbeat.inventoryDigest = Sample.hash → heartbeat.inventory = Sample.inventory := by
  obtain ⟨hreload, -, hdigests⟩ :=
    snapshot_round_trip (R := Sample.runtime) (L := Sample.reader) rfl (by decide) (by decide)
  obtain ⟨raw, -, -, hload, -⟩ := hreload Sample.state Sample.parsed Sample.parse_state
  refine ⟨Sample.parse_state, hload, fun state heartbeat h hdigest => ?_⟩
  exact hdigests Sample.sha256_injective state Sample.state heartbeat Sample.parsed h
    Sample.parse_state hdigest

end SnapshotReload

end FrappeController
