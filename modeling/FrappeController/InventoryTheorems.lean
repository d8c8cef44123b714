import FrappeController.CanonicalJson
import FrappeController.Inventory

/-!
# A snapshot reads back from its own document

`parseInventory_snapshotJson`: a snapshot that was parsed once is parsed again, to itself, from
the decoded document of its `canonical_json`. What a parse guarantees is collected in
`ValidSite`, `ValidBench` and `ValidSnapshot`, level by level, and each level's document parses
when its parts do.
-/

namespace FrappeController
namespace Inventory

open Transaction (bind_eq_ok)

variable {R : Runtime}

/-! ## Texts, arrays and pairs -/

/-- `_text` accepts exactly the strings of its own pattern and hands them through. -/
theorem text_eq_ok {value : Json} {name s : String} {limit : ℕ} :
    text value name limit = .ok s ↔ value = .str s ∧ isText s.toList limit = true := by
  cases value with
  | str t =>
    by_cases ht : isText t.toList limit = true
    · rw [text, if_pos ht]
      constructor
      · intro h
        cases h
        exact ⟨rfl, ht⟩
      · rintro ⟨h, -⟩
        cases h
        rfl
    · rw [text, if_neg ht]
      constructor
      · intro h
        cases h
      · rintro ⟨h, hs⟩
        cases h
        exact absurd hs ht
  | _ => simp [text]

/-- `_array` accepts exactly the arrays within the limit. -/
theorem array_eq_ok {value : Json} {name : String} {limit : ℕ} {items : List Json} :
    array value name limit = .ok items ↔ value = .arr items ∧ items.length ≤ limit := by
  cases value with
  | arr others =>
    by_cases hlength : others.length ≤ limit
    · simp only [array, if_pos hlength, Except.ok.injEq, Json.arr.injEq]
      constructor
      · rintro rfl
        exact ⟨rfl, hlength⟩
      · exact And.left
    · simp only [array, if_neg hlength, Json.arr.injEq]
      constructor
      · intro h
        cases h
      · rintro ⟨rfl, h⟩
        exact absurd h hlength
  | _ => simp [array]

section ParseItems

variable {α : Type} {parse : ℕ → Json → Except Exc α}

/-- Every item of a parsed list was accepted by the item parser, and none is dropped. -/
theorem parseItems_eq_ok {index : ℕ} {items : List Json} {out : List α}
    (h : parseItems parse index items = .ok out) :
    out.length = items.length ∧ ∀ x ∈ out, ∃ i item, parse i item = .ok x := by
  induction items generalizing index out with
  | nil =>
    cases h
    exact ⟨rfl, fun x hx => by cases hx⟩
  | cons item rest ih =>
    simp only [parseItems, bind_eq_ok] at h
    obtain ⟨parsed, hparsed, others, hothers, hout⟩ := h
    cases hout
    obtain ⟨hlength, hall⟩ := ih hothers
    refine ⟨by simp [hlength], fun x hx => ?_⟩
    rcases List.mem_cons.mp hx with rfl | hx
    · exact ⟨index, item, hparsed⟩
    · exact hall x hx

/-- Items that read back one by one read back together. -/
theorem parseItems_map {encode : α → Json} {xs : List α}
    (h : ∀ x ∈ xs, ∀ index, parse index (encode x) = .ok x) (index : ℕ) :
    parseItems parse index (xs.map encode) = .ok xs := by
  induction xs generalizing index with
  | nil => rfl
  | cons x rest ih =>
    have hrest := ih (fun y hy => h y (List.mem_cons_of_mem x hy)) (index + 1)
    rw [List.map_cons, parseItems, h x (by simp) index]
    show (parseItems parse (index + 1) (rest.map encode) >>= fun others => pure (x :: others)) = _
    rw [hrest]
    rfl

end ParseItems

/-- Sorting the keys of encoded items sorts the keys of each. -/
theorem sortedItems_map {α : Type} (encode : α → Json) (xs : List α) :
    Json.sortedItems (xs.map encode) = xs.map fun x => (encode x).sorted := by
  induction xs with
  | nil => rfl
  | cons x rest ih => rw [List.map_cons, Json.sortedItems, ih, List.map_cons]

/-- What `_pairs` accepts. -/
structure ValidPairs (items : List (String × String)) (limit : ℕ) : Prop where
  length : items.length ≤ limit
  texts : ∀ p ∈ items, isText p.1.toList 128 = true ∧ isText p.2.toList 256 = true
  order : (items == sortPairs items && (items.map Prod.fst).Nodup) = true

/-- Both texts of an accepted pair keep their bounds. -/
theorem pair_eq_ok {name : String} {index : ℕ} {value : Json} {p : String × String}
    (h : pair name index value = .ok p) :
    isText p.1.toList 128 = true ∧ isText p.2.toList 256 = true := by
  simp only [pair, bind_eq_ok] at h
  obtain ⟨items, -, h⟩ := h
  split at h
  · simp only [bind_eq_ok] at h
    obtain ⟨first, hfirst, second, hsecond, h⟩ := h
    cases h
    exact ⟨(text_eq_ok.mp hfirst).2, (text_eq_ok.mp hsecond).2⟩
  · cases h

/-- An accepted list of pairs is a valid one. -/
theorem pairs_valid {value : Json} {name : String} {limit : ℕ} {items : List (String × String)}
    (h : pairs value name limit = .ok items) : ValidPairs items limit := by
  simp only [pairs, bind_eq_ok, ensure_eq_ok] at h
  obtain ⟨raw, hraw, result, hresult, -, horder, h⟩ := h
  cases h
  obtain ⟨hlength, hall⟩ := parseItems_eq_ok hresult
  refine ⟨hlength ▸ (array_eq_ok.mp hraw).2, fun p hp => ?_, horder⟩
  obtain ⟨i, item, hitem⟩ := hall p hp
  exact pair_eq_ok hitem

/-- A valid pair is read back from its encoding. -/
theorem pair_pairJson {p : String × String} {name : String} {index : ℕ}
    (h : isText p.1.toList 128 = true ∧ isText p.2.toList 256 = true) :
    pair name index (pairJson p).sorted = .ok p := by
  have hfirst : text (.str p.1) name 128 = .ok p.1 := text_eq_ok.mpr ⟨rfl, h.1⟩
  have hsecond : text (.str p.2) name 256 = .ok p.2 := text_eq_ok.mpr ⟨rfl, h.2⟩
  simp only [pairJson, Json.sorted, Json.sortedItems, pair, bind_eq_ok]
  refine ⟨_, array_eq_ok.mpr ⟨rfl, by simp⟩, ?_⟩
  simp only [hfirst, hsecond]
  rfl

/-- A valid list of pairs is read back from its encoding. -/
theorem pairs_pairJson {items : List (String × String)} {name : String} {limit : ℕ}
    (h : ValidPairs items limit) :
    pairs (Json.arr (items.map pairJson)).sorted name limit = .ok items := by
  simp only [Json.sorted, sortedItems_map, pairs, bind_eq_ok, ensure_eq_ok]
  refine ⟨_, array_eq_ok.mpr ⟨rfl, by simpa using h.length⟩, items, ?_, (), h.order, rfl⟩
  exact parseItems_map (fun p hp _ => pair_pairJson (h.texts p hp)) 0

/-- What a list of bounded texts is. -/
structure ValidTexts (items : List String) (limit textLimit : ℕ) : Prop where
  length : items.length ≤ limit
  texts : ∀ s ∈ items, isText s.toList textLimit = true

/-- An accepted list of texts is a valid one. -/
theorem textItems_valid {value : Json} {arrayName name : String} {limit textLimit : ℕ}
    {items : List String} (h : textItems value arrayName name limit textLimit = .ok items) :
    ValidTexts items limit textLimit := by
  simp only [textItems, bind_eq_ok] at h
  obtain ⟨raw, hraw, hresult⟩ := h
  obtain ⟨hlength, hall⟩ := parseItems_eq_ok hresult
  refine ⟨hlength ▸ (array_eq_ok.mp hraw).2, fun s hs => ?_⟩
  obtain ⟨i, item, hitem⟩ := hall s hs
  exact (text_eq_ok.mp hitem).2

/-- A valid list of texts is read back from its encoding. -/
theorem textItems_texts {items : List String} {arrayName name : String} {limit textLimit : ℕ}
    (h : ValidTexts items limit textLimit) :
    textItems (texts items).sorted arrayName name limit textLimit = .ok items := by
  simp only [texts, Json.sorted, sortedItems_map, textItems, bind_eq_ok]
  refine ⟨_, array_eq_ok.mpr ⟨rfl, by simpa using h.length⟩, ?_⟩
  exact parseItems_map (fun s hs _ => text_eq_ok.mpr ⟨rfl, h.texts s hs⟩) 0

/-- An optional flag is read back from its encoding, absent ones as `null`. -/
theorem flag_optionalBool (b : Option Bool) (message : String) :
    flag (optionalBool b).sorted message = .ok b := by
  cases b <;> rfl

/-- An object has the same keys whatever their order. -/
theorem sameKeys_sorted (fields : List (String × Json)) (keys : List String) :
    Ingestion.sameKeys (sortByKey (Json.sortedFields fields)) keys =
      Ingestion.sameKeys fields keys := by
  have hmem : ∀ key, key ∈ Json.keys (sortByKey (Json.sortedFields fields)) ↔
      key ∈ Json.keys fields := by
    intro key
    rw [Json.keys, Json.keys, ← Json.keys_sortedFields fields]
    exact ((perm_sortByKey _).map Prod.fst).mem_iff
  rw [Bool.eq_iff_iff]
  simp only [Ingestion.sameKeys, Bool.and_eq_true, List.all_eq_true, List.contains_iff_mem, hmem]

/-! ## Sites -/

variable (R) in
structure ValidSite (site : SiteSnapshot) : Prop where
  domainText : isText site.domain.toList 253 = true
  domain : (site.domain == R.lower site.domain && isDomain site.domain) = true
  databaseText : isText site.databaseName.toList 64 = true
  database : isDatabase site.databaseName = true
  apps : ValidPairs site.apps 256

/-- A site is accepted only with every field valid. -/
theorem parseSite_valid {parent : String} {index : ℕ} {value : Json} {site : SiteSnapshot}
    (h : parseSite R parent index value = .ok site) : ValidSite R site := by
  simp only [parseSite, bind_eq_ok, ensure_eq_ok] at h
  obtain ⟨raw, -, -, -, domain, hdomain, -, hvalid, database, hdatabase, -, hname, scheduler, -,
    maintenance, -, apps, happs, h⟩ := h
  cases h
  exact ⟨(text_eq_ok.mp hdomain).2, hvalid, (text_eq_ok.mp hdatabase).2, hname, pairs_valid happs⟩

/-- A valid site is read back from its encoding, under any parent and index. -/
theorem parseSite_siteJson {site : SiteSnapshot} (h : ValidSite R site) (parent : String)
    (index : ℕ) : parseSite R parent index (siteJson site).sorted = .ok site := by
  have hkeys : (Json.keys [("domain", Json.str site.domain),
      ("apps", .arr (site.apps.map pairJson)),
      ("scheduler_enabled", optionalBool site.schedulerEnabled),
      ("maintenance_mode", optionalBool site.maintenanceMode),
      ("database_name", .str site.databaseName)]).Nodup := by
    simp [Json.keys]
  simp only [siteJson, Json.sorted, parseSite, bind_eq_ok, ensure_eq_ok, exact]
  refine ⟨_, rfl, ?_⟩
  simp only [sameKeys_sorted, Json.getField_sorted hkeys]
  refine ⟨(), by simp [Ingestion.sameKeys, Json.keys], site.domain,
    text_eq_ok.mpr ⟨rfl, h.domainText⟩, (), h.domain, site.databaseName,
    text_eq_ok.mpr ⟨rfl, h.databaseText⟩, (), h.database, site.schedulerEnabled,
    flag_optionalBool .., site.maintenanceMode, flag_optionalBool .., site.apps,
    pairs_pairJson h.apps, rfl⟩

/-! ## Benches -/

variable (R) in
structure ValidBench (bench : BenchSnapshot) : Prop where
  idText : isText bench.benchId.toList 64 = true
  id : isBench bench.benchId = true
  capabilityTexts : ValidTexts bench.capabilities 128 128
  capabilities : (bench.capabilities == sortTexts bench.capabilities && bench.capabilities.Nodup
    && bench.capabilities.all isCapability) = true
  siteCount : bench.sites.length ≤ 10000
  sites : ∀ site ∈ bench.sites, ValidSite R site
  domains : (bench.sites.map (·.domain) == sortTexts (bench.sites.map (·.domain))
    && (bench.sites.map (·.domain)).Nodup) = true
  requiredApps : ∀ apps, bench.requiredApps = some apps →
    ValidTexts apps 128 64 ∧ validRequiredApps apps = true
  versions : ValidPairs bench.versions 128

/-- Required apps, where given, are valid and keep the rules of their own. -/
theorem requiredApps_valid {raw : List (String × Json)} {required : Option (List String)}
    (h : requiredApps raw = .ok required) :
    ∀ apps, required = some apps → ValidTexts apps 128 64 ∧ validRequiredApps apps = true := by
  unfold requiredApps at h
  split at h
  · simp only [bind_eq_ok, ensure_eq_ok] at h
    obtain ⟨items, hitems, -, hvalid, h⟩ := h
    cases h
    rintro apps ⟨⟩
    exact ⟨textItems_valid hitems, hvalid⟩
  · cases h
    intro apps happs
    cases happs

/-- A bench is accepted only with every field valid. -/
theorem parseBench_valid {index : ℕ} {value : Json} {bench : BenchSnapshot}
    (h : parseBench R index value = .ok bench) : ValidBench R bench := by
  simp only [parseBench, bind_eq_ok, ensure_eq_ok] at h
  obtain ⟨raw, -, -, -, benchId, hid, -, hbench, capabilities, hcapabilities, -, hsorted, items,
    hitems, sites, hsites, -, hdomains, required, hrequired, versions, hversions, h⟩ := h
  cases h
  obtain ⟨hlength, hall⟩ := parseItems_eq_ok hsites
  refine ⟨(text_eq_ok.mp hid).2, hbench, textItems_valid hcapabilities, hsorted,
    hlength ▸ (array_eq_ok.mp hitems).2, fun site hsite => ?_, hdomains,
    requiredApps_valid hrequired, pairs_valid hversions⟩
  obtain ⟨i, item, hitem⟩ := hall site hsite
  exact parseSite_valid hitem

/-- The fields of a bench document. -/
def benchFields (bench : BenchSnapshot) : List (String × Json) :=
  [("bench_id", .str bench.benchId), ("versions", .arr (bench.versions.map pairJson)),
    ("capabilities", texts bench.capabilities), ("sites", .arr (bench.sites.map siteJson))]
    ++ (match bench.requiredApps with
      | none => []
      | some apps => [("required_apps", texts apps)])

/-- The encoding of a bench has each key once. -/
theorem nodup_benchFields (bench : BenchSnapshot) : (Json.keys (benchFields bench)).Nodup := by
  unfold benchFields
  cases bench.requiredApps <;> simp [Json.keys]

/-- Whether the required apps are given does not depend on the order of the keys. -/
theorem hasRequiredApps_sorted (fields : List (String × Json)) :
    hasRequiredApps (sortByKey (Json.sortedFields fields)) = hasRequiredApps fields := by
  rw [hasRequiredApps, hasRequiredApps, Bool.eq_iff_iff, List.contains_iff_mem,
    List.contains_iff_mem, Json.keys, Json.keys, ← Json.keys_sortedFields fields]
  exact ((perm_sortByKey _).map Prod.fst).mem_iff

/-- The required apps of a valid bench are read back, given or not. -/
theorem requiredApps_benchFields {bench : BenchSnapshot} (h : ValidBench R bench) :
    requiredApps (sortByKey (Json.sortedFields (benchFields bench))) = .ok bench.requiredApps := by
  rw [requiredApps, hasRequiredApps_sorted, Json.getField_sorted (nodup_benchFields bench)]
  cases hrequired : bench.requiredApps with
  | none => simp [benchFields, hrequired, hasRequiredApps, Json.keys]
  | some apps =>
    obtain ⟨htexts, hvalid⟩ := h.requiredApps apps hrequired
    rw [if_pos (by simp [benchFields, hrequired, hasRequiredApps, Json.keys])]
    have hget : Json.get (benchFields bench) "required_apps" = texts apps := by
      simp [benchFields, hrequired, Json.get, List.lookup_cons]
    simp only [hget, textItems_texts htexts, bind_eq_ok, ensure_eq_ok]
    exact ⟨apps, rfl, (), hvalid, rfl⟩

/-- A valid bench is read back from its encoding. -/
theorem parseBench_benchJson {bench : BenchSnapshot} (h : ValidBench R bench) (index : ℕ) :
    parseBench R index (benchJson bench).sorted = .ok bench := by
  have hfields : benchJson bench = .obj (benchFields bench) := rfl
  have hsame : Ingestion.sameKeys (benchFields bench)
      (["bench_id", "versions", "capabilities", "sites"]
        ++ (if hasRequiredApps (benchFields bench) then ["required_apps"] else [])) = true := by
    unfold benchFields
    cases bench.requiredApps <;> simp [Ingestion.sameKeys, hasRequiredApps, Json.keys]
  have hsites : (Json.arr (bench.sites.map siteJson)).sorted =
      .arr (bench.sites.map fun site => (siteJson site).sorted) := by
    rw [Json.sorted, sortedItems_map]
  simp only [hfields, Json.sorted, parseBench, bind_eq_ok, ensure_eq_ok, exact]
  refine ⟨_, rfl, ?_⟩
  simp only [sameKeys_sorted, hasRequiredApps_sorted, requiredApps_benchFields h,
    Json.getField_sorted (nodup_benchFields bench)]
  refine ⟨(), hsame, bench.benchId, text_eq_ok.mpr ⟨rfl, h.idText⟩, (), h.id,
    bench.capabilities, textItems_texts h.capabilityTexts, (), h.capabilities, _,
    array_eq_ok.mpr ⟨hsites, by simpa using h.siteCount⟩, bench.sites, ?_, (), h.domains,
    bench.requiredApps, rfl, bench.versions, pairs_pairJson h.versions, rfl⟩
  exact parseItems_map (fun site hsite i => parseSite_siteJson (h.sites site hsite) _ i) 0

/-! ## Snapshots -/

variable (R) in
structure ValidSnapshot (snapshot : InventorySnapshot) : Prop where
  schemaVersion : snapshot.schemaVersion = 1
  inventoryVersion : snapshot.inventoryVersion = "1.0"
  benchCount : snapshot.benches.length ≤ 256
  benches : ∀ bench ∈ snapshot.benches, ValidBench R bench
  ids : (snapshot.benches.map (·.benchId) == sortTexts (snapshot.benches.map (·.benchId))
    && (snapshot.benches.map (·.benchId)).Nodup) = true
  domains : (domains snapshot.benches).Nodup
  siteCount : (Inventory.domains snapshot.benches).length ≤ 10000

/-- An inventory is accepted only with every part valid. -/
theorem parseInventory_valid {value : Json} {snapshot : InventorySnapshot}
    (h : parseInventory R value = .ok snapshot) : ValidSnapshot R snapshot := by
  simp only [parseInventory, bind_eq_ok] at h
  obtain ⟨raw, -, -, -, h⟩ := h
  split at h
  · simp only [bind_eq_ok, ensure_eq_ok, decide_eq_true_eq] at h
    obtain ⟨items, hitems, benches, hbenches, -, hids, -, hdomains, -, hcount, h⟩ := h
    cases h
    obtain ⟨hlength, hall⟩ := parseItems_eq_ok hbenches
    refine ⟨rfl, rfl, hlength ▸ (array_eq_ok.mp hitems).2, fun bench hbench => ?_, hids, hdomains,
      hcount⟩
    obtain ⟨i, item, hitem⟩ := hall bench hbench
    exact parseBench_valid hitem
  · cases h
  · cases h

/-- A heartbeat state is accepted only with a valid inventory. -/
theorem parseHeartbeatState_valid {state : Json} {heartbeat : HeartbeatInventory}
    (h : parseHeartbeatState R state = .ok heartbeat) : ValidSnapshot R heartbeat.inventory := by
  unfold parseHeartbeatState at h
  simp only [bind_eq_ok] at h
  obtain ⟨raw, -, -, -, status, -, h⟩ := h
  split at h
  · cases h
  · simp only [bind_eq_ok] at h
    obtain ⟨version, -, digest, -, -, -, inventory, hinventory, -, -, h⟩ := h
    cases h
    exact parseInventory_valid hinventory

/-- A valid snapshot reads back from its own document. -/
theorem parseInventory_snapshotJson {snapshot : InventorySnapshot} (h : ValidSnapshot R snapshot) :
    parseInventory R (snapshotJson snapshot).sorted = .ok snapshot := by
  obtain ⟨schemaVersion, inventoryVersion, benches⟩ := snapshot
  obtain ⟨rfl, rfl, hcount, hbenches, hids, hdomains, hsites⟩ := h
  have hkeys : (Json.keys [("schema_version", Json.int 1), ("inventory_version", .str "1.0"),
      ("benches", .arr (benches.map benchJson))]).Nodup := by
    simp [Json.keys]
  have hitems : (Json.arr (benches.map benchJson)).sorted =
      .arr (benches.map fun bench => (benchJson bench).sorted) := by
    rw [Json.sorted, sortedItems_map]
  have hschema : Json.get (sortByKey (Json.sortedFields [("schema_version", .int 1),
      ("inventory_version", .str "1.0"), ("benches", .arr (benches.map benchJson))]))
      "schema_version" = .int 1 :=
    Json.getField_sorted hkeys _
  have hversion : Json.get (sortByKey (Json.sortedFields [("schema_version", .int 1),
      ("inventory_version", .str "1.0"), ("benches", .arr (benches.map benchJson))]))
      "inventory_version" = .str "1.0" :=
    Json.getField_sorted hkeys _
  simp only [snapshotJson, Json.sorted, parseInventory, bind_eq_ok, exact, ensure_eq_ok]
  refine ⟨_, rfl, (), ?_, ?_⟩
  · rw [sameKeys_sorted]
    simp [Ingestion.sameKeys, Json.keys]
  simp only [hschema, hversion, bind_eq_ok, ensure_eq_ok, decide_eq_true_eq,
    Json.getField_sorted hkeys]
  refine ⟨_, array_eq_ok.mpr ⟨hitems, by simpa using hcount⟩, benches, ?_, (), hids, (), hdomains,
    (), hsites, rfl⟩
  exact parseItems_map (fun bench hbench i => parseBench_benchJson (hbenches bench hbench) i) 0

end Inventory

end FrappeController
