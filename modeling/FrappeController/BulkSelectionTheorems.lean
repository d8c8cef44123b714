import FrappeController.BulkSelection
import FrappeController.JsonRoundTrip
import FrappeController.TargetKeys
import Mathlib.Algebra.BigOperators.Group.List.Lemmas

/-!
# What a resolved selection is

`resolve_eq_ok` says when a selection resolves (`Accepts`, a condition on the set of candidates) and
to what (`Resolves`): the candidates in the order of their target keys, numbered. Target keys tell
candidates apart (`siteId_of_targetKey`), so there is one such order.
-/

namespace FrappeController
namespace Bulk

open Transaction (bind_eq_ok)

/-! ## Snapshots -/

/-- Two snapshots with one set of fields are equal. -/
theorem BulkTargetSnapshot.ext_fields {t t' : BulkTargetSnapshot}
    (h : t.toTargetFields = t'.toTargetFields) : t = t' := by
  obtain ⟨fields, hvalid⟩ := t
  obtain ⟨fields', hvalid'⟩ := t'
  cases h
  rfl

/-- A snapshot is made of exactly the fields that pass their check. -/
theorem new_eq_ok {fields : TargetFields} {t : BulkTargetSnapshot} :
    fields.new = .ok t ↔ t.toTargetFields = fields := by
  constructor
  · intro h
    unfold TargetFields.new at h
    split at h
    · rw [← Except.ok.inj h]
    · cases h
  · intro h
    subst h
    unfold TargetFields.new
    split
    · rfl
    · rename_i e he
      exact absurd (t.valid.symm.trans he) (by simp)

/-- Fields that pass the check make a snapshot. -/
theorem exists_new {fields : TargetFields} (h : fields.postInit = .ok ()) :
    ∃ t, fields.new = .ok t := ⟨⟨fields, h⟩, new_eq_ok.mpr rfl⟩

/-- A snapshot may have any place. -/
theorem exists_numbered (t : BulkTargetSnapshot) (place : ℕ) :
    ∃ t', TargetFields.new { t.toTargetFields with ordinal := place } = .ok t' := by
  apply exists_new
  have hvalid := t.valid
  simp only [TargetFields.postInit, bind_eq_ok, ensure_eq_ok, identifier, digest] at hvalid ⊢
  obtain ⟨-, -, hrest⟩ := hvalid
  exact ⟨(), by simp, hrest⟩

/-- The target key of a candidate. -/
def SelectableSite.targetKey (site : SelectableSite) : String :=
  targetKeyOf site.agentId site.benchId site.siteId

/-- Numbering never fails, and changes the places only. -/
theorem number_spec (ordered : List BulkTargetSnapshot) :
    ∃ targets, number ordered = .ok targets
      ∧ targets.map (·.toTargetFields) = ordered.zipIdx.map fun entry =>
        { entry.1.toTargetFields with ordinal := entry.2 } := by
  obtain ⟨targets, htargets⟩ : ∃ targets, number ordered = .ok targets :=
    Keyed.exists_mapM fun entry _ => exists_numbered entry.1 entry.2
  refine ⟨targets, htargets, Keyed.map_eq_of_forall₂ ?_⟩
  exact (Keyed.mapM_eq_ok.mp htargets).imp fun _ _ h => new_eq_ok.mp h

/-! ## The candidates a selection accepts -/

/-- A candidate meets every clause of the selector. -/
structure Meets (selector : BulkSelector) (operationType : String) (site : SelectableSite) :
    Prop where
  enabled : site.agentEnabled = true ∧ site.benchEnabled = true ∧ site.siteEnabled = true
  capability : operationType ∈ site.capabilities
  exact : selector.exactSiteIds ≠ [] → site.siteId ∈ selector.exactSiteIds
  environment : truthy selector.environment = true → selector.environment = some site.environment
  agents : selector.agentIds ≠ [] → site.agentId ∈ selector.agentIds
  benches : selector.benchIds ≠ [] → site.benchId ∈ selector.benchIds
  labels : ∀ label ∈ selector.labels, label ∈ site.labels

/-- An empty clause of a selector admits every candidate. -/
theorem isEmpty_or_mem {ids : List String} {p : Prop} :
    (ids.isEmpty = true ∨ p) ↔ (ids ≠ [] → p) := by
  rw [List.isEmpty_iff]
  constructor
  · exact fun h hne => h.resolve_left hne
  · exact fun h => or_iff_not_imp_left.mpr h

variable {selector : BulkSelector} {operationType : String}

/-- A candidate is accepted that is new and meets every clause. -/
theorem checkCandidate_eq_ok {seen : List String} {row : SelectableSite} {u : Unit} :
    checkCandidate selector operationType seen row = .ok u ↔
      row.siteId ∉ seen ∧ Meets selector operationType row := by
  have hcontains : seen.contains row.siteId = false ↔ row.siteId ∉ seen := by
    rw [Bool.eq_false_iff, Ne, List.contains_iff_mem]
  simp only [checkCandidate, bind_eq_ok, ensure_eq_ok, isEmpty_or_mem, Bool.not_eq_true',
    Bool.and_eq_true, Bool.or_eq_true, decide_eq_true_eq, List.all_eq_true, beq_iff_eq,
    List.contains_iff_mem, hcontains]
  constructor
  · intro h
    obtain ⟨-, hnew, -, ⟨⟨hagent, hbench⟩, hsite⟩, -, hcapability, -, hexact, -, henvironment, -,
      hagents, -, hbenches, hlabels⟩ := h
    refine ⟨hnew, ⟨hagent, hbench, hsite⟩, hcapability, hexact, fun htruthy => ?_, hagents, hbenches,
      hlabels⟩
    exact henvironment.resolve_left fun hfalse => Bool.false_ne_true (hfalse.symm.trans htruthy)
  · intro h
    obtain ⟨hnew, hmeets⟩ := h
    refine ⟨(), hnew, (), ⟨⟨hmeets.enabled.1, hmeets.enabled.2.1⟩, hmeets.enabled.2.2⟩, (),
      hmeets.capability, (), hmeets.exact, (), ?_, (), hmeets.agents, (), hmeets.benches,
      hmeets.labels⟩
    by_cases htruthy : truthy selector.environment = true
    · exact .inr (hmeets.environment htruthy)
    · exact .inl (Bool.eq_false_of_not_eq_true htruthy)

/-- The dictionary after the loop: every candidate under its own id. -/
theorem bySite_eq_ok {seen out : List (String × SelectableSite)} {rows : List SelectableSite} :
    bySite selector operationType seen rows = .ok out ↔
      out = seen ++ rows.map (fun row => (row.siteId, row))
        ∧ (∀ row ∈ rows, Meets selector operationType row)
        ∧ (rows.map (·.siteId)).Nodup
        ∧ ∀ row ∈ rows, row.siteId ∉ seen.map Prod.fst := by
  induction rows generalizing seen with
  | nil =>
    rw [bySite, List.map_nil, List.append_nil]
    constructor
    · intro h
      refine ⟨(Except.ok.inj h).symm, ?_, List.nodup_nil, ?_⟩
      · exact fun row hrow => absurd hrow List.not_mem_nil
      · exact fun row hrow => absurd hrow List.not_mem_nil
    · intro h
      rw [h.1]
  | cons row rest ih =>
    simp only [bySite, bind_eq_ok, checkCandidate_eq_ok, ih, List.map_append, List.map_cons,
      List.map_nil, List.append_assoc, List.singleton_append, List.nodup_cons, List.forall_mem_cons]
    constructor
    · intro h
      obtain ⟨-, ⟨hnew, hmeets⟩, hout, hrest, hnodup, hfresh⟩ := h
      refine ⟨hout, ⟨hmeets, hrest⟩, ⟨?_, hnodup⟩, hnew, ?_⟩
      · intro hmem
        obtain ⟨other, hother, heq⟩ := List.mem_map.mp hmem
        have hhere : other.siteId ∈ [row.siteId] := List.mem_singleton.mpr heq
        exact hfresh other hother (List.mem_append_right _ hhere)
      · exact fun other hother hmem => hfresh other hother (List.mem_append_left _ hmem)
    · intro h
      obtain ⟨hout, ⟨hmeets, hrest⟩, ⟨hhead, hnodup⟩, hnew, hfresh⟩ := h
      refine ⟨(), ⟨hnew, hmeets⟩, hout, hrest, hnodup, ?_⟩
      intro other hother hmem
      rcases List.mem_append.mp hmem with hmem | hmem
      · exact hfresh other hother hmem
      · apply hhead
        rw [← List.mem_singleton.mp hmem]
        exact List.mem_map_of_mem hother

/-- When a selection resolves: a condition on the candidates that their order is not part of. -/
structure Accepts (service : BulkSelectionService) (selector : BulkSelector)
    (operationType : String) (policyMaximum : ℤ) (allowMixedEnvironments : Bool)
    (rows : List SelectableSite) : Prop where
  policy : 1 ≤ policyMaximum ∧ policyMaximum ≤ service.systemMaximum
  nonempty : rows ≠ []
  count : rows.length ≤ policyMaximum ∧ rows.length ≤ service.systemMaximum
  unique : (rows.map (·.siteId)).Nodup
  meets : ∀ row ∈ rows, Meets selector operationType row
  exact : selector.exactSiteIds ≠ [] → ∀ id, id ∈ rows.map (·.siteId) ↔ id ∈ selector.exactSiteIds
  staging : selector.environment = some "staging" → "production" ∉ rows.map (·.environment)
  mixed : (environmentsOf rows).length ≤ 1 ∨ allowMixedEnvironments = true
  valid : ∀ row ∈ rows, (row.target 0).postInit = .ok ()

variable {service : BulkSelectionService} {policyMaximum : ℤ} {allowMixedEnvironments : Bool}
  {rows rows' : List SelectableSite}

/-- The environments do not depend on the order of the candidates. -/
theorem environmentsOf_perm (h : rows'.Perm rows) :
    (environmentsOf rows').Perm (environmentsOf rows) :=
  (h.map _).dedup

/-- Acceptance does not depend on the order of the candidates. -/
theorem Accepts.perm (hperm : rows'.Perm rows)
    (h : Accepts service selector operationType policyMaximum allowMixedEnvironments rows) :
    Accepts service selector operationType policyMaximum allowMixedEnvironments rows' where
  policy := h.policy
  nonempty := fun hnil => h.nonempty (List.nil_perm.mp (hnil ▸ hperm))
  count := by
    rw [hperm.length_eq]
    exact h.count
  unique := (hperm.map _).nodup_iff.mpr h.unique
  meets := fun row hrow => h.meets row (hperm.mem_iff.mp hrow)
  exact := fun hne id => ((hperm.map _).mem_iff).trans (h.exact hne id)
  staging := fun hstaging hmem => h.staging hstaging ((hperm.map _).mem_iff.mp hmem)
  mixed := by
    rw [(environmentsOf_perm hperm).length_eq]
    exact h.mixed
  valid := fun row hrow => h.valid row (hperm.mem_iff.mp hrow)

/-! ## What a selection resolves to -/

/-- The targets are the candidates in the order of their keys. -/
structure Resolves (selector : BulkSelector) (rows : List SelectableSite)
    (resolved : ResolvedBulkSelection) : Prop where
  selector : resolved.selector = selector
  sites : resolved.selectedSites.Perm rows
  targets : resolved.targets.map (·.toTargetFields) =
    resolved.selectedSites.zipIdx.map fun entry => entry.1.target entry.2
  order : Keyed.Strict SelectableSite.targetKey resolved.selectedSites
  counts : resolved.environmentCounts = environmentCounts rows

/-- The counts do not depend on the order of the candidates. -/
theorem environmentCounts_perm (h : rows'.Perm rows) :
    environmentCounts rows' = environmentCounts rows := by
  have hsorted : Inventory.sortTexts (environmentsOf rows')
      = Inventory.sortTexts (environmentsOf rows) := by
    refine List.Perm.eq_of_pairwise' (List.pairwise_insertionSort (· ≤ ·) _)
      (List.pairwise_insertionSort (· ≤ ·) _) ?_
    exact ((List.perm_insertionSort _ _).trans (environmentsOf_perm h)).trans
      (List.perm_insertionSort _ _).symm
  rw [environmentCounts, environmentCounts, hsorted]
  refine List.map_congr_left fun environment _ => ?_
  rw [(h.map (·.environment)).count_eq]

/-- A snapshot is determined by its fields. -/
theorem toTargetFields_injective : Function.Injective BulkTargetSnapshot.toTargetFields :=
  fun _ _ h => BulkTargetSnapshot.ext_fields h

/-- There is one result for given candidates, whatever their order. -/
theorem Resolves.unique {resolved resolved' : ResolvedBulkSelection} (hperm : rows'.Perm rows)
    (h : Resolves selector rows resolved) (h' : Resolves selector rows' resolved') :
    resolved' = resolved := by
  have hsites : resolved'.selectedSites = resolved.selectedSites :=
    Keyed.eq_of_perm_of_strict ((h'.sites.trans hperm).trans h.sites.symm) h'.order h.order
  have htargets : resolved'.targets = resolved.targets := by
    apply List.map_injective_iff.mpr toTargetFields_injective
    rw [h'.targets, h.targets, hsites]
  have hcounts : resolved'.environmentCounts = resolved.environmentCounts := by
    rw [h'.counts, h.counts, environmentCounts_perm hperm]
  obtain ⟨selector', targets', counts', sites'⟩ := resolved'
  obtain ⟨selector, targets, counts, sites⟩ := resolved
  have hselector : selector' = selector := h'.selector.trans h.selector.symm
  rw [hselector, show targets' = targets from htargets, show counts' = counts from hcounts,
    show sites' = sites from hsites]

/-- Two candidates with one key have one site id. -/
theorem siteId_of_targetKey {a b : SelectableSite} (h : a.targetKey = b.targetKey) :
    a.siteId = b.siteId :=
  (targetKeyOf_injective h).2.2

/-- Candidates of different sites have different keys. -/
theorem nodup_targetKeys (hunique : (rows.map (·.siteId)).Nodup) :
    (rows.map (·.targetKey)).Nodup := by
  apply List.pairwise_map.mpr
  apply (List.pairwise_map.mp hunique).imp
  intro a b hne heq
  exact hne (siteId_of_targetKey heq)

/-- The dictionary finds each candidate by its site id. -/
theorem lookup_bySite {row : SelectableSite} (hunique : (rows.map (·.siteId)).Nodup)
    (hrow : row ∈ rows) :
    siteAt (rows.map fun row => (row.siteId, row)) row.siteId = .ok row := by
  have hlookup : (rows.map fun row => (row.siteId, row)).lookup row.siteId = some row := by
    induction rows with
    | nil => exact absurd hrow List.not_mem_nil
    | cons first rest ih =>
      obtain ⟨hfirst, hrest⟩ := List.nodup_cons.mp hunique
      rw [List.map_cons, List.lookup_cons]
      rcases List.mem_cons.mp hrow with heq | hmem
      · rw [heq, beq_self_eq_true]
      · have hne : (row.siteId == first.siteId) = false := by
          apply beq_false_of_ne
          intro heq
          exact hfirst (List.mem_map.mpr ⟨row, hmem, heq⟩)
        rw [hne]
        exact ih hrest hmem
  rw [siteAt, hlookup]

/-- Sorting, numbering and looking up again never fail on accepted candidates. -/
theorem select_spec (hvalid : ∀ row ∈ rows, (row.target 0).postInit = .ok ())
    (hunique : (rows.map (·.siteId)).Nodup) :
    ∃ provisional targets sites,
      (rows.mapM fun row => (row.target 0).new) = .ok provisional
        ∧ number (Keyed.sortOn BulkTargetSnapshot.targetKey provisional) = .ok targets
        ∧ (targets.mapM fun target => siteAt (rows.map fun row => (row.siteId, row)) target.siteId)
          = .ok sites
        ∧ sites.Perm rows
        ∧ targets.map (·.toTargetFields) = sites.zipIdx.map (fun entry => entry.1.target entry.2)
        ∧ Keyed.Strict SelectableSite.targetKey sites := by
  obtain ⟨provisional, hprovisional⟩ :=
    Keyed.exists_mapM fun row hrow => exists_new (hvalid row hrow)
  have hread := Keyed.mapM_eq_ok.mp hprovisional
  have hkey : ∀ {row : SelectableSite} {t : BulkTargetSnapshot}, (row.target 0).new = .ok t →
      t.targetKey = row.targetKey := by
    intro row t ht
    rw [BulkTargetSnapshot.targetKey, new_eq_ok.mp ht]
    rfl
  have hkeys : provisional.map (·.targetKey) = rows.map (·.targetKey) :=
    Keyed.map_eq_of_forall₂ (hread.imp fun _ _ ht => hkey ht)
  have hordered : Keyed.Strict BulkTargetSnapshot.targetKey
      (Keyed.sortOn BulkTargetSnapshot.targetKey provisional) :=
    Keyed.strict_sortOn (hkeys ▸ nodup_targetKeys hunique)
  -- The candidates in the order of the sorted snapshots.
  obtain ⟨sites, hperm, hsites⟩ : Relation.Comp List.Perm
      (List.Forall₂ fun (row : SelectableSite) t => (row.target 0).new = .ok t) rows
      (Keyed.sortOn BulkTargetSnapshot.targetKey provisional) := by
    rw [← List.forall₂_comp_perm_eq_perm_comp_forall₂]
    exact ⟨provisional, hread, (Keyed.perm_sortOn provisional).symm⟩
  have hfields : (Keyed.sortOn BulkTargetSnapshot.targetKey provisional).map (·.toTargetFields)
      = sites.map (·.target 0) :=
    Keyed.map_eq_of_forall₂ (hsites.imp fun _ _ ht => new_eq_ok.mp ht)
  obtain ⟨targets, htargets, hplaced⟩ :=
    number_spec (Keyed.sortOn BulkTargetSnapshot.targetKey provisional)
  have hnumbered : targets.map (·.toTargetFields)
      = sites.zipIdx.map fun entry => entry.1.target entry.2 := by
    have hplaces := congrArg (fun fields : List TargetFields =>
      fields.zipIdx.map fun entry => { entry.1 with ordinal := (entry.2 : ℤ) }) hfields
    simp only [List.zipIdx_map, List.map_map] at hplaces
    exact hplaced.trans hplaces
  have hids : targets.map (·.siteId) = sites.map (·.siteId) := by
    have hmap := congrArg (List.map TargetFields.siteId) hnumbered
    rw [List.map_map, List.map_map] at hmap
    have hfirst : sites.zipIdx.map (TargetFields.siteId ∘ fun entry => entry.1.target entry.2)
        = (sites.zipIdx.map Prod.fst).map (·.siteId) := by
      rw [List.map_map]
      rfl
    rw [hfirst, List.zipIdx_map_fst] at hmap
    exact hmap
  refine ⟨provisional, targets, sites, hprovisional, htargets, ?_, hperm.symm, hnumbered, ?_⟩
  · have hlookup : sites.mapM (siteAt (rows.map fun row => (row.siteId, row)) ∘ (·.siteId))
        = .ok sites :=
      Keyed.mapM_self fun site hsite => lookup_bySite hunique (hperm.mem_iff.mpr hsite)
    rw [← List.mapM_map, ← hids, List.mapM_map] at hlookup
    exact hlookup
  · have hsiteKeys : (Keyed.sortOn BulkTargetSnapshot.targetKey provisional).map (·.targetKey)
        = sites.map (·.targetKey) := Keyed.map_eq_of_forall₂ (hsites.imp fun _ _ ht => hkey ht)
    have hpairs := List.pairwise_map.mpr hordered
    rw [hsiteKeys] at hpairs
    exact List.pairwise_map.mp hpairs

/-- The environments are those of the candidates. -/
theorem mem_environmentsOf {environment : String} :
    environment ∈ environmentsOf rows ↔ environment ∈ rows.map (·.environment) :=
  List.mem_dedup

/-- Two lists of ids are the same when their members are. -/
theorem sameIds_iff {a b : List String} : sameIds a b = true ↔ ∀ id, id ∈ a ↔ id ∈ b := by
  simp only [sameIds, Bool.and_eq_true, List.all_eq_true, List.contains_iff_mem]
  constructor
  · exact fun h id => ⟨h.1 id, h.2 id⟩
  · exact fun h => ⟨fun id => (h id).mp, fun id => (h id).mpr⟩

/-- A selection resolves exactly if its candidates are accepted, and then to their order. -/
theorem resolve_eq_ok {resolved : ResolvedBulkSelection} :
    resolve service selector operationType policyMaximum allowMixedEnvironments rows = .ok resolved ↔
      Accepts service selector operationType policyMaximum allowMixedEnvironments rows
        ∧ Resolves selector rows resolved := by
  have hsites : (rows.map fun row => (row.siteId, row)).map Prod.fst = rows.map (·.siteId) := by
    rw [List.map_map]
    rfl
  constructor
  · intro h
    simp only [resolve, bind_eq_ok, ensure_eq_ok, bySite_eq_ok, List.nil_append, isEmpty_or_mem,
      Bool.or_eq_true, sameIds_iff, Bool.and_eq_true, decide_eq_true_eq] at h
    obtain ⟨-, hpolicy, -, hnonempty, -, hcount, sites, ⟨hdict, hmeets, hunique, -⟩, -, hexact, -,
      hstaging, -, hmixed, provisional, hprovisional, targets, htargets, selected, hselected, h⟩ := h
    rw [hdict] at hexact hselected
    -- every candidate made a provisional snapshot, so each is a valid target
    have hvalid : ∀ row ∈ rows, (row.target 0).postInit = .ok () := by
      intro row hrow
      obtain ⟨t, -, ht⟩ := Keyed.exists_mem_of_mem (Keyed.mapM_eq_ok.mp hprovisional) hrow
      rw [← new_eq_ok.mp ht]
      exact t.valid
    -- the selection has one result, so what was computed is the specified one
    obtain ⟨provisional', targets', selected', hprovisional', htargets', hselected', hperm, hfields,
      horder⟩ := select_spec hvalid hunique
    cases hprovisional.symm.trans hprovisional'
    cases htargets.symm.trans htargets'
    cases hselected.symm.trans hselected'
    cases h
    refine ⟨⟨hpolicy, ?_, hcount, hunique, hmeets, fun hne id => ?_, ?_, hmixed, hvalid⟩,
      ⟨rfl, hperm, hfields, horder, rfl⟩⟩
    · intro hnil
      rw [hnil] at hnonempty
      cases hnonempty
    · rw [← hsites]
      exact hexact hne id
    · intro henvironment hproduction
      rw [henvironment] at hstaging
      have hmem := List.contains_iff_mem.mpr (mem_environmentsOf.mpr hproduction)
      rw [hmem] at hstaging
      cases hstaging
  · intro h
    obtain ⟨haccepts, hresolves⟩ := h
    obtain ⟨provisional, targets, selected, hprovisional, htargets, hselected, hperm, hfields,
      horder⟩ := select_spec haccepts.valid haccepts.unique
    have hresolves' : Resolves selector rows
        { selector, targets, environmentCounts := environmentCounts rows, selectedSites := selected } :=
      ⟨rfl, hperm, hfields, horder, rfl⟩
    -- conversely the resolved selection is the one that is computed
    rw [← hresolves.unique (List.Perm.refl rows) hresolves']
    simp only [resolve, bind_eq_ok, ensure_eq_ok, bySite_eq_ok, List.nil_append, isEmpty_or_mem,
      Bool.or_eq_true, sameIds_iff, Bool.and_eq_true, decide_eq_true_eq]
    refine ⟨(), haccepts.policy, (), ?_, (), haccepts.count, _, ⟨rfl, haccepts.meets,
      haccepts.unique, fun row _ => List.not_mem_nil⟩, (), fun hne id => ?_, (), ?_, (),
      haccepts.mixed, provisional, hprovisional, targets, htargets, selected, hselected, rfl⟩
    · rw [Bool.not_eq_true', List.isEmpty_eq_false_iff]
      exact haccepts.nonempty
    · rw [hsites]
      exact haccepts.exact hne id
    · by_cases henvironment : selector.environment = some "staging"
      · have hproduction : (environmentsOf rows).contains "production" = false := by
          rw [Bool.eq_false_iff, Ne, List.contains_iff_mem]
          exact fun hmem => haccepts.staging henvironment (mem_environmentsOf.mp hmem)
        rw [hproduction, Bool.and_false]
        rfl
      · rw [beq_false_of_ne henvironment, Bool.false_and]
        rfl

/-! ## The consequences -/

/-- The counts add up to the number of candidates. -/
theorem sum_environmentCounts (rows : List SelectableSite) :
    ((environmentCounts rows).map Prod.snd).sum = rows.length := by
  have hsorted : (Inventory.sortTexts (environmentsOf rows)).Perm (environmentsOf rows) :=
    List.perm_insertionSort _ _
  have hcounts : (environmentCounts rows).map Prod.snd
      = (Inventory.sortTexts (environmentsOf rows)).map fun environment =>
        (rows.map (·.environment)).count environment := by
    rw [environmentCounts, List.map_map]
    rfl
  rw [hcounts, (hsorted.map _).sum_eq, environmentsOf, List.sum_map_count_dedup_eq_length,
    List.length_map]

/-- The environment of a selector is one of those there are. -/
theorem environment_truthy (selector : BulkSelector) {environment : String}
    (h : selector.environment = some environment) : truthy selector.environment = true := by
  have hvalid := selector.valid
  simp only [selectorPostInit, bind_eq_ok] at hvalid
  obtain ⟨-, -, -, -, -, -, -, -, environment', hchecked, -⟩ := hvalid
  have hargument : selector.toSelectorFields.arguments.environment = .str environment := by
    rw [SelectorFields.arguments, h]
    rfl
  rw [hargument] at hchecked
  have hne : environment ≠ "" := by
    intro hempty
    rw [hempty] at hchecked
    exact absurd hchecked (by simp [selectorEnvironment, environments])
  rw [h, truthy, orNone, Option.filter_some, if_pos (by simpa using hne)]
  rfl

section Resolved

variable {resolved : ResolvedBulkSelection} (h : Resolves selector rows resolved)
include h

/-- There are as many targets as selected sites. -/
theorem Resolves.length_targets : resolved.targets.length = resolved.selectedSites.length := by
  have hlength := congrArg List.length h.targets
  rw [List.length_map, List.length_map, List.length_zipIdx] at hlength
  exact hlength

/-- The targets are numbered from zero on. -/
theorem Resolves.ordinals :
    resolved.targets.map (·.ordinal) = (List.range resolved.targets.length).map Int.ofNat := by
  have hmap := congrArg (List.map TargetFields.ordinal) h.targets
  rw [List.map_map, List.map_map] at hmap
  have hplaces : resolved.selectedSites.zipIdx.map
      (TargetFields.ordinal ∘ fun entry => entry.1.target entry.2)
      = (resolved.selectedSites.zipIdx.map Prod.snd).map Int.ofNat := by
    rw [List.map_map]
    rfl
  rw [hplaces, List.zipIdx_map_snd, ← List.range_eq_range', ← h.length_targets] at hmap
  exact hmap

/-- There are as many targets as candidates. -/
theorem Resolves.length_rows : resolved.targets.length = rows.length :=
  h.length_targets.trans h.sites.length_eq

/-- Every target is the snapshot of the site selected with it. -/
theorem Resolves.aligned : List.Forall₂ (fun target site => ∃ place : ℕ,
    target.toTargetFields = SelectableSite.target site place) resolved.targets
      resolved.selectedSites := by
  have hpairs : List.Forall₂ (fun target entry =>
      BulkTargetSnapshot.toTargetFields target = SelectableSite.target entry.1 entry.2)
      resolved.targets resolved.selectedSites.zipIdx := by
    have heq : List.Forall₂ Eq (resolved.targets.map (·.toTargetFields))
        (resolved.selectedSites.zipIdx.map fun entry => entry.1.target entry.2) :=
      List.forall₂_eq_eq_eq ▸ h.targets
    exact List.forall₂_map_right_iff.mp (List.forall₂_map_left_iff.mp heq)
  have hsites : List.Forall₂ (fun target site => ∃ place : ℕ,
      target.toTargetFields = SelectableSite.target site place) resolved.targets
        (resolved.selectedSites.zipIdx.map Prod.fst) :=
    List.forall₂_map_right_iff.mpr (hpairs.imp fun _ entry heq => ⟨entry.2, heq⟩)
  rw [List.zipIdx_map_fst] at hsites
  exact hsites

/-- A target has the key of its site. -/
theorem Resolves.targetKeys :
    resolved.targets.map (·.targetKey) = resolved.selectedSites.map (·.targetKey) := by
  refine (Keyed.map_eq_of_forall₂ (h.aligned.imp ?_)).symm
  intro target site hplace
  obtain ⟨place, hfields⟩ := hplace
  show site.targetKey = targetKeyOf target.agentId target.benchId target.siteId
  rw [hfields]
  rfl

/-- The targets are in strict order of their keys. -/
theorem Resolves.strict : Keyed.Strict BulkTargetSnapshot.targetKey resolved.targets := by
  have hpairs := List.pairwise_map.mpr h.order
  rw [← h.targetKeys] at hpairs
  exact List.pairwise_map.mp hpairs

/-- A target has the id of its site. -/
theorem Resolves.siteIds :
    resolved.targets.map (·.siteId) = resolved.selectedSites.map (·.siteId) := by
  refine (Keyed.map_eq_of_forall₂ (h.aligned.imp ?_)).symm
  intro target site hplace
  obtain ⟨place, hfields⟩ := hplace
  rw [hfields]
  rfl

/-- What every candidate satisfies holds of the selected site of every target. -/
theorem Resolves.forall_targets {p : SelectableSite → Prop} (hrows : ∀ row ∈ rows, p row) :
    List.Forall₂ (fun target site => p site ∧ ∃ place : ℕ,
      target.toTargetFields = SelectableSite.target site place) resolved.targets
      resolved.selectedSites := by
  have hsites : ∀ site ∈ resolved.selectedSites, p site := fun site hsite =>
    hrows site (h.sites.mem_iff.mp hsite)
  exact ((List.forall₂_and_left _ _).mpr ⟨hsites, h.aligned.flip⟩).flip

/-- Every target is of a candidate. -/
theorem Resolves.exists_row {target : BulkTargetSnapshot} (htarget : target ∈ resolved.targets) :
    ∃ row ∈ rows, ∃ place : ℕ, target.toTargetFields = row.target place := by
  obtain ⟨site, hsite, hplace⟩ := Keyed.exists_mem_of_mem h.aligned htarget
  exact ⟨site, h.sites.mem_iff.mp hsite, hplace⟩

end Resolved

/-- The arguments of a plan that do not come from the selection are legal. -/
structure LegalPlan (plan : PlanFields) : Prop where
  parentOperationId : isId plan.parentOperationId = true
  operationType : isId plan.operationType = true
  payloadHash : isSha256 plan.payloadHash = true
  dryRunHash : isSha256 plan.dryRunHash = true
  retryOf : ∀ parent, plan.retryOf = some parent → isId parent = true

/-- A plan of the targets passes every check of `BulkPlan`. -/
theorem postInit_of_resolves {resolved : ResolvedBulkSelection}
    (haccepts : Accepts service selector operationType policyMaximum allowMixedEnvironments rows)
    (h : Resolves selector rows resolved) {plan : PlanFields} (hlegal : LegalPlan plan)
    (hselector : plan.selector = selector) (htargets : plan.targets = resolved.targets)
    (hcount : (rows.length : ℤ) ≤ plan.policy.maximumTargets) : plan.postInit = .ok () := by
  -- each check of the plan is a property of the targets, and so of the candidates
  have hnonempty : (!plan.targets.isEmpty) = true := by
    rw [Bool.not_eq_true', List.isEmpty_eq_false_iff, htargets]
    intro hnil
    apply haccepts.nonempty
    rw [← List.length_eq_zero_iff, ← h.length_rows, hnil, List.length_nil]
  have hfits : decide ((plan.targets.length : ℤ) ≤ plan.policy.maximumTargets) = true := by
    rw [decide_eq_true_eq, htargets, h.length_rows]
    exact hcount
  have hordinals : (plan.targets.map (·.ordinal)
      == (List.range plan.targets.length).map Int.ofNat) = true := by
    rw [beq_iff_eq, htargets]
    exact h.ordinals
  have hnodup : decide (plan.targets.map (·.targetKey)).Nodup = true := by
    rw [decide_eq_true_eq, htargets]
    exact h.strict.nodup
  have hsorted : (plan.targets.map (·.targetKey)
      == Inventory.sortTexts (plan.targets.map (·.targetKey))) = true := by
    rw [beq_iff_eq, htargets]
    exact h.strict.keys_sorted.symm
  -- what the selector asks of every target holds of the candidate it was made from
  have henvironment : (plan.targets.all fun t =>
      (plan.selector.environment.map (t.environment == ·)).getD true) = true := by
    rw [List.all_eq_true, htargets, hselector]
    intro target htarget
    obtain ⟨row, hrow, place, hfields⟩ := h.exists_row htarget
    cases hnamed : selector.environment with
    | none => rfl
    | some environment =>
      have hmeets := (haccepts.meets row hrow).environment (environment_truthy selector hnamed)
      have hsame : target.environment = environment := by
        rw [hfields]
        exact Option.some.inj (hmeets.symm.trans hnamed)
      rw [Option.map_some, Option.getD_some, hsame, beq_self_eq_true]
  have hstaging : (plan.selector.environment != some "staging"
      || plan.targets.all fun t => t.environment != "production") = true := by
    rw [hselector, htargets, Bool.or_eq_true, bne_iff_ne, or_iff_not_imp_left, not_not]
    intro hstaging
    refine List.all_eq_true.mpr fun target htarget => ?_
    obtain ⟨row, hrow, place, hfields⟩ := h.exists_row htarget
    rw [bne_iff_ne, hfields]
    intro hproduction
    exact haccepts.staging hstaging (List.mem_map.mpr ⟨row, hrow, hproduction⟩)
  have hexact : (plan.selector.exactSiteIds.isEmpty
      || plan.targets.all fun t => plan.selector.exactSiteIds.contains t.siteId) = true := by
    rw [hselector, htargets, Bool.or_eq_true, isEmpty_or_mem]
    intro hne
    refine List.all_eq_true.mpr fun target htarget => ?_
    obtain ⟨row, hrow, place, hfields⟩ := h.exists_row htarget
    rw [List.contains_iff_mem, hfields]
    exact (haccepts.meets row hrow).exact hne
  simp only [PlanFields.postInit, identifier, digest, hlegal.parentOperationId,
    hlegal.operationType, hlegal.payloadHash, hlegal.dryRunHash, hnonempty, hfits, hordinals, hnodup,
    hsorted, henvironment, hstaging, hexact, ensure_true]
  -- only a retry has one check more
  cases hretry : plan.retryOf with
  | none => rfl
  | some parent =>
    simp only [hlegal.retryOf parent hretry, ensure_true]
    rfl

/-! ## A resolved selection -/

/-- A selection that resolves does not depend on the order of its candidates, has one target for
each of them, in the order of the target keys, and makes a plan. -/
theorem resolved_selection (service : BulkSelectionService) (selector : BulkSelector)
    (operationType : String) (policyMaximum : ℤ) (allowMixedEnvironments : Bool)
    (rows : List SelectableSite) (resolved : ResolvedBulkSelection)
    (h : resolve service selector operationType policyMaximum allowMixedEnvironments rows
      = .ok resolved) :
    (∀ rows', rows'.Perm rows →
        resolve service selector operationType policyMaximum allowMixedEnvironments rows'
          = .ok resolved)
      ∧ resolved.selector = selector
      ∧ resolved.targets.map (·.ordinal) = (List.range resolved.targets.length).map Int.ofNat
      ∧ (resolved.targets.map (·.targetKey)).Pairwise (· < ·)
      ∧ resolved.selectedSites.Perm rows
      ∧ List.Forall₂ (fun target site => Meets selector operationType site ∧
        ∃ place : ℕ, target.toTargetFields = SelectableSite.target site place) resolved.targets
        resolved.selectedSites
      ∧ (resolved.environmentCounts.map Prod.snd).sum = resolved.targets.length
      ∧ (selector.exactSiteIds ≠ [] →
        ∀ id, id ∈ resolved.targets.map (·.siteId) ↔ id ∈ selector.exactSiteIds)
      ∧ ∀ plan : PlanFields, LegalPlan plan → plan.selector = selector →
        plan.targets = resolved.targets →
        (resolved.targets.length : ℤ) ≤ plan.policy.maximumTargets → ∃ made, plan.new = .ok made := by
  obtain ⟨haccepts, hresolves⟩ := resolve_eq_ok.mp h
  refine ⟨?_, hresolves.selector, hresolves.ordinals, List.pairwise_map.mpr hresolves.strict,
    hresolves.sites, hresolves.forall_targets haccepts.meets, ?_, ?_, ?_⟩
  · intro rows' hperm
    -- in another order the candidates resolve to the same selection
    have hresolves' : Resolves selector rows' resolved :=
      ⟨hresolves.selector, hresolves.sites.trans hperm.symm, hresolves.targets, hresolves.order,
        hresolves.counts.trans (environmentCounts_perm hperm).symm⟩
    exact resolve_eq_ok.mpr ⟨haccepts.perm hperm, hresolves'⟩
  · rw [hresolves.counts, sum_environmentCounts, hresolves.length_rows]
  · intro hne id
    rw [hresolves.siteIds, ((hresolves.sites).map (·.siteId)).mem_iff]
    exact haccepts.exact hne id
  · intro plan hlegal hselector htargets hcount
    rw [hresolves.length_rows] at hcount
    have hvalid := postInit_of_resolves haccepts hresolves hlegal hselector htargets hcount
    unfold PlanFields.new
    split
    · exact ⟨_, rfl⟩
    · rename_i e he
      cases hvalid.symm.trans he

/-! ## A sample -/

namespace SelectionSample

def revision : String := "7777777777777777777777777777777777777777777777777777777777777777"

/-- The sites of one bench that are labelled. -/
def labelled : BulkSelector :=
  ⟨{ exactSiteIds := [], environment := some "staging", agentIds := ["agent-a"], benchIds := []
     labels := ["shop"] }, by decide +kernel⟩

def site (siteId : String) : SelectableSite where
  serverAgent := "agent-a"
  agentId := "agent-a"
  bench := "bench-a"
  benchId := "bench-a"
  managedSite := siteId
  siteId := siteId
  siteDomain := "shop.example.com"
  environment := "staging"
  inventoryRevision := revision
  labels := {"shop", "small"}
  capabilities := {"site.backup"}

def target (siteId : String) (place : ℕ) (h : ((site siteId).target place).postInit = .ok ()) :
    BulkTargetSnapshot := ⟨(site siteId).target place, h⟩

/-- The key of the shorter id comes first. -/
def resolved : ResolvedBulkSelection where
  selector := labelled
  targets := [target "site-b" 0 (by decide +kernel), target "site-aa" 1 (by decide +kernel)]
  environmentCounts := [("staging", 2)]
  selectedSites := [site "site-b", site "site-aa"]

end SelectionSample

/-- Two candidates, in the order they are not selected in. -/
theorem resolved_selection_sample :
    resolve ⟨1000, by decide⟩ SelectionSample.labelled "site.backup" 2 false
        [SelectionSample.site "site-b", SelectionSample.site "site-aa"]
      = .ok SelectionSample.resolved :=
  (resolved_selection ⟨1000, by decide⟩ SelectionSample.labelled "site.backup" 2 false
    [SelectionSample.site "site-aa", SelectionSample.site "site-b"] SelectionSample.resolved
    (by decide +kernel)).1 _ (List.Perm.swap _ _ _)

end Bulk

end FrappeController
