import FrappeController.OperationNamespaceTheorems

/-!
# What the move of controller operations keeps

Wherever attempts at the migration are stopped, a legacy row is still in the old table or has
arrived in the new one, a credential is under one doctype or the other, and every reference that
named a row names one (`migrate_preserved`).
-/

namespace FrappeController
namespace OperationNamespace

open Interruption

variable {S : Schemas} {db db' : Site}

/-! ## What attempts keep -/

section Kept

/-- The row a reference names exists. -/
def Resolves (db : Site) (r : Reference) (row : Row) : Prop :=
  ∀ name, row.value r.name = some name →
    (row.value r.kind = some "Operation" → ∃ o ∈ operationRows db, o.name = name) ∧
    (row.value r.kind = some "Controller Operation" → ∃ n ∈ controllerRows db, n.name = name)

/-- A table with the rows changed, if it has the columns of the reference. -/
def mapRows (r : Reference) (f : Row → Row) (t : DataTable) : DataTable :=
  if t.columns.contains r.kind && t.columns.contains r.name then { t with rows := t.rows.map f }
  else t

/-- A row of the new table has the name and the identity of a row of the old one. -/
def Arrived (o : Row) (db : Site) : Prop :=
  ∃ n ∈ controllerRows db, n.name = o.name ∧ differ o n "operation_id" = false ∧
    differ o n "payload_hash" = false

/-- What attempts that began with `db` leave of the rows. -/
structure RowsKept (S : Schemas) (db db' : Site) : Prop where
  /-- The rows of ERPNext's own operations are untouched. -/
  manufacturing : ((operationRows db').filter fun row => !isLegacy row)
    = (operationRows db).filter fun row => !isLegacy row
  /-- A legacy row is deleted only once it has arrived. -/
  legacy : ∀ o ∈ legacyRows db, o ∈ legacyRows db' ∨ Arrived o db'
  /-- The new table keeps its rows, and what it gets are copies of legacy rows. -/
  copies : ∃ fresh, controllerRows db' = controllerRows db ++ fresh ∧
    ∀ n ∈ fresh, ∃ o ∈ legacyRows db, n = copyRow S (sharedColumns (withController S db)) o

/-- What they leave of the credentials. -/
structure CredentialsKept (db db' : Site) : Prop where
  /-- A credential stays where it is, or is moved. -/
  kept : ∀ c ∈ db.auth, c ∈ db'.auth ∨ isLegacyCredential db c = true ∧ c.moved ∈ db'.auth
  /-- None is made up. -/
  known : ∀ c ∈ db'.auth, c ∈ db.auth ∨
    ∃ c' ∈ db.auth, isLegacyCredential db c' = true ∧ c'.moved = c

/-- What they leave of the references. -/
structure ReferencesKept (db db' : Site) : Prop where
  /-- The references of a doctype are all moved or all as they were, and what resolved resolves. -/
  resolved : ∀ r ∈ references, ∃ f, (f = id ∨ f = moveRow (legacyNames db) r) ∧
    db'.tables r.doctype = (db.tables r.doctype).map (mapRows r f) ∧
    ∀ row, Resolves db r row → Resolves db' r (f row)
  /-- No other table is touched. -/
  others : ∀ d, d ∉ references.map (·.doctype) → db'.tables d = db.tables d

structure Kept (S : Schemas) (db db' : Site) : Prop extends RowsKept S db db',
  CredentialsKept db db', ReferencesKept db db'

/-- What a complete migration has done. -/
structure Complete (db db' : Site) : Prop where
  empty : legacyRows db' = []
  arrived : ∀ o ∈ legacyRows db, Arrived o db'
  credentials : ∀ c ∈ db.auth, isLegacyCredential db c = true → c.moved ∈ db'.auth
  detached : ∀ c ∈ db'.auth, isLegacyCredential db c = false
  references : ∀ r ∈ references,
    db'.tables r.doctype = (db.tables r.doctype).map (moveTable (legacyNames db) r)
  indexes : legacyIndexes db' = []

/-- Nothing but the schema was changed. -/
structure Same (db db' : Site) : Prop where
  operations : operationRows db' = operationRows db
  controllers : controllerRows db' = controllerRows db
  auth : db'.auth = db.auth
  tables : db'.tables = db.tables

/-- Rows that are mapped to themselves. -/
theorem mapRows_id (r : Reference) : mapRows r id = id := by
  funext t
  unfold mapRows
  rw [List.map_id]
  exact ite_self t

/-- The column of the name is not the column of the DocType. -/
theorem references_columns : ∀ r ∈ references, r.name ≠ r.kind := by decide

/-- A reference resolves as before where the old rows stay and no new row is lost. -/
theorem resolves_unmoved {r : Reference} {row : Row}
    (hoperations : operationRows db' = operationRows db)
    (hcontrollers : ∀ n ∈ controllerRows db, n ∈ controllerRows db')
    (h : Resolves db r row) : Resolves db' r row := by
  intro name hname
  refine ⟨fun hkind => ?_, fun hkind => ?_⟩
  · rw [hoperations]
    exact (h name hname).1 hkind
  · obtain ⟨n, hn, hsame⟩ := (h name hname).2 hkind
    exact ⟨n, hcontrollers n hn, hsame⟩

/-- The rows from their insertion on. -/
structure RowsArrived (S : Schemas) (db db' : Site) : Prop extends RowsKept S db db' where
  arrived : ∀ o ∈ legacyRows db, Arrived o db'

/-- No row of the new table is lost. -/
theorem RowsKept.controllers (h : RowsKept S db db') :
    ∀ n ∈ controllerRows db, n ∈ controllerRows db' := by
  obtain ⟨fresh, hfresh, -⟩ := h.copies
  intro n hn
  rw [hfresh]
  exact List.mem_append_left _ hn

/-- Once the legacy rows have arrived, what resolved resolves after its move too. -/
theorem RowsArrived.resolves {r : Reference} {row : Row} (h : RowsArrived S db db')
    (hr : r ∈ references) (hrow : Resolves db r row) :
    Resolves db' r (moveRow (legacyNames db) r row) := by
  by_cases hlegacy : refersToLegacy (legacyNames db) r row = true
  · have hmoved : moveRow (legacyNames db) r row
        = { row with value := Function.update row.value r.kind (some "Controller Operation") } :=
      if_pos hlegacy
    rw [hmoved]
    intro name hname
    have hvalue : row.value r.name = some name := by
      rw [← hname]
      exact (Function.update_of_ne (references_columns r hr) _ _).symm
    have hkind : Function.update row.value r.kind (some "Controller Operation") r.kind
        = some "Controller Operation" := Function.update_self _ _ _
    refine ⟨fun hold => ?_, fun _ => ?_⟩
    · exact absurd (hkind.symm.trans hold) (by decide)
    · -- the reference named a legacy row, which has arrived
      unfold refersToLegacy at hlegacy
      rw [hvalue] at hlegacy
      have hmem : name ∈ legacyNames db := by
        simpa using (Bool.and_eq_true_iff.mp hlegacy).2
      obtain ⟨o, ho, hname'⟩ := List.mem_map.mp hmem
      obtain ⟨n, hn, hsame, -⟩ := h.arrived o ho
      exact ⟨n, hn, hsame.trans hname'⟩
  · have hsame : moveRow (legacyNames db) r row = row := if_neg hlegacy
    rw [hsame]
    intro name hname
    refine ⟨fun hkind => ?_, fun hkind => ?_⟩
    · obtain ⟨o, ho, hname'⟩ := (hrow name hname).1 hkind
      have hown : isLegacy o = false := by
        by_contra hcontra
        -- a legacy row of this name would make the reference a legacy one
        have hmem : o ∈ legacyRows db := List.mem_filter.mpr ⟨ho, by simpa using hcontra⟩
        refine hlegacy ?_
        unfold refersToLegacy
        rw [hkind, hname]
        simpa [legacyNames] using ⟨o, hmem, hname'⟩
      have hfilter : o ∈ (operationRows db').filter fun row => !isLegacy row := by
        rw [h.manufacturing]
        exact List.mem_filter.mpr ⟨ho, by simp [hown]⟩
      exact ⟨o, List.mem_of_mem_filter hfilter, hname'⟩
    · obtain ⟨n, hn, hname'⟩ := (hrow name hname).2 hkind
      exact ⟨n, h.controllers n hn, hname'⟩

/-- The same tables have the same rows. -/
theorem Same.rowsKept (h : Same db db') : RowsKept S db db' where
  manufacturing := by rw [h.operations]
  legacy o ho := by
    left
    unfold legacyRows
    rw [h.operations]
    exact ho
  copies := ⟨[], by rw [h.controllers, List.append_nil], fun _ hn => absurd hn List.not_mem_nil⟩

/-- The same credentials are kept. -/
theorem credentialsKept_of_same (h : db'.auth = db.auth) : CredentialsKept db db' where
  kept c hc := by
    rw [h]
    exact .inl hc
  known c hc := by
    rw [h] at hc
    exact .inl hc

/-- While no reference is moved, the references resolve as before. -/
theorem RowsKept.referencesKept (h : RowsKept S db db')
    (hoperations : operationRows db' = operationRows db) (htables : db'.tables = db.tables) :
    ReferencesKept db db' where
  resolved r _ := by
    refine ⟨id, .inl rfl, ?_, fun row hrow => resolves_unmoved hoperations h.controllers hrow⟩
    rw [mapRows_id, Option.map_id, htables]
    rfl
  others d _ := by rw [htables]

/-- What does not change is kept. -/
theorem Same.allKept (h : Same db db') : Kept S db db' where
  toRowsKept := h.rowsKept
  toCredentialsKept := credentialsKept_of_same h.auth
  toReferencesKept := h.rowsKept.referencesKept (S := S) h.operations h.tables

/-- Creating the new DocType changes no row. -/
theorem same_withController (db : Site) : Same db (withController S db) where
  operations := rfl
  controllers := by
    unfold withController controllerRows
    cases db.controllerOperation <;> rfl
  auth := rfl
  tables := rfl

/-- Arrival depends on the remaining rows of the old table and on the rows of the new one. -/
theorem RowsArrived.congr {db'' : Site} (h : RowsArrived S db db')
    (hown : ((operationRows db'').filter fun row => !isLegacy row)
      = (operationRows db').filter fun row => !isLegacy row)
    (hcontrollers : controllerRows db'' = controllerRows db') : RowsArrived S db db'' := by
  have harrived : ∀ o ∈ legacyRows db, Arrived o db'' := by
    intro o ho
    unfold Arrived
    rw [hcontrollers]
    exact h.arrived o ho
  refine ⟨⟨hown.trans h.manufacturing, fun o ho => .inr (harrived o ho), ?_⟩, harrived⟩
  rw [hcontrollers]
  exact h.copies

/-- The rows have arrived; credentials and references are where they were. -/
structure Copying (S : Schemas) (db db' : Site) : Prop extends RowsArrived S db db',
    CredentialsKept db db' where
  operations : operationRows db' = operationRows db
  tables : db'.tables = db.tables

/-- While rows and credentials are copied, everything is kept. -/
theorem Copying.allKept (h : Copying S db db') : Kept S db db' where
  toRowsKept := h.toRowsKept
  toCredentialsKept := h.toCredentialsKept
  toReferencesKept := h.toRowsKept.referencesKept h.operations h.tables

/-- The copy of the rows loses nothing, and every legacy row arrives. -/
theorem copying_inserted (hkeyed : Keyed db) (hschema : legacySchema db = true)
    (hcolumns : ["name", "operation_id", "payload_hash"].all
      (sharedColumns (withController S db)).contains = true)
    (hagree : conflicts (withController S db) = false) :
    Copying S db (inserted S (sharedColumns (withController S db)) (withController S db)) := by
  have hreloaded : Reloaded S (withController S db) := reloaded_withController hschema
  have hkeyed' : Keyed (withController S db) := ⟨hkeyed.operations, hkeyed.credentials⟩
  have hagree' := conflicts_eq_false.mp (conflicts_inserted hkeyed' hreloaded hcolumns hagree)
  have hnamed : ∀ o ∈ legacyRows (withController S db), ∃ n ∈ controllerRows
      (inserted S (sharedColumns (withController S db)) (withController S db)), n.name = o.name :=
    rows_inserted hreloaded
  have harrived : ∀ o ∈ legacyRows db, Arrived o
      (inserted S (sharedColumns (withController S db)) (withController S db)) := by
    intro o ho
    obtain ⟨n, hn, hname⟩ := hnamed o ho
    exact ⟨n, hn, hname, hagree' o ho n hn hname⟩
  have hrows : controllerRows
      (inserted S (sharedColumns (withController S db)) (withController S db))
        = controllerRows (withController S db)
          ++ freshRows S (sharedColumns (withController S db)) (withController S db) :=
    controllerRows_inserted hreloaded
  rw [(same_withController db).controllers] at hrows
  refine ⟨⟨⟨rfl, fun o ho => .inr (harrived o ho), _, hrows, fun n hn => ?_⟩, harrived⟩,
    credentialsKept_of_same rfl, rfl, rfl⟩
  obtain ⟨o, ho, -, hcopy⟩ := mem_freshRows.mp hn
  exact ⟨o, ho, hcopy.symm⟩

/-- The legacy names are read off the old table. -/
theorem legacyNames_congr (h : operationRows db' = operationRows db) :
    legacyNames db' = legacyNames db := by
  unfold legacyNames legacyRows
  rw [h]

/-- So is whether a credential belongs to a legacy row. -/
theorem isLegacyCredential_congr (h : operationRows db' = operationRows db) (c : Credential) :
    isLegacyCredential db' c = isLegacyCredential db c := by
  unfold isLegacyCredential
  rw [legacyNames_congr h]

/-- Every legacy credential is there under the new doctype. -/
def CredentialsArrived (db db' : Site) : Prop :=
  ∀ c ∈ db.auth, isLegacyCredential db c = true → c.moved ∈ db'.auth

/-- The copy of the credentials loses nothing, and every legacy one arrives. -/
theorem copying_withCredentials (h : Copying S db db') (hauth : db'.auth = db.auth)
    (hagree : credentialConflicts db' = false) :
    Copying S db (withCredentials db') ∧ CredentialsArrived db (withCredentials db') := by
  have hlegacy := isLegacyCredential_congr h.operations
  refine ⟨⟨h.toRowsArrived.congr rfl rfl, ⟨fun c hc => ?_, fun c hc => ?_⟩, h.operations, h.tables⟩,
    fun c hc hold => ?_⟩
  · exact .inl (List.mem_append_left _ (hauth ▸ hc))
  · rcases List.mem_append.mp hc with hold | hnew
    · exact .inl (hauth ▸ hold)
    · obtain ⟨c', hc', hlegacy', hmoved, -⟩ := mem_freshCredentials.mp hnew
      exact .inr ⟨c', hauth ▸ hc', (hlegacy c').symm.trans hlegacy', hmoved⟩
  · exact moved_mem hagree (hauth ▸ hc) ((hlegacy c).trans hold)

/-- Their deletion loses nothing that has not arrived. -/
theorem copying_withoutLegacyCredentials (h : Copying S db db')
    (harrived : CredentialsArrived db db') :
    Copying S db (withoutLegacyCredentials db') ∧
      CredentialsArrived db (withoutLegacyCredentials db') ∧
      ∀ c ∈ (withoutLegacyCredentials db').auth, isLegacyCredential db c = false := by
  have hlegacy := isLegacyCredential_congr h.operations
  have hmem : ∀ c, c ∈ db'.auth → isLegacyCredential db c = false →
      c ∈ (withoutLegacyCredentials db').auth := by
    intro c hc hown
    exact List.mem_filter.mpr ⟨hc, by rw [hlegacy, hown]; rfl⟩
  have hmoved : CredentialsArrived db (withoutLegacyCredentials db') := by
    intro c hc hold
    refine hmem _ (harrived c hc hold) ?_
    simp [isLegacyCredential, Credential.moved]
  refine ⟨⟨h.toRowsArrived.congr rfl rfl, ⟨fun c hc => ?_, fun c hc => ?_⟩, h.operations, h.tables⟩,
    hmoved, fun c hc => ?_⟩
  · by_cases hold : isLegacyCredential db c = true
    · exact .inr ⟨hold, hmoved c hc hold⟩
    · rcases h.kept c hc with hstay | ⟨hcontra, -⟩
      · exact .inl (hmem c hstay (Bool.eq_false_iff.mpr hold))
      · exact absurd hcontra hold
  · exact h.known c (List.mem_of_mem_filter hc)
  · have hkeep := (List.mem_filter.mp hc).2
    rw [hlegacy] at hkeep
    simpa using hkeep

/-- The references up to `rest` are moved. -/
structure Moving (S : Schemas) (db : Site) (rest : List Reference) (db' : Site) : Prop
    extends RowsArrived S db db', CredentialsKept db db' where
  operations : operationRows db' = operationRows db
  credentials : CredentialsArrived db db'
  detached : ∀ c ∈ db'.auth, isLegacyCredential db c = false
  moved : ∃ earlier, references = earlier ++ rest ∧ ∀ r ∈ earlier,
    db'.tables r.doctype = (db.tables r.doctype).map (moveTable (legacyNames db) r)
  waiting : ∀ r ∈ rest, db'.tables r.doctype = db.tables r.doctype
  others : ∀ d, d ∉ references.map (·.doctype) → db'.tables d = db.tables d

/-- While references are moved, everything is kept. -/
theorem Moving.allKept {rest : List Reference} (h : Moving S db rest db') : Kept S db db' where
  toRowsKept := h.toRowsKept
  toCredentialsKept := h.toCredentialsKept
  others := h.others
  resolved r hr := by
    obtain ⟨earlier, hsplit, hmoved⟩ := h.moved
    have hmem : r ∈ earlier ++ rest := hsplit ▸ hr
    rcases List.mem_append.mp hmem with hdone | hwait
    · exact ⟨_, .inr rfl, hmoved r hdone, fun row hrow => h.toRowsArrived.resolves hr hrow⟩
    · refine ⟨id, .inl rfl, ?_, fun row hrow =>
        resolves_unmoved h.operations h.toRowsKept.controllers hrow⟩
      rw [mapRows_id, Option.map_id, h.waiting r hwait]
      rfl

/-- One update moves the references of one table, and they resolve to the copies. -/
theorem moving_withReference {r : Reference} {rest : List Reference}
    (h : Moving S db (r :: rest) db') : Moving S db rest (withReference r db') := by
  obtain ⟨earlier, hsplit, hmoved⟩ := h.moved
  have hnodup : ((earlier ++ r :: rest).map (·.doctype)).Nodup := hsplit ▸ references_nodup
  rw [List.map_append, List.nodup_append, List.map_cons, List.nodup_cons] at hnodup
  have hother : ∀ d, d ≠ r.doctype → (withReference r db').tables d = db'.tables d :=
    fun d hd => Function.update_of_ne hd _ _
  refine ⟨h.toRowsArrived.congr rfl rfl, ⟨h.kept, h.known⟩, h.operations, h.credentials,
    h.detached, ⟨earlier ++ [r], by rw [hsplit, List.append_assoc]; rfl, fun r' hr' => ?_⟩,
    fun r' hr' => ?_, fun d hd => ?_⟩
  · rcases List.mem_append.mp hr' with hold | hnew
    · have hne : r'.doctype ≠ r.doctype :=
        hnodup.2.2 r'.doctype (List.mem_map_of_mem hold) r.doctype List.mem_cons_self
      rw [hother _ hne]
      exact hmoved r' hold
    · rw [List.mem_singleton.mp hnew]
      have hself : (withReference r db').tables r.doctype
          = (db'.tables r.doctype).map (moveTable (legacyNames db') r) :=
        Function.update_self _ _ _
      rw [hself, h.waiting r List.mem_cons_self, legacyNames_congr h.operations]
  · have hne : r'.doctype ≠ r.doctype :=
      fun heq => hnodup.2.1.1 (heq ▸ List.mem_map_of_mem hr')
    rw [hother _ hne]
    exact h.waiting r' (List.mem_cons_of_mem _ hr')
  · have hr : r ∈ references := hsplit ▸ List.mem_append_right _ List.mem_cons_self
    have hne : d ≠ r.doctype := fun heq => hd (heq ▸ List.mem_map_of_mem hr)
    rw [hother d hne]
    exact h.others d hd

/-- Only the indexes and the schema of the old table are left to change. -/
structure Moved (S : Schemas) (db db' : Site) : Prop
    extends RowsArrived S db db', CredentialsKept db db' where
  empty : legacyRows db' = []
  credentials : CredentialsArrived db db'
  detached : ∀ c ∈ db'.auth, isLegacyCredential db c = false
  references : ∀ r ∈ references,
    db'.tables r.doctype = (db.tables r.doctype).map (moveTable (legacyNames db) r)
  others : ∀ d, d ∉ OperationNamespace.references.map (·.doctype) → db'.tables d = db.tables d

/-- After the references are moved, everything is kept. -/
theorem Moved.allKept (h : Moved S db db') : Kept S db db' where
  toRowsKept := h.toRowsKept
  toCredentialsKept := h.toCredentialsKept
  others := h.others
  resolved r hr :=
    ⟨_, .inr rfl, h.references r hr, fun _ hrow => h.toRowsArrived.resolves hr hrow⟩

/-- The legacy rows may go: nothing refers to them any more. -/
theorem moved_withoutLegacyRows (h : Moving S db [] db') : Moved S db (withoutLegacyRows db') := by
  have hfilter : ∀ rows : List Row, ((rows.filter fun row => !isLegacy row).filter
      fun row => !isLegacy row) = rows.filter fun row => !isLegacy row := by
    intro rows
    rw [List.filter_filter]
    simp
  have hempty : ∀ rows : List Row, (rows.filter fun row => !isLegacy row).filter isLegacy = [] := by
    intro rows
    rw [List.filter_filter]
    exact List.filter_eq_nil_iff.mpr fun row _ => by simp
  obtain ⟨earlier, hsplit, hmoved⟩ := h.moved
  refine ⟨h.toRowsArrived.congr ?_ rfl, ⟨h.kept, h.known⟩, ?_, h.credentials, h.detached, ?_,
    h.others⟩
  · rw [operationRows_withoutLegacyRows]
    exact hfilter _
  · unfold legacyRows
    rw [operationRows_withoutLegacyRows]
    exact hempty _
  · intro r hr
    rw [hsplit, List.append_nil] at hr
    exact hmoved r hr

/-- The columns and indexes of the old table do not matter. -/
theorem Moved.congr {operation : Option DataTable} (h : Moved S db db')
    (hrows : operationRows { db' with operation } = operationRows db') :
    Moved S db { db' with operation } where
  toRowsArrived := h.toRowsArrived.congr (by rw [hrows]) rfl
  kept := h.kept
  known := h.known
  empty := by
    have hempty := h.empty
    unfold legacyRows at hempty ⊢
    rw [hrows]
    exact hempty
  credentials := h.credentials
  detached := h.detached
  references := h.references
  others := h.others

/-- Dropping an index loses nothing. -/
theorem moved_withoutIndex {key : String} (h : Moved S db db') :
    Moved S db (withoutIndex key db') := by
  refine h.congr ?_
  unfold operationRows
  cases db'.operation <;> rfl

/-- Reloading the old DocType loses nothing. -/
theorem moved_withOperation (h : Moved S db db') : Moved S db (withOperation S db') := by
  refine h.congr ?_
  unfold operationRows
  cases db'.operation <;> rfl

end Kept

/-! ## Wherever an attempt stops -/

section Stops

/-- The last part keeps everything wherever it stops, and completes the migration. -/
theorem triple_dropIndexes : Triple (Moved S db) (dropIndexes S) (Complete db) (Kept S db) := by
  refine .read fun db₁ hdb₁ => ?_
  refine (Triple.writes_ok (g := withoutIndex)
    (I := fun keys db' => Moved S db db' ∧ legacyIndexes db' = keys)
    (fun keys db' h => h.1.allKept) ?_ ?_).conseq ?_
  · intro key rest db' h
    exact ⟨moved_withoutIndex h.1, legacyIndexes_tail h.2⟩
  · refine .write_ok (g := withOperation S)
      (R := fun db' => Moved S db db' ∧ legacyIndexes db' = [])
      (fun db' h => h.1.allKept) ?_ (.done ?_ fun db' h => h.1.allKept)
    · intro db' h
      exact ⟨moved_withOperation h.1, legacyIndexes_withOperation.trans h.2⟩
    · intro db' h
      exact ⟨h.1.empty, h.1.arrived, h.1.credentials, h.1.detached, h.1.references, h.2⟩
  · rintro db' rfl
    exact ⟨hdb₁, rfl⟩

/-- So do the references and what follows them. -/
theorem triple_moveReferences :
    Triple (Moving S db references) (moveReferences S) (Complete db) (Kept S db) := by
  refine .writes_ok (g := withReference) (I := fun rest db' => Moving S db rest db')
    (fun rest db' h => h.allKept) (fun r rest db' h => moving_withReference h) ?_
  exact .write_ok (g := withoutLegacyRows) (R := Moved S db) (fun db' h => h.allKept)
    (fun db' h => moved_withoutLegacyRows h) triple_dropIndexes

/-- So do the credentials and what follows them. -/
theorem triple_moveCredentials : Triple (fun db' => Copying S db db' ∧ db'.auth = db.auth)
    (moveCredentials S) (Complete db) (Kept S db) := by
  refine .read fun db₁ hdb₁ => ?_
  by_cases hconflict : credentialConflicts db₁ = true
  · rw [if_pos hconflict]
    refine .raise ?_
    rintro db' rfl
    exact hdb₁.1.allKept
  · rw [if_neg hconflict]
    refine .write_ok (g := withCredentials)
      (R := fun db' => Copying S db db' ∧ CredentialsArrived db db') ?_ ?_
      (.write_ok (g := withoutLegacyCredentials) (R := Moving S db references)
        (fun db' h => h.1.allKept) ?_ triple_moveReferences)
    · rintro db' rfl
      exact hdb₁.1.allKept
    · rintro db' rfl
      exact copying_withCredentials hdb₁.1 hdb₁.2 (Bool.eq_false_iff.mpr hconflict)
    · intro db' h
      obtain ⟨hcopying, harrived, hdetached⟩ := copying_withoutLegacyCredentials h.1 h.2
      exact ⟨hcopying.toRowsArrived, hcopying.toCredentialsKept, hcopying.operations, harrived,
        hdetached, ⟨[], rfl, fun _ hr => absurd hr List.not_mem_nil⟩,
        fun r _ => congrFun hcopying.tables r.doctype, fun d _ => congrFun hcopying.tables d⟩

/-- So does the move of the legacy rows. -/
theorem triple_moveLegacy (hkeyed : Keyed db) (hschema : legacySchema db = true) :
    Triple (· = withController S db) (moveLegacy S) (Complete db) (Kept S db) := by
  have hsame : Same db (withController S db) := same_withController db
  refine .read fun db₁ hdb₁ => ?_
  subst hdb₁
  by_cases hcolumns : ["name", "operation_id", "payload_hash"].all
      (sharedColumns (withController S db)).contains = true
  · rw [if_pos hcolumns]
    refine .read fun db₂ hdb₂ => ?_
    subst hdb₂
    by_cases hconflict : conflicts (withController S db) = true
    · rw [if_pos hconflict]
      refine .raise ?_
      rintro db' rfl
      exact hsame.allKept
    · rw [if_neg hconflict]
      refine .write (R := fun db' => Copying S db db' ∧ db'.auth = db.auth) ?_ ?_
        triple_moveCredentials
      · rintro db' rfl
        exact hsame.allKept
      · rintro db' db'' rfl hok
        rw [insertOperations_eq_ok hok]
        exact ⟨copying_inserted hkeyed hschema hcolumns (Bool.eq_false_iff.mpr hconflict), rfl⟩
  · rw [if_neg hcolumns]
    refine .raise ?_
    rintro db' rfl
    exact hsame.allKept

/-- So does the whole migration. -/
theorem triple_migrate (hkeyed : Keyed db) (hschema : legacySchema db = true) :
    Triple (· = db) (migrate S) (Complete db) (Kept S db) := by
  have hsame : Same db db := ⟨rfl, rfl, rfl, rfl⟩
  refine .read fun db₁ hdb₁ => ?_
  subst hdb₁
  rw [if_pos hschema]
  refine .write_ok (g := withController S) (R := (· = withController S db₁)) ?_ ?_
    (triple_moveLegacy hkeyed hschema)
  · rintro db' rfl
    exact hsame.allKept
  · rintro db' rfl
    rfl

/-- Wherever attempts are stopped, every row, credential and reference is at its old place or at its
new one, and what referred to a row refers to it still; and a complete one has moved them all. -/
theorem migrate_preserved (hkeyed : Keyed db) (hschema : legacySchema db = true)
    (hattempts : (migrate S).Attempts db db') : Kept S db db' ∧
      ∀ db'', (migrate S).run db' = .ok db'' → Complete db db'' := by
  have hresumed : Resumed (migrate S) (· = db) (migrate S) := resumed_migrate hkeyed
  obtain ⟨hrun, hstop⟩ := attempts_resumed hresumed hattempts
  obtain ⟨hcomplete, hkept⟩ := triple_migrate (S := S) hkeyed hschema db rfl
  refine ⟨hkept db' hstop, fun db'' hok => hcomplete db'' ?_⟩
  rw [← hrun]
  exact hok

/-- An attempt that stopped has lost nothing, and one that runs through from there is complete. -/
theorem migrate_preserved_sample : Kept Sample.schemas Sample.site Sample.stopped ∧
    ∀ db'', (migrate Sample.schemas).run Sample.stopped = .ok db'' →
      Complete Sample.site db'' := by
  have hschema : legacySchema Sample.site = true := by decide
  exact migrate_preserved Sample.keyed_site hschema
    (Relation.ReflTransGen.single Sample.stopped_mem)

end Stops

end OperationNamespace
end FrappeController
