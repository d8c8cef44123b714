import FrappeController.OperationNamespace

/-!
# The move of controller operations goes on where it was stopped

Where an attempt stops, the statements before change nothing any more, so that the next attempt
goes on with the rest (`migrate_resumed`).
-/

namespace FrappeController
namespace OperationNamespace

open Interruption

variable {S : Schemas} {db db' : Site}

/-- The primary keys of the tables. -/
structure Keyed (db : Site) : Prop where
  operations : ((operationRows db).map (·.name)).Nodup
  credentials : (db.auth.map fun c => (c.doctype, c.name, c.fieldname)).Nodup

/-! ## The new schema -/

section Reload

/-- The tables once the new schema is there. -/
def withController (S : Schemas) (db : Site) : Site :=
  { db with controllerOperation := some (reloadDoc S.controllerOperation db.controllerOperation) }

/-- Reloading a DocType adds no column to a table it has reloaded. -/
theorem reloadDoc_again (columns : List String) (table : Option DataTable) :
    reloadDoc columns (some (reloadDoc columns table)) = reloadDoc columns table := by
  have hnone : ∀ old : List String, (columns.filter fun c =>
      !(old ++ columns.filter fun c => !old.contains c).contains c) = [] := by
    intro old
    refine List.filter_eq_nil_iff.mpr fun c hc => ?_
    simp only [List.contains_eq_mem, List.mem_append, List.mem_filter, Bool.not_eq_true',
      decide_eq_false_iff_not, not_not]
    by_cases hold : c ∈ old
    · simp [hold]
    · simp [hold, hc]
  cases table with
  | none =>
    have hcolumns : (columns.filter fun c => !columns.contains c) = [] :=
      List.filter_eq_nil_iff.mpr fun c hc => by simpa using hc
    show DataTable.mk (columns ++ columns.filter fun c => !columns.contains c) [] [] = _
    rw [hcolumns, List.append_nil]
    rfl
  | some t =>
    show DataTable.mk (_ ++ columns.filter fun c =>
      !(t.columns ++ columns.filter fun c => !t.columns.contains c).contains c) _ _ = _
    rw [hnone, List.append_nil]

/-- The new DocType is created once. -/
theorem withController_again (db : Site) :
    withController S (withController S db) = withController S db := by
  unfold withController
  rw [reloadDoc_again]

/-- The new schema is there. -/
structure Reloaded (S : Schemas) (db : Site) : Prop where
  schema : legacySchema db = true
  reloaded : withController S db = db

/-- Once the new DocType is reloaded, both tables have the columns the copy asks for. -/
theorem reloaded_withController (hschema : legacySchema db = true) :
    Reloaded S (withController S db) :=
  ⟨hschema, withController_again db⟩

/-- A reloaded site has the new table. -/
theorem Reloaded.exists_controllerOperation (h : Reloaded S db) :
    ∃ t, db.controllerOperation = some t :=
  ⟨_, (congrArg Site.controllerOperation h.reloaded).symm⟩

/-- Resumed on a reloaded site, the migration comes to the copy at once. -/
theorem Reloaded.comesTo (h : Reloaded S db) : (migrate S).ComesTo (moveLegacy S) db := by
  have hread : (migrate S).ComesTo (.write (reloadController S) (moveLegacy S)) db := by
    have hstart := (Program.ComesTo.refl (migrate S) db).read
    rwa [h.schema] at hstart
  exact hread.write (congrArg Except.ok h.reloaded)

end Reload

/-! ## The rows -/

section Insert

variable {columns : List String}

/-- A fresh row is the copy of a legacy row whose name the new table does not have. -/
theorem mem_freshRows {n : Row} : n ∈ freshRows S columns db ↔
    ∃ o ∈ legacyRows db, (∀ m ∈ controllerRows db, m.name ≠ o.name) ∧ copyRow S columns o = n := by
  simp [freshRows, and_assoc]

/-- There is no conflict when every new row agrees with the legacy row of its name on the identity
and the payload. -/
theorem conflicts_eq_false : conflicts db = false ↔ ∀ o ∈ legacyRows db,
    ∀ n ∈ controllerRows db, n.name = o.name →
      differ o n "operation_id" = false ∧ differ o n "payload_hash" = false := by
  simp [conflicts]

/-- A row differs from itself nowhere. -/
theorem differ_self (row : Row) (column : String) : differ row row column = false := by
  unfold differ
  cases row.value column <;> simp

/-- A legacy row is known by its name. -/
theorem eq_of_name (hkeyed : Keyed db) {o o' : Row} (ho : o ∈ legacyRows db)
    (ho' : o' ∈ legacyRows db) (h : o.name = o'.name) : o = o' :=
  List.inj_on_of_nodup_map hkeyed.operations (List.mem_of_mem_filter ho)
    (List.mem_of_mem_filter ho') h

/-- Nothing is fresh once every legacy row has its copy. -/
theorem freshRows_of_inserted (h : ∀ o ∈ legacyRows db, ∃ n ∈ controllerRows db, n.name = o.name) :
    freshRows S columns db = [] := by
  refine List.eq_nil_iff_forall_not_mem.mpr fun n hn => ?_
  obtain ⟨o, ho, hfree, -⟩ := mem_freshRows.mp hn
  obtain ⟨m, hm, hname⟩ := h o ho
  exact hfree m hm hname

/-- An empty insert violates no key. -/
theorem clash_nil (old : List Row) : clash old [] = false := by
  simp [clash]

/-- The state after the insertion of the rows. -/
def inserted (S : Schemas) (columns : List String) (db : Site) : Site :=
  setControllerRows (controllerRows db ++ freshRows S columns db) db

/-- The copy appends the fresh rows and leaves the others as they are. -/
theorem controllerRows_inserted (h : Reloaded S db) :
    controllerRows (inserted S columns db) = controllerRows db ++ freshRows S columns db := by
  obtain ⟨t, ht⟩ := h.exists_controllerOperation
  unfold inserted setControllerRows
  generalize controllerRows db ++ freshRows S columns db = rows
  simp [controllerRows, ht]

/-- The copy changes no column. -/
theorem sharedColumns_inserted : sharedColumns (inserted S columns db) = sharedColumns db := by
  unfold inserted setControllerRows sharedColumns
  cases db.operation <;> cases db.controllerOperation <;> rfl

/-- The copy leaves the site reloaded. -/
theorem reloaded_inserted (h : Reloaded S db) : Reloaded S (inserted S columns db) := by
  obtain ⟨t, ht⟩ := h.exists_controllerOperation
  have htable : reloadDoc S.controllerOperation (some t) = t := by
    have hsome := congrArg Site.controllerOperation h.reloaded
    rw [ht] at hsome
    exact Option.some.inj (ht ▸ hsome)
  refine ⟨h.schema, ?_⟩
  unfold inserted setControllerRows withController
  generalize controllerRows db ++ freshRows S columns db = rows
  have hrows : reloadDoc S.controllerOperation (some { t with rows }) = { t with rows } :=
    congrArg (fun table : DataTable => { table with rows }) htable
  simp [ht, hrows]

/-- After the copy every legacy row has its copy. -/
theorem rows_inserted (h : Reloaded S db) :
    ∀ o ∈ legacyRows db, ∃ n ∈ controllerRows (inserted S columns db), n.name = o.name := by
  intro o ho
  rw [controllerRows_inserted h]
  by_cases hfree : ∀ m ∈ controllerRows db, m.name ≠ o.name
  · have hnew : copyRow S columns o ∈ freshRows S columns db :=
      mem_freshRows.mpr ⟨o, ho, hfree, rfl⟩
    exact ⟨copyRow S columns o, List.mem_append_right _ hnew, rfl⟩
  · push Not at hfree
    obtain ⟨m, hm, hname⟩ := hfree
    exact ⟨m, List.mem_append_left _ hm, hname⟩

/-- A copy conflicts with its own row in nothing, so the check passes again. -/
theorem conflicts_inserted (hkeyed : Keyed db) (h : Reloaded S db)
    (hcolumns : ["name", "operation_id", "payload_hash"].all columns.contains = true)
    (hagree : conflicts db = false) : conflicts (inserted S columns db) = false := by
  refine conflicts_eq_false.mpr fun o ho n hn hname => ?_
  rw [controllerRows_inserted h] at hn
  rcases List.mem_append.mp hn with hold | hnew
  · exact conflicts_eq_false.mp hagree o ho n hold hname
  · obtain ⟨o', ho', -, rfl⟩ := mem_freshRows.mp hnew
    -- the new row was made from the legacy row of this name
    have hsame : o' = o := eq_of_name hkeyed ho' ho hname
    subst hsame
    have hcopied : ∀ c ∈ ["name", "operation_id", "payload_hash"],
        differ o' (copyRow S columns o') c = false := by
      intro c hc
      have hvalue : (copyRow S columns o').value c = o'.value c :=
        if_pos (List.all_eq_true.mp hcolumns c hc)
      unfold differ
      rw [hvalue]
      exact differ_self o' c
    exact ⟨hcopied _ (by simp), hcopied _ (by simp)⟩

/-- Every legacy row has a row of its name and identity in the new table. -/
structure Inserted (S : Schemas) (db : Site) : Prop extends Reloaded S db where
  columns : ["name", "operation_id", "payload_hash"].all (sharedColumns db).contains = true
  agree : conflicts db = false
  rows : ∀ o ∈ legacyRows db, ∃ n ∈ controllerRows db, n.name = o.name

/-- The copy establishes what the later statements ask for. -/
theorem inserted_inserted (hkeyed : Keyed db) (h : Reloaded S db)
    (hcolumns : ["name", "operation_id", "payload_hash"].all (sharedColumns db).contains = true)
    (hagree : conflicts db = false) : Inserted S (inserted S (sharedColumns db) db) where
  toReloaded := reloaded_inserted h
  columns := by
    rw [sharedColumns_inserted]
    exact hcolumns
  agree := conflicts_inserted hkeyed h hcolumns hagree
  rows := rows_inserted h

/-- An insert that does not raise is the copy. -/
theorem insertOperations_eq_ok (h : insertOperations S columns db = .ok db') :
    db' = inserted S columns db := by
  unfold insertOperations at h
  split at h
  · cases h
  · exact (Except.ok.inj h).symm

/-- The insert, made again, changes nothing. -/
theorem Inserted.insertOperations_again (h : Inserted S db) :
    insertOperations S columns db = .ok db := by
  obtain ⟨t, ht⟩ := h.exists_controllerOperation
  have hrows : controllerRows db = t.rows := by
    simp [controllerRows, ht]
  have hsame : setControllerRows t.rows db = db := by
    unfold setControllerRows
    rw [ht]
    exact congrArg (fun table => { db with controllerOperation := table }) ht.symm
  unfold insertOperations
  rw [freshRows_of_inserted h.rows, clash_nil, List.append_nil, hrows, hsame]
  rfl

/-- From the read of the columns on, for a state that passes the checks of the rows. -/
theorem Reloaded.comesTo_moveOperations (h : Reloaded S db)
    (hcolumns : ["name", "operation_id", "payload_hash"].all (sharedColumns db).contains = true) :
    (migrate S).ComesTo (moveOperations S (sharedColumns db)) db := by
  have hread := h.comesTo.read
  rwa [if_pos hcolumns] at hread

/-- Resumed on a reloaded site without conflicts, the migration comes to the insert. -/
theorem Reloaded.comesTo_insertOperations (h : Reloaded S db)
    (hcolumns : ["name", "operation_id", "payload_hash"].all (sharedColumns db).contains = true)
    (hagree : conflicts db = false) : (migrate S).ComesTo
      (.write (insertOperations S (sharedColumns db)) (moveCredentials S)) db := by
  have hread := (h.comesTo_moveOperations hcolumns).read
  rwa [hagree] at hread

/-- Resumed after the insert, the migration comes to the credentials. -/
theorem Inserted.comesTo (h : Inserted S db) : (migrate S).ComesTo (moveCredentials S) db :=
  (h.comesTo_insertOperations h.columns h.agree).write h.insertOperations_again

end Insert

/-! ## The credentials -/

section Credentials

/-- The key of a credential is the document and the field it is for. -/
theorem sameKey_iff {c c' : Credential} : c.sameKey c' = true ↔
    c.doctype = c'.doctype ∧ c.name = c'.name ∧ c.fieldname = c'.fieldname := by
  simp [Credential.sameKey, and_assoc]

/-- A legacy credential belongs to a legacy row of the old DocType. -/
theorem isLegacyCredential_iff {c : Credential} : isLegacyCredential db c = true ↔
    c.doctype = "Operation" ∧ c.name ∈ legacyNames db := by
  simp [isLegacyCredential]

/-- There is no conflict when what is stored under the new key of a legacy credential equals it. -/
theorem credentialConflicts_eq_false : credentialConflicts db = false ↔
    ∀ o ∈ db.auth, isLegacyCredential db o = true → ∀ n ∈ db.auth, n.sameKey o.moved = true →
      o.password = n.password ∧ o.encrypted = n.encrypted := by
  simp [credentialConflicts]

/-- A fresh credential is a moved legacy one whose key is free. -/
theorem mem_freshCredentials {c : Credential} : c ∈ freshCredentials db ↔
    ∃ c' ∈ db.auth, isLegacyCredential db c' = true ∧ c'.moved = c ∧
      ∀ n ∈ db.auth, c.sameKey n = false := by
  simp only [freshCredentials, List.mem_filter, List.mem_map, Bool.not_eq_true', List.any_eq_false,
    Bool.not_eq_true]
  constructor
  · rintro ⟨⟨c', ⟨hc', hlegacy⟩, hmoved⟩, hfree⟩
    exact ⟨c', hc', hlegacy, hmoved, hfree⟩
  · rintro ⟨c', hc', hlegacy, hmoved, hfree⟩
    exact ⟨⟨c', ⟨hc', hlegacy⟩, hmoved⟩, hfree⟩

/-- Where no two credentials differ, each legacy one is there under the new doctype after the
insertion: its key was free, or taken by an equal one. -/
theorem moved_mem (hagree : credentialConflicts db = false) {c : Credential} (hc : c ∈ db.auth)
    (hlegacy : isLegacyCredential db c = true) : c.moved ∈ db.auth ++ freshCredentials db := by
  by_cases hfree : ∀ n ∈ db.auth, c.moved.sameKey n = false
  · exact List.mem_append_right _ (mem_freshCredentials.mpr ⟨c, hc, hlegacy, rfl, hfree⟩)
  · push Not at hfree
    obtain ⟨n, hn, hkey⟩ := hfree
    have htaken : c.moved.sameKey n = true := by simpa using hkey
    have hparts := sameKey_iff.mp htaken
    have hkey' : n.sameKey c.moved = true :=
      sameKey_iff.mpr ⟨hparts.1.symm, hparts.2.1.symm, hparts.2.2.symm⟩
    have hvalue := credentialConflicts_eq_false.mp hagree c hc hlegacy n hn hkey'
    have hsame : c.moved = n := by
      cases n
      simp only [Credential.moved] at hparts hvalue ⊢
      simp [hparts, hvalue]
    rw [hsame]
    exact List.mem_append_left _ hn

/-- The credentials and the other tables do not matter to the copied rows. -/
theorem inserted_frame (h : Inserted S db) (auth : List Credential)
    (tables : String → Option DataTable) : Inserted S { db with auth, tables } where
  schema := h.schema
  reloaded := congrArg (fun db : Site => { db with auth, tables }) h.reloaded
  columns := h.columns
  agree := h.agree
  rows := h.rows

/-- Every legacy credential is there under the new doctype too. -/
structure Copied (S : Schemas) (db : Site) : Prop extends Inserted S db where
  agreeing : credentialConflicts db = false
  copied : ∀ c ∈ db.auth, isLegacyCredential db c = true → c.moved ∈ db.auth

/-- The credentials after the insertion. -/
def withCredentials (db : Site) : Site := { db with auth := db.auth ++ freshCredentials db }

/-- The copies of credentials are under the new DocType, so a legacy one was there before. -/
theorem mem_auth_of_legacy {c : Credential} (hc : c ∈ (withCredentials db).auth)
    (hlegacy : isLegacyCredential db c = true) : c ∈ db.auth := by
  rcases List.mem_append.mp hc with hold | hnew
  · exact hold
  · obtain ⟨c', -, -, rfl, -⟩ := mem_freshCredentials.mp hnew
    exact absurd (isLegacyCredential_iff.mp hlegacy).1 (by simp [Credential.moved])

/-- A credential is known by its key. -/
theorem Keyed.eq_of_sameKey (hkeyed : Keyed db) {c c' : Credential} (hc : c ∈ db.auth)
    (hc' : c' ∈ db.auth) (h : c.sameKey c' = true) : c = c' := by
  obtain ⟨hdoctype, hname, hfieldname⟩ := sameKey_iff.mp h
  refine List.inj_on_of_nodup_map hkeyed.credentials hc hc' ?_
  rw [hdoctype, hname, hfieldname]

/-- The copy of the credentials establishes what their deletion asks for. -/
theorem copied_withCredentials (hkeyed : Keyed db) (h : Inserted S db)
    (hagree : credentialConflicts db = false) : Copied S (withCredentials db) where
  toInserted := inserted_frame h _ _
  agreeing := by
    refine credentialConflicts_eq_false.mpr fun o ho hlegacy n hn hkey => ?_
    have hold : o ∈ db.auth := mem_auth_of_legacy ho hlegacy
    rcases List.mem_append.mp hn with hn' | hnew
    · exact credentialConflicts_eq_false.mp hagree o hold hlegacy n hn' hkey
    · obtain ⟨o', ho', hlegacy', rfl, -⟩ := mem_freshCredentials.mp hnew
      -- both were made from credentials with one key
      have hparts := sameKey_iff.mp hkey
      have hdoctype : o'.doctype = o.doctype :=
        (isLegacyCredential_iff.mp hlegacy').1.trans (isLegacyCredential_iff.mp hlegacy).1.symm
      have hsame : o' = o := hkeyed.eq_of_sameKey ho' hold
        (sameKey_iff.mpr ⟨hdoctype, hparts.2⟩)
      subst hsame
      exact ⟨rfl, rfl⟩
  copied c hc hlegacy := moved_mem hagree (mem_auth_of_legacy hc hlegacy) hlegacy

/-- Nothing is fresh once every legacy credential has its copy. -/
theorem Copied.freshCredentials_eq_nil (h : Copied S db) : freshCredentials db = [] := by
  refine List.eq_nil_iff_forall_not_mem.mpr fun c hc => ?_
  obtain ⟨c', hc', hlegacy, rfl, hfree⟩ := mem_freshCredentials.mp hc
  have hself : c'.moved.sameKey c'.moved = true := sameKey_iff.mpr ⟨rfl, rfl, rfl⟩
  rw [hfree _ (h.copied c' hc' hlegacy)] at hself
  cases hself

/-- The insert of the credentials, made again, changes nothing. -/
theorem Copied.insertCredentials_again (h : Copied S db) : insertCredentials db = .ok db := by
  unfold insertCredentials
  rw [h.freshCredentials_eq_nil, List.append_nil]

/-- Resumed after the rows were copied, the migration comes to the insert of the credentials. -/
theorem Inserted.comesTo_insertCredentials (h : Inserted S db)
    (hagree : credentialConflicts db = false) : (migrate S).ComesTo
      (.write insertCredentials (.write deleteCredentials (moveReferences S))) db := by
  have hread := h.comesTo.read
  rwa [hagree] at hread

/-- Resumed after it, the migration comes to the deletion of the legacy credentials. -/
theorem Copied.comesTo (h : Copied S db) :
    (migrate S).ComesTo (.write deleteCredentials (moveReferences S)) db :=
  (h.comesTo_insertCredentials h.agreeing).write h.insertCredentials_again

/-- No legacy credential is left. -/
structure Detached (S : Schemas) (db : Site) : Prop extends Inserted S db where
  detached : ∀ c ∈ db.auth, isLegacyCredential db c = false

/-- The credentials after the deletion. -/
def withoutLegacyCredentials (db : Site) : Site :=
  { db with auth := db.auth.filter fun c => !isLegacyCredential db c }

/-- After the deletion no credential belongs to a legacy row. -/
theorem detached_withoutLegacyCredentials (h : Inserted S db) :
    Detached S (withoutLegacyCredentials db) where
  toInserted := inserted_frame h _ _
  detached c hc := by
    have hkept := (List.mem_filter.mp hc).2
    exact Bool.not_eq_true' _ ▸ hkept

/-- Where no legacy credential is left, none lacks its copy. -/
theorem Detached.copied (h : Detached S db) : Copied S db where
  toInserted := h.toInserted
  agreeing := by
    refine credentialConflicts_eq_false.mpr fun o ho hlegacy => ?_
    rw [h.detached o ho] at hlegacy
    cases hlegacy
  copied c hc hlegacy := by
    rw [h.detached c hc] at hlegacy
    cases hlegacy

/-- Resumed after the deletion, the migration comes to the references. -/
theorem Detached.comesTo (h : Detached S db) : (migrate S).ComesTo (moveReferences S) db := by
  refine h.copied.comesTo.write ?_
  have hall : (db.auth.filter fun c => !isLegacyCredential db c) = db.auth :=
    List.filter_eq_self.mpr fun c hc => by simp [h.detached c hc]
  unfold deleteCredentials
  rw [hall]

end Credentials

/-! ## The references -/

section References

variable {r r' : Reference} {names : List String}

/-- A reference that was moved does not name the old DocType any more. -/
theorem moveRow_again (row : Row) : moveRow names r (moveRow names r row) = moveRow names r row := by
  by_cases h : refersToLegacy names r row = true
  · have hmoved : refersToLegacy names r (moveRow names r row) = false := by
      unfold moveRow
      rw [if_pos h]
      unfold refersToLegacy
      simp
    exact if_neg (Bool.eq_false_iff.mp hmoved)
  · have hsame : moveRow names r row = row := if_neg h
    rw [hsame, hsame]

/-- Moving the references of a table again changes nothing. -/
theorem moveTable_again (t : DataTable) :
    moveTable names r (moveTable names r t) = moveTable names r t := by
  by_cases h : (t.columns.contains r.kind && t.columns.contains r.name) = true
  · have hmoved : moveTable names r t = { t with rows := t.rows.map (moveRow names r) } := if_pos h
    have hagain : moveTable names r { t with rows := t.rows.map (moveRow names r) }
        = { t with rows := (t.rows.map (moveRow names r)).map (moveRow names r) } := if_pos h
    rw [hmoved, hagain, List.map_map]
    exact congrArg (fun f => { t with rows := t.rows.map f }) (funext moveRow_again)
  · have hsame : moveTable names r t = t := if_neg h
    rw [hsame, hsame]

/-- The update of these references changes nothing. -/
def Settled (r : Reference) (db : Site) : Prop :=
  (db.tables r.doctype).map (moveTable (legacyNames db) r) = db.tables r.doctype

/-- The update of a settled reference, made again, changes nothing. -/
theorem Settled.moveReference_again (h : Settled r db) : moveReference r db = .ok db := by
  have hsame : (db.tables r.doctype).map (moveTable (legacyNames db) r) = db.tables r.doctype := h
  have htables : Function.update db.tables r.doctype
      ((db.tables r.doctype).map (moveTable (legacyNames db) r)) = db.tables := by
    rw [hsame, Function.update_eq_self]
  exact congrArg (fun tables => Except.ok { db with tables }) htables

/-- The tables after the update of these references. -/
def withReference (r : Reference) (db : Site) : Site :=
  let moved := (db.tables r.doctype).map (moveTable (legacyNames db) r)
  { db with tables := Function.update db.tables r.doctype moved }

/-- The update settles its reference. -/
theorem settled_withReference (r : Reference) (db : Site) : Settled r (withReference r db) := by
  show (Function.update db.tables r.doctype _ r.doctype).map _ = Function.update db.tables _ _ _
  rw [Function.update_self, Option.map_map]
  exact congrArg (Option.map · (db.tables r.doctype)) (funext moveTable_again)

/-- A settled reference stays settled when a reference of another table is moved. -/
theorem Settled.withReference (h : Settled r' db) (hdoctype : r'.doctype ≠ r.doctype) :
    Settled r' (withReference r db) := by
  show (Function.update db.tables r.doctype _ r'.doctype).map _ = Function.update db.tables _ _ _
  rw [Function.update_of_ne hdoctype]
  exact h

/-- The references up to `rest` were moved. -/
def MovedUpTo (rest : List Reference) (db : Site) : Prop :=
  ∃ earlier, references = earlier ++ rest ∧ ∀ r ∈ earlier, Settled r db

/-- Before the first update nothing has to be settled. -/
theorem movedUpTo_references : MovedUpTo references db :=
  ⟨[], rfl, fun _ hr => absurd hr List.not_mem_nil⟩

/-- No two references are of one table. -/
theorem references_nodup : (references.map (·.doctype)).Nodup := by decide

/-- The next update settles the next reference. -/
theorem MovedUpTo.withReference {rest : List Reference} (h : MovedUpTo (r :: rest) db) :
    MovedUpTo rest (withReference r db) := by
  obtain ⟨earlier, hsplit, hsettled⟩ := h
  refine ⟨earlier ++ [r], by rw [hsplit, List.append_assoc]; rfl, fun r' hr' => ?_⟩
  rcases List.mem_append.mp hr' with hold | hnew
  · -- no two of the references are those of one doctype
    have hnodup : ((earlier ++ r :: rest).map (·.doctype)).Nodup := hsplit ▸ references_nodup
    rw [List.map_append, List.nodup_append] at hnodup
    have hne : r'.doctype ≠ r.doctype :=
      hnodup.2.2 r'.doctype (List.mem_map_of_mem hold) r.doctype List.mem_cons_self
    exact (hsettled r' hold).withReference hne
  · rw [List.mem_singleton.mp hnew]
    exact settled_withReference r db

/-- The references do not matter to the credentials. -/
theorem detached_withReference (h : Detached S db) : Detached S (withReference r db) where
  toInserted := inserted_frame h.toInserted _ _
  detached := h.detached

/-- Resumed among the references, the migration comes to the first that is left. -/
theorem Detached.comesTo_writes {rest : List Reference} (h : Detached S db)
    (hmoved : MovedUpTo rest db) : (migrate S).ComesTo
      ((Program.write deleteOperations (dropIndexes S)).writes moveReference rest) db := by
  obtain ⟨earlier, hsplit, hsettled⟩ := hmoved
  have hcomes : (migrate S).ComesTo
      ((Program.write deleteOperations (dropIndexes S)).writes moveReference references) db :=
    h.comesTo
  rw [hsplit, Program.writes_append] at hcomes
  exact hcomes.writes fun r hr => (hsettled r hr).moveReference_again

end References

/-! ## The old table -/

section Old

/-- The copied columns are those both tables have. -/
theorem mem_sharedColumns {c : String} : c ∈ sharedColumns db ↔ ∃ old new,
    db.operation = some old ∧ db.controllerOperation = some new ∧ c ∈ old.columns ∧
      c ∈ new.columns := by
  unfold sharedColumns
  cases db.operation with
  | none => simp
  | some old =>
    cases db.controllerOperation with
    | none => simp
    | some new => simp

/-- No legacy row is left. -/
structure Emptied (S : Schemas) (db : Site) : Prop extends Reloaded S db where
  columns : ["name", "operation_id", "payload_hash"].all (sharedColumns db).contains = true
  empty : legacyRows db = []

/-- No legacy row is left. -/
theorem Emptied.legacyNames_eq_nil (h : Emptied S db) : legacyNames db = [] := by
  unfold legacyNames
  rw [h.empty, List.map_nil]

/-- Where no legacy row is left, no credential belongs to one. -/
theorem Emptied.detached (h : Emptied S db) : Detached S db where
  toReloaded := h.toReloaded
  columns := h.columns
  agree := conflicts_eq_false.mpr fun o ho => absurd (h.empty ▸ ho) List.not_mem_nil
  rows o ho := absurd (h.empty ▸ ho) List.not_mem_nil
  detached c _ := by
    unfold isLegacyCredential
    rw [h.legacyNames_eq_nil, List.contains_nil, Bool.and_false]

/-- Without legacy names no reference is moved. -/
theorem moveTable_nil (r : Reference) : moveTable [] r = id := by
  have hrow : moveRow [] r = id := by
    funext row
    refine if_neg ?_
    unfold refersToLegacy
    cases row.value r.name <;> simp
  funext t
  unfold moveTable
  rw [hrow, List.map_id]
  exact ite_self t

/-- Where no legacy row is left, every reference is settled. -/
theorem Emptied.movedUpTo (h : Emptied S db) : MovedUpTo [] db := by
  refine ⟨references, (List.append_nil _).symm, fun r _ => ?_⟩
  unfold Settled
  rw [h.legacyNames_eq_nil, moveTable_nil, Option.map_id]
  rfl

/-- The tables after the deletion of the legacy rows. -/
def withoutLegacyRows (db : Site) : Site :=
  { db with operation := db.operation.map fun t =>
    { t with rows := t.rows.filter fun row => !isLegacy row } }

/-- The deletion keeps the rows that are not legacy rows. -/
theorem operationRows_withoutLegacyRows (db : Site) : operationRows (withoutLegacyRows db)
    = (operationRows db).filter fun row => !isLegacy row := by
  unfold withoutLegacyRows operationRows
  cases db.operation <;> rfl

/-- The deletion leaves no legacy row. -/
theorem emptied_withoutLegacyRows (h : Inserted S db) : Emptied S (withoutLegacyRows db) where
  schema := by
    have hschema := h.schema
    unfold legacySchema withoutLegacyRows at *
    cases hop : db.operation with
    | none => rw [hop] at hschema; exact hschema
    | some t => rw [hop] at hschema; exact hschema
  reloaded := congrArg (fun db' : Site => { db' with operation := (withoutLegacyRows db).operation })
    h.reloaded
  columns := by
    have hsame : sharedColumns (withoutLegacyRows db) = sharedColumns db := by
      unfold sharedColumns withoutLegacyRows
      cases db.operation <;> cases db.controllerOperation <;> rfl
    rw [hsame]
    exact h.columns
  empty := by
    unfold legacyRows
    rw [operationRows_withoutLegacyRows, List.filter_filter]
    exact List.filter_eq_nil_iff.mpr fun row _ => by simp

/-- The deletion, made again, finds nothing. -/
theorem Emptied.deleteOperations_again (h : Emptied S db) : deleteOperations db = .ok db := by
  have hkept : ∀ t, db.operation = some t → (t.rows.filter fun row => !isLegacy row) = t.rows := by
    intro t ht
    refine List.filter_eq_self.mpr fun row hrow => ?_
    have hnone := List.filter_eq_nil_iff.mp h.empty row (by simpa [operationRows, ht] using hrow)
    simpa using hnone
  show Except.ok (withoutLegacyRows db) = _
  cases ht : db.operation with
  | none =>
    have hsame : withoutLegacyRows db = db := by
      unfold withoutLegacyRows
      rw [ht]
      exact congrArg (fun table => { db with operation := table }) ht.symm
    rw [hsame]
  | some t =>
    have hsame : withoutLegacyRows db = db := by
      unfold withoutLegacyRows
      rw [ht]
      show { db with operation := some { t with rows := t.rows.filter _ } } = db
      rw [hkept t ht]
      exact congrArg (fun table => { db with operation := table }) ht.symm
    rw [hsame]

/-- Resumed after the deletion of the rows, the migration comes to the indexes. -/
theorem Emptied.comesTo (h : Emptied S db) : (migrate S).ComesTo (dropIndexes S) db :=
  (h.detached.comesTo_writes h.movedUpTo).write h.deleteOperations_again

end Old

/-! ## The indexes -/

section Indexes

/-- A selection of the different elements is the different elements of a selection. -/
theorem dedup_filter (p : String → Bool) (l : List String) :
    (l.filter p).dedup = l.dedup.filter p := by
  induction l with
  | nil => rfl
  | cons a l ih =>
    by_cases hp : p a = true
    · rw [List.filter_cons_of_pos hp]
      by_cases ha : a ∈ l
      · rw [List.dedup_cons_of_mem ha, List.dedup_cons_of_mem (List.mem_filter.mpr ⟨ha, hp⟩), ih]
      · have ha' : a ∉ l.filter p := fun h => ha (List.mem_of_mem_filter h)
        rw [List.dedup_cons_of_notMem ha, List.dedup_cons_of_notMem ha',
          List.filter_cons_of_pos hp, ih]
    · rw [List.filter_cons_of_neg hp, ih]
      by_cases ha : a ∈ l
      · rw [List.dedup_cons_of_mem ha]
      · rw [List.dedup_cons_of_notMem ha, List.filter_cons_of_neg hp]

/-- The site is a legacy one while its old table has an `operation_id`. -/
theorem legacySchema_eq_true : legacySchema db = true ↔
    ∃ old, db.operation = some old ∧ "operation_id" ∈ old.columns := by
  unfold legacySchema
  cases db.operation with
  | none => simp
  | some old => simp

/-- A table with more columns and the same rows is as empty of legacy rows. -/
theorem emptied_setOperation (h : Emptied S db) {old new : DataTable}
    (hold : db.operation = some old) (hcolumns : old.columns ⊆ new.columns)
    (hrows : new.rows = old.rows) : Emptied S { db with operation := some new } where
  schema := by
    obtain ⟨old', hold', hmem⟩ := legacySchema_eq_true.mp h.schema
    have hsame : old' = old := Option.some.inj (hold'.symm.trans hold)
    exact legacySchema_eq_true.mpr ⟨new, rfl, hcolumns (hsame ▸ hmem)⟩
  reloaded := congrArg (fun db' : Site => { db' with operation := some new }) h.reloaded
  columns := by
    refine List.all_eq_true.mpr fun c hc => ?_
    have hmem : c ∈ sharedColumns db := by
      simpa using List.all_eq_true.mp h.columns c hc
    obtain ⟨old', t, hold', ht, hcold, hct⟩ := mem_sharedColumns.mp hmem
    have hsame : old' = old := Option.some.inj (hold'.symm.trans hold)
    have hnew : c ∈ sharedColumns { db with operation := some new } :=
      mem_sharedColumns.mpr ⟨new, t, rfl, ht, hcolumns (hsame ▸ hcold), hct⟩
    simpa using hnew
  empty := by
    have hempty := h.empty
    unfold legacyRows operationRows at hempty ⊢
    rw [hold] at hempty
    rw [← hempty]
    show new.rows.filter isLegacy = old.rows.filter isLegacy
    rw [hrows]

/-- The old table without an index. -/
def withoutIndex (key : String) (db : Site) : Site :=
  { db with operation := db.operation.map fun t =>
    { t with indexes := t.indexes.filter fun i => i.keyName != key } }

/-- Dropping an index touches no row. -/
theorem emptied_withoutIndex {key : String} (h : Emptied S db) :
    Emptied S (withoutIndex key db) := by
  obtain ⟨old, hold, -⟩ := legacySchema_eq_true.mp h.schema
  unfold withoutIndex
  rw [hold]
  exact emptied_setOperation h hold (List.Subset.refl _) rfl

/-- Dropping an index drops that one only. -/
theorem legacyIndexes_withoutIndex (key : String) : legacyIndexes (withoutIndex key db)
    = (legacyIndexes db).filter fun k => k != key := by
  unfold legacyIndexes withoutIndex
  rw [← dedup_filter, List.filter_map]
  cases db.operation with
  | none => rfl
  | some t =>
    refine congrArg (fun l : List IndexLine => (l.map (·.keyName)).dedup) ?_
    exact List.filter_comm _ _ _

/-- After the first index is dropped, the others are left. -/
theorem legacyIndexes_tail {key : String} {rest : List String}
    (h : legacyIndexes db = key :: rest) : legacyIndexes (withoutIndex key db) = rest := by
  have hnodup : (key :: rest).Nodup := h ▸ List.nodup_dedup _
  rw [legacyIndexes_withoutIndex, h, List.filter_cons_of_neg (by simp)]
  refine List.filter_eq_self.mpr fun k hk => ?_
  have hne : k ≠ key := fun heq => (List.nodup_cons.mp hnodup).1 (heq ▸ hk)
  simpa using hne

/-- The old table once ERPNext's schema is there. -/
def withOperation (S : Schemas) (db : Site) : Site :=
  { db with operation := some (reloadDoc S.operation db.operation) }

/-- Reloading the old DocType touches no row. -/
theorem emptied_withOperation (h : Emptied S db) : Emptied S (withOperation S db) := by
  obtain ⟨old, hold, -⟩ := legacySchema_eq_true.mp h.schema
  unfold withOperation
  rw [hold]
  exact emptied_setOperation h hold (List.subset_append_left _ _) rfl

/-- Nor does it bring an index back. -/
theorem legacyIndexes_withOperation : legacyIndexes (withOperation S db) = legacyIndexes db := by
  unfold legacyIndexes withOperation
  cases db.operation <;> rfl

/-- The last reload, made again, changes nothing. -/
theorem reloadOperation_again (db : Site) :
    reloadOperation S (withOperation S db) = .ok (withOperation S db) := by
  unfold reloadOperation withOperation
  rw [reloadDoc_again]

/-- Resumed among the indexes, the migration comes to the first that is left. -/
theorem Emptied.comesTo_writes {keys : List String} (h : Emptied S db)
    (hkeys : legacyIndexes db = keys) : (migrate S).ComesTo
      ((Program.write (reloadOperation S) .done).writes dropIndex keys) db := by
  have hread := h.comesTo.read
  rwa [hkeys] at hread

end Indexes

/-! ## Attempts go on where others were stopped -/

section Resume

/-- Wherever the last part stops, the migration goes on from there. -/
theorem resumed_dropIndexes : Resumed (migrate S) (Emptied S) (dropIndexes S) := by
  refine .read fun db hdb => ?_
  refine (Resumed.writes_ok (g := withoutIndex)
    (I := fun keys db => Emptied S db ∧ legacyIndexes db = keys)
    (fun keys db h => h.1.comesTo_writes h.2) ?_ ?_).conseq ?_
  · intro key rest db h
    exact ⟨emptied_withoutIndex h.1, legacyIndexes_tail h.2⟩
  · refine .write_ok (g := withOperation S) (R := fun db => (Emptied S db ∧ legacyIndexes db = []) ∧
      reloadOperation S db = .ok db) (fun db h => h.1.comesTo_writes h.2) ?_
      (.done fun db h => (h.1.1.comesTo_writes h.1.2).write h.2)
    intro db h
    exact ⟨⟨emptied_withOperation h.1, legacyIndexes_withOperation.trans h.2⟩,
      reloadOperation_again db⟩
  · rintro db' rfl
    exact ⟨hdb, rfl⟩

/-- Wherever the part of the references stops, the migration goes on from there. -/
theorem resumed_moveReferences : Resumed (migrate S) (Detached S) (moveReferences S) := by
  refine (Resumed.writes_ok (g := withReference)
    (I := fun rest db => Detached S db ∧ MovedUpTo rest db)
    (fun rest db h => h.1.comesTo_writes h.2) ?_ ?_).conseq ?_
  · intro r rest db h
    exact ⟨detached_withReference h.1, h.2.withReference⟩
  · refine .write_ok (g := withoutLegacyRows) (R := Emptied S)
      (fun db h => h.1.comesTo_writes h.2) ?_ resumed_dropIndexes
    intro db h
    exact emptied_withoutLegacyRows h.1.toInserted
  · exact fun db h => ⟨h, movedUpTo_references⟩

/-- Wherever the part of the credentials stops, the migration goes on from there. -/
theorem resumed_moveCredentials :
    Resumed (migrate S) (fun db => Inserted S db ∧ Keyed db) (moveCredentials S) := by
  refine .read fun db hdb => ?_
  have hcomes := hdb.1.comesTo.read
  by_cases hconflict : credentialConflicts db = true
  · rw [if_pos hconflict] at hcomes ⊢
    refine .raise ?_
    rintro db' rfl
    exact hcomes
  · rw [if_neg hconflict] at hcomes ⊢
    refine .write_ok (g := withCredentials) (R := Copied S) ?_ ?_
      (.write_ok (g := withoutLegacyCredentials) (R := Detached S) (fun db h => h.comesTo) ?_
        resumed_moveReferences)
    · rintro db' rfl
      exact hcomes
    · rintro db' rfl
      exact copied_withCredentials hdb.2 hdb.1 (Bool.eq_false_iff.mpr hconflict)
    · intro db' h
      exact detached_withoutLegacyCredentials h.toInserted

/-- Wherever the part of the legacy rows stops, the migration goes on from there. -/
theorem resumed_moveLegacy :
    Resumed (migrate S) (fun db => Reloaded S db ∧ Keyed db) (moveLegacy S) := by
  refine .read fun db hdb => ?_
  have hcomes := hdb.1.comesTo.read
  by_cases hcolumns : ["name", "operation_id", "payload_hash"].all (sharedColumns db).contains = true
  · rw [if_pos hcolumns] at hcomes ⊢
    refine .read fun db' hdb' => ?_
    subst hdb'
    have hchecked := hcomes.read
    by_cases hconflict : conflicts db' = true
    · rw [if_pos hconflict] at hchecked ⊢
      refine .raise ?_
      rintro db₁ rfl
      exact hchecked
    · rw [if_neg hconflict] at hchecked ⊢
      refine .write (R := fun db => Inserted S db ∧ Keyed db) ?_ ?_ resumed_moveCredentials
      · rintro db₁ rfl
        exact hchecked
      · rintro db₁ db₂ rfl hok
        -- the one statement that may raise
        rw [insertOperations_eq_ok hok]
        exact ⟨inserted_inserted hdb.2 hdb.1 hcolumns (Bool.eq_false_iff.mpr hconflict),
          hdb.2.operations, hdb.2.credentials⟩
  · rw [if_neg hcolumns] at hcomes ⊢
    refine .raise ?_
    rintro db' rfl
    exact hcomes

/-- Wherever the migration stops, it goes on from there. -/
theorem resumed_migrate (hkeyed : Keyed db) : Resumed (migrate S) (· = db) (migrate S) := by
  have hcomes := (Program.ComesTo.refl (migrate S) db).read
  refine .read fun db' hdb' => ?_
  subst hdb'
  by_cases hschema : legacySchema db' = true
  · rw [if_pos hschema] at hcomes ⊢
    refine .write_ok (g := withController S) (R := fun db => Reloaded S db ∧ Keyed db) ?_ ?_
      resumed_moveLegacy
    · rintro db₁ rfl
      exact hcomes
    · rintro db₁ rfl
      exact ⟨reloaded_withController hschema, hkeyed.operations, hkeyed.credentials⟩
  · rw [if_neg hschema] at hcomes ⊢
    refine .done ?_
    rintro db₁ rfl
    exact hcomes

/-- However often the migration is stopped and attempted again, the tables are as a single attempt
would have left them, and the next attempt ends as the first would have. -/
theorem migrate_resumed (hkeyed : Keyed db) (hattempts : (migrate S).Attempts db db') :
    (migrate S).run db' = (migrate S).run db ∧ db' ∈ (migrate S).stops db := by
  have hresumed : Resumed (migrate S) (· = db) (migrate S) := resumed_migrate hkeyed
  exact attempts_resumed hresumed hattempts

namespace Sample

def schemas : Schemas where
  controllerOperation := ["name", "operation_id", "payload_hash", "state"]
  operation := ["name", "description"]
  default := fun c => if c == "state" then some "draft" else none

/-- An operation of ERPNext, and one of the controller. -/
def operations : List Row :=
  [⟨"Welding", fun c => if c == "description" then some "seam" else none⟩,
    ⟨"op-1", fun c =>
      if c == "operation_id" then some "op-1"
      else if c == "payload_hash" then some "9f86" else none⟩]

/-- A comment on the controller's operation. -/
def comments : DataTable where
  columns := ["reference_doctype", "reference_name"]
  rows := [⟨"comment", fun c =>
    if c == "reference_doctype" then some "Operation"
    else if c == "reference_name" then some "op-1" else none⟩]
  indexes := []

def site : Site where
  operation := some ⟨["name", "operation_id", "payload_hash", "description"], operations,
    [⟨"operation_id", "operation_id", false⟩]⟩
  controllerOperation := none
  auth := [⟨"Operation", "op-1", "credential", "secret", true⟩]
  tables := fun d => if d == "Comment" then some comments else none

theorem keyed_site : Keyed site := ⟨by decide, by decide⟩

/-- What is left by an attempt stopped between the two statements on the credentials. -/
def stopped : Site := ((migrate schemas).stops site).getD 3 site

theorem stopped_mem : stopped ∈ (migrate schemas).stops site := by
  have hlength : 3 < ((migrate schemas).stops site).length := by decide +kernel
  unfold stopped
  rw [List.getD_eq_getElem?_getD, List.getElem?_eq_getElem hlength]
  exact List.getElem_mem hlength

end Sample

/-- An attempt that stopped after the copy of the rows, and one that runs through. -/
theorem migrate_resumed_sample :
    (migrate Sample.schemas).run Sample.stopped = (migrate Sample.schemas).run Sample.site ∧
      Sample.stopped ∈ (migrate Sample.schemas).stops Sample.site :=
  migrate_resumed Sample.keyed_site (Relation.ReflTransGen.single Sample.stopped_mem)

end Resume

end OperationNamespace
end FrappeController
