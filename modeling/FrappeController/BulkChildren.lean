import FrappeController.BulkLifecycle
import FrappeController.TargetKeys

/-!
# One child for each attempt at a bulk target

A pass reads a snapshot that other commits may have outdated, and writes rows it read there. The
links between operations and bulk targets are abstracted from the tables (`Links`), where a write
of a pass is one move; the moves keep the pairing of attempts and children, and every version of a
run of passes, lifecycle steps and other transactions has it (`one_child_per_attempt`).
-/

namespace FrappeController
namespace FrappeBulk

open FrappeInventory (Session)
open Lifecycle Bulk BulkOrchestrator BulkDocuments OperationDocuments
open Transaction (bind_eq_ok bind_apply_eq_ok query_eq_ok)

/-! ## Links -/

/-- An attempt at a target of a parent, and the child it is linked to. -/
structure Attempt where
  name : String
  parent : String
  key : String
  number : ℤ
  child : Option String

/-- The child the attempt is entitled to. -/
def Attempt.entitled (R : Runtime) (a : Attempt) : String :=
  (childIdentity R a.parent a.key a.number).1

/-- The operations with the bulk targets they belong to, and the attempts. -/
structure Links where
  operations : List (String × Option String)
  attempts : List Attempt

/-- The same attempt at the same target. -/
structure SameAttempt (a a' : Attempt) : Prop where
  name : a'.name = a.name
  parent : a'.parent = a.parent
  key : a'.key = a.key
  number : a'.number = a.number

/-- An attempt is the same as itself. -/
theorem SameAttempt.refl (a : Attempt) : SameAttempt a a := ⟨rfl, rfl, rfl, rfl⟩

/-- Sameness holds over two steps. -/
theorem SameAttempt.trans {a a' a'' : Attempt} (h : SameAttempt a a') (h' : SameAttempt a' a'') :
    SameAttempt a a'' :=
  ⟨h'.name.trans h.name, h'.parent.trans h.parent, h'.key.trans h.key, h'.number.trans h.number⟩

/-- The same attempt is entitled to the same child. -/
theorem SameAttempt.entitled {a a' : Attempt} (h : SameAttempt a a') (R : Runtime) :
    a'.entitled R = a.entitled R := by
  rw [Attempt.entitled, Attempt.entitled, h.parent, h.key, h.number]

/-- Attempts and children are paired: a child is the one its attempt is entitled to. -/
structure Paired (R : Runtime) (l : Links) : Prop where
  names : (l.attempts.map (·.name)).Nodup
  child : ∀ a ∈ l.attempts, ∀ child, a.child = some child →
    child = a.entitled R ∧ (child, orNone (some a.name)) ∈ l.operations
  attempt : ∀ child name, (child, some name) ∈ l.operations →
    ∃ a ∈ l.attempts, a.name = name ∧ a.child = orNone (some child)

/-- Nothing is forgotten: attempts and operations stay, and so does a link once it is made. -/
structure Later (l l' : Links) : Prop where
  operations : ∀ o ∈ l.operations, o ∈ l'.operations
  attempts : ∀ a ∈ l.attempts, ∃ a' ∈ l'.attempts, SameAttempt a a' ∧
    ∀ child, a.child = some child → a'.child = some child

namespace Later

variable {l l' l'' : Links}

/-- Nothing is forgotten between a version and itself. -/
theorem refl (l : Links) : Later l l :=
  ⟨fun _ ho => ho, fun a ha => ⟨a, ha, .refl a, fun _ hchild => hchild⟩⟩

/-- Nothing is forgotten over two steps. -/
theorem trans (h : Later l l') (h' : Later l' l'') : Later l l'' := by
  refine ⟨fun o ho => h'.operations o (h.operations o ho), fun a ha => ?_⟩
  obtain ⟨a', ha', hsame, hchild⟩ := h.attempts a ha
  obtain ⟨a'', ha'', hsame', hchild'⟩ := h'.attempts a' ha'
  exact ⟨a'', ha'', hsame.trans hsame', fun child h => hchild' child (hchild child h)⟩

end Later

/-- An operation is inserted and the row of an attempt is saved. -/
def Links.open (l : Links) (op : String × Option String) (saved : Attempt) : Links where
  operations := l.operations ++ [op]
  attempts := l.attempts.map fun a => if a.name = saved.name then saved else a

section Moves

variable {R : Runtime} {l : Links} {op : String × Option String} {a saved : Attempt}

/-- After the move the row of its name is the saved one, the others are as before. -/
theorem mem_open {a' : Attempt} : a' ∈ (l.open op saved).attempts ↔
    ∃ a ∈ l.attempts, (if a.name = saved.name then saved else a) = a' :=
  List.mem_map

/-- Saved over the row of its own attempt, an attempt keeps every name. -/
theorem names_open (op : String × Option String) (saved : Attempt) (l : Links) :
    (l.open op saved).attempts.map (·.name) = l.attempts.map (·.name) := by
  show (l.attempts.map fun a => if a.name = saved.name then saved else a).map (·.name) = _
  rw [List.map_map]
  refine List.map_congr_left fun a _ => ?_
  show (if a.name = saved.name then saved else a).name = a.name
  split
  · rename_i hname
    exact hname.symm
  · rfl

/-- Attempts are told apart by their names. -/
theorem eq_of_names (hnames : (l.attempts.map (·.name)).Nodup) {a b : Attempt}
    (ha : a ∈ l.attempts) (hb : b ∈ l.attempts) (h : a.name = b.name) : a = b :=
  List.inj_on_of_nodup_map hnames ha hb h

/-- A row is saved over its own attempt, and keeps its link. -/
theorem later_open (hnames : (l.attempts.map (·.name)).Nodup) (ha : a ∈ l.attempts)
    (hsame : SameAttempt a saved)
    (hchild : ∀ child, a.child = some child → saved.child = some child) :
    Later l (l.open op saved) := by
  refine ⟨fun o ho => List.mem_append_left _ ho, fun b hb => ?_⟩
  by_cases hname : b.name = saved.name
  · have hba : b = a := eq_of_names hnames hb ha (hname.trans hsame.name)
    refine ⟨saved, mem_open.mpr ⟨b, hb, if_pos hname⟩, hba ▸ hsame, fun child h => ?_⟩
    exact hchild child (hba ▸ h)
  · exact ⟨b, mem_open.mpr ⟨b, hb, if_neg hname⟩, .refl b, fun _ h => h⟩

/-- The same move in a snapshot and in the versions that continue it. -/
theorem later_open_both {v : Links} (h : Later v l) (ha : a ∈ l.attempts)
    (hname : saved.name = a.name) : Later (v.open op saved) (l.open op saved) := by
  refine ⟨fun o ho => ?_, fun b' hb' => ?_⟩
  · rcases List.mem_append.mp ho with hold | hnew
    · exact List.mem_append_left _ (h.operations o hold)
    · exact List.mem_append_right _ hnew
  · obtain ⟨b, hb, rfl⟩ := mem_open.mp hb'
    by_cases hsaved : b.name = saved.name
    · rw [if_pos hsaved]
      exact ⟨saved, mem_open.mpr ⟨a, ha, if_pos hname.symm⟩, .refl saved, fun _ hchild => hchild⟩
    · rw [if_neg hsaved]
      obtain ⟨b₂, hb₂, hsame, hchild⟩ := h.attempts b hb
      have hother : ¬ b₂.name = saved.name := fun heq => hsaved (hsame.name.symm.trans heq)
      exact ⟨b₂, mem_open.mpr ⟨b₂, hb₂, if_neg hother⟩, hsame, hchild⟩

/-- An operation of no attempt is inserted, and a row is saved with the link it has. -/
theorem paired_open_free (hpaired : Paired R l) (ha : a ∈ l.attempts)
    (hsame : SameAttempt a saved) (hop : op.2 = none) (hchild : saved.child = a.child) :
    Paired R (l.open op saved) where
  names := (names_open op saved l).symm ▸ hpaired.names
  child := by
    intro b' hb' child hb'child
    obtain ⟨b, hb, rfl⟩ := mem_open.mp hb'
    by_cases hname : b.name = saved.name
    · rw [if_pos hname] at hb'child ⊢
      obtain ⟨hentitled, hmem⟩ := hpaired.child a ha child (hchild ▸ hb'child)
      rw [hsame.entitled, hsame.name]
      exact ⟨hentitled, List.mem_append_left _ hmem⟩
    · rw [if_neg hname] at hb'child ⊢
      obtain ⟨hentitled, hmem⟩ := hpaired.child b hb child hb'child
      exact ⟨hentitled, List.mem_append_left _ hmem⟩
  attempt := by
    intro child name hmem
    rcases List.mem_append.mp hmem with hold | hnew
    · obtain ⟨b, hb, hname, hbchild⟩ := hpaired.attempt child name hold
      by_cases hsaved : b.name = saved.name
      · have hba : b = a := eq_of_names hpaired.names hb ha (hsaved.trans hsame.name)
        refine ⟨saved, mem_open.mpr ⟨b, hb, if_pos hsaved⟩, hsaved ▸ hname, ?_⟩
        rw [hchild, ← hba, hbchild]
      · exact ⟨b, mem_open.mpr ⟨b, hb, if_neg hsaved⟩, hname, hbchild⟩
    · have hpair : op.2 = some name := congrArg Prod.snd (List.mem_singleton.mp hnew).symm
      rw [hop] at hpair
      cases hpair

/-- The child an unlinked attempt is entitled to is inserted, and the attempt is linked to it. -/
theorem paired_open_child (hpaired : Paired R l) (ha : a ∈ l.attempts)
    (hsame : SameAttempt a saved) (hnone : a.child = none)
    (hnamed : ∀ o ∈ l.operations, o.2 ≠ some "")
    (hfree : op.2 ≠ none → ∀ o ∈ l.operations, o.2 ≠ op.2)
    (hop : op = (a.entitled R, orNone (some a.name)))
    (hchild : saved.child = orNone (some op.1)) :
    Paired R (l.open op saved) where
  names := (names_open op saved l).symm ▸ hpaired.names
  child := by
    intro b' hb' child hb'child
    obtain ⟨b, hb, rfl⟩ := mem_open.mp hb'
    -- the saved attempt has the new operation as its child, the others have theirs
    by_cases hname : b.name = saved.name
    · rw [if_pos hname] at hb'child ⊢
      rw [hchild] at hb'child
      have hchild' : child = op.1 :=
        (Option.some.inj (orNone_eq_some.mp hb'child).1).symm
      rw [hsame.entitled, hsame.name, hchild', hop]
      exact ⟨rfl, List.mem_append_right _ (List.mem_singleton_self _)⟩
    · rw [if_neg hname] at hb'child ⊢
      obtain ⟨hentitled, hmem⟩ := hpaired.child b hb child hb'child
      exact ⟨hentitled, List.mem_append_left _ hmem⟩
  attempt := by
    intro child name hmem
    rcases List.mem_append.mp hmem with hold | hnew
    · obtain ⟨b, hb, hname, hbchild⟩ := hpaired.attempt child name hold
      by_cases hsaved : b.name = saved.name
      · -- the saved attempt had no operation: the column is unique
        have hba : b = a := eq_of_names hpaired.names hb ha (hsaved.trans hsame.name)
        subst hba
        have hnonempty : name ≠ "" := fun hempty => hnamed _ hold (congrArg some hempty)
        have hopname : op.2 = some name := by
          rw [hop, hname]
          exact orNone_eq_some.mpr ⟨rfl, hnonempty⟩
        exact absurd hopname.symm (hfree (by rw [hopname]; simp) _ hold)
      · exact ⟨b, mem_open.mpr ⟨b, hb, if_neg hsaved⟩, hname, hbchild⟩
    -- the new operation belongs to the saved attempt
    · have hpair : (child, some name) = op := List.mem_singleton.mp hnew
      have hchild' : child = op.1 := congrArg Prod.fst hpair
      have hname : orNone (some a.name) = some name := by
        have hsnd : op.2 = some name := congrArg Prod.snd hpair.symm
        rwa [hop] at hsnd
      refine ⟨saved, mem_open.mpr ⟨a, ha, if_pos hsame.name.symm⟩, ?_, ?_⟩
      · rw [hsame.name]
        exact Option.some.inj (orNone_eq_some.mp hname).1
      · rw [hchild, hchild']

end Moves

/-! ## The links of the tables -/

def operationLink (op : ControllerOperation) : String × Option String :=
  (op.name, orNone op.bulkTarget)

def attemptOf (t : BulkOperationTarget) : Attempt where
  name := t.name
  parent := t.bulkOperation
  key := t.targetKey
  number := t.attempt
  child := orNone t.childOperation

def linksOf (db : Database) : Links where
  operations := db.operations.map operationLink
  attempts := db.bulkTargets.map attemptOf

section Tables

variable {R : Runtime} {db db' : Database}

/-- No operation is linked to an empty name. -/
theorem linksOf_named : ∀ o ∈ (linksOf db).operations, o.2 ≠ some "" := by
  intro o ho
  obtain ⟨op, -, rfl⟩ := List.mem_map.mp ho
  exact fun hempty => (orNone_eq_some.mp hempty).2 rfl

/-- The links are read from these columns only. -/
theorem linksOf_eq (hoperations : db'.operations.map operationLink
      = db.operations.map operationLink)
    (hattempts : db'.bulkTargets.map attemptOf = db.bulkTargets.map attemptOf) :
    linksOf db' = linksOf db := by
  rw [linksOf, linksOf, hoperations, hattempts]

/-- An operation with its target is inserted, and a bulk target is saved: one move. -/
theorem linksOf_open (op : ControllerOperation) (t : OperationTarget)
    (saved : BulkOperationTarget) (db : Database) :
    linksOf (saveRow saved (addTarget t (addOperation op db)))
      = (linksOf db).open (operationLink op) (attemptOf saved) := by
  have hoperations : (db.operations ++ [op]).map operationLink
      = db.operations.map operationLink ++ [operationLink op] :=
    List.map_append
  have hattempts : (Table.setValue saved.name (fun _ => saved) db.bulkTargets).map attemptOf
      = (db.bulkTargets.map attemptOf).map fun a =>
        if a.name = saved.name then attemptOf saved else a := by
    rw [Table.setValue, Table.update, List.map_map, List.map_map]
    refine List.map_congr_left fun t' _ => ?_
    show attemptOf (if t'.name = saved.name then saved else t')
      = if t'.name = saved.name then attemptOf saved else attemptOf t'
    split <;> rfl
  show Links.mk _ _ = Links.mk _ _
  rw [Links.mk.injEq]
  exact ⟨hoperations, hattempts⟩

/-- The state of a bulk target is no link. -/
theorem linksOf_setTargetState (name : String) (state : BulkTargetState) (db : Database) :
    linksOf (setTargetState name state db) = linksOf db := by
  have hkept : ∀ t : BulkOperationTarget, attemptOf { t with state } = attemptOf t := fun _ => rfl
  exact linksOf_eq rfl (Table.map_update _ _ hkept _)

/-- The functions of a write keep the links of the rows they write. -/
structure KeepsLinks (f : ControllerOperation → ControllerOperation)
    (h : BulkOperationTarget → BulkOperationTarget) : Prop where
  operation : ∀ op, operationLink (f op) = operationLink op
  bulkTarget : ∀ t, attemptOf (h t) = attemptOf t

/-- Moving an operation on changes no link. -/
theorem linksOf_advance {name : String} {bulkTarget : Option String}
    {f : ControllerOperation → ControllerOperation} {g : OperationTarget → OperationTarget}
    {h : BulkOperationTarget → BulkOperationTarget} (hkeeps : KeepsLinks f h) (db : Database) :
    linksOf (db.advance name bulkTarget f g h) = linksOf db := by
  cases bulkTarget with
  | none => exact linksOf_eq (Table.map_update _ _ hkeeps.operation _) rfl
  | some bulkTarget =>
    exact linksOf_eq (Table.map_update _ _ hkeeps.operation _)
      (Table.map_update _ _ hkeeps.bulkTarget _)

/-- A dispatch changes no link. -/
theorem linksOf_queued (name : String) (text : Text) (digest : String) (db : Database) :
    linksOf (queued name text digest db) = linksOf db :=
  linksOf_advance (f := Dispatcher.queue text digest) (h := id) ⟨fun _ => rfl, fun _ => rfl⟩ db

end Tables

/-! ## The writes of a pass -/

/-- The transaction reads a version that the committed rows continue. -/
structure Sees (R : Runtime) (s : Session) : Prop where
  paired : Paired R (linksOf s.current)
  names : ((linksOf s.view).attempts.map (·.name)).Nodup
  later : Later (linksOf s.view) (linksOf s.current)

/-- A write keeps that, and forgets nothing. -/
structure Keeps (R : Runtime) (s s' : Session) : Prop where
  sees : Sees R s'
  later : Later (linksOf s.current) (linksOf s'.current)

namespace Keeps

variable {R : Runtime} {s s' s'' : Session}

/-- What is seen is kept without a write. -/
theorem refl (h : Sees R s) : Keeps R s s := ⟨h, .refl _⟩

/-- What is seen is kept over two writes. -/
theorem trans (h : Keeps R s s') (h' : Keeps R s' s'') : Keeps R s s'' :=
  ⟨h'.sees, h.later.trans h'.later⟩

/-- A write that changes no link. -/
theorem same {f : Database → Database} (h : Sees R s) (hf : ∀ db, linksOf (f db) = linksOf db) :
    Keeps R s (s.both f) := by
  have hcurrent : linksOf (s.both f).current = linksOf s.current := hf s.current
  have hview : linksOf (s.both f).view = linksOf s.view := hf s.view
  refine ⟨⟨hcurrent ▸ h.paired, hview ▸ h.names, ?_⟩, ?_⟩
  · rw [hcurrent, hview]
    exact h.later
  · rw [hcurrent]
    exact .refl _

end Keeps

section Writes

variable {R : Runtime} {E : Environment} {s s' : Session} {u : Unit}
variable {parentId childId key : String} {target : BulkTargetRuntime}

/-- Queueing a child changes no link. -/
theorem keeps_enqueue {lifetime : ℕ} {name : String} {now : DateTime} {env : List (String × Json)}
    (h : Sees R s) (henqueue : enqueueApprovedOperation R lifetime name now s = .ok env s') :
    Keeps R s s' := by
  obtain ⟨-, op, digest, -, -, ⟨-, -, rfl⟩ | ⟨text, -, -, rfl⟩⟩ :=
    enqueueApprovedOperation_eq_ok henqueue
  · exact .refl h
  · exact .same h (linksOf_queued name text digest)

/-- What a save of a bulk target checks of the links of the row it replaces. -/
theorem validateTarget_links {t previous : BulkOperationTarget} {db : Database}
    (h : BulkDocuments.validateTarget R t (some previous) db = .ok u) :
    truthy previous.childOperation = true → previous.childOperation = t.childOperation := by
  obtain ⟨⟨⟩, -, h⟩ := bind_eq_ok.mp h
  obtain ⟨parent, -, h⟩ := bind_eq_ok.mp h
  obtain ⟨⟨⟩, -, h⟩ := bind_eq_ok.mp h
  obtain ⟨⟨⟩, -, h⟩ := bind_eq_ok.mp h
  obtain ⟨⟨⟩, -, h⟩ := bind_eq_ok.mp h
  obtain ⟨⟨⟩, -, h⟩ := bind_eq_ok.mp h
  obtain ⟨⟨⟩, -, h⟩ := bind_eq_ok.mp h
  obtain ⟨⟨⟩, -, h⟩ := bind_eq_ok.mp h
  obtain ⟨⟨⟩, -, h⟩ := bind_eq_ok.mp h
  obtain ⟨⟨⟩, -, h⟩ := bind_eq_ok.mp h
  obtain ⟨⟨⟩, hlinks, -⟩ := bind_eq_ok.mp h
  obtain ⟨⟨⟩, hchild, -⟩ := bind_eq_ok.mp hlinks
  have hcond := ensure_eq_ok.mp hchild
  intro htruthy
  simpa [htruthy] using hcond

/-- The committed row a save replaces: the same attempt, linked at least as far as the document
that was read. -/
structure Replaces (s : Session) (document saved previous : BulkOperationTarget) : Prop where
  stored : attemptOf previous ∈ (linksOf s.current).attempts
  same : SameAttempt (attemptOf previous) (attemptOf saved)
  linked : ∀ child, orNone document.childOperation = some child →
    orNone previous.childOperation = some child
  kept : truthy previous.childOperation = true → previous.childOperation = saved.childOperation

/-- The row a save replaces is the attempt the pass read, which may have been linked since. -/
theorem replaces (hsees : Sees R s) {op : ControllerOperation} {t : OperationTarget}
    {name : String} {document saved : BulkOperationTarget}
    (hopens : Opens R s op t name document saved)
    (hsame : SameAttempt (attemptOf document) (attemptOf saved)) :
    ∃ previous, Replaces s document saved previous := by
  obtain ⟨previous, hprevious, hvalid⟩ := hopens.stored
  have hdocument : attemptOf document ∈ (linksOf s.view).attempts :=
    List.mem_map_of_mem (Table.get?_mem hopens.read)
  have hstored : attemptOf previous ∈ (linksOf s.current).attempts :=
    List.mem_map_of_mem (Table.get?_mem hprevious)
  obtain ⟨a, ha, hlater, hchild⟩ := hsees.later.attempts _ hdocument
  have hname : (attemptOf previous).name = a.name := by
    rw [hlater.name, ← hsame.name]
    exact Table.get?_name hprevious
  have hrow : attemptOf previous = a := eq_of_names hsees.paired.names hstored ha hname
  refine ⟨previous, hstored, ?_, fun child h => ?_, validateTarget_links hvalid⟩
  · rw [hrow]
    exact ⟨hsame.name.trans hlater.name.symm, hsame.parent.trans hlater.parent.symm,
      hsame.key.trans hlater.key.symm, hsame.number.trans hlater.number.symm⟩
  · have hlinked := hchild child h
    rwa [← hrow] at hlinked

/-- A move of both databases, where the committed rows allow it. -/
theorem keeps_open (hsees : Sees R s) {op : ControllerOperation} (t : OperationTarget)
    {saved previous : BulkOperationTarget} {document : BulkOperationTarget}
    (hreplaces : Replaces s document saved previous)
    (hpaired : Paired R ((linksOf s.current).open (operationLink op) (attemptOf saved)))
    (hchild : ∀ child, orNone previous.childOperation = some child →
      orNone saved.childOperation = some child) :
    Keeps R s (s.both (saveRow saved ∘ addTarget t ∘ addOperation op)) := by
  have hcurrent : linksOf (s.both (saveRow saved ∘ addTarget t ∘ addOperation op)).current
      = (linksOf s.current).open (operationLink op) (attemptOf saved) := linksOf_open op t saved _
  have hview : linksOf (s.both (saveRow saved ∘ addTarget t ∘ addOperation op)).view
      = (linksOf s.view).open (operationLink op) (attemptOf saved) := linksOf_open op t saved _
  refine ⟨⟨hcurrent ▸ hpaired, ?_, ?_⟩, ?_⟩
  · rw [hview, names_open]
    exact hsees.names
  · rw [hcurrent, hview]
    exact later_open_both hsees.later hreplaces.stored hreplaces.same.name
  · rw [hcurrent]
    exact later_open hsees.paired.names hreplaces.stored hreplaces.same hchild

/-- The creation of a child links it to its attempt, in the snapshot and in the committed rows. -/
theorem keeps_createChild (hsees : Sees R s)
    (hidentity : childId = (childIdentity R parentId target.snapshot.targetKey target.attempt).1)
    (h : createChild R E parentId target childId key s = .ok u s') : Keeps R s s' := by
  obtain ⟨parent, row, heligible, ⟨-, -, env, hagain⟩ | ⟨-, hstart⟩⟩ := createChild_eq_ok h
  · exact keeps_enqueue hsees hagain
  · obtain ⟨document, s₁, env, hopens, henqueue, rfl⟩ := startChild_eq_ok hstart
    obtain ⟨hrow, hparent, hkey, hnumber⟩ := targetRow_eq_ok heligible.found
    -- the document is the row that was found, under its name
    have hdocument : attemptOf document = attemptOf row :=
      eq_of_names hsees.names (List.mem_map_of_mem (Table.get?_mem hopens.read))
        (List.mem_map_of_mem hrow) (Table.get?_name hopens.read)
    obtain ⟨previous, hreplaces⟩ := replaces hsees hopens ⟨rfl, rfl, rfl, rfl⟩
    have hentitled : (attemptOf previous).entitled R = childId := by
      rw [hidentity, ← hreplaces.same.entitled]
      show (attemptOf document).entitled R = _
      rw [hdocument, Attempt.entitled]
      show (childIdentity R row.bulkOperation row.targetKey row.attempt).1 = _
      rw [hparent, hkey, hnumber]
    -- its child would be the operation that is inserted, whose name is new
    have hnone : orNone previous.childOperation = none := by
      cases hchild : orNone previous.childOperation with
      | none => rfl
      | some child =>
        have hlinked := hsees.paired.child _ hreplaces.stored child hchild
        obtain ⟨old, hold, hname⟩ := List.mem_map.mp hlinked.2
        have hsame : old.name = child := congrArg Prod.fst hname
        exact absurd (hsame.trans (hlinked.1.trans hentitled)) (ne_of_freeColumns hopens.free hold).1
    have hname : document.name = row.name := congrArg Attempt.name hdocument
    have hpaired : Paired R ((linksOf s.current).open
        (operationLink (childDocument E parent row childId key s.view))
        (attemptOf { document with childOperation := some childId })) := by
      refine paired_open_child hsees.paired hreplaces.stored hreplaces.same hnone linksOf_named
        (fun hbulk o ho => ?_) (Prod.ext hentitled.symm ?_) rfl
      · obtain ⟨old, hold, rfl⟩ := List.mem_map.mp ho
        intro heq
        obtain ⟨name, hbulk'⟩ := Option.ne_none_iff_exists'.mp hbulk
        have hrowName : orNone (some row.name) = some name := hbulk'
        have hnew := truthy_of_orNone hrowName
        apply (ne_of_freeColumns hopens.free hold).2.2 hnew.1
        show old.bulkTarget = some row.name
        rw [hnew.2]
        exact (truthy_of_orNone (heq.trans hbulk')).2
      · show orNone (some row.name) = orNone (some previous.name)
        rw [← hname]
        exact congrArg (fun name => orNone (some name)) hreplaces.same.name
    have hopen := keeps_open hsees (childTarget R E parent row target childId s.view) hreplaces
      hpaired fun child hchild => by
        rw [hnone] at hchild
        cases hchild
    have hdispatched := keeps_enqueue hopen.sees henqueue
    exact (hopen.trans hdispatched).trans
      (.same hdispatched.sees (linksOf_setTargetState row.name _))

/-- A cancellation is an operation of no attempt, and keeps every link. -/
theorem keeps_requestChildCancel (hsees : Sees R s)
    (h : requestChildCancel R E parentId target s = .ok u s') : Keeps R s s' := by
  obtain ⟨user, row, child, hcancellable, ⟨-, -, rfl⟩ | ⟨-, hstart⟩⟩ := requestChildCancel_eq_ok h
  · exact .refl hsees
  · obtain ⟨document, revision, env, hopens, henqueue⟩ := startCancel_eq_ok hstart
    obtain ⟨previous, hreplaces⟩ := replaces hsees hopens ⟨rfl, rfl, rfl, rfl⟩
    -- a link made since the snapshot would make the save raise
    have hchild : orNone document.childOperation = orNone previous.childOperation := by
      cases hprevious : orNone previous.childOperation with
      | some child =>
        have hkept := hreplaces.kept (truthy_of_orNone hprevious).1
        exact (congrArg orNone hkept).symm.trans hprevious
      | none =>
        cases hdocument : orNone document.childOperation with
        | none => rfl
        | some child =>
          have hlinked := hreplaces.linked child hdocument
          rw [hprevious] at hlinked
          cases hlinked
    have hpaired : Paired R ((linksOf s.current).open
        (operationLink (cancelDocument R E user row child (cancellationId R parentId child)))
        (attemptOf { document with
          cancellationOperation := some (cancellationId R parentId child) })) :=
      paired_open_free hsees.paired hreplaces.stored hreplaces.same rfl hchild
    have hopen := keeps_open hsees
      (cancelTargetDocument R E row target child (cancellationId R parentId child) revision)
      hreplaces hpaired fun child' hprevious => hchild.trans hprevious
    exact hopen.trans (keeps_enqueue hopen.sees henqueue)

/-- Every write of a pass keeps the links. -/
theorem keeps_write (hsees : Sees R s)
    (h : BulkOrchestrator.Write (repository R E) R parentId s s') : Keeps R s s' := by
  cases h with
  | create h => exact keeps_createChild hsees rfl h
  | cancel h => exact keeps_requestChildCancel hsees h
  | mark h =>
    obtain ⟨row, -, -, -, rfl⟩ := markUnstartedCancelled_eq_ok h
    exact .same hsees (linksOf_setTargetState row.name _)

/-- The writes of a pass keep the links, one after the other. -/
theorem keeps_writes (hsees : Sees R s)
    (h : BulkOrchestrator.Writes (repository R E) R parentId s s') : Keeps R s s' := by
  induction h with
  | refl => exact .refl hsees
  | tail _ hlast ih => exact ih.trans (keeps_write ih.sees hlast)

/-- The run on a parent keeps the links. -/
theorem keeps_reconcileParent (hsees : Sees R s)
    (h : reconcileParent R E parentId s = .ok u s') : Keeps R s s' := by
  unfold reconcileParent at h
  split at h
  · rename_i state s₁ hreconcile
    cases h
    obtain ⟨parent, targets, -, hadvance⟩ := reconcile_eq_ok hreconcile
    obtain ⟨-, -, rfl⟩ | ⟨-, exhausted, s₂, hwrites, hrecorded⟩ := advance_eq_ok hadvance
    · exact .refl hsees
    · have hbefore := keeps_writes hsees hwrites
      obtain ⟨targets', -, -, hupdate⟩ := hrecorded.recorded
      obtain ⟨row, previous, -, -, -, rfl⟩ := updateParent_eq_ok hupdate
      exact hbefore.trans (.same hbefore.sees fun _ => rfl)
  · split at h
    · rw [FrappeInventory.write_eq_ok] at h
      rw [h]
      exact .same (f := fun db => db.setBulkOperation parentId (intervene (E.clock parentId))) hsees
        fun _ => rfl
    · cases h

/-- The runs of a pass keep the links. -/
theorem keeps_forEach {names : List String} (hsees : Sees R s)
    (h : Transaction.forEach (reconcileParent R E) names s = .ok u s') : Keeps R s s' := by
  induction names generalizing s with
  | nil =>
    cases h
    exact .refl hsees
  | cons name rest ih =>
    obtain ⟨⟨⟩, s₁, hfirst, hrest⟩ := bind_apply_eq_ok.mp h
    have hbefore := keeps_reconcileParent hsees hfirst
    exact hbefore.trans (ih hbefore.sees hrest)

/-- A pass that reads an older version keeps the pairing and forgets nothing. -/
theorem pass_keeps {view db : Database} (hsees : Sees R ⟨view, db⟩) :
    Paired R (linksOf (pass R E view db).2) ∧
      Later (linksOf db) (linksOf (pass R E view db).2) := by
  unfold pass
  split
  · rename_i session hpass
    obtain ⟨names, s₁, hread, hloop⟩ := bind_apply_eq_ok.mp hpass
    obtain ⟨-, rfl⟩ := FrappeInventory.read_eq_ok.mp hread
    have hkeeps := keeps_forEach hsees hloop
    exact ⟨hkeeps.sees.paired, hkeeps.later⟩
  · exact ⟨hsees.paired, .refl _⟩

end Writes

/-! ## Runs -/

/-- Any other transaction: it authors operations of no bulk target and plans attempts without a
child, and forgets nothing. -/
structure Elsewhere (l l' : Links) : Prop where
  names : (l'.attempts.map (·.name)).Nodup
  kept : ∀ a ∈ l.attempts, a ∈ l'.attempts
  keptOperations : ∀ o ∈ l.operations, o ∈ l'.operations
  planned : ∀ a ∈ l'.attempts, a ∈ l.attempts ∨ a.child = none
  authored : ∀ o ∈ l'.operations, o ∈ l.operations ∨ o.2 = none

inductive ChildLabel where
  | pass (view : Database)
  | step (l : Label)
  | other

/-- One commit: a pass that began at any version, a step of the lifecycle, or another
transaction. -/
inductive ChildStep (R : Runtime) (E : Environment) (clockSkew : ℕ) :
    List Database → ChildLabel → List Database → Prop
  | pass {view db : Database} {older : List Database} (hview : view ∈ db :: older) :
      ChildStep R E clockSkew (db :: older) (.pass view) ((pass R E view db).2 :: db :: older)
  | step {db db' : Database} {older : List Database} {l : Label} (hl : l ≠ .other)
      (h : Step R E.lifetime clockSkew (db :: older) l (db' :: db :: older)) :
      ChildStep R E clockSkew (db :: older) (.step l) (db' :: db :: older)
  | other {db db' : Database} {older : List Database}
      (h : Elsewhere (linksOf db) (linksOf db')) :
      ChildStep R E clockSkew (db :: older) .other (db' :: db :: older)

/-- At most one operation belongs to a bulk target, and it is the one the attempt is entitled to
and linked to. -/
structure OneChild (R : Runtime) (db : Database) : Prop where
  one : ∀ op ∈ db.operations, ∀ op' ∈ db.operations, ∀ bulkTarget,
    orNone op.bulkTarget = some bulkTarget → orNone op'.bulkTarget = some bulkTarget →
      op.name = op'.name
  linked : ∀ op ∈ db.operations, ∀ bulkTarget, orNone op.bulkTarget = some bulkTarget →
    ∃ t ∈ db.bulkTargets, t.name = bulkTarget ∧ orNone t.childOperation = orNone (some op.name)
  entitled : ∀ t ∈ db.bulkTargets, ∀ child, orNone t.childOperation = some child →
    child = (childIdentity R t.bulkOperation t.targetKey t.attempt).1 ∧
      ∃ op ∈ db.operations, op.name = child ∧ orNone op.bulkTarget = orNone (some t.name)

section Runs

variable {R : Runtime} {E : Environment} {clockSkew : ℕ} {db db' : Database}

/-- An operation of a bulk target is among the links. -/
theorem mem_operationLinks {op : ControllerOperation} {bulkTarget : String}
    (hop : op ∈ db.operations) (hbulk : orNone op.bulkTarget = some bulkTarget) :
    (op.name, some bulkTarget) ∈ (linksOf db).operations :=
  List.mem_map.mpr ⟨op, hop, Prod.ext rfl hbulk⟩

/-- The pairing, read off the tables. -/
theorem Paired.oneChild (h : Paired R (linksOf db)) : OneChild R db where
  one := by
    intro op hop op' hop' bulkTarget hbulk hbulk'
    obtain ⟨a, ha, hname, hchild⟩ := h.attempt _ _ (mem_operationLinks hop hbulk)
    obtain ⟨a', ha', hname', hchild'⟩ := h.attempt _ _ (mem_operationLinks hop' hbulk')
    have hsame : a = a' := eq_of_names h.names ha ha' (hname.trans hname'.symm)
    rw [hsame] at hchild
    exact eq_of_orNone_some (hchild.symm.trans hchild')
  linked := by
    intro op hop bulkTarget hbulk
    obtain ⟨a, ha, hname, hchild⟩ := h.attempt _ _ (mem_operationLinks hop hbulk)
    obtain ⟨t, ht, rfl⟩ := List.mem_map.mp ha
    exact ⟨t, ht, hname, hchild⟩
  entitled := by
    intro t ht child hchild
    obtain ⟨hentitled, hmem⟩ := h.child (attemptOf t) (List.mem_map_of_mem ht) child hchild
    obtain ⟨op, hop, hlink⟩ := List.mem_map.mp hmem
    exact ⟨hentitled, op, hop, congrArg Prod.fst hlink, congrArg Prod.snd hlink⟩

/-- Any other transaction keeps the pairing. -/
theorem Elsewhere.paired {l l' : Links} (h : Elsewhere l l') (hpaired : Paired R l) :
    Paired R l' where
  names := h.names
  child := by
    intro a ha child hchild
    rcases h.planned a ha with hold | hnone
    · obtain ⟨hentitled, hmem⟩ := hpaired.child a hold child hchild
      exact ⟨hentitled, h.keptOperations _ hmem⟩
    · rw [hnone] at hchild
      cases hchild
  attempt := by
    intro child name hmem
    rcases h.authored _ hmem with hold | hnone
    · obtain ⟨a, ha, hname, hchild⟩ := hpaired.attempt child name hold
      exact ⟨a, h.kept a ha, hname, hchild⟩
    · cases hnone

/-- Any other transaction forgets nothing. -/
theorem Elsewhere.later {l l' : Links} (h : Elsewhere l l') : Later l l' :=
  ⟨h.keptOperations, fun a ha => ⟨a, h.kept a ha, .refl a, fun _ hchild => hchild⟩⟩

/-- Leases, dispatches, events and results leave every link as it is. -/
theorem linksOf_writes {lifetime : ℕ} {history : List Database} {l : Label}
    (h : Lifecycle.Writes R lifetime clockSkew history l db db') : linksOf db' = linksOf db := by
  induction h with
  | refl => rfl
  | step _ hwrite ih =>
    rw [← ih]
    cases hwrite <;> refine linksOf_advance ?_ _ <;> exact ⟨fun _ => rfl, fun _ => rfl⟩

/-- Events change no link. -/
theorem linksOf_eventsOnly (h : EventsOnly db db') : linksOf db' = linksOf db := by
  have hlink : ∀ op, operationLink (FrappeRepository.moveCursor 0 op) = operationLink op :=
    fun _ => rfl
  have hoperations := congrArg (List.map operationLink) h.operations
  simp only [List.map_map, Function.comp_def, hlink] at hoperations
  exact linksOf_eq hoperations (congrArg _ h.bulkTargets)

/-- Every version is paired, and continues every older one. -/
structure Continued (R : Runtime) (versions : List Database) : Prop where
  paired : ∀ db ∈ versions, Paired R (linksOf db)
  later : versions.Pairwise fun newer older => Later (linksOf older) (linksOf newer)

/-- One more version that continues the newest continues them all. -/
theorem Continued.cons {older : List Database} (h : Continued R (db :: older))
    (hpaired : Paired R (linksOf db')) (hlater : Later (linksOf db) (linksOf db')) :
    Continued R (db' :: db :: older) := by
  refine ⟨List.forall_mem_cons.mpr ⟨hpaired, h.paired⟩, ?_⟩
  refine List.pairwise_cons.mpr ⟨fun v hv => ?_, h.later⟩
  rcases List.mem_cons.mp hv with rfl | hv
  · exact hlater
  · exact ((List.pairwise_cons.mp h.later).1 v hv).trans hlater

/-- One commit keeps every version paired. -/
theorem continued_step {versions versions' : List Database} {label : ChildLabel}
    (h : Continued R versions) (hstep : ChildStep R E clockSkew versions label versions') :
    Continued R versions' := by
  cases hstep with
  | @pass view db older hview =>
    have hdb := h.paired db List.mem_cons_self
    -- the snapshot is the newest version, or one that it continues
    have hlater : Later (linksOf view) (linksOf db) := by
      rcases List.mem_cons.mp hview with rfl | hold
      · exact .refl _
      · exact (List.pairwise_cons.mp h.later).1 view hold
    have hkeeps := pass_keeps (E := E) ⟨hdb, (h.paired view hview).names, hlater⟩
    exact h.cons hkeeps.1 hkeeps.2
  | @step db db' older l hl hstep =>
    have hdb := h.paired db List.mem_cons_self
    have hsame : linksOf db' = linksOf db := by
      rcases step_effect hstep with hwrites | hevents | ⟨hother, -⟩
      · exact linksOf_writes hwrites
      · exact linksOf_eventsOnly hevents
      · exact absurd hother hl
    refine h.cons ?_ ?_
    · rw [hsame]
      exact hdb
    · rw [hsame]
      exact .refl _
  | @other db db' older hother =>
    exact h.cons (hother.paired (h.paired db List.mem_cons_self)) hother.later

/-- In every run of scheduler passes, whatever version each of them reads and wherever it is rolled
back, and of all other transactions, each attempt at a bulk target has at most one child, which
never changes. -/
theorem one_child_per_attempt {start : Database} {labels : List ChildLabel}
    {versions : List Database} (hstart : Paired R (linksOf start))
    (hrun : Run (ChildStep R E clockSkew) [start] labels versions) :
    (∀ db ∈ versions, OneChild R db) ∧
      versions.Pairwise fun newer older => Later (linksOf older) (linksOf newer) := by
  have hcontinued : Continued R versions := by
    refine hrun.invariant (I := Continued R) (fun s l t hs hstep => continued_step hs hstep) ?_
    exact ⟨fun db hdb => List.mem_singleton.mp hdb ▸ hstart, List.pairwise_singleton _ _⟩
  exact ⟨fun db hdb => (hcontinued.paired db hdb).oneChild, hcontinued.later⟩

open FrappeBulk.Sample in
/-- A pass starts the child of the sample's target; another that still reads the version before
it starts no second one. -/
theorem one_child_per_attempt_sample :
    (∃ op ∈ (pass runtime environment database database).2.operations,
      op.state = .queued ∧ op.name = childId) ∧
    OneChild runtime (pass runtime environment database
      (pass runtime environment database database).2).2 := by
  have hpaired : Paired runtime (linksOf database) := by
    refine ⟨by decide, fun a ha child hchild => ?_, fun child name hmem => ?_⟩
    · rw [List.mem_singleton.mp ha] at hchild
      cases hchild
    · exact absurd hmem List.not_mem_nil
  have hfirst : ChildStep runtime environment 60 [database] (.pass database)
      [(pass runtime environment database database).2, database] := .pass List.mem_cons_self
  have hsecond : ChildStep runtime environment 60
      [(pass runtime environment database database).2, database] (.pass database)
      [(pass runtime environment database (pass runtime environment database database).2).2,
        (pass runtime environment database database).2, database] :=
    .pass (List.mem_cons_of_mem _ List.mem_cons_self)
  have hrun := (Run.single hfirst).snoc hsecond
  exact ⟨started, (one_child_per_attempt hpaired hrun).1 _ List.mem_cons_self⟩

end Runs

end FrappeBulk
end FrappeController
