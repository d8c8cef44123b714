import FrappeController.BulkOrchestrator
import FrappeController.Library.LengthPrefixed
import FrappeController.Tables
import Std.Data.String.ToInt

/-!
# What target keys and child ids identify

A target key is length-prefixed text: three ids, each behind the length of its UTF-8 bytes. It is
read back from the start of any text (`targetKeyOf_append_inj`), so neither the ids nor the attempt
that follows it in the seed of a child id need to avoid a character.
-/

namespace FrappeController
namespace Bulk

open LengthPrefixed (separated_inj)

/-! ## Target keys -/

/-- The decimal digits of a length. -/
theorem toList_length (n : ℕ) : (toString n).toList = Nat.toDigits 10 n := Nat.toList_repr

theorem notMem_toDigits {c : Char} (hc : c.isDigit = false) (n : ℕ) : c ∉ Nat.toDigits 10 n := by
  intro hmem
  have hdigit : c.isDigit = true := Nat.isDigit_of_mem_toDigits (by omega) (by omega) hmem
  exact absurd (hc.symm.trans hdigit) Bool.false_ne_true

theorem toDigits_injective : Function.Injective (Nat.toDigits 10) := by
  intro m n h
  have hm := Nat.ofDigitChars_toDigits (by omega : 1 < 10) (by omega : 10 ≤ 10) (n := m)
  have hn := Nat.ofDigitChars_toDigits (by omega : 1 < 10) (by omega : 10 ≤ 10) (n := n)
  rw [← hm, h, hn]

/-- `f"{len(value.encode('utf-8'))}:{value}"` as a format. -/
def utf8Parts : LengthPrefixed.Format Char where
  size := Char.utf8Size
  size_pos := Char.utf8Size_pos
  digits := Nat.toDigits 10
  digits_injective := toDigits_injective
  mark := ':'
  mark_notMem := notMem_toDigits (by decide)

theorem keyPart_toList (value : String) : (keyPart value).toList = utf8Parts.part value.toList := by
  rw [keyPart, String.toList_append, String.toList_append, toList_length, List.append_assoc]
  rfl

theorem targetKeyOf_toList (agentId benchId siteId : String) :
    (targetKeyOf agentId benchId siteId).toList
      = utf8Parts.joined '|' [agentId.toList, benchId.toList, siteId.toList] := by
  simp only [targetKeyOf, String.toList_append, keyPart_toList, LengthPrefixed.Format.joined,
    List.map_cons, List.map_nil, List.intercalate_cons_cons, List.intercalate_singleton,
    List.append_assoc]
  rfl

/-- A target key is read from the start of a text, with the ids in it. -/
theorem targetKeyOf_append_inj {agentId benchId siteId agentId' benchId' siteId' : String}
    {rest rest' : List Char}
    (h : (targetKeyOf agentId benchId siteId).toList ++ rest
      = (targetKeyOf agentId' benchId' siteId').toList ++ rest') :
    (agentId = agentId' ∧ benchId = benchId' ∧ siteId = siteId') ∧ rest = rest' := by
  rw [targetKeyOf_toList, targetKeyOf_toList] at h
  have hparts := LengthPrefixed.Format.joined_append_inj (by rfl) h
  have hagent := (List.cons.inj hparts.1).1
  have hbench := (List.cons.inj (List.cons.inj hparts.1).2).1
  have hsite := (List.cons.inj (List.cons.inj (List.cons.inj hparts.1).2).2).1
  exact ⟨⟨String.toList_injective hagent, String.toList_injective hbench,
    String.toList_injective hsite⟩, hparts.2⟩

/-- A target key has the three ids in it. -/
theorem targetKeyOf_injective {agentId benchId siteId agentId' benchId' siteId' : String}
    (h : targetKeyOf agentId benchId siteId = targetKeyOf agentId' benchId' siteId') :
    agentId = agentId' ∧ benchId = benchId' ∧ siteId = siteId' := by
  have hlist := congrArg (fun key => key.toList ++ []) h
  exact (targetKeyOf_append_inj hlist).1

/-! ## Attempts -/

/-- The seed of a child id within its parent's namespace. -/
def childSeed (targetKey : String) (attempt : ℤ) : String := targetKey ++ ":" ++ toString attempt

/-- The namespace of a parent's child ids. -/
def childScope (R : Runtime) (parentId : String) : String :=
  R.uuid5 BulkOrchestrator.namespaceUrl ("frappe-controller:bulk:" ++ parentId)

theorem childIdentity_fst (R : Runtime) (parentId targetKey : String) (attempt : ℤ) :
    (BulkOrchestrator.childIdentity R parentId targetKey attempt).1
      = R.uuid5 (childScope R parentId) (childSeed targetKey attempt) := rfl

theorem childSeed_toList (targetKey : String) (attempt : ℤ) :
    (childSeed targetKey attempt).toList
      = targetKey.toList ++ ':' :: (toString attempt).toList := by
  rw [childSeed, String.toList_append, String.toList_append, List.append_assoc]
  rfl

theorem attempt_injective {attempt attempt' : ℤ}
    (h : (toString attempt).toList = (toString attempt').toList) : attempt = attempt' := by
  have htext : attempt.repr = attempt'.repr := String.toList_injective h
  exact Int.repr_injective htext

/-- An attempt is written with digits and a sign. -/
theorem colon_notMem_attempt (attempt : ℤ) : ':' ∉ (toString attempt).toList := by
  show ':' ∉ (Int.repr attempt).toList
  cases attempt with
  | ofNat n =>
    show ':' ∉ (toString n).toList
    rw [toList_length]
    exact notMem_toDigits (by decide) n
  | negSucc n =>
    show ':' ∉ ("-" ++ toString (n + 1)).toList
    rw [String.toList_append, toList_length]
    intro hmem
    rcases List.mem_append.mp hmem with hsign | hdigit
    · exact absurd (List.mem_singleton.mp hsign) (by decide)
    · exact notMem_toDigits (by decide) _ hdigit

theorem childSeed_inj {agentId benchId siteId agentId' benchId' siteId' : String}
    {attempt attempt' : ℤ}
    (h : childSeed (targetKeyOf agentId benchId siteId) attempt
      = childSeed (targetKeyOf agentId' benchId' siteId') attempt') :
    targetKeyOf agentId benchId siteId = targetKeyOf agentId' benchId' siteId'
      ∧ attempt = attempt' := by
  have hlist := congrArg String.toList h
  rw [childSeed_toList, childSeed_toList] at hlist
  have hread := targetKeyOf_append_inj hlist
  have hattempt : attempt = attempt' := attempt_injective (List.cons.inj hread.2).2
  exact ⟨by rw [hread.1.1, hread.1.2.1, hread.1.2.2], hattempt⟩

theorem idempotencyKey_toList (R : Runtime) (parentId targetKey : String) (attempt : ℤ) :
    (BulkOrchestrator.childIdentity R parentId targetKey attempt).2.toList
      = ("bulk:".toList ++ parentId.toList ++ [':']) ++ (targetKey.toList ++ ':' ::
          ((toString attempt).toList ++ ':' ::
            (BulkOrchestrator.childIdentity R parentId targetKey attempt).1.toList)) := by
  simp only [BulkOrchestrator.childIdentity, String.toList_append, List.append_assoc]
  rfl

/-- Idempotency keys of one parent's children need no hash to be told apart. -/
theorem idempotencyKey_inj {R : Runtime} {parentId : String}
    {agentId benchId siteId agentId' benchId' siteId' : String} {attempt attempt' : ℤ}
    (h : (BulkOrchestrator.childIdentity R parentId (targetKeyOf agentId benchId siteId) attempt).2
      = (BulkOrchestrator.childIdentity R parentId (targetKeyOf agentId' benchId' siteId')
          attempt').2) :
    targetKeyOf agentId benchId siteId = targetKeyOf agentId' benchId' siteId'
      ∧ attempt = attempt' := by
  have hlist := congrArg String.toList h
  rw [idempotencyKey_toList, idempotencyKey_toList] at hlist
  have hread := targetKeyOf_append_inj (List.append_cancel_left hlist)
  -- the attempt ends at the colon before the child's id
  have hattempt := separated_inj (colon_notMem_attempt attempt) (colon_notMem_attempt attempt')
    (List.cons.inj hread.2).2
  exact ⟨by rw [hread.1.1, hread.1.2.1, hread.1.2.2], attempt_injective hattempt.1⟩

/-! ## The checks -/

/-- The ids a target key is made of. -/
def BulkTargetSnapshot.ids (t : BulkTargetSnapshot) : String × String × String :=
  (t.agentId, t.benchId, t.siteId)

theorem targetKey_eq_iff {t t' : BulkTargetSnapshot} :
    t.targetKey = t'.targetKey ↔ t.ids = t'.ids := by
  constructor
  · intro h
    have hids := targetKeyOf_injective h
    show (t.agentId, t.benchId, t.siteId) = (t'.agentId, t'.benchId, t'.siteId)
    rw [hids.1, hids.2.1, hids.2.2]
  · intro h
    have hagent : t.agentId = t'.agentId := congrArg Prod.fst h
    have hbench : t.benchId = t'.benchId := congrArg (fun ids => ids.2.1) h
    have hsite : t.siteId = t'.siteId := congrArg (fun ids => ids.2.2) h
    rw [BulkTargetSnapshot.targetKey, BulkTargetSnapshot.targetKey, hagent, hbench, hsite]

/-- `len(set(keys)) == len(keys)` says that no two targets have the same ids. -/
theorem nodup_keys_iff (targets : List BulkTargetSnapshot) :
    (targets.map (·.targetKey)).Nodup ↔ (targets.map (·.ids)).Nodup := by
  rw [List.Nodup, List.Nodup, List.pairwise_map, List.pairwise_map]
  apply List.Pairwise.iff
  intro t t'
  exact not_congr targetKey_eq_iff

/-- `BulkOperationTarget.validate`, its check of the key. -/
def validateTargetKey (row : BulkOperationTarget) : Except Exc Unit :=
  ensure (row.targetKey == targetKeyOf row.agentIdSnapshot row.benchIdSnapshot row.siteIdSnapshot)
    (.validation "Bulk target key does not match its snapshot")

theorem validateTargetKey_eq_ok {row : BulkOperationTarget} (h : validateTargetKey row = .ok ()) :
    row.targetKey = targetKeyOf row.agentIdSnapshot row.benchIdSnapshot row.siteIdSnapshot :=
  eq_of_beq (ensure_eq_ok.mp h)

/-- Target keys and the seeds of child ids are unambiguous, whatever characters the ids have. So
rows that pass their check have one key only if they are of one site, a plan's keys are distinct
exactly when its targets are, and two children of a parent have one idempotency key only if they are
one attempt on one target; one id too, unless `uuid5` maps two different seeds to it. -/
theorem target_keys_identify :
    (∀ agentId benchId siteId agentId' benchId' siteId' : String,
      targetKeyOf agentId benchId siteId = targetKeyOf agentId' benchId' siteId' →
        agentId = agentId' ∧ benchId = benchId' ∧ siteId = siteId')
    ∧ (∀ (agentId benchId siteId agentId' benchId' siteId' : String) (attempt attempt' : ℤ),
      childSeed (targetKeyOf agentId benchId siteId) attempt
          = childSeed (targetKeyOf agentId' benchId' siteId') attempt' →
        targetKeyOf agentId benchId siteId = targetKeyOf agentId' benchId' siteId'
          ∧ attempt = attempt')
    ∧ (∀ targets : List BulkTargetSnapshot,
      (targets.map (·.targetKey)).Nodup ↔ (targets.map (·.ids)).Nodup)
    ∧ (∀ row row' : BulkOperationTarget,
      validateTargetKey row = .ok () → validateTargetKey row' = .ok () →
      row.targetKey = row'.targetKey →
        row.agentIdSnapshot = row'.agentIdSnapshot ∧ row.benchIdSnapshot = row'.benchIdSnapshot
          ∧ row.siteIdSnapshot = row'.siteIdSnapshot)
    ∧ (∀ (R : Runtime) (parentId : String) (t t' : BulkTargetSnapshot) (attempt attempt' : ℤ),
      ((BulkOrchestrator.childIdentity R parentId t.targetKey attempt).2
          = (BulkOrchestrator.childIdentity R parentId t'.targetKey attempt').2 →
        t.ids = t'.ids ∧ attempt = attempt')
      ∧ ((BulkOrchestrator.childIdentity R parentId t.targetKey attempt).1
          = (BulkOrchestrator.childIdentity R parentId t'.targetKey attempt').1 →
        (t.ids = t'.ids ∧ attempt = attempt')
        ∨ (childSeed t.targetKey attempt ≠ childSeed t'.targetKey attempt'
          ∧ R.uuid5 (childScope R parentId) (childSeed t.targetKey attempt)
            = R.uuid5 (childScope R parentId) (childSeed t'.targetKey attempt')))) := by
  refine ⟨fun _ _ _ _ _ _ => targetKeyOf_injective, fun _ _ _ _ _ _ _ _ => childSeed_inj,
    nodup_keys_iff, ?rows, ?children⟩
  -- a saved row has the key of its snapshots
  case rows =>
    intro row row' hrow hrow' hkey
    rw [validateTargetKey_eq_ok hrow, validateTargetKey_eq_ok hrow'] at hkey
    exact targetKeyOf_injective hkey
  case children =>
    intro R parentId t t' attempt attempt'
    refine ⟨fun h => ?_, fun h => ?_⟩
    -- the idempotency key has the seed as its text; the id is a digest of it
    · have hsame := idempotencyKey_inj h
      exact ⟨targetKey_eq_iff.mp hsame.1, hsame.2⟩
    · rw [childIdentity_fst, childIdentity_fst] at h
      by_cases hseed : childSeed t.targetKey attempt = childSeed t'.targetKey attempt'
      · have hsame := childSeed_inj hseed
        exact .inl ⟨targetKey_eq_iff.mp hsame.1, hsame.2⟩
      · exact .inr ⟨hseed, h⟩

/-- Ids with separators and lengths in them. -/
theorem separators_in_ids : targetKeyOf "a|1:b" "c" "é" ≠ targetKeyOf "a" "b|1:c" "é" := by
  intro h
  exact absurd (target_keys_identify.1 _ _ _ _ _ _ h).1 (by decide)

end Bulk
end FrappeController
