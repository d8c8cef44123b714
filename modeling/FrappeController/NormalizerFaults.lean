import FrappeController.DataUpdateTheorems

/-!
# What the normalizers raise beside their contract

`OperationAuthoringError` is not all the normalizers raise: a string is encoded before its length
is compared, an operator is looked up in a set before its type is known, and an instant is moved
to UTC after the parse that is guarded. `Breaks…` says for each part, in the order of the checks,
that such a step is reached.
-/

namespace FrappeController

namespace AuthoringFault

/-- The result is an exception that is no `OperationAuthoringError`. -/
def escapes {α : Type} : Except AuthoringFault α → Bool
  | .ok _ | .error (.contract _) => false
  | .error _ => true

@[simp] theorem escapes_ok {α : Type} (a : α) : escapes (.ok a) = false := rfl

/-- A later step escapes where the earlier ones are passed. -/
theorem escapes_bind {α β : Type} {x : Except AuthoringFault α} {f : α → Except AuthoringFault β} :
    escapes (x >>= f) = true ↔ escapes x = true ∨ ∃ a, x = .ok a ∧ escapes (f a) = true := by
  cases x with
  | ok a =>
    show escapes (f a) = true ↔ _
    simp
  | error fault =>
    show escapes (.error fault : Except AuthoringFault β) = true ↔ _
    cases fault <;> simp [escapes]

/-- The first item that is not passed decides. -/
theorem escapes_mapM {α β : Type} {f : α → Except AuthoringFault β} {items : List α} :
    escapes (items.mapM f) = true ↔ ∃ before x after, items = before ++ x :: after
      ∧ (∀ y ∈ before, (f y).isOk = true) ∧ escapes (f x) = true := by
  induction items with
  | nil =>
    constructor
    · intro h
      cases h
    · rintro ⟨before, x, after, hsplit, -⟩
      cases before <;> cases hsplit
  | cons x rest ih =>
    rw [List.mapM_cons, escapes_bind]
    -- adding the passed item to the list cannot escape
    have htail : ∀ y, escapes (do
        let ys ← rest.mapM f
        pure (y :: ys)) = true ↔ escapes (rest.mapM f) = true := by
      intro y
      rw [escapes_bind]
      constructor
      · rintro (h | ⟨ys, -, h⟩)
        · exact h
        · cases h
      · exact .inl
    constructor
    · rintro (h | ⟨y, hy, h⟩)
      · exact ⟨[], x, rest, rfl, nofun, h⟩
      · obtain ⟨before, z, after, rfl, hbefore, hz⟩ := ih.mp ((htail y).mp h)
        refine ⟨x :: before, z, after, rfl, ?_, hz⟩
        rw [List.forall_mem_cons]
        exact ⟨by rw [hy]; rfl, hbefore⟩
    · rintro ⟨before, z, after, hsplit, hbefore, hz⟩
      cases before with
      | nil =>
        rw [List.nil_append, List.cons.injEq] at hsplit
        rw [hsplit.1]
        exact .inl hz
      | cons w before =>
        rw [List.cons_append, List.cons.injEq] at hsplit
        rw [List.forall_mem_cons] at hbefore
        rw [hsplit.1]
        obtain ⟨y, hy⟩ := Transaction.exists_eq_ok_of_isOk hbefore.1
        refine .inr ⟨y, hy, (htail y).mpr (ih.mpr ⟨before, z, after, hsplit.2, hbefore.2, hz⟩)⟩

end AuthoringFault

open AuthoringFault PyJson
open Transaction (bind_eq_ok)

/-- A text that reaches the encoder with a surrogate. -/
def Unencodable (s : PyStr) : Prop := s ≠ [] ∧ s.isStripped = true ∧ s.hasSurrogate = true

namespace DataUpdateAuthoring

variable {lib : TextLibrary} {R : Runtime}

/-- A failed check is a contract error, whatever its message. -/
@[simp] theorem escapes_requireWith (message : String) (condition : Bool) :
    escapes (requireWith message condition) = false := by
  cases condition <;> rfl

@[simp] theorem escapes_require (condition : Bool) : escapes (require condition) = false :=
  escapes_requireWith _ condition

/-- The length in bytes is the one step of a text that can escape: it encodes first. -/
theorem escapes_encodedLength {s : PyStr} :
    escapes (encodedLength s) = true ↔ s.hasSurrogate = true := by
  rw [← PyStr.encode?_eq_none, encodedLength]
  cases s.encode? <;> simp [escapes]

/-! ## Texts, names and instants -/

/-- `_text` encodes a string with a surrogate. -/
def BreaksText (lib : TextLibrary) (raw : PyJson) : Prop :=
  ∃ s, raw = .str s ∧ Unencodable s ∧ lib.nfc s = s

/-- `_text` escapes only past the checks that stand before its length comparison. -/
theorem escapes_trimmedText {maximum : ℕ} {raw : PyJson} :
    escapes (trimmedText lib maximum raw) = true ↔ BreaksText lib raw := by
  cases raw with
  | str s =>
    simp only [trimmedText, escapes_bind, escapes_require, escapes_encodedLength, require_eq_ok,
      encodedLength_eq_ok, Bool.false_eq_true, false_or, exists_const, Bool.and_eq_true,
      Bool.not_eq_true', List.isEmpty_eq_false_iff, beq_iff_eq, pure, Except.pure, escapes_ok,
      and_false, or_false, BreaksText, Unencodable, PyJson.str.injEq,
      exists_eq_left']
    constructor
    · rintro ⟨⟨⟨hne, hstripped⟩, hnfc⟩, hsurrogate⟩
      exact ⟨⟨hne, hstripped, hsurrogate⟩, hnfc⟩
    · rintro ⟨⟨hne, hstripped, hsurrogate⟩, hnfc⟩
      exact ⟨⟨⟨hne, hstripped⟩, hnfc⟩, hsurrogate⟩
  | _ =>
    constructor
    · intro h
      cases h
    · rintro ⟨s, hs, -⟩
      cases hs

/-- A field name is matched against an ASCII pattern and is never encoded. -/
theorem escapes_fieldName (raw : PyJson) : escapes (fieldName lib raw) = false := by
  cases raw with
  | str s =>
    rw [← Bool.not_eq_true]
    simp [fieldName, escapes_bind, pure, Except.pure]
  | _ => rfl

/-- A document type is matched against an ASCII pattern and is never encoded. -/
theorem escapes_doctype (raw : PyJson) : escapes (doctype lib raw) = false := by
  cases raw with
  | str s =>
    rw [← Bool.not_eq_true]
    simp [doctype, escapes_bind, pure, Except.pure]
  | _ => rfl

/-- The instant is not one of the calendar once it is moved to UTC. -/
def Overflows (lib : TextLibrary) (raw : PyJson) : Prop :=
  ∃ s, trimmedText lib 64 raw = .ok s ∧ lib.fromisoformat (utcOffset s) = .aware none

/-- An instant escapes with its text, or where the move to UTC leaves the years Python has. -/
theorem escapes_timestamp {raw : PyJson} :
    escapes (timestamp lib raw) = true ↔ BreaksText lib raw ∨ Overflows lib raw := by
  rw [timestamp, escapes_bind, escapes_trimmedText]
  refine or_congr_right (exists_congr fun s => and_congr_right fun _ => ?_)
  split
  · rename_i hparsed
    rw [hparsed]
    simp [fail, failWith, escapes]
  · rename_i hparsed
    rw [hparsed]
    simp [fail, failWith, escapes]
  · rename_i hparsed
    rw [hparsed]
    simp [escapes]
  · rename_i hparsed
    rw [hparsed]
    simp [pure, Except.pure]

/-! ## Values -/

section Values

variable (lib)

mutual

/-- `_value` encodes a string or a key with a surrogate: everything before it is passed, at this
depth and with this much of the budget used. -/
def BreaksValue : PyJson → ℕ → ℕ → Prop
  | .str s, depth, used =>
    (depth ≤ 8 ∧ used + 1 ≤ 1000) ∧ (lib.nfc s).hasChar (Char.ofNat 0) = false
      ∧ (lib.nfc s).hasSurrogate = true
  | .arr items, depth, used =>
    (depth ≤ 8 ∧ used + 1 ≤ 1000) ∧ items.length ≤ 100 ∧ BreaksItems items (depth + 1) (used + 1)
  | .obj fields, depth, used =>
    (depth ≤ 8 ∧ used + 1 ≤ 1000) ∧ fields.length ≤ 32
      ∧ BreaksFields fields [] (depth + 1) (used + 1)
  | _, _, _ => False

def BreaksItems : List PyJson → ℕ → ℕ → Prop
  | [], _, _ => False
  | x :: rest, depth, used =>
    BreaksValue x depth used
      ∨ (Admits lib x depth ∧ used + nodes x ≤ 1000) ∧ BreaksItems rest depth (used + nodes x)

def BreaksFields : Fields → List PyStr → ℕ → ℕ → Prop
  | [], _, _, _ => False
  | (key, x) :: rest, seen, depth, used =>
    Unencodable key
      ∨ (LegalKey lib key ∧ key ∉ seen) ∧ (BreaksValue x depth used
        ∨ (Admits lib x depth ∧ used + nodes x ≤ 1000)
          ∧ BreaksFields rest (seen ++ [key]) depth (used + nodes x))

end

end Values

/-- The node and depth budget only raises contract errors. -/
theorem escapes_spend (depth used : ℕ) : escapes (spend depth used) = false := by
  unfold spend
  split <;> rfl

/-- A string value is encoded once it holds no NUL character. -/
theorem escapes_valueText {s : PyStr} : escapes (valueText s) = true ↔
    s.hasChar (Char.ofNat 0) = false ∧ s.hasSurrogate = true := by
  simp only [valueText, escapes_bind, escapes_require, escapes_encodedLength, require_eq_ok,
    encodedLength_eq_ok, Bool.false_eq_true, false_or, exists_const, Bool.not_eq_true', pure,
    Except.pure, escapes_ok, and_false, or_false]

/-- What is neither a string nor a container is passed or refused. -/
theorem escapes_scalar {value : PyJson} (h : ∀ s, value ≠ .str s) :
    escapes (scalar lib value) = false := by
  cases value with
  | str s => exact absurd rfl (h s)
  | int n =>
    simp only [scalar]
    split <;> rfl
  | float x =>
    cases x with
    | finite q =>
      simp only [scalar]
      split <;> rfl
    | _ => rfl
  | _ => rfl

/-- A key is encoded once it is neither empty nor padded; its other checks never escape. -/
theorem escapes_nestedKey {seen : List PyStr} {key : PyStr} :
    escapes (nestedKey lib seen key) = true ↔ Unencodable key := by
  simp only [nestedKey, escapes_bind, escapes_requireWith, escapes_require, escapes_encodedLength,
    requireWith_eq_ok, encodedLength_eq_ok, Bool.false_eq_true, false_or, exists_const,
    Bool.and_eq_true, Bool.not_eq_true', List.isEmpty_eq_false_iff, and_false,
    or_false, Unencodable, and_assoc]

/-- The calls of `_value` on a scalar. -/
theorem escapes_nested_scalar {value : PyJson} (hscalar : isContainer value = false)
    {depth used : ℕ} : escapes (nested lib value depth used) = true ↔
      (depth ≤ 8 ∧ used + 1 ≤ 1000) ∧ escapes (scalar lib value) = true := by
  have hbody : nested lib value depth used = do
      let used ← spend depth used
      return (← scalar lib value, used) := by
    cases value with
    | arr items => cases hscalar
    | obj fields => cases hscalar
    | _ => rfl
  rw [hbody]
  simp only [escapes_bind, escapes_spend, spend_eq_ok, Bool.false_eq_true, false_or, pure,
    Except.pure, escapes_ok, and_false, exists_false, or_false]
  constructor
  · rintro ⟨spent, ⟨hdepth, hused, -⟩, h⟩
    exact ⟨⟨hdepth, hused⟩, h⟩
  · rintro ⟨⟨hdepth, hused⟩, h⟩
    exact ⟨used + 1, ⟨hdepth, hused, rfl⟩, h⟩

/-- What is left to do after a value does not matter where it escapes. -/
theorem escapes_then {α β : Type} {x : Except AuthoringFault α} {f : α → β} :
    escapes (do
      let a ← x
      pure (f a)) = true ↔ escapes x = true := by
  rw [escapes_bind]
  constructor
  · rintro (h | ⟨a, -, h⟩)
    · exact h
    · cases h
  · exact .inl

mutual

/-- `_value` escapes at the first part, in the order of the walk, that breaks. -/
theorem escapes_nested : ∀ (value : PyJson) {depth used : ℕ},
    escapes (nested lib value depth used) = true ↔ BreaksValue lib value depth used
  | .null, _, _ | .bool _, _, _ | .int _, _, _ | .float _, _, _ => by
    rw [escapes_nested_scalar rfl, escapes_scalar fun s h => PyJson.noConfusion h]
    simp [BreaksValue]
  | .str s, _, _ => by
    rw [escapes_nested_scalar rfl, BreaksValue]
    exact and_congr_right fun _ => escapes_valueText
  | .arr items, depth, used => by
    rw [nested, BreaksValue]
    simp only [escapes_bind, escapes_spend, spend_eq_ok, Bool.false_eq_true, false_or,
      escapes_require, require_eq_ok, exists_const, decide_eq_true_eq]
    constructor
    · rintro ⟨spent, ⟨hdepth, hused, rfl⟩, hlength, hitems | ⟨found, -, h⟩⟩
      · exact ⟨⟨hdepth, hused⟩, hlength, (escapes_nestedItems items hused).mp hitems⟩
      · cases h
    · rintro ⟨⟨hdepth, hused⟩, hlength, hitems⟩
      exact ⟨used + 1, ⟨hdepth, hused, rfl⟩, hlength, .inl ((escapes_nestedItems items hused).mpr hitems)⟩
  | .obj fields, depth, used => by
    rw [nested, BreaksValue]
    simp only [escapes_bind, escapes_spend, spend_eq_ok, Bool.false_eq_true, false_or,
      escapes_require, require_eq_ok, exists_const, decide_eq_true_eq]
    constructor
    · rintro ⟨spent, ⟨hdepth, hused, rfl⟩, hlength, hfields | ⟨found, -, h⟩⟩
      · exact ⟨⟨hdepth, hused⟩, hlength, (escapes_nestedFields fields hused).mp hfields⟩
      · cases h
    · rintro ⟨⟨hdepth, hused⟩, hlength, hfields⟩
      exact ⟨used + 1, ⟨hdepth, hused, rfl⟩, hlength,
        .inl ((escapes_nestedFields fields hused).mpr hfields)⟩

/-- The items of a list are walked in order, each with the budget the earlier ones left. -/
theorem escapes_nestedItems : ∀ (items : List PyJson) {depth used : ℕ}, used ≤ 1000 →
    (escapes (nestedItems lib items depth used) = true ↔ BreaksItems lib items depth used)
  | [], _, _, _ => by
    rw [nestedItems, BreaksItems]
    simp
  | x :: rest, depth, used, _ => by
    rw [nestedItems, BreaksItems, escapes_bind, escapes_nested x]
    refine or_congr_right ?_
    simp only [Prod.exists, nested_eq_ok x]
    constructor
    · rintro ⟨x', used', ⟨hx, hbudget, rfl, rfl⟩, h⟩
      exact ⟨⟨hx, hbudget⟩, (escapes_nestedItems rest hbudget).mp (escapes_then.mp h)⟩
    · rintro ⟨⟨hx, hbudget⟩, h⟩
      exact ⟨_, _, ⟨hx, hbudget, rfl, rfl⟩, escapes_then.mpr ((escapes_nestedItems rest hbudget).mpr h)⟩

/-- The fields of an object are walked in order, the key of each before its value. -/
theorem escapes_nestedFields : ∀ (fields : Fields) {seen : List PyStr} {depth used : ℕ},
    used ≤ 1000 → (escapes (nestedFields lib fields seen depth used) = true ↔
      BreaksFields lib fields seen depth used)
  | [], _, _, _, _ => by
    rw [nestedFields, BreaksFields]
    simp
  | (key, x) :: rest, seen, depth, used, _ => by
    rw [nestedFields, BreaksFields, escapes_bind, escapes_nestedKey]
    refine or_congr_right ?_
    simp only [nestedKey_eq_ok, exists_const]
    refine and_congr_right fun _ => ?_
    rw [escapes_bind, escapes_nested x]
    refine or_congr_right ?_
    simp only [Prod.exists, nested_eq_ok x]
    constructor
    · rintro ⟨x', used', ⟨hx, hbudget, rfl, rfl⟩, h⟩
      exact ⟨⟨hx, hbudget⟩, (escapes_nestedFields rest hbudget).mp (escapes_then.mp h)⟩
    · rintro ⟨⟨hx, hbudget⟩, h⟩
      exact ⟨_, _, ⟨hx, hbudget, rfl, rfl⟩, escapes_then.mpr ((escapes_nestedFields rest hbudget).mpr h)⟩

end

/-- A whole value starts the walk at depth and budget zero. -/
theorem escapes_value {raw : PyJson} :
    escapes (value lib raw) = true ↔ BreaksValue lib raw 0 0 := by
  rw [value, ← escapes_nested raw]
  exact escapes_then

/-! ## Payloads -/

section Payloads

variable (lib)

/-- A name before which all are passed. -/
def BreaksNames (raw : PyJson) : Prop :=
  ∃ before name after, raw = .arr (before ++ name :: after)
    ∧ (before ++ name :: after).length ≤ 100
    ∧ (∀ other ∈ before, (trimmedText lib 140 other).isOk = true) ∧ BreaksText lib name

/-- The operator is an array or an object, or the value breaks. -/
def BreaksFilter (raw : PyJson) : Prop :=
  ∃ item, raw = .obj item ∧ sameKeys item filterNames = true
    ∧ (isContainer (field item "operator") = true
      ∨ (operator (field item "operator")).isOk = true
        ∧ BreaksValue lib (field item "value") 0 0)

def BreaksFilters (raw : PyJson) : Prop :=
  ∃ before item after, raw = .arr (before ++ item :: after)
    ∧ (before ++ item :: after).length ≤ 20
    ∧ (∀ other ∈ before, (filter lib other).isOk = true) ∧ BreaksFilter lib item

/-- The value of a legal field breaks. -/
def BreaksChanges (raw : PyJson) : Prop :=
  ∃ before key x after, raw = .obj (before ++ (key, x) :: after)
    ∧ (before ++ (key, x) :: after).length ≤ 32
    ∧ (∀ f ∈ before, (fieldName lib (.str f.1)).isOk = true ∧ (value lib f.2).isOk = true)
    ∧ (fieldName lib (.str key)).isOk = true ∧ BreaksValue lib x 0 0

/-- The first check of a payload that is not passed encodes a surrogate, hashes an array or an
object, or leaves the calendar. -/
def BreaksPayload (payload : Fields) (dryRun : Bool) : Prop :=
  (checkContract payload dryRun).isOk = true
    ∧ ∃ rows, maximumRows (field payload "maximum_rows") = .ok rows
      ∧ (isSelection (field payload "document_names") != isSelection (field payload "filters")) = true
      ∧ (BreaksNames lib (field payload "document_names")
        ∨ ∃ names, documentNames lib (field payload "document_names") = .ok names
          ∧ (BreaksFilters lib (field payload "filters")
            ∨ (filters lib (field payload "filters")).isOk = true
              ∧ (BreaksChanges lib (field payload "changes")
                ∨ (changes lib (field payload "changes")).isOk = true
                  ∧ (BreaksText lib (field payload "expected_modified")
                    ∨ Overflows lib (field payload "expected_modified")
                    ∨ (expectedModified lib (field payload "expected_modified") rows
                        names).isOk = true
                      ∧ (doctype lib (field payload "doctype")).isOk = true
                      ∧ BreaksText lib (field payload "reason")))))

/-- The payload of a command breaks. -/
def BreaksCommand (operation : String) (raw : PyJson) (dryRun : Bool) : Prop :=
  ∃ command payload, raw = .obj command ∧ operation ∈ operations
    ∧ sameKeys command commandNames = true ∧ (policyId (field command "policy_id")).isOk = true
    ∧ field command "payload" = .obj payload ∧ BreaksPayload lib payload dryRun

end Payloads

/-- A passed step has a result. -/
theorem isOk_iff {α : Type} {x : Except AuthoringFault α} : x.isOk = true ↔ ∃ a, x = .ok a := by
  cases x <;> simp [Except.isOk, Except.toBool]

/-- The list of names escapes at the first name that is not passed. -/
theorem escapes_documentNames {raw : PyJson} :
    escapes (documentNames lib raw) = true ↔ BreaksNames lib raw := by
  cases raw with
  | arr items =>
    simp only [documentNames, escapes_bind, escapes_require, require_eq_ok, Bool.false_eq_true,
      false_or, exists_const, Bool.and_eq_true, Bool.not_eq_true', List.isEmpty_eq_false_iff,
      decide_eq_true_eq, pure, Except.pure, escapes_ok, and_false, or_false, escapes_mapM,
      escapes_trimmedText, BreaksNames, PyJson.arr.injEq]
    constructor
    · rintro ⟨⟨-, hlength⟩, before, name, after, rfl, hbefore, hname⟩
      exact ⟨before, name, after, rfl, hlength, hbefore, hname⟩
    · rintro ⟨before, name, after, rfl, hlength, hbefore, hname⟩
      exact ⟨⟨by simp, hlength⟩, before, name, after, rfl, hbefore, hname⟩
  | _ =>
    constructor
    · intro h
      cases h
    · rintro ⟨before, name, after, h, -⟩
      cases h

/-- A list or an object is not hashable, so the set lookup of the operator raises. -/
theorem escapes_operator {raw : PyJson} :
    escapes (operator raw) = true ↔ isContainer raw = true := by
  cases raw with
  | str s =>
    simp only [operator, isContainer, Bool.false_eq_true, iff_false, Bool.not_eq_true]
    split <;> rfl
  | _ => simp [operator, isContainer, escapes, fail, failWith]

/-- The operand was normalized as a value before; its own checks are contract errors. -/
theorem escapes_checkOperand (name : PyStr) (operand : PyJson) :
    escapes (checkOperand name operand) = false := by
  cases operand with
  | obj fields => rfl
  | _ => exact escapes_require _

/-- One filter escapes through its field, its operator or its operand, in that order. -/
theorem escapes_filter {raw : PyJson} :
    escapes (filter lib raw) = true ↔ BreaksFilter lib raw := by
  cases raw with
  | obj item =>
    simp only [filter, escapes_bind, escapes_require, require_eq_ok, Bool.false_eq_true, false_or,
      exists_const, escapes_operator, escapes_value, escapes_checkOperand, escapes_fieldName, pure,
      Except.pure, escapes_ok, and_false, or_false, BreaksFilter, PyJson.obj.injEq,
      exists_eq_left', isOk_iff, exists_and_right]
  | _ =>
    constructor
    · intro h
      cases h
    · rintro ⟨item, h, -⟩
      cases h

/-- The filters escape at the first of them that is not passed. -/
theorem escapes_filters {raw : PyJson} :
    escapes (filters lib raw) = true ↔ BreaksFilters lib raw := by
  cases raw with
  | arr items =>
    simp only [filters, escapes_bind, escapes_require, require_eq_ok, Bool.false_eq_true,
      false_or, exists_const, Bool.and_eq_true, Bool.not_eq_true', List.isEmpty_eq_false_iff,
      decide_eq_true_eq, pure, Except.pure, escapes_ok, and_false, or_false, escapes_mapM,
      escapes_filter, BreaksFilters, PyJson.arr.injEq]
    constructor
    · rintro ⟨⟨-, hlength⟩, before, item, after, rfl, hbefore, hitem⟩
      exact ⟨before, item, after, rfl, hlength, hbefore, hitem⟩
    · rintro ⟨before, item, after, rfl, hlength, hbefore, hitem⟩
      exact ⟨⟨by simp, hlength⟩, before, item, after, rfl, hbefore, hitem⟩
  | _ =>
    constructor
    · intro h
      cases h
    · rintro ⟨before, item, after, h, -⟩
      cases h

/-- The first change that is not passed decides. -/
theorem escapes_changedFields {items done : Fields} :
    escapes (changedFields lib done items) = true ↔
      ∃ before key x after, items = before ++ (key, x) :: after
        ∧ (∀ f ∈ before, (fieldName lib (.str f.1)).isOk = true ∧ (value lib f.2).isOk = true)
        ∧ (fieldName lib (.str key)).isOk = true ∧ BreaksValue lib x 0 0 := by
  induction items generalizing done with
  | nil =>
    -- the induction is on the fields: the first passes, or is the one that breaks
    constructor
    · intro h
      cases h
    · rintro ⟨before, key, x, after, hsplit, -⟩
      cases before <;> cases hsplit
  | cons f rest ih =>
    obtain ⟨key, x⟩ := f
    simp only [changedFields, escapes_bind, escapes_fieldName, Bool.false_eq_true, false_or,
      escapes_value]
    constructor
    · rintro ⟨key', hkey, hx | ⟨x', hx, h⟩⟩
      · refine ⟨[], key, x, rest, rfl, ?_, isOk_iff.mpr ⟨key', hkey⟩, hx⟩
        exact fun f hf => absurd hf List.not_mem_nil
      · obtain ⟨before, key₂, x₂, after, rfl, hbefore, hlegal, hbreaks⟩ := ih.mp h
        refine ⟨(key, x) :: before, key₂, x₂, after, rfl, ?_, hlegal, hbreaks⟩
        rw [List.forall_mem_cons]
        exact ⟨⟨isOk_iff.mpr ⟨key', hkey⟩, isOk_iff.mpr ⟨x', hx⟩⟩, hbefore⟩
    · rintro ⟨before, key₂, x₂, after, hsplit, hbefore, hlegal, hbreaks⟩
      cases before with
      | nil =>
        rw [List.nil_append, List.cons.injEq, Prod.mk.injEq] at hsplit
        obtain ⟨⟨rfl, rfl⟩, -⟩ := hsplit
        obtain ⟨key', hkey⟩ := isOk_iff.mp hlegal
        exact ⟨key', hkey, .inl hbreaks⟩
      | cons g before =>
        rw [List.cons_append, List.cons.injEq] at hsplit
        rw [List.forall_mem_cons, ← hsplit.1] at hbefore
        obtain ⟨⟨hname, hvalue⟩, hrest⟩ := hbefore
        obtain ⟨key', hkey⟩ := isOk_iff.mp hname
        obtain ⟨x', hx⟩ := isOk_iff.mp hvalue
        exact ⟨key', hkey, .inr ⟨x', hx,
          ih.mpr ⟨before, key₂, x₂, after, hsplit.2, hrest, hlegal, hbreaks⟩⟩⟩

/-- The changes escape at the first field whose value breaks. -/
theorem escapes_changes {raw : PyJson} :
    escapes (changes lib raw) = true ↔ BreaksChanges lib raw := by
  cases raw with
  | obj items =>
    simp only [changes, escapes_bind, escapes_require, require_eq_ok, Bool.false_eq_true,
      false_or, exists_const, Bool.and_eq_true, Bool.not_eq_true', List.isEmpty_eq_false_iff,
      decide_eq_true_eq, escapes_changedFields, BreaksChanges, PyJson.obj.injEq]
    constructor
    · rintro ⟨⟨-, hlength⟩, before, key, x, after, rfl, hbefore, hlegal, hbreaks⟩
      exact ⟨before, key, x, after, rfl, hlength, hbefore, hlegal, hbreaks⟩
    · rintro ⟨before, key, x, after, rfl, hlength, hbefore, hlegal, hbreaks⟩
      exact ⟨⟨by simp, hlength⟩, before, key, x, after, rfl, hbefore, hlegal, hbreaks⟩
  | _ =>
    constructor
    · intro h
      cases h
    · rintro ⟨before, key, x, after, h, -⟩
      cases h

/-- The expected instant escapes as any instant; the other forms do not. -/
theorem escapes_expectedModified {raw : PyJson} {rows : ℤ} {names : Option (List PyStr)} :
    escapes (expectedModified lib raw rows names) = true ↔ BreaksText lib raw ∨ Overflows lib raw := by
  cases raw with
  | null =>
    constructor
    · intro h
      cases h
    · rintro (⟨s, hs, -⟩ | ⟨s, hs, -⟩)
      · cases hs
      · cases hs
  | _ =>
    simp only [expectedModified, escapes_bind, escapes_timestamp, escapes_require, require_eq_ok,
      Bool.false_eq_true, pure, Except.pure, escapes_ok, and_false, exists_false,
      or_false]

/-- The row bound is compared as an integer and never escapes. -/
theorem escapes_maximumRows (raw : PyJson) : escapes (maximumRows raw) = false := by
  unfold maximumRows
  split
  · split <;> rfl
  · rfl

/-- The keys and constants of the payload only raise contract errors. -/
theorem escapes_checkContract (payload : Fields) (dryRun : Bool) :
    escapes (checkContract payload dryRun) = false := by
  unfold checkContract
  split
  · exact escapes_require _
  · rfl

/-- The policy id is matched against a pattern and is never encoded. -/
theorem escapes_policyId (raw : PyJson) : escapes (policyId raw) = false := by
  unfold policyId
  split
  · split <;> rfl
  · rfl

/-! ## The text of an accepted payload -/

/-- Fields whose keys and values are real JSON form a real object. -/
theorem exists_ofFields {fields : Fields}
    (h : ∀ f ∈ fields, (∃ key, PyStr.ofString key = f.1) ∧ ∃ j, ofJson j = f.2) :
    ∃ document, ofFields document = fields := by
  induction fields with
  | nil => exact ⟨[], rfl⟩
  | cons f rest ih =>
    rw [List.forall_mem_cons] at h
    obtain ⟨⟨⟨key, hkey⟩, j, hj⟩, hrest⟩ := h
    obtain ⟨document, hdocument⟩ := ih hrest
    exact ⟨(key, j) :: document, by rw [ofFields, hkey, hj, hdocument]⟩

/-- Items that are real JSON form a real array. -/
theorem exists_ofItems {items : List PyJson} (h : ∀ x ∈ items, ∃ j, ofJson j = x) :
    ∃ js, ofItems js = items := by
  induction items with
  | nil => exact ⟨[], rfl⟩
  | cons x rest ih =>
    rw [List.forall_mem_cons] at h
    obtain ⟨⟨j, hj⟩, hrest⟩ := h
    obtain ⟨js, hjs⟩ := ih hrest
    exact ⟨j :: js, by rw [ofItems, hj, hjs]⟩

/-- What a pattern of characters matches holds no surrogate. -/
theorem exists_of_fullmatch {pattern : String → Bool} {s : PyStr}
    (h : s.fullmatch pattern = true) : ∃ text, PyStr.ofString text = s := by
  rw [PyStr.fullmatch] at h
  cases htext : s.toString? with
  | none =>
    rw [htext] at h
    cases h
  | some text => exact ⟨text, PyStr.ofString_of_toString? htext⟩

/-- An accepted text was encoded, so it is a real string. -/
theorem exists_trimmedText {maximum : ℕ} {raw : PyJson} {s : PyStr}
    (h : trimmedText lib maximum raw = .ok s) : ∃ text, PyStr.ofString text = s := by
  obtain ⟨-, -, -, -, ⟨text, htext, -⟩, -⟩ := trimmedText_eq_ok.mp h
  exact ⟨String.ofList text, ofString_of_encode? htext⟩

/-- An accepted field name is a real string. -/
theorem exists_fieldName {raw : PyJson} {s : PyStr} (h : fieldName lib raw = .ok s) :
    ∃ text, PyStr.ofString text = s := by
  rw [fieldName_eq_ok h] at h
  obtain ⟨u, hmatch, -⟩ := bind_eq_ok.mp h
  rw [require_eq_ok, Bool.and_eq_true] at hmatch
  exact exists_of_fullmatch hmatch.2

/-- An accepted document type is a real string. -/
theorem exists_doctype {raw : PyJson} {s : PyStr} (h : doctype lib raw = .ok s) :
    ∃ text, PyStr.ofString text = s := by
  rw [doctype_eq_ok h] at h
  obtain ⟨u, hmatch, -⟩ := bind_eq_ok.mp h
  rw [require_eq_ok, Bool.and_eq_true] at hmatch
  exact exists_of_fullmatch hmatch.2

/-- An accepted value was encoded string by string, so it is real JSON. -/
theorem exists_value {raw out : PyJson} (h : value lib raw = .ok out) : ∃ j, ofJson j = out := by
  obtain ⟨hadmits, -, rfl⟩ := value_eq_ok.mp h
  exact exists_json raw hadmits

/-- The accepted names are real JSON, with or without a list. -/
theorem exists_names {raw : PyJson} {names : Option (List PyStr)}
    (h : documentNames lib raw = .ok names) : ∃ j, ofJson j = namesJson names := by
  cases names with
  | none => exact ⟨.null, rfl⟩
  | some names =>
    have hraw := documentNames_eq_ok h
    rw [hraw] at h
    obtain ⟨-, -, h⟩ := bind_eq_ok.mp h
    obtain ⟨out, hout, h⟩ := bind_eq_ok.mp h
    obtain ⟨-, -, h⟩ := bind_eq_ok.mp h
    obtain rfl := Option.some.inj (Except.ok.inj h)
    have hall := forall_of_mapM (p := fun s => ∃ text, PyStr.ofString text = s)
      (fun x _ s hs => exists_trimmedText hs) hout
    obtain ⟨js, hjs⟩ : ∃ js, ofItems js = out.map PyJson.str := by
      apply exists_ofItems
      intro x hx
      obtain ⟨s, hs, rfl⟩ := List.mem_map.mp hx
      obtain ⟨text, rfl⟩ := hall s hs
      exact ⟨.str text, rfl⟩
    exact ⟨.arr js, by rw [ofJson, hjs, namesJson]⟩

/-- An accepted filter is real JSON. -/
theorem exists_filterJson {raw out : PyJson} (h : filter lib raw = .ok out) :
    ∃ j, ofJson j = out := by
  obtain ⟨name, operator', operand, rfl, hname, hoperator, -, rawOperand, hoperand⟩ := filter_eq_ok h
  obtain ⟨n, rfl⟩ := exists_fieldName hname
  obtain ⟨v, rfl⟩ := exists_value hoperand
  have ho : ∃ o, PyStr.ofString o = operator' := by
    simp only [operator] at hoperator
    split at hoperator
    · rename_i hone
      obtain ⟨o, -, ho⟩ := List.mem_map.mp (List.contains_iff_mem.mp hone)
      exact ⟨o, ho⟩
    · cases hoperator
  obtain ⟨o, rfl⟩ := ho
  exact ⟨.obj [("field", .str n), ("operator", .str o), ("value", v)], rfl⟩

/-- The accepted filters are real JSON. -/
theorem exists_filters {raw out : PyJson} (h : filters lib raw = .ok out) :
    ∃ j, ofJson j = out := by
  cases raw with
  | null => exact ⟨.null, Except.ok.inj h⟩
  | arr items =>
    obtain ⟨-, -, h⟩ := bind_eq_ok.mp h
    obtain ⟨ys, hys, h⟩ := bind_eq_ok.mp h
    obtain ⟨js, hjs⟩ := exists_ofItems (forall_of_mapM (fun x _ y hy => exists_filterJson hy) hys)
    exact ⟨.arr js, by rw [ofJson, hjs]; exact Except.ok.inj h⟩
  | _ => cases h

/-- The accepted changes hold real strings and real JSON only. -/
theorem exists_changes {items done out : Fields} (h : changedFields lib done items = .ok out)
    (hdone : ∀ f ∈ done, (∃ key, PyStr.ofString key = f.1) ∧ ∃ j, ofJson j = f.2) :
    ∀ f ∈ out, (∃ key, PyStr.ofString key = f.1) ∧ ∃ j, ofJson j = f.2 := by
  induction items generalizing done with
  | nil =>
    rw [← Except.ok.inj h]
    exact hdone
  | cons f rest ih =>
    obtain ⟨key, hkey, h⟩ := bind_eq_ok.mp h
    obtain ⟨x, hx, h⟩ := bind_eq_ok.mp h
    apply ih h
    intro g hg
    rcases mem_setItem hg with rfl | hg
    · exact ⟨exists_fieldName hkey, exists_value hx⟩
    · exact hdone g hg

/-- An accepted instant is a real string. -/
theorem exists_timestamp {raw : PyJson} {s : PyStr} (h : timestamp lib raw = .ok s) :
    ∃ text, PyStr.ofString text = s := by
  obtain ⟨raw', -, h⟩ := bind_eq_ok.mp h
  split at h
  · cases h
  · cases h
  · cases h
  · exact ⟨_, Except.ok.inj h⟩

/-- The accepted expectation is real JSON. -/
theorem exists_expected {raw out : PyJson} {rows : ℤ} {names : Option (List PyStr)}
    (h : expectedModified lib raw rows names = .ok out) : ∃ j, ofJson j = out := by
  unfold expectedModified at h
  split at h
  · exact ⟨.null, Except.ok.inj h⟩
  · obtain ⟨s, hs, h⟩ := bind_eq_ok.mp h
    obtain ⟨-, -, h⟩ := bind_eq_ok.mp h
    obtain ⟨text, rfl⟩ := exists_timestamp hs
    exact ⟨.str text, Except.ok.inj h⟩

/-- A payload that passes its checks can be written as text. -/
theorem exists_document_of_accepts {payload : Fields} {dryRun : Bool} {parts : Payload}
    (h : Accepts lib payload dryRun parts) : ∃ document : Document, document.Describes parts := by
  obtain ⟨doctype, hdoctype⟩ := exists_doctype h.doctype
  obtain ⟨names, hnames⟩ := exists_names h.names
  obtain ⟨filters, hfilters⟩ := exists_filters h.filters
  obtain ⟨expected, hexpected⟩ := exists_expected h.expected
  obtain ⟨reason, hreason⟩ := exists_trimmedText h.reason
  have hraw := h.changes
  unfold DataUpdateAuthoring.changes at hraw
  split at hraw
  · obtain ⟨-, -, hraw⟩ := bind_eq_ok.mp hraw
    obtain ⟨changes, hchanges⟩ := exists_ofFields (exists_changes hraw nofun)
    exact ⟨⟨doctype, names, filters, changes, expected, parts.rows, reason⟩,
      hdoctype, hnames, hfilters, hchanges, hexpected, rfl, hreason⟩
  · cases hraw

/-! ## Payloads and commands -/

/-- The parts of a payload escape in the order in which they are read. -/
theorem escapes_payloadParts {payload : Fields} {dryRun : Bool} :
    escapes (payloadParts lib payload dryRun) = true ↔ BreaksPayload lib payload dryRun := by
  simp only [payloadParts, escapes_bind, escapes_checkContract, escapes_maximumRows, escapes_require,
    escapes_documentNames, escapes_filters, escapes_changes, escapes_expectedModified,
    escapes_doctype, escapes_trimmedText, require_eq_ok, Bool.false_eq_true, false_or, exists_const,
    pure, Except.pure, escapes_ok, and_false, or_false, BreaksPayload, isOk_iff, exists_and_right,
    or_assoc]

/-- The size check of an accepted payload cannot escape: every part of it is real JSON. -/
theorem escapes_encoded {payload : Fields} {dryRun : Bool} {parts : Payload}
    (h : Accepts lib payload dryRun parts) : escapes (encoded R (parts.fields dryRun)) = false := by
  obtain ⟨document, hdocument⟩ := exists_document_of_accepts h
  rw [encoded, ← hdocument.ofFields, toFields?_ofFields]
  rfl

/-- A payload escapes exactly through one of its parts. -/
theorem escapes_normalizePayload {raw : PyJson} {dryRun : Bool} :
    escapes (normalizePayload lib R raw dryRun) = true ↔
      ∃ payload, raw = .obj payload ∧ BreaksPayload lib payload dryRun := by
  cases raw with
  | obj payload =>
    rw [normalizePayload, escapes_bind, escapes_payloadParts]
    simp only [PyJson.obj.injEq, exists_eq_left']
    constructor
    · rintro (h | ⟨parts, hparts, h⟩)
      · exact h
      · rw [escapes_bind, escapes_encoded (payloadParts_eq_ok.mp hparts)] at h
        simp [escapes_bind, pure, Except.pure] at h
    · exact .inl
  | _ =>
    constructor
    · intro h
      cases h
    · rintro ⟨payload, h, -⟩
      cases h

/-- A command escapes exactly through its payload, once its operation is known. -/
theorem escapes_normalizeCommand {operation : String} {raw : PyJson} {dryRun : Bool} :
    escapes (normalizeCommand lib R operation raw dryRun) = true ↔
      BreaksCommand lib operation raw dryRun := by
  cases raw with
  | obj command =>
    simp only [normalizeCommand]
    split
    · rename_i hshape
      rw [Bool.and_eq_true, List.contains_iff_mem] at hshape
      simp only [escapes_bind, escapes_policyId, Bool.false_eq_true, false_or,
        escapes_normalizePayload, pure, Except.pure, escapes_ok, and_false, exists_false, or_false,
        BreaksCommand, PyJson.obj.injEq, isOk_iff]
      constructor
      · rintro ⟨policy, hpolicy, payload, hpayload, hbreaks⟩
        exact ⟨command, payload, rfl, hshape.1, hshape.2, ⟨policy, hpolicy⟩, hpayload, hbreaks⟩
      · rintro ⟨_, payload, rfl, -, -, ⟨policy, hpolicy⟩, hpayload, hbreaks⟩
        exact ⟨policy, hpolicy, payload, hpayload, hbreaks⟩
    · rename_i hshape
      rw [Bool.and_eq_true, List.contains_iff_mem] at hshape
      constructor
      · intro h
        cases h
      · rintro ⟨_, payload, heq, hoperation, hkeys, -⟩
        cases heq
        exact absurd ⟨hoperation, hkeys⟩ hshape
  | _ =>
    constructor
    · intro h
      cases h
    · rintro ⟨command, payload, h, -⟩
      cases h

end DataUpdateAuthoring

namespace LifecycleAuthoring

variable {lib : StrLibrary}

/-! ## Lifecycle payloads -/

/-- A failed check of the lifecycle authoring is a contract error. -/
@[simp] theorem escapes_require (condition : Bool) : escapes (require condition) = false := by
  cases condition <;> rfl

/-- `idna` errors of a domain are caught. -/
theorem escapes_domain (raw : PyJson) : escapes (domain lib raw) = false := by
  unfold domain
  split
  · split
    · split <;> rfl
    · rfl
  · rfl

/-- The timeout is compared as an integer and never escapes. -/
theorem escapes_timeout (payload : Fields) : escapes (timeout payload) = false := by
  unfold timeout
  split
  · rfl
  · split <;> rfl
  · rfl

/-- The inventory digest is matched against a pattern and is never encoded. -/
theorem escapes_inventoryDigest (payload : Fields) : escapes (inventoryDigest payload) = false := by
  unfold inventoryDigest
  split
  · rfl
  · split <;> rfl
  · rfl

/-- The fields every site operation has never escape. -/
theorem escapes_base (payload : Fields) : escapes (base lib payload) = false := by
  rw [← Bool.not_eq_true]
  simp [base, escapes_bind, escapes_timeout, escapes_inventoryDigest, escapes_domain, pure,
    Except.pure]

/-- The lifecycle texts are measured in characters, so nothing is encoded. -/
theorem escapes_trimmedText (value : PyJson) (minimum maximum : ℕ) :
    escapes (trimmedText value minimum maximum) = false := by
  unfold trimmedText
  split
  · split <;> rfl
  · rfl

/-- An absent optional text is skipped, a given one is measured in characters. -/
theorem escapes_optionalText (value : PyJson) (minimum maximum : ℕ) :
    escapes (optionalText value minimum maximum) = false := by
  unfold optionalText
  split
  · rfl
  · exact escapes_trimmedText _ _ _

/-- A flag is compared with the two booleans and never escapes. -/
theorem escapes_flag (payload : Fields) (name : String) (default : Bool) :
    escapes (flag payload name default) = false := by
  unfold flag
  split <;> rfl

/-- The flags and texts of a backup never escape. -/
theorem escapes_backupFields (payload : Fields) : escapes (backupFields payload) = false := by
  rw [← Bool.not_eq_true]
  simp [backupFields, escapes_bind, escapes_trimmedText, escapes_optionalText, escapes_flag, pure,
    Except.pure]

/-- The fields of a site backup never escape. -/
theorem escapes_siteBackupFields (payload : Fields) :
    escapes (siteBackupFields payload) = false := by
  rw [← Bool.not_eq_true]
  simp [siteBackupFields, escapes_bind, escapes_flag, pure, Except.pure]

/-- The fields of a deletion never escape. -/
theorem escapes_deleteFields (payload : Fields) : escapes (deleteFields payload) = false := by
  have hdays : escapes (quarantineDays payload) = false := by
    unfold quarantineDays
    split
    · rfl
    · split <;> rfl
    · rfl
  have hpurge : escapes (checkPurge payload) = false := by
    unfold checkPurge
    split <;> rfl
  rw [← Bool.not_eq_true]
  simp [deleteFields, escapes_bind, hdays, hpurge, pure, Except.pure]

/-- The configuration key is matched against a pattern and is never encoded. -/
theorem escapes_configKey (payload : Fields) : escapes (configKey lib payload) = false := by
  unfold configKey
  split
  · split <;> rfl
  · rfl

/-- The length of a configuration value is taken of its encoding. -/
theorem escapes_configText {s : PyStr} : escapes (configText s) = true ↔ Unencodable s := by
  unfold configText Unencodable
  split
  · rename_i hshape
    constructor
    · intro h
      cases h
    · rintro ⟨hne, hstripped, -⟩
      rcases hshape with h | h
      · exact absurd h hne
      · rw [hstripped] at h
        cases h
  · rename_i hshape
    rw [not_or, Bool.not_eq_false] at hshape
    split
    · rename_i hencoded
      rw [PyStr.encode?_eq_none] at hencoded
      exact ⟨fun _ => ⟨hshape.1, hshape.2, hencoded⟩, fun _ => rfl⟩
    · rename_i text hencoded
      have hclean : s.hasSurrogate ≠ true := by
        intro h
        rw [PyStr.encode?_eq_none.mpr h] at hencoded
        cases hencoded
      constructor
      · intro h
        split at h <;> cases h
      · exact fun h => absurd h.2.2 hclean

/-- A string value of the configuration is encoded to bound its size. -/
theorem escapes_configValue {payload : Fields} : escapes (configValue payload) = true ↔
    ∃ s, field payload "value" = .str s ∧ Unencodable s := by
  unfold configValue
  split
  · rename_i hvalue
    rw [hvalue]
    simp
  · rename_i hvalue
    rw [hvalue]
    split <;> simp [fail, escapes]
  · rename_i s hvalue
    rw [hvalue, escapes_configText]
    simp
  · rename_i hother
    constructor
    · intro h
      cases h
    · rintro ⟨s, hs, -⟩
      exact absurd hs (hother s)

/-- The value is reached only past an accepted key. -/
theorem escapes_configFields {payload : Fields} : escapes (configFields lib payload) = true ↔
    (configKey lib payload).isOk = true ∧ ∃ s, field payload "value" = .str s ∧ Unencodable s := by
  simp only [configFields, escapes_bind, escapes_configKey, escapes_configValue,
    escapes_trimmedText, Bool.false_eq_true, false_or, pure, Except.pure, escapes_ok, and_false,
    or_false, exists_false, DataUpdateAuthoring.isOk_iff, exists_and_right]

/-- The configuration update is the only operation whose own fields escape. -/
theorem escapes_extraFields {operation : String} {payload : Fields} :
    escapes (extraFields lib operation payload) = true ↔ operation = "site.config.update"
      ∧ (configKey lib payload).isOk = true
      ∧ ∃ s, field payload "value" = .str s ∧ Unencodable s := by
  unfold extraFields
  split
  · rename_i hbackup
    have hne : operation ≠ "site.config.update" := by
      intro h
      rw [h] at hbackup
      exact absurd hbackup (by decide)
    simp [escapes_backupFields, hne]
  · split
    · rename_i hbackup
      have hne : operation ≠ "site.config.update" := by
        rw [hbackup]
        decide
      simp [escapes_siteBackupFields, hne]
    · split
      · rename_i hdelete
        have hne : operation ≠ "site.config.update" := by
          rw [hdelete]
          decide
        simp [escapes_deleteFields, hne]
      · split
        · rename_i hconfig
          rw [escapes_configFields]
          exact ⟨fun h => ⟨hconfig, h⟩, fun h => h.2⟩
        · rename_i hconfig
          simp [hconfig]

/-- The confirmation is compared as text and never escapes. -/
theorem escapes_confirmationFields (operation : String) (payload normalized : Fields) :
    escapes (confirmationFields lib operation payload normalized) = false := by
  unfold confirmationFields
  split
  · rw [← Bool.not_eq_true, escapes_bind, escapes_domain]
    rintro (h | ⟨confirmation, -, h⟩)
    · cases h
    · split at h
      · split at h <;> cases h
      · cases h
  · rfl

/-- The value of a configuration change reaches the encoder with a surrogate. -/
def BreaksLifecycle (lib : StrLibrary) (operation : String) (raw : PyJson) : Prop :=
  operation = "site.config.update" ∧ ∃ payload, raw = .obj payload
    ∧ (checkNames payload (common ++ extraNames operation)).isOk = true
    ∧ (base lib payload).isOk = true ∧ (configKey lib payload).isOk = true
    ∧ ∃ s, field payload "value" = .str s ∧ Unencodable s

/-- A lifecycle payload escapes exactly through the value of a configuration update. -/
theorem escapes_validate {operation : String} {raw : PyJson} :
    escapes (validate lib operation raw) = true ↔ BreaksLifecycle lib operation raw := by
  cases raw with
  | obj payload =>
    simp only [validate, BreaksLifecycle, PyJson.obj.injEq, exists_eq_left']
    split
    · have hnames : escapes (checkNames payload (common ++ extraNames operation)) = false :=
        escapes_require _
      simp only [normalize, escapes_bind, hnames, escapes_base, escapes_extraFields,
        escapes_confirmationFields, Bool.false_eq_true, false_or, pure, Except.pure, escapes_ok,
        and_false, exists_false, or_false, DataUpdateAuthoring.isOk_iff]
      constructor
      · rintro ⟨u, hu, fields, hfields, hoperation, hkey, hvalue⟩
        exact ⟨hoperation, ⟨u, hu⟩, ⟨fields, hfields⟩, hkey, hvalue⟩
      · rintro ⟨hoperation, ⟨u, hu⟩, ⟨fields, hfields⟩, hkey, hvalue⟩
        exact ⟨u, hu, fields, hfields, hoperation, hkey, hvalue⟩
    · rename_i hoperation
      constructor
      · intro h
        cases h
      · rintro ⟨rfl, -⟩
        exact absurd (by decide) hoperation
  | _ =>
    constructor
    · intro h
      cases h
    · rintro ⟨-, payload, h, -⟩
      cases h

end LifecycleAuthoring

/-- The normalizers raise nothing but `OperationAuthoringError` exactly on the payloads whose first
check that is not passed is one of the contract. -/
theorem normalizers_contract_iff (lib : TextLibrary) (R : Runtime) :
    (∀ operation raw dryRun,
      escapes (DataUpdateAuthoring.normalizeCommand lib R operation raw dryRun) = false
        ↔ ¬DataUpdateAuthoring.BreaksCommand lib operation raw dryRun)
    ∧ ∀ operation raw, escapes (LifecycleAuthoring.validate lib.toStrLibrary operation raw) = false
        ↔ ¬LifecycleAuthoring.BreaksLifecycle lib.toStrLibrary operation raw := by
  refine ⟨fun operation raw dryRun => ?_, fun operation raw => ?_⟩
  · rw [← DataUpdateAuthoring.escapes_normalizeCommand (R := R), Bool.not_eq_true]
  · rw [← LifecycleAuthoring.escapes_validate, Bool.not_eq_true]

/-! ## Payloads that break -/

/-- The exception, if there is one. -/
def AuthoringFault.fault? {α : Type} : Except AuthoringFault α → Option AuthoringFault
  | .ok _ => none
  | .error fault => some fault

namespace Sample

open DataUpdateAuthoring

/-- A preview that selects its documents by a filter. -/
def filtered (operator' : PyJson) (reason : PyStr) : PyJson :=
  .obj (commandFields (.ofString "local.policy") [(.ofString "contract_version", .str (.ofString "1.0")),
    (.ofString "doctype", .str (.ofString "Sales Invoice")), (.ofString "document_names", .null),
    (.ofString "filters", .arr [.obj [(.ofString "field", .str (.ofString "status")),
      (.ofString "operator", operator'), (.ofString "value", .int 1)]]),
    (.ofString "changes", .obj [(.ofString "status", .str (.ofString "Paid"))]),
    (.ofString "expected_modified", .null), (.ofString "dry_run", .bool true),
    (.ofString "maximum_rows", .int 2), (.ofString "reason", .str reason)])

/-- What `json.loads` makes of an escaped high surrogate without its low one. -/
def loneSurrogate : PyStr := [Fin.ofNat 0x110000 0xD800]

def configChange : PyJson :=
  .obj [(.ofString "domain", .str (.ofString "shop.example.com")),
    (.ofString "key", .str (.ofString "developer_mode")), (.ofString "value", .str loneSurrogate),
    (.ofString "reason", .str (.ofString "maintenance"))]

end Sample

/-- An operator that is an array, a reason with an unpaired surrogate, and a configuration value
with one. -/
theorem normalizers_break :
    fault? (DataUpdateAuthoring.normalizeCommand DataUpdateAuthoring.Sample.texts
        LifecycleAuthoring.Sample.runtime "data.update"
        (Sample.filtered (.arr []) (.ofString "month end")) true) = some .typeError
      ∧ fault? (DataUpdateAuthoring.normalizeCommand DataUpdateAuthoring.Sample.texts
          LifecycleAuthoring.Sample.runtime "data.update"
          (Sample.filtered (.str (.ofString "eq")) Sample.loneSurrogate) true)
        = some .unicodeEncodeError
      ∧ fault? (LifecycleAuthoring.validate LifecycleAuthoring.Sample.codecs "site.config.update"
          Sample.configChange) = some .unicodeEncodeError := by
  decide +kernel

end FrappeController
