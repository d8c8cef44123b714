import FrappeController.Security

/-!
# What decoding a canonical text gives back

`json.dumps(value, sort_keys=True)` keeps a value up to the order of the keys, so
`json.loads` of the text gives the value with its keys in order (`Json.sorted`). The checks and
the reads of the model do not depend on that order.
-/

namespace FrappeController

/-! ## Sorting by key -/

section SortByKey

variable {α : Type}

/-- Inserting a field adds it and nothing else. -/
theorem perm_insertByKey (x : String × α) (xs : List (String × α)) :
    (insertByKey x xs).Perm (x :: xs) := by
  induction xs with
  | nil => exact List.Perm.refl _
  | cons y rest ih =>
    unfold insertByKey
    split
    · exact List.Perm.refl _
    · exact (ih.cons y).trans (List.Perm.swap x y rest)

/-- Sorting keeps the fields. -/
theorem perm_sortByKey (xs : List (String × α)) : (sortByKey xs).Perm xs := by
  induction xs with
  | nil => exact List.Perm.refl _
  | cons x rest ih => exact (perm_insertByKey x _).trans (ih.cons x)

/-- A field is there after sorting when it was there before. -/
@[simp] theorem mem_sortByKey {xs : List (String × α)} {x : String × α} :
    x ∈ sortByKey xs ↔ x ∈ xs :=
  (perm_sortByKey xs).mem_iff

/-- With distinct keys a lookup finds the one field of that key. -/
theorem lookup_eq_some_iff {xs : List (String × α)} (hkeys : (xs.map Prod.fst).Nodup)
    {key : String} {value : α} : xs.lookup key = some value ↔ (key, value) ∈ xs := by
  induction xs with
  | nil => simp
  | cons x rest ih =>
    obtain ⟨name, old⟩ := x
    obtain ⟨hfresh, hrest⟩ := List.nodup_cons.mp hkeys
    rw [List.lookup_cons, List.mem_cons]
    by_cases hname : key = name
    · subst hname
      have hother : (key, value) ∉ rest := fun hmem => hfresh (List.mem_map.mpr ⟨_, hmem, rfl⟩)
      simp [hother, eq_comm]
    · have hskip : (key == name) = false := beq_false_of_ne hname
      simp [hskip, hname, ih hrest]

/-- The order of the fields does not matter to a lookup. -/
theorem lookup_sortByKey {xs : List (String × α)} (hkeys : (xs.map Prod.fst).Nodup)
    (key : String) : (sortByKey xs).lookup key = xs.lookup key := by
  have hsorted : ((sortByKey xs).map Prod.fst).Nodup :=
    (((perm_sortByKey xs).map Prod.fst).nodup_iff).mpr hkeys
  ext value
  rw [lookup_eq_some_iff hsorted, lookup_eq_some_iff hkeys, mem_sortByKey]

/-- A field is inserted in its place. -/
theorem pairwise_insertByKey {x : String × α} {xs : List (String × α)}
    (hxs : xs.Pairwise fun a b => a.1 < b.1) (hx : ∀ y ∈ xs, x.1 ≠ y.1) :
    (insertByKey x xs).Pairwise fun a b => a.1 < b.1 := by
  induction xs with
  | nil => exact List.pairwise_singleton _ _
  | cons y rest ih =>
    obtain ⟨hy, hrest⟩ := List.pairwise_cons.mp hxs
    unfold insertByKey
    by_cases hlt : x.1 < y.1
    · rw [if_pos hlt]
      refine List.pairwise_cons.mpr ⟨fun z hz => ?_, hxs⟩
      rcases List.mem_cons.mp hz with rfl | hz
      · exact hlt
      · exact String.lt_trans hlt (hy z hz)
    · rw [if_neg hlt]
      refine List.pairwise_cons.mpr
        ⟨fun z hz => ?_, ih hrest fun z hz => hx z (List.mem_cons_of_mem _ hz)⟩
      rcases List.mem_cons.mp ((perm_insertByKey x rest).mem_iff.mp hz) with rfl | hz
      · -- the new key is not the head's and not before it
        by_contra hle
        exact hx y List.mem_cons_self
          (String.le_antisymm (String.not_lt.mp hle) (String.not_lt.mp hlt))
      · exact hy z hz

/-- Sorted fields whose keys differ are in strict order. -/
theorem pairwise_sortByKey {xs : List (String × α)} (hkeys : (xs.map Prod.fst).Nodup) :
    (sortByKey xs).Pairwise fun a b => a.1 < b.1 := by
  induction xs with
  | nil => exact List.Pairwise.nil
  | cons x rest ih =>
    obtain ⟨hfresh, hrest⟩ := List.nodup_cons.mp hkeys
    refine pairwise_insertByKey (ih hrest) fun y hy hsame => hfresh ?_
    rw [hsame]
    exact List.mem_map_of_mem (mem_sortByKey.mp hy)

/-- The fields with distinct keys have one order. -/
theorem sortByKey_eq_of_perm {xs ys : List (String × α)} (hkeys : (xs.map Prod.fst).Nodup)
    (hperm : ys.Perm xs) (hys : ys.Pairwise fun a b => a.1 < b.1) : sortByKey xs = ys := by
  refine List.Perm.eq_of_pairwise ?_ (pairwise_sortByKey hkeys) hys
    ((perm_sortByKey xs).trans hperm.symm)
  intro a b _ _ hab hba
  exact absurd (String.lt_trans hab hba) (String.lt_irrefl _)

/-- Sorting twice is sorting once. -/
theorem sortByKey_sortByKey {xs : List (String × α)} (hkeys : (xs.map Prod.fst).Nodup) :
    sortByKey (sortByKey xs) = sortByKey xs := by
  have hsorted : ((sortByKey xs).map Prod.fst).Nodup :=
    (((perm_sortByKey xs).map Prod.fst).nodup_iff).mpr hkeys
  exact sortByKey_eq_of_perm hsorted (List.Perm.refl _) (pairwise_sortByKey hkeys)

/-- Leaving fields out commutes with sorting. -/
theorem filter_sortByKey {xs : List (String × α)} (hkeys : (xs.map Prod.fst).Nodup)
    (p : String × α → Bool) : (sortByKey xs).filter p = sortByKey (xs.filter p) := by
  have hfilter : ((xs.filter p).map Prod.fst).Nodup :=
    hkeys.sublist (List.filter_sublist.map Prod.fst)
  exact (sortByKey_eq_of_perm hfilter ((perm_sortByKey xs).filter p)
    ((pairwise_sortByKey hkeys).filter p)).symm

/-- Writing the values out keeps the order of the keys. -/
theorem map_sortByKey {β : Type} (f : α → β) (xs : List (String × α)) :
    (sortByKey xs).map (fun x => (x.1, f x.2)) = sortByKey (xs.map fun x => (x.1, f x.2)) := by
  have hinsert : ∀ (x : String × α) (ys : List (String × α)),
      (insertByKey x ys).map (fun x => (x.1, f x.2)) =
        insertByKey (x.1, f x.2) (ys.map fun x => (x.1, f x.2)) := by
    intro x ys
    induction ys with
    | nil => rfl
    | cons y rest ih =>
      rw [List.map_cons]
      unfold insertByKey
      by_cases hlt : x.1 < y.1
      · rw [if_pos hlt, if_pos hlt]
        rfl
      · rw [if_neg hlt, if_neg hlt, List.map_cons, ih]
  induction xs with
  | nil => rfl
  | cons x rest ih =>
    show (insertByKey x (sortByKey rest)).map _ = insertByKey _ (sortByKey _)
    rw [hinsert, ih]

end SortByKey

/-- An array is printed with its items between commas. -/
theorem Runtime.dumps_arr (R : Runtime) (items : List Json) :
    R.dumps (.arr items) = '[' :: (commaSeparated (R.dumpsItems items) ++ [']']) := rfl

/-- An object is printed with its sorted fields between commas. -/
theorem Runtime.dumps_obj (R : Runtime) (fields : List (String × Json)) :
    R.dumps (.obj fields) =
      '{' :: (commaSeparated ((sortByKey (R.dumpsFields fields)).map fun f =>
        quote f.1 ++ ':' :: f.2) ++ ['}']) := rfl

/-! ## Decoded values -/

namespace Json

mutual

/-- The value with the keys of its objects in order. -/
def sorted : Json → Json
  | .arr items => .arr (sortedItems items)
  | .obj fields => .obj (sortByKey (sortedFields fields))
  | value => value

def sortedItems : List Json → List Json
  | [] => []
  | x :: xs => sorted x :: sortedItems xs

def sortedFields : List (String × Json) → List (String × Json)
  | [] => []
  | (key, x) :: xs => (key, sorted x) :: sortedFields xs

end

/-- Sorting inside the values keeps the keys. -/
theorem keys_sortedFields (fields : List (String × Json)) :
    (sortedFields fields).map Prod.fst = fields.map Prod.fst := by
  induction fields with
  | nil => rfl
  | cons f rest ih => simp [sortedFields, ih]

/-- A field is looked up with its value sorted. -/
theorem lookup_sortedFields (fields : List (String × Json)) (key : String) :
    (sortedFields fields).lookup key = (fields.lookup key).map sorted := by
  induction fields with
  | nil => rfl
  | cons f rest ih =>
    obtain ⟨name, value⟩ := f
    rw [sortedFields, List.lookup_cons, List.lookup_cons, ih]
    cases key == name <;> rfl

/-- A decoded object reads as the object that was encoded. -/
theorem getField_sorted {fields : List (String × Json)} (hkeys : (Json.keys fields).Nodup)
    (key : String) : get (sortByKey (sortedFields fields)) key = (get fields key).sorted := by
  have hsorted : ((sortedFields fields).map Prod.fst).Nodup := by
    rw [keys_sortedFields]
    exact hkeys
  rw [get, get, lookup_sortByKey hsorted, lookup_sortedFields]
  cases fields.lookup key <;> rfl

end Json

namespace Json

/-! ## Values with distinct keys -/

mutual

/-- The keys of every object are pairwise different, as those of a `dict` are. -/
def Distinct : Json → Prop
  | .arr items => DistinctItems items
  | .obj fields => (keys fields).Nodup ∧ DistinctFields fields
  | _ => True

def DistinctItems : List Json → Prop
  | [] => True
  | x :: xs => Distinct x ∧ DistinctItems xs

def DistinctFields : List (String × Json) → Prop
  | [] => True
  | (_, x) :: xs => Distinct x ∧ DistinctFields xs

end

/-- The keys inside fields differ when they differ inside each value. -/
theorem distinctFields_iff {fields : List (String × Json)} :
    DistinctFields fields ↔ ∀ f ∈ fields, f.2.Distinct := by
  induction fields with
  | nil => simp [DistinctFields]
  | cons f rest ih => simp [DistinctFields, ih]

/-- Sorting inside fields is sorting each value. -/
theorem sortedFields_eq_map (fields : List (String × Json)) :
    sortedFields fields = fields.map fun f => (f.1, f.2.sorted) := by
  induction fields with
  | nil => rfl
  | cons f rest ih => rw [sortedFields, ih, List.map_cons]

end Json

/-- Printing fields is printing each value. -/
theorem Runtime.dumpsFields_eq_map (R : Runtime) (fields : List (String × Json)) :
    R.dumpsFields fields = fields.map fun f => (f.1, R.dumps f.2) := by
  induction fields with
  | nil => rfl
  | cons f rest ih => rw [Runtime.dumpsFields, ih, List.map_cons]

section DumpsSorted

variable (R : Runtime)

mutual

/-- The text does not depend on the order of the keys. -/
theorem Runtime.dumps_sorted : ∀ value : Json, value.Distinct → R.dumps value.sorted = R.dumps value
  | .null | .bool _ | .int _ | .float _ | .str _ => fun _ => rfl
  | .arr items => by
    intro h
    rw [Json.Distinct] at h
    rw [Json.sorted, R.dumps_arr, R.dumps_arr, Runtime.dumpsItems_sorted items h]
  | .obj fields => by
    intro h
    rw [Json.Distinct] at h
    obtain ⟨hkeys, hfields⟩ := h
    have hsorted : ((Json.sortedFields fields).map Prod.fst).Nodup := by
      rw [Json.keys_sortedFields]
      exact hkeys
    have hdumps : ((R.dumpsFields fields).map Prod.fst).Nodup := by
      rw [R.dumpsFields_eq_map, List.map_map]
      exact hkeys
    have htexts : sortByKey (R.dumpsFields (sortByKey (Json.sortedFields fields))) =
        sortByKey (R.dumpsFields fields) := by
      rw [R.dumpsFields_eq_map, map_sortByKey, ← R.dumpsFields_eq_map,
        Runtime.dumpsFields_sorted fields hfields, sortByKey_sortByKey hdumps]
    rw [Json.sorted, R.dumps_obj, R.dumps_obj, htexts]

/-- Items have one text, sorted or not. -/
theorem Runtime.dumpsItems_sorted : ∀ items : List Json, Json.DistinctItems items →
    R.dumpsItems (Json.sortedItems items) = R.dumpsItems items
  | [] => fun _ => rfl
  | x :: rest => by
    intro h
    rw [Json.DistinctItems] at h
    rw [Json.sortedItems, Runtime.dumpsItems, Runtime.dumpsItems, Runtime.dumps_sorted x h.1,
      Runtime.dumpsItems_sorted rest h.2]

/-- Fields have one text, sorted inside or not. -/
theorem Runtime.dumpsFields_sorted : ∀ fields : List (String × Json), Json.DistinctFields fields →
    R.dumpsFields (Json.sortedFields fields) = R.dumpsFields fields
  | [] => fun _ => rfl
  | (key, x) :: rest => by
    intro h
    rw [Json.DistinctFields] at h
    rw [Json.sortedFields, Runtime.dumpsFields, Runtime.dumpsFields, Runtime.dumps_sorted x h.1,
      Runtime.dumpsFields_sorted rest h.2]

end

end DumpsSorted

/-! ## Checks on decoded values -/

section ValidateJson

variable (R : Runtime) (rejectSensitive rejectRouting : Bool)

/-- Items are valid when each is. -/
theorem validateItems_isOk (items : List Json) :
    (validateItems R rejectSensitive rejectRouting items).isOk =
      items.all fun x => (validateJson R rejectSensitive rejectRouting x).isOk := by
  induction items with
  | nil => rfl
  | cons x rest ih =>
    rw [validateItems, List.all_cons, ← ih]
    cases validateJson R rejectSensitive rejectRouting x <;> rfl

/-- Fields are valid when each key and each value is. -/
theorem validateFields_isOk (fields : List (String × Json)) :
    (validateFields R rejectSensitive rejectRouting fields).isOk =
      fields.all fun f => (validateKey R rejectSensitive rejectRouting f.1).isOk
        && (validateJson R rejectSensitive rejectRouting f.2).isOk := by
  induction fields with
  | nil => rfl
  | cons f rest ih =>
    obtain ⟨key, value⟩ := f
    rw [validateFields, List.all_cons, ← ih]
    cases validateKey R rejectSensitive rejectRouting key with
    | error e => rfl
    | ok _ => cases validateJson R rejectSensitive rejectRouting value <;> rfl

/-- What holds of all fields holds of them sorted. -/
theorem all_sortByKey {α : Type} (p : String × α → Bool) (xs : List (String × α)) :
    (sortByKey xs).all p = xs.all p := by
  rw [Bool.eq_iff_iff, List.all_eq_true, List.all_eq_true]
  simp only [mem_sortByKey]

mutual

/-- The order of the keys does not matter to `validate_json`. -/
theorem validateJson_sorted : ∀ value : Json,
    (validateJson R rejectSensitive rejectRouting value.sorted).isOk =
      (validateJson R rejectSensitive rejectRouting value).isOk
  | .null | .bool _ | .int _ | .float _ | .str _ => rfl
  | .arr items => by
    rw [Json.sorted, validateJson, validateJson, validateItems_isOk, validateItems_isOk]
    exact all_sortedItems items
  | .obj fields => by
    rw [Json.sorted, validateJson, validateJson, validateFields_isOk, validateFields_isOk,
      all_sortByKey]
    exact all_sortedFields fields

/-- Items are valid sorted as they are unsorted. -/
theorem all_sortedItems : ∀ items : List Json,
    ((Json.sortedItems items).all fun x => (validateJson R rejectSensitive rejectRouting x).isOk) =
      items.all fun x => (validateJson R rejectSensitive rejectRouting x).isOk
  | [] => rfl
  | x :: rest => by
    rw [Json.sortedItems, List.all_cons, List.all_cons, validateJson_sorted x, all_sortedItems rest]

/-- Fields are valid sorted inside as they are unsorted. -/
theorem all_sortedFields : ∀ fields : List (String × Json),
    ((Json.sortedFields fields).all fun f => (validateKey R rejectSensitive rejectRouting f.1).isOk
        && (validateJson R rejectSensitive rejectRouting f.2).isOk) =
      fields.all fun f => (validateKey R rejectSensitive rejectRouting f.1).isOk
        && (validateJson R rejectSensitive rejectRouting f.2).isOk
  | [] => rfl
  | (key, x) :: rest => by
    rw [Json.sortedFields, List.all_cons, List.all_cons, validateJson_sorted x,
      all_sortedFields rest]

end

end ValidateJson

/-! ## Comparisons of decoded values -/

namespace Json

/-- Fields are equal in Python when each is found with an equal value. -/
theorem pyEqFields_eq_true {xs ys : List (String × Json)} :
    pyEqFields xs ys = true ↔ ∀ f ∈ xs, ∃ y, ys.lookup f.1 = some y ∧ pyEq f.2 y = true := by
  induction xs with
  | nil => simp [pyEqFields]
  | cons f rest ih =>
    obtain ⟨key, x⟩ := f
    rw [pyEqFields, Bool.and_eq_true, List.forall_mem_cons, ih]
    cases ys.lookup key <;> simp

/-- A list is equal in Python to one with equal items. -/
theorem pyEqItems_map {f : Json → Json} {items : List Json}
    (h : ∀ x ∈ items, pyEq (f x) x = true) : pyEqItems (items.map f) items = true := by
  induction items with
  | nil => rfl
  | cons x rest ih =>
    rw [List.forall_mem_cons] at h
    rw [List.map_cons, pyEqItems, h.1, ih h.2]
    rfl

/-- Sorting inside items is sorting each. -/
theorem sortedItems_eq_map (items : List Json) : sortedItems items = items.map sorted := by
  induction items with
  | nil => rfl
  | cons x rest ih => rw [sortedItems, ih, List.map_cons]

section PyEqSorted

variable (R : Runtime)

/-- The number is one JSON has, so it equals itself. -/
theorem pyEq_float {x : PyFloat} (h : (validateJson R false false (.float x)).isOk = true) :
    pyEq (.float x) (.float x) = true := by
  cases x with
  | finite q => simp [pyEq, number?]
  | _ => cases h

mutual

/-- A value that JSON can hold equals itself, whatever the order of the keys. -/
theorem pyEq_sorted : ∀ value : Json, value.Distinct →
    (validateJson R false false value).isOk = true → pyEq value.sorted value = true
  | .null | .bool _ | .int _ | .str _ => by
    intro _ _
    simp [sorted, pyEq, number?]
  | .float x => fun _ h => pyEq_float R h
  | .arr items => by
    intro h hvalid
    rw [Distinct] at h
    rw [validateJson] at hvalid
    rw [sorted, pyEq, sortedItems_eq_map]
    exact pyEqItems_map (pyEq_sortedItems items h hvalid)
  | .obj fields => by
    intro h hvalid
    rw [Distinct] at h
    rw [validateJson] at hvalid
    obtain ⟨hkeys, hfields⟩ := h
    have heach := pyEq_sortedFields fields hfields hvalid
    have hlength : (sortByKey (sortedFields fields)).length = fields.length := by
      rw [(perm_sortByKey _).length_eq, sortedFields_eq_map, List.length_map]
    rw [sorted, pyEq, hlength, beq_self_eq_true, Bool.true_and, pyEqFields_eq_true]
    intro f hf
    rw [mem_sortByKey, sortedFields_eq_map] at hf
    obtain ⟨g, hg, rfl⟩ := List.mem_map.mp hf
    exact ⟨g.2, (lookup_eq_some_iff hkeys).mpr hg, heach g hg⟩

/-- Valid items are equal to themselves sorted. -/
theorem pyEq_sortedItems : ∀ items : List Json, DistinctItems items →
    (validateItems R false false items).isOk = true → ∀ x ∈ items, pyEq x.sorted x = true
  | [] => fun _ _ x hx => by cases hx
  | x :: rest => by
    intro h hvalid
    rw [DistinctItems] at h
    rw [validateItems_isOk, List.all_cons, Bool.and_eq_true, ← validateItems_isOk] at hvalid
    rw [List.forall_mem_cons]
    exact ⟨pyEq_sorted x h.1 hvalid.1, pyEq_sortedItems rest h.2 hvalid.2⟩

/-- Valid fields are equal to themselves sorted inside. -/
theorem pyEq_sortedFields : ∀ fields : List (String × Json), DistinctFields fields →
    (validateFields R false false fields).isOk = true → ∀ f ∈ fields, pyEq f.2.sorted f.2 = true
  | [] => fun _ _ f hf => by cases hf
  | (key, x) :: rest => by
    intro h hvalid
    rw [DistinctFields] at h
    rw [validateFields_isOk, List.all_cons, Bool.and_eq_true, ← validateFields_isOk,
      Bool.and_eq_true] at hvalid
    rw [List.forall_mem_cons]
    exact ⟨pyEq_sorted x h.1 hvalid.1.2, pyEq_sortedFields rest h.2 hvalid.2⟩

end

end PyEqSorted

end Json

end FrappeController
