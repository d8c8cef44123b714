import Mathlib.Data.List.Nodup

/-!
# Tables of named rows

A table is the list of its rows in insertion order; a row is found by its name, and a
column update rewrites the rows a predicate selects. Everything a proof needs about an
update is here: the rows it leaves alone, the projections it does not touch, and that it
changes neither the names nor their order.
-/

/-- Rows of a table are identified by their name. -/
class Named (ρ : Type) where
  name : ρ → String

namespace Table

variable {ρ : Type} {β : Type}

/-- Apply `f` to the rows that satisfy `p`. -/
def update (p : ρ → Prop) [DecidablePred p] (f : ρ → ρ) (table : List ρ) : List ρ :=
  table.map fun r => if p r then f r else r

section Update

variable (p : ρ → Prop) [DecidablePred p] (f : ρ → ρ)

@[simp] theorem update_nil : update p f [] = [] := rfl

theorem update_cons (r : ρ) (table : List ρ) :
    update p f (r :: table) = (if p r then f r else r) :: update p f table := rfl

@[simp] theorem length_update (table : List ρ) : (update p f table).length = table.length := by
  simp [update]

theorem mem_update {table : List ρ} {r : ρ} :
    r ∈ update p f table ↔ ∃ q ∈ table, (if p q then f q else q) = r := by
  simp [update]

/-- What an update does not write reads the same everywhere. -/
theorem map_update {g : ρ → β} (hg : ∀ r, g (f r) = g r) (table : List ρ) :
    (update p f table).map g = table.map g := by
  rw [update, List.map_map]
  refine List.map_congr_left fun r _ => ?_
  by_cases hr : p r <;> simp [hr, hg]

/-- A selection by unwritten columns selects the updated versions of the same rows. -/
theorem filter_update {q : ρ → Bool} (hq : ∀ r, q (f r) = q r) (table : List ρ) :
    (update p f table).filter q = update p f (table.filter q) := by
  induction table with
  | nil => rfl
  | cons r table ih =>
    have hr : q (if p r then f r else r) = q r := by
      by_cases h : p r <;> simp [h, hq]
    rw [update_cons, List.filter_cons, List.filter_cons, hr, ih]
    cases q r <;> rfl

/-- A lookup by unwritten columns finds the updated version of the same row. -/
theorem find?_update {q : ρ → Bool} (hq : ∀ r, q (f r) = q r) (table : List ρ) :
    (update p f table).find? q = (table.find? q).map fun r => if p r then f r else r := by
  induction table with
  | nil => rfl
  | cons r table ih =>
    have hr : q (if p r then f r else r) = q r := by
      by_cases h : p r <;> simp [h, hq]
    rw [update_cons, List.find?_cons, List.find?_cons, hr, ih]
    cases q r <;> rfl

/-- An update that selects no row changes nothing. -/
theorem update_of_none {table : List ρ} (h : ∀ r ∈ table, ¬ p r) : update p f table = table := by
  have : ∀ r ∈ table, (if p r then f r else r) = r := fun r hr => if_neg (h r hr)
  rw [update, List.map_congr_left this, List.map_id']

theorem update_append (table table' : List ρ) :
    update p f (table ++ table') = update p f table ++ update p f table' := by
  simp [update]

end Update

section Named

variable [Named ρ]

/-- The row of that name. -/
def get? (table : List ρ) (name : String) : Option ρ :=
  table.find? fun r => Named.name r == name

/-- Write columns of the row of that name. -/
def setValue (name : String) (f : ρ → ρ) (table : List ρ) : List ρ :=
  update (fun r => Named.name r = name) f table

/-- Names identify rows: the primary key of the table. -/
def Unique (table : List ρ) : Prop := (table.map Named.name).Nodup

instance (table : List ρ) : Decidable (Unique table) :=
  inferInstanceAs (Decidable (table.map Named.name).Nodup)

theorem get?_mem {table : List ρ} {name : String} {r : ρ} (h : get? table name = some r) :
    r ∈ table :=
  List.mem_of_find?_eq_some h

theorem get?_name {table : List ρ} {name : String} {r : ρ} (h : get? table name = some r) :
    Named.name r = name := by
  simpa using List.find?_some h

theorem get?_eq_none {table : List ρ} {name : String} :
    get? table name = none ↔ ∀ r ∈ table, Named.name r ≠ name := by
  simp [get?]

/-- Under the primary key, a lookup returns the row one has at hand. -/
theorem get?_of_mem {table : List ρ} (hu : Unique table) {r : ρ} (hr : r ∈ table) :
    get? table (Named.name r) = some r := by
  induction table with
  | nil => cases hr
  | cons q table ih =>
    obtain ⟨hq, hu⟩ := List.nodup_cons.mp hu
    rcases List.mem_cons.mp hr with rfl | hr
    · simp [get?]
    · have hne : Named.name q ≠ Named.name r := fun h =>
        hq (h ▸ List.mem_map_of_mem hr)
      simpa [get?, hne] using ih hu hr

/-- A lookup after rewriting every row finds the rewritten row. -/
theorem get?_map {f : ρ → ρ} (hf : ∀ r, Named.name (f r) = Named.name r) (table : List ρ)
    (name : String) : get? (table.map f) name = (get? table name).map f := by
  simp only [get?, List.find?_map, Function.comp_def, hf]

theorem eq_of_mem {table : List ρ} (hu : Unique table) {r q : ρ} (hr : r ∈ table) (hq : q ∈ table)
    (h : Named.name r = Named.name q) : r = q := by
  have hr' := get?_of_mem hu hr
  rw [h, get?_of_mem hu hq] at hr'
  exact (Option.some.inj hr').symm

/-! A write that may replace a whole row keeps the name of that row. -/

section Replace

variable {name : String} {f : ρ → ρ} (hf : ∀ r, Named.name r = name → Named.name (f r) = name)
include hf

theorem map_name_setValue (table : List ρ) :
    (setValue name f table).map Named.name = table.map Named.name := by
  rw [setValue, update, List.map_map]
  refine List.map_congr_left fun r _ => ?_
  by_cases hr : Named.name r = name
  · simp [hr, hf r hr]
  · simp [hr]

theorem unique_setValue {table : List ρ} : Unique (setValue name f table) ↔ Unique table := by
  rw [Unique, map_name_setValue hf, Unique]

theorem get?_setValue (table : List ρ) (other : String) :
    get? (setValue name f table) other = (get? table other).map fun r =>
      if other = name then f r else r := by
  induction table with
  | nil => rfl
  | cons r table ih =>
    have hhead : Named.name (if Named.name r = name then f r else r) = Named.name r := by
      by_cases hr : Named.name r = name
      · rw [if_pos hr, hf r hr, hr]
      · rw [if_neg hr]
    rw [setValue, update_cons, get?, List.find?_cons, hhead, get?, List.find?_cons]
    cases hother : Named.name r == other with
    | true => simp only [Option.map_some, beq_iff_eq.mp hother]
    | false => exact ih

end Replace

variable {f : ρ → ρ} (hf : ∀ r, Named.name (f r) = Named.name r)
include hf

theorem unique_update {p : ρ → Prop} [DecidablePred p] {table : List ρ} :
    Unique (update p f table) ↔ Unique table := by
  rw [Unique, map_update p f hf, Unique]

theorem get?_setValue_self (table : List ρ) (name : String) :
    get? (setValue name f table) name = (get? table name).map f := by
  rw [get?, setValue, find?_update _ _ (fun r => by rw [hf])]
  change (get? table name).map _ = _
  cases h : get? table name with
  | none => rfl
  | some r => simp [get?_name h]

theorem get?_setValue_of_ne (table : List ρ) {name other : String} (h : other ≠ name) :
    get? (setValue name f table) other = get? table other := by
  rw [get?, setValue, find?_update _ _ (fun r => by rw [hf])]
  change (get? table other).map _ = _
  cases ho : get? table other with
  | none => rfl
  | some r => simp [get?_name ho, h]

end Named

end Table
