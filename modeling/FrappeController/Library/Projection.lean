import FrappeController.Library.Table

/-!
# Tables whose rows belong to reporters

Each row of a table has an owner, and each reporter keeps its own rows in step with what it
last reported: it rewrites the rows it reports, inserts the ones that are missing, and
deactivates the ones it no longer reports. It decides what is missing from the version it
reads (`view`), and its writes go to the committed table (`current`) and to its view alike.

`removals` and `Upserts` say what such a pass does to the two tables. `Pass` is the result:
no row of another reporter changes, no row changes its owner, and the active rows of the
reporter are the reported ones. `pass_of_upserts` proves it from what the view may not show:
a reported row that belongs to somebody else (`Free`).
-/

namespace Projection

open Table

variable {ρ ω : Type} [Named ρ] {owner : ρ → ω} {mine : ω → Prop} {active : ρ → Bool}
variable {valid : ρ → Prop}
variable {old new table view current view' current' : List ρ} {f : ρ → ρ} {name : String}

/-! ## What is kept -/

variable (owner) in
/-- Rows keep their name and their owner. -/
def Kept (old new : List ρ) : Prop :=
  ∀ r ∈ old, ∃ r' ∈ new, Named.name r' = Named.name r ∧ owner r' = owner r

variable (owner mine) in
/-- Only rows of `mine` are written, and only new names are added. -/
structure Written (old new : List ρ) : Prop where
  unique : Unique old → Unique new
  kept : Kept owner old new
  others : ∀ r, ¬ mine (owner r) → (r ∈ new ↔ r ∈ old)

variable (owner mine active) in
/-- The active rows of `mine` are among the names. -/
def Within (names : List String) (table : List ρ) : Prop :=
  ∀ r ∈ table, mine (owner r) → active r = true → Named.name r ∈ names

variable (owner mine) in
/-- Every name has a row of `mine`. -/
def Holds (names : List String) (table : List ρ) : Prop :=
  ∀ n ∈ names, ∃ r ∈ table, Named.name r = n ∧ mine (owner r)

theorem Kept.refl (table : List ρ) : Kept owner table table := fun r hr => ⟨r, hr, rfl, rfl⟩

theorem Kept.trans {last : List ρ} (h : Kept owner old new) (h' : Kept owner new last) :
    Kept owner old last := by
  intro r hr
  obtain ⟨r', hr', hname, howner⟩ := h r hr
  obtain ⟨r'', hr'', hname', howner'⟩ := h' r' hr'
  exact ⟨r'', hr'', hname'.trans hname, howner'.trans howner⟩

theorem Kept.append (h : Kept owner old new) (r : ρ) : Kept owner (old ++ [r]) (new ++ [r]) := by
  intro q hq
  rcases List.mem_append.mp hq with hq | hq
  · obtain ⟨q', hq', hsame⟩ := h q hq
    exact ⟨q', List.mem_append_left _ hq', hsame⟩
  · exact ⟨q, List.mem_append_right _ hq, rfl, rfl⟩

/-- An update that keeps names, and gives the rows it writes owners they have in common. -/
theorem Kept.setValue (h : Kept owner old new) (hname : ∀ r, Named.name (f r) = Named.name r)
    (howner : ∀ r r', owner r' = owner r → owner (f r') = owner (f r)) :
    Kept owner (Table.setValue name f old) (Table.setValue name f new) := by
  intro q hq
  obtain ⟨r, hr, rfl⟩ := (mem_update _ _).mp hq
  obtain ⟨r', hr', hsame, hown⟩ := h r hr
  refine ⟨_, (mem_update _ _).mpr ⟨r', hr', rfl⟩, ?_⟩
  rw [hsame]
  by_cases hn : Named.name r = name
  · rw [if_pos hn, if_pos hn]
    exact ⟨by rw [hname, hname, hsame], howner r r' hown⟩
  · rw [if_neg hn, if_neg hn]
    exact ⟨hsame, hown⟩

theorem Written.refl (table : List ρ) : Written owner mine table table :=
  ⟨id, Kept.refl table, fun _ _ => Iff.rfl⟩

theorem Written.trans {last : List ρ} (h : Written owner mine old new)
    (h' : Written owner mine new last) : Written owner mine old last where
  unique hu := h'.unique (h.unique hu)
  kept := h.kept.trans h'.kept
  others r hr := (h'.others r hr).trans (h.others r hr)

theorem Holds.kept {names : List String} (h : Holds owner mine names old)
    (hkept : Kept owner old new) : Holds owner mine names new := by
  intro n hn
  obtain ⟨r, hr, hname, hmine⟩ := h n hn
  obtain ⟨r', hr', hname', howner⟩ := hkept r hr
  exact ⟨r', hr', hname'.trans hname, howner ▸ hmine⟩

/-- Names identify rows, so every row of a held name is of `mine`. -/
theorem Holds.mine_of_mem {names : List String} (h : Holds owner mine names table)
    (hu : Unique table) {r : ρ} (hr : r ∈ table) (hn : Named.name r ∈ names) : mine (owner r) := by
  obtain ⟨q, hq, hname, hmine⟩ := h _ hn
  rw [eq_of_mem hu hr hq hname.symm]
  exact hmine

/-- An update of rows of `mine` that stay with their owner. -/
theorem written_setValue (hname : ∀ r, Named.name (f r) = Named.name r)
    (hmine : ∀ r ∈ table, Named.name r = name → mine (owner r) ∧ owner (f r) = owner r) :
    Written owner mine table (setValue name f table) where
  unique := (unique_update hname).mpr
  kept r hr := by
    refine ⟨_, (mem_update _ _).mpr ⟨r, hr, rfl⟩, ?_⟩
    by_cases hn : Named.name r = name
    · rw [if_pos hn]
      exact ⟨hname r, (hmine r hr hn).2⟩
    · rw [if_neg hn]
      exact ⟨rfl, rfl⟩
  others r hr := by
    constructor
    · intro hmem
      -- the row of that name belongs to `mine`, so a row of another owner is not it
      obtain ⟨q, hq, rfl⟩ := (mem_update _ _).mp hmem
      by_cases hn : Named.name q = name
      · rw [if_pos hn] at hr
        obtain ⟨hq', howner⟩ := hmine q hq hn
        exact absurd (howner ▸ hq') hr
      · rwa [if_neg hn]
    · intro hmem
      refine (mem_update _ _).mpr ⟨r, hmem, if_neg fun hn => hr (hmine r hmem hn).1⟩

/-- An insertion of a row of `mine` under a new name. -/
theorem written_append {r : ρ} (hfresh : ∀ q ∈ table, Named.name q ≠ Named.name r)
    (hmine : mine (owner r)) : Written owner mine table (table ++ [r]) where
  unique hu := by
    show ((table ++ [r]).map Named.name).Nodup
    rw [List.map_append]
    refine List.Nodup.append hu (by simp) ?_
    intro n hn hr
    obtain ⟨q, hq, rfl⟩ := List.mem_map.mp hn
    exact hfresh q hq (by simpa using hr)
  kept q hq := ⟨q, List.mem_append_left _ hq, rfl, rfl⟩
  others q hq := by
    refine ⟨fun hmem => ?_, fun hmem => List.mem_append_left _ hmem⟩
    rcases List.mem_append.mp hmem with hmem | hmem
    · exact hmem
    · exact absurd (List.mem_singleton.mp hmem ▸ hmine) hq

/-! ## Removals -/

/-- Deactivate the rows of the names, one after the other. -/
def removals (f : ρ → ρ) (names : List String) (table : List ρ) : List ρ :=
  names.foldl (fun table n => setValue n f table) table

section Removals

variable (hname : ∀ r, Named.name (f r) = Named.name r) (howner : ∀ r, owner (f r) = owner r)
include hname howner

theorem kept_removals {names : List String} (h : Kept owner view current) :
    Kept owner (removals f names view) (removals f names current) := by
  induction names generalizing view current with
  | nil => exact h
  | cons n names ih =>
    exact ih (h.setValue hname fun r r' hown => by rw [howner, howner, hown])

theorem written_removals {names : List String} (hu : Unique table)
    (hholds : Holds owner mine names table) :
    Written owner mine table (removals f names table) := by
  induction names generalizing table with
  | nil => exact Written.refl table
  | cons n names ih =>
    have hfirst : Written owner mine table (setValue n f table) := by
      refine written_setValue hname fun r hr hn => ⟨?_, howner r⟩
      exact hholds.mine_of_mem hu hr (by simp [hn])
    have hrest : Holds owner mine names table := fun m hm => hholds m (List.mem_cons_of_mem n hm)
    exact hfirst.trans (ih (hfirst.unique hu) (hrest.kept hfirst.kept))

/-- A removal keeps the name and the owner of every row. -/
theorem exists_of_mem_removals {names : List String} {r : ρ} (hr : r ∈ removals f names table) :
    ∃ q ∈ table, Named.name q = Named.name r ∧ owner q = owner r := by
  induction names generalizing table with
  | nil => exact ⟨r, hr, rfl, rfl⟩
  | cons n names ih =>
    obtain ⟨q, hq, hname', howner'⟩ := ih hr
    obtain ⟨q', hq', rfl⟩ := (mem_update _ _).mp hq
    refine ⟨q', hq', ?_⟩
    by_cases hn : Named.name q' = n
    · rw [if_pos hn] at hname' howner'
      exact ⟨(hname q').symm.trans hname', (howner q').symm.trans howner'⟩
    · rw [if_neg hn] at hname' howner'
      exact ⟨hname', howner'⟩

omit hname howner in
theorem forall_removals (hvalid : ∀ r, valid r → valid (f r)) {names : List String}
    (h : ∀ r ∈ table, valid r) : ∀ r ∈ removals f names table, valid r := by
  induction names generalizing table with
  | nil => exact h
  | cons n names ih =>
    refine ih fun r hr => ?_
    obtain ⟨q, hq, rfl⟩ := (mem_update _ _).mp hr
    by_cases hn : Named.name q = n
    · rw [if_pos hn]
      exact hvalid q (h q hq)
    · rw [if_neg hn]
      exact h q hq

omit hname howner in
/-- The active rows that are left have none of the removed names. -/
theorem within_removals (hactive : ∀ r, active (f r) = false) {names known : List String}
    (h : Within owner mine active known table) :
    Within owner mine active (known.filter fun n => !names.contains n)
      (removals f names table) := by
  induction names generalizing table known with
  | nil =>
    intro r hr hmine hact
    simpa using h r hr hmine hact
  -- one name at a time: its row is inactive after it
  | cons n names ih =>
    have hfirst : Within owner mine active (known.filter fun m => m != n) (setValue n f table) := by
      intro r hr hmine hact
      obtain ⟨q, hq, rfl⟩ := (mem_update _ _).mp hr
      by_cases hn : Named.name q = n
      · rw [if_pos hn, hactive] at hact
        cases hact
      · rw [if_neg hn] at hmine hact ⊢
        exact List.mem_filter.mpr ⟨h q hq hmine hact, by simpa using hn⟩
    have hrest := ih hfirst
    rw [List.filter_filter] at hrest
    intro r hr hmine hact
    obtain ⟨hknown, hfresh⟩ := List.mem_filter.mp (hrest r hr hmine hact)
    refine List.mem_filter.mpr ⟨hknown, ?_⟩
    simpa [and_comm] using hfresh

end Removals

/-! ## Reports -/

variable (owner active valid) in
/-- A reported row is written: rewritten if the view has it, inserted if not. -/
inductive Upsert (name : String) (o : ω) : List ρ → List ρ → List ρ → List ρ → Prop
  | update {view current : List ρ} {f : ρ → ρ} (hexists : (get? view name).isSome)
      (hname : ∀ r, Named.name (f r) = Named.name r) (howner : ∀ r, owner (f r) = o)
      (hactive : ∀ r, active (f r) = true)
      (hvalid : ∀ r, Named.name r = name → valid r → valid (f r)) :
      Upsert name o view current (setValue name f view) (setValue name f current)
  | insert {view current : List ρ} {r : ρ} (hfresh : ∀ q ∈ current, Named.name q ≠ name)
      (hname : Named.name r = name) (howner : owner r = o) (hactive : active r = true)
      (hvalid : valid r) : Upsert name o view current (view ++ [r]) (current ++ [r])

variable (owner active valid) in
/-- The reported rows, written in order. -/
inductive Upserts : List (String × ω) → List ρ → List ρ → List ρ → List ρ → Prop
  | nil (view current : List ρ) : Upserts [] view current view current
  | cons {name : String} {o : ω} {claims : List (String × ω)}
      {view current view₁ current₁ view₂ current₂ : List ρ}
      (hfirst : Upsert owner active valid name o view current view₁ current₁)
      (hrest : Upserts claims view₁ current₁ view₂ current₂) :
      Upserts ((name, o) :: claims) view current view₂ current₂

variable (owner) in
/-- The view has no row of a reported name that belongs to somebody else. -/
def Free (claims : List (String × ω)) (view : List ρ) : Prop :=
  ∀ claim ∈ claims, ∀ r ∈ view, Named.name r = claim.1 → owner r = claim.2

theorem Upserts.append {claims claims' : List (String × ω)} {view'' current'' : List ρ}
    (h : Upserts owner active valid claims view current view' current')
    (h' : Upserts owner active valid claims' view' current' view'' current'') :
    Upserts owner active valid (claims ++ claims') view current view'' current'' := by
  induction h with
  | nil => exact h'
  | cons hfirst _ ih => exact .cons hfirst (ih h')

section Upsert

variable {o : ω} (h : Upsert owner active valid name o view current view' current')
  (hkept : Kept owner view current) (hfree : ∀ r ∈ view, Named.name r = name → owner r = o)
include h

theorem Upsert.kept (hkept : Kept owner view current) : Kept owner view' current' := by
  cases h with
  | update hexists hname howner hactive hvalid =>
    exact hkept.setValue hname fun r r' _ => by rw [howner, howner]
  | insert hfresh hname howner hactive hvalid => exact hkept.append _

include hkept hfree

/-- A row that is rewritten belongs to the reporter already. -/
theorem Upsert.written (hmine : mine o) (hu : Unique current) :
    Written owner mine current current' := by
  cases h with
  | update hexists hname howner hactive hvalid =>
    obtain ⟨r, hr⟩ := Option.isSome_iff_exists.mp hexists
    obtain ⟨r', hr', hsame, hown⟩ := hkept r (get?_mem hr)
    have hname' : Named.name r' = name := hsame.trans (get?_name hr)
    have ho : owner r' = o := hown.trans (hfree r (get?_mem hr) (get?_name hr))
    refine written_setValue hname fun q hq hn => ?_
    rw [eq_of_mem hu hq hr' (hn.trans hname'.symm), ho, howner]
    exact ⟨hmine, rfl⟩
  | insert hfresh hname howner hactive hvalid =>
    exact written_append (fun q hq => hname ▸ hfresh q hq) (howner ▸ hmine)

omit hfree in
theorem Upsert.exists_row : ∃ r ∈ current', Named.name r = name ∧ owner r = o ∧ active r = true := by
  cases h with
  | @update f hexists hname howner hactive hvalid =>
    obtain ⟨r, hr⟩ := Option.isSome_iff_exists.mp hexists
    obtain ⟨r', hr', hsame, -⟩ := hkept r (get?_mem hr)
    have hname' : Named.name r' = name := hsame.trans (get?_name hr)
    refine ⟨f r', (mem_update _ _).mpr ⟨r', hr', if_pos hname'⟩, ?_⟩
    exact ⟨(hname r').trans hname', howner r', hactive r'⟩
  | @insert r hfresh hname howner hactive hvalid =>
    exact ⟨r, List.mem_append_right _ (by simp), hname, howner, hactive⟩

omit hkept hfree in
/-- Other names keep their rows, in the view and in the table. -/
theorem Upsert.mem_of_ne {r : ρ} (hn : Named.name r ≠ name) :
    (r ∈ view' ↔ r ∈ view) ∧ (r ∈ current' ↔ r ∈ current) := by
  cases h with
  -- an update replaces the row of its name only, in both tables alike
  | @update f hexists hname howner hactive hvalid =>
    have hupdate : ∀ table : List ρ, r ∈ setValue name f table ↔ r ∈ table := by
      intro table
      constructor
      · intro hr
        obtain ⟨q, hq, rfl⟩ := (mem_update _ _).mp hr
        by_cases hq' : Named.name q = name
        · rw [if_pos hq', hname] at hn
          exact absurd hq' hn
        · rwa [if_neg hq']
      · intro hr
        exact (mem_update _ _).mpr ⟨r, hr, if_neg hn⟩
    exact ⟨hupdate view, hupdate current⟩
  | insert hfresh hname howner hactive hvalid =>
    have hne : ∀ q : ρ, Named.name q = name → r ≠ q := fun q hq hr => hn (hr ▸ hq)
    simp [hne _ hname]

end Upsert

/-- Every row was there before, or is the one that is written. -/
theorem Upsert.origin {o : ω} (h : Upsert owner active valid name o view current view' current')
    {r : ρ} (hr : r ∈ current') :
    (∃ q ∈ current, Named.name q = Named.name r ∧ owner q = owner r) ∨
      (Named.name r = name ∧ owner r = o) := by
  cases h with
  | @update f hexists hname howner hactive hvalid =>
    obtain ⟨q, hq, rfl⟩ := (mem_update _ _).mp hr
    by_cases hn : Named.name q = name
    · rw [if_pos hn]
      exact .inr ⟨(hname q).trans hn, howner q⟩
    · rw [if_neg hn]
      exact .inl ⟨q, hq, rfl, rfl⟩
  | insert hfresh hname howner hactive hvalid =>
    rcases List.mem_append.mp hr with hr | hr
    · exact .inl ⟨r, hr, rfl, rfl⟩
    · cases List.mem_singleton.mp hr
      exact .inr ⟨hname, howner⟩

theorem Upsert.forall {o : ω} (h : Upsert owner active valid name o view current view' current')
    (hall : ∀ r ∈ current, valid r) : ∀ r ∈ current', valid r := by
  intro r hr
  cases h with
  | @update f hexists hname howner hactive hvalid =>
    obtain ⟨q, hq, rfl⟩ := (mem_update _ _).mp hr
    by_cases hn : Named.name q = name
    · rw [if_pos hn]
      exact hvalid q hn (hall q hq)
    · rw [if_neg hn]
      exact hall q hq
  | insert hfresh hname howner hactive hvalid =>
    rcases List.mem_append.mp hr with hr | hr
    · exact hall r hr
    · cases List.mem_singleton.mp hr
      exact hvalid

/-- The claims that are left stay free when the first one is written. -/
theorem Free.tail {o : ω} {claims : List (String × ω)}
    (hfree : Free owner ((name, o) :: claims) view)
    (hnames : (((name, o) :: claims).map Prod.fst).Nodup)
    (h : Upsert owner active valid name o view current view' current') : Free owner claims view' := by
  intro claim hclaim r hr hn
  have hne : Named.name r ≠ name := by
    intro hsame
    have hmem : claim.1 ∈ claims.map Prod.fst := List.mem_map_of_mem hclaim
    exact (List.nodup_cons.mp hnames).1 (hsame ▸ hn ▸ hmem)
  exact hfree claim (List.mem_cons_of_mem _ hclaim) r ((h.mem_of_ne hne).1.mp hr) hn

section Upserts

variable {claims : List (String × ω)}
  (h : Upserts owner active valid claims view current view' current')
  (hkept : Kept owner view current)
include h hkept

theorem Upserts.kept : Kept owner view' current' := by
  induction h with
  | nil => exact hkept
  | cons hfirst _ ih => exact ih (hfirst.kept hkept)

omit hkept in
theorem Upserts.origin {r : ρ} (hr : r ∈ current') :
    (∃ q ∈ current, Named.name q = Named.name r ∧ owner q = owner r) ∨
      (Named.name r, owner r) ∈ claims := by
  induction h with
  | nil => exact .inl ⟨r, hr, rfl, rfl⟩
  | cons hfirst _ ih =>
    rcases ih hr with ⟨q, hq, hname, howner⟩ | hclaim
    · rcases hfirst.origin hq with ⟨p, hp, hname', howner'⟩ | ⟨hname', howner'⟩
      · exact .inl ⟨p, hp, hname'.trans hname, howner'.trans howner⟩
      · refine .inr (List.mem_cons.mpr (.inl ?_))
        rw [← hname, ← howner, hname', howner']
    · exact .inr (List.mem_cons_of_mem _ hclaim)

omit hkept in
theorem Upserts.forall (hall : ∀ r ∈ current, valid r) : ∀ r ∈ current', valid r := by
  induction h with
  | nil => exact hall
  | cons hfirst _ ih => exact ih (hfirst.forall hall)

variable (hfree : Free owner claims view) (hnames : (claims.map Prod.fst).Nodup)
include hfree hnames

/-- Only the reporter's rows are written. -/
theorem Upserts.written (hmine : ∀ claim ∈ claims, mine claim.2) (hu : Unique current) :
    Written owner mine current current' := by
  induction h with
  | nil => exact Written.refl _
  | @cons name o claims _ _ _ _ _ _ hfirst _ ih =>
    have hwritten := hfirst.written hkept (fun r hr hn => hfree (name, o) (by simp) r hr hn)
      (hmine (name, o) (by simp)) hu
    exact hwritten.trans (ih (hfirst.kept hkept) (hfree.tail hnames hfirst)
      (List.nodup_cons.mp hnames).2 (fun c hc => hmine c (List.mem_cons_of_mem _ hc))
      (hwritten.unique hu))

omit hkept hfree in
/-- A row of no reported name stays, and no other row of such a name appears. -/
theorem Upserts.mem_of_notMem {r : ρ} (hn : Named.name r ∉ claims.map Prod.fst) :
    r ∈ current' ↔ r ∈ current := by
  induction h with
  | nil => exact Iff.rfl
  | @cons name o claims _ _ _ _ _ _ hfirst _ ih =>
    simp only [List.map_cons, List.mem_cons, not_or] at hn
    exact (ih (List.nodup_cons.mp hnames).2 hn.2).trans (hfirst.mem_of_ne hn.1).2

omit hkept hfree in
/-- The active rows are among the reported ones, if they were before the report. -/
theorem Upserts.within (hwithin : Within owner mine active (claims.map Prod.fst) current) :
    Within owner mine active (claims.map Prod.fst) current' := by
  intro r hr hmine hact
  by_contra hn
  exact hn (hwithin r ((h.mem_of_notMem hnames hn).mp hr) hmine hact)

omit hfree in
/-- Every reported name has an active row of the reported owner. -/
theorem Upserts.present : ∀ claim ∈ claims, ∃ r ∈ current', Named.name r = claim.1 ∧
    owner r = claim.2 ∧ active r = true := by
  induction h with
  | nil => intro claim hclaim; cases hclaim
  | @cons name o claims _ _ _ _ _ _ hfirst hrest ih =>
    intro claim hclaim
    rcases List.mem_cons.mp hclaim with rfl | hclaim
    · obtain ⟨r, hr, hname, hsame⟩ := hfirst.exists_row hkept
      have hn : Named.name r ∉ claims.map Prod.fst := hname ▸ (List.nodup_cons.mp hnames).1
      exact ⟨r, (hrest.mem_of_notMem (List.nodup_cons.mp hnames).2 hn).mpr hr, hname, hsame⟩
    · exact ih (hfirst.kept hkept) (List.nodup_cons.mp hnames).2 claim hclaim

end Upserts

/-! ## A pass -/

variable (owner mine active valid) in
/-- What a whole pass leaves behind: the reporter's active rows are the claimed ones. -/
structure Pass (claims : List (String × ω)) (old new : List ρ) : Prop where
  written : Written owner mine old new
  within : Within owner mine active (claims.map Prod.fst) new
  present : ∀ claim ∈ claims, ∃ r ∈ new, Named.name r = claim.1 ∧ owner r = claim.2 ∧
    active r = true
  origin : ∀ r ∈ new, (∃ q ∈ old, Named.name q = Named.name r ∧ owner q = owner r) ∨
    (Named.name r, owner r) ∈ claims
  valid : (∀ r ∈ old, valid r) → ∀ r ∈ new, valid r

/-- The removals of the known names that are not claimed, and then the claims. -/
theorem pass_of_upserts {claims : List (String × ω)} {known removed : List String}
    (hname : ∀ r, Named.name (f r) = Named.name r) (howner : ∀ r, owner (f r) = owner r)
    (hinactive : ∀ r, active (f r) = false) (hvalid : ∀ r, valid r → valid (f r))
    (hremoved : ∀ n, n ∈ removed ↔ n ∈ known ∧ n ∉ claims.map Prod.fst)
    (hu : Unique current) (hkept : Kept owner view current)
    (hwithin : Within owner mine active known current) (hholds : Holds owner mine known current)
    (hfree : Free owner claims view) (hnames : (claims.map Prod.fst).Nodup)
    (hmine : ∀ claim ∈ claims, mine claim.2)
    (h : Upserts owner active valid claims (removals f removed view) (removals f removed current)
      view' current') : Pass owner mine active valid claims current current' := by
  -- the pass is its removals, then its upserts
  have hfirst : Written owner mine current (removals f removed current) :=
    written_removals hname howner hu fun n hn => hholds n ((hremoved n).mp hn).1
  have hkept' : Kept owner (removals f removed view) (removals f removed current) :=
    kept_removals hname howner hkept
  have hfree' : Free owner claims (removals f removed view) := by
    intro claim hclaim r hr hn
    obtain ⟨q, hq, hname', howner'⟩ := exists_of_mem_removals hname howner hr
    exact howner' ▸ hfree claim hclaim q hq (hname'.trans hn)
  -- after the removals only claimed rows are active
  have hleft : Within owner mine active (claims.map Prod.fst) (removals f removed current) := by
    intro r hr hm hact
    obtain ⟨hknown, hnot⟩ := List.mem_filter.mp (within_removals hinactive hwithin r hr hm hact)
    by_contra hn
    have hmem : Named.name r ∈ removed := (hremoved _).mpr ⟨hknown, hn⟩
    simp [hmem] at hnot
  refine ⟨hfirst.trans (h.written hkept' hfree' hnames hmine (hfirst.unique hu)),
    h.within hnames hleft, h.present hkept' hnames, fun r hr => ?_, fun hall => ?_⟩
  · rcases h.origin hr with ⟨q, hq, hname', howner'⟩ | hclaim
    · obtain ⟨p, hp, hname'', howner''⟩ := exists_of_mem_removals hname howner hq
      exact .inl ⟨p, hp, hname''.trans hname', howner''.trans howner'⟩
    · exact .inr hclaim
  · exact h.forall (forall_removals hvalid hall)

namespace Pass

variable {claims : List (String × ω)} (h : Pass owner mine active valid claims old new)
include h

/-- A row of a claimed name belongs to the claimed owner, and is active. -/
theorem of_claim (hu : Unique new) {claim : String × ω} (hclaim : claim ∈ claims) {r : ρ}
    (hr : r ∈ new) (hn : Named.name r = claim.1) : owner r = claim.2 ∧ active r = true := by
  obtain ⟨q, hq, hname, howner, hactive⟩ := h.present claim hclaim
  rw [eq_of_mem hu hr hq (hn.trans hname.symm)]
  exact ⟨howner, hactive⟩

/-- The active rows of the reporter are exactly the claimed ones. -/
theorem active_iff (hu : Unique new) (hmine : ∀ claim ∈ claims, mine claim.2) (name : String)
    (o : ω) :
    (∃ r ∈ new, Named.name r = name ∧ owner r = o ∧ mine o ∧ active r = true) ↔
      (name, o) ∈ claims := by
  constructor
  · rintro ⟨r, hr, rfl, rfl, hm, hact⟩
    obtain ⟨claim, hclaim, hname⟩ := List.mem_map.mp (h.within r hr hm hact)
    have howner := (h.of_claim hu hclaim hr hname.symm).1
    have hsame : claim = (Named.name r, owner r) := Prod.ext hname howner.symm
    exact hsame ▸ hclaim
  · intro hclaim
    obtain ⟨r, hr, hname, howner, hactive⟩ := h.present _ hclaim
    exact ⟨r, hr, hname, howner, hmine _ hclaim, hactive⟩

end Pass

end Projection
