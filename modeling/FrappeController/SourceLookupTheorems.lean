import FrappeController.SourceLookup
import Mathlib.Algebra.Order.BigOperators.Group.List
import Mathlib.Algebra.Group.Action.Defs
import Mathlib.Tactic.NormNum

/-!
# Lookups are never partial

What a lookup returns is the projection of all the pages it has read, the last of them the end of
the list (`loop_sound`). A list that the upstream serves page by page, with or without its count, is
read to its end (`loop_static`), but for a full list without a count.
-/

namespace FrappeController
namespace SourceLookup

open PyJson
open SourceCatalog (SourceFault)
open Transaction (bind_eq_ok bind_eq_error)

/-! ## What is looked up -/

/-- The values of the field that are not null or blank, in the order of the records. -/
def fieldValues (field : String) (records : List Fields) : List PyJson :=
  (records.filterMap (field? · field)).filter fun value => (strOf value).strip ≠ []

/-- The first value of every string form. -/
def distinctValues (field : String) (records : List Fields) : List PyJson :=
  (fieldValues field records).eraseDupsBy fun a b => strOf a == strOf b

/-- The complete projection of the records to the field. -/
def projection (field : String) (records : List Fields) : Lookup :=
  { records := (distinctValues field records).map fun value => [(PyStr.ofString field, value)]
    total := (distinctValues field records).length }

/-- A value that can be selected. -/
def Selectable (value : PyJson) : Prop :=
  value = .null ∨ (∃ s, value = .str s) ∨ ∃ n, value = .int n

def WellFormed (field : String) (row : Fields) : Prop :=
  ∃ value, field? row field = some value ∧ Selectable value

/-! ## The values collected -/

def entry (value : PyJson) : PyStr × PyJson := (strOf value, value)

/-- The dictionary after the values, from those it had. -/
def gathered (field : String) (records : List Fields) : Values :=
  ((fieldValues field records).map entry).foldl setdefault []

/-- The values of two pages are those of the one and of the other. -/
theorem fieldValues_append (field : String) (records more : List Fields) :
    fieldValues field (records ++ more) = fieldValues field records ++ fieldValues field more := by
  rw [fieldValues, List.filterMap_append, List.filter_append]
  rfl

/-- A page more sets the defaults of its values. -/
theorem gathered_append (field : String) (records more : List Fields) :
    gathered field (records ++ more)
      = ((fieldValues field more).map entry).foldl setdefault (gathered field records) := by
  rw [gathered, fieldValues_append, List.map_append, List.foldl_append]
  rfl

/-- Setting defaults in the order of the values keeps the first of each string form. -/
theorem foldl_setdefault (values acc : List PyJson) :
    (values.map entry).foldl setdefault (acc.map entry)
      = (List.eraseDupsBy.loop (fun a b => strOf a == strOf b) values acc.reverse).map entry := by
  induction values generalizing acc with
  | nil => simp [List.eraseDupsBy.loop]
  | cons value rest ih =>
    have hseen : (acc.map entry).any (fun other => (entry value).1 == other.1)
        = acc.reverse.any fun other => strOf value == strOf other := by
      rw [List.any_map, List.any_reverse]
      rfl
    rw [List.map_cons, List.foldl_cons, setdefault, hseen, List.eraseDupsBy.loop]
    cases acc.reverse.any fun other => strOf value == strOf other with
    | true => exact ih acc
    | false =>
      have hmore : acc.map entry ++ [entry value] = (acc ++ [value]).map entry := by
        rw [List.map_append]
        rfl
      rw [if_neg Bool.false_ne_true, hmore, ih, List.reverse_append]
      rfl

/-- What is returned for the dictionary is the projection. -/
theorem lookup_gathered (field : String) (records : List Fields) :
    lookup field (gathered field records) = projection field records := by
  have hgathered : gathered field records = (distinctValues field records).map entry :=
    foldl_setdefault (fieldValues field records) []
  rw [hgathered, lookup, List.map_map, List.length_map]
  rfl

/-- A record has a value for the field exactly where it can be selected; blank ones are left out. -/
theorem valueOf_eq_ok {field : String} {row : Fields} {out : Option (PyStr × PyJson)} :
    valueOf field row = .ok out ↔ ∃ value, field? row field = some value ∧ Selectable value
      ∧ out = if (strOf value).strip = [] then none else some (entry value) := by
  unfold valueOf
  -- null, a string and an integer can be selected, and nothing else
  split
  · rename_i hvalue
    rw [hvalue]
    constructor
    · intro h
      exact ⟨.null, rfl, .inl rfl, (Except.ok.inj h).symm⟩
    · intro h
      obtain ⟨value, hsame, -, hout⟩ := h
      rw [hout, ← Option.some.inj hsame]
      rfl
  · rename_i s hvalue
    rw [hvalue]
    constructor
    · intro h
      exact ⟨.str s, rfl, .inr (.inl ⟨s, rfl⟩), (Except.ok.inj h).symm⟩
    · intro h
      obtain ⟨value, hsame, -, hout⟩ := h
      rw [hout, ← Option.some.inj hsame]
      rfl
  · rename_i n hvalue
    rw [hvalue]
    constructor
    · intro h
      exact ⟨.int n, rfl, .inr (.inr ⟨n, rfl⟩), (Except.ok.inj h).symm⟩
    · intro h
      obtain ⟨value, hsame, -, hout⟩ := h
      rw [hout, ← Option.some.inj hsame]
      rfl
  · rename_i hnull hstr hint
    constructor
    · intro h
      cases h
    · intro h
      obtain ⟨value, hvalue, hselectable, -⟩ := h
      rcases hselectable with hsame | ⟨s, hsame⟩ | ⟨n, hsame⟩ <;> rw [hsame] at hvalue
      · exact absurd hvalue hnull
      · exact absurd hvalue (hstr s)
      · exact absurd hvalue (hint n)

/-- A record adds its value unless it is blank. -/
theorem fieldValues_cons {field : String} {row : Fields} {rest : List Fields} {value : PyJson}
    (h : field? row field = some value) : fieldValues field (row :: rest) =
      if (strOf value).strip = [] then fieldValues field rest else value :: fieldValues field rest := by
  rw [fieldValues, List.filterMap_cons, h, List.filter_cons]
  by_cases hblank : (strOf value).strip = []
  · simp [hblank, fieldValues]
  · simp [hblank, fieldValues]

/-- A page is collected exactly when all its records are well formed. -/
theorem collect_eq_ok {field : String} {values values' : Values} {rows : List Fields} :
    collect field values rows = .ok values' ↔ (∀ row ∈ rows, WellFormed field row)
      ∧ values' = ((fieldValues field rows).map entry).foldl setdefault values := by
  induction rows generalizing values with
  | nil =>
    constructor
    · intro h
      exact ⟨fun row hrow => absurd hrow List.not_mem_nil, (Except.ok.inj h).symm⟩
    · intro h
      exact congrArg Except.ok h.2.symm
  | cons row rest ih =>
    rw [collect, List.forall_mem_cons, bind_eq_ok]
    constructor
    · intro h
      obtain ⟨out, hout, h⟩ := h
      obtain ⟨value, hvalue, hselectable, hentry⟩ := valueOf_eq_ok.mp hout
      rw [fieldValues_cons hvalue]
      by_cases hblank : (strOf value).strip = []
      · rw [if_pos hblank] at hentry ⊢
        rw [hentry] at h
        obtain ⟨hrest, hvalues⟩ := ih.mp h
        exact ⟨⟨⟨value, hvalue, hselectable⟩, hrest⟩, hvalues⟩
      · rw [if_neg hblank] at hentry ⊢
        rw [hentry] at h
        obtain ⟨hrest, hvalues⟩ := ih.mp h
        exact ⟨⟨⟨value, hvalue, hselectable⟩, hrest⟩, hvalues⟩
    · intro h
      obtain ⟨⟨⟨value, hvalue, hselectable⟩, hrest⟩, hvalues⟩ := h
      refine ⟨_, valueOf_eq_ok.mpr ⟨value, hvalue, hselectable, rfl⟩, ?_⟩
      rw [fieldValues_cons hvalue] at hvalues
      by_cases hblank : (strOf value).strip = []
      · rw [if_pos hblank] at hvalues ⊢
        exact ih.mpr ⟨hrest, hvalues⟩
      · rw [if_neg hblank] at hvalues ⊢
        exact ih.mpr ⟨hrest, hvalues⟩

/-! ## The pages read -/

variable {lib : Codecs}

/-- The answer is a page of records. -/
def PageRead (lib : Codecs) (exchange : Exchange) (rows : List Fields) (total : Option ℤ) : Prop :=
  ∃ value, getJson lib false exchange = .ok (value, total) ∧ pageRows value = .ok rows

/-- The list ends at `offset`, with a page of `count` records: where a count was given, when that
many have been read, otherwise when the page is not full. -/
def EndsAt (offset count : ℕ) : Option ℤ → Prop
  | some total => (offset : ℤ) = total
  | none => count < pageSize

/-- Pages read one after the other, none of them the end of the list. -/
inductive ReadsTo (lib : Codecs) (serve : ℕ → ℕ → Exchange) : List (List Fields) → Prop
  | start : ReadsTo lib serve []
  | page {pages : List (List Fields)} {rows : List Fields} {total : Option ℤ} :
    ReadsTo lib serve pages →
    PageRead lib (serve pages.length pages.flatten.length) rows total →
    ¬ EndsAt (pages.flatten.length + rows.length) rows.length total →
    ReadsTo lib serve (pages ++ [rows])

/-- All the pages, up to the one that is the end of the list. -/
def ReadsAll (lib : Codecs) (serve : ℕ → ℕ → Exchange) (pages : List (List Fields)) : Prop :=
  ∃ before rows total, pages = before ++ [rows] ∧ ReadsTo lib serve before
    ∧ PageRead lib (serve before.length before.flatten.length) rows total
    ∧ EndsAt (before.flatten.length + rows.length) rows.length total

/-- The answer makes a codec raise what no handler names: `json.loads` an exception that is no
`ValueError`, or `json.dumps(rows).encode()` any. -/
def Breaks (lib : Codecs) (exchange : Exchange) : Prop :=
  (∃ exception, getJson lib false exchange = .error (.raised exception))
    ∨ ∃ rows total exception, PageRead lib exchange rows total
      ∧ rowsSize lib rows = .error (.raised exception)

/-- The loop ends exactly at the end of the list. -/
theorem complete_eq_ok {offset count : ℕ} {total : Option ℤ} {ended : Bool}
    (h : complete offset count total = .ok ended) : ended = true ↔ EndsAt offset count total := by
  unfold complete at h
  split at h
  · split at h
    · cases h
    · rw [← Except.ok.inj h]
      exact decide_eq_true_iff
  · rw [← Except.ok.inj h]
    exact decide_eq_true_iff

/-! ## How a round of the loop goes on -/

section Loop

variable {field : String} {deadline : ℚ} {serve : ℕ → ℕ → Exchange} {k : ℕ} {s s' : State}

/-- At the limit the loop refuses without another request. -/
theorem loop_full (h : ¬ s.offset < maxRecords) : loop lib field deadline serve k s
    = refuse "Source API response exceeds the browsing limit." := by
  rw [loop, if_neg h]

/-- A page that fails ends the loop with its error. -/
theorem loop_error (hlt : s.offset < maxRecords) {fault : SourceFault}
    (h : page lib field deadline s (serve k s.offset) = .error fault) :
    loop lib field deadline serve k s = .error fault := by
  rw [loop, if_pos hlt]
  split <;> rename_i hpage <;> rw [h] at hpage
  · rw [Except.error.inj hpage]
  · cases hpage
  · cases hpage

/-- The last page ends the loop with the lookup. -/
theorem loop_ended (hlt : s.offset < maxRecords)
    (h : page lib field deadline s (serve k s.offset) = .ok (s', true)) :
    loop lib field deadline serve k s = .ok (lookup field s'.values) := by
  rw [loop, if_pos hlt]
  split <;> rename_i hpage <;> rw [h] at hpage
  · cases hpage
  · cases hpage
    rfl
  · cases hpage

/-- Any other page is followed by a request. -/
theorem loop_more (hlt : s.offset < maxRecords)
    (h : page lib field deadline s (serve k s.offset) = .ok (s', false)) :
    loop lib field deadline serve k s = loop lib field deadline serve (k + 1) s' := by
  rw [loop, if_pos hlt]
  split <;> rename_i hpage <;> rw [h] at hpage
  · cases hpage
  · cases hpage
  · cases hpage
    rfl

/-- The variables of the loop after the pages. -/
structure Holds (lib : Codecs) (serve : ℕ → ℕ → Exchange) (field : String) (k : ℕ) (s : State)
    (pages : List (List Fields)) : Prop where
  reads : ReadsTo lib serve pages
  count : pages.length = k
  offset : s.offset = pages.flatten.length
  values : s.values = gathered field pages.flatten

/-- A page more. -/
theorem Holds.page {pages : List (List Fields)} (h : Holds lib serve field k s pages)
    {ended : Bool} (hpage : page lib field deadline s (serve k s.offset) = .ok (s', ended)) :
    ∃ rows total, PageRead lib (serve pages.length pages.flatten.length) rows total
      ∧ (ended = true ↔ EndsAt (pages.flatten.length + rows.length) rows.length total)
      ∧ s'.offset = (pages ++ [rows]).flatten.length
      ∧ s'.values = gathered field (pages ++ [rows]).flatten := by
  obtain ⟨rows, total, hok⟩ := page_eq_ok.mp hpage
  have hread := hok.reply
  have hoffset := hok.offset
  have hended := complete_eq_ok hok.ended
  rw [hoffset] at hended
  rw [← h.count] at hread
  rw [h.offset] at hread hoffset hended
  refine ⟨rows, total, hread, hended, ?_, ?_⟩
  · rw [hoffset, List.flatten_append, List.length_append, List.flatten_singleton]
  · rw [(collect_eq_ok.mp hok.values).2, h.values, List.flatten_append, List.flatten_singleton,
      gathered_append]

/-- What the loop returns is the projection of all the pages. -/
theorem loop_sound {pages : List (List Fields)} (h : Holds lib serve field k s pages)
    {result : Lookup} (hloop : loop lib field deadline serve k s = .ok result) :
    ∃ pages, ReadsAll lib serve pages ∧ result = projection field pages.flatten := by
  induction hrest : maxRecords - s.offset using Nat.strong_induction_on generalizing k s pages with
  | _ rest ih =>
    by_cases hlt : s.offset < maxRecords
    · match hpage : page lib field deadline s (serve k s.offset) with
      | .error fault =>
        rw [loop_error hlt hpage] at hloop
        cases hloop
      | .ok (s', true) =>
        obtain ⟨rows, total, hread, hended, -, hvalues⟩ := h.page hpage
        rw [loop_ended hlt hpage, hvalues, lookup_gathered] at hloop
        exact ⟨pages ++ [rows], ⟨pages, rows, total, rfl, h.reads, hread, hended.mp rfl⟩,
          (Except.ok.inj hloop).symm⟩
      | .ok (s', false) =>
        obtain ⟨rows, total, hread, hended, hoffset, hvalues⟩ := h.page hpage
        rw [loop_more hlt hpage] at hloop
        have hmore : Holds lib serve field (k + 1) s' (pages ++ [rows]) := by
          refine ⟨.page h.reads hread fun hends => ?_, ?_, hoffset, hvalues⟩
          · exact absurd (hended.mpr hends) Bool.false_ne_true
          · rw [List.length_append, h.count]
            rfl
        have hstep := page_offset hpage
        have hsize : 0 < pageSize := by decide
        exact ih (maxRecords - s'.offset) (by omega) hmore hloop rfl
    · rw [loop_full hlt] at hloop
      cases hloop

/-! ## What is raised -/

/-- A check only refuses. -/
theorem ensure_ne_raised {p : Prop} [Decidable p] {message exception : String} :
    ensure p message ≠ .error (.raised exception) := by
  unfold ensure refuse
  split
  · exact fun h => by cases h
  · exact fun h => by cases h

/-- A page that is no list of records is refused. -/
theorem pageRows_ne_raised {value : PyJson} {exception : String} :
    pageRows value ≠ .error (.raised exception) := by
  unfold pageRows refuse
  split
  · split
    · split
      · exact fun h => by cases h
      · exact fun h => by cases h
    · exact fun h => by cases h
  · exact fun h => by cases h

/-- A record without a selectable value is refused. -/
theorem collect_ne_raised {values : Values} {rows : List Fields} {exception : String} :
    collect field values rows ≠ .error (.raised exception) := by
  induction rows generalizing values with
  | nil => exact fun h => by cases h
  | cons row rest ih =>
    intro h
    rw [collect] at h
    rcases bind_eq_error.mp h with hvalue | ⟨out, hvalue, hrest⟩
    · unfold valueOf refuse at hvalue
      split at hvalue
      · cases hvalue
      · cases hvalue
      · cases hvalue
      · cases hvalue
    · split at hrest
      · exact ih hrest
      · exact ih hrest

/-- A count that disagrees with the page is refused. -/
theorem complete_ne_raised {offset count : ℕ} {total : Option ℤ} {exception : String} :
    complete offset count total ≠ .error (.raised exception) := by
  unfold complete refuse
  split
  · split
    · exact fun h => by cases h
    · exact fun h => by cases h
  · exact fun h => by cases h

/-- A round of the loop refuses, unless a codec raises. -/
theorem breaks_of_page {exchange : Exchange} {exception : String}
    (h : page lib field deadline s exchange = .error (.raised exception)) : Breaks lib exchange := by
  rcases bind_eq_error.mp h with hasked | ⟨-, -, h⟩
  · exact absurd hasked ensure_ne_raised
  rcases bind_eq_error.mp h with hreply | ⟨⟨value, total⟩, hreply, h⟩
  · exact .inl ⟨exception, hreply⟩
  rcases bind_eq_error.mp h with hanswered | ⟨-, -, h⟩
  · exact absurd hanswered ensure_ne_raised
  rcases bind_eq_error.mp h with hrows | ⟨rows, hrows, h⟩
  · exact absurd hrows pageRows_ne_raised
  rcases bind_eq_error.mp h with hsize | ⟨size, hsize, h⟩
  · exact .inr ⟨rows, total, exception, ⟨value, hreply, hrows⟩, hsize⟩
  rcases bind_eq_error.mp h with hlimit | ⟨-, -, h⟩
  · exact absurd hlimit ensure_ne_raised
  rcases bind_eq_error.mp h with hvalues | ⟨values, hvalues, h⟩
  · exact absurd hvalues collect_ne_raised
  rcases bind_eq_error.mp h with hended | ⟨ended, hended, h⟩
  · exact absurd hended complete_ne_raised
  · cases h

/-- Where no codec breaks, whatever the loop raises is a refusal. -/
theorem loop_refuses (hcodecs : ∀ k start, ¬ Breaks lib (serve k start)) {fault : SourceFault}
    (h : loop lib field deadline serve k s = .error fault) : ∃ message, fault = .refused message := by
  induction hrest : maxRecords - s.offset using Nat.strong_induction_on generalizing k s with
  | _ rest ih =>
    by_cases hlt : s.offset < maxRecords
    · match hpage : page lib field deadline s (serve k s.offset) with
      | .error (.refused message) =>
        rw [loop_error hlt hpage] at h
        exact ⟨message, (Except.error.inj h).symm⟩
      | .error (.raised exception) => exact absurd (breaks_of_page hpage) (hcodecs k s.offset)
      | .ok (s', true) =>
        rw [loop_ended hlt hpage] at h
        cases h
      | .ok (s', false) =>
        rw [loop_more hlt hpage] at h
        have hstep := page_offset hpage
        have hsize : 0 < pageSize := by decide
        exact ih (maxRecords - s'.offset) (by omega) h rfl
    · rw [loop_full hlt] at h
      exact ⟨_, (Except.error.inj h).symm⟩

end Loop

/-! ## A list that does not change -/

/-- Page `k` of a list. -/
def pageOf (records : List Fields) (k : ℕ) : List Fields :=
  (records.drop (pageSize * k)).take pageSize

/-- The requests that read the list to its end. -/
def requests (count : ℕ) (counted : Bool) : ℕ :=
  if counted = true ∧ 0 < count then (count + 99) / pageSize else count / pageSize + 1

/-- The upstream serves the list in order in pages, each with the count or none, in time. -/
structure Serves (lib : Codecs) (deadline : ℚ) (serve : ℕ → ℕ → Exchange) (records : List Fields)
    (counted : Bool) : Prop where
  reply : ∀ k, getJson lib false (serve k (pageSize * k))
    = .ok (.arr ((pageOf records k).map .obj), if counted then some (records.length : ℤ) else none)
  asked : ∀ k, (serve k (pageSize * k)).asked ≤ deadline
  answered : ∀ k, (serve k (pageSize * k)).answered ≤ deadline

/-- The pages are written in as many bytes as the limit admits. -/
def WithinBytes (lib : Codecs) (records : List Fields) (counted : Bool) : Prop :=
  ∃ sizes : ℕ → ℕ,
    (∀ k < requests records.length counted, rowsSize lib (pageOf records k) = .ok (sizes k))
      ∧ ((List.range (requests records.length counted)).map sizes).sum ≤ maxResponseBytes

section Static

variable {deadline : ℚ} {serve : ℕ → ℕ → Exchange} {records : List Fields} {counted : Bool}

/-- A page is full until the list runs out. -/
theorem length_pageOf (records : List Fields) (k : ℕ) :
    (pageOf records k).length = min pageSize (records.length - pageSize * k) := by
  rw [pageOf, List.length_take, List.length_drop]

/-- A page continues the ones before it. -/
theorem take_succ_page (records : List Fields) (k : ℕ) :
    records.take (pageSize * (k + 1)) = records.take (pageSize * k) ++ pageOf records k := by
  rw [Nat.mul_succ, List.take_add]
  rfl

/-- Records are objects. -/
theorem mapM_dict? (rows : List Fields) : (rows.map PyJson.obj).mapM dict? = some rows := by
  induction rows with
  | nil => rfl
  | cons row rest ih =>
    rw [List.map_cons, List.mapM_cons, ih]
    rfl

/-- A list of at most a hundred records is a page. -/
theorem pageRows_arr {items : List PyJson} {rows : List Fields}
    (hrows : items.mapM dict? = some rows) (hlength : rows.length ≤ pageSize) :
    pageRows (.arr items) = .ok rows := by
  rw [pageRows, hrows]
  exact if_pos hlength

/-- The pages of a list are pages. -/
theorem pageRows_page (records : List Fields) (k : ℕ) :
    pageRows (.arr ((pageOf records k).map .obj)) = .ok (pageOf records k) := by
  have hlength : (pageOf records k).length ≤ pageSize := by
    rw [length_pageOf]
    exact Nat.min_le_left _ _
  exact pageRows_arr (mapM_dict? _) hlength

/-- The last request is the one whose page ends the list. -/
theorem complete_page {k : ℕ} (hk : k < requests records.length counted) :
    complete (pageSize * k + (pageOf records k).length) (pageOf records k).length
        (if counted then some (records.length : ℤ) else none)
      = .ok (decide (k + 1 = requests records.length counted)) := by
  rw [length_pageOf]
  generalize records.length = count at hk ⊢
  cases counted with
  | true =>
    by_cases hcount : 0 < count
    · simp only [requests, hcount, and_self, if_true, pageSize] at hk ⊢
      have hconsistent : ¬ ((count : ℤ) < ((100 * k + min 100 (count - 100 * k) : ℕ) : ℤ)
          ∨ min 100 (count - 100 * k) < 100
            ∧ ((100 * k + min 100 (count - 100 * k) : ℕ) : ℤ) < (count : ℤ)) := by
        omega
      have hlast : (((100 * k + min 100 (count - 100 * k) : ℕ) : ℤ) = (count : ℤ))
          ↔ k + 1 = (count + 99) / 100 := by
        omega
      rw [complete, pageSize, if_neg hconsistent, decide_eq_decide.mpr hlast]
    · have hzero : count = 0 := Nat.eq_zero_of_not_pos hcount
      subst hzero
      have hk : k = 0 := Nat.lt_one_iff.mp hk
      subst hk
      rfl
  | false =>
    simp only [requests, Bool.false_eq_true, false_and, if_false, pageSize] at hk ⊢
    have hlast : (min 100 (count - 100 * k) < 100) ↔ k + 1 = count / 100 + 1 := by
      omega
    rw [complete, pageSize, decide_eq_decide.mpr hlast]

/-- The variables of the loop before request `k`. -/
structure AtPage (field : String) (records : List Fields) (sizes : ℕ → ℕ) (k : ℕ) (s : State) :
    Prop where
  offset : s.offset = pageSize * k
  byteCount : s.byteCount = ((List.range k).map sizes).sum
  values : s.values = gathered field (records.take (pageSize * k))

/-- A request before the end moves the loop on to the next page. -/
theorem page_static {field : String} (hserves : Serves lib deadline serve records counted)
    (hfields : ∀ row ∈ records, WellFormed field row) {sizes : ℕ → ℕ}
    (hsizes : ∀ k < requests records.length counted,
      rowsSize lib (pageOf records k) = .ok (sizes k))
    (hlimit : ((List.range (requests records.length counted)).map sizes).sum ≤ maxResponseBytes)
    (hmax : records.length ≤ maxRecords) {k : ℕ} (hk : k < requests records.length counted)
    {s : State} (h : AtPage field records sizes k s) :
    ∃ s', page lib field deadline s (serve k s.offset)
        = .ok (s', decide (k + 1 = requests records.length counted))
      ∧ s'.values = gathered field (records.take (pageSize * (k + 1)))
      ∧ s'.byteCount = ((List.range (k + 1)).map sizes).sum := by
  -- the bytes of the pages so far add up, and stay within the limit of the whole list
  have hsum : ((List.range (k + 1)).map sizes).sum = s.byteCount + sizes k := by
    rw [List.range_succ, List.map_append, List.sum_append, h.byteCount]
    rfl
  have hbytes : ((List.range (k + 1)).map sizes).sum ≤ maxResponseBytes := by
    refine le_trans ?_ hlimit
    have hstart : (List.range (k + 1)).Sublist (List.range (requests records.length counted)) :=
      List.range_sublist.mpr hk
    exact (hstart.map sizes).sum_le_sum fun _ _ => Nat.zero_le _
  -- where a count was given it is that of the list
  have hcount : ∀ count ∈ (if counted then some (records.length : ℤ) else none),
      count ≤ (maxRecords : ℤ) := by
    intro count hmem
    cases counted with
    | true =>
      rw [← Option.some.inj hmem]
      exact_mod_cast hmax
    | false => cases hmem
  have hrows : ∀ row ∈ pageOf records k, WellFormed field row := fun row hrow =>
    hfields row (List.mem_of_mem_drop (List.mem_of_mem_take hrow))
  refine ⟨{ values := gathered field (records.take (pageSize * (k + 1))),
            offset := s.offset + (pageOf records k).length,
            byteCount := s.byteCount + sizes k }, page_eq_ok.mpr ⟨pageOf records k,
    if counted then some (records.length : ℤ) else none, ?_⟩, rfl, hsum.symm⟩
  rw [h.offset]
  refine ⟨hserves.asked k, hserves.answered k, ⟨_, hserves.reply k, pageRows_page records k⟩,
    ⟨?_, Nat.le_add_right _ _⟩, ⟨?_, hcount⟩, collect_eq_ok.mpr ⟨hrows, ?_⟩,
    by rw [h.offset], complete_page hk⟩
  · rw [Nat.add_sub_cancel_left]
    exact hsizes k hk
  · rw [← hsum]
    exact hbytes
  · rw [take_succ_page, gathered_append, h.values]

/-- Every request of a list that ends in time is below the limit. -/
theorem offset_lt {count k : ℕ} (hk : k < requests count counted) (hmax : count ≤ maxRecords)
    (hfull : counted = false → count ≠ maxRecords) : pageSize * k < maxRecords := by
  simp only [requests, pageSize, maxRecords] at hk hmax hfull ⊢
  cases counted with
  | true =>
    by_cases hcount : 0 < count
    · simp only [hcount, and_self, if_true] at hk
      omega
    · simp only [hcount, and_false, if_false] at hk
      omega
  | false =>
    have hne := hfull rfl
    simp only [Bool.false_eq_true, false_and, if_false] at hk
    omega

/-- A list that is served page by page is read to its end. -/
theorem loop_static {field : String} (hserves : Serves lib deadline serve records counted)
    (hfields : ∀ row ∈ records, WellFormed field row) (hbytes : WithinBytes lib records counted)
    (hmax : records.length ≤ maxRecords) (hfull : counted = false → records.length ≠ maxRecords) :
    loop lib field deadline serve 0 {} = .ok (projection field records) := by
  obtain ⟨sizes, hsizes, hlimit⟩ := hbytes
  -- the induction is on the requests that are left
  have hloop : ∀ rest k s, k + (rest + 1) = requests records.length counted →
      AtPage field records sizes k s →
      loop lib field deadline serve k s = .ok (projection field records) := by
    intro rest
    induction rest with
    | zero =>
      intro k s hk h
      have hlt : k < requests records.length counted := by omega
      obtain ⟨s', hpage, hvalues, -⟩ := page_static hserves hfields hsizes hlimit hmax hlt h
      -- the last page ends the list, so all of it has been gathered
      rw [decide_eq_true (by omega)] at hpage
      have hoffset : s.offset < maxRecords := by
        rw [h.offset]
        exact offset_lt hlt hmax hfull
      rw [loop_ended hoffset hpage, hvalues, lookup_gathered]
      have hall : records.length ≤ pageSize * (k + 1) := by
        have hrequests := hk
        unfold requests at hrequests
        simp only [pageSize] at hrequests ⊢
        split at hrequests <;> omega
      rw [List.take_of_length_le hall]
    | succ rest ih =>
      intro k s hk h
      have hlt : k < requests records.length counted := by omega
      obtain ⟨s', hpage, hvalues, hcount⟩ := page_static hserves hfields hsizes hlimit hmax hlt h
      -- any other page is full, and the loop goes on behind it
      rw [decide_eq_false (by omega)] at hpage
      have hoffset : s.offset < maxRecords := by
        rw [h.offset]
        exact offset_lt hlt hmax hfull
      rw [loop_more hoffset hpage]
      refine ih (k + 1) s' (by omega) ⟨?_, hcount, hvalues⟩
      rw [page_offset hpage, h.offset]
      rfl
  have hsome : 0 < requests records.length counted := by
    unfold requests
    simp only [pageSize]
    split <;> omega
  refine hloop (requests records.length counted - 1) 0 {} (by omega) ⟨rfl, rfl, ?_⟩
  rw [Nat.mul_zero, List.take_zero]
  rfl

/-- A full list without its count is refused: nothing tells that it ends there. -/
theorem loop_full_list {field : String} (hserves : Serves lib deadline serve records false)
    (hfields : ∀ row ∈ records, WellFormed field row) (hbytes : WithinBytes lib records false)
    (hfull : records.length = maxRecords) : loop lib field deadline serve 0 {}
      = refuse "Source API response exceeds the browsing limit." := by
  obtain ⟨sizes, hsizes, hlimit⟩ := hbytes
  have hrequests : requests records.length false = 101 := by
    rw [hfull]
    rfl
  have hloop : ∀ rest k s, k + rest = 100 → AtPage field records sizes k s →
      loop lib field deadline serve k s
        = refuse "Source API response exceeds the browsing limit." := by
    intro rest
    induction rest with
    | zero =>
      intro k s hk h
      apply loop_full
      rw [h.offset]
      simp only [pageSize, maxRecords]
      omega
    | succ rest ih =>
      intro k s hk h
      have hlt : k < requests records.length false := by omega
      obtain ⟨s', hpage, hvalues, hcount⟩ :=
        page_static hserves hfields hsizes hlimit (le_of_eq hfull) hlt h
      rw [decide_eq_false (by omega)] at hpage
      have hoffset : s.offset < maxRecords := by
        rw [h.offset]
        simp only [pageSize, maxRecords]
        omega
      rw [loop_more hoffset hpage]
      refine ih (k + 1) s' (by omega) ⟨?_, hcount, hvalues⟩
      rw [page_offset hpage, h.offset]
      rfl
  refine hloop 100 0 {} rfl ⟨rfl, rfl, ?_⟩
  rw [Nat.mul_zero, List.take_zero]
  rfl

end Static

/-! ## Completeness -/

/-- Lookups are complete, never partial. A list of at most 10,000 records that the upstream serves in
pages is projected as a whole, but for exactly 10,000 records without a count, which are refused. Of
any answers whatsoever the lookup returns the projection of all the pages up to the end of the list,
or it raises: a `SourceDataError`, unless a codec breaks on an answer. -/
theorem lookup_complete (lib : Codecs) (resource : Resource) (now : ℚ)
    (serve : ℕ → ℕ → Exchange) :
    (∀ records counted, Serves lib (now + 20) serve records counted →
        (∀ row ∈ records, WellFormed resource.field row) → WithinBytes lib records counted →
        records.length ≤ maxRecords →
        fetchFilteredLookup lib resource now serve =
          if counted = false ∧ records.length = maxRecords then
            refuse "Source API response exceeds the browsing limit."
          else .ok (projection resource.field records))
      ∧ (∀ result, fetchFilteredLookup lib resource now serve = .ok result →
        ∃ pages, ReadsAll lib serve pages ∧ result = projection resource.field pages.flatten)
      ∧ ((∀ k start, ¬ Breaks lib (serve k start)) →
        ∀ fault, fetchFilteredLookup lib resource now serve = .error fault →
          ∃ message, fault = .refused message) := by
  refine ⟨fun records counted hserves hfields hbytes hmax => ?_, fun result h => ?_,
    fun hcodecs fault h => loop_refuses hcodecs h⟩
  · by_cases hfull : counted = false ∧ records.length = maxRecords
    · rw [if_pos hfull]
      obtain ⟨rfl, hlength⟩ := hfull
      exact loop_full_list hserves hfields hbytes hlength
    · rw [if_neg hfull]
      exact loop_static hserves hfields hbytes hmax fun hcounted hlength => hfull ⟨hcounted, hlength⟩
  · have hstart : Holds lib serve resource.field 0 {} [] := ⟨.start, rfl, rfl, rfl⟩
    exact loop_sound hstart h

namespace Sample

def row : Fields := [(PyStr.ofString "model", .str (PyStr.ofString "First"))]

/-- The JSON text of that many of these records. -/
def pageText (count : ℕ) : Text :=
  '[' :: ([',', ' '].intercalate
    (List.replicate count "\x7b\"model\": \"First\"\x7d".toList) ++ [']'])

def body (count : ℕ) : List UInt8 := (pageText count).map fun c => c.toNat.toUInt8

def rows (count : ℕ) : List Fields := List.replicate count row

/-- A last page of one other record. -/
def last : List Fields := [[(PyStr.ofString "model", .str (PyStr.ofString "Second"))]]

def lastText : Text := "[\x7b\"model\": \"Second\"\x7d]".toList

def lastBody : List UInt8 := lastText.map fun c => c.toNat.toUInt8

/-- The sample records are well formed. -/
theorem wellFormed_of_mem {count : ℕ} {r : Fields} (h : r ∈ rows count) :
    WellFormed (Resource.field .models) r := by
  rw [List.eq_of_mem_replicate h]
  exact ⟨.str (PyStr.ofString "First"), by with_unfolding_all rfl, .inr (.inl ⟨_, rfl⟩)⟩

/-- `json.loads` of the pages below. -/
def loads (text : List UInt8) : Loaded :=
  if text = body 100 then .value (.arr ((rows 100).map .obj))
  else if text = lastBody then .value (.arr (last.map .obj))
  else if text = body 0 then .value (.arr [])
  else .valueError

/-- The codecs on the pages below. -/
def codecs : Codecs where
  lower s := s
  casefold s := s
  idna s := some s
  int s := if s = PyStr.ofString "101" then some 101 else none
  float _ := none
  floatOfInt _ := none
  floatRepr _ := ""
  loads := loads
  dumps records := .ok ((if records.length = 1 then lastText else pageText records.length).map
    fun c => Fin.ofNat 0x110000 c.toNat)

def answer (total : Option PyStr) (bytes : List UInt8) : Exchange :=
  { asked := 0, started := 0, answered := 0
    reply := .response { status_code := 200, contentType := some (PyStr.ofString "application/json"),
                         totalCount := total, chunks := [{ bytes, time := 0 }] } }

/-- The sample bodies by their length. -/
theorem body_length : (body 0).length = 2 ∧ lastBody.length = 21 ∧ (body 100).length = 2000 := by
  decide +kernel

/-- The sample bodies are within the response limit. -/
theorem body_le {bytes : List UInt8} (h : bytes = body 0 ∨ bytes = lastBody ∨ bytes = body 100) :
    bytes.length ≤ maxResponseBytes := by
  obtain ⟨hempty, hlast, hfull⟩ := body_length
  unfold maxResponseBytes
  rcases h with rfl | rfl | rfl <;> omega

/-- Two bodies of different length differ. -/
theorem body_ne {a b : List UInt8} (h : a.length ≠ b.length) : a ≠ b :=
  fun heq => h (congrArg List.length heq)

/-- The sample deadline is not over at once. -/
theorem in_time : (0 : ℚ) ≤ 0 + 20 := by
  norm_num

/-- What the sample source answers with a body. -/
theorem getJson_answer {total : Option PyStr} {bytes : List UInt8} {t : Option ℤ} {v : PyJson}
    (hbytes : bytes = body 0 ∨ bytes = lastBody ∨ bytes = body 100)
    (ht : totalOf codecs total = .ok t) (hv : codecs.loads bytes = .value v) :
    getJson codecs false (answer total bytes) = .ok (v, t) := by
  have hmedia : mediaType codecs (some (PyStr.ofString "application/json"))
      = PyStr.ofString "application/json" := by
    decide +kernel
  have htime : (0 : ℚ) ≤ 20 := by norm_num
  have hlength := body_le hbytes
  simp [getJson, answer, readResponse, ensure, htime, hmedia, ht, readBody, hlength, hv, bind,
    Except.bind, pure, Except.pure]

/-- The pages of equal records are equal records. -/
theorem pageOf_rows (count k : ℕ) :
    pageOf (rows count) k = rows (min pageSize (count - pageSize * k)) := by
  rw [pageOf, rows, List.drop_replicate, List.take_replicate, rows]

/-- The sample codecs decode by the table of bodies. -/
theorem codecs_loads : codecs.loads = loads := rfl

/-- The full sample body decodes to a hundred records. -/
theorem loads_full : codecs.loads (body 100) = .value (.arr ((rows 100).map .obj)) := by
  rw [codecs_loads, loads, if_pos rfl]

/-- The empty sample body decodes to no record. -/
theorem loads_empty : codecs.loads (body 0) = .value (.arr ((rows 0).map .obj)) := by
  obtain ⟨hempty, hlast, hlong⟩ := body_length
  have hfull : body 0 ≠ body 100 := body_ne (by omega)
  have hother : body 0 ≠ lastBody := body_ne (by omega)
  rw [codecs_loads, loads, if_neg hfull, if_neg hother, if_pos rfl]
  rfl

/-- The last sample body decodes to the other record. -/
theorem loads_last : codecs.loads lastBody = .value (.arr (last.map .obj)) := by
  obtain ⟨hempty, hlast, hlong⟩ := body_length
  have hfull : lastBody ≠ body 100 := body_ne (by omega)
  rw [codecs_loads, loads, if_neg hfull, if_pos rfl]

/-- A list of 10,000 records, served without its count. -/
def served (_ start : ℕ) : Exchange := answer none (body (min pageSize (maxRecords - start)))

/-- The pages of that list are full, until it ends. -/
theorem full_or_empty (k : ℕ) : min pageSize (maxRecords - pageSize * k) = 100
    ∨ min pageSize (maxRecords - pageSize * k) = 0 := by
  simp only [pageSize, maxRecords]
  omega

/-- The sample serves its 10,000 records page by page. -/
theorem serves_full : Serves codecs (0 + 20) served (rows maxRecords) false where
  reply k := by
    rw [pageOf_rows, if_neg Bool.false_ne_true]
    unfold served
    rcases full_or_empty k with hfull | hempty
    · rw [hfull]
      exact getJson_answer (.inr (.inr rfl)) rfl loads_full
    · rw [hempty]
      exact getJson_answer (.inl rfl) rfl loads_empty
  asked k := by
    exact in_time
  answered k := by
    exact in_time

/-- The sizes of the sample pages. -/
theorem rowsSize_rows : rowsSize codecs (rows 0) = .ok 2 ∧ rowsSize codecs last = .ok 21
    ∧ rowsSize codecs (rows 100) = .ok 2000 := by
  decide +kernel

/-- The full list is within the byte limit. -/
theorem within_full : WithinBytes codecs (rows maxRecords) false := by
  refine ⟨fun k => if min pageSize (maxRecords - pageSize * k) = 100 then 2000 else 2,
    fun k _ => ?_, ?_⟩
  · rw [pageOf_rows]
    rcases full_or_empty k with hfull | hempty
    · simp only [hfull, if_true]
      exact rowsSize_rows.2.2
    · simp only [hempty]
      exact rowsSize_rows.1
  · have hrequests : requests (rows maxRecords).length false = 101 := by
      rw [rows, List.length_replicate]
      rfl
    have hsum := List.sum_le_card_nsmul ((List.range 101).map fun k =>
      if min pageSize (maxRecords - pageSize * k) = 100 then 2000 else 2) 2000 fun size hsize => by
        obtain ⟨k, -, rfl⟩ := List.mem_map.mp hsize
        split <;> omega
    rw [List.length_map, List.length_range, smul_eq_mul] at hsum
    rw [hrequests]
    exact hsum.trans (by decide)

/-- A list of two pages, served with its count. -/
def twoPages : List Fields := rows 100 ++ last

def counted (_ start : ℕ) : Exchange :=
  answer (some (PyStr.ofString "101"))
    (if start = 0 then body 100 else if start = 100 then lastBody else body 0)

/-- The list of two pages, page by page. -/
theorem pageOf_twoPages : pageOf twoPages 0 = rows 100 ∧ pageOf twoPages 1 = last ∧
    ∀ k, pageOf twoPages (k + 2) = [] := by
  have hfirst : (rows 100).length = 100 := List.length_replicate
  refine ⟨?_, ?_, fun k => ?_⟩
  · show List.take 100 (rows 100 ++ last) = rows 100
    exact List.take_left' hfirst
  · show List.take 100 (List.drop 100 (rows 100 ++ last)) = last
    rw [List.drop_left' hfirst]
    rfl
  · have hlength : twoPages.length = 101 := by
      rw [twoPages, List.length_append, hfirst]
      rfl
    rw [pageOf, List.drop_eq_nil_of_le (by simp only [pageSize]; omega), List.take_nil]

/-- The sample serves its two pages with the count. -/
theorem serves_counted : Serves codecs (0 + 20) counted twoPages true where
  reply k := by
    obtain ⟨hfirst, hsecond, hrest⟩ := pageOf_twoPages
    have hlength : twoPages.length = 101 := by
      rw [twoPages, List.length_append]
      exact congrArg (· + 1) List.length_replicate
    have htotal : totalOf codecs (some (PyStr.ofString "101")) = .ok (some 101) := by
      with_unfolding_all rfl
    rw [if_pos rfl, hlength]
    unfold counted
    by_cases hzero : k = 0
    · rw [hzero, hfirst]
      exact getJson_answer (.inr (.inr rfl)) htotal loads_full
    by_cases hone : k = 1
    · rw [hone, hsecond]
      exact getJson_answer (.inr (.inl rfl)) htotal loads_last
    · obtain ⟨j, rfl⟩ : ∃ j, k = j + 2 := ⟨k - 2, by omega⟩
      have hbehind : pageSize * (j + 2) ≠ 0 ∧ pageSize * (j + 2) ≠ 100 := by
        simp only [pageSize]
        omega
      rw [hrest, if_neg hbehind.1, if_neg hbehind.2]
      exact getJson_answer (.inl rfl) htotal loads_empty
  asked k := by
    exact in_time
  answered k := by
    exact in_time

end Sample

/-- The list of exactly 10,000 records, served in order in pages of 100 without a total count, is
refused. -/
theorem full_list_refused : Serves Sample.codecs (0 + 20) Sample.served (Sample.rows maxRecords) false
      ∧ (∀ row ∈ Sample.rows maxRecords, WellFormed (Resource.field .models) row)
      ∧ WithinBytes Sample.codecs (Sample.rows maxRecords) false
      ∧ (Sample.rows maxRecords).length ≤ maxRecords
      ∧ fetchFilteredLookup Sample.codecs .models 0 Sample.served
        ≠ .ok (projection (Resource.field .models) (Sample.rows maxRecords)) := by
  have hfields : ∀ row ∈ Sample.rows maxRecords, WellFormed (Resource.field .models) row :=
    fun row hrow => Sample.wellFormed_of_mem hrow
  have hlength : (Sample.rows maxRecords).length = maxRecords := List.length_replicate
  refine ⟨Sample.serves_full, hfields, Sample.within_full, le_of_eq hlength, ?_⟩
  rw [fetchFilteredLookup, loop_full_list Sample.serves_full hfields Sample.within_full hlength]
  exact fun h => by cases h

/-- The records of both pages are projected. -/
theorem lookup_complete_sample : fetchFilteredLookup Sample.codecs .models 0 Sample.counted
      = .ok (projection (Resource.field .models) Sample.twoPages) := by
  have hlength : Sample.twoPages.length = 101 := by
    rw [Sample.twoPages, List.length_append]
    exact congrArg (· + 1) List.length_replicate
  have hfields : ∀ row ∈ Sample.twoPages, WellFormed (Resource.field .models) row := by
    intro row hrow
    rcases List.mem_append.mp hrow with hrow | hrow
    · exact Sample.wellFormed_of_mem hrow
    · rw [List.mem_singleton.mp hrow]
      exact ⟨.str (PyStr.ofString "Second"), by with_unfolding_all rfl, .inr (.inl ⟨_, rfl⟩)⟩
  have hbytes : WithinBytes Sample.codecs Sample.twoPages true := by
    obtain ⟨hfirst, hsecond, -⟩ := Sample.pageOf_twoPages
    obtain ⟨-, hlast, hfull⟩ := Sample.rowsSize_rows
    refine ⟨fun k => if k = 0 then 2000 else 21, fun k hk => ?_, ?_⟩
    · have hrequests : requests Sample.twoPages.length true = 2 := by
        rw [hlength]
        rfl
      have hpage : k = 0 ∨ k = 1 := by omega
      rcases hpage with rfl | rfl
      · rw [hfirst]
        exact hfull
      · rw [hsecond]
        exact hlast
    · rw [hlength]
      decide
  have hcomplete := (lookup_complete Sample.codecs .models 0 Sample.counted).1 Sample.twoPages true
    Sample.serves_counted hfields hbytes (by rw [hlength]; decide)
  exact hcomplete.trans (if_neg fun h => absurd h.1 (by decide))

end SourceLookup
end FrappeController
