import FrappeController.Library.Transaction
import FrappeController.SourceCatalog
import Mathlib.Algebra.Order.Ring.Rat

/-!
# `source_data.py`: looking up the values of a field

`_fetch_filtered_lookup` reads a catalog page by page and returns the values of one field. What
comes from outside is what the upstream answers to each request and what the clock shows; the codecs
of `json` are those of the library.
-/

namespace FrappeController
namespace SourceLookup

open PyJson
open SourceCatalog (SourceFault NumberLibrary integer)

def maxResponseBytes : ℕ := 2 * 1024 * 1024
def maxRecords : ℕ := 10000
def pageSize : ℕ := 100

/-- The keys of `LOOKUPS`. -/
inductive Resource where
  | brands | models | years | structures | engines
  deriving DecidableEq

/-- `LOOKUPS[resource]` -/
def Resource.field : Resource → String
  | .brands => "brand"
  | .models => "model"
  | .years => "year"
  | .structures => "structureType"
  | .engines => "engine"

/-- How `json.loads(body)` ends. -/
inductive Loaded where
  | value (value : PyJson)
  /-- A `ValueError`, decoding errors of the text included. -/
  | valueError
  /-- Any other exception, such as `RecursionError`. -/
  | raised (exception : String)

/-- The codecs. -/
structure Codecs extends NumberLibrary where
  /-- `json.loads(body)` -/
  loads : List UInt8 → Loaded
  /-- `json.dumps(rows, ensure_ascii=False)`, or the exception it raises -/
  dumps : List Fields → Except String PyStr

/-! ## What the upstream answers -/

/-- A chunk of the body and the time at which it has arrived. -/
structure Chunk where
  bytes : List UInt8
  time : ℚ

structure Response where
  status_code : ℕ
  contentType : Option PyStr
  totalCount : Option PyStr
  chunks : List Chunk
  /-- The stream ends with a `RequestException`. -/
  broken : Bool := false

inductive Reply where
  /-- `requests.RequestException` -/
  | requestException
  /-- The `SourceDataError` of the guarded adapter. -/
  | blocked (message : String)
  | response (response : Response)

/-- One request of the loop: the clock before it, at its start and after it. -/
structure Exchange where
  asked : ℚ
  started : ℚ
  reply : Reply
  answered : ℚ

/-! ## `_get_json` -/

variable (lib : Codecs)

def refuse {α : Type} (message : String) : Except SourceFault α := .error (.refused message)

/-- Go on where the condition holds. -/
def ensure (p : Prop) [Decidable p] (message : String) : Except SourceFault Unit :=
  if p then .ok () else refuse message

/-- The loop over the chunks, `body` what has arrived before. -/
def readBody (deadline : ℚ) : List UInt8 → List Chunk → Except SourceFault (List UInt8)
  | body, [] => .ok body
  | body, chunk :: rest => do
    ensure (chunk.time ≤ deadline) "Source API response timed out."
    ensure ((body ++ chunk.bytes).length ≤ maxResponseBytes)
      "Source API response exceeds the browsing limit."
    readBody deadline (body ++ chunk.bytes) rest

/-- `headers.get("Content-Type", "").split(";", 1)[0].strip().lower()` -/
def mediaType (contentType : Option PyStr) : PyStr :=
  lib.lower (PyStr.strip ((contentType.getD []).takeWhile (· != (59 : CodePoint))))

/-- The count of the header, where there is one. -/
def totalOf : Option PyStr → Except SourceFault (Option ℤ)
  | none => .ok none
  | some text =>
    match integer lib.toNumberLibrary (.str text) "source total count" 0 2147483647 with
    | .ok total => .ok (some total)
    | .error _ => refuse "Source API returned an invalid total count."

def cannotConnect : String := "Cannot connect to the source API. Please try again later."

/-- A response with a body. -/
def readResponse (deadline : ℚ) (response : Response) :
    Except SourceFault (List UInt8 × Option ℤ) := do
  ensure (response.status_code = 200) ("Source API is unavailable (HTTP "
    ++ toString response.status_code ++ "). Please try again later.")
  ensure (mediaType lib response.contentType = PyStr.ofString "application/json")
    "Source API returned an unexpected response format."
  let total ← totalOf lib response.totalCount
  let body ← readBody deadline [] response.chunks
  ensure (response.broken = false) cannotConnect
  return (body, total)

/-- `_get_json` -/
def getJson (missingOk : Bool) (exchange : Exchange) : Except SourceFault (PyJson × Option ℤ) :=
  match exchange.reply with
  | .requestException => refuse cannotConnect
  | .blocked message => refuse message
  | .response response =>
    if response.status_code = 404 ∧ missingOk = true then .ok (.null, none)
    else do
      let (body, total) ← readResponse lib (exchange.started + 20) response
      match lib.loads body with
      | .value value => return (value, total)
      | .valueError => refuse "Source API returned invalid JSON."
      | .raised exception => .error (.raised exception)

/-! ## Pages -/

/-- The bytes of a code point in UTF-8; surrogates have none. -/
def utf8Length (c : CodePoint) : Option ℕ :=
  if c.val < 0x80 then some 1
  else if c.val < 0x800 then some 2
  else if 0xD800 ≤ c.val ∧ c.val < 0xE000 then none
  else if c.val < 0x10000 then some 3
  else some 4

/-- `len(text.encode())`, nothing where it raises `UnicodeEncodeError`. -/
def encodedLength (text : PyStr) : Option ℕ := (text.mapM utf8Length).map List.sum

/-- `len(json.dumps(rows, ensure_ascii=False).encode())` -/
def rowsSize (rows : List Fields) : Except SourceFault ℕ :=
  match lib.dumps rows with
  | .error exception => .error (.raised exception)
  | .ok text =>
    match encodedLength text with
    | some size => .ok size
    | none => .error (.raised "UnicodeEncodeError")

def dict? : PyJson → Option Fields
  | .obj fields => some fields
  | _ => none

/-- A list of at most a page of records. -/
def pageRows (value : PyJson) : Except SourceFault (List Fields) :=
  match value with
  | .arr items =>
    match items.mapM dict? with
    | some rows =>
      if rows.length ≤ pageSize then .ok rows
      else refuse "Source API returned an unexpected record structure."
    | none => refuse "Source API returned an unexpected record structure."
  | _ => refuse "Source API returned an unexpected record structure."

/-- `str(value)` of a text or an integer. -/
def strOf : PyJson → PyStr
  | .str s => s
  | .int n => PyStr.ofString (toString n)
  | _ => []

/-- Different texts, each with the value it was first seen for. -/
abbrev Values := List (PyStr × PyJson)

/-- `values.setdefault(text, value)` -/
def setdefault (values : Values) (entry : PyStr × PyJson) : Values :=
  if values.any fun other => entry.1 == other.1 then values else values ++ [entry]

/-- The value of a record, unless it is null or blank. -/
def valueOf (field : String) (row : Fields) : Except SourceFault (Option (PyStr × PyJson)) :=
  match field? row field with
  | some .null => .ok none
  | some (.str s) => .ok (if s.strip = [] then none else some (s, .str s))
  | some (.int n) =>
    .ok (if (strOf (.int n)).strip = [] then none else some (strOf (.int n), .int n))
  | _ => refuse "Source API returned an unexpected lookup structure."

/-- The loop over the rows. -/
def collect (field : String) : Values → List Fields → Except SourceFault Values
  | values, [] => .ok values
  | values, row :: rest => do
    match ← valueOf field row with
    | some entry => collect field (setdefault values entry) rest
    | none => collect field values rest

/-- The variables of the loop. -/
structure State where
  values : Values := []
  offset : ℕ := 0
  byteCount : ℕ := 0

/-- Whether the list ends with these rows; an error where they contradict the total count. -/
def complete (offset count : ℕ) : Option ℤ → Except SourceFault Bool
  | some total =>
    if total < offset ∨ (count < pageSize ∧ offset < total) then
      refuse "Source API returned an inconsistent total count."
    else .ok (decide ((offset : ℤ) = total))
  | none => .ok (decide (count < pageSize))

/-- One round of the loop. -/
def page (field : String) (deadline : ℚ) (s : State) (exchange : Exchange) :
    Except SourceFault (State × Bool) := do
  ensure (exchange.asked ≤ deadline) "Source API response timed out."
  let (value, total) ← getJson lib false exchange
  ensure (exchange.answered ≤ deadline) "Source API response timed out."
  let rows ← pageRows value
  let size ← rowsSize lib rows
  ensure (s.byteCount + size ≤ maxResponseBytes ∧ ∀ count ∈ total, count ≤ maxRecords)
    "Source API response exceeds the browsing limit."
  let values ← collect field s.values rows
  let ended ← complete (s.offset + rows.length) rows.length total
  return ({ values, offset := s.offset + rows.length, byteCount := s.byteCount + size }, ended)

/-- What the call returns: the values, each as `{field: value}`, and `request["total"]`. -/
structure Lookup where
  records : List Fields
  total : ℕ

def lookup (field : String) (values : Values) : Lookup :=
  { records := values.map fun entry => [(PyStr.ofString field, entry.2)]
    total := values.length }

/-! ## The loop -/

variable {lib}

theorem ensure_eq_ok {p : Prop} [Decidable p] {message : String} {u : Unit} :
    ensure p message = .ok u ↔ p := by
  unfold ensure
  split
  · rename_i hp
    exact iff_of_true rfl hp
  · rename_i hp
    refine iff_of_false (fun h => ?_) hp
    cases h

/-- What a page that was read has passed. -/
structure PageOk (lib : Codecs) (field : String) (deadline : ℚ) (s : State) (exchange : Exchange)
    (rows : List Fields) (total : Option ℤ) (s' : State) (ended : Bool) : Prop where
  asked : exchange.asked ≤ deadline
  answered : exchange.answered ≤ deadline
  reply : ∃ value, getJson lib false exchange = .ok (value, total) ∧ pageRows value = .ok rows
  size : rowsSize lib rows = .ok (s'.byteCount - s.byteCount) ∧ s.byteCount ≤ s'.byteCount
  limit : s'.byteCount ≤ maxResponseBytes ∧ ∀ count ∈ total, count ≤ maxRecords
  values : collect field s.values rows = .ok s'.values
  offset : s'.offset = s.offset + rows.length
  ended : complete s'.offset rows.length total = .ok ended

theorem page_eq_ok {field : String} {deadline : ℚ} {s s' : State} {exchange : Exchange}
    {ended : Bool} : page lib field deadline s exchange = .ok (s', ended)
      ↔ ∃ rows total, PageOk lib field deadline s exchange rows total s' ended := by
  constructor
  · intro h
    obtain ⟨u, hasked, h⟩ := Transaction.bind_eq_ok.mp h
    obtain ⟨⟨value, total⟩, hreply, h⟩ := Transaction.bind_eq_ok.mp h
    obtain ⟨u', hanswered, h⟩ := Transaction.bind_eq_ok.mp h
    obtain ⟨rows, hrows, h⟩ := Transaction.bind_eq_ok.mp h
    obtain ⟨size, hsize, h⟩ := Transaction.bind_eq_ok.mp h
    obtain ⟨u'', hlimit, h⟩ := Transaction.bind_eq_ok.mp h
    obtain ⟨values, hvalues, h⟩ := Transaction.bind_eq_ok.mp h
    obtain ⟨ended', hended, h⟩ := Transaction.bind_eq_ok.mp h
    cases h
    refine ⟨rows, total, ensure_eq_ok.mp hasked, ensure_eq_ok.mp hanswered,
      ⟨value, hreply, hrows⟩, ⟨?_, Nat.le_add_right _ _⟩, ensure_eq_ok.mp hlimit, hvalues, rfl,
      hended⟩
    rw [Nat.add_sub_cancel_left]
    exact hsize
  · intro h
    obtain ⟨rows, total, h⟩ := h
    obtain ⟨value, hreply, hrows⟩ := h.reply
    have hbytes : s.byteCount + (s'.byteCount - s.byteCount) = s'.byteCount :=
      Nat.add_sub_cancel' h.size.2
    refine Transaction.bind_eq_ok.mpr ⟨(), ensure_eq_ok.mpr h.asked, ?_⟩
    refine Transaction.bind_eq_ok.mpr ⟨(value, total), hreply, ?_⟩
    refine Transaction.bind_eq_ok.mpr ⟨(), ensure_eq_ok.mpr h.answered, ?_⟩
    refine Transaction.bind_eq_ok.mpr ⟨rows, hrows, ?_⟩
    refine Transaction.bind_eq_ok.mpr ⟨_, h.size.1, ?_⟩
    refine Transaction.bind_eq_ok.mpr ⟨(), ensure_eq_ok.mpr (by rw [hbytes]; exact h.limit), ?_⟩
    refine Transaction.bind_eq_ok.mpr ⟨_, h.values, ?_⟩
    refine Transaction.bind_eq_ok.mpr ⟨ended, by rw [← h.offset]; exact h.ended, ?_⟩
    rw [hbytes, ← h.offset]
    rfl

theorem pageRows_length {value : PyJson} {rows : List Fields} (h : pageRows value = .ok rows) :
    rows.length ≤ pageSize := by
  unfold pageRows at h
  split at h
  · split at h
    · split at h
      · rename_i hlength
        rw [← Except.ok.inj h]
        exact hlength
      · cases h
    · cases h
  · cases h

/-- A page that does not end the list is full. -/
theorem full_of_not_ended {offset count : ℕ} {total : Option ℤ}
    (h : complete offset count total = .ok false) : pageSize ≤ count := by
  unfold complete at h
  split at h
  · rename_i total
    split at h
    · cases h
    · rename_i hconsistent
      have hne : ¬ (offset : ℤ) = total := of_decide_eq_false (Except.ok.inj h)
      omega
  · have hfull : ¬ count < pageSize := of_decide_eq_false (Except.ok.inj h)
    omega

theorem page_offset {field : String} {deadline : ℚ} {s s' : State} {exchange : Exchange}
    (h : page lib field deadline s exchange = .ok (s', false)) :
    s'.offset = s.offset + pageSize := by
  obtain ⟨rows, total, hpage⟩ := page_eq_ok.mp h
  obtain ⟨value, -, hrows⟩ := hpage.reply
  have hlength := pageRows_length hrows
  have hfull := full_of_not_ended hpage.ended
  have hoffset := hpage.offset
  omega

variable (lib)

/-- The loop, `k` requests after its start; `serve k start` answers request `k`. -/
def loop (field : String) (deadline : ℚ) (serve : ℕ → ℕ → Exchange) (k : ℕ) (s : State) :
    Except SourceFault Lookup :=
  if s.offset < maxRecords then
    match hpage : page lib field deadline s (serve k s.offset) with
    | .error fault => .error fault
    | .ok (s', true) => .ok (lookup field s'.values)
    | .ok (s', false) => loop field deadline serve (k + 1) s'
  else refuse "Source API response exceeds the browsing limit."
termination_by maxRecords - s.offset
decreasing_by
  have hoffset := page_offset hpage
  have hsize : 0 < pageSize := by decide
  omega

/-- `_fetch_filtered_lookup`, `now` the clock at the start. -/
def fetchFilteredLookup (resource : Resource) (now : ℚ) (serve : ℕ → ℕ → Exchange) :
    Except SourceFault Lookup :=
  loop lib resource.field (now + 20) serve 0 {}

end SourceLookup
end FrappeController
