import FrappeController.SourceData

/-!
# `api/source_data.py`: browsing the external catalog through a cache

`browse` keeps the responses of the source in the cache, under a key that has a generation in it. A
change that may have reached the source takes a fresh generation before it returns, so later calls
do not find what was stored under the old one. Browses and changes run statement by statement beside
each other; the cache may forget any of its entries between two of them.

What is not in the program is kept beside it: the writes the source has made, and for each response
which of them the source had made whenever it answered.
-/

namespace FrappeController
namespace SourceData

/-! ## Browses -/

/-- What a browse asks for: the origin of the settings and the prepared request. -/
structure Query where
  origin : String
  resource : String
  path : String
  params : List (String × Json)

/-- The value `identity` encodes. -/
def Query.identity (query : Query) (generation : String) : Json :=
  .arr [.str query.origin, .str query.resource, .str query.path, .obj query.params, .str generation]

/-- `identity` -/
def Query.text (R : Runtime) (query : Query) (generation : String) : Text :=
  (R.dumpsWith .spaced (query.identity generation)).flatMap Inventory.asciiEscape

/-- `key` -/
def Query.key (R : Runtime) (query : Query) (generation : String) : String :=
  "controller-source-data:" ++ R.sha256 (query.text R generation)

/-- A write of the source, by the number of the call that sent it. -/
abbrev Write := ℕ × Call

/-- `cached`, and the writes the source had made at each of its answers. -/
structure Response where
  records : List Json
  total : Option ℤ
  fetchedAt : String
  answered : List (List Write)

inductive BrowsePhase where
  | begun
  /-- The generation is read. -/
  | captured (generation : String)
  /-- Nothing was cached, and the source has answered so many times. -/
  | fetching (generation : String) (answered : List (List Write))
  /-- The response is valid and not stored yet. -/
  | fetched (generation : String) (response : Response)

/-- A browse under way, and the changes that had returned when it began. -/
structure Browse where
  query : Query
  after : List (ℕ × Call × Answer)
  phase : BrowsePhase

/-- What a browse returned: the response its page is made of. -/
structure View where
  query : Query
  after : List (ℕ × Call × Answer)
  response : Response

/-- `uuid4().hex` -/
def isUuidHex (text : String) : Bool :=
  text.toList.length == 32 &&
    text.toList.all fun c => ('0' ≤ c && c ≤ '9') || ('a' ≤ c && c ≤ 'f')

/-- `result["state"] != "failed"` -/
def notFailed (result : List (String × Json)) : Bool :=
  match Json.get result "state" with
  | .str "failed" => false
  | _ => true

/-- The call returned an outcome, and not that it failed. -/
def Answer.reported : Answer → Bool
  | .recorded output => notFailed output
  | .performed result => notFailed result
  | .busy | .rejected _ | .duplicateEntry | .raised => false

/-! ## Changes and browses beside each other -/

structure Shared where
  changes : World
  /-- `"controller-source-data-generation"` -/
  generation : Option String
  entries : String → Option Response
  browses : ℕ → Option Browse
  nextBrowse : ℕ
  views : List View
  /-- The writes the source has made. -/
  made : List Write
  /-- Those it had made when the generation was set last. -/
  announced : List Write
  /-- The calls that have set the generation. -/
  setters : List ℕ
  /-- The identifiers that have been drawn. -/
  drawn : List String

namespace Shared

variable (R : Runtime) (s : Shared)

def initial : Shared := ⟨World.initial, none, fun _ => none, fun _ => none, 0, [], [], [], [], []⟩

/-- `frappe.cache.get_value("controller-source-data-generation") or "0"` -/
def current : String :=
  match s.generation with
  | none => "0"
  | some generation => if generation = "" then "0" else generation

def moveBrowse (k : ℕ) (browse : Browse) (phase : BrowsePhase) : Shared :=
  { s with browses := Function.update s.browses k (some { browse with phase := phase }) }

def dropBrowse (k : ℕ) : Shared := { s with browses := Function.update s.browses k none }

def keep (key : String) (response : Response) : Shared :=
  { s with entries := Function.update s.entries key (some response) }

def showPage (k : ℕ) (browse : Browse) (response : Response) : Shared :=
  { s.dropBrowse k with views := s.views ++ [⟨browse.query, browse.after, response⟩] }

/-- A call whose outcome is recorded has its `set_value` before it, unless it has failed. -/
def mayReturn : Label → Bool
  | .next n _ =>
    match s.changes.running n with
    | some ⟨_, .recorded result⟩ => !notFailed result || s.setters.contains n
    | _ => true
  | _ => true

/-- The `set_value` of a call with a fresh identifier. -/
def announce (n : ℕ) (generation : String) : Option Shared :=
  match s.changes.running n with
  | some ⟨_, .recorded result⟩ =>
    if notFailed result && !s.setters.contains n && isUuidHex generation
        && !s.drawn.contains generation then
      some { s with
        generation := some generation, announced := s.made, setters := n :: s.setters,
        drawn := generation :: s.drawn }
    else none
  | _ => none

/-- The source makes a write that was sent to it: while its call waits, or later, when `_write` has
given up waiting or the process has died. -/
def make (n : ℕ) : Option Shared :=
  match s.changes.performed.find? (·.1 == n) with
  | some write =>
    if s.made.any (·.1 == n) then none else some { s with made := s.made ++ [write] }
  | none => none

/-- A browse reads the generation, then looks for an entry. -/
def look (k : ℕ) (browse : Browse) : Option Shared :=
  match browse.phase with
  | .begun => some (s.moveBrowse k browse (.captured s.current))
  | .captured generation =>
    match s.entries (browse.query.key R generation) with
    | some response => some (s.showPage k browse response)
    | none => some (s.moveBrowse k browse (.fetching generation []))
  | .fetching _ _ | .fetched _ _ => none

/-- The source answers a request of a browse. -/
def answer (k : ℕ) (browse : Browse) : Option Shared :=
  match browse.phase with
  | .fetching generation answered =>
    some (s.moveBrowse k browse (.fetching generation (answered ++ [s.made])))
  | _ => none

/-- The answers of the source make a valid response. -/
def complete (k : ℕ) (browse : Browse) (records : List Json) (total : Option ℤ)
    (fetchedAt : String) : Option Shared :=
  match browse.phase with
  | .fetching generation (first :: more) =>
    some (s.moveBrowse k browse (.fetched generation ⟨records, total, fetchedAt, first :: more⟩))
  | _ => none

/-- The response is stored and returned. -/
def store (k : ℕ) (browse : Browse) : Option Shared :=
  match browse.phase with
  | .fetched generation response =>
    some ((s.keep (browse.query.key R generation) response).showPage k browse response)
  | _ => none

end Shared

inductive SharedLabel where
  | change (l : Label)
  | make (n : ℕ)
  | announce (n : ℕ) (generation : String)
  | browse (query : Query)
  | look (k : ℕ)
  | answer (k : ℕ)
  | complete (k : ℕ) (records : List Json) (total : Option ℤ) (fetchedAt : String)
  | store (k : ℕ)
  /-- The browse raises, or its process dies. -/
  | leave (k : ℕ)
  /-- The cache forgets the generation. -/
  | forgetGeneration
  /-- A response expires, or the cache forgets it. -/
  | forget (key : String)

variable (R : Runtime)

def sharedStep (s : Shared) : SharedLabel → Option Shared
  | .change l =>
    if s.mayReturn l then (step R s.changes l).map fun w => { s with changes := w } else none
  | .make n => s.make n
  | .announce n generation => s.announce n generation
  | .browse query =>
    some { s with
      nextBrowse := s.nextBrowse + 1,
      browses := Function.update s.browses s.nextBrowse
        (some ⟨query, s.changes.answers, .begun⟩) }
  | .look k => (s.browses k).bind fun browse => s.look R k browse
  | .answer k => (s.browses k).bind fun browse => s.answer k browse
  | .complete k records total fetchedAt =>
    (s.browses k).bind fun browse => s.complete k browse records total fetchedAt
  | .store k => (s.browses k).bind fun browse => s.store R k browse
  | .leave k => (s.browses k).map fun _ => s.dropBrowse k
  | .forgetGeneration => some { s with generation := none }
  | .forget key => some { s with entries := Function.update s.entries key none }

/-- No page shows what the source answered before it had made a write of a change that had returned,
and not as failed, when the browse began. -/
def Coherent (s : Shared) : Prop :=
  ∀ view ∈ s.views, ∀ n call answer, (n, call, answer) ∈ view.after → answer.reported = true →
    ∀ write ∈ s.made, write.2.logName = call.logName →
      ∀ seen ∈ view.response.answered, write ∈ seen

end SourceData
end FrappeController
