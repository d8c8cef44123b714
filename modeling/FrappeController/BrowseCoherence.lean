import FrappeController.ChangeOutcomes
import FrappeController.Library.LengthPrefixed

/-!
# What a browse may show after a change

Each generation has a floor: writes that every response stored under it has seen. A fresh generation
starts with the writes made so far, so the floor of the generation a browse captures has the writes
of all changes that had returned (`Kept`). Three steps break that: the cache forgets the generation,
and with it the browses are back at "0", whose responses may be old; a repeated change is answered
from the journal although no call has set the generation since the write; and the source makes a
write only after its change has returned as uncertain. `Careful` leaves these out.
-/

namespace FrappeController
namespace SourceData

open LengthPrefixed (separated_inj)

/-! ## Keys of different generations -/

/-- A text that JSON writes as it is, between quotes. -/
def Plain (text : String) : Prop :=
  ∀ c ∈ text.toList, c ≠ '"' ∧ escapeChar c = [c] ∧ Inventory.asciiEscape c = [c]

/-- A text without escapes is written as it is. -/
theorem flatMap_self {e : Char → Text} {text : Text} (h : ∀ c ∈ text, e c = [c]) :
    text.flatMap e = text := by
  induction text with
  | nil => rfl
  | cons c text ih =>
    have htail := ih fun d hd => h d (List.mem_cons_of_mem _ hd)
    rw [List.flatMap_cons, h c List.mem_cons_self, htail]
    rfl

/-- The generation stands at the end of the text that is hashed. -/
theorem identity_text (R : Runtime) (query : Query) {generation : String}
    (hplain : Plain generation) :
    ∃ front, query.text R generation = front ++ '"' :: (generation.toList ++ ['"', ']']) := by
  have hquote : quote generation = '"' :: (generation.toList ++ ['"']) := by
    rw [quote, flatMap_self fun c hc => (hplain c hc).2.1]
  have hgeneration : generation.toList.flatMap Inventory.asciiEscape = generation.toList :=
    flatMap_self fun c hc => (hplain c hc).2.2
  refine ⟨('[' :: (quote query.origin ++ ',' :: ' ' :: (quote query.resource ++ ',' :: ' ' ::
    (quote query.path ++ ',' :: ' ' :: (R.print .spaced (Json.obj query.params).sorted
      ++ [',', ' ']))))).flatMap Inventory.asciiEscape, ?_⟩
  have htext : R.dumpsWith .spaced (query.identity generation)
      = ('[' :: (quote query.origin ++ ',' :: ' ' :: (quote query.resource ++ ',' :: ' ' ::
        (quote query.path ++ ',' :: ' ' :: (R.print .spaced (Json.obj query.params).sorted
          ++ [',', ' ']))))) ++ '"' :: (generation.toList ++ ['"', ']']) := by
    show '[' :: (quote query.origin ++ ',' :: ' ' :: (quote query.resource ++ ',' :: ' ' ::
      (quote query.path ++ ',' :: ' ' :: (R.print .spaced (Json.obj query.params).sorted
        ++ ',' :: ' ' :: (quote generation ++ [']'])))))
      = _
    rw [hquote]
    simp only [List.cons_append, List.append_assoc, List.nil_append]
  rw [Query.text, htext, List.flatMap_append]
  congr 1
  have hquoted : Inventory.asciiEscape '"' = ['"'] := by decide
  have hend : (['"', ']'] : Text).flatMap Inventory.asciiEscape = ['"', ']'] := by decide
  rw [List.flatMap_cons, List.flatMap_append, hquoted, hgeneration, hend]
  rfl

/-- Two keys with one start differ in their digests. -/
theorem append_text_inj {start text text' : String} (h : start ++ text = start ++ text') :
    text = text' := by
  have hlist := congrArg String.toList h
  rw [String.toList_append, String.toList_append] at hlist
  exact String.toList_injective (List.append_cancel_left hlist)

/-- Keys of different generations differ, where the hash tells their texts apart. -/
theorem key_separates {R : Runtime} {texts : Set Text} (hhash : Set.InjOn R.sha256 texts)
    {query query' : Query} {generation generation' : String} (hplain : Plain generation)
    (hother : Plain generation') (hmem : query.text R generation ∈ texts)
    (hmem' : query'.text R generation' ∈ texts)
    (h : query.key R generation = query'.key R generation') : generation = generation' := by
  unfold Query.key at h
  have htext := hhash hmem hmem' (append_text_inj h)
  obtain ⟨front, hfront⟩ := identity_text R query hplain
  obtain ⟨front', hfront'⟩ := identity_text R query' hother
  rw [hfront, hfront'] at htext
  -- read from the end, the generation is what stands before the second quote
  have hreverse := congrArg List.reverse htext
  simp only [List.reverse_append, List.reverse_cons, List.reverse_nil, List.nil_append,
    List.append_assoc, List.cons_append] at hreverse
  have hrest := (List.cons.inj (List.cons.inj hreverse).2).2
  have hnotMem : '"' ∉ generation.toList.reverse := by
    intro hmem
    exact (hplain '"' (List.mem_reverse.mp hmem)).1 rfl
  have hnotMem' : '"' ∉ generation'.toList.reverse := by
    intro hmem
    exact (hother '"' (List.mem_reverse.mp hmem)).1 rfl
  have hsame := (separated_inj hnotMem hnotMem' hrest).1
  exact String.toList_injective (List.reverse_injective hsame)

/-- The initial generation is written as it is. -/
theorem plain_zero : Plain "0" := by
  intro c hc
  have hzero : c = '0' := by simpa using hc
  rw [hzero]
  exact ⟨by decide, by decide, by decide⟩

/-- A drawn generation is written as it is. -/
theorem plain_of_uuidHex {generation : String} (h : isUuidHex generation = true) :
    Plain generation := by
  intro c hc
  have hchars := (Bool.and_eq_true_iff.mp h).2
  have hhex := List.all_eq_true.mp hchars c hc
  have hrange : 48 ≤ c.toNat ∧ c.toNat ≤ 57 ∨ 97 ≤ c.toNat ∧ c.toNat ≤ 102 := by
    simp only [Bool.or_eq_true, Bool.and_eq_true, decide_eq_true_eq] at hhex
    rcases hhex with hdigit | hletter
    · exact .inl hdigit
    · exact .inr hletter
  have hne : ∀ d : Char, (d.toNat < 48 ∨ 57 < d.toNat ∧ d.toNat < 97 ∨ 102 < d.toNat) → c ≠ d := by
    intro d hd heq
    rw [heq] at hrange
    omega
  refine ⟨hne '"' (by decide), ?_, ?_⟩
  · rw [escapeChar, if_neg (hne '"' (by decide)), if_neg (hne '\\' (by decide)),
      if_neg (hne '\n' (by decide)), if_neg (hne '\r' (by decide)), if_neg (hne '\t' (by decide)),
      if_neg (by omega), if_neg (by omega), if_neg (by omega)]
  · show (if c.toNat < 127 then [c] else _) = [c]
    rw [if_pos (by omega)]

/-! ## What is kept -/

section Includes

variable {made writes : List Write} {after : List (ℕ × Call × Answer)}

/-- The writes made of the reported changes are among these. -/
def Includes (made : List Write) (after : List (ℕ × Call × Answer)) (writes : List Write) : Prop :=
  ∀ n call answer, (n, call, answer) ∈ after → answer.reported = true →
    ∀ write ∈ made, write.2.logName = call.logName → write ∈ writes

/-- What was made is among itself. -/
theorem includes_self : Includes made after made := fun _ _ _ _ _ _ hwrite _ => hwrite

/-- More writes include what fewer did. -/
theorem Includes.mono {writes' : List Write} (h : Includes made after writes)
    (hsub : writes ⊆ writes') : Includes made after writes' :=
  fun n call answer hmem hreported write hwrite hname =>
    hsub (h n call answer hmem hreported write hwrite hname)

/-- Writes include less where they included more. -/
theorem Includes.of_subset {after' : List (ℕ × Call × Answer)} (h : Includes made after writes)
    (hsub : after' ⊆ after) : Includes made after' writes :=
  fun n call answer hmem => h n call answer (hsub hmem)

/-- One more write, of a change that none of them reported. -/
theorem Includes.snoc {write : Write} (h : Includes made after writes)
    (hnew : ∀ n call answer, (n, call, answer) ∈ after → answer.reported = true →
      write.2.logName ≠ call.logName) : Includes (made ++ [write]) after writes := by
  intro n call answer hmem hreported other hother hname
  rcases List.mem_append.mp hother with hold | hlast
  · exact h n call answer hmem hreported other hold hname
  · rw [List.mem_singleton.mp hlast] at hname
    exact absurd hname (hnew n call answer hmem hreported)

end Includes

def BrowsePhase.generation? : BrowsePhase → Option String
  | .begun => none
  | .captured generation | .fetching generation _ | .fetched generation _ => some generation

/-- The answers of the source so far. -/
def BrowsePhase.answered : BrowsePhase → List (List Write)
  | .begun | .captured _ => []
  | .fetching _ answered => answered
  | .fetched _ response => response.answered

/-- No call of the change has returned an outcome, unless it failed, or has set the generation to
return one. -/
structure Unreported (s : Shared) (name : LogName) : Prop where
  answers : ∀ m call answer, (m, call, answer) ∈ s.changes.answers → answer.reported = true →
    name ≠ call.logName
  setters : ∀ m ∈ s.setters, ∀ r, s.changes.running m = some r → name ≠ r.call.logName

/-- The step does not lead to stale pages. -/
structure Careful (R : Runtime) (s : Shared) (l : SharedLabel) : Prop where
  /-- The cache forgets the generation only while it keeps no response of "0", and the source has
  answered no browse that read "0". -/
  forgets : l = .forgetGeneration → s.generation ≠ none →
    (∀ query : Query, s.entries (query.key R "0") = none) ∧
    ∀ k browse, s.browses k = some browse → browse.phase.generation? = some "0" →
      browse.phase.answered = []
  /-- An outcome of the journal is returned only after a call has set the generation since the
  writes of the change, if the source has made any. -/
  repeats : ∀ n source, l = .change (.next n source) → ∀ call view output,
    s.changes.running n = some ⟨call, .locked view⟩ →
    consult R view call = some (.recorded output) → notFailed output = true →
    ∀ write ∈ s.made, write.2.logName = call.logName → write ∈ s.announced
  /-- The source makes a write while its call waits for it, or at least before its change is
  reported. -/
  makes : ∀ n, l = .make n → ∀ write ∈ s.changes.performed, write.1 = n →
    s.changes.running n = some ⟨write.2, .performing⟩ ∨ Unreported s write.2.logName

def Known (drawn : List String) (generation : String) : Prop :=
  generation = "0" ∨ generation ∈ drawn

/-- What is known of a browse under way that has captured a generation. -/
structure Captured (floor : String → List Write) (made : List Write) (drawn : List String)
    (browse : Browse) (generation : String) : Prop where
  known : Known drawn generation
  seen : ∀ seen ∈ browse.phase.answered, floor generation ⊆ seen
  includes : Includes made browse.after (floor generation)

/-- A call that has set the generation is about to return. -/
structure Announced (made writes : List Write) (r : Running) : Prop where
  recorded : ∃ result, r.phase = .recorded result
  includes : ∀ write ∈ made, write.2.logName = r.call.logName → write ∈ writes

/-- What holds in a run with the labels `ls`. -/
structure Kept (R : Runtime) (ls : List SharedLabel) (floor : String → List Write) (s : Shared) :
    Prop where
  settled : Settled R s.changes
  numbered : ∀ n r, s.changes.running n = some r → n < s.changes.next
  made : ∀ generation, floor generation ⊆ s.made
  known : Known s.drawn s.current
  drawn : ∀ generation ∈ s.drawn, isUuidHex generation = true ∧ ∃ n, .announce n generation ∈ ls
  announced : s.announced ⊆ floor s.current
  stored : ∀ key response, s.entries key = some response → ∃ (query : Query) (generation : String),
    .browse query ∈ ls ∧ key = query.key R generation ∧ Known s.drawn generation ∧
      ∀ seen ∈ response.answered, floor generation ⊆ seen
  asked : ∀ k browse, s.browses k = some browse → .browse browse.query ∈ ls
  browses : ∀ k browse, s.browses k = some browse → browse.after ⊆ s.changes.answers ∧
    ∀ generation, browse.phase.generation? = some generation →
      Captured floor s.made s.drawn browse generation
  reported : Includes s.made s.changes.answers (floor s.current)
  setters : ∀ n ∈ s.setters, n < s.changes.next ∧
    ∀ r, s.changes.running n = some r → Announced s.made (floor s.current) r
  views : ∀ view ∈ s.views, view.after ⊆ s.changes.answers ∧
    ∀ seen ∈ view.response.answered, Includes s.made view.after seen

variable {R : Runtime} {ls : List SharedLabel} {floor : String → List Write} {s s' : Shared}

/-- The invariant gives the coherence of the shown pages. -/
theorem Kept.coherent (h : Kept R ls floor s) : Coherent s :=
  fun view hview n call answer hmem hreported write hwrite hname seen hseen =>
    (h.views view hview).2 seen hseen n call answer hmem hreported write hwrite hname

/-- Every known generation is written as it is. -/
theorem Kept.plain (h : Kept R ls floor s) {generation : String} (hknown : Known s.drawn generation) :
    Plain generation := by
  rcases hknown with hzero | hdrawn
  · rw [hzero]
    exact plain_zero
  · exact plain_of_uuidHex (h.drawn generation hdrawn).1

/-- The texts the keys of a run are hashes of. -/
def hashedTexts (R : Runtime) (ls : List SharedLabel) : Set Text :=
  {text | ∃ (query : Query) (generation : String), .browse query ∈ ls ∧
    (generation = "0" ∨ ∃ n, .announce n generation ∈ ls) ∧ text = query.text R generation}

/-- The text of a query under a known generation is one that is hashed. -/
theorem Kept.hashed (h : Kept R ls floor s) {query : Query} {generation : String}
    (hquery : .browse query ∈ ls) (hknown : Known s.drawn generation) :
    query.text R generation ∈ hashedTexts R ls :=
  ⟨query, generation, hquery, hknown.imp_right fun hdrawn => (h.drawn generation hdrawn).2, rfl⟩

/-- The initial generation is never drawn. -/
theorem not_uuidHex_zero : isUuidHex "0" = false := by decide

/-- A drawn generation that is stored is the current one. -/
theorem current_of_uuidHex {generation : String} (hgeneration : s.generation = some generation)
    (h : isUuidHex generation = true) : s.current = generation := by
  have hne : generation ≠ "" := by
    intro hempty
    rw [hempty] at h
    exact absurd h (by decide)
  rw [Shared.current, hgeneration]
  exact if_neg hne

/-! ## Steps of the browses -/

/-- A browse begins, moves on or ends. -/
theorem Kept.setBrowse (h : Kept R ls floor s) (k : ℕ) {browse? : Option Browse}
    (hasked : ∀ browse, browse? = some browse → .browse browse.query ∈ ls)
    (hkept : ∀ browse, browse? = some browse → browse.after ⊆ s.changes.answers ∧
      ∀ generation, browse.phase.generation? = some generation →
        Captured floor s.made s.drawn browse generation) :
    Kept R ls floor { s with browses := Function.update s.browses k browse? } := by
  have hcases : ∀ {m : ℕ} {browse : Browse},
      Function.update s.browses k browse? m = some browse →
      browse? = some browse ∨ s.browses m = some browse := by
    intro m browse hbrowse
    by_cases hm : m = k
    · rw [hm, Function.update_self] at hbrowse
      exact .inl hbrowse
    · rw [Function.update_of_ne hm] at hbrowse
      exact .inr hbrowse
  refine { h with asked := ?asked, browses := ?browses }
  case asked =>
    intro m browse hbrowse
    rcases hcases hbrowse with hnew | hold
    · exact hasked browse hnew
    · exact h.asked m browse hold
  case browses =>
    intro m browse hbrowse
    rcases hcases hbrowse with hnew | hold
    · exact hkept browse hnew
    · exact h.browses m browse hold

/-- A browse may end at any time. -/
theorem Kept.dropBrowse (h : Kept R ls floor s) (k : ℕ) : Kept R ls floor (s.dropBrowse k) :=
  h.setBrowse k (fun _ heq => by cases heq) (fun _ heq => by cases heq)

/-- A browse may move on with what it has captured. -/
theorem Kept.moveBrowse (h : Kept R ls floor s) {k : ℕ} {browse : Browse}
    (hbrowse : s.browses k = some browse) {phase : BrowsePhase}
    (hkept : ∀ generation, phase.generation? = some generation →
      Captured floor s.made s.drawn { browse with phase := phase } generation) :
    Kept R ls floor (s.moveBrowse k browse phase) := by
  apply h.setBrowse k
  · intro moved heq
    cases heq
    exact h.asked k browse hbrowse
  · intro moved heq
    cases heq
    exact ⟨(h.browses k browse hbrowse).1, hkept⟩

/-- A page is shown: its response is on the floor of the generation the browse captured. -/
theorem Kept.showPage (h : Kept R ls floor s) {k : ℕ} {browse : Browse} {response : Response}
    {generation : String} (hafter : browse.after ⊆ s.changes.answers)
    (hcaptured : Captured floor s.made s.drawn browse generation)
    (hseen : ∀ seen ∈ response.answered, floor generation ⊆ seen) :
    Kept R ls floor (s.showPage k browse response) := by
  refine { h.dropBrowse k with views := ?_ }
  intro view hview
  rcases List.mem_append.mp hview with hold | hnew
  · exact h.views view hold
  · rw [List.mem_singleton.mp hnew]
    exact ⟨hafter, fun seen hmem => hcaptured.includes.mono (hseen seen hmem)⟩

/-- A browse reads the generation, or finds a response of the one it has read. -/
theorem Kept.look (h : Kept R ls floor s) (hhash : Set.InjOn R.sha256 (hashedTexts R ls)) {k : ℕ}
    {browse : Browse} (hbrowse : s.browses k = some browse) (hstep : s.look R k browse = some s') :
    Kept R ls floor s' := by
  have hafter := (h.browses k browse hbrowse).1
  unfold Shared.look at hstep
  split at hstep
  · -- the generation is read after every change the browse follows
    cases hstep
    apply h.moveBrowse hbrowse
    intro generation hgeneration
    cases hgeneration
    exact {
      known := h.known
      seen := fun seen hseen => absurd hseen List.not_mem_nil
      includes := h.reported.of_subset hafter }
  · rename_i generation hphase
    have hcaptured := (h.browses k browse hbrowse).2 generation (by rw [hphase]; rfl)
    cases hentry : s.entries (browse.query.key R generation) with
    | some response =>
      rw [hentry] at hstep
      cases hstep
      obtain ⟨query, stored, hquery, hkey, hknown, hseen⟩ := h.stored _ response hentry
      -- equal keys are of one text, so the page was stored under this generation
      have hsame : generation = stored :=
        key_separates hhash (h.plain hcaptured.known) (h.plain hknown)
          (h.hashed (h.asked k browse hbrowse) hcaptured.known) (h.hashed hquery hknown) hkey
      rw [← hsame] at hseen
      exact h.showPage hafter hcaptured hseen
    | none =>
      rw [hentry] at hstep
      cases hstep
      apply h.moveBrowse hbrowse
      intro generation' hgeneration
      cases hgeneration
      exact {
        known := hcaptured.known
        seen := fun seen hseen => absurd hseen List.not_mem_nil
        includes := hcaptured.includes }
  · cases hstep
  · cases hstep

/-- The source answers with all the writes it has made. -/
theorem Kept.answer (h : Kept R ls floor s) {k : ℕ} {browse : Browse}
    (hbrowse : s.browses k = some browse) (hstep : s.answer k browse = some s') :
    Kept R ls floor s' := by
  unfold Shared.answer at hstep
  split at hstep
  · rename_i generation answered hphase
    cases hstep
    have hcaptured := (h.browses k browse hbrowse).2 generation (by rw [hphase]; rfl)
    apply h.moveBrowse hbrowse
    intro generation' hgeneration
    cases hgeneration
    refine { hcaptured with seen := ?_ }
    intro seen hseen
    rcases List.mem_append.mp hseen with hold | hnew
    · exact hcaptured.seen seen (by rw [hphase]; exact hold)
    · rw [List.mem_singleton.mp hnew]
      exact h.made generation
  · cases hstep

/-- A fetched page keeps what its browse captured before the fetch. -/
theorem Kept.complete (h : Kept R ls floor s) {k : ℕ} {browse : Browse}
    (hbrowse : s.browses k = some browse) {records : List Json} {total : Option ℤ}
    {fetchedAt : String} (hstep : s.complete k browse records total fetchedAt = some s') :
    Kept R ls floor s' := by
  unfold Shared.complete at hstep
  split at hstep
  · rename_i generation first more hphase
    cases hstep
    have hcaptured := (h.browses k browse hbrowse).2 generation (by rw [hphase]; rfl)
    apply h.moveBrowse hbrowse
    intro generation' hgeneration
    cases hgeneration
    refine { hcaptured with seen := ?_ }
    intro seen hseen
    exact hcaptured.seen seen (by rw [hphase]; exact hseen)
  · cases hstep

/-- A page is stored under the generation it was fetched for. -/
theorem Kept.store (h : Kept R ls floor s) {k : ℕ} {browse : Browse}
    (hbrowse : s.browses k = some browse) (hstep : s.store R k browse = some s') :
    Kept R ls floor s' := by
  unfold Shared.store at hstep
  split at hstep
  · rename_i generation response hphase
    cases hstep
    have hcaptured := (h.browses k browse hbrowse).2 generation (by rw [hphase]; rfl)
    have hseen : ∀ seen ∈ response.answered, floor generation ⊆ seen := by
      intro seen hmem
      exact hcaptured.seen seen (by rw [hphase]; exact hmem)
    have hstored : Kept R ls floor (s.keep (browse.query.key R generation) response) := by
      refine { h with stored := ?_ }
      intro key response' hentry
      have hupdate : Function.update s.entries (browse.query.key R generation) (some response) key
          = some response' := hentry
      by_cases hkey : key = browse.query.key R generation
      · rw [hkey, Function.update_self] at hupdate
        cases hupdate
        exact ⟨browse.query, generation, h.asked k browse hbrowse, hkey, hcaptured.known, hseen⟩
      · rw [Function.update_of_ne hkey] at hupdate
        exact h.stored key response' hupdate
    exact hstored.showPage (h.browses k browse hbrowse).1 hcaptured hseen
  · cases hstep

/-! ## What the cache forgets -/

/-- The cache may forget an entry at any time. -/
theorem Kept.forget (h : Kept R ls floor s) (key : String) :
    Kept R ls floor { s with entries := Function.update s.entries key none } := by
  refine { h with stored := ?_ }
  intro key' response hentry
  have hupdate : Function.update s.entries key none key' = some response := hentry
  by_cases hkey : key' = key
  · rw [hkey, Function.update_self] at hupdate
    cases hupdate
  · rw [Function.update_of_ne hkey] at hupdate
    exact h.stored key' response hupdate

/-! ## A new floor -/

/-- Moving the floor of a generation to all that has been made leaves a browse in order that has not
been answered under it. -/
theorem Captured.refloor {made : List Write} {drawn drawn' : List String} {browse : Browse}
    {known generation : String} (h : Captured floor made drawn browse known) (hmore : drawn ⊆ drawn')
    (hanswered : known = generation → browse.phase.answered = []) :
    Captured (Function.update floor generation made) made drawn' browse known := by
  have hknown : Known drawn' known := h.known.imp_right fun hmem => hmore hmem
  by_cases hne : known = generation
  · have hself : Function.update floor generation made known = made := by
      rw [hne]
      exact Function.update_self ..
    refine ⟨hknown, ?_, ?_⟩
    · rw [hanswered hne]
      exact fun seen hseen => absurd hseen List.not_mem_nil
    · rw [hself]
      exact includes_self
  · have hother : Function.update floor generation made known = floor known :=
      Function.update_of_ne hne ..
    refine ⟨hknown, ?_, ?_⟩
    · rw [hother]
      exact h.seen
    · rw [hother]
      exact h.includes

/-- The current generation gets the writes made so far for its floor: no response is stored under it,
and no browse that has read it has an answer. -/
theorem Kept.refloor (h : Kept R ls floor s) {generation : String} {announced : List Write}
    {setters : List ℕ} {drawn : List String} {generation? : Option String}
    (hcurrent : ({ s with generation := generation? } : Shared).current = generation)
    (hannounced : announced ⊆ s.made)
    (hdrawn : ∀ known ∈ drawn, isUuidHex known = true ∧ ∃ n, .announce n known ∈ ls)
    (hmore : s.drawn ⊆ drawn) (hknown : Known drawn generation)
    (hstored : ∀ (query : Query) (known : String) response,
      s.entries (query.key R known) = some response → Known s.drawn known → known ≠ generation)
    (hcaptured : ∀ k browse, s.browses k = some browse →
      browse.phase.generation? = some generation → browse.phase.answered = [])
    (hsetters : ∀ n ∈ setters, n < s.changes.next ∧
      ∀ r, s.changes.running n = some r → ∃ result, r.phase = .recorded result) :
    Kept R ls (Function.update floor generation s.made)
      { s with generation := generation?, announced := announced, setters := setters,
               drawn := drawn } := by
  -- only the floor of the current generation moves, to all that has been made
  have hother : ∀ known, known ≠ generation →
      Function.update floor generation s.made known = floor known :=
    fun known hne => Function.update_of_ne hne ..
  have hself : Function.update floor generation s.made generation = s.made :=
    Function.update_self ..
  have hcurrent' : ({ s with generation := generation?, announced := announced,
                             setters := setters, drawn := drawn } : Shared).current = generation :=
    hcurrent
  refine { h with
    made := ?made, known := ?known, drawn := hdrawn, announced := ?announced, stored := ?stored,
    browses := ?browses, reported := ?reported, setters := ?setters }
  case made =>
    intro known
    by_cases hne : known = generation
    · rw [hne, hself]
      exact List.Subset.refl _
    · rw [hother known hne]
      exact h.made known
  case known =>
    rw [hcurrent']
    exact hknown
  case announced =>
    rw [hcurrent', hself]
    exact hannounced
  -- stored pages are of other generations, whose floors stay
  case stored =>
    intro key response hentry
    obtain ⟨query, known, hquery, hkey, hold, hseen⟩ := h.stored key response hentry
    have hne : known ≠ generation := by
      apply hstored query known response _ hold
      rw [← hkey]
      exact hentry
    exact ⟨query, known, hquery, hkey, hold.imp_right fun hmem => hmore hmem,
      by rw [hother known hne]; exact hseen⟩
  -- a browse that captured this generation has fetched nothing yet
  case browses =>
    intro k browse hbrowse
    have hold := h.browses k browse hbrowse
    refine ⟨hold.1, fun known hphase => ?_⟩
    apply (hold.2 known hphase).refloor hmore
    intro hsame
    exact hcaptured k browse hbrowse (hsame ▸ hphase)
  case reported =>
    rw [hcurrent', hself]
    exact includes_self
  case setters =>
    intro n hn
    rw [hcurrent', hself]
    exact ⟨(hsetters n hn).1, fun r hr => ⟨(hsetters n hn).2 r hr, fun write hwrite _ => hwrite⟩⟩

/-- Back at "0": nothing of its old floor is left. -/
theorem Kept.forgetGeneration (h : Kept R ls floor s)
    (hcareful : Careful R s .forgetGeneration) :
    ∃ floor', Kept R ls floor' { s with generation := none } := by
  by_cases hgeneration : s.generation = none
  · have hsame : ({ s with generation := none } : Shared) = s := by rw [← hgeneration]
    rw [hsame]
    exact ⟨floor, h⟩
  · obtain ⟨hentries, hbrowses⟩ := hcareful.forgets rfl hgeneration
    have hzero : ({ s with generation := none } : Shared).current = "0" := rfl
    have hstored : ∀ (query : Query) (known : String) response,
        s.entries (query.key R known) = some response → Known s.drawn known → known ≠ "0" := by
      intro query known response hentry _ hknown
      rw [hknown, hentries query] at hentry
      cases hentry
    exact ⟨Function.update floor "0" s.made, h.refloor hzero
      (List.Subset.trans h.announced (h.made _)) h.drawn (List.Subset.refl _) (.inl rfl) hstored
      hbrowses fun n hn => ⟨(h.setters n hn).1, fun r hr => ((h.setters n hn).2 r hr).recorded⟩⟩

/-! ## Steps of the changes -/

/-- A fresh generation starts with all the writes made so far. -/
theorem Kept.announce (h : Kept R ls floor s) {n : ℕ} {generation : String}
    (hlabel : .announce n generation ∈ ls) (hstep : s.announce n generation = some s') :
    ∃ floor', Kept R ls floor' s' := by
  unfold Shared.announce at hstep
  split at hstep
  · rename_i call result hr
    split at hstep
    · rename_i hguard
      cases hstep
      simp only [Bool.and_eq_true, Bool.not_eq_true', List.contains_eq_mem, decide_eq_false_iff_not]
        at hguard
      obtain ⟨⟨-, hhex⟩, hfresh⟩ := hguard
      -- the drawn generation is new, so nothing is stored or captured under it
      have hunknown : ∀ known, Known s.drawn known → known ≠ generation := by
        intro known hknown heq
        rw [heq] at hknown
        rcases hknown with hzero | hdrawn
        · rw [hzero] at hhex
          exact absurd (not_uuidHex_zero.symm.trans hhex) Bool.false_ne_true
        · exact hfresh hdrawn
      refine ⟨Function.update floor generation s.made, h.refloor
        (current_of_uuidHex rfl hhex) (List.Subset.refl _) ?drawn
        (fun known hknown => List.mem_cons_of_mem _ hknown) (.inr List.mem_cons_self)
        (fun _ known _ _ hknown => hunknown known hknown) ?captured ?setters⟩
      case drawn =>
        intro known hknown
        rcases List.mem_cons.mp hknown with heq | hold
        · rw [heq]
          exact ⟨hhex, n, hlabel⟩
        · exact h.drawn known hold
      case captured =>
        intro k browse hbrowse hphase
        have hknown := ((h.browses k browse hbrowse).2 generation hphase).known
        exact absurd rfl (hunknown generation hknown)
      case setters =>
        intro m hm
        rcases List.mem_cons.mp hm with heq | hold
        · rw [heq]
          refine ⟨h.numbered n _ hr, fun r hrunning => ?_⟩
          -- a call announces after it has recorded its result
          have hsame : some r = some ⟨call, .recorded result⟩ := hrunning.symm.trans hr
          cases hsame
          exact ⟨result, rfl⟩
        · exact ⟨(h.setters m hold).1, fun r hr => ((h.setters m hold).2 r hr).recorded⟩
    · cases hstep
  · cases hstep

/-- While its call waits, the change of a write is not reported: the calls of a request id hold its
lock one at a time. -/
theorem Kept.unreported (h : Kept R ls floor s) {n : ℕ} {call : Call}
    (hr : s.changes.running n = some ⟨call, .performing⟩) : Unreported s call.logName where
  answers := by
    intro m c answer hmem hreported hname
    exact h.settled.quiet m c answer hmem hreported n _ hr hname (.inr rfl)
  setters := by
    intro m hm r hrunning hname
    obtain ⟨result, hphase⟩ := ((h.setters m hm).2 r hrunning).recorded
    have hid : call.requestId = r.call.requestId := congrArg LogName.requestId hname
    have hlock := (h.settled.calls n _ hr).request (by simp)
    have hlock' := (h.settled.calls m r hrunning).request (by rw [hphase]; simp)
    rw [← hid, hlock] at hlock'
    have hsame : n = m := Option.some.inj hlock'
    rw [← hsame] at hrunning
    have heq : some r = some ⟨call, .performing⟩ := hrunning.symm.trans hr
    rw [Option.some.inj heq] at hphase
    cases hphase

/-- The source makes a write: of a change that no call has reported and none is about to. -/
theorem Kept.make (h : Kept R ls floor s) {n : ℕ} (hcareful : Careful R s (.make n))
    (hstep : s.make n = some s') : Kept R ls floor s' := by
  unfold Shared.make at hstep
  split at hstep
  · rename_i write hfind
    split at hstep
    · cases hstep
    · cases hstep
      have hnumber : write.1 = n := by simpa using List.find?_some hfind
      -- the call of the write runs, or its outcome is still uncertain, so no answer told of it
      have hopen : Unreported s write.2.logName := by
        rcases hcareful.makes n rfl write (List.mem_of_find?_eq_some hfind) hnumber with hr | hopen
        · exact h.unreported hr
        · exact hopen
      have hgrows : s.made ⊆ s.made ++ [write] := List.subset_append_left _ _
      refine { h with
        made := fun generation => List.Subset.trans (h.made generation) hgrows
        browses := ?browses, reported := h.reported.snoc hopen.answers, setters := ?setters,
        views := ?views }
      -- what a browse has seen of answers does not include the new write
      case browses =>
        intro k browse hbrowse
        have hold := h.browses k browse hbrowse
        refine ⟨hold.1, fun generation hcaptured => ?_⟩
        have hkept := hold.2 generation hcaptured
        refine { hkept with includes := hkept.includes.snoc fun m c answer hmem => ?_ }
        exact hopen.answers m c answer (hold.1 hmem)
      case setters =>
        intro m hm
        refine ⟨(h.setters m hm).1, fun r hrunning => ?_⟩
        have hannounced := (h.setters m hm).2 r hrunning
        refine ⟨hannounced.recorded, fun other hother hname => ?_⟩
        rcases List.mem_append.mp hother with hold | hnew
        · exact hannounced.includes other hold hname
        · rw [List.mem_singleton.mp hnew] at hname
          exact absurd hname (hopen.setters m hm r hrunning)
      case views =>
        intro view hview
        have hold := h.views view hview
        refine ⟨hold.1, fun seen hseen => (hold.2 seen hseen).snoc fun m c answer hmem => ?_⟩
        exact hopen.answers m c answer (hold.1 hmem)
  · cases hstep

section Change

variable {w : World} {n : ℕ}

/-- The changes move on, and what is kept of them still holds. -/
theorem Kept.moved (h : Kept R ls floor s) (hsettled : Settled R w)
    (hnumbered : ∀ n r, w.running n = some r → n < w.next)
    (hanswers : s.changes.answers ⊆ w.answers)
    (hreported : Includes s.made w.answers (floor s.current))
    (hsetters : ∀ n ∈ s.setters, n < w.next ∧
      ∀ r, w.running n = some r → Announced s.made (floor s.current) r) :
    Kept R ls floor { s with changes := w } := by
  refine { h with
    settled := hsettled, numbered := hnumbered, browses := ?browses, reported := hreported,
    setters := hsetters, views := ?views }
  case browses =>
    intro k browse hbrowse
    have hold := h.browses k browse hbrowse
    exact ⟨List.Subset.trans hold.1 hanswers, hold.2⟩
  case views =>
    intro view hview
    have hold := h.views view hview
    exact ⟨List.Subset.trans hold.1 hanswers, hold.2⟩

/-- A call begins. -/
theorem Kept.began (h : Kept R ls floor s) (hsettled : Settled R w) {r : Running}
    (hnext : w.next = s.changes.next + 1)
    (hrunning : w.running = Function.update s.changes.running s.changes.next (some r))
    (hanswers : w.answers = s.changes.answers) : Kept R ls floor { s with changes := w } := by
  apply h.moved hsettled
  · intro n r' hr
    rw [hrunning] at hr
    by_cases hn : n = s.changes.next
    · omega
    · rw [Function.update_of_ne hn] at hr
      have hold := h.numbered n r' hr
      omega
  · rw [hanswers]
    exact List.Subset.refl _
  · rw [hanswers]
    exact h.reported
  · intro n hn
    have hold := h.setters n hn
    refine ⟨by omega, fun r' hr => ?_⟩
    rw [hrunning, Function.update_of_ne (by omega)] at hr
    exact hold.2 r' hr

/-- What a statement of a call reports is announced. -/
theorem Kept.reports (h : Kept R ls floor s) {source : Source}
    (hreturn : s.mayReturn (.next n source) = true)
    (hcareful : Careful R s (.change (.next n source))) {call : Call} {answer : Answer}
    (hreports : Reports R s.changes n call answer) :
    ∀ write ∈ s.made, write.2.logName = call.logName → write ∈ floor s.current := by
  intro write hwrite hname
  cases hreports with
  | @recorded view output hr hconsult hfailed =>
    apply h.announced
    exact hcareful.repeats n source rfl call view output hr hconsult hfailed write hwrite hname
  | @performed result hr hfailed =>
    simp only [Shared.mayReturn, hr, hfailed, Bool.not_true, Bool.false_or,
      List.contains_eq_mem, decide_eq_true_eq] at hreturn
    exact ((h.setters n hreturn).2 _ hr).includes write hwrite hname

/-- A call executes its next statement. -/
theorem Kept.advanced (h : Kept R ls floor s) (hsettled : Settled R w) {source : Source}
    (hreturn : s.mayReturn (.next n source) = true)
    (hcareful : Careful R s (.change (.next n source))) (hadvanced : Advanced R s.changes n w) :
    Kept R ls floor { s with changes := w } := by
  obtain ⟨r?, hrunning, hended⟩ := hadvanced.running
  obtain ⟨r₀, hr₀⟩ := hadvanced.alive
  have hnumbered : ∀ m r, w.running m = some r → m < w.next := by
    intro m r hr
    rw [hadvanced.next]
    by_cases hmn : m = n
    · rw [hmn]
      exact h.numbered n r₀ hr₀
    · rw [hrunning, Function.update_of_ne hmn] at hr
      exact h.numbered m r hr
  have hsetters : ∀ m ∈ s.setters, m < w.next ∧
      ∀ r, w.running m = some r → Announced s.made (floor s.current) r := by
    intro m hm
    have hold := h.setters m hm
    refine ⟨by rw [hadvanced.next]; exact hold.1, fun r hr => ?_⟩
    rw [hrunning] at hr
    by_cases hmn : m = n
    · -- the call had set the generation, so this statement was its last
      subst hmn
      obtain ⟨result, hphase⟩ := (hold.2 r₀ hr₀).recorded
      have hlast : r? = none := by
        apply hended r₀.call result
        rw [hr₀, ← hphase]
      rw [hlast, Function.update_self] at hr
      cases hr
    · rw [Function.update_of_ne hmn] at hr
      exact hold.2 r hr
  -- the statement answered nothing, or gave the call's own answer
  rcases hadvanced.answers with hsame | ⟨call, answer, hnew, hreports⟩
  · apply h.moved hsettled hnumbered _ _ hsetters
    · rw [hsame]
      exact List.Subset.refl _
    · rw [hsame]
      exact h.reported
  · apply h.moved hsettled hnumbered _ _ hsetters
    · rw [hnew]
      exact List.subset_append_left _ _
    · rw [hnew]
      intro m c reply hmem hreported
      rcases List.mem_append.mp hmem with hold | hlast
      · exact h.reported m c reply hold hreported
      · cases List.mem_singleton.mp hlast
        exact h.reports hreturn hcareful (hreports hreported)

/-- A process dies, or its lock runs out. -/
theorem Kept.ended (h : Kept R ls floor s) (hsettled : Settled R w)
    (hnext : w.next = s.changes.next)
    (hrunning : ∀ m r, w.running m = some r → s.changes.running m = some r)
    (hanswers : w.answers = s.changes.answers) : Kept R ls floor { s with changes := w } := by
  apply h.moved hsettled
  · intro n r hr
    rw [hnext]
    exact h.numbered n r (hrunning n r hr)
  · rw [hanswers]
    exact List.Subset.refl _
  · rw [hanswers]
    exact h.reported
  · intro n hn
    have hold := h.setters n hn
    exact ⟨by rw [hnext]; exact hold.1, fun r hr => hold.2 r (hrunning n r hr)⟩

/-- A change moves on: the outcomes it reports are announced. -/
theorem Kept.change (h : Kept R ls floor s) {l : Label} (hreturn : s.mayReturn l = true)
    (hcareful : Careful R s (.change l)) (hstep : step R s.changes l = some w) :
    Kept R ls floor { s with changes := w } := by
  have hsettled := h.settled.step hstep
  cases stepped hstep with
  | begin hnext hrunning hanswers => exact h.began hsettled hnext hrunning hanswers
  | next hadvanced => exact h.advanced hsettled hreturn hcareful hadvanced
  | ended hnext hrunning hanswers => exact h.ended hsettled hnext hrunning hanswers

end Change

/-! ## Every run -/

/-- Every step keeps the invariant, with a floor for the generations drawn so far. -/
theorem Kept.step (hhash : Set.InjOn R.sha256 (hashedTexts R ls)) (h : Kept R ls floor s)
    {l : SharedLabel} (hstep : sharedStep R s l = some s') (hcareful : Careful R s l)
    (hlabel : l ∈ ls) : ∃ floor', Kept R ls floor' s' := by
  cases l with
  | change l =>
    have hguard : (if s.mayReturn l then
        (SourceData.step R s.changes l).map fun w => { s with changes := w } else none) = some s' :=
      hstep
    split at hguard
    · rename_i hreturn
      obtain ⟨w, hw, heq⟩ := Option.map_eq_some_iff.mp hguard
      rw [← heq]
      exact ⟨floor, h.change hreturn hcareful hw⟩
    · cases hguard
  -- the floor moves only when a generation is announced or forgotten
  | make n => exact ⟨floor, h.make hcareful hstep⟩
  | announce n generation => exact h.announce hlabel hstep
  | browse query =>
    cases hstep
    -- a new browse has captured nothing
    have hbegun : Kept R ls floor { s with
        browses := Function.update s.browses s.nextBrowse
          (some ⟨query, s.changes.answers, .begun⟩) } := by
      apply h.setBrowse
      · intro browse heq
        cases heq
        exact hlabel
      · intro browse heq
        cases heq
        exact ⟨List.Subset.refl _, fun _ hgeneration => by cases hgeneration⟩
    exact ⟨floor, { hbegun with }⟩
  | look k =>
    obtain ⟨browse, hbrowse, hlook⟩ := Option.bind_eq_some_iff.mp hstep
    exact ⟨floor, h.look hhash hbrowse hlook⟩
  | answer k =>
    obtain ⟨browse, hbrowse, hanswer⟩ := Option.bind_eq_some_iff.mp hstep
    exact ⟨floor, h.answer hbrowse hanswer⟩
  | complete k records total fetchedAt =>
    obtain ⟨browse, hbrowse, hcomplete⟩ := Option.bind_eq_some_iff.mp hstep
    exact ⟨floor, h.complete hbrowse hcomplete⟩
  | store k =>
    obtain ⟨browse, hbrowse, hstore⟩ := Option.bind_eq_some_iff.mp hstep
    exact ⟨floor, h.store hbrowse hstore⟩
  | leave k =>
    obtain ⟨browse, hbrowse, heq⟩ := Option.map_eq_some_iff.mp hstep
    rw [← heq]
    exact ⟨floor, h.dropBrowse k⟩
  | forgetGeneration =>
    cases hstep
    exact h.forgetGeneration hcareful
  | forget key =>
    cases hstep
    exact ⟨floor, h.forget key⟩

/-- The invariant holds before the first call. -/
theorem kept_initial : Kept R ls (fun _ => []) Shared.initial where
  settled := settled_initial R
  numbered := fun _ _ h => by cases h
  made := fun _ => List.nil_subset _
  known := .inl rfl
  drawn := fun _ h => by cases h
  announced := List.nil_subset _
  stored := fun _ _ h => by cases h
  asked := fun _ _ h => by cases h
  browses := fun _ _ h => by cases h
  reported := fun _ _ _ h => by cases h
  setters := fun _ h => by cases h
  views := fun _ h => by cases h

/-- However browses and changes run beside each other, wherever processes die and whatever the cache
forgets: in every run whose steps are careful, no page shows what the source answered before a write
of a change that had returned when the browse began, and not as failed. -/
theorem browse_coherent {s : Shared} (hhash : Set.InjOn R.sha256 (hashedTexts R ls))
    (hrun : Run (fun s l s' => sharedStep R s l = some s' ∧ Careful R s l) Shared.initial ls s) :
    Coherent s := by
  have hkept : ∀ s l s', (∃ floor, Kept R ls floor s) →
      (sharedStep R s l = some s' ∧ Careful R s l) ∧ l ∈ ls → ∃ floor, Kept R ls floor s' := by
    intro s l s' h hstep
    obtain ⟨floor, hfloor⟩ := h
    exact hfloor.step hhash hstep.1.1 hstep.1.2 hstep.2
  have hlabelled := hrun.restrict (P := fun l => l ∈ ls) fun _ hl => hl
  obtain ⟨floor, h⟩ := hlabelled.invariant hkept ⟨_, kept_initial⟩
  exact h.coherent

namespace Sample

/-- The first page of the colours. -/
def page : Query where
  origin := origin
  resource := "colors"
  path := "/tires/color/get/list"
  params := [("start", .int 0), ("limit", .int 51), ("filters", .str "\x7b\x7d")]

/-- The generation the removal draws. -/
def drawn : String := "3f0c9a52d6e84b7795f1b2c04d8e6a17"

/-- The page in one generation, as it is hashed. -/
def pageIdentity (generation : String) : Text :=
  "[\"https://dev-priv-api.kaleam.net\", \"colors\", \"/tires/color/get/list\", ".toList
    ++ "\x7b\"filters\": \"\x7b\x7d\", \"limit\": 51, \"start\": 0\x7d, ".toList
    ++ '"' :: (generation.toList ++ "\"]".toList)

def pageDigests : List (Text × String) := [
  (pageIdentity "0", "d802c4b0e18ac9d08af7a9396b7e3b10b8a22340c76ba121beebd798f720e051"),
  (pageIdentity drawn, "725b132ad180c0c4a3d40f17cd73256d82707f84d11c73402758fc199ef99c98")]

def catalogRuntime : Runtime :=
  { runtime with sha256 := fun text => ((digests ++ pageDigests).lookup text).getD "" }

/-- A browse that asks the source. -/
def fetch (k : ℕ) : List SharedLabel :=
  [.browse page, .look k, .look k, .answer k,
    .complete k [.obj black] (some 1) "2026-05-04T08:00:00+00:00", .store k]

/-- A browse that finds its page. -/
def found (k : ℕ) : List SharedLabel := [.browse page, .look k, .look k]

/-- The statements of a removal up to its request to the source. -/
def send (n : ℕ) : List SharedLabel :=
  .change (.begin remove) :: (statements n 6 deletes).map .change

/-- The removal records what it was told, sets the generation and returns. -/
def report (n : ℕ) (source : Source) : List SharedLabel :=
  (statements n 2 source).map .change ++ [.announce n drawn, .change (.next n source)]

/-- The removal ends as it should. -/
def deleted (n : ℕ) : List SharedLabel := send n ++ .make n :: report n deletes

/-- The source does not answer in time. -/
def silence : Source where
  fetched := .raised
  written := outcomeOf "uncertain"
    "The change was not acknowledged. Check the source before trying again."

def raises : Source := ⟨.raised, .raised⟩

/-- Whether some page is stale. -/
def stale (s : Shared) : Bool :=
  s.views.any fun view => view.after.any fun returned => returned.2.2.reported &&
    s.made.any fun write => decide (write.2.logName = returned.2.1.logName) &&
      view.response.answered.any fun seen => !(seen.map (·.1)).contains write.1

/-- A page found stale is not coherent. -/
theorem not_coherent_of_stale {s : Shared} (h : stale s = true) : ¬ Coherent s := by
  intro hcoherent
  obtain ⟨view, hview, h⟩ := List.any_eq_true.mp h
  obtain ⟨returned, hreturned, h⟩ := List.any_eq_true.mp h
  obtain ⟨hreported, h⟩ := Bool.and_eq_true_iff.mp h
  obtain ⟨write, hwrite, h⟩ := List.any_eq_true.mp h
  obtain ⟨hname, h⟩ := Bool.and_eq_true_iff.mp h
  obtain ⟨seen, hseen, h⟩ := List.any_eq_true.mp h
  have hmem := hcoherent view hview returned.1 returned.2.1 returned.2.2 hreturned hreported write
    hwrite (of_decide_eq_true hname) seen hseen
  have hnumber : (seen.map (·.1)).contains write.1 = true :=
    List.contains_iff_mem.mpr (List.mem_map_of_mem hmem)
  rw [hnumber] at h
  exact absurd h (by decide)

/-- Steps that are careful whatever is cached. -/
def mild (s : Shared) : SharedLabel → Bool
  | .change (.next n _) =>
    match s.changes.running n with
    | some ⟨_, .locked view⟩ => view.isEmpty
    | _ => true
  | .make _ => s.changes.answers.isEmpty && s.setters.isEmpty
  | .forgetGeneration => false
  | _ => true

/-- A step found mild is careful. -/
theorem careful_of_mild {R : Runtime} {s : Shared} {l : SharedLabel} (h : mild s l = true) :
    Careful R s l where
  forgets := by
    intro heq
    rw [heq] at h
    cases h
  repeats := by
    intro n source heq call view output hr hconsult
    rw [heq] at h
    simp only [mild, hr, List.isEmpty_iff] at h
    rw [h] at hconsult
    cases hconsult
  makes := by
    intro n heq write _ _
    rw [heq] at h
    simp only [mild, Bool.and_eq_true, List.isEmpty_iff] at h
    refine .inr ⟨fun m call answer hmem => ?_, fun m hm => ?_⟩
    · rw [h.1] at hmem
      cases hmem
    · rw [h.2] at hm
      cases hm

/-- A page that is fetched and stored, a removal, the page again from the source and from the
cache. -/
def browsing : List SharedLabel := fetch 0 ++ deleted 0 ++ fetch 1 ++ found 2

/-- The two texts of the run have different digests. -/
theorem hash_browsing : Set.InjOn catalogRuntime.sha256 (hashedTexts catalogRuntime browsing) := by
  have htext : ∀ text ∈ hashedTexts catalogRuntime browsing,
      text = page.text catalogRuntime "0" ∨ text = page.text catalogRuntime drawn := by
    intro text htext
    obtain ⟨query, generation, hquery, hgeneration, heq⟩ := htext
    have hpage : query = page := by
      simpa [browsing, fetch, found, deleted, send, report, statements] using hquery
    rw [heq, hpage]
    rcases hgeneration with hzero | ⟨n, hannounce⟩
    · exact .inl (by rw [hzero])
    · have hdrawn : n = 0 ∧ generation = drawn := by
        simpa [browsing, fetch, found, deleted, send, report, statements] using hannounce
      exact .inr (by rw [hdrawn.2])
  have hdistinct : catalogRuntime.sha256 (page.text catalogRuntime "0")
      ≠ catalogRuntime.sha256 (page.text catalogRuntime drawn) := by decide +kernel
  intro text hmem text' hmem' hsame
  rcases htext text hmem with heq | heq <;> rcases htext text' hmem' with heq' | heq' <;>
    rw [heq, heq'] at hsame ⊢
  · exact absurd hsame hdistinct
  · exact absurd hsame.symm hdistinct

/-- The cache forgets the generation after the removal. -/
def forgotten : List SharedLabel := fetch 0 ++ deleted 0 ++ .forgetGeneration :: found 1

/-- The removal raises after the source has made it, and is repeated. -/
def repeated : List SharedLabel :=
  fetch 0 ++ send 0 ++ [.make 0, .change (.next 0 raises), .change (.begin remove)]
    ++ (statements 1 2 deletes).map .change ++ found 1

/-- The removal returns as uncertain, the page is fetched, and then the source makes it. -/
def late : List SharedLabel := send 0 ++ report 0 silence ++ fetch 0 ++ .make 0 :: found 1

end Sample

/-- Pages around a removal, with what each follows and what it has seen. -/
theorem browse_coherent_sample :
    ∃ ls s, Run (fun s l s' => sharedStep Sample.catalogRuntime s l = some s'
        ∧ Careful Sample.catalogRuntime s l) Shared.initial ls s ∧
      s.views.map (fun view => (view.after.length, view.response.answered.map (·.length)))
        = [(0, [0]), (1, [1]), (1, [1])] ∧ Coherent s := by
  obtain ⟨s, hs, hviews⟩ := Option.map_eq_some_iff.mp (show
    (Sample.browsing.foldlM (fun s l =>
      if Sample.mild s l then sharedStep Sample.catalogRuntime s l else none) Shared.initial).map
        (fun s => s.views.map fun view =>
          (view.after.length, view.response.answered.map (·.length)))
      = some [(0, [0]), (1, [1]), (1, [1])] by decide +kernel)
  have hstep : ∀ s l s', (if Sample.mild s l then sharedStep Sample.catalogRuntime s l else none)
      = some s' → sharedStep Sample.catalogRuntime s l = some s'
        ∧ Careful Sample.catalogRuntime s l := by
    intro s l s' h
    by_cases hmild : Sample.mild s l = true
    · rw [if_pos hmild] at h
      exact ⟨h, Sample.careful_of_mild hmild⟩
    · rw [if_neg hmild] at h
      cases h
  have hrun := (Run.of_foldlM hs).mono hstep
  exact ⟨_, s, hrun, hviews, browse_coherent Sample.hash_browsing hrun⟩

/-- Three ways to a page with a deleted record. The cache forgets the generation, and the page stored
under "0" before the removal is found again. The removal raises after the source has made it; it is
repeated, returns the uncertain state, and no call has set the generation. Or the removal returns as
uncertain, and the source makes it after the page was fetched again. -/
theorem removed_record_shown_again :
    (∃ s, Run (fun s l s' => sharedStep Sample.catalogRuntime s l = some s') Shared.initial
      Sample.forgotten s ∧ ¬ Coherent s) ∧
    (∃ s, Run (fun s l s' => sharedStep Sample.catalogRuntime s l = some s') Shared.initial
      Sample.repeated s ∧ ¬ Coherent s) ∧
    ∃ s, Run (fun s l s' => sharedStep Sample.catalogRuntime s l = some s') Shared.initial
      Sample.late s ∧ ¬ Coherent s := by
  refine ⟨?forgotten, ?repeated, ?late⟩
  case forgotten =>
    obtain ⟨s, hs, hstale⟩ := Option.map_eq_some_iff.mp (show
      (Sample.forgotten.foldlM (sharedStep Sample.catalogRuntime) Shared.initial).map Sample.stale
        = some true by decide +kernel)
    exact ⟨s, Run.of_foldlM hs, Sample.not_coherent_of_stale hstale⟩
  case repeated =>
    obtain ⟨s, hs, hstale⟩ := Option.map_eq_some_iff.mp (show
      (Sample.repeated.foldlM (sharedStep Sample.catalogRuntime) Shared.initial).map Sample.stale
        = some true by decide +kernel)
    exact ⟨s, Run.of_foldlM hs, Sample.not_coherent_of_stale hstale⟩
  case late =>
    obtain ⟨s, hs, hstale⟩ := Option.map_eq_some_iff.mp (show
      (Sample.late.foldlM (sharedStep Sample.catalogRuntime) Shared.initial).map Sample.stale
        = some true by decide +kernel)
    exact ⟨s, Run.of_foldlM hs, Sample.not_coherent_of_stale hstale⟩

end SourceData
end FrappeController
