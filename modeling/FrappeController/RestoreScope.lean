import FrappeController.LifecyclePayloads
import FrappeController.S3Routes

/-!
# What an agent may read of the backups

A scope that was accepted stays under the prefix of its own operation (`scope_contained`). Whether
an accepted payload has a prefix at all depends on two strings that the authoring step and the
route read by different rules (`restore_scope_iff`).
-/

namespace FrappeController
namespace S3Routes

open PyJson
open Transaction (bind_eq_ok)

/-! ## Segments -/

theorem notMem_of_mem_splitOn {s part : PyStr} (h : part ∈ s.splitOn slash) : slash ∉ part := by
  induction s generalizing part with
  | nil =>
    rw [List.splitOn_nil, List.mem_singleton] at h
    rw [h]
    exact List.not_mem_nil
  | cons c rest ih =>
    rw [List.splitOn_cons_eq_if_modifyHead] at h
    by_cases hc : c = slash
    · rw [if_pos (beq_iff_eq.mpr hc), List.mem_cons] at h
      rcases h with rfl | h
      · exact List.not_mem_nil
      · exact ih h
    · rw [if_neg (by simpa using hc)] at h
      cases hparts : rest.splitOn slash with
      | nil => exact absurd hparts (List.splitOn_ne_nil slash rest)
      | cons first others =>
        rw [hparts, List.modifyHead_cons, List.mem_cons] at h
        rw [hparts] at ih
        rcases h with rfl | h
        · have hfirst : slash ∉ first := ih List.mem_cons_self
          simp [hfirst, Ne.symm hc]
        · exact ih (List.mem_cons_of_mem first h)

theorem isDotSegment_eq_false {part : PyStr} : isDotSegment part = false ↔
    part ≠ [] ∧ part ≠ PyStr.ofString "." ∧ part ≠ PyStr.ofString ".." := by
  simp [isDotSegment, and_assoc]

/-- The characters of a safe segment: it is not empty and has no separator in it. -/
theorem isSafeSegment_chars {s : PyStr} (h : PyStr.fullmatch isSafeSegment s = true) :
    s ≠ [] ∧ slash ∉ s ∧ CodePoint.ofChar '\\' ∉ s := by
  rw [PyStr.fullmatch, Option.any_eq_true] at h
  obtain ⟨text, htext, hsafe⟩ := h
  obtain rfl := PyStr.ofString_of_toString? htext
  unfold isSafeSegment Ingestion.identifier at hsafe
  rw [PyStr.ofString, PyStr.ofText]
  cases hchars : text.toList with
  | nil =>
    rw [hchars] at hsafe
    cases hsafe
  | cons first rest =>
    rw [hchars] at hsafe
    simp only [Bool.and_eq_true, List.all_eq_true, decide_eq_true_eq] at hsafe
    obtain ⟨⟨hfirst, hrest⟩, -⟩ := hsafe
    -- a character outside the class is none of the segment
    have hout : ∀ d : Char, (Ingestion.isUpper d || Ingestion.isLower d || Ingestion.isDigit d
        || d == '.' || d == '_' || d == '-') = false →
        CodePoint.ofChar d ∉ (first :: rest).map CodePoint.ofChar := by
      intro d hd hmem
      obtain ⟨c, hc, heq⟩ := List.mem_map.mp hmem
      rw [CodePoint.ofChar_injective heq] at hc
      simp only [Bool.or_eq_false_iff] at hd
      obtain ⟨⟨⟨⟨⟨hupper, hlower⟩, hdigit⟩, hdot⟩, hunder⟩, hdash⟩ := hd
      -- the first character has a smaller class than the rest
      rcases List.mem_cons.mp hc with rfl | hc
      · simp [hupper, hlower, hdigit] at hfirst
      · have hallowed := hrest d hc
        simp [hupper, hlower, hdigit, hdot, hunder, hdash] at hallowed
    exact ⟨List.cons_ne_nil _ _, hout '/' (by decide), hout '\\' (by decide)⟩

/-! ## Prefixes -/

theorem template_eq_ok {payload : Fields} {t : PyStr} :
    template payload = .ok t ↔
      field payload "template_name" = .str t ∧ t.fullmatch isSafeSegment = true := by
  unfold template
  split
  · rename_i s hs
    rw [hs]
    by_cases hsafe : s.fullmatch isSafeSegment = true
    · rw [if_pos hsafe, Except.ok.injEq, PyJson.str.injEq]
      constructor
      · rintro rfl
        exact ⟨rfl, hsafe⟩
      · exact fun h => h.1
    · rw [if_neg hsafe]
      constructor
      · intro h
        cases h
      · rintro ⟨heq, hsafe'⟩
        rw [PyJson.str.inj heq] at hsafe
        exact absurd hsafe' hsafe
  · rename_i hother
    constructor
    · intro h
      cases h
    · intro h
      exact absurd h.1 (hother t)

/-- The prefix of an operation: its template, under the parent where there is one. -/
theorem operationPrefix_eq_ok {payload : Fields} {start : PyStr} :
    operationPrefix payload = .ok start ↔ ∃ t parent, template payload = .ok t
      ∧ normalizePrefix (field payload "backup_prefix") = .ok parent
      ∧ start = if parent = [] then t else parent ++ slash :: t := by
  have hjoined : ∀ {t : PyStr}, template payload = .ok t → ∀ parent : PyStr,
      joined ([parent, t].filter fun part => !part.isEmpty)
        = if parent = [] then t else parent ++ slash :: t := by
    intro t ht parent
    have hne : t ≠ [] := (isSafeSegment_chars (template_eq_ok.mp ht).2).1
    by_cases hparent : parent = []
    · simp [hparent, hne, joined]
    · simp [hparent, hne, joined]
  constructor
  · intro h
    obtain ⟨t, ht, h⟩ := bind_eq_ok.mp h
    obtain ⟨parent, hparent, h⟩ := bind_eq_ok.mp h
    exact ⟨t, parent, ht, hparent, by rw [← Except.ok.inj h, hjoined ht]⟩
  · rintro ⟨t, parent, ht, hparent, rfl⟩
    refine bind_eq_ok.mpr ⟨t, ht, bind_eq_ok.mpr ⟨parent, hparent, ?_⟩⟩
    rw [hjoined ht]
    rfl

/-! ## Scopes -/

/-- A key under a prefix: the prefix and one or more segments, none of them empty, `.` or `..`. -/
structure Under (start key : PyStr) : Prop where
  below : ∃ rest, rest ≠ [] ∧ key = start ++ slash :: joined rest ∧ ∀ part ∈ rest, slash ∉ part
  segments : ∀ part ∈ key.splitOn slash,
    part ≠ [] ∧ part ≠ PyStr.ofString "." ∧ part ≠ PyStr.ofString ".."
  backslash : CodePoint.ofChar '\\' ∉ key

/-- What a scope that was accepted is bound to. -/
structure Contained (settings : Settings) (parameters payload : Fields) (granted : Scope) :
    Prop where
  configured : granted.bucket ∈ settings.allowedBuckets
  own : requestedBucket settings payload = .str granted.bucket
  supplied : suppliedBucket settings parameters = .str granted.bucket
  parent : ∃ parent, normalizePrefix (field payload "backup_prefix") = .ok parent
    ∧ parent ∈ settings.allowedPrefixes
  key : ∀ key, granted.key = some key → field parameters "Key" = .str key
    ∧ ∃ start, operationPrefix payload = .ok start ∧ Under start key
  listing : ∀ listed, granted.requestPrefix = some listed → field parameters "Prefix" = .str listed
    ∧ ∃ start, operationPrefix payload = .ok start ∧ listed = start ++ [slash]

theorem eq_str_of_pyEq_str {s : PyStr} {y : PyJson} (h : pyEq (.str s) y = true) : y = .str s := by
  unfold pyEq at h
  cases y with
  | str t => rw [eq_of_beq h]
  | null => cases h
  | bool b => cases h
  | int n => cases h
  | float x => cases h
  | arr items => cases h
  | obj fields => cases h

theorem scopeBucket_eq_ok {settings : Settings} {parameters payload : Fields} {bucket : PyStr}
    (h : scopeBucket settings parameters payload = .ok bucket) :
    suppliedBucket settings parameters = .str bucket
      ∧ requestedBucket settings payload = .str bucket ∧ bucket ∈ settings.allowedBuckets := by
  obtain ⟨u, hequal, h⟩ := bind_eq_ok.mp h
  obtain ⟨buckets, hbuckets, h⟩ := bind_eq_ok.mp h
  have hallowed : buckets = settings.allowedBuckets := by
    unfold configuredBuckets at hbuckets
    split at hbuckets
    · cases hbuckets
    · exact (Except.ok.inj hbuckets).symm
  cases hsupplied : suppliedBucket settings parameters with
  | str s =>
    rw [hsupplied] at h hequal
    dsimp only at h
    split at h
    · rename_i hmem
      rw [← Except.ok.inj h]
      refine ⟨rfl, eq_str_of_pyEq_str (ensure_eq_ok.mp hequal), ?_⟩
      rw [← hallowed]
      exact List.contains_iff_mem.mp hmem
    · cases h
  | _ =>
    rw [hsupplied] at h
    cases h

theorem scopeKey_eq_ok {start : PyStr} {value : PyJson} {key : PyStr}
    (h : scopeKey start value = .ok (some key)) : value = .str key ∧ Under start key := by
  unfold scopeKey at h
  split at h
  · cases h
  · rename_i s
    split at h
    · rename_i hcheck
      obtain rfl := Option.some.inj (Except.ok.inj h)
      rw [Bool.and_eq_true, Bool.and_eq_true, Bool.not_eq_true', Bool.not_eq_true',
        List.any_eq_false, List.isPrefixOf_iff_prefix] at hcheck
      obtain ⟨⟨⟨rest, hrest⟩, hback⟩, hparts⟩ := hcheck
      refine ⟨rfl, ⟨rest.splitOn slash, List.splitOn_ne_nil slash rest, ?_, ?_⟩, ?_, ?_⟩
      · rw [joined, List.intercalate_splitOn, ← hrest, List.append_assoc, List.singleton_append]
      · intro part hpart
        exact notMem_of_mem_splitOn hpart
      · intro part hpart
        exact isDotSegment_eq_false.mp (Bool.eq_false_of_not_eq_true (hparts part hpart))
      · simpa [PyStr.hasChar] using hback
    · cases h
  · cases h

theorem scopePrefix_eq_ok {start : PyStr} {value : PyJson} {listed : PyStr}
    (h : scopePrefix start value = .ok (some listed)) :
    value = .str listed ∧ listed = start ++ [slash] := by
  unfold scopePrefix at h
  split at h
  · cases h
  · split at h
    · rename_i heq
      obtain rfl := Option.some.inj (Except.ok.inj h)
      exact ⟨rfl, heq⟩
    · cases h
  · cases h

theorem contained_of_scope {settings : Settings} {parameters payload : Fields} {granted : Scope}
    (h : payloadScope settings parameters payload = .ok granted) :
    Contained settings parameters payload granted := by
  obtain ⟨start, hstart, h⟩ := bind_eq_ok.mp h
  obtain ⟨bucket, hbucket, h⟩ := bind_eq_ok.mp h
  obtain ⟨parent, hparent, h⟩ := bind_eq_ok.mp h
  obtain ⟨u, hallowed, h⟩ := bind_eq_ok.mp h
  obtain ⟨key, hkey, h⟩ := bind_eq_ok.mp h
  obtain ⟨listed, hlisted, h⟩ := bind_eq_ok.mp h
  obtain rfl := Except.ok.inj h
  obtain ⟨hsupplied, hown, hconfigured⟩ := scopeBucket_eq_ok hbucket
  refine ⟨hconfigured, hown, hsupplied, ⟨parent, hparent, ?_⟩, ?_, ?_⟩
  · exact List.contains_iff_mem.mp (ensure_eq_ok.mp hallowed)
  · intro k hk
    obtain rfl : key = some k := hk
    obtain ⟨hvalue, hunder⟩ := scopeKey_eq_ok hkey
    exact ⟨hvalue, start, hstart, hunder⟩
  · intro p hp
    obtain rfl : listed = some p := hp
    obtain ⟨hvalue, heq⟩ := scopePrefix_eq_ok hlisted
    exact ⟨hvalue, start, hstart, heq⟩

/-- What stands before the first separator. -/
theorem eq_of_append_slash {t t' rest rest' : PyStr} (ht : slash ∉ t) (ht' : slash ∉ t')
    (h : t ++ slash :: rest = t' ++ slash :: rest') : t = t' := by
  have hsplit := congrArg (List.splitOn slash) h
  rw [List.splitOn_append_cons_self_of_not_mem ht, List.splitOn_append_cons_self_of_not_mem ht']
    at hsplit
  exact (List.cons.inj hsplit).1

/-- A key lies under one template of a parent only. -/
theorem template_of_under {payload payload' : Fields} {parent start start' key : PyStr}
    (hparent : normalizePrefix (field payload "backup_prefix") = .ok parent)
    (hparent' : normalizePrefix (field payload' "backup_prefix") = .ok parent)
    (hstart : operationPrefix payload = .ok start) (hstart' : operationPrefix payload' = .ok start')
    (hkey : Under start key) (hkey' : Under start' key) : template payload = template payload' := by
  obtain ⟨t, p, ht, hp, rfl⟩ := operationPrefix_eq_ok.mp hstart
  obtain ⟨t', p', ht', hp', rfl⟩ := operationPrefix_eq_ok.mp hstart'
  rw [hparent] at hp
  rw [hparent'] at hp'
  obtain rfl := Except.ok.inj hp
  obtain rfl := Except.ok.inj hp'
  obtain ⟨rest, -, hrest, -⟩ := hkey.below
  obtain ⟨rest', -, hrest', -⟩ := hkey'.below
  have hsafe := (isSafeSegment_chars (template_eq_ok.mp ht).2).2.1
  have hsafe' := (isSafeSegment_chars (template_eq_ok.mp ht').2).2.1
  have hsame : t ++ slash :: joined rest = t' ++ slash :: joined rest' := by
    rw [hrest] at hrest'
    by_cases hempty : parent = []
    · rw [if_pos hempty, if_pos hempty] at hrest'
      exact hrest'
    · rw [if_neg hempty, if_neg hempty, List.append_assoc, List.append_assoc] at hrest'
      exact (List.cons.inj (List.append_cancel_left hrest')).2
  rw [ht, ht', eq_of_append_slash hsafe hsafe' hsame]

/-- An accepted scope is contained in its operation's, and two operations whose templates differ
under one parent have no key in common. -/
theorem scope_contained :
    (∀ settings parameters payload granted, payloadScope settings parameters payload = .ok granted →
      Contained settings parameters payload granted)
    ∧ ∀ payload payload' parent, normalizePrefix (field payload "backup_prefix") = .ok parent →
      normalizePrefix (field payload' "backup_prefix") = .ok parent →
      field payload "template_name" ≠ field payload' "template_name" →
      ∀ settings settings' parameters parameters' granted granted',
        payloadScope settings parameters payload = .ok granted →
        payloadScope settings' parameters' payload' = .ok granted' →
        ∀ key, granted.key = some key → granted'.key ≠ some key := by
  refine ⟨fun settings parameters payload granted => contained_of_scope, ?_⟩
  intro payload payload' parent hparent hparent' hne settings settings' parameters parameters'
    granted granted' hgranted hgranted' key hkey hkey'
  obtain ⟨-, start, hstart, hunder⟩ := (contained_of_scope hgranted).key key hkey
  obtain ⟨-, start', hstart', hunder'⟩ := (contained_of_scope hgranted').key key hkey'
  have htemplates := template_of_under hparent hparent' hstart hstart' hunder hunder'
  obtain ⟨t, -, ht, -⟩ := operationPrefix_eq_ok.mp hstart
  rw [ht] at htemplates
  have hfield := (template_eq_ok.mp ht).1
  have hfield' := (template_eq_ok.mp htemplates.symm).1
  exact hne (hfield.trans hfield'.symm)

/-! ## Payloads that have a prefix -/

theorem joined_cons_cons (p q : PyStr) (rest : List PyStr) :
    joined (p :: q :: rest) = p ++ slash :: joined (q :: rest) := by
  rw [joined, List.intercalate_cons_cons, List.append_assoc, List.singleton_append]
  rfl

/-- A path of segments: separators may stand before and after it, but only one between two. -/
def IsPath (s : PyStr) : Prop :=
  ∃ (before after : ℕ) (parts : List PyStr), parts ≠ []
    ∧ (∀ part ∈ parts, PyStr.fullmatch isSafeSegment part = true)
    ∧ s = List.replicate before slash ++ (joined parts ++ List.replicate after slash)

/-- Joined segments begin and end with a character of their own. -/
theorem joined_ends {parts : List PyStr} (hne : parts ≠ [])
    (hsafe : ∀ part ∈ parts, PyStr.fullmatch isSafeSegment part = true) :
    (∃ c rest, joined parts = c :: rest ∧ c ≠ slash)
      ∧ ∃ rest c, joined parts = rest ++ [c] ∧ c ≠ slash := by
  induction parts with
  | nil => exact absurd rfl hne
  | cons p others ih =>
    obtain ⟨hp, hslash, -⟩ := isSafeSegment_chars (hsafe p List.mem_cons_self)
    have hfirst : ∃ c rest, p = c :: rest ∧ c ≠ slash := by
      obtain ⟨c, rest, rfl⟩ := List.exists_cons_of_ne_nil hp
      exact ⟨c, rest, rfl, fun heq => hslash (heq ▸ List.mem_cons_self)⟩
    obtain ⟨c, rest, rfl, hc⟩ := hfirst
    cases others with
    | nil =>
      have hjoined : joined [c :: rest] = c :: rest := List.intercalate_singleton
      rw [hjoined]
      refine ⟨⟨c, rest, rfl, hc⟩, (c :: rest).dropLast, (c :: rest).getLast hp,
        (List.dropLast_append_getLast hp).symm, fun heq => hslash ?_⟩
      rw [← heq]
      exact List.getLast_mem hp
    | cons q others =>
      obtain ⟨-, back, d, hback, hd⟩ :=
        ih (List.cons_ne_nil q others) fun part hpart => hsafe part (List.mem_cons_of_mem _ hpart)
      rw [joined_cons_cons]
      refine ⟨⟨c, rest ++ slash :: joined (q :: others), rfl, hc⟩,
        (c :: rest) ++ slash :: back, d, ?_, hd⟩
      rw [hback]
      simp

theorem dropWhile_slashes (k : ℕ) {c : CodePoint} {rest : PyStr} (hc : c ≠ slash) :
    (List.replicate k slash ++ c :: rest).dropWhile (· == slash) = c :: rest := by
  induction k with
  | zero => simp [hc]
  | succ k ih => simpa [List.replicate_succ] using ih

/-- Stripping takes the separators at the ends away, and nothing else. -/
theorem stripSlashes_path {before after : ℕ} {s : PyStr} (hfirst : ∃ c rest, s = c :: rest ∧ c ≠ slash)
    (hlast : ∃ rest c, s = rest ++ [c] ∧ c ≠ slash) :
    stripSlashes (List.replicate before slash ++ (s ++ List.replicate after slash)) = s := by
  have hfront : (List.replicate before slash ++ (s ++ List.replicate after slash)).dropWhile
      (· == slash) = s ++ List.replicate after slash := by
    obtain ⟨c, rest, rfl, hc⟩ := hfirst
    exact dropWhile_slashes before hc
  rw [stripSlashes, hfront, List.reverse_append, List.reverse_replicate]
  obtain ⟨rest, c, rfl, hc⟩ := hlast
  rw [List.reverse_append, List.reverse_singleton, List.singleton_append, dropWhile_slashes after hc,
    List.reverse_cons, List.reverse_reverse]

theorem takeWhile_slashes (s : PyStr) :
    s.takeWhile (· == slash) = List.replicate (s.takeWhile (· == slash)).length slash := by
  apply List.eq_replicate_of_mem
  intro c hc
  have hslash : (c == slash) = true := List.mem_takeWhile_imp (p := (· == slash)) hc
  exact eq_of_beq hslash

theorem stripSlashes_spec (s : PyStr) : ∃ before after : ℕ,
    s = List.replicate before slash ++ (stripSlashes s ++ List.replicate after slash) := by
  have hfront := takeWhile_slashes s
  have hback := takeWhile_slashes (s.dropWhile (· == slash)).reverse
  refine ⟨(s.takeWhile (· == slash)).length,
    ((s.dropWhile (· == slash)).reverse.takeWhile (· == slash)).length, ?_⟩
  rw [← hfront, stripSlashes, ← List.reverse_replicate, ← hback, ← List.reverse_append,
    List.takeWhile_append_dropWhile, List.reverse_reverse, List.takeWhile_append_dropWhile]

theorem splitOn_joined {parts : List PyStr} (hne : parts ≠ [])
    (hsafe : ∀ part ∈ parts, PyStr.fullmatch isSafeSegment part = true) :
    (joined parts).splitOn slash = parts :=
  List.splitOn_intercalate slash (fun part hpart => (isSafeSegment_chars (hsafe part hpart)).2.1) hne

theorem backslash_notMem_path (before after : ℕ) {parts : List PyStr}
    (hsafe : ∀ part ∈ parts, PyStr.fullmatch isSafeSegment part = true) :
    CodePoint.ofChar '\\' ∉
      List.replicate before slash ++ (joined parts ++ List.replicate after slash) := by
  have hslash : CodePoint.ofChar '\\' ≠ slash := by decide
  have hjoined : CodePoint.ofChar '\\' ∉ joined parts := by
    induction parts with
    | nil => exact List.not_mem_nil
    | cons p others ih =>
      have hp := (isSafeSegment_chars (hsafe p List.mem_cons_self)).2.2
      have hothers := ih fun part hpart => hsafe part (List.mem_cons_of_mem p hpart)
      cases others with
      | nil => simpa [joined] using hp
      | cons q others =>
        rw [joined_cons_cons]
        simp [hp, hothers, hslash]
  simp [hjoined, hslash, List.mem_replicate]

/-- `_normalize_prefix` accepts no text but the empty one and the paths. -/
theorem normalizePrefix_isOk {s : PyStr} :
    (normalizePrefix (.str s)).isOk = true ↔ s = [] ∨ IsPath s := by
  by_cases hempty : s = []
  · rw [hempty]
    exact ⟨fun _ => .inl rfl, fun _ => rfl⟩
  · obtain ⟨c, rest, rfl⟩ := List.exists_cons_of_ne_nil hempty
    -- without the empty prefix only the two checks are left
    have hbody : (normalizePrefix (.str (c :: rest))).isOk
        = (!PyStr.hasChar '\\' (c :: rest)
          && ((stripSlashes (c :: rest)).splitOn slash).all (PyStr.fullmatch isSafeSegment)) := by
      show ((ensure (!PyStr.hasChar '\\' (c :: rest)) (refused "s3_scope_invalid")) >>= fun _ =>
        (ensure (((stripSlashes (c :: rest)).splitOn slash).all (PyStr.fullmatch isSafeSegment))
          (refused "s3_scope_invalid")) >>= fun _ =>
        pure (joined ((stripSlashes (c :: rest)).splitOn slash))).isOk = _
      cases PyStr.hasChar '\\' (c :: rest) with
      | true => rfl
      | false =>
        cases ((stripSlashes (c :: rest)).splitOn slash).all (PyStr.fullmatch isSafeSegment) <;> rfl
    rw [hbody, Bool.and_eq_true, Bool.not_eq_true', List.all_eq_true]
    constructor
    · rintro ⟨-, hsafe⟩
      -- an accepted prefix is its safe segments between the slashes that are stripped
      obtain ⟨before, after, hspec⟩ := stripSlashes_spec (c :: rest)
      refine .inr ⟨before, after, _, List.splitOn_ne_nil slash _, hsafe, ?_⟩
      rw [joined, List.intercalate_splitOn]
      exact hspec
    · rintro (hnil | ⟨before, after, parts, hne, hsafe, hspec⟩)
      · cases hnil
      -- of a path, stripping gives back its segments
      · obtain ⟨hfirst, hlast⟩ := joined_ends hne hsafe
        rw [hspec, stripSlashes_path hfirst hlast, splitOn_joined hne hsafe]
        refine ⟨?_, hsafe⟩
        have hback := backslash_notMem_path before after hsafe
        simpa [PyStr.hasChar] using hback

/-- The two strings of a payload that the route reads, in the form it reads them in: the template
is one segment, and the parent is absent, empty or a path. -/
def Executable (payload : Fields) : Prop :=
  (∃ t, field payload "template_name" = .str t ∧ PyStr.fullmatch isSafeSegment t = true)
    ∧ (field payload "backup_prefix" = .null
      ∨ ∃ s, field payload "backup_prefix" = .str s ∧ (s = [] ∨ IsPath s))

theorem operationPrefix_isOk {payload : Fields} :
    (operationPrefix payload).isOk = true ↔ Executable payload := by
  -- the template and the prefix are checked one after the other
  have hsplit : (operationPrefix payload).isOk = true ↔ (∃ t, template payload = .ok t)
      ∧ (normalizePrefix (field payload "backup_prefix")).isOk = true := by
    constructor
    · intro h
      obtain ⟨start, hstart⟩ := Transaction.exists_eq_ok_of_isOk h
      obtain ⟨t, parent, ht, hparent, -⟩ := operationPrefix_eq_ok.mp hstart
      rw [hparent]
      exact ⟨⟨t, ht⟩, rfl⟩
    · rintro ⟨⟨t, ht⟩, h⟩
      obtain ⟨parent, hparent⟩ := Transaction.exists_eq_ok_of_isOk h
      rw [operationPrefix_eq_ok.mpr ⟨t, parent, ht, hparent, rfl⟩]
      rfl
  rw [hsplit, Executable]
  refine and_congr (exists_congr fun t => template_eq_ok) ?_
  cases field payload "backup_prefix" with
  | null => exact ⟨fun _ => .inl rfl, fun _ => rfl⟩
  -- a given prefix: it is a path, or it is empty
  | str s =>
    rw [normalizePrefix_isOk]
    constructor
    · exact fun h => .inr ⟨s, rfl, h⟩
    · rintro (h | ⟨s', hs', h⟩)
      · cases h
      · rw [PyJson.str.inj hs']
        exact h
  -- any other value is refused on both sides
  | _ =>
    constructor
    · intro h
      cases h
    · rintro (h | ⟨s', hs', -⟩)
      · cases h
      · cases hs'

open LifecycleAuthoring in
/-- The normalizer keeps the two strings. -/
theorem restore_fields {lib : StrLibrary} {operation : String} {payload : Fields}
    {authorization : Authorization} (hrestore : operation ∈ restoreOperations)
    (h : validate lib operation (.obj payload) = .ok authorization) :
    field authorization.normalizedPayload "template_name" = field payload "template_name"
      ∧ field authorization.normalizedPayload "backup_prefix" = field payload "backup_prefix" := by
  have hagrees : Agrees authorization.normalizedPayload authorization.normalizedPayload :=
    agrees_of_perm (List.Perm.refl _) (nodup_normalizedPayload h)
  obtain ⟨_, hobj, -, hnormalized, -⟩ := validate_eq_ok.mp h
  obtain rfl := PyJson.obj.inj hobj
  obtain ⟨u, -, hnormalized⟩ := bind_eq_ok.mp hnormalized
  obtain ⟨baseOut, -, hnormalized⟩ := bind_eq_ok.mp hnormalized
  obtain ⟨extra, hextra, hnormalized⟩ := bind_eq_ok.mp hnormalized
  obtain ⟨confirmation, -, hnormalized⟩ := bind_eq_ok.mp hnormalized
  -- the extra fields of every restore operation are the backup fields
  have hbackup : backupFields payload = .ok extra := by
    have hfamily : extraFields lib operation payload = backupFields payload := by
      simp only [restoreOperations, List.mem_cons, List.not_mem_nil, or_false] at hrestore
      rcases hrestore with rfl | rfl | rfl | rfl <;> rfl
    rw [← hfamily]
    exact hextra
  obtain ⟨t, ht, hbackup⟩ := bind_eq_ok.mp hbackup
  obtain ⟨bucket, -, hbackup⟩ := bind_eq_ok.mp hbackup
  obtain ⟨start, hstart, hbackup⟩ := bind_eq_ok.mp hbackup
  obtain ⟨publicFiles, -, hbackup⟩ := bind_eq_ok.mp hbackup
  obtain ⟨privateFiles, -, hbackup⟩ := bind_eq_ok.mp hbackup
  obtain ⟨encryptionKey, -, hbackup⟩ := bind_eq_ok.mp hbackup
  -- what the family adds stands in the normalized payload
  have hmem : ∀ f ∈ extra, f ∈ authorization.normalizedPayload := by
    intro f hf
    rw [← Except.ok.inj hnormalized]
    exact List.mem_append_left _ (List.mem_append_right _ hf)
  constructor
  -- both values are kept as they are: they were checked to be trimmed
  · rw [← trimmedText_eq_self ht]
    apply hagrees.field (hmem _ _)
    rw [← Except.ok.inj hbackup]
    simp
  · rw [← optionalText_eq_self hstart]
    apply hagrees.field (hmem _ _)
    rw [← Except.ok.inj hbackup]
    simp

/-- The route has a prefix for a payload that was accepted exactly where its template is one
segment and its parent is a path. -/
theorem restore_scope_iff (lib : StrLibrary) : ∀ operation ∈ restoreOperations,
    ∀ payload authorization,
      LifecycleAuthoring.validate lib operation (.obj payload) = .ok authorization →
      ((operationPrefix authorization.normalizedPayload).isOk = true ↔ Executable payload) := by
  intro operation hrestore payload authorization h
  obtain ⟨htemplate, hparent⟩ := restore_fields hrestore h
  rw [operationPrefix_isOk, Executable, htemplate, hparent, Executable]

/-! ## Samples -/

namespace Sample

/-- A creation from a backup of that template. -/
def creation (template : PyStr) : Fields :=
  [(.ofString "domain", .str (.ofString "shop.example.com")), (.ofString "template_name", .str template),
    (.ofString "backup_prefix", .str (.ofString "sites/base"))]

def authorization (template : PyStr) : LifecycleAuthoring.Authorization where
  normalizedPayload :=
    [(.ofString "domain", .str (.ofString "shop.example.com")),
      (.ofString "execution_timeout_seconds", .int 3600),
      (.ofString "expected_inventory_digest", .null), (.ofString "template_name", .str template),
      (.ofString "bucket_name", .null), (.ofString "backup_prefix", .str (.ofString "sites/base")),
      (.ofString "restore_public_files", .bool false),
      (.ofString "restore_private_files", .bool false),
      (.ofString "restore_encryption_key", .bool false)]
  siteRequired := false
  destructive := false
  preOperationBackup := false

theorem nightly_accepted : LifecycleAuthoring.validate LifecycleAuthoring.Sample.codecs
    "site.create" (.obj (creation (.ofString "nightly")))
      = .ok (authorization (.ofString "nightly")) := by
  with_unfolding_all rfl

theorem spaced_accepted : LifecycleAuthoring.validate LifecycleAuthoring.Sample.codecs
    "site.create" (.obj (creation (.ofString "nightly backup")))
      = .ok (authorization (.ofString "nightly backup")) := by
  with_unfolding_all rfl

def settings : Settings where
  bucket := .ofString "backups"
  allowedBuckets := [.ofString "backups"]
  allowedPrefixes := [.ofString "sites/base"]

def parameters (key : String) : Fields :=
  [(.ofString "Bucket", .str (.ofString "@controller-default")),
    (.ofString "Key", .str (.ofString key))]

def granted (key : String) : Scope where
  bucket := .ofString "backups"
  key := some (.ofString key)
  requestPrefix := none

theorem granted_nightly :
    payloadScope settings (parameters "sites/base/nightly/files.tar")
      (creation (.ofString "nightly")) = .ok (granted "sites/base/nightly/files.tar") := by
  with_unfolding_all rfl

theorem granted_weekly :
    payloadScope settings (parameters "sites/base/weekly/files.tar")
      (creation (.ofString "weekly")) = .ok (granted "sites/base/weekly/files.tar") := by
  with_unfolding_all rfl

end Sample

/-- Two templates of one parent. -/
theorem scope_contained_sample :
    Contained Sample.settings (Sample.parameters "sites/base/nightly/files.tar")
        (Sample.creation (.ofString "nightly")) (Sample.granted "sites/base/nightly/files.tar")
      ∧ (Sample.granted "sites/base/weekly/files.tar").key
        ≠ some (PyStr.ofString "sites/base/nightly/files.tar") := by
  have hparent : ∀ t : String, normalizePrefix
      (field (Sample.creation (.ofString t)) "backup_prefix") = .ok (.ofString "sites/base") := by
    intro t
    with_unfolding_all rfl
  have htemplates : field (Sample.creation (.ofString "nightly")) "template_name"
      ≠ field (Sample.creation (.ofString "weekly")) "template_name" := by
    intro h
    have hsame : PyStr.ofString "nightly" = PyStr.ofString "weekly" := PyJson.str.inj h
    exact absurd (PyStr.ofString_injective hsame) (by decide)
  obtain ⟨hcontained, happart⟩ := scope_contained
  exact ⟨hcontained _ _ _ _ Sample.granted_nightly,
    happart _ _ _ (hparent "nightly") (hparent "weekly") htemplates _ _ _ _ _ _
      Sample.granted_nightly Sample.granted_weekly _ rfl⟩

/-- A template of letters. -/
theorem restore_scope_iff_sample :
    (operationPrefix (Sample.authorization (.ofString "nightly")).normalizedPayload).isOk = true
      ↔ Executable (Sample.creation (.ofString "nightly")) :=
  restore_scope_iff LifecycleAuthoring.Sample.codecs "site.create" (by decide) _ _
    Sample.nightly_accepted

/-- A template of two words is accepted, and refused when the operation reads its backup. -/
theorem spaced_template_refused :
    LifecycleAuthoring.validate LifecycleAuthoring.Sample.codecs "site.create"
        (.obj (Sample.creation (.ofString "nightly backup")))
        = .ok (Sample.authorization (.ofString "nightly backup"))
      ∧ operationPrefix (Sample.authorization (.ofString "nightly backup")).normalizedPayload
        = .error (refused "s3_operation_invalid") := by
  refine ⟨Sample.spaced_accepted, ?_⟩
  with_unfolding_all rfl

end S3Routes

end FrappeController
