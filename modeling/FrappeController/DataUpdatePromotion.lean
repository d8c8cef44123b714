import FrappeController.DataUpdateTheorems

/-!
# Promoting a preview

A promoted command is the preview's with `dry_run` set to `False`, and is checked again from the
start. Every check but the last gives what it gave: the text has one more character, since `false`
is longer than `true`.
-/

namespace FrappeController
namespace DataUpdateAuthoring

open PyJson
open Reader (setItem)

variable {lib : TextLibrary} {R : Runtime}

/-! ## The length of a canonical text -/

theorem utf8Length_append (a b : Text) : utf8Length (a ++ b) = utf8Length a + utf8Length b := by
  rw [utf8Length, List.map_append, List.sum_append]
  rfl

theorem utf8Length_cons (c : Char) (text : Text) :
    utf8Length (c :: text) = c.utf8Size + utf8Length text := rfl

/-- The parts of a text with a comma after each, but for the last. -/
theorem utf8Length_commaSeparated {parts : List Text} (hne : parts ≠ []) :
    utf8Length (commaSeparated parts) + 1 = (parts.map fun part => utf8Length part + 1).sum := by
  induction parts with
  | nil => exact absurd rfl hne
  | cons x rest ih =>
    cases rest with
    | nil => rfl
    | cons y rest =>
      have hrest := ih (List.cons_ne_nil y rest)
      rw [commaSeparated, utf8Length_append, utf8Length_cons, List.map_cons, List.sum_cons, ← hrest]
      · have hcomma : Char.utf8Size ',' = 1 := rfl
        omega
      · exact List.cons_ne_nil y rest

/-- What a field takes in the text of its object. -/
def fieldLength (R : Runtime) (f : String × Json) : ℕ :=
  utf8Length (quote f.1) + utf8Length (R.dumps f.2) + 2

/-- The length of an object's text, in whatever order its fields are. -/
theorem utf8Length_obj {fields : List (String × Json)} (hne : fields ≠ []) :
    utf8Length (R.dumps (.obj fields)) = (fields.map (fieldLength R)).sum + 1 := by
  have hperm := perm_sortByKey (R.dumpsFields fields)
  have hparts : (sortByKey (R.dumpsFields fields)).map (fun f => quote f.1 ++ ':' :: f.2) ≠ [] := by
    intro hnil
    have hlength := congrArg List.length hnil
    rw [List.length_map, hperm.length_eq, R.dumpsFields_eq_map, List.length_map] at hlength
    exact hne (List.length_eq_zero_iff.mp hlength)
  have hsum := utf8Length_commaSeparated hparts
  have hterms := (hperm.map fun f => utf8Length (quote f.1 ++ ':' :: f.2) + 1).sum_nat
  rw [List.map_map] at hsum
  rw [R.dumps_obj, utf8Length_cons, utf8Length_append]
  have hfields : ((R.dumpsFields fields).map fun f => utf8Length (quote f.1 ++ ':' :: f.2) + 1)
      = fields.map (fieldLength R) := by
    rw [R.dumpsFields_eq_map, List.map_map]
    apply List.map_congr_left
    intro f _
    show utf8Length (quote f.1 ++ ':' :: R.dumps f.2) + 1 = _
    rw [utf8Length_append, utf8Length_cons, fieldLength]
    have hcolon : Char.utf8Size ':' = 1 := rfl
    omega
  rw [← hfields, ← hterms]
  have hopen : Char.utf8Size '\x7b' = 1 := rfl
  have hclose : utf8Length ['\x7d'] = 1 := rfl
  have hsum' : utf8Length (commaSeparated ((sortByKey (R.dumpsFields fields)).map
      fun f => quote f.1 ++ ':' :: f.2)) + 1
      = ((sortByKey (R.dumpsFields fields)).map
        fun f => utf8Length (quote f.1 ++ ':' :: f.2) + 1).sum := hsum
  omega

/-- The text of a promotion has one character more than its preview's. -/
theorem utf8Length_promotion (document : Document) :
    utf8Length (R.dumps (.obj (document.fields false)))
      = utf8Length (R.dumps (.obj (document.fields true))) + 1 := by
  have hne : ∀ dryRun, document.fields dryRun ≠ [] := fun _ => List.cons_ne_nil _ _
  rw [utf8Length_obj (hne false), utf8Length_obj (hne true)]
  have hfalse : utf8Length (R.dumps (.bool false)) = 5 := rfl
  have htrue : utf8Length (R.dumps (.bool true)) = 4 := rfl
  simp only [Document.fields, List.map_cons, List.map_nil, List.sum_cons, List.sum_nil, fieldLength,
    hfalse, htrue]
  omega

/-! ## The promoted command -/

theorem applyPayload_fields (parts : Payload) (dryRun : Bool) :
    applyPayload (parts.fields dryRun) = parts.fields false := by
  simp [applyPayload, setItem, Payload.fields, PyStr.ofString_injective.eq_iff]

theorem applyCommand_fields (policy : PyStr) (parts : Payload) (dryRun : Bool) :
    applyCommand (commandFields policy (parts.fields dryRun))
      = commandFields policy (parts.fields false) := by
  rw [applyCommand, payload_command]
  show setItem _ _ (.obj (applyPayload _)) = _
  rw [applyPayload_fields]
  simp [setItem, commandFields, PyStr.ofString_injective.eq_iff]

/-- The checks of a payload do not look at `dry_run`, but for its own. -/
theorem accepts_apply {payload : Fields} {dryRun : Bool} {parts : Payload}
    (h : Accepts lib payload dryRun parts) : Accepts lib (applyPayload payload) false parts := by
  have hfield : ∀ key, key ≠ "dry_run" → field (applyPayload payload) key = field payload key := by
    intro key hkey
    rw [applyPayload, field_setItem, if_neg hkey]
  refine ⟨sameKeys_setItem h.keys (by decide) _, ?_, ?_, ?_, ?_, ?_, ?_, ?_, ?_, ?_, ?_⟩
  · rw [hfield _ (by decide)]
    exact h.version
  · rw [applyPayload, field_setItem, if_pos rfl]
  · rw [hfield _ (by decide)]
    exact h.rows
  · rw [hfield _ (by decide), hfield _ (by decide)]
    exact h.selection
  · rw [hfield _ (by decide)]
    exact h.names
  · rw [hfield _ (by decide)]
    exact h.filters
  · rw [hfield _ (by decide)]
    exact h.changes
  · rw [hfield _ (by decide)]
    exact h.expected
  · rw [hfield _ (by decide)]
    exact h.doctype
  · rw [hfield _ (by decide)]
    exact h.reason

/-- The fields of a promoted command. -/
theorem field_applyCommand {fields payload : Fields} (hpayload : field fields "payload" = .obj payload) :
    applyCommand fields = setItem fields (.ofString "payload") (.obj (applyPayload payload))
      ∧ field (applyCommand fields) "policy_id" = field fields "policy_id"
      ∧ field (applyCommand fields) "payload" = .obj (applyPayload payload) := by
  have hcommand : applyCommand fields
      = setItem fields (.ofString "payload") (.obj (applyPayload payload)) := by
    rw [applyCommand, hpayload]
  refine ⟨hcommand, ?_, ?_⟩
  · rw [hcommand, field_setItem, if_neg (by decide)]
  · rw [hcommand, field_setItem, if_pos rfl]

section Promotion

variable {operation : String} {fields preview payload : Fields} {document : List (String × Json)}

/-- A promotion that is accepted at all changes nothing but `dry_run`, and its preview left room
for one character. -/
theorem promoted_eq (h : normalizeCommand lib R operation (.obj fields) true = .ok preview)
    (hpayload : field preview "payload" = .obj payload) (hdocument : toFields? payload = some document)
    {out : Fields}
    (hpromoted : normalizeCommand lib R operation (.obj (applyCommand fields)) false = .ok out) :
    out = applyCommand preview ∧ utf8Length (R.dumps (.obj document)) < 128 * 1024 := by
  obtain ⟨_, policy, _, heq, -, -, hpolicy, hnormal, rfl⟩ := normalizeCommand_eq_ok.mp h
  cases heq
  obtain ⟨raw, parts, hraw, haccepts, -, rfl⟩ := normalizePayload_eq_ok.mp hnormal
  obtain ⟨_, policy', _, heq', -, -, hpolicy', hnormal', rfl⟩ := normalizeCommand_eq_ok.mp hpromoted
  cases heq'
  obtain ⟨-, hfieldPolicy, hfieldPayload⟩ := field_applyCommand hraw
  obtain ⟨raw', parts', hraw', haccepts', ⟨doc', hdoc', hsize'⟩, rfl⟩ :=
    normalizePayload_eq_ok.mp hnormal'
  rw [hfieldPolicy, hpolicy, Except.ok.injEq] at hpolicy'
  rw [hfieldPayload, PyJson.obj.injEq] at hraw'
  subst hraw'
  -- the checks are a function of the payload
  have hparts : parts' = parts := by
    have hsame := payloadParts_eq_ok.mpr haccepts'
    rw [payloadParts_eq_ok.mpr (accepts_apply haccepts)] at hsame
    exact (Except.ok.inj hsame).symm
  rw [payload_command, PyJson.obj.injEq] at hpayload
  rw [← hpayload] at hdocument
  obtain ⟨found, hfound, rfl⟩ := exists_document hdocument
  rw [hparts, ← hfound.ofFields, toFields?_ofFields, Option.some.injEq] at hdoc'
  rw [← hdoc', utf8Length_promotion] at hsize'
  refine ⟨?_, by omega⟩
  rw [applyCommand_fields, hparts, hpolicy']

/-- The promotion of a command that was accepted as a preview is accepted, and changes nothing but
`dry_run`, exactly where the text of the preview's payload leaves room for one character. -/
theorem apply_accepted_iff
    (h : normalizeCommand lib R operation (.obj fields) true = .ok preview)
    (hpayload : field preview "payload" = .obj payload)
    (hdocument : toFields? payload = some document) :
    normalizeCommand lib R operation (.obj (applyCommand fields)) false = .ok (applyCommand preview)
      ↔ utf8Length (R.dumps (.obj document)) < 128 * 1024 := by
  refine ⟨fun hpromoted => (promoted_eq h hpayload hdocument hpromoted).2, fun hroom => ?_⟩
  obtain ⟨_, policy, _, heq, hoperation, hkeys, hpolicy, hnormal, rfl⟩ :=
    normalizeCommand_eq_ok.mp h
  cases heq
  obtain ⟨raw, parts, hraw, haccepts, -, rfl⟩ := normalizePayload_eq_ok.mp hnormal
  obtain ⟨hcommand, hfieldPolicy, hfieldPayload⟩ := field_applyCommand hraw
  rw [payload_command, PyJson.obj.injEq] at hpayload
  rw [← hpayload] at hdocument
  obtain ⟨found, hfound, rfl⟩ := exists_document hdocument
  have hfits : utf8Length (R.dumps (.obj (found.fields false))) ≤ 128 * 1024 := by
    rw [utf8Length_promotion]
    omega
  rw [applyCommand_fields]
  refine normalizeCommand_of hoperation ?_ ?_ (policyId_stable hpolicy) hfieldPayload
    (normalizePayload_of (accepts_apply haccepts) hfound hfits)
  · rw [hcommand]
    exact sameKeys_setItem hkeys (by decide) _
  · rw [hfieldPolicy]
    exact policyId_eq_ok hpolicy

/-- The promotion of a preview, as it was sent or as it was stored. -/
theorem promotion_accepted_iff (htexts : LawfulTexts lib)
    (h : normalizeCommand lib R operation (.obj fields) true = .ok preview)
    (hpayload : field preview "payload" = .obj payload)
    (hdocument : toFields? payload = some document) :
    (normalizeCommand lib R operation (.obj (applyCommand fields)) false
        = .ok (applyCommand preview) ↔ utf8Length (R.dumps (.obj document)) < 128 * 1024)
    ∧ (normalizeCommand lib R operation (.obj (applyCommand preview)) false
        = .ok (applyCommand preview) ↔ utf8Length (R.dumps (.obj document)) < 128 * 1024) :=
  ⟨apply_accepted_iff h hpayload hdocument,
    apply_accepted_iff (normalizeCommand_stable htexts h) hpayload hdocument⟩

end Promotion

/-- A preview with two invoices is promoted. -/
theorem promotion_accepted_iff_sample :
    normalizeCommand Sample.texts LifecycleAuthoring.Sample.runtime "data.update"
        (.obj (applyCommand (Sample.command true))) false
      = .ok (applyCommand (Sample.command true)) := by
  have hdocument : toFields? ((Sample.parts Sample.changed).fields true)
      = some (Sample.document.fields true) := by
    rw [← Sample.describes_document.ofFields, toFields?_ofFields]
  exact (promotion_accepted_iff Sample.lawfulTexts (Sample.command_accepted true)
    (payload_command _ _) hdocument).1.mpr (Sample.length_document true)

namespace Sample

/-- A text of so many letters. -/
def letters (n : ℕ) : String := String.ofList (List.replicate n 'a')

theorem length_letters (n : ℕ) : utf8Length (List.replicate n 'a') = n := by
  have hascii : ∀ c ∈ List.replicate n 'a', c.toNat < 128 := by
    intro c hc
    rw [List.eq_of_mem_replicate hc]
    decide
  rw [utf8Length_ascii hascii, List.length_replicate]

/-- A text of letters takes its quotes more. -/
theorem dumps_letters (n : ℕ) :
    utf8Length (LifecycleAuthoring.Sample.runtime.dumps (.str (letters n))) = n + 2 := by
  have hplain : (List.replicate n 'a').flatMap escapeChar = List.replicate n 'a' := by
    induction n with
    | zero => rfl
    | succ n ih =>
      rw [List.replicate_succ, List.flatMap_cons, ih]
      rfl
  show utf8Length (quote (letters n)) = n + 2
  rw [quote, letters, String.toList_ofList, hplain, utf8Length_cons, utf8Length_append,
    length_letters]
  have hquote : Char.utf8Size '"' = 1 := rfl
  have hend : utf8Length ['"'] = 1 := rfl
  omega

theorem value_letters {n : ℕ} (h : n ≤ 32 * 1024) :
    value texts (.str (.ofString (letters n))) = .ok (.str (.ofString (letters n))) := by
  have hnul : PyStr.hasChar (Char.ofNat 0) (.ofString (letters n)) = false := by
    rw [PyStr.hasChar, ← Bool.not_eq_true, List.contains_iff_mem, PyStr.ofString, letters,
      String.toList_ofList]
    intro hmem
    obtain ⟨c, hc, hsame⟩ := List.mem_map.mp hmem
    rw [List.eq_of_mem_replicate hc] at hsame
    exact absurd (CodePoint.ofChar_injective hsame) (by decide)
  have hlength : encodedLength (.ofString (letters n)) = .ok n := by
    rw [encodedLength, PyStr.ofString, letters, String.toList_ofList, PyStr.encode?_ofText]
    exact congrArg _ (length_letters n)
  have htext : valueText (.ofString (letters n)) = .ok (.str (.ofString (letters n))) := by
    refine Transaction.bind_eq_ok.mpr ⟨(), ?_, Transaction.bind_eq_ok.mpr ⟨n, hlength, ?_⟩⟩
    · rw [hnul]
      rfl
    · refine Transaction.bind_eq_ok.mpr ⟨(), ?_, rfl⟩
      rw [require_eq_ok, decide_eq_true_eq]
      exact h
  have hbudget : nodes (.str (.ofString (letters n))) ≤ 1000 := by
    show 1 ≤ 1000
    decide
  refine value_eq_ok.mpr ⟨⟨by decide, ?_⟩, hbudget, rfl⟩
  show (valueText (.ofString (letters n))).isOk = true
  rw [htext]
  rfl

/-- Four notes, three of them of one length. -/
def notes (n m : ℕ) : Document where
  doctype := "Sales Invoice"
  names := .arr [.str "SINV-1", .str "SINV-2"]
  filters := .null
  changes := [("note_a", .str (letters n)), ("note_b", .str (letters n)),
    ("note_c", .str (letters n)), ("note_d", .str (letters m))]
  expected := .null
  rows := 2
  reason := "month end"

theorem settled_notes {n m : ℕ} (hn : n ≤ 32 * 1024) (hm : m ≤ 32 * 1024) :
    Settled texts (ofFields (notes n m).changes) where
  names := by
    obtain ⟨-, -, ha, hb, hc, hd, -⟩ := by
      simpa only [updatable, List.forall_mem_cons] using checked_names.2
    simp only [notes, ofFields, List.forall_mem_cons]
    exact ⟨ha, hb, hc, hd, nofun⟩
  values := by
    simp only [notes, ofFields, ofJson, List.forall_mem_cons]
    exact ⟨value_letters hn, value_letters hn, value_letters hn, value_letters hm, nofun⟩
  nodup := by
    simp only [notes, ofFields, List.map_cons, List.map_nil]
    have hlast : [PyStr.ofString "note_a", .ofString "note_b", .ofString "note_c",
        .ofString "note_d"].Sublist (updatable.map PyStr.ofString) :=
      List.drop_sublist 2 (updatable.map PyStr.ofString)
    exact checked_names.1.sublist hlast

theorem describes_notes (n m : ℕ) : (notes n m).Describes (parts (ofFields (notes n m).changes)) :=
  ⟨rfl, rfl, rfl, rfl, rfl, rfl, rfl⟩

/-- The length of a preview with notes. -/
theorem length_notes (n m : ℕ) :
    utf8Length (LifecycleAuthoring.Sample.runtime.dumps (.obj ((notes n m).fields true)))
      = 3 * n + m + 242 := by
  have hkeys : utf8Length (quote "note_a") = 8 ∧ utf8Length (quote "note_b") = 8
      ∧ utf8Length (quote "note_c") = 8 ∧ utf8Length (quote "note_d") = 8 := by
    decide +kernel
  have hchanges : utf8Length (LifecycleAuthoring.Sample.runtime.dumps (.obj (notes n m).changes))
      = 3 * n + m + 49 := by
    have hne : (notes n m).changes ≠ [] := List.cons_ne_nil _ _
    rw [utf8Length_obj hne]
    simp only [notes, List.map_cons, List.map_nil, List.sum_cons, List.sum_nil, fieldLength,
      dumps_letters, hkeys]
    omega
  have hempty : utf8Length (LifecycleAuthoring.Sample.runtime.dumps (.obj [])) = 2 := rfl
  -- everything but the changes
  have hrest : ((Document.fields { notes 0 0 with changes := [] } true).map
      (fieldLength LifecycleAuthoring.Sample.runtime)).sum = 194 := by decide +kernel
  have hne : (notes n m).fields true ≠ [] := List.cons_ne_nil _ _
  rw [utf8Length_obj hne]
  simp only [Document.fields, List.map_cons, List.map_nil, List.sum_cons, List.sum_nil, fieldLength,
    hempty] at hrest
  simp only [Document.fields, List.map_cons, List.map_nil, List.sum_cons, List.sum_nil, fieldLength,
    hchanges]
  simp only [notes] at hrest ⊢
  linarith only [hrest]

def noted (n m : ℕ) (dryRun : Bool) : Fields :=
  commandFields (.ofString "local.policy") ((parts (ofFields (notes n m).changes)).fields dryRun)

theorem noted_accepted {n m : ℕ} (hn : n ≤ 32 * 1024) (hm : m ≤ 32 * 1024)
    (hsize : 3 * n + m + 242 ≤ 128 * 1024) :
    normalizeCommand texts LifecycleAuthoring.Sample.runtime "data.update"
      (.obj (noted n m true)) true = .ok (noted n m true) := by
  have haccepts := accepts_parts (settled_notes hn hm) (List.cons_ne_nil _ _) (by simp [notes, ofFields])
    true
  have hfits : utf8Length (LifecycleAuthoring.Sample.runtime.dumps (.obj ((notes n m).fields true)))
      ≤ 128 * 1024 := by
    rw [length_notes]
    exact hsize
  exact normalizeCommand_of (by decide) (sameKeys_command _ _) (policy_command _ _)
    checked_texts.2.2.2 (payload_command _ _)
    (normalizePayload_of haccepts (describes_notes n m) hfits)

end Sample

/-- A preview whose payload takes all 131072 bytes is accepted, and its promotion is refused. -/
theorem long_preview_refused :
    normalizeCommand Sample.texts LifecycleAuthoring.Sample.runtime "data.update"
        (.obj (Sample.noted 32768 32526 true)) true = .ok (Sample.noted 32768 32526 true)
      ∧ (normalizeCommand Sample.texts LifecycleAuthoring.Sample.runtime "data.update"
          (.obj (applyCommand (Sample.noted 32768 32526 true))) false).isOk = false := by
  have haccepted := Sample.noted_accepted (n := 32768) (m := 32526) (by decide) (by decide) (by decide)
  refine ⟨haccepted, ?_⟩
  rw [← Bool.not_eq_true]
  intro hok
  obtain ⟨out, hout⟩ := Transaction.exists_eq_ok_of_isOk hok
  have hdocument : toFields? ((Sample.parts (ofFields (Sample.notes 32768 32526).changes)).fields true)
      = some ((Sample.notes 32768 32526).fields true) := by
    rw [← (Sample.describes_notes 32768 32526).ofFields, toFields?_ofFields]
  obtain ⟨-, hroom⟩ := promoted_eq haccepted (payload_command _ _) hdocument hout
  rw [Sample.length_notes] at hroom
  omega

end DataUpdateAuthoring

end FrappeController
