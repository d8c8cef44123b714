import FrappeController.Library.Keyed
import Mathlib.Data.List.Basic
import Mathlib.Tactic.Common
import Mathlib.Algebra.GroupWithZero.Nat

/-!
# Texts of internet addresses

The text forms of IPv4 and IPv6 addresses. A text is the list of its code points. `dottedQuad?` is
the one strict form of an IPv4 address; `inetAton?` reads every form the resolver's `inet_aton`
does: one to four parts, each decimal, octal or hexadecimal, the last part filling the rest of the
address.
-/

namespace AddressText

abbrev Digits := List ℕ

/-- The value of a hexadecimal digit. -/
def digit? (c : ℕ) : Option ℕ :=
  if 48 ≤ c ∧ c ≤ 57 then some (c - 48)
  else if 97 ≤ c ∧ c ≤ 102 then some (c - 87)
  else if 65 ≤ c ∧ c ≤ 70 then some (c - 55)
  else none

/-- The number written with digits of a base, after the digits read so far. -/
def readFrom (base : ℕ) : ℕ → Digits → Option ℕ
  | value, [] => some value
  | value, c :: rest =>
    match digit? c with
    | some d => if d < base then readFrom base (value * base + d) rest else none
    | none => none

/-- A number of at least one digit. -/
def number? (base : ℕ) (text : Digits) : Option ℕ :=
  if text = [] then none else readFrom base 0 text

/-! ## IPv4 -/

/-- A part of a dotted quad: decimal, at most three digits, no leading zero. -/
def octet? (text : Digits) : Option ℕ :=
  if text.length ≤ 3 ∧ (text = [48] ∨ text.head? ≠ some 48) then
    match number? 10 text with
    | some value => if value ≤ 255 then some value else none
    | none => none
  else none

/-- Four octets, the most significant one first. -/
def dottedQuad? (text : Digits) : Option ℕ :=
  match (text.splitOn 46).mapM octet? with
  | some [a, b, c, d] => some (((a * 256 + b) * 256 + c) * 256 + d)
  | _ => none

/-- A part as `strtoul` reads it in base 0: hexadecimal after `0x`, octal after `0`. -/
def part? : Digits → Option ℕ
  | 48 :: 120 :: rest | 48 :: 88 :: rest => number? 16 rest
  | 48 :: rest => number? 8 (48 :: rest)
  | text => number? 10 text

/-- The parts of an address: every one but the last is a byte, the last one fills the rest. -/
def ofParts : List ℕ → Option ℕ
  | [a] => if a < 256 ^ 4 then some a else none
  | [a, b] => if a < 256 ∧ b < 256 ^ 3 then some (a * 256 ^ 3 + b) else none
  | [a, b, c] => if a < 256 ∧ b < 256 ∧ c < 256 ^ 2 then some ((a * 256 + b) * 256 ^ 2 + c) else none
  | [a, b, c, d] =>
    if a < 256 ∧ b < 256 ∧ c < 256 ∧ d < 256 then some (((a * 256 + b) * 256 + c) * 256 + d)
    else none
  | _ => none

/-- `inet_aton` -/
def inetAton? (text : Digits) : Option ℕ := ((text.splitOn 46).mapM part?).bind ofParts

/-! ## IPv6 -/

/-- A group of at most four hexadecimal digits. -/
def hextet? (text : Digits) : Option ℕ :=
  if text.length ≤ 4 then number? 16 text else none

def hextets? (parts : List Digits) : Option (List ℕ) := parts.mapM hextet?

def fromHextets (hextets : List ℕ) : ℕ := hextets.foldl (fun value h => value * 65536 + h) 0

/-- The groups before and after `::`, as many zero groups between them as are missing. -/
def compressed? (before after : List Digits) : Option ℕ :=
  if before.length + after.length ≤ 7 then do
    let before ← hextets? before
    let after ← hextets? after
    return fromHextets (before ++ List.replicate (8 - (before.length + after.length)) 0 ++ after)
  else none

/-- The groups of an address without `::`. -/
def full? (parts : List Digits) : Option ℕ :=
  if parts.length = 8 then (hextets? parts).map fromHextets else none

/-- The hexadecimal text of a number below 65536. -/
def hexText (n : ℕ) : Digits :=
  (Nat.toDigits 16 n).map Char.toNat

/-- The parts, the last of them a dotted quad replaced by two groups. -/
def plainParts? (parts : List Digits) : Option (List Digits) :=
  match parts.getLast? with
  | none => none
  | some last =>
    if 46 ∈ last then
      match dottedQuad? last with
      | some value => some (parts.dropLast ++ [hexText (value / 65536), hexText (value % 65536)])
      | none => none
    else some parts

/-- The groups of the parts: one empty part inside stands for `::`, at an end it needs its
neighbour to be empty as well. -/
def ofGroups? (parts : List Digits) : Option ℕ :=
  let inner := parts.tail.dropLast
  match inner.findIdx? (· == []) with
  | none => full? parts
  | some skip =>
    let before := parts.take (skip + 1)
    let after := parts.drop (skip + 2)
    if (inner.filter (· == [])).length = 1 then
      if before.head? = some [] ∧ before.length ≠ 1 then none
      else if after.getLast? = some [] ∧ after.length ≠ 1 then none
      else compressed? (before.filter (· != [])) (after.filter (· != []))
    else none

/-- An IPv6 address without its scope. -/
def ipv6? (text : Digits) : Option ℕ :=
  let parts := text.splitOn 58
  if 3 ≤ parts.length ∧ parts.length ≤ 9 then
    match plainParts? parts with
    | some parts => if parts.length ≤ 9 then ofGroups? parts else none
    | none => none
  else none

/-! ## Parts -/

/-- Every character is the separator or in a part. -/
theorem mem_splitOn {α : Type} [DecidableEq α] (sep : α) {c : α} {text : List α} (hc : c ∈ text) :
    c = sep ∨ ∃ part ∈ text.splitOn sep, c ∈ part := by
  induction text with
  | nil => exact absurd hc List.not_mem_nil
  | cons first rest ih =>
    rw [List.splitOn_cons_eq_if_modifyHead]
    by_cases hfirst : first = sep
    · rw [if_pos (beq_iff_eq.mpr hfirst)]
      rcases List.mem_cons.mp hc with hsame | hrest
      · exact .inl (hsame.trans hfirst)
      · rcases ih hrest with hsep | ⟨part, hpart, hmem⟩
        · exact .inl hsep
        · exact .inr ⟨part, List.mem_cons_of_mem _ hpart, hmem⟩
    · rw [if_neg (by simpa using hfirst)]
      cases hparts : rest.splitOn sep with
      | nil => exact absurd hparts (List.splitOn_ne_nil sep rest)
      | cons part others =>
        rw [List.modifyHead_cons]
        rcases List.mem_cons.mp hc with hsame | hrest
        · exact .inr ⟨_, List.mem_cons_self, hsame ▸ List.mem_cons_self⟩
        · rcases ih hrest with hsep | ⟨other, hother, hmem⟩
          · exact .inl hsep
          · rw [hparts] at hother
            rcases List.mem_cons.mp hother with heq | hother
            · exact .inr ⟨_, List.mem_cons_self, List.mem_cons_of_mem _ (heq ▸ hmem)⟩
            · exact .inr ⟨other, List.mem_cons_of_mem _ hother, hmem⟩

theorem splitOn_of_notMem {sep : ℕ} {text : Digits} (h : sep ∉ text) :
    text.splitOn sep = [text] := by
  rw [List.splitOn_eq_splitOnP]
  apply List.splitOnP_eq_singleton
  intro c hc
  exact beq_false_of_ne fun hsame => h (hsame ▸ hc)

/-! ## Digits -/

theorem readFrom_digits {base value v : ℕ} {text : Digits} (h : readFrom base value text = some v) :
    ∀ c ∈ text, ∃ d, digit? c = some d ∧ d < base := by
  induction text generalizing value with
  | nil => exact fun c hc => absurd hc List.not_mem_nil
  | cons first rest ih =>
    unfold readFrom at h
    split at h
    · rename_i d hd
      split at h
      · rename_i hbase
        intro c hc
        rcases List.mem_cons.mp hc with hsame | hrest
        · exact ⟨d, hsame ▸ hd, hbase⟩
        · exact ih h c hrest
      · cases h
    · cases h

theorem number?_digits {base v : ℕ} {text : Digits} (h : number? base text = some v) :
    ∀ c ∈ text, ∃ d, digit? c = some d ∧ d < base := by
  unfold number? at h
  split at h
  · cases h
  · exact readFrom_digits h

/-- A character of a number. -/
def IsHex (c : ℕ) : Prop := 48 ≤ c ∧ c ≤ 57 ∨ 97 ≤ c ∧ c ≤ 102 ∨ 65 ≤ c ∧ c ≤ 70

theorem isHex_of_digit? {c d : ℕ} (h : digit? c = some d) : IsHex c := by
  unfold digit? at h
  unfold IsHex
  split at h
  · exact .inl ‹_›
  · split at h
    · exact .inr (.inl ‹_›)
    · split at h
      · exact .inr (.inr ‹_›)
      · cases h

theorem decimal_of_digit? {c d : ℕ} (h : digit? c = some d) (hd : d < 10) : 48 ≤ c ∧ c ≤ 57 := by
  unfold digit? at h
  split at h
  · assumption
  · split at h
    · rename_i hrange
      have hvalue := Option.some.inj h
      omega
    · split at h
      · rename_i hrange
        have hvalue := Option.some.inj h
        omega
      · cases h

theorem octet?_spec {text : Digits} {v : ℕ} (h : octet? text = some v) :
    v ≤ 255 ∧ number? 10 text = some v ∧ (text = [48] ∨ text.head? ≠ some 48) := by
  unfold octet? at h
  split at h
  · rename_i hshape
    split at h
    · rename_i value hnumber
      split at h
      · rename_i hsmall
        cases h
        exact ⟨hsmall, hnumber, hshape.2⟩
      · cases h
    · cases h
  · cases h

/-- A strict part is read as the same number in base 0. -/
theorem part?_of_octet? {text : Digits} {v : ℕ} (h : octet? text = some v) : part? text = some v := by
  obtain ⟨-, hnumber, hshape⟩ := octet?_spec h
  rcases hshape with hzero | hhead
  · subst hzero
    exact hnumber
  · unfold part?
    split
    · exact absurd rfl hhead
    · exact absurd rfl hhead
    · exact absurd rfl hhead
    · exact hnumber

theorem mapM_mono {f g : Digits → Option ℕ} {parts : List Digits} {values : List ℕ}
    (hfg : ∀ part v, f part = some v → g part = some v) (h : parts.mapM f = some values) :
    parts.mapM g = some values := by
  induction parts generalizing values with
  | nil => exact h
  | cons part rest ih =>
    rw [List.mapM_cons] at h ⊢
    obtain ⟨v, hv, h⟩ := Option.bind_eq_some_iff.mp h
    obtain ⟨vs, hvs, h⟩ := Option.bind_eq_some_iff.mp h
    exact Option.bind_eq_some_iff.mpr ⟨v, hfg part v hv,
      Option.bind_eq_some_iff.mpr ⟨vs, ih hvs, h⟩⟩

/-- What is read of every part holds of every value. -/
theorem forall_of_mapM {f : Digits → Option ℕ} {parts : List Digits} {values : List ℕ}
    {P : Digits → ℕ → Prop} (hf : ∀ part v, f part = some v → P part v)
    (h : parts.mapM f = some values) : List.Forall₂ P parts values := by
  induction parts generalizing values with
  | nil =>
    cases h
    exact .nil
  | cons part rest ih =>
    rw [List.mapM_cons] at h
    obtain ⟨v, hv, h⟩ := Option.bind_eq_some_iff.mp h
    obtain ⟨vs, hvs, h⟩ := Option.bind_eq_some_iff.mp h
    cases h
    exact .cons (hf part v hv) (ih hvs)

/-- The strict form is one of the forms, with the same value. -/
theorem inetAton?_of_dottedQuad? {text : Digits} {v : ℕ} (h : dottedQuad? text = some v) :
    inetAton? text = some v := by
  unfold dottedQuad? at h
  split at h
  · rename_i a b c d hparts
    have hsmall := forall_of_mapM (P := fun _ v => v ≤ 255) (fun _ _ ho => (octet?_spec ho).1) hparts
    have hbytes : a < 256 ∧ b < 256 ∧ c < 256 ∧ d < 256 := by
      have hvalues : ∀ value ∈ [a, b, c, d], value ≤ 255 := by
        intro value hvalue
        obtain ⟨part, -, hle⟩ := Keyed.exists_mem_of_mem hsmall.flip hvalue
        exact hle
      have ha := hvalues a (by simp)
      have hb := hvalues b (by simp)
      have hc := hvalues c (by simp)
      have hd := hvalues d (by simp)
      omega
    rw [inetAton?, mapM_mono (fun _ _ => part?_of_octet?) hparts]
    exact (if_pos hbytes).trans h
  · cases h

/-- The characters of a dotted quad. -/
theorem dottedQuad?_chars {text : Digits} {v : ℕ} (h : dottedQuad? text = some v) :
    ∀ c ∈ text, c = 46 ∨ 48 ≤ c ∧ c ≤ 57 := by
  unfold dottedQuad? at h
  split at h
  · rename_i a b c d hparts
    have hdigits := forall_of_mapM (P := fun part _ => ∀ c ∈ part, 48 ≤ c ∧ c ≤ 57)
      (fun part v ho c hc => by
        obtain ⟨d, hd, hsmall⟩ := number?_digits (octet?_spec ho).2.1 c hc
        exact decimal_of_digit? hd hsmall) hparts
    intro c hc
    rcases mem_splitOn 46 hc with hsep | ⟨part, hpart, hmem⟩
    · exact .inl hsep
    · obtain ⟨value, -, hpartDigits⟩ := Keyed.exists_mem_of_mem hdigits hpart
      exact .inr (hpartDigits c hmem)
  · cases h

/-! ## Characters of an IPv6 address -/

theorem hextet?_chars {text : Digits} {v : ℕ} (h : hextet? text = some v) : ∀ c ∈ text, IsHex c := by
  unfold hextet? at h
  split at h
  · intro c hc
    obtain ⟨d, hd, -⟩ := number?_digits h c hc
    exact isHex_of_digit? hd
  · cases h

theorem hextets?_chars {parts : List Digits} {values : List ℕ} (h : hextets? parts = some values) :
    ∀ part ∈ parts, ∀ c ∈ part, IsHex c := by
  have hall := forall_of_mapM (P := fun part _ => ∀ c ∈ part, IsHex c)
    (fun _ _ hvalue => hextet?_chars hvalue) h
  intro part hpart
  obtain ⟨value, -, hchars⟩ := Keyed.exists_mem_of_mem hall hpart
  exact hchars

/-- A part that is not empty lies before or after the empty one. -/
theorem mem_around_skip {parts : List Digits} {skip : ℕ} {part : Digits}
    (hskip : parts.tail.dropLast.findIdx? (· == []) = some skip) (hpart : part ∈ parts)
    (hne : part ≠ []) : part ∈ parts.take (skip + 1) ∨ part ∈ parts.drop (skip + 2) := by
  obtain ⟨hlt, hempty, -⟩ := List.findIdx?_eq_some_iff_getElem.mp hskip
  have hparts : skip + 1 < parts.length := by
    rw [List.length_dropLast, List.length_tail] at hlt
    omega
  have hnil : parts[skip + 1] = [] := by
    rw [List.getElem_dropLast, List.getElem_tail] at hempty
    exact eq_of_beq hempty
  rw [← List.take_append_drop (skip + 1) parts, List.drop_eq_getElem_cons hparts, hnil] at hpart
  rcases List.mem_append.mp hpart with hfirst | hrest
  · exact .inl hfirst
  · rcases List.mem_cons.mp hrest with hsame | hsecond
    · exact absurd hsame hne
    · exact .inr hsecond

theorem ofGroups?_chars {parts : List Digits} {v : ℕ} (h : ofGroups? parts = some v) :
    ∀ part ∈ parts, ∀ c ∈ part, IsHex c := by
  unfold ofGroups? at h
  simp only at h
  split at h
  · unfold full? at h
    split at h
    · obtain ⟨values, hvalues, -⟩ := Option.map_eq_some_iff.mp h
      exact hextets?_chars hvalues
    · cases h
  · rename_i skip hskip
    split at h
    · split at h
      · cases h
      · split at h
        · cases h
        · unfold compressed? at h
          split at h
          · obtain ⟨before, hbefore, h⟩ := Option.bind_eq_some_iff.mp h
            obtain ⟨after, hafter, -⟩ := Option.bind_eq_some_iff.mp h
            intro part hpart c hc
            have hne : part ≠ [] := List.ne_nil_of_mem hc
            have hkept : (part != []) = true := bne_iff_ne.mpr hne
            -- the part between the two halves is the empty one
            have hplace := mem_around_skip hskip hpart hne
            rcases hplace with hfirst | hsecond
            · exact hextets?_chars hbefore part (List.mem_filter.mpr ⟨hfirst, hkept⟩) c hc
            · exact hextets?_chars hafter part (List.mem_filter.mpr ⟨hsecond, hkept⟩) c hc
          · cases h
    · cases h

theorem plainParts?_chars {parts plain : List Digits} (h : plainParts? parts = some plain)
    (hplain : ∀ part ∈ plain, ∀ c ∈ part, IsHex c) :
    ∀ part ∈ parts, ∀ c ∈ part, IsHex c ∨ c = 46 := by
  unfold plainParts? at h
  split at h
  · cases h
  · rename_i last hlast
    split at h
    · split at h
      · rename_i value hvalue
        cases h
        intro part hpart c hc
        rw [← List.dropLast_append_getLast? last hlast] at hpart
        rcases List.mem_append.mp hpart with hinit | hend
        · exact .inl (hplain part (List.mem_append_left _ hinit) c hc)
        · rw [List.mem_singleton.mp hend] at hc
          rcases dottedQuad?_chars hvalue c hc with hdot | hdigit
          · exact .inr hdot
          · exact .inl (.inl hdigit)
      · cases h
    · cases h
      exact fun part hpart c hc => .inl (hplain part hpart c hc)

/-- An IPv6 address consists of hexadecimal digits, colons and dots; it has a colon. -/
theorem ipv6?_chars {text : Digits} {v : ℕ} (h : ipv6? text = some v) :
    58 ∈ text ∧ ∀ c ∈ text, IsHex c ∨ c = 46 ∨ c = 58 := by
  unfold ipv6? at h
  simp only at h
  split at h
  · rename_i hlength
    split at h
    · rename_i plain hplain
      split at h
      · constructor
        · by_contra hmissing
          rw [splitOn_of_notMem hmissing] at hlength
          exact absurd hlength.1 (by simp)
        · intro c hc
          rcases mem_splitOn 58 hc with hsep | ⟨part, hpart, hmem⟩
          · exact .inr (.inr hsep)
          · rcases plainParts?_chars hplain (ofGroups?_chars h) part hpart c hmem with hhex | hdot
            · exact .inl hhex
            · exact .inr (.inl hdot)
      · cases h
    · cases h
  · cases h

end AddressText
