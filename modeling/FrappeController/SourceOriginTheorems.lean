import FrappeController.SourceOrigin

/-!
# What origins are accepted

An accepted host has one of two shapes: the characters of a DNS name, which strict IPv4 addresses
have as well, or an IPv6 address with an optional zone. From the shape it follows how `urlsplit` reads
the origin that is written with it, so normalizing an origin again changes nothing. What is left open
is the resolver: a name may be an address that only `inet_aton` reads (`LooselyNonPublic`).
-/

namespace FrappeController
namespace SourceOrigin

open Partition (before after? afterLast before_append after?_append before_of_notMem after?_of_notMem
  afterLast_of_notMem)

/-- `str.lower` of an ASCII character. -/
def asciiLower (c : CodePoint) : CodePoint :=
  if h : 65 ≤ c.val ∧ c.val ≤ 90 then ⟨c.val + 32, by omega⟩ else c

/-- What is used of the tables of Unicode. `%` and `]` combine with nothing in NFKC. -/
structure Lawful (L : UrlLibrary) : Prop where
  lower_ascii : ∀ s, isAscii s = true → L.lower s = s.map asciiLower
  lower_letters : ∀ s, ∀ c ∈ s, isAsciiLetter c = true → asciiLower c ∈ L.lower s
  lower_marks : ∀ s, ∀ c ∈ L.lower s, c.val < 128 → isAsciiLetter c = false → c ∈ s
  nfkc_ascii : ∀ s, isAscii s = true → L.nfkc s = s
  nfkc_cut : ∀ c, c = pt '%' ∨ c = pt ']' → ∀ s t, L.nfkc (s ++ c :: t) = L.nfkc s ++ c :: L.nfkc t

/-! ## Characters -/

/-- Two characters of the program with one code point are equal. -/
theorem pt_injective {c d : Char} (h : pt c = pt d) : c = d := CodePoint.ofChar_injective h

/-- A text has a character when its code point occurs in it. -/
theorem hasChar_eq_true {c : Char} {s : PyStr} : PyStr.hasChar c s = true ↔ pt c ∈ s :=
  List.contains_iff_mem

/-- A text lacks a character when its code point does not occur in it. -/
theorem hasChar_eq_false {c : Char} {s : PyStr} : PyStr.hasChar c s = false ↔ pt c ∉ s := by
  rw [← hasChar_eq_true, Bool.not_eq_true]

/-- A text is ASCII when every code point is below 128. -/
theorem isAscii_iff {s : PyStr} : isAscii s = true ↔ ∀ c ∈ s, c.val < 128 := by
  simp only [isAscii, List.all_eq_true, decide_eq_true_eq]

/-- A text in two parts is ASCII when both parts are. -/
theorem isAscii_append {s t : PyStr} :
    isAscii (s ++ t) = true ↔ isAscii s = true ∧ isAscii t = true := by
  simp only [isAscii, List.all_append, Bool.and_eq_true]

/-- A text is ASCII when its first character and the rest are. -/
theorem isAscii_cons {c : CodePoint} {s : PyStr} :
    isAscii (c :: s) = true ↔ c.val < 128 ∧ isAscii s = true := by
  simp only [isAscii, List.all_cons, Bool.and_eq_true, decide_eq_true_eq]

/-- A character of a network location that is read to its end. -/
def Inside (c : CodePoint) : Prop := 32 < c.val ∧ endsNetloc c = false

/-- Above the blanks, only the three marks end a network location. -/
theorem inside_of_range {c : CodePoint} (h : 32 < c.val)
    (hne : c.val ≠ 47 ∧ c.val ≠ 63 ∧ c.val ≠ 35) : Inside c := by
  refine ⟨h, ?_⟩
  have hpt : ∀ d : Char, c.val ≠ d.toNat → (c == pt d) = false := by
    intro d hd
    apply beq_false_of_ne
    intro heq
    exact hd (congrArg Fin.val heq)
  rw [endsNetloc, hpt '/' hne.1, hpt '?' hne.2.1, hpt '#' hne.2.2]
  rfl

/-! ## Reading an origin -/

/-- Nothing is stripped from a text without blanks and controls. -/
theorem cleanUrl_eq {url : PyStr} (h : ∀ c ∈ url, 32 < c.val) : cleanUrl url = url := by
  have hdrop : url.dropWhile (fun c => decide (c.val ≤ 32)) = url := by
    cases url with
    | nil => rfl
    | cons c rest =>
      have hc := h c List.mem_cons_self
      rw [List.dropWhile_cons, if_neg]
      rw [decide_eq_true_eq]
      omega
  rw [cleanUrl, hdrop]
  apply List.filter_eq_self.mpr
  intro c hc
  have hlarge := h c hc
  rw [Bool.not_eq_true', Bool.or_eq_false_iff, Bool.or_eq_false_iff]
  exact ⟨⟨beq_false_of_ne (by omega), beq_false_of_ne (by omega)⟩, beq_false_of_ne (by omega)⟩

/-- The start of an origin is its scheme, a colon and two slashes. -/
theorem https_eq : PyStr.ofString "https://" = PyStr.ofString "https" ++ pt ':' :: [pt '/', pt '/'] := by
  decide

variable {L : UrlLibrary}

/-- The scheme of an origin is split off at its colon. -/
theorem splitScheme_https (hL : Lawful L) (rest : PyStr) :
    splitScheme L (PyStr.ofString "https" ++ pt ':' :: rest) = (PyStr.ofString "https", rest) := by
  have hcolon : pt ':' ∉ PyStr.ofString "https" := by decide
  have hguard : ((PyStr.ofString "https").head?.any isAsciiLetter
      && (PyStr.ofString "https").all isSchemePoint) = true := by decide
  have hlower : (PyStr.ofString "https").map asciiLower = PyStr.ofString "https" := by decide
  rw [splitScheme, after?_append hcolon, before_append hcolon]
  show (if _ = true then _ else _) = _
  rw [if_pos hguard, hL.lower_ascii _ (by decide), hlower]

/-- A network location without an end takes the rest of the URL. -/
theorem splitNetloc_inside {netloc : PyStr} (h : ∀ c ∈ netloc, endsNetloc c = false) :
    splitNetloc (pt '/' :: pt '/' :: netloc) = (netloc, []) := by
  have htake : netloc.takeWhile (!endsNetloc ·) = netloc := by
    apply List.takeWhile_eq_self_iff.mpr
    intro c hc
    rw [h c hc]
    rfl
  have hdrop : netloc.dropWhile (!endsNetloc ·) = [] := by
    apply List.dropWhile_eq_nil_iff.mpr
    intro c hc
    rw [h c hc]
    rfl
  have hstart : [pt '/', pt '/'].isPrefixOf (pt '/' :: pt '/' :: netloc) = true := by simp
  rw [splitNetloc, if_pos hstart]
  show (netloc.takeWhile _, netloc.dropWhile _) = _
  rw [htake, hdrop]

/-- `urlsplit`, given the scheme and the network location it finds. -/
theorem urlsplit_eq {url scheme rest netloc tail : PyStr}
    (hscheme : splitScheme L (cleanUrl url) = (scheme, rest))
    (hnetloc : splitNetloc rest = (netloc, tail)) :
    urlsplit L url = if bracketsOk netloc && netlocOk L netloc then
      some ⟨scheme, netloc, (cutAt (pt '?') (cutAt (pt '#') tail).1).1,
        (cutAt (pt '?') (cutAt (pt '#') tail).1).2, (cutAt (pt '#') tail).2⟩
    else none := by
  simp only [urlsplit, hscheme, hnetloc]

/-- A network location that is nothing but inside is the whole of the URL. -/
theorem urlsplit_https (hL : Lawful L) {netloc : PyStr} (hinside : ∀ c ∈ netloc, Inside c)
    (hbrackets : bracketsOk netloc = true) (hok : netlocOk L netloc = true) :
    urlsplit L (PyStr.ofString "https://" ++ netloc)
      = some ⟨PyStr.ofString "https", netloc, [], [], []⟩ := by
  have hclean : cleanUrl (PyStr.ofString "https://" ++ netloc) = PyStr.ofString "https://" ++ netloc := by
    apply cleanUrl_eq
    intro c hc
    rcases List.mem_append.mp hc with hscheme | hnetloc
    · have hall : (PyStr.ofString "https://").all (fun c => decide (32 < c.val)) = true := by decide
      exact of_decide_eq_true (List.all_eq_true.mp hall c hscheme)
    · exact (hinside c hnetloc).1
  have hurl : PyStr.ofString "https://" ++ netloc
      = PyStr.ofString "https" ++ pt ':' :: (pt '/' :: pt '/' :: netloc) := by
    rw [https_eq, List.append_assoc]
    rfl
  have hlocated := splitNetloc_inside fun c hc => (hinside c hc).2
  have hscheme := splitScheme_https hL (pt '/' :: pt '/' :: netloc)
  rw [urlsplit_eq (by rw [hclean, hurl, hscheme]) hlocated, hbrackets, hok]
  rfl

/-! ## Ports -/

/-- Digits are read as the number they stand for, on top of what was read before. -/
theorem readFrom_digits {chars : List Char} (h : ∀ c ∈ chars, c.isDigit = true) (value : ℕ) :
    AddressText.readFrom 10 value (chars.map Char.toNat) = some (Nat.ofDigitChars 10 chars value) := by
  induction chars generalizing value with
  | nil => rw [Nat.ofDigitChars_nil]; rfl
  | cons c chars ih =>
    have hdigit := h c List.mem_cons_self
    have hrange : 48 ≤ c.toNat ∧ c.toNat ≤ 57 := by
      simp only [Char.isDigit, Bool.and_eq_true, decide_eq_true_eq] at hdigit
      exact hdigit
    have hvalue : AddressText.digit? c.toNat = some (c.toNat - 48) := if_pos hrange
    rw [List.map_cons, AddressText.readFrom, hvalue]
    show (if c.toNat - 48 < 10 then _ else _) = _
    rw [if_pos (by omega), ih (fun d hd => h d (List.mem_cons_of_mem _ hd)), Nat.ofDigitChars_cons,
      Nat.mul_comm value 10]
    rfl

/-- A number is written with its decimal digits. -/
theorem toString_toList (n : ℕ) : (toString n).toList = Nat.toDigits 10 n := Nat.toList_repr

/-- The text of a port. -/
theorem codes_port (n : ℕ) :
    codes (PyStr.ofString (toString n)) = (Nat.toDigits 10 n).map Char.toNat := by
  rw [codes, PyStr.ofString, PyStr.ofText, toString_toList, List.map_map]
  rfl

/-- The digits of a port are read back as it. -/
theorem number?_port (n : ℕ) : AddressText.number? 10 (codes (PyStr.ofString (toString n))) = some n := by
  have hne : (Nat.toDigits 10 n).map Char.toNat ≠ [] := by
    intro heq
    have hpos := Nat.length_toDigits_pos (b := 10) (n := n)
    rw [List.map_eq_nil_iff.mp heq] at hpos
    exact absurd hpos (by decide)
  rw [codes_port, AddressText.number?, if_neg hne, readFrom_digits fun c hc =>
    Nat.isDigit_of_mem_toDigits (by omega) (by omega) hc]
  rw [Nat.ofDigitChars_toDigits (by omega) (by omega)]

/-- A port is written with digits only. -/
theorem port_digits {n : ℕ} {c : CodePoint} (hc : c ∈ PyStr.ofString (toString n)) :
    48 ≤ c.val ∧ c.val ≤ 57 := by
  have hmem : c.val ∈ codes (PyStr.ofString (toString n)) := List.mem_map_of_mem hc
  obtain ⟨d, hd, hsmall⟩ := AddressText.number?_digits (number?_port n) c.val hmem
  exact AddressText.decimal_of_digit? hd hsmall

/-- A port is far below the digit limit of `int`. -/
theorem port_length {n : ℕ} (h : n ≤ 65535) : (PyStr.ofString (toString n)).length ≤ 4300 := by
  have hlength : (PyStr.ofString (toString n)).length = (Nat.toDigits 10 n).length := by
    rw [PyStr.ofString, PyStr.ofText, toString_toList, List.length_map]
  have hfive : (Nat.toDigits 10 n).length ≤ 5 :=
    (Nat.length_toDigits_le_iff (by omega) (by omega)).mpr (by omega)
  omega

/-- The port that is written. -/
def kept (port : Option ℕ) : Option ℕ := if port = some 443 then none else port

def PortOk (port : Option ℕ) : Prop := ∀ n, port = some n → 1 ≤ n ∧ n ≤ 65535

/-- The default port is written as no port. -/
theorem portText_kept (port : Option ℕ) : portText (kept port) = portText port := by
  cases port with
  | none => rfl
  | some n =>
    by_cases hn : n = 443
    · subst hn
      rfl
    · have hne : (some n : Option ℕ) ≠ some 443 := fun h => hn (Option.some.inj h)
      rw [kept, if_neg hne]

/-- Nothing is written, or a colon and the digits of another port. -/
theorem portText_cases (port : Option ℕ) :
    (portText port = [] ∧ kept port = none)
      ∨ ∃ n, port = some n ∧ kept port = some n
        ∧ portText port = pt ':' :: PyStr.ofString (toString n) := by
  cases port with
  | none => exact .inl ⟨rfl, rfl⟩
  | some n =>
    by_cases hn : n = 443
    · subst hn
      exact .inl ⟨rfl, rfl⟩
    · have hne : (some n : Option ℕ) ≠ some 443 := fun h => hn (Option.some.inj h)
      refine .inr ⟨n, rfl, by rw [kept, if_neg hne], ?_⟩
      show (if n = 443 then [] else _) = _
      rw [if_neg hn]

/-- The text of a port has digits and a colon only. -/
theorem portText_range {port : Option ℕ} {c : CodePoint} (hc : c ∈ portText port) :
    48 ≤ c.val ∧ c.val ≤ 58 := by
  rcases portText_cases port with ⟨hnil, -⟩ | ⟨n, -, -, htext⟩
  · rw [hnil] at hc
    exact absurd hc List.not_mem_nil
  · rw [htext] at hc
    rcases List.mem_cons.mp hc with hcolon | hdigit
    · rw [hcolon]
      decide
    · have hrange := port_digits hdigit
      omega

/-- The text of a port that is read. -/
theorem port?_of_text {netloc host : PyStr} {port : Option ℕ} (hport : PortOk port)
    (h : hostInfo netloc = (host, (after? (pt ':') (portText port)).getD [])) :
    port? netloc = some (kept port) := by
  have hinfo : (hostInfo netloc).2 = (after? (pt ':') (portText port)).getD [] := by rw [h]
  rcases portText_cases port with ⟨hnil, hkept⟩ | ⟨n, hn, hkept, htext⟩
  · have htextNil : (hostInfo netloc).2 = [] := by
      rw [hinfo, hnil]
      rfl
    simp only [port?, htextNil, hkept]
  · have hdigits : (hostInfo netloc).2 = PyStr.ofString (toString n) := by
      rw [hinfo, htext]
      exact congrArg (fun text => Option.getD text []) (after?_append (a := []) List.not_mem_nil)
    have hnumber := number?_port n
    obtain ⟨hpos, hlarge⟩ := hport n hn
    have hguard : (PyStr.ofString (toString n)).length ≤ 4300 ∧ n ≤ 65535 :=
      ⟨port_length hlarge, hlarge⟩
    unfold port?
    rw [hdigits]
    split
    · rename_i hempty
      rw [hempty] at hnumber
      cases hnumber
    · rw [hnumber, hkept]
      exact if_pos hguard

/-! ## Shapes of a host -/

/-- The characters of a DNS name. -/
structure NameShape (host : PyStr) : Prop where
  nonempty : host ≠ []
  chars : ∀ c ∈ host, (97 ≤ c.val ∧ c.val ≤ 122) ∨ (48 ≤ c.val ∧ c.val ≤ 57)
    ∨ c.val = 45 ∨ c.val = 46

/-- The characters of a zone, and that NFKC makes no mark of them. -/
structure ZoneShape (L : UrlLibrary) (zone : PyStr) : Prop where
  nonempty : zone ≠ []
  inside : ∀ c ∈ zone, Inside c
  printable : ∀ c ∈ zone, c.val ≠ 127
  marks : pt '@' ∉ zone ∧ pt ']' ∉ zone ∧ pt '%' ∉ zone
  ok : netlocOk L zone = true

/-- The characters of an IPv6 address in lower case, and of its zone. -/
structure ScopedShape (L : UrlLibrary) (address scope : PyStr) : Prop where
  colon : pt ':' ∈ address
  chars : ∀ c ∈ address, (97 ≤ c.val ∧ c.val ≤ 102) ∨ (48 ≤ c.val ∧ c.val ≤ 57)
    ∨ c.val = 46 ∨ c.val = 58
  scope : scope = [] ∨ ∃ zone, scope = pt '%' :: zone ∧ ZoneShape L zone

/-- A character is absent where its code point is. -/
theorem notMem_of_val {s : PyStr} {d : Char} (h : ∀ c ∈ s, c.val ≠ d.toNat) : pt d ∉ s :=
  fun hmem => h _ hmem rfl

/-- ASCII without capitals is its own lower case. -/
theorem lower_eq_self (hL : Lawful L) {s : PyStr} (h : ∀ c ∈ s, c.val < 128 ∧ ¬ (65 ≤ c.val ∧ c.val ≤ 90)) :
    L.lower s = s := by
  have hsame : ∀ c ∈ s, asciiLower c = id c := fun c hc => dif_neg (h c hc).2
  rw [hL.lower_ascii s (isAscii_iff.mpr fun c hc => (h c hc).1), List.map_congr_left hsame,
    List.map_id]

/-! ## A name in a network location -/

namespace NameShape

variable {host : PyStr}

/-- A name holds no character outside letters, digits, points and hyphens. -/
theorem notMem (h : NameShape host) {d : Char} (hd : d.toNat < 45 ∨ d.toNat = 47
    ∨ 57 < d.toNat ∧ d.toNat < 97 ∨ 122 < d.toNat) : pt d ∉ host := by
  apply notMem_of_val
  intro c hc heq
  have hrange := h.chars c hc
  omega

/-- A name with a port has the characters of the name, digits and a colon. -/
theorem netloc_chars (h : NameShape host) {port : Option ℕ} {c : CodePoint}
    (hc : c ∈ host ++ portText port) : 44 < c.val ∧ c.val ≠ 47 ∧ (c.val < 59 ∨ 96 < c.val ∧ c.val < 123) := by
  rcases List.mem_append.mp hc with hname | hport
  · have hrange := h.chars c hname
    omega
  · have hrange := portText_range hport
    omega

/-- A name with a port holds no mark. -/
theorem netloc_notMem (h : NameShape host) {port : Option ℕ} {d : Char}
    (hd : d.toNat < 45 ∨ 58 < d.toNat ∧ d.toNat < 97 ∨ 122 < d.toNat) :
    pt d ∉ host ++ portText port := by
  apply notMem_of_val
  intro c hc heq
  have hrange := h.netloc_chars hc
  omega

/-- The host of a name and a port is the name. -/
theorem hostInfo_eq (h : NameShape host) (port : Option ℕ) :
    hostInfo (host ++ portText port) = (host, (after? (pt ':') (portText port)).getD []) := by
  have hat : pt '@' ∉ host ++ portText port := h.netloc_notMem (by decide)
  have hbracket : pt '[' ∉ host ++ portText port := h.netloc_notMem (by decide)
  have hcolon : pt ':' ∉ host := h.notMem (by decide)
  rw [hostInfo, afterLast_of_notMem hat, after?_of_notMem hbracket]
  show (before (pt ':') (host ++ portText port), (after? (pt ':') (host ++ portText port)).getD [])
    = _
  rcases portText_cases port with ⟨hnil, -⟩ | ⟨n, -, -, htext⟩
  · rw [hnil, List.append_nil, before_of_notMem hcolon, after?_of_notMem hcolon]
    rfl
  · rw [htext, before_append hcolon, after?_append hcolon]
    have hstart := after?_append (b := PyStr.ofString (toString n)) (List.not_mem_nil (a := pt ':'))
    rw [List.nil_append] at hstart
    rw [hstart]

/-- The host name of a name and a port is the name, which is in lower case already. -/
theorem hostname_eq (hL : Lawful L) (h : NameShape host) (port : Option ℕ) :
    hostname L (host ++ portText port) = host := by
  have hpercent : pt '%' ∉ host := h.notMem (by decide)
  have hname : (hostInfo (host ++ portText port)).1 = host := by rw [h.hostInfo_eq]
  have hlower : L.lower host = host := by
    apply lower_eq_self hL
    intro c hc
    have hrange := h.chars c hc
    omega
  rw [hostname, hname, after?_of_notMem hpercent]
  exact hlower

/-- A name has no brackets to check. -/
theorem bracketsOk_eq (h : NameShape host) (port : Option ℕ) :
    bracketsOk (host ++ portText port) = true := by
  have hopen : PyStr.hasChar '[' (host ++ portText port) = false :=
    hasChar_eq_false.mpr (h.netloc_notMem (by decide))
  have hclose : PyStr.hasChar ']' (host ++ portText port) = false :=
    hasChar_eq_false.mpr (h.netloc_notMem (by decide))
  rw [bracketsOk, hopen, hclose]
  rfl

/-- A name is ASCII, so NFKC makes no mark of it. -/
theorem netlocOk_eq (h : NameShape host) (port : Option ℕ) :
    netlocOk L (host ++ portText port) = true := by
  have hascii : isAscii (host ++ portText port) = true := by
    apply isAscii_iff.mpr
    intro c hc
    have hrange := h.netloc_chars hc
    omega
  rw [netlocOk, hascii]
  rfl

/-- A name with a port is read to its end. -/
theorem inside (h : NameShape host) {port : Option ℕ} : ∀ c ∈ host ++ portText port, Inside c := by
  intro c hc
  have hrange := h.netloc_chars hc
  apply inside_of_range <;> omega

end NameShape

/-! ## A zone in a network location -/

/-- The marks of two parts are removed part by part. -/
theorem withoutMarks_append (s t : PyStr) :
    withoutMarks (s ++ t) = withoutMarks s ++ withoutMarks t := List.filter_append ..

/-- A per cent sign or a closing bracket is kept. -/
theorem withoutMarks_cons {c : CodePoint} (hc : c = pt '%' ∨ c = pt ']') (s : PyStr) :
    withoutMarks (c :: s) = c :: withoutMarks s := by
  apply List.filter_cons_of_pos
  rcases hc with hc | hc <;> rw [hc] <;> decide

/-- ASCII stays ASCII without its marks. -/
theorem isAscii_withoutMarks {s : PyStr} (h : isAscii s = true) : isAscii (withoutMarks s) = true :=
  isAscii_iff.mpr fun c hc => isAscii_iff.mp h c (List.mem_of_mem_filter hc)

/-- Without its marks and without a slash, a text has no mark at all. -/
theorem noMark_withoutMarks {s : PyStr} (hslash : pt '/' ∉ s) :
    (withoutMarks s).any isUrlMark = false := by
  apply List.any_eq_false.mpr
  intro c hc
  obtain ⟨hmem, hkept⟩ := List.mem_filter.mp hc
  have hne : c ≠ pt '/' := fun heq => hslash (heq ▸ hmem)
  simp only [Bool.not_eq_true', Bool.or_eq_false_iff, beq_eq_false_iff_ne] at hkept
  simp only [isUrlMark, Bool.or_eq_true, beq_iff_eq, not_or]
  exact ⟨⟨⟨⟨hne, hkept.2⟩, hkept.1.2⟩, hkept.1.1.1⟩, hkept.1.1.2⟩

/-- Between ASCII texts, NFKC depends on the zone only. -/
theorem netlocOk_zone (hL : Lawful L) {front zone tail : PyStr} (hfront : isAscii front = true)
    (htail : isAscii tail = true) (hslash : pt '/' ∉ front) (hslash' : pt '/' ∉ tail) :
    netlocOk L (front ++ pt '%' :: (zone ++ pt ']' :: tail)) = netlocOk L zone := by
  have hascii : isAscii (front ++ pt '%' :: (zone ++ pt ']' :: tail)) = isAscii zone := by
    have hmarks : (pt '%').val < 128 ∧ (pt ']').val < 128 := by decide
    rw [Bool.eq_iff_iff, isAscii_append, isAscii_cons, isAscii_append, isAscii_cons]
    constructor
    · exact fun h => h.2.2.1
    · exact fun h => ⟨hfront, hmarks.1, h, hmarks.2, htail⟩
  have hn : withoutMarks (front ++ pt '%' :: (zone ++ pt ']' :: tail))
      = withoutMarks front ++ pt '%' :: (withoutMarks zone ++ pt ']' :: withoutMarks tail) := by
    rw [withoutMarks_append, withoutMarks_cons (.inl rfl), withoutMarks_append,
      withoutMarks_cons (.inr rfl)]
  have hnfkc : L.nfkc (withoutMarks (front ++ pt '%' :: (zone ++ pt ']' :: tail)))
      = withoutMarks front ++ pt '%' :: (L.nfkc (withoutMarks zone) ++ pt ']' :: withoutMarks tail) := by
    rw [hn, hL.nfkc_cut _ (.inl rfl), hL.nfkc_cut _ (.inr rfl),
      hL.nfkc_ascii _ (isAscii_withoutMarks hfront), hL.nfkc_ascii _ (isAscii_withoutMarks htail)]
  have hsame : (withoutMarks (front ++ pt '%' :: (zone ++ pt ']' :: tail))
      == L.nfkc (withoutMarks (front ++ pt '%' :: (zone ++ pt ']' :: tail))))
        = (withoutMarks zone == L.nfkc (withoutMarks zone)) := by
    rw [hnfkc, hn, Bool.eq_iff_iff, beq_iff_eq, beq_iff_eq, List.append_cancel_left_eq,
      List.cons.injEq, List.append_cancel_right_eq]
    exact ⟨fun h => h.2, fun h => ⟨rfl, h⟩⟩
  have hmark : (L.nfkc (withoutMarks (front ++ pt '%' :: (zone ++ pt ']' :: tail)))).any isUrlMark
      = (L.nfkc (withoutMarks zone)).any isUrlMark := by
    have hsigns : isUrlMark (pt '%') = false ∧ isUrlMark (pt ']') = false := by decide
    rw [hnfkc, List.any_append, List.any_cons, List.any_append, List.any_cons,
      noMark_withoutMarks hslash, noMark_withoutMarks hslash', hsigns.1, hsigns.2, Bool.or_false,
      Bool.or_false, Bool.false_or, Bool.false_or]
  rw [netlocOk, netlocOk, hascii, hsame, hmark]

/-! ## An IPv6 address in a network location -/

/-- The network location with an address in brackets. -/
def bracketed (host tail : PyStr) : PyStr := pt '[' :: (host ++ pt ']' :: tail)

/-- The host in brackets is what stands between them, and the port follows. -/
theorem hostInfo_bracketed {host tail : PyStr} (hat : pt '@' ∉ bracketed host tail)
    (hclose : pt ']' ∉ host) :
    hostInfo (bracketed host tail) = (host, (after? (pt ':') tail).getD []) := by
  have hopen : after? (pt '[') (bracketed host tail) = some (host ++ pt ']' :: tail) :=
    after?_append (a := []) List.not_mem_nil
  simp only [hostInfo, afterLast_of_notMem hat, hopen, before_append hclose, after?_append hclose,
    Option.getD_some]

/-- The brackets are right when a port may follow them and they hold an address. -/
theorem bracketsOk_bracketed {host tail : PyStr} (hat : pt '@' ∉ bracketed host tail)
    (hclose : pt ']' ∉ host) :
    bracketsOk (bracketed host tail) = (portMayFollow tail && bracketedHostOk host) := by
  have hopen : after? (pt '[') (bracketed host tail) = some (host ++ pt ']' :: tail) :=
    after?_append (a := []) List.not_mem_nil
  have hbefore : before (pt '[') (bracketed host tail) = [] :=
    before_append (a := []) List.not_mem_nil
  have hhasOpen : PyStr.hasChar '[' (bracketed host tail) = true :=
    hasChar_eq_true.mpr List.mem_cons_self
  have hhasClose : PyStr.hasChar ']' (bracketed host tail) = true :=
    hasChar_eq_true.mpr (List.mem_cons_of_mem _ (List.mem_append_right _ List.mem_cons_self))
  simp only [bracketsOk, hhasOpen, hhasClose, bne_self_eq_false, Bool.false_eq_true, if_false, if_true,
    afterLast_of_notMem hat, hopen, hbefore, before_append hclose, after?_append hclose,
    Option.getD_some, beq_self_eq_true, Bool.true_and]

namespace ScopedShape

variable {address scope : PyStr}

/-- An address holds no character outside hexadecimal digits, points and colons. -/
theorem notMem (h : ScopedShape L address scope) {d : Char} (hd : d.toNat < 46 ∨ d.toNat = 47
    ∨ 58 < d.toNat ∧ d.toNat < 97 ∨ 102 < d.toNat) : pt d ∉ address := by
  apply notMem_of_val
  intro c hc heq
  have hrange := h.chars c hc
  omega

/-- A mark that neither a zone nor an address has. -/
theorem scope_notMem (h : ScopedShape L address scope) {d : Char} (hd : d ≠ '%')
    (hzone : ∀ zone, ZoneShape L zone → pt d ∉ zone) : pt d ∉ scope := by
  rcases h.scope with hnil | ⟨zone, hscope, hshape⟩
  · rw [hnil]
    exact List.not_mem_nil
  · rw [hscope]
    intro hmem
    rcases List.mem_cons.mp hmem with hpercent | hrest
    · exact hd (pt_injective hpercent)
    · exact hzone zone hshape hrest

/-- A bracketed address holds no at sign. -/
theorem at_notMem (h : ScopedShape L address scope) (port : Option ℕ) :
    pt '@' ∉ bracketed (address ++ scope) (portText port) := by
  have haddress : pt '@' ∉ address := h.notMem (by decide)
  have hscope : pt '@' ∉ scope := h.scope_notMem (by decide) fun zone hzone => hzone.marks.1
  have hport : pt '@' ∉ portText port := by
    intro hmem
    have hrange := portText_range hmem
    have hvalue : (pt '@').val = 64 := rfl
    omega
  rw [bracketed, List.mem_cons, List.mem_append, List.mem_append, List.mem_cons]
  have hopen : pt '@' ≠ pt '[' := by decide
  have hclose : pt '@' ≠ pt ']' := by decide
  exact fun hmem => hmem.elim hopen fun hmem => hmem.elim
    (fun hhost => hhost.elim haddress hscope) fun hrest => hrest.elim hclose hport

/-- An address and its zone hold no closing bracket. -/
theorem close_notMem (h : ScopedShape L address scope) : pt ']' ∉ address ++ scope := by
  have haddress : pt ']' ∉ address := h.notMem (by decide)
  have hscope : pt ']' ∉ scope := h.scope_notMem (by decide) fun zone hzone => hzone.marks.2.1
  exact fun hmem => (List.mem_append.mp hmem).elim haddress hscope

/-- The host of a bracketed address is the address with its zone. -/
theorem hostInfo_eq (h : ScopedShape L address scope) (port : Option ℕ) :
    hostInfo (bracketed (address ++ scope) (portText port))
      = (address ++ scope, (after? (pt ':') (portText port)).getD []) :=
  hostInfo_bracketed (h.at_notMem port) h.close_notMem

/-- The host name of a bracketed address is the address with its zone: the address is in lower case
and the zone keeps its case. -/
theorem hostname_eq (hL : Lawful L) (h : ScopedShape L address scope) (port : Option ℕ) :
    hostname L (bracketed (address ++ scope) (portText port)) = address ++ scope := by
  have hpercent : pt '%' ∉ address := h.notMem (by decide)
  have hname : (hostInfo (bracketed (address ++ scope) (portText port))).1 = address ++ scope := by
    rw [h.hostInfo_eq]
  have hlower : L.lower address = address := by
    apply lower_eq_self hL
    intro c hc
    have hrange := h.chars c hc
    omega
  rw [hostname, hname]
  rcases h.scope with hnil | ⟨zone, hscope, -⟩
  · rw [hnil, List.append_nil, after?_of_notMem hpercent]
    exact hlower
  · rw [hscope, after?_append hpercent, before_append hpercent]
    show L.lower address ++ pt '%' :: zone = _
    rw [hlower]

/-- A port may follow brackets, and so may nothing. -/
theorem portMayFollow_text (port : Option ℕ) : portMayFollow (portText port) = true := by
  rcases portText_cases port with ⟨hnil, -⟩ | ⟨n, -, -, htext⟩
  · rw [hnil]
    rfl
  · rw [htext, portMayFollow, List.head?_cons]
    simp

/-- The brackets around an address are right. -/
theorem bracketsOk_eq (h : ScopedShape L address scope) {value : ℕ}
    (haddress : ipAddress? (address ++ scope) = some (.v6 value)) (port : Option ℕ) :
    bracketsOk (bracketed (address ++ scope) (portText port)) = true := by
  have hhead : (address ++ scope).head? ≠ some (pt 'v') := by
    intro heq
    have hmem : pt 'v' ∈ address ++ scope := List.mem_of_head? heq
    cases haddr : address with
    | nil =>
      have hcolon := h.colon
      rw [haddr] at hcolon
      exact absurd hcolon List.not_mem_nil
    | cons c rest =>
      rw [haddr, List.cons_append, List.head?_cons] at heq
      have hin : pt 'v' ∈ address := by
        rw [haddr, Option.some.inj heq]
        exact List.mem_cons_self
      exact h.notMem (by decide) hin
  rw [bracketsOk_bracketed (h.at_notMem port) h.close_notMem, portMayFollow_text, bracketedHostOk,
    if_neg hhead, haddress]
  rfl

/-- NFKC makes no mark of a bracketed address, since it makes none of its zone. -/
theorem netlocOk_eq (hL : Lawful L) (h : ScopedShape L address scope) (port : Option ℕ) :
    netlocOk L (bracketed (address ++ scope) (portText port)) = true := by
  have hfront : isAscii (pt '[' :: address) = true := by
    apply isAscii_cons.mpr
    refine ⟨by decide, isAscii_iff.mpr fun c hc => ?_⟩
    have hrange := h.chars c hc
    omega
  have htail : isAscii (portText port) = true := by
    apply isAscii_iff.mpr
    intro c hc
    have hrange := portText_range hc
    omega
  rcases h.scope with hnil | ⟨zone, hscope, hzone⟩
  · have hascii : isAscii (bracketed (address ++ scope) (portText port)) = true := by
      rw [hnil, List.append_nil]
      show isAscii (pt '[' :: address ++ pt ']' :: portText port) = true
      exact isAscii_append.mpr ⟨hfront, isAscii_cons.mpr ⟨by decide, htail⟩⟩
    rw [netlocOk, hascii]
    rfl
  · have hslash : pt '/' ∉ pt '[' :: address := by
      intro hmem
      rcases List.mem_cons.mp hmem with heq | hin
      · exact absurd heq (by decide)
      · exact h.notMem (by decide) hin
    have hslash' : pt '/' ∉ portText port := by
      intro hmem
      have hrange := portText_range hmem
      have hvalue : (pt '/').val = 47 := rfl
      omega
    have hnetloc : bracketed (address ++ scope) (portText port)
        = (pt '[' :: address) ++ pt '%' :: (zone ++ pt ']' :: portText port) := by
      rw [hscope, bracketed, List.append_assoc]
      rfl
    rw [hnetloc, netlocOk_zone hL hfront htail hslash hslash']
    exact hzone.ok

/-- A bracketed address with a port is read to its end. -/
theorem inside (h : ScopedShape L address scope) {port : Option ℕ} :
    ∀ c ∈ bracketed (address ++ scope) (portText port), Inside c := by
  have hsigns : Inside (pt '[') ∧ Inside (pt ']') ∧ Inside (pt '%') :=
    ⟨inside_of_range (by decide) (by decide), inside_of_range (by decide) (by decide),
      inside_of_range (by decide) (by decide)⟩
  intro c hc
  rw [bracketed, List.mem_cons, List.mem_append, List.mem_append, List.mem_cons] at hc
  rcases hc with hopen | (haddress | hscope) | hclose | hport
  · rw [hopen]
    exact hsigns.1
  · have hrange := h.chars c haddress
    apply inside_of_range <;> omega
  · rcases h.scope with hnil | ⟨zone, hzoned, hzone⟩
    · rw [hnil] at hscope
      exact absurd hscope List.not_mem_nil
    · rw [hzoned] at hscope
      rcases List.mem_cons.mp hscope with hpercent | hrest
      · rw [hpercent]
        exact hsigns.2.2
      · exact hzone.inside c hrest
  · rw [hclose]
    exact hsigns.2.1
  · have hrange := portText_range hport
    apply inside_of_range <;> omega

end ScopedShape

/-! ## The shape of an accepted host -/

inductive Shape (L : UrlLibrary) (host : PyStr) : Prop
  | name (h : NameShape host)
  | v6 {address scope : PyStr} {value : ℕ} (h : ScopedShape L address scope)
      (hhost : host = address ++ scope) (haddress : ipAddress? host = some (.v6 value))

/-- A public name has the characters of a DNS name. -/
theorem nameShape_of_publicName {host : PyStr} (hne : host ≠ []) (h : isPublicName host = true) :
    NameShape host where
  nonempty := hne
  chars := by
    intro c hc
    simp only [isPublicName, Bool.and_eq_true] at h
    rcases AddressText.mem_splitOn (pt '.') hc with hdot | ⟨label, hlabel, hmem⟩
    · rw [hdot]
      exact .inr (.inr (.inr rfl))
    · have hlabelOk := List.all_eq_true.mp h.2 label hlabel
      simp only [isLabel, Bool.and_eq_true] at hlabelOk
      have hpoint := List.all_eq_true.mp hlabelOk.1.1.2 c hmem
      simp only [isLabelPoint, isAsciiDigit, Bool.or_eq_true, Bool.and_eq_true, decide_eq_true_eq,
        beq_iff_eq] at hpoint
      rcases hpoint with (hletter | hdigit) | hhyphen
      · exact .inl hletter
      · exact .inr (.inl hdigit)
      · rw [hhyphen]
        exact .inr (.inr (.inl rfl))

/-- A dotted quad has the characters of a DNS name. -/
theorem nameShape_of_dottedQuad {host : PyStr} {value : ℕ} (hne : host ≠ [])
    (h : AddressText.dottedQuad? (codes host) = some value) : NameShape host where
  nonempty := hne
  chars := by
    intro c hc
    rcases AddressText.dottedQuad?_chars h c.val (List.mem_map_of_mem hc) with hdot | hdigit
    · exact .inr (.inr (.inr hdot))
    · exact .inr (.inl hdigit)

/-- What stands before a zone, and the zone. -/
theorem ipAddress?_v6 {host : PyStr} {value : ℕ} (h : ipAddress? host = some (.v6 value)) :
    (after? (pt '%') host = none ∧ AddressText.ipv6? (codes host) = some value)
      ∨ ∃ zone, after? (pt '%') host = some zone ∧ zone ≠ [] ∧ pt '%' ∉ zone
        ∧ AddressText.ipv6? (codes (before (pt '%') host)) = some value := by
  unfold ipAddress? at h
  split at h
  · cases h
  · split at h
    · cases h
    · split at h
      · rename_i hnone
        obtain ⟨v, hv, heq⟩ := Option.map_eq_some_iff.mp h
        cases heq
        exact .inl ⟨hnone, hv⟩
      · rename_i zone hzone
        split at h
        · cases h
        · rename_i hscope
          rw [not_or] at hscope
          obtain ⟨v, hv, heq⟩ := Option.map_eq_some_iff.mp h
          cases heq
          exact .inr ⟨zone, hzone, hscope.1, hscope.2, hv⟩

/-- An IPv6 address has a colon, and hexadecimal digits, points and colons only. -/
theorem ipv6?_points {address : PyStr} {value : ℕ}
    (h : AddressText.ipv6? (codes address) = some value) : pt ':' ∈ address ∧
      ∀ c ∈ address, AddressText.IsHex c.val ∨ c.val = 46 ∨ c.val = 58 := by
  obtain ⟨hcolon, hchars⟩ := AddressText.ipv6?_chars h
  refine ⟨?_, fun c hc => hchars c.val (List.mem_map_of_mem hc)⟩
  obtain ⟨c, hc, hval⟩ := List.mem_map.mp hcolon
  rw [show pt ':' = c from Fin.ext hval.symm]
  exact hc

/-- An IPv6 address is ASCII. -/
theorem isAscii_of_ipv6 {address : PyStr} {value : ℕ}
    (h : AddressText.ipv6? (codes address) = some value) : isAscii address = true := by
  apply isAscii_iff.mpr
  intro c hc
  have hrange := (ipv6?_points h).2 c hc
  unfold AddressText.IsHex at hrange
  omega

/-- In lower case an address has no capitals. -/
theorem asciiLower_range (c : CodePoint) : ¬ (65 ≤ (asciiLower c).val ∧ (asciiLower c).val ≤ 90) := by
  unfold asciiLower
  split
  · rename_i hrange
    show ¬ (65 ≤ c.val + 32 ∧ c.val + 32 ≤ 90)
    omega
  · assumption

/-- `v` is in lower case. -/
theorem asciiLower_v : asciiLower (pt 'v') = pt 'v' := dif_neg (by decide)

/-- The name of a host in front of its zone. -/
def zoneless (name : PyStr) : PyStr := before (pt '%') name

/-- The lower case of a text without a per cent sign has none. -/
theorem percent_notMem_lower (hL : Lawful L) {s : PyStr} (h : pt '%' ∉ s) : pt '%' ∉ L.lower s :=
  fun hmem => h (hL.lower_marks s _ hmem (by decide) (by decide))

/-- A bracketed name that is written in lower case as an IPv6 address is an address itself: it does
not start with `v`, so the library has read it. -/
theorem ipv6_of_bracketed (hL : Lawful L) {name : PyStr} {value : ℕ}
    (hok : bracketedHostOk name = true)
    (h : AddressText.ipv6? (codes (L.lower (zoneless name))) = some value) :
    ∃ v, AddressText.ipv6? (codes (zoneless name)) = some v := by
  have hpoints := ipv6?_points h
  -- with a `v` first the name would be a future address, and `v` is no hexadecimal digit
  have hhead : name.head? ≠ some (pt 'v') := by
    intro hv
    have hcolon : pt ':' ∈ zoneless name :=
      hL.lower_marks _ _ hpoints.1 (by decide) (by decide)
    have hin : pt 'v' ∈ zoneless name := by
      cases name with
      | nil => cases hv
      | cons c rest =>
        rw [List.head?_cons] at hv
        rw [Option.some.inj hv]
        show pt 'v' ∈ (pt 'v' :: rest).takeWhile (· != pt '%')
        rw [List.takeWhile_cons, if_pos (by decide)]
        exact List.mem_cons_self
    have hlower := hL.lower_letters _ _ hin (by decide)
    rw [asciiLower_v] at hlower
    have hrange := hpoints.2 _ hlower
    have hvalue : (pt 'v').val = 118 := rfl
    unfold AddressText.IsHex at hrange
    omega
  rw [bracketedHostOk, if_neg hhead] at hok
  -- so the bracketed name was checked as an IPv6 address
  cases haddress : ipAddress? name with
  | none =>
    rw [haddress] at hok
    cases hok
  | some address =>
    cases address with
    | v4 v =>
      rw [haddress] at hok
      cases hok
    | v6 v =>
      rcases ipAddress?_v6 haddress with ⟨hnone, hv⟩ | ⟨zone, -, -, -, hv⟩
      · refine ⟨v, ?_⟩
        rw [zoneless, before_of_notMem (Partition.after?_eq_none hnone)]
        exact hv
      · exact ⟨v, hv⟩

/-- The two ways a host is read from a name. -/
theorem hostname_cases (netloc : PyStr) :
    (after? (pt '%') (hostInfo netloc).1 = none
        ∧ hostname L netloc = L.lower (zoneless (hostInfo netloc).1))
      ∨ ∃ zone, after? (pt '%') (hostInfo netloc).1 = some zone
        ∧ hostname L netloc = L.lower (zoneless (hostInfo netloc).1) ++ pt '%' :: zone := by
  unfold hostname
  cases hzone : after? (pt '%') (hostInfo netloc).1 with
  | none =>
    refine .inl ⟨rfl, ?_⟩
    rw [zoneless, before_of_notMem (Partition.after?_eq_none hzone)]
  | some zone => exact .inr ⟨zone, rfl, rfl⟩

/-- No per cent sign stands before the zone. -/
theorem percent_notMem_zoneless (name : PyStr) : pt '%' ∉ zoneless name :=
  Partition.notMem_before

/-- The address part of an accepted IPv6 host, and whether a zone follows it. -/
theorem address_of_hostname (hL : Lawful L) {netloc : PyStr} {value : ℕ}
    (h : ipAddress? (hostname L netloc) = some (.v6 value)) :
    AddressText.ipv6? (codes (L.lower (zoneless (hostInfo netloc).1))) = some value
      ∧ ((after? (pt '%') (hostInfo netloc).1 = none
          ∧ hostname L netloc = L.lower (zoneless (hostInfo netloc).1) ++ [])
        ∨ ∃ zone, after? (pt '%') (hostInfo netloc).1 = some zone ∧ zone ≠ [] ∧ pt '%' ∉ zone
          ∧ hostname L netloc = L.lower (zoneless (hostInfo netloc).1) ++ pt '%' :: zone) := by
  have hpercent := percent_notMem_lower hL (percent_notMem_zoneless (hostInfo netloc).1)
  rcases hostname_cases (L := L) netloc with ⟨hnone, hname⟩ | ⟨zone, hzone, hname⟩
  · rcases ipAddress?_v6 h with ⟨-, hv⟩ | ⟨zone, hzone, -, -, -⟩
    · rw [hname] at hv
      exact ⟨hv, .inl ⟨hnone, by rw [hname, List.append_nil]⟩⟩
    · rw [hname, after?_of_notMem hpercent] at hzone
      cases hzone
  · rcases ipAddress?_v6 h with ⟨hnone, -⟩ | ⟨zone', hzone', hne, hsecond, hv⟩
    · rw [hname, after?_append hpercent] at hnone
      cases hnone
    · rw [hname, after?_append hpercent] at hzone'
      rw [hname, before_append hpercent] at hv
      cases hzone'
      exact ⟨hv, .inr ⟨zone, hzone, hne, hsecond, hname⟩⟩

/-- A network location with an opening bracket, as the checks leave it. -/
theorem bracketed_of_checks {netloc : PyStr} (hat : pt '@' ∉ netloc) (hopen : pt '[' ∈ netloc)
    (hbrackets : bracketsOk netloc = true) :
    ∃ name tail, netloc = bracketed name tail ∧ pt ']' ∉ name ∧ portMayFollow tail = true
      ∧ bracketedHostOk name = true := by
  have hhasOpen : PyStr.hasChar '[' netloc = true := hasChar_eq_true.mpr hopen
  have hhasClose : PyStr.hasChar ']' netloc = true := by
    by_contra hmissing
    rw [bracketsOk, hhasOpen, Bool.not_eq_true _ |>.mp hmissing] at hbrackets
    cases hbrackets
  have hclose : pt ']' ∈ netloc := hasChar_eq_true.mp hhasClose
  cases hrest : after? (pt '[') netloc with
  | none => exact absurd hopen (Partition.after?_eq_none hrest)
  | some rest =>
    simp only [bracketsOk, hhasOpen, hhasClose, bne_self_eq_false, Bool.false_eq_true, if_false,
      if_true, afterLast_of_notMem hat, hrest, Bool.and_eq_true, beq_iff_eq] at hbrackets
    obtain ⟨⟨hbefore, hfollow⟩, hhost⟩ := hbrackets
    have hsplit := Partition.eq_of_after? hrest
    rw [hbefore, List.nil_append] at hsplit
    -- the closing bracket is behind the opening one
    have hin : pt ']' ∈ rest := by
      rw [hsplit] at hclose
      rcases List.mem_cons.mp hclose with heq | hin
      · exact absurd heq (by decide)
      · exact hin
    cases htail : after? (pt ']') rest with
    | none => exact absurd hin (Partition.after?_eq_none htail)
    | some tail =>
      rw [htail, Option.getD_some] at hfollow
      refine ⟨before (pt ']') rest, tail, ?_, Partition.notMem_before, hfollow, hhost⟩
      rw [bracketed, ← Partition.eq_of_after? htail]
      exact hsplit

/-- What follows the brackets is a colon and digits. -/
theorem tail_ascii {name tail : PyStr} {port : Option ℕ} (hat : pt '@' ∉ bracketed name tail)
    (hclose : pt ']' ∉ name) (hfollow : portMayFollow tail = true)
    (hport : port? (bracketed name tail) = some port) :
    isAscii tail = true := by
  cases tail with
  | nil => rfl
  | cons c text =>
    have hc : c = pt ':' := by simpa [portMayFollow] using hfollow
    subst hc
    have hinfo : (hostInfo (bracketed name (pt ':' :: text))).2 = text := by
      have hafter : after? (pt ':') (pt ':' :: text) = some text :=
        after?_append (a := []) List.not_mem_nil
      rw [hostInfo_bracketed hat hclose, hafter, Option.getD_some]
    apply isAscii_cons.mpr
    refine ⟨by decide, isAscii_iff.mpr fun d hd => ?_⟩
    unfold port? at hport
    rw [hinfo] at hport
    split at hport
    · exact absurd hd List.not_mem_nil
    · split at hport
      · rename_i n hn
        obtain ⟨digit, hdigit, hsmall⟩ := AddressText.number?_digits hn d.val (List.mem_map_of_mem hd)
        have hrange := AddressText.decimal_of_digit? hdigit hsmall
        omega
      · cases hport

/-- An accepted IPv6 host has the shape of one. -/
theorem shape_of_v6 (hL : Lawful L) {netloc : PyStr} {port : Option ℕ} {value : ℕ}
    (hat : pt '@' ∉ netloc) (hbrackets : bracketsOk netloc = true) (hok : netlocOk L netloc = true)
    (hinside : ∀ c ∈ netloc, Inside c ∧ c.val ≠ 127) (hport : port? netloc = some port)
    (haddress : ipAddress? (hostname L netloc) = some (.v6 value)) :
    Shape L (hostname L netloc) := by
  obtain ⟨hipv6, hscope⟩ := address_of_hostname hL haddress
  have hpoints := ipv6?_points hipv6
  have hcolon : pt ':' ∈ zoneless (hostInfo netloc).1 :=
    hL.lower_marks _ _ hpoints.1 (by decide) (by decide)
  -- without brackets the host ends at the first colon
  have hopen : pt '[' ∈ netloc := by
    by_contra hmissing
    have hname : (hostInfo netloc).1 = before (pt ':') netloc := by
      rw [hostInfo, afterLast_of_notMem hat, after?_of_notMem hmissing]
    have hin := Partition.mem_of_mem_before hcolon
    rw [hname] at hin
    exact Partition.notMem_before hin
  obtain ⟨name, tail, hnetloc, hclose, hfollow, hhost⟩ := bracketed_of_checks hat hopen hbrackets
  subst hnetloc
  have hname : (hostInfo (bracketed name tail)).1 = name := by rw [hostInfo_bracketed hat hclose]
  rw [hname] at hipv6 hpoints hscope
  obtain ⟨v, hv⟩ := ipv6_of_bracketed hL hhost hipv6
  have hascii := isAscii_of_ipv6 hv
  have hlower := hL.lower_ascii _ hascii
  have hchars : ∀ c ∈ L.lower (zoneless name), (97 ≤ c.val ∧ c.val ≤ 102)
      ∨ (48 ≤ c.val ∧ c.val ≤ 57) ∨ c.val = 46 ∨ c.val = 58 := by
    intro c hc
    have hrange := hpoints.2 c hc
    rw [hlower] at hc
    obtain ⟨d, -, hd⟩ := List.mem_map.mp hc
    have hcapital := asciiLower_range d
    rw [hd] at hcapital
    unfold AddressText.IsHex at hrange
    omega
  rcases hscope with ⟨-, hwhole⟩ | ⟨zone, hzone, hne, hsecond, hwhole⟩
  · exact .v6 ⟨hpoints.1, hchars, .inl rfl⟩ hwhole haddress
  · have hsplit : name = zoneless name ++ pt '%' :: zone := Partition.eq_of_after? hzone
    have hsub : ∀ c ∈ zone, c ∈ name := by
      intro c hc
      rw [hsplit]
      exact List.mem_append_right _ (List.mem_cons_of_mem _ hc)
    have hnetlocSub : ∀ c ∈ zone, c ∈ bracketed name tail := by
      intro c hc
      exact List.mem_cons_of_mem _ (List.mem_append_left _ (hsub c hc))
    have hzoneOk : netlocOk L zone = true := by
      have hfront : isAscii (pt '[' :: zoneless name) = true := isAscii_cons.mpr ⟨by decide, hascii⟩
      have htail := tail_ascii hat hclose hfollow hport
      have hslash : ∀ part : PyStr, (∀ c ∈ part, c ∈ bracketed name tail) → pt '/' ∉ part := by
        intro part hpart hmem
        exact absurd (hinside _ (hpart _ hmem)).1.2 (by decide)
      have hfrontSub : ∀ c ∈ pt '[' :: zoneless name, c ∈ bracketed name tail := by
        intro c hc
        rcases List.mem_cons.mp hc with heq | hin
        · rw [heq]
          exact List.mem_cons_self
        · exact List.mem_cons_of_mem _ (List.mem_append_left _ (Partition.mem_of_mem_before hin))
      have htailSub : ∀ c ∈ tail, c ∈ bracketed name tail := by
        intro c hc
        exact List.mem_cons_of_mem _ (List.mem_append_right _ (List.mem_cons_of_mem _ hc))
      have hwritten : bracketed name tail
          = (pt '[' :: zoneless name) ++ pt '%' :: (zone ++ pt ']' :: tail) := by
        rw [bracketed]
        nth_rewrite 1 [hsplit]
        rw [List.append_assoc]
        rfl
      rw [hwritten, netlocOk_zone hL hfront htail (hslash _ hfrontSub) (hslash _ htailSub)] at hok
      exact hok
    have hzoneShape : ZoneShape L zone := {
      nonempty := hne
      inside := fun c hc => (hinside c (hnetlocSub c hc)).1
      printable := fun c hc => (hinside c (hnetlocSub c hc)).2
      marks := ⟨fun hmem => hat (hnetlocSub _ hmem), fun hmem => hclose (hsub _ hmem), hsecond⟩
      ok := hzoneOk }
    exact .v6 ⟨hpoints.1, hchars, .inr ⟨zone, rfl, hzoneShape⟩⟩ hwhole haddress

/-! ## What is accepted -/

/-- Cleaning a URL adds no character. -/
theorem cleanUrl_subset {url : PyStr} {c : CodePoint} (h : c ∈ cleanUrl url) : c ∈ url :=
  List.dropWhile_subset _ (List.mem_of_mem_filter h)

/-- What follows the scheme is part of the URL. -/
theorem splitScheme_subset {url : PyStr} {c : CodePoint} (h : c ∈ (splitScheme L url).2) :
    c ∈ url := by
  unfold splitScheme at h
  split at h
  · exact h
  · rename_i rest hrest
    split at h
    · rw [Partition.eq_of_after? hrest]
      exact List.mem_append_right _ (List.mem_cons_of_mem _ h)
    · exact h

/-- The network location is part of the URL and holds no end. -/
theorem splitNetloc_subset {url : PyStr} {c : CodePoint} (h : c ∈ (splitNetloc url).1) :
    c ∈ url ∧ endsNetloc c = false := by
  unfold splitNetloc at h
  split at h
  · have hkept := List.mem_takeWhile_imp (p := (!endsNetloc ·)) h
    rw [Bool.not_eq_true'] at hkept
    exact ⟨List.mem_of_mem_drop (List.takeWhile_subset _ h), hkept⟩
  · exact absurd h List.not_mem_nil

/-- What is known of the network location of a URL that is split. -/
theorem urlsplit_netloc {url : PyStr} {parsed : SplitResult} (h : urlsplit L url = some parsed) :
    bracketsOk parsed.netloc = true ∧ netlocOk L parsed.netloc = true
      ∧ ∀ c ∈ parsed.netloc, c ∈ url ∧ endsNetloc c = false := by
  rw [urlsplit_eq (Prod.mk.eta (p := splitScheme L (cleanUrl url))).symm
    (Prod.mk.eta (p := splitNetloc (splitScheme L (cleanUrl url)).2)).symm] at h
  split at h
  · rename_i hchecks
    rw [Bool.and_eq_true] at hchecks
    cases h
    refine ⟨hchecks.1, hchecks.2, fun c hc => ?_⟩
    obtain ⟨hrest, hend⟩ := splitNetloc_subset hc
    exact ⟨cleanUrl_subset (splitScheme_subset hrest), hend⟩
  · cases h

/-- The checks an accepted value has passed. -/
theorem target?_eq_some {value host : PyStr} {port : Option ℕ} (h : target? L value = some (host, port)) :
    ∃ parsed, urlsplit L value = some parsed ∧ port? parsed.netloc = some port
      ∧ host = hostname L parsed.netloc ∧ partsAllowed L value parsed = true
      ∧ hostAllowed L host = true ∧ PortOk port := by
  unfold target? at h
  split at h
  · cases h
  · rename_i parsed hparsed
    split at h
    · cases h
    · rename_i port' hport
      split at h
      · rename_i hchecks
        simp only [Bool.and_eq_true] at hchecks
        cases h
        refine ⟨parsed, hparsed, hport, rfl, hchecks.1.1, hchecks.1.2, ?_⟩
        intro n hn
        rw [hn] at hchecks
        exact of_decide_eq_true hchecks.2
      · cases h

/-- The host and the port of an accepted value have their shapes. -/
theorem target_shape (hL : Lawful L) {value host : PyStr} {port : Option ℕ}
    (hvalue : value.any isControl = false) (h : target? L value = some (host, port)) :
    Shape L host ∧ hostAllowed L host = true ∧ PortOk port := by
  obtain ⟨parsed, hparsed, hport, hhost, hparts, hallowed, hportOk⟩ := target?_eq_some h
  refine ⟨?_, hallowed, hportOk⟩
  obtain ⟨hbrackets, hok, hnetloc⟩ := urlsplit_netloc hparsed
  simp only [partsAllowed, Bool.and_eq_true, Bool.not_eq_true', bne_iff_ne, ne_eq] at hparts
  have hne : hostname L parsed.netloc ≠ [] := hparts.1.1.1.1.1.1.2
  have hat : pt '@' ∉ parsed.netloc := hasChar_eq_false.mp hparts.1.1.1.1.1.2
  -- no control character and no end of the network location is in it
  have hinside : ∀ c ∈ parsed.netloc, Inside c ∧ c.val ≠ 127 := by
    intro c hc
    obtain ⟨hmem, hend⟩ := hnetloc c hc
    have hcontrol : isControl c = false := by
      simpa using List.any_eq_false.mp hvalue c hmem
    rw [isControl, Bool.or_eq_false_iff, decide_eq_false_iff_not, beq_eq_false_iff_ne] at hcontrol
    exact ⟨⟨by omega, hend⟩, hcontrol.2⟩
  rw [hhost] at hallowed ⊢
  unfold hostAllowed at hallowed
  -- the host is a name, a dotted quad or an address in brackets
  cases haddress : ipAddress? (hostname L parsed.netloc) with
  | none =>
    rw [haddress] at hallowed
    exact .name (nameShape_of_publicName hne hallowed)
  | some address =>
    cases address with
    | v4 v =>
      have hquad : AddressText.dottedQuad? (codes (hostname L parsed.netloc)) = some v := by
        unfold ipAddress? at haddress
        split at haddress
        · rename_i w hw
          cases haddress
          exact hw
        · split at haddress
          · cases haddress
          · split at haddress
            · obtain ⟨w, -, heq⟩ := Option.map_eq_some_iff.mp haddress
              cases heq
            · split at haddress
              · cases haddress
              · obtain ⟨w, -, heq⟩ := Option.map_eq_some_iff.mp haddress
                cases heq
      exact .name (nameShape_of_dottedQuad hne hquad)
    | v6 v => exact shape_of_v6 hL hat hbrackets hok hinside hport haddress

/-! ## Reading it again -/

/-- How the network location of an origin is read. -/
structure Reads (L : UrlLibrary) (netloc host : PyStr) (port : Option ℕ) : Prop where
  origin : originOf host port = PyStr.ofString "https://" ++ netloc
  inside : ∀ c ∈ netloc, Inside c ∧ c.val ≠ 127
  brackets : bracketsOk netloc = true
  ok : netlocOk L netloc = true
  noUser : pt '@' ∉ netloc
  name : hostname L netloc = host
  number : port? netloc = some (kept port)
  last : ∃ init c, netloc = init ++ [c] ∧ 32 < c.val ∧ c.val < 127

/-- An origin ends in a visible ASCII character, with or without a port. -/
theorem last_of_port {front : PyStr} {port : Option ℕ}
    (hfront : ∃ init c, front = init ++ [c] ∧ 32 < c.val ∧ c.val < 127) :
    ∃ init c, front ++ portText port = init ++ [c] ∧ 32 < c.val ∧ c.val < 127 := by
  rcases List.eq_nil_or_concat (portText port) with hnil | ⟨init, c, htext⟩
  · rw [hnil, List.append_nil]
    exact hfront
  · have hmem : c ∈ portText port := by
      rw [htext, List.concat_eq_append]
      exact List.mem_append_right _ (List.mem_singleton.mpr rfl)
    have hrange := portText_range hmem
    refine ⟨front ++ init, c, ?_, by omega, by omega⟩
    rw [htext, List.concat_eq_append, List.append_assoc]

/-- A name is read back from its network location. -/
theorem NameShape.reads (hL : Lawful L) {host : PyStr} {port : Option ℕ} (h : NameShape host)
    (hport : PortOk port) : Reads L (host ++ portText port) host port where
  origin := by
    have hcolon : pt ':' ∉ host := h.notMem (by decide)
    rw [originOf, hostText, if_neg hcolon]
  inside := by
    intro c hc
    have hrange := h.netloc_chars hc
    exact ⟨h.inside c hc, by omega⟩
  brackets := h.bracketsOk_eq port
  ok := h.netlocOk_eq port
  noUser := h.netloc_notMem (by decide)
  name := h.hostname_eq hL port
  number := port?_of_text hport (h.hostInfo_eq port)
  last := by
    apply last_of_port
    rcases List.eq_nil_or_concat host with hnil | ⟨init, c, hhost⟩
    · exact absurd hnil h.nonempty
    · have hmem : c ∈ host := by
        rw [hhost, List.concat_eq_append]
        exact List.mem_append_right _ (List.mem_singleton.mpr rfl)
      have hrange := h.chars c hmem
      exact ⟨init, c, hhost.trans (List.concat_eq_append ..), by omega, by omega⟩

/-- An IPv6 address is read back from its network location. -/
theorem ScopedShape.reads (hL : Lawful L) {address scope : PyStr} {value : ℕ} {port : Option ℕ}
    (h : ScopedShape L address scope)
    (haddress : ipAddress? (address ++ scope) = some (.v6 value)) (hport : PortOk port) :
    Reads L (bracketed (address ++ scope) (portText port)) (address ++ scope) port where
  origin := by
    have hcolon : pt ':' ∈ address ++ scope := List.mem_append_left _ h.colon
    rw [originOf, hostText, if_pos hcolon, bracketed, List.cons_append, List.append_assoc]
    rfl
  inside := by
    intro c hc
    refine ⟨h.inside c hc, ?_⟩
    rw [bracketed, List.mem_cons, List.mem_append, List.mem_append, List.mem_cons] at hc
    -- every character is visible ASCII, apart from those of the zone
    rcases hc with hopen | (hin | hscope) | hclose | htail
    · rw [hopen]
      decide
    · have hrange := h.chars c hin
      omega
    · rcases h.scope with hnil | ⟨zone, hzoned, hzone⟩
      · rw [hnil] at hscope
        exact absurd hscope List.not_mem_nil
      · rw [hzoned] at hscope
        rcases List.mem_cons.mp hscope with hpercent | hrest
        · rw [hpercent]
          decide
        · exact hzone.printable c hrest
    · rw [hclose]
      decide
    · have hrange := portText_range htail
      omega
  brackets := h.bracketsOk_eq haddress port
  ok := h.netlocOk_eq hL port
  noUser := h.at_notMem port
  name := h.hostname_eq hL port
  number := port?_of_text hport (h.hostInfo_eq port)
  last := by
    have hwritten : bracketed (address ++ scope) (portText port)
        = (pt '[' :: (address ++ scope) ++ [pt ']']) ++ portText port := by
      simp only [bracketed, List.append_assoc, List.cons_append, List.nil_append]
    rw [hwritten]
    exact last_of_port ⟨_, pt ']', rfl, by decide, by decide⟩

/-- A host of either shape is read back. -/
theorem Shape.reads (hL : Lawful L) {host : PyStr} {port : Option ℕ} (h : Shape L host)
    (hport : PortOk port) : ∃ netloc, Reads L netloc host port := by
  cases h with
  | name h => exact ⟨_, h.reads hL hport⟩
  | v6 h hhost haddress =>
    subst hhost
    exact ⟨_, h.reads hL haddress hport⟩

/-- A visible ASCII character is no blank. -/
theorem notSpace_of_range {c : CodePoint} (h : 32 < c.val ∧ c.val < 127) :
    PyStr.isSpacePoint c = false := by
  unfold PyStr.isSpacePoint
  cases hchar : c.toChar? with
  | none => rfl
  | some d =>
    have hval : c.val = d.toNat := by rw [CodePoint.ofChar_of_toChar? hchar]; rfl
    have hd : 32 < d.toNat ∧ d.toNat < 127 := by omega
    rw [Option.any_some]
    simp only [isSpace, Bool.or_eq_false_iff, Bool.and_eq_false_iff, decide_eq_false_iff_not,
      beq_eq_false_iff_ne, ne_eq]
    omega

/-- Nothing is dropped before a character that is kept. -/
theorem dropWhile_of_head {p : CodePoint → Bool} {c : CodePoint} {s : PyStr} (h : p c = false) :
    (c :: s).dropWhile p = c :: s := List.dropWhile_cons_of_neg (by rw [h]; decide)

/-- An origin has no blank to strip. -/
theorem Reads.strip_eq {netloc host : PyStr} {port : Option ℕ} (h : Reads L netloc host port) :
    strip (originOf host port) = originOf host port := by
  obtain ⟨init, c, hlast, hrange⟩ := h.last
  have hfirst : originOf host port = pt 'h' :: ((PyStr.ofString "ttps://" ++ init) ++ [c]) := by
    rw [h.origin, hlast, List.append_assoc]
    rfl
  rw [strip, hfirst, dropWhile_of_head (notSpace_of_range (by decide))]
  rw [← List.cons_append, List.reverse_append, List.reverse_singleton, List.singleton_append,
    dropWhile_of_head (notSpace_of_range hrange), List.reverse_cons, List.reverse_reverse]

/-- `urlsplit` finds the scheme and the network location of an origin, and nothing else. -/
theorem Reads.urlsplit_eq (hL : Lawful L) {netloc host : PyStr} {port : Option ℕ}
    (h : Reads L netloc host port) :
    urlsplit L (originOf host port) = some ⟨PyStr.ofString "https", netloc, [], [], []⟩ := by
  rw [h.origin]
  exact urlsplit_https hL (fun c hc => (h.inside c hc).1) h.brackets h.ok

/-- An origin has no mark behind its scheme. -/
theorem Reads.noMark {netloc host : PyStr} {port : Option ℕ} (h : Reads L netloc host port)
    {d : Char} (hd : pt d ∉ PyStr.ofString "https://") (hend : endsNetloc (pt d) = true) :
    PyStr.hasChar d (originOf host port) = false := by
  apply hasChar_eq_false.mpr
  rw [h.origin]
  intro hmem
  rcases List.mem_append.mp hmem with hscheme | hin
  · exact hd hscheme
  · rw [(h.inside _ hin).1.2] at hend
    cases hend

/-- The target of an origin is its host and the port that is written. -/
theorem Reads.target?_eq (hL : Lawful L) {netloc host : PyStr} {port : Option ℕ}
    (h : Reads L netloc host port) (hne : host ≠ []) (hallowed : hostAllowed L host = true)
    (hport : PortOk port) : target? L (originOf host port) = some (host, kept port) := by
  have hparts : partsAllowed L (originOf host port)
      ⟨PyStr.ofString "https", netloc, [], [], []⟩ = true := by
    have hquery := h.noMark (d := '?') (by decide) (by decide)
    have hfragment := h.noMark (d := '#') (by decide) (by decide)
    have huser : PyStr.hasChar '@' netloc = false := hasChar_eq_false.mpr h.noUser
    have hhost : (host != []) = true := bne_iff_ne.mpr hne
    simp only [partsAllowed, h.name, hquery, hfragment, huser, hhost, beq_self_eq_true,
      Bool.true_or, Bool.not_false, Bool.and_true]
  have hall : (kept port).all (fun n => decide (1 ≤ n ∧ n ≤ 65535)) = true := by
    rcases portText_cases port with ⟨-, hkept⟩ | ⟨n, hn, hkept, -⟩
    · rw [hkept]
      rfl
    · rw [hkept]
      exact decide_eq_true (hport n hn)
  simp only [target?, h.urlsplit_eq hL, h.number, h.name, hparts, hallowed, hall, Bool.and_true,
    if_true]

/-- Normalizing an origin of the shape changes nothing. -/
theorem Reads.normalize_eq (hL : Lawful L) {netloc host : PyStr} {port : Option ℕ}
    (h : Reads L netloc host port) (hne : host ≠ []) (hallowed : hostAllowed L host = true)
    (hport : PortOk port) :
    normalizeApiUrl L (originOf host port) = .ok (originOf host port) := by
  have hcontrol : (originOf host port).any isControl = false := by
    apply List.any_eq_false.mpr
    intro c hc
    rw [h.origin] at hc
    rw [Bool.not_eq_true]
    rcases List.mem_append.mp hc with hscheme | hin
    · have hall : (PyStr.ofString "https://").all (fun c => !isControl c) = true := by decide
      simpa using List.all_eq_true.mp hall c hscheme
    · have hprintable := h.inside c hin
      rw [isControl, Bool.or_eq_false_iff, decide_eq_false_iff_not, beq_eq_false_iff_ne]
      have hlarge := hprintable.1.1
      exact ⟨by omega, hprintable.2⟩
  have hnonempty : originOf host port ≠ [] := by
    rw [h.origin]
    exact List.cons_ne_nil _ _
  have hsame : originOf host (kept port) = originOf host port := by
    rw [originOf, originOf, portText_kept]
  simp only [normalizeApiUrl, h.strip_eq, hcontrol, Bool.false_eq_true, if_false, if_neg hnonempty,
    h.target?_eq hL hne hallowed hport, hsame]

/-! ## The origins of all values -/

/-- An address the host is a text of: to the library, or to the resolver. -/
inductive Denotes (host : PyStr) : Address → Prop
  | literal {address : Address} (h : ipAddress? host = some address) : Denotes host address
  | resolved {value : ℕ} (h : AddressText.inetAton? (codes host) = some value) :
      Denotes host (.v4 value)

/-- An HTTPS origin and nothing else, in its one form, whose host is no text of an address outside the
public internet. -/
structure PublicOrigin (L : UrlLibrary) (origin : PyStr) : Prop where
  parts : ∃ netloc, urlsplit L origin = some ⟨PyStr.ofString "https", netloc, [], [], []⟩
    ∧ pt '@' ∉ netloc ∧ ∀ address, Denotes (hostname L netloc) address → isPublic L address = true
  stable : normalizeApiUrl L origin = .ok origin

/-- The host a value names; empty where there is none. -/
def namedHost (L : UrlLibrary) (value : PyStr) : PyStr :=
  match urlsplit L (strip value) with
  | some parsed => hostname L parsed.netloc
  | none => []

/-- Not a strict IPv4 address, but one to the resolver, and not a public one. -/
def LooselyNonPublic (L : UrlLibrary) (host : PyStr) : Prop :=
  AddressText.dottedQuad? (codes host) = none
    ∧ ∃ value, AddressText.inetAton? (codes host) = some value ∧ isPublic L (.v4 value) = false

/-- A host of either shape is not empty. -/
theorem Shape.nonempty {host : PyStr} (h : Shape L host) : host ≠ [] := by
  cases h with
  | name h => exact h.nonempty
  | @v6 address scope value h hhost haddress =>
    intro hnil
    have hcolon : pt ':' ∈ address ++ scope := List.mem_append_left _ h.colon
    rw [← hhost, hnil] at hcolon
    exact absurd hcolon List.not_mem_nil

/-- The host of `API_ORIGIN` -/
def apiHost : PyStr := .ofString "dev-priv-api.kaleam.net"

/-- The default host is a name and is allowed. -/
theorem apiHost_shape : Shape L apiHost ∧ hostAllowed L apiHost = true := by
  have hname : isPublicName apiHost = true := by decide +kernel
  have haddress : ipAddress? apiHost = none := by decide +kernel
  refine ⟨.name (nameShape_of_publicName (by decide) hname), ?_⟩
  rw [hostAllowed, haddress]
  exact hname

/-- A host the resolver does not read as an address is no loose one. -/
theorem not_loose_of_none {host : PyStr} (h : AddressText.inetAton? (codes host) = none) :
    ¬ LooselyNonPublic L host := by
  intro hloose
  obtain ⟨value, hvalue, -⟩ := hloose.2
  rw [h] at hvalue
  cases hvalue

/-- What an accepted value is normalized to. -/
theorem accepted_eq (hL : Lawful L) {value origin : PyStr} (h : normalizeApiUrl L value = .ok origin) :
    ∃ host port, origin = originOf host port ∧ Shape L host ∧ hostAllowed L host = true
      ∧ PortOk port ∧ (LooselyNonPublic L (namedHost L value) ↔ LooselyNonPublic L host) := by
  unfold normalizeApiUrl at h
  by_cases hcontrol : (strip value).any isControl = true
  · rw [if_pos hcontrol] at h
    cases h
  · rw [if_neg hcontrol] at h
    by_cases hempty : strip value = []
    · rw [if_pos hempty] at h
      cases h
      refine ⟨apiHost, none, by decide, apiHost_shape.1, apiHost_shape.2,
        (fun n hn => by cases hn), ?_⟩
      have hnone : AddressText.inetAton? (codes apiHost) = none := by decide +kernel
      have hnamed : namedHost L value = [] := by
        have hsplit : urlsplit L [] = some ⟨[], [], [], [], []⟩ := rfl
        have hlower : L.lower [] = [] := hL.lower_ascii [] rfl
        rw [namedHost, hempty, hsplit]
        exact hlower
      rw [hnamed]
      exact iff_of_false (not_loose_of_none rfl) (not_loose_of_none hnone)
    · rw [if_neg hempty] at h
      cases htarget : target? L (strip value) with
      | none =>
        rw [htarget] at h
        cases h
      | some found =>
        obtain ⟨host, port⟩ := found
        rw [htarget] at h
        cases h
        have hshape := target_shape hL (Bool.not_eq_true _ |>.mp hcontrol) htarget
        obtain ⟨parsed, hparsed, -, hhost, -, -, -⟩ := target?_eq_some htarget
        have hnamed : namedHost L value = host := by rw [namedHost, hparsed, hhost]
        rw [hnamed]
        exact ⟨host, port, rfl, hshape.1, hshape.2.1, hshape.2.2, Iff.rfl⟩

/-- A strict address is among the forms of the resolver, so what is allowed of it is public. -/
theorem public_of_denotes {host : PyStr} (hallowed : hostAllowed L host = true)
    (hstrict : ¬ LooselyNonPublic L host) {address : Address} (h : Denotes host address) :
    isPublic L address = true := by
  cases h with
  | literal h =>
    rw [hostAllowed, h] at hallowed
    exact hallowed
  | @resolved value h =>
    cases hquad : AddressText.dottedQuad? (codes host) with
    | none =>
      by_contra hpublic
      exact hstrict ⟨hquad, value, h, Bool.not_eq_true _ |>.mp hpublic⟩
    | some strict =>
      have hsame := AddressText.inetAton?_of_dottedQuad? hquad
      rw [h] at hsame
      have haddress : ipAddress? host = some (.v4 strict) := by rw [ipAddress?, hquad]
      rw [hostAllowed, haddress] at hallowed
      rw [Option.some.inj hsame]
      exact hallowed

/-- Every accepted value is normalized to a public origin, unless its host is a loose text of an
address that is not public. -/
theorem normalized_origin (hL : Lawful L) {value origin : PyStr}
    (h : normalizeApiUrl L value = .ok origin) :
    PublicOrigin L origin ↔ ¬ LooselyNonPublic L (namedHost L value) := by
  obtain ⟨host, port, horigin, hshape, hallowed, hport, hnamed⟩ := accepted_eq hL h
  subst horigin
  obtain ⟨netloc, hreads⟩ := hshape.reads hL hport
  have hsplit := hreads.urlsplit_eq hL
  rw [not_congr hnamed]
  constructor
  · intro hpublic hloose
    obtain ⟨netloc', hsplit', -, haddresses⟩ := hpublic.parts
    rw [hsplit] at hsplit'
    have hsame : netloc = netloc' := congrArg SplitResult.netloc (Option.some.inj hsplit')
    rw [← hsame, hreads.name] at haddresses
    obtain ⟨value, hvalue, hprivate⟩ := hloose.2
    have hpublicValue := haddresses _ (.resolved hvalue)
    exact absurd (hprivate.symm.trans hpublicValue) Bool.false_ne_true
  · intro hstrict
    refine ⟨⟨netloc, hsplit, hreads.noUser, fun address haddress => ?_⟩, ?_⟩
    · rw [hreads.name] at haddress
      exact public_of_denotes hallowed hstrict haddress
    · exact hreads.normalize_eq hL hshape.nonempty hallowed hport

namespace Sample

/-- A network by its address and the length of its prefix. -/
def inNetwork (value : ℕ) (network : ℕ × ℕ) : Bool :=
  value / 2 ^ (32 - network.2) == network.1 / 2 ^ (32 - network.2)

/-- Special networks of IPv4: this host, private use, shared space, loopback, link-local, reserved. -/
def special : List (ℕ × ℕ) :=
  [(0x00000000, 8), (0x0A000000, 8), (0x64400000, 10), (0x7F000000, 8), (0xA9FE0000, 16),
    (0xAC100000, 12), (0xC0A80000, 16), (0xF0000000, 4)]

/-- ASCII texts are in NFKC and have their letters' lower case; of IPv6, 2000::/3 is global. -/
def library : UrlLibrary where
  lower s := s.map asciiLower
  nfkc s := s
  isGlobal
    | .v4 value => !(special.any (inNetwork value))
    | .v6 value => value / 2 ^ 125 == 1
  isMulticast
    | .v4 value => inNetwork value (0xE0000000, 4)
    | .v6 value => value / 2 ^ 120 == 0xFF

/-- The sample library keeps the laws. -/
theorem library_lawful : Lawful library where
  lower_ascii := fun _ _ => rfl
  lower_letters := fun _ _ hc _ => List.mem_map_of_mem hc
  lower_marks := by
    intro s c hc _ hletter
    obtain ⟨d, hd, hlower⟩ := List.mem_map.mp hc
    unfold asciiLower at hlower
    split at hlower
    · rename_i hcapital
      have hval : c.val = d.val + 32 := (congrArg Fin.val hlower).symm
      simp only [isAsciiLetter, Bool.or_eq_false_iff, Bool.and_eq_false_iff,
        decide_eq_false_iff_not] at hletter
      omega
    · rw [← hlower]
      exact hd
  nfkc_ascii := fun _ _ => rfl
  nfkc_cut := fun _ _ _ _ => rfl

def typed : PyStr := .ofString " HTTPS://[2A00:1450:4001::68]:8443/"

def normalized : PyStr := .ofString "https://[2a00:1450:4001::68]:8443"

def shortLoopback : PyStr := .ofString "https://127.1"

end Sample

/-- An address of the public internet in brackets, with another port. -/
theorem normalized_origin_sample : normalizeApiUrl Sample.library Sample.typed = .ok Sample.normalized
    ∧ PublicOrigin Sample.library Sample.normalized := by
  have h : normalizeApiUrl Sample.library Sample.typed = .ok Sample.normalized := by
    with_unfolding_all decide +kernel
  have hnone : AddressText.inetAton? (codes (namedHost Sample.library Sample.typed)) = none := by
    decide +kernel
  exact ⟨h, (normalized_origin Sample.library_lawful h).mpr (not_loose_of_none hnone)⟩

/-- `127.1` is no address to the library and a name to the grammar; the resolver reads 127.0.0.1. -/
theorem loopback_accepted : Lawful Sample.library
    ∧ normalizeApiUrl Sample.library Sample.shortLoopback = .ok Sample.shortLoopback
    ∧ ¬ PublicOrigin Sample.library Sample.shortLoopback := by
  refine ⟨Sample.library_lawful, by decide +kernel, fun hpublic => ?_⟩
  obtain ⟨netloc, hsplit, -, haddresses⟩ := hpublic.parts
  have hread : urlsplit Sample.library Sample.shortLoopback
      = some ⟨PyStr.ofString "https", PyStr.ofString "127.1", [], [], []⟩ := by decide +kernel
  rw [hread] at hsplit
  have hsame : PyStr.ofString "127.1" = netloc :=
    congrArg SplitResult.netloc (Option.some.inj hsplit)
  have hvalue : AddressText.inetAton? (codes (hostname Sample.library (PyStr.ofString "127.1")))
      = some 0x7F000001 := by decide +kernel
  rw [← hsame] at haddresses
  exact absurd (haddresses _ (.resolved hvalue)) (by decide +kernel)

end SourceOrigin
end FrappeController
