import FrappeController.JsonReader

/-!
# The reader takes what it reads, and ends

Every scanner leaves less of the text than it was given. The fuel `loads` starts with is therefore
enough, and each of its failures is one of Python's.
-/

namespace FrappeController

namespace Reader

open Transaction (bind_eq_ok)

/-! ## What a scanner leaves -/

/-- Skipping blanks adds no text. -/
theorem length_skipSpace (text : Text) : (skipSpace text).length ≤ text.length :=
  (List.dropWhile_sublist _).length_le

/-- Dropping a first character shortens the text. -/
theorem length_tail_of_head {text : Text} {c : Char} (h : text.head? = some c) :
    text.tail.length < text.length := by
  cases text with
  | nil => cases h
  | cons d rest => simp

/-- Four digits are taken off the text. -/
theorem length_hex4? {text rest : Text} {unit : Fin 0x10000} (h : hex4? text = some (unit, rest)) :
    rest.length < text.length := by
  unfold hex4? at h
  split at h
  · simp only [Option.bind_eq_bind, Option.bind_eq_some_iff, Option.pure_def, Option.some.injEq,
      Prod.mk.injEq] at h
    obtain ⟨a, -, b, -, c, -, d, -, -, rfl⟩ := h
    simp only [List.length_cons]
    omega
  · cases h

/-- An escape takes its digits, and those of a second unit. -/
theorem length_unicodeEscape? {text rest : Text} {c : CodePoint}
    (h : unicodeEscape? text = some (c, rest)) : rest.length < text.length := by
  unfold unicodeEscape? at h
  simp only [Option.bind_eq_bind, Option.bind_eq_some_iff, Option.pure_def] at h
  obtain ⟨⟨unit, after⟩, hunit, h⟩ := h
  have hafter : after.length < text.length := length_hex4? hunit
  dsimp only at h
  split at h
  · split at h
    · rename_i second
      simp only [Option.bind_eq_some_iff] at h
      obtain ⟨⟨low, after'⟩, hlow, h⟩ := h
      have hsecond : after'.length < second.length := length_hex4? hlow
      dsimp only at h
      split at h
      · obtain ⟨-, rfl⟩ := Prod.mk.inj (Option.some.inj h)
        simp only [List.length_cons] at hafter
        omega
      · obtain ⟨-, rfl⟩ := Prod.mk.inj (Option.some.inj h)
        exact hafter
    · obtain ⟨-, rfl⟩ := Prod.mk.inj (Option.some.inj h)
      exact hafter
  · obtain ⟨-, rfl⟩ := Prod.mk.inj (Option.some.inj h)
    exact hafter

/-- A character of a string takes at least one of the text. -/
theorem length_scanChar {text rest : Text} {c : CodePoint} (h : scanChar text = some (c, rest)) :
    rest.length < text.length := by
  cases text with
  | nil => cases h
  | cons a tail =>
    unfold scanChar at h
    dsimp only at h
    split at h
    · cases tail with
      | nil => cases h
      | cons d tail =>
        dsimp only at h
        split at h
        · have hshorter : rest.length < tail.length := length_unicodeEscape? h
          simp only [List.length_cons]
          omega
        · obtain ⟨c', -, heq⟩ := Option.map_eq_some_iff.mp h
          cases heq
          simp only [List.length_cons]
          omega
    · split at h
      · cases h
      · cases h
        simp

/-- The rest of a string ends behind its closing quote. -/
theorem length_scanChars {fuel : ℕ} {text rest : Text} {s : PyStr}
    (h : scanChars fuel text = some (s, rest)) : rest.length < text.length := by
  induction fuel generalizing text s rest with
  | zero => cases h
  | succ fuel ih =>
    unfold scanChars at h
    split at h
    · rename_i hhead
      cases h
      exact length_tail_of_head hhead
    · simp only [Option.bind_eq_bind, Option.bind_eq_some_iff, Option.pure_def] at h
      obtain ⟨⟨c, after⟩, hchar, ⟨s', after'⟩, hchars, heq⟩ := h
      have hfirst : after.length < text.length := length_scanChar hchar
      have hrest : after'.length < after.length := ih hchars
      cases heq
      show after'.length < text.length
      omega

/-- A string ends behind its closing quote. -/
theorem length_scanString {text rest : Text} {s : PyStr} (h : scanString text = .ok (s, rest)) :
    rest.length < text.length := by
  unfold scanString at h
  split at h
  · rename_i found hfound
    cases h
    exact length_scanChars hfound
  · cases h

/-- The scan of a string only fails as malformed text. -/
theorem scanString_fault {text : Text} {e : ReadFault} (h : scanString text = .error e) :
    e = .decode := by
  unfold scanString at h
  split at h
  · cases h
  · cases h
    rfl

/-- The digits and what follows them make up the text. -/
theorem length_digits (text : Text) : (digits text).length + (afterDigits text).length
    = text.length := by
  rw [← List.length_append, digits, afterDigits, List.takeWhile_append_dropWhile]

/-- A natural number takes at least one digit. -/
theorem length_natural? {text ds rest : Text} (h : natural? text = some (ds, rest)) :
    rest.length < text.length := by
  unfold natural? at h
  split at h
  · cases h
    simp
  · split at h
    · cases h
    · rename_i hdigits
      cases h
      have hpos : 0 < (digits text).length := List.length_pos_iff.mpr hdigits
      have hall := length_digits text
      omega

/-- An integer takes at least one digit. -/
theorem length_integer? {text ds rest : Text} (h : integer? text = some (ds, rest)) :
    rest.length < text.length := by
  unfold integer? at h
  split at h
  · rename_i tail
    obtain ⟨⟨ds', rest'⟩, hnatural, heq⟩ := Option.map_eq_some_iff.mp h
    cases heq
    have hshorter : rest.length < tail.length := length_natural? hnatural
    simp only [List.length_cons]
    omega
  · exact length_natural? h

/-- A fraction may be absent and takes no text then. -/
theorem length_fraction (text : Text) : (fraction text).2.length ≤ text.length := by
  unfold fraction
  split
  · rename_i rest
    split
    · exact le_rfl
    · have hall := length_digits rest
      simp only [List.length_cons]
      omega
  · exact le_rfl

/-- A sign may be absent and takes no text then. -/
theorem length_sign (text : Text) : (sign text).2.length ≤ text.length := by
  unfold sign
  split
  · simp
  · simp
  · exact le_rfl

/-- An exponent may be absent and takes no text then. -/
theorem length_exponent (text : Text) : (exponent text).2.length ≤ text.length := by
  cases text with
  | nil => exact le_rfl
  | cons c rest =>
    unfold exponent
    dsimp only
    split
    · have hsign := length_sign rest
      have hall := length_digits (sign rest).2
      simp only [List.length_cons]
      omega
    · exact le_rfl

variable {L : Reader}

/-- A number takes the digits of its whole part at least. -/
theorem length_scanNumber {text rest : Text} {value : PyJson}
    (h : L.scanNumber text = .ok (value, rest)) : rest.length < text.length := by
  unfold scanNumber at h
  split at h
  · cases h
  · rename_i whole tail hwhole
    have hshorter : tail.length < text.length := length_integer? hwhole
    have hfraction := length_fraction tail
    have hexponent := length_exponent (fraction tail).2
    dsimp only at h
    split at h
    · split at h
      · cases h
        omega
      · cases h
    · cases h
      omega

/-- A name that is not empty is taken off the text. -/
theorem length_after? {start text rest : Text} (hstart : start ≠ [])
    (h : after? start text = some rest) : rest.length < text.length := by
  unfold after? at h
  split at h
  · rename_i hinitial
    cases h
    have hpos : 0 < start.length := List.length_pos_iff.mpr hstart
    have hle : start.length ≤ text.length := (List.isPrefixOf_iff_prefix.mp hinitial).length_le
    rw [List.length_drop]
    omega
  · cases h

/-- A constant or a number takes at least one character. -/
theorem length_scanToken {text rest : Text} {value : PyJson}
    (h : L.scanToken text = .ok (value, rest)) : rest.length < text.length := by
  unfold scanToken at h
  split at h
  · rename_i found hfound
    cases h
    obtain ⟨⟨name, value'⟩, hmem, hafter⟩ := List.exists_of_findSome?_eq_some hfound
    obtain ⟨rest', hrest, heq⟩ := Option.map_eq_some_iff.mp hafter
    cases heq
    have hname : ∀ entry ∈ constants, entry.1 ≠ [] := by decide
    exact length_after? (hname _ hmem) hrest
  · exact length_scanNumber h

/-! ## The scanners of documents -/

variable {hook : ObjectHook}

/-- What the scanners leave, for one amount of fuel. -/
structure Shortens (L : Reader) (hook : ObjectHook) (fuel : ℕ) : Prop where
  once : ∀ {depth text value rest},
    L.scanOnce hook fuel depth text = .ok (value, rest) → rest.length < text.length
  items : ∀ {depth text items rest},
    L.scanItems hook fuel depth text = .ok (items, rest) → rest.length < text.length
  moreItems : ∀ {depth text items rest},
    L.scanMoreItems hook fuel depth text = .ok (items, rest) → rest.length < text.length
  pair : ∀ {depth text pair rest},
    L.scanPair hook fuel depth text = .ok (pair, rest) → rest.length < text.length
  pairs : ∀ {depth text pairs rest},
    L.scanPairs hook fuel depth text = .ok (pairs, rest) → rest.length < text.length
  morePairs : ∀ {depth text pairs rest},
    L.scanMorePairs hook fuel depth text = .ok (pairs, rest) → rest.length < text.length

/-- A character found behind blanks is taken off with them. -/
theorem length_tail_skipSpace {text : Text} {c : Char} (h : (skipSpace text).head? = some c) :
    (skipSpace text).tail.length < text.length := by
  have hshorter := length_tail_of_head h
  have hle := length_skipSpace text
  omega

/-- The expected character is taken off the text. -/
theorem length_expect {text rest : Text} {c : Char} (h : expect c text = .ok rest) :
    rest.length < text.length := by
  unfold expect at h
  split at h
  · rename_i hhead
    cases h
    exact length_tail_skipSpace hhead
  · cases h

/-- The closing character or the comma is taken off the text. -/
theorem length_scanNext {text rest : Text} {closing : Char} {closed : Bool}
    (h : scanNext closing text = .ok (closed, rest)) : rest.length < text.length := by
  unfold scanNext at h
  split at h
  · rename_i hhead
    cases h
    exact length_tail_skipSpace hhead
  · split at h
    · rename_i hhead
      cases h
      exact length_tail_skipSpace hhead
    · cases h

section Shorter

variable {fuel depth : ℕ} {text rest : Text} (ih : Shortens L hook fuel)
include ih

/-- A value: the first character, and what the scanners of texts, arrays and objects take. -/
theorem Shortens.once_succ {value : PyJson}
    (h : L.scanOnce hook (fuel + 1) depth text = .ok (value, rest)) : rest.length < text.length := by
  rw [scanOnce] at h
  split at h
  · rename_i hhead
    obtain ⟨⟨s, after⟩, hstring, h⟩ := bind_eq_ok.mp h
    cases h
    have htail := length_tail_of_head hhead
    have hshorter : rest.length < text.tail.length := length_scanString hstring
    omega
  · split at h
    · rename_i hhead
      obtain ⟨depth', -, h⟩ := bind_eq_ok.mp h
      obtain ⟨⟨items, after⟩, hitems, h⟩ := bind_eq_ok.mp h
      cases h
      have htail := length_tail_of_head hhead
      have hshorter : rest.length < text.tail.length := ih.items hitems
      omega
    · split at h
      · rename_i hhead
        obtain ⟨depth', -, h⟩ := bind_eq_ok.mp h
        obtain ⟨⟨pairs, after⟩, hpairs, h⟩ := bind_eq_ok.mp h
        obtain ⟨object, -, h⟩ := bind_eq_ok.mp h
        cases h
        have htail := length_tail_of_head hhead
        have hshorter : rest.length < text.tail.length := ih.pairs hpairs
        omega
      · exact length_scanToken h

/-- The items of an array, from behind its bracket. -/
theorem Shortens.items_succ {items : List PyJson}
    (h : L.scanItems hook (fuel + 1) depth text = .ok (items, rest)) : rest.length < text.length := by
  rw [scanItems] at h
  split at h
  · rename_i hhead
    cases h
    exact length_tail_skipSpace hhead
  · obtain ⟨⟨x, after⟩, hx, h⟩ := bind_eq_ok.mp h
    obtain ⟨⟨others, last⟩, hothers, h⟩ := bind_eq_ok.mp h
    obtain ⟨-, rfl⟩ := Prod.mk.inj (Except.ok.inj h)
    have hle := length_skipSpace text
    have hfirst : after.length < (skipSpace text).length := ih.once hx
    have hmore : last.length < after.length := ih.moreItems hothers
    show last.length < text.length
    omega

/-- The items behind a first one, each after a comma. -/
theorem Shortens.moreItems_succ {items : List PyJson}
    (h : L.scanMoreItems hook (fuel + 1) depth text = .ok (items, rest)) : rest.length < text.length := by
  rw [scanMoreItems] at h
  obtain ⟨⟨closed, next⟩, hnext, h⟩ := bind_eq_ok.mp h
  have hnext : next.length < text.length := length_scanNext hnext
  dsimp only at h
  split at h
  · cases h
    exact hnext
  · obtain ⟨⟨x, after⟩, hx, h⟩ := bind_eq_ok.mp h
    obtain ⟨⟨others, last⟩, hothers, h⟩ := bind_eq_ok.mp h
    obtain ⟨-, rfl⟩ := Prod.mk.inj (Except.ok.inj h)
    have hle := length_skipSpace next
    have hfirst : after.length < (skipSpace next).length := ih.once hx
    have hmore : last.length < after.length := ih.moreItems hothers
    show last.length < text.length
    omega

/-- A name, a colon and a value. -/
theorem Shortens.pair_succ {pair : PyStr × PyJson}
    (h : L.scanPair hook (fuel + 1) depth text = .ok (pair, rest)) : rest.length < text.length := by
  rw [scanPair] at h
  obtain ⟨opened, hopened, h⟩ := bind_eq_ok.mp h
  obtain ⟨⟨key, after⟩, hkey, h⟩ := bind_eq_ok.mp h
  obtain ⟨colon, hcolon, h⟩ := bind_eq_ok.mp h
  obtain ⟨⟨x, last⟩, hx, h⟩ := bind_eq_ok.mp h
  obtain ⟨-, rfl⟩ := Prod.mk.inj (Except.ok.inj h)
  have hquote : opened.length < text.length := length_expect hopened
  have hfirst : after.length < opened.length := length_scanString hkey
  have hskipped : colon.length < after.length := length_expect hcolon
  have hle := length_skipSpace colon
  have hvalue : last.length < (skipSpace colon).length := ih.once hx
  show last.length < text.length
  omega

/-- The fields of an object end behind its brace, given the bound for less fuel. -/
theorem Shortens.pairs_succ {pairs : List (PyStr × PyJson)}
    (h : L.scanPairs hook (fuel + 1) depth text = .ok (pairs, rest)) : rest.length < text.length := by
  rw [scanPairs] at h
  split at h
  · rename_i hhead
    cases h
    exact length_tail_skipSpace hhead
  · obtain ⟨⟨f, after⟩, hf, h⟩ := bind_eq_ok.mp h
    obtain ⟨⟨others, last⟩, hothers, h⟩ := bind_eq_ok.mp h
    obtain ⟨-, rfl⟩ := Prod.mk.inj (Except.ok.inj h)
    have hfirst : after.length < text.length := ih.pair hf
    have hmore : last.length < after.length := ih.morePairs hothers
    show last.length < text.length
    omega

/-- The fields after one field end behind the brace, given the bound for less fuel. -/
theorem Shortens.morePairs_succ {pairs : List (PyStr × PyJson)}
    (h : L.scanMorePairs hook (fuel + 1) depth text = .ok (pairs, rest)) : rest.length < text.length := by
  rw [scanMorePairs] at h
  obtain ⟨⟨closed, next⟩, hnext, h⟩ := bind_eq_ok.mp h
  have hnext : next.length < text.length := length_scanNext hnext
  dsimp only at h
  split at h
  · cases h
    exact hnext
  · obtain ⟨⟨f, after⟩, hf, h⟩ := bind_eq_ok.mp h
    obtain ⟨⟨others, last⟩, hothers, h⟩ := bind_eq_ok.mp h
    obtain ⟨-, rfl⟩ := Prod.mk.inj (Except.ok.inj h)
    have hfirst : after.length < next.length := ih.pair hf
    have hmore : last.length < after.length := ih.morePairs hothers
    show last.length < text.length
    omega

end Shorter

/-- Every scanner takes something of the text. -/
theorem shortens (fuel : ℕ) : Shortens L hook fuel := by
  induction fuel with
  | zero =>
    exact ⟨fun h => by simp [scanOnce] at h, fun h => by simp [scanItems] at h,
      fun h => by simp [scanMoreItems] at h, fun h => by simp [scanPair] at h,
      fun h => by simp [scanPairs] at h, fun h => by simp [scanMorePairs] at h⟩
  | succ fuel ih =>
    exact ⟨ih.once_succ, ih.items_succ, ih.moreItems_succ, ih.pair_succ, ih.pairs_succ,
      ih.morePairs_succ⟩

/-! ## Enough fuel -/

/-- Numbers are scanned without recursion and need no fuel. -/
theorem scanNumber_ne_fuel (text : Text) : L.scanNumber text ≠ .error .fuel := by
  intro h
  unfold scanNumber at h
  split at h
  · cases h
  · dsimp only at h
    split at h
    · split at h
      · cases h
      · cases h
    · cases h

/-- Constants are scanned without recursion and need no fuel. -/
theorem scanToken_ne_fuel (text : Text) : L.scanToken text ≠ .error .fuel := by
  intro h
  unfold scanToken at h
  split at h
  · cases h
  · exact scanNumber_ne_fuel text h

/-- The hook never reports missing fuel. -/
theorem makeObject_ne_fuel (pairs : List (PyStr × PyJson)) :
    makeObject hook pairs ≠ .error .fuel := by
  intro h
  unfold makeObject at h
  split at h <;> cases h

/-- How much fuel each scanner needs: three steps for a character. -/
structure Fuelled (L : Reader) (hook : ObjectHook) (fuel : ℕ) : Prop where
  once : ∀ {depth text}, 3 * text.length < fuel → L.scanOnce hook fuel depth text ≠ .error .fuel
  items : ∀ {depth text}, 3 * text.length + 1 < fuel →
    L.scanItems hook fuel depth text ≠ .error .fuel
  moreItems : ∀ {depth text}, 3 * text.length < fuel →
    L.scanMoreItems hook fuel depth text ≠ .error .fuel
  pair : ∀ {depth text}, 3 * text.length < fuel → L.scanPair hook fuel depth text ≠ .error .fuel
  pairs : ∀ {depth text}, 3 * text.length + 1 < fuel →
    L.scanPairs hook fuel depth text ≠ .error .fuel
  morePairs : ∀ {depth text}, 3 * text.length < fuel →
    L.scanMorePairs hook fuel depth text ≠ .error .fuel

/-- Fuel lasts over two steps when it lasts over each of them. -/
theorem bind_ne_fuel {α β : Type} {x : Except ReadFault α} {f : α → Except ReadFault β}
    (hx : x ≠ .error .fuel) (hf : ∀ a, x = .ok a → f a ≠ .error .fuel) :
    x >>= f ≠ .error .fuel := by
  intro h
  cases x with
  | ok a => exact hf a rfl h
  | error e =>
    cases h
    exact hx rfl

/-- A string is scanned with fuel of its own, which is its length. -/
theorem scanString_ne_fuel (text : Text) : scanString text ≠ .error .fuel := by
  intro h
  cases scanString_fault h

/-- The depth limit is a `RecursionError`, not missing fuel. -/
theorem enterRecursiveCall_ne_fuel (depth : ℕ) : enterRecursiveCall depth ≠ .error .fuel := by
  intro h
  cases depth <;> cases h

/-- A missing character is malformed text, not missing fuel. -/
theorem expect_ne_fuel (c : Char) (text : Text) : expect c text ≠ .error .fuel := by
  intro h
  unfold expect at h
  split at h <;> cases h

/-- A missing comma is malformed text, not missing fuel. -/
theorem scanNext_ne_fuel (closing : Char) (text : Text) :
    scanNext closing text ≠ .error .fuel := by
  intro h
  unfold scanNext at h
  split at h
  · cases h
  · split at h <;> cases h

/-- Three units of fuel for each character left are enough for every scan. -/
theorem fuelled (fuel : ℕ) : Fuelled L hook fuel := by
  induction fuel with
  -- the bounds leave no case without fuel
  | zero =>
    exact ⟨fun h => by omega, fun h => by omega, fun h => by omega, fun h => by omega,
      fun h => by omega, fun h => by omega⟩
  | succ fuel ih =>
    constructor
    case once =>
      intro depth text hfuel
      rw [scanOnce]
      split
      · exact bind_ne_fuel (scanString_ne_fuel _) fun found _ h => by cases h
      · split
        · rename_i hhead
          have htail := length_tail_of_head hhead
          refine bind_ne_fuel (enterRecursiveCall_ne_fuel depth) fun depth' _ => ?_
          exact bind_ne_fuel (ih.items (by omega)) fun found _ h => by cases h
        · split
          · rename_i hhead
            have htail := length_tail_of_head hhead
            refine bind_ne_fuel (enterRecursiveCall_ne_fuel depth) fun depth' _ => ?_
            refine bind_ne_fuel (ih.pairs (by omega)) fun found _ => ?_
            exact bind_ne_fuel (makeObject_ne_fuel _) fun object _ h => by cases h
          · exact scanToken_ne_fuel _
    case items =>
      intro depth text hfuel
      -- the items cost one unit more than their text: the first value may start where they do
      have hle := length_skipSpace text
      rw [scanItems]
      split
      · exact fun h => by cases h
      · refine bind_ne_fuel (ih.once (by omega)) fun found hfound => ?_
        -- the rest is shorter, so the same fuel lasts for it
        have hfirst : found.2.length < (skipSpace text).length := (shortens fuel).once hfound
        exact bind_ne_fuel (ih.moreItems (by omega)) fun others _ h => by cases h
    case moreItems =>
      intro depth text hfuel
      rw [scanMoreItems]
      refine bind_ne_fuel (scanNext_ne_fuel ']' _) fun next hnext => ?_
      have hshorter : next.2.length < text.length := length_scanNext hnext
      have hle := length_skipSpace next.2
      dsimp only
      split
      · exact fun h => by cases h
      · refine bind_ne_fuel (ih.once (by omega)) fun found hfound => ?_
        have hfirst : found.2.length < (skipSpace next.2).length := (shortens fuel).once hfound
        exact bind_ne_fuel (ih.moreItems (by omega)) fun others _ h => by cases h
    case pair =>
      intro depth text hfuel
      rw [scanPair]
      refine bind_ne_fuel (expect_ne_fuel _ text) fun opened hopened => ?_
      refine bind_ne_fuel (scanString_ne_fuel opened) fun key hkey => ?_
      refine bind_ne_fuel (expect_ne_fuel _ key.2) fun colon hcolon => ?_
      have hquote : opened.length < text.length := length_expect hopened
      have hfirst : key.2.length < opened.length := length_scanString hkey
      have hskipped : colon.length < key.2.length := length_expect hcolon
      have hle := length_skipSpace colon
      exact bind_ne_fuel (ih.once (by omega)) fun found _ h => by cases h
    case pairs =>
      intro depth text hfuel
      rw [scanPairs]
      split
      · exact fun h => by cases h
      · refine bind_ne_fuel (ih.pair (by omega)) fun found hfound => ?_
        have hfirst : found.2.length < text.length := (shortens fuel).pair hfound
        exact bind_ne_fuel (ih.morePairs (by omega)) fun others _ h => by cases h
    case morePairs =>
      intro depth text hfuel
      rw [scanMorePairs]
      refine bind_ne_fuel (scanNext_ne_fuel _ _) fun next hnext => ?_
      have hshorter : next.2.length < text.length := length_scanNext hnext
      dsimp only
      split
      · exact fun h => by cases h
      · refine bind_ne_fuel (ih.pair (by omega)) fun found hfound => ?_
        have hfirst : found.2.length < next.2.length := (shortens fuel).pair hfound
        exact bind_ne_fuel (ih.morePairs (by omega)) fun others _ h => by cases h

/-- The reader always ends on its own. -/
theorem loads_ne_fuel (text : Text) : L.loads hook text ≠ .error .fuel := by
  have hle := length_skipSpace text
  unfold loads
  split
  · exact fun h => by cases h
  · refine bind_ne_fuel ((fuelled _).once (by omega)) fun found _ => ?_
    dsimp only
    split
    · exact fun h => by cases h
    · exact fun h => by cases h

section Steps

variable {hook : ObjectHook} {fuel depth : ℕ} {text rest after after' : Text}

/-! ## Steps

What each function of the scanner returns, by what the functions it calls return. -/

/-- A quote opens a string. -/
theorem scanOnce_str {s : PyStr} (h : scanString text = .ok (s, rest)) :
    L.scanOnce hook (fuel + 1) depth ('"' :: text) = .ok (.str s, rest) := by
  rw [scanOnce, if_pos List.head?_cons, List.tail_cons, h]
  rfl

/-- A bracket opens an array, one level down. -/
theorem scanOnce_arr {items : List PyJson} (h : L.scanItems hook fuel depth text = .ok (items, rest)) :
    L.scanOnce hook (fuel + 1) (depth + 1) ('[' :: text) = .ok (.arr items, rest) := by
  rw [scanOnce, if_neg (by simp), if_pos List.head?_cons, List.tail_cons]
  simp only [enterRecursiveCall, bind, Except.bind, h]
  rfl

/-- A brace opens an object, one level down, and the hook makes it of the pairs. -/
theorem scanOnce_obj {pairs : List (PyStr × PyJson)} {fields : PyJson}
    (h : L.scanPairs hook fuel depth text = .ok (pairs, rest)) (hobject : makeObject hook pairs = .ok fields) :
    L.scanOnce hook (fuel + 1) (depth + 1) ('\x7b' :: text) = .ok (fields, rest) := by
  rw [scanOnce, if_neg (by simp), if_neg (by simp), if_pos List.head?_cons, List.tail_cons]
  simp only [enterRecursiveCall, bind, Except.bind, h, hobject]
  rfl

/-- An array that is not closed at once has a first item. -/
theorem scanItems_cons {x : PyJson} {items : List PyJson} (hopen : (skipSpace text).head? ≠ some ']')
    (hx : L.scanOnce hook fuel depth (skipSpace text) = .ok (x, after))
    (hitems : L.scanMoreItems hook fuel depth after = .ok (items, rest)) :
    L.scanItems hook (fuel + 1) depth text = .ok (x :: items, rest) := by
  rw [scanItems, if_neg hopen, hx]
  simp only [bind, Except.bind, hitems]
  rfl

/-- A comma is followed by another item. -/
theorem scanMoreItems_cons {x : PyJson} {items : List PyJson}
    (hnext : scanNext ']' text = .ok (false, after))
    (hx : L.scanOnce hook fuel depth (skipSpace after) = .ok (x, after'))
    (hitems : L.scanMoreItems hook fuel depth after' = .ok (items, rest)) :
    L.scanMoreItems hook (fuel + 1) depth text = .ok (x :: items, rest) := by
  rw [scanMoreItems, hnext]
  simp only [bind, Except.bind, Bool.false_eq_true, if_false, hx, hitems]
  rfl

/-- A field is a quoted key, a colon and a value. -/
theorem scanPair_eq {key : PyStr} {x : PyJson} {after'' : Text} (hquote : expect '"' text = .ok after)
    (hkey : scanString after = .ok (key, after')) (hcolon : expect ':' after' = .ok after'')
    (hx : L.scanOnce hook fuel depth (skipSpace after'') = .ok (x, rest)) :
    L.scanPair hook (fuel + 1) depth text = .ok ((key, x), rest) := by
  rw [scanPair, hquote]
  simp only [bind, Except.bind, hkey, hcolon, hx]
  rfl

/-- An object that is not closed at once has a first field. -/
theorem scanPairs_cons {pair : PyStr × PyJson} {pairs : List (PyStr × PyJson)}
    (hopen : (skipSpace text).head? ≠ some '\x7d')
    (hpair : L.scanPair hook fuel depth text = .ok (pair, after))
    (hpairs : L.scanMorePairs hook fuel depth after = .ok (pairs, rest)) :
    L.scanPairs hook (fuel + 1) depth text = .ok (pair :: pairs, rest) := by
  rw [scanPairs, if_neg hopen, hpair]
  simp only [bind, Except.bind, hpairs]
  rfl

/-- A comma is followed by another field. -/
theorem scanMorePairs_cons {pair : PyStr × PyJson} {pairs : List (PyStr × PyJson)}
    (hnext : scanNext '\x7d' text = .ok (false, after))
    (hpair : L.scanPair hook fuel depth after = .ok (pair, after'))
    (hpairs : L.scanMorePairs hook fuel depth after' = .ok (pairs, rest)) :
    L.scanMorePairs hook (fuel + 1) depth text = .ok (pair :: pairs, rest) := by
  rw [scanMorePairs, hnext]
  simp only [bind, Except.bind, Bool.false_eq_true, if_false, hpair, hpairs]
  rfl

/-- A high surrogate that a low one follows is one character with it. -/
theorem unicodeEscape?_of_surrogates {high low : Fin 0x10000} {second : Text}
    (hhigh : hex4? text = some (high, '\\' :: 'u' :: second)) (hlow : hex4? second = some (low, rest))
    (hfirst : isHighSurrogate high = true) (hsecond : isLowSurrogate low = true) :
    unicodeEscape? text = some (joinSurrogates high low, rest) := by
  rw [unicodeEscape?, hhigh]
  simp only [bind, Option.bind, hfirst, if_true, hlow, hsecond]
  rfl

end Steps

end Reader

end FrappeController
