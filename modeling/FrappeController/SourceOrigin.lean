import FrappeController.Library.AddressText
import FrappeController.Library.Partition
import FrappeController.PythonText

/-!
# `source_data.py`: the origin of the external catalog

`normalize_api_url` accepts a plain public HTTPS origin and writes it in one form. `urlsplit` and
`ipaddress` are modelled as they read a text; the tables of Unicode and the registries of special
addresses are parameters (`UrlLibrary`). What raises `ValueError` in the library is `none` here.
-/

namespace FrappeController
namespace SourceOrigin

open Partition (before after? afterLast)

/-- What `ipaddress.ip_address` returns, without the scope of an IPv6 address. -/
inductive Address where
  | v4 (value : ℕ)
  | v6 (value : ℕ)
  deriving DecidableEq, Repr

structure UrlLibrary where
  /-- `s.lower()` -/
  lower : PyStr → PyStr
  /-- `unicodedata.normalize("NFKC", s)` -/
  nfkc : PyStr → PyStr
  /-- `address.is_global` -/
  isGlobal : Address → Bool
  /-- `address.is_multicast` -/
  isMulticast : Address → Bool

/-- A character of the program. -/
abbrev pt (c : Char) : CodePoint := .ofChar c

def codes (s : PyStr) : AddressText.Digits := s.map (·.val)

/-! ## Addresses -/

/-- `ipaddress.ip_address(host)` -/
def ipAddress? (host : PyStr) : Option Address :=
  match AddressText.dottedQuad? (codes host) with
  | some value => some (.v4 value)
  | none =>
    if pt '/' ∈ host then none
    else
      match after? (pt '%') host with
      | none => (AddressText.ipv6? (codes host)).map .v6
      | some scope =>
        if scope = [] ∨ pt '%' ∈ scope then none
        else (AddressText.ipv6? (codes (before (pt '%') host))).map .v6

/-! ## `urllib.parse` -/

structure SplitResult where
  scheme : PyStr
  netloc : PyStr
  path : PyStr
  query : PyStr
  fragment : PyStr
  deriving DecidableEq, Repr

def isAsciiLetter (c : CodePoint) : Bool :=
  (65 ≤ c.val && c.val ≤ 90) || (97 ≤ c.val && c.val ≤ 122)

def isAsciiDigit (c : CodePoint) : Bool := 48 ≤ c.val && c.val ≤ 57

/-- `scheme_chars` -/
def isSchemePoint (c : CodePoint) : Bool :=
  isAsciiLetter c || isAsciiDigit c || c == pt '+' || c == pt '-' || c == pt '.'

/-- `url.lstrip(_WHATWG_C0_CONTROL_OR_SPACE)`, and without tabs and line ends. -/
def cleanUrl (url : PyStr) : PyStr :=
  (url.dropWhile fun c => c.val ≤ 32).filter fun c => !(c.val == 9 || c.val == 10 || c.val == 13)

variable (L : UrlLibrary)

/-- The scheme and what follows it. -/
def splitScheme (url : PyStr) : PyStr × PyStr :=
  match after? (pt ':') url with
  | none => ([], url)
  | some rest =>
    if (before (pt ':') url).head?.any isAsciiLetter && (before (pt ':') url).all isSchemePoint then
      (L.lower (before (pt ':') url), rest)
    else ([], url)

/-- A character that ends the network location. -/
def endsNetloc (c : CodePoint) : Bool := c == pt '/' || c == pt '?' || c == pt '#'

/-- `_splitnetloc` behind `//` -/
def splitNetloc (url : PyStr) : PyStr × PyStr :=
  if [pt '/', pt '/'].isPrefixOf url then
    ((url.drop 2).takeWhile (!endsNetloc ·), (url.drop 2).dropWhile (!endsNetloc ·))
  else ([], url)

/-- `re.match(r"\Av[a-fA-F0-9]+\..+\z", hostname)`: `.` matches no line end. -/
def isFutureAddress (hostname : PyStr) : Bool :=
  match hostname with
  | [] => false
  | first :: rest =>
    let digits := rest.takeWhile fun c => (AddressText.digit? c.val).isSome
    first == pt 'v' && digits != [] &&
      match rest.dropWhile fun c => (AddressText.digit? c.val).isSome with
      | dot :: address => dot == pt '.' && address != [] && !PyStr.hasChar '\n' address
      | [] => false

/-- `_check_bracketed_host` -/
def bracketedHostOk (hostname : PyStr) : Bool :=
  if hostname.head? = some (pt 'v') then isFutureAddress hostname
  else
    match ipAddress? hostname with
    | some (.v6 _) => true
    | _ => false

/-- What follows a closing bracket: nothing, or the port. -/
def portMayFollow (rest : PyStr) : Bool := rest == [] || rest.head? == some (pt ':')

/-- The checks of `urlsplit` on the brackets of a network location, and `_check_bracketed_netloc`. -/
def bracketsOk (netloc : PyStr) : Bool :=
  if PyStr.hasChar '[' netloc != PyStr.hasChar ']' netloc then false
  else if PyStr.hasChar '[' netloc then
    match after? (pt '[') (afterLast (pt '@') netloc) with
    | some bracketed =>
      before (pt '[') (afterLast (pt '@') netloc) == []
        && portMayFollow ((after? (pt ']') bracketed).getD [])
        && bracketedHostOk (before (pt ']') bracketed)
    | none => bracketedHostOk (before (pt ':') (afterLast (pt '@') netloc))
  else true

def isAscii (s : PyStr) : Bool := s.all fun c => c.val < 128

/-- A character `_checknetloc` looks for. -/
def isUrlMark (c : CodePoint) : Bool :=
  c == pt '/' || c == pt '?' || c == pt '#' || c == pt '@' || c == pt ':'

/-- `n`: the network location without the marks it may have. -/
def withoutMarks (netloc : PyStr) : PyStr :=
  netloc.filter fun c => !(c == pt '@' || c == pt ':' || c == pt '#' || c == pt '?')

/-- `_checknetloc`: no character is written as a mark in NFKC. -/
def netlocOk (netloc : PyStr) : Bool :=
  isAscii netloc || withoutMarks netloc == L.nfkc (withoutMarks netloc)
    || !(L.nfkc (withoutMarks netloc)).any isUrlMark

/-- `url.split(c, 1)` where it has the character. -/
def cutAt (c : CodePoint) (url : PyStr) : PyStr × PyStr := (before c url, (after? c url).getD [])

/-- `urllib.parse.urlsplit` -/
def urlsplit (url : PyStr) : Option SplitResult :=
  match splitScheme L (cleanUrl url) with
  | (scheme, rest) =>
    match splitNetloc rest with
    | (netloc, rest) =>
      if bracketsOk netloc && netlocOk L netloc then
        some ⟨scheme, netloc, (cutAt (pt '?') (cutAt (pt '#') rest).1).1,
          (cutAt (pt '?') (cutAt (pt '#') rest).1).2, (cutAt (pt '#') rest).2⟩
      else none

/-- `_hostinfo`: the host and the text of the port, empty where there is none. -/
def hostInfo (netloc : PyStr) : PyStr × PyStr :=
  match after? (pt '[') (afterLast (pt '@') netloc) with
  | some bracketed =>
    (before (pt ']') bracketed, (after? (pt ':') ((after? (pt ']') bracketed).getD [])).getD [])
  | none =>
    (before (pt ':') (afterLast (pt '@') netloc),
      (after? (pt ':') (afterLast (pt '@') netloc)).getD [])

/-- `hostname`, empty for `None`. A zone keeps its case. -/
def hostname (netloc : PyStr) : PyStr :=
  match after? (pt '%') (hostInfo netloc).1 with
  | none => L.lower (hostInfo netloc).1
  | some zone => L.lower (before (pt '%') (hostInfo netloc).1) ++ pt '%' :: zone

/-- `port`: `int` takes no more than 4300 digits. -/
def port? (netloc : PyStr) : Option (Option ℕ) :=
  match (hostInfo netloc).2 with
  | [] => some none
  | text =>
    match AddressText.number? 10 (codes text) with
    | some n => if text.length ≤ 4300 ∧ n ≤ 65535 then some (some n) else none
    | none => none

/-! ## `normalize_api_url` -/

/-- `API_ORIGIN` -/
def apiOrigin : PyStr := .ofString "https://dev-priv-api.kaleam.net"

def message : String := "Source Data API URL must be a plain public HTTPS origin without credentials,"
  ++ " path, query or fragment."

/-- A character of a label, between its ends. -/
def isLabelPoint (c : CodePoint) : Bool :=
  (97 ≤ c.val && c.val ≤ 122) || isAsciiDigit c || c == pt '-'

def isLabelEnd (c : CodePoint) : Bool := (97 ≤ c.val && c.val ≤ 122) || isAsciiDigit c

/-- `re.fullmatch(r"[a-z0-9](?:[a-z0-9-]{0,61}[a-z0-9])?", label)` -/
def isLabel (label : PyStr) : Bool :=
  label.length ≤ 63 && label.all isLabelPoint && label.head?.any isLabelEnd
    && label.getLast?.any isLabelEnd

/-- `host.endswith((".localhost", ".local", ".internal"))` -/
def isPrivateName (host : PyStr) : Bool :=
  [".localhost", ".local", ".internal"].any fun ending => (PyStr.ofString ending).isSuffixOf host

/-- A name the resolver is asked for. -/
def isPublicName (host : PyStr) : Bool :=
  host.length ≤ 253 && PyStr.hasChar '.' host && !isPrivateName host
    && (host.splitOn (pt '.')).all isLabel

/-- The address is one of the public internet. -/
def isPublic (address : Address) : Bool := L.isGlobal address && !L.isMulticast address

def hostAllowed (host : PyStr) : Bool :=
  match ipAddress? host with
  | some address => isPublic L address
  | none => isPublicName host

/-- The checks of a value on its parts. -/
def partsAllowed (value : PyStr) (parsed : SplitResult) : Bool :=
  parsed.scheme == .ofString "https" && hostname L parsed.netloc != []
    && !PyStr.hasChar '@' parsed.netloc && (parsed.path == [] || parsed.path == [pt '/'])
    && parsed.query == [] && parsed.fragment == []
    && !PyStr.hasChar '?' value && !PyStr.hasChar '#' value

/-- The host and the port of a value. -/
def target? (value : PyStr) : Option (PyStr × Option ℕ) :=
  match urlsplit L value with
  | none => none
  | some parsed =>
    match port? parsed.netloc with
    | none => none
    | some port =>
      if partsAllowed L value parsed && hostAllowed L (hostname L parsed.netloc)
          && port.all (fun n => decide (1 ≤ n ∧ n ≤ 65535)) then
        some (hostname L parsed.netloc, port)
      else none

/-- An address with colons is written in brackets. -/
def hostText (host : PyStr) : PyStr :=
  if pt ':' ∈ host then pt '[' :: (host ++ [pt ']']) else host

/-- The default port is left out. -/
def portText : Option ℕ → PyStr
  | none => []
  | some n => if n = 443 then [] else pt ':' :: PyStr.ofString (toString n)

def originOf (host : PyStr) (port : Option ℕ) : PyStr :=
  PyStr.ofString "https://" ++ (hostText host ++ portText port)

/-- `value.strip()` -/
def strip (value : PyStr) : PyStr :=
  ((value.dropWhile PyStr.isSpacePoint).reverse.dropWhile PyStr.isSpacePoint).reverse

def isControl (c : CodePoint) : Bool := c.val ≤ 32 || c.val == 127

/-- `normalize_api_url`; `.error` is `SourceDataError(message)`. -/
def normalizeApiUrl (value : PyStr) : Except String PyStr :=
  let stripped := strip value
  if stripped.any isControl then .error message
  else if stripped = [] then .ok apiOrigin
  else
    match target? L stripped with
    | none => .error message
    | some (host, port) => .ok (originOf host port)

end SourceOrigin
end FrappeController
