import FrappeController.Library.DelimitedText

/-!
# `parseCSV` of the source data page

The file a user imports, read character by character. A text of JavaScript is a list of UTF-16 code
units; an object made of distinct names is the list of its fields.
-/

namespace FrappeController
namespace CsvImport

abbrev CodeUnit := UInt16

abbrev JsText := List CodeUnit

/-- A character of the basic plane. -/
def unit (c : Char) : CodeUnit := c.val.toUInt16

/-- What `trim()` strips. -/
def isWhite (c : CodeUnit) : Bool :=
  (9 ≤ c && c ≤ 13) || c == 32 || c == 0xA0 || c == 0x1680 || (0x2000 ≤ c && c ≤ 0x200A)
    || c == 0x2028 || c == 0x2029 || c == 0x202F || c == 0x205F || c == 0x3000 || c == 0xFEFF

/-- `text.trim()` -/
def trim (text : JsText) : JsText :=
  ((text.dropWhile isWhite).reverse.dropWhile isWhite).reverse

/-- `Boolean(text)` -/
def isTruthy (text : JsText) : Bool := !text.isEmpty

/-- The variables of the loop. -/
structure Scan where
  rows : List (List JsText) := []
  row : List JsText := []
  value : JsText := []
  quoted : Bool := false
  closed : Bool := false
  /-- The loop has stepped over the next character. -/
  skip : Bool := false
  deriving DecidableEq

namespace Scan

/-- `cell()` -/
def cell (s : Scan) : Scan :=
  { s with row := s.row ++ [s.value], value := [], closed := false }

/-- `row.some(value => value.trim())` -/
def filled (row : List JsText) : Bool := row.any fun value => isTruthy (trim value)

/-- `line()` -/
def line (s : Scan) : Scan :=
  let s := s.cell
  { s with rows := if filled s.row then s.rows ++ [s.row] else s.rows, row := [] }

/-- One round of the loop, `next` the character after this one. -/
def step (s : Scan) (char : CodeUnit) (next : Option CodeUnit) : Except String Scan :=
  if s.skip then .ok { s with skip := false }
  else if s.quoted then
    if char = unit '"' ∧ next = some (unit '"') then
      .ok { s with value := s.value ++ [unit '"'], skip := true }
    else if char = unit '"' then .ok { s with quoted := false, closed := true }
    else .ok { s with value := s.value ++ [char] }
  else if char = unit ',' then .ok s.cell
  else if char = unit '\n' ∨ char = unit '\r' then
    .ok { s.line with skip := char = unit '\r' ∧ next = some (unit '\n') }
  else if s.closed then
    if isTruthy (trim [char]) then .error "Unexpected text after a quoted CSV value." else .ok s
  else if char = unit '"' then
    if isTruthy (trim s.value) then .error "Invalid quote in CSV value."
    else .ok { s with value := [], quoted := true }
  else .ok { s with value := s.value ++ [char] }

/-- The loop. -/
def run (s : Scan) : JsText → Except String Scan
  | [] => .ok s
  | char :: rest => do (← s.step char rest.head?).run rest

/-- What follows the loop. -/
def finish (s : Scan) : Except String (List (List JsText)) :=
  if s.quoted then .error "Unclosed quote in CSV."
  else if isTruthy s.value || !s.row.isEmpty || s.closed then .ok s.line.rows
  else .ok s.rows

end Scan

/-- `text.replace(/^\uFEFF/, "")` -/
def withoutMark : JsText → JsText
  | 0xFEFF :: rest => rest
  | text => text

/-- The rows of the text. -/
def readRows (text : JsText) : Except String (List (List JsText)) := do
  (← Scan.run {} text).finish

/-- One row as an object. -/
def record (headers : List JsText) (index : ℕ) (row : List JsText) :
    Except String (List (JsText × JsText)) :=
  if row.length ≠ headers.length then
    .error ("CSV row " ++ toString (index + 2) ++ " has an unexpected number of values.")
  else .ok (headers.zip (row.map trim))

/-- `parseCSV` -/
def parseCSV (text : JsText) (allowed required : List JsText) :
    Except String (List (List (JsText × JsText))) := do
  if 64 * 1024 < text.length then .error "CSV must be 64 KB or smaller."
  else do
    let rows ← readRows (withoutMark text)
    let headers := (rows.head?.getD []).map trim
    let rows := rows.tail
    if ¬ headers.Nodup ∨ headers.any (fun key => !allowed.contains key)
        ∨ required.any (fun key => !headers.contains key) then
      .error "CSV must use supported field names and include every required column."
    else if rows = [] ∨ 100 < rows.length then .error "Supply between 1 and 100 vehicle rows."
    else rows.zipIdx.mapM fun entry => record headers entry.2 entry.1

end CsvImport

end FrappeController
