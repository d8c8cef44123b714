import FrappeController.CsvImport
import FrappeController.Library.Keyed
import FrappeController.Library.Transaction
import Mathlib.Data.List.TakeWhile
import Mathlib.Data.List.Zip

/-!
# Imported tables

Every encoding of a table is read back as the table. The loop of `parseCSV` is followed through one
token after the other (`run_*`): what is left of the text never matters to what has been read, but
for a quote after a quote and a line feed after a carriage return.
-/

namespace FrappeController
namespace CsvImport

open DelimitedText Scan
open Transaction (bind_eq_ok)

/-- The dialect of the page. -/
def dialect : Dialect CodeUnit where
  comma := unit ','
  quote := unit '"'
  cr := unit '\r'
  lf := unit '\n'
  white := isWhite
  comma_ne_quote := by decide
  cr_ne_quote := by decide
  lf_ne_quote := by decide
  cr_ne_comma := by decide
  lf_ne_comma := by decide
  white_comma := by decide
  white_quote := by decide

/-! ## White space -/

/-- A text that `trim()` leaves as it is. -/
def Trimmed (text : JsText) : Prop := trim text = text

/-- `trim()` leaves nothing of white space, and of nothing else. -/
theorem trim_eq_nil {text : JsText} : trim text = [] ↔ ∀ c ∈ text, isWhite c = true := by
  rw [trim, List.reverse_eq_nil_iff, List.dropWhile_eq_nil_iff]
  constructor
  · intro h
    have hrest : text.dropWhile isWhite = [] := by
      cases hdrop : text.dropWhile isWhite with
      | nil => rfl
      | cons c rest =>
        have hfalse : isWhite c = false := by
          have hhead := List.head?_dropWhile_not isWhite text
          rw [hdrop] at hhead
          simpa using hhead
        have htrue := h c (List.mem_reverse.mpr (hdrop ▸ List.mem_cons_self))
        exact absurd (hfalse.symm.trans htrue) Bool.false_ne_true
    exact List.dropWhile_eq_nil_iff.mp hrest
  · intro h c hc
    exact h c (List.dropWhile_sublist isWhite |>.subset (List.mem_reverse.mp hc))

/-- A blank text says nothing. -/
theorem not_isTruthy_trim {text : JsText} (h : ∀ c ∈ text, isWhite c = true) :
    isTruthy (trim text) = false := by
  rw [trim_eq_nil.mpr h]
  rfl

/-! ## The loop, token by token -/

variable {s : Scan} {rest : JsText}

/-- The loop is between two characters outside quotes. -/
structure Plain (s : Scan) : Prop where
  quoted : s.quoted = false
  skip : s.skip = false

/-- The loop is where a cell begins, or before its quote. -/
structure Opening (s : Scan) : Prop extends Plain s where
  closed : s.closed = false
  blank : ∀ c ∈ s.value, isWhite c = true

/-- An ordinary character is added to the value. -/
theorem step_ordinary (h : Plain s) (hclosed : s.closed = false) {c : CodeUnit}
    (hc : Ordinary dialect c) (next : Option CodeUnit) :
    s.step c next = .ok { s with value := s.value ++ [c] } := by
  obtain ⟨hcomma, hquote, hcr, hlf⟩ := hc
  have hends : ¬ (c = unit '\n' ∨ c = unit '\r') := fun hends => hends.elim hlf hcr
  have hcomma : c ≠ unit ',' := hcomma
  have hquote : c ≠ unit '"' := hquote
  rw [step, h.skip, h.quoted, hclosed]
  simp only [Bool.false_eq_true, if_false, if_neg hcomma, if_neg hends, if_neg hquote]

/-- Ordinary characters are added to the value one by one. -/
theorem run_ordinary (h : Plain s) (hclosed : s.closed = false) {text : JsText}
    (htext : ∀ c ∈ text, Ordinary dialect c) :
    s.run (text ++ rest) = { s with value := s.value ++ text }.run rest := by
  induction text generalizing s with
  | nil =>
    rw [List.append_nil]
    rfl
  | cons c text ih =>
    have hfirst := step_ordinary h hclosed (htext c List.mem_cons_self) (text ++ rest).head?
    have hnext : Plain { s with value := s.value ++ [c] } := ⟨h.quoted, h.skip⟩
    have hrest := ih hnext hclosed fun c' hc' => htext c' (List.mem_cons_of_mem c hc')
    show (do (← s.step c (text ++ rest).head?).run (text ++ rest)) = _
    rw [hfirst]
    show ({ s with value := s.value ++ [c] } : Scan).run (text ++ rest) = _
    rw [hrest, List.append_assoc]
    rfl

/-- A doubled quote is one quote, another character itself. -/
theorem run_quoted (hquoted : s.quoted = true) (hskip : s.skip = false) (c : CodeUnit) :
    s.run (quoted dialect c ++ rest) = { s with value := s.value ++ [c] }.run rest := by
  by_cases hc : c = unit '"'
  · have hstep : s.step (unit '"') (some (unit '"'))
        = .ok { s with value := s.value ++ [unit '"'], skip := true } := by
      rw [step, hskip, hquoted]
      simp
    have hskipped : ({ s with value := s.value ++ [unit '"'], skip := true } : Scan).step
        (unit '"') rest.head? = .ok { s with value := s.value ++ [unit '"'], skip := false } := by
      rw [step, if_pos rfl]
    have hdouble : quoted dialect c = [unit '"', unit '"'] := if_pos hc
    rw [hdouble, hc]
    show (do (← s.step (unit '"') (some (unit '"'))).run (unit '"' :: rest)) = _
    rw [hstep]
    show (do (← ({ s with value := s.value ++ [unit '"'], skip := true } : Scan).step (unit '"')
      rest.head?).run rest) = _
    rw [hskipped, ← hskip]
    rfl
  · have hstep : s.step c rest.head? = .ok { s with value := s.value ++ [c] } := by
      rw [step, hskip, hquoted]
      simp [hc]
    have hsingle : quoted dialect c = [c] := if_neg hc
    rw [hsingle]
    show (do (← s.step c rest.head?).run rest) = _
    rw [hstep]
    rfl

/-- Inside quotes every character is added, a doubled quote once. -/
theorem run_doubled (hquoted : s.quoted = true) (hskip : s.skip = false) (cell : JsText) :
    s.run (doubled dialect cell ++ rest) = { s with value := s.value ++ cell }.run rest := by
  induction cell generalizing s with
  | nil =>
    rw [List.append_nil]
    rfl
  | cons c cell ih =>
    rw [doubled_cons, List.append_assoc, run_quoted hquoted hskip]
    have hrest := ih (s := { s with value := s.value ++ [c] }) hquoted hskip
    rw [hrest, List.append_assoc]
    rfl

/-- A quote opens a cell. -/
theorem run_open (h : Opening s) :
    s.run (unit '"' :: rest) = { s with value := [], quoted := true }.run rest := by
  have hstep : s.step (unit '"') rest.head? = .ok { s with value := [], quoted := true } := by
    have hcomma : unit '"' ≠ unit ',' := by decide
    have hends : ¬ (unit '"' = unit '\n' ∨ unit '"' = unit '\r') := by decide
    rw [step, h.skip, h.quoted, h.closed, not_isTruthy_trim h.blank]
    simp only [Bool.false_eq_true, if_false, if_neg hcomma, if_neg hends, if_pos]
  show (do (← s.step (unit '"') rest.head?).run rest) = _
  rw [hstep]
  rfl

/-- A quote that is not doubled closes it. -/
theorem run_close (hquoted : s.quoted = true) (hskip : s.skip = false)
    (hnext : rest.head? ≠ some (unit '"')) :
    s.run (unit '"' :: rest) = { s with quoted := false, closed := true }.run rest := by
  have hstep : s.step (unit '"') rest.head? = .ok { s with quoted := false, closed := true } := by
    have hdouble : ¬ (unit '"' = unit '"' ∧ rest.head? = some (unit '"')) := fun h => hnext h.2
    rw [step, hskip, hquoted, if_neg Bool.false_ne_true, if_pos rfl, if_neg hdouble, if_pos rfl]
  show (do (← s.step (unit '"') rest.head?).run rest) = _
  rw [hstep]
  rfl

/-- White space after a closing quote is passed over. -/
theorem run_after (h : Plain s) (hclosed : s.closed = true) {w : JsText} (hw : Blank dialect w) :
    s.run (w ++ rest) = s.run rest := by
  induction w with
  | nil => rfl
  | cons c w ih =>
    have hstep : s.step c (w ++ rest).head? = .ok s := by
      obtain ⟨hwhite, hcr, hlf⟩ := hw c List.mem_cons_self
      have hends : ¬ (c = unit '\n' ∨ c = unit '\r') := fun hends => hends.elim hlf hcr
      have hcomma : c ≠ unit ',' := (hw.ordinary c List.mem_cons_self).1
      have hsilent : isTruthy (trim [c]) = false :=
        not_isTruthy_trim fun c' hc' => List.mem_singleton.mp hc' ▸ hwhite
      rw [step, h.skip, h.quoted, hclosed, hsilent]
      simp only [Bool.false_eq_true, if_false, if_neg hcomma, if_neg hends, if_true]
    show (do (← s.step c (w ++ rest).head?).run (w ++ rest)) = _
    rw [hstep]
    exact ih fun c' hc' => hw c' (List.mem_cons_of_mem c hc')

/-- A comma ends the cell. -/
theorem run_comma (h : Plain s) : s.run (unit ',' :: rest) = s.cell.run rest := by
  have hstep : s.step (unit ',') rest.head? = .ok s.cell := by
    rw [step, h.skip, h.quoted]
    simp only [Bool.false_eq_true, if_false, if_pos]
  show (do (← s.step (unit ',') rest.head?).run rest) = _
  rw [hstep]
  rfl

/-- A line is added to the rows unless all of its cells are blank. -/
theorem line_rows (s : Scan) : s.line.rows =
    if filled (s.row ++ [s.value]) then s.rows ++ [s.row ++ [s.value]] else s.rows := rfl

/-- The start of a row. -/
structure Fresh (s : Scan) : Prop extends Plain s where
  row : s.row = []
  value : s.value = []
  closed : s.closed = false

/-- At the start of a row a cell begins. -/
theorem Fresh.opening (h : Fresh s) : Opening s where
  quoted := h.quoted
  skip := h.skip
  closed := h.closed
  blank := by
    rw [h.value]
    exact fun c hc => absurd hc List.not_mem_nil

/-- After a line the next row starts. -/
theorem Plain.line (h : Plain s) : Fresh s.line := ⟨⟨h.quoted, h.skip⟩, rfl, rfl, rfl⟩

/-- After a cell the loop is still outside quotes. -/
theorem Plain.cell (h : Plain s) : Plain s.cell := ⟨h.quoted, h.skip⟩

/-- An empty line leaves no row. -/
theorem Fresh.line_eq (h : Fresh s) : s.line = s := by
  obtain ⟨rows, row, value, quoted, closed, skip⟩ := s
  obtain ⟨⟨hquoted, hskip⟩, hrow, hvalue, hclosed⟩ := h
  cases hrow
  cases hvalue
  cases hclosed
  rfl

/-- A line feed ends the row. -/
theorem run_lf (h : Plain s) : s.run (unit '\n' :: rest) = s.line.run rest := by
  have hstep : s.step (unit '\n') rest.head? = .ok s.line := by
    have hcomma : unit '\n' ≠ unit ',' := by decide
    have hcr : unit '\n' ≠ unit '\r' := by decide
    have hskip : s.line.skip = false := h.skip
    rw [step, h.skip, h.quoted]
    simp only [Bool.false_eq_true, if_false, if_neg hcomma, true_or, if_true, hcr, false_and,
      decide_false]
    rw [← hskip]
  show (do (← s.step (unit '\n') rest.head?).run rest) = _
  rw [hstep]
  rfl

/-- A line feed after a carriage return makes no difference: it would end an empty line. -/
theorem run_cr (h : Plain s) : s.run (unit '\r' :: rest) = s.line.run rest := by
  have hcomma : unit '\r' ≠ unit ',' := by decide
  have hstep : s.step (unit '\r') rest.head?
      = .ok { s.line with skip := rest.head? = some (unit '\n') } := by
    rw [step, h.skip, h.quoted]
    simp only [Bool.false_eq_true, if_false, if_neg hcomma, or_true, if_true, true_and]
  show (do (← s.step (unit '\r') rest.head?).run rest) = _
  rw [hstep]
  show ({ s.line with skip := rest.head? = some (unit '\n') } : Scan).run rest = _
  by_cases hnext : rest.head? = some (unit '\n')
  · obtain ⟨rest', rfl⟩ : ∃ rest', rest = unit '\n' :: rest' := by
      cases rest with
      | nil => cases hnext
      | cons c rest' => exact ⟨rest', by rw [Option.some.inj hnext]⟩
    rw [run_lf h.line.toPlain, h.line.line_eq]
    have hskipped : ({ s.line with skip := true } : Scan).step (unit '\n') rest'.head?
        = .ok { s.line with skip := false } := by
      rw [step, if_pos rfl]
    have hplain : ({ s.line with skip := false } : Scan) = s.line := by
      rw [← h.line.skip]
    rw [decide_eq_true hnext]
    show (do (← ({ s.line with skip := true } : Scan).step (unit '\n') rest'.head?).run rest') = _
    rw [hskipped, hplain]
    rfl
  · have hplain : ({ s.line with skip := false } : Scan) = s.line := by
      rw [← h.line.skip]
    rw [decide_eq_false hnext, hplain]

/-- Every row end ends one row, a carriage return with its line feed too. -/
theorem run_rowEnd (h : Plain s) {ending : JsText} (hend : RowEnd dialect ending) :
    s.run (ending ++ rest) = s.line.run rest := by
  cases hend with
  | lf => exact run_lf h
  | cr => exact run_cr h
  | crlf =>
    show s.run (unit '\r' :: unit '\n' :: rest) = _
    rw [run_cr h, run_lf h.line.toPlain, h.line.line_eq]

/-! ## Cells, rows and tables -/

/-- A cell is the value after it. -/
theorem run_cell (h : Opening s) (hvalue : s.value = []) {cell text : JsText}
    (htext : CellText dialect cell text) (hnext : rest.head? ≠ some (unit '"')) :
    ∃ closed, s.run (text ++ rest) = { s with value := cell, closed := closed }.run rest := by
  cases htext with
  | plain hcell =>
    refine ⟨false, ?_⟩
    rw [run_ordinary h.toPlain h.closed hcell, hvalue, List.nil_append, ← h.closed]
  | quoted =>
    refine ⟨true, ?_⟩
    have hskip : s.skip = false := h.skip
    have hopened : ({ s with value := [], quoted := true } : Scan).quoted = true := rfl
    have hread : ({ s with value := cell, quoted := true } : Scan).quoted = true := rfl
    show s.run (unit '"' :: ((doubled dialect cell ++ [unit '"']) ++ rest)) = _
    rw [run_open h, List.append_assoc, run_doubled hopened hskip, List.nil_append]
    show ({ s with value := cell, quoted := true } : Scan).run (unit '"' :: rest) = _
    rw [run_close hread hskip hnext, ← h.quoted]

/-- The cells of a row come after those the loop has. -/
theorem run_row {row : List JsText} {text : JsText} (htext : RowText dialect row text)
    (h : Opening s) (hvalue : s.value = []) (hnext : rest.head? ≠ some (unit '"')) :
    ∃ s', Plain s' ∧ s'.rows = s.rows ∧ s'.row ++ [s'.value] = s.row ++ row
      ∧ s.run (text ++ rest) = s'.run rest := by
  induction htext generalizing s with
  | @single cell text hcell =>
    obtain ⟨closed, hrun⟩ := run_cell h hvalue hcell hnext
    exact ⟨{ s with value := cell, closed := closed }, ⟨h.quoted, h.skip⟩, rfl, rfl, hrun⟩
  | @cons cell text row following hcell _ ih =>
    have hcomma : (unit ',' :: (following ++ rest)).head? ≠ some (unit '"') :=
      fun heq => dialect.comma_ne_quote (Option.some.inj heq)
    obtain ⟨closed, hrun⟩ := run_cell h hvalue hcell hcomma
    have hplain : Plain { s with value := cell, closed := closed } := ⟨h.quoted, h.skip⟩
    have hopening : Opening ({ s with value := cell, closed := closed } : Scan).cell :=
      ⟨⟨h.quoted, h.skip⟩, rfl, fun c hc => absurd hc List.not_mem_nil⟩
    obtain ⟨s', hs', hrows, hrow, hrest⟩ := ih hopening rfl
    refine ⟨s', hs', hrows, ?_, ?_⟩
    · rw [hrow]
      show s.row ++ [cell] ++ row = s.row ++ cell :: row
      rw [List.append_assoc]
      rfl
    · rw [List.append_assoc]
      exact hrun.trans ((run_comma hplain).trans hrest)

/-- A row of one blank cell is not filled. -/
theorem filled_of_blank {w : JsText} (hw : ∀ c ∈ w, isWhite c = true) : filled [w] = false := by
  rw [filled, List.any_cons, not_isTruthy_trim hw]
  rfl

/-- An encoding of rows none of which is blank is read as these rows. -/
theorem run_lines {rows : List (List JsText)} {text : JsText} (htext : LinesText dialect rows text)
    (h : Fresh s) (hrows : ∀ row ∈ rows, filled row = true) :
    (do (← s.run text).finish) = .ok (s.rows ++ rows) := by
  induction htext generalizing s with
  | nil =>
    show s.finish = _
    rw [finish, h.quoted, h.value, h.row, h.closed, List.append_nil]
    rfl
  -- a blank line has one blank cell, which is not added to the rows
  | @blank rows white ending text hwhite hend _ ih =>
    have hplain : Plain { s with value := s.value ++ white } := ⟨h.quoted, h.skip⟩
    have hempty : ({ s with value := s.value ++ white } : Scan).line.rows = s.rows := by
      have hfilled : filled (s.row ++ [s.value ++ white]) = false := by
        rw [h.row, h.value]
        exact filled_of_blank fun c hc => (hwhite c hc).1
      show (if filled (s.row ++ [s.value ++ white]) then _ else s.rows) = s.rows
      rw [hfilled, if_neg Bool.false_ne_true]
    rw [run_ordinary h.toPlain h.closed hwhite.ordinary, run_rowEnd hplain hend,
      ih hplain.line hrows, hempty]
  | @last row text hrow =>
    have hnil : ([] : JsText).head? ≠ some (unit '"') := fun heq => by cases heq
    obtain ⟨s', hplain, hkept, hcells, hrun⟩ := run_row hrow h.opening h.value hnil
    rw [List.append_nil] at hrun
    have hfilled : filled (s'.row ++ [s'.value]) = true := by
      rw [hcells, h.row]
      exact hrows row List.mem_cons_self
    -- the last row has no end, and `finish` adds it where a cell was begun
    have hended : (isTruthy s'.value || !s'.row.isEmpty || s'.closed) = true := by
      by_contra hnot
      simp only [Bool.or_eq_true, not_or, Bool.not_eq_true', Bool.not_eq_false,
        List.isEmpty_iff, isTruthy] at hnot
      obtain ⟨⟨hvalue, hcells'⟩, -⟩ := hnot
      rw [hvalue, hcells'] at hfilled
      exact absurd hfilled (by decide)
    rw [hrun]
    show s'.finish = _
    rw [finish, hplain.quoted, if_neg Bool.false_ne_true, if_pos hended, line_rows, if_pos hfilled,
      hkept, hcells, h.row]
    rfl
  | @cons row rows text ending following hrow hend _ ih =>
    obtain ⟨s', hplain, hkept, hcells, hrun⟩ :=
      run_row hrow h.opening h.value (CellEnd.head?_ne (.inr hend))
    have hfilled : filled (s'.row ++ [s'.value]) = true := by
      rw [hcells, h.row]
      exact hrows row List.mem_cons_self
    -- after the row end the next row starts
    have hrest := ih hplain.line fun row' hrow' => hrows row' (List.mem_cons_of_mem row hrow')
    rw [hrun, run_rowEnd hplain hend, hrest, line_rows, if_pos hfilled, hkept, hcells, h.row,
      List.append_assoc]
    rfl

/-! ## The byte order mark -/

/-- A trimmed text does not open with white space. -/
theorem head_of_trimmed {text : JsText} (h : Trimmed text) {c : CodeUnit}
    (hc : text.head? = some c) : isWhite c = false := by
  cases text with
  | nil => cases hc
  | cons c' rest =>
    cases hc
    by_contra hwhite
    have hshort : (trim (c :: rest)).length ≤ rest.length := by
      rw [trim, List.length_reverse, List.dropWhile_cons, if_pos (Bool.eq_true_of_not_eq_false hwhite)]
      have hinner := (List.dropWhile_sublist isWhite (l := rest)).length_le
      have houter := (List.dropWhile_sublist isWhite
        (l := (rest.dropWhile isWhite).reverse)).length_le
      rw [List.length_reverse] at houter
      omega
    rw [show trim (c :: rest) = c :: rest from h, List.length_cons] at hshort
    omega

/-- A text does not start with a unit that neither of its parts starts with. -/
theorem head?_append_ne {text rest : JsText} {c : CodeUnit} (htext : text.head? ≠ some c)
    (hrest : rest.head? ≠ some c) : (text ++ rest).head? ≠ some c := by
  rw [List.head?_append]
  cases hhead : text.head? with
  | none => exact hrest
  | some c' => exact fun heq => htext (hhead.trans heq)

/-- A row end is no byte order mark. -/
theorem head?_rowEnd_ne {ending rest : JsText} (h : RowEnd dialect ending) :
    (ending ++ rest).head? ≠ some 0xFEFF := by
  cases h with
  | lf => exact fun heq => absurd (Option.some.inj heq) (by decide)
  | cr => exact fun heq => absurd (Option.some.inj heq) (by decide)
  | crlf => exact fun heq => absurd (Option.some.inj heq) (by decide)

/-- A trimmed cell does not start with the byte order mark, which is white space. -/
theorem head?_cellText_ne {cell text : JsText} (h : CellText dialect cell text)
    (htrimmed : Trimmed cell) : text.head? ≠ some 0xFEFF := by
  cases h with
  | plain _ => exact fun heq => absurd (head_of_trimmed htrimmed heq) (by decide)
  | quoted => exact fun heq => absurd (Option.some.inj heq) (by decide)

/-- A row of trimmed cells does not start with the byte order mark. -/
theorem head?_rowText_ne {row : List JsText} {text : JsText} (h : RowText dialect row text)
    (htrimmed : ∀ cell ∈ row, Trimmed cell) : text.head? ≠ some 0xFEFF := by
  cases h with
  | single hcell => exact head?_cellText_ne hcell (htrimmed _ List.mem_cons_self)
  | cons hcell _ =>
    apply head?_append_ne (head?_cellText_ne hcell (htrimmed _ List.mem_cons_self))
    exact fun heq => absurd (Option.some.inj heq) (by decide)

/-- One byte order mark is dropped, if the text starts with it. -/
theorem withoutMark_eq (text : JsText) :
    (text.head? ≠ some 0xFEFF ∧ withoutMark text = text)
      ∨ ∃ rest, text = 0xFEFF :: rest ∧ withoutMark text = rest := by
  cases text with
  | nil => exact .inl ⟨Option.some_ne_none _ ∘ Eq.symm, rfl⟩
  | cons c rest =>
    by_cases hc : c = 0xFEFF
    · rw [hc]
      exact .inr ⟨rest, rfl, rfl⟩
    · refine .inl ⟨fun heq => hc (Option.some.inj heq), ?_⟩
      unfold withoutMark
      split
      · rename_i rest' heq
        exact absurd (List.cons.inj heq).1 hc
      · rfl

/-- A mark that was stripped was white space of an empty line, if the names are trimmed. -/
theorem lines_withoutMark {rows : List (List JsText)} {text : JsText}
    (htext : LinesText dialect rows text)
    (htrimmed : ∀ row ∈ rows, ∀ cell ∈ row, Trimmed cell) :
    LinesText dialect rows (withoutMark text) := by
  rcases withoutMark_eq text with ⟨-, hsame⟩ | ⟨rest, hmark, hsame⟩
  · rw [hsame]
    exact htext
  rw [hsame]
  have hhead : text.head? = some 0xFEFF := by
    rw [hmark]
    rfl
  cases htext with
  | nil => cases hhead
  | @blank _ white ending following hwhite hend hrest =>
    cases white with
    | nil =>
      have hendHead : (ending ++ following).head? ≠ some 0xFEFF := head?_rowEnd_ne hend
      exact absurd hhead hendHead
    | cons c white =>
      have htail : rest = white ++ (ending ++ following) := (List.cons.inj hmark).2.symm
      rw [htail]
      exact .blank (fun c' hc' => hwhite c' (List.mem_cons_of_mem c hc')) hend hrest
  | last hrow => exact absurd hhead (head?_rowText_ne hrow (htrimmed _ List.mem_cons_self))
  | @cons row rows text ending following hrow hend _ =>
    have hrowHead : text.head? ≠ some 0xFEFF :=
      head?_rowText_ne hrow (htrimmed row List.mem_cons_self)
    have hendHead : (ending ++ following).head? ≠ some 0xFEFF := head?_rowEnd_ne hend
    exact absurd hhead (head?_append_ne hrowHead hendHead)

/-! ## Tables -/

/-- A table the page can import under these names. -/
structure Table (allowed required headers : List JsText) (rows : List (List JsText)) : Prop where
  distinct : headers.Nodup
  allowed : ∀ key ∈ headers, key ∈ allowed
  required : ∀ key ∈ required, key ∈ headers
  count : 1 ≤ rows.length ∧ rows.length ≤ 100
  width : ∀ row ∈ rows, row.length = headers.length
  trimmed : ∀ row ∈ rows, ∀ cell ∈ row, Trimmed cell
  filled : ∀ row ∈ rows, ∃ cell ∈ row, cell ≠ []

/-- The encodings of a table, with or without a byte order mark. -/
def Encodes (table : List (List JsText)) (text : JsText) : Prop :=
  ∃ body, LinesText dialect table body ∧ (text = body ∨ text = 0xFEFF :: body)

/-- A row with a cell that is not blank is filled. -/
theorem filled_of_mem {row : List JsText} {cell : JsText} (hcell : cell ∈ row)
    (htrimmed : Trimmed cell) (hne : cell ≠ []) : Scan.filled row = true := by
  refine List.any_eq_true.mpr ⟨cell, hcell, ?_⟩
  rw [htrimmed, isTruthy, Bool.not_eq_true', List.isEmpty_eq_false_iff]
  exact hne

section RoundTrip

variable {allowed required headers : List JsText} {rows : List (List JsText)}

/-- A table has headers. -/
theorem Table.headers_ne_nil (h : Table allowed required headers rows) : headers ≠ [] := by
  intro hnil
  obtain ⟨row, hrow⟩ := List.exists_mem_of_length_pos h.count.1
  obtain ⟨cell, hcell, -⟩ := h.filled row hrow
  have hwidth := h.width row hrow
  rw [hnil, List.length_nil, List.length_eq_zero_iff] at hwidth
  rw [hwidth] at hcell
  exact absurd hcell List.not_mem_nil

/-- Reading the rows of an encoded table. -/
theorem readRows_encoded (hnames : ∀ key ∈ allowed, Trimmed key ∧ key ≠ [])
    (h : Table allowed required headers rows) {text : JsText}
    (htext : Encodes (headers :: rows) text) :
    readRows (withoutMark text) = .ok (headers :: rows) := by
  have htrimmed : ∀ row ∈ headers :: rows, ∀ cell ∈ row, Trimmed cell := by
    refine List.forall_mem_cons.mpr ⟨fun key hkey => ?_, h.trimmed⟩
    exact (hnames key (h.allowed key hkey)).1
  have hfilled : ∀ row ∈ headers :: rows, Scan.filled row = true := by
    refine List.forall_mem_cons.mpr ⟨?_, fun row hrow => ?_⟩
    · obtain ⟨key, hkey⟩ := List.exists_mem_of_ne_nil headers h.headers_ne_nil
      obtain ⟨hkeyTrimmed, hne⟩ := hnames key (h.allowed key hkey)
      exact filled_of_mem hkey hkeyTrimmed hne
    · obtain ⟨cell, hcell, hne⟩ := h.filled row hrow
      exact filled_of_mem hcell (h.trimmed row hrow cell hcell) hne
  have hfresh : Fresh ({} : Scan) := ⟨⟨rfl, rfl⟩, rfl, rfl, rfl⟩
  obtain ⟨body, hbody, htext⟩ := htext
  rcases htext with rfl | rfl
  · exact run_lines (lines_withoutMark hbody htrimmed) hfresh hfilled
  · exact run_lines hbody hfresh hfilled

/-- Trimmed cells are read as they are. -/
theorem map_trim {row : List JsText} (h : ∀ cell ∈ row, Trimmed cell) : row.map trim = row :=
  (List.map_congr_left h).trans (List.map_id' row)

/-- A row becomes the record of its headers. -/
theorem record_eq (h : Table allowed required headers rows) {row : List JsText} (hrow : row ∈ rows)
    (index : ℕ) : record headers index row = .ok (headers.zip row) := by
  have hcells : row.map trim = row := map_trim (h.trimmed row hrow)
  rw [record, if_neg (not_not.mpr (h.width row hrow)), hcells]

/-- A table of at most 64K characters is imported as it is. -/
theorem parseCSV_encoded (hnames : ∀ key ∈ allowed, Trimmed key ∧ key ≠ [])
    (h : Table allowed required headers rows) {text : JsText}
    (htext : Encodes (headers :: rows) text) (hlength : text.length ≤ 64 * 1024) :
    parseCSV text allowed required = .ok (rows.map fun row => headers.zip row) := by
  have hheaders : headers.map trim = headers :=
    map_trim fun key hkey => (hnames key (h.allowed key hkey)).1
  have hsupported : ¬ (¬ headers.Nodup ∨ headers.any (fun key => !allowed.contains key) = true
      ∨ required.any (fun key => !headers.contains key) = true) := by
    rw [not_or, not_or, not_not]
    refine ⟨h.distinct, ?_, ?_⟩
    · rw [List.any_eq_true]
      intro hany
      obtain ⟨key, hkey, hmissing⟩ := hany
      rw [List.contains_iff_mem.mpr (h.allowed key hkey)] at hmissing
      cases hmissing
    · rw [List.any_eq_true]
      intro hany
      obtain ⟨key, hkey, hmissing⟩ := hany
      rw [List.contains_iff_mem.mpr (h.required key hkey)] at hmissing
      cases hmissing
  have hcount : ¬ (rows = [] ∨ 100 < rows.length) := by
    have hbounds := h.count
    rw [not_or, ← List.length_eq_zero_iff]
    omega
  have hrecords : (rows.zipIdx.mapM fun entry => record headers entry.2 entry.1)
      = .ok (rows.map fun row => headers.zip row) := by
    rw [Keyed.mapM_eq_ok]
    have hpairs : rows.map (fun row => headers.zip row)
        = rows.zipIdx.map fun entry => headers.zip entry.1 := by
      conv_lhs => rw [← List.zipIdx_map_fst 0 rows, List.map_map]
      rfl
    rw [hpairs, List.forall₂_map_right_iff, List.forall₂_same]
    intro entry hentry
    exact record_eq h (List.fst_mem_of_mem_zipIdx hentry) entry.2
  rw [parseCSV, if_neg (by omega), readRows_encoded hnames h htext]
  simp only [bind, Except.bind, List.head?_cons, Option.getD_some, List.tail_cons, hheaders]
  rw [if_neg hsupported, if_neg hcount]
  exact hrecords

end RoundTrip

/-! ## What is refused -/

/-- White space opens a cell like nothing. -/
theorem Opening.blank_append (h : Opening s) (hvalue : s.value = []) {w : JsText}
    (hw : Blank dialect w) : Opening { s with value := s.value ++ w } where
  quoted := h.quoted
  skip := h.skip
  closed := h.closed
  blank := by
    show ∀ c ∈ s.value ++ w, isWhite c = true
    rw [hvalue, List.nil_append]
    exact fun c hc => (hw c hc).1

/-- After every cell end another cell begins. -/
theorem run_cellEnd (h : Plain s) {ending : JsText} (hend : CellEnd dialect ending)
    (rest : JsText) : ∃ s', Opening s' ∧ s'.value = [] ∧ s.run (ending ++ rest) = s'.run rest := by
  rcases hend with hcomma | hend
  · refine ⟨s.cell, ⟨h.cell, rfl, fun c hc => absurd hc List.not_mem_nil⟩, rfl, ?_⟩
    rw [hcomma]
    exact run_comma h
  · exact ⟨s.line, h.line.opening, rfl, run_rowEnd h hend⟩

/-- A quoted cell after white space. -/
theorem run_quotedCell (h : Opening s) (hvalue : s.value = []) {before : JsText}
    (hbefore : Blank dialect before) (cell rest : JsText) (hnext : rest.head? ≠ some (unit '"')) :
    ∃ s', Plain s' ∧ s'.closed = true
      ∧ s.run (before ++ unit '"' :: (doubled dialect cell ++ unit '"' :: rest)) = s'.run rest := by
  have hopened : ({ s with value := [], quoted := true } : Scan).quoted = true := rfl
  have hread : ({ s with value := cell, quoted := true } : Scan).quoted = true := rfl
  have hskip : s.skip = false := h.skip
  refine ⟨{ s with value := cell, quoted := false, closed := true }, ⟨rfl, hskip⟩, rfl, ?_⟩
  rw [run_ordinary h.toPlain h.closed hbefore.ordinary, run_open (h.blank_append hvalue hbefore)]
  show ({ s with value := [], quoted := true } : Scan).run (doubled dialect cell ++ unit '"' :: rest)
    = _
  rw [run_doubled hopened hskip, List.nil_append]
  exact run_close hread hskip hnext

/-- What follows a closing quote, over the white space between. -/
theorem head?_after_ne {after rest : JsText} (hafter : Blank dialect after)
    (hrest : rest.head? ≠ some (unit '"')) : (after ++ rest).head? ≠ some (unit '"') := by
  cases after with
  | nil => exact hrest
  | cons c after =>
    have hc : c ≠ unit '"' := (hafter.ordinary c List.mem_cons_self).2.1
    exact fun heq => hc (Option.some.inj heq)

/-- The loop comes to the end of whole cells at the start of a cell. -/
theorem run_complete {text : JsText} (htext : Complete dialect text) (h : Fresh s)
    (rest : JsText) : ∃ s', Opening s' ∧ s'.value = [] ∧ s.run (text ++ rest) = s'.run rest := by
  induction htext generalizing rest with
  | nil => exact ⟨s, h.opening, h.value, rfl⟩
  | @plain text cell ending _ hcell hend ih =>
    obtain ⟨s', hopening, hvalue, hrun⟩ := ih (cell ++ (ending ++ rest))
    have hplain : Plain { s' with value := s'.value ++ cell } := ⟨hopening.quoted, hopening.skip⟩
    obtain ⟨s'', hopening', hvalue', hrun'⟩ := run_cellEnd hplain hend rest
    refine ⟨s'', hopening', hvalue', ?_⟩
    rw [List.append_assoc, List.append_assoc, hrun,
      run_ordinary hopening.toPlain hopening.closed hcell, hrun']
  | @quoted text before cell after ending _ hbefore hafter hend ih =>
    obtain ⟨s', hopening, hvalue, hrun⟩ :=
      ih (before ++ unit '"' :: (doubled dialect cell ++ unit '"' :: (after ++ (ending ++ rest))))
    obtain ⟨s'', hplain, hclosed, hrun'⟩ := run_quotedCell hopening hvalue hbefore cell
      (after ++ (ending ++ rest)) (head?_after_ne hafter hend.head?_ne)
    obtain ⟨s₃, hopening', hvalue', hrun''⟩ := run_cellEnd hplain hend rest
    refine ⟨s₃, hopening', hvalue', ?_⟩
    have hassoc : text ++ (before ++ unit '"' :: (doubled dialect cell ++ unit '"' ::
        (after ++ ending))) ++ rest = text ++ (before ++ unit '"' :: (doubled dialect cell
          ++ unit '"' :: (after ++ (ending ++ rest)))) := by
      simp only [List.append_assoc, List.cons_append]
    exact (congrArg s.run hassoc).trans (hrun.trans (hrun'.trans ((run_after hplain hclosed
      hafter).trans hrun'')))

/-- Reading a text that the loop refuses, or that ends between quotes. -/
theorem parseCSV_error {text : JsText} {allowed required : List JsText}
    (h : ∃ e, readRows (withoutMark text) = .error e) :
    ∃ e, parseCSV text allowed required = .error e := by
  obtain ⟨e, he⟩ := h
  by_cases hlength : 64 * 1024 < text.length
  · exact ⟨_, if_pos hlength⟩
  · refine ⟨e, ?_⟩
    rw [parseCSV, if_neg hlength, he]
    rfl

/-- A quote that is not closed. -/
theorem readRows_unclosed {before white cell : JsText} (hbefore : Complete dialect before)
    (hwhite : Blank dialect white) :
    ∃ e, readRows (before ++ (white ++ unit '"' :: doubled dialect cell)) = .error e := by
  have hfresh : Fresh ({} : Scan) := ⟨⟨rfl, rfl⟩, rfl, rfl, rfl⟩
  obtain ⟨s, hopening, hvalue, hrun⟩ :=
    run_complete hbefore hfresh (white ++ unit '"' :: doubled dialect cell)
  have hopened : ({ s with value := [], quoted := true } : Scan).quoted = true := rfl
  have hskip : s.skip = false := hopening.skip
  have hread : s.run (white ++ unit '"' :: doubled dialect cell)
      = .ok { s with value := cell, quoted := true } := by
    rw [run_ordinary hopening.toPlain hopening.closed hwhite.ordinary,
      run_open (hopening.blank_append hvalue hwhite)]
    have hbody : Scan.run _ (doubled dialect cell ++ []) = _ := run_doubled hopened hskip cell
    rw [List.append_nil, List.nil_append] at hbody
    exact hbody
  refine ⟨"Unclosed quote in CSV.", ?_⟩
  rw [readRows, hrun, hread]
  rfl

/-- Something other than white space after a closing quote. -/
theorem readRows_after {before white cell after : JsText} {c : CodeUnit} {rest : JsText}
    (hbefore : Complete dialect before) (hwhite : Blank dialect white)
    (hafter : Blank dialect after) (hc : isWhite c = false) (hcomma : c ≠ unit ',')
    (hquote : after = [] → c ≠ unit '"') :
    ∃ e, readRows (before ++ (white ++ unit '"' :: (doubled dialect cell ++ unit '"' ::
      (after ++ c :: rest)))) = .error e := by
  have hfresh : Fresh ({} : Scan) := ⟨⟨rfl, rfl⟩, rfl, rfl, rfl⟩
  have hnext : (after ++ c :: rest).head? ≠ some (unit '"') := by
    cases after with
    | nil => exact fun heq => hquote rfl (Option.some.inj heq)
    | cons c' after =>
      have hc' : c' ≠ unit '"' := (hafter.ordinary c' List.mem_cons_self).2.1
      exact fun heq => hc' (Option.some.inj heq)
  obtain ⟨s, hopening, hvalue, hrun⟩ := run_complete hbefore hfresh
    (white ++ unit '"' :: (doubled dialect cell ++ unit '"' :: (after ++ c :: rest)))
  obtain ⟨s', hplain, hclosed, hrun'⟩ :=
    run_quotedCell hopening hvalue hwhite cell (after ++ c :: rest) hnext
  have hstep : s'.step c rest.head? = .error "Unexpected text after a quoted CSV value." := by
    have hends : ¬ (c = unit '\n' ∨ c = unit '\r') := by
      intro hends
      rcases hends with heq | heq
      · exact absurd (heq ▸ hc) (by decide)
      · exact absurd (heq ▸ hc) (by decide)
    have htrim : isTruthy (trim [c]) = true := by
      have hsame : trim [c] = [c] := by
        simp [trim, hc]
      rw [hsame]
      rfl
    rw [step, hplain.skip, hplain.quoted, hclosed, htrim]
    simp only [Bool.false_eq_true, if_false, if_neg hcomma, if_neg hends, if_true]
  refine ⟨"Unexpected text after a quoted CSV value.", ?_⟩
  rw [readRows, hrun, hrun', run_after hplain hclosed hafter]
  show (do (← (do (← s'.step c rest.head?).run rest)).finish) = _
  rw [hstep]
  rfl

/-! ## The import -/

/-- The page reads every encoding of a table as the table, and refuses a text with a quote that is
not closed or with other characters than white space after a closing quote. -/
theorem csv_round_trip (allowed required : List JsText)
    (hnames : ∀ key ∈ allowed, Trimmed key ∧ key ≠ []) :
    (∀ (headers : List JsText) (rows : List (List JsText)) (text : JsText),
        Table allowed required headers rows → Encodes (headers :: rows) text →
        text.length ≤ 64 * 1024 →
        parseCSV text allowed required = .ok (rows.map fun row => headers.zip row))
      ∧ (∀ text before white cell : JsText, Complete dialect before → Blank dialect white →
        withoutMark text = before ++ (white ++ unit '"' :: doubled dialect cell) →
        ∃ e, parseCSV text allowed required = .error e)
      ∧ ∀ (text before white cell after rest : JsText) (c : CodeUnit), Complete dialect before →
        Blank dialect white → Blank dialect after → isWhite c = false → c ≠ unit ',' →
        (after = [] → c ≠ unit '"') →
        withoutMark text = before ++ (white ++ unit '"' :: (doubled dialect cell ++ unit '"' ::
          (after ++ c :: rest))) →
        ∃ e, parseCSV text allowed required = .error e := by
  refine ⟨?_, ?_, ?_⟩
  · intro headers rows text htable htext hlength
    exact parseCSV_encoded hnames htable htext hlength
  · intro text before white cell hbefore hwhite htext
    apply parseCSV_error
    rw [htext]
    exact readRows_unclosed hbefore hwhite
  · intro text before white cell after rest c hbefore hwhite hafter hc hcomma hquote htext
    apply parseCSV_error
    rw [htext]
    exact readRows_after hbefore hwhite hafter hc hcomma hquote

/-! ## Samples -/

namespace Sample

def text (s : String) : JsText := s.toList.map unit

/-- The fields of the vehicle catalogue. -/
def fields : List JsText := [text "brand", text "model"]

/-- One row, its first cell with a comma. -/
def rows : List (List JsText) := [[text "a,b", text "c"]]

/-- The sample cells are trimmed and not empty. -/
theorem cells : fields.Nodup ∧
    ∀ cell ∈ fields ++ [text "a,b", text "c"], Trimmed cell ∧ cell ≠ [] := by
  unfold Trimmed
  decide +kernel

/-- The sample names are trimmed and not empty. -/
theorem names : ∀ key ∈ fields, Trimmed key ∧ key ≠ [] :=
  fun key hkey => cells.2 key (List.mem_append_left _ hkey)

/-- The sample is a table. -/
theorem table : Table fields fields fields rows where
  distinct := cells.1
  allowed := fun _ hkey => hkey
  required := fun _ hkey => hkey
  count := by decide
  width := by
    intro row hrow
    rw [List.mem_singleton.mp hrow]
    rfl
  trimmed := by
    intro row hrow cell hcell
    rw [List.mem_singleton.mp hrow] at hcell
    exact (cells.2 cell (List.mem_append_right _ hcell)).1
  filled := by
    intro row hrow
    rw [List.mem_singleton.mp hrow]
    have hcell : text "a,b" ∈ fields ++ [text "a,b", text "c"] :=
      List.mem_append_right _ List.mem_cons_self
    exact ⟨text "a,b", List.mem_cons_self, (cells.2 _ hcell).2⟩

/-- A cell without commas, quotes and line ends may stand unquoted. -/
theorem plain {cell : JsText} (h : cell.all (fun c => c != unit ',' && c != unit '"'
    && c != unit '\r' && c != unit '\n') = true) : CellText dialect cell cell := by
  refine .plain fun c hc => ?_
  have hall := List.all_eq_true.mp h c hc
  simp only [Bool.and_eq_true, bne_iff_ne] at hall
  exact ⟨hall.1.1.1, hall.1.1.2, hall.1.2, hall.2⟩

/-- The sample text encodes the sample table. -/
theorem encodes : Encodes (fields :: rows) (text "brand,model\r\n\"a,b\",c") := by
  have hplain : ∀ cell ∈ fields ++ [text "c"], (cell.all fun c => c != unit ',' && c != unit '"'
      && c != unit '\r' && c != unit '\n') = true := by
    decide +kernel
  refine ⟨_, .cons (.cons (plain (hplain _ ?_)) (.single (plain (hplain _ ?_)))) .crlf
    (.last (.cons (.quoted _) (.single (plain (hplain _ ?_))))), .inl ?_⟩
  · exact List.mem_cons_self
  · exact List.mem_cons_of_mem _ List.mem_cons_self
  · exact List.mem_append_right _ List.mem_cons_self
  · decide +kernel

end Sample

/-- White space after a closing quote is passed over. -/
theorem space_after_quote_read :
    parseCSV (Sample.text "brand,model\n\"a\" ,b") Sample.fields Sample.fields
      = .ok [[(Sample.text "brand", Sample.text "a"), (Sample.text "model", Sample.text "b")]] := by
  decide +kernel

/-- A table with a comma in a cell, whose last row has no end, is read back. -/
theorem csv_round_trip_sample :
    parseCSV (Sample.text "brand,model\r\n\"a,b\",c") Sample.fields Sample.fields
      = .ok (Sample.rows.map fun row => Sample.fields.zip row) :=
  (csv_round_trip Sample.fields Sample.fields Sample.names).1 Sample.fields Sample.rows _
    Sample.table Sample.encodes (by decide +kernel)

end CsvImport

end FrappeController
