import Mathlib.Data.List.Basic

/-!
# Comma-separated text

The encodings of a table as RFC 4180 has them, over any alphabet: a cell as it is or between quotes,
cells separated by commas, rows by row ends, and lines of white space anywhere between the rows.
`Complete` is the wider class of texts that end at the start of a cell, white space around quoted
cells included.
-/

namespace DelimitedText

/-- The characters with a meaning. -/
structure Dialect (α : Type) where
  comma : α
  quote : α
  cr : α
  lf : α
  white : α → Bool
  comma_ne_quote : comma ≠ quote
  cr_ne_quote : cr ≠ quote
  lf_ne_quote : lf ≠ quote
  cr_ne_comma : cr ≠ comma
  lf_ne_comma : lf ≠ comma
  white_comma : white comma = false
  white_quote : white quote = false

variable {α : Type} [DecidableEq α] (D : Dialect α)

/-- A character that stands for itself outside quotes. -/
def Ordinary (c : α) : Prop := c ≠ D.comma ∧ c ≠ D.quote ∧ c ≠ D.cr ∧ c ≠ D.lf

/-- White space within a line. -/
def Blank (w : List α) : Prop := ∀ c ∈ w, D.white c = true ∧ c ≠ D.cr ∧ c ≠ D.lf

/-- A character between quotes. -/
def quoted (c : α) : List α := if c = D.quote then [D.quote, D.quote] else [c]

/-- A cell between quotes, without them. -/
def doubled (cell : List α) : List α := cell.flatMap (quoted D)

/-- What ends a row. -/
inductive RowEnd : List α → Prop
  | lf : RowEnd [D.lf]
  | cr : RowEnd [D.cr]
  | crlf : RowEnd [D.cr, D.lf]

/-- The encodings of a cell. -/
inductive CellText : List α → List α → Prop
  | plain {cell : List α} (h : ∀ c ∈ cell, Ordinary D c) : CellText cell cell
  | quoted (cell : List α) : CellText cell (D.quote :: (doubled D cell ++ [D.quote]))

/-- The encodings of a row. -/
inductive RowText : List (List α) → List α → Prop
  | single {cell text : List α} (h : CellText D cell text) : RowText [cell] text
  | cons {cell text : List α} {row : List (List α)} {rest : List α} (h : CellText D cell text)
      (hrest : RowText row rest) : RowText (cell :: row) (text ++ D.comma :: rest)

/-- The encodings of rows; the last need not be ended. -/
inductive LinesText : List (List (List α)) → List α → Prop
  | nil : LinesText [] []
  | blank {rows : List (List (List α))} {white ending text : List α} (hwhite : Blank D white)
      (hend : RowEnd D ending) (hrest : LinesText rows text) :
      LinesText rows (white ++ (ending ++ text))
  | last {row : List (List α)} {text : List α} (h : RowText D row text) : LinesText [row] text
  | cons {row : List (List α)} {rows : List (List (List α))} {text ending rest : List α}
      (h : RowText D row text) (hend : RowEnd D ending) (hrest : LinesText rows rest) :
      LinesText (row :: rows) (text ++ (ending ++ rest))

/-- What ends a cell. -/
def CellEnd (ending : List α) : Prop := ending = [D.comma] ∨ RowEnd D ending

/-- Texts that are at the start of a cell where they end. -/
inductive Complete : List α → Prop
  | nil : Complete []
  | plain {text cell ending : List α} (h : Complete text) (hcell : ∀ c ∈ cell, Ordinary D c)
      (hend : CellEnd D ending) : Complete (text ++ (cell ++ ending))
  | quoted {text before cell after ending : List α} (h : Complete text) (hbefore : Blank D before)
      (hafter : Blank D after) (hend : CellEnd D ending) :
      Complete (text ++ (before ++ D.quote :: (doubled D cell ++ D.quote :: (after ++ ending))))

variable {D}

@[simp] theorem doubled_nil : doubled D [] = [] := rfl

@[simp] theorem doubled_cons (c : α) (cell : List α) :
    doubled D (c :: cell) = quoted D c ++ doubled D cell := rfl

omit [DecidableEq α] in
/-- White space stands for itself. -/
theorem Blank.ordinary {w : List α} (h : Blank D w) : ∀ c ∈ w, Ordinary D c := by
  intro c hc
  obtain ⟨hwhite, hcr, hlf⟩ := h c hc
  refine ⟨?_, ?_, hcr, hlf⟩
  · intro hcomma
    exact absurd (D.white_comma.symm.trans (hcomma ▸ hwhite)) Bool.false_ne_true
  · intro hquote
    exact absurd (D.white_quote.symm.trans (hquote ▸ hwhite)) Bool.false_ne_true

omit [DecidableEq α] in
/-- A row end does not open with a quote, nor does a comma. -/
theorem CellEnd.head?_ne {ending rest : List α} (h : CellEnd D ending) :
    (ending ++ rest).head? ≠ some D.quote := by
  rcases h with hcomma | hend
  · rw [hcomma]
    exact fun heq => D.comma_ne_quote (Option.some.inj heq)
  · cases hend with
    | lf => exact fun heq => D.lf_ne_quote (Option.some.inj heq)
    | cr => exact fun heq => D.cr_ne_quote (Option.some.inj heq)
    | crlf => exact fun heq => D.cr_ne_quote (Option.some.inj heq)

end DelimitedText
