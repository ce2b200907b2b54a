import Calculator.Proofs.Source.Layout
import Calculator.Token.Table

/-!
# Reading tables back

A table pads its cells with spaces and never cuts or quotes them.  Since no cell is empty or has a
space or a newline in it, a row falls into its cells at the runs of spaces, however long they are,
and a table into the tokens that it lists.
-/

namespace Calculator
namespace Token

/-- The fields of a line: what lies between runs of spaces. -/
def fields (line : List Char) : List (List Char) :=
  (line.splitOn ' ').filter (· ≠ [])

/-- The cells of the row of a token. -/
def cells (token : Token) : List (List Char) :=
  [token.kind.name.toList, token.text.toList, Numeral.ofNat token.position.line,
    Numeral.ofNat token.position.column]

/-- The token with certain cells. -/
def ofCells? : List (List Char) → Option Token
  | [kind, text, line, column] => do
    let kind ← Kind.ofName? (.ofList kind)
    let line ← Numeral.toNat? line
    let column ← Numeral.toNat? column
    return ⟨kind, .ofList text, ⟨line, column⟩⟩
  | _ => none

/-- Reads the rows of a table, which stand between a header and the end of the last line. -/
def ofTable? (table : List Char) : Option (List Token) :=
  (table.splitOn '\n').tail.dropLast.mapM fun row => ofCells? (fields row)

/-- A text can be found again in a padded row. -/
structure IsCell (text : List Char) : Prop where
  nonempty : text ≠ []
  noSpace : ' ' ∉ text
  noNewline : '\n' ∉ text

/-- A line consists of cells with spaces between them. -/
structure IsRow (cells : List (List Char)) (row : List Char) : Prop where
  /-- Runs of spaces separate the cells. -/
  fields_eq : fields row = cells
  /-- The first cell begins the line. -/
  begins : row.head? ≠ some ' '
  /-- The last cell ends it. -/
  ends : row.getLast? ≠ some ' '
  noNewline : '\n' ∉ row

theorem fields_append_space (left right : List Char) :
    fields (left ++ ' ' :: right) = fields left ++ fields right := by
  simp only [fields, List.splitOn_append_cons_self, List.filter_append]

theorem IsCell.fields_eq {text : List Char} (cell : IsCell text) : fields text = [text] := by
  rw [fields, List.splitOn_eq_singleton cell.noSpace]
  simp [cell.nonempty]

theorem fields_replicate_append (count : Nat) (line : List Char) :
    fields (List.replicate count ' ' ++ line) = fields line := by
  induction count with
  | zero => rfl
  | succ count induction =>
      rw [List.replicate_succ, List.cons_append, ← List.nil_append (' ' :: _),
        fields_append_space, induction]
      rfl

theorem fields_append_replicate (line : List Char) (count : Nat) :
    fields (line ++ List.replicate count ' ') = fields line := by
  cases count with
  | zero => rw [List.replicate_zero, List.append_nil]
  | succ count =>
      have spaces := fields_replicate_append count []
      rw [List.append_nil] at spaces
      rw [List.replicate_succ, fields_append_space, spaces]
      exact List.append_nil _

theorem fields_leftpad (width : Nat) (text : List Char) :
    fields (text.leftpad width ' ') = fields text :=
  fields_replicate_append _ _

theorem fields_rightpad (width : Nat) (text : List Char) :
    fields (text.rightpad width ' ') = fields text :=
  fields_append_replicate _ _

section Rows

variable {kind text line column : List Char}

/-- A line with four cells, however long they are, is a row of them. -/
theorem exists_row (kindCell : IsCell kind) (textCell : IsCell text) (lineCell : IsCell line)
    (columnCell : IsCell column) :
    ∃ row, tableLine kind text line column = row ++ ['\n'] ∧
      IsRow [kind, text, line, column] row := by
  refine ⟨_, rfl, ?fields, ?begins, ?ends, ?oneLine⟩
  case fields =>
    simp only [List.append_assoc, List.cons_append, fields_append_space, fields_leftpad,
      fields_rightpad, kindCell.fields_eq, textCell.fields_eq, lineCell.fields_eq,
      columnCell.fields_eq, List.nil_append]
  case begins =>
    obtain ⟨first, others, rfl⟩ := List.exists_cons_of_ne_nil kindCell.nonempty
    intro space
    obtain rfl : first = ' ' := by simpa [List.rightpad] using space
    exact kindCell.noSpace List.mem_cons_self
  case ends =>
    -- The last column is set to the right: no padding stands behind it.
    intro space
    have last : column.getLast? = some ' ' := by
      rw [← List.dropLast_concat_getLast columnCell.nonempty] at space ⊢
      simpa [List.leftpad, List.getLast?_append, List.getLast?_cons] using space
    exact columnCell.noSpace (List.mem_of_getLast? last)
  case oneLine =>
    simp [List.rightpad, List.leftpad, kindCell.noNewline, textCell.noNewline,
      lineCell.noNewline, columnCell.noNewline]

theorem isCell_ofNat (n : Nat) : IsCell (Numeral.ofNat n) := by
  have digits := List.all_eq_true.mp (Numeral.all_isDigit_ofNat n)
  refine ⟨Numeral.ofNat_ne_nil n, fun space => ?_, fun newline => ?_⟩
  · cases digits _ space
  · cases digits _ newline

theorem isCell_name (kind : Kind) : IsCell kind.name.toList := by
  have solid : ∀ kind ∈ Kind.all,
      kind.name.toList ≠ [] ∧ ' ' ∉ kind.name.toList ∧ '\n' ∉ kind.name.toList := by decide
  obtain ⟨nonempty, noSpace, noNewline⟩ := solid kind kind.mem_all
  exact ⟨nonempty, noSpace, noNewline⟩

theorem isCell_text {source : String} {token : Token} (member : token ∈ tokens source) :
    IsCell token.text.toList := by
  obtain ⟨rest, lexeme⟩ := exists_lexeme_of_mem_tokens member
  exact ⟨lexeme.text_ne_nil, fun space => (lexeme.solid _ space).1 rfl,
    lexeme.solid.newline_not_mem⟩

end Rows

theorem exists_header : ∃ header, tableHeader = header ++ ['\n'] ∧
    IsRow ["KIND".toList, "TEXT".toList, "LINE".toList, "COLUMN".toList] header :=
  exists_row ⟨by decide, by decide, by decide⟩ ⟨by decide, by decide, by decide⟩
    ⟨by decide, by decide, by decide⟩ ⟨by decide, by decide, by decide⟩

theorem exists_row_of_token {token : Token} (cell : IsCell token.text.toList) :
    ∃ row, tableRow token = row ++ ['\n'] ∧ IsRow token.cells row :=
  exists_row (isCell_name token.kind) cell (isCell_ofNat _) (isCell_ofNat _)

theorem exists_rows {listed : List Token} (solid : ∀ token ∈ listed, IsCell token.text.toList) :
    ∃ rows, listed.flatMap tableRow = rows.flatMap (· ++ ['\n']) ∧
      List.Forall₂ IsRow (listed.map cells) rows := by
  induction listed with
  | nil => exact ⟨[], rfl, .nil⟩
  | cons token listed induction =>
      obtain ⟨here, later⟩ := List.forall_mem_cons.mp solid
      obtain ⟨row, row_eq, isRow⟩ := exists_row_of_token here
      obtain ⟨rows, rows_eq, areRows⟩ := induction later
      refine ⟨row :: rows, ?_, .cons isRow areRows⟩
      rw [List.flatMap_cons, List.flatMap_cons, row_eq, rows_eq]

theorem splitOn_newline_of_rows {cells : List (List (List Char))} {rows : List (List Char)}
    (areRows : List.Forall₂ IsRow cells rows) :
    (rows.flatMap (· ++ ['\n'])).splitOn '\n' = rows ++ [[]] := by
  induction areRows with
  | nil => rfl
  | cons isRow _ induction =>
      rw [List.flatMap_cons, List.append_assoc, List.singleton_append,
        List.splitOn_append_cons_self_of_not_mem isRow.noNewline, induction]
      rfl

theorem ofCells?_cells (token : Token) : ofCells? token.cells = some token := by
  simp [ofCells?, cells, Kind.ofName?_name]

theorem mapM_ofCells? {listed : List Token} {rows : List (List Char)}
    (areRows : List.Forall₂ IsRow (listed.map cells) rows) :
    rows.mapM (fun row => ofCells? (fields row)) = some listed := by
  induction listed generalizing rows with
  | nil =>
      cases areRows
      rfl
  | cons token listed induction =>
      cases areRows with
      | cons isRow areRows =>
          rw [List.mapM_cons, isRow.fields_eq, ofCells?_cells, induction areRows]
          rfl

/-- The lines of a table are its header and one row for each token but the end marker, from which
these tokens are read back. -/
theorem exists_rows_of_table {list : List Token}
    (solid : ∀ token ∈ list.filter (·.kind ≠ .special .endOfInput), IsCell token.text.toList) :
    ∃ header rows, (table list).splitOn '\n' = header :: rows ++ [[]] ∧
      IsRow ["KIND".toList, "TEXT".toList, "LINE".toList, "COLUMN".toList] header ∧
      List.Forall₂ IsRow ((list.filter (·.kind ≠ .special .endOfInput)).map cells) rows ∧
      ofTable? (table list) = some (list.filter (·.kind ≠ .special .endOfInput)) := by
  obtain ⟨header, header_eq, isHeader⟩ := exists_header
  obtain ⟨rows, rows_eq, areRows⟩ := exists_rows solid
  have lines : (table list).splitOn '\n' = header :: rows ++ [[]] := by
    rw [table, header_eq, rows_eq]
    exact splitOn_newline_of_rows (.cons isHeader areRows)
  refine ⟨header, rows, lines, isHeader, areRows, ?_⟩
  rw [ofTable?, lines]
  simp [mapM_ofCells? areRows]

end Token
end Calculator
