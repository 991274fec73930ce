/-
  The CSV export of the data table (`components/data/DataTable.tsx`).

  The cells are quoted and their double quotes doubled; the headers are joined as they are. The
  file is that of the headers and cells exactly if no header has a character that means something
  in it (`export_decodes_iff`). `price_header_split`: a header with a comma is two.
-/
import CloudScale.Frontend.DataTable
import CloudScale.Lib.Csv
import CloudScale.Lib.Substitution

namespace CloudScale.Frontend

open CloudScale.Lib

structure CsvColumn (T : Type) extends DataColumn T where
  header : String

/-- A data table with what its export reads as well. -/
structure CsvTable (T : Type) extends DataTable T where
  allColumns : List (CsvColumn T)
  columns_eq : columns = allColumns.map (·.toDataColumn)
  exportFilename : String := "export"

/-- What the browser is given to store. -/
structure Download where
  content : String
  type : String
  download : String

/-- A cell: `"${text.replace(/"/g, '""')}"`. -/
def quoted (text : String) : String :=
  "\"" ++ String.ofList (replaceAll '"' ['"', '"'] text.toList) ++ "\""

namespace CsvTable

variable {T : Type} (t : CsvTable T) (hiddenCols : List String) (s : TableState T)

def visibleColumns : List (CsvColumn T) := t.allColumns.filter fun c => decide (c.id ∉ hiddenCols)

def exportCSV : Download :=
  let headers := ",".intercalate ((t.visibleColumns hiddenCols).map (·.header))
  let rows := (t.sorted s).map fun row =>
    ",".intercalate ((t.visibleColumns hiddenCols).map fun c => quoted (c.text row))
  { content := headers ++ "\n" ++ "\n".intercalate rows
    type := "text/csv"
    download := t.exportFilename ++ ".csv" }

/-- The header record, and a record for each row shown. -/
def records : List (List (List Char)) :=
  (t.visibleColumns hiddenCols).map (·.header.toList) ::
    (t.sorted s).map fun row => (t.visibleColumns hiddenCols).map fun c => (c.text row).toList

/-- The file is that of the table. -/
def Decodes : Prop := Csv.Yields (t.exportCSV hiddenCols s).content.toList (t.records hiddenCols s)

end CsvTable

section Export

variable {T : Type} {t : CsvTable T} {hiddenCols : List String} {s : TableState T}

theorem toList_quoted (text : String) :
    (quoted text).toList = '"' :: (Csv.double text.toList ++ ['"']) := by
  unfold quoted
  rw [String.toList_append, String.toList_append]
  show ['"'] ++ (String.ofList (replaceAll _ _ _)).toList ++ ['"'] = _
  rw [String.toList_ofList]
  rfl

/-- The lines of the rows. -/
def rowLines (columns : List (CsvColumn T)) (rows : List T) : List (List Char) :=
  rows.map fun row => [','].intercalate (columns.map fun c => (quoted (c.text row)).toList)

theorem toList_content : (t.exportCSV hiddenCols s).content.toList =
    [','].intercalate ((t.visibleColumns hiddenCols).map (·.header.toList)) ++
      '\n' :: ['\n'].intercalate (rowLines (t.visibleColumns hiddenCols) (t.sorted s)) := by
  simp [CsvTable.exportCSV, rowLines, String.toList_append, String.toList_intercalate,
    Function.comp_def]

/-- The line of a row is a record of its cells, and not empty. -/
theorem record_line {columns : List (CsvColumn T)} (hc : columns ≠ []) (row : T) :
    Csv.Record ([','].intercalate (columns.map fun c => (quoted (c.text row)).toList))
        (columns.map fun c => (c.text row).toList) ∧
      [','].intercalate (columns.map fun c => (quoted (c.text row)).toList) ≠ [] ∧
      Csv.EndsInRecord ([','].intercalate (columns.map fun c => (quoted (c.text row)).toList)) := by
  have hfield : ∀ c : CsvColumn T,
      Csv.Field (quoted (c.text row)).toList (c.text row).toList := fun c => by
    rw [toList_quoted]
    exact .quoted _
  have hne : (columns.map fun c => (quoted (c.text row)).toList) ≠ [] :=
    mt List.map_eq_nil_iff.mp hc
  refine ⟨Csv.record_intercalate ?_ hne, Csv.endsInRecord_intercalate _ hne ?_⟩
  · rw [List.forall₂_map_left_iff, List.forall₂_map_right_iff, List.forall₂_same]
    exact fun c _ => hfield c
  · intro text htext
    obtain ⟨c, -, rfl⟩ := List.mem_map.mp htext
    refine ⟨?_, Csv.endsInRecord_of_field (hfield c)⟩
    rw [toList_quoted]
    exact List.cons_ne_nil _ _

/-- The lines of the rows are a file of the cells. -/
theorem file_rowLines {columns : List (CsvColumn T)} {rows : List T} (hc : columns ≠ [])
    (hr : rows ≠ []) :
    Csv.File (['\n'].intercalate (rowLines columns rows))
        (rows.map fun row => columns.map fun c => (c.text row).toList) ∧
      ['\n'].intercalate (rowLines columns rows) ≠ [] ∧
      Csv.EndsInRecord (['\n'].intercalate (rowLines columns rows)) := by
  have hne : rowLines columns rows ≠ [] := mt List.map_eq_nil_iff.mp hr
  refine ⟨Csv.file_intercalate ?_ hne, Csv.endsInRecord_intercalate _ hne ?_⟩
  · unfold rowLines
    rw [List.forall₂_map_left_iff, List.forall₂_map_right_iff, List.forall₂_same]
    exact fun row _ => (record_line hc row).1
  · intro line hline
    obtain ⟨row, -, rfl⟩ := List.mem_map.mp hline
    exact (record_line hc row).2

/-- The export is the file of its table as far as the parser reads it so. -/
theorem decodes_iff_parse (hc : t.visibleColumns hiddenCols ≠ []) (hr : t.sorted s ≠ []) :
    t.Decodes hiddenCols s ↔
      Csv.parse (t.exportCSV hiddenCols s).content.toList = some (t.records hiddenCols s) := by
  refine Csv.yields_iff ?_
  obtain ⟨-, hne, hends⟩ := file_rowLines hc hr
  rw [toList_content, List.append_cons]
  exact Csv.endsInRecord_append hne hends _

end Export

/-- For some visible columns and some rows the export is the file of the table exactly if no header
    has a comma, a double quote or a character of a line break. -/
theorem export_decodes_iff {T : Type} (t : CsvTable T) (hiddenCols : List String)
    (s : TableState T) (hc : t.visibleColumns hiddenCols ≠ []) (hr : t.sorted s ≠ []) :
    t.Decodes hiddenCols s ↔
      ∀ c ∈ t.visibleColumns hiddenCols, ∀ ch ∈ c.header.toList,
        ch ≠ ',' ∧ ch ≠ '"' ∧ ch ≠ '\r' ∧ ch ≠ '\n' := by
  simp only [← Csv.kind_eq_text]
  constructor
  · intro h
    obtain ⟨x, hx, hall⟩ := Option.map_eq_some_iff.mp ((decodes_iff_parse hc hr).mp h)
    rw [toList_content] at hx
    have hplain := Csv.plain_of_record hx (List.cons.inj hall).1
    exact fun c hmem => hplain _ (List.mem_map_of_mem hmem)
  · intro h
    have hheader : Csv.Record
        ([','].intercalate ((t.visibleColumns hiddenCols).map (·.header.toList)))
        ((t.visibleColumns hiddenCols).map (·.header.toList)) := by
      refine Csv.record_intercalate ?_ (mt List.map_eq_nil_iff.mp hc)
      rw [List.forall₂_same]
      intro text htext
      obtain ⟨c, hmem, rfl⟩ := List.mem_map.mp htext
      exact .plain (h c hmem)
    obtain ⟨hfile, hne, hends⟩ := file_rowLines hc hr
    rw [decodes_iff_parse hc hr, toList_content]
    refine Csv.parse_complete (.cons hheader .lf hfile) ?_
    rw [List.append_cons]
    exact Csv.endsInRecord_append hne hends _

/-- Products with their notes, the id hidden. -/
def noteTable : CsvTable (String × String) where
  columns := [{ id := "name", text := Prod.fst, sortText := Prod.fst },
    { id := "id", text := fun _ => "7", sortText := fun _ => "7" },
    { id := "note", text := Prod.snd, sortText := Prod.snd }]
  allColumns := [{ id := "name", text := Prod.fst, sortText := Prod.fst, header := "Name" },
    { id := "id", text := fun _ => "7", sortText := fun _ => "7", header := "Id, internal" },
    { id := "note", text := Prod.snd, sortText := Prod.snd, header := "Note (USD)" }]
  columns_eq := rfl
  data := [("Lamp, desk", "24\" wide"), ("Mug", "two\nlines"), ("", "")]
  toLowerCase := id
  localeCompare _ _ := 0

/-- Cells with a comma, double quotes and a line break are read as they are. -/
theorem export_decodes_notes : noteTable.Decodes ["id"] noteTable.start := by
  have hplain : ((noteTable.visibleColumns ["id"]).all fun c => c.header.toList.all fun ch =>
      decide (ch ≠ ',' ∧ ch ≠ '"' ∧ ch ≠ '\r' ∧ ch ≠ '\n')) = true := by decide +kernel
  refine (export_decodes_iff noteTable ["id"] noteTable.start (by decide +kernel)
    (by decide +kernel)).mpr ?_
  simpa only [List.all_eq_true, decide_eq_true_eq] using hplain

/-- A table with one price. -/
def priceTable (header : String) : CsvTable String where
  columns := [{ id := "price", text := id, sortText := id }]
  allColumns := [{ id := "price", text := id, sortText := id, header }]
  columns_eq := rfl
  data := ["5"]
  toLowerCase := id
  localeCompare _ _ := 0

/-- A header with a comma is read as two. -/
theorem price_header_split :
    Csv.parse
        ((priceTable "Price, USD").exportCSV [] (priceTable "Price, USD").start).content.toList =
        some [["Price".toList, " USD".toList], ["5".toList]] ∧
      ¬ (priceTable "Price, USD").Decodes [] (priceTable "Price, USD").start := by
  have hparse : Csv.parse
      ((priceTable "Price, USD").exportCSV [] (priceTable "Price, USD").start).content.toList =
        some [["Price".toList, " USD".toList], ["5".toList]] := by
    rw [toList_content]
    decide
  have hiff : (priceTable "Price, USD").Decodes [] (priceTable "Price, USD").start ↔ _ :=
    decodes_iff_parse (List.cons_ne_nil _ _) (List.cons_ne_nil _ _)
  refine ⟨hparse, fun h => ?_⟩
  have heq := hparse.symm.trans (hiff.mp h)
  exact absurd (Option.some.inj heq) (by decide)

end CloudScale.Frontend
