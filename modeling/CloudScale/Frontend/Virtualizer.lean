/-
  The rows that a long table renders (`hooks/useVirtualizer.ts` and
  `components/data/VirtualDataTable.tsx`), in exact arithmetic.

  `virtualItems_cover`: whatever the scroll position, also one before the first row or behind the
  last, the items are consecutive rows, every row that can be seen is among them, and there are not
  many more. `virtualRows_visible`: the table renders what can be seen of its data.
-/
import Mathlib.Algebra.Order.Floor.Ring
import Mathlib.Data.List.Chain
import Mathlib.Data.List.Range
import Mathlib.Data.Rat.Floor
import Mathlib.Order.Interval.Set.Defs
import Mathlib.Tactic.Linarith

namespace CloudScale.Frontend

structure VirtualizerOptions where
  itemCount : ℕ
  itemHeight : ℚ
  overscan : ℕ := 5

/-- The state of the hook. -/
structure Viewport where
  scrollTop : ℚ
  containerHeight : ℚ

structure VirtualItem where
  index : ℤ
  offsetTop : ℚ
  height : ℚ

structure Virtualizer where
  virtualItems : List VirtualItem
  totalHeight : ℚ
  startIndex : ℤ
  endIndex : ℤ

def itemAt (itemHeight : ℚ) (i : ℤ) : VirtualItem :=
  { index := i, offsetTop := i * itemHeight, height := itemHeight }

/-- The loop from `i` on. -/
def pushItems (itemHeight : ℚ) (endIndex i : ℤ) : List VirtualItem :=
  if i ≤ endIndex then itemAt itemHeight i :: pushItems itemHeight endIndex (i + 1) else []
termination_by (endIndex + 1 - i).toNat

section Hook

variable (o : VirtualizerOptions) (v : Viewport)

def startIndex : ℤ := max 0 (⌊v.scrollTop / o.itemHeight⌋ - o.overscan)

def endIndex : ℤ :=
  min (o.itemCount - 1) (⌊(v.scrollTop + v.containerHeight) / o.itemHeight⌋ + o.overscan)

def virtualItems : List VirtualItem := pushItems o.itemHeight (endIndex o v) (startIndex o v)

def useVirtualizer : Virtualizer where
  virtualItems := virtualItems o v
  totalHeight := o.itemCount * o.itemHeight
  startIndex := ((virtualItems o v).head?.map (·.index)).getD 0
  endIndex := ((virtualItems o v).getLast?.map (·.index)).getD 0

/-- Row `i` meets the viewport. -/
def Visible (i : ℤ) : Prop :=
  ∃ y ∈ Set.Ico (i * o.itemHeight) ((i + 1) * o.itemHeight),
    y ∈ Set.Ico v.scrollTop (v.scrollTop + v.containerHeight)

end Hook

/-- The rows that `VirtualDataTable` renders, each with its item. -/
def virtualRows {T : Type} (sorted : List T) (rowHeight : ℚ) (v : Viewport) :
    List (T × VirtualItem) :=
  (useVirtualizer { itemCount := sorted.length, itemHeight := rowHeight } v).virtualItems.filterMap
    fun item => (sorted[item.index.toNat]?).map fun row => (row, item)

theorem pushItems_eq (itemHeight : ℚ) (endIndex i : ℤ) :
    pushItems itemHeight endIndex i =
      (List.range (endIndex + 1 - i).toNat).map fun k : ℕ => itemAt itemHeight (i + k) := by
  induction hn : (endIndex + 1 - i).toNat generalizing i with
  | zero =>
    rw [pushItems, if_neg (by omega)]
    rfl
  | succ n ih =>
    have hrest := ih (i + 1) (by omega)
    rw [pushItems, if_pos (by omega), hrest, List.range_succ_eq_map]
    simp only [List.map_cons, List.map_map, Nat.cast_zero, add_zero]
    refine congrArg _ (List.map_congr_left fun k _ => congrArg _ ?_)
    show i + 1 + (k : ℤ) = i + ((k + 1 : ℕ) : ℤ)
    omega

section Cover

variable {o : VirtualizerOptions} {v : Viewport}

theorem mem_virtualItems {item : VirtualItem} : item ∈ virtualItems o v ↔
    ∃ i, (startIndex o v ≤ i ∧ i ≤ endIndex o v) ∧ item = itemAt o.itemHeight i := by
  unfold virtualItems
  rw [pushItems_eq, List.mem_map]
  constructor
  · rintro ⟨k, hk, rfl⟩
    have := List.mem_range.mp hk
    exact ⟨startIndex o v + k, by omega, rfl⟩
  · rintro ⟨i, hi, rfl⟩
    refine ⟨(i - startIndex o v).toNat, List.mem_range.mpr (by omega), congrArg _ ?_⟩
    omega

theorem mem_index {i : ℤ} : i ∈ (virtualItems o v).map (·.index) ↔
    startIndex o v ≤ i ∧ i ≤ endIndex o v := by
  simp only [List.mem_map, mem_virtualItems]
  constructor
  · rintro ⟨_, ⟨j, hj, rfl⟩, rfl⟩
    exact hj
  · exact fun hi => ⟨_, ⟨i, hi, rfl⟩, rfl⟩

theorem length_virtualItems :
    (virtualItems o v).length = (endIndex o v + 1 - startIndex o v).toNat := by
  rw [virtualItems, pushItems_eq, List.length_map, List.length_range]

/-- A row that can be seen is between the first and the last row of the viewport. -/
theorem Visible.between {i : ℤ} (h : Visible o v i) (hitem : 0 < o.itemHeight) :
    ⌊v.scrollTop / o.itemHeight⌋ ≤ i ∧
      i ≤ ⌊(v.scrollTop + v.containerHeight) / o.itemHeight⌋ := by
  obtain ⟨y, ⟨hlow, hhigh⟩, htop, hbottom⟩ := h
  constructor
  · have hlt : v.scrollTop / o.itemHeight < ((i + 1 : ℤ) : ℚ) := by
      rw [div_lt_iff₀ hitem]
      push_cast
      exact htop.trans_lt hhigh
    exact Int.lt_add_one_iff.mp (Int.floor_lt.mpr hlt)
  · rw [Int.le_floor, le_div_iff₀ hitem]
    exact hlow.trans hbottom.le

/-- The rows of the viewport, a part of the first and of the last included. -/
theorem floor_sub_floor_le (o : VirtualizerOptions) (v : Viewport) :
    ((⌊(v.scrollTop + v.containerHeight) / o.itemHeight⌋ : ℚ) -
      ⌊v.scrollTop / o.itemHeight⌋) ≤ v.containerHeight / o.itemHeight + 1 := by
  have hbottom := Int.floor_le ((v.scrollTop + v.containerHeight) / o.itemHeight)
  have htop := Int.lt_floor_add_one (v.scrollTop / o.itemHeight)
  have hsplit := add_div v.scrollTop v.containerHeight o.itemHeight
  linarith

theorem length_le (hcontainer : 0 ≤ v.containerHeight) (hitem : 0 < o.itemHeight) :
    ((virtualItems o v).length : ℚ) ≤
      v.containerHeight / o.itemHeight + 2 * o.overscan + 2 := by
  have hspan : ((virtualItems o v).length : ℤ) ≤
      max 0 (⌊(v.scrollTop + v.containerHeight) / o.itemHeight⌋ -
        ⌊v.scrollTop / o.itemHeight⌋ + 2 * o.overscan + 1) := by
    rw [length_virtualItems]
    unfold startIndex endIndex
    omega
  have hnonneg : 0 ≤ v.containerHeight / o.itemHeight := div_nonneg hcontainer hitem.le
  have hoverscan : (0 : ℚ) ≤ o.overscan := Nat.cast_nonneg _
  rcases le_max_iff.mp hspan with hempty | hrows
  · have hzero : ((virtualItems o v).length : ℚ) ≤ 0 := by exact_mod_cast hempty
    linarith
  · have hrows : ((virtualItems o v).length : ℚ) ≤
        ⌊(v.scrollTop + v.containerHeight) / o.itemHeight⌋ - ⌊v.scrollTop / o.itemHeight⌋ +
          2 * o.overscan + 1 := by exact_mod_cast hrows
    have hfloor := floor_sub_floor_le o v
    linarith

theorem isChain_index : ((virtualItems o v).map (·.index)).IsChain fun i j => j = i + 1 := by
  rw [virtualItems, pushItems_eq, List.isChain_map, List.isChain_map, List.isChain_range]
  intro k _
  show startIndex o v + ((k + 1 : ℕ) : ℤ) = startIndex o v + k + 1
  omega

/-- A row of the table that can be seen has an item. -/
theorem mem_of_visible (hitem : 0 < o.itemHeight) {i : ℤ} (hlow : 0 ≤ i)
    (hhigh : i ≤ (o.itemCount : ℤ) - 1) (h : Visible o v i) :
    itemAt o.itemHeight i ∈ virtualItems o v := by
  obtain ⟨htop, hbottom⟩ := h.between hitem
  refine mem_virtualItems.mpr ⟨i, ?_, rfl⟩
  unfold startIndex endIndex
  omega

end Cover

/-- The items are consecutive rows of the table, every row that can be seen is one of them, and
    they are at most those of the viewport and the overscan on both sides, and two. -/
theorem virtualItems_cover (o : VirtualizerOptions) (v : Viewport) (hitem : 0 < o.itemHeight)
    (hcontainer : 0 ≤ v.containerHeight) :
    (((useVirtualizer o v).virtualItems.map (·.index)).IsChain fun i j => j = i + 1) ∧
      (∀ i ∈ (useVirtualizer o v).virtualItems.map (·.index), 0 ≤ i ∧ i ≤ (o.itemCount : ℤ) - 1) ∧
      (∀ i : ℤ, 0 ≤ i → i ≤ o.itemCount - 1 → Visible o v i →
        i ∈ (useVirtualizer o v).virtualItems.map (·.index)) ∧
      ((useVirtualizer o v).virtualItems.length : ℚ) ≤
        v.containerHeight / o.itemHeight + 2 * o.overscan + 2 := by
  refine ⟨isChain_index, fun i hi => ?_, fun i hlow hhigh hvisible => ?_,
    length_le hcontainer hitem⟩
  · obtain ⟨hstart, hend⟩ := mem_index.mp hi
    unfold startIndex at hstart
    unfold endIndex at hend
    omega
  · exact List.mem_map_of_mem (mem_of_visible hitem hlow hhigh hvisible)

/-- A list of three rows, scrolled to its second one. -/
theorem virtualItems_cover_three : ∃ i ∈ ((useVirtualizer ⟨3, 52, 0⟩ ⟨60, 40⟩).virtualItems.map
      (·.index)), Visible ⟨3, 52, 0⟩ ⟨60, 40⟩ i := by
  have hvisible : Visible ⟨3, 52, 0⟩ ⟨60, 40⟩ 1 := by
    refine ⟨60, ⟨?_, ?_⟩, ⟨?_, ?_⟩⟩ <;> norm_num
  have hcover := virtualItems_cover ⟨3, 52, 0⟩ ⟨60, 40⟩ (by norm_num) (by norm_num)
  exact ⟨1, hcover.2.2.1 1 (by norm_num) (by norm_num) hvisible, hvisible⟩

/-- Every row of the sorted data that can be seen is rendered, at its place. -/
theorem virtualRows_visible {T : Type} (sorted : List T) {rowHeight : ℚ} (v : Viewport)
    (hrow : 0 < rowHeight) {i : ℕ} (hi : i < sorted.length)
    (h : Visible { itemCount := sorted.length, itemHeight := rowHeight } v i) :
    (sorted[i], itemAt rowHeight i) ∈ virtualRows sorted rowHeight v := by
  have hlast : (i : ℤ) ≤ (sorted.length : ℤ) - 1 := by omega
  have hitem := mem_of_visible hrow (Int.natCast_nonneg i) hlast h
  refine List.mem_filterMap.mpr ⟨_, hitem, ?_⟩
  show (sorted[(i : ℤ).toNat]?).map (fun row => (row, itemAt rowHeight i)) = _
  rw [Int.toNat_natCast, List.getElem?_eq_getElem hi]
  rfl

end CloudScale.Frontend
