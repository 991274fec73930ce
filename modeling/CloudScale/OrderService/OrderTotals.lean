/-
  The total of an order and its lines, as they are stored (`create_order` in
  `order/app/service.py`, the columns of `order/app/models.py`).

  The total is the sum of the unrounded lines and is rounded to two places when it is stored; so is
  each price, on its own. What the two differ by is what the prices have beyond their cents, as
  often as the quantities say (`excess`).

  `total_matches_iff`: the stored total is that of the stored lines exactly if the excess is below
  half a cent. For prices of more than twenty places the arithmetic itself rounds, which moves the
  bounds by no more than a unit of the twentieth place for each item; `order_decides` shows that
  between them the order of the items decides. `total_matches_cents`: prices in whole cents always
  match.
-/
import CloudScale.OrderService.Handlers

namespace CloudScale.OrderService

open CloudScale.Lib CloudScale.Shared

/-! ## Storing -/

/-- A value of a column `Numeric(10, 2)`, in units of its last place. -/
def cents (x : ℚ) : ℤ := roundAway (100 * x)

/-- The value that is stored. -/
def stored (x : ℚ) : ℚ := cents x / 100

/-- `quantity` times the stored `unit_price`, over the stored lines. -/
def storedLines (items : List OrderItemCreate) : ℚ :=
  (items.map fun i => (i.quantity : ℚ) * stored i.unitPrice).sum

/-- The stored total is the sum over the stored lines. -/
def TotalMatches (payload : OrderCreate) : Prop :=
  stored (totalAmount payload.items) = storedLines payload.items

/-! ## What the prices have beyond their cents -/

/-- What is left of a price without its cents, and negative where they are rounded up. -/
def beyondCents (price : ℚ) : ℚ := Int.fract (100 * price + 1 / 2) / 100 - 1 / 200

/-- The same over all items, as often as the quantities say. -/
def excess (items : List OrderItemCreate) : ℚ :=
  (items.map fun i => (i.quantity : ℚ) * beyondCents i.unitPrice).sum

/-- The excess is below half a cent (or just that, downwards), with a margin. -/
def BelowHalfCent (margin : ℚ) (items : List OrderItemCreate) : Prop :=
  -1 / 200 + margin ≤ excess items ∧ excess items < 1 / 200 - margin

/-- Every price has at most twenty decimal places. -/
def TwentyPlaces (items : List OrderItemCreate) : Prop :=
  ∀ i ∈ items, ∃ k : ℕ, i.unitPrice = k / 10 ^ 20

/-- A unit of the twentieth place for each item. -/
def margin (items : List OrderItemCreate) : ℚ := items.length / 10 ^ 20

variable {items : List OrderItemCreate}

theorem sub_stored {price : ℚ} (h : 0 ≤ price) : price - stored price = beyondCents price := by
  unfold stored cents roundAway beyondCents
  rw [if_pos (by linarith), Int.fract]
  ring

theorem storedLines_eq : storedLines items =
    (items.map fun i => (i.quantity : ℚ) * i.unitPrice).sum - excess items := by
  induction items with
  | nil => simp [storedLines, excess]
  | cons i items ih =>
    have hprice := sub_stored i.unitPrice_pos.le
    simp only [storedLines, excess, List.map_cons, List.sum_cons] at ih ⊢
    rw [ih, ← hprice]
    ring

/-- The stored lines are a whole number of cents. -/
theorem storedLines_cents (items : List OrderItemCreate) :
    ∃ n : ℤ, storedLines items = n / 100 := by
  induction items with
  | nil => exact ⟨0, by simp [storedLines]⟩
  | cons i items ih =>
    obtain ⟨n, hn⟩ := ih
    refine ⟨i.quantity * cents i.unitPrice + n, ?_⟩
    simp only [storedLines, List.map_cons, List.sum_cons] at hn ⊢
    rw [hn]
    unfold stored
    push_cast
    ring

/-! ## The errors of the arithmetic -/

/-- The errors of the operations of the sum. -/
def contextErrors : ℚ → List OrderItemCreate → ℚ
  | _, [] => 0
  | total, i :: items =>
    let next := decimalContext.round (total + i.line)
    (i.line - (i.quantity : ℚ) * i.unitPrice) + (next - (total + i.line)) + contextErrors next items

/-- The sum without rounding. -/
def exactTotal (items : List OrderItemCreate) : ℚ :=
  (items.map fun i => (i.quantity : ℚ) * i.unitPrice).sum

theorem sumFrom_eq (total : ℚ) :
    sumFrom total items = total + exactTotal items + contextErrors total items := by
  induction items generalizing total with
  | nil => simp [sumFrom, exactTotal, contextErrors]
  | cons i items ih =>
    show sumFrom (decimalContext.round (total + i.line)) items = _
    rw [ih]
    simp only [exactTotal, contextErrors, List.map_cons, List.sum_cons]
    ring

theorem amount_nonneg (i : OrderItemCreate) : 0 ≤ (i.quantity : ℚ) * i.unitPrice :=
  (mul_pos (Int.cast_pos.mpr i.quantity_pos) i.unitPrice_pos).le

theorem line_nonneg (i : OrderItemCreate) : 0 ≤ i.line :=
  decimalContext.round_nonneg (amount_nonneg i)

theorem sumFrom_nonneg {total : ℚ} (htotal : 0 ≤ total) : 0 ≤ sumFrom total items := by
  induction items generalizing total with
  | nil => exact htotal
  | cons i items ih => exact ih (decimalContext.round_nonneg (add_nonneg htotal (line_nonneg i)))

theorem totalAmount_nonneg (items : List OrderItemCreate) : 0 ≤ totalAmount items :=
  sumFrom_nonneg le_rfl

/-- A value that does not fit is not rounded to one that does. -/
theorem bound_le_round {x : ℚ} (h : numericBound ≤ x) :
    numericBound ≤ decimalContext.round x := by
  have hpos : 0 < x := lt_of_lt_of_le (by norm_num [numericBound]) h
  have hscaled : ((99999999995 : ℤ) : ℚ) * (decimalContext.base : ℚ) ^ (-3 : ℤ) = numericBound := by
    norm_num [decimalContext, numericBound]
  rw [← hscaled] at h ⊢
  exact decimalContext.le_round (by norm_num [decimalContext]) (by decide) hpos h

/-- A sum that has reached the bound stays there. -/
theorem bound_le_sumFrom {total : ℚ} (h : numericBound ≤ total) :
    numericBound ≤ sumFrom total items := by
  induction items generalizing total with
  | nil => exact h
  | cons i items ih =>
    exact ih (bound_le_round (h.trans (le_add_of_nonneg_right (line_nonneg i))))

/-- What the sum goes through fits if the sum does. -/
theorem lt_of_sum_lt {total : ℚ} {i : OrderItemCreate} (htotal : 0 ≤ total)
    (h : sumFrom total (i :: items) < numericBound) :
    (i.quantity : ℚ) * i.unitPrice < numericBound ∧ total + i.line < numericBound := by
  have hnext : total + i.line < numericBound := not_le.mp fun hle => by
    have hsum : numericBound ≤ sumFrom (decimalContext.round (total + i.line)) items :=
      bound_le_sumFrom (bound_le_round hle)
    exact not_le.mpr h hsum
  refine ⟨not_le.mp fun hle => not_le.mpr hnext ?_, hnext⟩
  exact (bound_le_round hle).trans (le_add_of_nonneg_left htotal)

/-- Below the bound the digits of the context reach to the twentieth place. -/
theorem abs_round_sub_le_place {x : ℚ} (hx : 0 ≤ x) (hlt : x < numericBound) :
    |decimalContext.round x - x| ≤ 1 / 10 ^ 20 / 2 := by
  have hsmall : |x| < (decimalContext.base : ℚ) ^ (decimalContext.precision + (-20 : ℤ)) := by
    have hbound : numericBound < 10 ^ (8 : ℤ) := by norm_num [numericBound]
    rw [abs_of_nonneg hx]
    exact hlt.trans hbound
  have h := decimalContext.abs_round_sub_le_zpow hsmall (by decide)
  have hplace : (decimalContext.base : ℚ) ^ (-20 : ℤ) = 1 / 10 ^ 20 := by
    norm_num [decimalContext]
  rwa [hplace] at h

/-- Each item contributes the errors of two operations. -/
theorem abs_contextErrors_le {total : ℚ} (htotal : 0 ≤ total)
    (h : sumFrom total items < numericBound) : |contextErrors total items| ≤ margin items := by
  induction items generalizing total with
  | nil => simp [contextErrors, margin]
  | cons i items ih =>
    obtain ⟨hamount, hnext⟩ := lt_of_sum_lt htotal h
    have hsum : 0 ≤ total + i.line := add_nonneg htotal (line_nonneg i)
    have hline : |i.line - (i.quantity : ℚ) * i.unitPrice| ≤ 1 / 10 ^ 20 / 2 :=
      abs_round_sub_le_place (amount_nonneg i) hamount
    have hround := abs_round_sub_le_place hsum hnext
    have hrest := ih (decimalContext.round_nonneg hsum) h
    have hmargin : margin (i :: items) = 1 / 10 ^ 20 + margin items := by
      unfold margin
      rw [List.length_cons]
      push_cast
      ring
    rw [hmargin]
    have habs := (abs_add_le (i.line - (i.quantity : ℚ) * i.unitPrice +
      (decimalContext.round (total + i.line) - (total + i.line)))
      (contextErrors (decimalContext.round (total + i.line)) items)).trans
      (add_le_add_left (abs_add_le _ _) _)
    exact habs.trans (by linarith)

/-- A value of at most twenty places that fits is not rounded. -/
theorem round_places {m : ℕ} (h : (m : ℚ) / 10 ^ 20 < numericBound) :
    decimalContext.round (m / 10 ^ 20) = m / 10 ^ 20 := by
  have hm : (m : ℚ) < 10 ^ 28 := by
    rw [div_lt_iff₀ (by positivity)] at h
    exact h.trans (by norm_num [numericBound])
  have hsmall : |(m : ℤ)| < decimalContext.base ^ decimalContext.precision := by
    rw [Nat.abs_cast]
    exact_mod_cast hm
  have hround := decimalContext.round_scaled hsmall (show -1000026 ≤ (-20 : ℤ) by decide)
  have hplace : (decimalContext.base : ℚ) ^ (-20 : ℤ) = (10 ^ 20)⁻¹ := by
    norm_num [decimalContext]
  rwa [hplace, ← div_eq_mul_inv, Int.cast_natCast] at hround

/-- The sum over prices of twenty places is exact. -/
theorem contextErrors_eq_zero (n : ℕ) (hplaces : TwentyPlaces items)
    (h : sumFrom (n / 10 ^ 20) items < numericBound) :
    contextErrors (n / 10 ^ 20) items = 0 := by
  induction items generalizing n with
  | nil => rfl
  | cons i items ih =>
    obtain ⟨⟨k, hk⟩, hitems⟩ := List.forall_mem_cons.mp hplaces
    obtain ⟨hamount, hnext⟩ := lt_of_sum_lt (by positivity) h
    -- the line, in units of the twentieth place
    obtain ⟨m, hm⟩ : ∃ m : ℕ, (i.quantity : ℚ) * i.unitPrice = m / 10 ^ 20 := by
      have hquantity : ((i.quantity.toNat : ℕ) : ℚ) = i.quantity := by
        exact_mod_cast Int.toNat_of_nonneg i.quantity_pos.le
      refine ⟨i.quantity.toNat * k, ?_⟩
      rw [hk, Nat.cast_mul, hquantity, mul_div_assoc]
    have hline : i.line = m / 10 ^ 20 := by
      unfold OrderItemCreate.line
      rw [hm] at hamount ⊢
      exact round_places hamount
    have hsum : (n : ℚ) / 10 ^ 20 + i.line = ((n + m : ℕ) : ℚ) / 10 ^ 20 := by
      rw [hline, ← add_div, Nat.cast_add]
    rw [hsum] at hnext
    have hround : decimalContext.round (n / 10 ^ 20 + i.line) = ((n + m : ℕ) : ℚ) / 10 ^ 20 := by
      rw [hsum, round_places hnext]
    have hfold : sumFrom (((n + m : ℕ) : ℚ) / 10 ^ 20) items < numericBound := by
      rw [← hround]
      exact h
    simp only [contextErrors, hround, ih (n + m) hitems hfold]
    rw [hsum, hline, hm]
    ring

/-! ## The main result -/

/-- Half a cent from the stored lines, the stored total is another one. -/
theorem total_matches_errors (payload : OrderCreate) : TotalMatches payload ↔
    -1 / 200 ≤ excess payload.items + contextErrors 0 payload.items ∧
      excess payload.items + contextErrors 0 payload.items < 1 / 200 := by
  obtain ⟨n, hn⟩ := storedLines_cents payload.items
  have htotal : 0 ≤ 100 * totalAmount payload.items :=
    mul_nonneg (by norm_num) (totalAmount_nonneg payload.items)
  have hsum : totalAmount payload.items = n / 100 + excess payload.items +
      contextErrors 0 payload.items := by
    have hlines : storedLines payload.items = exactTotal payload.items - excess payload.items :=
      storedLines_eq
    rw [hn] at hlines
    unfold totalAmount
    rw [sumFrom_eq, hlines]
    ring
  have hcents : TotalMatches payload ↔ cents (totalAmount payload.items) = n := by
    unfold TotalMatches stored
    rw [hn, div_left_inj' (by norm_num), Int.cast_inj]
  rw [hcents, cents, roundAway_eq_iff htotal, hsum]
  constructor
  · rintro ⟨hle, hlt⟩
    constructor <;> linarith
  · rintro ⟨hle, hlt⟩
    constructor <;> linarith

theorem matches_of_twenty {payload : OrderCreate} (hplaces : TwentyPlaces payload.items)
    (hfits : totalAmount payload.items < numericBound) :
    TotalMatches payload ↔ BelowHalfCent 0 payload.items := by
  have hzero := contextErrors_eq_zero 0 hplaces (by simpa [totalAmount] using hfits)
  simp only [Nat.cast_zero, zero_div] at hzero
  rw [total_matches_errors, hzero, add_zero, BelowHalfCent, add_zero, sub_zero]

/-- The stored total is that of the stored lines if and only if the prices have less than half a
    cent beyond their cents; with more than twenty places, up to a margin. -/
theorem total_matches_iff (payload : OrderCreate)
    (hfits : fitsNumeric (totalAmount payload.items) = true) :
    (TwentyPlaces payload.items → (TotalMatches payload ↔ BelowHalfCent 0 payload.items)) ∧
      (BelowHalfCent (margin payload.items) payload.items → TotalMatches payload) ∧
      (TotalMatches payload → BelowHalfCent (-margin payload.items) payload.items) := by
  have hlt : totalAmount payload.items < numericBound :=
    (fitsNumeric_iff (totalAmount_nonneg payload.items)).mp hfits
  have herrors := abs_le.mp (abs_contextErrors_le le_rfl hlt)
  refine ⟨fun hplaces => matches_of_twenty hplaces hlt, ?_, ?_⟩
  · rintro ⟨hle, hlt⟩
    exact (total_matches_errors payload).mpr ⟨by linarith [herrors.1], by linarith [herrors.2]⟩
  · intro hmatches
    obtain ⟨hle, hlt⟩ := (total_matches_errors payload).mp hmatches
    exact ⟨by linarith [herrors.2], by linarith [herrors.1]⟩

theorem beyondCents_cents (k : ℤ) : beyondCents (k / 100) = 0 := by
  unfold beyondCents
  rw [mul_div_cancel₀ _ (by norm_num), Int.fract_intCast_add, Int.fract_eq_self.mpr (by norm_num)]
  norm_num

/-- Prices in whole cents have nothing beyond, and the total matches. -/
theorem total_matches_cents (payload : OrderCreate)
    (hprices : ∀ i ∈ payload.items, ∃ k : ℕ, i.unitPrice = k / 100)
    (hfits : totalAmount payload.items < numericBound) : TotalMatches payload := by
  have hplaces : TwentyPlaces payload.items := by
    intro i hi
    obtain ⟨k, hk⟩ := hprices i hi
    refine ⟨k * 10 ^ 18, hk.trans ?_⟩
    push_cast
    ring
  have hexcess : excess payload.items = 0 := by
    refine List.sum_eq_zero fun x hx => ?_
    obtain ⟨i, hi, rfl⟩ := List.mem_map.mp hx
    obtain ⟨k, hk⟩ := hprices i hi
    rw [hk, ← Int.cast_natCast, beyondCents_cents, mul_zero]
  rw [matches_of_twenty hplaces hfits, BelowHalfCent, hexcess]
  norm_num

/-! ## Three items -/

theorem key_min : 10 ≤ "checkout-1".length := Nat.le_refl 10

/-- A price of 21 places, just below one of three. -/
def longPrice (thousandths : ℕ) : ℚ := (thousandths * 10 ^ 18 - 3) / 10 ^ 21

theorem longPrice_pos : 0 < longPrice 1002 ∧ 0 < longPrice 1003 := by norm_num [longPrice]

theorem expensive_pos : (0 : ℚ) < 10000000 := by norm_num

def expensiveItem : OrderItemCreate where
  productId := 1
  quantity := 1
  unitPrice := 10000000
  quantity_pos := Int.one_pos
  unitPrice_pos := expensive_pos

def firstLamp : OrderItemCreate where
  productId := 2
  quantity := 1
  unitPrice := longPrice 1002
  quantity_pos := Int.one_pos
  unitPrice_pos := longPrice_pos.1

def secondLamp : OrderItemCreate where
  productId := 3
  quantity := 1
  unitPrice := longPrice 1003
  quantity_pos := Int.one_pos
  unitPrice_pos := longPrice_pos.2

/-- The lamps after the expensive item. -/
def lampsLast : OrderCreate where
  items := [expensiveItem, firstLamp, secondLamp]
  idempotencyKey := "checkout-1"
  items_nonempty := List.cons_ne_nil _ _
  key_length := key_min

/-- The lamps before it. -/
def lampsFirst : OrderCreate where
  items := [firstLamp, secondLamp, expensiveItem]
  idempotencyKey := "checkout-1"
  items_nonempty := List.cons_ne_nil _ _
  key_length := key_min

theorem total_matches_iff_lamps :
    (TwentyPlaces lampsFirst.items → (TotalMatches lampsFirst ↔ BelowHalfCent 0 lampsFirst.items)) ∧
      (BelowHalfCent (margin lampsFirst.items) lampsFirst.items → TotalMatches lampsFirst) ∧
      (TotalMatches lampsFirst → BelowHalfCent (-margin lampsFirst.items) lampsFirst.items) :=
  total_matches_iff lampsFirst (by decide +kernel)

/-- With prices of 21 places the same items match in one order and not in the other. -/
theorem order_decides : lampsFirst.items.Perm lampsLast.items ∧ TotalMatches lampsFirst ∧
    ¬ TotalMatches lampsLast := by
  refine ⟨?_, ?_, ?_⟩
  · show ([firstLamp, secondLamp] ++ [expensiveItem]).Perm
      ([expensiveItem] ++ [firstLamp, secondLamp])
    exact List.perm_append_comm
  · show stored (totalAmount lampsFirst.items) = storedLines lampsFirst.items
    decide +kernel
  · show ¬ stored (totalAmount lampsLast.items) = storedLines lampsLast.items
    decide +kernel

/-! ## Three pieces -/

theorem threePieces_pos : (0 : ℤ) < 3 ∧ (0 : ℚ) < 1004 / 1000 := by norm_num

/-- Three pieces at 1.004 each. -/
def threePieces : OrderCreate where
  items := [{ productId := 1, quantity := 3, unitPrice := 1004 / 1000
              quantity_pos := threePieces_pos.1, unitPrice_pos := threePieces_pos.2 }]
  idempotencyKey := "checkout-1"
  items_nonempty := List.cons_ne_nil _ _
  key_length := key_min

/-- The stored total is not always that of the stored lines: 3.01, and three times 1.00. -/
theorem total_of_three : ¬ ∀ payload : OrderCreate, TotalMatches payload := by
  intro hevery
  have h : stored (totalAmount threePieces.items) = storedLines threePieces.items :=
    hevery threePieces
  revert h
  decide +kernel

end CloudScale.OrderService
