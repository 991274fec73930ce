/-
  The shopping cart and its figures (`stores/cartStore.ts` and `pages/Cart.tsx`).

  A price or another figure is a double, and each operation on doubles returns the nearest one to
  the exact result (`number`). Three things are idealised: there is no largest double, a quantity
  is an exact integer, and what the page shows of a figure is its cents (JavaScript writes the
  shortest decimal that reads as the double; for a figure that `parseFloat` made of two decimals it
  is these, up to fifteen digits).

  Discount, tax and total are each rounded to cents, from figures that are not. As long as the
  errors of the doubles stay small (`Bounded`) the rounded figures add up without the coupon. With
  it they do if the rounding of the discount and that of the tax make up for each other, which the
  subtotal in cents decides (`cart_adds_up`), unless a tenth of it is halfway between two cents:
  then the error of the doubles does (15 cents add up, 35 do not). For six cents they do not
  (`six_cents`). Every cart that the store can be brought to is one of those that this is about
  (`priced_of_reaches`).
-/
import CloudScale.Lib.Rounding
import CloudScale.Lib.Run

namespace CloudScale.Frontend

open CloudScale.Lib

/-! ## The store -/

/-- The double that a literal denotes, or that an operation with this exact result returns. -/
def number (x : ℚ) : ℚ := Format.binary64.round x

structure CartItem where
  productId : String
  sku : String
  name : String
  price : ℚ
  quantity : ℤ

structure CartState where
  items : List CartItem := []
  shippingCost : ℚ := number (999 / 100)
  taxRate : ℚ := number (8 / 100)
  couponCode : Option String := none
  discountValue : ℚ := 0

inductive CartAction where
  | addItem (productId sku name : String) (price : ℚ)
  | removeItem (productId : String)
  | updateQuantity (productId : String) (quantity : ℤ)
  | applyCoupon (code : String)
  | clearCart

namespace CartState

variable (s : CartState)

def addItem (productId sku name : String) (price : ℚ) : CartState :=
  match s.items.find? fun item => item.productId = productId with
  | some _ =>
    { s with
      items := s.items.map fun item =>
        if item.productId = productId then { item with quantity := item.quantity + 1 } else item }
  | none => { s with items := s.items ++ [{ productId, sku, name, price, quantity := 1 }] }

def removeItem (productId : String) : CartState :=
  { s with items := s.items.filter fun item => decide (item.productId ≠ productId) }

def updateQuantity (productId : String) (quantity : ℤ) : CartState :=
  if quantity ≤ 0 then s.removeItem productId
  else
    { s with
      items := s.items.map fun item =>
        if item.productId = productId then { item with quantity } else item }

def applyCoupon (toUpperCase : String → String) (code : String) : CartState :=
  if toUpperCase code = "CLOUDSCALE10" then
    { s with couponCode := some code, discountValue := number (1 / 10) }
  else { s with couponCode := none, discountValue := 0 }

def clearCart : CartState := { s with items := [], couponCode := none, discountValue := 0 }

def step (toUpperCase : String → String) : CartAction → Option CartState
  | .addItem productId sku name price => some (s.addItem productId sku name price)
  | .removeItem productId => some (s.removeItem productId)
  | .updateQuantity productId quantity => some (s.updateQuantity productId quantity)
  | .applyCoupon code => some (s.applyCoupon toUpperCase code)
  | .clearCart => some s.clearCart

end CartState

/-! ## Figures -/

/-- The cents of `x.toFixed(2)`. -/
def cents (x : ℚ) : ℤ := roundAway (100 * x)

/-- `x.toFixed(2)`. -/
def toFixed (x : ℚ) : ℚ := cents x / 100

def parseFloat (text : ℚ) : ℚ := number text

structure CartTotals where
  subtotal : ℚ
  discount : ℚ
  tax : ℚ
  total : ℚ

def subtotalOf (items : List CartItem) : ℚ :=
  items.foldl (fun acc item => number (acc + number (item.price * item.quantity))) 0

/-- The figures before they are rounded to cents. -/
def figures (s : CartState) : CartTotals :=
  let subtotal := subtotalOf s.items
  let discount := number (subtotal * s.discountValue)
  let taxableAmount := number (subtotal - discount)
  let tax := number (taxableAmount * s.taxRate)
  let total :=
    if 0 < subtotal then number (number (taxableAmount + tax) + s.shippingCost) else 0
  { subtotal, discount, tax, total }

def getCartTotals (s : CartState) : CartTotals :=
  let { subtotal, discount, tax, total } := figures s
  { subtotal := parseFloat (toFixed subtotal), discount := parseFloat (toFixed discount)
    tax := parseFloat (toFixed tax), total := parseFloat (toFixed total) }

/-- The decimals on the page; the discount is there when there is one. -/
structure CartPage where
  subtotal : ℚ
  discount : Option ℚ
  tax : ℚ
  shipping : ℚ
  total : ℚ

def cartPage (s : CartState) : CartPage :=
  let { subtotal, discount, tax, total } := getCartTotals s
  { subtotal := toFixed subtotal, discount := if 0 < discount then some (toFixed discount) else none
    tax := toFixed tax, shipping := 999 / 100, total := toFixed total }

/-- The figures returned add up in decimals, and so do those shown. -/
def AddsUp (s : CartState) : Prop :=
  toFixed (getCartTotals s).total = toFixed (getCartTotals s).subtotal -
      toFixed (getCartTotals s).discount + toFixed (getCartTotals s).tax +
      toFixed s.shippingCost ∧
    (cartPage s).total = (cartPage s).subtotal - (cartPage s).discount.getD 0 +
      (cartPage s).tax + (cartPage s).shipping

/-! ## Carts -/

/-- A positive price in whole cents. -/
def WholeCents (price : ℚ) : Prop := ∃ c : ℕ, 0 < c ∧ price = number (c / 100)

/-- Items at prices in whole cents, with or without the coupon. -/
structure Priced (s : CartState) : Prop where
  shipping : s.shippingCost = number (999 / 100)
  tax : s.taxRate = number (8 / 100)
  coupon : s.couponCode = none ∧ s.discountValue = 0 ∨
    s.couponCode.isSome ∧ s.discountValue = number (1 / 10)
  items : ∀ item ∈ s.items, WholeCents item.price ∧ 0 < item.quantity

def CartAction.WholeCents : CartAction → Prop
  | .addItem _ _ _ price => Frontend.WholeCents price
  | _ => True

theorem priced_empty : Priced {} where
  shipping := rfl
  tax := rfl
  coupon := .inl ⟨rfl, rfl⟩
  items := nofun

section Store

variable {s s' : CartState} {a : CartAction} {toUpperCase : String → String}

theorem Priced.withItems (h : Priced s) {items : List CartItem}
    (hitems : ∀ item ∈ items, WholeCents item.price ∧ 0 < item.quantity) :
    Priced { s with items } :=
  ⟨h.shipping, h.tax, h.coupon, hitems⟩

/-- A change of some items. -/
theorem Priced.mapItems (h : Priced s) {p : CartItem → Prop} [DecidablePred p]
    {f : CartItem → CartItem} (hf : ∀ item, 0 < item.quantity →
      (f item).price = item.price ∧ 0 < (f item).quantity) :
    Priced { s with items := s.items.map fun item => if p item then f item else item } := by
  refine h.withItems fun item' hmem => ?_
  obtain ⟨item, hitem, rfl⟩ := List.mem_map.mp hmem
  obtain ⟨hprice, hquantity⟩ := h.items item hitem
  split
  · rw [(hf item hquantity).1]
    exact ⟨hprice, (hf item hquantity).2⟩
  · exact ⟨hprice, hquantity⟩

theorem Priced.removeItem (h : Priced s) (productId : String) : Priced (s.removeItem productId) :=
  h.withItems fun item hitem => h.items item (List.mem_of_mem_filter hitem)

theorem priced_step (h : Priced s) (ha : a.WholeCents) (hstep : s.step toUpperCase a = some s') :
    Priced s' := by
  cases a with
  | addItem productId sku name price =>
    obtain rfl := Option.some.inj hstep
    unfold CartState.addItem
    split
    · exact h.mapItems fun item hquantity => ⟨rfl, Int.lt_add_one_iff.mpr hquantity.le⟩
    · refine h.withItems fun item hitem => ?_
      rcases List.mem_append.mp hitem with hitem | hnew
      · exact h.items item hitem
      · obtain rfl := List.mem_singleton.mp hnew
        exact ⟨ha, Int.one_pos⟩
  | removeItem productId =>
    obtain rfl := Option.some.inj hstep
    exact h.removeItem productId
  | updateQuantity productId quantity =>
    obtain rfl := Option.some.inj hstep
    unfold CartState.updateQuantity
    split
    · exact h.removeItem productId
    · next hquantity => exact h.mapItems fun item _ => ⟨rfl, not_le.mp hquantity⟩
  | applyCoupon code =>
    obtain rfl := Option.some.inj hstep
    unfold CartState.applyCoupon
    split
    · exact ⟨h.shipping, h.tax, .inr ⟨rfl, rfl⟩, h.items⟩
    · exact ⟨h.shipping, h.tax, .inl ⟨rfl, rfl⟩, h.items⟩
  | clearCart =>
    obtain rfl := Option.some.inj hstep
    exact ⟨h.shipping, h.tax, .inl ⟨rfl, rfl⟩, nofun⟩

/-- Whatever is done with the store, its cart is priced when what is added to it is. -/
theorem priced_of_reaches {actions : List CartAction}
    (h : Reaches (CartState.step · toUpperCase) (fun _ a => a.WholeCents) {} actions s) :
    Priced s :=
  h.invariant Priced priced_empty fun _ _ _ hs ha hstep => priced_step hs ha hstep

end Store

/-! ## Errors of the doubles -/

theorem epsilon_eq : Format.binary64.epsilon = 1 / 2 ^ 53 := by
  norm_num [Format.epsilon, Format.binary64]

/-- The error of a number, relative to a bound on it. -/
theorem number_le {x b : ℚ} (hx : |x| ≤ b) (hb : 1 / 100 ≤ b) : |number x - x| ≤ b / 2 ^ 53 := by
  have hdigits :
      (Format.binary64.base : ℚ) ^ (Format.binary64.etiny + Format.binary64.precision - 1)
      ≤ b := by
    have hpow : (2 : ℚ) ^ (-1022 : ℤ) ≤ 2 ^ (-7 : ℤ) := zpow_le_zpow_right₀ one_le_two (by decide)
    calc _ = (2 : ℚ) ^ (-1022 : ℤ) := rfl
      _ ≤ 2 ^ (-7 : ℤ) := hpow
      _ ≤ 1 / 100 := by norm_num
      _ ≤ b := hb
  have hround := Format.binary64.abs_round_sub_le_mul hx hdigits
  rw [epsilon_eq, one_div_mul_eq_div] at hround
  exact hround

section Operations

variable {x x' y y' d d' b e r rate : ℚ}

/-- The number is as near as its operands, and two errors of an operation. -/
theorem number_near (hcent : 1 / 100 ≤ b) (he : b / 2 ^ 53 ≤ e) (hclose : |x - y| ≤ d)
    (hy : 0 ≤ y) (hy' : y ≤ b) (hd : d ≤ b) : |number x - y| ≤ d + 2 * e := by
  have hx : |x| ≤ 2 * b := by
    have htri : |x| ≤ |x - y| + |y| := by simpa using abs_add_le (x - y) y
    rw [abs_of_nonneg hy] at htri
    linarith only [htri, hclose, hd, hy']
  have hnumber := number_le hx (by linarith only [hcent])
  rw [mul_div_assoc] at hnumber
  calc |number x - y| ≤ |number x - x| + |x - y| := abs_sub_le _ _ _
    _ ≤ 2 * e + d := add_le_add (hnumber.trans (by linarith only [he])) hclose
    _ = d + 2 * e := add_comm _ _

theorem number_add_near (hcent : 1 / 100 ≤ b) (he : b / 2 ^ 53 ≤ e) (hclose : |x - y| ≤ d)
    (hclose' : |x' - y'| ≤ d') (hy : 0 ≤ y + y') (hy' : y + y' ≤ b) (hd : d + d' ≤ b) :
    |number (x + x') - (y + y')| ≤ d + d' + 2 * e := by
  refine number_near hcent he ?_ hy hy' hd
  rw [add_sub_add_comm]
  exact (abs_add_le _ _).trans (add_le_add hclose hclose')

theorem number_sub_near (hcent : 1 / 100 ≤ b) (he : b / 2 ^ 53 ≤ e) (hclose : |x - y| ≤ d)
    (hclose' : |x' - y'| ≤ d') (hy : 0 ≤ y - y') (hy' : y - y' ≤ b) (hd : d + d' ≤ b) :
    |number (x - x') - (y - y')| ≤ d + d' + 2 * e := by
  refine number_near hcent he ?_ hy hy' hd
  rw [sub_sub_sub_comm]
  exact (abs_sub _ _).trans (add_le_add hclose hclose')

/-- A share of a figure, at a rate of a tenth or less. -/
theorem rate_near (he : b / 2 ^ 53 ≤ e) (hclose : |x - y| ≤ d) (hy : 0 ≤ y) (hy' : y ≤ b)
    (hr : 0 ≤ r) (hr' : r ≤ 1 / 10) (hrate : |rate - r| ≤ 1 / 2 ^ 53) :
    |x * rate - y * r| ≤ d / 5 + e := by
  have hsmall : |rate| ≤ 1 / 5 := by
    have h := abs_le.mp hrate
    rw [abs_le]
    constructor <;> linarith only [h.1, h.2, hr, hr']
  have hleft : |(x - y) * rate| ≤ d * (1 / 5) := by
    rw [abs_mul]
    exact mul_le_mul hclose hsmall (abs_nonneg _) ((abs_nonneg _).trans hclose)
  have hright : |y * (rate - r)| ≤ b * (1 / 2 ^ 53) := by
    rw [abs_mul, abs_of_nonneg hy]
    exact mul_le_mul hy' hrate (abs_nonneg _) (hy.trans hy')
  calc |x * rate - y * r| = |(x - y) * rate + y * (rate - r)| := by ring_nf
    _ ≤ |(x - y) * rate| + |y * (rate - r)| := abs_add_le _ _
    _ ≤ d * (1 / 5) + b * (1 / 2 ^ 53) := add_le_add hleft hright
    _ ≤ d / 5 + e := by linarith only [he]

theorem number_rate_near (hcent : 1 / 100 ≤ b) (he : b / 2 ^ 53 ≤ e) (hclose : |x - y| ≤ d)
    (hy : 0 ≤ y) (hy' : y ≤ b) (hd : d / 5 + e ≤ b) (hr : 0 ≤ r) (hr' : r ≤ 1 / 10)
    (hrate : |rate - r| ≤ 1 / 2 ^ 53) : |number (x * rate) - y * r| ≤ d / 5 + e + 2 * e :=
  number_near hcent he (rate_near he hclose hy hy' hr hr' hrate) (mul_nonneg hy hr)
    ((mul_le_of_le_one_right hy (hr'.trans (by norm_num))).trans hy') hd

end Operations

/-! ## Cents -/

/-- The subtotal in cents. -/
def subtotalCents (items : List CartItem) : ℤ :=
  (items.map fun item => cents item.price * item.quantity).sum

/-- The errors of the doubles stay below a 250th of a cent. -/
def Bounded (items : List CartItem) : Prop :=
  (items.length + 1) * (subtotalCents items + 1000) ≤ 10 ^ 12

instance (items : List CartItem) : Decidable (Bounded items) :=
  inferInstanceAs (Decidable (_ ≤ _))

/-- The double of a whole number of cents still has these. -/
theorem cents_number {c : ℤ} (hc : |c| ≤ 10 ^ 14) : cents (number (c / 100)) = c := by
  have hcq : |(c : ℚ)| ≤ 10 ^ 14 := by exact_mod_cast hc
  have hbound : |(c : ℚ) / 100| ≤ 10 ^ 12 := by
    rw [abs_div, abs_of_pos (by norm_num : (0 : ℚ) < 100), div_le_iff₀ (by norm_num)]
    linarith
  have hnumber := abs_le.mp (number_le hbound (by norm_num))
  refine roundAway_eq_of_abs_lt ?_
  rw [abs_lt]
  constructor <;> linarith [hnumber.1, hnumber.2]

theorem toFixed_parseFloat {x : ℚ} (hx : |cents x| ≤ 10 ^ 14) :
    toFixed (parseFloat (toFixed x)) = toFixed x := by
  have hcents : cents (parseFloat (toFixed x)) = cents x := cents_number hx
  unfold toFixed at hcents ⊢
  rw [hcents]

/-- A price has the cents that its double has. -/
structure CentPriced (item : CartItem) : Prop where
  price : item.price = number (cents item.price / 100)
  pos : 0 < cents item.price
  quantity : 0 < item.quantity

section Prices

variable {items : List CartItem} {price : ℚ}

theorem WholeCents.pos (h : WholeCents price) : 0 < cents price := by
  obtain ⟨c, hc, rfl⟩ := h
  have hcq : (1 : ℚ) ≤ c := by exact_mod_cast hc
  have hnumber := abs_le.mp (number_le (abs_of_nonneg (by linarith : (0 : ℚ) ≤ c / 100)).le
    (by linarith))
  have hround := abs_le.mp (abs_roundAway_sub_le (100 * number (c / 100)))
  have hpos : (0 : ℚ) < cents (number (c / 100)) := by
    unfold cents
    linarith [hnumber.1, hround.1]
  exact_mod_cast hpos

theorem WholeCents.eq_number (h : WholeCents price) (hcents : cents price ≤ 10 ^ 12) :
    price = number (cents price / 100) := by
  obtain ⟨c, hc, rfl⟩ := h
  have hcq : (1 : ℚ) ≤ c := by exact_mod_cast hc
  have hnumber := abs_le.mp (number_le (abs_of_nonneg (by linarith : (0 : ℚ) ≤ c / 100)).le
    (by linarith))
  have hround := abs_le.mp (abs_roundAway_sub_le (100 * number (c / 100)))
  have hcentsq : (cents (number (c / 100)) : ℚ) ≤ 10 ^ 12 := by exact_mod_cast hcents
  have hsmall : (c : ℚ) ≤ 10 ^ 14 := by
    unfold cents at hcentsq
    linarith [hnumber.1, hround.1]
  have hc' : |(c : ℤ)| ≤ 10 ^ 14 := by
    rw [abs_of_nonneg (Int.natCast_nonneg c)]
    exact_mod_cast hsmall
  have hcents' := cents_number hc'
  rw [Int.cast_natCast] at hcents'
  rw [hcents', Int.cast_natCast]

theorem subtotalCents_pos (hne : items ≠ [])
    (h : ∀ item ∈ items, WholeCents item.price ∧ 0 < item.quantity) : 0 < subtotalCents items := by
  unfold subtotalCents
  refine List.sum_pos _ (fun n hn => ?_) (mt List.map_eq_nil_iff.mp hne)
  obtain ⟨item, hitem, rfl⟩ := List.mem_map.mp hn
  obtain ⟨hprice, hquantity⟩ := h item hitem
  exact Int.mul_pos hprice.pos hquantity

theorem subtotalCents_le (h : ∀ item ∈ items, WholeCents item.price ∧ 0 < item.quantity)
    (hbound : Bounded items) : subtotalCents items + 1000 ≤ 10 ^ 12 := by
  have hnonneg : 0 ≤ subtotalCents items := by
    rcases eq_or_ne items [] with rfl | hne
    · exact le_rfl
    · exact (subtotalCents_pos hne h).le
  unfold Bounded at hbound
  nlinarith [Int.natCast_nonneg items.length]

theorem centPriced (h : ∀ item ∈ items, WholeCents item.price ∧ 0 < item.quantity)
    (hbound : Bounded items) : ∀ item ∈ items, CentPriced item := by
  intro item hitem
  obtain ⟨hprice, hquantity⟩ := h item hitem
  have hline : cents item.price * item.quantity ≤ subtotalCents items := by
    refine List.single_le_sum (fun n hn => ?_) _ (List.mem_map_of_mem hitem)
    obtain ⟨item', hitem', rfl⟩ := List.mem_map.mp hn
    exact (Int.mul_pos (h item' hitem').1.pos (h item' hitem').2).le
  have hcents : cents item.price ≤ cents item.price * item.quantity :=
    le_mul_of_one_le_right hprice.pos.le hquantity
  have hsub := subtotalCents_le h hbound
  exact ⟨hprice.eq_number (by omega), hprice.pos, hquantity⟩

end Prices

/-! ## The figures near the exact ones -/

section Near

variable {items : List CartItem} {b : ℚ}

/-- The line of an item. -/
theorem line_near {item : CartItem} (h : CentPriced item)
    (hb : (cents item.price * item.quantity : ℚ) / 100 ≤ b) :
    |number (item.price * item.quantity) - cents item.price * item.quantity / 100| ≤
      3 * (b / 2 ^ 53) := by
  have hcents : (1 : ℚ) ≤ cents item.price := by exact_mod_cast h.pos
  have hquantity : (1 : ℚ) ≤ item.quantity := by exact_mod_cast h.quantity
  have hline : (1 : ℚ) ≤ cents item.price * item.quantity := one_le_mul_of_one_le_of_one_le hcents
    hquantity
  have hprice : |item.price - cents item.price / 100| ≤ (cents item.price / 100 : ℚ) / 2 ^ 53 := by
    have h' := number_le (abs_of_nonneg (by linarith : (0 : ℚ) ≤ cents item.price / 100)).le
      (by linarith)
    rwa [← h.price] at h'
  have hclose : |item.price * item.quantity - cents item.price * item.quantity / 100| ≤
      b / 2 ^ 53 := by
    have hsplit : item.price * item.quantity - cents item.price * item.quantity / 100 =
        (item.price - cents item.price / 100) * item.quantity := by ring
    rw [hsplit, abs_mul, abs_of_pos (by linarith : (0 : ℚ) < item.quantity)]
    calc _ ≤ (cents item.price / 100 : ℚ) / 2 ^ 53 * item.quantity :=
          mul_le_mul_of_nonneg_right hprice (by linarith)
      _ = (cents item.price * item.quantity / 100 : ℚ) / 2 ^ 53 := by ring
      _ ≤ b / 2 ^ 53 := by gcongr
  have hnumber := number_near (by linarith) le_rfl hclose (by linarith) hb
    (div_le_self (by linarith) (by norm_num))
  linarith

/-- The running sum: each item adds the error of its line and that of the addition. -/
theorem foldl_near (hitems : ∀ item ∈ items, CentPriced item) {acc a d : ℚ} (hacc : |acc - a| ≤ d)
    (ha : 0 ≤ a) (hb : a + subtotalCents items / 100 ≤ b)
    (hd : d + 5 * items.length * (b / 2 ^ 53) ≤ b) (hcent : 1 / 100 ≤ b) :
    |items.foldl (fun acc item => number (acc + number (item.price * item.quantity))) acc -
        (a + subtotalCents items / 100)| ≤ d + 5 * items.length * (b / 2 ^ 53) := by
  induction items generalizing acc a d with
  | nil => simpa [subtotalCents] using hacc
  | cons item items ih =>
    obtain ⟨hitem, hrest⟩ := List.forall_mem_cons.mp hitems
    have hunit : 0 ≤ b / 2 ^ 53 := div_nonneg (by linarith) (by norm_num)
    have hsum : (subtotalCents (item :: items) : ℚ) =
        cents item.price * item.quantity + subtotalCents items := by
      simp [subtotalCents]
    have hcentsq : (0 : ℚ) < cents item.price := by exact_mod_cast hitem.pos
    have hquantityq : (0 : ℚ) < item.quantity := by exact_mod_cast hitem.quantity
    have hline : (0 : ℚ) < cents item.price * item.quantity := mul_pos hcentsq hquantityq
    have hnonneg : (0 : ℚ) ≤ subtotalCents items := by
      have h : 0 ≤ subtotalCents items := by
        refine List.sum_nonneg fun n hn => ?_
        obtain ⟨item', hitem', rfl⟩ := List.mem_map.mp hn
        exact (Int.mul_pos (hrest item' hitem').pos (hrest item' hitem').quantity).le
      exact_mod_cast h
    have hlength : (0 : ℚ) ≤ 5 * items.length * (b / 2 ^ 53) := by positivity
    rw [hsum] at hb ⊢
    rw [List.length_cons, Nat.cast_succ] at hd ⊢
    have hnear := line_near hitem (b := b) (by linarith)
    have hnext := number_add_near hcent le_rfl hacc hnear (by linarith) (by linarith) (by linarith)
    have htail := ih hrest (hnext.trans_eq (by ring : _ = d + 5 * (b / 2 ^ 53))) (by linarith)
      (by linarith) (by linarith)
    rw [List.foldl_cons]
    calc _ = |items.foldl (fun acc item => number (acc + number (item.price * item.quantity)))
            (number (acc + number (item.price * item.quantity))) -
          (a + cents item.price * item.quantity / 100 + subtotalCents items / 100)| := by
          congr 2
          ring
      _ ≤ d + 5 * (b / 2 ^ 53) + 5 * items.length * (b / 2 ^ 53) := htail
      _ = d + 5 * (items.length + 1) * (b / 2 ^ 53) := by ring

/-- From the subtotal on, `e` being the largest error of one operation. -/
theorem figures_near {s : CartState} (h : Priced s) {t r e : ℚ} (hr : 0 ≤ r) (hr' : r ≤ 1 / 10)
    (hrate : s.discountValue = number r) (ht : 1 / 100 ≤ t) (hb : 11 / 10 * t + 10 ≤ b)
    (he : b / 2 ^ 53 ≤ e) (hsmall : 22 * e < 1 / 100) (hsub : |subtotalOf s.items - t| ≤ 5 * e) :
    |(figures s).discount - t * r| ≤ 4 * e ∧
      |(figures s).tax - (t - t * r) * (8 / 100)| ≤ 6 * e ∧
      |(figures s).total - (t - t * r + (t - t * r) * (8 / 100) + 999 / 100)| ≤ 22 * e := by
  have hcent : (1 : ℚ) / 100 ≤ b := by linarith only [ht, hb]
  have hunit : 0 ≤ e := (div_nonneg (by linarith only [hcent]) (by norm_num)).trans he
  have hbelow : t ≤ b := by linarith only [ht, hb]
  have hnet : 0 ≤ t - t * r := sub_nonneg.mpr (mul_le_of_le_one_right (by linarith only [ht])
    (hr'.trans (by norm_num)))
  have hnet' : t - t * r ≤ t := sub_le_self t (mul_nonneg (by linarith only [ht]) hr)
  have hdiscountRate : |s.discountValue - r| ≤ 1 / 2 ^ 53 :=
    hrate ▸ number_le ((abs_of_nonneg hr).trans_le (hr'.trans (by norm_num))) (by norm_num)
  have htaxRate : |s.taxRate - 8 / 100| ≤ 1 / 2 ^ 53 :=
    h.tax ▸ number_le (by norm_num) (by norm_num)
  have hshipping : |s.shippingCost - 999 / 100| ≤ e := by
    rw [h.shipping]
    exact (number_le ((by norm_num : |(999 / 100 : ℚ)| ≤ 10).trans (by linarith only [ht, hb]))
      hcent).trans he
  have hdiscount : |(figures s).discount - t * r| ≤ 4 * e :=
    (number_rate_near hcent he hsub (by linarith only [ht]) hbelow
      (by linarith only [hsmall, ht, hbelow, hunit]) hr hr' hdiscountRate).trans_eq (by ring)
  have htaxable : |number (subtotalOf s.items - (figures s).discount) - (t - t * r)| ≤ 11 * e :=
    (number_sub_near hcent he hsub hdiscount hnet (hnet'.trans hbelow)
      (by linarith only [hsmall, ht, hbelow, hunit])).trans_eq (by ring)
  have htax : |(figures s).tax - (t - t * r) * (8 / 100)| ≤ 6 * e :=
    (number_rate_near hcent he htaxable hnet (hnet'.trans hbelow)
      (by linarith only [hsmall, ht, hbelow, hunit]) (by norm_num) (by norm_num) htaxRate).trans
      (by linarith only [hunit])
  refine ⟨hdiscount, htax, ?_⟩
  have hpos : 0 < subtotalOf s.items := by
    linarith only [(abs_le.mp hsub).1, hsmall, ht, hunit]
  have htotal : (figures s).total =
      number (number (number (subtotalOf s.items - (figures s).discount) + (figures s).tax) +
        s.shippingCost) := if_pos hpos
  have htaxed : |number (number (subtotalOf s.items - (figures s).discount) + (figures s).tax) -
      (t - t * r + (t - t * r) * (8 / 100))| ≤ 19 * e :=
    (number_add_near hcent he htaxable htax (by linarith only [hnet])
      (by linarith only [hnet', hb, ht]) (by linarith only [hsmall, ht, hbelow, hunit])).trans_eq
      (by ring)
  rw [htotal]
  exact (number_add_near hcent he htaxed hshipping (by linarith only [hnet])
    (by linarith only [hnet', hb, ht]) (by linarith only [hsmall, ht, hbelow, hunit])).trans_eq
    (by ring)

end Near

/-- The figures in cents are less than a 250th of a cent from the exact ones, with a discount at
    rate `r`. -/
structure FiguresNear (s : CartState) (n : ℤ) (r : ℚ) : Prop where
  subtotal : |100 * (figures s).subtotal - n| < 1 / 250
  discount : |100 * (figures s).discount - n * r| < 1 / 250
  tax : |100 * (figures s).tax - (n - n * r) * (8 / 100)| < 1 / 250
  total : |100 * (figures s).total - (n - n * r + (n - n * r) * (8 / 100) + 999)| < 1 / 250

theorem abs_cents_lt {x y e z : ℚ} (h : |x - y| ≤ 22 * e) (hsmall : 2200 * e < 1 / 250)
    (hz : 100 * y = z) : |100 * x - z| < 1 / 250 := by
  rw [← hz, ← mul_sub, abs_mul, abs_of_pos (by norm_num : (0 : ℚ) < 100)]
  linarith

theorem figuresNear {s : CartState} (h : Priced s) (hne : s.items ≠ []) (hbound : Bounded s.items)
    {r : ℚ} (hr : 0 ≤ r) (hr' : r ≤ 1 / 10) (hrate : s.discountValue = number r) :
    FiguresNear s (subtotalCents s.items) r := by
  obtain ⟨n, hn⟩ : ∃ n : ℚ, n = subtotalCents s.items := ⟨_, rfl⟩
  have hpos : 1 ≤ n := by
    have hcents := subtotalCents_pos hne h.items
    rw [hn]
    exact_mod_cast hcents
  have hboundq : ((s.items.length : ℚ) + 1) * (n + 1000) ≤ 10 ^ 12 := by
    rw [hn]
    exact_mod_cast hbound
  have hlength : (0 : ℚ) ≤ s.items.length := Nat.cast_nonneg _
  -- `b` is above every figure, `e` above the errors of one operation on each item
  obtain ⟨b, hb⟩ : ∃ b : ℚ, b = 11 / 10 * (n / 100) + 10 := ⟨_, rfl⟩
  obtain ⟨e, he⟩ : ∃ e : ℚ, e = (s.items.length + 1) * (b / 2 ^ 53) := ⟨_, rfl⟩
  have hunit : 0 ≤ b / 2 ^ 53 := div_nonneg (by linarith only [hb, hpos]) (by norm_num)
  rw [add_mul, one_mul] at he
  have hitems : s.items.length * (b / 2 ^ 53) ≤ e := by linarith only [he, hunit]
  have hle : b / 2 ^ 53 ≤ e := by linarith only [he, mul_nonneg hlength hunit]
  have hsmall : 2200 * e < 1 / 250 := by
    have hb' : b ≤ 11 / 1000 * (n + 1000) := by linarith only [hb]
    have hmul : e * 2 ^ 53 = (s.items.length + 1) * b := by
      rw [he]
      ring
    have hprod : (s.items.length + 1) * b ≤ (s.items.length + 1) * (11 / 1000 * (n + 1000)) :=
      mul_le_mul_of_nonneg_left hb' (by linarith only [hlength])
    linarith only [hmul, hprod, hboundq]
  have hsub : |subtotalOf s.items - n / 100| ≤ 5 * e := by
    have hstart : |(0 : ℚ) - 0| ≤ 0 := by simp
    have hfold := foldl_near (centPriced h.items hbound) (b := b) hstart le_rfl
      (by rw [← hn]; linarith only [hb, hpos])
      (by linarith only [hitems, hsmall, hb, hpos]) (by linarith only [hb, hpos])
    rw [zero_add, zero_add, ← hn] at hfold
    exact hfold.trans (by linarith only [hitems])
  obtain ⟨hdiscount, htax, htotal⟩ :=
    figures_near h hr hr' hrate (by linarith only [hpos]) hb.ge hle
    (by linarith only [hsmall]) hsub
  have he0 : 0 ≤ e := hunit.trans hle
  subst hn
  exact ⟨abs_cents_lt (hsub.trans (by linarith only [he0])) hsmall (by ring),
    abs_cents_lt (hdiscount.trans (by linarith only [he0])) hsmall (by ring),
    abs_cents_lt (htax.trans (by linarith only [he0])) hsmall (by ring),
    abs_cents_lt htotal hsmall (by ring)⟩

/-! ## Figures that add up -/

/-- What rounding takes from a tenth of `n`, and from nine 125ths of it, differs by less than a
    half. The remainders are those of least absolute value. -/
def Balanced (n : ℤ) : Prop := |2 * (9 * n).bmod 125 - 25 * n.bmod 10| < 125

instance (n : ℤ) : Decidable (Balanced n) := inferInstanceAs (Decidable (_ < _))

/-- With the coupon, a tenth of the subtotal is halfway between two cents. -/
def HalfCent (s : CartState) : Prop := s.couponCode ≠ none ∧ subtotalCents s.items % 10 = 5

instance (s : CartState) : Decidable (HalfCent s) := inferInstanceAs (Decidable (_ ∧ _))

section Figures

variable {s : CartState} {n : ℤ} {r : ℚ}

/-- A figure near a small one has few cents. -/
theorem cents_mem {x y : ℚ} (h : |100 * x - y| < 1 / 250) (hy : 0 ≤ y) (hy' : y ≤ 10 ^ 13) :
    0 ≤ cents x ∧ |cents x| ≤ 10 ^ 14 := by
  have hnear := abs_lt.mp h
  have hround := abs_le.mp (abs_roundAway_sub_le (100 * x))
  have hlow : (-1 : ℚ) < cents x := by
    unfold cents
    linarith [hnear.1, hround.1]
  have hhigh : (cents x : ℚ) ≤ 10 ^ 14 := by
    unfold cents
    linarith [hnear.2, hround.2]
  have hnonneg : 0 ≤ cents x := by
    have h' : (-1 : ℤ) < cents x := by exact_mod_cast hlow
    omega
  rw [abs_of_nonneg hnonneg]
  exact ⟨hnonneg, by exact_mod_cast hhigh⟩

/-- A figure of no value shows no cents. -/
theorem toFixed_of_nonpos {x : ℚ} (hx : x ≤ 0) (hcents : 0 ≤ toFixed x) : toFixed x = 0 := by
  have hround := abs_le.mp (abs_roundAway_sub_le (100 * x))
  have hlt : (cents x : ℚ) < 1 := by
    unfold cents
    linarith [hround.2]
  have hle : cents x ≤ 0 := Int.lt_add_one_iff.mp (by exact_mod_cast hlt)
  have hnonpos : toFixed x ≤ 0 :=
    div_nonpos_of_nonpos_of_nonneg (by exact_mod_cast hle) (by norm_num)
  exact le_antisymm hnonpos hcents

theorem toFixed_shipping (h : Priced s) : toFixed s.shippingCost = 999 / 100 := by
  have hcents := cents_number (c := 999) (by norm_num)
  rw [Int.cast_ofNat] at hcents
  rw [h.shipping, toFixed, hcents, Int.cast_ofNat]

/-- The page shows what is returned, and both are the cents of the figures. -/
theorem addsUp_iff (h : Priced s) (hnear : FiguresNear s n r) (hn : 0 < n)
    (hn' : n + 1000 ≤ 10 ^ 12) (hr : 0 ≤ r) (hr' : r ≤ 1 / 10) :
    AddsUp s ↔ cents (figures s).total = cents (figures s).subtotal - cents (figures s).discount +
      cents (figures s).tax + 999 := by
  have hnq : (0 : ℚ) < n := Int.cast_pos.mpr hn
  have hnq' : (n : ℚ) + 1000 ≤ 10 ^ 12 := by exact_mod_cast hn'
  have hshare : 0 ≤ n * r := mul_nonneg hnq.le hr
  have hshare' : n * r ≤ n * (1 / 10) := mul_le_mul_of_nonneg_left hr' hnq.le
  have hsubtotal := toFixed_parseFloat (cents_mem hnear.subtotal hnq.le (by linarith)).2
  obtain ⟨hnonneg, hdiscount⟩ := cents_mem hnear.discount hshare (by linarith)
  have hdiscount := toFixed_parseFloat hdiscount
  have htax := toFixed_parseFloat (cents_mem hnear.tax (by linarith) (by linarith)).2
  have htotal := toFixed_parseFloat (cents_mem hnear.total (by linarith) (by linarith)).2
  have hshown : (cartPage s).discount.getD 0 = toFixed (figures s).discount := by
    show (if 0 < parseFloat (toFixed (figures s).discount) then
      some (toFixed (parseFloat (toFixed (figures s).discount))) else none).getD 0 = _
    split
    · exact hdiscount
    · next hnot =>
      have htext : 0 ≤ toFixed (figures s).discount :=
        div_nonneg (by exact_mod_cast hnonneg) (by norm_num)
      rw [← hdiscount] at htext ⊢
      exact (toFixed_of_nonpos (not_lt.mp hnot) htext).symm
  have hparts : toFixed (figures s).total = toFixed (figures s).subtotal -
      toFixed (figures s).discount + toFixed (figures s).tax + 999 / 100 ↔
        cents (figures s).total = cents (figures s).subtotal - cents (figures s).discount +
          cents (figures s).tax + 999 := by
    unfold toFixed
    rw [← sub_div, ← add_div, ← add_div, div_left_inj' (by norm_num)]
    norm_cast
  unfold AddsUp
  rw [hshown, toFixed_shipping h]
  show toFixed (parseFloat (toFixed (figures s).total)) =
      toFixed (parseFloat (toFixed (figures s).subtotal)) -
        toFixed (parseFloat (toFixed (figures s).discount)) +
          toFixed (parseFloat (toFixed (figures s).tax)) + 999 / 100 ∧
    toFixed (parseFloat (toFixed (figures s).total)) =
      toFixed (parseFloat (toFixed (figures s).subtotal)) - toFixed (figures s).discount +
          toFixed (parseFloat (toFixed (figures s).tax)) + 999 / 100 ↔ _
  rw [hsubtotal, hdiscount, htax, htotal, and_self_iff, hparts]

theorem cents_subtotal (hnear : FiguresNear s n r) : cents (figures s).subtotal = n :=
  roundAway_eq_of_abs_lt (hnear.subtotal.trans (by norm_num))

/-- Without the coupon only the tax is rounded. -/
theorem cents_of_plain (hnear : FiguresNear s n 0) :
    cents (figures s).total = cents (figures s).subtotal - cents (figures s).discount +
      cents (figures s).tax + 999 := by
  have hdiscount : cents (figures s).discount = 0 :=
    roundAway_eq_of_abs_lt (by simpa using hnear.discount.trans (by norm_num))
  have hexact : ((n : ℚ) - n * 0) * (8 / 100) = ((2 * n : ℤ) : ℚ) / (25 : ℕ) := by
    push_cast
    ring
  have htax : cents (figures s).tax = (2 * n).bdiv 25 := by
    refine roundAway_eq_bdiv (by decide) ?_ ?_
    · push_cast
      generalize (2 * n).bmod 25 = t
      omega
    · rw [← hexact]
      exact hnear.tax.trans (by norm_num)
  have hsplit : (2 : ℚ) * n = 25 * (2 * n).bdiv 25 + (2 * n).bmod 25 := by
    exact_mod_cast (Int.bdiv_add_bmod (2 * n) 25).symm
  have hbmod : |((2 * n).bmod 25 : ℚ)| ≤ 12 := by
    have hlow := Int.le_bmod (x := 2 * n) (m := 25) (by decide)
    have hhigh := Int.bmod_lt (x := 2 * n) (m := 25) (by decide)
    have hbound : |(2 * n).bmod 25| ≤ 12 := abs_le.mpr ⟨by omega, by omega⟩
    exact_mod_cast hbound
  have htotal : cents (figures s).total = n + (2 * n).bdiv 25 + 999 := by
    refine roundAway_eq_of_abs_lt ?_
    have hnear' := abs_lt.mp hnear.total
    have hbmod' := abs_le.mp hbmod
    rw [abs_lt]
    push_cast
    constructor <;> linarith [hnear'.1, hnear'.2, hbmod'.1, hbmod'.2]
  rw [cents_subtotal hnear, hdiscount, htax, htotal]
  ring

/-- Just a half is left only by a subtotal that ends in five. -/
theorem lt_half_of_lt {p t q u : ℤ} (hten : n = 10 * p + t) (hnine : 9 * n = 125 * q + u)
    (hhalf : n % 10 ≠ 5) (hlow : -126 < 2 * u - 25 * t) (hhigh : 2 * u - 25 * t < 126) :
    -125 < 2 * u - 25 * t ∧ 2 * u - 25 * t < 125 := by
  have hfive : ∀ k, t ≠ 10 * k + 5 := fun k ht => by omega
  have hhigh' : 2 * u - 25 * t ≠ 125 := fun h =>
    hfive (54 * p - 75 * q - 2 * t - 38) (by linarith)
  have hlow' : 2 * u - 25 * t ≠ -125 := fun h =>
    hfive (54 * p - 75 * q - 2 * t + 37) (by linarith)
  exact ⟨lt_of_le_of_ne hlow hlow'.symm, lt_of_le_of_ne (Int.lt_add_one_iff.mp hhigh) hhigh'⟩

theorem cents_discount (hnear : FiguresNear s n (1 / 10)) (hhalf : n % 10 ≠ 5) :
    cents (figures s).discount = n.bdiv 10 := by
  have hten : n = 10 * n.bdiv 10 + n.bmod 10 := (Int.bdiv_add_bmod n 10).symm
  have hexact : (n : ℚ) * (1 / 10) = n / (10 : ℕ) := by
    push_cast
    ring
  refine roundAway_eq_bdiv (by decide) ?_ ?_
  · push_cast
    generalize n.bmod 10 = t at hten
    omega
  · rw [← hexact]
    exact hnear.discount.trans (by norm_num)

theorem cents_tax (hnear : FiguresNear s n (1 / 10)) :
    cents (figures s).tax = (9 * n).bdiv 125 := by
  have hexact : ((n : ℚ) - n * (1 / 10)) * (8 / 100) = ((9 * n : ℤ) : ℚ) / (125 : ℕ) := by
    push_cast
    ring
  refine roundAway_eq_bdiv (by decide) ?_ ?_
  · push_cast
    generalize (9 * n).bmod 125 = t
    omega
  · rw [← hexact]
    exact hnear.tax.trans_le (by norm_num)

/-- With it the rounded total is that of the rounded parts exactly if their errors make up for each
    other. -/
theorem cents_iff_balanced (hnear : FiguresNear s n (1 / 10)) (hhalf : n % 10 ≠ 5) :
    cents (figures s).total = cents (figures s).subtotal - cents (figures s).discount +
      cents (figures s).tax + 999 ↔ Balanced n := by
  have hten : n = 10 * n.bdiv 10 + n.bmod 10 := (Int.bdiv_add_bmod n 10).symm
  have hnine : 9 * n = 125 * (9 * n).bdiv 125 + (9 * n).bmod 125 :=
    (Int.bdiv_add_bmod (9 * n) 125).symm
  have htenq : (n : ℚ) = 10 * n.bdiv 10 + n.bmod 10 := by exact_mod_cast hten
  have hnineq : (9 : ℚ) * n = 125 * (9 * n).bdiv 125 + (9 * n).bmod 125 := by
    exact_mod_cast hnine
  have hnear' := abs_lt.mp hnear.total
  rw [cents_subtotal hnear, cents_discount hnear hhalf, cents_tax hnear, Balanced, abs_lt]
  constructor
  · intro htotal
    have hround := abs_le.mp (abs_roundAway_sub_le (100 * (figures s).total))
    have htotalq : ((roundAway (100 * (figures s).total) : ℤ) : ℚ) =
        n - n.bdiv 10 + (9 * n).bdiv 125 + 999 := by exact_mod_cast htotal
    rw [htotalq] at hround
    have hlow : (-126 : ℚ) < 2 * (9 * n).bmod 125 - 25 * n.bmod 10 := by
      linarith [hnear'.1, hnear'.2, hround.1, hround.2]
    have hhigh : (2 * (9 * n).bmod 125 - 25 * n.bmod 10 : ℚ) < 126 := by
      linarith [hnear'.1, hnear'.2, hround.1, hround.2]
    have hlow' : -126 < 2 * (9 * n).bmod 125 - 25 * n.bmod 10 := by exact_mod_cast hlow
    have hhigh' : 2 * (9 * n).bmod 125 - 25 * n.bmod 10 < 126 := by exact_mod_cast hhigh
    exact lt_half_of_lt hten hnine hhalf hlow' hhigh'
  · rintro ⟨hlow, hhigh⟩
    have hlow' : (-124 : ℚ) ≤ 2 * (9 * n).bmod 125 - 25 * n.bmod 10 := by
      have h : -124 ≤ 2 * (9 * n).bmod 125 - 25 * n.bmod 10 := by omega
      exact_mod_cast h
    have hhigh' : (2 * (9 * n).bmod 125 - 25 * n.bmod 10 : ℚ) ≤ 124 := by
      have h : 2 * (9 * n).bmod 125 - 25 * n.bmod 10 ≤ 124 := by omega
      exact_mod_cast h
    refine roundAway_eq_of_abs_lt ?_
    rw [abs_lt]
    push_cast
    constructor <;> linarith [hnear'.1, hnear'.2]

/-- Where the doubles leave no doubt about a cent. -/
theorem addsUp_iff_balanced (h : Priced s) (hne : s.items ≠ []) (hbound : Bounded s.items)
    (hhalf : ¬ HalfCent s) :
    AddsUp s ↔ s.couponCode = none ∨ Balanced (subtotalCents s.items) := by
  have hn := subtotalCents_pos hne h.items
  have hn' := subtotalCents_le h.items hbound
  rcases h.coupon with ⟨hcode, hrate⟩ | ⟨hcode, hrate⟩
  · have hzero : s.discountValue = number 0 := hrate.trans Format.binary64.round_zero.symm
    have hnear := figuresNear h hne hbound le_rfl (by norm_num) hzero
    rw [addsUp_iff h hnear hn hn' le_rfl (by norm_num)]
    exact iff_of_true (cents_of_plain hnear) (.inl hcode)
  · have hcoupon : s.couponCode ≠ none := Option.isSome_iff_ne_none.mp hcode
    have hnear := figuresNear h hne hbound (by norm_num) le_rfl hrate
    rw [addsUp_iff h hnear hn hn' (by norm_num) le_rfl, or_iff_right hcoupon]
    exact cents_iff_balanced hnear fun hfive => hhalf ⟨hcoupon, hfive⟩

end Figures

/-- The figures of a cart of bounded size add up without the coupon, and with it if no discount
    ends in half a cent and the rounding of discount and tax is balanced for its subtotal. Other
    carts of bounded size whose figures add up have a discount that ends in half a cent. -/
theorem cart_adds_up (s : CartState) (h : Priced s) (hne : s.items ≠ []) :
    (Bounded s.items ∧
        (s.couponCode = none ∨ ¬ HalfCent s ∧ Balanced (subtotalCents s.items)) → AddsUp s) ∧
      (Bounded s.items → AddsUp s →
        s.couponCode = none ∨ HalfCent s ∨ Balanced (subtotalCents s.items)) := by
  constructor
  · rintro ⟨hbound, hplain | ⟨hhalf, hbalanced⟩⟩
    · exact (addsUp_iff_balanced h hne hbound fun hhalf => hhalf.1 hplain).mpr (.inl hplain)
    · exact (addsUp_iff_balanced h hne hbound hhalf).mpr (.inr hbalanced)
  · intro hbound hadds
    by_cases hhalf : HalfCent s
    · exact .inr (.inl hhalf)
    · exact ((addsUp_iff_balanced h hne hbound hhalf).mp hadds).imp_right .inr

/-- Two lamps and three bulbs, with the coupon. -/
def lamps : CartState where
  items := [{ productId := "p1", sku := "SKU123", name := "Lamp", price := number (1999 / 100)
              quantity := 2 },
            { productId := "p2", sku := "SKU124", name := "Bulb", price := number (150 / 100)
              quantity := 3 }]
  couponCode := some "CLOUDSCALE10"
  discountValue := number (1 / 10)

theorem priced_lamps : Priced lamps where
  shipping := rfl
  tax := rfl
  coupon := .inr ⟨rfl, rfl⟩
  items := List.forall_mem_cons.mpr ⟨⟨⟨1999, by decide, rfl⟩, by decide⟩,
    List.forall_mem_singleton.mpr ⟨⟨150, by decide, rfl⟩, by decide⟩⟩

theorem cart_adds_up_lamps : AddsUp lamps :=
  (cart_adds_up lamps priced_lamps (List.cons_ne_nil _ _)).1
    ⟨by decide +kernel, .inr ⟨by decide +kernel, by decide +kernel⟩⟩

/-- One item at six cents, with the coupon. -/
def sixCents : CartState where
  items := [{ productId := "p1", sku := "SKU123", name := "Product 1", price := number (6 / 100)
              quantity := 1 }]
  couponCode := some "CLOUDSCALE10"
  discountValue := number (1 / 10)

/-- 0.06 less 0.01, with no tax and shipping of 9.99, is not 10.05. -/
theorem six_cents :
    Priced sixCents ∧ toFixed (getCartTotals sixCents).subtotal = 6 / 100 ∧
      toFixed (getCartTotals sixCents).discount = 1 / 100 ∧
      toFixed (getCartTotals sixCents).tax = 0 ∧
      toFixed (getCartTotals sixCents).total = 1005 / 100 ∧ ¬ AddsUp sixCents := by
  refine ⟨⟨rfl, rfl, .inr ⟨rfl, rfl⟩, List.forall_mem_singleton.mpr
    ⟨⟨6, by decide, rfl⟩, by decide⟩⟩, ?_, ?_, ?_, ?_, fun h => absurd h.1 ?_⟩ <;> decide +kernel

end CloudScale.Frontend
