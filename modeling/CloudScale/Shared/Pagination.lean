/-
  Cursor pagination (`cursor_paginate` in `database.py`).

  Every call is one query. The database orders rows of one value as it likes, and differently in
  each query (`OrderBy`); `NULL` sorts as if it were larger than every value, and no comparison with
  it holds. A page is followed by the rows strictly beyond the value of its last row.

  `paginate_terminates`: the loop over the cursors ends. `visits_once_iff`: it has then returned
  every row once exactly if at each page boundary of the sorted column all that follows is beyond
  the last value of the page (`Apart`). `tie_lost` is a page that ends between two rows of one
  value.
-/
import Mathlib.Data.List.Sort

namespace CloudScale.Pagination

variable {ρ α : Type} [LinearOrder α] {descending : Bool}

/-! ## Values -/

/-- The order of nullable values; `none` is `NULL`. -/
def atMost : Option α → Option α → Prop
  | _, none => True
  | none, some _ => False
  | some a, some b => a ≤ b

def ordered (descending : Bool) (a b : Option α) : Prop :=
  if descending then atMost b a else atMost a b

/-- `column < cursor` or `column > cursor`, where it is true. -/
def beyond (descending : Bool) (cursor : α) : Option α → Bool
  | some v => if descending then decide (v < cursor) else decide (cursor < v)
  | none => false

instance : DecidableRel (atMost : Option α → Option α → Prop) := by
  intro a b
  unfold atMost
  split <;> infer_instance

instance (descending : Bool) : DecidableRel (ordered descending : Option α → Option α → Prop) := by
  intro a b
  unfold ordered
  infer_instance

theorem atMost_total (a b : Option α) : atMost a b ∨ atMost b a := by
  cases a with
  | none => cases b <;> simp [atMost]
  | some a =>
    cases b with
    | none => simp [atMost]
    | some b => exact le_total a b

theorem atMost_trans {a b c : Option α} (h : atMost a b) (h' : atMost b c) : atMost a c := by
  cases c with
  | none => simp [atMost]
  | some c =>
    cases b with
    | none => exact h'.elim
    | some b =>
      cases a with
      | none => exact h.elim
      | some a => exact le_trans h h'

theorem atMost_antisymm {a b : Option α} (h : atMost a b) (h' : atMost b a) : a = b := by
  cases a with
  | none =>
    cases b with
    | none => rfl
    | some b => exact h.elim
  | some a =>
    cases b with
    | none => exact h'.elim
    | some b => exact congrArg some (le_antisymm h h')

instance : Std.Total (ordered descending : Option α → Option α → Prop) where
  total a b := by
    unfold ordered
    split
    · exact atMost_total b a
    · exact atMost_total a b

instance : IsTrans (Option α) (ordered descending) where
  trans a b c h h' := by
    cases descending with
    | false => exact atMost_trans (a := a) h h'
    | true => exact atMost_trans (a := c) h' h

theorem ordered_antisymm {a b : Option α} (h : ordered descending a b)
    (h' : ordered descending b a) : a = b := by
  unfold ordered at h h'
  cases descending with
  | false => exact atMost_antisymm h h'
  | true => exact atMost_antisymm h' h

/-- Beyond a value that is beyond another. -/
theorem beyond_trans {c d : α} {v : Option α} (h : beyond descending c (some d) = true)
    (h' : beyond descending d v = true) : beyond descending c v = true := by
  cases v with
  | none => cases h'
  | some v =>
    cases descending with
    | false =>
      have hcd : c < d := of_decide_eq_true h
      exact decide_eq_true (hcd.trans (of_decide_eq_true h'))
    | true =>
      have hdc : d < c := of_decide_eq_true h
      exact decide_eq_true ((of_decide_eq_true h' : v < d).trans hdc)

/-- What comes before a value is not beyond it. -/
theorem beyond_of_ordered {c : α} {v : Option α} (h : ordered descending v (some c)) :
    beyond descending c v = false := by
  cases v with
  | none => rfl
  | some v =>
    cases descending with
    | false => exact decide_eq_false (not_lt.mpr h)
    | true => exact decide_eq_false (not_lt.mpr h)

/-! ## Queries -/

/-- `ORDER BY column` in the direction, as the database executes it in one query. -/
structure OrderBy (column : ρ → Option α) (descending : Bool) where
  sort : List ρ → List ρ
  perm : ∀ rows, (sort rows).Perm rows
  sorted : ∀ rows, (sort rows).Pairwise fun r r' => ordered descending (column r) (column r')

variable {column : ρ → Option α}

/-- The rows of the base query after the cursor. -/
def select (column : ρ → Option α) (descending : Bool) (queryBase : List ρ) : Option α → List ρ
  | some c => queryBase.filter fun r => beyond descending c (column r)
  | none => queryBase

/-- `cursor_paginate`; the first `limit` rows, and the value of the last one if there are more. -/
def cursorPaginate (orderBy : OrderBy column descending) (queryBase : List ρ) (cursor : Option α)
    (limit : ℕ) : List ρ × Option α :=
  let items := (orderBy.sort (select column descending queryBase cursor)).take (limit + 1)
  if limit < items.length then (items.take limit, items[limit - 1]?.bind column) else (items, none)

/-- The loop that passes each cursor back; call `n` is ordered by `orders n`. `none`: more than
    `fuel` calls. -/
def paginateFrom (orders : ℕ → OrderBy column descending) (queryBase : List ρ) (limit : ℕ) :
    (fuel call : ℕ) → Option α → Option (List (List ρ))
  | 0, _, _ => none
  | fuel + 1, call, cursor =>
    match cursorPaginate (orders call) queryBase cursor limit with
    | (items, none) => some [items]
    | (items, some c) =>
      (paginateFrom orders queryBase limit fuel (call + 1) (some c)).map fun pages => items :: pages

/-! ## Pages -/

section Pages

variable (orderBy : OrderBy column descending) {queryBase : List ρ} {cursor : Option α}
  {limit : ℕ} {c : α} {r : ρ}

/-- A page, from the rows in the order of the query. -/
theorem cursorPaginate_eq {s : List ρ}
    (hs : orderBy.sort (select column descending queryBase cursor) = s) :
    cursorPaginate orderBy queryBase cursor limit =
      if limit < s.length then (s.take limit, s[limit - 1]?.bind column) else (s, none) := by
  unfold cursorPaginate
  rw [hs]
  dsimp only
  rw [List.length_take, List.take_take, List.getElem?_take_of_lt (by omega)]
  by_cases hmore : limit < s.length
  · rw [if_pos hmore, if_pos (by omega), Nat.min_eq_left (by omega)]
  · rw [if_neg hmore, if_neg (by omega), List.take_of_length_le (by omega)]

/-- The rows after a row of the query are among its rows. -/
theorem select_next (hr : r ∈ select column descending queryBase cursor) (hc : column r = some c) :
    select column descending queryBase (some c) =
      (select column descending queryBase cursor).filter fun r =>
        beyond descending c (column r) := by
  cases cursor with
  | none => rfl
  | some d =>
    have hbeyond : beyond descending d (column r) = true := (List.mem_filter.mp hr).2
    rw [hc] at hbeyond
    unfold select
    rw [List.filter_filter]
    refine List.filter_congr fun x _ => ?_
    cases hx : beyond descending c (column x) with
    | false => rw [Bool.false_and]
    | true => rw [beyond_trans hbeyond hx, Bool.true_and]

/-- In the order of the query no row of a page is beyond its last one. -/
theorem filter_beyond {s : List ρ}
    (hs : s.Pairwise fun r r' => ordered descending (column r) (column r')) (hlimit : 1 ≤ limit)
    (hr : s[limit - 1]? = some r) (hc : column r = some c) :
    s.filter (fun r => beyond descending c (column r)) =
      (s.drop limit).filter fun r => beyond descending c (column r) := by
  have hpage : (s.take limit).filter (fun r => beyond descending c (column r)) = [] := by
    refine List.filter_eq_nil_iff.mpr fun x hx => ?_
    have hle : ordered descending (column x) (some c) := by
      obtain ⟨hlast, rfl⟩ := List.getElem?_eq_some_iff.mp hr
      obtain ⟨j, hj, rfl⟩ := List.mem_iff_getElem.mp hx
      rw [List.length_take] at hj
      rw [List.getElem_take, ← hc]
      rcases Nat.lt_or_ge j (limit - 1) with hlt | hge
      · exact List.pairwise_iff_getElem.mp hs j (limit - 1) (by omega) hlast hlt
      · obtain rfl : j = limit - 1 := by omega
        exact (or_self_iff.mp (Std.Total.total (r := ordered descending) _ _))
    rw [beyond_of_ordered hle]
    exact Bool.false_ne_true
  calc s.filter _ = (s.take limit ++ s.drop limit).filter _ := by rw [List.take_append_drop]
    _ = _ := by rw [List.filter_append, hpage, List.nil_append]

theorem select_perm_drop {s : List ρ}
    (hs : orderBy.sort (select column descending queryBase cursor) = s) (hlimit : 1 ≤ limit)
    (hr : s[limit - 1]? = some r) (hc : column r = some c) :
    (select column descending queryBase (some c)).Perm
      ((s.drop limit).filter fun r => beyond descending c (column r)) := by
  have hperm : s.Perm (select column descending queryBase cursor) := hs ▸ orderBy.perm _
  have hmem : r ∈ select column descending queryBase cursor :=
    hperm.mem_iff.mp (List.mem_of_getElem? hr)
  rw [select_next hmem hc, ← filter_beyond (hs ▸ orderBy.sorted _) hlimit hr hc]
  exact (hperm.filter _).symm

end Pages

/-! ## The loop -/

section Loop

variable {orders : ℕ → OrderBy column descending} {queryBase : List ρ} {limit : ℕ}

/-- A call ends the loop, at the last page or at a page that ends in `NULL`, or the loop goes on. -/
inductive Call (orders : ℕ → OrderBy column descending) (queryBase : List ρ) (limit call : ℕ)
    (cursor : Option α) (s : List ρ) : Prop
  | last (hlast : s.length ≤ limit) (hpages : ∀ fuel,
      paginateFrom orders queryBase limit (fuel + 1) call cursor = some [s])
  | null (r : ρ) (hmore : limit < s.length) (hr : s[limit - 1]? = some r) (hc : column r = none)
      (hpages : ∀ fuel,
        paginateFrom orders queryBase limit (fuel + 1) call cursor = some [s.take limit])
  | next (r : ρ) (c : α) (hmore : limit < s.length) (hr : s[limit - 1]? = some r)
      (hc : column r = some c) (hpages : ∀ fuel,
        paginateFrom orders queryBase limit (fuel + 1) call cursor =
          (paginateFrom orders queryBase limit fuel (call + 1) (some c)).map
            fun pages => s.take limit :: pages)

theorem call_cases (call : ℕ) (cursor : Option α) {s : List ρ}
    (hs : (orders call).sort (select column descending queryBase cursor) = s) :
    Call orders queryBase limit call cursor s := by
  by_cases hmore : limit < s.length
  · have hr : s[limit - 1]? = some s[limit - 1] := List.getElem?_eq_getElem (by omega)
    cases hc : column s[limit - 1] with
    | none =>
      refine .null _ hmore hr hc fun fuel => ?_
      rw [paginateFrom, cursorPaginate_eq _ hs, if_pos hmore, hr, Option.bind_some, hc]
    | some c =>
      refine .next _ c hmore hr hc fun fuel => ?_
      rw [paginateFrom, cursorPaginate_eq _ hs, if_pos hmore, hr, Option.bind_some, hc]
  · refine .last (by omega) fun fuel => ?_
    rw [paginateFrom, cursorPaginate_eq _ hs, if_neg hmore]

/-- The loop ends: each cursor leaves fewer rows. -/
theorem paginate_terminates (hlimit : 1 ≤ limit) (fuel call : ℕ) (cursor : Option α)
    (hfuel : (select column descending queryBase cursor).length < fuel) :
    ∃ pages, paginateFrom orders queryBase limit fuel call cursor = some pages := by
  induction fuel generalizing call cursor with
  | zero => exact absurd hfuel (Nat.not_lt_zero _)
  | succ fuel ih =>
    obtain ⟨s, hs⟩ : ∃ s, (orders call).sort (select column descending queryBase cursor) = s :=
      ⟨_, rfl⟩
    have hcall : Call orders queryBase limit call cursor s := call_cases call cursor hs
    cases hcall with
    | last _ hpages => exact ⟨_, hpages fuel⟩
    | null r _ _ _ hpages => exact ⟨_, hpages fuel⟩
    | next r c hmore hr hc hpages =>
      have hfewer : (select column descending queryBase (some c)).length < fuel := by
        have hlength := (hs ▸ (orders call).perm _ : s.Perm _).length_eq
        have hfilter := List.length_filter_le (fun r => beyond descending c (column r))
          (s.drop limit)
        rw [(select_perm_drop (orders call) hs hlimit hr hc).length_eq]
        rw [List.length_drop] at hfilter
        omega
      obtain ⟨pages, hpages'⟩ := ih (call + 1) (some c) hfewer
      exact ⟨_, (hpages fuel).trans (congrArg _ hpages')⟩

/-- The pages from a cursor on have rows after it only. -/
theorem pages_subset {fuel call : ℕ} {cursor : Option α} {pages : List (List ρ)}
    (h : paginateFrom orders queryBase limit fuel call cursor = some pages) :
    pages.flatten ⊆ select column descending queryBase cursor := by
  induction fuel generalizing call cursor pages with
  | zero => cases h
  | succ fuel ih =>
    obtain ⟨s, hs⟩ : ∃ s, (orders call).sort (select column descending queryBase cursor) = s :=
      ⟨_, rfl⟩
    have hsubset : s ⊆ select column descending queryBase cursor :=
      (hs ▸ (orders call).perm _ : s.Perm _).subset
    have hcall : Call orders queryBase limit call cursor s := call_cases call cursor hs
    cases hcall with
    | last _ hpages =>
      obtain rfl := Option.some.inj ((hpages fuel).symm.trans h)
      simpa using hsubset
    | null r _ _ _ hpages =>
      obtain rfl := Option.some.inj ((hpages fuel).symm.trans h)
      simpa using List.Subset.trans (List.take_subset limit s) hsubset
    | next r c _ hr hc hpages =>
      obtain ⟨rest, hrest, rfl⟩ := Option.map_eq_some_iff.mp ((hpages fuel).symm.trans h)
      have hmem := hsubset (List.mem_of_getElem? hr)
      rw [List.flatten_cons]
      refine List.append_subset.mpr
        ⟨List.Subset.trans (List.take_subset limit s) hsubset, ?_⟩
      have hnext := ih hrest
      rw [select_next hmem hc] at hnext
      exact List.Subset.trans hnext (List.filter_subset_self _)

end Loop

/-! ## Page boundaries -/

/-- The values of the column in the order of the query. -/
def sortedColumn (column : ρ → Option α) (descending : Bool) (rows : List ρ) : List (Option α) :=
  (rows.map column).insertionSort (ordered descending)

/-- All that follows a page boundary is beyond the last value of the page. -/
def Apart (descending : Bool) (limit : ℕ) (values : List (Option α)) : Prop :=
  ∀ k, ∀ v ∈ values.drop (limit * (k + 1)), ∃ c,
    values[limit * (k + 1) - 1]? = some (some c) ∧ beyond descending c v = true

theorem sortedColumn_eq {s rows : List ρ} (hperm : s.Perm rows)
    (hs : s.Pairwise fun r r' => ordered descending (column r) (column r')) :
    sortedColumn column descending rows = s.map column := by
  unfold sortedColumn
  refine List.Perm.eq_of_pairwise (fun a b _ _ => ordered_antisymm)
    (List.pairwise_insertionSort _ _) (List.pairwise_map.mpr hs) ?_
  exact (List.perm_insertionSort _ _).trans (hperm.map column).symm

/-- The first boundary, and the others. -/
theorem apart_iff {limit : ℕ} (hlimit : 1 ≤ limit) {values : List (Option α)} :
    Apart descending limit values ↔
      (∀ v ∈ values.drop limit, ∃ c, values[limit - 1]? = some (some c) ∧
        beyond descending c v = true) ∧ Apart descending limit (values.drop limit) := by
  have hshift : ∀ k, (values.drop limit).drop (limit * (k + 1)) =
        values.drop (limit * (k + 1 + 1)) ∧
      (values.drop limit)[limit * (k + 1) - 1]? = values[limit * (k + 1 + 1) - 1]? := by
    intro k
    have hpos : limit ≤ limit * (k + 1) := Nat.le_mul_of_pos_right limit k.succ_pos
    have hmul : limit * (k + 1 + 1) = limit + limit * (k + 1) := by
      rw [Nat.mul_succ, Nat.add_comm]
    rw [List.drop_drop, List.getElem?_drop, hmul]
    exact ⟨rfl, congrArg (fun i => values[i]?) (by omega)⟩
  constructor
  · intro h
    refine ⟨by simpa using h 0, fun k v hv => ?_⟩
    rw [(hshift k).1] at hv
    rw [(hshift k).2]
    exact h (k + 1) v hv
  · rintro ⟨hfirst, hrest⟩ k
    cases k with
    | zero => simpa using hfirst
    | succ k =>
      intro v hv
      rw [← (hshift k).1] at hv
      rw [← (hshift k).2]
      exact hrest k v hv

theorem apart_of_le {limit : ℕ} {values : List (Option α)}
    (h : values.length ≤ limit) : Apart descending limit values := by
  intro k v hv
  have hpos : limit ≤ limit * (k + 1) := Nat.le_mul_of_pos_right limit k.succ_pos
  rw [List.drop_eq_nil_of_le (by omega)] at hv
  cases hv

theorem beyond_of_ne {c d : α} (h : ordered descending (some c) (some d)) (hne : c ≠ d) :
    beyond descending c (some d) = true := by
  cases descending with
  | false => exact decide_eq_true (lt_of_le_of_ne h hne)
  | true => exact decide_eq_true (lt_of_le_of_ne h hne.symm)

/-- Where no value is `NULL`, a boundary is in order if the values on its two sides differ. -/
theorem apart_iff_ne {limit : ℕ} (hlimit : 1 ≤ limit) {values : List (Option α)}
    (hsorted : values.Pairwise (ordered descending)) (hvalues : none ∉ values) :
    Apart descending limit values ↔ ∀ k, limit * (k + 1) < values.length →
      values[limit * (k + 1) - 1]? ≠ values[limit * (k + 1)]? := by
  have hbefore : ∀ {i j : ℕ} {v w : Option α}, i ≤ j → values[i]? = some v → values[j]? = some w →
      ordered descending v w := by
    intro i j v w hij hv hw
    obtain ⟨hi, rfl⟩ := List.getElem?_eq_some_iff.mp hv
    obtain ⟨hj, rfl⟩ := List.getElem?_eq_some_iff.mp hw
    rcases Nat.lt_or_ge i j with hlt | hge
    · exact List.pairwise_iff_getElem.mp hsorted i j hi hj hlt
    · obtain rfl : i = j := Nat.le_antisymm hij hge
      exact or_self_iff.mp (Std.Total.total (r := ordered descending) _ _)
  constructor
  · intro h k hk heq
    obtain ⟨c, hc, hbeyond⟩ := h k values[limit * (k + 1)]
      (List.mem_of_getElem? (i := 0) (by simp [hk]))
    rw [hc, List.getElem?_eq_getElem hk] at heq
    rw [← Option.some.inj heq,
      beyond_of_ordered (or_self_iff.mp (Std.Total.total (r := ordered descending) _ _))] at hbeyond
    cases hbeyond
  · intro h k v hv
    have hpos : limit ≤ limit * (k + 1) := Nat.le_mul_of_pos_right limit k.succ_pos
    obtain ⟨j, hj⟩ := List.mem_iff_getElem?.mp hv
    rw [List.getElem?_drop] at hj
    have hk : limit * (k + 1) < values.length := by
      have hlt := (List.getElem?_eq_some_iff.mp hj).1
      omega
    have hlast : values[limit * (k + 1) - 1]? = some values[limit * (k + 1) - 1] :=
      List.getElem?_eq_getElem (by omega)
    have hfirst : values[limit * (k + 1)]? = some values[limit * (k + 1)] :=
      List.getElem?_eq_getElem hk
    have hle := hbefore (by omega) hlast hj
    cases hc : values[limit * (k + 1) - 1] with
    | none => exact absurd (hc ▸ List.getElem_mem _) hvalues
    | some c =>
      cases v with
      | none => exact absurd (List.mem_of_getElem? hj) hvalues
      | some d =>
        rw [hc] at hlast hle
        refine ⟨c, hlast, beyond_of_ne hle fun hcd => h k hk ?_⟩
        -- the value before the boundary comes again, so it is also the first one after it
        subst hcd
        have hge := hbefore (Nat.le_add_right _ j) hfirst hj
        rw [hlast, hfirst, ordered_antisymm hge (hbefore (Nat.sub_le _ 1) hlast hfirst)]

section Complete

variable {orders : ℕ → OrderBy column descending} {queryBase : List ρ} {limit : ℕ}

/-- The pages from a cursor on have every row after it exactly if no boundary parts a value. -/
theorem pages_perm_iff (hlimit : 1 ≤ limit) {fuel call : ℕ} {cursor : Option α}
    {pages : List (List ρ)}
    (h : paginateFrom orders queryBase limit fuel call cursor = some pages) :
    pages.flatten.Perm (select column descending queryBase cursor) ↔
      Apart descending limit
        (sortedColumn column descending (select column descending queryBase cursor)) := by
  induction fuel generalizing call cursor pages with
  | zero => cases h
  | succ fuel ih =>
    obtain ⟨s, hs⟩ : ∃ s, (orders call).sort (select column descending queryBase cursor) = s :=
      ⟨_, rfl⟩
    have hperm : s.Perm (select column descending queryBase cursor) := hs ▸ (orders call).perm _
    have hsorted := hs ▸ (orders call).sorted (select column descending queryBase cursor)
    rw [sortedColumn_eq hperm hsorted]
    have hcall : Call orders queryBase limit call cursor s := call_cases call cursor hs
    cases hcall with
    | last hlast hpages =>
      obtain rfl := Option.some.inj ((hpages fuel).symm.trans h)
      refine iff_of_true (by simpa using hperm) (apart_of_le ?_)
      rwa [List.length_map]
    | null r hmore hr hc hpages =>
      obtain rfl := Option.some.inj ((hpages fuel).symm.trans h)
      refine iff_of_false (fun hpage => ?_) fun hapart => ?_
      · have hlength := hpage.length_eq
        rw [← hperm.length_eq] at hlength
        simp at hlength
        omega
      · obtain ⟨c, hvalue, -⟩ := ((apart_iff hlimit).mp hapart).1 (column s[limit])
          (List.mem_of_getElem? (i := 0) (by simp [hmore]))
        rw [List.getElem?_map, hr, Option.map_some, hc] at hvalue
        cases hvalue
    | next r c hmore hr hc hpages =>
      obtain ⟨rest, hrest, rfl⟩ := Option.map_eq_some_iff.mp ((hpages fuel).symm.trans h)
      have hpage : ((s.take limit :: rest).flatten.Perm
          (select column descending queryBase cursor)) ↔ rest.flatten.Perm (s.drop limit) := by
        rw [List.flatten_cons, ← hperm.congr_right]
        nth_rewrite 2 [← List.take_append_drop limit s]
        exact List.perm_append_left_iff _
      have hboundary : Apart descending limit (s.map column) ↔
          (∀ x ∈ s.drop limit, beyond descending c (column x) = true) ∧
            Apart descending limit ((s.drop limit).map column) := by
        rw [apart_iff hlimit, List.getElem?_map, hr, Option.map_some, hc, ← List.map_drop,
          List.forall_mem_map]
        simp
      have hnext := select_perm_drop (orders call) hs hlimit hr hc
      rw [hpage, hboundary]
      by_cases hall : ∀ x ∈ s.drop limit, beyond descending c (column x) = true
      · -- the next query has what is left
        rw [List.filter_eq_self.mpr hall] at hnext
        have hvalues := sortedColumn_eq hnext.symm (hsorted.sublist (List.drop_sublist _ _))
        rw [and_iff_right hall, ← hvalues, ← ih hrest, hnext.congr_right]
      · -- a row that is not beyond the page's last is on no later page
        refine iff_of_false (fun hleft => hall fun x hx => ?_) fun h => hall h.1
        have hx' := hnext.subset (pages_subset hrest (hleft.symm.subset hx))
        exact (List.mem_filter.mp hx').2

/-- On an unchanging table, the loop ends and its pages have every row once exactly if at every page
    boundary of the sorted column all that follows is beyond what comes before. -/
theorem visits_once_iff (orders : ℕ → OrderBy column descending) (queryBase : List ρ)
    (hlimit : 1 ≤ limit) :
    (∃ fuel pages, paginateFrom orders queryBase limit fuel 0 none = some pages ∧
      pages.flatten.Perm queryBase) ↔
      Apart descending limit (sortedColumn column descending queryBase) := by
  constructor
  · rintro ⟨fuel, pages, hpages, hperm⟩
    exact (pages_perm_iff hlimit hpages).mp hperm
  · intro hapart
    obtain ⟨pages, hpages⟩ : ∃ pages,
        paginateFrom orders queryBase limit (queryBase.length + 1) 0 none = some pages :=
      paginate_terminates hlimit _ 0 none (Nat.lt_succ_self _)
    exact ⟨_, pages, hpages, (pages_perm_iff hlimit hpages).mpr hapart⟩

end Complete

/-! ## Two rows of one value -/

/-- A database that keeps rows of one value in their order. -/
def stable (column : ρ → Option α) (descending : Bool) : OrderBy column descending where
  sort rows := rows.insertionSort fun r r' => ordered descending (column r) (column r')
  perm rows := List.perm_insertionSort _ rows
  sorted rows := by
    have htotal : Std.Total fun r r' => ordered descending (column r) (column r') :=
      ⟨fun r r' => Std.Total.total (column r) (column r')⟩
    have htrans : IsTrans ρ fun r r' => ordered descending (column r) (column r') :=
      ⟨fun r r' r'' => IsTrans.trans (column r) (column r') (column r'')⟩
    exact List.pairwise_insertionSort _ rows

/-- Four invoices, two on each of two dates. -/
def invoicesOnDates : List (String × Option ℕ) :=
  [("inv-1", some 2), ("inv-2", some 3), ("inv-3", some 3), ("inv-4", some 2)]

theorem sortedColumn_invoices : sortedColumn Prod.snd true invoicesOnDates =
    [some 3, some 3, some 2, some 2] := by decide

/-- In pages of two, no date is on both sides of a boundary. -/
theorem visits_once_pairs : ∃ fuel pages,
    paginateFrom (fun _ => stable Prod.snd true) invoicesOnDates 2 fuel 0 none = some pages ∧
      pages.flatten.Perm invoicesOnDates := by
  refine (visits_once_iff (fun _ => stable Prod.snd true) invoicesOnDates (by decide)).mpr ?_
  rw [sortedColumn_invoices]
  refine (apart_iff (by decide)).mpr ⟨fun v hv => ⟨3, rfl, ?_⟩, apart_of_le (by decide)⟩
  obtain rfl : v = some 2 := by simpa using hv
  rfl

/-- The pages need not have every row once; the second page of three starts after the date of
    the last invoice of the first, and so without the fourth invoice. -/
theorem tie_lost : ¬ ∀ (orders : ℕ → OrderBy (Prod.snd : String × Option ℕ → Option ℕ) true)
    (queryBase : List (String × Option ℕ)) (limit : ℕ), 1 ≤ limit →
    ∃ fuel pages, paginateFrom orders queryBase limit fuel 0 none = some pages ∧
      pages.flatten.Perm queryBase := by
  intro hevery
  obtain ⟨fuel, pages, hpages, hperm⟩ :=
    hevery (fun _ => stable Prod.snd true) invoicesOnDates 3 (by decide)
  have hapart : Apart true 3 (sortedColumn Prod.snd true invoicesOnDates) :=
    (pages_perm_iff (by decide) hpages).mp hperm
  rw [sortedColumn_invoices] at hapart
  obtain ⟨c, hc, hbeyond⟩ := hapart 0 (some 2) (by decide)
  obtain rfl : c = 2 := by simpa using hc.symm
  cases hbeyond

end CloudScale.Pagination
