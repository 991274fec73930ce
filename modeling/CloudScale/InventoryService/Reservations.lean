/-
  `_handle_order_created` alone on the database: what it reserves, or that it leaves the stock
  alone.

  The items are checked one after another against objects that earlier items have changed, so a
  product that is named twice is checked against what is left of it. `reserveItems_alone` says where
  that loop ends, in terms of `demand`: at an item that the product's stock less what is reserved
  already does not cover (`Short`), or behind the last one. With positive quantities the first means
  that the sum for a product is not covered, the second that every sum is (`not_covered`,
  `covered`). `undoItems_alone` is the loop that takes the reserved items back.

  `handleOrderCreated_alone`: the handler raises only if an id is no uuid or a lock is not granted;
  otherwise it writes one of its two events, by the sums, unless a value that it leaves is beyond
  its column (`Overflows`), which fails the flush. `not_overflows`: that takes a reserved stock or a
  version near 2^31.
-/
import CloudScale.InventoryService.Stock
import Mathlib.Data.List.Induction

namespace CloudScale.InventoryService

open CloudScale.Lib CloudScale.Shared

/-! ## Coverage -/

/-- The stock covers the sum of every product. -/
def Covered (stock : Stock) (ls : List (ℕ × Int)) : Prop :=
  ∀ l ∈ ls, ∃ row, stock.get l.1 = some row ∧ demand ls l.1 ≤ row.availableStock

/-- A line that the stock does not cover after others are reserved. -/
def Short (stock : Stock) (done : List (ℕ × Int)) (l : ℕ × Int) : Prop :=
  ∀ row, stock.get l.1 = some row → row.availableStock - demand done l.1 < l.2

theorem demand_append (ls ls' : List (ℕ × Int)) (p : ℕ) :
    demand (ls ++ ls') p = demand ls p + demand ls' p := by
  unfold demand
  rw [List.map_append, List.sum_append]

/-- A line that fails: the sum of its product is not covered, as the lines behind it only add to
    it. -/
theorem not_covered {stock : Stock} {done rest : List (ℕ × Int)} {l : ℕ × Int}
    (hpos : ∀ l' ∈ rest, 0 ≤ l'.2) (h : Short stock done l) :
    ¬ Covered stock (done ++ l :: rest) := by
  intro hcovered
  obtain ⟨row, hrow, hle⟩ := hcovered l (List.mem_append_right _ List.mem_cons_self)
  have hshort := h row hrow
  have hrest := demand_nonneg hpos l.1
  rw [demand_append, demand_cons, if_pos rfl] at hle
  omega

/-- The last line of a product that was checked: its sum is covered. -/
theorem covered_row {ls : List (ℕ × Int)} {row : Inventory}
    (henabled : stockRows.Enabled (reserveOps ls) row) (h : ∃ l ∈ ls, l.1 = row.productId) :
    demand ls row.productId ≤ row.availableStock := by
  induction ls using List.reverseRecOn with
  | nil =>
    obtain ⟨l, hl, -⟩ := h
    exact absurd hl List.not_mem_nil
  | append_singleton ls l ih =>
    have hops : reserveOps (ls ++ [l]) = reserveOps ls ++ [.reserve l.1 l.2] := List.map_append
    rw [hops, Versioned.enabled_append] at henabled
    obtain ⟨hbefore, hguard⟩ := henabled
    rw [demand_append, demand_cons, demand_nil, Int.add_zero]
    by_cases hl : l.1 = row.productId
    · have hlast : l.2 ≤ (stockRows.run (reserveOps ls) row).availableStock := hguard hl
      rw [(run_reserveOps ls row).1] at hlast
      rw [if_pos hl]
      omega
    · rw [if_neg hl, Int.add_zero]
      refine ih hbefore ?_
      obtain ⟨l', hl', hkey⟩ := h
      rcases List.mem_append.mp hl' with hmem | hmem
      · exact ⟨l', hmem, hkey⟩
      · exact absurd (List.mem_singleton.mp hmem ▸ hkey) hl

/-! ## Columns -/

/-- The row with the lines reserved. -/
def Inventory.reserving (ls : List (ℕ × Int)) (r : Inventory) : Inventory :=
  { r with
    availableStock := r.availableStock - demand ls r.productId
    reservedStock := r.reservedStock + demand ls r.productId
    version := r.version + ls.countP fun l => decide (l.1 = r.productId) }

theorem run_reserveOps_eq (ls : List (ℕ × Int)) (r : Inventory) :
    stockRows.run (reserveOps ls) r = r.reserving ls := by
  induction ls generalizing r with
  | nil => simp [reserveOps, Inventory.reserving]
  | cons l ls ih =>
    obtain ⟨p, q⟩ := l
    show stockRows.run (reserveOps ls) (stockRows.apply (.reserve p q) r) = _
    rw [ih]
    by_cases h : p = r.productId
    · subst h
      simp only [Versioned.apply, stockRows, StockOp.productId, StockOp.effect, if_true,
        Inventory.reserving, demand_cons, List.countP_cons, decide_true, Inventory.mk.injEq,
        true_and]
      refine ⟨?_, ?_, ?_⟩ <;> omega
    · have hsame : stockRows.apply (.reserve p q) r = r := if_neg h
      rw [hsame]
      simp [Inventory.reserving, h]

/-- With the changes taken back only the version is another one. -/
theorem run_undone_eq (ls : List (ℕ × Int)) (r : Inventory) :
    stockRows.run (reserveOps ls ++ unreserveOps ls) r =
      { r with version := r.version + 2 * ls.countP fun l => decide (l.1 = r.productId) } := by
  have hversion : ∀ (ls : List (ℕ × Int)) (r : Inventory),
      (stockRows.run (unreserveOps ls) r).version =
        r.version + ls.countP fun l => decide (l.1 = r.productId) := by
    intro ls
    induction ls with
    | nil => exact fun _ => rfl
    | cons l ls ih =>
      intro r
      show (stockRows.run (unreserveOps ls) (stockRows.apply (.unreserve l.1 l.2) r)).version = _
      rw [ih, productId_apply, List.countP_cons]
      by_cases h : l.1 = r.productId
      · simp only [Versioned.apply, stockRows, StockOp.productId, StockOp.effect, h, if_true,
          decide_true]
        omega
      · have hsame : stockRows.apply (.unreserve l.1 l.2) r = r := if_neg h
        rw [hsame]
        simp [h]
  obtain ⟨havailable, hreserved⟩ := run_undone ls r
  have hkey : (stockRows.run (reserveOps ls ++ unreserveOps ls) r).productId = r.productId :=
    Versioned.key_run (V := stockRows) _ r
  have hcount : (stockRows.run (reserveOps ls ++ unreserveOps ls) r).version =
      r.version + 2 * ls.countP fun l => decide (l.1 = r.productId) := by
    rw [Versioned.run_append, hversion, run_reserveOps_eq]
    show r.version + _ + ls.countP (fun l => decide (l.1 = r.productId)) = _
    omega
  cases hrun : stockRows.run (reserveOps ls ++ unreserveOps ls) r
  rw [hrun] at havailable hreserved hkey hcount
  subst hkey havailable hreserved hcount
  rfl

/-- A row of the lines that does not fit its columns once the handler is through: with all lines
    reserved, or with some of them reserved and taken back. -/
def Overflows (stock : Stock) (ls : List (ℕ × Int)) : Prop :=
  ∃ l ∈ ls, ∃ row, stock.get l.1 = some row ∧
    (Covered stock ls ∧ (row.reserving ls).storable = false ∨
      ¬ Covered stock ls ∧ ∃ changes ≤ 2 * ls.length,
        { row with version := row.version + changes }.storable = false)

theorem storable_iff {r : Inventory} : r.storable = true ↔
    (-2 ^ 31 ≤ r.availableStock ∧ r.availableStock < 2 ^ 31) ∧
      (-2 ^ 31 ≤ r.reservedStock ∧ r.reservedStock < 2 ^ 31) ∧ r.version < 2 ^ 31 := by
  unfold Inventory.storable
  rw [Bool.and_eq_true, Bool.and_eq_true, fitsInteger_iff, fitsInteger_iff, fitsInteger_iff,
    and_assoc]
  refine and_congr_right fun _ => and_congr_right fun _ => ?_
  omega

/-- Rows of the columns, with room for the sums and the versions. -/
theorem not_overflows {stock : Stock} {ls : List (ℕ × Int)} (hpos : ∀ l ∈ ls, 0 ≤ l.2)
    (hstored : ∀ row ∈ stock.rows, row.storable = true)
    (hroom : ∀ l ∈ ls, ∀ row, stock.get l.1 = some row →
      row.reservedStock + demand ls l.1 < 2 ^ 31 ∧ row.version + 2 * ls.length < 2 ^ 31) :
    ¬ Overflows stock ls := by
  rintro ⟨l, hl, row, hrow, hover⟩
  obtain ⟨havailable, hreserved, -⟩ := storable_iff.mp (hstored row (Table.mem_of_get hrow))
  obtain ⟨hsum, hversion⟩ := hroom l hl row hrow
  have hnonneg := demand_nonneg hpos l.1
  have hkey : row.productId = l.1 := Table.get_key hrow
  rcases hover with ⟨hcovered, hunfit⟩ | ⟨-, changes, hchanges, hunfit⟩
  · obtain ⟨row', hrow', hle⟩ := hcovered l hl
    obtain rfl := Option.some.inj (hrow.symm.trans hrow')
    have hcount : ls.countP (fun l => decide (l.1 = row.productId)) ≤ ls.length :=
      List.countP_le_length
    have hfits : (row.reserving ls).storable = true := by
      rw [storable_iff]
      simp only [Inventory.reserving, hkey] at hcount ⊢
      omega
    rw [hfits] at hunfit
    cases hunfit
  · have hfits : { row with version := row.version + changes }.storable = true := by
      rw [storable_iff]
      dsimp only
      omega
    rw [hfits] at hunfit
    cases hunfit

section Session

variable {db : InventoryDb} {session : Session} {ls : List (ℕ × Int)}

/-- A session that has reserved all lines: every sum is covered. -/
theorem covered (hreal : Versioned.Realizes db.stock session (reserveOps ls))
    (hfresh : Versioned.Fresh db.stock session) : Covered db.stock ls := by
  intro l hl
  have hop : StockOp.reserve l.1 l.2 ∈ reserveOps ls := List.mem_map_of_mem hl
  obtain ⟨e, he, hkey⟩ := List.mem_map.mp (hreal.covered _ hop)
  have hkey' : e.loaded.productId = l.1 := hkey
  have hrow : db.stock.get e.loaded.productId = some e.loaded := hfresh e he
  have hle := covered_row (hreal.enabled e he) ⟨l, hl, hkey'.symm⟩
  rw [hkey'] at hrow hle
  exact ⟨e.loaded, hrow, hle⟩

/-- An object that does not cover a line. -/
theorem short_of_object {e : Edit Inventory} {l : ℕ × Int}
    (hreal : Versioned.Realizes db.stock session (reserveOps ls))
    (hfresh : Versioned.Fresh db.stock session) (he : e ∈ session) (hkey : e.loaded.productId = l.1)
    (hless : e.current.availableStock < l.2) : Short db.stock ls l := by
  intro row hrow
  have hloaded : db.stock.get e.loaded.productId = some e.loaded := hfresh e he
  rw [hkey, hrow] at hloaded
  obtain rfl := Option.some.inj hloaded
  rw [hreal.current e he, (run_reserveOps ls e.loaded).1, hkey] at hless
  exact hless

/-- What is found for a line: it does not cover the line, or the line is reserved on it. -/
theorem load_line {row : Inventory} {p : ℕ} (q : Int)
    (hreal : Versioned.Realizes db.stock session (reserveOps ls))
    (hfresh : Versioned.Fresh db.stock session) (hget : db.stock.get p = some row) :
    ((stockRows.load session row).1.availableStock < q → Short db.stock ls (p, q)) ∧
      (¬ (stockRows.load session row).1.availableStock < q → Versioned.Realizes db.stock
        (stockRows.edit (stockRows.load session row).2 (.reserve p q))
          (reserveOps (ls ++ [(p, q)]))) := by
  obtain ⟨hload, e, he, hkey, hcur⟩ := hreal.load hget
  rw [hcur]
  refine ⟨fun hless => ?_, fun hstock => ?_⟩
  · exact short_of_object hload (hfresh.load hget) he hkey hless
  · have hops : reserveOps (ls ++ [(p, q)]) = reserveOps ls ++ [.reserve p q] := List.map_append
    rw [hops]
    exact hload.edit (o := StockOp.reserve p q) he hkey (Int.not_lt.mp hstock)

end Session

/-! ## The loops alone -/

section Loops

variable {db : InventoryDb} {locks : ℕ → Bool} {session : Session} {n : ℕ}

theorem reserveItem_alone (locks : ℕ → Bool) (p : ℕ) (q : Int) {st : Reservation}
    (hst : st.failureReason = none)
    (hreal : Versioned.Realizes db.stock st.session (reserveOps st.reservedItems))
    (hfresh : Versioned.Fresh db.stock st.session) :
    (∃ error, runAlone db locks (reserveItem st p q) n = (.error error, n + 1) ∧
        locks n = false) ∨
      ∃ st', runAlone db locks (reserveItem st p q) n = (.ok st', n + 1) ∧
        Versioned.Realizes db.stock st'.session (reserveOps st'.reservedItems) ∧
        Versioned.Fresh db.stock st'.session ∧
        (st'.failureReason = none ∧ st'.reservedItems = st.reservedItems ++ [(p, q)] ∨
          st'.failureReason ≠ none ∧ st'.reservedItems = st.reservedItems ∧
            Short db.stock st.reservedItems (p, q)) := by
  unfold reserveItem
  rw [runAlone_acquireLock, runAlone_selectInventory]
  cases hlock : locks n with
  | false => exact Or.inl ⟨_, rfl, rfl⟩
  | true =>
    rw [if_pos rfl]
    refine Or.inr ?_
    cases hget : db.stock.get p with
    | none =>
      refine ⟨_, rfl, hreal, hfresh, Or.inr ⟨Option.some_ne_none _, rfl, fun row hrow => ?_⟩⟩
      rw [hget] at hrow
      cases hrow
    | some row =>
      obtain ⟨hshort, hedit⟩ := load_line q hreal hfresh hget
      have hfresh' := hfresh.load hget
      dsimp only
      split
      · next hless =>
        exact ⟨_, rfl, (hreal.load hget).1, hfresh',
          Or.inr ⟨Option.some_ne_none _, rfl, hshort hless⟩⟩
      · next hstock => exact ⟨_, rfl, hedit hstock, hfresh'.edit _, Or.inl ⟨hst, rfl⟩⟩

/-- Where the loop over the items ends. -/
theorem reserveItems_alone (locks : ℕ → Bool) (items : List EventItem) {st : Reservation}
    (hst : st.failureReason = none)
    (hreal : Versioned.Realizes db.stock st.session (reserveOps st.reservedItems))
    (hfresh : Versioned.Fresh db.stock st.session) :
    ∃ n', (∃ error, runAlone db locks (reserveItems items st) n = (.error error, n') ∧
        (¬ Complete items ∨ ∃ m, locks m = false)) ∨
      ∃ st', runAlone db locks (reserveItems items st) n = (.ok st', n') ∧
        Versioned.Realizes db.stock st'.session (reserveOps st'.reservedItems) ∧
        Versioned.Fresh db.stock st'.session ∧
        (st'.failureReason = none ∧ st'.reservedItems = st.reservedItems ++ lines items ∧
            Complete items ∨
          st'.failureReason ≠ none ∧ ∃ done l rest, lines items = done ++ l :: rest ∧
            st'.reservedItems = st.reservedItems ++ done ∧
            Short db.stock (st.reservedItems ++ done) l) := by
  induction items generalizing st n with
  | nil =>
    refine ⟨n, Or.inr ⟨st, rfl, hreal, hfresh, Or.inl ⟨hst, (List.append_nil _).symm, ?_⟩⟩⟩
    exact fun _ h => absurd h List.not_mem_nil
  | cons item items ih =>
    unfold reserveItems
    cases hp : item.productId with
    | none =>
      exact ⟨n, Or.inl ⟨_, rfl, Or.inl fun h => h item List.mem_cons_self hp⟩⟩
    | some p =>
      dsimp only
      rw [runAlone_bind, lines_cons hp]
      rcases reserveItem_alone (n := n) locks p item.quantity hst hreal hfresh with
        ⟨error, hrun, hlock⟩ | ⟨st', hrun, hreal', hfresh', hcase⟩
      · rw [hrun]
        exact ⟨n + 1, Or.inl ⟨error, rfl, Or.inr ⟨n, hlock⟩⟩⟩
      rw [hrun]
      dsimp only
      rcases hcase with ⟨hok, hitems⟩ | ⟨hfail, hitems, hshort⟩
      · rw [hok]
        obtain ⟨n', hrest⟩ := ih (n := n + 1) hok hreal' hfresh'
        refine ⟨n', hrest.imp ?_ ?_⟩
        · rintro ⟨error, hrest, hwhy⟩
          refine ⟨error, hrest, hwhy.imp_left fun h hall => h fun i hi => ?_⟩
          exact hall i (List.mem_cons_of_mem _ hi)
        · rintro ⟨st'', hrest, hreal'', hfresh'', hend⟩
          refine ⟨st'', hrest, hreal'', hfresh'', hend.imp ?_ ?_⟩
          · rintro ⟨hnone, hall, hcomplete⟩
            refine ⟨hnone, ?_, List.forall_mem_cons.mpr ⟨hp ▸ Option.some_ne_none p, hcomplete⟩⟩
            rw [hall, hitems, List.append_assoc]
            rfl
          · rintro ⟨hsome, done, l, rest, hlines, hdone, hshort⟩
            refine ⟨hsome, (p, item.quantity) :: done, l, rest, ?_, ?_, ?_⟩
            · rw [hlines]
              rfl
            · rw [hdone, hitems, List.append_assoc]
              rfl
            · rw [hitems, List.append_assoc] at hshort
              exact hshort
      · obtain ⟨reason, hreason⟩ := Option.ne_none_iff_exists'.mp hfail
        rw [hreason]
        refine ⟨n + 1, Or.inr ⟨st', rfl, hreal', hfresh', Or.inr ⟨hfail, [], (p, item.quantity),
          lines items, rfl, ?_, ?_⟩⟩⟩
        · rw [hitems, List.append_nil]
        · rw [List.append_nil]
          exact hshort

/-- The loop that takes the reserved items back. -/
theorem undoItems_alone (locks : ℕ → Bool) (rest : List (ℕ × Int)) {done : List (ℕ × Int)}
    (hreal : Versioned.Realizes db.stock session
      (reserveOps (done ++ rest) ++ unreserveOps done))
    (hfresh : Versioned.Fresh db.stock session) :
    ∃ n', (∃ error, runAlone db locks (undoItems rest session) n = (.error error, n') ∧
        ∃ m, locks m = false) ∨
      ∃ session', runAlone db locks (undoItems rest session) n = (.ok session', n') ∧
        Versioned.Realizes db.stock session'
          (reserveOps (done ++ rest) ++ unreserveOps (done ++ rest)) ∧
        Versioned.Fresh db.stock session' := by
  induction rest generalizing done session n with
  | nil =>
    rw [List.append_nil] at hreal ⊢
    exact ⟨n, Or.inr ⟨session, rfl, hreal, hfresh⟩⟩
  | cons l rest ih =>
    obtain ⟨p, q⟩ := l
    unfold undoItems
    rw [runAlone_acquireLock, runAlone_selectInventory]
    cases hlock : locks n with
    | false => exact ⟨n + 1, Or.inl ⟨_, rfl, n, hlock⟩⟩
    | true =>
      rw [if_pos rfl]
      cases hget : db.stock.get p with
      | none =>
        have hmem : StockOp.reserve p q ∈
            reserveOps (done ++ (p, q) :: rest) ++ unreserveOps done := by
          simp [reserveOps]
        exact absurd hget (row_of_covered hreal hmem)
      | some row =>
        obtain ⟨hload, e, he, hkey, -⟩ := hreal.load hget
        have hedit := hload.edit (o := StockOp.unreserve p q) he hkey trivial
        have hsplit : done ++ (p, q) :: rest = (done ++ [(p, q)]) ++ rest := List.append_cons ..
        have hops : unreserveOps done ++ [.unreserve p q] = unreserveOps (done ++ [(p, q)]) := by
          simp [unreserveOps]
        rw [List.append_assoc, hops, hsplit] at hedit
        rw [hsplit]
        exact ih hedit ((hfresh.load hget).edit _)

end Loops

/-! ## The handler alone -/

/-- The available and the reserved stock of a product. -/
def levels (stock : Stock) (p : ℕ) : Option (Int × Int) :=
  (stock.get p).map fun r => (r.availableStock, r.reservedStock)

theorem levels_of_run {stock stock' : Stock} {ops : List StockOp}
    {f : Int × Int → Int × Int} {p : ℕ} (h : stock'.get p = (stock.get p).map (stockRows.run ops))
    (hrun : ∀ r : Inventory, r.productId = p →
      ((stockRows.run ops r).availableStock, (stockRows.run ops r).reservedStock) =
        f (r.availableStock, r.reservedStock)) :
    levels stock' p = (levels stock p).map f := by
  unfold levels
  rw [h]
  cases hp : stock.get p with
  | none => rfl
  | some r => exact congrArg some (hrun r (Table.get_key hp))

/-- `w` reserves the sums of the lines, and announces it. -/
structure Reserves (db : InventoryDb) (tid : ℕ) (e : SagaEvent) (w : InventoryWrites)
    (stock : Stock) : Prop where
  covered : Covered db.stock (lines e.payload.items)
  event : w.outbox = [reservedEvent tid e]
  moved : ∀ p, levels stock p = (levels db.stock p).map fun l =>
    (l.1 - demand (lines e.payload.items) p, l.2 + demand (lines e.payload.items) p)

/-- `w` leaves every stock as it is, and announces the failure. -/
structure Refuses (db : InventoryDb) (tid : ℕ) (e : SagaEvent) (w : InventoryWrites)
    (stock : Stock) : Prop where
  short : ¬ Covered db.stock (lines e.payload.items)
  event : ∃ reason, w.outbox = [reserveFailedEvent tid e reason]
  untouched : ∀ p, levels stock p = levels db.stock p

/-- The session that the handler leaves: with the lines reserved, or with those before the first
    that is short reserved and taken back. -/
theorem handled_cases (db : InventoryDb) (locks : ℕ → Bool) (tid : ℕ) (e : SagaEvent)
    (hlines : ∀ l ∈ lines e.payload.items, 0 < l.2) :
    (∃ error, (runAlone db locks (handleOrderCreated tid e) 0).1 = .error error ∧
        (¬ Complete e.payload.items ∨ ∃ n, locks n = false)) ∨
      ∃ w, (runAlone db locks (handleOrderCreated tid e) 0).1 = .ok w ∧
        Versioned.Fresh db.stock w.session ∧
        (Covered db.stock (lines e.payload.items) ∧ w.outbox = [reservedEvent tid e] ∧
            Versioned.Realizes db.stock w.session (reserveOps (lines e.payload.items)) ∨
          ¬ Covered db.stock (lines e.payload.items) ∧
            (∃ reason, w.outbox = [reserveFailedEvent tid e reason]) ∧
            ∃ done, done.Sublist (lines e.payload.items) ∧
              Versioned.Realizes db.stock w.session (reserveOps done ++ unreserveOps done)) := by
  unfold handleOrderCreated
  rw [runAlone_bind]
  have hstart : Versioned.Realizes db.stock ({} : Reservation).session
      (reserveOps ({} : Reservation).reservedItems) := Versioned.Realizes.empty db.stock
  have hnew : Versioned.Fresh db.stock ({} : Reservation).session := Versioned.Fresh.empty db.stock
  obtain ⟨n, hloop⟩ := reserveItems_alone (n := 0) locks e.payload.items rfl hstart hnew
  rcases hloop with ⟨error, hrun, hwhy⟩ | ⟨st, hrun, hreal, hfresh, hend⟩
  · rw [hrun]
    exact Or.inl ⟨error, rfl, hwhy⟩
  rw [hrun]
  dsimp only
  rcases hend with ⟨hnone, hall, -⟩ | ⟨hsome, done, l, rest, hsplit, hdone, hshort⟩
  · have hitems : st.reservedItems = lines e.payload.items := hall
    rw [hitems] at hreal
    rw [hnone]
    exact Or.inr ⟨_, rfl, hfresh, Or.inl ⟨covered hreal hfresh, rfl, hreal⟩⟩
  · obtain ⟨reason, hreason⟩ := Option.ne_none_iff_exists'.mp hsome
    have hreal' : Versioned.Realizes db.stock st.session
        (reserveOps ([] ++ st.reservedItems) ++ unreserveOps []) := by
      rw [List.nil_append, unreserveOps, List.map_nil, List.append_nil]
      exact hreal
    rw [hreason]
    dsimp only
    rw [runAlone_bind]
    obtain ⟨n', hundo⟩ := undoItems_alone (n := n) locks st.reservedItems hreal' hfresh
    rcases hundo with ⟨error, hundo, hwhy⟩ | ⟨session, hundo, hreal'', hfresh''⟩
    · rw [hundo]
      exact Or.inl ⟨error, rfl, Or.inr hwhy⟩
    · rw [hundo]
      refine Or.inr ⟨_, rfl, hfresh'', Or.inr ⟨?_, ⟨reason, rfl⟩, st.reservedItems, ?_, hreal''⟩⟩
      · rw [hsplit]
        refine not_covered (fun l' hl' => Int.le_of_lt (hlines l' ?_)) hshort
        rw [hsplit]
        exact List.mem_append_right _ (List.mem_cons_of_mem _ hl')
      · rw [hdone, hsplit]
        exact List.sublist_append_left _ _

/-- The stock after the flush of a session that reserves the lines. -/
theorem levels_reserved {stock stock' : Stock} {ls : List (ℕ × Int)}
    (hget : ∀ p, stock'.get p = (stock.get p).map (stockRows.run (reserveOps ls))) (p : ℕ) :
    levels stock' p = (levels stock p).map fun l => (l.1 - demand ls p, l.2 + demand ls p) := by
  refine levels_of_run (hget p) fun r hr => ?_
  rw [(run_reserveOps _ r).1, (run_reserveOps _ r).2, hr]

theorem levels_undone {stock stock' : Stock} {ls : List (ℕ × Int)}
    (hget : ∀ p, stock'.get p =
      (stock.get p).map (stockRows.run (reserveOps ls ++ unreserveOps ls))) (p : ℕ) :
    levels stock' p = levels stock p := by
  have hsame := levels_of_run (f := id) (hget p) fun r _ =>
    Prod.ext (run_undone _ r).1 (run_undone _ r).2
  rw [hsame, Option.map_id]
  rfl

/-- A row that the flush refuses is one of the lines. -/
theorem overflows_of_unfit {session : Session} {ops : List StockOp} {ls : List (ℕ × Int)}
    {stock : Stock} (hreal : Versioned.Realizes stock session ops)
    (hfresh : Versioned.Fresh stock session) (hunfit : ¬ session.all objectFits = true)
    (htouched : ∀ o ∈ ops, ∃ l ∈ ls, l.1 = o.productId) :
    ∃ l ∈ ls, ∃ row, stock.get l.1 = some row ∧ (stockRows.run ops row).storable = false := by
  by_contra hnone
  refine hunfit ((session_fits_iff hreal hfresh).mpr fun p row hrow => ?_)
  by_cases hnamed : ∃ l ∈ ls, l.1 = p
  · obtain ⟨l, hl, rfl⟩ := hnamed
    exact Or.inr (Bool.not_eq_false _ ▸ fun h => hnone ⟨l, hl, row, hrow, h⟩)
  · refine Or.inl (Versioned.run_of_untouched fun o ho htarget => hnamed ?_)
    obtain ⟨l, hl, hkey⟩ := htouched o ho
    exact ⟨l, hl, hkey.trans (htarget.trans (Table.get_key hrow))⟩

/-- The handler raises only if an id is no uuid or a lock is not granted. Otherwise it reserves the
    sums of the products and says so, or it leaves every stock as it is and says that; or the flush
    of its session fails on a value beyond its column, and nothing is written. -/
theorem handleOrderCreated_alone (db : InventoryDb) (locks : ℕ → Bool) (tid : ℕ) (e : SagaEvent)
    (hpos : ∀ i ∈ e.payload.items, 0 < i.quantity) :
    (∃ error, (runAlone db locks (handleOrderCreated tid e) 0).1 = .error error ∧
        (¬ Complete e.payload.items ∨ ∃ n, locks n = false)) ∨
      ∃ w, (runAlone db locks (handleOrderCreated tid e) 0).1 = .ok w ∧
        ((∃ stock, flushStock db.stock w.session = some stock ∧
            (Reserves db tid e w stock ∨ Refuses db tid e w stock)) ∨
          flushStock db.stock w.session = none ∧ db.commit (w.record e) = none ∧
            Overflows db.stock (lines e.payload.items)) := by
  have hlines : ∀ l ∈ lines e.payload.items, 0 < l.2 := by
    intro l hl
    obtain ⟨i, hi, -, hq⟩ := mem_lines hl
    exact hq ▸ hpos i hi
  refine (handled_cases db locks tid e hlines).imp_right ?_
  rintro ⟨w, hrun, hfresh, hcase⟩
  refine ⟨w, hrun, ?_⟩
  have hrolled : flushStock db.stock w.session = none → db.commit (w.record e) = none := by
    intro hnone
    show (flushStock db.stock w.session >>= _) = none
    rw [hnone]
    rfl
  rcases hcase with ⟨hcovered, hevent, hreal⟩ | ⟨hshort, hevent, done, hdone, hreal⟩
  · rcases flushStock_fresh hreal hfresh with ⟨⟨stock, hflush, hget⟩, -⟩ | ⟨hnone, hunfit⟩
    · exact Or.inl ⟨stock, hflush, Or.inl ⟨hcovered, hevent, levels_reserved hget⟩⟩
    · refine Or.inr ⟨hnone, hrolled hnone, ?_⟩
      obtain ⟨l, hl, row, hrow, hover⟩ := overflows_of_unfit hreal hfresh hunfit fun o ho => by
        obtain ⟨l, hl, rfl⟩ := List.mem_map.mp ho
        exact ⟨l, hl, rfl⟩
      exact ⟨l, hl, row, hrow, Or.inl ⟨hcovered, run_reserveOps_eq _ row ▸ hover⟩⟩
  · rcases flushStock_fresh hreal hfresh with ⟨⟨stock, hflush, hget⟩, -⟩ | ⟨hnone, hunfit⟩
    · exact Or.inl ⟨stock, hflush, Or.inr ⟨hshort, hevent, levels_undone hget⟩⟩
    · refine Or.inr ⟨hnone, hrolled hnone, ?_⟩
      obtain ⟨l, hl, row, hrow, hover⟩ := overflows_of_unfit hreal hfresh hunfit fun o ho => by
        rcases List.mem_append.mp ho with ho | ho <;> obtain ⟨l, hl, rfl⟩ := List.mem_map.mp ho
        · exact ⟨l, hdone.subset hl, rfl⟩
        · exact ⟨l, hdone.subset hl, rfl⟩
      rw [run_undone_eq] at hover
      refine ⟨l, hl, row, hrow, Or.inr ⟨hshort, _, ?_, hover⟩⟩
      exact Nat.mul_le_mul_left 2 (List.countP_le_length.trans hdone.length_le)

/-- Product 0 has five pieces; the order names it twice and takes them all. -/
def fivePieces : InventoryDb :=
  { stock := ⟨[⟨0, 5, 0, 1⟩], by decide⟩, outbox := .empty, inbox := .empty }

def namedTwice : SagaEvent :=
  ⟨.text "e1", .orderCreatedEvent, .text "c1",
    { orderId := some (.text "o1"), items := [⟨some 0, 3, 0, false⟩, ⟨some 0, 2, 0, false⟩] }⟩

theorem handleOrderCreated_alone_namedTwice :
    (∃ error, (runAlone fivePieces (fun _ => true) (handleOrderCreated 0 namedTwice) 0).1 =
        .error error ∧ (¬ Complete namedTwice.payload.items ∨ ∃ n : ℕ, (fun _ => true) n = false)) ∨
      ∃ w, (runAlone fivePieces (fun _ => true) (handleOrderCreated 0 namedTwice) 0).1 = .ok w ∧
        ((∃ stock, flushStock fivePieces.stock w.session = some stock ∧
            (Reserves fivePieces 0 namedTwice w stock ∨ Refuses fivePieces 0 namedTwice w stock)) ∨
          flushStock fivePieces.stock w.session = none ∧
            fivePieces.commit (w.record namedTwice) = none ∧
            Overflows fivePieces.stock (lines namedTwice.payload.items)) :=
  handleOrderCreated_alone fivePieces (fun _ => true) 0 namedTwice (by decide)

/-! ## A full column -/

/-- As many pieces are reserved as the column can hold, and one is left. -/
def fullColumn : InventoryDb :=
  { stock := ⟨[⟨0, 1, 2147483647, 1⟩], by decide⟩, outbox := .empty, inbox := .empty }

/-- The order of the last piece. -/
def lastPiece : SagaEvent :=
  ⟨.text "e1", .orderCreatedEvent, .text "c1",
    { orderId := some (.text "o1"), items := [⟨some 0, 1, 0, false⟩] }⟩

/-- A handler that gets its locks does not always write one of its events. -/
theorem unwritten_full : ¬ ∀ (db : InventoryDb) (locks : ℕ → Bool) (tid : ℕ) (e : SagaEvent),
    (∀ i ∈ e.payload.items, 0 < i.quantity) → Complete e.payload.items → (∀ n, locks n = true) →
      ∃ w stock, (runAlone db locks (handleOrderCreated tid e) 0).1 = .ok w ∧
        flushStock db.stock w.session = some stock ∧
        (Reserves db tid e w stock ∨ Refuses db tid e w stock) := by
  intro hevery
  obtain ⟨w, stock, hrun, hflush, -⟩ := hevery fullColumn (fun _ => true) 0 lastPiece (by decide)
    (fun i hi => by rw [List.mem_singleton.mp hi]; exact Option.some_ne_none 0) fun _ => rfl
  have hsession : (runAlone fullColumn (fun _ => true) (handleOrderCreated 0 lastPiece) 0).1 =
      .ok { session := [⟨⟨0, 1, 2147483647, 1⟩, ⟨0, 0, 2147483648, 2⟩⟩]
            outbox := [reservedEvent 0 lastPiece] } := rfl
  obtain rfl := Except.ok.inj (hsession.symm.trans hrun)
  have hnone : flushStock fullColumn.stock
      [⟨⟨0, 1, 2147483647, 1⟩, ⟨0, 0, 2147483648, 2⟩⟩] = none :=
    if_neg (by decide)
  rw [hnone] at hflush
  cases hflush

end CloudScale.InventoryService
