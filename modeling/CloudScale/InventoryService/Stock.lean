/-
  Conservation of stock under optimistic concurrency control.

  What a list of operations does to one row is computed by induction on the list: `total_run` for
  the sum of the two stocks, `run_reserveOps`, `run_undone` and `run_releaseOps` for the two
  separately. `commit_sound` is the step lemma (a commit keeps the rows non-negative and changes the
  total of a product by what it restocks), `stock_conserved` the run lemma: no interleaving of
  transactions oversells a product or loses a restock.
-/
import Mathlib.Algebra.Order.BigOperators.Group.List
import Mathlib.Algebra.Ring.Int.Defs
import CloudScale.InventoryService.Sessions

namespace CloudScale.InventoryService

open CloudScale.Lib CloudScale.Shared

/-! ## Operations on a row -/

/-- How much of product `p` a list of lines names. -/
def demand (ls : List (ℕ × Int)) (p : ℕ) : Int :=
  (ls.map fun l => if l.1 = p then l.2 else 0).sum

@[simp] theorem demand_nil (p : ℕ) : demand [] p = 0 := rfl

@[simp] theorem demand_cons (l : ℕ × Int) (ls : List (ℕ × Int)) (p : ℕ) :
    demand (l :: ls) p = (if l.1 = p then l.2 else 0) + demand ls p := List.sum_cons

theorem demand_nonneg {ls : List (ℕ × Int)} (h : ∀ l ∈ ls, 0 ≤ l.2) (p : ℕ) :
    0 ≤ demand ls p := by
  refine List.sum_nonneg fun x hx => ?_
  obtain ⟨l, hl, rfl⟩ := List.mem_map.mp hx
  split
  · exact h l hl
  · exact Int.le_refl 0

def Inventory.total (r : Inventory) : Int := r.availableStock + r.reservedStock

/-- What an operation adds to the total of product `p`. -/
def StockOp.added (p : ℕ) : StockOp → Int
  | .restock p' q => if p' = p then q else 0
  | _ => 0

theorem apply_of_ne {o : StockOp} {r : Inventory} (h : o.productId ≠ r.productId) :
    stockRows.apply o r = r := if_neg h

theorem apply_of_eq {o : StockOp} {r : Inventory} (h : o.productId = r.productId) :
    stockRows.apply o r = o.effect r := if_pos h

theorem productId_apply (o : StockOp) (r : Inventory) :
    (stockRows.apply o r).productId = r.productId := Versioned.key_apply (V := stockRows) o r

theorem total_apply (o : StockOp) (r : Inventory) :
    (stockRows.apply o r).total = r.total + o.added r.productId := by
  by_cases h : o.productId = r.productId
  · rw [apply_of_eq h]
    cases o with
    | reserve p q => simp only [StockOp.effect, StockOp.added, Inventory.total]; omega
    | unreserve p q => simp only [StockOp.effect, StockOp.added, Inventory.total]; omega
    | release p q => simp only [StockOp.effect, StockOp.added, Inventory.total]; omega
    | restock p q =>
      have hadded : (StockOp.restock p q).added r.productId = q := if_pos h
      rw [hadded]
      simp only [StockOp.effect, Inventory.total]
      omega
  · rw [apply_of_ne h]
    have hadded : o.added r.productId = 0 := by
      cases o with
      | restock p q => exact if_neg h
      | reserve p q => rfl
      | unreserve p q => rfl
      | release p q => rfl
    rw [hadded, Int.add_zero]

theorem total_run (ops : List StockOp) (r : Inventory) :
    (stockRows.run ops r).total = r.total + (ops.map (StockOp.added r.productId)).sum := by
  induction ops generalizing r with
  | nil => simp
  | cons o ops ih =>
    rw [Versioned.run_cons, ih, total_apply, productId_apply, List.map_cons, List.sum_cons]
    omega

/-- Neither stock of the row is negative. -/
def Inventory.Sound (r : Inventory) : Prop := 0 ≤ r.availableStock ∧ 0 ≤ r.reservedStock

theorem run_reserveOps (ls : List (ℕ × Int)) (r : Inventory) :
    (stockRows.run (reserveOps ls) r).availableStock = r.availableStock - demand ls r.productId ∧
      (stockRows.run (reserveOps ls) r).reservedStock =
        r.reservedStock + demand ls r.productId := by
  induction ls generalizing r with
  | nil => simp [reserveOps]
  | cons l ls ih =>
    obtain ⟨p, q⟩ := l
    have hrec := ih (stockRows.apply (.reserve p q) r)
    rw [productId_apply] at hrec
    show (stockRows.run (reserveOps ls) (stockRows.apply (.reserve p q) r)).availableStock = _ ∧
      (stockRows.run (reserveOps ls) (stockRows.apply (.reserve p q) r)).reservedStock = _
    rw [hrec.1, hrec.2, demand_cons]
    by_cases h : p = r.productId
    · rw [apply_of_eq (o := StockOp.reserve p q) h, if_pos h]
      simp only [StockOp.effect]
      omega
    · rw [apply_of_ne (o := StockOp.reserve p q) h, if_neg h]
      omega

theorem run_unreserveOps (ls : List (ℕ × Int)) (r : Inventory) :
    (stockRows.run (unreserveOps ls) r).availableStock =
        r.availableStock + demand ls r.productId ∧
      (stockRows.run (unreserveOps ls) r).reservedStock =
        r.reservedStock - demand ls r.productId := by
  induction ls generalizing r with
  | nil => simp [unreserveOps]
  | cons l ls ih =>
    obtain ⟨p, q⟩ := l
    have hrec := ih (stockRows.apply (.unreserve p q) r)
    rw [productId_apply] at hrec
    show (stockRows.run (unreserveOps ls) (stockRows.apply (.unreserve p q) r)).availableStock = _ ∧
      (stockRows.run (unreserveOps ls) (stockRows.apply (.unreserve p q) r)).reservedStock = _
    rw [hrec.1, hrec.2, demand_cons]
    by_cases h : p = r.productId
    · rw [apply_of_eq (o := StockOp.unreserve p q) h, if_pos h]
      simp only [StockOp.effect]
      omega
    · rw [apply_of_ne (o := StockOp.unreserve p q) h, if_neg h]
      omega

/-- Reserved and taken back: both stocks are what they were. -/
theorem run_undone (ls : List (ℕ × Int)) (r : Inventory) :
    (stockRows.run (reserveOps ls ++ unreserveOps ls) r).availableStock = r.availableStock ∧
      (stockRows.run (reserveOps ls ++ unreserveOps ls) r).reservedStock = r.reservedStock := by
  have hkey : (stockRows.run (reserveOps ls) r).productId = r.productId :=
    Versioned.key_run (V := stockRows) _ r
  obtain ⟨ha, hr⟩ := run_reserveOps ls r
  obtain ⟨ha', hr'⟩ := run_unreserveOps ls (stockRows.run (reserveOps ls) r)
  rw [Versioned.run_append, ha', hr', ha, hr, hkey]
  omega

/-- Enough reserved stock: a release takes exactly what its lines name. -/
theorem run_releaseOps {ls : List (ℕ × Int)} (hpos : ∀ l ∈ ls, 0 ≤ l.2) {r : Inventory}
    (h : demand ls r.productId ≤ r.reservedStock) :
    (stockRows.run (releaseOps ls) r).reservedStock =
      r.reservedStock - demand ls r.productId := by
  induction ls generalizing r with
  | nil => simp [releaseOps]
  | cons l ls ih =>
    obtain ⟨p, q⟩ := l
    have hq : 0 ≤ q := hpos (p, q) List.mem_cons_self
    have hrest : ∀ l ∈ ls, 0 ≤ l.2 := fun l hl => hpos l (List.mem_cons_of_mem _ hl)
    have hnonneg := demand_nonneg hrest r.productId
    rw [demand_cons] at h ⊢
    show (stockRows.run (releaseOps ls) (stockRows.apply (.release p q) r)).reservedStock = _
    by_cases hp : p = r.productId
    · simp only [if_pos hp] at h ⊢
      have hres : (stockRows.apply (.release p q) r).reservedStock = r.reservedStock - q := by
        rw [apply_of_eq (o := StockOp.release p q) hp]
        simp only [StockOp.effect]
        omega
      rw [ih hrest (by rw [productId_apply, hres]; omega), productId_apply, hres]
      omega
    · simp only [if_neg hp] at h ⊢
      have hsame : stockRows.apply (.release p q) r = r :=
        apply_of_ne (o := StockOp.release p q) hp
      rw [hsame, ih hrest (by omega)]
      omega

/-- An operation that leaves sound rows sound. -/
def StockOp.Mild : StockOp → Prop
  | .reserve _ q => 0 ≤ q
  | .unreserve _ _ => False
  | .release _ q => 0 ≤ q
  | .restock _ q => 0 ≤ q

theorem sound_apply {o : StockOp} {r : Inventory} (ho : o.Mild) (hr : r.Sound)
    (hg : o.productId = r.productId → o.guard r) : (stockRows.apply o r).Sound := by
  by_cases h : o.productId = r.productId
  · have hguard := hg h
    rw [apply_of_eq h]
    cases o with
    | reserve p q =>
      simp only [StockOp.Mild, StockOp.guard, Inventory.Sound, StockOp.effect] at *
      omega
    | unreserve p q => exact absurd ho id
    | release p q =>
      simp only [StockOp.Mild, Inventory.Sound, StockOp.effect] at *
      omega
    | restock p q =>
      simp only [StockOp.Mild, Inventory.Sound, StockOp.effect] at *
      omega
  · rw [apply_of_ne h]
    exact hr

theorem sound_run {ops : List StockOp} {r : Inventory} (hops : ∀ o ∈ ops, o.Mild) (hr : r.Sound)
    (henabled : stockRows.Enabled ops r) : (stockRows.run ops r).Sound := by
  induction ops generalizing r with
  | nil => exact hr
  | cons o ops ih =>
    have hnext := sound_apply (hops o List.mem_cons_self) hr henabled.1
    exact ih (fun o' ho' => hops o' (List.mem_cons_of_mem o ho')) hnext henabled.2

/-! ## Commits -/

/-- The quantities of a request are positive; the schemas check those of the API. -/
def Positive : InventoryRequest → Prop
  | .event e => ∀ i ∈ e.payload.items, 0 < i.quantity
  | _ => True

def SoundDb (db : InventoryDb) : Prop := ∀ p r, db.stock.get p = some r → r.Sound

/-- The stock of a product: available and reserved. -/
def stockOf (db : InventoryDb) (p : ℕ) : Int := ((db.stock.get p).map Inventory.total).getD 0

/-- What a committed transaction restocks of product `p`. -/
def restockedBy (p : ℕ) : InventoryRequest × Outcome InventoryWrites → Int
  | (.restock p' payload, .handled _) => if p' = p then payload.quantity else 0
  | _ => 0

def restocked (committed : List (InventoryRequest × Outcome InventoryWrites)) (p : ℕ) : Int :=
  (committed.map (restockedBy p)).sum

theorem mem_lines {items : List EventItem} {l : ℕ × Int} (h : l ∈ lines items) :
    ∃ i ∈ items, i.productId = some l.1 ∧ i.quantity = l.2 := by
  obtain ⟨i, hi, hl⟩ := List.mem_filterMap.mp h
  obtain ⟨p, hp, rfl⟩ := Option.map_eq_some_iff.mp hl
  exact ⟨i, hi, hp, rfl⟩

theorem lines_pos {e : SagaEvent} (hpos : Positive (.event e)) :
    ∀ l ∈ lines e.payload.items, 0 < l.2 := by
  intro l hl
  obtain ⟨i, hi, -, hq⟩ := mem_lines hl
  exact hq ▸ hpos i hi

/-- The row of a product that a restock creates: there was none. -/
theorem created_fresh {db db' : InventoryDb} {w : InventoryWrites} {c : Inventory}
    {ops : List StockOp} (hc : db.commit w = some db')
    (hreal : Versioned.Realizes db.stock w.session ops) (hw : w.created = some c) :
    db.stock.get c.productId = none ∧ db'.stock.get c.productId = some c := by
  obtain ⟨⟨stock, hflush, hext⟩, -, -⟩ := commit_eq_some hc
  rw [hw] at hext
  have hmem : c ∈ (some c).toList := List.mem_singleton_self c
  have hnone : stock.get c.productId = none :=
    Table.get_eq_none_iff.mpr (Table.key_not_mem_of_extend hext hmem)
  have hrun := (Versioned.flush_run hreal hflush c.productId).1
  constructor
  · rw [hnone] at hrun
    exact Option.map_eq_none_iff.mp hrun.symm
  · rw [Table.get_extend hext, hnone]
    simp [stockRows]

section Commit

variable {tid : ℕ} {granted : Prop} {begun db db' : InventoryDb} {r : InventoryRequest}
  {w : InventoryWrites} {ops : List StockOp}

/-- Sound rows stay sound. -/
theorem account_sound (h : Account tid granted begun r w ops) (hpos : Positive r)
    {row : Inventory} (hrow : row.Sound) (henabled : stockRows.Enabled ops row) :
    (stockRows.run ops row).Sound := by
  have hmild : ∀ ls : List (ℕ × Int), (∀ l ∈ ls, 0 < l.2) →
      (∀ o ∈ reserveOps ls, o.Mild) ∧ ∀ o ∈ releaseOps ls, o.Mild := by
    refine fun ls hls => ⟨fun o ho => ?_, fun o ho => ?_⟩
    · obtain ⟨l, hl, rfl⟩ := List.mem_map.mp ho
      exact Int.le_of_lt (hls l hl)
    · obtain ⟨l, hl, rfl⟩ := List.mem_map.mp ho
      exact Int.le_of_lt (hls l hl)
  cases h with
  | reserved htype hall => exact sound_run (hmild _ (lines_pos hpos)).1 hrow henabled
  | refused htype hdone =>
    obtain ⟨ha, hr⟩ := run_undone _ row
    exact ⟨ha.symm ▸ hrow.1, hr.symm ▸ hrow.2⟩
  | released htype hsub hall =>
    exact sound_run (fun o ho => (hmild _ (lines_pos hpos)).2 o (hsub.subset ho)) hrow henabled
  | interrupted htype hsub hfail =>
    exact sound_run (fun o ho => (hmild _ (lines_pos hpos)).2 o (hsub.subset ho)) hrow henabled
  | restocked =>
    refine sound_run (fun o ho => ?_) hrow henabled
    obtain rfl := List.mem_singleton.mp ho
    exact Int.le_of_lt (RestockRequest.quantity_pos _)
  | created => exact hrow
  | batch =>
    refine sound_run (hmild _ fun l hl => ?_).1 hrow henabled
    obtain ⟨i, _, rfl⟩ := List.mem_map.mp hl
    exact i.quantity_pos

/-- The total of an existing row changes by what the transaction restocks. -/
theorem account_total (h : Account tid granted begun r w ops) {row : Inventory}
    (hw : ∀ c, w.created = some c → c.productId ≠ row.productId) :
    (stockRows.run ops row).total = row.total + restockedBy row.productId (r, .handled w) := by
  have hzero : ∀ os : List StockOp, (∀ o ∈ os, o.added row.productId = 0) →
      (stockRows.run os row).total = row.total := by
    intro os hos
    rw [total_run, List.sum_eq_zero (by simpa using hos), Int.add_zero]
  have hreserve : ∀ ls : List (ℕ × Int), ∀ o ∈ reserveOps ls, o.added row.productId = 0 := by
    intro ls o ho
    obtain ⟨l, _, rfl⟩ := List.mem_map.mp ho
    rfl
  have hrelease : ∀ ls : List (ℕ × Int), ∀ o ∈ releaseOps ls, o.added row.productId = 0 := by
    intro ls o ho
    obtain ⟨l, _, rfl⟩ := List.mem_map.mp ho
    rfl
  cases h with
  | reserved htype hall => exact (hzero _ (hreserve _)).trans (Int.add_zero _).symm
  | refused htype hdone =>
    obtain ⟨ha, hr⟩ := run_undone _ row
    rw [Inventory.total, ha, hr]
    exact (Int.add_zero _).symm
  | released htype hsub hall =>
    exact (hzero _ fun o ho => hrelease _ o (hsub.subset ho)).trans (Int.add_zero _).symm
  | interrupted htype hsub hfail =>
    exact (hzero _ fun o ho => hrelease _ o (hsub.subset ho)).trans (Int.add_zero _).symm
  | restocked =>
    rw [total_run]
    simp [restockedBy, StockOp.added]
  | @created p' payload =>
    have hne : p' ≠ row.productId := hw _ rfl
    show row.total = row.total + if p' = row.productId then payload.quantity else 0
    rw [if_neg hne, Int.add_zero]
  | batch => exact (hzero _ (hreserve _)).trans (Int.add_zero _).symm

/-- A product that has no row after the commit was not restocked. -/
theorem account_absent (h : Account tid granted begun r w ops)
    (hreal : Versioned.Realizes db.stock w.session ops) (hc : db.commit w = some db') {p : ℕ}
    (hget : db.stock.get p = none) (hget' : db'.stock.get p = none) :
    restockedBy p (r, .handled w) = 0 := by
  cases h with
  | @restocked p' payload session =>
    refine if_neg fun heq => ?_
    exact row_of_covered hreal (List.mem_singleton_self _) (heq ▸ hget)
  | @created p' payload =>
    refine if_neg fun heq => ?_
    have hrow := (created_fresh hc hreal rfl).2
    rw [show (newInventory p' payload).productId = p from heq, hget'] at hrow
    cases hrow
  | _ => rfl

/-- A commit keeps every row sound and changes a product's stock by what it restocks. -/
theorem commit_sound (hacc : Accounted tid granted begun r db w) (hpos : Positive r)
    (hc : db.commit w = some db') (hsound : SoundDb db) :
    SoundDb db' ∧ ∀ p, stockOf db' p = stockOf db p + restockedBy p (r, .handled w) := by
  obtain ⟨ops, hreal, haccount⟩ := hacc
  -- a product without a row: the commit creates it or leaves it so
  have hnew : ∀ p row, db.stock.get p = none → db'.stock.get p = some row →
      row.Sound ∧ row.total = restockedBy p (r, .handled w) := by
    intro p row hnone hrow
    obtain ⟨hcreated, rfl⟩ := get_commit_none hc hreal hnone hrow
    cases haccount with
    | @created p' payload =>
      cases hcreated
      refine ⟨⟨Int.le_of_lt payload.quantity_pos, Int.le_refl 0⟩, ?_⟩
      show payload.quantity + 0 = if p' = p' then payload.quantity else 0
      rw [if_pos rfl, Int.add_zero]
    | _ => cases hcreated
  refine ⟨fun p row hrow => ?_, fun p => ?_⟩
  · cases hget : db.stock.get p with
    | none => exact (hnew p row hget hrow).1
    | some old =>
      obtain ⟨hrun, henabled⟩ := get_commit hc hreal hget
      obtain rfl := Option.some.inj (hrow.symm.trans hrun)
      exact account_sound haccount hpos (hsound p old hget) henabled
  · unfold stockOf
    cases hget : db.stock.get p with
    | none =>
      cases hrow : db'.stock.get p with
      | some row => simpa using (hnew p row hget hrow).2
      | none =>
        show (0 : Int) = 0 + restockedBy p (r, .handled w)
        rw [account_absent haccount hreal hc hget hrow, Int.add_zero]
    | some old =>
      obtain ⟨hrun, -⟩ := get_commit hc hreal hget
      have hkey : old.productId = p := Table.get_key hget
      rw [hrun]
      subst hkey
      refine account_total haccount fun c hcreated heq => ?_
      have hfresh := (created_fresh hc hreal hcreated).1
      rw [heq, hget] at hfresh
      cases hfresh

end Commit

/-! ## Runs -/

/-- The quantities of the request that arrives are positive. -/
def PositiveStart (_ : InventoryServer) : Label InventoryRequest InventoryEnv → Prop
  | .start r => Positive r
  | .move _ => True

/-- All transactions in flight leave writes that are accounted for. -/
abbrev AllAccounted (srv : InventoryServer) : Prop :=
  srv.AllSafe InventoryDb.answer Later (fun _ _ _ _ => True)
    (fun tk t o => AccountedOutcome tk.tid (Granted fun _ _ _ => True) tk.begun tk.req t o) srv.db

/-- What holds along a run that starts on `db`. -/
structure Conserved (db : InventoryDb) (s : InventoryServer) : Prop where
  accounted : AllAccounted s
  positive : s.Pending Positive
  sound : SoundDb s.db
  stock : ∀ p, stockOf s.db p = stockOf db p + restocked s.committed p

theorem restocked_cons (rw : InventoryRequest × Outcome InventoryWrites)
    (committed : List (InventoryRequest × Outcome InventoryWrites)) (p : ℕ) :
    restocked (rw :: committed) p = restockedBy p rw + restocked committed p := List.sum_cons

/-- A commit keeps the stock, up to what it restocks. -/
theorem conserved_commit {db d d' : InventoryDb} {tk : Ticket InventoryDb InventoryRequest}
    {o : Outcome InventoryWrites} {committed : List (InventoryRequest × Outcome InventoryWrites)}
    (haccount : AccountedOutcome tk.tid (Granted fun _ _ _ => True) tk.begun tk.req d o)
    (hpos : Positive tk.req) (hc : service.commit o d = some d') (hsound : SoundDb d)
    (hstock : ∀ p, stockOf d p = stockOf db p + restocked committed p) :
    SoundDb d' ∧ ∀ p, stockOf d' p = stockOf db p + restocked ((tk.req, o) :: committed) p := by
  cases o with
  | handled w =>
    obtain ⟨hsound', hstock'⟩ := commit_sound haccount hpos hc hsound
    refine ⟨hsound', fun p => ?_⟩
    rw [hstock', hstock, restocked_cons]
    omega
  | skipped =>
    obtain rfl := Option.some.inj hc
    refine ⟨hsound, fun p => ?_⟩
    have hnothing : restockedBy p (tk.req, .skipped) = 0 := by cases tk.req <;> rfl
    rw [restocked_cons, hnothing, Int.zero_add, hstock]
  | ignored =>
    obtain rfl := Option.some.inj hc
    refine ⟨hsound, fun p => ?_⟩
    have hnothing : restockedBy p (tk.req, .ignored) = 0 := by cases tk.req <;> rfl
    rw [restocked_cons, hnothing, Int.zero_add, hstock]

theorem conserved_step {db : InventoryDb} {s s' : InventoryServer}
    {l : Label InventoryRequest InventoryEnv} (h : Conserved db s) (hok : PositiveStart s l)
    (hstep : service.step s l = some s') : Conserved db s' := by
  have G := inventory_guarantees fun _ _ _ _ => True
  cases l with
  | start r =>
    cases hstep
    exact ⟨G.startSafe r h.accounted, pending_start h.positive hok, h.sound, h.stock⟩
  | move m =>
    have hsafe : AllAccounted s' :=
      G.moveSafe h.accounted hstep (goodMove_of_forall (fun _ _ _ _ => trivial) m)
    have hpositive := pending_move h.positive hstep
    obtain ⟨i, a, ha, ⟨ω, q, k, -, -, rfl⟩ | ⟨o, db', -, hp, hc, rfl⟩ | ⟨v, hv, rfl⟩⟩ :=
      Service.move_cases hstep
    · exact ⟨hsafe, hpositive, h.sound, h.stock⟩
    · have hmem := List.mem_of_getElem? ha
      have haccount := allSafe_result h.accounted hmem hp (Later.refl _)
      obtain ⟨hsound, hstock⟩ :=
        conserved_commit haccount (h.positive a hmem) hc h.sound h.stock
      exact ⟨hsafe, hpositive, hsound, hstock⟩
    · have hsame : (s.close i a v).committed = s.committed := Server.close_uncommitted hv
      exact ⟨hsafe, hpositive, h.sound, hsame ▸ h.stock⟩

/-- In every state of every run with positive quantities, no stock is negative and the stock of
    each product is its initial stock and what was restocked. -/
theorem stock_conserved {db : InventoryDb} (hdb : SoundDb db)
    {ls : List (Label InventoryRequest InventoryEnv)} {srv : InventoryServer}
    (h : Reaches service.step PositiveStart (Server.init db ()) ls srv) :
    SoundDb srv.db ∧ ∀ p, stockOf srv.db p = stockOf db p + restocked srv.committed p := by
  have hinit : Conserved db (Server.init db ()) :=
    ⟨allSafe_init db (), pending_init db (), hdb, fun p => (Int.add_zero _).symm⟩
  have hinv : Conserved db srv :=
    h.invariant _ hinit fun _ _ _ hs hok hstep => conserved_step hs hok hstep
  exact ⟨hinv.sound, hinv.stock⟩

def oneItem : Inventory := { productId := 0, availableStock := 1, reservedStock := 0, version := 1 }

def oneItemDb : InventoryDb :=
  { stock := ⟨[oneItem], List.nodup_singleton _⟩, outbox := .empty, inbox := .empty }

/-- The restock reads the row before the reservation is committed, so its commit is rejected; its
    second attempt goes through. -/
def contended : List (Label InventoryRequest InventoryEnv) :=
  let created : SagaEvent :=
    { eventId := .text "created", eventType := .orderCreatedEvent, correlationId := .text "checkout"
      payload := { orderId := some (.text "order")
                   items := [{ productId := some 0, quantity := 1 }] } }
  let restock : InventoryRequest := .restock 0 ⟨5, by decide⟩
  [.start (.event created), .start restock, .move (.advance 0 ⟨true⟩), .move (.advance 0 ⟨true⟩),
    .move (.advance 0 ⟨true⟩), .move (.advance 1 ⟨true⟩), .move (.advance 1 ⟨true⟩),
    .move (.finish 0), .move (.finish 0), .start restock, .move (.advance 0 ⟨true⟩),
    .move (.advance 0 ⟨true⟩), .move (.finish 0)]

theorem stock_conserved_contended : ∃ srv,
    Reaches service.step PositiveStart (Server.init oneItemDb ()) contended srv ∧
      restocked srv.committed 0 = 5 ∧ stockOf srv.db 0 = stockOf oneItemDb 0 + 5 := by
  have hsound : SoundDb oneItemDb := by
    intro p r hget
    obtain rfl := List.mem_singleton.mp (Table.mem_of_get hget)
    exact ⟨by decide, by decide⟩
  have hpositive : ∀ s, ∀ l ∈ contended, PositiveStart s l := by
    simp [contended, PositiveStart, Positive]
  have hrun : Reaches service.step PositiveStart (Server.init oneItemDb ()) contended _ :=
    reaches_of_allSteps contended _ _ rfl (allSteps_of_forall hpositive _)
  exact ⟨_, hrun, rfl, (stock_conserved hsound hrun).2 0⟩

end CloudScale.InventoryService
