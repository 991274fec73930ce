/-
  A release of stock that fails part way (`_handle_release_stock` behind `handle_event`).

  The handler catches every exception of its loop and returns; `handle_event` cannot tell, adds the
  inbox row and commits. A database error is the only failure that undoes what went before it: the
  transaction is aborted, so the commit fails. It fails also on a released value that is beyond its
  column.

  `releaseLoop` has the exceptions of the loop by name; `releaseLoop_exec` connects it to the loop
  of `Handlers`, where they are one. `allOrNothing_iff`: the event is handled as a whole or left to
  be retried exactly if it is in the inbox already, or the first failure, if there is one, is a
  database error, or what was released before it does not fit its columns. `swallowed` is the lock
  timeout of a second item.
-/
import CloudScale.InventoryService.Stock

namespace CloudScale.InventoryService.ReleaseFailures

open CloudScale.Lib CloudScale.Shared

/-! ## The loop -/

/-- What may go wrong at an item: `acquire_lock` times out or does not reach Redis, or the select
    fails. -/
inductive Fault where
  | lock
  | database
deriving DecidableEq

inductive ReleaseError where
  | productId
  | lock
  | database
deriving DecidableEq

/-- One item of `_handle_release_stock`. -/
def releaseItem (db : InventoryDb) (fault : Option Fault) (session : Session) (item : EventItem) :
    Except ReleaseError Session :=
  match item.productId with
  | none => .error .productId
  | some productId =>
    match fault with
    | some .lock => .error .lock
    | some .database => .error .database
    | none =>
      match db.stock.get productId with
      | some row => .ok (stockRows.edit (stockRows.load session row).2
          (.release productId item.quantity))
      | none => .ok session

/-- The loop over the items, with the faults they meet: the session it leaves and the exception that
    ended it, if one did. -/
def releaseLoop (db : InventoryDb) :
    (ℕ → Option Fault) → List EventItem → Session → Session × Option ReleaseError
  | _, [], session => (session, none)
  | faults, item :: items, session =>
    match releaseItem db (faults 0) session item with
    | .error error => (session, some error)
    | .ok session => releaseLoop db (fun n => faults (n + 1)) items session

/-- What `_handle_release_stock` leaves: the changes in the session, and whether its transaction is
    aborted. -/
structure Left where
  writes : InventoryWrites
  aborted : Bool

/-- `_handle_release_stock`; the exception is logged. -/
def handleReleaseStock (db : InventoryDb) (faults : ℕ → Option Fault) (tid : ℕ) (e : SagaEvent) :
    Left :=
  match releaseLoop db faults e.payload.items [] with
  | (session, none) => ⟨{ session, outbox := [releasedEvent tid e] }, false⟩
  | (session, some error) => ⟨{ session }, error = .database⟩

/-- `PaymentFailedEvent` or `OrderCancelledEvent`. -/
def IsRelease (e : SagaEvent) : Prop :=
  e.eventType = .paymentFailedEvent ∨ e.eventType = .orderCancelledEvent

/-- `handle_event` on an event that releases stock: the database it commits, or an exception, by
    which everything is rolled back. -/
def handleEvent (db : InventoryDb) (faults : ℕ → Option Fault) (tid : ℕ)
    (e : { e : SagaEvent // IsRelease e }) : Option InventoryDb :=
  if inboxAlreadyProcessed db.inbox e.1.eventId then some db
  else
    let left := handleReleaseStock db faults tid e.1
    if left.aborted then none else db.commit (left.writes.record e.1)

/-- The database after `handle_event`. -/
def after (db : InventoryDb) (faults : ℕ → Option Fault) (tid : ℕ)
    (e : { e : SagaEvent // IsRelease e }) : InventoryDb := (handleEvent db faults tid e).getD db

/-! ## Failures -/

/-- The exception of an item with its fault. -/
def failure (fault : Option Fault) (item : EventItem) : Option ReleaseError :=
  match item.productId with
  | none => some .productId
  | some _ => fault.map fun
    | .lock => .lock
    | .database => .database

def firstFailure : (ℕ → Option Fault) → List EventItem → Option ReleaseError
  | _, [] => none
  | faults, item :: items =>
    (failure (faults 0) item).or (firstFailure (fun n => faults (n + 1)) items)

/-- The items before the first failure. -/
def released : (ℕ → Option Fault) → List EventItem → List EventItem
  | _, [] => []
  | faults, item :: items =>
    match failure (faults 0) item with
    | some _ => []
    | none => item :: released (fun n => faults (n + 1)) items

/-- A row does not fit its columns with the lines released. -/
def Unfit (db : InventoryDb) (ls : List (ℕ × Int)) : Prop :=
  ∃ l ∈ ls, ∃ row, db.stock.get l.1 = some row ∧
    (stockRows.run (releaseOps ls) row).storable = false

section Loop

variable {db : InventoryDb} {session : Session} {ops : List StockOp}

/-- An item fails as `failure` says, or it leaves its operation in the session if its product has a
    row. -/
theorem releaseItem_cases (fault : Option Fault) (item : EventItem)
    (hreal : Versioned.Realizes db.stock session ops)
    (hfresh : Versioned.Fresh db.stock session) :
    (∃ error, failure fault item = some error ∧
        releaseItem db fault session item = .error error) ∨
      ∃ p session' ops', failure fault item = none ∧ item.productId = some p ∧
        releaseItem db fault session item = .ok session' ∧
        Versioned.Realizes db.stock session' (ops ++ ops') ∧
        Versioned.Fresh db.stock session' ∧
        ∀ r, db.stock.get r.productId ≠ none →
          stockRows.run ops' r = stockRows.apply (.release p item.quantity) r := by
  unfold failure releaseItem
  cases hp : item.productId with
  | none => exact Or.inl ⟨_, rfl, rfl⟩
  | some p =>
    cases fault with
    | some f => cases f <;> exact Or.inl ⟨_, rfl, rfl⟩
    | none =>
      refine Or.inr ?_
      cases hget : db.stock.get p with
      | none =>
        refine ⟨p, session, [], rfl, rfl, by simp only [hget], ?_, hfresh, fun r hr => ?_⟩
        · rw [List.append_nil]
          exact hreal
        · refine (apply_of_ne fun heq => ?_).symm
          have hkey : p = r.productId := heq
          exact hr (hkey ▸ hget)
      | some row =>
        obtain ⟨hload, x, hx, hkey, -⟩ := hreal.load hget
        have hedit := hload.edit (o := StockOp.release p item.quantity) hx hkey trivial
        exact ⟨p, _, [.release p item.quantity], rfl, rfl, by simp only [hget], hedit,
          (hfresh.load hget).edit _, fun _ _ => rfl⟩

/-- The loop ends with the first failure and has released the items before it. -/
theorem releaseLoop_realizes (faults : ℕ → Option Fault) (items : List EventItem)
    (hreal : Versioned.Realizes db.stock session ops)
    (hfresh : Versioned.Fresh db.stock session) :
    (releaseLoop db faults items session).2 = firstFailure faults items ∧
      ∃ ops', Versioned.Realizes db.stock (releaseLoop db faults items session).1 (ops ++ ops') ∧
        Versioned.Fresh db.stock (releaseLoop db faults items session).1 ∧
        ∀ r, db.stock.get r.productId ≠ none →
          stockRows.run ops' r = stockRows.run (releaseOps (lines (released faults items))) r := by
  induction items generalizing faults session ops with
  | nil =>
    refine ⟨rfl, [], ?_, hfresh, fun _ _ => rfl⟩
    rw [List.append_nil]
    exact hreal
  | cons item items ih =>
    unfold releaseLoop firstFailure released
    rcases releaseItem_cases (faults 0) item hreal hfresh with
      ⟨error, hfail, hitem⟩ | ⟨p, session', ops', hfail, hp, hitem, hreal', hfresh', hrun⟩
    · rw [hitem, hfail]
      refine ⟨rfl, [], ?_, hfresh, fun _ _ => rfl⟩
      rw [List.append_nil]
      exact hreal
    · rw [hitem, hfail]
      obtain ⟨hend, ops'', hreal'', hfresh'', hrest⟩ :=
        ih (fun n => faults (n + 1)) hreal' hfresh'
      refine ⟨hend, ops' ++ ops'', by rw [← List.append_assoc]; exact hreal'', hfresh'',
        fun r hr => ?_⟩
      have hkey : db.stock.get (stockRows.apply (.release p item.quantity) r).productId ≠ none := by
        rw [productId_apply]
        exact hr
      dsimp only
      rw [Versioned.run_append, hrun r hr, hrest _ hkey, lines_cons hp]
      rfl

/-- Without a failure every item names a product and is released. -/
theorem released_all {faults : ℕ → Option Fault} {items : List EventItem}
    (h : firstFailure faults items = none) : released faults items = items ∧ Complete items := by
  induction items generalizing faults with
  | nil => exact ⟨rfl, fun _ h => absurd h List.not_mem_nil⟩
  | cons item items ih =>
    unfold firstFailure at h
    unfold released
    obtain ⟨hfail, hrest⟩ := Option.or_eq_none_iff.mp h
    obtain ⟨hall, hcomplete⟩ := ih hrest
    rw [hfail, hall]
    refine ⟨rfl, List.forall_mem_cons.mpr ⟨fun hnone => ?_, hcomplete⟩⟩
    rw [failure, hnone] at hfail
    cases hfail

/-- What the loop leaves can be flushed exactly if the released rows fit. -/
theorem fits_iff {ls : List (ℕ × Int)} (hreal : Versioned.Realizes db.stock session ops)
    (hfresh : Versioned.Fresh db.stock session)
    (hrun : ∀ r, db.stock.get r.productId ≠ none →
      stockRows.run ops r = stockRows.run (releaseOps ls) r) :
    session.all objectFits = true ↔ ¬ Unfit db ls := by
  have hrow : ∀ p row, db.stock.get p = some row →
      stockRows.run ops row = stockRows.run (releaseOps ls) row := by
    intro p row hget
    have hkey : row.productId = p := Table.get_key hget
    exact hrun row (by rw [hkey, hget]; exact Option.some_ne_none row)
  rw [session_fits_iff hreal hfresh]
  constructor
  · rintro hall ⟨l, hl, row, hget, hover⟩
    have hop : StockOp.release l.1 l.2 ∈ releaseOps ls := List.mem_map_of_mem hl
    have hlt := Versioned.version_lt_run (V := stockRows) hop (Table.get_key hget).symm
    rcases hall l.1 row hget with hsame | hfits
    · rw [← hrow _ _ hget, hsame] at hlt
      exact Nat.lt_irrefl _ hlt
    · rw [hrow _ _ hget, hover] at hfits
      cases hfits
  · intro hfit p row hget
    rw [hrow p row hget]
    by_cases hnamed : ∃ l ∈ ls, l.1 = p
    · obtain ⟨l, hl, rfl⟩ := hnamed
      refine Or.inr (of_not_not fun hover => hfit ⟨l, hl, row, hget, ?_⟩)
      exact Bool.not_eq_true _ ▸ hover
    · refine Or.inl (Versioned.run_of_untouched fun o ho htarget => hnamed ?_)
      obtain ⟨l, hl, rfl⟩ := List.mem_map.mp ho
      exact ⟨l, hl, htarget.trans (Table.get_key hget)⟩

end Loop

/-! ## All or nothing -/

/-- The release of all items is committed, with its event and the inbox row. -/
structure Released (db : InventoryDb) (tid : ℕ) (e : SagaEvent) (db' : InventoryDb) : Prop where
  complete : Complete e.payload.items
  stock : ∀ p, db'.stock.get p =
    (db.stock.get p).map (stockRows.run (releaseOps (lines e.payload.items)))
  outbox : db'.outbox.rows = db.outbox.rows ++ [releasedEvent tid e]
  inbox : db'.inbox.rows = db.inbox.rows ++ [recordInbox e "inventory-consumer"]

def AllOrNothing (db : InventoryDb) (tid : ℕ) (e : SagaEvent) (db' : InventoryDb) : Prop :=
  db' = db ∨ Released db tid e db'

section Commit

variable {db db' : InventoryDb} {e : SagaEvent} {session : Session} {ops : List StockOp}

/-- The commit after a failure that was only logged: it adds the inbox row. -/
theorem commit_swallowed (hreal : Versioned.Realizes db.stock session ops)
    (hfresh : Versioned.Fresh db.stock session) (hfits : session.all objectFits = true)
    (hinbox : ¬ inboxAlreadyProcessed db.inbox e.eventId = true) :
    ∃ db', db.commit (InventoryWrites.record e { session }) = some db' ∧
      db'.outbox.rows = db.outbox.rows ∧
      db'.inbox.rows = db.inbox.rows ++ [recordInbox e "inventory-consumer"] := by
  obtain ⟨stock, hflush, -⟩ := hreal.flush hfresh
  have hstock : flushStock db.stock session = some stock := (if_pos hfits).trans hflush
  rw [inboxAlreadyProcessed_iff] at hinbox
  obtain ⟨inbox, hadd⟩ := Table.extend_eq_some (x := recordInbox e "inventory-consumer") hinbox
  refine ⟨⟨stock, db.outbox, inbox⟩, ?_, rfl, Table.rows_extend hadd⟩
  show (do
    let stock ← flushStock db.stock session
    let stock ← stock.extend []
    let outbox ← db.outbox.extend []
    let inbox ← db.inbox.extend [recordInbox e "inventory-consumer"]
    if true then some { stock, outbox, inbox : InventoryDb } else none) = _
  rw [hstock, hadd, Table.extend_nil]
  simp [Table.extend_nil]

/-- Values that do not fit fail the commit. -/
theorem commit_unfit {w : InventoryWrites} (hunfit : ¬ w.session.all objectFits = true) :
    db.commit w = none := by
  have hnone : flushStock db.stock w.session = none := if_neg hunfit
  unfold InventoryDb.commit
  rw [hnone]
  rfl

/-- The commit after a loop without a failure. -/
theorem released_of_commit {tid : ℕ} (hcomplete : Complete e.payload.items)
    (hreal : Versioned.Realizes db.stock session ops)
    (hrun : ∀ r, db.stock.get r.productId ≠ none →
      stockRows.run ops r = stockRows.run (releaseOps (lines e.payload.items)) r)
    (h : db.commit (InventoryWrites.record e { session, outbox := [releasedEvent tid e] }) =
      some db') : Released db tid e db' := by
  obtain ⟨⟨stock, hflush, hext⟩, houtbox, hinbox⟩ := commit_eq_some h
  refine ⟨hcomplete, fun p => ?_, Table.rows_extend houtbox, Table.rows_extend hinbox⟩
  have hrows : db'.stock.rows = stock.rows ++ [] := Table.rows_extend hext
  have hget : db'.stock.get p = stock.get p := by
    unfold Table.get
    rw [hrows, List.append_nil]
  rw [hget, (Versioned.flush_run hreal hflush p).1]
  cases hp : db.stock.get p with
  | none => rfl
  | some r =>
    have hkey : r.productId = p := Table.get_key hp
    have hstocked : db.stock.get r.productId ≠ none := by
      rw [hkey, hp]
      exact Option.some_ne_none r
    rw [Option.map_some, Option.map_some, hrun r hstocked]

end Commit

/-- The event is handled as a whole or not at all exactly if it was handled before, or the first
    failure, if there is one, is a database error, or the commit fails on what was released until
    then. -/
theorem allOrNothing_iff (db : InventoryDb) (faults : ℕ → Option Fault) (tid : ℕ)
    (e : { e : SagaEvent // IsRelease e }) :
    AllOrNothing db tid e.1 (after db faults tid e) ↔
      inboxAlreadyProcessed db.inbox e.1.eventId = true ∨
        (∀ error, firstFailure faults e.1.payload.items = some error → error = .database) ∨
          Unfit db (lines (released faults e.1.payload.items)) := by
  unfold after handleEvent
  by_cases hinbox : inboxAlreadyProcessed db.inbox e.1.eventId = true
  · rw [if_pos hinbox]
    exact iff_of_true (Or.inl rfl) (Or.inl hinbox)
  rw [if_neg hinbox, or_iff_right hinbox]
  obtain ⟨hend, ops, hreal, hfresh, hrun⟩ := releaseLoop_realizes faults e.1.payload.items
    (Versioned.Realizes.empty db.stock) (Versioned.Fresh.empty db.stock)
  rw [List.nil_append] at hreal
  have hfits := fits_iff hreal hfresh hrun
  unfold handleReleaseStock
  cases hloop : releaseLoop db faults e.1.payload.items [] with
  | mk session ended =>
    rw [hloop] at hend hreal hfresh hfits
    obtain rfl : ended = firstFailure faults e.1.payload.items := hend
    cases hfirst : firstFailure faults e.1.payload.items with
    | none =>
      refine iff_of_true ?_ (Or.inl nofun)
      obtain ⟨hall, hcomplete⟩ := released_all hfirst
      rw [hall] at hrun
      dsimp only
      rw [if_neg Bool.false_ne_true]
      cases hcommit : db.commit
          (InventoryWrites.record e.1 { session, outbox := [releasedEvent tid e.1] }) with
      | none => exact Or.inl rfl
      | some db' => exact Or.inr (released_of_commit hcomplete hreal hrun hcommit)
    | some error =>
      by_cases herror : error = .database
      · obtain rfl := herror
        exact iff_of_true (Or.inl rfl) (Or.inl fun _ h => (Option.some.inj h).symm)
      rw [or_iff_right fun h => herror (h error rfl)]
      dsimp only
      rw [decide_eq_false herror, if_neg Bool.false_ne_true]
      by_cases hsession : session.all objectFits = true
      · refine iff_of_false ?_ (hfits.mp hsession)
        obtain ⟨db', hcommit, houtbox, hadded⟩ := commit_swallowed hreal hfresh hsession hinbox
        rw [hcommit]
        rintro (hsame | hreleased)
        · have hlength := congrArg (fun d => d.inbox.rows.length) hsame
          simp [hadded] at hlength
        · have hlength := congrArg List.length hreleased.outbox
          simp [houtbox] at hlength
      · refine iff_of_true ?_ (of_not_not (mt hfits.mpr hsession))
        have hcommit : db.commit (InventoryWrites.record e.1 { session }) = none :=
          commit_unfit hsession
        rw [hcommit]
        exact Or.inl rfl

/-- Two reserved products. -/
def reservedStock : InventoryDb :=
  { stock := ⟨[⟨0, 8, 2, 1⟩, ⟨1, 5, 1, 1⟩], by decide⟩, outbox := .empty, inbox := .empty }

/-- The order of both is cancelled. -/
def cancelled : { e : SagaEvent // IsRelease e } :=
  ⟨⟨.text "e1", .orderCancelledEvent, .text "c1",
    { orderId := some (.text "o1"), items := [⟨some 0, 2, 0, false⟩, ⟨some 1, 1, 0, false⟩] }⟩,
    Or.inr rfl⟩

/-- A release is not always atomic; the lock of the second product times out, and the release of
    the first one is committed with the inbox row. -/
theorem swallowed : ¬ ∀ (db : InventoryDb) (faults : ℕ → Option Fault) (tid : ℕ)
    (e : { e : SagaEvent // IsRelease e }), AllOrNothing db tid e.1 (after db faults tid e) := by
  intro hevery
  have hafter : (after reservedStock (fun n => if n = 1 then some .lock else none) 0
      cancelled).outbox.rows = [] ∧ (after reservedStock
      (fun n => if n = 1 then some .lock else none) 0 cancelled).inbox.rows.length = 1 := by decide
  rcases hevery reservedStock (fun n => if n = 1 then some .lock else none) 0 cancelled with
    hsame | hreleased
  · rw [hsame] at hafter
    exact absurd hafter.2 (by decide)
  · rw [hreleased.outbox] at hafter
    exact absurd hafter.1 (by simp)

/-! ## The loop of the transactions -/

/-- Without database errors this is the loop of the transaction programs: they take note only of
    whether an exception ended it. -/
theorem releaseLoop_exec {db : InventoryDb} {faults : ℕ → Option Fault}
    (hfaults : ∀ n, faults n ≠ some .database) (items : List EventItem)
    (session : Session) (n : ℕ) :
    (runAlone db (fun n => (faults n).isNone) (releaseItems items session) n).1 =
      .ok ((releaseLoop db (fun i => faults (n + i)) items session).1,
        (releaseLoop db (fun i => faults (n + i)) items session).2.isNone) := by
  induction items generalizing session n with
  | nil => rfl
  | cons item items ih =>
    unfold releaseItems releaseLoop releaseItem
    cases hp : item.productId with
    | none => rfl
    | some p =>
      have hshift : (fun i => faults (n + (i + 1))) = fun i => faults (n + 1 + i) := by
        funext i
        rw [Nat.add_right_comm, Nat.add_assoc]
      dsimp only
      rw [runAlone_acquired, Nat.add_zero]
      cases hf : faults n with
      | some fault =>
        cases fault with
        | lock => rfl
        | database => exact absurd hf (hfaults n)
      | none =>
        simp only [Option.isNone_none, if_true, runAlone_selectInventory]
        cases hget : db.stock.get p with
        | none =>
          dsimp only
          rw [hshift, ← ih session (n + 1)]
        | some row =>
          dsimp only
          rw [hshift, ← ih _ (n + 1)]

end CloudScale.InventoryService.ReleaseFailures
