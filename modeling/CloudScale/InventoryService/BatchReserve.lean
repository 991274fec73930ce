/-
  `InventoryService.reserve_batch` with its retries, while other transactions commit.

  The statements of a request are executed one after another, the `n`th on the committed database
  `states n`; in between other transactions move the rows forward (`Later`, which every commit of
  the service is: `commit_later`). What the session's own transaction has written, and not rolled
  back, is a list of updates with the rows they replaced.

  `flush_written` says what a flush writes that goes through: by `Realizes`, the operations of
  the items on the rows it replaces. `reserveBatch_atomic`: the batch is written once, by the
  attempt that returns, or nothing of it is left; besides the two exceptions of the method that is
  the error of the database for a value beyond its column (`raised_full`). `paths_agree`: without
  other writers this is the reservation of `_handle_order_created`.
-/
import CloudScale.InventoryService.Reservations

namespace CloudScale.InventoryService

open CloudScale.Lib CloudScale.Shared

/-! ## The session's transaction -/

/-- An UPDATE that was executed: the row that it replaced and the one it wrote. -/
structure Update where
  old : Inventory
  new : Inventory

structure BatchSession where
  objects : Session := []
  written : List Update := []

/-- What is raised within `reserve_batch`. -/
inductive BatchExc where
  | staleDataError
  | dbapiError
  | conflictException (message : String)
  | raised (e : Exc)

/-- `UPDATE inventory SET .. WHERE product_id = .. AND version = ..`: a value beyond its column is
    refused, and the statement must match its row. -/
def update (db : InventoryDb) (e : Edit Inventory) : Except BatchExc Update :=
  if e.current.storable then
    match db.stock.get e.loaded.productId with
    | some row =>
      if row.version = e.loaded.version then .ok ⟨row, e.current⟩ else .error .staleDataError
    | none => .error .staleDataError
  else .error .dbapiError

/-- `session.flush()`: the changed objects are written one after another. That one of them was stale
    is noticed when all statements are sent. -/
def flush (states : ℕ → InventoryDb) :
    Session → List Update → ℕ → Except BatchExc (List Update) × ℕ
  | [], written, n => (.ok written, n)
  | e :: es, written, n =>
    if e.current = e.loaded then flush states es written n
    else
      match update (states n) e with
      | .ok u => flush states es (written ++ [u]) (n + 1)
      | .error .staleDataError =>
        match flush states es written (n + 1) with
        | (.ok _, n) => (.error .staleDataError, n)
        | (.error exc, n) => (.error exc, n)
      | .error exc => (.error exc, n + 1)

/-- A transaction body from its `n`th statement on. -/
def runAlong {R : Type} (states : ℕ → InventoryDb) (p : InventoryTxn R) (n : ℕ) :
    Except Exc R × ℕ := p.exec (fun n q => (states n).answer ⟨true⟩ q) (fun _ n => n + 1) n

section Along

variable {R : Type} {states : ℕ → InventoryDb} {n n' p : ℕ}

theorem runAlong_safe {post : InventoryDb → R → Prop} {prog : InventoryTxn R} {r : R}
    (hlater : ∀ n, Later (states n) (states (n + 1)))
    (h : Safe InventoryDb.answer Later (fun _ _ _ => True) post prog (states n))
    (hrun : runAlong states prog n = (.ok r, n')) : post (states n') r :=
  exec_along states (fun _ : ℕ => (⟨true⟩ : InventoryEnv)) Later.refl (fun _ _ _ => Later.trans)
    (fun _ => hlater) h hrun

theorem runAlong_selectInventory {session : Session}
    {f : Option Inventory × Session → InventoryTxn R} :
    runAlong states (selectInventory session p >>= f) n = match (states n).stock.get p with
      | some row => runAlong states
          (f (some (stockRows.load session row).1, (stockRows.load session row).2)) (n + 1)
      | none => runAlong states (f (none, session)) (n + 1) := by
  have hrow : (states n).answer ⟨true⟩ (.row p) = (states n).stock.get p := rfl
  unfold runAlong selectInventory
  rw [Txn.bind_assoc, Txn.query_bind, exec_ask, hrow]
  cases (states n).stock.get p with
  | some row => rfl
  | none => rfl

end Along

/-! ## The service -/

/-- `reserved_records`: an object for every item. -/
def reservedRecords (items : List BatchReserveItem) (objects : Session) : List Inventory :=
  items.filterMap fun i =>
    (objects.find? fun e => e.loaded.productId = i.productId).map Edit.current

/-- The block under `begin_nested()`: an exception rolls back to its savepoint and expires the
    objects. -/
def reserveNested (states : ℕ → InventoryDb) (items : List BatchReserveItem) (s : BatchSession)
    (n : ℕ) : Except BatchExc (List Inventory) × BatchSession × ℕ :=
  match runAlong states (reserveBatch items s.objects) n with
  | (.error e, n) => (.error (.raised e), { s with objects := [] }, n)
  | (.ok w, n) =>
    match flush states w.session s.written n with
    | (.ok written, n) => (.ok (reservedRecords items w.session), ⟨w.session, written⟩, n)
    | (.error e, n) => (.error e, { s with objects := [] }, n)

/-- `session.rollback()` -/
def BatchSession.rollback (_ : BatchSession) : BatchSession := {}

def conflict : BatchExc :=
  .conflictException "Concurrent inventory update conflict. Please retry."

/-- The loop over the attempts. -/
def reserveAttempts (states : ℕ → InventoryDb) (items : List BatchReserveItem) (maxRetries : ℕ) :
    List ℕ → BatchSession → ℕ → Except BatchExc (List Inventory) × BatchSession × ℕ
  | [], s, n => (.error conflict, s, n)
  | attempt :: rest, s, n =>
    match reserveNested states items s n with
    | (.ok records, s, n) => (.ok records, s, n)
    | (.error .staleDataError, s, n) =>
      if attempt = maxRetries - 1 then (.error conflict, s.rollback, n)
      else reserveAttempts states items maxRetries rest s.rollback n
    | (.error e, s, n) => (.error e, s.rollback, n)

/-- `reserve_batch`. -/
def reserveBatchRetrying (states : ℕ → InventoryDb) (items : List BatchReserveItem)
    (maxRetries : ℕ) : Except BatchExc (List Inventory) × BatchSession × ℕ :=
  reserveAttempts states items maxRetries (List.range maxRetries) {} 0

/-! ## One attempt -/

/-- The products and quantities of a batch. -/
def batchLines (items : List BatchReserveItem) : List (ℕ × Int) :=
  items.map fun i => (i.productId, i.quantity)

section Attempt

variable {states : ℕ → InventoryDb} {session : Session} {ops : List StockOp} {n n' : ℕ}

theorem update_eq_ok {db : InventoryDb} {e : Edit Inventory} {u : Update}
    (h : update db e = .ok u) : db.stock.get e.loaded.productId = some u.old ∧
      u.old.version = e.loaded.version ∧ u.new = e.current := by
  unfold update at h
  split at h
  · split at h
    · next row hrow =>
      split at h
      · next hversion =>
        obtain rfl := Except.ok.inj h
        exact ⟨hrow, hversion, rfl⟩
      · cases h
    · cases h
  · cases h

/-- What an UPDATE raises. -/
theorem update_eq_error {db : InventoryDb} {e : Edit Inventory} {exc : BatchExc}
    (h : update db e = .error exc) :
    exc = .staleDataError ∨ exc = .dbapiError ∧ e.current.storable = false := by
  unfold update at h
  split at h
  · split at h
    · split at h
      · cases h
      · exact Or.inl (Except.error.inj h).symm
    · exact Or.inl (Except.error.inj h).symm
  · next hunfit => exact Or.inr ⟨(Except.error.inj h).symm, Bool.eq_false_iff.mpr hunfit⟩

/-- An UPDATE replaces the row that was loaded. -/
theorem old_eq_loaded {db : InventoryDb} {e : Edit Inventory} {u : Update}
    (hseen : Versioned.Seen (V := stockRows) db.stock e.loaded) (h : update db e = .ok u) :
    u.old = e.loaded := by
  obtain ⟨hrow, hversion, -⟩ := update_eq_ok h
  obtain ⟨row, hrow', -, heq⟩ := hseen
  have hsame : row = u.old := Option.some.inj (hrow'.symm.trans hrow)
  subst hsame
  exact heq hversion.symm

/-- What a flush that goes through has written: each changed object over the row it was loaded
    from. -/
theorem flush_written (hlater : ∀ n, Later (states n) (states (n + 1)))
    (hseen : ∀ e ∈ session, Versioned.Seen (V := stockRows) (states n).stock e.loaded)
    {written written' : List Update} (h : flush states session written n = (.ok written', n')) :
    ∃ us, written' = written ++ us ∧
      us = (session.filter fun e => e.current ≠ e.loaded).map (fun e => ⟨e.loaded, e.current⟩) ∧
      ∀ u ∈ us, ∃ m, (states m).stock.get u.old.productId = some u.old := by
  induction session generalizing written n with
  | nil =>
    obtain ⟨h, -⟩ := Prod.mk.inj h
    obtain rfl := Except.ok.inj h
    exact ⟨[], (List.append_nil _).symm, rfl, fun _ h => absurd h List.not_mem_nil⟩
  | cons e es ih =>
    obtain ⟨hseen_e, hseen_es⟩ := List.forall_mem_cons.mp hseen
    unfold flush at h
    split at h
    · next hsame =>
      rw [List.filter_cons_of_neg (by simpa using hsame)]
      exact ih hseen_es h
    · next hchanged =>
      rw [List.filter_cons_of_pos (by simpa using hchanged)]
      split at h
      · next u hu =>
        obtain ⟨hrow, -, hnew⟩ := update_eq_ok hu
        have hold := old_eq_loaded hseen_e hu
        obtain ⟨us, hus, hchanges, hcurrent⟩ :=
          ih (fun e' he' => (hseen_es e' he').mono (hlater n)) h
        have hupdate : u = ⟨e.loaded, e.current⟩ := by rw [← hold, ← hnew]
        refine ⟨u :: us, ?_, ?_, List.forall_mem_cons.mpr ⟨⟨n, ?_⟩, hcurrent⟩⟩
        · rw [hus, List.append_assoc]
          rfl
        · rw [List.map_cons, ← hchanges, hupdate]
        · rw [hold] at hrow ⊢
          exact hrow
      · split at h <;> cases h
      · cases h

/-- A flush that raises: an object was stale, or one does not fit its columns. -/
theorem flush_error {written : List Update} {exc : BatchExc}
    (h : flush states session written n = (.error exc, n')) : exc = .staleDataError ∨
      exc = .dbapiError ∧ ∃ e ∈ session, e.current ≠ e.loaded ∧ e.current.storable = false := by
  induction session generalizing written n exc n' with
  | nil => cases h
  | cons e es ih =>
    have hrest : ∀ {written : List Update} {n n' : ℕ} {exc : BatchExc},
        flush states es written n = (.error exc, n') → exc = .staleDataError ∨
          exc = .dbapiError ∧
            ∃ e' ∈ e :: es, e'.current ≠ e'.loaded ∧ e'.current.storable = false := by
      intro written n n' exc h
      refine (ih h).imp_right ?_
      rintro ⟨hexc, e', he', hunfit⟩
      exact ⟨hexc, e', List.mem_cons_of_mem e he', hunfit⟩
    unfold flush at h
    split at h
    · exact hrest h
    · next hchanged =>
      split at h
      · exact hrest h
      · split at h
        · next hres =>
          obtain ⟨h, -⟩ := Prod.mk.inj h
          exact Or.inl (Except.error.inj h).symm
        · next hres =>
          obtain ⟨h, -⟩ := Prod.mk.inj h
          obtain rfl := Except.error.inj h
          exact hrest hres
      · next hu =>
        obtain ⟨h, -⟩ := Prod.mk.inj h
        obtain rfl := Except.error.inj h
        refine (update_eq_error hu).imp_right ?_
        rintro ⟨hexc, hunfit⟩
        exact ⟨hexc, e, List.mem_cons_self, hchanged, hunfit⟩

end Attempt

/-! ## The batch -/

/-- The written rows are those of the batch's products, each over a committed row, with the sum of
    its product moved from the available to the reserved stock. -/
structure Moved (states : ℕ → InventoryDb) (items : List BatchReserveItem) (written : List Update) :
    Prop where
  nodup : (written.map fun u => u.old.productId).Nodup
  products : ∀ p, p ∈ written.map (fun u => u.old.productId) ↔ p ∈ items.map (·.productId)
  committed : ∀ u ∈ written, ∃ m, (states m).stock.get u.old.productId = some u.old
  moved : ∀ u ∈ written, u.new.productId = u.old.productId ∧
    u.new.availableStock = u.old.availableStock - demand (batchLines items) u.old.productId ∧
    u.new.reservedStock = u.old.reservedStock + demand (batchLines items) u.old.productId

section Batch

variable {states : ℕ → InventoryDb} {items : List BatchReserveItem} {n n' : ℕ}

/-- The objects that a session with the operations of the items has changed. -/
theorem changed_iff {stock : Stock} {session : Session}
    (hreal : Versioned.Realizes stock session (reserveOps (batchLines items)))
    {e : Edit Inventory} (he : e ∈ session) :
    e.current ≠ e.loaded ↔ e.loaded.productId ∈ items.map (·.productId) := by
  rw [hreal.current e he]
  constructor
  · intro hchanged
    by_contra hnot
    refine hchanged (Versioned.run_of_untouched fun o ho heq => hnot ?_)
    obtain ⟨l, hl, rfl⟩ := List.mem_map.mp ho
    obtain ⟨i, hi, rfl⟩ := List.mem_map.mp hl
    have hkey : i.productId = e.loaded.productId := heq
    exact hkey ▸ List.mem_map_of_mem hi
  · intro hmem hsame
    obtain ⟨i, hi, hkey⟩ := List.mem_map.mp hmem
    have hop : StockOp.reserve i.productId i.quantity ∈ reserveOps (batchLines items) :=
      List.mem_map_of_mem (List.mem_map_of_mem hi)
    have hlt := Versioned.version_lt_run (V := stockRows) hop hkey
    rw [hsame] at hlt
    exact Nat.lt_irrefl _ hlt

/-- The changed objects of a session that stands for the batch move its sums. -/
theorem moved_of_realizes {stock : Stock} {session : Session} {written : List Update}
    (hreal : Versioned.Realizes stock session (reserveOps (batchLines items)))
    (hwritten : written = (session.filter fun e => e.current ≠ e.loaded).map
      (fun e => ⟨e.loaded, e.current⟩))
    (hcommitted : ∀ u ∈ written, ∃ m, (states m).stock.get u.old.productId = some u.old) :
    Moved states items written := by
  have hobject : ∀ u ∈ written, ∃ e ∈ session, e.current ≠ e.loaded ∧
      u = ⟨e.loaded, e.current⟩ := by
    intro u hu
    rw [hwritten] at hu
    obtain ⟨e, he, rfl⟩ := List.mem_map.mp hu
    obtain ⟨he, hchanged⟩ := List.mem_filter.mp he
    exact ⟨e, he, of_decide_eq_true hchanged, rfl⟩
  refine ⟨?_, fun p => ⟨fun hp => ?_, fun hp => ?_⟩, hcommitted, fun u hu => ?_⟩
  · rw [hwritten, List.map_map]
    exact hreal.nodup.sublist (List.filter_sublist.map _)
  · obtain ⟨u, hu, rfl⟩ := List.mem_map.mp hp
    obtain ⟨e, he, hchanged, rfl⟩ := hobject u hu
    exact (changed_iff hreal he).mp hchanged
  · obtain ⟨i, hi, rfl⟩ := List.mem_map.mp hp
    have hop : StockOp.reserve i.productId i.quantity ∈ reserveOps (batchLines items) :=
      List.mem_map_of_mem (List.mem_map_of_mem hi)
    obtain ⟨e, he, hkey⟩ := List.mem_map.mp (hreal.covered _ hop)
    have hkey' : e.loaded.productId = i.productId := hkey
    have hchanged := (changed_iff hreal he).mpr (hkey' ▸ hp)
    rw [hwritten, List.map_map]
    exact List.mem_map.mpr ⟨e, List.mem_filter.mpr ⟨he, decide_eq_true hchanged⟩, hkey'⟩
  · obtain ⟨e, he, -, rfl⟩ := hobject u hu
    obtain ⟨havailable, hreserved⟩ := run_reserveOps (batchLines items) e.loaded
    dsimp only
    rw [hreal.current e he]
    exact ⟨Versioned.key_run (V := stockRows) _ e.loaded, havailable, hreserved⟩

/-- An attempt on a new transaction that returns has moved the sums of the batch. -/
theorem reserveNested_ok (hlater : ∀ n, Later (states n) (states (n + 1)))
    {records : List Inventory} {s : BatchSession}
    (h : reserveNested states items {} n = (.ok records, s, n')) :
    Moved states items s.written := by
  unfold reserveNested at h
  cases hrun : runAlong states (reserveBatch items []) n with
  | mk res m =>
    rw [hrun] at h
    cases res with
    | error e => cases h
    | ok w =>
      obtain ⟨session, rfl, hreal⟩ := runAlong_safe hlater
        (reserveBatch_safe (Versioned.Realizes.empty (states n).stock)) hrun
      rw [List.nil_append] at hreal
      dsimp only at h
      cases hflush : flush states session [] m with
      | mk res m' =>
        rw [hflush] at h
        cases res with
        | error e => cases h
        | ok written =>
          obtain ⟨-, h⟩ := Prod.mk.inj h
          obtain ⟨rfl, -⟩ := Prod.mk.inj h
          obtain ⟨us, hwritten, hus, hcommitted⟩ := flush_written hlater hreal.seen hflush
          obtain rfl : written = us := hwritten
          exact moved_of_realizes hreal hus hcommitted

/-- The only exception of the items' loop. -/
theorem raised_validation {session : Session} {e : Exc}
    (h : runAlong states (reserveBatch items session) n = (.error e, n')) :
    ∃ message, e = .validationException message := by
  induction items generalizing session n with
  | nil => cases h
  | cons item items ih =>
    unfold reserveBatch at h
    rw [runAlong_selectInventory] at h
    cases hget : (states n).stock.get item.productId with
    | none =>
      rw [hget] at h
      obtain ⟨h, -⟩ := Prod.mk.inj h
      exact ⟨_, (Except.error.inj h).symm⟩
    | some row =>
      rw [hget] at h
      dsimp only at h
      split at h
      · obtain ⟨h, -⟩ := Prod.mk.inj h
        exact ⟨_, (Except.error.inj h).symm⟩
      · exact ih h

/-- The objects were loaded from committed rows. -/
def LoadedFrom (states : ℕ → InventoryDb) (session : Session) : Prop :=
  ∀ e ∈ session, ∃ m, (states m).stock.get e.loaded.productId = some e.loaded

theorem LoadedFrom.step {session : Session} (h : LoadedFrom states session) {p : ℕ}
    {row : Inventory} (hget : (states n).stock.get p = some row) (o : StockOp) :
    LoadedFrom states (stockRows.edit (stockRows.load session row).2 o) := by
  have hload : LoadedFrom states (stockRows.load session row).2 := by
    unfold Versioned.load
    cases session.find? fun e => stockRows.key e.loaded = stockRows.key row with
    | some e => exact h
    | none =>
      intro e he
      rcases List.mem_append.mp he with he | he
      · exact h e he
      · obtain rfl := List.mem_singleton.mp he
        have hkey : row.productId = p := Table.get_key hget
        exact ⟨n, hkey.symm ▸ hget⟩
  intro e he
  obtain ⟨e', he', rfl⟩ := List.mem_map.mp he
  obtain ⟨m, hm⟩ := hload e' he'
  refine ⟨m, ?_⟩
  split <;> exact hm

theorem loadedFrom_batch {session : Session} {w : InventoryWrites}
    (hloaded : LoadedFrom states session)
    (h : runAlong states (reserveBatch items session) n = (.ok w, n')) :
    LoadedFrom states w.session := by
  induction items generalizing session n with
  | nil =>
    obtain ⟨h, -⟩ := Prod.mk.inj h
    obtain rfl := Except.ok.inj h
    exact hloaded
  | cons item items ih =>
    unfold reserveBatch at h
    rw [runAlong_selectInventory] at h
    cases hget : (states n).stock.get item.productId with
    | none =>
      rw [hget] at h
      cases h
    | some row =>
      rw [hget] at h
      dsimp only at h
      split at h
      · cases h
      · exact ih (hloaded.step hget _) h

/-- A committed row of the batch's products has no room for the batch. -/
def BatchOverflows (states : ℕ → InventoryDb) (items : List BatchReserveItem) : Prop :=
  ∃ m, ∃ i ∈ items, ∃ row, (states m).stock.get i.productId = some row ∧
    (row.reserving (batchLines items)).storable = false

/-- An attempt on a new transaction that raises leaves nothing written. -/
theorem reserveNested_error (hlater : ∀ n, Later (states n) (states (n + 1))) {e : BatchExc}
    {s : BatchSession} (h : reserveNested states items {} n = (.error e, s, n')) :
    s.written = [] ∧ (e = .staleDataError ∨
      (∃ message, e = .raised (.validationException message)) ∨
      e = .dbapiError ∧ BatchOverflows states items) := by
  unfold reserveNested at h
  cases hrun : runAlong states (reserveBatch items []) n with
  | mk res m =>
    rw [hrun] at h
    cases res with
    | error e' =>
      obtain ⟨message, rfl⟩ := raised_validation hrun
      obtain ⟨he, h⟩ := Prod.mk.inj h
      obtain ⟨rfl, -⟩ := Prod.mk.inj h
      exact ⟨rfl, Or.inr (Or.inl ⟨message, (Except.error.inj he).symm⟩)⟩
    | ok w =>
      dsimp only at h
      cases hflush : flush states w.session [] m with
      | mk res m' =>
        rw [hflush] at h
        cases res with
        | ok written => cases h
        | error exc =>
          obtain ⟨he, h⟩ := Prod.mk.inj h
          obtain ⟨rfl, -⟩ := Prod.mk.inj h
          obtain rfl := Except.error.inj he
          refine ⟨rfl, (flush_error hflush).imp_right fun hdata => Or.inr ?_⟩
          obtain ⟨hexc, x, hx, hchanged, hunfit⟩ := hdata
          refine ⟨hexc, ?_⟩
          obtain ⟨k, hk⟩ := loadedFrom_batch (fun _ h => absurd h List.not_mem_nil) hrun x hx
          obtain ⟨session, rfl, hreal⟩ := runAlong_safe hlater
            (reserveBatch_safe (Versioned.Realizes.empty (states n).stock)) hrun
          rw [List.nil_append] at hreal
          obtain ⟨i, hi, hkey⟩ := List.mem_map.mp ((changed_iff hreal hx).mp hchanged)
          refine ⟨k, i, hi, x.loaded, hkey ▸ hk, ?_⟩
          have hcurrent : x.current = stockRows.run (reserveOps (batchLines items)) x.loaded :=
            hreal.current x hx
          rw [← run_reserveOps_eq, ← hcurrent]
          exact hunfit

/-- Returned: the batch is written. Raised: nothing is, and the exception is one of the two or the
    error of the database for a row without room. -/
def Atomic (states : ℕ → InventoryDb) (items : List BatchReserveItem) :
    Except BatchExc (List Inventory) × BatchSession × ℕ → Prop
  | (.ok _, s, _) => Moved states items s.written
  | (.error e, s, _) => s.written = [] ∧
      ((∃ message, e = .conflictException message) ∨
        (∃ message, e = .raised (.validationException message)) ∨
          e = .dbapiError ∧ BatchOverflows states items)

/-- Every attempt begins on a new transaction. -/
theorem reserveAttempts_atomic (hlater : ∀ n, Later (states n) (states (n + 1))) (maxRetries : ℕ)
    (attempts : List ℕ) :
    Atomic states items (reserveAttempts states items maxRetries attempts {} n) := by
  induction attempts generalizing n with
  | nil => exact ⟨rfl, Or.inl ⟨_, rfl⟩⟩
  | cons attempt rest ih =>
    unfold reserveAttempts
    cases hnested : reserveNested states items {} n with
    | mk res left =>
      obtain ⟨s, m⟩ := left
      cases res with
      | ok records => exact reserveNested_ok hlater hnested
      | error e =>
        rcases (reserveNested_error hlater hnested).2 with rfl | ⟨message, rfl⟩ | ⟨rfl, hover⟩
        · dsimp only
          split
          · exact ⟨rfl, Or.inl ⟨_, rfl⟩⟩
          · exact ih
        · exact ⟨rfl, Or.inr (Or.inl ⟨message, rfl⟩)⟩
        · exact ⟨rfl, Or.inr (Or.inr ⟨rfl, hover⟩)⟩

end Batch

/-- Whatever other transactions commit in between, the batch is reserved as a whole and once, or not
    at all. -/
theorem reserveBatch_atomic (states : ℕ → InventoryDb)
    (hlater : ∀ n, Later (states n) (states (n + 1))) (items : List BatchReserveItem)
    (maxRetries : ℕ) : Atomic states items (reserveBatchRetrying states items maxRetries) :=
  reserveAttempts_atomic hlater maxRetries (List.range maxRetries)

/-- The five pieces are restocked by one after the first statement. -/
def restockedMeanwhile : ℕ → InventoryDb
  | 0 => fivePieces
  | _ + 1 => { stock := ⟨[⟨0, 6, 0, 2⟩], by decide⟩, outbox := .empty, inbox := .empty }

theorem later_restockedMeanwhile (n : ℕ) :
    Later (restockedMeanwhile n) (restockedMeanwhile (n + 1)) := by
  cases n with
  | zero =>
    intro k r h
    obtain ⟨hmem, rfl⟩ := Table.get_eq_some_iff.mp h
    obtain rfl := List.mem_singleton.mp hmem
    exact ⟨⟨0, 6, 0, 2⟩, rfl, by decide, fun h => absurd h (by decide)⟩
  | succ n => exact Later.refl _

/-- The first attempt is stale and rolled back, the second one reserves the batch. -/
theorem reserveBatch_atomic_restocked :
    (reserveBatchRetrying restockedMeanwhile [⟨0, 3, by decide⟩, ⟨0, 2, by decide⟩] 3).2.2 = 6 ∧
      Atomic restockedMeanwhile [⟨0, 3, by decide⟩, ⟨0, 2, by decide⟩]
        (reserveBatchRetrying restockedMeanwhile [⟨0, 3, by decide⟩, ⟨0, 2, by decide⟩] 3) :=
  ⟨by decide, reserveBatch_atomic restockedMeanwhile later_restockedMeanwhile _ 3⟩

/-- The exception is not always one of the two: the column of the reserved stock is full. -/
theorem raised_full : ¬ ∀ (states : ℕ → InventoryDb) (items : List BatchReserveItem)
    (maxRetries : ℕ), (∀ n, Later (states n) (states (n + 1))) → 1 ≤ maxRetries →
      ∀ e, (reserveBatchRetrying states items maxRetries).1 = .error e →
        (∃ message, e = .conflictException message) ∨
          ∃ message, e = .raised (.validationException message) := by
  intro hevery
  have hraises : (reserveBatchRetrying (fun _ => fullColumn) [⟨0, 1, by decide⟩] 3).1 =
      .error .dbapiError := by rfl
  rcases hevery (fun _ => fullColumn) [⟨0, 1, by decide⟩] 3 (fun _ => Later.refl _) (by decide) _
    hraises with ⟨_, h⟩ | ⟨_, h⟩ <;> cases h

/-! ## Without other writers -/

section Alone

variable {db : InventoryDb} {session : Session} {n n' : ℕ}

/-- Where the loop over the items ends. -/
theorem reserveBatch_alone (items : List BatchReserveItem) {ls : List (ℕ × Int)}
    (hreal : Versioned.Realizes db.stock session (reserveOps ls))
    (hfresh : Versioned.Fresh db.stock session) :
    ∃ n', (∃ e, runAlong (fun _ => db) (reserveBatch items session) n = (.error e, n') ∧
        ∃ done l rest, batchLines items = done ++ l :: rest ∧ Short db.stock (ls ++ done) l) ∨
      ∃ session', runAlong (fun _ => db) (reserveBatch items session) n =
          (.ok { session := session' }, n') ∧
        Versioned.Realizes db.stock session' (reserveOps (ls ++ batchLines items)) ∧
        Versioned.Fresh db.stock session' := by
  induction items generalizing session ls n with
  | nil =>
    refine ⟨n, Or.inr ⟨session, rfl, ?_, hfresh⟩⟩
    rw [batchLines, List.map_nil, List.append_nil]
    exact hreal
  | cons item items ih =>
    have hlines : batchLines (item :: items) =
        (item.productId, item.quantity) :: batchLines items :=
      rfl
    unfold reserveBatch
    rw [runAlong_selectInventory, hlines]
    cases hget : db.stock.get item.productId with
    | none =>
      refine ⟨n + 1, Or.inl ⟨_, rfl, [], _, _, rfl, fun row hrow => ?_⟩⟩
      have hrow' : db.stock.get item.productId = some row := hrow
      rw [hget] at hrow'
      cases hrow'
    | some row =>
      obtain ⟨hshort, hedit⟩ := load_line item.quantity hreal hfresh hget
      dsimp only
      split
      · next hless =>
        refine ⟨n + 1, Or.inl ⟨_, rfl, [], _, _, rfl, ?_⟩⟩
        rw [List.append_nil]
        exact hshort hless
      · next hstock =>
        obtain ⟨n', hrest⟩ := ih (n := n + 1) (hedit hstock) ((hfresh.load hget).edit _)
        refine ⟨n', hrest.imp ?_ ?_⟩
        · rintro ⟨e, hrun, done, l, rest, hsplit, hshort⟩
          refine ⟨e, hrun, (item.productId, item.quantity) :: done, l, rest, ?_, ?_⟩
          · rw [hsplit]
            rfl
          · rw [List.append_assoc] at hshort
            exact hshort
        · rintro ⟨session', hrun, hreal', hfresh''⟩
          rw [List.append_assoc] at hreal'
          exact ⟨session', hrun, hreal', hfresh''⟩

/-- No object is stale. -/
theorem flush_alone (hfresh : Versioned.Fresh db.stock session) (written : List Update) :
    (∃ us, (flush (fun _ => db) session written n).1 = .ok us) ↔
      session.all objectFits = true := by
  induction session generalizing written n with
  | nil => exact iff_of_true ⟨_, rfl⟩ rfl
  | cons e es ih =>
    obtain ⟨he, hes⟩ := List.forall_mem_cons.mp hfresh
    have hrow : db.stock.get e.loaded.productId = some e.loaded := he
    unfold flush
    rw [List.all_cons, Bool.and_eq_true]
    by_cases hsame : e.current = e.loaded
    · rw [if_pos hsame, ih hes]
      exact (and_iff_right (by simp [objectFits, hsame])).symm
    · have hfits : objectFits e = e.current.storable := by simp [objectFits, hsame]
      rw [if_neg hsame, hfits]
      by_cases hstorable : e.current.storable = true
      · have hupdate : update db e = .ok ⟨e.loaded, e.current⟩ := by
          unfold update
          rw [if_pos hstorable, hrow]
          exact if_pos rfl
        rw [hupdate]
        exact (ih hes _).trans (and_iff_right hstorable).symm
      · have hupdate : update db e = .error .dbapiError := if_neg hstorable
        rw [hupdate]
        refine iff_of_false ?_ fun h => hstorable h.1
        rintro ⟨us, hus⟩
        cases hus

theorem flush_fresh {written : List Update} (hfresh : Versioned.Fresh db.stock session) :
    flush (fun _ => db) session written n ≠ (.error .staleDataError, n') := by
  induction session generalizing written n with
  | nil => exact nofun
  | cons e es ih =>
    obtain ⟨he, hes⟩ := List.forall_mem_cons.mp hfresh
    have hrow : db.stock.get e.loaded.productId = some e.loaded := he
    have hupdate : update db e =
        if e.current.storable then .ok ⟨e.loaded, e.current⟩ else .error .dbapiError := by
      unfold update
      rw [hrow]
      dsimp only
      rw [if_pos rfl]
    unfold flush
    rw [hupdate]
    split
    · exact ih hes
    · cases e.current.storable with
      | true => exact ih hes
      | false => exact nofun

theorem batchLines_pos (items : List BatchReserveItem) : ∀ l ∈ batchLines items, 0 < l.2 := by
  intro l hl
  obtain ⟨i, -, rfl⟩ := List.mem_map.mp hl
  exact i.quantity_pos

/-- The rows of the lines have room for them. -/
def Roomy (stock : Stock) (ls : List (ℕ × Int)) : Prop :=
  ∀ l ∈ ls, ∀ row, stock.get l.1 = some row → (row.reserving ls).storable = true

/-- A session that reserves the lines can be flushed exactly if their rows have room. -/
theorem roomy_iff {stock : Stock} {ls : List (ℕ × Int)}
    (hreal : Versioned.Realizes stock session (reserveOps ls))
    (hfresh : Versioned.Fresh stock session) :
    session.all objectFits = true ↔ Roomy stock ls := by
  constructor
  · intro hall l hl row hrow
    have hop : StockOp.reserve l.1 l.2 ∈ reserveOps ls := List.mem_map_of_mem hl
    have hlt := Versioned.version_lt_run (V := stockRows) hop (Table.get_key hrow).symm
    rcases (session_fits_iff hreal hfresh).mp hall l.1 row hrow with hsame | hfits
    · rw [hsame] at hlt
      exact absurd hlt (Nat.lt_irrefl _)
    · exact run_reserveOps_eq ls row ▸ hfits
  · intro hroomy
    by_contra hunfit
    obtain ⟨l, hl, row, hrow, hover⟩ := overflows_of_unfit hreal hfresh hunfit fun o ho => by
      obtain ⟨l, hl, rfl⟩ := List.mem_map.mp ho
      exact ⟨l, hl, rfl⟩
    rw [run_reserveOps_eq, hroomy l hl row hrow] at hover
    cases hover

/-- The first attempt returns if the sum of every product is covered and has room, and raises
    otherwise. -/
theorem reserveNested_alone (db : InventoryDb) (items : List BatchReserveItem) (n : ℕ) :
    (Covered db.stock (batchLines items) ∧ Roomy db.stock (batchLines items) ∧
        ∃ records s m, reserveNested (fun _ => db) items {} n = (.ok records, s, m)) ∨
      ¬ (Covered db.stock (batchLines items) ∧ Roomy db.stock (batchLines items)) ∧
        ∃ e s m, e ≠ .staleDataError ∧
          reserveNested (fun _ => db) items {} n = (.error e, s, m) := by
  have hstart : Versioned.Realizes db.stock [] (reserveOps []) := Versioned.Realizes.empty db.stock
  obtain ⟨n', hloop⟩ := reserveBatch_alone (n := n) items hstart (Versioned.Fresh.empty db.stock)
  unfold reserveNested
  rcases hloop with ⟨e, hrun, done, l, rest, hsplit, hshort⟩ | ⟨session, hrun, hreal, hfresh⟩
  · refine Or.inr ⟨fun h => ?_, .raised e, {}, n', nofun, ?_⟩
    · refine not_covered (fun l' hl' => ?_) hshort (hsplit ▸ h.1)
      have hmem : l' ∈ batchLines items := by
        rw [hsplit]
        exact List.mem_append_right _ (List.mem_cons_of_mem _ hl')
      exact Int.le_of_lt (batchLines_pos items l' hmem)
    · dsimp only
      rw [hrun]
  · have hcovered : Covered db.stock (batchLines items) := covered hreal hfresh
    have hroomy : session.all objectFits = true ↔ Roomy db.stock (batchLines items) :=
      roomy_iff hreal hfresh
    have hflush := flush_alone (n := n') hfresh []
    dsimp only
    rw [hrun]
    dsimp only
    cases hres : flush (fun _ => db) session [] n' with
    | mk res m =>
      rw [hres] at hflush
      cases res with
      | ok us => exact Or.inl ⟨hcovered, hroomy.mp (hflush.mp ⟨us, rfl⟩), _, _, _, rfl⟩
      | error exc =>
        have hunfit : ¬ session.all objectFits = true := fun h => by
          obtain ⟨us, hus⟩ := hflush.mpr h
          cases hus
        refine Or.inr ⟨fun h => hunfit (hroomy.mpr h.2), exc, _, _, ?_, rfl⟩
        rintro rfl
        exact flush_fresh hfresh hres

/-- So does `reserve_batch`, unless it makes no attempt. -/
theorem reserveBatchRetrying_alone (db : InventoryDb) (items : List BatchReserveItem)
    {maxRetries : ℕ} (hretries : 1 ≤ maxRetries) :
    (∃ records, (reserveBatchRetrying (fun _ => db) items maxRetries).1 = .ok records) ↔
      Covered db.stock (batchLines items) ∧ Roomy db.stock (batchLines items) := by
  obtain ⟨m, rfl⟩ := Nat.exists_eq_add_of_le' hretries
  unfold reserveBatchRetrying
  rw [List.range_succ_eq_map]
  unfold reserveAttempts
  rcases reserveNested_alone db items 0 with
    ⟨hcovered, hroomy, records, s, n', hnested⟩ | ⟨hnot, e, s, n', hstale, hnested⟩
  · rw [hnested]
    exact iff_of_true ⟨records, rfl⟩ ⟨hcovered, hroomy⟩
  · rw [hnested]
    refine iff_of_false (fun h => ?_) hnot
    cases e with
    | staleDataError => exact hstale rfl
    | _ =>
      obtain ⟨records, h⟩ := h
      cases h

end Alone

/-- The stock of a product as the transaction with these updates sees it. -/
def levelsAfter (stock : Stock) (written : List Update) (p : ℕ) : Option (Int × Int) :=
  match written.find? fun u => u.old.productId = p with
  | some u => some (u.new.availableStock, u.new.reservedStock)
  | none => levels stock p

/-- A batch that is written has moved the sums of its lines. -/
theorem levelsAfter_moved {db : InventoryDb} {items : List BatchReserveItem} {written : List Update}
    (h : Moved (fun _ => db) items written) (p : ℕ) :
    levelsAfter db.stock written p = (levels db.stock p).map fun l =>
      (l.1 - demand (batchLines items) p, l.2 + demand (batchLines items) p) := by
  unfold levelsAfter levels
  cases hfind : written.find? fun u => u.old.productId = p with
  | some u =>
    obtain rfl : u.old.productId = p := by simpa using List.find?_some hfind
    obtain ⟨-, hrow⟩ := h.committed u (List.mem_of_find?_eq_some hfind)
    obtain ⟨-, havailable, hreserved⟩ := h.moved u (List.mem_of_find?_eq_some hfind)
    dsimp only
    rw [hrow, havailable, hreserved]
    rfl
  | none =>
    have hzero : demand (batchLines items) p = 0 := by
      refine List.sum_eq_zero fun x hx => ?_
      obtain ⟨l, hl, rfl⟩ := List.mem_map.mp hx
      obtain ⟨i, hi, rfl⟩ := List.mem_map.mp hl
      refine if_neg fun heq => ?_
      have hkey : i.productId = p := heq
      obtain ⟨u, hu, hu'⟩ := List.mem_map.mp
        ((h.products p).mpr (hkey ▸ List.mem_map_of_mem hi))
      exact List.find?_eq_none.mp hfind u hu (decide_eq_true hu')
    dsimp only
    rw [hzero]
    cases db.stock.get p with
    | none => rfl
    | some r => simp

/-- The items of the event are those of the batch. -/
def SameItems (e : SagaEvent) (items : List BatchReserveItem) : Prop :=
  e.payload.items.map (fun i => (i.productId, i.quantity)) =
    items.map fun i => (some i.productId, i.quantity)

theorem SameItems.lines {e : SagaEvent} {items : List BatchReserveItem} (h : SameItems e items) :
    InventoryService.lines e.payload.items = batchLines items ∧ Complete e.payload.items := by
  have hlines : ∀ is : List EventItem, InventoryService.lines is =
      (is.map fun i => (i.productId, i.quantity)).filterMap fun l => l.1.map fun p => (p, l.2) := by
    intro is
    rw [List.filterMap_map]
    rfl
  refine ⟨?_, fun i hi hnone => ?_⟩
  · rw [hlines, h, List.filterMap_map]
    show items.filterMap (some ∘ fun i => (i.productId, i.quantity)) = batchLines items
    rw [List.filterMap_eq_map]
    rfl
  · have hmem : (i.productId, i.quantity) ∈ e.payload.items.map fun i =>
        (i.productId, i.quantity) :=
      List.mem_map_of_mem hi
    rw [h, hnone] at hmem
    obtain ⟨i', -, heq⟩ := List.mem_map.mp hmem
    cases heq

/-- The stock that the session leaves: a flush that fails is rolled back. -/
def stockAfter (stock : Stock) (session : Session) : Stock := (flushStock stock session).getD stock

/-- Nothing is left of a batch that is not reserved. -/
theorem levelsAfter_of_refused {db : InventoryDb} {items : List BatchReserveItem} {maxRetries : ℕ}
    (hretries : 1 ≤ maxRetries)
    (hnot : ¬ (Covered db.stock (batchLines items) ∧ Roomy db.stock (batchLines items))) (p : ℕ) :
    levelsAfter db.stock (reserveBatchRetrying (fun _ => db) items maxRetries).2.1.written p =
      levels db.stock p := by
  have hatomic : Atomic (fun _ => db) items (reserveBatchRetrying (fun _ => db) items maxRetries) :=
    reserveAttempts_atomic (fun _ => Later.refl db) maxRetries (List.range maxRetries)
  have hreturns := reserveBatchRetrying_alone db items hretries
  cases hbatch : reserveBatchRetrying (fun _ => db) items maxRetries with
  | mk res left =>
    rw [hbatch] at hatomic hreturns
    cases res with
    | ok records => exact absurd (hreturns.mp ⟨records, rfl⟩) hnot
    | error exc =>
      show levelsAfter db.stock left.1.written p = _
      rw [hatomic.1]
      rfl

/-- The two paths reserve the same batches, and leave the same stock. -/
theorem paths_agree (db : InventoryDb) (tid : ℕ) (e : SagaEvent) (items : List BatchReserveItem)
    (hitems : SameItems e items) (maxRetries : ℕ) (hretries : 1 ≤ maxRetries) :
    ∃ w, (runAlone db (fun _ => true) (handleOrderCreated tid e) 0).1 = .ok w ∧
      (w.outbox = [reservedEvent tid e] ∧ (flushStock db.stock w.session).isSome = true ↔
        ∃ records, (reserveBatchRetrying (fun _ => db) items maxRetries).1 = .ok records) ∧
      ∀ p, levels (stockAfter db.stock w.session) p =
        levelsAfter db.stock
          (reserveBatchRetrying (fun _ => db) items maxRetries).2.1.written p := by
  obtain ⟨hlines, hcomplete⟩ := hitems.lines
  have hatomic : Atomic (fun _ => db) items (reserveBatchRetrying (fun _ => db) items maxRetries) :=
    reserveAttempts_atomic (fun _ => Later.refl db) maxRetries (List.range maxRetries)
  have hreturns := reserveBatchRetrying_alone db items hretries
  rcases handled_cases db (fun _ => true) tid e (hlines ▸ batchLines_pos items) with
    ⟨-, -, hincomplete | ⟨-, hlock⟩⟩ | ⟨w, hrun, hfresh, hcase⟩
  · exact absurd hcomplete hincomplete
  · cases hlock
  refine ⟨w, hrun, ?_⟩
  rw [hlines] at hcase
  unfold stockAfter
  rw [hreturns]
  rcases hcase with ⟨hcovered, hevent, hreal⟩ | ⟨hshort, ⟨reason, hevent⟩, done, -, hreal⟩
  · have hroomy := roomy_iff hreal hfresh
    rcases flushStock_fresh hreal hfresh with ⟨⟨stock, hflush, hget⟩, hfits⟩ | ⟨hnone, hunfit⟩
    · rw [hflush]
      refine ⟨iff_of_true ⟨hevent, rfl⟩ ⟨hcovered, hroomy.mp hfits⟩, fun p => ?_⟩
      obtain ⟨records, hres⟩ := hreturns.mpr ⟨hcovered, hroomy.mp hfits⟩
      cases hbatch : reserveBatchRetrying (fun _ => db) items maxRetries with
      | mk res left =>
        rw [hbatch] at hatomic hres
        obtain rfl : res = .ok records := hres
        exact (levels_reserved hget p).trans (levelsAfter_moved hatomic p).symm
    · rw [hnone]
      have hnot : ¬ (Covered db.stock (batchLines items) ∧ Roomy db.stock (batchLines items)) :=
        fun h => hunfit (hroomy.mpr h.2)
      exact ⟨iff_of_false (fun h => Bool.false_ne_true h.2) hnot,
        fun p => (levelsAfter_of_refused hretries hnot p).symm⟩
  · have hnot : ¬ (Covered db.stock (batchLines items) ∧ Roomy db.stock (batchLines items)) :=
      fun h => hshort h.1
    refine ⟨iff_of_false (fun h => ?_) hnot, fun p => ?_⟩
    · have hevents := h.1
      rw [hevent] at hevents
      have htype := congrArg (fun rows => rows.map fun r => r.event.eventType) hevents
      cases htype
    · rw [levelsAfter_of_refused hretries hnot p]
      rcases flushStock_fresh hreal hfresh with ⟨⟨stock, hflush, hget⟩, -⟩ | ⟨hnone, -⟩
      · rw [hflush]
        exact levels_undone hget p
      · rw [hnone]
        rfl

/-- The order that names a product twice, and the same batch. -/
theorem paths_agree_twice :
    ∃ w, (runAlone fivePieces (fun _ => true) (handleOrderCreated 0 namedTwice) 0).1 = .ok w ∧
      (w.outbox = [reservedEvent 0 namedTwice] ∧
          (flushStock fivePieces.stock w.session).isSome = true ↔
        ∃ records, (reserveBatchRetrying (fun _ => fivePieces)
          [⟨0, 3, by decide⟩, ⟨0, 2, by decide⟩] 3).1 = .ok records) ∧
      ∀ p, levels (stockAfter fivePieces.stock w.session) p =
        levelsAfter fivePieces.stock (reserveBatchRetrying (fun _ => fivePieces)
          [⟨0, 3, by decide⟩, ⟨0, 2, by decide⟩] 3).2.1.written p :=
  paths_agree fivePieces 0 namedTwice [⟨0, 3, by decide⟩, ⟨0, 2, by decide⟩] rfl 3 (by decide)

end CloudScale.InventoryService
