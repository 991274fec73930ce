/-
  The inventory service's transactions with the blocks of `acquire_lock`
  (`inventory/app/locking.py`) made explicit.

  `Handlers` says that a lock is taken and leaves out when it is given back. Here a transaction also
  asks `release`, where the source leaves the `async with` block: after the row was read and the
  object changed, and before the next item, the outbox row and the commit. Each program does what
  the one in `Handlers` does (`program_refines`): a release is a step of its own that the other
  does not have.

  What a transaction holds and has read is its `Holding`. `program_follows`: every program reads a
  row inside the block of its product only, releases what it holds, and builds its session from the
  rows it has read.
-/
import CloudScale.Lib.Protocol
import CloudScale.InventoryService.Sessions

namespace CloudScale.InventoryService.Locking

open CloudScale.Lib CloudScale.Shared

/-! ## Queries -/

/-- `acquire` is the loop of `SET NX EX`, which may time out; `release` the script that deletes the
    key if it still has the token. -/
inductive LockQuery where
  | inbox (id : Ident)
  | acquire (productId : ℕ)
  | row (productId : ℕ)
  | release (productId : ℕ) (token : String)

def LockAnswer : LockQuery → Type
  | .inbox _ => Bool
  | .acquire _ => Option String
  | .row _ => Option Inventory
  | .release _ _ => Unit

/-- `token` is `str(time.time())`, or `none` when the time limit is up; a release may not reach
    Redis. -/
structure LockEnv where
  token : Option String
  reachable : Bool

def answer (env : LockEnv) (db : InventoryDb) : (q : LockQuery) → LockAnswer q
  | .inbox id => inboxAlreadyProcessed db.inbox id
  | .acquire _ => env.token
  | .row p => db.stock.get p
  | .release _ _ => ()

abbrev LockTxn (R : Type) := Txn LockQuery LockAnswer Exc R

/-! ## Programs -/

def inInbox (id : Ident) : LockTxn Bool := Txn.query (LockQuery.inbox id)

/-- `async with acquire_lock(..)` around a block; `none` when the lock is not acquired in time. -/
def tryLock {R : Type} (productId : ℕ) (block : LockTxn R) : LockTxn (Option R) := do
  match ← Txn.query (LockQuery.acquire productId) with
  | some token =>
    let r ← block
    Txn.query (LockQuery.release productId token)
    return some r
  | none => return none

/-- The same where nobody catches the `TimeoutError`. -/
def withLock {R : Type} (productId : ℕ) (block : LockTxn R) : LockTxn R := do
  match ← tryLock productId block with
  | some r => return r
  | none => .raise (lockTimeout productId)

def selectInventory (session : Session) (productId : ℕ) :
    LockTxn (Option Inventory × Session) := do
  match ← Txn.query (LockQuery.row productId) with
  | some row => return (some (stockRows.load session row).1, (stockRows.load session row).2)
  | none => return (none, session)

/-- One item of `_handle_order_created`. -/
def reserveItem (st : Reservation) (productId : ℕ) (quantity : Int) : LockTxn Reservation :=
  withLock productId do
    match ← selectInventory st.session productId with
    | (some inventory, session) =>
      if inventory.availableStock < quantity then
        return { st with session, failureReason := some (outOfStock productId) }
      else
        return { st with
          session := stockRows.edit session (.reserve productId quantity)
          reservedItems := st.reservedItems ++ [(productId, quantity)] }
    | (none, session) => return { st with session, failureReason := some (outOfStock productId) }

def reserveItems : List EventItem → Reservation → LockTxn Reservation
  | [], st => return st
  | item :: items, st => do
    match item.productId with
    | none => .raise .uuidError
    | some productId =>
      let st ← reserveItem st productId item.quantity
      match st.failureReason with
      | some _ => return st
      | none => reserveItems items st

/-- One item of the loop that takes the reserved items back. The source makes this key from the
    event's string, which is in the canonical form `str(uuid)`. -/
def undoItem (session : Session) (productId : ℕ) (quantity : Int) : LockTxn Session :=
  withLock productId do
    match ← selectInventory session productId with
    | (some _, session) => return stockRows.edit session (.unreserve productId quantity)
    | (none, session) => return session

def undoItems : List (ℕ × Int) → Session → LockTxn Session
  | [], session => return session
  | (productId, quantity) :: rest, session => do
    let session ← undoItem session productId quantity
    undoItems rest session

/-- `_handle_order_created`. -/
def handleOrderCreated (tid : ℕ) (e : SagaEvent) : LockTxn InventoryWrites := do
  let st ← reserveItems e.payload.items {}
  match st.failureReason with
  | some reason =>
    let session ← undoItems st.reservedItems st.session
    return { session, outbox := [reserveFailedEvent tid e reason] }
  | none => return { session := st.session, outbox := [reservedEvent tid e] }

/-- One item of `_handle_release_stock`, whose `try` catches the timeout. -/
def releaseItem (session : Session) (productId : ℕ) (quantity : Int) : LockTxn (Option Session) :=
  tryLock productId do
    match ← selectInventory session productId with
    | (some _, session) => return stockRows.edit session (.release productId quantity)
    | (none, session) => return session

def releaseItems : List EventItem → Session → LockTxn (Session × Bool)
  | [], session => return (session, true)
  | item :: items, session => do
    match item.productId with
    | none => return (session, false)
    | some productId =>
      match ← releaseItem session productId item.quantity with
      | some session => releaseItems items session
      | none => return (session, false)

/-- `_handle_release_stock`. -/
def handleReleaseStock (tid : ℕ) (e : SagaEvent) : LockTxn InventoryWrites := do
  match ← releaseItems e.payload.items [] with
  | (session, true) => return { session, outbox := [releasedEvent tid e] }
  | (session, false) => return { session }

def handlerOf (tid : ℕ) (e : SagaEvent) : Option (LockTxn InventoryWrites) :=
  match e.eventType with
  | .orderCreatedEvent => some (handleOrderCreated tid e)
  | .paymentFailedEvent => some (handleReleaseStock tid e)
  | .orderCancelledEvent => some (handleReleaseStock tid e)
  | _ => none

/-- `handle_event`. -/
def handleEvent (tid : ℕ) (e : SagaEvent) : LockTxn (Outcome InventoryWrites) := do
  if ← inInbox e.eventId then return .skipped
  match handlerOf tid e with
  | none => return .ignored
  | some handler =>
    let w ← handler
    return .handled (w.record e)

/-- `restock`; its `flush` sends the UPDATE ahead of the commit and makes nothing visible. -/
def restock (productId : ℕ) (payload : RestockRequest) : LockTxn InventoryWrites :=
  withLock productId do
    match ← selectInventory [] productId with
    | (some _, session) =>
      return { session := stockRows.edit session (.restock productId payload.quantity) }
    | (none, _) =>
      return { created := some (newInventory productId payload) }

/-- The requests whose transactions take locks. -/
inductive LockRequest where
  | event (e : SagaEvent)
  | restock (productId : ℕ) (payload : RestockRequest)

def LockRequest.toRequest : LockRequest → InventoryRequest
  | .event e => .event e
  | .restock p payload => .restock p payload

def program (tid : ℕ) : LockRequest → LockTxn (Outcome InventoryWrites)
  | .event e => handleEvent tid e
  | .restock p payload => do return .handled (← restock p payload)

/-! ## The programs of `Handlers` -/

/-- The second program does what the first does, without the releases. -/
inductive Refines {R : Type} : LockTxn R → InventoryTxn R → Prop where
  | done (r : R) : Refines (.done r) (.done r)
  | raise (e : Exc) : Refines (.raise e) (.raise e)
  | inbox (id : Ident) {k : Bool → LockTxn R} {k' : Bool → InventoryTxn R}
      (h : ∀ b, Refines (k b) (k' b)) : Refines (.ask (.inbox id) k) (.ask (.inbox id) k')
  | row (p : ℕ) {k : Option Inventory → LockTxn R} {k' : Option Inventory → InventoryTxn R}
      (h : ∀ r, Refines (k r) (k' r)) : Refines (.ask (.row p) k) (.ask (.row p) k')
  | acquire (p : ℕ) {k : Option String → LockTxn R} {k' : Bool → InventoryTxn R}
      (h : ∀ o, Refines (k o) (k' o.isSome)) : Refines (.ask (.acquire p) k) (.ask (.lock p) k')
  | release (p : ℕ) (token : String) {k : Unit → LockTxn R} {p' : InventoryTxn R}
      (h : Refines (k ()) p') : Refines (.ask (.release p token) k) p'

section Refinement

variable {R T : Type} {p : LockTxn R} {p' : InventoryTxn R}

theorem Refines.bind {f : R → LockTxn T} {f' : R → InventoryTxn T} (h : Refines p p')
    (hf : ∀ r, Refines (f r) (f' r)) : Refines (p >>= f) (p' >>= f') := by
  induction h with
  | done r => exact hf r
  | raise e => exact .raise e
  | inbox id _ ih => exact .inbox id ih
  | row p _ ih => exact .row p ih
  | acquire p _ ih => exact .acquire p ih
  | release p token _ ih => exact .release p token ih

theorem refines_tryLock {productId : ℕ} {f : Option R → LockTxn T} {f' : Option R → InventoryTxn T}
    (h : Refines p p') (hf : ∀ o, Refines (f o) (f' o)) :
    Refines (tryLock productId p >>= f)
      (acquired productId >>= fun b => if b then p' >>= fun r => f' (some r) else f' none) := by
  refine .acquire productId fun o => ?_
  cases o with
  | none => exact hf none
  | some token =>
    have hblock : Refines
        (p >>= fun r => Txn.query (LockQuery.release productId token) >>= fun _ => pure (some r))
        (p' >>= fun r => pure (some r)) :=
      h.bind fun r => .release productId token (.done (some r))
    have hall := hblock.bind hf
    rw [Txn.bind_assoc p'] at hall
    exact hall

theorem refines_withLock {productId : ℕ} (h : Refines p p') :
    Refines (withLock productId p) (acquireLock productId >>= fun _ => p') := by
  let unlock : Option R → InventoryTxn R
    | some r => pure r
    | none => .raise (lockTimeout productId)
  have hplain : (acquired productId >>= fun b =>
      if b then p' >>= fun r => unlock (some r) else unlock none) =
        acquireLock productId >>= fun _ => p' := by
    refine congrArg (Txn.ask (InventoryQuery.lock productId)) (funext fun b => ?_)
    cases b with
    | true => exact Txn.bind_done p'
    | false => rfl
  rw [← hplain]
  refine refines_tryLock h fun o => ?_
  cases o with
  | some r => exact .done r
  | none => exact .raise _

theorem refines_selectInventory (session : Session) (productId : ℕ) :
    Refines (selectInventory session productId)
      (InventoryService.selectInventory session productId) := by
  refine .row productId fun r => ?_
  cases r with
  | none => exact .done _
  | some row => exact .done _

theorem reserveItem_refines (st : Reservation) (productId : ℕ) (quantity : Int) :
    Refines (reserveItem st productId quantity)
      (InventoryService.reserveItem st productId quantity) := by
  refine refines_withLock ((refines_selectInventory _ _).bind ?_)
  rintro ⟨_ | inventory, session⟩
  · exact .done _
  · dsimp only
    split
    · exact .done _
    · exact .done _

theorem reserveItems_refines (items : List EventItem) (st : Reservation) :
    Refines (reserveItems items st) (InventoryService.reserveItems items st) := by
  induction items generalizing st with
  | nil => exact .done st
  | cons item items ih =>
    unfold reserveItems InventoryService.reserveItems
    cases item.productId with
    | none => exact .raise _
    | some productId =>
      refine (reserveItem_refines st productId item.quantity).bind fun st => ?_
      cases st.failureReason with
      | some reason => exact .done st
      | none => exact ih st

theorem undoItems_refines (items : List (ℕ × Int)) (session : Session) :
    Refines (undoItems items session) (InventoryService.undoItems items session) := by
  induction items generalizing session with
  | nil => exact .done session
  | cons l items ih =>
    obtain ⟨productId, quantity⟩ := l
    let undone : Option Inventory × Session → InventoryTxn Session
      | (some _, session) => pure (stockRows.edit session (.unreserve productId quantity))
      | (none, session) => pure session
    have hitem : Refines (undoItem session productId quantity) (acquireLock productId >>= fun _ =>
        InventoryService.selectInventory session productId >>= undone) := by
      refine refines_withLock ((refines_selectInventory _ _).bind ?_)
      rintro ⟨_ | inventory, session⟩
      · exact .done _
      · exact .done _
    have hplain : (acquireLock productId >>= fun _ =>
        InventoryService.selectInventory session productId >>= undone) >>=
          InventoryService.undoItems items =
        InventoryService.undoItems ((productId, quantity) :: items) session := by
      rw [Txn.bind_assoc]
      refine congrArg (acquireLock productId >>= ·) (funext fun _ => ?_)
      rw [Txn.bind_assoc]
      refine congrArg (InventoryService.selectInventory session productId >>= ·) (funext ?_)
      rintro ⟨_ | inventory, session⟩
      · rfl
      · rfl
    rw [← hplain]
    exact hitem.bind ih

theorem releaseItems_refines (items : List EventItem) (session : Session) :
    Refines (releaseItems items session) (InventoryService.releaseItems items session) := by
  induction items generalizing session with
  | nil => exact .done _
  | cons item items ih =>
    unfold releaseItems InventoryService.releaseItems
    cases item.productId with
    | none => exact .done _
    | some productId =>
      let released : Option Inventory × Session → InventoryTxn Session
        | (some _, session) => pure (stockRows.edit session (.release productId item.quantity))
        | (none, session) => pure session
      let rest : Option Session → InventoryTxn (Session × Bool)
        | some session => InventoryService.releaseItems items session
        | none => pure (session, false)
      have hblock : Refines
          (selectInventory session productId >>= fun
            | (some _, session) =>
              pure (stockRows.edit session (.release productId item.quantity))
            | (none, session) => pure session)
          (InventoryService.selectInventory session productId >>= released) := by
        refine (refines_selectInventory _ _).bind ?_
        rintro ⟨_ | inventory, session⟩
        · exact .done _
        · exact .done _
      have hitem : Refines
          (releaseItem session productId item.quantity >>= fun
            | some session => releaseItems items session
            | none => pure (session, false))
          (acquired productId >>= fun b =>
            if b then (InventoryService.selectInventory session productId >>= released) >>=
              fun s => rest (some s) else rest none) := by
        refine refines_tryLock hblock fun o => ?_
        cases o with
        | none => exact .done _
        | some session => exact ih session
      have hplain : (InventoryService.selectInventory session productId >>= released) >>=
          (fun s => rest (some s)) = InventoryService.selectInventory session productId >>= fun
            | (some _, session) => InventoryService.releaseItems items
              (stockRows.edit session (.release productId item.quantity))
            | (none, session) => InventoryService.releaseItems items session := by
        rw [Txn.bind_assoc]
        refine congrArg (InventoryService.selectInventory session productId >>= ·) (funext ?_)
        rintro ⟨_ | inventory, session⟩
        · rfl
        · rfl
      rw [hplain] at hitem
      exact hitem

theorem handlerOf_refines (tid : ℕ) (e : SagaEvent) :
    Option.Rel Refines (handlerOf tid e) (InventoryService.handlerOf tid e) := by
  have hcreated : Refines (handleOrderCreated tid e)
      (InventoryService.handleOrderCreated tid e) := by
    refine (reserveItems_refines e.payload.items {}).bind fun st => ?_
    cases st.failureReason with
    | none => exact .done _
    | some reason => exact (undoItems_refines _ _).bind fun session => .done _
  have hrelease : Refines (handleReleaseStock tid e)
      (InventoryService.handleReleaseStock tid e) := by
    refine (releaseItems_refines e.payload.items []).bind ?_
    rintro ⟨session, _ | _⟩
    · exact .done _
    · exact .done _
  unfold handlerOf InventoryService.handlerOf
  cases e.eventType with
  | orderCreatedEvent => exact .some hcreated
  | paymentFailedEvent => exact .some hrelease
  | orderCancelledEvent => exact .some hrelease
  | _ => exact .none

/-- With the releases left out, every program is the one of `Handlers`. -/
theorem program_refines (tid : ℕ) (r : LockRequest) :
    Refines (program tid r) (InventoryService.program tid r.toRequest) := by
  cases r with
  | event e =>
    refine .inbox e.eventId fun b => ?_
    cases b with
    | true => exact .done _
    | false =>
      have hrel := handlerOf_refines tid e
      generalize handlerOf tid e = h at hrel ⊢
      generalize InventoryService.handlerOf tid e = h' at hrel ⊢
      cases hrel with
      | none => exact .done _
      | some h => exact h.bind fun w => .done _
  | restock p payload =>
    have hrestock : Refines (restock p payload) (InventoryService.restock p payload) := by
      refine refines_withLock ((refines_selectInventory _ _).bind ?_)
      rintro ⟨_ | inventory, session⟩
      · exact .done _
      · exact .done _
    exact hrestock.bind fun w => .done _

end Refinement

/-! ## What a transaction holds and has read -/

/-- `block` is the `async with` block the transaction is in, with its token; `known` what it read of
    the rows. -/
structure Holding where
  block : Option (ℕ × String) := none
  known : ℕ → Option (Option Inventory) := fun _ => none

/-- Locks are not nested, a row is read inside the block of its product, and a row that was read
    before is expected to be the same. -/
def lockProtocol : Protocol Holding LockQuery LockAnswer where
  may
    | _, .inbox _ => True
    | h, .acquire _ => h.block = none
    | h, .row p => ∃ token, h.block = some (p, token)
    | h, .release p token => h.block = some (p, token)
  fits
    | h, .row p, r => (∀ r', h.known p = some r' → r = r') ∧ ∀ row, r = some row → row.productId = p
    | _, _, _ => True
  next
    | h, .acquire p, some token => { h with block := some (p, token) }
    | h, .row p, r => { h with known := Function.update h.known p (some r) }
    | h, .release _ _, _ => { h with block := none }
    | h, _, _ => h

/-- Every object of the session was loaded from a row that was read. -/
def Backed (known : ℕ → Option (Option Inventory)) (session : Session) : Prop :=
  ∀ e ∈ session, known e.loaded.productId = some (some e.loaded)

/-- The transaction is in no block, and the session it computed is backed. -/
def Idle {R : Type} (session : R → Session) (h : Holding) (r : R) : Prop :=
  h.block = none ∧ Backed h.known (session r)

/-- What a finished transaction writes comes from rows it read; a row it creates was absent. -/
def Settled (h : Holding) (w : InventoryWrites) : Prop :=
  Idle InventoryWrites.session h w ∧
    ∀ c, w.created = some c → h.known c.productId = some none

def SettledOutcome (h : Holding) : Outcome InventoryWrites → Prop
  | .handled w => Settled h w
  | _ => True

section Protocol

variable {R T : Type} {h : Holding} {productId : ℕ} {session : Session}

theorem backed_nil (known : ℕ → Option (Option Inventory)) : Backed known [] :=
  fun _ he => absurd he List.not_mem_nil

theorem Idle.settled {w : InventoryWrites} (hs : Idle InventoryWrites.session h w)
    (hw : w.created = none) : Settled h w := by
  refine ⟨hs, fun c hc => ?_⟩
  rw [hw] at hc
  cases hc

theorem Backed.edit {known : ℕ → Option (Option Inventory)} (hs : Backed known session)
    (o : StockOp) : Backed known (stockRows.edit session o) := by
  intro e he
  obtain ⟨e', he', rfl⟩ := List.mem_map.mp he
  have hloaded : (if stockRows.key e'.loaded = stockRows.target o then
      { e' with current := stockRows.effect o e'.current } else e' : Edit Inventory).loaded =
        e'.loaded := by
    split <;> rfl
  rw [hloaded]
  exact hs e' he'

/-- Reading a row adds to what is known. -/
theorem Backed.read {known : ℕ → Option (Option Inventory)} {r : Option Inventory}
    (hs : Backed known session) (hr : ∀ r', known productId = some r' → r = r') :
    Backed (Function.update known productId (some r)) session := by
  intro e he
  by_cases hp : e.loaded.productId = productId
  · have hknown := hs e he
    rw [hp] at hknown ⊢
    rw [Function.update_self, hr _ hknown]
  · rw [Function.update_of_ne hp]
    exact hs e he

theorem Backed.load {known : ℕ → Option (Option Inventory)} {row : Inventory}
    (hs : Backed known session) (hrow : known row.productId = some (some row)) :
    Backed known (stockRows.load session row).2 := by
  unfold Versioned.load
  split
  · exact hs
  · intro e he
    rcases List.mem_append.mp he with he | he
    · exact hs e he
    · obtain rfl := List.mem_singleton.mp he
      exact hrow

/-- A block: its result is judged after the lock is released. -/
theorem follows_tryLock {post : Holding → Option R → Prop} {block : LockTxn R}
    (hidle : h.block = none) (hnone : post h none)
    (hblock : ∀ token, Follows lockProtocol
      (fun h' r => h'.block = some (productId, token) ∧ post { h' with block := none } (some r))
      block { h with block := some (productId, token) }) :
    Follows lockProtocol post (tryLock productId block) h := by
  refine ⟨hidle, fun o _ => ?_⟩
  cases o with
  | none => exact hnone
  | some token => exact (hblock token).bind fun h' r hr => ⟨hr.1, fun _ _ => hr.2⟩

theorem follows_withLock {post : Holding → R → Prop} {block : LockTxn R} (hidle : h.block = none)
    (hblock : ∀ token, Follows lockProtocol
      (fun h' r => h'.block = some (productId, token) ∧ post { h' with block := none } r)
      block { h with block := some (productId, token) }) :
    Follows lockProtocol post (withLock productId block) h := by
  have htry : Follows lockProtocol (fun h' o => ∀ r, o = some r → post h' r)
      (tryLock productId block) h :=
    follows_tryLock hidle (fun r hr => absurd hr.symm (Option.some_ne_none r)) fun token =>
      (hblock token).imp fun h' r hr => ⟨hr.1, fun r' hr' => Option.some.inj hr' ▸ hr.2⟩
  refine htry.bind fun h' o ho => ?_
  cases o with
  | none => trivial
  | some r => exact ho r rfl

/-- A select inside the block of its product, whatever it finds. -/
theorem follows_selectInventory {post : Holding → T → Prop} {token : String}
    {f : Option Inventory × Session → LockTxn T} (hblock : h.block = some (productId, token))
    (hs : Backed h.known session)
    (hnone : ∀ h' : Holding, h'.block = some (productId, token) → Backed h'.known session →
      h'.known productId = some none → Follows lockProtocol post (f (none, session)) h')
    (hsome : ∀ (h' : Holding) inventory session', h'.block = some (productId, token) →
      Backed h'.known session' → Follows lockProtocol post (f (some inventory, session')) h') :
    Follows lockProtocol post (selectInventory session productId >>= f) h := by
  refine ⟨⟨token, hblock⟩, fun r hr => ?_⟩
  have hread : Backed (Function.update h.known productId (some r)) session := hs.read hr.1
  cases r with
  | none => exact hnone _ hblock hread (Function.update_self ..)
  | some row =>
    refine hsome _ _ _ hblock (hread.load ?_)
    rw [hr.2 row rfl]
    exact Function.update_self ..

theorem reserveItem_follows {st : Reservation} {quantity : Int}
    (hst : Idle Reservation.session h st) :
    Follows lockProtocol (Idle Reservation.session) (reserveItem st productId quantity) h := by
  refine follows_withLock hst.1 fun token => follows_selectInventory rfl hst.2 ?_ ?_
  · exact fun h' hblock hs _ => ⟨hblock, rfl, hs⟩
  · intro h' inventory session hblock hs
    dsimp only
    split
    · exact ⟨hblock, rfl, hs⟩
    · exact ⟨hblock, rfl, hs.edit _⟩

theorem reserveItems_follows {items : List EventItem} {st : Reservation}
    (hst : Idle Reservation.session h st) :
    Follows lockProtocol (Idle Reservation.session) (reserveItems items st) h := by
  induction items generalizing st h with
  | nil => exact hst
  | cons item items ih =>
    unfold reserveItems
    cases item.productId with
    | none => trivial
    | some productId =>
      refine (reserveItem_follows hst).bind fun h' st' hst' => ?_
      cases st'.failureReason with
      | some reason => exact hst'
      | none => exact ih hst'

theorem undoItems_follows {items : List (ℕ × Int)} (hs : Idle id h session) :
    Follows lockProtocol (Idle id) (undoItems items session) h := by
  induction items generalizing session h with
  | nil => exact hs
  | cons l items ih =>
    have hitem : Follows lockProtocol (Idle id) (undoItem session l.1 l.2) h := by
      refine follows_withLock hs.1 fun token => follows_selectInventory rfl hs.2 ?_ ?_
      · exact fun h' hblock hs _ => ⟨hblock, rfl, hs⟩
      · exact fun h' inventory session hblock hs => ⟨hblock, rfl, hs.edit _⟩
    exact hitem.bind fun h' session' hs' => ih hs'

theorem releaseItems_follows {items : List EventItem} (hs : Idle id h session) :
    Follows lockProtocol (Idle Prod.fst) (releaseItems items session) h := by
  induction items generalizing session h with
  | nil => exact hs
  | cons item items ih =>
    unfold releaseItems
    cases item.productId with
    | none => exact hs
    | some productId =>
      have hitem : Follows lockProtocol (Idle fun o : Option Session => o.getD session)
          (releaseItem session productId item.quantity) h := by
        refine follows_tryLock hs.1 hs fun token => follows_selectInventory rfl hs.2 ?_ ?_
        · exact fun h' hblock hs _ => ⟨hblock, rfl, hs⟩
        · exact fun h' inventory session hblock hs => ⟨hblock, rfl, hs.edit _⟩
      refine hitem.bind fun h' o ho => ?_
      cases o with
      | none => exact ho
      | some session' => exact ih ho

theorem handlerOf_follows {tid : ℕ} {e : SagaEvent} {handler : LockTxn InventoryWrites}
    (hidle : h.block = none) (hh : handlerOf tid e = some handler) :
    Follows lockProtocol (fun h' w => Settled h' (w.record e)) handler h := by
  have hcreated : Follows lockProtocol (fun h' w => Settled h' (InventoryWrites.record e w))
      (handleOrderCreated tid e) h := by
    refine (reserveItems_follows ⟨hidle, backed_nil _⟩).bind fun h' st hst => ?_
    cases st.failureReason with
    | none => exact Idle.settled hst rfl
    | some reason => exact (undoItems_follows hst).bind fun h'' session hs => Idle.settled hs rfl
  have hrelease : Follows lockProtocol (fun h' w => Settled h' (InventoryWrites.record e w))
      (handleReleaseStock tid e) h := by
    refine (releaseItems_follows ⟨hidle, backed_nil _⟩).bind ?_
    rintro h' ⟨session, _ | _⟩ hs
    · exact Idle.settled hs rfl
    · exact Idle.settled hs rfl
  unfold handlerOf at hh
  split at hh
  · cases hh
    exact hcreated
  · cases hh
    exact hrelease
  · cases hh
    exact hrelease
  · cases hh

/-- Every program follows the protocol from the start. -/
theorem program_follows (tid : ℕ) (r : LockRequest) :
    Follows lockProtocol SettledOutcome (program tid r) {} := by
  cases r with
  | event e =>
    refine ⟨trivial, fun b _ => ?_⟩
    cases b with
    | true => trivial
    | false =>
      show Follows lockProtocol SettledOutcome (match handlerOf tid e with
        | none => pure .ignored
        | some handler => handler >>= fun w => pure (.handled (InventoryWrites.record e w))) {}
      cases hh : handlerOf tid e with
      | none => trivial
      | some handler => exact (handlerOf_follows rfl hh).bind fun h' w hw => hw
  | restock p payload =>
    have hrestock : Follows lockProtocol Settled (restock p payload) {} := by
      refine follows_withLock rfl fun token =>
        follows_selectInventory rfl (backed_nil _) ?_ ?_
      · intro h' hblock hs hknown
        refine ⟨hblock, ⟨rfl, backed_nil _⟩, fun c hc => ?_⟩
        obtain rfl := Option.some.inj hc
        exact hknown
      · exact fun h' inventory session hblock hs => ⟨hblock, Idle.settled ⟨rfl, hs.edit _⟩ rfl⟩
    exact hrestock.bind fun h' w hw => hw

end Protocol

end CloudScale.InventoryService.Locking
