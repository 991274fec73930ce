/-
  What the sessions of the inventory service's transactions realize.

  `Account` lists, for every kind of request, the operations of a finished transaction and the rows
  it adds. `program_account`: every program leaves such writes, whatever other transactions commit
  in between, as long as rows only move forward (`Later`); `inventory_guarantees` puts this on the
  server, where a commit indeed only moves rows forward.
-/
import CloudScale.InventoryService.Handlers
import CloudScale.Lib.Alone

namespace CloudScale.InventoryService

open CloudScale.Lib CloudScale.Shared

/-! ## Operations of a loop -/

def reserveOps (ls : List (ℕ × Int)) : List StockOp := ls.map fun l => .reserve l.1 l.2

def unreserveOps (ls : List (ℕ × Int)) : List StockOp := ls.map fun l => .unreserve l.1 l.2

def releaseOps (ls : List (ℕ × Int)) : List StockOp := ls.map fun l => .release l.1 l.2

/-- Every item names a product. -/
def Complete (items : List EventItem) : Prop := ∀ i ∈ items, i.productId ≠ none

/-- Every product of `ls` has a row. -/
def Stocked (db : InventoryDb) (ls : List (ℕ × Int)) : Prop := ∀ l ∈ ls, db.stock.get l.1 ≠ none

theorem lines_cons {item : EventItem} {items : List EventItem} {p : ℕ}
    (h : item.productId = some p) : lines (item :: items) = (p, item.quantity) :: lines items := by
  simp [lines, h]

/-! ## Interference -/

/-- Rows stay, and change only to later versions. -/
def Later (db db' : InventoryDb) : Prop := Versioned.Forward db.stock db'.stock

theorem Later.refl (db : InventoryDb) : Later db db := Versioned.Forward.refl _

theorem Later.trans {db db' db'' : InventoryDb} (h : Later db db') (h' : Later db' db'') :
    Later db db'' := Versioned.Forward.trans h h'

theorem Stocked.mono {db db' : InventoryDb} {ls : List (ℕ × Int)} (h : Stocked db ls)
    (hl : Later db db') : Stocked db' ls := by
  intro l hmem
  obtain ⟨r, hr⟩ := Option.ne_none_iff_exists'.mp (h l hmem)
  obtain ⟨r', hr', -⟩ := hl _ r hr
  rw [hr']
  exact Option.some_ne_none r'

section Rules

variable {R : Type} {good : InventoryDb → InventoryQuery → InventoryEnv → Prop}
  {post : InventoryDb → R → Prop} {db : InventoryDb} {session : Session} {ops : List StockOp}
  {p : ℕ}

theorem safe_inInbox {id : Ident} {f : Bool → InventoryTxn R}
    (h : ∀ t b, Later db t → Safe InventoryDb.answer Later good post (f b) t) :
    Safe InventoryDb.answer Later good post (inInbox id >>= f) db :=
  fun t _ ht _ => h t _ ht

theorem safe_acquired {f : Bool → InventoryTxn R}
    (h : ∀ t ω, Later db t → good t (.lock p) ω →
      Safe InventoryDb.answer Later good post (f ω.acquired) t) :
    Safe InventoryDb.answer Later good post (acquired p >>= f) db := h

theorem safe_acquireLock {f : Unit → InventoryTxn R}
    (h : ∀ t, Later db t → Safe InventoryDb.answer Later good post (f ()) t) :
    Safe InventoryDb.answer Later good post (acquireLock p >>= f) db := by
  refine safe_acquired fun t ω ht _ => ?_
  cases ω.acquired with
  | true => exact h t ht
  | false => trivial

/-- A select either finds no row or puts an object of the product into the session. -/
theorem safe_selectInventory {f : Option Inventory × Session → InventoryTxn R}
    (hs : Versioned.Realizes db.stock session ops)
    (hnone : ∀ t, Later db t → t.stock.get p = none → Versioned.Realizes t.stock session ops →
      Safe InventoryDb.answer Later good post (f (none, session)) t)
    (hsome : ∀ t s' e, Later db t → Versioned.Realizes t.stock s' ops → e ∈ s' →
      e.loaded.productId = p → Safe InventoryDb.answer Later good post (f (some e.current, s')) t) :
    Safe InventoryDb.answer Later good post (selectInventory session p >>= f) db := by
  intro t ω ht _
  have hst := hs.mono ht
  have hrow : InventoryDb.answer ω t (.row p) = t.stock.get p := rfl
  rw [hrow]
  cases hget : t.stock.get p with
  | none => exact hnone t ht hget hst
  | some row =>
    obtain ⟨hload, e, he, hkey, hcur⟩ := hst.load hget
    have hsafe := hsome t _ e ht hload he hkey
    rw [← hcur] at hsafe
    exact hsafe

end Rules

/-! ## Alone -/

/-- The calls of `acquire_lock` are counted. -/
def tick : InventoryQuery → ℕ → ℕ
  | .lock _, n => n + 1
  | _, n => n

/-- A transaction that runs alone, from its `n`th call of `acquire_lock` on; `locks` says which of
    them succeed. -/
def runAlone {R : Type} (db : InventoryDb) (locks : ℕ → Bool) (p : InventoryTxn R) (n : ℕ) :
    Except Exc R × ℕ := p.exec (fun n q => db.answer ⟨locks n⟩ q) tick n

section Alone

variable {R T : Type} {db : InventoryDb} {locks : ℕ → Bool} {n p : ℕ}

theorem runAlone_bind (prog : InventoryTxn R) (f : R → InventoryTxn T) :
    runAlone db locks (prog >>= f) n = match runAlone db locks prog n with
      | (.ok r, n') => runAlone db locks (f r) n'
      | (.error e, n') => (.error e, n') := by
  unfold runAlone
  rw [exec_bind]
  cases prog.exec (fun n q => db.answer ⟨locks n⟩ q) tick n with
  | mk res n' =>
    cases res with
    | ok r => rfl
    | error e => rfl

theorem runAlone_acquired {f : Bool → InventoryTxn R} :
    runAlone db locks (acquired p >>= f) n = runAlone db locks (f (locks n)) (n + 1) := rfl

theorem runAlone_acquireLock {f : Unit → InventoryTxn R} :
    runAlone db locks (acquireLock p >>= f) n =
      if locks n then runAlone db locks (f ()) (n + 1) else (.error (lockTimeout p), n + 1) := by
  unfold acquireLock
  rw [Txn.bind_assoc, runAlone_acquired]
  cases locks n with
  | true => rfl
  | false => rfl

theorem runAlone_selectInventory {session : Session}
    {f : Option Inventory × Session → InventoryTxn R} :
    runAlone db locks (selectInventory session p >>= f) n = match db.stock.get p with
      | some row => runAlone db locks
          (f (some (stockRows.load session row).1, (stockRows.load session row).2)) n
      | none => runAlone db locks (f (none, session)) n := by
  have hrow : db.answer ⟨locks n⟩ (.row p) = db.stock.get p := rfl
  unfold runAlone selectInventory
  rw [Txn.bind_assoc, Txn.query_bind, exec_ask, hrow]
  cases db.stock.get p with
  | some row => rfl
  | none => rfl

end Alone

/-! ## Loops -/

section Loops

variable {good : InventoryDb → InventoryQuery → InventoryEnv → Prop} {db begun : InventoryDb}
  {session : Session} {ops : List StockOp}

theorem reserveItem_safe {st : Reservation} {p : ℕ} {q : Int} (hst : st.failureReason = none)
    (hs : Versioned.Realizes db.stock st.session (reserveOps st.reservedItems)) :
    Safe InventoryDb.answer Later good
      (fun t st' => Versioned.Realizes t.stock st'.session (reserveOps st'.reservedItems) ∧
        (st'.failureReason = none ∧ st'.reservedItems = st.reservedItems ++ [(p, q)] ∨
          st'.failureReason ≠ none ∧ st'.reservedItems = st.reservedItems))
      (reserveItem st p q) db := by
  refine safe_acquireLock fun t ht => safe_selectInventory (hs.mono ht) ?_ ?_
  · intro u _ _ hsu v hv
    exact ⟨hsu.mono hv, Or.inr ⟨Option.some_ne_none _, rfl⟩⟩
  · intro u session e _ hsu he hkey
    dsimp only
    split
    · exact fun v hv => ⟨hsu.mono hv, Or.inr ⟨Option.some_ne_none _, rfl⟩⟩
    · next hstock =>
      have hedit := hsu.edit (o := StockOp.reserve p q) he hkey (Int.not_lt.mp hstock)
      have hops : reserveOps (st.reservedItems ++ [(p, q)]) =
          reserveOps st.reservedItems ++ [.reserve p q] := List.map_append
      intro v hv
      refine ⟨?_, Or.inl ⟨hst, rfl⟩⟩
      show Versioned.Realizes v.stock _ (reserveOps (st.reservedItems ++ [(p, q)]))
      rw [hops]
      exact hedit.mono hv

/-- The reservation loop: the items before the one that fails, or all of them. -/
theorem reserveItems_safe {items : List EventItem} {st : Reservation}
    (hst : st.failureReason = none)
    (hs : Versioned.Realizes db.stock st.session (reserveOps st.reservedItems)) :
    Safe InventoryDb.answer Later good
      (fun t st' => Versioned.Realizes t.stock st'.session (reserveOps st'.reservedItems) ∧
        ∃ done, st'.reservedItems = st.reservedItems ++ done ∧ done <+: lines items ∧
          (st'.failureReason = none → done = lines items ∧ Complete items))
      (reserveItems items st) db := by
  induction items generalizing st db with
  | nil =>
    refine fun t ht => ⟨hs.mono ht, [], (List.append_nil _).symm, List.nil_prefix, fun _ => ?_⟩
    exact ⟨rfl, fun _ h => absurd h List.not_mem_nil⟩
  | cons item items ih =>
    unfold reserveItems
    cases hp : item.productId with
    | none => trivial
    | some p =>
      refine (reserveItem_safe hst hs).bind (Later.refl _) (fun _ u _ => Later.refl u) ?_
      rintro t st' ⟨hst', hcase⟩
      rcases hcase with ⟨hok, hitems⟩ | ⟨hfail, hitems⟩
      · simp only [hok]
        refine (ih hok hst').imp fun u st'' h => ?_
        obtain ⟨hreal, done, hdone, hpre, hall⟩ := h
        refine ⟨hreal, (p, item.quantity) :: done, ?_, ?_, fun hnone => ?_⟩
        · rw [hdone, hitems, List.append_assoc]
          rfl
        · rw [lines_cons hp]
          exact List.cons_prefix_cons.mpr ⟨rfl, hpre⟩
        · obtain ⟨heq, hcomplete⟩ := hall hnone
          refine ⟨by rw [heq, lines_cons hp], fun i hi => ?_⟩
          rcases List.mem_cons.mp hi with rfl | hi
          · rw [hp]
            exact Option.some_ne_none p
          · exact hcomplete i hi
      · obtain ⟨reason, hreason⟩ := Option.ne_none_iff_exists'.mp hfail
        simp only [hreason]
        refine fun u hu => ⟨hst'.mono hu, [], ?_, List.nil_prefix, fun hnone => ?_⟩
        · rw [hitems, List.append_nil]
        · exact absurd hnone hfail

/-- A product with an operation in the session has a row. -/
theorem row_of_covered {o : StockOp} (hs : Versioned.Realizes db.stock session ops)
    (ho : o ∈ ops) : db.stock.get o.productId ≠ none := by
  obtain ⟨e, he, hkey⟩ := List.mem_map.mp (hs.covered o ho)
  obtain ⟨r, hr, -⟩ := hs.seen e he
  have hkey' : stockRows.key e.loaded = o.productId := hkey
  rw [← hkey', hr]
  exact Option.some_ne_none r

/-- The undo loop takes back every reserved item. -/
theorem undoItems_safe {rest done : List (ℕ × Int)}
    (hs : Versioned.Realizes db.stock session (reserveOps (done ++ rest) ++ unreserveOps done)) :
    Safe InventoryDb.answer Later good
      (fun t s => Versioned.Realizes t.stock s
        (reserveOps (done ++ rest) ++ unreserveOps (done ++ rest)))
      (undoItems rest session) db := by
  induction rest generalizing done session db with
  | nil =>
    intro t ht
    rw [List.append_nil] at hs ⊢
    exact hs.mono ht
  | cons l rest ih =>
    obtain ⟨p, q⟩ := l
    refine safe_acquireLock fun t ht => safe_selectInventory (hs.mono ht) ?_ ?_
    · intro u _ hnone hsu
      have hmem : StockOp.reserve p q ∈
          reserveOps (done ++ (p, q) :: rest) ++ unreserveOps done := by
        simp [reserveOps]
      exact absurd hnone (row_of_covered hsu hmem)
    · intro u session e _ hsu he hkey
      have hedit := hsu.edit (o := StockOp.unreserve p q) he hkey trivial
      have hsplit : done ++ (p, q) :: rest = (done ++ [(p, q)]) ++ rest := List.append_cons ..
      have hops : unreserveOps done ++ [.unreserve p q] = unreserveOps (done ++ [(p, q)]) := by
        simp [unreserveOps]
      rw [List.append_assoc, hops, hsplit] at hedit
      rw [hsplit]
      exact ih hedit

/-- The locks a transaction asks for are granted. -/
def Granted (good : InventoryDb → InventoryQuery → InventoryEnv → Prop) : Prop :=
  ∀ db p ω, good db (.lock p) ω → ω.acquired = true

/-- The release loop: the items before the exception that ended it, or all of them; an item is
    passed over if its product has no row. -/
theorem releaseItems_safe {items : List EventItem} (hbegun : Later begun db)
    (hs : Versioned.Realizes db.stock session ops) :
    Safe InventoryDb.answer Later good
      (fun t r => ∃ done ops', Versioned.Realizes t.stock r.1 (ops ++ ops') ∧
        done <+: lines items ∧ ops'.Sublist (releaseOps done) ∧
        (Stocked begun done → ops' = releaseOps done) ∧ (r.2 = true → done = lines items) ∧
        (r.2 = false → ¬ (Granted good ∧ Complete items)))
      (releaseItems items session) db := by
  induction items generalizing session ops db with
  | nil =>
    refine fun t ht => ⟨[], [], ?_, List.nil_prefix, List.Sublist.refl _, fun _ => rfl,
      fun _ => rfl, nofun⟩
    rw [List.append_nil]
    exact hs.mono ht
  | cons item items ih =>
    unfold releaseItems
    cases hp : item.productId with
    | none =>
      refine fun t ht => ⟨[], [], ?_, List.nil_prefix, List.Sublist.refl _, fun _ => rfl,
        nofun, fun _ h => h.2 item List.mem_cons_self hp⟩
      rw [List.append_nil]
      exact hs.mono ht
    | some p =>
      refine safe_acquired fun t ω ht hgood => ?_
      cases hω : ω.acquired with
      | false =>
        refine fun u hu => ⟨[], [], ?_, List.nil_prefix, List.Sublist.refl _, fun _ => rfl,
          nofun, fun _ h => ?_⟩
        · rw [List.append_nil]
          exact (hs.mono ht).mono hu
        · exact absurd (h.1 t p ω hgood) (hω ▸ Bool.false_ne_true)
      | true =>
        have hcomplete : Complete (item :: items) → Complete items := fun h i hi =>
          h i (List.mem_cons_of_mem _ hi)
        refine safe_selectInventory (hs.mono ht) ?_ ?_
        · intro u hu hnone hsu
          refine (ih ((hbegun.trans ht).trans hu) hsu).imp fun v r h => ?_
          obtain ⟨done, ops', hreal, hpre, hsub, hall, htrue, hfalse⟩ := h
          rw [lines_cons hp]
          refine ⟨(p, item.quantity) :: done, ops', hreal, List.cons_prefix_cons.mpr ⟨rfl, hpre⟩,
            hsub.cons _, fun hstocked => ?_, fun hr => by rw [htrue hr],
            fun hr h => hfalse hr ⟨h.1, hcomplete h.2⟩⟩
          -- the product had a row when the transaction began, so it has one now
          have hlater := hstocked.mono ((hbegun.trans ht).trans hu)
          exact absurd hnone (hlater _ List.mem_cons_self)
        · intro u session e hu hsu he hkey
          have hedit := hsu.edit (o := StockOp.release p item.quantity) he hkey trivial
          refine (ih ((hbegun.trans ht).trans hu) hedit).imp fun v r h => ?_
          obtain ⟨done, ops', hreal, hpre, hsub, hall, htrue, hfalse⟩ := h
          rw [lines_cons hp]
          refine ⟨(p, item.quantity) :: done, .release p item.quantity :: ops', ?_,
            List.cons_prefix_cons.mpr ⟨rfl, hpre⟩, hsub.cons_cons _, fun hstocked => ?_,
            fun hr => by rw [htrue hr], fun hr h => hfalse hr ⟨h.1, hcomplete h.2⟩⟩
          · rw [List.append_cons]
            exact hreal
          · rw [hall fun l hl => hstocked l (List.mem_cons_of_mem _ hl)]
            rfl

end Loops

/-! ## Programs -/

/-- What a finished transaction leaves, with the operations its session realizes; `begun` is the
    database it started on. -/
inductive Account (tid : ℕ) (granted : Prop) (begun : InventoryDb) :
    InventoryRequest → InventoryWrites → List StockOp → Prop where
  | reserved {e : SagaEvent} {session : Session} (htype : e.eventType = .orderCreatedEvent)
      (hall : Complete e.payload.items) :
      Account tid granted begun (.event e)
        (InventoryWrites.record e { session, outbox := [reservedEvent tid e] })
        (reserveOps (lines e.payload.items))
  | refused {e : SagaEvent} {session : Session} {reason : String} {done : List (ℕ × Int)}
      (htype : e.eventType = .orderCreatedEvent) (hdone : done <+: lines e.payload.items) :
      Account tid granted begun (.event e)
        (InventoryWrites.record e { session, outbox := [reserveFailedEvent tid e reason] })
        (reserveOps done ++ unreserveOps done)
  | released {e : SagaEvent} {session : Session} {ops : List StockOp}
      (htype : e.eventType = .paymentFailedEvent ∨ e.eventType = .orderCancelledEvent)
      (hsub : ops.Sublist (releaseOps (lines e.payload.items)))
      (hall : Stocked begun (lines e.payload.items) → ops = releaseOps (lines e.payload.items)) :
      Account tid granted begun (.event e)
        (InventoryWrites.record e { session, outbox := [releasedEvent tid e] }) ops
  | interrupted {e : SagaEvent} {session : Session} {ops : List StockOp}
      (htype : e.eventType = .paymentFailedEvent ∨ e.eventType = .orderCancelledEvent)
      (hsub : ops.Sublist (releaseOps (lines e.payload.items)))
      (hfail : ¬ (granted ∧ Complete e.payload.items)) :
      Account tid granted begun (.event e) (InventoryWrites.record e { session }) ops
  | restocked {p : ℕ} {payload : RestockRequest} {session : Session} :
      Account tid granted begun (.restock p payload) { session } [.restock p payload.quantity]
  | created {p : ℕ} {payload : RestockRequest} :
      Account tid granted begun (.restock p payload)
        { created := some (newInventory p payload) } []
  | batch {items : List BatchReserveItem} {session : Session} :
      Account tid granted begun (.reserveBatch items) { session }
        (reserveOps (items.map fun i => (i.productId, i.quantity)))

/-- The writes are accounted for in the database `t`. -/
def Accounted (tid : ℕ) (granted : Prop) (begun : InventoryDb) (r : InventoryRequest)
    (t : InventoryDb) (w : InventoryWrites) : Prop :=
  ∃ ops, Versioned.Realizes t.stock w.session ops ∧ Account tid granted begun r w ops

/-- The writes of an outcome, if it has any, are accounted for. -/
def AccountedOutcome (tid : ℕ) (granted : Prop) (begun : InventoryDb) (r : InventoryRequest)
    (t : InventoryDb) : Outcome InventoryWrites → Prop
  | .handled w => Accounted tid granted begun r t w
  | _ => True

section Programs

variable {good : InventoryDb → InventoryQuery → InventoryEnv → Prop} {db begun : InventoryDb}
  {granted : Prop}

theorem handleOrderCreated_account {tid : ℕ} {e : SagaEvent}
    (htype : e.eventType = .orderCreatedEvent) :
    Safe InventoryDb.answer Later good
      (fun t w => Accounted tid granted begun (.event e) t (w.record e))
      (handleOrderCreated tid e) db := by
  have hstart : Versioned.Realizes db.stock ({} : Reservation).session (reserveOps []) :=
    Versioned.Realizes.empty _
  refine (reserveItems_safe rfl hstart).bind (Later.refl _) (fun _ u _ => Later.refl u) ?_
  rintro t st ⟨hst, done, hdone, hpre, hall⟩
  rw [List.nil_append] at hdone
  cases hreason : st.failureReason with
  | none =>
    obtain ⟨heq, hcomplete⟩ := hall hreason
    rw [hdone, heq] at hst
    exact fun u hu => ⟨_, hst.mono hu, .reserved htype hcomplete⟩
  | some reason =>
    rw [hdone] at hst ⊢
    have hundo : Versioned.Realizes t.stock st.session
        (reserveOps ([] ++ done) ++ unreserveOps []) := by
      rw [List.nil_append, unreserveOps, List.map_nil, List.append_nil]
      exact hst
    refine (undoItems_safe hundo).bind (Later.refl _) (fun _ u _ => Later.refl u) ?_
    intro u session hsession v hv
    rw [List.nil_append] at hsession
    exact ⟨_, hsession.mono hv, .refused htype hpre⟩

theorem handleReleaseStock_account {tid : ℕ} {e : SagaEvent}
    (htype : e.eventType = .paymentFailedEvent ∨ e.eventType = .orderCancelledEvent)
    (hbegun : Later begun db) :
    Safe InventoryDb.answer Later good
      (fun t w => Accounted tid (Granted good) begun (.event e) t (w.record e))
      (handleReleaseStock tid e) db := by
  refine (releaseItems_safe hbegun (Versioned.Realizes.empty _)).bind (Later.refl _)
    (fun _ u _ => Later.refl u) ?_
  rintro t ⟨session, ok⟩ ⟨done, ops, hreal, hpre, hsub, hall, htrue, hfalse⟩
  cases ok with
  | true =>
    obtain rfl := htrue rfl
    exact fun u hu => ⟨ops, hreal.mono hu, .released htype hsub hall⟩
  | false =>
    have hsub' : ops.Sublist (releaseOps (lines e.payload.items)) :=
      hsub.trans (hpre.sublist.map _)
    exact fun u hu => ⟨ops, hreal.mono hu, .interrupted htype hsub' (hfalse rfl)⟩

theorem handlerOf_account {tid : ℕ} {e : SagaEvent} {handler : InventoryTxn InventoryWrites}
    (hbegun : Later begun db) (h : handlerOf tid e = some handler) :
    Safe InventoryDb.answer Later good
      (fun t w => Accounted tid (Granted good) begun (.event e) t (w.record e)) handler db := by
  unfold handlerOf at h
  split at h
  · next htype =>
    cases h
    exact handleOrderCreated_account htype
  · next htype =>
    cases h
    exact handleReleaseStock_account (Or.inl htype) hbegun
  · next htype =>
    cases h
    exact handleReleaseStock_account (Or.inr htype) hbegun
  · cases h

theorem handleEvent_account {tid : ℕ} {e : SagaEvent} (hbegun : Later begun db) :
    Safe InventoryDb.answer Later good
      (AccountedOutcome tid (Granted good) begun (.event e)) (handleEvent tid e) db := by
  refine safe_inInbox fun t b ht => ?_
  cases b with
  | true => exact fun _ _ => trivial
  | false =>
    cases hh : handlerOf tid e with
    | none => exact fun _ _ => trivial
    | some handler =>
      refine (handlerOf_account (hbegun.trans ht) hh).bind (Later.refl _)
        (fun _ u _ => Later.refl u) ?_
      rintro u w ⟨ops, hreal, haccount⟩ v hv
      exact ⟨ops, hreal.mono hv, haccount⟩

theorem restock_account {tid : ℕ} {p : ℕ} {payload : RestockRequest} :
    Safe InventoryDb.answer Later good (Accounted tid granted begun (.restock p payload))
      (restock p payload) db := by
  refine safe_acquireLock fun t _ => safe_selectInventory (Versioned.Realizes.empty _) ?_ ?_
  · exact fun u _ _ hu v hv => ⟨[], hu.mono hv, .created⟩
  · intro u session e _ hu he hkey v hv
    have hedit := hu.edit (o := StockOp.restock p payload.quantity) he hkey trivial
    exact ⟨_, hedit.mono hv, .restocked⟩

theorem reserveBatch_safe {items : List BatchReserveItem} {session : Session} {ops : List StockOp}
    (hs : Versioned.Realizes db.stock session ops) :
    Safe InventoryDb.answer Later good
      (fun t w => ∃ session', w = { session := session' } ∧ Versioned.Realizes t.stock session'
        (ops ++ reserveOps (items.map fun i => (i.productId, i.quantity))))
      (reserveBatch items session) db := by
  induction items generalizing session ops db with
  | nil =>
    refine fun t ht => ⟨session, rfl, ?_⟩
    rw [List.map_nil, reserveOps, List.map_nil, List.append_nil]
    exact hs.mono ht
  | cons item items ih =>
    refine safe_selectInventory hs ?_ ?_
    · exact fun _ _ _ _ => trivial
    · intro u session e _ hu he hkey
      dsimp only
      split
      · trivial
      · next hstock =>
        have hedit := hu.edit (o := StockOp.reserve item.productId item.quantity) he hkey
          (Int.not_lt.mp hstock)
        have hops : ops ++ [StockOp.reserve item.productId item.quantity] ++
              reserveOps (items.map fun i => (i.productId, i.quantity)) =
            ops ++ reserveOps ((item :: items).map fun i => (i.productId, i.quantity)) := by
          simp [reserveOps]
        rw [← hops]
        exact ih hedit

/-- Every program leaves writes that are accounted for, whatever other transactions do. -/
theorem program_account {tid : ℕ} {r : InventoryRequest} :
    Safe InventoryDb.answer Later good (AccountedOutcome tid (Granted good) db r) (program tid r)
      db := by
  cases r with
  | event e => exact handleEvent_account (Later.refl db)
  | restock p payload =>
    have hrestock : Safe InventoryDb.answer Later good
        (Accounted tid (Granted good) db (.restock p payload)) (restock p payload) db :=
      restock_account
    refine hrestock.bind (Later.refl _) (fun _ u _ => Later.refl u) ?_
    rintro t w ⟨ops, hreal, haccount⟩ u hu
    exact ⟨ops, hreal.mono hu, haccount⟩
  | reserveBatch items =>
    refine (reserveBatch_safe (Versioned.Realizes.empty _)).bind (Later.refl _)
      (fun _ u _ => Later.refl u) ?_
    rintro t w ⟨session, rfl, hreal⟩ u hu
    exact ⟨_, hreal.mono hu, .batch⟩

end Programs

/-! ## The server -/

/-- A commit of an outcome whose writes are accounted for moves the rows forward. -/
theorem commit_later {tid : ℕ} {granted : Prop} {begun db db' : InventoryDb}
    {r : InventoryRequest} {o : Outcome InventoryWrites}
    (ho : AccountedOutcome tid granted begun r db o) (hc : commit o db = some db') :
    Later db db' := by
  cases o with
  | handled w =>
    obtain ⟨ops, hreal, -⟩ := ho
    exact commit_forward hc hreal
  | skipped => exact Option.some.inj hc ▸ Later.refl db
  | ignored => exact Option.some.inj hc ▸ Later.refl db

theorem inventory_guarantees
    (good : Ticket InventoryDb InventoryRequest → InventoryDb → InventoryQuery → InventoryEnv →
      Prop) :
    Guarantees service InventoryDb.answer Later good
      (fun tk t o => AccountedOutcome tk.tid (Granted (good tk)) tk.begun tk.req t o) where
  refl := Later.refl
  trans _ _ _ := Later.trans
  answer _ _ _ _ := rfl
  start _ _ _ := program_account
  commit _ _ _ _ := commit_later

end CloudScale.InventoryService
