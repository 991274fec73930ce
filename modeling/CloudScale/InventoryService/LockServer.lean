/-
  The inventory service with Redis beside it.

  A `LockServer` is the server of the transactions of `Locking`, the keys `inventory:lock:<product>`
  and the history of what the transactions did under their locks. A lock is granted while its key is
  absent, a release deletes the key if it still has the token, and a key may expire at any time.

  `steps_of_lockStep` says what a step can do. Leaving out the locks, every run is a run of
  `InventoryService.service` (`simulates_run`), so what is known of the sessions there holds here
  (`realizes_of_reaches`).
-/
import CloudScale.InventoryService.Locking
import CloudScale.InventoryService.Stock

namespace CloudScale.InventoryService.Locking

open CloudScale.Lib CloudScale.Shared

/-! ## Server and Redis -/

def service : Service InventoryDb Unit LockRequest LockEnv LockQuery LockAnswer Exc
    (Outcome InventoryWrites) where
  prog := program
  answer env _ db q := answer env db q
  effect _ x := x
  commit := InventoryService.commit

abbrev Transactions := Server InventoryDb Unit LockRequest LockQuery LockAnswer Exc
  (Outcome InventoryWrites)

/-- What a transaction did: it entered the block of a product, read the row, left the block. -/
inductive LockEvent where
  | entered (tid productId : ℕ) (token : String)
  | read (tid productId : ℕ) (row : Option Inventory)
  | left (tid productId : ℕ)
deriving DecidableEq

/-- The transactions, the keys `inventory:lock:<product>` with their tokens, and the history, latest
    first (no program reads it). -/
structure LockServer where
  srv : Transactions
  redis : ℕ → Option String
  history : List LockEvent

def LockServer.init (db : InventoryDb) : LockServer :=
  { srv := Server.init db (), redis := fun _ => none, history := [] }

/-- `SET NX` and the release script; `none` when Redis does not answer so. -/
def redisStep (redis : ℕ → Option String) (env : LockEnv) : LockQuery → Option (ℕ → Option String)
  | .acquire p => match env.token with
    | none => some redis
    | some token => if redis p = none then some (Function.update redis p (some token)) else none
  | .release p token =>
    some (if env.reachable ∧ redis p = some token then Function.update redis p none else redis)
  | _ => some redis

def record (tid : ℕ) (env : LockEnv) (db : InventoryDb) : LockQuery → List LockEvent
  | .inbox _ => []
  | .acquire p => env.token.toList.map fun token => .entered tid p token
  | .row p => [.read tid p (db.stock.get p)]
  | .release p _ => [.left tid p]

/-- A step of the transactions, or a key that expires. -/
inductive LockLabel where
  | server (l : Label LockRequest LockEnv)
  | expire (productId : ℕ)

/-- The next query of the transaction at place `i`, with its number. -/
def asked (srv : Transactions) (i : ℕ) : Option (ℕ × LockQuery) :=
  (srv.active[i]?).bind fun a => match a.prog with
    | .ask q _ => some (a.tid, q)
    | _ => none

def lockStep (s : LockServer) : LockLabel → Option LockServer
  | .server (.move (.advance i env)) =>
    (asked s.srv i).bind fun (tid, q) => (redisStep s.redis env q).bind fun redis =>
      (service.move s.srv (.advance i env)).map fun srv =>
        { srv, redis, history := record tid env s.srv.db q ++ s.history }
  | .server l => (service.step s.srv l).map fun srv => { s with srv }
  | .expire p => some { s with redis := Function.update s.redis p none }

/-- The server after the transaction `a` at place `i` was answered `q`. -/
def LockServer.advance (s : LockServer) (i : ℕ) (env : LockEnv)
    (a : Active InventoryDb LockRequest LockQuery LockAnswer Exc (Outcome InventoryWrites))
    (q : LockQuery) (k : LockAnswer q → LockTxn (Outcome InventoryWrites))
    (redis : ℕ → Option String) : LockServer where
  srv := { s.srv with active := s.srv.active.set i { a with prog := k (answer env s.srv.db q) } }
  redis := redis
  history := record a.tid env s.srv.db q ++ s.history

/-- Everything a step can do. -/
inductive Steps (s : LockServer) : LockLabel → LockServer → Prop where
  | start (r : LockRequest) : Steps s (.server (.start r)) { s with srv := service.start s.srv r }
  | advance {i : ℕ} {env : LockEnv} {a q k redis} (ha : s.srv.active[i]? = some a)
      (hp : a.prog = .ask q k) (hr : redisStep s.redis env q = some redis) :
      Steps s (.server (.move (.advance i env))) (s.advance i env a q k redis)
  | commit {i : ℕ} {a o db} (ha : s.srv.active[i]? = some a) (hp : a.prog = .done o)
      (hc : InventoryService.commit o s.srv.db = some db) :
      Steps s (.server (.move (.finish i)))
        { s with srv := { s.srv.close i a (.committed o) with db := db } }
  | close {i : ℕ} {a v} {m : Move LockEnv} (ha : s.srv.active[i]? = some a)
      (hv : ∀ o, v ≠ .committed o) : Steps s (.server (.move m)) { s with srv := s.srv.close i a v }
  | expire (p : ℕ) : Steps s (.expire p) { s with redis := Function.update s.redis p none }

theorem steps_of_lockStep {s s' : LockServer} {l : LockLabel} (h : lockStep s l = some s') :
    Steps s l s' := by
  have hmove : ∀ {m : Move LockEnv} {srv : Transactions}, service.move s.srv m = some srv →
      (∀ i env, m ≠ .advance i env) → Steps s (.server (.move m)) { s with srv } := by
    intro m srv hm hne
    obtain ⟨i, a, ha, ⟨ω, q, k, rfl, -, -⟩ | ⟨o, db, rfl, hp, hc, rfl⟩ | ⟨v, hv, rfl⟩⟩ :=
      Service.move_cases hm
    · exact absurd rfl (hne i ω)
    · exact .commit ha hp hc
    · exact .close ha hv
  cases l with
  | expire p =>
    cases h
    exact .expire p
  | server l =>
    cases l with
    | start r =>
      cases h
      exact .start r
    | move m =>
      cases m with
      | finish i =>
        obtain ⟨srv, hm, rfl⟩ := Option.map_eq_some_iff.mp h
        exact hmove hm fun _ _ => nofun
      | crash i =>
        obtain ⟨srv, hm, rfl⟩ := Option.map_eq_some_iff.mp h
        exact hmove hm fun _ _ => nofun
      | advance i env =>
        obtain ⟨⟨tid, q⟩, hask, h⟩ := Option.bind_eq_some_iff.mp h
        obtain ⟨redis, hr, h⟩ := Option.bind_eq_some_iff.mp h
        obtain ⟨srv, hm, rfl⟩ := Option.map_eq_some_iff.mp h
        obtain ⟨a, ha, hask⟩ := Option.bind_eq_some_iff.mp hask
        cases hp : a.prog with
        | ask q' k =>
          rw [hp] at hask
          cases hask
          have hsrv : service.move s.srv (.advance i env) = some
              { s.srv with
                active := s.srv.active.set i { a with prog := k (answer env s.srv.db q) } } := by
            simp only [Service.move, ha, Option.bind_some, Service.advance, hp]
            rfl
          obtain rfl := Option.some.inj (hm.symm.trans hsrv)
          exact .advance ha hp hr
        | done o =>
          rw [hp] at hask
          cases hask
        | raise e =>
          rw [hp] at hask
          cases hask

/-! ## The transactions without the locks -/

/-- A transaction and the one of `InventoryService.service` that does the same. -/
structure Paired
    (a : Active InventoryDb LockRequest LockQuery LockAnswer Exc (Outcome InventoryWrites))
    (b : Active InventoryDb InventoryRequest InventoryQuery InventoryAnswer Exc
      (Outcome InventoryWrites)) : Prop where
  req : b.req = a.req.toRequest
  prog : Refines a.prog b.prog

structure Simulates (srv : Transactions) (t : InventoryServer) : Prop where
  db : t.db = srv.db
  next : t.next = srv.next
  active : List.Forall₂ Paired srv.active t.active
  committed : t.committed = srv.committed.map fun rw => (rw.1.toRequest, rw.2)

section Lists

variable {α β : Type} {R : α → β → Prop} {l : List α} {l' : List β} {i : ℕ} {x : α} {y : β}

theorem forall₂_getElem? (h : List.Forall₂ R l l') (hx : l[i]? = some x) :
    ∃ y, l'[i]? = some y ∧ R x y := by
  induction h generalizing i with
  | nil => cases hx
  | cons hab _ ih =>
    cases i with
    | zero => exact ⟨_, rfl, Option.some.inj hx ▸ hab⟩
    | succ i => exact ih hx

theorem forall₂_set (h : List.Forall₂ R l l') (hxy : R x y) :
    List.Forall₂ R (l.set i x) (l'.set i y) := by
  induction h generalizing i with
  | nil => exact .nil
  | cons hab hrest ih =>
    cases i with
    | zero => exact .cons hxy hrest
    | succ i => exact .cons hab ih

theorem forall₂_eraseIdx (h : List.Forall₂ R l l') :
    List.Forall₂ R (l.eraseIdx i) (l'.eraseIdx i) := by
  induction h generalizing i with
  | nil => exact .nil
  | cons hab hrest ih =>
    cases i with
    | zero => exact hrest
    | succ i => exact .cons hab ih

end Lists

variable {s s' : LockServer} {t : InventoryServer} {db : InventoryDb} {ls : List LockLabel}

/-- The paired transaction is answered the same query. -/
theorem simulates_answer (hs : Simulates s.srv t) {i : ℕ} {env : LockEnv} {a b q k redis q' k'}
    (hb : t.active[i]? = some b) (hreq : b.req = a.req.toRequest) (ω : InventoryEnv)
    (hbp : b.prog = .ask q' k')
    (hnext : Refines (k (answer env s.srv.db q)) (k' (InventoryDb.answer ω t.db q'))) :
    ∃ ls t', runFrom InventoryService.service.step t ls = some t' ∧
      Simulates (s.advance i env a q k redis).srv t' := by
  have hstep : InventoryService.service.step t (.move (.advance i ω)) = some { t with
      active := t.active.set i { b with prog := k' (InventoryDb.answer ω t.db q') } } := by
    simp only [Service.step, Service.move, hb, Option.bind_some, Service.advance, hbp]
    rfl
  exact ⟨[.move (.advance i ω)], _, Option.bind_eq_some_iff.mpr ⟨_, hstep, rfl⟩, hs.db, hs.next,
    forall₂_set hs.active ⟨hreq, hnext⟩, hs.committed⟩

/-- A query without the locks: none for a release, otherwise the same query. -/
theorem simulates_advance (hs : Simulates s.srv t) {i : ℕ} (env : LockEnv) {a q k}
    (ha : s.srv.active[i]? = some a) (hp : a.prog = .ask q k) (redis : ℕ → Option String) :
    ∃ ls t', runFrom InventoryService.service.step t ls = some t' ∧
      Simulates (s.advance i env a q k redis).srv t' := by
  obtain ⟨b, hb, hpair⟩ := forall₂_getElem? hs.active ha
  have hrefines := hpair.prog
  rw [hp] at hrefines
  generalize hbp : b.prog = p' at hrefines
  cases hrefines with
  | inbox id hk =>
    refine simulates_answer hs hb hpair.req ⟨true⟩ hbp ?_
    have hanswer : InventoryDb.answer ⟨true⟩ t.db (.inbox id) = answer env s.srv.db (.inbox id) :=
      congrArg (fun db : InventoryDb => inboxAlreadyProcessed db.inbox id) hs.db
    rw [hanswer]
    exact hk _
  | row p hk =>
    refine simulates_answer hs hb hpair.req ⟨true⟩ hbp ?_
    have hanswer : InventoryDb.answer ⟨true⟩ t.db (.row p) = answer env s.srv.db (.row p) :=
      congrArg (fun db : InventoryDb => db.stock.get p) hs.db
    rw [hanswer]
    exact hk _
  | acquire p hk =>
    exact simulates_answer hs hb hpair.req ⟨env.token.isSome⟩ hbp (hk env.token)
  | release p token hk =>
    obtain ⟨hlt, hbi⟩ := List.getElem?_eq_some_iff.mp hb
    have hset : t.active.set i b = t.active := by
      rw [← hbi]
      exact List.set_getElem_self hlt
    refine ⟨[], t, rfl, hs.db, hs.next, ?_, hs.committed⟩
    rw [← hset]
    exact forall₂_set hs.active ⟨hpair.req, hbp ▸ hk⟩

/-- The paired transaction commits the same writes. -/
theorem simulates_commit (hs : Simulates s.srv t) {i : ℕ} {a o db}
    (ha : s.srv.active[i]? = some a) (hp : a.prog = .done o)
    (hc : InventoryService.commit o s.srv.db = some db) :
    ∃ ls t', runFrom InventoryService.service.step t ls = some t' ∧
      Simulates { s.srv.close i a (.committed o) with db := db } t' := by
  obtain ⟨b, hb, hpair⟩ := forall₂_getElem? hs.active ha
  have hrefines := hpair.prog
  rw [hp] at hrefines
  have hbp : b.prog = .done o := by
    generalize b.prog = p' at hrefines
    cases hrefines
    rfl
  have hcommit : InventoryService.service.commit o t.db = some db := hs.db ▸ hc
  have hmove : InventoryService.service.step t (.move (.finish i)) = some _ :=
    Service.finish_db hb hbp hcommit
  refine ⟨[.move (.finish i)], _, Option.bind_eq_some_iff.mpr ⟨_, hmove, rfl⟩, rfl, hs.next,
    forall₂_eraseIdx hs.active, ?_⟩
  show (b.req, o) :: t.committed = (a.req.toRequest, o) :: s.srv.committed.map _
  rw [hpair.req, hs.committed]

/-- A step without the locks: none for a release or an expiry, otherwise the same step. -/
theorem simulates_step {l : LockLabel} (hs : Simulates s.srv t) (h : lockStep s l = some s') :
    ∃ ls t', runFrom InventoryService.service.step t ls = some t' ∧ Simulates s'.srv t' := by
  cases steps_of_lockStep h with
  | start r =>
    refine ⟨[.start r.toRequest], _, rfl, hs.db, congrArg Nat.succ hs.next, ?_, hs.committed⟩
    have hnew : Paired ⟨⟨s.srv.next, r, s.srv.db⟩, program s.srv.next r⟩
        ⟨⟨t.next, r.toRequest, t.db⟩, InventoryService.program t.next r.toRequest⟩ :=
      ⟨rfl, hs.next ▸ program_refines s.srv.next r⟩
    exact List.rel_append hs.active (.cons hnew .nil)
  | @advance i env a q k redis ha hp _ => exact simulates_advance hs env ha hp redis
  | commit ha hp hc => exact simulates_commit hs ha hp hc
  | @close i a v m ha hv =>
    obtain ⟨b, hb, -⟩ := forall₂_getElem? hs.active ha
    have hmove : InventoryService.service.step t (.move (.crash i)) =
        some (t.close i b .crashed) := by
      simp only [Service.step, Service.move, hb, Option.map_some]
    refine ⟨[.move (.crash i)], _, Option.bind_eq_some_iff.mpr ⟨_, hmove, rfl⟩, hs.db, hs.next,
      forall₂_eraseIdx hs.active, ?_⟩
    have hcrash : ∀ o,
        (Verdict.crashed : Verdict Exc (Outcome InventoryWrites)) ≠ .committed o := by
      intro o h
      cases h
    show (t.close i b .crashed).committed = (s.srv.close i a v).committed.map _
    rw [Server.close_uncommitted hv, Server.close_uncommitted hcrash, hs.committed]
  | expire p => exact ⟨[], t, rfl, hs⟩

/-- Every run is, without the locks, a run of the inventory service. -/
theorem simulates_run {ok : LockServer → LockLabel → Prop}
    (h : Reaches lockStep ok (LockServer.init db) ls s) : ∃ ls' t,
      Reaches InventoryService.service.step anyStep (Server.init db ()) ls' t ∧
        Simulates s.srv t := by
  refine h.invariant (fun s => ∃ ls' t, Reaches InventoryService.service.step anyStep
    (Server.init db ()) ls' t ∧ Simulates s.srv t) ⟨[], _, .start, rfl, rfl, .nil, rfl⟩ ?_
  rintro s l s' ⟨ls', t, ht, hs⟩ - hstep
  obtain ⟨ls'', t', hrun, hs'⟩ := simulates_step hs hstep
  exact ⟨_, t', reaches_append ht (reaches_run hrun), hs'⟩

/-- The session of a finished transaction realizes operations on rows seen in the database. -/
theorem realizes_of_reaches {ok : LockServer → LockLabel → Prop}
    (h : Reaches lockStep ok (LockServer.init db) ls s) {a} (ha : a ∈ s.srv.active)
    {w : InventoryWrites} (hp : a.prog = .done (.handled w)) :
    ∃ ops, Versioned.Realizes s.srv.db.stock w.session ops := by
  obtain ⟨ls', t, ht, hs⟩ := simulates_run h
  have G := inventory_guarantees fun _ _ _ _ => True
  have hall : AllAccounted t :=
    G.reaches ht fun _ m _ => goodMove_of_forall (fun _ _ _ _ => trivial) m
  obtain ⟨i, hi⟩ := List.getElem?_of_mem ha
  obtain ⟨b, hb, hpair⟩ := forall₂_getElem? hs.active hi
  have hrefines := hpair.prog
  rw [hp] at hrefines
  have hbp : b.prog = .done (.handled w) := by
    generalize b.prog = p' at hrefines
    cases hrefines
    rfl
  obtain ⟨ops, hreal, -⟩ := allSafe_result hall (List.mem_of_getElem? hb) hbp (Later.refl _)
  exact ⟨ops, hs.db ▸ hreal⟩

end CloudScale.InventoryService.Locking
