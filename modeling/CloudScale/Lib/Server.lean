/-
  A server: one database and any number of transactions in flight on it.

  `Service` fixes the program each request runs, how a query is answered, what a query does
  outside the database (`effect`, never rolled back) and what a commit does to the database
  (`none`: a constraint is violated and the transaction is rolled back). A `Server` is a
  reachable configuration: the committed database, the outside world, the transactions in
  flight and the log of those that ended, latest first.

  `move_cases` is the one description of what a move does; every invariant is derived from it.
  `allSafe_start`, `allSafe_move`, `allSafe_weaken` carry `Safe` programs through the moves of
  their own server and through everything else. `Guarantees` packages the rule for a service
  whose queries read the database only: each commit stays within `rely`
  (`Guarantees.step`, `Guarantees.reaches`), so all programs stay safe along every run.
  `replay_committed`: the database is the replay of the committed writes of the log.
-/
import Mathlib.Data.List.Basic
import Mathlib.Data.List.Perm.Basic
import CloudScale.Lib.Run
import CloudScale.Lib.Txn

namespace CloudScale.Lib

/-- The code of a service: programs, answers to queries, outside effects and commits. -/
structure Service (Δ X τ Ω Q : Type) (A : Q → Type) (ε W : Type) where
  prog : ℕ → τ → Txn Q A ε W
  answer : Ω → X → Δ → (q : Q) → A q
  effect : Q → X → X
  commit : W → Δ → Option Δ

/-- What is fixed when a transaction starts: its number, its request and the database it
    started on (`begun` is a history variable, no program reads it). -/
structure Ticket (Δ τ : Type) where
  tid : ℕ
  req : τ
  begun : Δ

/-- A transaction in flight. -/
structure Active (Δ τ Q : Type) (A : Q → Type) (ε W : Type) extends Ticket Δ τ where
  prog : Txn Q A ε W

/-- How a transaction ended. -/
inductive Verdict (ε W : Type) where
  | committed (w : W)
  | rejected (w : W)
  | raised (e : ε)
  | crashed
deriving DecidableEq

/-- A finished transaction. -/
structure Entry (τ ε W : Type) where
  tid : ℕ
  req : τ
  verdict : Verdict ε W

structure Server (Δ X τ Q : Type) (A : Q → Type) (ε W : Type) where
  db : Δ
  world : X
  active : List (Active Δ τ Q A ε W)
  next : ℕ
  log : List (Entry τ ε W)

/-- A move of a transaction in flight, named by its place in `active`: the next query is
    answered, the transaction ends, or the process running it dies. -/
inductive Move (Ω : Type) where
  | advance (i : ℕ) (ω : Ω)
  | finish (i : ℕ)
  | crash (i : ℕ)

/-- A step of a server on its own: a request arrives or a transaction moves. -/
inductive Label (τ Ω : Type) where
  | start (r : τ)
  | move (m : Move Ω)

variable {Δ X τ Ω Q : Type} {A : Q → Type} {ε W : Type}

/-- The server before its first request. -/
def Server.init (db : Δ) (world : X) : Server Δ X τ Q A ε W :=
  { db := db, world := world, active := [], next := 0, log := [] }

/-- End the transaction at place `i` with verdict `v`. -/
def Server.close (srv : Server Δ X τ Q A ε W) (i : ℕ) (a : Active Δ τ Q A ε W)
    (v : Verdict ε W) : Server Δ X τ Q A ε W :=
  { srv with active := srv.active.eraseIdx i, log := ⟨a.tid, a.req, v⟩ :: srv.log }

/-- The committed writes with their requests, latest first. -/
def Server.committed (srv : Server Δ X τ Q A ε W) : List (τ × W) :=
  srv.log.filterMap fun e => match e.verdict with
    | .committed w => some (e.req, w)
    | _ => none

namespace Service

variable (S : Service Δ X τ Ω Q A ε W)

def start (srv : Server Δ X τ Q A ε W) (r : τ) : Server Δ X τ Q A ε W :=
  { srv with
    active := srv.active ++ [⟨⟨srv.next, r, srv.db⟩, S.prog srv.next r⟩]
    next := srv.next + 1 }

def finish (srv : Server Δ X τ Q A ε W) (i : ℕ) (a : Active Δ τ Q A ε W) :
    Option (Server Δ X τ Q A ε W) :=
  match a.prog with
  | .done w => match S.commit w srv.db with
    | some db => some { srv.close i a (.committed w) with db := db }
    | none => some (srv.close i a (.rejected w))
  | .raise e => some (srv.close i a (.raised e))
  | .ask _ _ => none

def advance (srv : Server Δ X τ Q A ε W) (i : ℕ) (ω : Ω) (a : Active Δ τ Q A ε W) :
    Option (Server Δ X τ Q A ε W) :=
  match a.prog with
  | .ask q k => some { srv with
      world := S.effect q srv.world
      active := srv.active.set i { a with prog := k (S.answer ω srv.world srv.db q) } }
  | _ => none

def move (srv : Server Δ X τ Q A ε W) : Move Ω → Option (Server Δ X τ Q A ε W)
  | .advance i ω => (srv.active[i]?).bind fun a => S.advance srv i ω a
  | .finish i => (srv.active[i]?).bind fun a => S.finish srv i a
  | .crash i => (srv.active[i]?).map fun a => srv.close i a .crashed

def step (srv : Server Δ X τ Q A ε W) : Label τ Ω → Option (Server Δ X τ Q A ε W)
  | .start r => some (S.start srv r)
  | .move m => S.move srv m

variable {S} {srv srv' : Server Δ X τ Q A ε W}

/-- Everything a move can do: answer a query, commit, or end without touching the database. -/
theorem move_cases {m : Move Ω} (h : S.move srv m = some srv') :
    ∃ i a, srv.active[i]? = some a ∧
      ((∃ ω q k, m = .advance i ω ∧ a.prog = .ask q k ∧
          srv' = { srv with
            world := S.effect q srv.world
            active := srv.active.set i { a with prog := k (S.answer ω srv.world srv.db q) } }) ∨
        (∃ w db, m = .finish i ∧ a.prog = .done w ∧ S.commit w srv.db = some db ∧
          srv' = { srv.close i a (.committed w) with db := db }) ∨
        ∃ v, (∀ w, v ≠ .committed w) ∧ srv' = srv.close i a v) := by
  cases m with
  | advance i ω =>
    obtain ⟨a, ha, h⟩ := Option.bind_eq_some_iff.mp h
    refine ⟨i, a, ha, Or.inl ?_⟩
    unfold advance at h
    split at h
    · next q k hp => exact ⟨ω, q, k, rfl, hp, (Option.some.inj h).symm⟩
    · cases h
  | finish i =>
    obtain ⟨a, ha, h⟩ := Option.bind_eq_some_iff.mp h
    refine ⟨i, a, ha, Or.inr ?_⟩
    unfold finish at h
    split at h
    · next w hp =>
      split at h
      · next db hc => exact Or.inl ⟨w, db, rfl, hp, hc, (Option.some.inj h).symm⟩
      · exact Or.inr ⟨.rejected w, nofun, (Option.some.inj h).symm⟩
    · next e _ => exact Or.inr ⟨.raised e, nofun, (Option.some.inj h).symm⟩
    · cases h
  | crash i =>
    obtain ⟨a, ha, h⟩ := Option.map_eq_some_iff.mp h
    exact ⟨i, a, ha, Or.inr (Or.inr ⟨.crashed, nofun, h.symm⟩)⟩

/-- A move leaves the database alone or applies the writes of a finished program. -/
theorem move_db {m : Move Ω} (h : S.move srv m = some srv') :
    srv'.db = srv.db ∨ ∃ i a w, m = .finish i ∧ srv.active[i]? = some a ∧ a.prog = .done w ∧
      S.commit w srv.db = some srv'.db := by
  obtain ⟨i, a, ha, ⟨ω, q, k, -, -, rfl⟩ | ⟨w, db, hm, hp, hc, rfl⟩ | ⟨v, -, rfl⟩⟩ := move_cases h
  · exact Or.inl rfl
  · exact Or.inr ⟨i, a, w, hm, ha, hp, hc⟩
  · exact Or.inl rfl

theorem move_next {m : Move Ω} (h : S.move srv m = some srv') : srv'.next = srv.next := by
  obtain ⟨i, a, -, ⟨ω, q, k, -, -, rfl⟩ | ⟨w, db, -, -, -, rfl⟩ | ⟨v, -, rfl⟩⟩ := move_cases h
  · rfl
  · rfl
  · rfl

/-- A transaction that is answered a query has not ended. -/
theorem log_advance {i : ℕ} {ω : Ω} (h : S.move srv (.advance i ω) = some srv') :
    srv'.log = srv.log := by
  obtain ⟨a, -, h⟩ := Option.bind_eq_some_iff.mp h
  unfold advance at h
  split at h
  · cases h
    rfl
  · cases h

/-- How a finished program's commit shows in the server. -/
theorem finish_db {i : ℕ} {a : Active Δ τ Q A ε W} {w : W} {db : Δ} (ha : srv.active[i]? = some a)
    (hp : a.prog = .done w) (hc : S.commit w srv.db = some db) :
    S.move srv (.finish i) = some { srv.close i a (.committed w) with db := db } := by
  simp [move, ha, finish, hp, hc]

/-- The tickets in flight after a move were in flight before it. -/
theorem move_tickets {m : Move Ω} (h : S.move srv m = some srv') :
    ∀ a' ∈ srv'.active, ∃ a ∈ srv.active, a.toTicket = a'.toTicket := by
  obtain ⟨i, a, ha, ⟨ω, q, k, -, -, rfl⟩ | ⟨w, db, -, -, -, rfl⟩ | ⟨v, -, rfl⟩⟩ := move_cases h
  · intro a' ha'
    rcases List.mem_or_eq_of_mem_set ha' with h' | rfl
    · exact ⟨a', h', rfl⟩
    · exact ⟨a, List.mem_of_getElem? ha, rfl⟩
  · exact fun a' ha' => ⟨a', List.mem_of_mem_eraseIdx ha', rfl⟩
  · exact fun a' ha' => ⟨a', List.mem_of_mem_eraseIdx ha', rfl⟩

theorem mem_start {r : τ} {a : Active Δ τ Q A ε W} (h : a ∈ (S.start srv r).active) :
    a ∈ srv.active ∨ a = ⟨⟨srv.next, r, srv.db⟩, S.prog srv.next r⟩ := by
  simpa [start] using h

@[simp] theorem start_db (r : τ) : (S.start srv r).db = srv.db := rfl

@[simp] theorem start_world (r : τ) : (S.start srv r).world = srv.world := rfl

@[simp] theorem start_committed (r : τ) : (S.start srv r).committed = srv.committed := rfl

end Service

namespace Server

variable {srv : Server Δ X τ Q A ε W} {i : ℕ} {a : Active Δ τ Q A ε W}

@[simp] theorem close_db (v : Verdict ε W) : (srv.close i a v).db = srv.db := rfl

@[simp] theorem close_committed (w : W) :
    (srv.close i a (.committed w)).committed = (a.req, w) :: srv.committed := rfl

theorem close_uncommitted {v : Verdict ε W} (hv : ∀ w, v ≠ .committed w) :
    (srv.close i a v).committed = srv.committed := by
  cases v with
  | committed w => exact absurd rfl (hv w)
  | rejected w => rfl
  | raised e => rfl
  | crashed => rfl

theorem mem_committed {r : τ} {w : W} :
    (r, w) ∈ srv.committed ↔ ∃ e ∈ srv.log, e.req = r ∧ e.verdict = .committed w := by
  unfold Server.committed
  rw [List.mem_filterMap]
  refine exists_congr fun e => and_congr_right fun _ => ?_
  cases e.verdict with
  | committed w' => simp
  | rejected w' => simp
  | raised x => simp
  | crashed => simp

end Server

/-! ## Requests in flight -/

/-- Every request in flight satisfies `P`. -/
def Server.Pending (P : τ → Prop) (srv : Server Δ X τ Q A ε W) : Prop :=
  ∀ a ∈ srv.active, P a.req

section Pending

variable {S : Service Δ X τ Ω Q A ε W} {srv srv' : Server Δ X τ Q A ε W} {P P' : τ → Prop}

theorem pending_init (db : Δ) (x : X) :
    (Server.init db x : Server Δ X τ Q A ε W).Pending P :=
  fun _ h => absurd h List.not_mem_nil

theorem pending_start {r : τ} (h : srv.Pending P) (hr : P r) : (S.start srv r).Pending P := by
  intro a ha
  rcases Service.mem_start ha with ha | rfl
  · exact h a ha
  · exact hr

theorem pending_move {m : Move Ω} (h : srv.Pending P) (hm : S.move srv m = some srv') :
    srv'.Pending P := by
  intro a' ha'
  obtain ⟨a, ha, htk⟩ := Service.move_tickets hm a' ha'
  exact htk ▸ h a ha

/-- Every query that a transaction in flight can still ask satisfies `P` of its request. -/
def Server.AllAsk (P : τ → Q → Prop) (srv : Server Δ X τ Q A ε W) : Prop :=
  ∀ a ∈ srv.active, a.prog.Asks (P a.req)

variable {D : τ → Q → Prop}

theorem allAsk_init (db : Δ) (x : X) : (Server.init db x : Server Δ X τ Q A ε W).AllAsk D :=
  fun _ h => absurd h List.not_mem_nil

theorem allAsk_start {r : τ} (h : srv.AllAsk D) (hr : (S.prog srv.next r).Asks (D r)) :
    (S.start srv r).AllAsk D := by
  intro a ha
  rcases Service.mem_start ha with ha | rfl
  · exact h a ha
  · exact hr

theorem allAsk_move {m : Move Ω} (h : srv.AllAsk D) (hm : S.move srv m = some srv') :
    srv'.AllAsk D := by
  obtain ⟨i, a, ha, ⟨ω, q, k, -, hp, rfl⟩ | ⟨w, db, -, -, -, rfl⟩ | ⟨v, -, rfl⟩⟩ :=
    Service.move_cases hm
  · intro a' ha'
    rcases List.mem_or_eq_of_mem_set ha' with h' | rfl
    · exact h a' h'
    · have hasks := h a (List.mem_of_getElem? ha)
      rw [hp] at hasks
      exact hasks.2 _
  · exact fun a' ha' => h a' (List.mem_of_mem_eraseIdx ha')
  · exact fun a' ha' => h a' (List.mem_of_mem_eraseIdx ha')

/-- The outside world changes only by the query of a transaction in flight. -/
theorem move_world {m : Move Ω} (h : srv.AllAsk D) (hm : S.move srv m = some srv') :
    srv'.world = srv.world ∨
      ∃ a ∈ srv.active, ∃ q, D a.req q ∧ srv'.world = S.effect q srv.world := by
  obtain ⟨i, a, ha, ⟨ω, q, k, -, hp, rfl⟩ | ⟨w, db, -, -, -, rfl⟩ | ⟨v, -, rfl⟩⟩ :=
    Service.move_cases hm
  · have hmem := List.mem_of_getElem? ha
    have hasks := h a hmem
    rw [hp] at hasks
    exact Or.inr ⟨a, hmem, q, hasks.1, rfl⟩
  · exact Or.inl rfl
  · exact Or.inl rfl

theorem Server.Pending.imp (h : srv.Pending P) (himp : ∀ r, P r → P' r) : srv.Pending P' :=
  fun a ha => himp a.req (h a ha)

end Pending

/-! ## Transaction numbers -/

/-- The numbers of the transactions in flight and of those that ended. -/
def Server.tids (srv : Server Δ X τ Q A ε W) : List ℕ :=
  srv.active.map (·.tid) ++ srv.log.map (·.tid)

/-- Every transaction has its own number, given out before. -/
structure Server.Numbered (srv : Server Δ X τ Q A ε W) : Prop where
  nodup : srv.tids.Nodup
  lt : ∀ t ∈ srv.tids, t < srv.next

theorem numbered_init (db : Δ) (x : X) : (Server.init db x : Server Δ X τ Q A ε W).Numbered :=
  ⟨List.nodup_nil, fun _ h => absurd h List.not_mem_nil⟩

theorem tids_close {srv : Server Δ X τ Q A ε W} {i : ℕ} {a : Active Δ τ Q A ε W}
    (ha : srv.active[i]? = some a) (v : Verdict ε W) : (srv.close i a v).tids.Perm srv.tids := by
  obtain ⟨hi, rfl⟩ := List.getElem?_eq_some_iff.mp ha
  have hperm := (List.getElem_cons_eraseIdx_perm hi).map (·.tid)
  exact List.perm_middle.trans (hperm.append_right _)

theorem map_set_of_eq {α β : Type} {f : α → β} {l : List α} {i : ℕ} {a b : α}
    (ha : l[i]? = some a) (h : f b = f a) : (l.set i b).map f = l.map f := by
  refine List.ext_getElem? fun j => ?_
  rw [List.map_set, List.getElem?_set, List.length_map]
  split
  · next hij =>
    subst hij
    rw [if_pos (List.getElem?_eq_some_iff.mp ha).1, List.getElem?_map, ha, h]
    rfl
  · rfl

theorem Server.Numbered.close {srv : Server Δ X τ Q A ε W} (hn : srv.Numbered) {i : ℕ}
    {a : Active Δ τ Q A ε W} (ha : srv.active[i]? = some a) (v : Verdict ε W) :
    (srv.close i a v).Numbered :=
  ⟨(tids_close ha v).nodup_iff.mpr hn.nodup,
    fun t ht => hn.lt t ((tids_close ha v).mem_iff.mp ht)⟩

theorem numbered_step {S : Service Δ X τ Ω Q A ε W} {srv srv' : Server Δ X τ Q A ε W}
    {l : Label τ Ω} (hn : srv.Numbered) (h : S.step srv l = some srv') : srv'.Numbered := by
  cases l with
  | start r =>
    cases h
    have hperm : (S.start srv r).tids.Perm (srv.next :: srv.tids) := by
      unfold Server.tids Service.start
      rw [List.map_append, List.append_assoc]
      exact List.perm_middle
    refine ⟨hperm.nodup_iff.mpr (List.nodup_cons.mpr ⟨fun h => ?_, hn.nodup⟩), fun t ht => ?_⟩
    · exact Nat.lt_irrefl _ (hn.lt _ h)
    · rcases List.mem_cons.mp (hperm.mem_iff.mp ht) with rfl | ht
      · exact Nat.lt_succ_self _
      · exact Nat.lt_succ_of_lt (hn.lt t ht)
  | move m =>
    obtain ⟨i, a, ha, ⟨ω, q, k, -, -, rfl⟩ | ⟨w, db, -, -, -, rfl⟩ | ⟨v, -, rfl⟩⟩ :=
      Service.move_cases h
    · have htids : ∀ p : Txn Q A ε W, (srv.active.set i { a with prog := p }).map (·.tid) ++
          srv.log.map (·.tid) = srv.tids := fun p =>
        congrArg (· ++ srv.log.map (·.tid)) (map_set_of_eq (b := { a with prog := p }) ha rfl)
      refine ⟨?_, fun t ht => hn.lt t ?_⟩
      · show (_ ++ _ : List ℕ).Nodup
        rw [htids]
        exact hn.nodup
      · exact (htids _) ▸ ht
    · exact ⟨(hn.close ha _).nodup, (hn.close ha _).lt⟩
    · exact hn.close ha v

/-- A transaction in flight has not ended. -/
theorem Server.Numbered.ne_of_log {srv : Server Δ X τ Q A ε W} (hn : srv.Numbered)
    {a : Active Δ τ Q A ε W} {e : Entry τ ε W} (ha : a ∈ srv.active) (he : e ∈ srv.log) :
    a.tid ≠ e.tid := fun h =>
  (List.nodup_append.mp hn.nodup).2.2 _ (List.mem_map_of_mem ha) _ (List.mem_map_of_mem he) h

/-- The other transactions in flight when the one at place `i` is gone. -/
theorem Server.Numbered.mem_eraseIdx {srv : Server Δ X τ Q A ε W} (hn : srv.Numbered) {i : ℕ}
    {a b : Active Δ τ Q A ε W} (ha : srv.active[i]? = some a) (hb : b ∈ srv.active.eraseIdx i) :
    b ∈ srv.active ∧ b.tid ≠ a.tid := by
  obtain ⟨hi, rfl⟩ := List.getElem?_eq_some_iff.mp ha
  have hperm := (List.getElem_cons_eraseIdx_perm hi).map (·.tid)
  have hnodup := hperm.nodup_iff.mpr (List.nodup_append.mp hn.nodup).1
  exact ⟨List.mem_of_mem_eraseIdx hb, fun heq =>
    (List.nodup_cons.mp hnodup).1 (List.mem_map.mpr ⟨b, hb, heq⟩)⟩

/-- The other transactions in flight when the one at place `i` has become `x`. -/
theorem Server.Numbered.mem_set {srv : Server Δ X τ Q A ε W} (hn : srv.Numbered) {i : ℕ}
    {a b x : Active Δ τ Q A ε W} (ha : srv.active[i]? = some a) (hb : b ∈ srv.active.set i x) :
    b = x ∨ b ∈ srv.active ∧ b.tid ≠ a.tid := by
  have hi := (List.getElem?_eq_some_iff.mp ha).1
  rcases List.mem_cons.mp ((List.set_perm_cons_eraseIdx hi x).mem_iff.mp hb) with rfl | hb
  · exact Or.inl rfl
  · exact Or.inr (hn.mem_eraseIdx ha hb)

/-! ## Replay -/

/-- Apply a list of writes, latest first, to a database. -/
def replay (S : Service Δ X τ Ω Q A ε W) (db : Δ) : List (τ × W) → Option Δ
  | [] => some db
  | rw :: rest => (replay S db rest).bind fun d => S.commit rw.2 d

/-- The database is the initial one with the committed writes applied in commit order. -/
theorem replay_committed (S : Service Δ X τ Ω Q A ε W) {db : Δ} {x : X}
    {ok : Server Δ X τ Q A ε W → Label τ Ω → Prop} {ls : List (Label τ Ω)}
    {srv : Server Δ X τ Q A ε W} (h : Reaches S.step ok (Server.init db x) ls srv) :
    replay S db srv.committed = some srv.db := by
  refine h.invariant (fun s => replay S db s.committed = some s.db) rfl ?_
  intro s l s' hs _ hstep
  cases l with
  | start r => cases hstep; exact hs
  | move m =>
    obtain ⟨i, a, -, ⟨ω, q, k, -, -, rfl⟩ | ⟨w, db', -, -, hc, rfl⟩ | ⟨v, hv, rfl⟩⟩ :=
      Service.move_cases hstep
    · exact hs
    · show (replay S db s.committed).bind _ = some db'
      rw [hs]
      exact hc
    · rw [Server.close_uncommitted hv]
      exact hs

/-! ## Safe programs in flight -/

section AllSafe

variable {σ : Type} {ans : Ω → σ → (q : Q) → A q} {rely : σ → σ → Prop}
  {good : Ticket Δ τ → σ → Q → Ω → Prop} {post : Ticket Δ τ → σ → W → Prop}

/-- Every transaction in flight is safe in the view `s`. -/
def Server.AllSafe (ans : Ω → σ → (q : Q) → A q) (rely : σ → σ → Prop)
    (good : Ticket Δ τ → σ → Q → Ω → Prop) (post : Ticket Δ τ → σ → W → Prop)
    (srv : Server Δ X τ Q A ε W) (s : σ) : Prop :=
  ∀ a ∈ srv.active, Safe ans rely (good a.toTicket) (post a.toTicket) a.prog s

/-- The environment answers of a move stay within `good`. -/
def GoodMove (good : Ticket Δ τ → σ → Q → Ω → Prop) (srv : Server Δ X τ Q A ε W) (s : σ) :
    Move Ω → Prop
  | .advance i ω => ∀ a, srv.active[i]? = some a → ∀ q k, a.prog = .ask q k →
      good a.toTicket s q ω
  | _ => True

variable {S : Service Δ X τ Ω Q A ε W} {srv srv' : Server Δ X τ Q A ε W} {s t : σ}

/-- When every answer is good, every move is. -/
theorem goodMove_of_forall (h : ∀ tk s q ω, good tk s q ω) (m : Move Ω) :
    GoodMove good srv s m := by
  cases m with
  | advance i ω => exact fun a _ q _ _ => h a.toTicket s q ω
  | finish i => trivial
  | crash i => trivial

theorem allSafe_init (db : Δ) (x : X) : (Server.init db x : Server Δ X τ Q A ε W).AllSafe
    ans rely good post s := fun _ h => absurd h List.not_mem_nil

theorem allSafe_weaken (htrans : ∀ s t u, rely s t → rely t u → rely s u)
    (h : srv.AllSafe ans rely good post s) (hst : rely s t) :
    srv.AllSafe ans rely good post t :=
  fun a ha => (h a ha).weaken htrans hst

theorem allSafe_start {r : τ} (h : srv.AllSafe ans rely good post s)
    (hr : Safe ans rely (good ⟨srv.next, r, srv.db⟩) (post ⟨srv.next, r, srv.db⟩)
      (S.prog srv.next r) s) : (S.start srv r).AllSafe ans rely good post s := by
  intro a ha
  rcases Service.mem_start ha with ha | rfl
  · exact h a ha
  · exact hr

theorem allSafe_move {m : Move Ω} (h : srv.AllSafe ans rely good post s)
    (hm : S.move srv m = some srv') (hrefl : rely s s)
    (hans : ∀ ω q, S.answer ω srv.world srv.db q = ans ω s q) (hgood : GoodMove good srv s m) :
    srv'.AllSafe ans rely good post s := by
  obtain ⟨i, a, ha, ⟨ω, q, k, rfl, hp, rfl⟩ | ⟨w, db, -, -, -, rfl⟩ | ⟨v, -, rfl⟩⟩ :=
    Service.move_cases hm
  · intro a' ha'
    rcases List.mem_or_eq_of_mem_set ha' with h' | rfl
    · exact h a' h'
    · have hsafe := h a (List.mem_of_getElem? ha)
      rw [hp] at hsafe
      rw [hans]
      exact hsafe s ω hrefl (hgood a ha q k hp)
  · exact fun a' ha' => h a' (List.mem_of_mem_eraseIdx ha')
  · exact fun a' ha' => h a' (List.mem_of_mem_eraseIdx ha')

/-- The writes of a finished safe program satisfy `post`. -/
theorem allSafe_result {a : Active Δ τ Q A ε W} {w : W}
    (h : srv.AllSafe ans rely good post s) (ha : a ∈ srv.active) (hp : a.prog = .done w)
    (hrefl : rely s s) : post a.toTicket s w := by
  have hsafe := h a ha
  rw [hp] at hsafe
  exact hsafe.result hrefl

end AllSafe

/-! ## Services whose queries read the database only -/

/-- Programs are safe from the start and every commit allowed by `post` stays within `rely`. -/
structure Guarantees (S : Service Δ X τ Ω Q A ε W) (ans : Ω → Δ → (q : Q) → A q)
    (rely : Δ → Δ → Prop) (good : Ticket Δ τ → Δ → Q → Ω → Prop)
    (post : Ticket Δ τ → Δ → W → Prop) : Prop where
  refl : ∀ db, rely db db
  trans : ∀ d d' d'', rely d d' → rely d' d'' → rely d d''
  answer : ∀ ω x db q, S.answer ω x db q = ans ω db q
  start : ∀ tid r db, Safe ans rely (good ⟨tid, r, db⟩) (post ⟨tid, r, db⟩) (S.prog tid r) db
  commit : ∀ tk db w db', post tk db w → S.commit w db = some db' → rely db db'

namespace Guarantees

variable {S : Service Δ X τ Ω Q A ε W} {ans : Ω → Δ → (q : Q) → A q} {rely : Δ → Δ → Prop}
  {good : Ticket Δ τ → Δ → Q → Ω → Prop} {post : Ticket Δ τ → Δ → W → Prop}
  {srv srv' : Server Δ X τ Q A ε W}

theorem startSafe (G : Guarantees S ans rely good post) (r : τ)
    (h : srv.AllSafe ans rely good post srv.db) :
    (S.start srv r).AllSafe ans rely good post (S.start srv r).db :=
  allSafe_start h (G.start _ _ _)

theorem moveRely (G : Guarantees S ans rely good post) {m : Move Ω}
    (h : srv.AllSafe ans rely good post srv.db) (hm : S.move srv m = some srv') :
    rely srv.db srv'.db := by
  rcases Service.move_db hm with hdb | ⟨i, a, w, -, ha, hp, hc⟩
  · rw [hdb]
    exact G.refl _
  · exact G.commit _ _ _ _ (allSafe_result h (List.mem_of_getElem? ha) hp (G.refl _)) hc

theorem moveSafe (G : Guarantees S ans rely good post) {m : Move Ω}
    (h : srv.AllSafe ans rely good post srv.db) (hm : S.move srv m = some srv')
    (hgood : GoodMove good srv srv.db m) : srv'.AllSafe ans rely good post srv'.db :=
  allSafe_weaken G.trans
    (allSafe_move h hm (G.refl _) (fun ω q => G.answer ω _ _ q) hgood) (G.moveRely h hm)

/-- Along every run whose environment answers are good, all programs in flight are safe. -/
theorem reaches (G : Guarantees S ans rely good post)
    {ok : Server Δ X τ Q A ε W → Label τ Ω → Prop} {ls : List (Label τ Ω)} {db : Δ} {x : X}
    (h : Reaches S.step ok (Server.init db x) ls srv)
    (hok : ∀ s m, ok s (.move m) → GoodMove good s s.db m) :
    srv.AllSafe ans rely good post srv.db := by
  refine h.invariant (fun s => s.AllSafe ans rely good post s.db) (allSafe_init db x) ?_
  intro s l s' hs ho hstep
  cases l with
  | start r => cases hstep; exact G.startSafe r hs
  | move m => exact G.moveSafe hs hstep (hok s m ho)

end Guarantees

end CloudScale.Lib
