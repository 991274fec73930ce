/-
  Concurrent transactions under the product locks.

  The lock is released at the end of the handler's block and the transaction commits when the
  session's context ends, so between the two another transaction may take the lock and read the old
  row: `stale_under_lock`. `lock_serialises`: in every run in which no row is read while another
  transaction that has left the block of the product is still in flight, and no key expires under
  the transaction it was given to (`HeldToEnd`), a read sees what was changed under the lock before
  it, and no flush meets a stale version.

  `Orderly` is what holds of one transaction in flight and `Apart` of two; together (`Kept`) they
  are preserved by every step, `redisStep` giving the mutual exclusion. `Recorded` says what the
  reads in the history have seen.
-/
import CloudScale.InventoryService.LockServer

namespace CloudScale.InventoryService.Locking

open CloudScale.Lib CloudScale.Shared

variable {s s' : LockServer} {db : InventoryDb} {ls : List LockLabel}

/-! ## What the history says of a transaction -/

def LockEvent.tid : LockEvent → ℕ
  | .entered tid _ _ => tid
  | .read tid _ _ => tid
  | .left tid _ => tid

def LockEvent.apply : LockEvent → Holding → Holding
  | .entered _ p token, h => { h with block := some (p, token) }
  | .read _ p row, h => { h with known := Function.update h.known p (some row) }
  | .left _ _, h => { h with block := none }

/-- What a transaction holds and has read. -/
def holding : List LockEvent → ℕ → Holding
  | [], _ => {}
  | ev :: history, tid =>
    if ev.tid = tid then ev.apply (holding history tid) else holding history tid

/-- A transaction without a history holds nothing. -/
theorem holding_eq_empty {history : List LockEvent} {tid : ℕ} (h : ∀ ev ∈ history, ev.tid ≠ tid) :
    holding history tid = {} := by
  induction history with
  | nil => rfl
  | cons ev history ih =>
    rw [holding, if_neg (h ev List.mem_cons_self)]
    exact ih fun ev' hev' => h ev' (List.mem_cons_of_mem ev hev')

variable {env : LockEnv} {q : LockQuery} {history : List LockEvent} {tid : ℕ}

theorem known_acquire (h : Holding) (p : ℕ) (o : LockAnswer (.acquire p)) :
    (lockProtocol.next h (.acquire p) o).known = h.known := by
  unfold LockAnswer at o
  cases o with
  | none => rfl
  | some token => rfl

theorem tid_of_mem_record {ev : LockEvent} (h : ev ∈ record tid env db q) : ev.tid = tid := by
  cases q with
  | inbox id => exact absurd h List.not_mem_nil
  | acquire p =>
    obtain ⟨token, -, rfl⟩ := List.mem_map.mp h
    rfl
  | row p =>
    obtain rfl := List.mem_singleton.mp h
    rfl
  | release p token =>
    obtain rfl := List.mem_singleton.mp h
    rfl

/-- The history follows the protocol's local state. -/
theorem holding_record : holding (record tid env db q ++ history) tid =
    lockProtocol.next (holding history tid) q (answer env db q) := by
  cases q with
  | inbox id => rfl
  | acquire p =>
    cases htoken : env.token with
    | none => simp [record, answer, lockProtocol, htoken]
    | some token => simp [record, answer, lockProtocol, htoken, holding, LockEvent.tid,
        LockEvent.apply]
  | row p => exact if_pos rfl
  | release p token => exact if_pos rfl

theorem holding_record_of_ne {other : ℕ} (h : other ≠ tid) :
    holding (record tid env db q ++ history) other = holding history other := by
  cases q with
  | inbox id => rfl
  | acquire p =>
    cases htoken : env.token with
    | none => simp [record, htoken]
    | some token => simp [record, htoken, holding, LockEvent.tid, h.symm]
  | row p => exact if_neg h.symm
  | release p token => exact if_neg h.symm

/-! ## Locks that last until the commit -/

/-- No row is read while another transaction that has left the block of the product is in flight,
    and no key expires under a transaction in its block. -/
def HeldToEnd (s : LockServer) : LockLabel → Prop
  | .server (.move (.advance i _)) => match asked s.srv i with
    | some (tid, .row p) => ∀ a ∈ s.srv.active, a.tid ≠ tid → LockEvent.left a.tid p ∉ s.history
    | _ => True
  | .expire p => ∀ a ∈ s.srv.active, (holding s.history a.tid).block.map Prod.fst ≠ some p
  | _ => True

abbrev ActiveTxn :=
  Active InventoryDb LockRequest LockQuery LockAnswer Exc (Outcome InventoryWrites)

/-- A transaction in flight: it follows the protocol, Redis has its token while it is in a block,
    and the rows it has read are as it read them. -/
structure Orderly (s : LockServer) (a : ActiveTxn) : Prop where
  follows : Follows lockProtocol SettledOutcome a.prog (holding s.history a.tid)
  locked : ∀ p token, (holding s.history a.tid).block = some (p, token) → s.redis p = some token
  known : ∀ p r, (holding s.history a.tid).known p = some r → s.srv.db.stock.get p = r
  inside : ∀ p, (holding s.history a.tid).known p ≠ none →
    (∃ token, (holding s.history a.tid).block = some (p, token)) ∨ .left a.tid p ∈ s.history

/-- Two transactions are not in the block of one product and have not read one row. -/
structure Apart (history : List LockEvent) (t u : ℕ) : Prop where
  block : ∀ p token token', (holding history t).block = some (p, token) →
    (holding history u).block ≠ some (p, token')
  known : ∀ p, (holding history t).known p ≠ none → (holding history u).known p = none

theorem Apart.symm {t u : ℕ} (h : Apart history t u) : Apart history u t where
  block p token token' hu ht := h.block p token' token ht hu
  known p hu := by
    by_contra ht
    exact hu (h.known p ht)

structure Kept (s : LockServer) : Prop where
  numbered : s.srv.Numbered
  past : ∀ ev ∈ s.history, ev.tid < s.srv.next
  orderly : ∀ a ∈ s.srv.active, Orderly s a
  apart : ∀ a ∈ s.srv.active, ∀ b ∈ s.srv.active, a.tid ≠ b.tid → Apart s.history a.tid b.tid

section Advance

variable {i : ℕ} {a b : ActiveTxn} {k : LockAnswer q → LockTxn (Outcome InventoryWrites)}
  {redis : ℕ → Option String}

/-- A key that belongs to a transaction in its block is neither granted to another nor released by
    another. -/
theorem redisStep_other (hr : redisStep s.redis env q = some redis)
    (hmay : lockProtocol.may (holding s.history a.tid) q) (hapart : Apart s.history a.tid b.tid)
    {p : ℕ} {token : String} (hb : (holding s.history b.tid).block = some (p, token))
    (hlocked : s.redis p = some token) : redis p = some token := by
  cases q with
  | inbox id => exact Option.some.inj hr ▸ hlocked
  | row p' => exact Option.some.inj hr ▸ hlocked
  | acquire p' =>
    unfold redisStep at hr
    cases htoken : env.token with
    | none =>
      rw [htoken] at hr
      exact Option.some.inj hr ▸ hlocked
    | some token' =>
      simp only [htoken, Option.ite_none_right_eq_some] at hr
      obtain ⟨hfree, hr⟩ := hr
      have hne : p ≠ p' := by
        rintro rfl
        rw [hfree] at hlocked
        cases hlocked
      rw [← Option.some.inj hr, Function.update_of_ne hne]
      exact hlocked
  | release p' token' =>
    have hne : p ≠ p' := by
      rintro rfl
      exact hapart.block p token' token hmay hb
    unfold redisStep at hr
    rw [← Option.some.inj hr]
    split
    · rw [Function.update_of_ne hne]
      exact hlocked
    · exact hlocked

/-- The other transactions do not notice. -/
theorem orderly_other (hr : redisStep s.redis env q = some redis)
    (hmay : lockProtocol.may (holding s.history a.tid) q) (hapart : Apart s.history a.tid b.tid)
    (hne : b.tid ≠ a.tid) (hb : Orderly s b) : Orderly (s.advance i env a q k redis) b := by
  have hsame : holding (s.advance i env a q k redis).history b.tid = holding s.history b.tid :=
    holding_record_of_ne hne
  refine ⟨?_, ?_, ?_, ?_⟩
  · rw [hsame]
    exact hb.follows
  · rw [hsame]
    exact fun p token hblock => redisStep_other hr hmay hapart hblock (hb.locked p token hblock)
  · rw [hsame]
    exact hb.known
  · rw [hsame]
    exact fun p hknown => (hb.inside p hknown).imp_right (List.mem_append_right _)

/-- The answer is one the program is prepared for. -/
theorem fits_answer (ha : Orderly s a) :
    lockProtocol.fits (holding s.history a.tid) q (answer env s.srv.db q) := by
  cases q with
  | row p => exact ⟨fun r' hr' => ha.known p r' hr', fun row hrow => Table.get_key hrow⟩
  | _ => trivial

/-- What the transaction holds once it was answered. -/
theorem locked_next (hr : redisStep s.redis env q = some redis) (ha : Orderly s a) {p : ℕ}
    {token : String} (hblock : (lockProtocol.next (holding s.history a.tid) q
      (answer env s.srv.db q)).block = some (p, token)) : redis p = some token := by
  cases q with
  | inbox id => exact Option.some.inj hr ▸ ha.locked p token hblock
  | row p' => exact Option.some.inj hr ▸ ha.locked p token hblock
  | release p' token' => cases hblock
  | acquire p' =>
    unfold redisStep at hr
    cases htoken : env.token with
    | none =>
      simp only [answer, lockProtocol, htoken] at hblock hr
      exact Option.some.inj hr ▸ ha.locked p token hblock
    | some token' =>
      simp only [answer, lockProtocol, htoken, Option.some.injEq, Prod.mk.injEq,
        Option.ite_none_right_eq_some] at hblock hr
      obtain ⟨rfl, rfl⟩ := hblock
      show redis p' = some token'
      rw [← hr.2, Function.update_self]

theorem known_next (ha : Orderly s a) {p : ℕ} {r : Option Inventory}
    (hknown : (lockProtocol.next (holding s.history a.tid) q (answer env s.srv.db q)).known p =
      some r) : s.srv.db.stock.get p = r := by
  cases q with
  | inbox id => exact ha.known p r hknown
  | release p' token' => exact ha.known p r hknown
  | acquire p' =>
    rw [known_acquire] at hknown
    exact ha.known p r hknown
  | row p' =>
    by_cases hpp : p = p'
    · subst hpp
      simp only [lockProtocol, Function.update_self] at hknown
      exact Option.some.inj hknown
    · simp only [lockProtocol, Function.update_of_ne hpp] at hknown
      exact ha.known p r hknown

/-- A row was read in the block the transaction is in or in one it has left. -/
theorem inside_next (ha : Orderly s a) (hmay : lockProtocol.may (holding s.history a.tid) q) {p : ℕ}
    (hknown : (lockProtocol.next (holding s.history a.tid) q (answer env s.srv.db q)).known p ≠
      none) :
    (∃ token, (lockProtocol.next (holding s.history a.tid) q (answer env s.srv.db q)).block =
      some (p, token)) ∨ .left a.tid p ∈ record a.tid env s.srv.db q ++ s.history := by
  cases q with
  | inbox id => exact ha.inside p hknown
  | release p' token' =>
    rcases ha.inside p hknown with ⟨token, hblock⟩ | hleft
    · have hsame : (p', token') = (p, token) := Option.some.inj (hmay.symm.trans hblock)
      cases hsame
      exact Or.inr (List.mem_cons_self ..)
    · exact Or.inr (List.mem_cons_of_mem _ hleft)
  | acquire p' =>
    -- the transaction is in no block, so it has left those it read in
    rw [known_acquire] at hknown
    rcases ha.inside p hknown with ⟨token, hblock⟩ | hleft
    · rw [hmay] at hblock
      cases hblock
    · exact Or.inr (List.mem_append_right _ hleft)
  | row p' =>
    by_cases hpp : p = p'
    · subst hpp
      exact Or.inl hmay
    · simp only [lockProtocol, Function.update_of_ne hpp] at hknown
      exact (ha.inside p hknown).imp_right (List.mem_append_right _)

/-- The transaction that was answered. -/
theorem orderly_advance (hr : redisStep s.redis env q = some redis) (hp : a.prog = .ask q k)
    (ha : Orderly s a) : Orderly (s.advance i env a q k redis)
      { a with prog := k (answer env s.srv.db q) } := by
  have hfollows := ha.follows
  rw [hp] at hfollows
  obtain ⟨hmay, hnext⟩ := hfollows
  have hnow : holding (s.advance i env a q k redis).history a.tid =
      lockProtocol.next (holding s.history a.tid) q (answer env s.srv.db q) := holding_record
  refine ⟨?_, ?_, ?_, ?_⟩
  · show Follows _ _ _ (holding (s.advance i env a q k redis).history a.tid)
    rw [hnow]
    exact hnext _ (fits_answer ha)
  · show ∀ p token, (holding (s.advance i env a q k redis).history a.tid).block = _ → _
    rw [hnow]
    exact fun p token hblock => locked_next hr ha hblock
  · show ∀ p r, (holding (s.advance i env a q k redis).history a.tid).known p = _ → _
    rw [hnow]
    exact fun p r hknown => known_next ha hknown
  · show ∀ p, (holding (s.advance i env a q k redis).history a.tid).known p ≠ none →
      (∃ token, (holding (s.advance i env a q k redis).history a.tid).block = some (p, token)) ∨ _
    rw [hnow]
    exact fun p hknown => inside_next ha hmay hknown

/-- What it does keeps it apart from the others. -/
theorem apart_advance (hr : redisStep s.redis env q = some redis)
    (hheld : ∀ p, q = .row p → .left b.tid p ∉ s.history)
    (hmay : lockProtocol.may (holding s.history a.tid) q) (hb : Orderly s b)
    (hne : b.tid ≠ a.tid) (hapart : Apart s.history a.tid b.tid) :
    Apart (record a.tid env s.srv.db q ++ s.history) a.tid b.tid := by
  have hnow : holding (record a.tid env s.srv.db q ++ s.history) a.tid =
      lockProtocol.next (holding s.history a.tid) q (answer env s.srv.db q) := holding_record
  have hother : holding (record a.tid env s.srv.db q ++ s.history) b.tid =
      holding s.history b.tid := holding_record_of_ne hne
  constructor
  · rw [hnow, hother]
    intro p token token' hblock hblock'
    cases q with
    | inbox id => exact hapart.block p token token' hblock hblock'
    | row p' => exact hapart.block p token token' hblock hblock'
    | release p' token'' => cases hblock
    | acquire p' =>
      unfold redisStep at hr
      cases htoken : env.token with
      | none =>
        simp only [answer, lockProtocol, htoken] at hblock
        exact hapart.block p token token' hblock hblock'
      | some token'' =>
        simp only [answer, lockProtocol, htoken, Option.some.injEq, Prod.mk.injEq,
          Option.ite_none_right_eq_some] at hblock hr
        obtain ⟨rfl, rfl⟩ := hblock
        have hlocked := hb.locked p' token' hblock'
        rw [hr.1] at hlocked
        cases hlocked
  · rw [hnow, hother]
    intro p hknown
    cases q with
    | inbox id => exact hapart.known p hknown
    | release p' token' => exact hapart.known p hknown
    | acquire p' =>
      rw [known_acquire] at hknown
      exact hapart.known p hknown
    | row p' =>
      by_cases hpp : p = p'
      · subst hpp
        -- the other one would have to be in the same block, or to have left it
        by_contra hread
        obtain ⟨token, hblock⟩ := hmay
        rcases hb.inside p hread with ⟨token', hblock'⟩ | hleft
        · exact hapart.block p token token' hblock hblock'
        · exact hheld p rfl hleft
      · simp only [lockProtocol, Function.update_of_ne hpp] at hknown
        exact hapart.known p hknown

end Advance

/-! ## Commits -/

section Commit

variable {db' : InventoryDb} {w : InventoryWrites} {ops : List StockOp} {h : Holding} {p : ℕ}

/-- A commit changes only rows that its transaction has read. -/
theorem get_of_unknown (hc : db.commit w = some db')
    (hreal : Versioned.Realizes db.stock w.session ops) (hw : Settled h w)
    (hp : h.known p = none) : db'.stock.get p = db.stock.get p := by
  cases hget : db.stock.get p with
  | some r =>
    have huntouched : ∀ o ∈ ops, stockRows.target o ≠ stockRows.key r := by
      intro o ho htarget
      obtain ⟨e, he, hkey⟩ := List.mem_map.mp (hreal.covered o ho)
      have hknown := hw.1.2 e he
      have hprod : e.loaded.productId = p := (hkey.trans htarget).trans (Table.get_key hget)
      rw [hprod, hp] at hknown
      cases hknown
    rw [(get_commit hc hreal hget).1, Versioned.run_of_untouched huntouched]
  | none =>
    cases hget' : db'.stock.get p with
    | none => rfl
    | some r =>
      obtain ⟨hcreated, hprod⟩ := get_commit_none hc hreal hget hget'
      have hknown := hw.2 r hcreated
      rw [hprod, hp] at hknown
      cases hknown

/-- What the transaction did to the row of a product is in `row`: it is the row as the transaction
    left it, with later operations applied. -/
def Includes (w : InventoryWrites) (p : ℕ) (row : Option Inventory) : Prop :=
  (∀ e ∈ w.session, e.loaded.productId = p → ∃ ops, row = some (stockRows.run ops e.current)) ∧
    ∀ c, w.created = some c → c.productId = p → ∃ ops, row = some (stockRows.run ops c)

/-- A later commit leaves it in. -/
theorem Includes.commit {w' : InventoryWrites} (hi : Includes w' p (db.stock.get p))
    (hc : db.commit w = some db') (hreal : Versioned.Realizes db.stock w.session ops) :
    Includes w' p (db'.stock.get p) := by
  have hlater : ∀ r, (∃ ops, db.stock.get p = some (stockRows.run ops r)) →
      ∃ ops, db'.stock.get p = some (stockRows.run ops r) := by
    rintro r ⟨before, hget⟩
    refine ⟨before ++ ops, ?_⟩
    rw [(get_commit hc hreal hget).1, Versioned.run_append]
  exact ⟨fun e he hp => hlater _ (hi.1 e he hp), fun c hw hp => hlater _ (hi.2 c hw hp)⟩

/-- The commit itself puts it in, when the rows are as they were read. -/
theorem includes_of_commit (hc : db.commit w = some db')
    (hreal : Versioned.Realizes db.stock w.session ops) (hw : Settled h w)
    (hknown : ∀ p r, h.known p = some r → db.stock.get p = r) (p : ℕ) :
    Includes w p (db'.stock.get p) := by
  constructor
  · rintro e he rfl
    have hget := hknown _ _ (hw.1.2 e he)
    exact ⟨[], by rw [(get_commit hc hreal hget).1, hreal.current e he, Versioned.run_nil]⟩
  · rintro c hcreated rfl
    exact ⟨[], (created_fresh hc hreal hcreated).2⟩

end Commit

/-! ## Steps -/

/-- Who reads a row in such a run reads it after the others that were in the block have ended. -/
theorem HeldToEnd.not_left {i : ℕ} {a : ActiveTxn} {p : ℕ}
    {k : LockAnswer (.row p) → LockTxn (Outcome InventoryWrites)}
    (hheld : HeldToEnd s (.server (.move (.advance i env)))) (ha : s.srv.active[i]? = some a)
    (hp : a.prog = .ask (.row p) k) :
    ∀ b ∈ s.srv.active, b.tid ≠ a.tid → LockEvent.left b.tid p ∉ s.history := by
  have hask : asked s.srv i = some (a.tid, .row p) := by
    simp only [asked, ha, Option.bind_some, hp]
  simp only [HeldToEnd, hask] at hheld
  exact hheld

theorem kept_advance {i : ℕ} {a : ActiveTxn} {k : LockAnswer q → LockTxn (Outcome InventoryWrites)}
    {redis : ℕ → Option String} (hs : Kept s) (ha : s.srv.active[i]? = some a)
    (hp : a.prog = .ask q k) (hr : redisStep s.redis env q = some redis)
    (hheld : HeldToEnd s (.server (.move (.advance i env)))) :
    Kept (s.advance i env a q k redis) := by
  have hmem := List.mem_of_getElem? ha
  have horderly := hs.orderly a hmem
  have hmay : lockProtocol.may (holding s.history a.tid) q := by
    have hfollows := horderly.follows
    rw [hp] at hfollows
    exact hfollows.1
  have hleft : ∀ b ∈ s.srv.active, b.tid ≠ a.tid → ∀ p, q = .row p →
      LockEvent.left b.tid p ∉ s.history := by
    rintro b hb hne p rfl
    exact hheld.not_left ha hp b hb hne
  have hcases : ∀ b ∈ (s.advance i env a q k redis).srv.active,
      b = { a with prog := k (answer env s.srv.db q) } ∨ b ∈ s.srv.active ∧ b.tid ≠ a.tid :=
    fun b hb => hs.numbered.mem_set ha hb
  have hnumbered : (s.advance i env a q k redis).srv.Numbered := by
    refine numbered_step (S := service) (l := .move (.advance i env)) hs.numbered ?_
    simp only [Service.step, Service.move, ha, Option.bind_some, Service.advance, hp]
    rfl
  refine ⟨hnumbered, ?_, ?_, ?_⟩
  · intro ev hev
    rcases List.mem_append.mp hev with hev | hev
    · rw [tid_of_mem_record hev]
      exact hs.numbered.lt a.tid (List.mem_append_left _ (List.mem_map_of_mem hmem))
    · exact hs.past ev hev
  · intro b hb
    rcases hcases b hb with rfl | ⟨hb, hne⟩
    · exact orderly_advance hr hp horderly
    · exact orderly_other hr hmay (hs.apart a hmem b hb hne.symm) hne (hs.orderly b hb)
  · have hother : ∀ b ∈ s.srv.active, b.tid ≠ a.tid →
        Apart (s.advance i env a q k redis).history a.tid b.tid := fun b hb hne =>
      apart_advance hr (hleft b hb hne) hmay (hs.orderly b hb) hne (hs.apart a hmem b hb hne.symm)
    intro b hb c hc hne
    rcases hcases b hb with rfl | ⟨hb, hba⟩
    · rcases hcases c hc with rfl | ⟨hc, hca⟩
      · exact absurd rfl hne
      · exact hother c hc hca
    · rcases hcases c hc with rfl | ⟨hc, hca⟩
      · exact (hother b hb hba).symm
      · have hapart := hs.apart b hb c hc hne
        have hbsame : holding (s.advance i env a q k redis).history b.tid =
            holding s.history b.tid := holding_record_of_ne hba
        have hcsame : holding (s.advance i env a q k redis).history c.tid =
            holding s.history c.tid := holding_record_of_ne hca
        constructor
        · rw [hbsame, hcsame]
          exact hapart.block
        · rw [hbsame, hcsame]
          exact hapart.known

theorem kept_start (hs : Kept s) (r : LockRequest) :
    Kept { s with srv := service.start s.srv r } := by
  have hempty : holding s.history s.srv.next = {} :=
    holding_eq_empty fun ev hev => Nat.ne_of_lt (hs.past ev hev)
  have hnew : ∀ t, Apart s.history s.srv.next t := by
    intro t
    constructor
    · rw [hempty]
      exact fun p token token' h => absurd h.symm (Option.some_ne_none _)
    · rw [hempty]
      exact fun p h => absurd rfl h
  refine ⟨numbered_step (S := service) (l := .start r) hs.numbered rfl, ?_, ?_, ?_⟩
  · exact fun ev hev => Nat.lt_succ_of_lt (hs.past ev hev)
  · intro b hb
    rcases Service.mem_start hb with hb | rfl
    · exact ⟨(hs.orderly b hb).follows, (hs.orderly b hb).locked, (hs.orderly b hb).known,
        (hs.orderly b hb).inside⟩
    · refine ⟨?_, ?_, ?_, ?_⟩
      · show Follows lockProtocol SettledOutcome _ (holding s.history s.srv.next)
        rw [hempty]
        exact program_follows s.srv.next r
      · show ∀ p token, (holding s.history s.srv.next).block = _ → _
        rw [hempty]
        exact fun p token h => absurd h.symm (Option.some_ne_none _)
      · show ∀ p r, (holding s.history s.srv.next).known p = _ → _
        rw [hempty]
        exact fun p r h => absurd h.symm (Option.some_ne_none _)
      · show ∀ p, (holding s.history s.srv.next).known p ≠ none → _
        rw [hempty]
        exact fun p h => absurd rfl h
  · intro b hb c hc hne
    rcases Service.mem_start hb with hb | rfl
    · rcases Service.mem_start hc with hc | rfl
      · exact hs.apart b hb c hc hne
      · exact (hnew b.tid).symm
    · exact hnew c.tid

/-- A transaction ends, and the rows that the others have read stay as they are. -/
theorem kept_end {i : ℕ} {a : ActiveTxn} (hs : Kept s) (ha : s.srv.active[i]? = some a)
    (v : Verdict Exc (Outcome InventoryWrites)) {db' : InventoryDb}
    (hdb : ∀ b ∈ s.srv.active, b.tid ≠ a.tid → ∀ p, (holding s.history b.tid).known p ≠ none →
      db'.stock.get p = s.srv.db.stock.get p) :
    Kept { s with srv := { s.srv.close i a v with db := db' } } := by
  have hactive : ∀ b ∈ s.srv.active.eraseIdx i, b ∈ s.srv.active ∧ b.tid ≠ a.tid :=
    fun b hb => hs.numbered.mem_eraseIdx ha hb
  have hnumbered := hs.numbered.close ha v
  refine ⟨⟨hnumbered.nodup, hnumbered.lt⟩, hs.past, fun b hb => ?_, fun b hb c hc hne => ?_⟩
  · obtain ⟨hb, hne⟩ := hactive b hb
    have horderly := hs.orderly b hb
    refine ⟨horderly.follows, horderly.locked, fun p r hknown => ?_, horderly.inside⟩
    have hread : (holding s.history b.tid).known p ≠ none := by
      rw [hknown]
      exact Option.some_ne_none r
    show db'.stock.get p = r
    rw [hdb b hb hne p hread]
    exact horderly.known p r hknown
  · exact hs.apart b (hactive b hb).1 c (hactive c hc).1 hne

theorem kept_expire (hs : Kept s) {p : ℕ} (hheld : HeldToEnd s (.expire p)) :
    Kept { s with redis := Function.update s.redis p none } := by
  refine ⟨hs.numbered, hs.past, fun b hb => ?_, hs.apart⟩
  have horderly := hs.orderly b hb
  refine ⟨horderly.follows, fun p' token hblock => ?_, horderly.known, horderly.inside⟩
  have hne : p' ≠ p := by
    rintro rfl
    refine hheld b hb ?_
    rw [hblock]
    rfl
  show Function.update s.redis p none p' = some token
  rw [Function.update_of_ne hne]
  exact horderly.locked p' token hblock

/-- The end of a program that follows the protocol. -/
theorem Orderly.settled {a : ActiveTxn} {w : InventoryWrites} (ha : Orderly s a)
    (hp : a.prog = .done (.handled w)) : Settled (holding s.history a.tid) w := by
  have hfollows := ha.follows
  rw [hp] at hfollows
  exact hfollows

/-- A commit changes no row that another transaction in flight has read. -/
theorem Kept.get_commit {a b : ActiveTxn} {o : Outcome InventoryWrites} {db' : InventoryDb}
    (hs : Kept s) (ha : a ∈ s.srv.active) (hp : a.prog = .done o)
    (hc : InventoryService.commit o s.srv.db = some db')
    (hreal : ∀ w, o = .handled w → ∃ ops, Versioned.Realizes s.srv.db.stock w.session ops)
    (hb : b ∈ s.srv.active) (hne : b.tid ≠ a.tid) {p : ℕ}
    (hread : (holding s.history b.tid).known p ≠ none) :
    db'.stock.get p = s.srv.db.stock.get p := by
  cases o with
  | handled w =>
    obtain ⟨ops, hreal⟩ := hreal w rfl
    have hunknown : (holding s.history a.tid).known p = none :=
      (hs.apart b hb a ha hne).known p hread
    exact get_of_unknown hc hreal ((hs.orderly a ha).settled hp) hunknown
  | skipped => exact Option.some.inj hc ▸ rfl
  | ignored => exact Option.some.inj hc ▸ rfl

/-! ## What is read after a release -/

/-- A read of the row of a product after another transaction has left its block. -/
inductive ReadAfter : LockEvent → LockEvent → ℕ → ℕ → Option Inventory → Prop where
  | intro {t u p : ℕ} {row : Option Inventory} (h : t ≠ u) :
      ReadAfter (.read u p row) (.left t p) t p row

/-- The read shows what the other transaction committed. -/
def Sees (log : List (Entry LockRequest Exc (Outcome InventoryWrites)))
    (later earlier : LockEvent) : Prop :=
  ∀ t p row, ReadAfter later earlier t p row → ∀ e ∈ log, e.tid = t →
    ∀ w, e.verdict = .committed (.handled w) → Includes w p row

/-- The other transaction had ended before the read. -/
def Ended (active : List ActiveTxn) (later earlier : LockEvent) : Prop :=
  ∀ t p row, ReadAfter later earlier t p row → ∀ a ∈ active, a.tid ≠ t

structure Recorded (s : LockServer) : Prop where
  included : ∀ e ∈ s.srv.log, ∀ w, e.verdict = .committed (.handled w) → ∀ p,
    Includes w p (s.srv.db.stock.get p)
  ended : s.history.Pairwise (Ended s.srv.active)
  sees : s.history.Pairwise (Sees s.srv.log)

theorem ReadAfter.ne_tid {later earlier : LockEvent} {u p : ℕ} {row : Option Inventory}
    (h : ReadAfter later earlier u p row) : earlier.tid = u ∧ later.tid ≠ u := by
  cases h with
  | intro hne => exact ⟨rfl, hne.symm⟩

/-- Adding what one transaction did to the history: only what its reads come after matters. -/
theorem pairwise_record {P : LockEvent → LockEvent → Prop}
    (hP : ∀ {later earlier}, (∀ t p row, ¬ ReadAfter later earlier t p row) → P later earlier)
    (hread : ∀ p, q = .row p → ∀ t, t ≠ tid → .left t p ∈ history →
      P (.read tid p (db.stock.get p)) (.left t p))
    (hold : history.Pairwise P) : (record tid env db q ++ history).Pairwise P := by
  refine List.pairwise_append.mpr ⟨?_, hold, ?_⟩
  · refine List.pairwise_of_forall_mem_list fun ev hev ev' hev' => hP fun t p row h => ?_
    obtain ⟨ht, hne⟩ := h.ne_tid
    rw [tid_of_mem_record hev'] at ht
    rw [tid_of_mem_record hev] at hne
    exact hne ht
  · intro ev hev ev' hev'
    by_cases h : ∃ t p row, ReadAfter ev ev' t p row
    · obtain ⟨t, p, row, h⟩ := h
      cases h with
      | @intro _ u _ _ hne =>
        obtain ⟨rfl, hq, rfl⟩ : u = tid ∧ q = .row p ∧ row = db.stock.get p := by
          cases q with
          | inbox id => exact absurd hev List.not_mem_nil
          | acquire p' =>
            obtain ⟨token, -, h⟩ := List.mem_map.mp hev
            cases h
          | row p' =>
            cases List.mem_singleton.mp hev
            exact ⟨rfl, rfl, rfl⟩
          | release p' token => cases List.mem_singleton.mp hev
        exact hread p hq t hne hev'
    · exact hP fun t p row hr => h ⟨t, p, row, hr⟩

theorem recorded_advance {i : ℕ} {a : ActiveTxn}
    {k : LockAnswer q → LockTxn (Outcome InventoryWrites)} {redis : ℕ → Option String}
    (hs : Kept s) (hrec : Recorded s) (ha : s.srv.active[i]? = some a) (hp : a.prog = .ask q k)
    (hheld : HeldToEnd s (.server (.move (.advance i env)))) :
    Recorded (s.advance i env a q k redis) := by
  have hcases : ∀ b ∈ (s.advance i env a q k redis).srv.active,
      b = { a with prog := k (answer env s.srv.db q) } ∨ b ∈ s.srv.active ∧ b.tid ≠ a.tid :=
    fun b hb => hs.numbered.mem_set ha hb
  refine ⟨hrec.included, ?_, ?_⟩
  · refine pairwise_record (fun h t p row hr => absurd hr (h t p row)) ?_ ?_
    · rintro p rfl t hne hleft _ _ _ ⟨-⟩ b hb rfl
      rcases hcases b hb with rfl | ⟨hb, hba⟩
      · exact hne rfl
      · exact hheld.not_left ha hp b hb hba hleft
    · refine hrec.ended.imp fun h t p row hr b hb => ?_
      rcases hcases b hb with rfl | ⟨hb, -⟩
      · exact h t p row hr a (List.mem_of_getElem? ha)
      · exact h t p row hr b hb
  · refine pairwise_record (fun h t p row hr => absurd hr (h t p row)) ?_ hrec.sees
    rintro p rfl t hne hleft _ _ _ ⟨-⟩ e he - w hw
    exact hrec.included e he w hw p

theorem recorded_start (hs : Kept s) (hrec : Recorded s) (r : LockRequest) :
    Recorded { s with srv := service.start s.srv r } := by
  refine ⟨hrec.included, ?_, hrec.sees⟩
  refine hrec.ended.imp_of_mem fun _ hearlier h t p row hr b hb => ?_
  rcases Service.mem_start hb with hb | rfl
  · exact h t p row hr b hb
  · have hlt := hs.past _ hearlier
    rw [hr.ne_tid.1] at hlt
    exact (Nat.ne_of_lt hlt).symm

/-- The end of a transaction concerns no read that came after it had left a block. -/
theorem recorded_end {i : ℕ} {a : ActiveTxn} {v : Verdict Exc (Outcome InventoryWrites)}
    {db' : InventoryDb} (hs : Kept s) (hrec : Recorded s) (ha : s.srv.active[i]? = some a)
    (hincluded : ∀ e ∈ (s.srv.close i a v).log, ∀ w, e.verdict = .committed (.handled w) →
      ∀ p, Includes w p (db'.stock.get p)) :
    Recorded { s with srv := { s.srv.close i a v with db := db' } } := by
  have hmem := List.mem_of_getElem? ha
  refine ⟨hincluded, ?_, ?_⟩
  · exact hrec.ended.imp fun h t p row hr b hb =>
      h t p row hr b (hs.numbered.mem_eraseIdx ha hb).1
  · refine (hrec.ended.and hrec.sees).imp fun h t p row hr e he htid w hw => ?_
    rcases List.mem_cons.mp he with rfl | he
    · exact absurd htid (h.1 t p row hr a hmem)
    · exact h.2 t p row hr e he htid w hw

/-- Reads see what was committed under the lock before them, and no finished transaction meets a
    stale version. -/
structure Serialised (s : LockServer) : Prop where
  sees : s.history.Pairwise (Sees s.srv.log)
  fresh : ∀ a ∈ s.srv.active, ∀ w, a.prog = .done (.handled w) →
    (Versioned.flush s.srv.db.stock w.session).isSome

theorem kept_recorded_step {l : LockLabel} (hs : Kept s) (hrec : Recorded s)
    (hreal : ∀ a ∈ s.srv.active, ∀ w, a.prog = .done (.handled w) →
      ∃ ops, Versioned.Realizes s.srv.db.stock w.session ops)
    (hheld : HeldToEnd s l) (h : lockStep s l = some s') : Kept s' ∧ Recorded s' := by
  cases steps_of_lockStep h with
  | start r => exact ⟨kept_start hs r, recorded_start hs hrec r⟩
  | expire p => exact ⟨kept_expire hs hheld, hrec.included, hrec.ended, hrec.sees⟩
  | @advance i env a q k redis ha hp hr =>
    exact ⟨kept_advance hs ha hp hr hheld, recorded_advance hs hrec ha hp hheld⟩
  | @close i a v m ha hv =>
    refine ⟨kept_end hs ha v fun _ _ _ _ _ => rfl, recorded_end hs hrec ha fun e he w hw p => ?_⟩
    rcases List.mem_cons.mp he with rfl | he
    · exact absurd hw (hv _)
    · exact hrec.included e he w hw p
  | @commit i a o db' ha hp hc =>
    have hmem := List.mem_of_getElem? ha
    have hreal' : ∀ w, o = .handled w →
        ∃ ops, Versioned.Realizes s.srv.db.stock w.session ops := by
      rintro w rfl
      exact hreal a hmem w hp
    refine ⟨kept_end hs ha _ fun b hb hne p hread => hs.get_commit hmem hp hc hreal' hb hne hread,
      recorded_end hs hrec ha fun e he w hw p => ?_⟩
    rcases List.mem_cons.mp he with rfl | he
    · cases hw
      obtain ⟨ops, hreal⟩ := hreal a hmem w hp
      have horderly := hs.orderly a hmem
      exact includes_of_commit hc hreal (horderly.settled hp) horderly.known p
    · have hold := hrec.included e he w hw p
      cases o with
      | handled w' =>
        obtain ⟨ops, hreal⟩ := hreal a hmem w' hp
        exact hold.commit hc hreal
      | skipped => exact Option.some.inj hc ▸ hold
      | ignored => exact Option.some.inj hc ▸ hold

/-- In every run in which locks last until the commit, the lock of a product serialises its
    transactions. -/
theorem lock_serialises (h : Reaches lockStep HeldToEnd (LockServer.init db) ls s) :
    Serialised s := by
  have hinv : Kept s ∧ Recorded s := by
    induction h with
    | start =>
      exact ⟨⟨numbered_init db (), fun _ h => absurd h List.not_mem_nil,
        fun _ h => absurd h List.not_mem_nil, fun _ h => absurd h List.not_mem_nil⟩,
        fun _ h => absurd h List.not_mem_nil, .nil, .nil⟩
    | next hreach hok hstep ih =>
      have hreal := fun a ha w hp => realizes_of_reaches hreach (a := a) ha (w := w) hp
      exact kept_recorded_step ih.1 ih.2 hreal hok hstep
  refine ⟨hinv.2.sees, fun a ha w hp => ?_⟩
  obtain ⟨ops, hreal⟩ := realizes_of_reaches h ha hp
  have horderly := hinv.1.orderly a ha
  exact Versioned.flush_isSome hreal fun e he =>
    horderly.known _ _ ((horderly.settled hp).1.2 e he)

/-! ## Two restocks -/

instance decidableHeldToEnd (s : LockServer) : ∀ l, Decidable (HeldToEnd s l)
  | .server (.start _) => isTrue trivial
  | .server (.move (.finish _)) => isTrue trivial
  | .server (.move (.crash _)) => isTrue trivial
  | .expire _ => inferInstanceAs (Decidable (∀ _ ∈ _, _ ≠ _))
  | .server (.move (.advance i _)) =>
    match h : asked s.srv i with
    | some (tid, .row p) => decidable_of_iff
      (∀ a ∈ s.srv.active, a.tid ≠ tid → LockEvent.left a.tid p ∉ s.history)
        (by simp only [HeldToEnd, h])
    | some (_, .inbox _) => isTrue (by simp only [HeldToEnd, h])
    | some (_, .acquire _) => isTrue (by simp only [HeldToEnd, h])
    | some (_, .release _ _) => isTrue (by simp only [HeldToEnd, h])
    | none => isTrue (by simp only [HeldToEnd, h])

theorem restock_five_pos : (0 : Int) < 5 := by decide

def restockOf (quantity : Int) (h : 0 < quantity) : LockLabel :=
  .server (.start (.restock 0 ⟨quantity, h⟩))

def answered (i : ℕ) (token : String) : LockLabel :=
  .server (.move (.advance i ⟨some token, true⟩))

def finished (i : ℕ) : LockLabel := .server (.move (.finish i))

/-- The second restock waits for the lock, gets it, and reads the row after the first has
    committed. -/
def inTurn : List LockLabel :=
  [restockOf 5 restock_five_pos, restockOf 7 (by decide), answered 0 "t1", answered 0 "t1",
    answered 0 "t1", answered 1 "t2", finished 0, answered 0 "t2", answered 0 "t2"]

theorem lock_serialises_inTurn : ∃ s,
    Reaches lockStep HeldToEnd (LockServer.init oneItemDb) inTurn s ∧
      (s.srv.db.stock.get 0).map Inventory.version = some 2 ∧ Serialised s := by
  obtain ⟨s, hreach, hversion⟩ : ∃ s,
      Reaches lockStep HeldToEnd (LockServer.init oneItemDb) inTurn s ∧
        (s.srv.db.stock.get 0).map Inventory.version = some 2 :=
    reaches_where (by decide +kernel) (by decide +kernel)
  exact ⟨s, hreach, hversion, lock_serialises hreach⟩

/-- The second restock gets the lock and reads the row after the first has left its block and
    before it commits. -/
def overtaken : List LockLabel :=
  [restockOf 5 restock_five_pos, restockOf 7 (by decide), answered 0 "t1", answered 0 "t1",
    answered 0 "t1", answered 1 "t2", answered 1 "t2", finished 0, answered 0 "t2"]

/-- The lock was released before the commit: the next holder has read the old row, and its flush
    meets a stale version. -/
theorem stale_under_lock : ∃ s,
    Reaches lockStep anyStep (LockServer.init oneItemDb) overtaken s ∧
      (∃ a ∈ s.srv.active, ∃ w, a.prog = .done (.handled w) ∧
        Versioned.flush s.srv.db.stock w.session = none) ∧
      ¬ s.history.Pairwise (Sees s.srv.log) := by
  refine ⟨_, reaches_run rfl, ⟨_, List.mem_singleton_self _, _, rfl, rfl⟩, fun hsees => ?_⟩
  -- the second transaction's read comes after the first has left the block
  have hread := (List.pairwise_cons.mp (List.pairwise_cons.mp hsees).2).1 (.left 0 0)
    (List.mem_cons_of_mem _ List.mem_cons_self)
  have hincludes := hread 0 0 _ (.intro Nat.zero_ne_one) _ List.mem_cons_self rfl _ rfl
  obtain ⟨ops, hrun⟩ := hincludes.1 _ List.mem_cons_self rfl
  let restocked : Inventory := StockOp.effect (.restock 0 5) oneItem
  have hversion : restocked.version ≤ (stockRows.run ops restocked).version :=
    Versioned.version_le_run (V := stockRows) ops restocked
  have hold : oneItem = stockRows.run ops restocked := Option.some.inj hrun
  rw [← hold] at hversion
  exact absurd hversion (by decide)

end CloudScale.InventoryService.Locking
