/-
  How long a locked account stays locked (`authenticate_user` in `auth/app/service.py`, with the
  counter of `cloudscale_shared/security.py`), when the calls come one at a time.

  The counter gets its time to live with the first failure, and no later one renews it. So the lock
  ends `LOCKOUT_DURATION_SECONDS` after the first failure, not after the one that locks.
  `stays_locked_iff`: from any state, an attempt that locks an account does so for the whole
  duration exactly if the counter has that long to live (`LongLived`), or there is no account to
  lock. `locked_for_a_second` are four failures at once and the fifth 899 seconds later.
-/
import CloudScale.AuthService.Login
import CloudScale.Lib.Alone

namespace CloudScale.AuthService

open CloudScale.Lib CloudScale.Counters

/-! ## Attempts -/

structure Attempt (T : Type) where
  time : T
  payload : UserLogin

/-- The counters, the users and the number of the next call. -/
structure AuthState (T : Type) where
  store : Counters.Redis T
  users : Users
  next : ℕ := 0

section Attempts

variable {Tok T : Type} [Ring T] [LinearOrder T] [FloorRing T] (rt : LoginRuntime Tok T)

/-- The state when the attempt is made. -/
def AuthState.at (s : AuthState T) (t : T) : AuthState T :=
  { s with store := { s.store with now := t } }

/-- A program runs to its end: what it returns or raises, and the store. -/
def AuthState.run (s : AuthState T) (p : LoginTxn T (LoginResult Tok)) :
    Except LoginExc (LoginResult Tok) × Counters.Redis T :=
  p.exec (fun store q => q.answer rt store s.users) LoginQuery.effect s.store

/-- What it asks. -/
def AuthState.asked (s : AuthState T) (p : LoginTxn T (LoginResult Tok)) : List LoginQuery :=
  p.asked (fun store q => q.answer rt store s.users) LoginQuery.effect s.store

def AuthState.authenticate (s : AuthState T) (payload : UserLogin) : LoginTxn T (LoginResult Tok) :=
  authenticateUser rt s.next payload

/-- The state after a call, with its commit. -/
def AuthState.after (s : AuthState T) (payload : UserLogin) : AuthState T :=
  let (_, users, store) := (loginService rt).alone () s.next payload s.store s.users
  { store, users, next := s.next + 1 }

def attempt (s : AuthState T) (a : Attempt T) : Option (AuthState T) :=
  if s.store.now ≤ a.time then some ((s.at a.time).after rt a.payload) else none

/-- A password is verified. -/
def LoginQuery.Verifies : LoginQuery → Prop
  | .verifyPassword _ _ => True
  | _ => False

/-- The attempt raises `UnauthorizedException` and verifies no password. -/
def Refused (s : AuthState T) (a : Attempt T) : Prop :=
  (∃ message, ((s.at a.time).run rt (s.authenticate rt a.payload)).1 =
    .error (.unauthorizedException message)) ∧
  ∀ q ∈ (s.at a.time).asked rt (s.authenticate rt a.payload), ¬ q.Verifies

/-- The attempt brings the counter of its email to the threshold. -/
def Locks (s : AuthState T) (a : Attempt T) : Prop :=
  failures a.payload.email (s.at a.time).store < lockoutThreshold ∧
    failures a.payload.email ((s.at a.time).after rt a.payload).store = lockoutThreshold

/-- Whatever is attempted after `a`, for `LOCKOUT_DURATION_SECONDS` every attempt for the email is
    refused. -/
def StaysLocked (s : AuthState T) (a : Attempt T) : Prop :=
  ∀ ls t, Reaches (attempt rt) anyStep ((s.at a.time).after rt a.payload) ls t →
    ∀ b, b.payload.email = a.payload.email → t.store.now ≤ b.time →
      b.time < a.time + (lockoutDurationSeconds : T) → Refused rt t b

/-- The counter of the email does not expire before the lock should. -/
def LongLived (s : AuthState T) (a : Attempt T) : Prop :=
  ∀ e, s.store.entries (lockoutKey a.payload.email) = some e → ∀ x, e.expiry = some x →
    a.time + (lockoutDurationSeconds : T) ≤ x

/-- Nobody has the email. -/
def NoAccount (s : AuthState T) (email : String) : Prop := ∀ user ∈ s.users.rows, user.email ≠ email

/-! ## One call -/

variable {rt} {s : AuthState T} {payload : UserLogin}

theorem after_store :
    (s.after rt payload).store = (s.run rt (s.authenticate rt payload)).2 := by
  unfold AuthState.after Service.alone AuthState.run AuthState.authenticate
  dsimp only [loginService]
  cases (authenticateUser rt s.next payload).exec (fun store q => q.answer rt store s.users)
    LoginQuery.effect s.store with
  | mk res store => cases res <;> rfl

/-- No call changes an email. -/
theorem emails_after :
    (s.after rt payload).users.rows.map (·.email) = s.users.rows.map (·.email) := by
  have hcommit : ∀ w : LoginResult Tok,
      ((commitLogin w s.users).getD s.users).rows.map (·.email) = s.users.rows.map (·.email) := by
    intro w
    unfold commitLogin
    cases w.rehashed with
    | none => rfl
    | some rehash =>
      simp only [Option.getD_some, Table.modify, List.map_map]
      refine List.map_congr_left fun user _ => ?_
      dsimp only [Function.comp]
      split <;> rfl
  unfold AuthState.after Service.alone
  dsimp only
  split
  · next w store _ =>
    show (Prod.snd (settle (ε := LoginExc) w s.users (commitLogin w s.users))).rows.map _ = _
    rw [settle_snd]
    exact hcommit w
  · rfl

/-- The account is locked. -/
theorem run_locked (hredis : rt.redis = true)
    (h : lockedBy (s.store.get (lockoutKey payload.email)) = true) :
    s.run rt (s.authenticate rt payload) = (.error (.unauthorizedException
      "Account temporarily locked due to too many failed attempts. Try again later."), s.store) ∧
    s.asked rt (s.authenticate rt payload) = [.redis (.get (lockoutKey payload.email))] := by
  have hcheck : afterCheck rt s.next payload (s.store.get (lockoutKey payload.email)) = _ :=
    if_pos h
  unfold AuthState.authenticate
  rw [authenticateUser_eq hredis]
  constructor
  · show s.run rt (afterCheck rt s.next payload (s.store.get (lockoutKey payload.email))) = _
    rw [hcheck]
    rfl
  · show _ :: s.asked rt (afterCheck rt s.next payload (s.store.get (lockoutKey payload.email))) = _
    rw [hcheck]
    rfl

/-- The user of an email. -/
def AuthState.getByEmail (s : AuthState T) (email : String) : Option User :=
  s.users.rows.find? fun user => user.email == email

/-- The account is open. -/
theorem run_open (hredis : rt.redis = true)
    (h : ¬ lockedBy (s.store.get (lockoutKey payload.email)) = true) :
    s.run rt (s.authenticate rt payload) =
      s.run rt (afterUser rt s.next payload (s.getByEmail payload.email)) ∧
    s.asked rt (s.authenticate rt payload) =
      .redis (.get (lockoutKey payload.email)) :: .getByEmail payload.email ::
        s.asked rt (afterUser rt s.next payload (s.getByEmail payload.email)) := by
  have hcheck : afterCheck rt s.next payload (s.store.get (lockoutKey payload.email)) = _ :=
    if_neg h
  unfold AuthState.authenticate
  rw [authenticateUser_eq hredis]
  constructor
  · show s.run rt (afterCheck rt s.next payload (s.store.get (lockoutKey payload.email))) = _
    rw [hcheck]
    rfl
  · show _ :: s.asked rt (afterCheck rt s.next payload (s.store.get (lockoutKey payload.email))) = _
    rw [hcheck]
    rfl

/-- The counters once a failure is counted. -/
def counted (store : Counters.Redis T) (email : String) : Counters.Redis T :=
  if (store.bumped (lockoutKey email)).value = 1 then
    (store.incr (lockoutKey email)).expire (lockoutKey email) lockoutDurationSeconds
  else store.incr (lockoutKey email)

omit [FloorRing T] in
variable (s payload) in
theorem run_failLogin (hredis : rt.redis = true) :
    s.run rt (failLogin rt payload) =
      (.error (.unauthorizedException "Incorrect email or password"),
        counted s.store payload.email) ∧
    ∀ q ∈ s.asked rt (failLogin rt payload), ¬ q.Verifies := by
  rw [failLogin_eq hredis]
  by_cases hfirst : (s.store.bumped (lockoutKey payload.email)).value = 1
  · have hcounted : counted s.store payload.email = _ := if_pos hfirst
    rw [hcounted]
    simp [AuthState.run, AuthState.asked, Txn.exec, Txn.asked, LoginQuery.answer,
      LoginQuery.effect, CounterQuery.answer, CounterQuery.effect, hfirst, refuse,
      LoginQuery.Verifies]
  · have hcounted : counted s.store payload.email = _ := if_neg hfirst
    rw [hcounted]
    simp [AuthState.run, AuthState.asked, Txn.exec, Txn.asked, LoginQuery.answer,
      LoginQuery.effect, CounterQuery.answer, CounterQuery.effect, hfirst, refuse,
      LoginQuery.Verifies]

variable (s payload) in
/-- A call leaves the counters, counts one more failure, or clears them. -/
theorem store_cases (hredis : rt.redis = true) :
    (s.after rt payload).store = s.store ∨
      (s.after rt payload).store = counted s.store payload.email ∨
      (s.after rt payload).store = s.store.del (lockoutKey payload.email) := by
  have hfail : (s.run rt (failLogin rt payload)).2 = counted s.store payload.email := by
    rw [(run_failLogin s payload hredis).1]
  rw [after_store]
  by_cases h : lockedBy (s.store.get (lockoutKey payload.email)) = true
  · rw [(run_locked hredis h).1]
    exact Or.inl rfl
  rw [(run_open hredis h).1]
  cases s.getByEmail payload.email with
  | none => exact Or.inr (Or.inl hfail)
  | some user =>
    have hverify : (s.run rt (afterUser rt s.next payload (some user))).2 =
        (s.run rt (afterVerify rt s.next payload user
          (rt.hasher.verifyPassword payload.password user.passwordHash))).2 := rfl
    rw [hverify]
    cases rt.hasher.verifyPassword payload.password user.passwordHash with
    | none => exact Or.inl rfl
    | some matched =>
      cases matched with
      | false => exact Or.inr (Or.inl hfail)
      | true =>
        obtain ⟨w, hw⟩ := succeed_eq hredis s.next payload user
        refine Or.inr (Or.inr ?_)
        show (s.run rt (succeed rt s.next payload user)).2 = _
        rw [hw]
        rfl

omit [FloorRing T] in
theorem now_counted (store : Counters.Redis T) (email : String) :
    (counted store email).now = store.now := by
  unfold counted Keyspace.expire
  repeat' split
  all_goals rfl

theorem now_after (hredis : rt.redis = true) : (s.after rt payload).store.now = s.store.now := by
  rcases store_cases s payload hredis with h | h | h
  all_goals rw [h]
  · exact now_counted _ _
  · rfl

/-- A call for another email leaves the counter. -/
theorem entries_after (hredis : rt.redis = true) {key : String}
    (hne : key ≠ lockoutKey payload.email) :
    (s.after rt payload).store.entries key = s.store.entries key := by
  rcases store_cases s payload hredis with h | h | h
  all_goals rw [h]
  · unfold counted
    split
    · rw [Keyspace.expire_of_ne _ _ hne, Keyspace.incr_of_ne _ hne]
    · exact Keyspace.incr_of_ne _ hne
  · exact Keyspace.del_of_ne _ hne

theorem refused_of_locked (hredis : rt.redis = true) {a : Attempt T}
    (h : lockedBy ((s.at a.time).store.get (lockoutKey a.payload.email)) = true) :
    Refused rt s a := by
  obtain ⟨hrun, hasked⟩ := run_locked hredis h
  refine ⟨⟨_, congrArg Prod.fst hrun⟩, fun q hq => ?_⟩
  have hq' := hasked ▸ hq
  obtain rfl := List.mem_singleton.mp hq'
  exact id

/-- A call for an email that nobody has verifies nothing. -/
theorem refused_of_noAccount (hredis : rt.redis = true) {a : Attempt T}
    (h : NoAccount s a.payload.email) : Refused rt s a := by
  have huser : (s.at a.time).getByEmail a.payload.email = none :=
    List.find?_eq_none.mpr fun user hmem => by simpa using h user hmem
  by_cases hlocked : lockedBy ((s.at a.time).store.get (lockoutKey a.payload.email)) = true
  · exact refused_of_locked hredis hlocked
  · obtain ⟨hrun, hasked⟩ := run_open hredis hlocked
    rw [huser] at hrun hasked
    obtain ⟨hfail, hnone⟩ := run_failLogin (s.at a.time) a.payload hredis
    refine ⟨⟨_, congrArg Prod.fst (hrun.trans hfail)⟩, fun q hq => ?_⟩
    have hq' := hasked ▸ hq
    rcases List.mem_cons.mp hq' with rfl | hq'
    · exact id
    rcases List.mem_cons.mp hq' with rfl | hq'
    · exact id
    exact hnone q hq'

/-- A call for an account that is open verifies the password. -/
theorem not_refused_of_open (hredis : rt.redis = true) {a : Attempt T}
    (h : ¬ NoAccount s a.payload.email)
    (hopen : ¬ lockedBy ((s.at a.time).store.get (lockoutKey a.payload.email)) = true) :
    ¬ Refused rt s a := by
  intro hrefused
  obtain ⟨user, hmem, hemail⟩ : ∃ user ∈ s.users.rows, user.email = a.payload.email := by
    simpa [NoAccount] using h
  cases huser : (s.at a.time).getByEmail a.payload.email with
  | none => simpa [hemail] using List.find?_eq_none.mp huser user hmem
  | some found =>
    have hasked := (run_open hredis hopen).2
    rw [huser] at hasked
    refine hrefused.2 (.verifyPassword a.payload.password found.passwordHash) ?_ trivial
    refine hasked ▸ ?_
    exact List.mem_cons_of_mem _ (List.mem_cons_of_mem _ List.mem_cons_self)

/-! ## The lock -/

omit [FloorRing T] in
theorem failures_counted [IsStrictOrderedRing T] (store : Counters.Redis T) (email : String) :
    failures email (counted store email) = failures email store + 1 := by
  have hincr := failures_incr email email store
  rw [decide_eq_true rfl] at hincr
  unfold counted
  split
  · rw [← Bool.toNat_true, ← hincr]
    unfold failures
    rw [Keyspace.get_expire _ _ _ (by decide)]
  · exact hincr

/-- The attempt that locks counts the last failure of a live counter, and leaves its expiry. -/
theorem entry_of_locks [IsStrictOrderedRing T] (hredis : rt.redis = true) {a : Attempt T}
    (h : Locks rt s a) : ∃ e, s.store.entries (lockoutKey a.payload.email) = some e ∧
      e.live a.time = true ∧
      ((s.at a.time).after rt a.payload).store.entries (lockoutKey a.payload.email) =
        some { e with value := lockoutThreshold } := by
  obtain ⟨hbefore, hafter⟩ := h
  rcases store_cases (s.at a.time) a.payload hredis with hstore | hstore | hstore
  · rw [hstore] at hafter
    exact absurd hafter hbefore.ne
  · rw [hstore] at hafter ⊢
    rw [failures_counted] at hafter
    cases hget : (s.at a.time).store.get (lockoutKey a.payload.email) with
    | none =>
      rw [failures, hget] at hafter
      cases hafter
    | some count =>
      obtain ⟨e, he, hsome⟩ := Option.bind_eq_some_iff.mp hget
      obtain ⟨hlive, hvalue⟩ := Option.ite_none_right_eq_some.mp hsome
      obtain rfl : e.value = count := Option.some.inj hvalue
      have hlast : e.value + 1 = lockoutThreshold := by
        rw [failures, hget] at hafter
        exact hafter
      have hbumped := Keyspace.bumped_of_live he hlive
      have hcounted : counted (s.at a.time).store a.payload.email = _ :=
        if_neg (by rw [hbumped]; exact fun hone => absurd (hlast.symm.trans hone) (by decide))
      refine ⟨e, he, hlive, ?_⟩
      rw [hcounted, Keyspace.incr_self, hbumped, hlast]
  · rw [hstore] at hafter
    have hnone : ((s.at a.time).store.del (lockoutKey a.payload.email)).get
        (lockoutKey a.payload.email) = none := Keyspace.get_of_absent (Keyspace.del_self _ _)
    rw [failures, hnone] at hafter
    cases hafter

/-- Until the limit the counter is at the threshold. -/
def Locked (email : String) (e : Stored ℕ T) (limit : T) (s : AuthState T) : Prop :=
  s.store.now < limit →
    s.store.entries (lockoutKey email) = some { e with value := lockoutThreshold }

theorem attempt_eq_some {s' : AuthState T} {a : Attempt T} (h : attempt rt s a = some s') :
    s.store.now ≤ a.time ∧ s' = (s.at a.time).after rt a.payload := by
  obtain ⟨hle, hs⟩ := Option.ite_none_right_eq_some.mp h
  exact ⟨hle, (Option.some.inj hs).symm⟩

omit [Ring T] [FloorRing T] in
theorem lockedBy_of_live {email : String} {e : Stored ℕ T}
    (he : s.store.entries (lockoutKey email) = some { e with value := lockoutThreshold })
    (hlive : e.live s.store.now = true) : lockedBy (s.store.get (lockoutKey email)) = true := by
  rw [Keyspace.get_of_live he hlive]
  rfl

variable {email : String} {e : Stored ℕ T} {limit : T}

omit [Ring T] [FloorRing T] in
/-- An attempt before the limit finds the account locked. -/
theorem Locked.at (h : Locked email e limit s)
    (hlive : ∀ t < limit, e.live t = true) {a : Attempt T} (hemail : a.payload.email = email)
    (hnow : s.store.now ≤ a.time) (hlimit : a.time < limit) :
    lockedBy ((s.at a.time).store.get (lockoutKey a.payload.email)) = true := by
  rw [hemail]
  exact lockedBy_of_live (s := s.at a.time) (h (lt_of_le_of_lt hnow hlimit)) (hlive _ hlimit)

theorem Locked.step (h : Locked email e limit s) (hredis : rt.redis = true)
    (hlive : ∀ t < limit, e.live t = true) {a : Attempt T} {s' : AuthState T}
    (hs : attempt rt s a = some s') : Locked email e limit s' := by
  obtain ⟨hnow, rfl⟩ := attempt_eq_some hs
  intro hlimit
  rw [now_after hredis] at hlimit
  have hkept := h (lt_of_le_of_lt hnow hlimit)
  by_cases hemail : a.payload.email = email
  · rw [after_store, (run_locked hredis (h.at hlive hemail hnow hlimit)).1]
    exact hkept
  · have hne : lockoutKey email ≠ lockoutKey a.payload.email := fun heq =>
      hemail ((String.append_right_inj _).mp heq).symm
    rw [entries_after hredis hne]
    exact hkept

omit [Ring T] [LinearOrder T] [FloorRing T] in
theorem noAccount_iff {s' : AuthState T}
    (h : s'.users.rows.map (·.email) = s.users.rows.map (·.email)) :
    NoAccount s' email ↔ NoAccount s email := by
  have hmem : ∀ s : AuthState T, NoAccount s email ↔ email ∉ s.users.rows.map (·.email) := by
    intro s
    simp [NoAccount]
  rw [hmem, hmem, h]

theorem emails_run {s' : AuthState T} {ls : List (Attempt T)}
    (h : Reaches (attempt rt) anyStep s ls s') :
    s'.users.rows.map (·.email) = s.users.rows.map (·.email) := by
  refine h.invariant (fun t => t.users.rows.map (·.email) = s.users.rows.map (·.email)) rfl ?_
  intro t a t' ht _ hstep
  obtain ⟨-, rfl⟩ := attempt_eq_some hstep
  exact emails_after.trans ht

/-- The counter lives long enough. -/
theorem stays_locked [IsStrictOrderedRing T] (hredis : rt.redis = true) {a : Attempt T}
    (hlocks : Locks rt s a) (hlong : LongLived s a) : StaysLocked rt s a := by
  obtain ⟨e, he, -, hafter⟩ := entry_of_locks hredis hlocks
  intro ls t hreach b hemail hnow hlimit
  have hlive : ∀ t < a.time + (lockoutDurationSeconds : T), e.live t = true := by
    intro t ht
    unfold Stored.live
    cases hexpiry : e.expiry with
    | none => rfl
    | some x => exact decide_eq_true (ht.trans_le (hlong e he x hexpiry)).le
  have hlocked : Locked a.payload.email e (a.time + (lockoutDurationSeconds : T)) t :=
    hreach.invariant _ (fun _ => hafter) fun _ _ _ hi _ hs => hi.step hredis hlive hs
  exact refused_of_locked hredis (hlocked.at hlive hemail hnow hlimit)

/-- The counter expires too early, and an attempt after that verifies a password. -/
theorem unlocks [IsStrictOrderedRing T] [DenselyOrdered T] (hredis : rt.redis = true)
    {a : Attempt T}
    (hlocks : Locks rt s a) (hlong : ¬ LongLived s a) (haccount : ¬ NoAccount s a.payload.email) :
    ¬ StaysLocked rt s a := by
  obtain ⟨e, he, hlive, hafter⟩ := entry_of_locks hredis hlocks
  obtain ⟨e', he', x, hexpiry, hearly⟩ : ∃ e', s.store.entries (lockoutKey a.payload.email) =
      some e' ∧ ∃ x, e'.expiry = some x ∧ x < a.time + (lockoutDurationSeconds : T) := by
    simpa [LongLived] using hlong
  obtain rfl := Option.some.inj (he.symm.trans he')
  have hx : a.time ≤ x := by simpa [Stored.live, hexpiry] using hlive
  obtain ⟨y, hxy, hy⟩ := exists_between hearly
  intro hstays
  have hnow : ((s.at a.time).after rt a.payload).store.now ≤ y := by
    rw [now_after hredis]
    exact (hx.trans_lt hxy).le
  refine not_refused_of_open hredis (a := ⟨y, a.payload⟩) ?_ ?_
    (hstays [] _ .start ⟨y, a.payload⟩ rfl hnow hy)
  · rwa [noAccount_iff (emails_after (s := s.at a.time))]
  · have hgone : Stored.live ⟨lockoutThreshold, e.expiry⟩ y = false := by
      unfold Stored.live
      rw [hexpiry]
      exact decide_eq_false (not_le.mpr hxy)
    have hexpired : (((s.at a.time).after rt a.payload).at y).store.get
        (lockoutKey a.payload.email) = none := by
      unfold Keyspace.get
      show (((s.at a.time).after rt a.payload).store.entries _).bind _ = none
      rw [hafter]
      exact if_neg (Bool.eq_false_iff.mp hgone)
    rw [hexpired]
    exact Bool.false_ne_true

/-- An attempt that locks an account locks it for `LOCKOUT_DURATION_SECONDS` exactly if the counter
    lives that long. -/
theorem stays_locked_iff [IsStrictOrderedRing T] [DenselyOrdered T] (hredis : rt.redis = true)
    {a : Attempt T}
    (hlocks : Locks rt s a) :
    StaysLocked rt s a ↔ LongLived s a ∨ NoAccount s a.payload.email := by
  constructor
  · intro hstays
    by_contra hnot
    obtain ⟨hlong, haccount⟩ := not_or.mp hnot
    exact unlocks hredis hlocks hlong haccount hstays
  · rintro (hlong | hnone)
    · exact stays_locked hredis hlocks hlong
    · intro ls t hreach b hemail _ _
      refine refused_of_noAccount hredis ?_
      rw [hemail, noAccount_iff (emails_run hreach),
        noAccount_iff (emails_after (s := s.at a.time))]
      exact hnone

end Attempts

/-! ## Five wrong passwords -/

instance {T : Type} (s : AuthState T) (email : String) : Decidable (NoAccount s email) :=
  inferInstanceAs (Decidable (∀ user ∈ s.users.rows, user.email ≠ email))

/-- A wrong password. -/
def guessAt (time : ℚ) : Attempt ℚ := ⟨time, "a@b.c", "guess"⟩

/-- Nobody has tried yet. -/
def untried : AuthState ℚ := { store := .empty 0, users := shoppers }

/-- After four guesses at once, the counter has 900 seconds to live. -/
theorem four_guesses (time : ℚ) (htime : time = 0 ∨ time = 899) : ∃ s,
    Reaches (attempt plainRuntime) anyStep untried (List.replicate 4 (guessAt 0)) s ∧
      Locks plainRuntime s (guessAt time) ∧ ¬ NoAccount s "a@b.c" ∧
      (s.store.entries (lockoutKey "a@b.c")).map (·.expiry) = some (some 900) := by
  unfold Locks
  refine reaches_where (allSteps_of_forall (fun s l hl => trivial) untried) ?_
  rcases htime with rfl | rfl
  · decide +kernel
  · decide +kernel

theorem stays_locked_iff_at_once : ∃ s,
    Reaches (attempt plainRuntime) anyStep untried (List.replicate 4 (guessAt 0)) s ∧
      StaysLocked plainRuntime s (guessAt 0) := by
  obtain ⟨s, hrun, hlocks, -, hexpiry⟩ := four_guesses 0 (Or.inl rfl)
  refine ⟨s, hrun, (stays_locked_iff rfl hlocks).mpr (Or.inl fun e he x hx => ?_)⟩
  rw [show s.store.entries (lockoutKey "a@b.c") = some e from he] at hexpiry
  have hx' : some x = some 900 := hx.symm.trans (Option.some.inj hexpiry)
  rw [Option.some.inj hx']
  decide +kernel

/-- A locked account need not stay locked. -/
theorem locked_for_a_second : ¬ ∀ (rt : LoginRuntime (Claims × String × String) ℚ),
    rt.redis = true → ∀ (users : Users) (now : ℚ) (ls : List (Attempt ℚ)) (s : AuthState ℚ),
      Reaches (attempt rt) anyStep { store := .empty now, users } ls s →
        ∀ a, Locks rt s a → StaysLocked rt s a := by
  intro hevery
  obtain ⟨s, hrun, hlocks, haccount, hexpiry⟩ := four_guesses 899 (Or.inr rfl)
  refine unlocks rfl hlocks (fun hlong => ?_) haccount
    (hevery plainRuntime rfl shoppers 0 _ s hrun _ hlocks)
  obtain ⟨e, he, hx⟩ := Option.map_eq_some_iff.mp hexpiry
  exact absurd (hlong e he 900 hx) (by decide +kernel)

end CloudScale.AuthService
