/-
  How many requests the rate limiter admits (`RateLimiter` in `cloudscale_shared/security.py`).

  The requests of one client for one path come at given times, and each call is over before the next
  one comes. The counter expires `window_seconds` after the request that started it, so the limiter
  counts in fixed windows: `admitted_eq` is the refinement. A request at the very time of the expiry
  is still counted; the intervals that a sliding window bounds are half-open.

  `rate_limited_iff`: no interval of length `window_seconds` has more than `max_requests` admitted
  requests exactly when no two neighbouring windows are crowded. `burst` is a crowded pair.
-/
import CloudScale.Lib.Alone
import CloudScale.Lib.FixedWindow
import CloudScale.Shared.Counters

namespace CloudScale.Counters

open CloudScale.Lib

variable {T : Type} [Ring T] [LinearOrder T]

/-! ## Calls at given times -/

/-- A call at time `t`: whether it admits the request, and what it leaves in Redis. -/
def RateLimiter.callAt (limiter : RateLimiter) (request : Request) (t : T) (redis : Redis T) :
    Bool × Redis T :=
  match (program (.rateLimit limiter request)).exec CounterQuery.answer CounterQuery.effect
    { redis with now := t } with
  | (.ok _, redis) => (true, redis)
  | (.error _, redis) => (false, redis)

/-- The times of the admitted requests, of those that come at `times`. -/
def RateLimiter.admitted (limiter : RateLimiter) (request : Request) : List T → Redis T → List T
  | [], _ => []
  | t :: ts, redis =>
    let called := limiter.callAt request t redis
    if called.1 then t :: limiter.admitted request ts called.2
    else limiter.admitted request ts called.2

/-! ## The counter -/

variable {request : Request} {redis : Redis T} {t : T}

/-- How many requests a window admits. -/
def RateLimiter.bound (limiter : RateLimiter) : ℕ := limiter.maxRequests.toNat

theorem exec_verdict (limiter : RateLimiter) {count : ℕ} (hc : 0 < count) (redis : Redis T) :
    (match (limiter.verdict count).exec CounterQuery.answer CounterQuery.effect redis with
      | (.ok _, redis) => (true, redis)
      | (.error _, redis) => (false, redis)) = (decide (count ≤ limiter.bound), redis) := by
  unfold RateLimiter.verdict RateLimiter.bound
  by_cases h : (count : Int) > limiter.maxRequests
  · have hmany : ¬ count ≤ limiter.maxRequests.toNat := by omega
    rw [if_pos h, decide_eq_false hmany]
    rfl
  · have hfew : count ≤ limiter.maxRequests.toNat := by omega
    rw [if_neg h, decide_eq_true hfew]
    rfl

/-- A call while the counter is live counts one more. -/
theorem callAt_of_live (limiter : RateLimiter) {c : ℕ} {expiry : T}
    (hredis : request.redisClient = true)
    (h : redis.entries request.rateLimitKey = some ⟨c, some expiry⟩) (hc : 0 < c)
    (hlive : t ≤ expiry) : ∃ redis', limiter.callAt request t redis =
      (decide (c + 1 ≤ limiter.bound), redis') ∧
        redis'.entries request.rateLimitKey = some ⟨c + 1, some expiry⟩ := by
  have hbumped : Keyspace.bumped { redis with now := t } request.rateLimitKey =
      ⟨c + 1, some expiry⟩ :=
    Keyspace.bumped_of_live (s := { redis with now := t }) h (decide_eq_true hlive)
  refine ⟨Keyspace.incr { redis with now := t } request.rateLimitKey, ?_, ?_⟩
  · unfold RateLimiter.callAt
    rw [program_rateLimit hredis, exec_ask]
    have hvalue :
        CounterQuery.answer { redis with now := t } (.incr request.rateLimitKey) = c + 1 := by
      show (Keyspace.bumped _ _).value = c + 1
      rw [hbumped]
    rw [hvalue, if_neg (by omega)]
    exact exec_verdict limiter (Nat.succ_pos c) _
  · rw [Keyspace.incr_self, hbumped]

/-- A call that finds no counter starts one that expires after the window. -/
theorem callAt_of_new (limiter : RateLimiter) (hredis : request.redisClient = true)
    (hwindow : 0 < limiter.windowSeconds)
    (h : Keyspace.get { redis with now := t } request.rateLimitKey = none) :
    ∃ redis', limiter.callAt request t redis = (decide (1 ≤ limiter.bound), redis') ∧
      redis'.entries request.rateLimitKey =
        some ⟨1, some (t + ((limiter.windowSeconds : Int) : T))⟩ := by
  have hbumped : Keyspace.bumped { redis with now := t } request.rateLimitKey = ⟨1, none⟩ :=
    Keyspace.bumped_of_get_none h
  refine ⟨Keyspace.expire (Keyspace.incr { redis with now := t } request.rateLimitKey)
    request.rateLimitKey limiter.windowSeconds, ?_, ?_⟩
  · unfold RateLimiter.callAt
    rw [program_rateLimit hredis, exec_ask]
    have hvalue : CounterQuery.answer { redis with now := t } (.incr request.rateLimitKey) = 1 := by
      show (Keyspace.bumped _ _).value = 1
      rw [hbumped]
    rw [hvalue, if_pos rfl, exec_ask]
    exact exec_verdict limiter Nat.one_pos _
  · have hself := Keyspace.incr_self { redis with now := t } request.rateLimitKey
    rw [hbumped] at hself
    rw [Keyspace.expire_of_live hself rfl hwindow]
    rfl

/-! ## Windows -/

theorem admitted_cons (limiter : RateLimiter) (request : Request) (t : T) (ts : List T)
    (redis : Redis T) : limiter.admitted request (t :: ts) redis =
      (if (limiter.callAt request t redis).1 then [t] else []) ++
        limiter.admitted request ts (limiter.callAt request t redis).2 := by
  rw [RateLimiter.admitted]
  split <;> rfl

omit [Ring T] [LinearOrder T] in
theorem take_concat (w : List T) (t : T) (m : ℕ) :
    (w ++ [t]).take m = w.take m ++ if w.length + 1 ≤ m then [t] else [] := by
  rw [List.take_append]
  split
  · rw [List.take_of_length_le (l := [t]) (by simp; omega)]
  · have hnone : m - w.length = 0 := by omega
    rw [hnone, List.take_zero]

omit [Ring T] [LinearOrder T] in
theorem take_singleton (t : T) (m : ℕ) : [t].take m = if 1 ≤ m then [t] else [] :=
  by simpa using take_concat [] t m

/-- With `w` counted in the window that opened at `s`, the limiter goes on as counting in fixed
    windows does. -/
theorem admitted_from (limiter : RateLimiter) (ts : List T) {s : T} {w : List T}
    (hredis : request.redisClient = true) (hwindow : 0 < limiter.windowSeconds) (hw : w ≠ [])
    (h : redis.entries request.rateLimitKey =
      some ⟨w.length, some (s + ((limiter.windowSeconds : Int) : T))⟩) :
    w.take limiter.bound ++ limiter.admitted request ts redis =
      (windowsFrom ((limiter.windowSeconds : Int) : T) s w ts).flatMap (·.take limiter.bound) := by
  induction ts generalizing s w redis with
  | nil => simp [RateLimiter.admitted, windowsFrom]
  | cons t ts ih =>
    have hpos : 0 < w.length := List.length_pos_of_ne_nil hw
    rw [admitted_cons]
    unfold windowsFrom
    by_cases hlive : t ≤ s + ((limiter.windowSeconds : Int) : T)
    · obtain ⟨redis', hcall, hentry⟩ := callAt_of_live limiter hredis h hpos hlive
      have hrest := ih (w := w ++ [t]) (by simp) (by simpa using hentry)
      rw [take_concat, List.append_assoc] at hrest
      rw [if_pos hlive, ← hrest, hcall]
      simp only [decide_eq_true_eq]
    · have hget : Keyspace.get { redis with now := t } request.rateLimitKey = none := by
        unfold Keyspace.get
        rw [h]
        exact if_neg (by simpa [Stored.live] using hlive)
      obtain ⟨redis', hcall, hentry⟩ := callAt_of_new limiter hredis hwindow hget
      have hrest := ih (w := [t]) (by simp) hentry
      rw [take_singleton] at hrest
      rw [if_neg hlive, List.flatMap_cons, ← hrest, hcall]
      simp only [decide_eq_true_eq]

/-- The limiter counts in fixed windows. -/
theorem admitted_eq (limiter : RateLimiter) (hredis : request.redisClient = true)
    (hwindow : 0 < limiter.windowSeconds)
    (hnew : redis.entries request.rateLimitKey = none) (ts : List T) :
    limiter.admitted request ts redis =
      fixedAdmitted limiter.bound ((limiter.windowSeconds : Int) : T) ts := by
  cases ts with
  | nil => rfl
  | cons t ts =>
    have hget : Keyspace.get { redis with now := t } request.rateLimitKey = none :=
      Keyspace.get_of_absent hnew
    obtain ⟨redis', hcall, hentry⟩ := callAt_of_new limiter hredis hwindow hget
    have hrest := admitted_from limiter ts hredis hwindow (List.cons_ne_nil t []) hentry
    rw [take_singleton] at hrest
    rw [admitted_cons, hcall]
    unfold fixedAdmitted windows
    rw [← hrest]
    simp only [decide_eq_true_eq]

/-- No interval of length `window_seconds` has more than `max_requests` admitted requests exactly
    when no two neighbouring windows of the requests are crowded. -/
theorem rate_limited_iff [IsStrictOrderedRing T] (limiter : RateLimiter)
    (hredis : request.redisClient = true) (hnew : redis.entries request.rateLimitKey = none)
    {times : List T} (htimes : times.Pairwise (· ≤ ·)) :
    SlidingBounded limiter.maxRequests.toNat ((limiter.windowSeconds : Int) : T)
        (limiter.admitted request times redis) ↔
      (windows ((limiter.windowSeconds : Int) : T) times).IsChain fun u v =>
        ¬ Crowded limiter.maxRequests.toNat ((limiter.windowSeconds : Int) : T) u v := by
  have hfixed := fixedAdmitted_bounded_iff limiter.maxRequests.toNat
    ((limiter.windowSeconds : Int) : T) htimes
  by_cases hwindow : 0 < limiter.windowSeconds
  · rw [admitted_eq limiter hredis hwindow hnew]
    exact hfixed
  · -- the counter is deleted as soon as it is set up, and no interval has a time
    have hW : ((limiter.windowSeconds : Int) : T) ≤ 0 := Int.cast_nonpos.mpr (not_lt.mp hwindow)
    exact iff_of_true (bounded_of_nonpos hW _) (hfixed.mp (bounded_of_nonpos hW _))

def twoAMinute : RateLimiter := { maxRequests := 2, windowSeconds := 60 }

def loginRequest : Request :=
  { redisClient := true, client := some "10.0.0.1", path := "/api/v1/auth/login" }

theorem rate_limited_steady : SlidingBounded 2 (60 : ℤ)
    (twoAMinute.admitted loginRequest [0, 30, 60, 61, 95, 122] (.empty 0)) := by
  have hsorted : [(0 : ℤ), 30, 60, 61, 95, 122].Pairwise (· ≤ ·) := by decide
  exact (rate_limited_iff twoAMinute rfl rfl hsorted).mpr (by decide)

/-- Two requests at the end of a window and two at the start of the next. -/
theorem burst : ¬ SlidingBounded 2 (60 : ℤ)
    (twoAMinute.admitted loginRequest [0, 59, 61, 62] (.empty 0)) := by
  intro h
  have hcount := h 59
  rw [admitted_eq twoAMinute rfl (by decide) rfl] at hcount
  revert hcount
  decide

end CloudScale.Counters
