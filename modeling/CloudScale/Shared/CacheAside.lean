/-
  The decorator `cache_aside` (`cloudscale_shared/cache.py`).

  A decorated function is looked up in the L1 cache of its worker and in Redis, twice: once before
  and once inside the single-flight lock of the key. Only then is it called, and its result stored
  in both. Redis may fail at every command. The text that `json.dumps` stores is represented by the
  value that `json.loads` gives back.

  The key joins the prefix, the name and the texts of the arguments by colons, and escapes none.
  `transparent_iff`: decorated functions answer every call with the result of that call, in every
  run, exactly when no two different calls have the same texts once these are cut at their colons.
  `shared_entry` is a call with two arguments that is answered with the result for one.
-/
import CloudScale.Lib.Alone
import CloudScale.Lib.Environment
import CloudScale.Lib.Joined
import CloudScale.Lib.Keyspace
import CloudScale.Shared.Json
import Mathlib.Data.List.Sort

namespace CloudScale.CacheAside

open CloudScale.Lib CloudScale.Shared

/-! ## Keys -/

variable {V ι τ T : Type}

/-- The positional and the keyword arguments of a call; the latter are a dict. -/
structure Arguments (V : Type) where
  args : List V
  kwargs : List (String × V)
  nodup : (kwargs.map (·.1)).Nodup

/-- The same positional arguments and the same dict. -/
def Arguments.Same (a b : Arguments V) : Prop := a.args = b.args ∧ a.kwargs.Perm b.kwargs

section Keys

variable (str : V → String)

/-- `sorted(kwargs.items())`, each as `k=v`. -/
def kwargTexts (a : Arguments V) : List String :=
  (a.kwargs.insertionSort fun x y => x.1 ≤ y.1).map fun kv => kv.1 ++ "=" ++ str kv.2

/-- `serialize_args`. -/
def serializeArgs (a : Arguments V) : String :=
  let argStr := ":".intercalate (a.args.map str)
  let kwargStr := ":".intercalate (kwargTexts str a)
  argStr ++ ":" ++ kwargStr

def cacheVersion : String := "v1"

/-- The prefix that a function is decorated with, and its `__name__`. -/
structure Naming where
  keyPrefix : String
  name : String

def cacheKey (n : Naming) (argsIdentity : String) : String :=
  cacheVersion ++ ":" ++ n.keyPrefix ++ ":" ++ n.name ++ ":" ++ argsIdentity

/-- A list of texts, or one empty text. -/
def orEmpty (texts : List String) : List String := if texts = [] then [""] else texts

/-- The texts that a key joins. -/
def keyTexts (n : Naming) (a : Arguments V) : List String :=
  [n.keyPrefix, n.name] ++ orEmpty (a.args.map str) ++ orEmpty (kwargTexts str a)

/-- What the colons cut these texts into. -/
def keyPieces (n : Naming) (a : Arguments V) : List (List Char) :=
  piecesOf ':' ((keyTexts str n a).map String.toList)

theorem orEmpty_ne_nil (texts : List String) : orEmpty texts ≠ [] := by
  unfold orEmpty
  split
  · exact List.cons_ne_nil _ _
  · assumption

theorem intercalate_orEmpty (texts : List String) :
    ":".intercalate (orEmpty texts) = ":".intercalate texts := by
  unfold orEmpty
  split
  · next h => simp [h]
  · rfl

theorem cacheKey_eq (n : Naming) (a : Arguments V) :
    cacheKey n (serializeArgs str a) = "v1:" ++ ":".intercalate (keyTexts str n a) := by
  have hargs := orEmpty_ne_nil (a.args.map str)
  have hkwargs := orEmpty_ne_nil (kwargTexts str a)
  unfold cacheKey serializeArgs keyTexts
  rw [String.intercalate_append_of_ne_nil (List.append_ne_nil_of_left_ne_nil
    (List.cons_ne_nil _ _) _)
      hkwargs, String.intercalate_append_of_ne_nil (List.cons_ne_nil _ _) hargs,
    intercalate_orEmpty, intercalate_orEmpty]
  simp only [String.intercalate_cons_cons, String.intercalate_singleton, cacheVersion,
    String.append_assoc]
  rfl

/-- Two calls share a key exactly when their texts have the same pieces. -/
theorem cacheKey_eq_iff (n n' : Naming) (a a' : Arguments V) :
    cacheKey n (serializeArgs str a) = cacheKey n' (serializeArgs str a') ↔
      keyPieces str n a = keyPieces str n' a' := by
  have hne : ∀ (n : Naming) (a : Arguments V), (keyTexts str n a).map String.toList ≠ [] :=
    fun n a h => by simp [keyTexts] at h
  rw [cacheKey_eq, cacheKey_eq, String.append_right_inj, ← String.toList_inj,
    String.toList_intercalate, String.toList_intercalate]
  exact intercalate_eq_iff ':' (hne n a) (hne n' a')

end Keys

/-! ## Both layers -/

/-- `L1LocalCache`. -/
structure L1LocalCache (T : Type) where
  store : String → Option (Json × T)

/-- `L1LocalCache.get`. -/
def L1LocalCache.get [LinearOrder T] (c : L1LocalCache T) (now : T) (key : String) : Option Json :=
  (c.store key).bind fun e => if e.2 < now then none else some e.1

/-- What `L1LocalCache.get` leaves of the store: an expired entry is deleted. -/
def L1LocalCache.afterGet [LinearOrder T] (c : L1LocalCache T) (now : T) (key : String) :
    L1LocalCache T :=
  if (c.store key).any fun e => e.2 < now then { store := Function.update c.store key none } else c

def L1LocalCache.set [Add T] [IntCast T] (c : L1LocalCache T) (now : T) (key : String)
    (value : Json) (ttl : Int) : L1LocalCache T :=
  { store := Function.update c.store key (some (value, now + (ttl : T))) }

def L1LocalCache.delete (c : L1LocalCache T) (key : String) : L1LocalCache T :=
  { store := Function.update c.store key none }

def L1LocalCache.clear : L1LocalCache T := { store := fun _ => none }

/-- The clock and the L1 cache of each worker, Redis, and who holds which single-flight lock. -/
structure CacheWorld (T : Type) where
  now : ℕ → T
  l1 : ℕ → L1LocalCache T
  redis : Keyspace String Json T
  lockHolder : ℕ → String → Option ℕ

def CacheWorld.empty (now : T) : CacheWorld T :=
  { now := fun _ => now, l1 := fun _ => .clear, redis := .empty now, lockHolder := fun _ _ => none }

def CacheWorld.setL1 (w : CacheWorld T) (worker : ℕ) (c : L1LocalCache T) : CacheWorld T :=
  { w with l1 := Function.update w.l1 worker c }

def CacheWorld.setHolder (w : CacheWorld T) (worker : ℕ) (key : String) (holder : Option ℕ) :
    CacheWorld T :=
  { w with
    lockHolder := Function.update w.lockHolder worker
      (Function.update (w.lockHolder worker) key holder) }

@[simp] theorem setL1_redis (w : CacheWorld T) (worker : ℕ) (c : L1LocalCache T) :
    (w.setL1 worker c).redis = w.redis := rfl

@[simp] theorem setHolder_l1 (w : CacheWorld T) (worker : ℕ) (key : String) (holder : Option ℕ) :
    (w.setHolder worker key holder).l1 = w.l1 := rfl

@[simp] theorem setHolder_redis (w : CacheWorld T) (worker : ℕ) (key : String)
    (holder : Option ℕ) : (w.setHolder worker key holder).redis = w.redis := rfl

/-! ## The decorator -/

inductive CacheQuery (V ι : Type) where
  | l1Get (worker : ℕ) (key : String)
  | l1Set (worker : ℕ) (key : String) (value : Json) (ttl : Int)
  | getClient
  | redisGet (key : String)
  | acquire (worker : ℕ) (key : String) (tid : ℕ)
  | release (worker : ℕ) (key : String)
  | func (i : ι) (a : Arguments V)
  | redisAnswers
  | setex (key : String) (ttl : Int) (value : Json)

/-- `redisGet` answers `none` when Redis fails. -/
abbrev CacheAnswer : CacheQuery V ι → Type
  | .l1Get _ _ => Option Json
  | .l1Set _ _ _ _ => Unit
  | .getClient => Bool
  | .redisGet _ => Option (Option Json)
  | .acquire _ _ _ => Unit
  | .release _ _ => Unit
  | .func _ _ => Json
  | .redisAnswers => Bool
  | .setex _ _ _ => Unit

abbrev CacheTxn (V ι R : Type) := Txn (CacheQuery V ι) CacheAnswer Empty R

def l1Get (worker : ℕ) (key : String) : CacheTxn V ι (Option Json) :=
  Txn.query (CacheQuery.l1Get worker key)

def l1Set (worker : ℕ) (key : String) (value : Json) (ttl : Int) : CacheTxn V ι Unit :=
  Txn.query (CacheQuery.l1Set worker key value ttl)

def getClient : CacheTxn V ι Bool := Txn.query CacheQuery.getClient

def redisGet (key : String) : CacheTxn V ι (Option (Option Json)) :=
  Txn.query (CacheQuery.redisGet key)

def acquire (worker : ℕ) (key : String) (tid : ℕ) : CacheTxn V ι Unit :=
  Txn.query (CacheQuery.acquire worker key tid)

def release (worker : ℕ) (key : String) : CacheTxn V ι Unit :=
  Txn.query (CacheQuery.release worker key)

def callFunc (i : ι) (a : Arguments V) : CacheTxn V ι Json := Txn.query (CacheQuery.func i a)

def redisAnswers : CacheTxn V ι Bool := Txn.query CacheQuery.redisAnswers

def setex (key : String) (ttl : Int) (value : Json) : CacheTxn V ι Unit :=
  Txn.query (CacheQuery.setex key ttl value)

/-- A function and the lifetimes it is decorated with. What it returns depends only on its
    arguments. -/
structure Decorated (V : Type) where
  ttlSeconds : Int := 300
  l1TtlSeconds : Int := 5
  func : Arguments V → Json
  func_same : ∀ a b, a.Same b → func a = func b

/-- A value that is not `None`. -/
def notNone : Option Json → Option Json
  | some .null => none
  | x => x

/-- The lookup in Redis; a hit warms the L1 cache. -/
def redisLookup (worker : ℕ) (key : String) (client : Bool) (l1Ttl : Int) :
    CacheTxn V ι (Option Json) :=
  if client then do
    match ← redisGet key with
    | some (some val) => do
      l1Set worker key val l1Ttl
      return some val
    | _ => return none
  else return none

/-- The body of the single-flight lock, without its release. -/
def fetch (worker : ℕ) (key : String) (client : Bool) (d : Decorated V) (i : ι) (a : Arguments V) :
    CacheTxn V ι Json := do
  match notNone (← l1Get worker key) with
  | some val => return val
  | none => match ← redisLookup worker key client d.l1TtlSeconds with
    | some val => return val
    | none => do
      let dbResult ← callFunc i a
      l1Set worker key dbResult d.l1TtlSeconds
      if client then
        if ← redisAnswers then
          setex key d.ttlSeconds dbResult
      return dbResult

/-- `wrapper`, for the call `tid` in a worker. -/
def cacheAside (tid worker : ℕ) (key : String) (d : Decorated V) (i : ι) (a : Arguments V) :
    CacheTxn V ι Json := do
  match notNone (← l1Get worker key) with
  | some val => return val
  | none =>
    let client ← getClient
    match ← redisLookup worker key client d.l1TtlSeconds with
    | some val => return val
    | none => do
      acquire worker key tid
      let val ← fetch worker key client d i a
      release worker key
      return val

/-! ## Runs -/

/-- A call of a decorated function in a worker. -/
structure Call (V ι : Type) where
  worker : ℕ
  func : ι
  arguments : Arguments V

section Service

variable [Ring T] [LinearOrder T]

/-- `available`: Redis can be reached. -/
def answer (ds : ι → Decorated V) (available : Bool) (w : CacheWorld T) :
    (q : CacheQuery V ι) → CacheAnswer q
  | .l1Get worker key => (w.l1 worker).get (w.now worker) key
  | .l1Set _ _ _ _ => ()
  | .getClient => available
  | .redisGet key => if available then some (w.redis.get key) else none
  | .acquire _ _ _ => ()
  | .release _ _ => ()
  | .func i a => (ds i).func a
  | .redisAnswers => available
  | .setex _ _ _ => ()

/-- Redis refuses a time to live that is not positive. -/
def CacheQuery.effect : CacheQuery V ι → CacheWorld T → CacheWorld T
  | .l1Get worker key, w => w.setL1 worker ((w.l1 worker).afterGet (w.now worker) key)
  | .l1Set worker key value ttl, w =>
    w.setL1 worker ((w.l1 worker).set (w.now worker) key value ttl)
  | .acquire worker key tid, w => w.setHolder worker key (some tid)
  | .release worker key, w => w.setHolder worker key none
  | .setex key ttl value, w =>
    if 0 < ttl then { w with redis := w.redis.set key value (some ttl) } else w
  | _, w => w

/-- What happens to the caches besides the calls: time passes, and entries are evicted. -/
inductive CacheDrift (T : Type) where
  | clock (worker : ℕ) (now : T)
  | elapse (now : T)
  | delete (worker : ℕ) (key : String)
  | clear (worker : ℕ)
  | redisDelete (key : String)

def CacheDrift.drift : CacheDrift T → CacheWorld T → Option (CacheWorld T)
  | .clock worker now, w => some { w with now := Function.update w.now worker now }
  | .elapse now, w => (w.redis.elapse now).map fun redis => { w with redis := redis }
  | .delete worker key, w => some (w.setL1 worker ((w.l1 worker).delete key))
  | .clear worker, w => some (w.setL1 worker .clear)
  | .redisDelete key, w => some { w with redis := w.redis.del key }

variable (str : V → String) (names : ι → Naming) (ds : ι → Decorated V) (call : τ → Call V ι)

def Call.key (c : Call V ι) : String := cacheKey (names c.func) (serializeArgs str c.arguments)

/-- The decorated functions, with callers whose calls are `call`. -/
def service : Service Unit (CacheWorld T) τ Bool (CacheQuery V ι) CacheAnswer Empty Json where
  prog tid r := cacheAside tid (call r).worker ((call r).key str names) (ds (call r).func)
    (call r).func (call r).arguments
  answer available w _ q := answer ds available w q
  effect := CacheQuery.effect
  commit _ db := some db

end Service

abbrev CacheServer (V ι τ T : Type) :=
  Server Unit (CacheWorld T) τ (CacheQuery V ι) CacheAnswer Empty Json

abbrev CacheLabel (τ T : Type) := EnvLabel (CacheDrift T) (Label τ Bool)

/-- A single-flight lock is acquired when no other call in flight holds it. -/
def LockFree (srv : CacheServer V ι τ T) : CacheLabel τ T → Prop
  | .act (.move (.advance i _)) => ∀ a, srv.active[i]? = some a → ∀ worker key tid k,
      a.prog = .ask (.acquire worker key tid) k →
        ∀ b ∈ srv.active, b.tid ≠ a.tid → srv.world.lockHolder worker key ≠ some b.tid
  | _ => True

/-! ## What is stored -/

section Stored

variable [Ring T] [LinearOrder T] (str : V → String) (names : ι → Naming)
  (ds : ι → Decorated V) (call : τ → Call V ι)

/-- What the decorated function itself returns for the call. -/
def Call.value (c : Call V ι) : Json := (ds c.func).func c.arguments

/-- The value is the result of every call that is made under the key. -/
def Right (key : String) (value : Json) : Prop :=
  ∀ r, (call r).key str names = key → value = (call r).value ds

structure Faithful (w : CacheWorld T) : Prop where
  l1 : ∀ worker key e, (w.l1 worker).store key = some e → Right str names ds call key e.1
  redis : w.redis.Holds (Right str names ds call)

def Stores : CacheQuery V ι → Prop
  | .l1Set _ key value _ => Right str names ds call key value
  | .setex key _ value => Right str names ds call key value
  | _ => True

variable {str names ds call} {w : CacheWorld T}

omit [Ring T] [LinearOrder T] in
theorem faithful_empty (now : T) : Faithful str names ds call (.empty now) where
  l1 _ _ _ he := by cases he
  redis := Keyspace.holds_empty now

omit [Ring T] [LinearOrder T] in
theorem faithful_setL1 (h : Faithful str names ds call w) {worker : ℕ} {c : L1LocalCache T}
    (hc : ∀ key e, c.store key = some e →
      (w.l1 worker).store key = some e ∨ Right str names ds call key e.1) :
    Faithful str names ds call (w.setL1 worker c) := by
  refine ⟨fun worker' key e he => ?_, h.redis⟩
  by_cases hw : worker' = worker
  · subst hw
    have hstore : c.store key = some e := by
      simpa only [CacheWorld.setL1, Function.update_self] using he
    exact (hc key e hstore).elim (h.l1 _ key e) id
  · refine h.l1 worker' key e ?_
    simpa only [CacheWorld.setL1, Function.update_of_ne hw] using he

omit [Ring T] [LinearOrder T] in
/-- A store with an entry put in or taken out. -/
theorem store_update {store : String → Option (Json × T)} {key key' : String}
    {x : Option (Json × T)} {e : Json × T} (h : Function.update store key x key' = some e) :
    store key' = some e ∨ key' = key ∧ x = some e := by
  by_cases hkey : key' = key
  · subst hkey
    rw [Function.update_self] at h
    exact .inr ⟨rfl, h⟩
  · rw [Function.update_of_ne hkey] at h
    exact .inl h

theorem faithful_effect (h : Faithful str names ds call w) {q : CacheQuery V ι}
    (hq : Stores str names ds call q) : Faithful str names ds call (q.effect w) := by
  cases q with
  | l1Get worker key =>
    refine faithful_setL1 h fun key' e he => .inl ?_
    unfold L1LocalCache.afterGet at he
    split at he
    · rcases store_update he with he | ⟨-, he⟩
      · exact he
      · cases he
    · exact he
  | l1Set worker key value ttl =>
    refine faithful_setL1 h fun key' e he => ?_
    rcases store_update (x := some (value, w.now worker + (ttl : T))) he with hold | ⟨rfl, hnew⟩
    · exact .inl hold
    · exact .inr (Option.some.inj hnew ▸ hq)
  | setex key ttl value =>
    show Faithful str names ds call
      (if 0 < ttl then { w with redis := w.redis.set key value (some ttl) } else w)
    split
    · exact ⟨h.l1, h.redis.set hq _⟩
    · exact h
  | _ => exact ⟨h.l1, h.redis⟩

omit [Ring T] in
theorem faithful_drift (h : Faithful str names ds call w) {d : CacheDrift T} {w' : CacheWorld T}
    (hd : d.drift w = some w') : Faithful str names ds call w' := by
  cases d with
  | clock worker now =>
    cases hd
    exact ⟨h.l1, h.redis⟩
  | elapse now =>
    obtain ⟨redis, helapse, rfl⟩ := Option.map_eq_some_iff.mp hd
    exact ⟨h.l1, h.redis.elapse helapse⟩
  | delete worker key =>
    cases hd
    refine faithful_setL1 h fun key' e he => .inl ?_
    rcases store_update he with he | ⟨-, he⟩
    · exact he
    · cases he
  | clear worker =>
    cases hd
    exact faithful_setL1 h fun key' e he => by cases he
  | redisDelete key =>
    cases hd
    exact ⟨h.l1, h.redis.del key⟩

omit [Ring T] in
theorem right_of_l1Get (h : Faithful str names ds call w) {worker : ℕ} {now : T} {key : String}
    {value : Json} (hget : (w.l1 worker).get now key = some value) :
    Right str names ds call key value := by
  obtain ⟨e, he, hvalue⟩ := Option.bind_eq_some_iff.mp hget
  obtain ⟨-, hvalue⟩ := Option.ite_none_left_eq_some.mp hvalue
  exact Option.some.inj hvalue ▸ h.l1 worker key e he

theorem eq_of_notNone {found : Option Json} {value : Json} (h : notNone found = some value) :
    found = some value := by
  unfold notNone at h
  split at h
  · cases h
  · exact h

end Stored

/-! ## Calls -/

section Calls

variable [Ring T] [LinearOrder T] {str : V → String} {names : ι → Naming}
  {ds : ι → Decorated V} {call : τ → Call V ι}

variable (str names ds call) in
/-- The discipline of a call: it stores, and returns, only what is right for its key. -/
abbrev Disciplined {R : Type} (post : R → Prop) (p : CacheTxn V ι R) (s : CacheWorld T × Unit) :
    Prop :=
  Acts (service str names ds call).answers (service str names ds call).act
    (Within (fun s => Faithful str names ds call s.1) fun _ _ => True)
    (fun _ => Stores str names ds call) (fun _ r => post r) p s

variable {key : String} {s : CacheWorld T × Unit}

theorem Disciplined.andThen {R R' : Type} {post : R → Prop} {post' : R' → Prop}
    {p : CacheTxn V ι R} {f : R → CacheTxn V ι R'} (h : Disciplined str names ds call post p s)
    (hs : Faithful str names ds call s.1)
    (hf : ∀ r (t : CacheWorld T × Unit), post r → Disciplined str names ds call post' (f r) t) :
    Disciplined str names ds call post' (p >>= f) s :=
  h.bind ⟨trivial, hs⟩ (fun _ _ _ ht hq => ⟨trivial, faithful_effect ht.2 hq⟩)
    fun t r hr => hf r t hr

theorem redisLookup_acts (worker : ℕ) (client : Bool) (l1Ttl : Int) :
    Disciplined str names ds call (fun found => ∀ value, found = some value →
      Right str names ds call key value) (redisLookup worker key client l1Ttl) s := by
  cases client with
  | false => exact fun t _ value hvalue => by cases hvalue
  | true =>
    intro t ht
    refine ⟨trivial, fun available => ?_⟩
    cases available with
    | false => exact fun _ _ value hvalue => by cases hvalue
    | true =>
      show Disciplined str names ds call _ (match (some (t.1.redis.get key) : Option (Option Json))
        with
        | some (some val) => l1Set worker key val l1Ttl >>= fun _ => pure (some val)
        | _ => pure none) _
      cases hget : t.1.redis.get key with
      | none => exact fun _ _ value hvalue => by cases hvalue
      | some val =>
        have hright := ht.2.redis.get hget
        refine fun u _ => ⟨hright, fun _ => fun _ _ value hvalue => ?_⟩
        exact Option.some.inj hvalue ▸ hright

theorem fetch_acts {worker : ℕ} {client : Bool} {i : ι} {a : Arguments V}
    (hright : Right str names ds call key ((ds i).func a)) :
    Disciplined str names ds call (Right str names ds call key)
      (fetch worker key client (ds i) i a) s := by
  intro t ht
  refine ⟨trivial, fun _ => ?_⟩
  show Disciplined str names ds call _ (match notNone
      ((t.1.l1 worker).get (t.1.now worker) key) with
    | some val => pure val
    | none => _) _
  split
  · next val hval =>
    exact fun _ _ => right_of_l1Get ht.2 (eq_of_notNone hval)
  · have hfaithful := faithful_effect (q := .l1Get worker key) ht.2 trivial
    refine (redisLookup_acts worker client _).andThen hfaithful fun found u hfound => ?_
    cases found with
    | some val => exact fun _ _ => hfound val rfl
    | none =>
      refine fun v _ => ⟨trivial, fun _ => fun v' _ => ⟨hright, fun _ => ?_⟩⟩
      cases client with
      | false => exact fun _ _ => hright
      | true =>
        refine fun x _ => ⟨trivial, fun available => ?_⟩
        cases available with
        | false => exact fun _ _ => hright
        | true => exact fun y _ => ⟨hright, fun _ => fun _ _ => hright⟩

theorem cacheAside_acts {tid worker : ℕ} {i : ι} {a : Arguments V}
    (hright : Right str names ds call key ((ds i).func a)) :
    Disciplined str names ds call (Right str names ds call key)
      (cacheAside tid worker key (ds i) i a) s := by
  intro t ht
  refine ⟨trivial, fun _ => ?_⟩
  show Disciplined str names ds call _ (match notNone
      ((t.1.l1 worker).get (t.1.now worker) key) with
    | some val => pure val
    | none => _) _
  split
  · next val hval =>
    exact fun _ _ => right_of_l1Get ht.2 (eq_of_notNone hval)
  · refine fun u hu => ⟨trivial, fun client => ?_⟩
    refine (redisLookup_acts worker client _).andThen hu.2 fun found v hfound => ?_
    cases found with
    | some val => exact fun _ _ => hfound val rfl
    | none =>
      refine fun x hx => ⟨trivial, fun _ => ?_⟩
      have hfaithful := faithful_effect (q := .acquire worker key tid) hx.2 trivial
      refine (fetch_acts hright).andThen hfaithful fun val y hval => ?_
      exact fun _ _ => ⟨trivial, fun _ => fun _ _ => hval⟩

/-- Where calls that share a key have the same result, every call keeps the discipline. -/
theorem discipline (hshare : ∀ r r', (call r).key str names = (call r').key str names →
    (call r).value ds = (call r').value ds) :
    Discipline (service (T := T) str names ds call) (fun s => Faithful str names ds call s.1)
      (fun _ _ => True) (fun _ _ => Stores str names ds call)
      fun tk _ value => value = (call tk.req).value ds where
  refl _ := trivial
  trans _ _ _ _ _ := trivial
  start tid r s hs := by
    have hright : Right str names ds call ((call r).key str names) ((call r).value ds) :=
      fun r' hr' => (hshare r' r hr').symm
    have hacts : Disciplined str names ds call (Right str names ds call ((call r).key str names))
        (cacheAside tid (call r).worker ((call r).key str names) (ds (call r).func) (call r).func
          (call r).arguments) s := cacheAside_acts hright
    exact Acts.imp hacts fun _ value hvalue => hvalue r rfl
  query _ s q hs hq := ⟨faithful_effect hs hq, trivial⟩
  commit _ s _ _ hs _ hc := ⟨hs, trivial⟩

/-- Every call that returned has returned what its function returns for its arguments. -/
def ReturnsOwn (ds : ι → Decorated V) (call : τ → Call V ι) (srv : CacheServer V ι τ T) : Prop :=
  ∀ e ∈ srv.log, ∀ value, e.verdict = .committed value → value = (call e.req).value ds

theorem returnsOwn_of_share {ok : CacheServer V ι τ T → CacheLabel τ T → Prop}
    {ls : List (CacheLabel τ T)} {srv : CacheServer V ι τ T} {now : T}
    (hshare : ∀ r r', (call r).key str names = (call r').key str names →
      (call r).value ds = (call r').value ds)
    (h : Reaches ((service str names ds call).stepIn CacheDrift.drift) ok
      (Server.init () (.empty now)) ls srv) : ReturnsOwn ds call srv := by
  intro e he value hvalue
  obtain ⟨tk, hreq, hpost⟩ := (discipline hshare).committed h (faithful_empty now)
    (fun d w w' _ hd hw => ⟨faithful_drift hw hd, trivial⟩) e he value hvalue
  exact hreq ▸ hpost

/-! ## Two calls that share a key -/

section Exec

variable {tid worker : ℕ} {i : ι} {a : Arguments V} {w : CacheWorld T}

omit [Ring T] in
theorem l1_get_absent {worker : ℕ} {now : T} (h : (w.l1 worker).store key = none) :
    (w.l1 worker).get now key = none := by
  unfold L1LocalCache.get
  rw [h, Option.bind_none]

omit [Ring T] in
theorem afterGet_absent {worker : ℕ} {now : T} (h : (w.l1 worker).store key = none) :
    w.setL1 worker ((w.l1 worker).afterGet now key) = w := by
  have hafter : (w.l1 worker).afterGet now key = w.l1 worker := by
    simp [L1LocalCache.afterGet, h]
  rw [hafter]
  exact congrArg (fun l1 => { w with l1 := l1 }) (Function.update_eq_self _ _)

variable (tid i a)

/-- A call that finds nothing stores its result in Redis. -/
theorem exec_miss (hl1 : (w.l1 worker).store key = none) (hredis : w.redis.get key = none)
    (httl : 0 < (ds i).ttlSeconds) :
    ∃ w', (cacheAside tid worker key (ds i) i a).exec (fun w q => answer ds true w q)
      CacheQuery.effect w = (.ok ((ds i).func a), w') ∧
      w'.redis = w.redis.set key ((ds i).func a) (some (ds i).ttlSeconds) := by
  refine ⟨_, Prod.ext ?_ rfl, ?_⟩
  · simp [cacheAside, fetch, l1Get, getClient, redisLookup, redisGet, acquire, release, callFunc,
      redisAnswers, setex, l1Set, answer, l1_get_absent hl1, notNone, CacheQuery.effect,
      afterGet_absent hl1, hredis]
  · simp [cacheAside, fetch, l1Get, getClient, redisLookup, redisGet, acquire, release, callFunc,
      redisAnswers, setex, l1Set, answer, l1_get_absent hl1, notNone, CacheQuery.effect,
      afterGet_absent hl1, hredis, httl]

/-- A call that finds a value in Redis returns it. -/
theorem exec_hit (hl1 : (w.l1 worker).store key = none) {value : Json}
    (hredis : w.redis.get key = some value) :
    ∃ w', (cacheAside tid worker key (ds i) i a).exec (fun w q => answer ds true w q)
      CacheQuery.effect w = (.ok value, w') := by
  refine ⟨_, Prod.ext ?_ rfl⟩
  simp [cacheAside, l1Get, getClient, redisLookup, redisGet, answer, l1_get_absent hl1, notNone,
    CacheQuery.effect, afterGet_absent hl1, hredis, l1Set]

end Exec

/-- An idle server answers a call that is made alone while Redis is available. -/
theorem answered {r : τ} {srv : CacheServer V ι τ T} (h : srv.active = []) {value : Json}
    {w : CacheWorld T} (hexec : (cacheAside srv.next (call r).worker ((call r).key str names)
      (ds (call r).func) (call r).func (call r).arguments).exec (fun w q => answer ds true w q)
        CacheQuery.effect srv.world = (.ok value, w)) :
    ∃ ls srv', Reaches ((service str names ds call).stepIn CacheDrift.drift) LockFree srv ls srv' ∧
      srv'.active = [] ∧ srv'.log = ⟨srv.next, r, .committed value⟩ :: srv.log ∧
      srv'.world = w := by
  have hlock : ∀ (s : CacheServer V ι τ T) (m : Move Bool), s.active.length = 1 →
      LockFree s (.act (.move m)) := by
    intro s m hone
    obtain ⟨b, hb⟩ := List.length_eq_one_iff.mp hone
    cases m with
    | advance i available =>
      intro a ha _ _ _ _ _ b' hb' hne
      have ha := List.mem_of_getElem? ha
      rw [hb, List.mem_singleton] at ha hb'
      exact absurd (congrArg (·.tid) (hb'.trans ha.symm)) hne
    | finish i => trivial
    | crash i => trivial
  have halone : (service str names ds call).alone true srv.next r srv.world srv.db =
    (.committed value, srv.db, w) := Service.alone_of_ok hexec
  obtain ⟨ls, srv', hrun, hactive, hlog, hworld⟩ := Service.alone_reaches_of
    (S := service str names ds call) (fun s l => LockFree s (.act l)) true r h trivial hlock
  rw [halone] at hlog hworld
  exact ⟨_, srv', hrun.undisturbed, hactive, hlog, congrArg Prod.snd hworld⟩

/-- The same function, called with the same arguments. -/
def Call.Same (c c' : Call V ι) : Prop := c.func = c'.func ∧ c.arguments.Same c'.arguments

theorem Call.Same.value_eq {c c' : Call V ι} (h : c.Same c') : c.value ds = c'.value ds := by
  unfold Call.value
  rw [h.1]
  exact (ds c'.func).func_same _ _ h.2

/-- Where every function's calls return their own results, calls that share a key are the same. -/
theorem same_of_returnsOwn [IsStrictOrderedRing T] {now : T}
    (hevery : ∀ (ds : ι → Decorated V) ls srv, Reaches
      ((service str names ds call).stepIn CacheDrift.drift) LockFree
        (Server.init () (.empty now)) ls srv → ReturnsOwn ds call srv)
    {r r' : τ} (hkey : (call r).key str names = (call r').key str names) :
    (call r').Same (call r) := by
  classical
  -- a function that tells the first call from all others
  let ds : ι → Decorated V := fun i =>
    { func a := .bool (decide (i = (call r).func ∧ a.Same (call r).arguments))
      func_same a b hab := by
        have hsame : a.Same (call r).arguments ↔ b.Same (call r).arguments :=
          ⟨fun h => ⟨hab.1.symm.trans h.1, hab.2.symm.trans h.2⟩,
            fun h => ⟨hab.1.trans h.1, hab.2.trans h.2⟩⟩
        simp only [hsame] }
  have httl : 0 < (ds (call r).func).ttlSeconds := Int.ofNat_succ_pos 299
  have hinit : (Server.init () (.empty now) : CacheServer V ι τ T).active = [] := rfl
  have hempty : ((CacheWorld.empty now).l1 (call r).worker).store ((call r).key str names) = none :=
    rfl
  obtain ⟨w, hexec, hredis⟩ := exec_miss 0 (call r).func (call r).arguments hempty
    (Keyspace.get_of_absent rfl) httl
  obtain ⟨ls, srv, hfirst, hactive, hlog, rfl⟩ := answered hinit hexec
  -- the L1 cache of the second call's worker is cleared, so that it looks in Redis
  have hfound : srv.world.redis.get ((call r').key str names) = some ((call r).value ds) := by
    rw [hredis, ← hkey]
    exact Keyspace.get_set_self _ _ _ httl
  have hcleared : ((srv.world.setL1 (call r').worker .clear).l1 (call r').worker).store
      ((call r').key str names) = none := by
    simp [CacheWorld.setL1, L1LocalCache.clear]
  obtain ⟨w', hexec'⟩ := exec_hit srv.next (call r').func (call r').arguments hcleared hfound
  have hclear : Reaches ((service str names ds call).stepIn CacheDrift.drift) LockFree srv
      [.drift (.clear (call r').worker)]
      { srv with world := srv.world.setL1 (call r').worker .clear } := .next .start trivial rfl
  have hidle : ({ srv with world := srv.world.setL1 (call r').worker .clear } :
      CacheServer V ι τ T).active = [] := hactive
  obtain ⟨ls', srv', hsecond, -, hlog', -⟩ := answered hidle hexec'
  have hmem : (⟨srv.next, r', .committed ((call r).value ds)⟩ : Entry τ Empty Json) ∈ srv'.log :=
    hlog' ▸ List.mem_cons_self
  have hvalue : (call r).value ds = (call r').value ds :=
    hevery ds _ srv' (reaches_append (reaches_append hfirst hclear) hsecond) _ hmem _ rfl
  have htold : decide ((call r').func = (call r).func ∧
      (call r').arguments.Same (call r).arguments) = true :=
    (JsonTree.bool.inj hvalue).symm.trans (decide_eq_true ⟨rfl, rfl, List.Perm.refl _⟩)
  have hsame := of_decide_eq_true htold
  exact hsame

variable (str names) in
/-- Every call has returned its own result, and different calls have different keys. -/
structure Transparent (ds : ι → Decorated V) (call : τ → Call V ι) (srv : CacheServer V ι τ T) :
    Prop where
  own : ReturnsOwn ds call srv
  unshared : ∀ e ∈ srv.log, ∀ e' ∈ srv.log,
    (call e.req).key str names = (call e'.req).key str names → (call e.req).Same (call e'.req)

/-- Decorated functions are transparent in every run exactly when no two different calls have the
    same texts once these are cut at their colons. -/
theorem transparent_iff [IsStrictOrderedRing T] (str : V → String) (names : ι → Naming)
    (call : τ → Call V ι) (now : T) :
    (∀ (ds : ι → Decorated V) ls srv, Reaches ((service str names ds call).stepIn CacheDrift.drift)
      LockFree (Server.init () (.empty now)) ls srv → Transparent str names ds call srv) ↔
    ∀ r r', keyPieces str (names (call r).func) (call r).arguments =
      keyPieces str (names (call r').func) (call r').arguments → (call r).Same (call r') := by
  constructor
  · intro hevery r r' hpieces
    have hkey : (call r').key str names = (call r).key str names :=
      (cacheKey_eq_iff str _ _ _ _).mpr hpieces.symm
    exact same_of_returnsOwn (fun ds ls srv h => (hevery ds ls srv h).own) hkey
  · intro hsame ds ls srv h
    have hshare : ∀ r r', (call r).key str names = (call r').key str names →
        (call r).Same (call r') :=
      fun r r' hkey => hsame r r' ((cacheKey_eq_iff str _ _ _ _).mp hkey)
    exact ⟨returnsOwn_of_share (fun r r' hkey => (hshare r r' hkey).value_eq) h,
      fun e _ e' _ => hshare e.req e'.req⟩

end Calls

/-! ## Texts without colons -/

theorem orEmpty_injective {texts texts' : List String} (hlen : texts.length = texts'.length)
    (h : orEmpty texts = orEmpty texts') : texts = texts' := by
  unfold orEmpty at h
  by_cases hnil : texts = []
  · subst hnil
    exact (List.eq_nil_of_length_eq_zero hlen.symm).symm
  · have hnil' : texts' ≠ [] := fun h' => hnil (List.eq_nil_of_length_eq_zero (by simp [hlen, h']))
    rwa [if_neg hnil, if_neg hnil'] at h

/-- Calls of one function with as many positional arguments, without keyword arguments and without
    colons: their texts can be told apart. -/
theorem texts_of_keyPieces {str : V → String} {n : Naming} {a a' : Arguments V}
    (hkwargs : a.kwargs = []) (hkwargs' : a'.kwargs = []) (hlen : a.args.length = a'.args.length)
    (hfree : ∀ x ∈ keyTexts str n a, ':' ∉ x.toList)
    (hfree' : ∀ x ∈ keyTexts str n a', ':' ∉ x.toList)
    (h : keyPieces str n a = keyPieces str n a') : a.args.map str = a'.args.map str := by
  unfold keyPieces at h
  rw [piecesOf_of_free ':' (by simpa using hfree),
    piecesOf_of_free ':' (by simpa using hfree')] at h
  have htexts := (List.map_injective_iff.mpr fun _ _ => String.toList_inj.mp) h
  unfold keyTexts kwargTexts at htexts
  rw [hkwargs, hkwargs', List.append_left_inj, List.append_right_inj] at htexts
  exact orEmpty_injective (by simpa using hlen) htexts

/-! ## Values of Python -/

inductive PyValue where
  | none
  | bool (b : Bool)
  | int (n : Int)
  | str (s : String)
deriving DecidableEq

/-- `str(value)`. -/
def PyValue.text : PyValue → String
  | .none => "None"
  | .bool true => "True"
  | .bool false => "False"
  | .int n => toString n
  | .str s => s

/-- A call with positional arguments only. -/
def positional (args : List PyValue) : Arguments PyValue :=
  { args, kwargs := [], nodup := List.nodup_nil }

/-- The product lookups of the catalog, by identifiers without colons. -/
def productLookup (pid : { s : String // ':' ∉ s.toList }) : Call PyValue Unit :=
  { worker := 0, func := (), arguments := positional [.str pid.1] }

def productNaming : Naming := { keyPrefix := "catalog_product", name := "_get_cached_product" }

theorem transparent_products : (∃ pid : { s : String // ':' ∉ s.toList }, pid.1 = "7f3c") ∧
    ∀ (ds : Unit → Decorated PyValue) (ls : List (CacheLabel { s : String // ':' ∉ s.toList } ℤ))
      (srv : CacheServer PyValue Unit { s : String // ':' ∉ s.toList } ℤ),
      Reaches ((service PyValue.text (fun _ => productNaming) ds productLookup).stepIn
        CacheDrift.drift) LockFree (Server.init () (.empty 0)) ls srv →
      Transparent PyValue.text (fun _ => productNaming) ds productLookup srv := by
  have htexts : ∀ pid, keyTexts PyValue.text productNaming (positional [.str pid]) =
      ["catalog_product", "_get_cached_product", pid, ""] := fun _ => rfl
  have hfree : ∀ pid : { s : String // ':' ∉ s.toList }, ∀ x ∈ keyTexts PyValue.text productNaming
      (positional [.str pid.1]), ':' ∉ x.toList := by
    intro pid x hx
    simp only [htexts, List.mem_cons, List.not_mem_nil, or_false] at hx
    rcases hx with rfl | rfl | rfl | rfl
    · decide
    · decide
    · exact pid.2
    · decide
  refine ⟨⟨⟨"7f3c", by decide⟩, rfl⟩,
    (transparent_iff PyValue.text (fun _ => productNaming) productLookup 0).mpr ?_⟩
  intro pid pid' hpieces
  have hargs : (positional [.str pid.1]).args.map PyValue.text =
      (positional [.str pid'.1]).args.map PyValue.text :=
    texts_of_keyPieces rfl rfl rfl (hfree pid) (hfree pid') hpieces
  have hpid : pid = pid' := Subtype.ext (List.head_eq_of_cons_eq hargs)
  exact hpid ▸ ⟨rfl, rfl, List.Perm.refl _⟩

/-- Decorated functions are not transparent for all arguments. -/
theorem shared_entry : ¬ ∀ (names : Unit → Naming) (ds : Unit → Decorated PyValue)
    (ls : List (CacheLabel (Call PyValue Unit) ℤ))
    (srv : CacheServer PyValue Unit (Call PyValue Unit) ℤ),
    Reaches ((service PyValue.text names ds id).stepIn CacheDrift.drift) LockFree
      (Server.init () (.empty 0)) ls srv → Transparent PyValue.text names ds id srv := by
  intro hevery
  have hown : ∀ ds ls srv, Reaches ((service PyValue.text (fun _ => productNaming) ds id).stepIn
      CacheDrift.drift) LockFree (Server.init () (.empty (0 : ℤ))) ls srv →
      ReturnsOwn ds (id : Call PyValue Unit → _) srv :=
    fun ds ls srv h => (hevery (fun _ => productNaming) ds ls srv h).own
  have hkey : (⟨0, (), positional [.str "a:b"]⟩ : Call PyValue Unit).key PyValue.text
      (fun _ => productNaming) = Call.key PyValue.text (fun _ => productNaming)
        ⟨0, (), positional [.str "a", .str "b"]⟩ :=
    (cacheKey_eq_iff _ _ _ _ _).mpr (by decide +kernel)
  exact absurd (same_of_returnsOwn hown hkey).2.1 (by decide)

end CloudScale.CacheAside
