/-
  The sessions of `DatabaseSessionManager` over the connection pools of its two engines
  (PostgreSQL).

  `write_session` and `read_session` set `app.current_tenant_id` once, for the transaction in which
  their block begins; the block may then commit or roll back and go on, each time on whatever
  connection the pool lends it. The settings are those of PostgreSQL: `set_config(…, true)` is
  undone when the transaction ends.

  `Isolated` (the step lemma is `isolated_step`): a connection that no block holds carries no
  tenant, and one that is held carries none or its block's. `session_isolation`: in every run each
  statement executes with its own session's tenant or with none, and under the policies of
  `generate_rls_migration` it touches rows of its session's tenant only.
-/
import CloudScale.Lib.Pool
import CloudScale.Lib.Run
import CloudScale.Shared.RowSecurity

namespace CloudScale.Shared.DatabaseSessions

open CloudScale.Lib RowSecurity

/-! ## Connections -/

/-- The setting `app.current_tenant_id` on a connection: when its transaction began, now, and the
    value that holds until the transaction ends. -/
structure Connection where
  before : Option String := none
  session : Option String := none
  transaction : Option String := none
deriving DecidableEq, Repr

/-- `current_setting('app.current_tenant_id', true)` -/
def Connection.currentSetting (c : Connection) : Option String :=
  c.transaction <|> c.session

/-- `set_config('app.current_tenant_id', value, is_local)` -/
def Connection.setConfig (c : Connection) (value : String) (isLocal : Bool) : Connection :=
  if isLocal then { c with transaction := some value }
  else { c with session := some value, transaction := none }

def Connection.endTransaction (c : Connection) (committed : Bool) : Connection :=
  if committed then { before := c.session, session := c.session }
  else { before := c.before, session := c.before }

/-- The primary and the replica; each engine has a pool of its own. -/
inductive Engine where
  | write
  | read
deriving DecidableEq, Repr

structure ConnectionId where
  engine : Engine
  number : ℕ
deriving DecidableEq, Repr

/-! ## Blocks -/

/-- `if tenant_id`: the tenant that the block sets. -/
def contextOf (tenantId : Option String) : Option String :=
  tenantId.filter (· ≠ "")

/-- `async with db_manager.write_session(tenant_id)` (or `read_session`) and the connection that its
    session holds. -/
structure Block where
  engine : Engine
  tenantId : Option String
  entered : Bool := false
  connection : Option ConnectionId := none
deriving DecidableEq, Repr

/-- A statement that was executed: for which tenant's session, under which setting, by the table's
    owner or not, and on which rows. -/
structure Executed where
  tenantId : Option String
  setting : Option String
  owner : Bool
  seen : Database
  statement : Statement

structure State where
  pool : Pool ConnectionId Connection (ℕ × Option String)
  blocks : ℕ → Option Block
  executed : List Executed

/-- Fresh connections, no block. -/
def initial : State where
  pool := { res := fun _ => {}, holder := fun _ => none }
  blocks := fun _ => none
  executed := []

def State.setBlock (s : State) (b : ℕ) (blk : Option Block) : State :=
  { s with blocks := Function.update s.blocks b blk }

/-- The connection of the block's transaction; if it has none, the `n`th of its engine, which must
    be idle. -/
def State.checkout (s : State) (b n : ℕ) : Option (State × ConnectionId) := do
  let blk ← s.blocks b
  match blk.connection with
  | some i => some (s, i)
  | none =>
    let i : ConnectionId := ⟨blk.engine, n⟩
    let pool ← s.pool.take i (b, contextOf blk.tenantId)
    some ({ s with pool := pool }.setBlock b (some { blk with connection := some i }), i)

/-- The block's connection goes back to the pool, changed by `f`. -/
def State.release (s : State) (b : ℕ) (f : Connection → Connection) : State :=
  match s.blocks b with
  | none => s
  | some blk =>
    match blk.connection with
    | none => s
    | some i => { s with pool := s.pool.give i f }.setBlock b (some { blk with connection := none })

inductive Label where
  /-- the block is opened -/
  | openBlock (b : ℕ) (engine : Engine) (tenantId : Option String)
  /-- its context is set, if it has one -/
  | enter (b n : ℕ)
  | execute (b n : ℕ) (owner : Bool) (seen : Database) (statement : Statement)
  /-- `commit()` or `rollback()` inside the block -/
  | endTransaction (b : ℕ) (committed : Bool)
  /-- the end of the block, by an exception or not -/
  | leave (b : ℕ) (raised : Bool)
  /-- the block's connection breaks; the pool opens another one -/
  | disconnect (b : ℕ)
  /-- an idle connection is replaced -/
  | recycle (i : ConnectionId)

/-- One step of some block. Which connection is lent, what a statement sees and whether it raises is
    up to the environment. -/
def step (s : State) : Label → Option State
  | .openBlock b engine tenantId =>
    if (s.blocks b).isNone then
      some (s.setBlock b (some { engine := engine, tenantId := tenantId }))
    else none
  | .enter b n => do
    let blk ← s.blocks b
    if blk.entered then none else
      let s := s.setBlock b (some { blk with entered := true })
      match contextOf blk.tenantId with
      | none => some s
      | some tid => do
        let (s, i) ← s.checkout b n
        some { s with pool := s.pool.use i (·.setConfig tid true) }
  | .execute b n owner seen statement => do
    let blk ← s.blocks b
    if blk.entered then
      let (s, i) ← s.checkout b n
      some { s with executed :=
        ⟨blk.tenantId, (s.pool.res i).currentSetting, owner, seen, statement⟩ ::
              s.executed }
    else none
  | .endTransaction b committed => do
    let blk ← s.blocks b
    if blk.entered then some (s.release b (·.endTransaction committed)) else none
  | .leave b raised => do
    let blk ← s.blocks b
    -- a block that did not get past `set_config` is left by its exception
    if blk.entered || raised then
      -- only `write_session` commits
      let committed := blk.engine = .write && !raised
      some ((s.release b (·.endTransaction committed)).setBlock b none)
    else none
  | .disconnect b => do
    let _ ← s.blocks b
    some (s.release b fun _ => {})
  | .recycle i =>
    if (s.pool.holder i).isNone then some { s with pool := s.pool.use i fun _ => {} } else none

/-! ## No tenant outlives its block -/

def Clean (c : Connection) : Prop :=
  c.before = none ∧ c.session = none ∧ c.transaction = none

/-- The connection carries no tenant, or its holder's until the transaction ends. -/
def OwnContext (holder : ℕ × Option String) (c : Connection) : Prop :=
  c.before = none ∧ c.session = none ∧ (c.transaction = none ∨ c.transaction = holder.2)

def OwnSetting (e : Executed) : Prop :=
  e.setting = none ∨ e.setting = e.tenantId

structure Isolated (s : State) : Prop where
  kept : s.pool.Kept Clean OwnContext
  held : ∀ b blk i, s.blocks b = some blk → blk.connection = some i →
    s.pool.holder i = some (b, contextOf blk.tenantId)
  executed : ∀ e ∈ s.executed, OwnSetting e

variable {s s' : State} {b n : ℕ} {blk : Block} {i : ConnectionId} {f : Connection → Connection}

theorem ownContext_of_clean (holder : ℕ × Option String) (c : Connection) (h : Clean c) :
    OwnContext holder c :=
  ⟨h.1, h.2.1, .inl h.2.2⟩

/-- However the transaction ends, the tenant's context ends with it. -/
theorem clean_endTransaction {holder : ℕ × Option String} (committed : Bool) (c : Connection)
    (h : OwnContext holder c) : Clean (c.endTransaction committed) := by
  unfold Connection.endTransaction
  cases committed with
  | true => exact ⟨h.2.1, h.2.1, rfl⟩
  | false => exact ⟨h.1, h.1, rfl⟩

theorem ownContext_setConfig {tid : String} (c : Connection) (h : OwnContext (b, some tid) c) :
    OwnContext (b, some tid) (c.setConfig tid true) :=
  ⟨h.1, h.2.1, .inr rfl⟩

theorem currentSetting_own {holder : ℕ × Option String} {c : Connection} (h : OwnContext holder c) :
    c.currentSetting = none ∨ c.currentSetting = holder.2 := by
  unfold Connection.currentSetting
  rw [h.2.1]
  simpa using h.2.2

theorem contextOf_eq_some {tenantId : Option String} {tid : String}
    (h : contextOf tenantId = some tid) : tenantId = some tid :=
  (Option.filter_eq_some_iff.mp h).1

@[simp] theorem setBlock_blocks (s : State) (b : ℕ) (blk : Option Block) :
    (s.setBlock b blk).blocks b = blk := by
  simp [State.setBlock]

theorem isolated_initial : Isolated initial :=
  ⟨⟨fun _ _ => ⟨rfl, rfl, rfl⟩, fun _ _ h => absurd h.symm (Option.some_ne_none _)⟩,
    fun _ _ _ h => absurd h.symm (Option.some_ne_none _), fun _ he => absurd he List.not_mem_nil⟩

theorem Isolated.setBlock (h : Isolated s) (hblk : ∀ i, blk.connection = some i →
    s.pool.holder i = some (b, contextOf blk.tenantId)) : Isolated (s.setBlock b (some blk)) := by
  refine ⟨h.kept, fun b' blk' i hb hi => ?_, h.executed⟩
  by_cases hbb : b' = b
  · subst hbb
    obtain rfl : blk = blk' := by simpa [State.setBlock] using hb
    exact hblk i hi
  · exact h.held b' blk' i (by simpa [State.setBlock, hbb] using hb) hi

theorem Isolated.dropBlock (h : Isolated s) : Isolated (s.setBlock b none) := by
  refine ⟨h.kept, fun b' blk' i hb hi => ?_, h.executed⟩
  by_cases hbb : b' = b
  · subst hbb
    simp [State.setBlock] at hb
  · exact h.held b' blk' i (by simpa [State.setBlock, hbb] using hb) hi

theorem Isolated.withPool {pool : Pool ConnectionId Connection (ℕ × Option String)} (h : Isolated s)
    (hkept : pool.Kept Clean OwnContext)
    (hheld : ∀ i holder, s.pool.holder i = some holder → pool.holder i = some holder) :
    Isolated { s with pool := pool } :=
  ⟨hkept, fun b blk i hb hi => hheld i _ (h.held b blk i hb hi), h.executed⟩

/-- A block's statements run on a connection that is lent to it. -/
theorem Isolated.checkout (h : Isolated s) (hb : s.blocks b = some blk)
    (hc : s.checkout b n = some (s', i)) :
    Isolated s' ∧ s'.pool.holder i = some (b, contextOf blk.tenantId) := by
  simp only [State.checkout, hb, Option.bind_eq_bind, Option.bind_some] at hc
  cases hconn : blk.connection with
  | some j =>
    rw [hconn] at hc
    cases hc
    exact ⟨h, h.held b blk i hb hconn⟩
  | none =>
    simp only [hconn, Option.bind_eq_some_iff] at hc
    obtain ⟨pool, htake, heq⟩ := hc
    cases heq
    have hkept := h.kept.take htake (ownContext_of_clean _)
    obtain ⟨hidle, rfl⟩ := Pool.take_eq_some htake
    have hpool := h.withPool hkept fun j holder hj => by
      have hne : j ≠ ⟨blk.engine, n⟩ := fun heq => by
        subst heq
        exact Option.some_ne_none _ (hj.symm.trans hidle)
      simpa [hne] using hj
    refine ⟨hpool.setBlock fun j hj => ?_, by simp [State.setBlock]⟩
    cases hj
    simp

/-- The connection that a block gives back is clean. -/
theorem Isolated.release (h : Isolated s) (hf : ∀ holder c, OwnContext holder c → Clean (f c)) :
    Isolated (s.release b f) := by
  unfold State.release
  cases hb : s.blocks b with
  | none => exact h
  | some blk =>
    cases hconn : blk.connection with
    | none => simpa only [hconn] using h
    | some i =>
      simp only [hconn]
      have hi := h.held b blk i hb hconn
      refine ⟨h.kept.give hi (hf _), fun b' blk' j hb' hj => ?_, h.executed⟩
      by_cases hbb : b' = b
      · subst hbb
        obtain rfl : { blk with connection := none } = blk' := by
          simpa [State.setBlock] using hb'
        cases hj
      · have hheld := h.held b' blk' j (by simpa [State.setBlock, hbb] using hb') hj
        -- another block holds another connection
        have hji : j ≠ i := fun heq => by
          subst heq
          exact hbb (congrArg Prod.fst (Option.some.inj (hheld.symm.trans hi)))
        exact (Pool.holder_give_of_ne f hji).trans hheld

theorem Isolated.execute {e : Executed} (h : Isolated s) (he : OwnSetting e) :
    Isolated { s with executed := e :: s.executed } :=
  ⟨h.kept, h.held, List.forall_mem_cons.mpr ⟨he, h.executed⟩⟩

theorem isolated_step {l : Label} (h : Isolated s) (hs : step s l = some s') : Isolated s' := by
  cases l with
  | openBlock b engine tenantId =>
    simp only [step, Option.ite_none_right_eq_some] at hs
    cases hs.2
    exact h.setBlock fun i hi => by cases hi
  | enter b n =>
    obtain ⟨blk, hb, hs⟩ := Option.bind_eq_some_iff.mp hs
    simp only [Option.ite_none_left_eq_some] at hs
    obtain ⟨-, hs⟩ := hs
    have hentered : Isolated (s.setBlock b (some { blk with entered := true })) :=
      h.setBlock fun i hi => h.held b blk i hb hi
    cases hctx : contextOf blk.tenantId with
    | none =>
      rw [hctx] at hs
      cases hs
      exact hentered
    | some tid =>
      simp only [hctx, Option.bind_eq_bind, Option.bind_eq_some_iff] at hs
      obtain ⟨⟨s₁, i⟩, hcheckout, heq⟩ := hs
      cases heq
      obtain ⟨hiso, hi⟩ := hentered.checkout (setBlock_blocks s b _) hcheckout
      rw [hctx] at hi
      exact hiso.withPool (hiso.kept.use hi ownContext_setConfig) fun _ _ hj => hj
  | execute b n owner seen statement =>
    obtain ⟨blk, hb, hs⟩ := Option.bind_eq_some_iff.mp hs
    simp only [Option.ite_none_right_eq_some, Option.bind_eq_bind, Option.bind_eq_some_iff] at hs
    obtain ⟨-, ⟨s₁, i⟩, hcheckout, heq⟩ := hs
    cases heq
    obtain ⟨hiso, hi⟩ := h.checkout hb hcheckout
    refine hiso.execute ?_
    obtain hnone | hown := currentSetting_own (hiso.kept.held i _ hi)
    · exact .inl hnone
    · cases hctx : contextOf blk.tenantId with
      | none => exact .inl (hown.trans hctx)
      | some tid => exact .inr ((hown.trans hctx).trans (contextOf_eq_some hctx).symm)
  | endTransaction b committed =>
    obtain ⟨blk, -, hs⟩ := Option.bind_eq_some_iff.mp hs
    simp only [Option.ite_none_right_eq_some] at hs
    cases hs.2
    exact h.release fun holder c hc => clean_endTransaction committed c hc
  | leave b raised =>
    obtain ⟨blk, -, hs⟩ := Option.bind_eq_some_iff.mp hs
    simp only [Option.ite_none_right_eq_some] at hs
    cases hs.2
    exact (h.release fun holder c hc => clean_endTransaction _ c hc).dropBlock
  | disconnect b =>
    obtain ⟨blk, -, hs⟩ := Option.bind_eq_some_iff.mp hs
    cases hs
    exact h.release fun _ _ _ => ⟨rfl, rfl, rfl⟩
  | recycle i =>
    simp only [step, Option.ite_none_right_eq_some, Option.isNone_iff_eq_none] at hs
    obtain ⟨hidle, heq⟩ := hs
    cases heq
    exact h.withPool (h.kept.refresh hidle fun _ => ⟨rfl, rfl, rfl⟩) fun _ _ hj => hj

theorem isolated_run {ls : List Label} (hrun : Reaches step anyStep initial ls s) : Isolated s :=
  hrun.invariant Isolated isolated_initial fun _ _ _ h _ hs => isolated_step h hs

/-! ## Isolation of the tenants -/

/-- The statement touches, in the tables under the emitted policies, its session's tenant's rows
    only. -/
def TouchesOwn (catalog : Catalog) (e : Executed) : Prop :=
  ∀ table column touched, catalog table = some (generateRlsMigration table column) →
    e.statement.run catalog e.owner e.setting e.seen = some touched →
    touched.Within table (OwnRow e.tenantId e.seen table column)

theorem ownRow_of_ownSetting {e : Executed} {table column : String} {row : Row} (he : OwnSetting e)
    (h : OwnRow e.setting e.seen table column row) : OwnRow e.tenantId e.seen table column row := by
  obtain ⟨tenant, hset, hown⟩ := h
  obtain hnone | heq := he
  · exact absurd (hset.symm.trans hnone) (Option.some_ne_none tenant)
  · exact ⟨tenant, heq.symm.trans hset, hown⟩

theorem touchesOwn_of_ownSetting {e : Executed} (he : OwnSetting e) (catalog : Catalog) :
    TouchesOwn catalog e := by
  intro table column touched hmig hrun
  have hwithin := run_touches_own hmig hrun
  exact ⟨fun row hrow => ownRow_of_ownSetting he (hwithin.read row hrow),
    fun row hrow => ownRow_of_ownSetting he (hwithin.inserted row hrow),
    fun change hchange => ⟨ownRow_of_ownSetting he (hwithin.updated change hchange).1,
      ownRow_of_ownSetting he (hwithin.updated change hchange).2⟩,
    fun row hrow => ownRow_of_ownSetting he (hwithin.deleted row hrow)⟩

/-- Whatever blocks run over the pools and however they interleave, each statement executes with its
    session's tenant or with none, and touches rows of that tenant only. -/
theorem session_isolation {ls : List Label} {s : State} (hrun : Reaches step anyStep initial ls s)
    (catalog : Catalog) : ∀ e ∈ s.executed, OwnSetting e ∧ TouchesOwn catalog e := by
  intro e he
  have hown : OwnSetting e := (isolated_run hrun).executed e he
  exact ⟨hown, touchesOwn_of_ownSetting hown catalog⟩

/-- Two products of two tenants. -/
def twoProducts : Database where
  rows table := if table = "products" then
    [fun c => if c = "tenant_id" then some "a" else none,
     fun c => if c = "tenant_id" then some "b" else none]
  else []
  orders_key := by simp

/-- Tenant `a` commits in the middle of its block, tenant `b` gets its connection, and `a` goes on
    when `b` has left. -/
def sharedConnection : List Label :=
  let move (table : String) : Statement :=
    .update table (fun _ _ => true) fun _ _ c => if c = "tenant_id" then some "a" else none
  [.openBlock 1 .write (some "a"), .openBlock 2 .write (some "b"),
   .enter 1 0, .execute 1 0 false twoProducts (move "products"), .endTransaction 1 true,
   .enter 2 0, .execute 2 0 false twoProducts .select, .leave 2 true,
   .execute 1 0 false twoProducts .select, .leave 1 false]

theorem session_isolation_sharedConnection : ∃ s : State,
    s.executed.map (fun e => (e.tenantId, e.setting)) =
      [(some "a", none), (some "b", some "b"), (some "a", some "a")] ∧
    ∀ e ∈ s.executed, OwnSetting e ∧
      TouchesOwn (fun table => some (generateRlsMigration table "tenant_id")) e := by
  have hrun : ∃ s, Reaches step anyStep initial sharedConnection s ∧
      s.executed.map (fun e => (e.tenantId, e.setting)) =
        [(some "a", none), (some "b", some "b"), (some "a", some "a")] :=
    reaches_where (allSteps_of_forall (fun _ _ _ => trivial) initial) (by decide +kernel)
  obtain ⟨s, hreach, hexec⟩ := hrun
  exact ⟨s, hexec, session_isolation hreach _⟩

end CloudScale.Shared.DatabaseSessions
