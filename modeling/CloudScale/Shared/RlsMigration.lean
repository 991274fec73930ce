/-
  The scripts that put row-level security in place and take it away again
  (`v2_postgresql_rls_migration.py`), as the statements they consist of, run by PostgreSQL.

  A script is one transaction: a statement that fails undoes it. Tables and indexes share their
  names, an index goes with its table, and a table cannot be dropped while a foreign key or a policy
  of another one mentions it.

  `isolation_run`: after any sequence of migrations and rollbacks a table that was migrated last has
  the policies of `RowSecurity`, and one that was rolled back last shows every row to everybody.
  `setTenantContextSql_lex`: whatever the tenant is, the statement that sets it is one call with
  that text.
-/
import CloudScale.Lib.SqlText
import CloudScale.Shared.RowSecurity

namespace CloudScale.Shared.RowSecurity

/-! ## Statements -/

structure Table where
  name : String
  columns : List String
  /-- The tables of its foreign keys. -/
  references : List String := []
  enabled : Bool := false
  forced : Bool := false
  policies : List Policy := []
deriving DecidableEq

structure Index where
  name : String
  table : String
  columns : List String
  unique : Bool := false
deriving DecidableEq

structure Schema where
  tables : List Table := []
  indexes : List Index := []
  /-- Whether there is a function `set_tenant_context`. -/
  tenantContext : Bool := false
deriving DecidableEq

inductive Alter where
  | enable
  | disable
  | force
  | dropPolicyIfExists (name : String)
  | createPolicy (p : Policy)
deriving DecidableEq

inductive Ddl where
  | createTable (t : Table)
  | dropTable (name : String)
  | createIndex (i : Index) (ifNotExists : Bool)
  | dropIndex (name : String)
  | alter (table : String) (a : Alter)
  | createTenantContext
deriving DecidableEq

def Schema.table (s : Schema) (name : String) : Option Table := s.tables.find? (·.name = name)

def Schema.relations (s : Schema) : List String :=
  s.tables.map (·.name) ++ s.indexes.map (·.name)

/-- The conditions on `orders` can be read. -/
def Schema.ordersOk (s : Schema) : Bool :=
  (s.table "orders").any fun t => "id" ∈ t.columns && "tenant_id" ∈ t.columns

/-- A condition is about columns that there are. -/
def Expr.valid (ordersOk : Bool) (t : Table) : Expr → Bool
  | .tenantColumn column => column ∈ t.columns
  | .ordersTenant => "order_id" ∈ t.columns && ordersOk

def Policy.valid (ordersOk : Bool) (t : Table) (p : Policy) : Bool :=
  p.usingExpr.all (Expr.valid ordersOk t) && p.checkExpr.all (Expr.valid ordersOk t)

/-- The other tables that a policy reads. -/
def Policy.needs (p : Policy) : List String :=
  if p.usingExpr = some .ordersTenant ∨ p.checkExpr = some .ordersTenant then ["orders"] else []

def Table.needs (t : Table) : List String := t.references ++ t.policies.flatMap Policy.needs

def Alter.run (ordersOk : Bool) (t : Table) : Alter → Option Table
  | .enable => some { t with enabled := true }
  | .disable => some { t with enabled := false }
  | .force => some { t with forced := true }
  | .dropPolicyIfExists name => some { t with policies := t.policies.filter (·.name ≠ name) }
  | .createPolicy p =>
    if p.valid ordersOk t ∧ ∀ q ∈ t.policies, q.name ≠ p.name then
      some { t with policies := t.policies ++ [p] }
    else none

def Schema.put (s : Schema) (t : Table) : Schema :=
  { s with tables := s.tables.map fun u => if u.name = t.name then t else u }

/-- `none`: the statement fails. -/
def Ddl.exec (s : Schema) : Ddl → Option Schema
  | .createTable t =>
    if t.name ∉ s.relations ∧ ∀ r ∈ t.references, (s.table r).isSome then
      some { s with tables := s.tables ++ [t] }
    else none
  | .dropTable name =>
    if (s.table name).isSome ∧ ∀ t ∈ s.tables, t.name ≠ name → name ∉ t.needs then
      some { s with
        tables := s.tables.filter (·.name ≠ name), indexes := s.indexes.filter (·.table ≠ name) }
    else none
  | .createIndex i ifNotExists =>
    if i.name ∈ s.relations then if ifNotExists then some s else none
    else if (s.table i.table).any fun t => i.columns.all (· ∈ t.columns) then
      some { s with indexes := s.indexes ++ [i] }
    else none
  | .dropIndex name =>
    if name ∈ s.indexes.map (·.name) then
      some { s with indexes := s.indexes.filter (·.name ≠ name) }
    else none
  | .alter table a =>
    match s.table table, a with
    | some t, a => (a.run s.ordersOk t).map s.put
    | none, .dropPolicyIfExists _ => some s
    | none, _ => none
  | .createTenantContext => some { s with tenantContext := true }

def runScript : List Ddl → Schema → Option Schema
  | [], s => some s
  | d :: ds, s => (d.exec s).bind (runScript ds)

/-! ## The scripts -/

def policyNames : List String :=
  ["tenant_isolation_select", "tenant_isolation_insert", "tenant_isolation_update",
    "tenant_isolation_delete"]

/-- `generate_rls_migration` -/
def rlsScript (table column : String) : List Ddl :=
  [.alter table .enable, .alter table .force] ++
    policyNames.map (fun name => .alter table (.dropPolicyIfExists name)) ++
    (generateRlsMigration table column).policies.map (fun p => .alter table (.createPolicy p)) ++
    if table = "order_items" then []
    else [.createIndex ⟨"idx_" ++ table ++ "_" ++ column, table, [column], false⟩ true]

/-- `generate_rollback_migration` -/
def rollbackScript (table : String) : List Ddl :=
  policyNames.map (fun name => .alter table (.dropPolicyIfExists name)) ++ [.alter table .disable]

/-- What PostgreSQL checks, by table. -/
def Schema.catalog (s : Schema) : Catalog := fun name =>
  (s.table name).map fun t => ⟨name, t.enabled, t.forced, t.policies⟩

/-! ## Alterations of one table -/

section Alterations

variable {s : Schema} {t t' : Table} {ordersOk : Bool}

/-- The alterations one after another. -/
def alterAll (ordersOk : Bool) : List Alter → Table → Option Table
  | [], t => some t
  | a :: as, t => (a.run ordersOk t).bind (alterAll ordersOk as)

theorem runScript_append (ds es : List Ddl) (s : Schema) :
    runScript (ds ++ es) s = (runScript ds s).bind (runScript es) := by
  induction ds generalizing s with
  | nil => rfl
  | cons d ds ih =>
    simp only [List.cons_append, runScript]
    cases d.exec s with
    | none => rfl
    | some s' => exact ih s'

theorem alterAll_append (as bs : List Alter) (t : Table) :
    alterAll ordersOk (as ++ bs) t = (alterAll ordersOk as t).bind (alterAll ordersOk bs) := by
  induction as generalizing t with
  | nil => rfl
  | cons a as ih =>
    simp only [List.cons_append, alterAll]
    cases a.run ordersOk t with
    | none => rfl
    | some t' => exact ih t'

theorem alter_keeps {a : Alter} (h : a.run ordersOk t = some t') :
    t'.name = t.name ∧ t'.columns = t.columns := by
  cases a with
  | createPolicy p =>
    simp only [Alter.run, Option.ite_none_right_eq_some] at h
    rw [← Option.some.inj h.2]
    exact ⟨rfl, rfl⟩
  | _ =>
    rw [← Option.some.inj h]
    exact ⟨rfl, rfl⟩

theorem name_of_table {name : String} (h : s.table name = some t) : t.name = name := by
  simpa using List.find?_some h

theorem table_put (ht : (s.table t.name).isSome) (name : String) :
    (s.put t).table name = if name = t.name then some t else s.table name := by
  unfold Schema.table Schema.put at *
  rw [List.find?_map]
  by_cases hname : name = t.name
  · subst hname
    rw [if_pos rfl]
    obtain ⟨u, hu⟩ := Option.isSome_iff_exists.mp ht
    have hcomp : ((fun v : Table => decide (v.name = t.name)) ∘
        fun u : Table => if u.name = t.name then t else u) = fun v => decide (v.name = t.name) := by
      funext u
      by_cases h : u.name = t.name <;> simp [h]
    rw [hcomp, hu, Option.map_some, if_pos (by simpa using List.find?_some hu)]
  · rw [if_neg hname]
    have hcomp : ((fun v : Table => decide (v.name = name)) ∘
        fun u : Table => if u.name = t.name then t else u) = fun v => decide (v.name = name) := by
      funext u
      by_cases h : u.name = t.name
      · simp [h, Ne.symm hname]
      · simp [h]
    rw [hcomp]
    cases hfind : s.tables.find? fun v => v.name = name with
    | none => rfl
    | some u =>
      have hu : u.name = name := by simpa using List.find?_some hfind
      rw [Option.map_some, if_neg (hu ▸ hname)]

theorem put_put (h : t.name = t'.name) : (s.put t).put t' = s.put t' := by
  unfold Schema.put
  simp only [List.map_map, Schema.mk.injEq, and_true]
  refine List.map_congr_left fun u _ => ?_
  by_cases hu : u.name = t'.name <;> simp [hu, h]

/-- The same tables with the same columns. -/
def SameColumns (s s' : Schema) : Prop :=
  ∀ name, (s'.table name).map (·.columns) = (s.table name).map (·.columns)

theorem ordersOk_of_columns {s' : Schema} (h : SameColumns s s') : s'.ordersOk = s.ordersOk := by
  have hany : ∀ u : Schema, u.ordersOk = ((u.table "orders").map (·.columns)).any
      fun columns => "id" ∈ columns && "tenant_id" ∈ columns := by
    intro u
    unfold Schema.ordersOk
    cases u.table "orders" <;> rfl
  rw [hany, hany, h]

theorem sameColumns_put {name : String} (ht : s.table name = some t) (hname : t'.name = name)
    (hcolumns : t'.columns = t.columns) : SameColumns s (s.put t') := by
  intro m
  rw [table_put (by rw [hname, ht]; rfl)]
  by_cases hm : m = t'.name
  · subst hm
    rw [if_pos rfl, hname, ht, Option.map_some, Option.map_some, hcolumns]
  · rw [if_neg hm]

/-- The alterations of a table change that table alone. -/
theorem runScript_alter {name : String} (a : Alter) (as : List Alter)
    (ht : s.table name = some t) (h : alterAll s.ordersOk (a :: as) t = some t') :
    runScript ((a :: as).map (.alter name)) s = some (s.put t') ∧ t'.name = name ∧
      t'.columns = t.columns := by
  obtain ⟨u, hu, hrest⟩ := Option.bind_eq_some_iff.mp h
  obtain ⟨huname, hucolumns⟩ := alter_keeps hu
  have hname := huname.trans (name_of_table ht)
  have hexec : (Ddl.alter name a).exec s = some (s.put u) := by
    simp only [Ddl.exec, ht, hu, Option.map_some]
  rw [List.map_cons, runScript, hexec, Option.bind_some]
  induction as generalizing s t u a with
  | nil =>
    obtain rfl := Option.some.inj hrest
    exact ⟨rfl, hname, hucolumns⟩
  | cons b as ih =>
    have hcolumns := sameColumns_put ht hname hucolumns
    have htable : (s.put u).table name = some u := by
      rw [table_put (by rw [hname, ht]; rfl), if_pos hname.symm]
    rw [← ordersOk_of_columns hcolumns] at hrest
    obtain ⟨v, hv, hrest'⟩ := Option.bind_eq_some_iff.mp hrest
    obtain ⟨hvname, hvcolumns⟩ := alter_keeps hv
    have hvname' := hvname.trans hname
    have hexec' : (Ddl.alter name b).exec (s.put u) = some ((s.put u).put v) := by
      simp only [Ddl.exec, htable, hv, Option.map_some]
    obtain ⟨hrun, hname', hcolumns'⟩ :=
      ih b htable hrest v hv hrest' hvname hvcolumns hvname' hexec'
    refine ⟨?_, hname', hcolumns'.trans hucolumns⟩
    rw [List.map_cons, runScript, hexec', Option.bind_some, hrun, put_put (hname.trans hname'.symm)]

/-! ## What a script makes of a table -/

/-- The policies that no migration puts there. -/
def Table.foreign (t : Table) : List Policy := t.policies.filter (·.name ∉ policyNames)

def Table.migrated (column : String) (t : Table) : Table :=
  { t with
    enabled := true, forced := true
    policies := t.foreign ++ (generateRlsMigration t.name column).policies }

def Table.rolledBack (t : Table) : Table := { t with enabled := false, policies := t.foreign }

theorem dropPolicies (t : Table) :
    alterAll ordersOk (policyNames.map .dropPolicyIfExists) t =
      some { t with policies := t.foreign } := by
  simp only [policyNames, List.map_cons, List.map_nil, alterAll, Alter.run, Option.bind_some,
    List.filter_filter, Table.foreign, List.mem_cons, List.not_mem_nil, or_false, not_or,
    Bool.decide_and]
  congr 3
  funext p
  simp only [Bool.and_comm, Bool.and_left_comm, ne_eq]

/-- Policies of new names are added one after another. -/
theorem createPolicies {ps : List Policy} (t : Table)
    (hnew : ∀ p ∈ ps, ∀ q ∈ t.policies, q.name ≠ p.name) (hnodup : (ps.map (·.name)).Nodup)
    (hvalid : ∀ p ∈ ps, p.valid ordersOk t = true) :
    alterAll ordersOk (ps.map .createPolicy) t = some { t with policies := t.policies ++ ps } := by
  induction ps generalizing t with
  | nil => rw [List.append_nil]; rfl
  | cons p ps ih =>
    obtain ⟨hp, hps⟩ := List.nodup_cons.mp hnodup
    have hrun : (Alter.createPolicy p).run ordersOk t =
        some { t with policies := t.policies ++ [p] } :=
      if_pos ⟨hvalid p List.mem_cons_self, hnew p List.mem_cons_self⟩
    rw [List.map_cons, alterAll, hrun, Option.bind_some, ih { t with policies := _ }]
    · simp only [List.append_assoc, List.singleton_append]
    · intro q hq r hr
      rcases List.mem_append.mp hr with hr | hr
      · exact hnew q (List.mem_cons_of_mem _ hq) r hr
      · rw [List.mem_singleton.mp hr]
        exact fun he => hp (List.mem_map.mpr ⟨q, hq, he.symm⟩)
    · exact hps
    · exact fun q hq => hvalid q (List.mem_cons_of_mem _ hq)

/-- The condition of the table's policies can be checked. -/
def Table.CanCheck (ordersOk : Bool) (column : String) (t : Table) : Prop :=
  if t.name = "order_items" then "order_id" ∈ t.columns ∧ ordersOk = true else column ∈ t.columns

theorem migration_names (table column : String) :
    (generateRlsMigration table column).policies.map (·.name) = policyNames := by
  unfold generateRlsMigration
  split <;> rfl

theorem migration_valid {column : String} (h : t.CanCheck ordersOk column) :
    ∀ p ∈ (generateRlsMigration t.name column).policies, p.valid ordersOk t = true := by
  unfold Table.CanCheck at h
  unfold generateRlsMigration
  split
  · next hitems =>
    rw [if_pos hitems] at h
    simp [Policy.valid, Expr.valid, h.1, h.2]
  · next hitems =>
    rw [if_neg hitems] at h
    simp [Policy.valid, Expr.valid, h]

def migrateAlters (table column : String) : List Alter :=
  [.enable, .force] ++ policyNames.map .dropPolicyIfExists ++
    (generateRlsMigration table column).policies.map .createPolicy

def rollbackAlters : List Alter := policyNames.map .dropPolicyIfExists ++ [.disable]

theorem alterAll_migrate {column : String} (h : t.CanCheck ordersOk column) :
    alterAll ordersOk (migrateAlters t.name column) t = some (t.migrated column) := by
  have hnew : ∀ p ∈ (generateRlsMigration t.name column).policies, ∀ q ∈ t.foreign,
      q.name ≠ p.name := by
    intro p hp q hq he
    have hnames : p.name ∈ policyNames :=
      migration_names t.name column ▸ List.mem_map.mpr ⟨p, hp, rfl⟩
    have hforeign : q.name ∉ policyNames := by simpa using (List.mem_filter.mp hq).2
    exact hforeign (he ▸ hnames)
  have hcreate : alterAll ordersOk ((generateRlsMigration t.name column).policies.map .createPolicy)
      { t with enabled := true, forced := true, policies := t.foreign } =
        some (t.migrated column) :=
    createPolicies _ hnew (by rw [migration_names]; decide) (migration_valid h)
  rw [migrateAlters, alterAll_append, alterAll_append]
  simp only [alterAll, Alter.run, Option.bind_some]
  rw [dropPolicies, Option.bind_some]
  exact hcreate

theorem alterAll_rollback (t : Table) :
    alterAll ordersOk rollbackAlters t = some t.rolledBack := by
  rw [rollbackAlters, alterAll_append, dropPolicies, Option.bind_some]
  rfl

end Alterations

/-! ## Runs of scripts -/

/-- A script that is run. -/
inductive RlsOp where
  | migrate (table column : String)
  | rollback (table : String)

def RlsOp.script : RlsOp → List Ddl
  | .migrate table column => rlsScript table column
  | .rollback table => rollbackScript table

def RlsOp.table : RlsOp → String
  | .migrate table _ => table
  | .rollback table => table

/-- What it makes of the table it is about. -/
def RlsOp.onTable : RlsOp → Table → Table
  | .migrate _ column => Table.migrated column
  | .rollback _ => Table.rolledBack

/-- Its table is there, with what the conditions of the policies read. -/
def Ready (s : Schema) (op : RlsOp) : Prop :=
  ∃ t, s.table op.table = some t ∧
    match op with
    | .migrate _ column => t.CanCheck s.ordersOk column
    | .rollback _ => True

def runScripts : List RlsOp → Schema → Option Schema
  | [], s => some s
  | op :: ops, s => (runScript op.script s).bind (runScripts ops)

/-- What a run makes of a table. -/
def onTable (name : String) (ops : List RlsOp) (t : Table) : Table :=
  ops.foldl (fun t op => if op.table = name then op.onTable t else t) t

section Runs

variable {s s' : Schema} {op : RlsOp}

theorem rlsScript_eq (table column : String) :
    rlsScript table column = (migrateAlters table column).map (.alter table) ++
      if table = "order_items" then []
      else [.createIndex ⟨"idx_" ++ table ++ "_" ++ column, table, [column], false⟩ true] := by
  simp only [rlsScript, migrateAlters, List.map_append, List.map_map, List.map_cons, List.map_nil]
  rfl

theorem rollbackScript_eq (table : String) :
    rollbackScript table = rollbackAlters.map (.alter table) := by
  simp only [rollbackScript, rollbackAlters, List.map_append, List.map_map, List.map_cons,
    List.map_nil]
  rfl

/-- One table is another now, with the columns it had. -/
theorem of_put {name : String} {t t' : Table} {f : Table → Table} (ht : s.table name = some t)
    (hf : f t = t') (hname : t'.name = name) (hcolumns : t'.columns = t.columns)
    (htables : s'.tables = (s.put t').tables) :
    SameColumns s s' ∧
      ∀ m, s'.table m = (s.table m).map fun u => if name = m then f u else u := by
  have htable : ∀ m, s'.table m = (s.put t').table m := by
    intro m
    unfold Schema.table
    rw [htables]
  refine ⟨fun m => ?_, fun m => ?_⟩
  · rw [htable]
    exact sameColumns_put ht hname hcolumns m
  · rw [htable, table_put (by rw [hname, ht]; rfl)]
    by_cases hm : m = t'.name
    · rw [if_pos hm, hm, hname, ht, Option.map_some, if_pos rfl, hf]
    · rw [if_neg hm]
      simp only [if_neg (fun he : name = m => hm (he.symm.trans hname.symm))]
      exact Option.map_id'.symm

theorem createIndex_tables {i : Index} {t : Table} (ht : s.table i.table = some t)
    (hcolumns : ∀ c ∈ i.columns, c ∈ t.columns) :
    ∃ s', runScript [.createIndex i true] s = some s' ∧ s'.tables = s.tables := by
  simp only [runScript, Ddl.exec]
  by_cases hname : i.name ∈ s.relations
  · exact ⟨s, by rw [if_pos hname]; rfl, rfl⟩
  · rw [if_neg hname, if_pos (by simpa [ht] using hcolumns)]
    exact ⟨_, rfl, rfl⟩

/-- A script succeeds, and its table is the only one that it changes. -/
theorem runScript_ready (h : Ready s op) :
    ∃ s', runScript op.script s = some s' ∧ SameColumns s s' ∧
      ∀ name, s'.table name =
        (s.table name).map fun t => if op.table = name then op.onTable t else t := by
  obtain ⟨t, ht, hcheck⟩ := h
  have hname := name_of_table ht
  cases op with
  | rollback table =>
    obtain ⟨hrun, hname', hcolumns⟩ := runScript_alter _ _ ht (alterAll_rollback t)
    exact ⟨_, (congrFun (congrArg runScript (rollbackScript_eq table)) s).trans hrun,
      of_put ht rfl hname' hcolumns rfl⟩
  | migrate table column =>
    obtain rfl : t.name = table := hname
    obtain ⟨hrun, hname', hcolumns⟩ := runScript_alter _ _ ht (alterAll_migrate hcheck)
    have htable : (s.put (t.migrated column)).table t.name = some (t.migrated column) := by
      rw [table_put (by rw [hname', ht]; rfl)]
      exact if_pos rfl
    have hindex : ∃ s', runScript (if t.name = "order_items" then []
        else [.createIndex ⟨"idx_" ++ t.name ++ "_" ++ column, t.name, [column], false⟩ true])
          (s.put (t.migrated column)) = some s' ∧
            s'.tables = (s.put (t.migrated column)).tables := by
      by_cases hitems : t.name = "order_items"
      · rw [if_pos hitems]
        exact ⟨_, rfl, rfl⟩
      · rw [if_neg hitems]
        refine createIndex_tables htable ?_
        simp only [Table.CanCheck, if_neg hitems] at hcheck
        simpa [Table.migrated] using hcheck
    obtain ⟨s', hs', htables⟩ := hindex
    refine ⟨s', ?_, of_put ht rfl hname' hcolumns htables⟩
    rw [RlsOp.script, rlsScript_eq, runScript_append]
    exact (congrArg (Option.bind · _) hrun).trans hs'

theorem ready_of_columns (h : SameColumns s s') {op : RlsOp} (hready : Ready s op) :
    Ready s' op := by
  obtain ⟨t, ht, hcheck⟩ := hready
  have hcolumns := h op.table
  rw [ht, Option.map_some] at hcolumns
  obtain ⟨t', ht', heq⟩ := Option.map_eq_some_iff.mp hcolumns
  refine ⟨t', ht', ?_⟩
  cases op with
  | rollback table => trivial
  | migrate table column =>
    simp only [Table.CanCheck, name_of_table ht, name_of_table ht', heq,
      ordersOk_of_columns h] at hcheck ⊢
    exact hcheck

/-- Every run of scripts succeeds, and each table is what the scripts about it make of it. -/
theorem runScripts_ready (ops : List RlsOp) (h : ∀ op ∈ ops, Ready s op) :
    ∃ s', runScripts ops s = some s' ∧
      ∀ name, s'.table name = (s.table name).map (onTable name ops) := by
  induction ops generalizing s with
  | nil => exact ⟨s, rfl, fun name => Option.map_id'.symm⟩
  | cons op ops ih =>
    obtain ⟨u, hu, hcolumns, htable⟩ := runScript_ready (h op List.mem_cons_self)
    obtain ⟨s', hs', htable'⟩ := ih fun op' hop' =>
      ready_of_columns hcolumns (h op' (List.mem_cons_of_mem _ hop'))
    refine ⟨s', by rw [runScripts, hu, Option.bind_some, hs'], fun name => ?_⟩
    rw [htable', htable, Option.map_map]
    rfl

theorem onTable_append (name : String) (before after : List RlsOp) (t : Table) :
    onTable name (before ++ after) t = onTable name after (onTable name before t) :=
  List.foldl_append

theorem onTable_others {name : String} {ops : List RlsOp} (h : ∀ op ∈ ops, op.table ≠ name)
    (t : Table) : onTable name ops t = t := by
  induction ops generalizing t with
  | nil => rfl
  | cons op ops ih =>
    rw [onTable, List.foldl_cons, if_neg (h op List.mem_cons_self)]
    exact ih (fun op' hop' => h op' (List.mem_cons_of_mem _ hop')) t

theorem foreign_migration (table column : String) :
    (generateRlsMigration table column).policies.filter (·.name ∉ policyNames) = [] := by
  refine List.filter_eq_nil_iff.mpr fun p hp => ?_
  have hname : p.name ∈ policyNames :=
    migration_names table column ▸ List.mem_map.mpr ⟨p, hp, rfl⟩
  simpa using hname

/-- No script makes or drops a policy of another name. -/
theorem foreign_step (op : RlsOp) (t : Table) :
    (op.onTable t).foreign = t.foreign ∧ (op.onTable t).name = t.name := by
  have hself : t.foreign.filter (·.name ∉ policyNames) = t.foreign := by
    simp [Table.foreign, List.filter_filter]
  cases op with
  | rollback table => exact ⟨hself, rfl⟩
  | migrate table column =>
    refine ⟨?_, rfl⟩
    simp only [RlsOp.onTable, Table.migrated]
    rw [Table.foreign, List.filter_append, foreign_migration, List.append_nil, hself]

theorem foreign_onTable (name : String) (ops : List RlsOp) (t : Table) :
    (onTable name ops t).foreign = t.foreign ∧ (onTable name ops t).name = t.name := by
  induction ops generalizing t with
  | nil => exact ⟨rfl, rfl⟩
  | cons op ops ih =>
    rw [onTable, List.foldl_cons]
    by_cases hop : op.table = name
    · rw [if_pos hop]
      obtain ⟨hforeign, hname⟩ := foreign_step op t
      obtain ⟨hforeign', hname'⟩ := ih (op.onTable t)
      exact ⟨hforeign'.trans hforeign, hname'.trans hname⟩
    · rw [if_neg hop]
      exact ih t

/-- What the last script about a table means for its rows. -/
def RlsOp.Effect (catalog : Catalog) : RlsOp → Prop
  | .migrate table column => ∀ owner setting db (statement : Statement) touched,
      statement.run catalog owner setting db = some touched →
        touched.Within table (OwnRow setting db table column)
  | .rollback table => ∀ owner setting db command expr row,
      passes catalog owner setting db table command expr row = true

/-- A table without policies of its own: after any scripts the last one about it decides whether
    statements touch the own rows only, or all rows pass. -/
theorem isolation_run {before after : List RlsOp} {t : Table}
    (hready : ∀ op' ∈ before ++ op :: after, Ready s op') (ht : s.table op.table = some t)
    (hforeign : t.foreign = []) (hlast : ∀ op' ∈ after, op'.table ≠ op.table) :
    ∃ s', runScripts (before ++ op :: after) s = some s' ∧ op.Effect s'.catalog := by
  obtain ⟨s', hrun, htable⟩ := runScripts_ready _ hready
  obtain ⟨hnone, hname⟩ := foreign_onTable op.table before t
  have hfinal : s'.table op.table = some (op.onTable (onTable op.table before t)) := by
    rw [htable, ht, Option.map_some, onTable_append]
    refine congrArg some ?_
    rw [onTable, List.foldl_cons, if_pos rfl]
    exact onTable_others hlast _
  refine ⟨s', hrun, ?_⟩
  cases op with
  | migrate table column =>
    have htname : (onTable table before t).name = table := hname.trans (name_of_table ht)
    have hcatalog : s'.catalog table = some (generateRlsMigration table column) := by
      simp only [Schema.catalog, RlsOp.table, RlsOp.onTable, Table.migrated] at hfinal hnone ⊢
      rw [hfinal, Option.map_some, hnone, hforeign, htname, List.nil_append]
      unfold generateRlsMigration
      split <;> rfl
    exact fun _ _ _ _ _ h => run_touches_own hcatalog h
  | rollback table =>
    intro owner setting db command expr row
    simp only [RlsOp.table, RlsOp.onTable] at hfinal
    simp only [passes, Schema.catalog, hfinal, Option.map_some, Table.rolledBack,
      RlsMigration.applies, Bool.false_and, Bool.not_false, Bool.true_or]

/-- Products, rolled back, migrated, and orders after them. -/
theorem isolation_run_products : ∃ s',
    runScripts ([.rollback "products"] ++ .migrate "products" "tenant_id" :: [.rollback "orders"])
      { tables := [{ name := "products", columns := ["id", "tenant_id"] },
        { name := "orders", columns := ["id", "tenant_id"] }] } = some s' ∧
      (RlsOp.migrate "products" "tenant_id").Effect s'.catalog :=
  isolation_run (t := { name := "products", columns := ["id", "tenant_id"] })
    (by
      simp only [List.cons_append, List.nil_append, List.forall_mem_cons, List.not_mem_nil,
        false_implies, implies_true, and_true]
      exact ⟨⟨_, rfl, trivial⟩, ⟨_, rfl, List.mem_cons_of_mem _ List.mem_cons_self⟩,
        ⟨_, rfl, trivial⟩⟩)
    rfl rfl (by decide)

end Runs

/-! ## The statement that sets the tenant -/

section TenantContext

open CloudScale.Lib.SqlText

/-- `text.replace(old, new)`; `skip` characters of an `old` are still to be passed over. -/
def replaceText (old new : List Char) : ℕ → List Char → List Char
  | _, [] => []
  | skip + 1, _ :: s => replaceText old new skip s
  | 0, c :: s =>
    if old.isPrefixOf (c :: s) then new ++ replaceText old new (old.length - 1) s
    else c :: replaceText old new 0 s

/-- `set_tenant_context_sql` -/
def setTenantContextSql (tenantId : List Char) : List Char :=
  let safeTenant := doubleQuotes tenantId
  let query := "SELECT set_config('app.current_tenant_id', '\x7bsafe_tenant\x7d', true);"
  replaceText "\x7bsafe_tenant\x7d".toList safeTenant 0 query.toList

theorem replaceText_skip (old new w s : List Char) :
    replaceText old new w.length (w ++ s) = replaceText old new 0 s := by
  induction w with
  | nil => rfl
  | cons c w ih => exact ih

/-- Where the first character of `old` is not, nothing is replaced. -/
theorem replaceText_of_notMem {o : Char} {old new s t : List Char} (h : o ∉ s) :
    replaceText (o :: old) new 0 (s ++ t) = s ++ replaceText (o :: old) new 0 t := by
  induction s with
  | nil => rfl
  | cons c s ih =>
    obtain ⟨hc, hs⟩ := not_or.mp (mt List.mem_cons.mpr h)
    rw [List.cons_append, replaceText, if_neg (by simp [hc]), ih hs]
    rfl

theorem replaceText_old (o : Char) (old new t : List Char) :
    replaceText (o :: old) new 0 ((o :: old) ++ t) = new ++ replaceText (o :: old) new 0 t := by
  rw [List.cons_append, replaceText, if_pos (by simp)]
  exact congrArg (new ++ ·) (replaceText_skip (o :: old) new old t)

theorem setTenantContextSql_eq (tenantId : List Char) :
    setTenantContextSql tenantId =
      "SELECT set_config('app.current_tenant_id', '".toList ++
        (doubleQuotes tenantId ++ "', true);".toList) := by
  have hquery : "SELECT set_config('app.current_tenant_id', '\x7bsafe_tenant\x7d', true);".toList =
      "SELECT set_config('app.current_tenant_id', '".toList ++
        (('\x7b' :: "safe_tenant\x7d".toList) ++ ("', true);".toList ++ [])) := by decide +kernel
  have hold : "\x7bsafe_tenant\x7d".toList = '\x7b' :: "safe_tenant\x7d".toList := by
    decide +kernel
  rw [setTenantContextSql, hquery, hold, replaceText_of_notMem (by decide +kernel), replaceText_old,
    replaceText_of_notMem (by decide +kernel), replaceText, List.append_nil]

/-- One call of `set_config` with the tenant as it is, for every tenant. -/
theorem setTenantContextSql_lex (tenantId : List Char) :
    lex (setTenantContextSql tenantId) = some
      [.word "SELECT".toList, .word "set_config".toList, .symbol '(',
        .literal "app.current_tenant_id".toList, .symbol ',', .literal tenantId, .symbol ',',
        .word "true".toList, .symbol ')', .symbol ';'] := by
  have hbefore : scan .start "SELECT set_config('app.current_tenant_id', '".toList = some
      ([.word "SELECT".toList, .word "set_config".toList, .symbol '(',
        .literal "app.current_tenant_id".toList, .symbol ','], .literal []) := by
    decide +kernel
  have hquote : "', true);".toList = '\x27' :: ", true);".toList := by decide +kernel
  have hafter : lexFrom .start ", true);".toList =
      some [.symbol ',', .word "true".toList, .symbol ')', .symbol ';'] := by
    decide +kernel
  rw [setTenantContextSql_eq, lex, lexFrom_append, hbefore, Option.bind_some, hquote,
    lex_quoted tenantId _ (by decide +kernel), hafter]
  rfl

end TenantContext

end CloudScale.Shared.RowSecurity
