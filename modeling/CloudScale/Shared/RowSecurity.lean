/-
  Row-level security: the policies that `generate_rls_migration` emits, and what PostgreSQL does
  with them.

  PostgreSQL: once security is enabled on a table (and forced, for the table's owner), a command
  sees or writes a row only if some policy for that command lets it through; a policy without `WITH
  CHECK` checks new rows with its `USING`. A comparison with an unset setting is not true.

  `Statement.run` is any statement of the four commands: what it selects and computes is a function
  of the rows it can see. `run_touches_own`: under the emitted policies every row that a statement
  reads, inserts, updates (before and after) or deletes belongs to the tenant of the setting, and to
  nobody else; with the setting unset there is no such row (`Touched.Within`).
-/
import Mathlib.Data.List.Basic

namespace CloudScale.Shared.RowSecurity

abbrev Row := String → Option String

/-- The rows of each table. `orders.id` is a primary key. -/
structure Database where
  rows : String → List Row
  orders_key : ∀ o ∈ rows "orders", ∀ o' ∈ rows "orders", o "id" = o' "id" → o "id" ≠ none → o = o'

inductive Command where
  | select
  | insert
  | update
  | delete
deriving DecidableEq, Repr

/-- The conditions of the policies. -/
inductive Expr where
  /-- `{tenant_column} = current_setting('app.current_tenant_id', true)` -/
  | tenantColumn (column : String)
  /-- `EXISTS (SELECT 1 FROM orders WHERE orders.id = {table_name}.order_id AND orders.tenant_id =
      current_setting('app.current_tenant_id', true))` -/
  | ordersTenant
deriving DecidableEq, Repr

structure Policy where
  name : String
  command : Command
  usingExpr : Option Expr
  checkExpr : Option Expr
deriving DecidableEq, Repr

structure RlsMigration where
  tableName : String
  enabled : Bool
  forced : Bool
  policies : List Policy
deriving DecidableEq, Repr

def generateRlsMigration (tableName tenantColumn : String) : RlsMigration :=
  if tableName = "order_items" then
    { tableName := tableName, enabled := true, forced := true,
      policies := [
        ⟨"tenant_isolation_select", .select, some .ordersTenant, none⟩,
        ⟨"tenant_isolation_insert", .insert, none, some .ordersTenant⟩,
        ⟨"tenant_isolation_update", .update, some .ordersTenant, none⟩,
        ⟨"tenant_isolation_delete", .delete, some .ordersTenant, none⟩] }
  else
    { tableName := tableName, enabled := true, forced := true,
      policies := [
        ⟨"tenant_isolation_select", .select, some (.tenantColumn tenantColumn), none⟩,
        ⟨"tenant_isolation_insert", .insert, none, some (.tenantColumn tenantColumn)⟩,
        ⟨"tenant_isolation_update", .update, some (.tenantColumn tenantColumn),
          some (.tenantColumn tenantColumn)⟩,
        ⟨"tenant_isolation_delete", .delete, some (.tenantColumn tenantColumn), none⟩] }

/-! ## The checks of PostgreSQL -/

/-- `a = b` in SQL is true. -/
def sqlEq : Option String → Option String → Bool
  | some a, some b => a == b
  | _, _ => false

def Expr.eval (setting : Option String) (db : Database) (row : Row) : Expr → Bool
  | .tenantColumn column => sqlEq (row column) setting
  | .ordersTenant => (db.rows "orders").any fun o =>
      sqlEq (o "id") (row "order_id") && sqlEq (o "tenant_id") setting

/-- What new rows are checked with. -/
def Policy.newRowExpr (p : Policy) : Option Expr :=
  p.checkExpr <|> p.usingExpr

/-- Row security applies to the role: to the table's owner only if it is forced. -/
def RlsMigration.applies (m : RlsMigration) (owner : Bool) : Bool :=
  m.enabled && (m.forced || !owner)

/-- The tables with row security. -/
abbrev Catalog := String → Option RlsMigration

/-- Some policy of the table for the command lets the row through. -/
def passes (catalog : Catalog) (owner : Bool) (setting : Option String) (db : Database)
    (table : String) (command : Command) (expr : Policy → Option Expr) (row : Row) : Bool :=
  match catalog table with
  | none => true
  | some m => !m.applies owner ||
      m.policies.any fun p => p.command == command && (expr p).any (Expr.eval setting db row)

/-! ## Statements -/

/-- The rows that a statement can read. -/
abbrev View := String → List Row

def view (catalog : Catalog) (owner : Bool) (setting : Option String) (db : Database) : View :=
  fun table => (db.rows table).filter
    (passes catalog owner setting db table .select Policy.usingExpr)

/-- A statement. Its conditions and new values are computed from the row and from what the statement
    can read. -/
inductive Statement where
  | select
  | insert (table : String) (values : View → List Row)
  | update (table : String) (whereClause : View → Row → Bool) (set : View → Row → Row)
  | delete (table : String) (whereClause : View → Row → Bool)

/-- What a statement read and wrote, by table. -/
structure Touched where
  read : View
  inserted : View := fun _ => []
  updated : String → List (Row × Row) := fun _ => []
  deleted : View := fun _ => []

/-- Run the statement; `none`: a new row violates the row-level security policy. -/
def Statement.run (catalog : Catalog) (owner : Bool) (setting : Option String) (db : Database) :
    Statement → Option Touched
  | .select => some { read := view catalog owner setting db }
  | .insert table values =>
      let v := view catalog owner setting db
      if (values v).all (passes catalog owner setting db table .insert Policy.newRowExpr) then
        some { read := v, inserted := Function.update (fun _ => []) table (values v) }
      else none
  | .update table whereClause set =>
      let v := view catalog owner setting db
      let targets := (db.rows table).filter fun row =>
        passes catalog owner setting db table .update Policy.usingExpr row && whereClause v row
      if targets.all fun row =>
          passes catalog owner setting db table .update Policy.newRowExpr (set v row) then
        some { read := v,
               updated := Function.update (fun _ => []) table (targets.map fun row =>
                 (row, set v row)) }
      else none
  | .delete table whereClause =>
      let v := view catalog owner setting db
      let targets := (db.rows table).filter fun row =>
        passes catalog owner setting db table .delete Policy.usingExpr row && whereClause v row
      some { read := v, deleted := Function.update (fun _ => []) table targets }

/-- Every row of the table that was touched satisfies `P`. -/
structure Touched.Within (t : Touched) (table : String) (P : Row → Prop) : Prop where
  read : ∀ row ∈ t.read table, P row
  inserted : ∀ row ∈ t.inserted table, P row
  updated : ∀ change ∈ t.updated table, P change.1 ∧ P change.2
  deleted : ∀ row ∈ t.deleted table, P row

/-! ## Owners of rows -/

/-- The row belongs to the tenant: an order item with its order, other rows by their tenant column.
    -/
def BelongsTo (db : Database) (table column : String) (row : Row) (tenant : String) : Prop :=
  if table = "order_items" then
    ∃ o ∈ db.rows "orders", o "id" = row "order_id" ∧ o "id" ≠ none ∧ o "tenant_id" = some tenant
  else row column = some tenant

/-- The row belongs to the tenant that the setting names, and to no other. -/
def OwnRow (setting : Option String) (db : Database) (table column : String) (row : Row) : Prop :=
  ∃ tenant, setting = some tenant ∧ BelongsTo db table column row tenant ∧
    ∀ other, BelongsTo db table column row other → other = tenant

variable {catalog : Catalog} {owner : Bool} {setting : Option String} {db : Database}
  {table column tenant other : String} {row : Row}

theorem sqlEq_eq_true {a b : Option String} : sqlEq a b = true ↔ a = b ∧ a ≠ none := by
  cases a <;> cases b <;> simp [sqlEq]

theorem belongsTo_unique (h : BelongsTo db table column row tenant)
    (h' : BelongsTo db table column row other) : other = tenant := by
  unfold BelongsTo at h h'
  by_cases htable : table = "order_items"
  · rw [if_pos htable] at h h'
    obtain ⟨o, ho, hid, hsome, htenant⟩ := h
    obtain ⟨o', ho', hid', -, htenant'⟩ := h'
    obtain rfl := db.orders_key o ho o' ho' (hid.trans hid'.symm) hsome
    exact Option.some.inj (htenant'.symm.trans htenant)
  · rw [if_neg htable] at h h'
    exact Option.some.inj (h'.symm.trans h)

theorem ownRow_of_belongsTo (hset : setting = some tenant)
    (h : BelongsTo db table column row tenant) : OwnRow setting db table column row :=
  ⟨tenant, hset, h, fun _ h' => belongsTo_unique h h'⟩

/-- The condition of the table's policies. -/
def tenantExpr (table column : String) : Expr :=
  if table = "order_items" then .ordersTenant else .tenantColumn column

theorem ownRow_of_eval (h : (tenantExpr table column).eval setting db row = true) :
    OwnRow setting db table column row := by
  unfold tenantExpr at h
  by_cases htable : table = "order_items"
  · rw [if_pos htable] at h
    obtain ⟨o, ho, hmatch⟩ := List.any_eq_true.mp h
    rw [Bool.and_eq_true, sqlEq_eq_true, sqlEq_eq_true] at hmatch
    obtain ⟨⟨hid, hsome⟩, htenant, hset⟩ := hmatch
    obtain ⟨t, ht⟩ := Option.ne_none_iff_exists'.mp hset
    refine ownRow_of_belongsTo (htenant.symm.trans ht) ?_
    rw [BelongsTo, if_pos htable]
    exact ⟨o, ho, hid, hsome, ht⟩
  · rw [if_neg htable] at h
    obtain ⟨hcolumn, hset⟩ := sqlEq_eq_true.mp h
    obtain ⟨t, ht⟩ := Option.ne_none_iff_exists'.mp hset
    refine ownRow_of_belongsTo (hcolumn.symm.trans ht) ?_
    rw [BelongsTo, if_neg htable]
    exact ht

/-- Every emitted policy has the table's condition, as its `USING` or as its `WITH CHECK`. -/
theorem policies_exprs {p : Policy} (hp : p ∈ (generateRlsMigration table column).policies) :
    (∀ e ∈ p.usingExpr, e = tenantExpr table column) ∧
      ∀ e ∈ p.newRowExpr, e = tenantExpr table column := by
  unfold generateRlsMigration at hp
  unfold tenantExpr
  by_cases htable : table = "order_items"
  · simp only [if_pos htable, List.mem_cons, List.not_mem_nil, or_false] at hp ⊢
    rcases hp with rfl | rfl | rfl | rfl <;> simp [Policy.newRowExpr]
  · simp only [if_neg htable, List.mem_cons, List.not_mem_nil, or_false] at hp ⊢
    rcases hp with rfl | rfl | rfl | rfl <;> simp [Policy.newRowExpr]

theorem migration_applies (table column : String) (owner : Bool) :
    (generateRlsMigration table column).applies owner = true := by
  unfold generateRlsMigration RlsMigration.applies
  split <;> simp

/-- A row that passes has the table's condition. -/
theorem ownRow_of_passes {command : Command} {expr : Policy → Option Expr}
    (hmig : catalog table = some (generateRlsMigration table column))
    (hexpr : expr = Policy.usingExpr ∨ expr = Policy.newRowExpr)
    (h : passes catalog owner setting db table command expr row = true) :
    OwnRow setting db table column row := by
  simp only [passes, hmig, migration_applies, Bool.not_true, Bool.false_or, List.any_eq_true,
    Bool.and_eq_true] at h
  obtain ⟨p, hp, -, hany⟩ := h
  obtain ⟨e, he, heval⟩ := (Option.any_eq_true _ _).mp hany
  obtain rfl : e = tenantExpr table column := by
    obtain rfl | rfl := hexpr
    · exact (policies_exprs hp).1 e he
    · exact (policies_exprs hp).2 e he
  exact ownRow_of_eval heval

theorem ownRow_of_view (hmig : catalog table = some (generateRlsMigration table column))
    (h : row ∈ view catalog owner setting db table) : OwnRow setting db table column row :=
  ownRow_of_passes hmig (.inl rfl) (List.mem_filter.mp h).2

/-- Rows that a statement wrote to its table. -/
theorem mem_update {α : Type} {written : List α} {target : String} {x : α}
    (h : x ∈ Function.update (fun _ => ([] : List α)) target written table) :
    table = target ∧ x ∈ written := by
  by_cases ht : table = target
  · subst ht
    exact ⟨rfl, by simpa using h⟩
  · simp [ht] at h

/-- Under the emitted policies a statement touches the setting's tenant's rows only. -/
theorem run_touches_own {statement : Statement} {touched : Touched}
    (hmig : catalog table = some (generateRlsMigration table column))
    (hrun : statement.run catalog owner setting db = some touched) :
    touched.Within table (OwnRow setting db table column) := by
  have hread : ∀ row ∈ view catalog owner setting db table, OwnRow setting db table column row :=
    fun row hrow => ownRow_of_view hmig hrow
  cases statement with
  | select =>
    cases hrun
    exact ⟨hread, by simp, by simp, by simp⟩
  | insert target values =>
    simp only [Statement.run, Option.ite_none_right_eq_some, List.all_eq_true] at hrun
    obtain ⟨hcheck, heq⟩ := hrun
    cases heq
    refine ⟨hread, fun row hrow => ?_, by simp, by simp⟩
    obtain ⟨rfl, hvalue⟩ := mem_update hrow
    exact ownRow_of_passes hmig (.inr rfl) (hcheck row hvalue)
  | update target whereClause set =>
    simp only [Statement.run, Option.ite_none_right_eq_some, List.all_eq_true] at hrun
    obtain ⟨hcheck, heq⟩ := hrun
    cases heq
    refine ⟨hread, by simp, fun change hchange => ?_, by simp⟩
    obtain ⟨rfl, hchange⟩ := mem_update hchange
    obtain ⟨old, hold, rfl⟩ := List.mem_map.mp hchange
    have hpasses := (Bool.and_eq_true_iff.mp (List.mem_filter.mp hold).2).1
    exact ⟨ownRow_of_passes hmig (.inl rfl) hpasses,
      ownRow_of_passes hmig (.inr rfl) (hcheck old hold)⟩
  | delete target whereClause =>
    cases hrun
    refine ⟨hread, by simp, by simp, fun row hrow => ?_⟩
    obtain ⟨rfl, hrow⟩ := mem_update hrow
    exact ownRow_of_passes hmig (.inl rfl)
      (Bool.and_eq_true_iff.mp (List.mem_filter.mp hrow).2).1

end CloudScale.Shared.RowSecurity
