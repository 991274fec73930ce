/-
  The offset listings of the platform: the active products of a tenant by name
  (`catalog/app/repository.py`) and the users by the time they were created
  (`auth/app/repository.py`).

  `collate` is the key by which the database compares names. Neither query has a tie-breaker, so
  `offset_listings_iff`: the pages of either listing partition its rows exactly if those with one
  name, or one time, lie on one page. `mug_repeated` is a listing with a product on two pages.
-/
import Mathlib.Data.String.Basic
import CloudScale.Shared.OffsetPagination
import CloudScale.CatalogService.Model
import CloudScale.AuthService.Handlers

namespace CloudScale.Platform

open CloudScale.Lib CloudScale.Pagination CloudScale.OffsetPagination CloudScale.CatalogService

/-! ## Products -/

section Products

variable {κ : Type} [LinearOrder κ] (collate : String → κ)

/-- `Product.name`, as the database compares it. -/
def nameOf (p : Product) : Option κ := some (collate p.name)

def activeProducts (products : Products) (tenant : String) : List Product :=
  products.rows.filter fun p => p.isActive && decide (p.tenantId = tenant)

/-- `ProductRepository.list_active_paginated`. -/
def listActivePaginated (products : Products) (tenant : String)
    (orderBy : OrderBy (nameOf collate) false) (params : PageParams) : List Product × ℕ :=
  listPaginated orderBy (activeProducts products tenant) params

end Products

/-! ## Users -/

/-- A row of `users`. -/
structure StoredUser (τ : Type) where
  user : AuthService.User
  createdAt : τ

abbrev StoredUsers (τ : Type) := Table String (StoredUser τ) fun u => u.user.id

section Users

variable {τ : Type} [LinearOrder τ]

/-- `User.created_at`. -/
def createdAtOf (u : StoredUser τ) : Option τ := some u.createdAt

/-- `UserRepository.list_paginated`. -/
def listUsersPaginated (users : StoredUsers τ) (orderBy : OrderBy (createdAtOf (τ := τ)) true)
    (params : PageParams) : List (StoredUser τ) × ℕ :=
  listPaginated orderBy users.rows params

end Users

/-! ## The two listings -/

theorem activeProducts_nodup (products : Products) (tenant : String) :
    (activeProducts products tenant).Nodup :=
  (List.Nodup.of_map _ products.nodup).filter _

/-- The pages of either listing partition its rows, whatever the order of ties, if and only if the
    rows of one name, or of one time, lie on one page. -/
theorem offset_listings_iff {κ τ : Type} [LinearOrder κ] [LinearOrder τ] (collate : String → κ)
    (products : Products) (tenant : String) (users : StoredUsers τ) (size : ℕ) (hpos : 1 ≤ size)
    (hle : size ≤ 100) (hproducts : (activeProducts products tenant).length < 2 ^ 53)
    (husers : users.rows.length < 2 ^ 53) :
    ((∀ orders : ℕ → OrderBy (nameOf collate) false,
        Partitions (activeProducts products tenant) size
          (crawl (fun n => listActivePaginated collate products tenant (orders n)) size hpos hle)) ↔
      OnePage (nameOf collate) false (activeProducts products tenant) size) ∧
    ((∀ orders : ℕ → OrderBy (createdAtOf (τ := τ)) true,
        Partitions users.rows size
          (crawl (fun n => listUsersPaginated users (orders n)) size hpos hle)) ↔
      OnePage createdAtOf true users.rows size) :=
  ⟨partitions_iff hpos hle hproducts (activeProducts_nodup products tenant),
    partitions_iff hpos hle husers (List.Nodup.of_map _ users.nodup)⟩

/-! ## The cached pages -/

theorem visible_perm (products : Products) (scan : List Product) (tenant : String) :
    ((visible products scan tenant).filter (·.isActive)).Perm (activeProducts products tenant) := by
  have hvisible : (visible products scan tenant).Perm
      (products.rows.filter fun p => decide (p.tenantId = tenant)) := by
    unfold visible
    dsimp only
    split
    · next h => exact h
    · exact .refl _
  refine (hvisible.filter _).trans (List.Perm.of_eq ?_)
  exact List.filter_filter

/-- The two statements of the service model, answered from one state, give the page of a database
    that keeps ties in the order of its scan. -/
theorem answers_page (env : CatalogEnv) (caches : Caches) (products : Products) (tenant : String)
    (params : PageParams) :
    (env.answer caches products (.activePage tenant params.page params.size),
        env.answer caches products (.countActive tenant)) =
      listPaginated (stable (nameOf id) false)
        ((visible products env.scan tenant).filter (·.isActive)) params := by
  have htotal : activeTotal products tenant =
      ((visible products env.scan tenant).filter (·.isActive)).length := by
    rw [(visible_perm products env.scan tenant).length_eq]
    exact List.countP_eq_length_filter
  refine Prod.ext ?_ htotal
  show pageRows _ _ _ _ _ = _
  unfold pageRows
  congr 3

/-- The service model counts pages as the floating-point division does. -/
theorem pages_service {items : List ProductResponse} {total : ℕ} {params : PageParams}
    (htotal : total < 2 ^ 53) :
    (CatalogService.Page.create items total params.page params.size).pages =
      (OffsetPagination.Page.create items total params).pages := by
  rw [pages_create htotal, Nat.ceilDiv_eq_add_pred_div]
  unfold CatalogService.Page.create
  split
  · rfl
  · next hzero =>
    obtain rfl : total = 0 := by omega
    rw [Nat.zero_add, Nat.div_eq_of_lt (Nat.sub_one_lt_of_lt params.size_pos)]

/-! ## Crockery -/

def crockery (id name : String) (isActive : Bool) (tenantId : String) : Product :=
  { id, sku := "sku-" ++ id, name, description := none, price := 9, isActive, tenantId }

/-- Five active products of a tenant, with two cups and two mugs. -/
def shelf : Products where
  rows := [crockery "p-1" "Mug" true "tenant-1", crockery "p-2" "Cup" true "tenant-1",
    crockery "p-3" "Plate" true "tenant-1", crockery "p-4" "Bowl" false "tenant-1",
    crockery "p-5" "Mug" true "tenant-1", crockery "p-6" "Bowl" true "tenant-2",
    crockery "p-7" "Cup" true "tenant-1"]
  nodup := by decide

def registered (id : String) (createdAt : ℕ) : StoredUser ℕ where
  user := { id, email := id ++ "@shop.example", passwordHash := "", firstName := none
            lastName := none, role := "customer" }
  createdAt

/-- Three users, two created at one time. -/
def staff : StoredUsers ℕ where
  rows := [registered "u-1" 5, registered "u-2" 9, registered "u-3" 9]
  nodup := by decide

/-- A database that keeps ties in the order of the rows for every second page, and in the other
    order for the others. -/
def alternating {ρ α : Type} [LinearOrder α] (column : ρ → Option α) (descending : Bool) (n : ℕ) :
    OrderBy column descending where
  sort rows := (stable column descending).sort (if n % 2 = 0 then rows else rows.reverse)
  perm rows := by
    refine ((stable column descending).perm _).trans ?_
    split
    · exact .refl _
    · exact List.reverse_perm rows
  sorted rows := (stable column descending).sorted _

/-- In pages of two, the cups are on the first, the mugs on the second and the plate on the third;
    the users of one time are on the first of theirs. -/
theorem offset_listings_shelf :
    Partitions (activeProducts shelf "tenant-1") 2
      (crawl (fun n => listActivePaginated id shelf "tenant-1" (alternating (nameOf id) false n)) 2
        (by decide) (by decide)) ∧
    Partitions staff.rows 2
      (crawl (fun n => listUsersPaginated staff (alternating createdAtOf true n)) 2 (by decide)
        (by decide)) := by
  obtain ⟨hproducts, husers⟩ := offset_listings_iff id shelf "tenant-1" staff 2 (by decide)
    (by decide) (by decide +kernel) (by decide)
  exact ⟨hproducts.mpr (by decide +kernel) (alternating (nameOf id) false),
    husers.mpr (by decide +kernel) (alternating createdAtOf true)⟩

/-- Two products of one name. -/
def mugs : Products where
  rows := [crockery "p-1" "Mug" true "tenant-1", crockery "p-2" "Mug" true "tenant-1"]
  nodup := by decide

/-- The pages need not partition the active products; of two pages of one product, both can have
    the same. -/
theorem mug_repeated : ¬ ∀ (products : Products) (tenant : String) (size : ℕ) (hpos : 1 ≤ size)
    (hle : size ≤ 100), (activeProducts products tenant).length < 2 ^ 53 →
      ∀ orders : ℕ → OrderBy (nameOf id) false, Partitions (activeProducts products tenant) size
        (crawl (fun n => listActivePaginated id products tenant (orders n)) size hpos hle) := by
  intro hevery
  have hone : OnePage (nameOf id) false (activeProducts mugs "tenant-1") 1 :=
    (partitions_iff (by decide) (by decide) (by decide) (activeProducts_nodup mugs "tenant-1")).mp
      (hevery mugs "tenant-1" 1 (by decide) (by decide) (by decide))
  revert hone
  decide +kernel

end CloudScale.Platform
