/-
  Programs that do not raise.

  `Safe` says nothing about a program that ends with an exception. `Returns ans rely good p s`:
  however other transactions change the state along `rely`, with environment answers within `good`,
  `p` started in `s` does not end with one. It is stable under interference and under the moves of a
  server (`allReturn_start`, `allReturn_move`), for the requests singled out by `P`.
-/
import CloudScale.Lib.Server

namespace CloudScale.Lib

section Returns

variable {σ Ω Q : Type} {A : Q → Type} {ε R T : Type}

def Returns (ans : Ω → σ → (q : Q) → A q) (rely : σ → σ → Prop) (good : σ → Q → Ω → Prop) :
    Txn Q A ε R → σ → Prop
  | .done _, _ => True
  | .raise _, _ => False
  | .ask q k, s => ∀ t ω, rely s t → good t q ω → Returns ans rely good (k (ans ω t q)) t

variable {ans : Ω → σ → (q : Q) → A q} {rely : σ → σ → Prop} {good : σ → Q → Ω → Prop}

theorem Returns.weaken (htrans : ∀ s t u, rely s t → rely t u → rely s u) {p : Txn Q A ε R}
    {s t : σ} (h : Returns ans rely good p s) (hst : rely s t) : Returns ans rely good p t := by
  cases p with
  | done r => trivial
  | raise e => exact h
  | ask q k => exact fun u ω hu hg => h u ω (htrans s t u hst hu) hg

/-- A continuation that never raises adds no exception. -/
theorem Returns.bind {p : Txn Q A ε R} {f : R → Txn Q A ε T} {s : σ}
    (h : Returns ans rely good p s) (hf : ∀ r t, Returns ans rely good (f r) t) :
    Returns ans rely good (p >>= f) s := by
  induction p generalizing s with
  | done r => exact hf r s
  | raise e => exact h.elim
  | ask q k ih => exact fun t ω ht hg => ih _ (h t ω ht hg)

end Returns

/-! ## Servers -/

variable {Δ X τ Ω Q : Type} {A : Q → Type} {ε W : Type}

section AllReturn

variable {σ : Type} {ans : Ω → σ → (q : Q) → A q} {rely : σ → σ → Prop}
  {good : Ticket Δ τ → σ → Q → Ω → Prop} {P : τ → Prop}

/-- The transactions in flight for the requests in `P` do not raise in the view `s`. -/
def Server.AllReturn (ans : Ω → σ → (q : Q) → A q) (rely : σ → σ → Prop)
    (good : Ticket Δ τ → σ → Q → Ω → Prop) (P : τ → Prop) (srv : Server Δ X τ Q A ε W) (s : σ) :
    Prop :=
  ∀ a ∈ srv.active, P a.req → Returns ans rely (good a.toTicket) a.prog s

variable {S : Service Δ X τ Ω Q A ε W} {srv srv' : Server Δ X τ Q A ε W} {s t : σ}

theorem allReturn_init (db : Δ) (x : X) : (Server.init db x : Server Δ X τ Q A ε W).AllReturn
    ans rely good P s := fun _ h => absurd h List.not_mem_nil

theorem allReturn_weaken (htrans : ∀ s t u, rely s t → rely t u → rely s u)
    (h : srv.AllReturn ans rely good P s) (hst : rely s t) : srv.AllReturn ans rely good P t :=
  fun a ha hp => (h a ha hp).weaken htrans hst

theorem allReturn_start {r : τ} (h : srv.AllReturn ans rely good P s)
    (hr : P r → Returns ans rely (good ⟨srv.next, r, srv.db⟩) (S.prog srv.next r) s) :
    (S.start srv r).AllReturn ans rely good P s := by
  intro a ha
  rcases Service.mem_start ha with ha | rfl
  · exact h a ha
  · exact hr

theorem allReturn_move {m : Move Ω} (h : srv.AllReturn ans rely good P s)
    (hm : S.move srv m = some srv') (hrefl : rely s s)
    (hans : ∀ ω q, S.answer ω srv.world srv.db q = ans ω s q) (hgood : GoodMove good srv s m) :
    srv'.AllReturn ans rely good P s := by
  obtain ⟨i, a, ha, ⟨ω, q, k, rfl, hp, rfl⟩ | ⟨w, db, -, -, -, rfl⟩ | ⟨v, -, rfl⟩⟩ :=
    Service.move_cases hm
  · intro a' ha' hreq
    rcases List.mem_or_eq_of_mem_set ha' with h' | rfl
    · exact h a' h' hreq
    · have hreturns := h a (List.mem_of_getElem? ha) hreq
      rw [hp] at hreturns
      rw [hans]
      exact hreturns s ω hrefl (hgood a ha q k hp)
  · exact fun a' ha' => h a' (List.mem_of_mem_eraseIdx ha')
  · exact fun a' ha' => h a' (List.mem_of_mem_eraseIdx ha')

/-- No request in `P` ends with an exception. -/
theorem AllReturn.not_raise {a : Active Δ τ Q A ε W} {e : ε}
    (h : srv.AllReturn ans rely good P s) (ha : a ∈ srv.active) (hreq : P a.req) :
    a.prog ≠ .raise e := fun hp => by
  have hreturns := h a ha hreq
  rw [hp] at hreturns
  exact hreturns

end AllReturn

end CloudScale.Lib
