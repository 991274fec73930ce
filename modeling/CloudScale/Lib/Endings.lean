/-
  How a program can end.

  `Ends allowed P E`: whatever is answered within `allowed`, the program ends with a result in `P`
  or an exception in `E`. A program that is never answered a query of some kind within `allowed` and
  has no result then asks that query before any result: `allowed` says which histories are looked
  at. `ends_start` and `ends_move` carry it through the moves of a server.
-/
import CloudScale.Lib.Server

namespace CloudScale.Lib

section Programs

variable {Q : Type} {A : Q → Type} {ε R T : Type}

def Ends (allowed : (q : Q) → A q → Prop) (P : R → Prop) (E : ε → Prop) : Txn Q A ε R → Prop
  | .done r => P r
  | .raise e => E e
  | .ask q k => ∀ x, allowed q x → Ends allowed P E (k x)

variable {allowed : (q : Q) → A q → Prop} {P : R → Prop} {E : ε → Prop}

theorem ends_of_forall (hP : ∀ r, P r) (hE : ∀ e, E e) (p : Txn Q A ε R) :
    Ends allowed P E p := by
  induction p with
  | done r => exact hP r
  | raise e => exact hE e
  | ask q k ih => exact fun x _ => ih x

theorem Ends.imp {P' : R → Prop} {E' : ε → Prop} {p : Txn Q A ε R} (h : Ends allowed P E p)
    (hP : ∀ r, P r → P' r) (hE : ∀ e, E e → E' e) : Ends allowed P' E' p := by
  induction p with
  | done r => exact hP r h
  | raise e => exact hE e h
  | ask q k ih => exact fun x hx => ih x (h x hx)

/-- Sequencing. -/
theorem Ends.bind {P' : T → Prop} {p : Txn Q A ε R} {f : R → Txn Q A ε T} (h : Ends allowed P E p)
    (hf : ∀ r, P r → Ends allowed P' E (f r)) : Ends allowed P' E (p >>= f) := by
  induction p with
  | done r => exact hf r h
  | raise e => exact h
  | ask q k ih => exact fun x hx => ih x (h x hx)

end Programs

/-! ## Servers -/

variable {Δ X τ Ω Q : Type} {A : Q → Type} {ε W : Type}

/-- The transactions in flight that `which` singles out end so. -/
def Server.AllEnd (which : Ticket Δ τ → Prop) (allowed : τ → (q : Q) → A q → Prop)
    (P : τ → W → Prop) (E : τ → ε → Prop) (srv : Server Δ X τ Q A ε W) : Prop :=
  ∀ a ∈ srv.active, which a.toTicket → Ends (allowed a.req) (P a.req) (E a.req) a.prog

section AllEnd

variable {S : Service Δ X τ Ω Q A ε W} {srv srv' : Server Δ X τ Q A ε W}
  {which : Ticket Δ τ → Prop} {allowed : τ → (q : Q) → A q → Prop} {P : τ → W → Prop}
  {E : τ → ε → Prop}

theorem allEnd_init (db : Δ) (x : X) :
    (Server.init db x : Server Δ X τ Q A ε W).AllEnd which allowed P E :=
  fun _ h => absurd h List.not_mem_nil

theorem allEnd_start {r : τ} (h : srv.AllEnd which allowed P E)
    (hr : which ⟨srv.next, r, srv.db⟩ → Ends (allowed r) (P r) (E r) (S.prog srv.next r)) :
    (S.start srv r).AllEnd which allowed P E := by
  intro a ha
  rcases Service.mem_start ha with ha | rfl
  · exact h a ha
  · exact hr

/-- Answers within `allowed` keep it. -/
theorem allEnd_move {m : Move Ω} (h : srv.AllEnd which allowed P E)
    (hm : S.move srv m = some srv') (hallowed : GoodMove (fun tk db q ω => which tk →
      allowed tk.req q (S.answer ω srv.world db q)) srv srv.db m) :
    srv'.AllEnd which allowed P E := by
  obtain ⟨i, a, ha, ⟨ω, q, k, rfl, hp, rfl⟩ | ⟨w, db, -, -, -, rfl⟩ | ⟨v, -, rfl⟩⟩ :=
    Service.move_cases hm
  · intro b hb hwhich
    rcases List.mem_or_eq_of_mem_set hb with hb | rfl
    · exact h b hb hwhich
    · have hends := h a (List.mem_of_getElem? ha) hwhich
      rw [hp] at hends
      exact hends _ (hallowed a ha q k hp hwhich)
  · exact fun b hb => h b (List.mem_of_mem_eraseIdx hb)
  · exact fun b hb => h b (List.mem_of_mem_eraseIdx hb)

theorem allEnd_done {a : Active Δ τ Q A ε W} {w : W} (h : srv.AllEnd which allowed P E)
    (ha : a ∈ srv.active) (hwhich : which a.toTicket) (hp : a.prog = .done w) : P a.req w := by
  have hends := h a ha hwhich
  rw [hp] at hends
  exact hends

theorem allEnd_raise {a : Active Δ τ Q A ε W} {e : ε} (h : srv.AllEnd which allowed P E)
    (ha : a ∈ srv.active) (hwhich : which a.toTicket) (hp : a.prog = .raise e) : E a.req e := by
  have hends := h a ha hwhich
  rw [hp] at hends
  exact hends

end AllEnd

end CloudScale.Lib
