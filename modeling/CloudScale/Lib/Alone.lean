/-
  A transaction that runs alone.

  `exec` runs a program to its end while nothing else moves, `Service.alone` the whole transaction:
  its verdict, the database and the outside world it leaves. `alone_reaches`: an idle server, given
  the request, reaches a state with just these, by steps that meet any condition that a single
  transaction in flight meets.
-/
import CloudScale.Lib.Server

namespace CloudScale.Lib

variable {Δ X τ Ω Q : Type} {A : Q → Type} {ε R T W : Type}

def Txn.exec (ans : X → (q : Q) → A q) (eff : Q → X → X) : Txn Q A ε R → X → Except ε R × X
  | .done r, x => (.ok r, x)
  | .raise e, x => (.error e, x)
  | .ask q k, x => (k (ans x q)).exec ans eff (eff q x)

/-- The queries of such a run, in their order. -/
def Txn.asked (ans : X → (q : Q) → A q) (eff : Q → X → X) : Txn Q A ε R → X → List Q
  | .done _, _ => []
  | .raise _, _ => []
  | .ask q k, x => q :: (k (ans x q)).asked ans eff (eff q x)

/-- The program that is left when a run has ended so. -/
def Txn.ending : Except ε R → Txn Q A ε R
  | .ok r => .done r
  | .error e => .raise e

section Exec

variable {ans : X → (q : Q) → A q} {eff : Q → X → X}

@[simp] theorem exec_done (r : R) (x : X) :
    (Txn.done r : Txn Q A ε R).exec ans eff x = (.ok r, x) := rfl

@[simp] theorem exec_raise (e : ε) (x : X) :
    (Txn.raise e : Txn Q A ε R).exec ans eff x = (.error e, x) := rfl

@[simp] theorem exec_ask (q : Q) (k : A q → Txn Q A ε R) (x : X) :
    (Txn.ask q k).exec ans eff x = (k (ans x q)).exec ans eff (eff q x) := rfl

/-- The second part runs where the first ended, unless that raised. -/
theorem exec_bind (p : Txn Q A ε R) (f : R → Txn Q A ε T) (x : X) :
    (p >>= f).exec ans eff x = match p.exec ans eff x with
      | (.ok r, x') => (f r).exec ans eff x'
      | (.error e, x') => (.error e, x') := by
  induction p generalizing x with
  | done r => rfl
  | raise e => rfl
  | ask q k ih => exact ih _ _

/-- A safe program that runs while the state changes within `rely` ends with a safe result. -/
theorem exec_along {σ Ω : Type} {ans : Ω → σ → (q : Q) → A q} {rely : σ → σ → Prop}
    {post : σ → R → Prop} {p : Txn Q A ε R} (state : X → σ) (env : X → Ω) {r : R} {x x' : X}
    (hrefl : ∀ s, rely s s) (htrans : ∀ s t u, rely s t → rely t u → rely s u)
    (hstep : ∀ q x, rely (state x) (state (eff q x)))
    (h : Safe ans rely (fun _ _ _ => True) post p (state x))
    (hexec : p.exec (fun x q => ans (env x) (state x) q) eff x = (.ok r, x')) :
    post (state x') r := by
  induction p generalizing x with
  | done r' =>
    obtain ⟨hr, rfl⟩ := Prod.mk.inj hexec
    exact Except.ok.inj hr ▸ h _ (hrefl _)
  | raise e =>
    obtain ⟨hr, -⟩ := Prod.mk.inj hexec
    cases hr
  | ask q k ih =>
    have hnext := h (state x) (env x) (hrefl _) trivial
    exact ih _ (hnext.weaken htrans (hstep q x)) hexec

/-- A program that is safe when nothing interferes ends with a safe result. -/
theorem exec_safe {σ Ω : Type} {ans : Ω → σ → (q : Q) → A q} {post : σ → R → Prop}
    {p : Txn Q A ε R} {s : σ} {ω : Ω} {r : R} {x x' : X}
    (h : Safe ans (· = ·) (fun _ _ _ => True) post p s)
    (hexec : p.exec (fun _ q => ans ω s q) eff x = (.ok r, x')) : post s r :=
  exec_along (fun _ => s) (fun _ => ω) (fun _ => rfl) (fun _ _ _ => Eq.trans) (fun _ _ => rfl) h
    hexec

end Exec

/-- The verdict and the database after a commit that was tried. -/
def settle (w : W) (db : Δ) : Option Δ → Verdict ε W × Δ
  | some db' => (.committed w, db')
  | none => (.rejected w, db)

theorem settle_snd (w : W) (db : Δ) (o : Option Δ) :
    (settle w db o : Verdict ε W × Δ).2 = o.getD db := by
  cases o with
  | none => rfl
  | some db' => rfl

/-- Two commits of the same writes end alike exactly when both fail or both succeed. -/
theorem settle_same_iff {P : Δ → Δ → Prop} {w : W} {db₁ db₂ : Δ} {o₁ o₂ : Option Δ}
    (h : P db₁ db₂) (hboth : ∀ u₁ u₂, o₁ = some u₁ → o₂ = some u₂ → P u₁ u₂) :
    (settle w db₁ o₁ : Verdict ε W × Δ).1 = (settle w db₂ o₂).1 ∧
      P (settle w db₁ o₁ : Verdict ε W × Δ).2 (settle w db₂ o₂ : Verdict ε W × Δ).2 ↔
      (o₁ = none ↔ o₂ = none) := by
  cases o₁ with
  | none =>
    cases o₂ with
    | none => exact iff_of_true ⟨rfl, h⟩ Iff.rfl
    | some u₂ => simp [settle]
  | some u₁ =>
    cases o₂ with
    | none => simp [settle]
    | some u₂ => exact iff_of_true ⟨rfl, hboth u₁ u₂ rfl rfl⟩ (by simp)

namespace Service

variable (S : Service Δ X τ Ω Q A ε W)

def alone (ω : Ω) (tid : ℕ) (r : τ) (x : X) (db : Δ) : Verdict ε W × Δ × X :=
  match (S.prog tid r).exec (fun x q => S.answer ω x db q) S.effect x with
  | (.ok w, x') =>
    let settled := settle w db (S.commit w db)
    (settled.1, settled.2, x')
  | (.error e, x') => (.raised e, db, x')

variable {S}

theorem alone_of_ok {ω : Ω} {tid : ℕ} {r : τ} {x x' : X} {db : Δ} {w : W}
    (h : (S.prog tid r).exec (fun x q => S.answer ω x db q) S.effect x = (.ok w, x')) :
    S.alone ω tid r x db =
      ((settle w db (S.commit w db)).1, (settle w db (S.commit w db) : Verdict ε W × Δ).2, x') := by
  unfold alone
  rw [h]

theorem alone_of_error {ω : Ω} {tid : ℕ} {r : τ} {x x' : X} {db : Δ} {e : ε}
    (h : (S.prog tid r).exec (fun x q => S.answer ω x db q) S.effect x = (.error e, x')) :
    S.alone ω tid r x db = (.raised e, db, x') := by
  unfold alone
  rw [h]

variable {ok : Server Δ X τ Q A ε W → Label τ Ω → Prop}

/-- A server with one transaction in flight reaches its end. -/
theorem exec_reaches (ω : Ω) (hok : ∀ s m, s.active.length = 1 → ok s (.move m))
    {tk : Ticket Δ τ} {p : Txn Q A ε W} {srv : Server Δ X τ Q A ε W}
    (h : srv.active = [⟨tk, p⟩]) {res : Except ε W} {x' : X}
    (hexec : p.exec (fun x q => S.answer ω x srv.db q) S.effect srv.world = (res, x')) :
    ∃ ls, Reaches S.step ok srv ls
      { srv with world := x', active := [⟨tk, Txn.ending res⟩] } := by
  induction p generalizing srv with
  | done w =>
    obtain ⟨rfl, rfl⟩ := Prod.mk.inj hexec
    refine ⟨[], ?_⟩
    rw [Txn.ending, ← h]
    exact .start
  | raise e =>
    obtain ⟨rfl, rfl⟩ := Prod.mk.inj hexec
    refine ⟨[], ?_⟩
    rw [Txn.ending, ← h]
    exact .start
  | ask q k ih =>
    have hstep : S.step srv (.move (.advance 0 ω)) = some { srv with
        world := S.effect q srv.world
        active := [⟨tk, k (S.answer ω srv.world srv.db q)⟩] } := by
      simp [step, move, advance, h]
    have hactive : ({ srv with
        world := S.effect q srv.world
        active := [⟨tk, k (S.answer ω srv.world srv.db q)⟩] } : Server Δ X τ Q A ε W).active =
          [⟨tk, k (S.answer ω srv.world srv.db q)⟩] := rfl
    obtain ⟨ls, hrun⟩ := ih _ hactive hexec
    exact ⟨_, reaches_append (.next .start (hok srv _ (congrArg List.length h)) hstep) hrun⟩

/-- How the only transaction in flight ends. -/
theorem finish_done {tk : Ticket Δ τ} {w : W} {srv : Server Δ X τ Q A ε W}
    (h : srv.active = [⟨tk, .done w⟩]) : S.step srv (.move (.finish 0)) =
      some (match S.commit w srv.db with
        | some db => { srv.close 0 ⟨tk, .done w⟩ (.committed w) with db := db }
        | none => srv.close 0 ⟨tk, .done w⟩ (.rejected w)) := by
  simp only [step, move, h, List.getElem?_cons_zero, Option.bind_some, finish]
  cases S.commit w srv.db with
  | some db => rfl
  | none => rfl

/-- An idle server reaches what the transaction does alone. -/
theorem alone_reaches_of (ok : Server Δ X τ Q A ε W → Label τ Ω → Prop) (ω : Ω) (r : τ)
    {srv : Server Δ X τ Q A ε W} (h : srv.active = []) (hokStart : ok srv (.start r))
    (hok : ∀ s m, s.active.length = 1 → ok s (.move m)) :
    ∃ ls srv', Reaches S.step ok srv ls srv' ∧ srv'.active = [] ∧
      srv'.log = ⟨srv.next, r, (S.alone ω srv.next r srv.world srv.db).1⟩ :: srv.log ∧
      (srv'.db, srv'.world) = (S.alone ω srv.next r srv.world srv.db).2 := by
  have hstart : S.step srv (.start r) = some (S.start srv r) := rfl
  have hactive : (S.start srv r).active = [⟨⟨srv.next, r, srv.db⟩, S.prog srv.next r⟩] := by
    show srv.active ++ _ = _
    rw [h]
    rfl
  cases hexec : (S.prog srv.next r).exec (fun x q => S.answer ω x srv.db q) S.effect srv.world with
  | mk res x' =>
    obtain ⟨ls, hrun⟩ := exec_reaches (S := S) ω hok hactive hexec
    have hrun' := reaches_append (.next .start hokStart hstart) hrun
    cases res with
    | error e =>
      rw [alone_of_error hexec]
      exact ⟨_, _, .next (a := .move (.finish 0)) hrun' (hok _ _ rfl) rfl, rfl, rfl, rfl⟩
    | ok w =>
      rw [alone_of_ok hexec]
      refine ⟨_, _, .next hrun' (hok _ _ rfl) (finish_done rfl), ?_⟩
      simp only [start_db]
      cases hc : S.commit w srv.db with
      | some db' => exact ⟨rfl, rfl, rfl⟩
      | none => exact ⟨rfl, rfl, rfl⟩

theorem alone_reaches (ω : Ω) (r : τ) {srv : Server Δ X τ Q A ε W} (h : srv.active = []) :
    ∃ ls srv', Reaches S.step anyStep srv ls srv' ∧ srv'.active = [] ∧
      srv'.log = ⟨srv.next, r, (S.alone ω srv.next r srv.world srv.db).1⟩ :: srv.log ∧
      (srv'.db, srv'.world) = (S.alone ω srv.next r srv.world srv.db).2 :=
  alone_reaches_of anyStep ω r h trivial fun _ _ _ => trivial

end Service

end CloudScale.Lib
