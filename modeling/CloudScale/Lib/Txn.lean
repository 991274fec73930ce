/-
  Transaction programs and the interference rule for them.

  A `Txn Q A ε R` is the body of one database transaction, seen from outside: it asks queries
  one after another (`A q` is the type of the answer to `q`), and ends with a result or an
  exception. Between two queries other transactions may commit, so each query is answered by
  the state at the time it is asked (read committed isolation); what a program computed from an
  earlier answer may be stale by then.

  `Safe ans rely good post p s`: however other transactions change the state along `rely`, and
  whatever the environment answers within `good`, every result of `p` started in `s` satisfies
  `post` in every state from then on. It is stable under interference (`Safe.weaken`) and
  composes along `bind` (`Safe.bind`), so a program is checked one query at a time.
-/
import Mathlib.Logic.Basic

namespace CloudScale.Lib

/-- A transaction body: queries, then a result or an exception. -/
inductive Txn (Q : Type) (A : Q → Type) (ε R : Type) where
  | done (r : R)
  | raise (e : ε)
  | ask (q : Q) (k : A q → Txn Q A ε R)

namespace Txn

variable {Q : Type} {A : Q → Type} {ε R T : Type}

def bind : Txn Q A ε R → (R → Txn Q A ε T) → Txn Q A ε T
  | .done r, f => f r
  | .raise e, _ => .raise e
  | .ask q k, f => .ask q fun a => (k a).bind f

instance : Monad (Txn Q A ε) where
  pure := .done
  bind := Txn.bind

/-- Ask one query. -/
def query (q : Q) : Txn Q A ε (A q) := .ask q .done

/-- The program as a part of one with more kinds of queries and exceptions. -/
def embed {Q' : Type} {A' : Q' → Type} {ε' : Type} (i : Q → Q') (c : ∀ q, A' (i q) → A q)
    (f : ε → ε') : Txn Q A ε R → Txn Q' A' ε' R
  | .done r => .done r
  | .raise e => .raise (f e)
  | .ask q k => .ask (i q) fun x => (k (c q x)).embed i c f

/-- Every query the program can ask satisfies `P`. -/
def Asks (P : Q → Prop) : Txn Q A ε R → Prop
  | .done _ => True
  | .raise _ => True
  | .ask q k => P q ∧ ∀ a, (k a).Asks P

@[simp] theorem pure_eq (r : R) : (pure r : Txn Q A ε R) = .done r := rfl

@[simp] theorem done_bind (r : R) (f : R → Txn Q A ε T) : (Txn.done r >>= f) = f r := rfl

@[simp] theorem raise_bind (e : ε) (f : R → Txn Q A ε T) :
    ((Txn.raise e : Txn Q A ε R) >>= f) = .raise e := rfl

@[simp] theorem ask_bind (q : Q) (k : A q → Txn Q A ε R) (f : R → Txn Q A ε T) :
    (Txn.ask q k >>= f) = .ask q fun a => k a >>= f := rfl

@[simp] theorem query_bind (q : Q) (f : A q → Txn Q A ε T) :
    (query q >>= f) = .ask q f := rfl

theorem bind_assoc {U : Type} (p : Txn Q A ε R) (f : R → Txn Q A ε T) (g : T → Txn Q A ε U) :
    p >>= f >>= g = p >>= fun r => f r >>= g := by
  induction p with
  | done r => rfl
  | raise e => rfl
  | ask q k ih => exact congrArg (Txn.ask q) (funext ih)

theorem asks_of_forall {P : Q → Prop} (hP : ∀ q, P q) (p : Txn Q A ε R) : p.Asks P := by
  induction p with
  | done r => trivial
  | raise e => trivial
  | ask q k ih => exact ⟨hP q, ih⟩

theorem Asks.imp {P P' : Q → Prop} {p : Txn Q A ε R} (h : p.Asks P) (himp : ∀ q, P q → P' q) :
    p.Asks P' := by
  induction p with
  | done r => trivial
  | raise e => trivial
  | ask q k ih => exact ⟨himp q h.1, fun a => ih a (h.2 a)⟩

theorem Asks.bind {P : Q → Prop} {p : Txn Q A ε R} {f : R → Txn Q A ε T} (h : p.Asks P)
    (hf : ∀ r, (f r).Asks P) : (p >>= f).Asks P := by
  induction p with
  | done r => exact hf r
  | raise e => trivial
  | ask q k ih => exact ⟨h.1, fun a => ih a (h.2 a)⟩

theorem bind_done (p : Txn Q A ε R) : p >>= Txn.done = p := by
  induction p with
  | done r => rfl
  | raise e => rfl
  | ask q k ih => exact congrArg (Txn.ask q) (funext ih)

end Txn

section Safe

variable {σ Ω Q : Type} {A : Q → Type} {ε R T : Type}

/-- Every result of the program satisfies `post` from then on, under interference `rely` and
    environment answers within `good`. -/
def Safe (ans : Ω → σ → (q : Q) → A q) (rely : σ → σ → Prop) (good : σ → Q → Ω → Prop)
    (post : σ → R → Prop) : Txn Q A ε R → σ → Prop
  | .done r, s => ∀ t, rely s t → post t r
  | .raise _, _ => True
  | .ask q k, s => ∀ t ω, rely s t → good t q ω → Safe ans rely good post (k (ans ω t q)) t

variable {ans : Ω → σ → (q : Q) → A q} {rely : σ → σ → Prop} {good : σ → Q → Ω → Prop}
  {post post' : σ → R → Prop}

/-- Safety is stable under interference. -/
theorem Safe.weaken (htrans : ∀ s t u, rely s t → rely t u → rely s u)
    {p : Txn Q A ε R} {s t : σ} (h : Safe ans rely good post p s) (hst : rely s t) :
    Safe ans rely good post p t := by
  cases p with
  | done r => exact fun u hu => h u (htrans s t u hst hu)
  | raise e => trivial
  | ask q k => exact fun u ω hu hg => h u ω (htrans s t u hst hu) hg

theorem Safe.imp {p : Txn Q A ε R} {s : σ} (h : Safe ans rely good post p s)
    (himp : ∀ t r, post t r → post' t r) : Safe ans rely good post' p s := by
  induction p generalizing s with
  | done r => exact fun t ht => himp t r (h t ht)
  | raise e => trivial
  | ask q k ih => exact fun t ω ht hg => ih _ (h t ω ht hg)

theorem Safe.and {p : Txn Q A ε R} {s : σ} (h : Safe ans rely good post p s)
    (h' : Safe ans rely good post' p s) :
    Safe ans rely good (fun t r => post t r ∧ post' t r) p s := by
  induction p generalizing s with
  | done r => exact fun t ht => ⟨h t ht, h' t ht⟩
  | raise e => trivial
  | ask q k ih => exact fun t ω ht hg => ih _ (h t ω ht hg) (h' t ω ht hg)

/-- Every program is safe for a result that says nothing. -/
theorem safe_true (p : Txn Q A ε R) (s : σ) : Safe ans rely good (fun _ _ => True) p s := by
  induction p generalizing s with
  | done r => exact fun _ _ => trivial
  | raise e => trivial
  | ask q k ih => exact fun t ω _ _ => ih _ t

/-- Sequencing: the continuation has to be safe wherever the first part's result is. -/
theorem Safe.bind {post₂ : σ → T → Prop} {p : Txn Q A ε R} {f : R → Txn Q A ε T} {s : σ}
    (h : Safe ans rely good post p s) (hrefl : rely s s)
    (hr : ∀ t u, rely t u → rely u u)
    (hf : ∀ t r, post t r → Safe ans rely good post₂ (f r) t) :
    Safe ans rely good post₂ (p >>= f) s := by
  induction p generalizing s with
  | done r => exact hf s r (h s hrefl)
  | raise e => trivial
  | ask q k ih => exact fun t ω ht hg => ih _ (h t ω ht hg) (hr s t ht)

/-- The end of a safe program: its result satisfies `post` now. -/
theorem Safe.result {r : R} {s : σ}
    (h : Safe ans rely good post (.done r : Txn Q A ε R) s) (hrefl : rely s s) : post s r :=
  h s hrefl

end Safe

end CloudScale.Lib
