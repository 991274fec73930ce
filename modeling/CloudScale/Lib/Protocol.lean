/-
  Transaction programs that follow a protocol.

  A `Protocol` keeps a local state for one transaction: which query it may ask in it, which answers
  it has to be prepared for, and the local state after an answer. `Follows P post p c`: started in
  the local state `c`, the program `p` asks only what it may, and every result satisfies `post` in
  the local state it ends in. Nothing else of the system shows in it, so a program is checked once
  (`Follows.bind`), and a system that keeps the local states true may rely on it at every query.
-/
import CloudScale.Lib.Txn

namespace CloudScale.Lib

structure Protocol (κ Q : Type) (A : Q → Type) where
  may : κ → Q → Prop
  fits : κ → (q : Q) → A q → Prop
  next : κ → (q : Q) → A q → κ

variable {κ Q : Type} {A : Q → Type} {ε R T : Type}

def Follows (P : Protocol κ Q A) (post : κ → R → Prop) : Txn Q A ε R → κ → Prop
  | .done r, c => post c r
  | .raise _, _ => True
  | .ask q k, c => P.may c q ∧ ∀ a, P.fits c q a → Follows P post (k a) (P.next c q a)

variable {P : Protocol κ Q A} {post post' : κ → R → Prop}

theorem Follows.imp {p : Txn Q A ε R} {c : κ} (h : Follows P post p c)
    (himp : ∀ c r, post c r → post' c r) : Follows P post' p c := by
  induction p generalizing c with
  | done r => exact himp c r h
  | raise e => trivial
  | ask q k ih => exact ⟨h.1, fun a ha => ih a (h.2 a ha)⟩

/-- Sequencing: the second part starts in the local state the first ends in. -/
theorem Follows.bind {post₂ : κ → T → Prop} {p : Txn Q A ε R} {f : R → Txn Q A ε T} {c : κ}
    (h : Follows P post p c) (hf : ∀ c r, post c r → Follows P post₂ (f r) c) :
    Follows P post₂ (p >>= f) c := by
  induction p generalizing c with
  | done r => exact hf c r h
  | raise e => trivial
  | ask q k ih => exact ⟨h.1, fun a ha => ih a (h.2 a ha)⟩

end CloudScale.Lib
