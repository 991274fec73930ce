/-
  Transactions that do not overlap.

  When a transaction starts only while none is in flight (`Alone`), nothing interferes with it: a
  program that is `Safe` without interference leaves what it computed from the database its writes
  are committed to. `Serial` packages the rule: an invariant that every such commit keeps holds in
  every state of every run (`Serial.reaches`), and every step changes nothing or is such a commit
  (`Serial.step_cases`).
-/
import CloudScale.Lib.Server

namespace CloudScale.Lib

variable {Δ X τ Ω Q : Type} {A : Q → Type} {ε W : Type}

/-- A transaction starts only while none is in flight. -/
def Alone (srv : Server Δ X τ Q A ε W) : Label τ Ω → Prop
  | .start _ => srv.active = []
  | .move _ => True

instance decidableAlone (srv : Server Δ X τ Q A ε W) : ∀ l : Label τ Ω, Decidable (Alone srv l)
  | .start _ => decidable_of_iff (srv.active.isEmpty = true) List.isEmpty_iff
  | .move _ => isTrue trivial

structure Serial (S : Service Δ X τ Ω Q A ε W) (ans : Ω → Δ → (q : Q) → A q) (Inv : Δ → Prop)
    (post : Ticket Δ τ → Δ → W → Prop) : Prop where
  answer : ∀ ω x db q, S.answer ω x db q = ans ω db q
  start : ∀ tid r db, Safe ans (· = ·) (fun _ _ _ => True) (post ⟨tid, r, db⟩) (S.prog tid r) db
  commit : ∀ tk db w db', Inv db → post tk db w → S.commit w db = some db' → Inv db'

namespace Serial

variable {S : Service Δ X τ Ω Q A ε W} {ans : Ω → Δ → (q : Q) → A q} {Inv : Δ → Prop}
  {post : Ticket Δ τ → Δ → W → Prop} {srv srv' : Server Δ X τ Q A ε W}

/-- At most one transaction is in flight, and nothing has interfered with it. -/
structure Undisturbed (ans : Ω → Δ → (q : Q) → A q) (Inv : Δ → Prop)
    (post : Ticket Δ τ → Δ → W → Prop) (srv : Server Δ X τ Q A ε W) : Prop where
  inv : Inv srv.db
  single : srv.active.length ≤ 1
  safe : srv.AllSafe ans (· = ·) (fun _ _ _ _ => True) post srv.db

/-- A step changes nothing in the database, or commits what one transaction left. -/
theorem step_cases (hu : Undisturbed ans Inv post srv) {l : Label τ Ω}
    (h : S.step srv l = some srv') : srv'.db = srv.db ∨
      ∃ a w, a ∈ srv.active ∧ post a.toTicket srv.db w ∧ S.commit w srv.db = some srv'.db := by
  cases l with
  | start r =>
    cases h
    exact Or.inl rfl
  | move m =>
    rcases Service.move_db h with hdb | ⟨i, a, w, -, ha, hp, hc⟩
    · exact Or.inl hdb
    · have hmem := List.mem_of_getElem? ha
      exact Or.inr ⟨a, w, hmem, allSafe_result hu.safe hmem hp rfl, hc⟩

theorem undisturbed_step (R : Serial S ans Inv post) (hu : Undisturbed ans Inv post srv)
    {l : Label τ Ω} (hok : Alone srv l) (h : S.step srv l = some srv') :
    Undisturbed ans Inv post srv' := by
  have hinv : Inv srv'.db := by
    rcases step_cases hu h with hdb | ⟨a, w, -, hpost, hc⟩
    · exact hdb ▸ hu.inv
    · exact R.commit _ _ _ _ hu.inv hpost hc
  cases l with
  | start r =>
    cases h
    have hidle : srv.active = [] := hok
    refine ⟨hinv, ?_, allSafe_start hu.safe (R.start _ _ _)⟩
    show (srv.active ++ [_]).length ≤ 1
    rw [hidle]
    exact Nat.le_refl 1
  | move m =>
    have hgood : GoodMove (fun _ _ _ _ => True) srv srv.db m :=
      goodMove_of_forall (fun _ _ _ _ => trivial) m
    obtain ⟨i, a, ha, ⟨ω, q, k, -, -, rfl⟩ | ⟨w, db, -, -, -, rfl⟩ | ⟨v, -, rfl⟩⟩ :=
      Service.move_cases h
    · refine ⟨hinv, ?_, allSafe_move hu.safe h rfl (fun ω q => R.answer _ _ _ _) hgood⟩
      show (srv.active.set i _).length ≤ 1
      rw [List.length_set]
      exact hu.single
    · -- the transaction that ends was the only one
      have hnone : srv.active.eraseIdx i = [] := by
        obtain ⟨hi, -⟩ := List.getElem?_eq_some_iff.mp ha
        have hlength := List.length_eraseIdx_of_lt hi
        have hsingle := hu.single
        exact List.length_eq_zero_iff.mp (by omega)
      refine ⟨hinv, ?_, fun a' ha' => ?_⟩
      · exact Nat.le_trans (List.length_eraseIdx_le _ _) hu.single
      · have hmem : a' ∈ srv.active.eraseIdx i := ha'
        rw [hnone] at hmem
        exact absurd hmem List.not_mem_nil
    · refine ⟨hinv, Nat.le_trans (List.length_eraseIdx_le _ _) hu.single, ?_⟩
      exact fun a' ha' => hu.safe a' (List.mem_of_mem_eraseIdx ha')

/-- The invariant holds in every state of every run without overlap. -/
theorem reaches (R : Serial S ans Inv post) {ls : List (Label τ Ω)} {db : Δ} {x : X}
    (h : Reaches S.step Alone (Server.init db x) ls srv) (hinit : Inv db) :
    Undisturbed ans Inv post srv := by
  have hstart : Undisturbed ans Inv post (Server.init db x : Server Δ X τ Q A ε W) :=
    ⟨hinit, Nat.zero_le 1, allSafe_init _ _⟩
  exact h.invariant (Undisturbed ans Inv post) hstart fun _ _ _ hu hok hs =>
    R.undisturbed_step hu hok hs

end Serial

end CloudScale.Lib
