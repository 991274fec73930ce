/-
  Stages of the transactions in flight.

  A stage is a property of a request and of what is left of its program. `inStage` is the number of
  transactions in flight that are at a stage; `inStage_start`, `inStage_advance` and `inStage_close`
  say what each step of a server makes of it.

  `Gated`: a program comes to the stage only through an answer that opens it. So the number grows
  only when such an answer is given (`inStage_gated`), and a limit on it is a matter of when they
  are.

  Where requests compete for names, `atStage` is the set of the names wanted at the stage;
  `atStage_gated`, `atStage_start` and `atStage_close` are the same rules for it.
-/
import Mathlib.Data.Finset.Dedup
import Mathlib.Data.Finset.Option
import CloudScale.Lib.Server

namespace CloudScale.Lib

variable {Δ X τ Ω Q : Type} {A : Q → Type} {ε R W : Type}

/-! ## Counting -/

def Server.inStage (stage : τ → Txn Q A ε W → Bool) (srv : Server Δ X τ Q A ε W) : ℕ :=
  srv.active.countP fun a => stage a.req a.prog

section Counting

variable {S : Service Δ X τ Ω Q A ε W} {srv : Server Δ X τ Q A ε W}
  (stage : τ → Txn Q A ε W → Bool) {i : ℕ} {a : Active Δ τ Q A ε W}

@[simp] theorem inStage_init (db : Δ) (x : X) :
    (Server.init db x : Server Δ X τ Q A ε W).inStage stage = 0 := rfl

theorem inStage_start (r : τ) : (S.start srv r).inStage stage =
    srv.inStage stage + (stage r (S.prog srv.next r)).toNat := by
  have hone : [(⟨⟨srv.next, r, srv.db⟩, S.prog srv.next r⟩ : Active Δ τ Q A ε W)].countP
      (fun a => stage a.req a.prog) = (stage r (S.prog srv.next r)).toNat := by
    rw [List.countP_singleton]
    cases stage r (S.prog srv.next r) with
    | false => rfl
    | true => rfl
  unfold Server.inStage Service.start
  rw [List.countP_append, hone]

theorem countP_eraseIdx (p : Active Δ τ Q A ε W → Bool) (ha : srv.active[i]? = some a) :
    (srv.active.eraseIdx i).countP p + (p a).toNat = srv.active.countP p := by
  obtain ⟨hi, rfl⟩ := List.getElem?_eq_some_iff.mp ha
  rw [← (List.getElem_cons_eraseIdx_perm hi).countP_eq p, List.countP_cons]
  cases p srv.active[i] with
  | false => rfl
  | true => rfl

theorem inStage_close (ha : srv.active[i]? = some a) (v : Verdict ε W) :
    (srv.close i a v).inStage stage + (stage a.req a.prog).toNat = srv.inStage stage :=
  countP_eraseIdx (fun a => stage a.req a.prog) ha

theorem inStage_advance (ha : srv.active[i]? = some a) (x : X) (p : Txn Q A ε W) :
    Server.inStage stage { srv with world := x, active := srv.active.set i { a with prog := p } } +
      (stage a.req a.prog).toNat = srv.inStage stage + (stage a.req p).toNat := by
  have herase := countP_eraseIdx (fun a => stage a.req a.prog) ha
  have hset : (srv.active.set i { a with prog := p }).countP (fun a => stage a.req a.prog) =
      (srv.active.eraseIdx i).countP (fun a => stage a.req a.prog) + (stage a.req p).toNat := by
    have hi := (List.getElem?_eq_some_iff.mp ha).1
    rw [(List.set_perm_cons_eraseIdx hi _).countP_eq, List.countP_cons]
    cases stage a.req p with
    | false => rfl
    | true => rfl
  unfold Server.inStage
  dsimp only at hset ⊢
  omega

end Counting

/-! ## Gates -/

/-- Answered within `allowed`, the program comes to the stage only by an answer that opens it. -/
def Gated (stage : Txn Q A ε R → Bool) (allowed opens : (q : Q) → A q → Prop) :
    Txn Q A ε R → Prop
  | .done _ => True
  | .raise _ => True
  | .ask q k => ∀ x, allowed q x → (stage (k x) = true → stage (.ask q k) = true ∨ opens q x) ∧
      Gated stage allowed opens (k x)

/-- A stage that no program reaches needs no gate. -/
theorem gated_of_never {stage : Txn Q A ε R → Bool} {allowed opens : (q : Q) → A q → Prop}
    (h : ∀ p, stage p = false) (p : Txn Q A ε R) : Gated stage allowed opens p := by
  induction p with
  | done r => trivial
  | raise e => trivial
  | ask q k ih => exact fun x _ => ⟨fun hx => absurd hx (by rw [h]; decide), ih x⟩

/-- A program whose queries do not belong to the stage needs none either. -/
theorem gated_of_asks {stage : Txn Q A ε R → Bool} {allowed opens : (q : Q) → A q → Prop}
    {P : Q → Prop} (hdone : ∀ r, stage (.done r) = false) (hraise : ∀ e, stage (.raise e) = false)
    (hask : ∀ q k, P q → stage (.ask q k) = false) {p : Txn Q A ε R} (h : p.Asks P) :
    Gated stage allowed opens p := by
  induction p with
  | done r => trivial
  | raise e => trivial
  | ask q k ih =>
    refine fun x _ => ⟨fun hx => ?_, ih x (h.2 x)⟩
    have hrest := h.2 x
    cases hk : k x with
    | done r => exact absurd (hk ▸ hx) (by rw [hdone]; decide)
    | raise e => exact absurd (hk ▸ hx) (by rw [hraise]; decide)
    | ask q' k' =>
      rw [hk] at hx hrest
      exact absurd hx (by rw [hask q' k' hrest.1]; decide)

section AllGated

variable (stage : τ → Txn Q A ε W → Bool) (allowed opens : τ → (q : Q) → A q → Prop)

def Server.AllGated (srv : Server Δ X τ Q A ε W) : Prop :=
  ∀ a ∈ srv.active, Gated (stage a.req) (allowed a.req) (opens a.req) a.prog

variable {stage allowed opens} {S : Service Δ X τ Ω Q A ε W} {srv srv' : Server Δ X τ Q A ε W}

theorem allGated_init (db : Δ) (x : X) :
    (Server.init db x : Server Δ X τ Q A ε W).AllGated stage allowed opens :=
  fun _ h => absurd h List.not_mem_nil

theorem allGated_start {r : τ} (h : srv.AllGated stage allowed opens)
    (hr : Gated (stage r) (allowed r) (opens r) (S.prog srv.next r)) :
    (S.start srv r).AllGated stage allowed opens := by
  intro a ha
  rcases Service.mem_start ha with ha | rfl
  · exact h a ha
  · exact hr

theorem Server.AllGated.sub (h : srv.AllGated stage allowed opens)
    (hsub : ∀ a ∈ srv'.active, a ∈ srv.active) : srv'.AllGated stage allowed opens :=
  fun a ha => h a (hsub a ha)

/-- An answer that is allowed keeps the gates. -/
theorem allGated_advance {i : ℕ} {a : Active Δ τ Q A ε W} {q : Q} {k : A q → Txn Q A ε W}
    (h : srv.AllGated stage allowed opens) (ha : srv.active[i]? = some a) (hp : a.prog = .ask q k)
    {x : A q} (hx : allowed a.req q x) (y : X) :
    let srv' := { srv with world := y, active := srv.active.set i { a with prog := k x } }
    srv'.AllGated stage allowed opens ∧
      (stage a.req (k x) = true → stage a.req (.ask q k) = true ∨ opens a.req q x) := by
  have hgated := h a (List.mem_of_getElem? ha)
  rw [hp] at hgated
  obtain ⟨hstage, hrest⟩ := hgated x hx
  refine ⟨fun b hb => ?_, hstage⟩
  rcases List.mem_or_eq_of_mem_set hb with hb | rfl
  · exact h b hb
  · exact hrest

/-- An allowed answer keeps the gates, and lets one more transaction through only if it opens one.
    -/
theorem inStage_gated {i : ℕ} {a : Active Δ τ Q A ε W} {q : Q} {k : A q → Txn Q A ε W}
    (h : srv.AllGated stage allowed opens) (ha : srv.active[i]? = some a) (hp : a.prog = .ask q k)
    (x : A q) (hx : allowed a.req q x) (y : X) :
    let srv' := { srv with world := y, active := srv.active.set i { a with prog := k x } }
    srv'.AllGated stage allowed opens ∧
      (srv'.inStage stage ≤ srv.inStage stage ∨
        opens a.req q x ∧ srv'.inStage stage ≤ srv.inStage stage + 1) := by
  obtain ⟨hgated, hstage⟩ := allGated_advance h ha hp hx y
  have hcount := inStage_advance stage ha y (k x)
  rw [hp] at hcount
  refine ⟨hgated, ?_⟩
  by_cases hnext : stage a.req (k x) = true
  · rcases hstage hnext with hnow | hopens
    · rw [hnow, hnext] at hcount
      exact .inl (by omega)
    · rw [hnext] at hcount
      exact .inr ⟨hopens, by simp only [Bool.toNat_true] at hcount; omega⟩
  · rw [Bool.not_eq_true] at hnext
    rw [hnext] at hcount
    exact .inl (by simp only [Bool.toNat_false] at hcount; omega)

end AllGated

/-! ## Names -/

section Names

variable {κ : Type} [DecidableEq κ] (stage : τ → Txn Q A ε W → Bool) (name : τ → Option κ)

/-- The names of the requests in flight that are at a stage. -/
def Server.atStage (srv : Server Δ X τ Q A ε W) : Finset κ :=
  (srv.active.filterMap fun a => if stage a.req a.prog then name a.req else none).toFinset

variable {stage name} {S : Service Δ X τ Ω Q A ε W} {srv : Server Δ X τ Q A ε W} {i : ℕ}
  {a : Active Δ τ Q A ε W}

theorem mem_atStage {n : κ} : n ∈ srv.atStage stage name ↔
    ∃ a ∈ srv.active, stage a.req a.prog = true ∧ name a.req = some n := by
  unfold Server.atStage
  rw [List.mem_toFinset, List.mem_filterMap]
  refine exists_congr fun a => and_congr_right fun _ => ?_
  by_cases hstage : stage a.req a.prog = true
  · simp [hstage]
  · simp [hstage]

theorem atStage_start {r : τ} (h : stage r (S.prog srv.next r) = false) :
    (S.start srv r).atStage stage name ⊆ srv.atStage stage name := by
  intro n hn
  obtain ⟨a, ha, hstage, hname⟩ := mem_atStage.mp hn
  rcases Service.mem_start ha with ha | rfl
  · exact mem_atStage.mpr ⟨a, ha, hstage, hname⟩
  · exact absurd (h.symm.trans hstage) Bool.false_ne_true

theorem atStage_close (v : Verdict ε W) :
    (srv.close i a v).atStage stage name ⊆ srv.atStage stage name := by
  intro n hn
  obtain ⟨b, hb, hstage, hname⟩ := mem_atStage.mp hn
  exact mem_atStage.mpr ⟨b, List.mem_of_mem_eraseIdx hb, hstage, hname⟩

/-- An allowed answer adds at most the name of the request that it lets through. -/
theorem atStage_gated (name : τ → Option κ) {allowed opens : τ → (q : Q) → A q → Prop} {q : Q}
    {k : A q → Txn Q A ε W} (h : srv.AllGated stage allowed opens)
    (ha : srv.active[i]? = some a) (hp : a.prog = .ask q k) (x : A q)
    (hx : allowed a.req q x) (y : X) :
    let srv' := { srv with world := y, active := srv.active.set i { a with prog := k x } }
    srv'.AllGated stage allowed opens ∧
      (srv'.atStage stage name ⊆ srv.atStage stage name ∨
        opens a.req q x ∧
          srv'.atStage stage name ⊆ (name a.req).toFinset ∪ srv.atStage stage name) := by
  obtain ⟨hgated, hstage⟩ := allGated_advance h ha hp hx y
  have hold : ∀ b ∈ srv.active, ∀ n, stage b.req b.prog = true → name b.req = some n →
      n ∈ srv.atStage stage name := fun b hb n hb' hn => mem_atStage.mpr ⟨b, hb, hb', hn⟩
  refine ⟨hgated, ?_⟩
  by_cases hopens : opens a.req q x
  · refine .inr ⟨hopens, fun n hn => Finset.mem_union.mpr ?_⟩
    obtain ⟨b, hb, hb', hname⟩ := mem_atStage.mp hn
    rcases List.mem_or_eq_of_mem_set hb with hb | rfl
    · exact .inr (hold b hb n hb' hname)
    · exact .inl (Option.mem_toFinset.mpr hname)
  · refine .inl fun n hn => ?_
    obtain ⟨b, hb, hb', hname⟩ := mem_atStage.mp hn
    rcases List.mem_or_eq_of_mem_set hb with hb | rfl
    · exact hold b hb n hb' hname
    · have hnow := (hstage hb').resolve_right hopens
      exact hold a (List.mem_of_getElem? ha) n (hp ▸ hnow) hname

end Names

end CloudScale.Lib
