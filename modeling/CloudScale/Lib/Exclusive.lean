/-
  Transactions that look a mark up and set it.

  A program of a `MarkCheck` looks the mark up, passes only when it finds it absent, and sets it
  before it takes what the mark stands for. The lookup and the set are two steps, so several
  transactions can pass. `Unraced` says that none passes while another that has passed is in flight,
  nor when the mark has been set; along such runs at most one takes (`taken_le_one`).
-/
import CloudScale.Lib.Environment
import CloudScale.Lib.Stages

namespace CloudScale.Lib

variable {Δ X τ Ω Q D : Type} {A : Q → Type} {ε W : Type}

/-- Programs that look a mark up and set it: when a program is past its lookup, which answer lets it
    pass, which results take, which queries set the mark, and where it has been set. The requests it
    admits ask only queries that keep the mark. -/
structure MarkCheck (S : Service Δ X τ Ω Q A ε W) where
  past : τ → Txn Q A ε W → Bool
  absent : τ → (q : Q) → A q → Prop
  takes : τ → W → Bool
  sets : Q → Prop
  marked : X → Prop
  admits : τ → Prop
  keeps : Q → Prop
  gated : ∀ tid r, Gated (past r) (fun _ _ => True) (absent r) (S.prog tid r)
  start : ∀ tid r, past r (S.prog tid r) = false
  ends : ∀ tid r, Ends (fun q _ => ¬ sets q) (fun w => takes r w = false) (fun _ => True)
    (S.prog tid r)
  takes_past : ∀ r w, takes r w = true → past r (.done w) = true
  effect_sets : ∀ q x, sets q → marked (S.effect q x)
  asks : ∀ tid r, admits r → (S.prog tid r).Asks keeps
  effect_marked : ∀ q x, keeps q → marked x → marked (S.effect q x)

namespace MarkCheck

variable {S : Service Δ X τ Ω Q A ε W} (C : MarkCheck S)

/-- The transactions that took. -/
def taken (srv : Server Δ X τ Q A ε W) : ℕ := srv.committed.countP fun rw => C.takes rw.1 rw.2

/-- No transaction passes when the mark has been set or another is past its lookup. -/
def Unraced (srv : Server Δ X τ Q A ε W) : Move Ω → Prop
  | .advance i ω => ∀ a, srv.active[i]? = some a → ∀ q k, a.prog = .ask q k →
      C.absent a.req q (S.answer ω srv.world srv.db q) →
      ¬ C.marked srv.world ∧ srv.inStage C.past = 0
  | _ => True

structure Exclusive (srv : Server Δ X τ Q A ε W) : Prop where
  asks : srv.AllAsk fun _ => C.keeps
  gated : srv.AllGated C.past (fun _ _ _ => True) C.absent
  ends : ¬ C.marked srv.world → srv.AllEnd (fun _ => True) (fun _ q _ => ¬ C.sets q)
    (fun r w => C.takes r w = false) (fun _ _ => True)
  one : C.taken srv + srv.inStage C.past ≤ 1
  unmarked : ¬ C.marked srv.world → C.taken srv = 0

variable {C} {srv srv' : Server Δ X τ Q A ε W}

theorem exclusive_init (db : Δ) (x : X) : C.Exclusive (Server.init db x) where
  asks := allAsk_init db x
  gated := allGated_init db x
  ends _ := allEnd_init db x
  one := Nat.zero_le 1
  unmarked _ := rfl

theorem exclusive_drift {x : X} (h : C.Exclusive srv) (hx : C.marked srv.world → C.marked x) :
    C.Exclusive { srv with world := x } where
  asks := h.asks
  gated := h.gated
  ends hnot := h.ends (mt hx hnot)
  one := h.one
  unmarked hnot := h.unmarked (mt hx hnot)

theorem exclusive_start {r : τ} (h : C.Exclusive srv) (hr : C.admits r) :
    C.Exclusive (S.start srv r) where
  asks := allAsk_start h.asks (C.asks _ r hr)
  gated := allGated_start h.gated (C.gated _ r)
  ends hnot := allEnd_start (h.ends hnot) fun _ => C.ends _ r
  one := by
    rw [inStage_start, C.start]
    exact h.one
  unmarked := h.unmarked

theorem taken_close {i : ℕ} {a : Active Δ τ Q A ε W} {v : Verdict ε W}
    (hv : ∀ w, v ≠ .committed w) : C.taken (srv.close i a v) = C.taken srv := by
  unfold taken
  rw [Server.close_uncommitted hv]

theorem taken_commit {i : ℕ} {a : Active Δ τ Q A ε W} {w : W} (db : Δ) :
    C.taken { srv.close i a (.committed w) with db := db } =
      C.taken srv + (C.takes a.req w).toNat := by
  have hcommitted : ({ srv.close i a (.committed w) with db := db } :
      Server Δ X τ Q A ε W).committed = (a.req, w) :: srv.committed := rfl
  unfold taken
  rw [hcommitted, List.countP_cons]
  cases C.takes a.req w with
  | false => rfl
  | true => rfl

/-- A move keeps the bound: only an answer that finds the mark absent lets a transaction pass, and
    where none has taken yet. -/
theorem exclusive_move {m : Move Ω} (h : C.Exclusive srv) (hok : C.Unraced srv m)
    (hm : S.move srv m = some srv') : C.Exclusive srv' := by
  have hall := allAsk_move h.asks hm
  obtain ⟨i, a, ha, ⟨ω, q, k, rfl, hp, rfl⟩ | ⟨w, db, rfl, hp, hc, rfl⟩ | ⟨v, hv, rfl⟩⟩ :=
    Service.move_cases hm
  · obtain ⟨hgated, hcount⟩ :=
      inStage_gated h.gated ha hp (S.answer ω srv.world srv.db q) trivial (S.effect q srv.world)
    have hasks := h.asks a (List.mem_of_getElem? ha)
    rw [hp] at hasks
    have hkeep : ¬ C.marked (S.effect q srv.world) → ¬ C.marked srv.world :=
      mt (C.effect_marked q _ hasks.1)
    refine ⟨hall, hgated, fun hnot => ?_, ?_, fun hnot => h.unmarked (hkeep hnot)⟩
    · refine allEnd_move (h.ends (hkeep hnot)) hm fun b hb q' k' hp' _ hsets => ?_
      obtain rfl : a = b := Option.some.inj (ha.symm.trans hb)
      cases hp.symm.trans hp'
      exact hnot (C.effect_sets q _ hsets)
    · have hone := h.one
      rcases hcount with hcount | ⟨habsent, hcount⟩
      · exact Nat.le_trans (Nat.add_le_add_left hcount _) hone
      · obtain ⟨hnot, hnone⟩ := hok a ha q k hp habsent
        have htaken := h.unmarked hnot
        have hsame : C.taken { srv with
            world := S.effect q srv.world
            active := srv.active.set i
              { a with prog := k (S.answer ω srv.world srv.db q) } } = C.taken srv := rfl
        omega
  · have hcount := inStage_close C.past ha (.committed w)
    have hpast : (C.takes a.req w).toNat ≤ (C.past a.req a.prog).toNat := by
      rw [hp]
      cases htakes : C.takes a.req w with
      | false => exact Nat.zero_le _
      | true => simp only [C.takes_past _ _ htakes, Bool.toNat_true, Nat.le_refl]
    have hone := h.one
    refine ⟨hall, h.gated.sub fun b hb => List.mem_of_mem_eraseIdx hb,
      fun hnot b hb => h.ends hnot b (List.mem_of_mem_eraseIdx hb), ?_, fun hnot => ?_⟩
    · rw [taken_commit]
      show C.taken srv + (C.takes a.req w).toNat + (srv.close i a (.committed w)).inStage C.past ≤ 1
      omega
    · have htakes := allEnd_done (h.ends hnot) (List.mem_of_getElem? ha) trivial hp
      rw [taken_commit, htakes, h.unmarked hnot]
      rfl
  · have hcount := inStage_close C.past ha v
    have hone := h.one
    refine ⟨hall, h.gated.sub fun b hb => List.mem_of_mem_eraseIdx hb,
      fun hnot b hb => h.ends hnot b (List.mem_of_mem_eraseIdx hb), ?_, fun hnot => ?_⟩
    · rw [taken_close hv]
      omega
    · rw [taken_close hv]
      exact h.unmarked hnot

/-- Along every run in which no lookup is raced, at most one transaction takes. -/
theorem taken_le_one {drift : D → X → Option X}
    {ok : Server Δ X τ Q A ε W → EnvLabel D (Label τ Ω) → Prop} {db : Δ} {x : X}
    {ls : List (EnvLabel D (Label τ Ω))}
    (h : Reaches (S.stepIn drift) ok (Server.init db x) ls srv)
    (hdrift : ∀ s d x', ok s (.drift d) → drift d s.world = some x' → C.marked s.world →
      C.marked x')
    (hstart : ∀ s r, ok s (.act (.start r)) → C.admits r)
    (hok : ∀ s m, ok s (.act (.move m)) → C.Unraced s m) : C.taken srv ≤ 1 := by
  have hexclusive : C.Exclusive srv := by
    refine h.inEnvironment C.Exclusive (exclusive_init db x) ?_ ?_ ?_
    · exact fun s d x' hs hd hx => exclusive_drift hs (hdrift s d x' hd hx)
    · exact fun s r hs hr => exclusive_start hs (hstart s r hr)
    · exact fun s m s' hs hm hstep => exclusive_move hs (hok s m hm) hstep
  exact Nat.le_trans (Nat.le_add_right _ _) hexclusive.one

end MarkCheck

end CloudScale.Lib
