/-
  The history of a run: which transaction was answered what, and which one committed.

  `Service.recorded` is the server with its history, latest entry first; what an entry says of the
  database is a history variable, no program reads it. `Accounts` is a rule for programs: the result
  is accounted for by the answers heard on the way. `accounted_step` carries it along every run, and
  `changed_since`: a value that is no longer what it was when a query was answered was made what it
  is by a commit recorded since.
-/
import CloudScale.Lib.Server

namespace CloudScale.Lib

/-- An entry of the history: a transaction was answered a query in the database `db`, or its commit
    took the database from `before` to `after`. -/
inductive Access (Δ Q : Type) (A : Q → Type) where
  | asked (tid : ℕ) (db : Δ) (q : Q) (x : A q)
  | committed (tid : ℕ) (before after : Δ)

variable {Δ X τ Ω Q : Type} {A : Q → Type} {ε W R T : Type}

/-- The answers that a transaction has heard, latest first. -/
def heardBy (tid : ℕ) (history : List (Access Δ Q A)) : List ((q : Q) × A q) :=
  history.filterMap fun
    | .asked tid' _ q x => if tid' = tid then some ⟨q, x⟩ else none
    | .committed _ _ _ => none

section Heard

variable {tid tid' : ℕ} {db before after : Δ} {q : Q} {x : A q} {history : List (Access Δ Q A)}

@[simp] theorem heardBy_asked : heardBy tid (.asked tid db q x :: history) =
    ⟨q, x⟩ :: heardBy tid history := by
  simp [heardBy]

theorem heardBy_asked_of_ne (h : tid' ≠ tid) :
    heardBy tid (.asked tid' db q x :: history) = heardBy tid history := by
  simp [heardBy, h]

@[simp] theorem heardBy_committed :
    heardBy tid (.committed tid' before after :: history) = heardBy tid history := rfl

theorem mem_heardBy : ⟨q, x⟩ ∈ heardBy tid history ↔ ∃ db, .asked tid db q x ∈ history := by
  induction history with
  | nil => simp [heardBy]
  | cons e history ih =>
    cases e with
    | asked tid' db' q' x' =>
      by_cases h : tid' = tid
      · subst h
        rw [heardBy_asked, List.mem_cons, ih]
        constructor
        · rintro (heq | ⟨db, hdb⟩)
          · cases heq
            exact ⟨db', List.mem_cons_self⟩
          · exact ⟨db, List.mem_cons_of_mem _ hdb⟩
        · rintro ⟨db, hdb⟩
          rcases List.mem_cons.mp hdb with heq | hdb
          · cases heq
            exact Or.inl rfl
          · exact Or.inr ⟨db, hdb⟩
      · rw [heardBy_asked_of_ne h, ih]
        refine exists_congr fun db => ⟨List.mem_cons_of_mem _, fun hdb => ?_⟩
        rcases List.mem_cons.mp hdb with heq | hdb
        · cases heq
          exact absurd rfl h
        · exact hdb
    | committed tid' before after =>
      rw [heardBy_committed, ih]
      exact exists_congr fun db => by simp

theorem heardBy_eq_nil (h : ∀ db q x, .asked tid db q x ∉ history) : heardBy tid history = [] := by
  refine List.eq_nil_iff_forall_not_mem.mpr fun y hy => ?_
  obtain ⟨db, hdb⟩ := mem_heardBy.mp hy
  exact h db y.1 y.2 hdb

end Heard

/-! ## Programs -/

/-- Whatever the program is answered within `allowed`, its result satisfies `post` of all the
    answers it has heard. -/
def Accounts (allowed : (q : Q) → A q → Prop) (post : List ((q : Q) × A q) → R → Prop) :
    List ((q : Q) × A q) → Txn Q A ε R → Prop
  | heard, .done r => post heard r
  | _, .raise _ => True
  | heard, .ask q k => ∀ x, allowed q x → Accounts allowed post (⟨q, x⟩ :: heard) (k x)

section Accounts

variable {allowed : (q : Q) → A q → Prop} {post : List ((q : Q) × A q) → R → Prop}
  {heard : List ((q : Q) × A q)}

/-- Sequencing. -/
theorem Accounts.bind {post' : List ((q : Q) × A q) → T → Prop} {p : Txn Q A ε R}
    {f : R → Txn Q A ε T} (h : Accounts allowed post heard p)
    (hf : ∀ heard r, post heard r → Accounts allowed post' heard (f r)) :
    Accounts allowed post' heard (p >>= f) := by
  induction p generalizing heard with
  | done r => exact hf heard r h
  | raise e => trivial
  | ask q k ih => exact fun x hx => ih x (h x hx)

end Accounts

/-! ## Recorded runs -/

namespace Service

variable (S : Service Δ X τ Ω Q A ε W)

/-- What a step adds to the history. -/
def access (srv : Server Δ X τ Q A ε W) : Label τ Ω → Option (Access Δ Q A)
  | .start _ => none
  | .move (.advance i ω) => (srv.active[i]?).bind fun a => match a.prog with
    | .ask q _ => some (.asked a.tid srv.db q (S.answer ω srv.world srv.db q))
    | _ => none
  | .move (.finish i) => (srv.active[i]?).bind fun a => match a.prog with
    | .done w => (S.commit w srv.db).map fun db => .committed a.tid srv.db db
    | _ => none
  | .move (.crash _) => none

/-- A step of the server with its history. -/
def recorded : Server Δ X τ Q A ε W × List (Access Δ Q A) → Label τ Ω →
    Option (Server Δ X τ Q A ε W × List (Access Δ Q A)) :=
  recording S.step S.access

/-- Some environment answers the query so. -/
def Answers (q : Q) (x : A q) : Prop := ∃ ω world db, S.answer ω world db q = x

variable {S} {s s' : Server Δ X τ Q A ε W × List (Access Δ Q A)}

/-- Everything a move can do to the server and to its history. -/
theorem recorded_cases {m : Move Ω} (h : S.recorded s (.move m) = some s') :
    ∃ i a, s.1.active[i]? = some a ∧
      ((∃ ω q k, m = .advance i ω ∧ a.prog = .ask q k ∧
          s' = ({ s.1 with
            world := S.effect q s.1.world
            active := s.1.active.set i { a with prog := k (S.answer ω s.1.world s.1.db q) } },
            .asked a.tid s.1.db q (S.answer ω s.1.world s.1.db q) :: s.2)) ∨
        (∃ w db, m = .finish i ∧ a.prog = .done w ∧ S.commit w s.1.db = some db ∧
          s' = ({ s.1.close i a (.committed w) with db := db },
            .committed a.tid s.1.db db :: s.2)) ∨
        ∃ v, (∀ w, v ≠ .committed w) ∧ s' = (s.1.close i a v, s.2)) := by
  obtain ⟨hstep, hhistory⟩ := recording_eq_some h
  have hs' : s' = (s'.1, s'.2) := rfl
  rw [hs', hhistory]
  cases m with
  | advance i ω =>
    obtain ⟨a, ha, hstep⟩ := Option.bind_eq_some_iff.mp hstep
    refine ⟨i, a, ha, Or.inl ?_⟩
    unfold advance at hstep
    split at hstep
    · next q k hp =>
      refine ⟨ω, q, k, rfl, hp, ?_⟩
      simp [access, ha, hp, ← Option.some.inj hstep]
    · cases hstep
  | finish i =>
    obtain ⟨a, ha, hstep⟩ := Option.bind_eq_some_iff.mp hstep
    refine ⟨i, a, ha, Or.inr ?_⟩
    unfold finish at hstep
    split at hstep
    · next w hp =>
      split at hstep
      · next db hc =>
        refine Or.inl ⟨w, db, rfl, hp, hc, ?_⟩
        simp [access, ha, hp, hc, ← Option.some.inj hstep]
      · next hc =>
        refine Or.inr ⟨.rejected w, fun _ hv => (by cases hv), ?_⟩
        simp [access, ha, hp, hc, ← Option.some.inj hstep]
    · next e hp =>
      refine Or.inr ⟨.raised e, fun _ hv => (by cases hv), ?_⟩
      simp [access, ha, hp, ← Option.some.inj hstep]
    · cases hstep
  | crash i =>
    obtain ⟨a, ha, hstep⟩ := Option.map_eq_some_iff.mp hstep
    refine ⟨i, a, ha, Or.inr (Or.inr ⟨.crashed, fun _ hv => (by cases hv), ?_⟩)⟩
    simp [access, ← hstep]

/-- A transaction that ends shows in the history if it commits. -/
theorem access_finish {srv : Server Δ X τ Q A ε W} {i : ℕ} {e : Access Δ Q A} :
    S.access srv (.move (.finish i)) = some e ↔ ∃ a w db, srv.active[i]? = some a ∧
      a.prog = .done w ∧ S.commit w srv.db = some db ∧ e = .committed a.tid srv.db db := by
  show ((srv.active[i]?).bind _) = some e ↔ _
  rw [Option.bind_eq_some_iff]
  refine exists_congr fun a => ?_
  cases hp : a.prog with
  | done w =>
    simp only [Option.map_eq_some_iff, Txn.done.injEq]
    constructor
    · rintro ⟨ha, db, hc, rfl⟩
      exact ⟨w, db, ha, rfl, hc, rfl⟩
    · rintro ⟨_, db, ha, rfl, hc, rfl⟩
      exact ⟨ha, db, hc, rfl⟩
  | raise x => simp
  | ask q k => simp

theorem recorded_start {r : τ} (h : S.recorded s (.start r) = some s') :
    s' = (S.start s.1 r, s.2) := (Option.some.inj h).symm

end Service

/-- What holds along every recorded run: the history has the answers that were given, to the
    transactions of this run, and the programs in flight account for what they have heard. -/
structure Accounted (S : Service Δ X τ Ω Q A ε W)
    (post : τ → List ((q : Q) × A q) → W → Prop)
    (s : Server Δ X τ Q A ε W × List (Access Δ Q A)) : Prop where
  numbered : s.1.Numbered
  asked : ∀ tid db q x, .asked tid db q x ∈ s.2 →
    tid < s.1.next ∧ ∃ ω world, S.answer ω world db q = x
  accounts : ∀ a ∈ s.1.active, Accounts S.Answers (post a.req) (heardBy a.tid s.2) a.prog

section Accounted

variable {S : Service Δ X τ Ω Q A ε W} {post : τ → List ((q : Q) × A q) → W → Prop}
  {s s' : Server Δ X τ Q A ε W × List (Access Δ Q A)}

theorem accounted_init (db : Δ) (x : X) : Accounted S post (Server.init db x, []) :=
  ⟨numbered_init db x, fun _ _ _ _ h => absurd h List.not_mem_nil,
    fun _ h => absurd h List.not_mem_nil⟩

theorem accounted_step (hprog : ∀ tid r, Accounts S.Answers (post r) [] (S.prog tid r))
    (h : Accounted S post s) {l : Label τ Ω} (hs : S.recorded s l = some s') :
    Accounted S post s' := by
  have hnumbered : s'.1.Numbered := numbered_step h.numbered (recording_eq_some hs).1
  cases l with
  | start r =>
    obtain rfl := Service.recorded_start hs
    refine ⟨hnumbered, fun tid db q x hx => ?_, fun a ha => ?_⟩
    · obtain ⟨hlt, hanswer⟩ := h.asked tid db q x hx
      exact ⟨Nat.lt_succ_of_lt hlt, hanswer⟩
    · rcases Service.mem_start ha with ha | rfl
      · exact h.accounts a ha
      · have hnone : heardBy s.1.next s.2 = [] := heardBy_eq_nil fun db q x hx =>
          Nat.lt_irrefl _ (h.asked _ db q x hx).1
        show Accounts _ _ (heardBy s.1.next s.2) _
        rw [hnone]
        exact hprog _ r
  | move m =>
    obtain ⟨i, a, ha, ⟨ω, q, k, -, hp, rfl⟩ | ⟨w, db, -, -, -, rfl⟩ | ⟨v, -, rfl⟩⟩ :=
      Service.recorded_cases hs
    · have hmem := List.mem_of_getElem? ha
      have haccounts := h.accounts a hmem
      rw [hp] at haccounts
      refine ⟨hnumbered, fun tid db q' x hx => ?_, fun b hb => ?_⟩
      · rcases List.mem_cons.mp hx with heq | hx
        · cases heq
          exact ⟨h.numbered.lt _ (List.mem_append_left _ (List.mem_map_of_mem hmem)), ω,
            s.1.world, rfl⟩
        · exact h.asked tid db q' x hx
      · rcases h.numbered.mem_set ha hb with rfl | ⟨hb, hne⟩
        · show Accounts _ _ (heardBy a.tid _) _
          rw [heardBy_asked]
          exact haccounts _ ⟨ω, s.1.world, s.1.db, rfl⟩
        · rw [heardBy_asked_of_ne (Ne.symm hne)]
          exact h.accounts b hb
    · refine ⟨hnumbered, fun tid db' q x hx => ?_, fun b hb => ?_⟩
      · exact h.asked tid db' q x ((List.mem_cons.mp hx).resolve_left nofun)
      · rw [heardBy_committed]
        exact h.accounts b (List.mem_of_mem_eraseIdx hb)
    · exact ⟨hnumbered, h.asked, fun b hb => h.accounts b (List.mem_of_mem_eraseIdx hb)⟩

/-- What a finished program leaves accounts for what its transaction has heard. -/
theorem Accounted.result (h : Accounted S post s) {a : Active Δ τ Q A ε W} {w : W}
    (ha : a ∈ s.1.active) (hp : a.prog = .done w) : post a.req (heardBy a.tid s.2) w := by
  have haccounts := h.accounts a ha
  rwa [hp] at haccounts

end Accounted

/-! ## What has changed -/

/-- Whatever is no longer as it was when a query was answered has been made so by a commit since. -/
def ChangedSince (s : Server Δ X τ Q A ε W × List (Access Δ Q A)) : Prop :=
  ∀ later tid db q x earlier, s.2 = later ++ .asked tid db q x :: earlier →
    ∀ {α : Type} (φ : Δ → α), φ db ≠ φ s.1.db →
      ∃ tid' before after, .committed tid' before after ∈ later ∧ φ before ≠ φ s.1.db ∧
        φ after = φ s.1.db

section Changed

variable {S : Service Δ X τ Ω Q A ε W} {s s' : Server Δ X τ Q A ε W × List (Access Δ Q A)}

theorem changedSince_init (db : Δ) (x : X) :
    ChangedSince (Server.init db x, ([] : List (Access Δ Q A))) (τ := τ) (ε := ε) (W := W) :=
  fun _ _ _ _ _ _ h => absurd h.symm (by simp)

theorem changedSince_step (h : ChangedSince s) {l : Label τ Ω} (hs : S.recorded s l = some s') :
    ChangedSince s' := by
  cases l with
  | start r =>
    obtain rfl := Service.recorded_start hs
    exact h
  | move m =>
    obtain ⟨i, a, -, ⟨ω, q, k, -, -, rfl⟩ | ⟨w, db, -, -, -, rfl⟩ | ⟨v, -, rfl⟩⟩ :=
      Service.recorded_cases hs
    · intro later tid db q' x earlier hsplit α φ hφ
      cases later with
      | nil =>
        -- the answer is from the database of the moment
        cases hsplit
        exact absurd rfl hφ
      | cons e later =>
        obtain ⟨-, htail⟩ := List.cons.inj hsplit
        obtain ⟨tid', before, after, hmem, hchanged⟩ := h later tid db q' x earlier htail φ hφ
        exact ⟨tid', before, after, List.mem_cons_of_mem _ hmem, hchanged⟩
    · intro later tid db' q x earlier hsplit α φ hφ
      cases later with
      | nil => cases hsplit
      | cons e later =>
        obtain ⟨rfl, htail⟩ := List.cons.inj hsplit
        by_cases hlast : φ s.1.db = φ db
        · obtain ⟨tid', before, after, hmem, hchanged⟩ :=
            h later tid db' q x earlier htail φ (fun heq => hφ (heq.trans hlast))
          exact ⟨tid', before, after, List.mem_cons_of_mem _ hmem, hlast ▸ hchanged⟩
        · exact ⟨a.tid, s.1.db, db, List.mem_cons_self, hlast, rfl⟩
    · exact h

end Changed

end CloudScale.Lib
