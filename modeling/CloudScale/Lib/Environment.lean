/-
  A server in an environment that moves by itself.

  Between the steps of the server the environment changes the outside world by `drift` (time passes,
  an entry expires). `Reaches.inEnvironment` is safety by induction on such a run, one case for each
  of the three kinds of step; `Regime.Kept` and `ended_of_answers` carry a regime and the endings of
  programs along it.
-/
import CloudScale.Lib.Acting
import CloudScale.Lib.Endings

namespace CloudScale.Lib

inductive EnvLabel (D L : Type) where
  | drift (d : D)
  | act (l : L)

variable {Δ X τ Ω Q D : Type} {A : Q → Type} {ε W : Type}

/-- The server takes a step, or the environment does. -/
def Service.stepIn (S : Service Δ X τ Ω Q A ε W) (drift : D → X → Option X)
    (srv : Server Δ X τ Q A ε W) : EnvLabel D (Label τ Ω) → Option (Server Δ X τ Q A ε W)
  | .drift d => (drift d srv.world).map fun x => { srv with world := x }
  | .act l => S.step srv l

variable {S : Service Δ X τ Ω Q A ε W} {drift : D → X → Option X}
  {ok : Server Δ X τ Q A ε W → EnvLabel D (Label τ Ω) → Prop} {srv srv' : Server Δ X τ Q A ε W}
  {ls : List (EnvLabel D (Label τ Ω))}

/-- A run of the server on its own, with nothing happening around it. -/
theorem Reaches.undisturbed {ls : List (Label τ Ω)}
    (h : Reaches S.step (fun s l => ok s (.act l)) srv ls srv') :
    Reaches (S.stepIn drift) ok srv (ls.map .act) srv' := by
  induction h with
  | start => exact .start
  | next _ hok hs ih =>
    rw [List.map_append]
    exact .next ih hok hs

theorem Reaches.inEnvironment (Inv : Server Δ X τ Q A ε W → Prop)
    (h : Reaches (S.stepIn drift) ok srv ls srv') (h0 : Inv srv)
    (hdrift : ∀ s d x, Inv s → ok s (.drift d) → drift d s.world = some x →
      Inv { s with world := x })
    (hstart : ∀ s r, Inv s → ok s (.act (.start r)) → Inv (S.start s r))
    (hmove : ∀ s m s', Inv s → ok s (.act (.move m)) → S.move s m = some s' → Inv s') :
    Inv srv' := by
  refine h.invariant Inv h0 ?_
  intro s l s' hs hok hstep
  cases l with
  | drift d =>
    obtain ⟨x, hx, rfl⟩ := Option.map_eq_some_iff.mp hstep
    exact hdrift s d x hs hok hx
  | act l =>
    cases l with
    | start r =>
      obtain rfl := Option.some.inj hstep
      exact hstart s r hs hok
    | move m => exact hmove s m s' hs hok hstep

/-- The requests in flight and those that ended are among those that arrive. -/
theorem requests_inEnvironment {P : τ → Prop} {db : Δ} {x : X}
    (h : Reaches (S.stepIn drift) ok (Server.init db x) ls srv)
    (hok : ∀ s r, ok s (.act (.start r)) → P r) : srv.Pending P ∧ ∀ e ∈ srv.log, P e.req := by
  refine h.inEnvironment (fun s => s.Pending P ∧ ∀ e ∈ s.log, P e.req)
    ⟨pending_init db x, fun _ he => absurd he List.not_mem_nil⟩ ?_ ?_ ?_
  · exact fun s d x hs _ _ => hs
  · exact fun s r hs hr => ⟨pending_start hs.1 (hok s r hr), hs.2⟩
  · intro s m s' hs _ hm
    refine ⟨pending_move hs.1 hm, ?_⟩
    obtain ⟨i, a, ha, ⟨ω, q, k, -, -, rfl⟩ | ⟨w, db', -, -, -, rfl⟩ | ⟨v, -, rfl⟩⟩ :=
      Service.move_cases hm
    · exact hs.2
    · exact List.forall_mem_cons.mpr ⟨hs.1 a (List.mem_of_getElem? ha), hs.2⟩
    · exact List.forall_mem_cons.mpr ⟨hs.1 a (List.mem_of_getElem? ha), hs.2⟩

/-! ## Regimes -/

section Regimes

variable {Inv : X × Δ → Prop} {rely : X × Δ → X × Δ → Prop}
  {good : Ticket Δ τ → X × Δ → Q → Ω → Prop} {asks : Ticket Δ τ → X × Δ → Q → Prop}
  {post : Ticket Δ τ → X × Δ → W → Prop}

/-- What a regime keeps along a run. -/
structure Regime.Kept (S : Service Δ X τ Ω Q A ε W) (Inv : X × Δ → Prop)
    (rely : X × Δ → X × Δ → Prop) (good : Ticket Δ τ → X × Δ → Q → Ω → Prop)
    (asks : Ticket Δ τ → X × Δ → Q → Prop) (post : Ticket Δ τ → X × Δ → W → Prop)
    (srv : Server Δ X τ Q A ε W) : Prop where
  inv : Inv srv.view
  behave : srv.AllBehave S (Within Inv rely) good asks post
  log : srv.AllKept (Within Inv rely) post

theorem Regime.kept_init {db : Δ} {x : X} (h : Inv (x, db)) :
    Regime.Kept S Inv rely good asks post (Server.init db x) :=
  ⟨h, fun _ ha => absurd ha List.not_mem_nil, fun _ he => absurd he List.not_mem_nil⟩

theorem Regime.kept_drift (G : Regime S Inv rely good asks post) {x : X}
    (h : Regime.Kept S Inv rely good asks post srv) (hinv : Inv (x, srv.db))
    (hrely : rely srv.view (x, srv.db)) :
    Regime.Kept S Inv rely good asks post { srv with world := x } := by
  have hwithin : Within Inv rely srv.view (x, srv.db) := ⟨hrely, hinv⟩
  obtain ⟨hothers, hlog⟩ := G.keep h.behave h.log hwithin
  exact ⟨hinv, hothers, hlog⟩

theorem Regime.kept_start (G : Regime S Inv rely good asks post) (r : τ)
    (h : Regime.Kept S Inv rely good asks post srv) :
    Regime.Kept S Inv rely good asks post (S.start srv r) :=
  ⟨h.inv, G.start_step r h.inv h.behave, h.log⟩

theorem Regime.kept_move (G : Regime S Inv rely good asks post) {m : Move Ω}
    (h : Regime.Kept S Inv rely good asks post srv) (hgood : GoodMove good srv srv.view m)
    (hm : S.move srv m = some srv') : Regime.Kept S Inv rely good asks post srv' := by
  obtain ⟨hinv, hbehave, hlog⟩ := G.move_step h.inv h.behave h.log hgood hm
  exact ⟨hinv, hbehave, hlog⟩

/-- What was committed satisfies `post`. -/
theorem Regime.Kept.committed (G : Regime S Inv rely good asks post)
    (h : Regime.Kept S Inv rely good asks post srv) {e : Entry τ ε W} (he : e ∈ srv.log) {w : W}
    (hw : e.verdict = .committed w) :
    ∃ tk : Ticket Δ τ, tk.req = e.req ∧ post tk srv.view w := by
  obtain ⟨tk, hreq, hpost⟩ := h.log e he w hw
  exact ⟨tk, hreq, hpost _ ⟨G.refl _, h.inv⟩⟩

/-- Along every run of an environment that keeps a discipline's invariant, what was committed
    satisfies `post`. -/
theorem Discipline.committed (D : Discipline S Inv rely asks post) {db : Δ} {x : X}
    (h : Reaches (S.stepIn drift) ok (Server.init db x) ls srv) (hinit : Inv (x, db))
    (hdrift : ∀ d x x' db, drift d x = some x' → Inv (x, db) →
      Inv (x', db) ∧ rely (x, db) (x', db)) :
    ∀ e ∈ srv.log, ∀ w, e.verdict = .committed w →
      ∃ tk : Ticket Δ τ, tk.req = e.req ∧ post tk srv.view w := by
  have hkept : Regime.Kept S Inv rely (fun _ _ _ _ => True) asks post srv := by
    refine h.inEnvironment _ (Regime.kept_init hinit) ?_ ?_ ?_
    · intro s d x' hs _ hd
      obtain ⟨hinv, hrely⟩ := hdrift d s.world x' s.db hd hs.inv
      exact D.regime.kept_drift hs hinv hrely
    · exact fun s r hs _ => D.regime.kept_start r hs
    · exact fun s m s' hs _ hm =>
        D.regime.kept_move hs (goodMove_of_forall (fun _ _ _ _ => trivial) m) hm
  exact fun e he w hw => hkept.committed D.regime he hw

end Regimes

/-! ## Endings -/

/-- How the transactions in the log have ended. -/
def Ended (S : Service Δ X τ Ω Q A ε W) (P : W → Prop) (E : ε → Prop) : Verdict ε W → Prop
  | .committed w => P w
  | .rejected w => P w ∧ ∃ db, S.commit w db = none
  | .raised e => E e
  | .crashed => True

section Endings

variable {allowed : τ → (q : Q) → A q → Prop} {P : τ → W → Prop} {E : τ → ε → Prop}

theorem ended_move {m : Move Ω} (hm : S.move srv m = some srv')
    (h : srv.AllEnd (fun _ => True) allowed P E)
    (hlog : ∀ e ∈ srv.log, Ended S (P e.req) (E e.req) e.verdict) :
    ∀ e ∈ srv'.log, Ended S (P e.req) (E e.req) e.verdict := by
  cases m with
  | advance i ω => exact Service.log_advance hm ▸ hlog
  | finish i =>
    obtain ⟨a, ha, hm⟩ := Option.bind_eq_some_iff.mp hm
    have hmem := List.mem_of_getElem? ha
    unfold Service.finish at hm
    split at hm
    · next w hp =>
      have hdone := allEnd_done h hmem trivial hp
      split at hm
      · cases hm
        exact List.forall_mem_cons.mpr ⟨hdone, hlog⟩
      · next hc =>
        cases hm
        exact List.forall_mem_cons.mpr ⟨⟨hdone, srv.db, hc⟩, hlog⟩
    · next x hp =>
      cases hm
      exact List.forall_mem_cons.mpr ⟨allEnd_raise h hmem trivial hp, hlog⟩
    · cases hm
  | crash i =>
    obtain ⟨a, ha, rfl⟩ := Option.map_eq_some_iff.mp hm
    exact List.forall_mem_cons.mpr ⟨trivial, hlog⟩

/-- Where all programs end so when they are answered within `allowed`, so has everything that ended
    in a run of such answers. -/
theorem ended_of_answers (hprog : ∀ tid r, Ends (allowed r) (P r) (E r) (S.prog tid r)) {db : Δ}
    {x : X} (h : Reaches (S.stepIn drift) ok (Server.init db x) ls srv)
    (hok : ∀ s m, ok s (.act (.move m)) →
      GoodMove (fun tk db q ω => allowed tk.req q (S.answer ω s.world db q)) s s.db m) :
    ∀ e ∈ srv.log, Ended S (P e.req) (E e.req) e.verdict := by
  refine (h.inEnvironment (fun s => s.AllEnd (fun _ => True) allowed P E ∧
    ∀ e ∈ s.log, Ended S (P e.req) (E e.req) e.verdict)
    ⟨allEnd_init db x, fun _ he => absurd he List.not_mem_nil⟩ ?_ ?_ ?_).2
  · exact fun s d x hs _ _ => hs
  · exact fun s r hs _ => ⟨allEnd_start hs.1 fun _ => hprog _ r, hs.2⟩
  · intro s m s' hs hm hstep
    refine ⟨allEnd_move hs.1 hstep ?_, ended_move hstep hs.1 hs.2⟩
    have hgood := hok s m hm
    cases m with
    | advance i ω => exact fun a ha q k hp _ => hgood a ha q k hp
    | finish i => trivial
    | crash i => trivial

theorem ended_inEnvironment
    (hprog : ∀ tid r, Ends (fun _ _ => True) (P r) (E r) (S.prog tid r)) {db : Δ} {x : X}
    (h : Reaches (S.stepIn drift) ok (Server.init db x) ls srv) :
    ∀ e ∈ srv.log, Ended S (P e.req) (E e.req) e.verdict :=
  ended_of_answers hprog h fun _ m _ => goodMove_of_forall (fun _ _ _ _ => trivial) m

end Endings

end CloudScale.Lib
