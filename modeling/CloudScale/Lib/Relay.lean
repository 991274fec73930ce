/-
  Programs that pass on what they have read.

  Caches are filled by programs that read a value, from the database or from a cache, and store it
  some steps later. `Until`: what a program asks and returns before its next read. `Relays`:
  whatever a read answers, the program stores and returns until its next read only what fits the
  database that gave the answer. A value may take several answers to compute: what is answered in
  between has to fit that database too (`gives`), or a commit has come between them.

  A `Relay` is a service of such programs over an outside world that is right for the database. A
  commit is `Calm` when the world is right for the new database too, and no transaction in flight
  has still to store what fits the old database only. Along runs of calm commits every result fits a
  database from the time of its transaction (`Relay.reaches`, `Current.since`).
-/
import CloudScale.Lib.Environment

namespace CloudScale.Lib

namespace Txn

variable {Q Δ : Type} {A : Q → Type} {ε R T : Type}

/-- Up to the first query in `stop`, as long as the answers are `allowed`, the queries satisfy
    `asks`, and a result satisfies `post`. -/
def Until (stop asks : Q → Prop) (allowed : (q : Q) → A q → Prop) (post : R → Prop) :
    Txn Q A ε R → Prop
  | .done r => post r
  | .raise _ => True
  | .ask q k => stop q ∨ (asks q ∧ ∀ x, allowed q x → (k x).Until stop asks allowed post)

section Until

variable {stop asks asks' : Q → Prop} {allowed allowed' : (q : Q) → A q → Prop}
  {post post' : R → Prop} {p : Txn Q A ε R}

theorem Until.imp (h : p.Until stop asks allowed post)
    (hasks : ∀ q, ¬ stop q → asks q → asks' q ∧ ∀ x, allowed' q x → allowed q x)
    (hpost : ∀ r, post r → post' r) : p.Until stop asks' allowed' post' := by
  induction p with
  | done r => exact hpost r h
  | raise e => trivial
  | ask q k ih =>
    rcases h with h | ⟨hq, hk⟩
    · exact .inl h
    · by_cases hstop : stop q
      · exact .inl hstop
      · obtain ⟨hq', hallowed⟩ := hasks q hstop hq
        exact .inr ⟨hq', fun x hx => ih x (hk x (hallowed x hx))⟩

/-- What is asked satisfies the one condition, what is returned the other. -/
theorem Until.mix (h : p.Until stop asks allowed post)
    (h' : p.Until stop (fun q => asks' q ∧ ∀ x, allowed' q x → allowed q x) allowed' post') :
    p.Until stop asks' allowed' post := by
  induction p with
  | done r => exact h
  | raise e => trivial
  | ask q k ih =>
    rcases h with h | ⟨-, hk⟩
    · exact .inl h
    · rcases h' with h' | ⟨⟨hq', hallowed⟩, hk'⟩
      · exact .inl h'
      · exact .inr ⟨hq', fun x hx => ih x (hk x (hallowed x hx)) (hk' x hx)⟩

theorem Until.stop_imp {stop' : Q → Prop} (h : p.Until stop asks allowed post)
    (hstop : ∀ q, stop q → stop' q) : p.Until stop' asks allowed post := by
  induction p with
  | done r => exact h
  | raise e => trivial
  | ask q k ih =>
    rcases h with h | ⟨hq, hk⟩
    · exact .inl (hstop q h)
    · exact .inr ⟨hq, fun x hx => ih x (hk x hx)⟩

/-- A program that is never stopped asks all its queries before. -/
theorem Until.unstopped (h : p.Until (fun _ => False) asks (fun _ _ => True) post) :
    p.Asks asks := by
  induction p with
  | done r => trivial
  | raise e => trivial
  | ask q k ih =>
    rcases h with h | ⟨hq, hk⟩
    · exact h.elim
    · exact ⟨hq, fun x => ih x (hk x trivial)⟩

theorem until_of_asks (h : p.Asks asks) (hpost : ∀ r, post r) : p.Until stop asks allowed post := by
  induction p with
  | done r => exact hpost r
  | raise e => trivial
  | ask q k ih => exact .inr ⟨h.1, fun x _ => ih x (h.2 x)⟩

theorem Until.bind {post₂ : T → Prop} {f : R → Txn Q A ε T} (h : p.Until stop asks allowed post)
    (hf : ∀ r, post r → (f r).Until stop asks allowed post₂) :
    (p >>= f).Until stop asks allowed post₂ := by
  induction p with
  | done r => exact hf r h
  | raise e => trivial
  | ask q k ih =>
    rcases h with h | ⟨hq, hk⟩
    · exact .inl h
    · exact .inr ⟨hq, fun x hx => ih x (hk x hx)⟩

end Until

def Relays (reads : Q → Prop) (gives : Δ → (q : Q) → A q → Prop) (asks : Δ → Q → Prop)
    (post : Δ → R → Prop) : Txn Q A ε R → Prop
  | .done _ => True
  | .raise _ => True
  | .ask q k => ∀ x,
      (reads q → ∀ d, gives d q x → (k x).Until reads (asks d) (gives d) (post d)) ∧
        (k x).Relays reads gives asks post

section Relays

variable {reads : Q → Prop} {gives : Δ → (q : Q) → A q → Prop} {asks : Δ → Q → Prop}
  {post : Δ → R → Prop} {p : Txn Q A ε R}

theorem relays_of_asks (h : p.Asks fun q => ∀ d, asks d q) (hpost : ∀ d r, post d r) :
    p.Relays reads gives asks post := by
  induction p with
  | done r => trivial
  | raise e => trivial
  | ask q k ih =>
    refine fun x => ⟨fun _ d _ => until_of_asks ?_ (hpost d), ih x (h.2 x)⟩
    exact (h.2 x).imp fun q' hq' => hq' d

theorem Relays.imp {post' : Δ → R → Prop} (h : p.Relays reads gives asks post)
    (hpost : ∀ d r, post d r → post' d r) : p.Relays reads gives asks post' := by
  induction p with
  | done r => trivial
  | raise e => trivial
  | ask q k ih =>
    refine fun x => ⟨fun hq d hgives => ?_, ih x (h x).2⟩
    exact ((h x).1 hq d hgives).imp (fun _ _ hasks => ⟨hasks, fun _ h => h⟩) (hpost d)

/-- A program that reads nothing has nothing to pass on. -/
theorem relays_of_unread (h : p.Asks fun q => ¬ reads q) : p.Relays reads gives asks post := by
  induction p with
  | done r => trivial
  | raise e => trivial
  | ask q k ih => exact fun x => ⟨fun hq => absurd hq h.1, ih x (h.2 x)⟩

theorem Relays.bind {post₂ : Δ → T → Prop} {f : R → Txn Q A ε T}
    (h : p.Relays reads gives asks fun d r => (f r).Until reads (asks d) (gives d) (post₂ d))
    (hf : ∀ r, (f r).Relays reads gives asks post₂) :
    (p >>= f).Relays reads gives asks post₂ := by
  induction p with
  | done r => exact hf r
  | raise e => trivial
  | ask q k ih =>
    refine fun x => ⟨fun hq d hgives => ?_, ih x (h x).2⟩
    exact Until.bind ((h x).1 hq d hgives) fun _ hr => hr

end Relays

end Txn

/-! ## Servers -/

variable {Δ X τ Ω Q D : Type} {A : Q → Type} {ε W : Type}

structure Relay (S : Service Δ X τ Ω Q A ε W) where
  reads : Q → Prop
  right : X → Δ → Prop
  gives : τ → Δ → (q : Q) → A q → Prop
  asks : τ → Δ → Q → Prop
  post : τ → Δ → W → Prop
  grows : Δ → Δ → Prop
  refl : ∀ d, grows d d
  trans : ∀ d d' d'', grows d d' → grows d' d'' → grows d d''
  commit : ∀ w d d', S.commit w d = some d' → grows d d'
  starts : ∀ tid r, (S.prog tid r).Until reads (fun q => ∀ d, asks r d q) (fun _ _ => True)
    fun w => ∀ d, post r d w
  relays : ∀ tid r, (S.prog tid r).Relays reads (gives r) (asks r) (post r)
  answer : ∀ r ω x d q, right x d → gives r d q (S.answer ω x d q)
  read : ∀ q x d, right x d → reads q → right (S.effect q x) d
  store : ∀ r q x d, right x d → asks r d q → right (S.effect q x) d

namespace Relay

variable {S : Service Δ X τ Ω Q A ε W} (C : Relay S)

/-- What the query stores, or is answered, in `d'` is what it would be in `d`. -/
def Alike (r : τ) (d d' : Δ) (q : Q) : Prop :=
  C.asks r d' q ∧ ∀ x, C.gives r d' q x → C.gives r d q x

/-- The transactions in flight go on to no query before they read again for which `d` makes a
    difference, and the world is right for `d`. -/
structure Calm (srv : Server Δ X τ Q A ε W) (d : Δ) : Prop where
  right : C.right srv.world d
  others : ∀ b ∈ srv.active,
    (∀ q, ¬ C.reads q → C.asks b.req srv.db q → C.Alike b.req srv.db d q) ∨
      b.prog.Until C.reads (C.Alike b.req srv.db d) (C.gives b.req d) fun _ => True

def CalmCommit (srv : Server Δ X τ Q A ε W) : Move Ω → Prop
  | .finish i => ∀ a, srv.active[i]? = some a → ∀ w d, a.prog = .done w →
      S.commit w srv.db = some d → C.Calm srv d
  | _ => True

/-- The result fits a database of the time since `begun`. -/
def Since (r : τ) (begun now : Δ) (w : W) : Prop :=
  ∃ d, C.grows begun d ∧ C.grows d now ∧ C.post r d w

structure Current (srv : Server Δ X τ Q A ε W) : Prop where
  right : C.right srv.world srv.db
  relays : ∀ a ∈ srv.active, a.prog.Relays C.reads (C.gives a.req) (C.asks a.req) (C.post a.req)
  untilRead : ∀ a ∈ srv.active, a.prog.Until C.reads (C.asks a.req srv.db)
    (C.gives a.req srv.db) (C.Since a.req a.begun srv.db)
  begun : ∀ a ∈ srv.active, C.grows a.begun srv.db

variable {C} {srv srv' : Server Δ X τ Q A ε W}

theorem Since.mono {r : τ} {begun now now' : Δ} {w : W} (h : C.Since r begun now w)
    (hgrows : C.grows now now') : C.Since r begun now' w := by
  obtain ⟨d, hd, hnow, hpost⟩ := h
  exact ⟨d, hd, C.trans _ _ _ hnow hgrows, hpost⟩

theorem current_init {db : Δ} {x : X} (h : C.right x db) : C.Current (Server.init db x) where
  right := h
  relays _ ha := absurd ha List.not_mem_nil
  untilRead _ ha := absurd ha List.not_mem_nil
  begun _ ha := absurd ha List.not_mem_nil

theorem current_drift {x : X} (h : C.Current srv) (hx : C.right x srv.db) :
    C.Current { srv with world := x } where
  right := hx
  relays := h.relays
  untilRead := h.untilRead
  begun := h.begun

theorem current_start (h : C.Current srv) (r : τ) : C.Current (S.start srv r) where
  right := h.right
  relays a ha := by
    rcases Service.mem_start ha with ha | rfl
    · exact h.relays a ha
    · exact C.relays _ r
  untilRead a ha := by
    rcases Service.mem_start ha with ha | rfl
    · exact h.untilRead a ha
    · exact (C.starts _ r).imp (fun q _ hq => ⟨hq srv.db, fun _ _ => trivial⟩)
        fun w hw => ⟨srv.db, C.refl _, C.refl _, hw srv.db⟩
  begun a ha := by
    rcases Service.mem_start ha with ha | rfl
    · exact h.begun a ha
    · exact C.refl _

/-- A transaction that is answered: what it read fits the database, what it stores is right for it.
    -/
theorem current_advance (h : C.Current srv) {i : ℕ} {ω : Ω} {a : Active Δ τ Q A ε W} {q : Q}
    {k : A q → Txn Q A ε W} (ha : srv.active[i]? = some a) (hp : a.prog = .ask q k) :
    C.Current { srv with
      world := S.effect q srv.world
      active := srv.active.set i { a with prog := k (S.answer ω srv.world srv.db q) } } := by
  have hmem := List.mem_of_getElem? ha
  have hrelays := h.relays a hmem
  have huntil := h.untilRead a hmem
  rw [hp] at hrelays huntil
  have hanswer := C.answer a.req ω _ _ q h.right
  obtain ⟨hread, hrest⟩ := hrelays (S.answer ω srv.world srv.db q)
  refine ⟨?_, fun b hb => ?_, fun b hb => ?_, fun b hb => ?_⟩
  · rcases huntil with hq | ⟨hq, -⟩
    · exact C.read q _ _ h.right hq
    · exact C.store _ q _ _ h.right hq
  · rcases List.mem_or_eq_of_mem_set hb with hb | rfl
    · exact h.relays b hb
    · exact hrest
  · rcases List.mem_or_eq_of_mem_set hb with hb | rfl
    · exact h.untilRead b hb
    · rcases huntil with hq | ⟨-, hk⟩
      · refine (hread hq srv.db hanswer).imp (fun _ _ hasks => ⟨hasks, fun _ h => h⟩) ?_
        exact fun w hw => ⟨srv.db, h.begun a hmem, C.refl _, hw⟩
      · exact hk _ hanswer
  · rcases List.mem_or_eq_of_mem_set hb with hb | rfl
    · exact h.begun b hb
    · exact h.begun a hmem

theorem current_commit (h : C.Current srv) {i : ℕ} {a : Active Δ τ Q A ε W} {w : W} {d : Δ}
    (hc : S.commit w srv.db = some d) (hcalm : C.Calm srv d) :
    C.Current { srv.close i a (.committed w) with db := d } := by
  have hgrows := C.commit w _ d hc
  refine ⟨hcalm.right, fun b hb => h.relays b (List.mem_of_mem_eraseIdx hb), fun b hb => ?_,
    fun b hb => C.trans _ _ _ (h.begun b (List.mem_of_mem_eraseIdx hb)) hgrows⟩
  have hmem := List.mem_of_mem_eraseIdx hb
  have huntil := h.untilRead b hmem
  rcases hcalm.others b hmem with hasks | hreads
  · exact huntil.imp hasks fun w hw => hw.mono hgrows
  · exact (huntil.imp (fun _ _ hasks => ⟨hasks, fun _ h => h⟩) fun w hw =>
      hw.mono hgrows).mix hreads

theorem current_move {m : Move Ω} (h : C.Current srv) (hcalm : C.CalmCommit srv m)
    (hm : S.move srv m = some srv') : C.Current srv' := by
  obtain ⟨i, a, ha, ⟨ω, q, k, rfl, hp, rfl⟩ | ⟨w, d, rfl, hp, hc, rfl⟩ | ⟨v, -, rfl⟩⟩ :=
    Service.move_cases hm
  · exact current_advance h ha hp
  · exact current_commit h hc (hcalm a ha w d hp hc)
  · exact ⟨h.right, fun b hb => h.relays b (List.mem_of_mem_eraseIdx hb),
      fun b hb => h.untilRead b (List.mem_of_mem_eraseIdx hb),
      fun b hb => h.begun b (List.mem_of_mem_eraseIdx hb)⟩

/-- Along every run of calm commits, what is stored and what is to be stored fits the database. -/
theorem reaches {drift : D → X → Option X}
    {ok : Server Δ X τ Q A ε W → EnvLabel D (Label τ Ω) → Prop} {db : Δ} {x : X}
    {ls : List (EnvLabel D (Label τ Ω))}
    (h : Reaches (S.stepIn drift) ok (Server.init db x) ls srv) (hinit : C.right x db)
    (hdrift : ∀ d x x' db, C.right x db → drift d x = some x' → C.right x' db)
    (hok : ∀ s m, C.Current s → ok s (.act (.move m)) → C.CalmCommit s m) : C.Current srv := by
  refine h.inEnvironment C.Current (current_init hinit) ?_ ?_ ?_
  · exact fun s d x' hs _ hx => current_drift hs (hdrift d _ _ _ hs.right hx)
  · exact fun s r hs _ => current_start hs r
  · exact fun s m s' hs hm hstep => current_move hs (hok s m hs hm) hstep

/-- A transaction that is about to return. -/
theorem Current.since (h : C.Current srv) {a : Active Δ τ Q A ε W} (ha : a ∈ srv.active) {w : W}
    (hp : a.prog = .done w) : C.Since a.req a.begun srv.db w := by
  have huntil := h.untilRead a ha
  rw [hp] at huntil
  exact huntil

end Relay

end CloudScale.Lib
