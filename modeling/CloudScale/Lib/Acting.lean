/-
  Transaction programs whose queries change the outside world.

  `Behaves` is `Safe` for programs that act: in the view `s` of a server (its outside world and its
  database), every query the program can ask satisfies `asks` at that time, and every result
  satisfies `post` from then on, as long as what is answered stays within `good`. The program's own
  queries change the view by `act`, the other transactions along `rely`. A `Regime` is an invariant
  that every allowed query and every commit keeps, with programs that behave; `Regime.reaches`
  proves it of every run whose answers are good, and `post` of everything that was committed.

  `Acts` and `Discipline` are the same without assumptions about the answers.
-/
import CloudScale.Lib.Server

namespace CloudScale.Lib

section Behaves

variable {σ Ω Q : Type} {A : Q → Type} {ε R T : Type}

def Behaves (ans : Ω → σ → (q : Q) → A q) (act : Q → σ → σ) (rely : σ → σ → Prop)
    (good : σ → Q → Ω → Prop) (asks : σ → Q → Prop) (post : σ → R → Prop) :
    Txn Q A ε R → σ → Prop
  | .done r, s => ∀ t, rely s t → post t r
  | .raise _, _ => True
  | .ask q k, s => ∀ t, rely s t →
      asks t q ∧ ∀ ω, good t q ω → Behaves ans act rely good asks post (k (ans ω t q)) (act q t)

variable {ans : Ω → σ → (q : Q) → A q} {act : Q → σ → σ} {rely : σ → σ → Prop}
  {good : σ → Q → Ω → Prop} {asks : σ → Q → Prop} {post : σ → R → Prop}

theorem Behaves.weaken (htrans : ∀ s t u, rely s t → rely t u → rely s u) {p : Txn Q A ε R}
    {s t : σ} (h : Behaves ans act rely good asks post p s) (hst : rely s t) :
    Behaves ans act rely good asks post p t := by
  cases p with
  | done r => exact fun u hu => h u (htrans s t u hst hu)
  | raise e => trivial
  | ask q k => exact fun u hu => h u (htrans s t u hst hu)

/-- What neither the interference nor the program's own queries disturb still holds at the end. -/
theorem Behaves.frame {F : σ → Prop} {p : Txn Q A ε R} {s : σ}
    (h : Behaves ans act rely good asks post p s) (hrely : ∀ s t, F s → rely s t → F t)
    (hact : ∀ t q, F t → asks t q → F (act q t)) (hF : F s) :
    Behaves ans act rely good asks (fun t r => post t r ∧ F t) p s := by
  induction p generalizing s with
  | done r => exact fun t hst => ⟨h t hst, hrely s t hF hst⟩
  | raise e => trivial
  | ask q k ih =>
    intro t hst
    obtain ⟨hasks, hnext⟩ := h t hst
    exact ⟨hasks, fun ω hω => ih _ (hnext ω hω) (hact t q (hrely s t hF hst) hasks)⟩

/-- Sequencing; the allowed queries lead to views that are related to themselves. -/
theorem Behaves.bind {post₂ : σ → T → Prop} {p : Txn Q A ε R} {f : R → Txn Q A ε T} {s : σ}
    (h : Behaves ans act rely good asks post p s) (hrefl : rely s s)
    (hact : ∀ s t q, rely s t → asks t q → rely (act q t) (act q t))
    (hf : ∀ t r, post t r → Behaves ans act rely good asks post₂ (f r) t) :
    Behaves ans act rely good asks post₂ (p >>= f) s := by
  induction p generalizing s with
  | done r => exact hf s r (h s hrefl)
  | raise e => trivial
  | ask q k ih =>
    intro t hst
    obtain ⟨hasks, hnext⟩ := h t hst
    exact ⟨hasks, fun ω hω => ih _ (hnext ω hω) (hact s t q hst hasks)⟩

end Behaves

section Acts

variable {σ Ω Q : Type} {A : Q → Type} {ε R T : Type}

def Acts (ans : Ω → σ → (q : Q) → A q) (act : Q → σ → σ) (rely : σ → σ → Prop)
    (asks : σ → Q → Prop) (post : σ → R → Prop) : Txn Q A ε R → σ → Prop
  | .done r, s => ∀ t, rely s t → post t r
  | .raise _, _ => True
  | .ask q k, s => ∀ t, rely s t →
      asks t q ∧ ∀ ω, Acts ans act rely asks post (k (ans ω t q)) (act q t)

variable {ans : Ω → σ → (q : Q) → A q} {act : Q → σ → σ} {rely : σ → σ → Prop}
  {asks : σ → Q → Prop} {post : σ → R → Prop}

theorem Acts.imp {post' : σ → R → Prop} {p : Txn Q A ε R} {s : σ}
    (h : Acts ans act rely asks post p s) (himp : ∀ t r, post t r → post' t r) :
    Acts ans act rely asks post' p s := by
  induction p generalizing s with
  | done r => exact fun t ht => himp t r (h t ht)
  | raise e => trivial
  | ask q k ih => exact fun t ht => ⟨(h t ht).1, fun ω => ih _ ((h t ht).2 ω)⟩

/-- Acting is behaving, whatever is answered. -/
theorem acts_iff {p : Txn Q A ε R} {s : σ} : Acts ans act rely asks post p s ↔
    Behaves ans act rely (fun _ _ _ => True) asks post p s := by
  induction p generalizing s with
  | done r => exact Iff.rfl
  | raise e => exact Iff.rfl
  | ask q k ih =>
    refine forall_congr' fun t => forall_congr' fun _ => and_congr_right fun _ => ?_
    exact forall_congr' fun ω => (ih _).trans (true_imp_iff).symm

/-- What neither the interference nor the program's own queries disturb still holds at the end. -/
theorem Acts.frame {F : σ → Prop} {p : Txn Q A ε R} {s : σ}
    (h : Acts ans act rely asks post p s) (hrely : ∀ s t, F s → rely s t → F t)
    (hact : ∀ t q, F t → asks t q → F (act q t)) (hF : F s) :
    Acts ans act rely asks (fun t r => post t r ∧ F t) p s :=
  acts_iff.mpr ((acts_iff.mp h).frame hrely hact hF)

/-- Sequencing; the allowed queries lead to views that are related to themselves. -/
theorem Acts.bind {post₂ : σ → T → Prop} {p : Txn Q A ε R} {f : R → Txn Q A ε T} {s : σ}
    (h : Acts ans act rely asks post p s) (hrefl : rely s s)
    (hact : ∀ s t q, rely s t → asks t q → rely (act q t) (act q t))
    (hf : ∀ t r, post t r → Acts ans act rely asks post₂ (f r) t) :
    Acts ans act rely asks post₂ (p >>= f) s :=
  acts_iff.mpr ((acts_iff.mp h).bind hrefl hact fun t r hr => acts_iff.mp (hf t r hr))

end Acts

/-! ## Servers -/

variable {Δ X τ Ω Q : Type} {A : Q → Type} {ε W : Type}

/-- The outside world and the database. -/
def Server.view (srv : Server Δ X τ Q A ε W) : X × Δ := (srv.world, srv.db)

section AllBehave

variable (S : Service Δ X τ Ω Q A ε W)

def Service.answers (ω : Ω) (s : X × Δ) (q : Q) : A q := S.answer ω s.1 s.2 q

def Service.act (q : Q) (s : X × Δ) : X × Δ := (S.effect q s.1, s.2)

/-- Interference that keeps the invariant. -/
def Within (Inv : X × Δ → Prop) (rely : X × Δ → X × Δ → Prop) (s t : X × Δ) : Prop :=
  rely s t ∧ Inv t

/-- Every transaction in flight behaves. -/
def Server.AllBehave (rely : X × Δ → X × Δ → Prop) (good : Ticket Δ τ → X × Δ → Q → Ω → Prop)
    (asks : Ticket Δ τ → X × Δ → Q → Prop) (post : Ticket Δ τ → X × Δ → W → Prop)
    (srv : Server Δ X τ Q A ε W) : Prop :=
  ∀ a ∈ srv.active, Behaves S.answers S.act rely (good a.toTicket) (asks a.toTicket)
    (post a.toTicket) a.prog srv.view

end AllBehave

/-- What was committed satisfies `post` from now on. -/
def Server.AllKept (rely : X × Δ → X × Δ → Prop) (post : Ticket Δ τ → X × Δ → W → Prop)
    (srv : Server Δ X τ Q A ε W) : Prop :=
  ∀ e ∈ srv.log, ∀ w, e.verdict = .committed w →
    ∃ tk : Ticket Δ τ, tk.req = e.req ∧ ∀ t, rely srv.view t → post tk t w

/-- An invariant of the outside world and the database that the programs of a service keep, as long
    as their queries are answered within `good`. -/
structure Regime (S : Service Δ X τ Ω Q A ε W) (Inv : X × Δ → Prop)
    (rely : X × Δ → X × Δ → Prop) (good : Ticket Δ τ → X × Δ → Q → Ω → Prop)
    (asks : Ticket Δ τ → X × Δ → Q → Prop) (post : Ticket Δ τ → X × Δ → W → Prop) : Prop where
  refl : ∀ s, rely s s
  trans : ∀ s t u, rely s t → rely t u → rely s u
  start : ∀ tid r s, Inv s → Behaves S.answers S.act (Within Inv rely) (good ⟨tid, r, s.2⟩)
    (asks ⟨tid, r, s.2⟩) (post ⟨tid, r, s.2⟩) (S.prog tid r) s
  query : ∀ tk s q, Inv s → asks tk s q → Inv (S.act q s) ∧ rely s (S.act q s)
  commit : ∀ tk s w db, Inv s → post tk s w → S.commit w s.2 = some db →
    Inv (s.1, db) ∧ rely s (s.1, db)

namespace Regime

variable {S : Service Δ X τ Ω Q A ε W} {Inv : X × Δ → Prop} {rely : X × Δ → X × Δ → Prop}
  {good : Ticket Δ τ → X × Δ → Q → Ω → Prop} {asks : Ticket Δ τ → X × Δ → Q → Prop}
  {post : Ticket Δ τ → X × Δ → W → Prop} {srv srv' : Server Δ X τ Q A ε W}

theorem within_trans (D : Regime S Inv rely good asks post) (s t u : X × Δ)
    (hst : Within Inv rely s t) (htu : Within Inv rely t u) : Within Inv rely s u :=
  ⟨D.trans s t u hst.1 htu.1, htu.2⟩

/-- The view changes along `rely`; the other transactions and the log see no more of it. -/
theorem keep (D : Regime S Inv rely good asks post)
    (hall : srv.AllBehave S (Within Inv rely) good asks post)
    (hkept : srv.AllKept (Within Inv rely) post) {s : X × Δ}
    (hrely : Within Inv rely srv.view s) :
    (∀ a ∈ srv.active, Behaves S.answers S.act (Within Inv rely) (good a.toTicket)
      (asks a.toTicket) (post a.toTicket) a.prog s) ∧
      ∀ e ∈ srv.log, ∀ w, e.verdict = .committed w →
        ∃ tk : Ticket Δ τ, tk.req = e.req ∧ ∀ t, Within Inv rely s t → post tk t w := by
  refine ⟨fun a ha => (hall a ha).weaken D.within_trans hrely, fun e he w hw => ?_⟩
  obtain ⟨tk, hreq, hpost⟩ := hkept e he w hw
  exact ⟨tk, hreq, fun t ht => hpost t (D.within_trans _ _ _ hrely ht)⟩

theorem start_step (D : Regime S Inv rely good asks post) (r : τ) (hinv : Inv srv.view)
    (hall : srv.AllBehave S (Within Inv rely) good asks post) :
    (S.start srv r).AllBehave S (Within Inv rely) good asks post := by
  intro a ha
  rcases Service.mem_start ha with ha | rfl
  · exact hall a ha
  · exact D.start srv.next r srv.view hinv

theorem move_step (D : Regime S Inv rely good asks post) {m : Move Ω} (hinv : Inv srv.view)
    (hall : srv.AllBehave S (Within Inv rely) good asks post)
    (hkept : srv.AllKept (Within Inv rely) post) (hgood : GoodMove good srv srv.view m)
    (h : S.move srv m = some srv') :
    Inv srv'.view ∧ srv'.AllBehave S (Within Inv rely) good asks post ∧
      srv'.AllKept (Within Inv rely) post := by
  have hnow : Within Inv rely srv.view srv.view := ⟨D.refl _, hinv⟩
  obtain ⟨i, a, ha, ⟨ω, q, k, rfl, hp, rfl⟩ | ⟨w, db, -, hp, hc, rfl⟩ | ⟨v, hv, rfl⟩⟩ :=
    Service.move_cases h
  · have hbehaves := hall a (List.mem_of_getElem? ha)
    rw [hp] at hbehaves
    obtain ⟨hasks, hnext⟩ := hbehaves _ hnow
    obtain ⟨hinv', hrely⟩ := D.query _ _ _ hinv hasks
    have hwithin : Within Inv rely srv.view (S.act q srv.view) := ⟨hrely, hinv'⟩
    obtain ⟨hothers, hlog⟩ := D.keep hall hkept hwithin
    refine ⟨hinv', fun a' ha' => ?_, hlog⟩
    rcases List.mem_or_eq_of_mem_set ha' with h' | rfl
    · exact hothers a' h'
    · exact hnext ω (hgood a ha q k hp)
  · have hbehaves := hall a (List.mem_of_getElem? ha)
    rw [hp] at hbehaves
    obtain ⟨hinv', hrely⟩ := D.commit _ _ _ _ hinv (hbehaves _ hnow) hc
    have hwithin : Within Inv rely srv.view (srv.world, db) := ⟨hrely, hinv'⟩
    obtain ⟨hothers, hlog⟩ := D.keep hall hkept hwithin
    refine ⟨hinv', fun a' ha' => hothers a' (List.mem_of_mem_eraseIdx ha'), ?_⟩
    refine List.forall_mem_cons.mpr ⟨fun w' hw' => ?_, hlog⟩
    cases hw'
    exact ⟨a.toTicket, rfl, fun t ht => hbehaves t (D.within_trans _ _ _ hwithin ht)⟩
  · refine ⟨hinv, fun a' ha' => hall a' (List.mem_of_mem_eraseIdx ha'), ?_⟩
    exact List.forall_mem_cons.mpr ⟨fun w hw => absurd hw (hv w), hkept⟩

/-- Along every run whose answers are good the invariant holds, and so does `post` of everything
    that was committed. -/
theorem reaches (D : Regime S Inv rely good asks post)
    {ok : Server Δ X τ Q A ε W → Label τ Ω → Prop} {ls : List (Label τ Ω)} {db : Δ} {x : X}
    (h : Reaches S.step ok (Server.init db x) ls srv)
    (hok : ∀ s m, ok s (.move m) → GoodMove good s s.view m) (hinit : Inv (x, db)) :
    Inv srv.view ∧ ∀ e ∈ srv.log, ∀ w, e.verdict = .committed w →
      ∃ tk : Ticket Δ τ, tk.req = e.req ∧ post tk srv.view w := by
  have hall : Inv srv.view ∧ srv.AllBehave S (Within Inv rely) good asks post ∧
      srv.AllKept (Within Inv rely) post := by
    refine h.invariant (fun s => Inv s.view ∧ s.AllBehave S (Within Inv rely) good asks post ∧
      s.AllKept (Within Inv rely) post) ⟨hinit, fun _ ha => absurd ha List.not_mem_nil,
        fun _ he => absurd he List.not_mem_nil⟩ ?_
    rintro s l s' ⟨hinv, hall, hkept⟩ hs hstep
    cases l with
    | start r =>
      cases hstep
      exact ⟨hinv, D.start_step r hinv hall, hkept⟩
    | move m => exact D.move_step hinv hall hkept (hok s m hs) hstep
  refine ⟨hall.1, fun e he w hw => ?_⟩
  obtain ⟨tk, hreq, hpost⟩ := hall.2.2 e he w hw
  exact ⟨tk, hreq, hpost _ ⟨D.refl _, hall.1⟩⟩

end Regime

/-- An invariant of the outside world and the database that the programs of a service keep. -/
structure Discipline (S : Service Δ X τ Ω Q A ε W) (Inv : X × Δ → Prop)
    (rely : X × Δ → X × Δ → Prop) (asks : Ticket Δ τ → X × Δ → Q → Prop)
    (post : Ticket Δ τ → X × Δ → W → Prop) : Prop where
  refl : ∀ s, rely s s
  trans : ∀ s t u, rely s t → rely t u → rely s u
  start : ∀ tid r s, Inv s → Acts S.answers S.act (Within Inv rely) (asks ⟨tid, r, s.2⟩)
    (post ⟨tid, r, s.2⟩) (S.prog tid r) s
  query : ∀ tk s q, Inv s → asks tk s q → Inv (S.act q s) ∧ rely s (S.act q s)
  commit : ∀ tk s w db, Inv s → post tk s w → S.commit w s.2 = some db →
    Inv (s.1, db) ∧ rely s (s.1, db)

namespace Discipline

variable {S : Service Δ X τ Ω Q A ε W} {Inv : X × Δ → Prop} {rely : X × Δ → X × Δ → Prop}
  {asks : Ticket Δ τ → X × Δ → Q → Prop} {post : Ticket Δ τ → X × Δ → W → Prop}
  {srv srv' : Server Δ X τ Q A ε W}

/-- A discipline is a regime that assumes nothing. -/
theorem regime (D : Discipline S Inv rely asks post) :
    Regime S Inv rely (fun _ _ _ _ => True) asks post where
  refl := D.refl
  trans := D.trans
  start tid r s hinv := acts_iff.mp (D.start tid r s hinv)
  query := D.query
  commit := D.commit

/-- The invariant holds in every state of every run. -/
theorem reaches (D : Discipline S Inv rely asks post) {ok : Server Δ X τ Q A ε W → Label τ Ω → Prop}
    {ls : List (Label τ Ω)} {db : Δ} {x : X} (h : Reaches S.step ok (Server.init db x) ls srv)
    (hinit : Inv (x, db)) : Inv srv.view :=
  (D.regime.reaches h (fun _ m _ => goodMove_of_forall (fun _ _ _ _ => trivial) m) hinit).1

end Discipline

end CloudScale.Lib
