/-
  Programs of several services as parts of one server.

  `Behaves.embed`: a program that behaves goes on behaving as a part of a service with more kinds of
  queries. `Ends.behaves`: what a program returns, whatever it is answered, beside a fact that it
  and the others leave alone. `Regime.established`: what a commit establishes holds from then on,
  where the interference keeps it.
-/
import CloudScale.Lib.Environment

namespace CloudScale.Lib

section Programs

variable {σ Ω Q Q' : Type} {A : Q → Type} {A' : Q' → Type} {ε ε' R T : Type}

theorem Behaves.embed {i : Q → Q'} {c : ∀ q, A' (i q) → A q} {f : ε → ε'}
    {ans : Ω → σ → (q : Q') → A' q} {act : Q' → σ → σ} {rely : σ → σ → Prop}
    {good : σ → Q' → Ω → Prop} {asks : σ → Q' → Prop} {post : σ → R → Prop} {p : Txn Q A ε R}
    {s : σ} (h : Behaves (fun ω s q => c q (ans ω s (i q))) (fun q => act (i q)) rely
      (fun s q => good s (i q)) (fun s q => asks s (i q)) post p s) :
    Behaves ans act rely good asks post (p.embed i c f) s := by
  induction p generalizing s with
  | done r => exact h
  | raise e => trivial
  | ask q k ih => exact fun t hst => ⟨(h t hst).1, fun ω hω => ih _ ((h t hst).2 ω hω)⟩

variable {ans : Ω → σ → (q : Q) → A q} {act : Q → σ → σ} {rely : σ → σ → Prop}
  {good : σ → Q → Ω → Prop}

/-- Every program ends somehow. -/
theorem ends_true {allowed : (q : Q) → A q → Prop} (p : Txn Q A ε R) :
    Ends allowed (fun _ => True) (fun _ => True) p :=
  ends_of_forall (fun _ => trivial) (fun _ => trivial) p

/-- What a program returns, beside what it leaves alone. -/
theorem Ends.behaves {F : σ → Prop} {P : R → Prop} {E : ε → Prop} {p : Txn Q A ε R} {s : σ}
    (h : Ends (fun _ _ => True) P E p) (hrely : ∀ s t, F s → rely s t → F t)
    (hact : ∀ q t, F t → F (act q t)) (hF : F s) :
    Behaves ans act rely good (fun _ _ => True) (fun t r => P r ∧ F t) p s := by
  induction p generalizing s with
  | done r => exact fun t hst => ⟨h, hrely s t hF hst⟩
  | raise e => trivial
  | ask q k ih =>
    exact fun t hst => ⟨trivial, fun ω _ => ih _ (h _ trivial) (hact q t (hrely s t hF hst))⟩

theorem Behaves.imp {asks : σ → Q → Prop} {post post' : σ → R → Prop} {p : Txn Q A ε R} {s : σ}
    (h : Behaves ans act rely good asks post p s) (himp : ∀ t r, post t r → post' t r) :
    Behaves ans act rely good asks post' p s := by
  induction p generalizing s with
  | done r => exact fun t ht => himp t r (h t ht)
  | raise e => trivial
  | ask q k ih => exact fun t ht => ⟨(h t ht).1, fun ω hω => ih _ ((h t ht).2 ω hω)⟩

/-- A program that has no result behaves. -/
theorem Ends.behaves_false {asks : σ → Q → Prop} {post : σ → R → Prop} {E : ε → Prop}
    {p : Txn Q A ε R} (h : Ends (fun _ _ => True) (fun _ => False) E p)
    (hasks : ∀ t q, asks t q) (s : σ) : Behaves ans act rely good asks post p s := by
  induction p generalizing s with
  | done r => exact h.elim
  | raise e => trivial
  | ask q k ih => exact fun t _ => ⟨hasks t q, fun ω _ => ih _ (h _ trivial) _⟩

end Programs

/-! ## Servers -/

section Servers

variable {Δ X τ Ω Q D : Type} {A : Q → Type} {ε W : Type} {S : Service Δ X τ Ω Q A ε W}
  {Inv : X × Δ → Prop} {rely : X × Δ → X × Δ → Prop} {good : Ticket Δ τ → X × Δ → Q → Ω → Prop}
  {asks : Ticket Δ τ → X × Δ → Q → Prop} {post : Ticket Δ τ → X × Δ → W → Prop}
  {srv srv' : Server Δ X τ Q A ε W}

/-- A move that is answered well leads along the interference. -/
theorem Regime.rely_move (G : Regime S Inv rely good asks post) {m : Move Ω}
    (h : Regime.Kept S Inv rely good asks post srv) (hm : S.move srv m = some srv') :
    rely srv.view srv'.view := by
  have hnow : Within Inv rely srv.view srv.view := ⟨G.refl _, h.inv⟩
  obtain ⟨i, a, ha, ⟨ω, q, k, -, hp, rfl⟩ | ⟨w, db, -, hp, hc, rfl⟩ | ⟨v, -, rfl⟩⟩ :=
    Service.move_cases hm
  · have hbehaves := h.behave a (List.mem_of_getElem? ha)
    rw [hp] at hbehaves
    exact (G.query _ _ _ h.inv (hbehaves _ hnow).1).2
  · have hbehaves := h.behave a (List.mem_of_getElem? ha)
    rw [hp] at hbehaves
    exact (G.commit _ _ _ _ h.inv (hbehaves _ hnow) hc).2
  · exact G.refl _

/-- What every commit so far has established. -/
def Server.Established (est : τ → W → X × Δ → Prop) (srv : Server Δ X τ Q A ε W) : Prop :=
  ∀ e ∈ srv.log, ∀ w, e.verdict = .committed w → est e.req w srv.view

theorem Regime.established_move (G : Regime S Inv rely good asks post)
    {est : τ → W → X × Δ → Prop} (hstable : ∀ r w s t, est r w s → rely s t → est r w t)
    (hcommit : ∀ tk s w db, Inv s → post tk s w → S.commit w s.2 = some db →
      est tk.req w (s.1, db)) {m : Move Ω} (h : Regime.Kept S Inv rely good asks post srv)
    (hest : srv.Established est) (hm : S.move srv m = some srv') : srv'.Established est := by
  have hrely := G.rely_move h hm
  have hold : ∀ e ∈ srv.log, ∀ w, e.verdict = .committed w → est e.req w srv'.view :=
    fun e he w hw => hstable _ _ _ _ (hest e he w hw) hrely
  obtain ⟨i, a, ha, ⟨ω, q, k, -, -, rfl⟩ | ⟨w, db, -, hp, hc, rfl⟩ | ⟨v, hv, rfl⟩⟩ :=
    Service.move_cases hm
  · exact hold
  · have hbehaves := h.behave a (List.mem_of_getElem? ha)
    rw [hp] at hbehaves
    refine List.forall_mem_cons.mpr ⟨fun w' hw' => ?_, hold⟩
    obtain rfl := Verdict.committed.inj hw'
    exact hcommit _ _ _ _ h.inv (hbehaves _ ⟨G.refl _, h.inv⟩) hc
  · exact List.forall_mem_cons.mpr ⟨fun w hw => absurd hw (hv w), hold⟩

end Servers

end CloudScale.Lib
