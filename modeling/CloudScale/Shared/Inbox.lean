/-
  Exactly-once effects through an inbox table.

  `inbox_already_processed` and `record_inbox` are separated by the whole handler, so what makes
  the effect of an event exactly-once is the transaction around them and the unique `event_id`.
  `Deduplicated` is what a service has to provide: handled events are recorded under their own
  id, a commit inserts the recorded id into the inbox or fails, and skipped or ignored events
  write nothing. `Deduplicated.exactlyOnce` is the result, for every interleaving of any number of
  transactions, with crashes, exceptions and rejected commits anywhere.
-/
import CloudScale.Lib.Server
import CloudScale.Shared.Message

namespace CloudScale.Shared

open CloudScale.Lib

variable {Δ X τ Ω Q : Type} {A : Q → Type} {ε V : Type}

/-- The id under which a committed request was handled as an event. -/
def handledId (eventOf : τ → Option SagaEvent) : τ × Outcome V → Option Ident
  | (r, .handled _) => (eventOf r).map (·.eventId)
  | _ => none

/-- The effects of events are applied exactly once: the database is the replay of the committed
    writes, an event that is not handled writes nothing, no event id is handled by two commits,
    and the ids in the inbox are the initial ones and those handled. -/
structure ExactlyOnce (S : Service Δ X τ Ω Q A ε (Outcome V)) (eventOf : τ → Option SagaEvent)
    (inbox : Δ → InboxRows) (db : Δ) (srv : Server Δ X τ Q A ε (Outcome V)) : Prop where
  replayed : replay S db srv.committed = some srv.db
  unhandled : ∀ rw ∈ srv.committed, ∀ e, eventOf rw.1 = some e → handledId eventOf rw = none →
    ∀ d, S.commit rw.2 d = some d
  once : (srv.committed.filterMap (handledId eventOf)).Nodup
  recorded : ∀ id, id ∈ (inbox srv.db).rows.map (·.eventId) ↔
    id ∈ (inbox db).rows.map (·.eventId) ∨ id ∈ srv.committed.filterMap (handledId eventOf)

/-- What a service provides. -/
structure Deduplicated (S : Service Δ X τ Ω Q A ε (Outcome V)) (eventOf : τ → Option SagaEvent)
    (inbox : Δ → InboxRows) (recorded : V → Option InboxMessage) : Prop where
  answer : ∀ ω x x' db q, S.answer ω x db q = S.answer ω x' db q
  records : ∀ x tid r db, Safe (fun ω d q => S.answer ω x d q) (fun _ _ => True)
    (fun _ _ _ => True)
    (fun _ w => ∀ v, w = .handled v →
      (recorded v).map (·.eventId) = (eventOf r).map (·.eventId)) (S.prog tid r) db
  skip : ∀ db, S.commit .skipped db = some db
  ignore : ∀ db, S.commit .ignored db = some db
  insert : ∀ v db db', S.commit (.handled v) db = some db' →
    (inbox db).extend (recorded v).toList = some (inbox db')

namespace Deduplicated

variable {S : Service Δ X τ Ω Q A ε (Outcome V)} {eventOf : τ → Option SagaEvent}
  {inbox : Δ → InboxRows} {recorded : V → Option InboxMessage}
  {srv : Server Δ X τ Q A ε (Outcome V)}

/-- Every transaction in flight will record its own event. -/
theorem guarantees (D : Deduplicated S eventOf inbox recorded) (x : X) :
    Guarantees S (fun ω d q => S.answer ω x d q) (fun _ _ => True) (fun _ _ _ _ => True)
      (fun tk _ w => ∀ v, w = .handled v →
        (recorded v).map (·.eventId) = (eventOf tk.req).map (·.eventId)) where
  refl _ := trivial
  trans _ _ _ _ _ := trivial
  answer ω x' db q := D.answer ω x' x db q
  start tid r db := D.records x tid r db
  commit _ _ _ _ _ _ := trivial

/-- What a committed request adds to the inbox. -/
theorem commit_inbox (D : Deduplicated S eventOf inbox recorded) {r : τ} {w : Outcome V}
    {db db' : Δ} (hc : S.commit w db = some db')
    (hrec : ∀ v, w = .handled v →
      (recorded v).map (·.eventId) = (eventOf r).map (·.eventId)) :
    (inbox db').rows.map (·.eventId) =
        (inbox db).rows.map (·.eventId) ++ (handledId eventOf (r, w)).toList ∧
      ∀ id, handledId eventOf (r, w) = some id → id ∉ (inbox db).rows.map (·.eventId) := by
  cases w with
  | skipped =>
    rw [D.skip, Option.some.injEq] at hc
    subst hc
    exact ⟨(List.append_nil _).symm, nofun⟩
  | ignored =>
    rw [D.ignore, Option.some.injEq] at hc
    subst hc
    exact ⟨(List.append_nil _).symm, nofun⟩
  | handled v =>
    have hext := D.insert v db db' hc
    have hid : handledId eventOf (r, .handled v) = (recorded v).map (·.eventId) :=
      (hrec v rfl).symm
    rw [hid, Table.rows_extend hext, List.map_append]
    refine ⟨by cases recorded v <;> rfl, fun id h => ?_⟩
    obtain ⟨m, hm, rfl⟩ := Option.map_eq_some_iff.mp h
    exact Table.key_not_mem_of_extend hext (Option.mem_toList.mpr hm)

/-- Along a run that starts on `db`: each transaction in flight will record its own event, and the
    ids in the inbox are those of the start and those handled since, each of these once. -/
structure HandledOnce (S : Service Δ X τ Ω Q A ε (Outcome V)) (eventOf : τ → Option SagaEvent)
    (inbox : Δ → InboxRows) (recorded : V → Option InboxMessage) (x : X) (db : Δ)
    (s : Server Δ X τ Q A ε (Outcome V)) : Prop where
  safe : s.AllSafe (fun ω d q => S.answer ω x d q) (fun _ _ => True) (fun _ _ _ _ => True)
    (fun tk _ w => ∀ v, w = .handled v →
      (recorded v).map (·.eventId) = (eventOf tk.req).map (·.eventId)) s.db
  once : (s.committed.filterMap (handledId eventOf)).Nodup
  ids : ∀ id, id ∈ (inbox s.db).rows.map (·.eventId) ↔
    id ∈ (inbox db).rows.map (·.eventId) ∨ id ∈ s.committed.filterMap (handledId eventOf)

theorem handledOnce_init (x : X) (db : Δ) :
    HandledOnce S eventOf inbox recorded x db (Server.init db x) where
  safe := allSafe_init db x
  once := List.nodup_nil
  ids id := by simp [Server.init, Server.committed]

/-- A commit handles an id that was not handled before, or none. -/
theorem once_commit (D : Deduplicated S eventOf inbox recorded) {r : τ} {w : Outcome V}
    {db d d' : Δ} {committed : List (τ × Outcome V)} (hc : S.commit w d = some d')
    (hrec : ∀ v, w = .handled v → (recorded v).map (·.eventId) = (eventOf r).map (·.eventId))
    (honce : (committed.filterMap (handledId eventOf)).Nodup)
    (hids : ∀ id, id ∈ (inbox d).rows.map (·.eventId) ↔
      id ∈ (inbox db).rows.map (·.eventId) ∨ id ∈ committed.filterMap (handledId eventOf)) :
    (((r, w) :: committed).filterMap (handledId eventOf)).Nodup ∧
      ∀ id, id ∈ (inbox d').rows.map (·.eventId) ↔ id ∈ (inbox db).rows.map (·.eventId) ∨
        id ∈ ((r, w) :: committed).filterMap (handledId eventOf) := by
  obtain ⟨hrows, hnew⟩ := D.commit_inbox hc hrec
  rw [hrows]
  cases hh : handledId eventOf (r, w) with
  | none =>
    rw [List.filterMap_cons_none hh, Option.toList_none, List.append_nil]
    exact ⟨honce, hids⟩
  | some id₀ =>
    rw [List.filterMap_cons_some hh]
    have hfresh := hnew id₀ hh
    rw [hids, not_or] at hfresh
    refine ⟨List.nodup_cons.mpr ⟨hfresh.2, honce⟩, fun id => ?_⟩
    rw [List.mem_append, hids, Option.toList_some, List.mem_singleton, List.mem_cons, or_assoc,
      or_comm (a := id ∈ _) (b := id = id₀)]

theorem handledOnce_step (D : Deduplicated S eventOf inbox recorded) {x : X} {db : Δ}
    {s s' : Server Δ X τ Q A ε (Outcome V)} {l : Label τ Ω}
    (h : HandledOnce S eventOf inbox recorded x db s) (hstep : S.step s l = some s') :
    HandledOnce S eventOf inbox recorded x db s' := by
  have G := D.guarantees x
  cases l with
  | start r =>
    cases hstep
    exact ⟨G.startSafe r h.safe, h.once, h.ids⟩
  | move m =>
    have hsafe := G.moveSafe h.safe hstep (goodMove_of_forall (fun _ _ _ _ => trivial) m)
    obtain ⟨i, a, ha, ⟨ω, q, k, -, -, rfl⟩ | ⟨w, db', -, hp, hc, rfl⟩ | ⟨v, hv, rfl⟩⟩ :=
      Service.move_cases hstep
    · exact ⟨hsafe, h.once, h.ids⟩
    · have hpost := allSafe_result h.safe (List.mem_of_getElem? ha) hp trivial
      obtain ⟨honce, hids⟩ := D.once_commit hc hpost h.once h.ids
      exact ⟨hsafe, honce, hids⟩
    · have hsame : (s.close i a v).committed = s.committed := Server.close_uncommitted hv
      exact ⟨hsafe, hsame ▸ h.once, hsame ▸ h.ids⟩

theorem exactlyOnce (D : Deduplicated S eventOf inbox recorded)
    {ok : Server Δ X τ Q A ε (Outcome V) → Label τ Ω → Prop} {ls : List (Label τ Ω)} {db : Δ}
    {x : X} (h : Reaches S.step ok (Server.init db x) ls srv) :
    ExactlyOnce S eventOf inbox db srv := by
  have hinv : HandledOnce S eventOf inbox recorded x db srv :=
    h.invariant _ (handledOnce_init x db) fun _ _ _ hs _ hstep => D.handledOnce_step hs hstep
  refine ⟨replay_committed S h, ?_, hinv.once, hinv.ids⟩
  intro rw _ e he hnone d
  obtain ⟨r, w⟩ := rw
  cases w with
  | skipped => exact D.skip d
  | ignored => exact D.ignore d
  | handled v =>
    have hsome : (eventOf r).map (·.eventId) = none := hnone
    rw [he] at hsome
    cases hsome

end Deduplicated

end CloudScale.Shared
