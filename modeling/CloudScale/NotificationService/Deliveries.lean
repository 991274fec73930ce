/-
  Deliveries of an event to the notification service (`notification/app/consumers.py`).

  A delivery looks the event up in the inbox, sends the confirmation, and commits the inbox row
  last. The history of a run lists the events whose confirmation was sent. `Unraced` says of a
  lookup that finds no row that no confirmation of the event was sent yet, nor is about to be.
  `sent_once`: along runs of such lookups no event is confirmed twice. `sent_again` is a delivery
  whose commit is never executed, and its redelivery.
-/
import CloudScale.Lib.Stages
import CloudScale.NotificationService.Confirmations

namespace CloudScale.NotificationService

open CloudScale.Lib CloudScale.Shared

/-- The delivery that executes `send_order_confirmation` in this step. -/
def sends (srv : NotificationServer) : Label SagaEvent Unit → Option Ident
  | .move (.advance i _) => match srv.active[i]? with
    | some a => match a.prog with
      | .ask (.dispatch _) _ => some a.req.eventId
      | _ => none
    | none => none
  | _ => none

/-- The service with the history of the events whose confirmation was sent. -/
abbrev deliver := recording service.step sends

/-! ## Where a delivery stands -/

/-- A delivery of the event is about to send its confirmation. -/
def aboutToSend (id : Ident) (e : SagaEvent) : NotificationTxn (Outcome InboxMessage) → Bool
  | .ask (.dispatch _) _ => decide (e.eventId = id)
  | _ => false

/-- What is left of a delivery: the lookup, the confirmation, or nothing. -/
inductive Stands (e : SagaEvent) : NotificationTxn (Outcome InboxMessage) → Prop
  | lookup : Stands e (handleEvent 0 e)
  | send (c : Confirmation) (w : Outcome InboxMessage) :
    Stands e (.ask (.dispatch c) fun _ => .done w)
  | ended (w : Outcome InboxMessage) : Stands e (.done w)

/-- The rest of a delivery, once the lookup is answered. -/
def afterLookup (e : SagaEvent) (seen : Bool) : NotificationTxn (Outcome InboxMessage) :=
  if seen then .done .skipped
  else if e.eventType = .paymentSuccessEvent then
    .ask (.dispatch { orderId := e.payload.orderId, transactionId := e.payload.transactionId
                      correlationId := e.correlationId }) fun _ =>
      .done (.handled (recordInbox e "notification-consumer"))
  else .done .ignored

theorem handleEvent_eq (tid : ℕ) (e : SagaEvent) :
    handleEvent tid e = .ask (.inbox e.eventId) fun (seen : Bool) => afterLookup e seen := by
  refine congrArg (Txn.ask _) (funext fun (seen : Bool) => ?_)
  cases seen with
  | true => rfl
  | false =>
    unfold afterLookup
    show (if e.eventType = .paymentSuccessEvent then _ else _ : NotificationTxn _) = _
    split
    · rfl
    · rfl

theorem stands_afterLookup (e : SagaEvent) (seen : Bool) : Stands e (afterLookup e seen) := by
  unfold afterLookup
  split
  · exact .ended _
  · split
    · exact .send _ _
    · exact .ended _

/-- Who is about to send after the lookup has found no inbox row of this event. -/
theorem passed_of_aboutToSend {id : Ident} {e : SagaEvent} {seen : Bool}
    (h : aboutToSend id e (afterLookup e seen) = true) :
    e.eventId = id ∧ e.eventType = .paymentSuccessEvent ∧ seen = false := by
  unfold afterLookup at h
  cases seen with
  | true => cases h
  | false =>
    rw [if_neg Bool.false_ne_true] at h
    split at h
    · next htype => exact ⟨of_decide_eq_true h, htype, rfl⟩
    · cases h

/-! ## Runs -/

abbrev History := NotificationServer × List Ident

/-- A lookup of a payment that finds no inbox row is answered when the confirmation of the event was
    not sent yet, and no other delivery is about to send it. -/
def Unraced (s : History) : Label SagaEvent Unit → Prop
  | .move (.advance i _) => match s.1.active[i]? with
    | some a => match a.prog with
      | .ask (.inbox id) _ => a.req.eventType = .paymentSuccessEvent →
        inboxAlreadyProcessed s.1.db.inbox id = false →
          id ∉ s.2 ∧ s.1.inStage (aboutToSend id) = 0
      | _ => True
    | none => True
  | _ => True

instance (s : History) (l : Label SagaEvent Unit) : Decidable (Unraced s l) := by
  unfold Unraced
  repeat' split
  all_goals infer_instance

/-- An event is confirmed, or about to be, by one delivery at most. -/
structure Once (s : History) : Prop where
  stands : ∀ a ∈ s.1.active, Stands a.req a.prog
  once : ∀ id, s.1.inStage (aboutToSend id) + s.2.count id ≤ 1

theorem once_init (db : NotificationDb) (sent : List Confirmation) :
    Once (Server.init db sent, []) where
  stands _ ha := absurd ha List.not_mem_nil
  once _ := Nat.zero_le 1

theorem once_start {s : History} (h : Once s) (e : SagaEvent) :
    Once (service.start s.1 e, s.2) where
  stands a ha := by
    rcases Service.mem_start ha with ha | rfl
    · exact h.stands a ha
    · exact .lookup
  once id := by
    rw [inStage_start]
    exact h.once id

/-- A delivery that ends is about to send nothing. -/
theorem once_close {s : History} (h : Once s) {i : ℕ}
    {a : Active NotificationDb SagaEvent NotificationQuery NotificationAnswer Exc
      (Outcome InboxMessage)} (ha : s.1.active[i]? = some a)
    (v : Verdict Exc (Outcome InboxMessage)) (db : NotificationDb) :
    Once ({ s.1.close i a v with db := db }, s.2) where
  stands b hb := h.stands b (List.mem_of_mem_eraseIdx hb)
  once id := by
    have hcount := inStage_close (aboutToSend id) ha v
    have honce := h.once id
    show (s.1.close i a v).inStage (aboutToSend id) + s.2.count id ≤ 1
    omega

section Answered

variable {s : History} {i : ℕ} {a : Active NotificationDb SagaEvent NotificationQuery
  NotificationAnswer Exc (Outcome InboxMessage)}

/-- A delivery that the lookup lets pass is the only one about to send, as it is not raced. -/
theorem lookup_once (h : Once s) (ha : s.1.active[i]? = some a)
    (hp : a.prog = .ask (.inbox a.req.eventId) fun (seen : Bool) => afterLookup a.req seen)
    {ω : Unit} (hok : Unraced s (.move (.advance i ω))) (id : Ident) :
    Server.inStage (aboutToSend id) { s.1 with
      active := s.1.active.set i { a with
        prog := afterLookup a.req (inboxAlreadyProcessed s.1.db.inbox a.req.eventId) } } +
      s.2.count id ≤ 1 := by
  have hcount := inStage_advance (aboutToSend id) ha s.1.world
    (afterLookup a.req (inboxAlreadyProcessed s.1.db.inbox a.req.eventId))
  have honce := h.once id
  rw [hp] at hcount
  cases hsends : aboutToSend id a.req
      (afterLookup a.req (inboxAlreadyProcessed s.1.db.inbox a.req.eventId)) with
  | false =>
    rw [hsends] at hcount
    exact Nat.le_trans (Nat.add_le_add_right (Nat.le.intro hcount) _) honce
  | true =>
    rw [hsends] at hcount
    obtain ⟨rfl, htype, hseen⟩ := passed_of_aboutToSend hsends
    simp only [Unraced, ha, hp] at hok
    obtain ⟨hnot, hzero⟩ := hok htype hseen
    rw [List.count_eq_zero.mpr hnot]
    rw [hzero] at hcount
    exact Nat.le.intro hcount

/-- A delivery that sends is no longer about to. -/
theorem send_once (h : Once s) (ha : s.1.active[i]? = some a) {c : Confirmation}
    {w : Outcome InboxMessage} (hp : a.prog = .ask (.dispatch c) fun _ => .done w) (id : Ident) :
    Server.inStage (aboutToSend id) { s.1 with
      world := s.1.world ++ [c]
      active := s.1.active.set i { a with prog := .done w } } +
      (a.req.eventId :: s.2).count id ≤ 1 := by
  have hcount := inStage_advance (aboutToSend id) ha (s.1.world ++ [c]) (.done w)
  have honce := h.once id
  rw [hp] at hcount
  rw [List.count_cons]
  simp only [aboutToSend, Bool.toNat_false, Nat.add_zero] at hcount
  by_cases hid : a.req.eventId = id
  · simp only [hid, decide_true, Bool.toNat_true, beq_self_eq_true, if_true] at hcount ⊢
    omega
  · simp only [hid, decide_false, Bool.toNat_false, beq_iff_eq, if_false] at hcount ⊢
    omega

/-- A delivery that is answered: the lookup lets it pass, or it sends the confirmation. -/
theorem once_advance (h : Once s) {ω : Unit} (hok : Unraced s (.move (.advance i ω)))
    {srv : NotificationServer} (hm : service.move s.1 (.advance i ω) = some srv) :
    Once (srv, (sends s.1 (.move (.advance i ω))).toList ++ s.2) := by
  obtain ⟨a, ha, hm⟩ := Option.bind_eq_some_iff.mp hm
  have hstands := h.stands a (List.mem_of_getElem? ha)
  generalize hp : a.prog = p at hstands
  cases hstands with
  | lookup =>
    rw [handleEvent_eq] at hp
    simp only [Service.advance, hp, Option.some.injEq] at hm
    subst hm
    have hnone : sends s.1 (.move (.advance i ω)) = none := by simp only [sends, ha, hp]
    rw [hnone]
    refine ⟨fun b hb => ?_, lookup_once h ha hp hok⟩
    rcases List.mem_or_eq_of_mem_set hb with hb | rfl
    · exact h.stands b hb
    · exact stands_afterLookup a.req _
  | send c w =>
    simp only [Service.advance, hp, Option.some.injEq] at hm
    subst hm
    have hsome : sends s.1 (.move (.advance i ω)) = some a.req.eventId := by
      simp only [sends, ha, hp]
    rw [hsome]
    refine ⟨fun b hb => ?_, send_once h ha hp⟩
    rcases List.mem_or_eq_of_mem_set hb with hb | rfl
    · exact h.stands b hb
    · exact .ended w
  | ended w =>
    simp only [Service.advance, hp] at hm
    cases hm

end Answered

theorem once_step {s s' : History} {l : Label SagaEvent Unit} (h : Once s) (hok : Unraced s l)
    (hstep : deliver s l = some s') : Once s' := by
  obtain ⟨hstep, hsent⟩ := recording_eq_some hstep
  obtain ⟨srv, sent⟩ := s'
  obtain rfl : sent = _ := hsent
  cases l with
  | start e =>
    cases hstep
    exact once_start h e
  | move m =>
    cases m with
    | advance i ω => exact once_advance h hok hstep
    | finish i =>
      obtain ⟨a, ha, hm⟩ := Option.bind_eq_some_iff.mp hstep
      unfold Service.finish at hm
      split at hm
      · split at hm
        · cases hm
          exact once_close h ha _ _
        · cases hm
          exact once_close h ha _ s.1.db
      · cases hm
        exact once_close h ha _ s.1.db
      · cases hm
    | crash i =>
      obtain ⟨a, ha, rfl⟩ := Option.map_eq_some_iff.mp hstep
      exact once_close h ha _ s.1.db

/-- However deliveries overlap, fail and are repeated, `send_order_confirmation` is executed at most
    once for an event, along runs whose lookups are not raced. -/
theorem sent_once {db : NotificationDb} {sent : List Confirmation}
    {ls : List (Label SagaEvent Unit)}
    {s : History} (h : Reaches deliver Unraced (Server.init db sent, []) ls s) (id : Ident) :
    s.2.count id ≤ 1 := by
  have honce : Once s :=
    h.invariant Once (once_init db sent) fun _ _ _ hs hok hstep => once_step hs hok hstep
  exact Nat.le_trans (Nat.le_add_left _ _) (honce.once id)

/-! ## Two runs -/

def payment : SagaEvent :=
  { eventId := .text "e-1", eventType := .paymentSuccessEvent, correlationId := .text "c-1"
    payload := { orderId := some (.text "o-1"), transactionId := some (.text "txn-1") } }

/-- The delivery at place 0 takes a step. -/
def replied : Label SagaEvent Unit := .move (.advance 0 ())

/-- A delivery fails before it sends anything, the next one succeeds, the third finds the inbox row.
    -/
def repeated : List (Label SagaEvent Unit) :=
  [.start payment, replied, .move (.crash 0), .start payment, replied, replied, .move (.finish 0),
    .start payment, replied, .move (.finish 0)]

theorem sent_once_repeated : ∃ s, Reaches deliver Unraced (Server.init .empty [], []) repeated s ∧
    s.2 = [.text "e-1"] ∧ s.2.count (.text "e-1") ≤ 1 := by
  obtain ⟨s, hrun, hsent⟩ : ∃ s, Reaches deliver Unraced (Server.init .empty [], []) repeated s ∧
      s.2 = [.text "e-1"] := reaches_where (by decide +kernel) (by decide +kernel)
  exact ⟨s, hrun, hsent, sent_once hrun _⟩

/-- The confirmation is sent, the commit never executed, and the event delivered again. -/
def redelivered : List (Label SagaEvent Unit) :=
  [.start payment, replied, replied, .move (.crash 0), .start payment, replied, replied]

/-- The confirmation of an event can be sent more than once. -/
theorem sent_again : ¬ ∀ (db : NotificationDb) (sent : List Confirmation)
    (ls : List (Label SagaEvent Unit)) (s : History) (id : Ident),
    Reaches deliver anyStep (Server.init db sent, []) ls s → s.2.count id ≤ 1 := by
  intro hevery
  obtain ⟨s, hrun, htwice⟩ : ∃ s,
      Reaches deliver anyStep (Server.init .empty [], []) redelivered s ∧
      s.2.count (.text "e-1") = 2 :=
    reaches_where (allSteps_of_forall (fun _ _ _ => trivial) _) (by decide +kernel)
  have honce := hevery _ _ _ s (.text "e-1") hrun
  omega

end CloudScale.NotificationService
