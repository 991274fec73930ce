/-
  The headers of what the client puts on the wire (`lib/api-client.ts`).

  `Keeps` is what a step does with the attempts under way: a property that it keeps holds of all of
  them, and of everything that has been sent. `keys_run`: one idempotency key for each call, and a
  call is sent again only after a 401. `tenants_run`: the tenant of a call, where the tenant is
  switched only while nothing is under way; `switched_midway` is a run where it is not.
  `authorizations_run`: only tokens that were issued.
-/
import CloudScale.Frontend.Transmissions

namespace CloudScale.Frontend.Transmissions

open CloudScale.Lib

/-! ## What is done with an attempt -/

/-- All attempts under way. -/
def ApiClient.underWay (c : ApiClient) : List RequestConfig := c.created ++ c.away

/-- The access token that a step brings. -/
def ApiLabel.token : ApiLabel → Option String
  | .refreshed _ data => some data.accessToken
  | .login _ accessToken _ => some accessToken
  | _ => none

/-- What a step does with an attempt keeps `K`. -/
structure Keeps (correlationId : String) (s : ApiClient) (l : ApiLabel) (K : RequestConfig → Prop) :
    Prop where
  again : ∀ r id token, K r → l.token = some token → K (r.again id token)
  retry : ∀ r, K r → K { r with retry := true }
  fresh : ∀ id call method, s.calls ≤ call → K ⟨id, call, s.activeTenantId, method, {}, false⟩
  leave : ∀ i uuid r, l = .dispatch i uuid → r ∈ s.created → K r →
    K (s.onRequest correlationId uuid r)

section Attempts

variable {correlationId : String} {s c : ApiClient} {l : ApiLabel} {K : RequestConfig → Prop}
  {r : RequestConfig} {token : Option String}

theorem truthy_eq_some {t : String} (h : truthy token = some t) : token = some t :=
  (Option.filter_eq_some_iff.mp h).1

theorem Keeps.request (h : Keeps correlationId s l K) (hc : ∀ x ∈ c.created, K x)
    (hcalls : c.calls = s.calls) (htenant : c.activeTenantId = s.activeTenantId) (method : Method) :
    ∀ x ∈ (c.request method).created, K x := by
  refine List.forall_mem_append.mpr ⟨hc, List.forall_mem_singleton.mpr ?_⟩
  rw [htenant]
  exact h.fresh _ _ _ (Nat.le_of_eq hcalls.symm)

theorem Keeps.release (h : Keeps correlationId s l K)
    (htoken : ∀ t, token = some t → l.token = some t) (hc : ∀ x ∈ c.created, K x) (hr : K r) :
    ∀ x ∈ (c.release token r).created, K x := by
  unfold ApiClient.release
  split
  · next t ht =>
    refine List.forall_mem_append.mpr ⟨hc, List.forall_mem_singleton.mpr ?_⟩
    exact h.again _ _ _ hr (htoken t (truthy_eq_some ht))
  · exact hc

theorem Keeps.releases (h : Keeps correlationId s l K)
    (htoken : ∀ t, token = some t → l.token = some t) {queue : List RequestConfig}
    (hc : ∀ x ∈ c.created, K x) (hqueue : ∀ x ∈ queue, K x) :
    ∀ x ∈ (queue.foldl (ApiClient.release token) c).created, K x := by
  induction queue generalizing c with
  | nil => exact hc
  | cons r queue ih =>
    obtain ⟨hr, hqueue⟩ := List.forall_mem_cons.mp hqueue
    exact ih (h.release htoken hc hr) hqueue

theorem underWay_iff {c : ApiClient} : (∀ x ∈ c.underWay, K x) ↔ (∀ x ∈ c.created, K x) ∧
    (∀ x ∈ c.inFlight, K x) ∧ (∀ x ∈ c.failedQueue, K x) ∧ ∀ x ∈ c.refreshes, K x := by
  unfold ApiClient.underWay ApiClient.away
  simp only [List.forall_mem_append, and_assoc]

theorem forall_eraseIdx {rs : List RequestConfig} (h : ∀ x ∈ rs, K x) (i : ℕ) :
    ∀ x ∈ rs.eraseIdx i, K x := fun x hx => h x (List.mem_of_mem_eraseIdx hx)

theorem Keeps.onError (h : Keeps correlationId s l K) (hc : ∀ x ∈ c.underWay, K x) (hr : K r)
    (hcalls : c.calls = s.calls) (htenant : c.activeTenantId = s.activeTenantId)
    (status : Option ℕ) : ∀ x ∈ (c.onError r status).underWay, K x := by
  obtain ⟨hcreated, hinFlight, hqueue, hrefreshes⟩ := underWay_iff.mp hc
  unfold ApiClient.onError
  split
  · split
    · refine underWay_iff.mpr ⟨hcreated, hinFlight, ?_, hrefreshes⟩
      exact List.forall_mem_append.mpr ⟨hqueue, List.forall_mem_singleton.mpr hr⟩
    · dsimp only
      split
      · exact underWay_iff.mpr ⟨h.request (c := { c with isRefreshing := true }) hcreated hcalls
          htenant .post, hinFlight, hqueue, hrefreshes⟩
      · refine underWay_iff.mpr ⟨hcreated, hinFlight, hqueue, ?_⟩
        exact List.forall_mem_append.mpr ⟨hrefreshes, List.forall_mem_singleton.mpr (h.retry r hr)⟩
  · exact hc

theorem Keeps.processQueue (h : Keeps correlationId s l K)
    (htoken : ∀ t, token = some t → l.token = some t) (hc : ∀ x ∈ c.underWay, K x) :
    ∀ x ∈ (c.processQueue token).underWay, K x := by
  obtain ⟨hcreated, hinFlight, hqueue, hrefreshes⟩ := underWay_iff.mp hc
  have hframe := framed_releases token c.failedQueue c
  refine underWay_iff.mpr ⟨h.releases htoken hcreated hqueue, ?_, ?_, ?_⟩
  · exact hframe.inFlight.symm ▸ hinFlight
  · exact fun x hx => absurd hx List.not_mem_nil
  · exact hframe.refreshes.symm ▸ hrefreshes

/-- What a step keeps of every attempt under way. -/
theorem Keeps.step {t : ApiClient} (h : Keeps correlationId s l K) (hs : ∀ x ∈ s.underWay, K x)
    (hstep : s.step correlationId l = some t) : ∀ x ∈ t.underWay, K x := by
  obtain ⟨hcreated, hinFlight, hqueue, hrefreshes⟩ := underWay_iff.mp hs
  cases l with
  | send method =>
    obtain rfl := Option.some.inj hstep
    exact underWay_iff.mpr ⟨h.request hcreated rfl rfl method, hinFlight, hqueue, hrefreshes⟩
  | dispatch i uuid =>
    obtain ⟨r, hr, rfl⟩ := Option.map_eq_some_iff.mp hstep
    have hmem := List.mem_of_getElem? hr
    refine underWay_iff.mpr ⟨forall_eraseIdx hcreated i, ?_, hqueue, hrefreshes⟩
    exact List.forall_mem_append.mpr
      ⟨hinFlight, List.forall_mem_singleton.mpr (h.leave i uuid r rfl hmem (hcreated r hmem))⟩
  | respond i response =>
    obtain ⟨r, hr, rfl⟩ := Option.map_eq_some_iff.mp hstep
    have hK := hinFlight r (List.mem_of_getElem? hr)
    have hrest : ∀ x ∈ { s with inFlight := s.inFlight.eraseIdx i }.underWay, K x :=
      underWay_iff.mpr ⟨hcreated, forall_eraseIdx hinFlight i, hqueue, hrefreshes⟩
    cases response with
    | fulfilled => exact hrest
    | error status =>
      unfold ApiClient.receive
      dsimp only
      split
      · exact h.onError (c := { s with
          inFlight := s.inFlight.eraseIdx i, log := .unauthorized r.id :: s.log }) hrest hK rfl rfl
          status
      · exact h.onError hrest hK rfl rfl status
  | refreshed i data =>
    obtain ⟨r, hr, rfl⟩ := Option.map_eq_some_iff.mp hstep
    have hK := hrefreshes r (List.mem_of_getElem? hr)
    have hrest : ∀ x ∈ { s with
        refreshes := s.refreshes.eraseIdx i, isRefreshing := false
        store := setCredentials data.user data.accessToken data.refreshToken }.underWay, K x :=
      underWay_iff.mpr ⟨hcreated, hinFlight, hqueue, forall_eraseIdx hrefreshes i⟩
    obtain ⟨hcreated', hothers⟩ := underWay_iff.mp
      (h.processQueue (fun _ ht => ht) hrest : ∀ x ∈ (ApiClient.processQueue _
        (some data.accessToken)).underWay, K x)
    refine underWay_iff.mpr ⟨?_, hothers⟩
    exact List.forall_mem_append.mpr
      ⟨hcreated', List.forall_mem_singleton.mpr (h.again _ _ _ hK rfl)⟩
  | refreshFailed i =>
    obtain ⟨r, hr, rfl⟩ := Option.map_eq_some_iff.mp hstep
    have hrest : ∀ x ∈ { s with
        refreshes := s.refreshes.eraseIdx i, isRefreshing := false }.underWay, K x :=
      underWay_iff.mpr ⟨hcreated, hinFlight, hqueue, forall_eraseIdx hrefreshes i⟩
    obtain ⟨hcreated', hothers⟩ := underWay_iff.mp
      (h.processQueue (fun _ ht => by cases ht) hrest :
        ∀ x ∈ (ApiClient.processQueue _ none).underWay, K x)
    have hframe := framed_releases none s.failedQueue { s with
      refreshes := s.refreshes.eraseIdx i, isRefreshing := false }
    exact underWay_iff.mpr ⟨h.request hcreated' hframe.calls hframe.activeTenantId .post, hothers⟩
  | login user accessToken refreshToken =>
    obtain rfl := Option.some.inj hstep
    exact hs
  | logout =>
    obtain rfl := Option.some.inj hstep
    exact underWay_iff.mpr ⟨h.request hcreated rfl rfl .post, hinFlight, hqueue, hrefreshes⟩
  | switchTenant tenantId =>
    obtain rfl := Option.some.inj hstep
    exact hs

theorem wire_onError (c : ApiClient) (r : RequestConfig) (status : Option ℕ) :
    (c.onError r status).wire = c.wire := by
  unfold ApiClient.onError
  split
  · split
    · rfl
    · dsimp only
      split
      · rfl
      · rfl
  · rfl

theorem wire_receive (c : ApiClient) (r : RequestConfig) (response : Response) :
    (c.receive r response).wire = c.wire := by
  cases response with
  | fulfilled => rfl
  | error status =>
    unfold ApiClient.receive
    dsimp only
    rw [wire_onError]
    split
    · rfl
    · rfl

/-- Only a dispatch puts something on the wire. -/
theorem step_wire {t : ApiClient} (hstep : s.step correlationId l = some t) :
    (∃ i uuid r, l = .dispatch i uuid ∧ s.created[i]? = some r ∧
      t = s.sent i (s.onRequest correlationId uuid r)) ∨ t.wire = s.wire := by
  cases l with
  | dispatch i uuid =>
    obtain ⟨r, hr, rfl⟩ := Option.map_eq_some_iff.mp hstep
    exact .inl ⟨i, uuid, r, rfl, hr, rfl⟩
  | respond i response =>
    obtain ⟨r, hr, rfl⟩ := Option.map_eq_some_iff.mp hstep
    exact .inr (wire_receive _ r response)
  | refreshed i data =>
    obtain ⟨r, hr, rfl⟩ := Option.map_eq_some_iff.mp hstep
    exact .inr (framed_releases _ s.failedQueue _).wire
  | refreshFailed i =>
    obtain ⟨r, hr, rfl⟩ := Option.map_eq_some_iff.mp hstep
    exact .inr (framed_releases _ s.failedQueue _).wire
  | send method | login user accessToken refreshToken | logout | switchTenant tenantId =>
    obtain rfl := Option.some.inj hstep
    exact .inr rfl

/-- What holds of every attempt under way, and so of everything that was sent. -/
theorem Keeps.wire {t : ApiClient} (h : Keeps correlationId s l K) (hs : ∀ x ∈ s.underWay, K x)
    (hwire : ∀ x ∈ s.wire, K x) (hstep : s.step correlationId l = some t) : ∀ x ∈ t.wire, K x := by
  rcases step_wire hstep with ⟨i, uuid, r, rfl, hr, rfl⟩ | heq
  · have hmem := List.mem_of_getElem? hr
    refine List.forall_mem_cons.mpr ⟨h.leave i uuid r rfl hmem (hs r ?_), hwire⟩
    exact List.mem_append_left _ hmem
  · exact heq ▸ hwire

end Attempts

/-! ## Keys -/

/-- `randomUUID` returns a text that no request has gone out with. -/
def FreshUuid (c : ApiClient) : ApiLabel → Prop
  | .dispatch _ uuid => uuid ≠ "" ∧ ∀ y ∈ c.wire, y.headers.idempotencyKey ≠ some uuid
  | _ => True

instance (c : ApiClient) (l : ApiLabel) : Decidable (FreshUuid c l) := by
  unfold FreshUuid
  split <;> infer_instance

/-- The attempts of a call that has left have its method and its key. -/
structure SameKey (y r : RequestConfig) : Prop where
  method : r.method = y.method
  key : r.headers.idempotencyKey = y.headers.idempotencyKey

/-- What is known of the keys, of what was sent and of the attempts `hs` under way. -/
structure Keyed (wire hs : List RequestConfig) : Prop where
  same : ∀ r ∈ hs, ∀ y ∈ wire, y.call = r.call → SameKey y r
  sent : ∀ x ∈ wire, ∀ y ∈ wire, x.call = y.call → SameKey x y
  first : ∀ r ∈ hs, r.headers.idempotencyKey ≠ none → ∃ y ∈ wire, y.call = r.call
  keyed : ∀ y ∈ wire, y.method.mutating = true → (truthy y.headers.idempotencyKey).isSome = true
  plain : ∀ y ∈ wire, y.method.mutating = false → y.headers.idempotencyKey = none
  distinct : ∀ x ∈ wire, ∀ y ∈ wire, x.method.mutating = true → y.method.mutating = true →
    x.headers.idempotencyKey = y.headers.idempotencyKey → x.call = y.call

namespace Keyed

variable {wire hs hs' : List RequestConfig} {r : RequestConfig}

/-- Attempts of the same calls with other marks on them, and new calls. -/
theorem extend (h : Keyed wire hs) (hsub : ∀ r' ∈ hs', (∃ r ∈ hs, r'.call = r.call ∧ SameKey r r') ∨
      r'.headers.idempotencyKey = none ∧ ∀ y ∈ wire, y.call ≠ r'.call) : Keyed wire hs' where
  same r' hr' y hy heq := by
    rcases hsub r' hr' with ⟨r, hr, hcall, hmark⟩ | ⟨-, hnew⟩
    · have hsame := h.same r hr y hy (heq.trans hcall)
      exact ⟨hmark.method.trans hsame.method, hmark.key.trans hsame.key⟩
    · exact absurd heq (hnew y hy)
  sent := h.sent
  first r' hr' hne := by
    rcases hsub r' hr' with ⟨r, hr, hcall, hmark⟩ | ⟨hnone, -⟩
    · obtain ⟨y, hy, heq⟩ := h.first r hr (hmark.key ▸ hne)
      exact ⟨y, hy, heq.trans hcall.symm⟩
    · exact absurd hnone hne
  keyed := h.keyed
  plain := h.plain
  distinct := h.distinct

/-- An attempt of a call that has left before keeps its key. -/
theorem idempotencyKey_eq (h : Keyed wire hs) (hr : r ∈ hs) {y : RequestConfig} (hy : y ∈ wire)
    (heq : y.call = r.call) (uuid : String) :
    idempotencyKey uuid r = r.headers.idempotencyKey := by
  have hsame := h.same r hr y hy heq
  refine if_neg fun hdraw => ?_
  have hkeyed := h.keyed y hy (hsame.method ▸ hdraw.1)
  rw [← hsame.key, hdraw.2] at hkeyed
  cases hkeyed

/-- A key that a call already has went out with it. -/
theorem call_of_key (h : Keyed wire hs) (hr : r ∈ hs)
    (hkey : (truthy r.headers.idempotencyKey).isSome = true) : ∃ y ∈ wire, y.call = r.call := by
  refine h.first r hr fun hnone => ?_
  rw [hnone] at hkey
  cases hkey

/-- A key that a mutating call has sent is carried by no other call, a reading one included. -/
theorem call_eq (h : Keyed wire hs) {x y : RequestConfig} (hx : x ∈ wire) (hy : y ∈ wire)
    (hmut : x.method.mutating = true)
    (hkey : x.headers.idempotencyKey = y.headers.idempotencyKey) : x.call = y.call := by
  cases hmut' : y.method.mutating with
  | true => exact h.distinct x hx y hy hmut hmut' hkey
  | false =>
    have hkeyed := h.keyed x hx hmut
    rw [hkey, h.plain y hy hmut'] at hkeyed
    cases hkeyed

/-- What leaves with a key has that key or a fresh one. -/
theorem sent_call (h : Keyed wire hs) (hr : r ∈ hs) {uuid : String}
    (hfresh : ∀ y ∈ wire, y.headers.idempotencyKey ≠ some uuid)
    (hmutating : r.method.mutating = true) {y : RequestConfig} (hy : y ∈ wire)
    (hmut : y.method.mutating = true)
    (heq : idempotencyKey uuid r = y.headers.idempotencyKey) : y.call = r.call := by
  cases hkey : truthy r.headers.idempotencyKey with
  | none =>
    unfold idempotencyKey at heq
    rw [if_pos ⟨hmutating, hkey⟩] at heq
    exact absurd heq.symm (hfresh y hy)
  | some key =>
    obtain ⟨z, hz, hcall⟩ := h.call_of_key hr (by rw [hkey]; rfl)
    have hsame := h.same r hr z hz hcall
    rw [h.idempotencyKey_eq hr hz hcall] at heq
    have hzy := h.distinct z hz y hy (hsame.method ▸ hmutating) hmut (hsame.key.symm.trans heq)
    exact hzy.symm.trans hcall

/-- An attempt leaves: `sent` is what the interceptor made of it. -/
theorem leave (h : Keyed wire (r :: hs)) {uuid : String} (huuid : uuid ≠ "")
    (hfresh : ∀ y ∈ wire, y.headers.idempotencyKey ≠ some uuid)
    (hother : ∀ x ∈ hs, x.call ≠ r.call) (sent : RequestConfig) (hcall : sent.call = r.call)
    (hmethod : sent.method = r.method)
    (hkey : sent.headers.idempotencyKey = idempotencyKey uuid r) :
    Keyed (sent :: wire) (sent :: hs) := by
  have hr : r ∈ r :: hs := List.mem_cons_self
  have hbefore : ∀ y ∈ wire, y.call = r.call → SameKey y sent := by
    intro y hy heq
    have hsame := h.same r hr y hy heq
    exact ⟨hmethod.trans hsame.method,
      hkey.trans ((h.idempotencyKey_eq hr hy heq uuid).trans hsame.key)⟩
  have hself : SameKey sent sent := ⟨rfl, rfl⟩
  have hsent : ∀ y ∈ wire, sent.method.mutating = true → y.method.mutating = true →
      sent.headers.idempotencyKey = y.headers.idempotencyKey → y.call = sent.call := by
    intro y hy hmut hmut' heq
    rw [hcall]
    exact h.sent_call hr hfresh (hmethod ▸ hmut) hy hmut' (hkey.symm.trans heq)
  refine ⟨?_, ?_, ?_, ?_, ?_, ?_⟩
  · refine List.forall_mem_cons.mpr ⟨List.forall_mem_cons.mpr ⟨fun _ => hself, ?_⟩, fun x hx => ?_⟩
    · exact fun y hy heq => hbefore y hy (heq.trans hcall)
    · refine List.forall_mem_cons.mpr ⟨fun heq => ?_, h.same x (List.mem_cons_of_mem r hx)⟩
      exact absurd (heq.symm.trans hcall) (hother x hx)
  · refine List.forall_mem_cons.mpr ⟨List.forall_mem_cons.mpr ⟨fun _ => hself, ?_⟩, fun x hx => ?_⟩
    · intro y hy heq
      have hsame := hbefore y hy (heq.symm.trans hcall)
      exact ⟨hsame.method.symm, hsame.key.symm⟩
    · refine List.forall_mem_cons.mpr ⟨fun heq => ?_, h.sent x hx⟩
      exact hbefore x hx (heq.trans hcall)
  · refine List.forall_mem_cons.mpr ⟨fun _ => ⟨sent, List.mem_cons_self, rfl⟩, fun x hx hne => ?_⟩
    obtain ⟨y, hy, heq⟩ := h.first x (List.mem_cons_of_mem r hx) hne
    exact ⟨y, List.mem_cons_of_mem sent hy, heq⟩
  · refine List.forall_mem_cons.mpr ⟨fun hmut => ?_, h.keyed⟩
    rw [hkey]
    unfold idempotencyKey
    split
    · simp [truthy, huuid]
    · next hhas =>
      cases hold : truthy r.headers.idempotencyKey with
      | none => exact absurd ⟨hmethod ▸ hmut, hold⟩ hhas
      | some key => rfl
  · refine List.forall_mem_cons.mpr ⟨fun hplain => ?_, h.plain⟩
    rw [hmethod] at hplain
    have hkeep : idempotencyKey uuid r = r.headers.idempotencyKey :=
      if_neg fun hdraw => by simp [hplain] at hdraw
    rw [hkey, hkeep]
    by_contra hne
    obtain ⟨y, hy, heq⟩ := h.first r hr hne
    have hsame := h.same r hr y hy heq
    exact hne (hsame.key.trans (h.plain y hy (hsame.method ▸ hplain)))
  · refine List.forall_mem_cons.mpr
      ⟨List.forall_mem_cons.mpr ⟨fun _ _ _ => rfl, ?_⟩, fun x hx => ?_⟩
    · exact fun y hy hmut hmut' heq => (hsent y hy hmut hmut' heq).symm
    · refine List.forall_mem_cons.mpr ⟨fun hmut hmut' heq => ?_, h.distinct x hx⟩
      exact hsent x hx hmut' hmut heq.symm

end Keyed

section KeyRuns

variable {correlationId : String} {s t c : ApiClient} {l : ApiLabel} {ls : List ApiLabel}

/-- Where an attempt under way after a step comes from, as to its call and key. -/
def FromCall (s : ApiClient) (r' : RequestConfig) : Prop :=
  (∃ r ∈ s.underWay, r'.call = r.call ∧ SameKey r r') ∨
    r'.headers.idempotencyKey = none ∧ s.calls ≤ r'.call

theorem keeps_fromCall (hl : ∀ i uuid, l ≠ .dispatch i uuid) :
    Keeps correlationId s l (FromCall s) where
  again _ _ _ hr _ :=
    hr.imp (fun ⟨x, hx, hcall, hsame⟩ => ⟨x, hx, hcall, hsame.method, hsame.key⟩) id
  retry _ hr := hr.imp (fun ⟨x, hx, hcall, hsame⟩ => ⟨x, hx, hcall, hsame.method, hsame.key⟩) id
  fresh _ _ _ hcall := .inr ⟨rfl, hcall⟩
  leave i uuid _ heq := absurd heq (hl i uuid)

theorem keyed_step (hkept : Kept s) (h : Keyed s.wire s.underWay) (hok : FreshUuid s l)
    (hstep : s.step correlationId l = some t) : Keyed t.wire t.underWay := by
  rcases step_wire hstep with ⟨i, uuid, r, rfl, hr, rfl⟩ | heq
  · obtain ⟨hi, rfl⟩ := List.getElem?_eq_some_iff.mp hr
    have hperm := (List.getElem_cons_eraseIdx_perm hi).symm
    have hhead : Keyed s.wire (s.created[i] :: (s.created.eraseIdx i ++ s.away)) := by
      refine h.extend fun x hx => .inl ⟨x, ?_, rfl, rfl, rfl⟩
      exact (hperm.append_right s.away).mem_iff.mpr hx
    have hleave := hhead.leave hok.1 hok.2 (hkept.accounted.unique hperm)
      (s.onRequest correlationId uuid s.created[i]) rfl rfl rfl
    refine hleave.extend fun x hx => .inl ⟨x, ?_, rfl, rfl, rfl⟩
    revert hx
    simp only [ApiClient.underWay, ApiClient.away, ApiClient.sent, List.mem_append, List.mem_cons,
      List.not_mem_nil, or_false]
    tauto
  · by_cases hl : ∃ i uuid, l = .dispatch i uuid
    · obtain ⟨i, uuid, rfl⟩ := hl
      obtain ⟨r, -, rfl⟩ := Option.map_eq_some_iff.mp hstep
      exact absurd heq (List.cons_ne_self _ _)
    · have hkeeps : Keeps correlationId s l (FromCall s) :=
        keeps_fromCall fun i uuid hl' => hl ⟨i, uuid, hl'⟩
      have hself : ∀ x ∈ s.underWay, FromCall s x := fun x hx => .inl ⟨x, hx, rfl, rfl, rfl⟩
      rw [heq]
      refine h.extend fun x hx => (hkeeps.step hself hstep x hx).imp_right fun hnew => ?_
      refine ⟨hnew.1, fun y hy hcall => ?_⟩
      have hlt := hkept.accounted.wireCalls y hy
      rw [hcall] at hlt
      exact Nat.not_lt_of_le hnew.2 hlt

/-- The idempotency keys of a client, and when it sends a call again. -/
structure KeysKept (c : ApiClient) : Prop where
  keyed : ∀ x ∈ c.wire, x.method.mutating = true → ∃ key ≠ "", x.headers.idempotencyKey = some key
  same : ∀ x ∈ c.wire, ∀ y ∈ c.wire, x.call = y.call →
    x.headers.idempotencyKey = y.headers.idempotencyKey
  distinct : ∀ x ∈ c.wire, ∀ y ∈ c.wire, x.method.mutating = true →
    x.headers.idempotencyKey = y.headers.idempotencyKey → x.call = y.call
  again : c.wire.Pairwise fun x y => x.call = y.call → x.id ≠ y.id ∧ .unauthorized y.id ∈ c.log

/-- In every run in which `randomUUID` does not repeat itself, all attempts to send a mutating call
    carry one idempotency key that no other call carries, through every token rotation; and a call
    is sent again only after its attempts before got a 401. -/
theorem keys_run (store : AuthState) (activeTenantId : String)
    (h : Reaches (ApiClient.step correlationId) FreshUuid (ApiClient.init store activeTenantId) ls
      c) : KeysKept c := by
  have hinv : Kept c ∧ Keyed c.wire c.underWay := by
    refine h.invariant (fun c => Kept c ∧ Keyed c.wire c.underWay)
      ⟨kept_init store activeTenantId, ?_⟩ fun s l t hs hok hstep =>
        ⟨kept_step hs.1 hstep, keyed_step hs.1 hs.2 hok hstep⟩
    exact ⟨fun _ hr => absurd hr List.not_mem_nil, fun _ hr => absurd hr List.not_mem_nil,
      fun _ hr => absurd hr List.not_mem_nil, fun _ hr => absurd hr List.not_mem_nil,
      fun _ hr => absurd hr List.not_mem_nil, fun _ hr => absurd hr List.not_mem_nil⟩
  obtain ⟨hkept, hkeyed⟩ := hinv
  refine ⟨fun x hx hmut => ?_, fun x hx y hy hcall => ?_,
    fun x hx y hy hmut hkey => hkeyed.call_eq hx hy hmut hkey, ?_⟩
  · obtain ⟨key, hkey⟩ := Option.isSome_iff_exists.mp (hkeyed.keyed x hx hmut)
    obtain ⟨heq, hne⟩ := Option.filter_eq_some_iff.mp hkey
    exact ⟨key, of_decide_eq_true hne, heq⟩
  · exact (hkeyed.sent x hx y hy hcall).key.symm
  · have hids : c.wire.Pairwise fun x y => x.id ≠ y.id := by
      have hnodup := hkept.accounted.ids
      rw [List.map_append] at hnodup
      exact List.pairwise_map.mp (List.nodup_append.mp hnodup).2.1
    exact (hids.and hkept.accounted.ordered).imp fun hxy hcall => ⟨hxy.1, hxy.2 hcall⟩

end KeyRuns

/-- The keys of what was sent, latest first. -/
def ApiClient.sentKeys (c : ApiClient) : List (ℕ × Option String) :=
  c.wire.map fun x => (x.call, x.headers.idempotencyKey)

theorem keys_run_rotation : ∃ c, runFrom (ApiClient.step "page") signedIn rotation = some c ∧
    c.sentKeys = [(0, some "u0"), (1, some "u1"), (1, some "u1"), (0, some "u0")] ∧
    KeysKept c := by
  have hok : AllSteps (ApiClient.step "page") FreshUuid signedIn rotation := by decide
  obtain ⟨c, hreaches, hsent⟩ := reaches_where (P := fun c : ApiClient =>
    c.sentKeys = [(0, some "u0"), (1, some "u1"), (1, some "u1"), (0, some "u0")]) hok
    ⟨_, rfl, by decide⟩
  exact ⟨c, hreaches.runFrom, hsent, keys_run _ _ hreaches⟩

/-! ## Tenants -/

/-- The tenant is switched only while nothing is under way. -/
def SwitchedAtRest (c : ApiClient) : ApiLabel → Prop
  | .switchTenant _ => c.underWay = []
  | _ => True

instance (c : ApiClient) (l : ApiLabel) : Decidable (SwitchedAtRest c l) := by
  unfold SwitchedAtRest
  split <;> infer_instance

/-- Whatever is under way was made under the active tenant, and so was what it was sent as. -/
structure Tenanted (c : ApiClient) : Prop where
  madeUnder : ∀ r ∈ c.underWay, r.madeUnder = c.activeTenantId
  before : ∀ r ∈ c.underWay, ∀ y ∈ c.wire, y.call = r.call →
    y.headers.tenantId = some c.activeTenantId
  own : ∀ x ∈ c.wire, x.headers.tenantId = some x.madeUnder
  same : ∀ x ∈ c.wire, ∀ y ∈ c.wire, x.call = y.call → x.headers.tenantId = y.headers.tenantId

section TenantRuns

variable {correlationId : String} {s t c : ApiClient} {l : ApiLabel} {ls : List ApiLabel}

theorem tenant_onError (c : ApiClient) (r : RequestConfig) (status : Option ℕ) :
    (c.onError r status).activeTenantId = c.activeTenantId := by
  unfold ApiClient.onError
  split
  · split
    · rfl
    · dsimp only
      split
      · rfl
      · rfl
  · rfl

theorem tenant_receive (c : ApiClient) (r : RequestConfig) (response : Response) :
    (c.receive r response).activeTenantId = c.activeTenantId := by
  cases response with
  | fulfilled => rfl
  | error status =>
    unfold ApiClient.receive
    dsimp only
    rw [tenant_onError]
    split
    · rfl
    · rfl

/-- Only a switch changes the tenant. -/
theorem step_tenant (hl : ∀ tenantId, l ≠ .switchTenant tenantId)
    (hstep : s.step correlationId l = some t) : t.activeTenantId = s.activeTenantId := by
  cases l with
  | switchTenant tenantId => exact absurd rfl (hl tenantId)
  | dispatch i uuid =>
    obtain ⟨r, hr, rfl⟩ := Option.map_eq_some_iff.mp hstep
    rfl
  | respond i response =>
    obtain ⟨r, hr, rfl⟩ := Option.map_eq_some_iff.mp hstep
    exact tenant_receive _ r response
  | refreshed i data =>
    obtain ⟨r, hr, rfl⟩ := Option.map_eq_some_iff.mp hstep
    exact (framed_releases _ s.failedQueue _).activeTenantId
  | refreshFailed i =>
    obtain ⟨r, hr, rfl⟩ := Option.map_eq_some_iff.mp hstep
    exact (framed_releases _ s.failedQueue _).activeTenantId
  | send method | login user accessToken refreshToken | logout =>
    obtain rfl := Option.some.inj hstep
    rfl

/-- Made under the active tenant, and sent under it if it was sent. -/
def OfTenant (s : ApiClient) (r : RequestConfig) : Prop :=
  r.madeUnder = s.activeTenantId ∧ ∀ y ∈ s.wire, y.call = r.call →
    y.headers.tenantId = some s.activeTenantId

theorem keeps_ofTenant (hkept : Kept s) : Keeps correlationId s l (OfTenant s) where
  again _ _ _ hr _ := hr
  retry _ hr := hr
  fresh id call method hcall := by
    refine ⟨rfl, fun y hy heq => ?_⟩
    have hlt := hkept.accounted.wireCalls y hy
    rw [heq] at hlt
    exact absurd hlt (Nat.not_lt_of_le hcall)
  leave _ _ _ _ _ hr := hr

theorem tenanted_step (hkept : Kept s) (h : Tenanted s) (hok : SwitchedAtRest s l)
    (hstep : s.step correlationId l = some t) : Tenanted t := by
  by_cases hl : ∃ tenantId, l = .switchTenant tenantId
  · obtain ⟨tenantId, rfl⟩ := hl
    obtain rfl := Option.some.inj hstep
    have hrest : ∀ r, r ∉ s.underWay := fun r hr => by
      rw [show s.underWay = [] from hok] at hr
      exact List.not_mem_nil hr
    exact ⟨fun r hr => absurd hr (hrest r), fun r hr => absurd hr (hrest r), h.own, h.same⟩
  · have htenant := step_tenant (fun tenantId heq => hl ⟨tenantId, heq⟩) hstep
    have hself : ∀ x ∈ s.underWay, OfTenant s x := fun x hx =>
      ⟨h.madeUnder x hx, h.before x hx⟩
    have hafter := (keeps_ofTenant hkept).step hself hstep
    rcases step_wire hstep with ⟨i, uuid, r, rfl, hr, rfl⟩ | hwire
    · have hof := hself r (List.mem_append_left _ (List.mem_of_getElem? hr))
      refine ⟨fun x hx => (hafter x hx).1, fun x hx => ?_, ?_, ?_⟩
      · exact List.forall_mem_cons.mpr ⟨fun _ => rfl, (hafter x hx).2⟩
      · exact List.forall_mem_cons.mpr ⟨congrArg some hof.1.symm, h.own⟩
      · refine List.forall_mem_cons.mpr
          ⟨List.forall_mem_cons.mpr ⟨fun _ => rfl, ?_⟩, fun x hx => ?_⟩
        · exact fun y hy heq => (hof.2 y hy heq.symm).symm
        · exact List.forall_mem_cons.mpr ⟨fun heq => hof.2 x hx heq, h.same x hx⟩
    · refine ⟨fun x hx => ?_, fun x hx => ?_, ?_, ?_⟩
      · rw [htenant]
        exact (hafter x hx).1
      · rw [htenant, hwire]
        exact (hafter x hx).2
      · exact hwire ▸ h.own
      · exact hwire ▸ h.same

/-- Where the visitor switches the tenant only while nothing is under way, every attempt carries the
    tenant under which the page made the call, and all attempts of a call the same one. -/
theorem tenants_run (store : AuthState) (activeTenantId : String)
    (h : Reaches (ApiClient.step correlationId) SwitchedAtRest
      (ApiClient.init store activeTenantId) ls c) : Tenanted c := by
  have hinit : Tenanted (ApiClient.init store activeTenantId) :=
    ⟨fun _ hr => absurd hr List.not_mem_nil, fun _ hr => absurd hr List.not_mem_nil,
      fun _ hr => absurd hr List.not_mem_nil, fun _ hr => absurd hr List.not_mem_nil⟩
  exact (h.invariant (fun c => Kept c ∧ Tenanted c) ⟨kept_init store activeTenantId, hinit⟩
    fun s l t hs hok hstep => ⟨kept_step hs.1 hstep, tenanted_step hs.1 hs.2 hok hstep⟩).2

/-- A call, a switch, and a call. -/
def switchBetween : List ApiLabel :=
  [.send .get, .dispatch 0 "u0", .respond 0 .fulfilled, .switchTenant "other-tenant", .send .post,
    .dispatch 0 "u1"]

theorem tenants_run_switch : ∃ c, runFrom (ApiClient.step "page") signedIn switchBetween = some c ∧
    c.wire.map (·.headers.tenantId) = [some "other-tenant", some "default-tenant"] ∧
    Tenanted c := by
  have hok : AllSteps (ApiClient.step "page") SwitchedAtRest signedIn switchBetween := by decide
  obtain ⟨c, hreaches, hsent⟩ := reaches_where (P := fun c : ApiClient =>
    c.wire.map (·.headers.tenantId) = [some "other-tenant", some "default-tenant"]) hok
    ⟨_, rfl, by decide⟩
  exact ⟨c, hreaches.runFrom, hsent, tenants_run _ _ hreaches⟩

/-- A call made under one tenant is sent under another, with the same key, when the visitor
    switches while its token is refreshed. -/
theorem switched_midway : ∃ ls c, runFrom (ApiClient.step "page") signedIn ls = some c ∧
    c.wire.map (fun x => (x.call, x.headers.tenantId, x.headers.idempotencyKey)) =
      [(0, some "other-tenant", some "u0"), (0, some "default-tenant", some "u0")] :=
  ⟨[.send .post, .dispatch 0 "u0", .respond 0 (.error (some 401)), .switchTenant "other-tenant",
      .refreshed 0 { accessToken := "a1", refreshToken := "r1", user := none }, .dispatch 0 "u1"],
    _, rfl, by decide⟩

end TenantRuns

/-! ## Authorization -/

/-- The access tokens of a run: those of the store at first, of the logins and of the refreshes. -/
def Issued (store : AuthState) (ls : List ApiLabel) (token : String) : Prop :=
  store.accessToken = some token ∨ ∃ l ∈ ls, l.token = some token

/-- No `Authorization` header, or one with such a token. -/
def AuthorizedBy (P : String → Prop) (r : RequestConfig) : Prop :=
  ∀ a, r.headers.authorization = some a → ∃ token, P token ∧ a = "Bearer " ++ token

section AuthorizationRuns

variable {correlationId : String} {s t c : ApiClient} {l : ApiLabel} {ls : List ApiLabel}
  {P : String → Prop}

theorem keeps_authorizedBy (hl : ∀ token, l.token = some token → P token)
    (hstore : ∀ token, s.store.accessToken = some token → P token) :
    Keeps correlationId s l (AuthorizedBy P) where
  again _ _ token _ htoken a ha := ⟨token, hl token htoken, (Option.some.inj ha).symm⟩
  retry _ hr := hr
  fresh _ _ _ _ a ha := by cases ha
  leave _ uuid r _ _ hr a ha := by
    unfold ApiClient.onRequest at ha
    dsimp only at ha
    split at ha
    · next token htoken =>
      exact ⟨token, hstore token (truthy_eq_some htoken), (Option.some.inj ha).symm⟩
    · exact hr a ha

theorem store_onError (c : ApiClient) (r : RequestConfig) (status : Option ℕ) :
    (c.onError r status).store.accessToken = c.store.accessToken ∨
      (c.onError r status).store.accessToken = none := by
  unfold ApiClient.onError
  split
  · split
    · exact .inl rfl
    · dsimp only
      split
      · exact .inr rfl
      · exact .inl rfl
  · exact .inl rfl

/-- The store's token stays, goes, or is the one that the step brings. -/
theorem step_accessToken (hstep : s.step correlationId l = some t) :
    t.store.accessToken = s.store.accessToken ∨ t.store.accessToken = none ∨
      t.store.accessToken = l.token := by
  cases l with
  | dispatch i uuid =>
    obtain ⟨r, hr, rfl⟩ := Option.map_eq_some_iff.mp hstep
    exact .inl rfl
  | respond i response =>
    obtain ⟨r, hr, rfl⟩ := Option.map_eq_some_iff.mp hstep
    cases response with
    | fulfilled => exact .inl rfl
    | error status =>
      unfold ApiClient.receive
      dsimp only
      split
      · exact (store_onError _ r status).imp id .inl
      · exact (store_onError _ r status).imp id .inl
  | refreshed i data =>
    obtain ⟨r, hr, rfl⟩ := Option.map_eq_some_iff.mp hstep
    exact .inr (.inr (congrArg AuthState.accessToken (framed_releases _ s.failedQueue _).store))
  | refreshFailed i =>
    obtain ⟨r, hr, rfl⟩ := Option.map_eq_some_iff.mp hstep
    exact .inr (.inl rfl)
  | login user accessToken refreshToken =>
    obtain rfl := Option.some.inj hstep
    exact .inr (.inr rfl)
  | logout =>
    obtain rfl := Option.some.inj hstep
    exact .inr (.inl rfl)
  | send method | switchTenant tenantId =>
    obtain rfl := Option.some.inj hstep
    exact .inl rfl

/-- In every run, every attempt that leaves carries no token or one that a login or a refresh of
    this run has brought, or that the store held at first. -/
theorem authorizations_run (store : AuthState) (activeTenantId : String)
    (h : Reaches (ApiClient.step correlationId) anyStep (ApiClient.init store activeTenantId) ls
      c) :
    ∀ x ∈ c.wire, AuthorizedBy (Issued store ls) x := by
  refine (h.labels.invariant (fun c => (∀ token, c.store.accessToken = some token →
    Issued store ls token) ∧ (∀ x ∈ c.underWay, AuthorizedBy (Issued store ls) x) ∧
    ∀ x ∈ c.wire, AuthorizedBy (Issued store ls) x) ⟨fun _ htoken => .inl htoken,
      fun _ hr => absurd hr List.not_mem_nil, fun _ hr => absurd hr List.not_mem_nil⟩ ?_).2.2
  rintro s l t ⟨hstore, hunderWay, hwire⟩ ⟨-, hmem⟩ hstep
  have hissued : ∀ token, l.token = some token → Issued store ls token := fun token htoken =>
    .inr ⟨l, hmem, htoken⟩
  have hkeeps : Keeps correlationId s l (AuthorizedBy (Issued store ls)) :=
    keeps_authorizedBy hissued hstore
  refine ⟨fun token htoken => ?_, hkeeps.step hunderWay hstep, hkeeps.wire hunderWay hwire hstep⟩
  rcases step_accessToken hstep with heq | heq | heq
  · exact hstore token (heq ▸ htoken)
  · rw [heq] at htoken
    cases htoken
  · exact hissued token (heq ▸ htoken)

/-- A call that is sent again after the visitor has logged out. -/
def loggedOutMidway : List ApiLabel :=
  [.send .get, .dispatch 0 "u0", .respond 0 (.error (some 401)), .logout,
    .refreshed 0 { accessToken := "a1", refreshToken := "r1", user := none }, .logout,
    .dispatch 1 "u1"]

theorem authorizations_run_loggedOut :
    ∃ c, runFrom (ApiClient.step "page") signedIn loggedOutMidway = some c ∧
      c.wire.map (·.headers.authorization) = [some "Bearer a1", some "Bearer a0"] ∧
      ∀ x ∈ c.wire, AuthorizedBy (Issued (setCredentials none "a0" "r0") loggedOutMidway) x := by
  have hrun : runFrom (ApiClient.step "page") signedIn loggedOutMidway = some _ := rfl
  exact ⟨_, hrun, by decide, authorizations_run _ _ (reaches_run hrun)⟩

end AuthorizationRuns

end CloudScale.Frontend.Transmissions
