/-
  Which records the outbox worker publishes, and when.

  `reaches_delivery`: a record that was never acknowledged is eligible while fewer than
  `max_retries` of its attempts failed, and from there it is published within `backlog + 1` polls
  once its own sends succeed; after `max_retries` failures it never is
  (`refused_record_is_abandoned`). The induction is on the run; `weight` measures what each poll
  uses up, since every row of a full batch either leaves the table's backlog or counts a failure.
-/
import Mathlib.Algebra.GroupWithZero.Nat
import Mathlib.Algebra.Order.BigOperators.Group.List
import Mathlib.Algebra.Order.Group.Nat
import CloudScale.Shared.Outbox

namespace CloudScale.Shared

open CloudScale.Lib

namespace OutboxWorker

variable {w : OutboxWorker} {s s' : Outbox}

/-! ## A waiting record -/

/-- What is left of the row `r₀` as long as it is not acknowledged: it is unprocessed and has
    counted its failures since. -/
def Waiting (r₀ : OutboxMessage) (failed₀ : List ℕ) (s : Outbox) (r : OutboxMessage) : Prop :=
  r ∈ s.table.rows ∧ r.id = r₀.id ∧ r.payload = r₀.payload ∧ r.createdAt = r₀.createdAt ∧
    r.processed = false ∧ ∃ f, s.failed = failed₀ ++ f ∧
      r.retryCount = r₀.retryCount + f.count r₀.id

theorem waiting_step {r₀ r : OutboxMessage} {failed₀ : List ℕ} {l : OutboxLabel}
    (hr : Waiting r₀ failed₀ s r) (h : w.step s l = some s') :
    r₀.id ∈ s'.acked ∨ ∃ r', Waiting r₀ failed₀ s' r' := by
  obtain ⟨hmem, hid, hpay, hcreated, hp, f, hf, hcount⟩ := hr
  rcases step_cases h with ⟨x, -, -, -, hrows, -, -, hfailed⟩ |
    ⟨order, acks, died, -, hfetch, -, hacked, ⟨n, -, htable, hfailed⟩ | ⟨rfl, htable, hfailed⟩⟩
  · refine Or.inr ⟨r, ?_, hid, hpay, hcreated, hp, f, hfailed.trans hf, hcount⟩
    rw [hrows]
    exact List.mem_cons_of_mem x hmem
  · exact Or.inr ⟨r, htable ▸ hmem, hid, hpay, hcreated, hp, f, hfailed.trans hf, hcount⟩
  · by_cases hb : r ∈ w.attempted order none ∧ w.publishes acks r = true
    · left
      rw [hacked, ← hid]
      exact List.mem_append_right _ (mem_published hb.1 hb.2)
    · refine Or.inr ⟨w.updateRow acks (w.attempted order none) r, ?_, ?_⟩
      · rw [htable]
        exact List.mem_map_of_mem hmem
      · have hnew : (w.unpublished acks (w.attempted order none)).count r₀.id = _ :=
          hid ▸ count_unpublished hfetch hmem
        obtain ⟨hid', -, -, hpay', hcreated'⟩ := w.updateRow_fixed acks (w.attempted order none) r
        refine ⟨hid'.trans hid, hpay'.trans hpay, hcreated'.trans hcreated, ?_,
          f ++ w.unpublished acks (w.attempted order none), ?_, ?_⟩
        · exact unprocessed_updateRow hp hb
        · rw [hfailed, hf, List.append_assoc]
        · rw [List.count_append, hnew, ← Nat.add_assoc, ← hcount]
          by_cases hr : r ∈ w.attempted order none
          · simp [updateRow, processRecord, hr, not_and.mp hb hr]
          · simp [updateRow, hr]

variable (w) in
/-- How many failures the eligible row `x` can still take, if it comes before `r`. -/
def weight (r x : OutboxMessage) : ℕ :=
  if w.eligible x = true ∧ x.createdAt ≤ r.createdAt then w.maxRetries - x.retryCount else 0

variable (w) in
/-- The attempts the rows before `r` can still take. -/
def backlog (s : Outbox) (r : OutboxMessage) : ℕ := (s.table.rows.map (w.weight r)).sum

/-- The sends of `r` succeed, polls commit, and nothing is inserted before `r`. -/
def Recovered (r : OutboxMessage) (_ : Outbox) : OutboxLabel → Prop
  | .insert x => r.createdAt < x.createdAt
  | .poll _ acks died => died = none ∧ acks r.id = true

def isPoll : OutboxLabel → Bool
  | .insert _ => false
  | .poll .. => true

def polls (ls : List OutboxLabel) : ℕ := ls.countP isPoll

theorem weight_updateRow_le (r x : OutboxMessage) (acks : ℕ → Bool) (batch : List OutboxMessage) :
    w.weight r (w.updateRow acks batch x) ≤ w.weight r x := by
  unfold updateRow processRecord
  split
  · split
    · simp [weight, eligible]
    · unfold weight
      split
      · next h =>
        obtain ⟨he, hc⟩ := h
        simp only [eligible, Bool.and_eq_true, decide_eq_true_eq] at he
        have hx : w.eligible x = true := by simp [eligible, he.1, Nat.lt_of_succ_lt he.2]
        rw [if_pos ⟨hx, hc⟩]
        show w.maxRetries - (x.retryCount + 1) ≤ w.maxRetries - x.retryCount
        omega
      · exact Nat.zero_le _
  · exact Nat.le_refl _

/-- Being in the batch costs an attempt. -/
theorem weight_updateRow_lt {r x : OutboxMessage} {acks : ℕ → Bool} {batch : List OutboxMessage}
    (hx : x ∈ batch) (he : w.eligible x = true) (hc : x.createdAt ≤ r.createdAt) :
    w.weight r (w.updateRow acks batch x) < w.weight r x := by
  have hlt : x.retryCount < w.maxRetries := by
    simp only [eligible, Bool.and_eq_true, decide_eq_true_eq] at he
    exact he.2
  have hpos : w.weight r x = w.maxRetries - x.retryCount := if_pos ⟨he, hc⟩
  rw [hpos]
  unfold updateRow processRecord
  rw [if_pos hx]
  split
  · simp only [weight, eligible, Bool.not_true, Bool.false_and, Bool.false_eq_true, false_and,
      if_false]
    omega
  · unfold weight
    split
    · show w.maxRetries - (x.retryCount + 1) < w.maxRetries - x.retryCount
      omega
    · omega

/-- When an eligible row is not in the batch, a row of the batch comes before it. -/
theorem exists_attempted_before {r : OutboxMessage} {order : List OutboxMessage}
    (hbatch : 0 < w.batchSize) (hf : w.Fetched s.table order) (hr : r ∈ s.table.rows)
    (he : w.eligible r = true) (hmem : r ∉ w.attempted order none) :
    ∃ x ∈ w.attempted order none, x.createdAt ≤ r.createdAt := by
  have hsplit : order = w.attempted order none ++ order.drop w.batchSize :=
    (List.take_append_drop _ _).symm
  have hdrop : r ∈ order.drop w.batchSize := by
    have horder : r ∈ order := (mem_order hf).mpr ⟨hr, he⟩
    rw [hsplit] at horder
    exact (List.mem_append.mp horder).resolve_left hmem
  obtain ⟨x, hx⟩ : ∃ x, x ∈ w.attempted order none := by
    have hlen : 0 < (w.attempted order none).length := by
      have := List.length_pos_of_mem hdrop
      rw [List.length_drop] at this
      simp only [attempted, List.length_take]
      omega
    exact List.exists_mem_of_length_pos hlen
  have hsorted := hf.2
  rw [hsplit] at hsorted
  exact ⟨x, hx, (List.pairwise_append.mp hsorted).2.2 x hx r hdrop⟩

/-- In a `Recovered` step `r` is acknowledged, or stays and, in a poll, the backlog shrinks. -/
theorem recovered_step {r : OutboxMessage} {l : OutboxLabel} (hbatch : 0 < w.batchSize)
    (hload : (w.loads r.payload).isSome = true) (hr : r ∈ s.table.rows)
    (he : w.eligible r = true) (hok : Recovered r s l) (h : w.step s l = some s') :
    r.id ∈ s'.acked ∨
      r ∈ s'.table.rows ∧ w.backlog s' r + polls [l] ≤ w.backlog s r := by
  rcases step_cases h with ⟨x, rfl, -, -, hrows, -, -, -⟩ |
    ⟨order, acks, died, rfl, hf, -, hacked, hcase⟩
  · have hlt : r.createdAt < x.createdAt := hok
    refine Or.inr ⟨hrows ▸ List.mem_cons_of_mem x hr, ?_⟩
    have hx : w.weight r x = 0 := if_neg fun hx => Nat.not_le_of_lt hlt hx.2
    simp [backlog, hrows, hx, polls, isPoll]
  · obtain ⟨rfl, hack⟩ := hok
    obtain ⟨n, hn, -⟩ | ⟨-, htable, -⟩ := hcase
    · cases hn
    by_cases hmem : r ∈ w.attempted order none
    · left
      rw [hacked]
      exact List.mem_append_right _ (mem_published hmem (by simp [publishes, hload, hack]))
    right
    have hkeep : w.updateRow acks (w.attempted order none) r = r := if_neg hmem
    have hrows : s'.table.rows = s.table.rows.map (w.updateRow acks (w.attempted order none)) := by
      rw [htable]
      rfl
    refine ⟨?_, ?_⟩
    · rw [hrows, ← hkeep]
      exact List.mem_map_of_mem hr
    obtain ⟨x, hx, hle⟩ := exists_attempted_before hbatch hf hr he hmem
    obtain ⟨hxrow, hxe⟩ := mem_attempted hf hx
    have hlt : w.backlog s' r < w.backlog s r := by
      unfold backlog
      rw [hrows, List.map_map]
      exact List.sum_lt_sum _ _ (fun y _ => weight_updateRow_le r y acks _)
        ⟨x, hxrow, weight_updateRow_lt hx hxe hle⟩
    show w.backlog s' r + 1 ≤ w.backlog s r
    exact hlt

/-- An ineligible row is left alone by every step. -/
theorem ineligible_step {r : OutboxMessage} {l : OutboxLabel} (hr : r ∈ s.table.rows)
    (he : w.eligible r = false) (hun : r.id ∉ s.acked) (h : w.step s l = some s') :
    r ∈ s'.table.rows ∧ r.id ∉ s'.acked := by
  rcases step_cases h with ⟨x, -, -, -, hrows, -, hacked, -⟩ |
    ⟨order, acks, died, -, hf, -, hacked, hcase⟩
  · exact ⟨hrows ▸ List.mem_cons_of_mem x hr, hacked ▸ hun⟩
  · have hnot : r ∉ w.attempted order died := by
      intro hmem
      rw [(mem_attempted hf hmem).2] at he
      cases he
    refine ⟨?_, ?_⟩
    · obtain ⟨n, -, htable, -⟩ | ⟨-, htable, -⟩ := hcase
      · exact htable ▸ hr
      · have hkeep : w.updateRow acks (w.attempted order died) r = r := if_neg hnot
        rw [htable, ← hkeep]
        exact List.mem_map_of_mem hr
    · rw [hacked, List.mem_append]
      rintro (hold | hnew)
      · exact hun hold
      · obtain ⟨x, hx, hid⟩ := List.mem_map.mp hnew
        have hx := (List.mem_filter.mp hx).1
        obtain rfl := row_eq_of_id s.table (mem_attempted hf hx).1 hr hid
        exact hnot hx

/-- `n` polls in which the sends of `r` succeed use up `n` attempts of the backlog, or `r` is
    acknowledged. -/
theorem recovered_run {t : Outbox} {r : OutboxMessage} {ls : List OutboxLabel}
    (hbatch : 0 < w.batchSize) (hload : (w.loads r.payload).isSome = true)
    (hr : r ∈ s.table.rows) (he : w.eligible r = true)
    (h : Reaches w.step (Recovered r) s ls t) :
    r.id ∈ t.acked ∨ r ∈ t.table.rows ∧ w.backlog t r + polls ls ≤ w.backlog s r := by
  induction h with
  | start => exact Or.inr ⟨hr, Nat.le_refl _⟩
  | @next ls t u l _ hok hs ih =>
    rcases ih with hacked | ⟨hrt, hle⟩
    · exact Or.inl (acked_grows hs hacked)
    · rcases recovered_step hbatch hload hrt he hok hs with hacked | ⟨hru, hle'⟩
      · exact Or.inl hacked
      · refine Or.inr ⟨hru, ?_⟩
        have hpolls : polls (ls ++ [l]) = polls ls + polls [l] := List.countP_append
        omega

/-- Along every run, a record that was unprocessed at the start and was not acknowledged since is
    eligible exactly while its committed failures stay below `max_retries`. While it is, it is
    published within `backlog + 1` polls in which its own sends succeed; once it is not, it is
    never published. -/
theorem reaches_delivery {s₀ : Outbox} {ls : List OutboxLabel} {r₀ : OutboxMessage}
    (hbatch : 0 < w.batchSize) (h : Reaches w.step anyStep s₀ ls s) (hr₀ : r₀ ∈ s₀.table.rows)
    (hp : r₀.processed = false) (hun : r₀.id ∉ s.acked) :
    ∃ r ∈ s.table.rows, r.id = r₀.id ∧
      (∃ f, s.failed = s₀.failed ++ f ∧
        (w.eligible r = true ↔ r₀.retryCount + f.count r₀.id < w.maxRetries)) ∧
      (w.eligible r = true → (w.loads r₀.payload).isSome = true → ∀ ls' t,
        Reaches w.step (Recovered r) s ls' t → w.backlog s r < polls ls' → r₀.id ∈ t.acked) ∧
      (w.eligible r = false → ∀ ls' t, Reaches w.step anyStep s ls' t → r₀.id ∉ t.acked) := by
  have hwait : r₀.id ∈ s.acked ∨ ∃ r, Waiting r₀ s₀.failed s r := by
    refine h.invariant (fun s => r₀.id ∈ s.acked ∨ ∃ r, Waiting r₀ s₀.failed s r) ?_ ?_
    · exact Or.inr ⟨r₀, hr₀, rfl, rfl, rfl, hp, [], (List.append_nil _).symm, rfl⟩
    · intro s l s' hs _ hstep
      rcases hs with hacked | ⟨r, hr⟩
      · exact Or.inl (acked_grows hstep hacked)
      · exact waiting_step hr hstep
  obtain ⟨r, hr, hid, hpay, -, hrp, f, hf, hcount⟩ := hwait.resolve_left hun
  refine ⟨r, hr, hid, ⟨f, hf, ?_⟩, ?_, ?_⟩
  · rw [← hcount]
    simp [eligible, hrp]
  · intro he hload ls' t ht hpolls
    rcases recovered_run hbatch (hpay ▸ hload) hr he ht with hacked | ⟨-, hle⟩
    · exact hid ▸ hacked
    · omega
  · intro he ls' t ht
    have hinv := ht.invariant (fun t => r ∈ t.table.rows ∧ r.id ∉ t.acked)
      ⟨hr, hid ▸ hun⟩ fun t l t' hi _ hstep => ineligible_step hi.1 he hi.2 hstep
    exact hid ▸ hinv.2

/-- The worker as the services configure it, on payloads that load. -/
def worker : OutboxWorker where
  loads payload := some
    { eventId := payload, eventType := "", timestamp := "", correlationId := "", payload := [] }
  batchSize := 50
  maxRetries := 5

def orderRecord : OutboxMessage :=
  { id := 0, topic := "order-events", key := some "order", payload := "created", createdAt := 0 }

def oneRecord : Outbox := .start ⟨[orderRecord], List.nodup_singleton 0⟩

/-- The broker refuses the record in `n` polls one after another, and each poll commits. -/
def refusals (n : ℕ) : List OutboxLabel :=
  (List.range n).map fun k => .poll [{ orderRecord with retryCount := k }] (fun _ => false) none

/-- After one refusal the record is still there, and published as soon as its sends succeed. -/
theorem reaches_delivery_refused_once : ∃ s, Reaches worker.step anyStep oneRecord (refusals 1) s ∧
    ∃ r ∈ s.table.rows, r.id = 0 ∧ ∀ ls t, Reaches worker.step (Recovered r) s ls t →
      worker.backlog s r < polls ls → 0 ∈ t.acked := by
  have hrun : Reaches worker.step anyStep oneRecord (refusals 1) _ := reaches_run rfl
  obtain ⟨r, hr, hid, ⟨f, hf, hiff⟩, hdeliver, -⟩ :=
    reaches_delivery (by decide) hrun (List.mem_singleton_self orderRecord) rfl (by decide)
  have hcount : f = [0] := (List.nil_append f).symm.trans hf.symm
  exact ⟨_, hrun, r, hr, hid, hdeliver (hiff.mpr (by rw [hcount]; decide)) rfl⟩

/-- Five refusals in a row, and the record is skipped for good although it was never
    acknowledged. -/
theorem refused_record_is_abandoned : ∃ s, Reaches worker.step anyStep oneRecord (refusals 5) s ∧
    0 ∉ s.acked ∧ (∀ r ∈ s.table.rows, r.processed = false ∧ worker.eligible r = false) := by
  have hrun : Reaches worker.step anyStep oneRecord (refusals 5) _ := reaches_run rfl
  exact ⟨_, hrun, by decide, by decide⟩

end OutboxWorker

end CloudScale.Shared
