/-
  In which order the outbox worker publishes the records of one topic and key.

  The batch is fetched by `created_at`, but a failed send only counts and the loop goes on, so a
  younger record of the same key can overtake (`cancelled_before_created`).
  `reaches_ordered_iff`: no record is published before an older one of its topic and key exactly
  when every step of the run is `KeepsOrder`.
-/
import CloudScale.Shared.OutboxDelivery

namespace CloudScale.Shared

open CloudScale.Lib

namespace OutboxWorker

variable {w : OutboxWorker} {s s' : Outbox}

/-! ## Order of one key -/

/-- `a` comes before `b` on one topic and key. -/
def Older (a b : OutboxMessage) : Prop :=
  a.topic = b.topic ∧ a.key = b.key ∧ a.createdAt < b.createdAt

/-- No record is published in the run before an older one of its topic and key was. -/
def Ordered (s : Outbox) : Prop :=
  ∀ earlier b later, s.acked = earlier ++ b.id :: later → b ∈ s.table.rows →
    ∀ a ∈ s.table.rows, Older a b → a.id ∈ s.before ∨ a.id ∈ earlier

/-- A poll publishes no record behind an older one of its topic and key that was never published
    and that this poll does not publish: one that has used up its retries, does not load, or is
    refused by the broker. An insertion brings nothing older than what was published. -/
def KeepsOrder (w : OutboxWorker) (s : Outbox) : OutboxLabel → Prop
  | .insert r => ∀ b ∈ s.table.rows, b.id ∈ s.acked → ¬ Older r b
  | .poll order acks died => ∀ b ∈ w.attempted order died, w.publishes acks b = true →
      ∀ a ∈ s.table.rows, Older a b → a.id ∉ s.before → a.id ∉ s.acked →
        a.retryCount < w.maxRetries ∧ w.publishes acks a = true

/-- Everything published is in the table, and what is processed was published. -/
structure TableInv (s : Outbox) : Prop where
  acked : ∀ i ∈ s.acked, i ∈ s.table.rows.map (·.id)
  before : ∀ i ∈ s.before, i ∈ s.table.rows.map (·.id)
  processed : ∀ r ∈ s.table.rows, r.processed = true → r.id ∈ s.before ∨ r.id ∈ s.acked

theorem tableInv_start (t : OutboxTable) : TableInv (.start t) := by
  refine ⟨nofun, fun i hi => ?_, fun r hr hp => Or.inl ?_⟩
  · obtain ⟨r, hr, rfl⟩ := List.mem_map.mp hi
    exact List.mem_map_of_mem (List.mem_of_mem_filter hr)
  · exact List.mem_map_of_mem (List.mem_filter.mpr ⟨hr, hp⟩)

theorem mem_of_mem_published {acks : ℕ → Bool} {order : List OutboxMessage}
    {died : Option ℕ} {i : ℕ}
    (hf : w.Fetched s.table order) (h : i ∈ w.published acks (w.attempted order died)) :
    i ∈ s.table.rows.map (·.id) := by
  obtain ⟨r, hr, rfl⟩ := List.mem_map.mp h
  exact List.mem_map_of_mem (mem_attempted hf (List.mem_of_mem_filter hr)).1

theorem ids_commitBatch (t : OutboxTable) (acks : ℕ → Bool) (batch : List OutboxMessage) :
    (w.commitBatch t acks batch).rows.map (·.id) = t.rows.map (·.id) := by
  show (t.rows.map (w.updateRow acks batch)).map (·.id) = _
  rw [List.map_map]
  exact List.map_congr_left fun r _ => (w.updateRow_fixed acks batch r).1

theorem tableInv_step {l : OutboxLabel} (hi : TableInv s) (h : w.step s l = some s') :
    TableInv s' := by
  rcases step_cases h with ⟨x, -, -, hxp, hrows, hbefore, hacked, -⟩ |
    ⟨order, acks, died, -, hf, hbefore, hacked, hcase⟩
  · refine ⟨?_, ?_, ?_⟩
    · rw [hrows, hacked]
      exact fun i h => List.mem_cons_of_mem _ (hi.acked i h)
    · rw [hrows, hbefore]
      exact fun i h => List.mem_cons_of_mem _ (hi.before i h)
    · rw [hrows, hacked, hbefore]
      intro r hr hp
      rcases List.mem_cons.mp hr with rfl | hr
      · rw [hxp] at hp
        cases hp
      · exact hi.processed r hr hp
  · have hids : s'.table.rows.map (·.id) = s.table.rows.map (·.id) := by
      obtain ⟨_, -, htable, -⟩ | ⟨-, htable, -⟩ := hcase
      · rw [htable]
      · rw [htable, ids_commitBatch]
    refine ⟨?_, ?_, ?_⟩
    · rw [hids, hacked]
      intro i h
      rcases List.mem_append.mp h with h | h
      · exact hi.acked i h
      · exact mem_of_mem_published hf h
    · rw [hids, hbefore]
      exact hi.before
    · rw [hbefore, hacked]
      intro r hr hp
      have hold : ∀ x ∈ s.table.rows, x.processed = true →
          x.id ∈ s.before ∨ x.id ∈ s.acked ++ w.published acks (w.attempted order died) :=
        fun x hx hp => (hi.processed x hx hp).imp_right (List.mem_append_left _)
      obtain ⟨_, -, htable, -⟩ | ⟨-, htable, -⟩ := hcase
      · exact hold r (htable ▸ hr) hp
      · rw [htable] at hr
        obtain ⟨x, hx, rfl⟩ := List.mem_map.mp hr
        rw [(w.updateRow_fixed acks _ x).1]
        by_cases hxp : x.processed = true
        · exact hold x hx hxp
        · by_cases hb : x ∈ w.attempted order died ∧ w.publishes acks x = true
          · exact Or.inr (List.mem_append_right _ (mem_published hb.1 hb.2))
          · rw [unprocessed_updateRow (Bool.not_eq_true _ ▸ hxp) hb] at hp
            cases hp

/-- Splitting a log at an entry of its old or of its new part. -/
theorem append_eq_split {l new earlier later : List ℕ} {i : ℕ}
    (h : l ++ new = earlier ++ i :: later) :
    (∃ m, l = earlier ++ i :: m) ∨ ∃ m, earlier = l ++ m ∧ new = m ++ i :: later := by
  rcases List.append_eq_append_iff.mp h with ⟨m, he, hn⟩ | ⟨m, hl, hn⟩
  · exact Or.inr ⟨m, he, hn⟩
  · cases m with
    | nil => exact Or.inr ⟨[], by simpa using hl.symm, by simpa using hn.symm⟩
    | cons j m =>
      obtain ⟨rfl, -⟩ := List.cons.inj hn
      exact Or.inl ⟨m, hl⟩

/-- The order only concerns columns that the worker never writes. -/
theorem ordered_iff_of_map {g : OutboxMessage → OutboxMessage}
    (hg : ∀ r, (g r).id = r.id ∧ (g r).topic = r.topic ∧ (g r).key = r.key ∧
      (g r).createdAt = r.createdAt)
    (hrows : s'.table.rows = s.table.rows.map g) :
    Ordered s' ↔ ∀ earlier b later, s'.acked = earlier ++ b.id :: later → b ∈ s.table.rows →
      ∀ a ∈ s.table.rows, Older a b → a.id ∈ s'.before ∨ a.id ∈ earlier := by
  have holder : ∀ a b, Older (g a) (g b) ↔ Older a b := by
    intro a b
    obtain ⟨-, hat, hak, hac⟩ := hg a
    obtain ⟨-, hbt, hbk, hbc⟩ := hg b
    rw [Older, hat, hak, hac, hbt, hbk, hbc, Older]
  unfold Ordered
  rw [hrows]
  constructor
  · intro h earlier b later hs hb a ha hab
    have := h earlier (g b) later (by rw [(hg b).1, hs]) (List.mem_map_of_mem hb) (g a)
      (List.mem_map_of_mem ha) ((holder a b).mpr hab)
    rwa [(hg a).1] at this
  · intro h earlier b' later hs hb' a' ha' hab
    obtain ⟨b, hb, rfl⟩ := List.mem_map.mp hb'
    obtain ⟨a, ha, rfl⟩ := List.mem_map.mp ha'
    rw [(hg b).1] at hs
    rw [(hg a).1]
    exact h earlier b later hs hb a ha ((holder a b).mp hab)

section Poll

variable {order : List OutboxMessage} {acks : ℕ → Bool} {died : Option ℕ}

/-- A poll that publishes in order publishes what is older in it, too. -/
theorem keepsOrder_of_published (hf : w.Fetched s.table order)
    (h : ∀ m b later, w.published acks (w.attempted order died) = m ++ b.id :: later →
      b ∈ s.table.rows → ∀ a ∈ s.table.rows, Older a b → a.id ∈ s.before ∨ a.id ∈ s.acked ++ m) :
    KeepsOrder w s (.poll order acks died) := by
  intro b hb hbp a ha hab hbefore hacked
  obtain ⟨r₁, r₂, hsplit⟩ := List.append_of_mem hb
  have hpub : w.published acks (w.attempted order died) =
      w.published acks r₁ ++ b.id :: w.published acks r₂ := by
    simp [published, hsplit, hbp]
  have hmem := (h _ b _ hpub (mem_attempted hf hb).1 a ha hab).resolve_left hbefore
  obtain ⟨x, hx, hid⟩ := List.mem_map.mp ((List.mem_append.mp hmem).resolve_left hacked)
  obtain ⟨hx, hxp⟩ := List.mem_filter.mp hx
  have hxa : x ∈ w.attempted order died := hsplit ▸ List.mem_append_left _ hx
  obtain ⟨hxrow, hxe⟩ := mem_attempted hf hxa
  obtain rfl := row_eq_of_id s.table hxrow ha hid
  simp only [eligible, Bool.and_eq_true, decide_eq_true_eq] at hxe
  exact ⟨hxe.2, hxp⟩

/-- What a poll acknowledges before `b` has all that is older than `b` and acknowledged at all: the
    rows come in the order of their creation. -/
theorem published_before (hf : w.Fetched s.table order) {m later : List ℕ} {a b : OutboxMessage}
    (hpub : w.published acks (w.attempted order died) = m ++ b.id :: later)
    (hb : b ∈ s.table.rows) (hlt : a.createdAt < b.createdAt) (horder : a ∈ order)
    (hap : w.publishes acks a = true) : a.id ∈ m := by
  -- cut the acknowledged part of the batch at `b`
  obtain ⟨f₁, f₂', hfilter, hm, htail⟩ := List.map_eq_append_iff.mp hpub
  obtain ⟨x, f₂, rfl, hxid, -⟩ := List.map_eq_cons_iff.mp htail
  have hx : x ∈ (w.attempted order died).filter (w.publishes acks) := by
    rw [hfilter]
    exact List.mem_append_right _ List.mem_cons_self
  obtain rfl := row_eq_of_id s.table (mem_attempted hf (List.mem_filter.mp hx).1).1 hb hxid
  -- `a` is older than `b`, so it comes before `b` in the fetched order
  obtain ⟨rest, hrest⟩ := attempted_initial (w := w) order died
  have hcut : order.filter (w.publishes acks) =
      f₁ ++ x :: (f₂ ++ rest.filter (w.publishes acks)) := by
    rw [← hrest, List.filter_append, hfilter, List.append_assoc, List.cons_append]
  have hsorted : (f₁ ++ x :: (f₂ ++ rest.filter (w.publishes acks))).Pairwise
      fun a b => a.createdAt ≤ b.createdAt := hcut ▸ hf.2.filter _
  have hafilter : a ∈ f₁ ++ x :: (f₂ ++ rest.filter (w.publishes acks)) :=
    hcut ▸ List.mem_filter.mpr ⟨horder, hap⟩
  rw [← hm]
  rcases List.mem_append.mp hafilter with haf | haf
  · exact List.mem_map_of_mem haf
  · rcases List.mem_cons.mp haf with rfl | haf
    · omega
    · have hle := (List.pairwise_cons.mp (List.pairwise_append.mp hsorted).2.1).1 a haf
      omega

/-- In one poll, what is published is published in order exactly when the poll `KeepsOrder`. -/
theorem keepsOrder_poll (hi : TableInv s) (hf : w.Fetched s.table order) :
    (∀ m b later, w.published acks (w.attempted order died) = m ++ b.id :: later →
      b ∈ s.table.rows → ∀ a ∈ s.table.rows, Older a b →
        a.id ∈ s.before ∨ a.id ∈ s.acked ++ m) ↔ KeepsOrder w s (.poll order acks died) := by
  refine ⟨keepsOrder_of_published hf, fun h m b later hpub hb a ha hab => ?_⟩
  by_cases hbefore : a.id ∈ s.before
  · exact Or.inl hbefore
  by_cases hacked : a.id ∈ s.acked
  · exact Or.inr (List.mem_append_left _ hacked)
  refine Or.inr (List.mem_append_right _ ?_)
  have hpublished : b.id ∈ w.published acks (w.attempted order died) := by
    rw [hpub]
    exact List.mem_append_right _ List.mem_cons_self
  obtain ⟨x, hx, hxid⟩ := List.mem_map.mp hpublished
  obtain ⟨hxa, hxp⟩ := List.mem_filter.mp hx
  obtain rfl := row_eq_of_id s.table (mem_attempted hf hxa).1 hb hxid
  obtain ⟨hretry, hap⟩ := h x hxa hxp a ha hab hbefore hacked
  have hunproc : a.processed = false := by
    by_contra hp
    rcases hi.processed a ha (Bool.not_eq_false _ ▸ hp) with h | h
    · exact hbefore h
    · exact hacked h
  have horder : a ∈ order := (mem_order hf).mpr ⟨ha, by simp [eligible, hunproc, hretry]⟩
  exact published_before hf hpub hb hab.2.2 horder hap

end Poll

theorem ordered_step_insert {r : OutboxMessage} (hi : TableInv s)
    (hid : r.id ∉ s.table.rows.map (·.id)) (hrows : s'.table.rows = r :: s.table.rows)
    (hbefore : s'.before = s.before) (hacked : s'.acked = s.acked) :
    Ordered s' ↔ Ordered s ∧ KeepsOrder w s (.insert r) := by
  have hacked' : r.id ∉ s.acked := fun h => hid (hi.acked _ h)
  unfold Ordered
  rw [hrows, hbefore, hacked]
  constructor
  · intro h
    refine ⟨fun earlier b later hs hb a ha hab => ?_, fun b hb hbacked hrb => ?_⟩
    · exact h earlier b later hs (List.mem_cons_of_mem r hb) a (List.mem_cons_of_mem r ha) hab
    · obtain ⟨earlier, later, hs⟩ := List.append_of_mem hbacked
      rcases h earlier b later hs (List.mem_cons_of_mem r hb) r List.mem_cons_self hrb with hr | hr
      · exact hid (hi.before _ hr)
      · exact hacked' (hs ▸ List.mem_append_left _ hr)
  · rintro ⟨h, hkeep⟩ earlier b later hs hb a ha hab
    have hbacked : b.id ∈ s.acked := hs ▸ List.mem_append_right _ List.mem_cons_self
    have hbrow : b ∈ s.table.rows := by
      rcases List.mem_cons.mp hb with rfl | hb
      · exact absurd hbacked hacked'
      · exact hb
    rcases List.mem_cons.mp ha with rfl | ha
    · exact absurd hab (hkeep b hbrow hbacked)
    · exact h earlier b later hs hbrow a ha hab

/-- A step keeps the order exactly when it meets `KeepsOrder`. -/
theorem ordered_step {l : OutboxLabel} (hi : TableInv s) (h : w.step s l = some s') :
    Ordered s' ↔ Ordered s ∧ KeepsOrder w s l := by
  rcases step_cases h with ⟨r, rfl, hid, -, hrows, hbefore, hacked, -⟩ |
    ⟨order, acks, died, rfl, hf, hbefore, hacked, hcase⟩
  · exact ordered_step_insert hi hid hrows hbefore hacked
  · have hordered : Ordered s' ↔ ∀ earlier b later, s'.acked = earlier ++ b.id :: later →
        b ∈ s.table.rows → ∀ a ∈ s.table.rows, Older a b →
          a.id ∈ s'.before ∨ a.id ∈ earlier := by
      obtain ⟨_, -, htable, -⟩ | ⟨-, htable, -⟩ := hcase
      · rw [Ordered, htable]
      · refine ordered_iff_of_map (g := w.updateRow acks (w.attempted order died)) (fun r => ?_)
          (by rw [htable]; rfl)
        obtain ⟨hid, htopic, hkey, -, hcreated⟩ :=
          w.updateRow_fixed acks (w.attempted order died) r
        exact ⟨hid, htopic, hkey, hcreated⟩
    rw [hordered, ← keepsOrder_poll hi hf, hacked, hbefore]
    constructor
    · intro h
      refine ⟨fun earlier b later hs => h earlier b
        (later ++ w.published acks (w.attempted order died)) ?_, fun m b later hs => h _ b later ?_⟩
      · rw [hs, List.append_assoc, List.cons_append]
      · rw [hs, List.append_assoc]
    · rintro ⟨hold, hnew⟩ earlier b later hs hb a ha hab
      rcases append_eq_split hs with ⟨m, hm⟩ | ⟨m, rfl, hm⟩
      · exact hold earlier b m hm hb a ha hab
      · exact hnew m b later hm hb a ha hab

/-- A run publishes every topic and key in the order of `created_at` exactly when each of its
    steps keeps the order. -/
theorem reaches_ordered_iff {t : OutboxTable} {ls : List OutboxLabel}
    (h : Reaches w.step anyStep (.start t) ls s) :
    Ordered s ↔ AllSteps w.step (KeepsOrder w) (.start t) ls := by
  have hstart : Ordered (.start t) := by
    intro earlier b later hs
    exact absurd hs.symm (List.append_ne_nil_of_right_ne_nil _ (List.cons_ne_nil _ _))
  have hiff := runFrom_iff_allSteps (fun s l s' hi hs => tableInv_step hi hs)
    (fun s l s' hi hs => ordered_step hi hs) ls (.start t) s (tableInv_start t) h.runFrom
  rw [hiff]
  exact and_iff_right hstart

def cancelledRecord : OutboxMessage :=
  { id := 1, topic := "order-events", key := some "order", payload := "cancelled", createdAt := 1 }

/-- An order's created and cancelled events, both waiting. -/
def twoRecords : OutboxTable := ⟨[orderRecord, cancelledRecord], by decide⟩

/-- A poll over both records in which the broker answers `acks`. -/
def pollBoth (acks : ℕ → Bool) : List OutboxLabel :=
  [.poll [orderRecord, cancelledRecord] acks none]

theorem reaches_ordered_both_acked :
    ∃ s, runFrom worker.step (.start twoRecords) (pollBoth fun _ => true) = some s ∧
      Ordered s := by
  have hrun : Reaches worker.step anyStep (.start twoRecords) (pollBoth fun _ => true) _ :=
    reaches_run rfl
  have hretry : ∀ a ∈ twoRecords.rows, a.retryCount < worker.maxRetries := by decide
  refine ⟨_, hrun.runFrom, (reaches_ordered_iff hrun).mpr ?_⟩
  exact And.intro (fun _ _ _ a ha _ _ _ => ⟨hretry a ha, rfl⟩) fun _ _ => True.intro

/-- The send of the created event fails and the loop goes on: the cancelled event of the same order
    is published first. -/
theorem cancelled_before_created :
    ∃ s, Reaches worker.step anyStep (.start twoRecords) (pollBoth fun i => i == 1) s ∧
      orderRecord.id ∉ s.acked ∧ cancelledRecord.id ∈ s.acked ∧ ¬ Ordered s := by
  have hrun : Reaches worker.step anyStep (.start twoRecords) (pollBoth fun i => i == 1) _ :=
    reaches_run rfl
  refine ⟨_, hrun, by decide, by decide, fun h => ?_⟩
  have holder : Older { orderRecord with retryCount := 1 }
      { cancelledRecord with processed := true } := ⟨rfl, rfl, by decide⟩
  rcases h [] { cancelledRecord with processed := true } [] rfl (by decide) _ (by decide) holder
    with h | h
  · exact absurd h (by decide)
  · exact absurd h List.not_mem_nil

end OutboxWorker

end CloudScale.Shared
