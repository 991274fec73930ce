/-
  Optimistic concurrency control on a table of versioned rows.

  A transaction loads rows into its session, applies operations to the loaded objects, and at the
  end flushes the changed ones: an UPDATE goes through only if the row still has the version that
  was loaded. Every operation raises the version, so a row whose version is unchanged is the row
  that was loaded (`Seen`).

  `Realizes t s ops`: the session `s` is the result of the operations `ops` on rows seen in `t`.
  It is stable while other transactions commit (`Realizes.mono`) and follows the session's steps
  (`Realizes.load`, `Realizes.edit`). `flush_run` is the result: if the flush goes through, it has
  applied `ops` to the current rows in one step, as if the transaction had run alone.
-/
import CloudScale.Lib.Table

namespace CloudScale.Lib

/-- Rows with a key and a version, and operations on the row of one key that keep the key and raise
    the version; `guard` is what a transaction tests before an operation. -/
structure Versioned (κ ρ O : Type) where
  key : ρ → κ
  version : ρ → ℕ
  target : O → κ
  guard : O → ρ → Prop
  effect : O → ρ → ρ
  effect_key : ∀ o r, key (effect o r) = key r
  effect_version : ∀ o r, version r < version (effect o r)

/-- An object of a session: the row as it was loaded and as it is now. -/
structure Edit (ρ : Type) where
  loaded : ρ
  current : ρ

namespace Versioned

variable {κ ρ O : Type} [DecidableEq κ] (V : Versioned κ ρ O)

/-! ## Operations -/

/-- One operation on any row: nothing happens to the rows of other keys. -/
def apply (o : O) (r : ρ) : ρ := if V.target o = V.key r then V.effect o r else r

def run (ops : List O) (r : ρ) : ρ := ops.foldl (fun r o => V.apply o r) r

/-- Every operation on the row meets its guard when it is applied. -/
def Enabled : List O → ρ → Prop
  | [], _ => True
  | o :: ops, r => (V.target o = V.key r → V.guard o r) ∧ Enabled ops (V.apply o r)

variable {V} {ops : List O} {o : O} {r : ρ}

@[simp] theorem run_nil : V.run [] r = r := rfl

@[simp] theorem run_cons : V.run (o :: ops) r = V.run ops (V.apply o r) := rfl

theorem run_append (ops ops' : List O) (r : ρ) : V.run (ops ++ ops') r = V.run ops' (V.run ops r) :=
  List.foldl_append

theorem key_apply (o : O) (r : ρ) : V.key (V.apply o r) = V.key r := by
  unfold apply
  split
  · exact V.effect_key o r
  · rfl

theorem key_run (ops : List O) (r : ρ) : V.key (V.run ops r) = V.key r := by
  induction ops generalizing r with
  | nil => rfl
  | cons o ops ih => rw [run_cons, ih, key_apply]

theorem version_le_apply (o : O) (r : ρ) : V.version r ≤ V.version (V.apply o r) := by
  unfold apply
  split
  · exact Nat.le_of_lt (V.effect_version o r)
  · exact Nat.le_refl _

theorem version_le_run (ops : List O) (r : ρ) : V.version r ≤ V.version (V.run ops r) := by
  induction ops generalizing r with
  | nil => exact Nat.le_refl _
  | cons o ops ih => exact Nat.le_trans (version_le_apply o r) (ih _)

/-- Operations on other keys do nothing. -/
theorem run_of_untouched (h : ∀ o ∈ ops, V.target o ≠ V.key r) : V.run ops r = r := by
  induction ops with
  | nil => rfl
  | cons o ops ih =>
    have ho : V.apply o r = r := if_neg (h o List.mem_cons_self)
    rw [run_cons, ho]
    exact ih fun o' ho' => h o' (List.mem_cons_of_mem o ho')

theorem enabled_of_untouched (h : ∀ o ∈ ops, V.target o ≠ V.key r) : V.Enabled ops r := by
  induction ops with
  | nil => trivial
  | cons o ops ih =>
    have ho := h o List.mem_cons_self
    have hsame : V.apply o r = r := if_neg ho
    refine ⟨fun h => absurd h ho, ?_⟩
    rw [hsame]
    exact ih fun o' ho' => h o' (List.mem_cons_of_mem o ho')

/-- A touched row gets a higher version. -/
theorem version_lt_run (ho : o ∈ ops) (ht : V.target o = V.key r) :
    V.version r < V.version (V.run ops r) := by
  obtain ⟨before, after, rfl⟩ := List.append_of_mem ho
  rw [run_append, run_cons]
  have hkey : V.target o = V.key (V.run before r) := ht.trans (key_run before r).symm
  calc V.version r ≤ V.version (V.run before r) := version_le_run before r
    _ < V.version (V.apply o (V.run before r)) := by
      rw [apply, if_pos hkey]
      exact V.effect_version o _
    _ ≤ _ := version_le_run after _

theorem enabled_append (ops : List O) (o : O) (r : ρ) :
    V.Enabled (ops ++ [o]) r ↔
      V.Enabled ops r ∧ (V.target o = V.key r → V.guard o (V.run ops r)) := by
  induction ops generalizing r with
  | nil => simp [Enabled]
  | cons p ops ih =>
    rw [List.cons_append, Enabled, Enabled, ih, run_cons, key_apply, and_assoc]

/-! ## Rows that only move forward -/

variable {t t' : Table κ ρ V.key}

/-- `l` was a row of the table: the current row is `l` or a later version. -/
def Seen (t : Table κ ρ V.key) (l : ρ) : Prop :=
  ∃ r, t.get (V.key l) = some r ∧ V.version l ≤ V.version r ∧ (V.version l = V.version r → r = l)

/-- Rows stay, and change only to later versions. -/
def Forward (t t' : Table κ ρ V.key) : Prop :=
  ∀ k r, t.get k = some r →
    ∃ r', t'.get k = some r' ∧ V.version r ≤ V.version r' ∧ (V.version r = V.version r' → r' = r)

theorem Forward.refl (t : Table κ ρ V.key) : Forward t t :=
  fun _ r h => ⟨r, h, Nat.le_refl _, fun _ => rfl⟩

theorem Forward.trans {t'' : Table κ ρ V.key} (h : Forward t t') (h' : Forward t' t'') :
    Forward t t'' := by
  intro k r hr
  obtain ⟨r', hr', hle, heq⟩ := h k r hr
  obtain ⟨r'', hr'', hle', heq'⟩ := h' k r' hr'
  refine ⟨r'', hr'', Nat.le_trans hle hle', fun hv => ?_⟩
  have h1 : V.version r = V.version r' := by omega
  rw [heq' (by omega), heq h1]

/-- A commit moves the rows forward. -/
theorem forward_of_run (h : ∀ k, t'.get k = (t.get k).map (V.run ops)) : Forward t t' := by
  intro k r hr
  refine ⟨V.run ops r, by rw [h, hr]; rfl, version_le_run ops r, fun hv => ?_⟩
  refine run_of_untouched fun o ho heq => ?_
  have hlt := version_lt_run ho heq
  omega

theorem Seen.mono {l : ρ} (h : Seen t l) (hf : Forward t t') : Seen t' l := by
  obtain ⟨r, hr, hle, heq⟩ := h
  obtain ⟨r', hr', hle', heq'⟩ := hf _ r hr
  refine ⟨r', hr', Nat.le_trans hle hle', fun hv => ?_⟩
  have h1 : V.version l = V.version r := by omega
  rw [heq' (by omega), heq h1]

/-! ## Sessions -/

variable (V) in
/-- Load the row `r`: an object that is in the session already is not refreshed. -/
def load (s : List (Edit ρ)) (r : ρ) : ρ × List (Edit ρ) :=
  match s.find? fun e => V.key e.loaded = V.key r with
  | some e => (e.current, s)
  | none => (r, s ++ [⟨r, r⟩])

variable (V) in
/-- Apply an operation to its object. -/
def edit (s : List (Edit ρ)) (o : O) : List (Edit ρ) :=
  s.map fun e =>
    if V.key e.loaded = V.target o then { e with current := V.effect o e.current } else e

/-- The session is the result of `ops` on rows seen in `t`. -/
structure Realizes (t : Table κ ρ V.key) (s : List (Edit ρ)) (ops : List O) : Prop where
  nodup : (s.map fun e => V.key e.loaded).Nodup
  seen : ∀ e ∈ s, Seen t e.loaded
  current : ∀ e ∈ s, e.current = V.run ops e.loaded
  enabled : ∀ e ∈ s, V.Enabled ops e.loaded
  covered : ∀ o ∈ ops, V.target o ∈ s.map fun e => V.key e.loaded

variable {s : List (Edit ρ)}

theorem Realizes.empty (t : Table κ ρ V.key) : Realizes t [] [] := by
  refine ⟨List.nodup_nil, ?_, ?_, ?_, ?_⟩ <;> exact fun _ h => absurd h List.not_mem_nil

theorem Realizes.mono (h : Realizes t s ops) (hf : Forward t t') : Realizes t' s ops :=
  { h with seen := fun e he => (h.seen e he).mono hf }

theorem Realizes.load (h : Realizes t s ops) {k : κ} (hr : t.get k = some r) :
    Realizes t (V.load s r).2 ops ∧
      ∃ e ∈ (V.load s r).2, V.key e.loaded = k ∧ (V.load s r).1 = e.current := by
  have hk : V.key r = k := Table.get_key hr
  unfold Versioned.load
  cases hfind : s.find? fun e => V.key e.loaded = V.key r with
  | some e =>
    have hkey : V.key e.loaded = V.key r := by simpa using List.find?_some hfind
    exact ⟨h, e, List.mem_of_find?_eq_some hfind, hkey.trans hk, rfl⟩
  | none =>
    have hnew : V.key r ∉ s.map fun e => V.key e.loaded := by
      intro hmem
      obtain ⟨e, he, hkey⟩ := List.mem_map.mp hmem
      have := List.find?_eq_none.mp hfind e he
      simp [hkey] at this
    have huntouched : ∀ o ∈ ops, V.target o ≠ V.key r := fun o ho heq =>
      hnew (heq ▸ h.covered o ho)
    have hmem : ∀ e ∈ s ++ [(⟨r, r⟩ : Edit ρ)], e ∈ s ∨ e = ⟨r, r⟩ := by simp
    refine ⟨⟨?_, ?_, ?_, ?_, ?_⟩, ⟨r, r⟩, List.mem_append_right _ (List.mem_singleton_self _), hk,
      rfl⟩
    · rw [List.map_append, List.map_singleton]
      refine List.nodup_append.mpr ⟨h.nodup, List.nodup_singleton _, ?_⟩
      intro a ha b hb heq
      rw [List.mem_singleton] at hb
      exact hnew (hb ▸ heq ▸ ha)
    · intro e he
      rcases hmem e he with he | rfl
      · exact h.seen e he
      · exact ⟨r, hk ▸ hr, Nat.le_refl _, fun _ => rfl⟩
    · intro e he
      rcases hmem e he with he | rfl
      · exact h.current e he
      · exact (run_of_untouched huntouched).symm
    · intro e he
      rcases hmem e he with he | rfl
      · exact h.enabled e he
      · exact enabled_of_untouched huntouched
    · intro o ho
      rw [List.map_append]
      exact List.mem_append_left _ (h.covered o ho)

theorem Realizes.edit (h : Realizes t s ops) {e : Edit ρ} (he : e ∈ s)
    (ht : V.key e.loaded = V.target o) (hg : V.guard o e.current) :
    Realizes t (V.edit s o) (ops ++ [o]) := by
  have hkeys : ((V.edit s o).map fun e => V.key e.loaded) = s.map fun e => V.key e.loaded := by
    unfold Versioned.edit
    rw [List.map_map]
    refine List.map_congr_left fun x _ => ?_
    show V.key (if _ then _ else x : Edit ρ).loaded = V.key x.loaded
    split <;> rfl
  have hmem : ∀ x ∈ V.edit s o, ∃ y ∈ s, x.loaded = y.loaded ∧
      x.current = V.run (ops ++ [o]) y.loaded := by
    intro x hx
    obtain ⟨y, hy, rfl⟩ := List.mem_map.mp hx
    refine ⟨y, hy, by split <;> rfl, ?_⟩
    rw [run_append, run_cons, run_nil, apply, key_run]
    split
    · next hkey => rw [if_pos hkey.symm, h.current y hy]
    · next hkey => rw [if_neg fun h => hkey h.symm, h.current y hy]
  refine ⟨hkeys ▸ h.nodup, ?_, ?_, ?_, ?_⟩
  · intro x hx
    obtain ⟨y, hy, hl, -⟩ := hmem x hx
    exact hl ▸ h.seen y hy
  · intro x hx
    obtain ⟨y, -, hl, hc⟩ := hmem x hx
    rw [hl, hc]
  · intro x hx
    obtain ⟨y, hy, hl, -⟩ := hmem x hx
    rw [hl, enabled_append]
    refine ⟨h.enabled y hy, fun htarget => ?_⟩
    have hsame : y = e := List.inj_on_of_nodup_map h.nodup hy he (htarget.symm.trans ht.symm)
    rw [hsame, ← h.current e he]
    exact hg
  · intro p hp
    rw [hkeys]
    rcases List.mem_append.mp hp with hp | hp
    · exact h.covered p hp
    · obtain rfl := List.mem_singleton.mp hp
      exact ht ▸ List.mem_map_of_mem he

/-! ## Flush -/

/-- `UPDATE .. WHERE key = .. AND version = ..` of one object; `none` is a stale version. -/
def store (t : Table κ ρ V.key) (e : Edit ρ) : Option (Table κ ρ V.key) :=
  match t.get (V.key e.loaded) with
  | some row =>
    if V.version row = V.version e.loaded then
      some (t.modify (V.key e.loaded) (fun r => if V.key e.current = V.key r then e.current else r)
        fun r => by split <;> simp_all)
    else none
  | none => none

theorem store_eq_some {e : Edit ρ} (hkey : V.key e.current = V.key e.loaded)
    (h : store t e = some t') :
    (∃ row, t.get (V.key e.loaded) = some row ∧ V.version row = V.version e.loaded) ∧
      ∀ k, t'.get k = if k = V.key e.loaded then some e.current else t.get k := by
  unfold store at h
  split at h
  · next row hrow =>
    split at h
    · next hv =>
      obtain rfl := Option.some.inj h
      refine ⟨⟨row, hrow, hv⟩, fun k => ?_⟩
      rw [Table.get_modify]
      split
      · next hk =>
        subst hk
        rw [hrow, Option.map_some, if_pos (hkey.trans (Table.get_key hrow).symm)]
      · rfl
    · cases h
  · cases h

variable [DecidableEq ρ]

/-- Store the changed objects of a session. -/
def flush (t : Table κ ρ V.key) : List (Edit ρ) → Option (Table κ ρ V.key)
  | [] => some t
  | e :: es => if e.current = e.loaded then flush t es else (store t e).bind fun t => flush t es

/-- What a flush does: unchanged objects are not written, changed ones replace a row of the
    version they were loaded in. -/
theorem flush_eq_some (hnodup : (s.map fun e => V.key e.loaded).Nodup)
    (hkey : ∀ e ∈ s, V.key e.current = V.key e.loaded) (h : flush t s = some t') :
    (∀ k, k ∉ s.map (fun e => V.key e.loaded) → t'.get k = t.get k) ∧
      ∀ e ∈ s, (e.current = e.loaded ∧ t'.get (V.key e.loaded) = t.get (V.key e.loaded)) ∨
        ∃ row, t.get (V.key e.loaded) = some row ∧ V.version row = V.version e.loaded ∧
          t'.get (V.key e.loaded) = some e.current := by
  induction s generalizing t with
  | nil =>
    obtain rfl := Option.some.inj h
    exact ⟨fun _ _ => rfl, fun _ he => absurd he List.not_mem_nil⟩
  | cons e s ih =>
    rw [List.map_cons, List.nodup_cons] at hnodup
    have hkey' : ∀ x ∈ s, V.key x.current = V.key x.loaded := fun x hx =>
      hkey x (List.mem_cons_of_mem e hx)
    have hne : ∀ x ∈ s, V.key x.loaded ≠ V.key e.loaded := fun x hx heq =>
      hnodup.1 (heq ▸ List.mem_map_of_mem hx)
    unfold flush at h
    split at h
    · next hsame =>
      obtain ⟨hout, hin⟩ := ih hnodup.2 hkey' h
      refine ⟨fun k hk => hout k fun hmem => hk (List.mem_cons_of_mem _ hmem), fun x hx => ?_⟩
      rcases List.mem_cons.mp hx with rfl | hx
      · exact Or.inl ⟨hsame, hout _ hnodup.1⟩
      · exact hin x hx
    · obtain ⟨t₁, hstore, h⟩ := Option.bind_eq_some_iff.mp h
      obtain ⟨⟨row, hrow, hv⟩, hget⟩ := store_eq_some (hkey e List.mem_cons_self) hstore
      obtain ⟨hout, hin⟩ := ih hnodup.2 hkey' h
      refine ⟨fun k hk => ?_, fun x hx => ?_⟩
      · rw [List.map_cons, List.mem_cons, not_or] at hk
        rw [hout k hk.2, hget, if_neg hk.1]
      · rcases List.mem_cons.mp hx with rfl | hx
        · exact Or.inr ⟨row, hrow, hv, by rw [hout _ hnodup.1, hget, if_pos rfl]⟩
        · have hold : t₁.get (V.key x.loaded) = t.get (V.key x.loaded) := by
            rw [hget, if_neg (hne x hx)]
          rw [← hold]
          exact hin x hx

/-- Nobody changed the rows since they were loaded: the flush goes through. -/
theorem flush_isSome (hr : Realizes t s ops)
    (hfresh : ∀ e ∈ s, t.get (V.key e.loaded) = some e.loaded) : (flush t s).isSome := by
  have hkey : ∀ e ∈ s, V.key e.current = V.key e.loaded := fun e he => by
    rw [hr.current e he, key_run]
  have hnodup := hr.nodup
  clear hr
  induction s generalizing t with
  | nil => rfl
  | cons e s ih =>
    rw [List.map_cons, List.nodup_cons] at hnodup
    have hkey' : ∀ x ∈ s, V.key x.current = V.key x.loaded := fun x hx =>
      hkey x (List.mem_cons_of_mem e hx)
    have hfresh' : ∀ x ∈ s, t.get (V.key x.loaded) = some x.loaded := fun x hx =>
      hfresh x (List.mem_cons_of_mem e hx)
    unfold flush
    split
    · exact ih hfresh' hkey' hnodup.2
    · obtain ⟨t₁, hstore⟩ : ∃ t₁, store t e = some t₁ := by
        unfold store
        rw [hfresh e List.mem_cons_self]
        exact ⟨_, if_pos rfl⟩
      obtain ⟨-, hget⟩ := store_eq_some (hkey e List.mem_cons_self) hstore
      rw [hstore]
      refine ih (fun x hx => ?_) hkey' hnodup.2
      have hne : V.key x.loaded ≠ V.key e.loaded := fun heq =>
        hnodup.1 (heq ▸ List.mem_map_of_mem hx)
      rw [hget, if_neg hne]
      exact hfresh' x hx

/-- No row has changed since it was loaded. -/
def Fresh (t : Table κ ρ V.key) (s : List (Edit ρ)) : Prop :=
  ∀ e ∈ s, t.get (V.key e.loaded) = some e.loaded

omit [DecidableEq ρ] in
theorem Fresh.empty (t : Table κ ρ V.key) : Fresh t [] := fun _ h => absurd h List.not_mem_nil

omit [DecidableEq ρ] in
theorem Fresh.load (h : Fresh t s) {k : κ} (hr : t.get k = some r) : Fresh t (V.load s r).2 := by
  unfold Versioned.load
  cases s.find? fun e => V.key e.loaded = V.key r with
  | some e => exact h
  | none =>
    intro e he
    rcases List.mem_append.mp he with he | he
    · exact h e he
    · obtain rfl := List.mem_singleton.mp he
      exact Table.get_of_mem (Table.mem_of_get hr)

omit [DecidableEq ρ] in
theorem Fresh.edit (h : Fresh t s) (o : O) : Fresh t (V.edit s o) := by
  intro e he
  obtain ⟨x, hx, rfl⟩ := List.mem_map.mp he
  split
  · exact h x hx
  · exact h x hx

/-- A flush that goes through applies the operations of the session to the current rows. -/
theorem flush_run (hr : Realizes t s ops) (h : flush t s = some t') (k : κ) :
    t'.get k = (t.get k).map (V.run ops) ∧ ∀ r, t.get k = some r → V.Enabled ops r := by
  have hkey : ∀ e ∈ s, V.key e.current = V.key e.loaded := fun e he => by
    rw [hr.current e he, key_run]
  obtain ⟨hout, hin⟩ := flush_eq_some hr.nodup hkey h
  by_cases hk : k ∈ s.map fun e => V.key e.loaded
  · obtain ⟨e, he, rfl⟩ := List.mem_map.mp hk
    rcases hin e he with ⟨hsame, hget⟩ | ⟨row, hrow, hv, hget⟩
    · -- an object that did not change was not touched by any operation
      have huntouched : ∀ o ∈ ops, V.target o ≠ V.key e.loaded := by
        intro o ho heq
        have hlt := version_lt_run ho heq
        rw [← hr.current e he, hsame] at hlt
        exact Nat.lt_irrefl _ hlt
      have hrow : ∀ r, t.get (V.key e.loaded) = some r → V.key r = V.key e.loaded :=
        fun r h => Table.get_key h
      refine ⟨?_, fun r h => enabled_of_untouched fun o ho => ?_⟩
      · rw [hget]
        cases hget' : t.get (V.key e.loaded) with
        | none => rfl
        | some r =>
          rw [Option.map_some, run_of_untouched fun o ho => hrow r hget' ▸ huntouched o ho]
      · rw [hrow r h]
        exact huntouched o ho
    · -- a changed object was flushed at the version it was loaded in
      obtain ⟨row', hrow', -, heq⟩ := hr.seen e he
      have hsame : row' = row := Option.some.inj (hrow'.symm.trans hrow)
      have hloaded : row = e.loaded := hsame ▸ heq (hsame ▸ hv.symm)
      rw [hrow, hloaded]
      refine ⟨by rw [hget, Option.map_some, hr.current e he], fun r h => ?_⟩
      exact Option.some.inj h ▸ hr.enabled e he
  · have huntouched : ∀ r, t.get k = some r → ∀ o ∈ ops, V.target o ≠ V.key r := by
      intro r hget o ho heq
      exact hk (Table.get_key hget ▸ heq ▸ hr.covered o ho)
    refine ⟨?_, fun r h => enabled_of_untouched (huntouched r h)⟩
    rw [hout k hk]
    cases hget : t.get k with
    | none => rfl
    | some r => rw [Option.map_some, run_of_untouched (huntouched r hget)]

/-- The flush of a session that no other transaction has interfered with. -/
theorem Realizes.flush (hr : Realizes t s ops) (hfresh : Fresh t s) :
    ∃ t', Versioned.flush t s = some t' ∧ ∀ k, t'.get k = (t.get k).map (V.run ops) := by
  obtain ⟨t', ht'⟩ := Option.isSome_iff_exists.mp (flush_isSome hr hfresh)
  exact ⟨t', ht', fun k => (flush_run hr ht' k).1⟩

end Versioned

end CloudScale.Lib
