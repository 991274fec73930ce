/-
  Tables with a primary key: a list of rows, no two of which have the same key, in the order they
  were inserted.

  `get` is the lookup by key, `extend` inserts rows (`none`: a duplicate key), `modify` updates the
  row of a key in place. `get_extend` and `get_modify` say what each does to a lookup; `rows` of an
  extended table is the old list followed by the new rows (`rows_extend`).
-/
import Mathlib.Data.List.Nodup

namespace CloudScale.Lib

/-- Where no two elements have the same image, those with the image of `a` are `a`. -/
theorem filter_of_nodup_map {α β : Type} [DecidableEq β] {f : α → β} {l : List α}
    (h : (l.map f).Nodup) {a : α} (ha : a ∈ l) : l.filter (fun x => decide (f x = f a)) = [a] := by
  induction l with
  | nil => exact absurd ha List.not_mem_nil
  | cons x xs ih =>
    obtain ⟨hx, hxs⟩ := List.nodup_cons.mp h
    by_cases heq : f x = f a
    · have hnot : a ∉ xs := fun hmem => hx (heq ▸ List.mem_map_of_mem hmem)
      obtain rfl : a = x := (List.mem_cons.mp ha).resolve_right hnot
      rw [List.filter_cons_of_pos (by simp), List.filter_eq_nil_iff.mpr]
      intro y hy hy'
      exact hx (of_decide_eq_true hy' ▸ List.mem_map_of_mem hy)
    · have hne : a ≠ x := fun h => heq (h ▸ rfl)
      rw [List.filter_cons_of_neg (by simpa using heq)]
      exact ih hxs ((List.mem_cons.mp ha).resolve_left hne)

structure Table (κ ρ : Type) (key : ρ → κ) where
  rows : List ρ
  nodup : (rows.map key).Nodup

namespace Table

variable {κ ρ : Type} {key : ρ → κ}

def empty : Table κ ρ key := ⟨[], List.nodup_nil⟩

@[simp] theorem rows_empty : (empty : Table κ ρ key).rows = [] := rfl

theorem row_eq_of_key {t : Table κ ρ key} {a b : ρ} (ha : a ∈ t.rows) (hb : b ∈ t.rows)
    (h : key a = key b) : a = b :=
  List.inj_on_of_nodup_map t.nodup ha hb h

variable [DecidableEq κ]

/-- The row with key `k`. -/
def get (t : Table κ ρ key) (k : κ) : Option ρ := t.rows.find? fun r => decide (key r = k)

/-- Insert rows at the end; `none` when a key would occur twice. -/
def extend (t : Table κ ρ key) (rs : List ρ) : Option (Table κ ρ key) :=
  if h : ((t.rows ++ rs).map key).Nodup then some ⟨t.rows ++ rs, h⟩ else none

/-- Update the row with key `k`, if there is one. -/
def modify (t : Table κ ρ key) (k : κ) (f : ρ → ρ) (hf : ∀ r, key (f r) = key r) :
    Table κ ρ key where
  rows := t.rows.map fun r => if key r = k then f r else r
  nodup := by
    have hkey : key ∘ (fun r => if key r = k then f r else r) = key := by
      funext r
      show key (if key r = k then f r else r) = key r
      split
      · exact hf r
      · rfl
    rw [List.map_map, hkey]
    exact t.nodup

variable {t t' : Table κ ρ key} {k : κ} {r : ρ}

theorem get_eq_some_iff : t.get k = some r ↔ r ∈ t.rows ∧ key r = k := by
  constructor
  · intro h
    have hkey := List.find?_some h
    exact ⟨List.mem_of_find?_eq_some h, of_decide_eq_true hkey⟩
  · rintro ⟨hr, hk⟩
    have hsome : (t.get k).isSome := List.find?_isSome.mpr ⟨r, hr, decide_eq_true hk⟩
    obtain ⟨r', hr'⟩ := Option.isSome_iff_exists.mp hsome
    have hkey' : key r' = k := by simpa using List.find?_some hr'
    rw [hr', row_eq_of_key (List.mem_of_find?_eq_some hr') hr (hkey'.trans hk.symm)]

theorem get_key (h : t.get k = some r) : key r = k := (get_eq_some_iff.mp h).2

theorem mem_of_get (h : t.get k = some r) : r ∈ t.rows := (get_eq_some_iff.mp h).1

theorem get_of_mem (h : r ∈ t.rows) : t.get (key r) = some r := get_eq_some_iff.mpr ⟨h, rfl⟩

theorem get_eq_none_iff : t.get k = none ↔ k ∉ t.rows.map key := by
  unfold get
  rw [List.find?_eq_none, List.mem_map]
  constructor
  · rintro h ⟨r, hr, hk⟩
    exact h r hr (decide_eq_true hk)
  · intro h r hr hk
    exact h ⟨r, hr, of_decide_eq_true hk⟩

theorem rows_extend {rs : List ρ} (h : t.extend rs = some t') : t'.rows = t.rows ++ rs := by
  obtain ⟨_, hs⟩ := Option.dite_none_right_eq_some.mp h
  rw [← Option.some.inj hs]

/-- What holds of the rows so far and of those inserted holds of all rows. -/
theorem forall_rows_extend {rs : List ρ} {P : ρ → Prop} (h : t.extend rs = some t')
    (hold : ∀ r ∈ t.rows, P r) (hnew : ∀ r ∈ rs, P r) : ∀ r ∈ t'.rows, P r := by
  rw [rows_extend h]
  exact List.forall_mem_append.mpr ⟨hold, hnew⟩

theorem get_extend {rs : List ρ} (h : t.extend rs = some t') (k : κ) :
    t'.get k = (t.get k).or (rs.find? fun r => decide (key r = k)) := by
  unfold get
  rw [rows_extend h, List.find?_append]

/-- What was there before an insertion still is. -/
theorem get_extend_of_some {rs : List ρ} (h : t.extend rs = some t') (hr : t.get k = some r) :
    t'.get k = some r := by
  rw [get_extend h, hr]
  rfl

theorem extend_nil (t : Table κ ρ key) : t.extend [] = some t := by
  unfold extend
  rw [dif_pos (by rw [List.append_nil]; exact t.nodup)]
  congr 2
  exact List.append_nil _

/-- A row with a new key can be inserted. -/
theorem extend_eq_some {x : ρ} (h : key x ∉ t.rows.map key) : ∃ t', t.extend [x] = some t' := by
  have hnodup : ((t.rows ++ [x]).map key).Nodup := by
    rw [List.map_append, List.map_singleton]
    exact List.nodup_append.mpr ⟨t.nodup, List.nodup_singleton _, fun a ha b hb hab =>
      h (List.mem_singleton.mp hb ▸ hab ▸ ha)⟩
  exact ⟨_, dif_pos hnodup⟩

/-- The keys of the inserted rows are new. -/
theorem key_not_mem_of_extend {rs : List ρ} (h : t.extend rs = some t') (hr : r ∈ rs) :
    key r ∉ t.rows.map key := by
  obtain ⟨hnodup, -⟩ := Option.dite_none_right_eq_some.mp h
  rw [List.map_append] at hnodup
  intro hmem
  exact (List.nodup_append.mp hnodup).2.2 _ hmem _ (List.mem_map_of_mem hr) rfl

@[simp] theorem rows_modify (f : ρ → ρ) (hf : ∀ r, key (f r) = key r) :
    (t.modify k f hf).rows = t.rows.map fun r => if key r = k then f r else r := rfl

/-- An update that changes no row of the key. -/
theorem modify_eq_self {f : ρ → ρ} {hf : ∀ r, key (f r) = key r}
    (h : ∀ r, t.get k = some r → f r = r) : t.modify k f hf = t := by
  have hrows : t.rows.map (fun r => if key r = k then f r else r) = t.rows := by
    refine (List.map_congr_left fun r hr => ?_).trans t.rows.map_id
    show (if key r = k then f r else r) = r
    split
    · next hk => exact h r (get_eq_some_iff.mpr ⟨hr, hk⟩)
    · rfl
  cases t
  simp only [modify, hrows]

theorem get_modify (t : Table κ ρ key) (k : κ) (f : ρ → ρ) (hf : ∀ r, key (f r) = key r) (k' : κ) :
    (t.modify k f hf).get k' = if k' = k then (t.get k').map f else t.get k' := by
  have hpred : (fun r => decide (key r = k')) ∘ (fun r => if key r = k then f r else r) =
      fun r => decide (key r = k') := by
    funext r
    show decide (key (if key r = k then f r else r) = k') = decide (key r = k')
    split
    · rw [hf]
    · rfl
  unfold get
  rw [rows_modify, List.find?_map, hpred]
  cases hget : t.rows.find? fun r => decide (key r = k') with
  | none => simp
  | some r =>
    have hkey : key r = k' := by simpa using List.find?_some hget
    by_cases hk : k' = k
    · simp [hk, hkey]
    · simp [hk, hkey]

end Table

end CloudScale.Lib
