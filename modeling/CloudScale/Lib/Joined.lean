/-
  Texts joined by a separator that they may contain themselves.

  A joined text does not say where one text ends and the next begins: it says the pieces between the
  separators. `intercalate_eq_iff`: two lists of texts join to the same text exactly when they have
  the same pieces. Texts without the separator are their own pieces (`piecesOf_of_free`), and such a
  text is told apart from what follows it (`append_sep_inj`).
-/
import Mathlib.Data.List.Basic

namespace CloudScale.Lib

theorem toString_injective {m n : ℕ} (h : toString m = toString n) : m = n := by
  have hdigits : Nat.toDigits 10 m = Nat.toDigits 10 n := String.ofList_injective h
  rw [← Nat.ofDigitChars_ten_toDigits (n := m), hdigits, Nat.ofDigitChars_ten_toDigits]

variable {α : Type}

/-- Two texts around the first separator. -/
theorem append_sep_inj {sep : α} {xs ys zs ws : List α} (hx : sep ∉ xs) (hy : sep ∉ ys)
    (h : xs ++ sep :: zs = ys ++ sep :: ws) : xs = ys ∧ zs = ws := by
  induction xs generalizing ys with
  | nil =>
    cases ys with
    | nil => exact ⟨rfl, (List.cons.inj h).2⟩
    | cons y ys => exact absurd ((List.cons.inj h).1 ▸ List.mem_cons_self) hy
  | cons x xs ih =>
    cases ys with
    | nil => exact absurd ((List.cons.inj h).1 ▸ List.mem_cons_self) hx
    | cons y ys =>
      obtain ⟨rfl, htail⟩ := List.cons.inj h
      obtain ⟨rfl, hrest⟩ := ih (fun hmem => hx (List.mem_cons_of_mem _ hmem))
        (fun hmem => hy (List.mem_cons_of_mem _ hmem)) htail
      exact ⟨rfl, hrest⟩

variable [DecidableEq α] (sep : α)

/-- What the separators cut a list of texts into. -/
def piecesOf (xs : List (List α)) : List (List α) := xs.flatMap fun x => x.splitOn sep

theorem splitOn_intercalate {xs : List (List α)} (h : xs ≠ []) :
    ([sep].intercalate xs).splitOn sep = piecesOf sep xs := by
  induction xs with
  | nil => exact absurd rfl h
  | cons x xs ih =>
    show _ = x.splitOn sep ++ piecesOf sep xs
    by_cases hxs : xs = []
    · subst hxs
      simp [piecesOf]
    · rw [List.intercalate_cons_of_ne_nil hxs, List.append_assoc, List.singleton_append,
        List.splitOn_append_cons_self, ih hxs]

/-- Two lists of texts join to the same text exactly when they have the same pieces. -/
theorem intercalate_eq_iff {xs ys : List (List α)} (hx : xs ≠ []) (hy : ys ≠ []) :
    [sep].intercalate xs = [sep].intercalate ys ↔ piecesOf sep xs = piecesOf sep ys := by
  rw [← splitOn_intercalate sep hx, ← splitOn_intercalate sep hy]
  refine ⟨congrArg (List.splitOn sep), fun h => ?_⟩
  have hjoin := congrArg [sep].intercalate h
  rwa [List.intercalate_splitOn, List.intercalate_splitOn] at hjoin

/-- Texts without the separator are their own pieces. -/
theorem piecesOf_of_free {xs : List (List α)} (h : ∀ x ∈ xs, sep ∉ x) : piecesOf sep xs = xs := by
  induction xs with
  | nil => rfl
  | cons x xs ih =>
    have ih := ih fun y hy => h y (List.mem_cons_of_mem x hy)
    show x.splitOn sep ++ piecesOf sep xs = x :: xs
    rw [List.splitOn_eq_singleton (h x List.mem_cons_self), ih, List.singleton_append]

end CloudScale.Lib
