/-
  Base64: octets as sextets, four for three, and back.

  An `Alphabet` carries the characters of the sextets and the pad with what makes them tell apart;
  nothing here fixes them. `encode` pads to a multiple of four. `decode` is the forgiving one: it
  drops blanks, and up to two pads where the length is a multiple of four, and it takes what is left
  without pads too. `decode_encode`: it gives the octets back.
-/
import Mathlib.Data.List.Basic
import Mathlib.Data.List.Range

namespace CloudScale.Lib.Base64

/-- The characters of the sextets, the pad, and the blanks between them. -/
structure Alphabet (α : Type) where
  digit : Fin 64 → α
  value : α → Option (Fin 64)
  pad : α
  blank : α → Bool
  value_digit : ∀ n, value (digit n) = some n
  value_pad : value pad = none
  blank_digit : ∀ n, blank (digit n) = false
  blank_pad : blank pad = false

/-! ## Octets and sextets -/

abbrev sextet (n : ℕ) : Fin 64 := Fin.ofNat 64 n

def sextets : List UInt8 → List (Fin 64)
  | a :: b :: c :: s =>
    sextet (a.toNat / 4) :: sextet (a.toNat % 4 * 16 + b.toNat / 16) ::
      sextet (b.toNat % 16 * 4 + c.toNat / 64) :: sextet (c.toNat % 64) :: sextets s
  | [a, b] =>
    [sextet (a.toNat / 4), sextet (a.toNat % 4 * 16 + b.toNat / 16),
      sextet (b.toNat % 16 * 4)]
  | [a] => [sextet (a.toNat / 4), sextet (a.toNat % 4 * 16)]
  | [] => []

/-- The bits that are left over are dropped; a single sextet is no octet. -/
def octets : List (Fin 64) → Option (List UInt8)
  | p :: q :: r :: t :: s => do
    let rest ← octets s
    return UInt8.ofNat (p.val * 4 + q.val / 16) :: UInt8.ofNat (q.val % 16 * 16 + r.val / 4) ::
      UInt8.ofNat (r.val % 4 * 64 + t.val) :: rest
  | [p, q, r] =>
    some [UInt8.ofNat (p.val * 4 + q.val / 16), UInt8.ofNat (q.val % 16 * 16 + r.val / 4)]
  | [p, q] => some [UInt8.ofNat (p.val * 4 + q.val / 16)]
  | [_] => none
  | [] => some []

theorem ofNat_eq {b : UInt8} {n : ℕ} (h : n = b.toNat) : UInt8.ofNat n = b := by
  rw [h, UInt8.ofNat_toNat]

theorem octets_sextets : ∀ bs : List UInt8, octets (sextets bs) = some bs
  | a :: b :: c :: s => by
    have ha := a.toNat_lt
    have hb := b.toNat_lt
    have hc := c.toNat_lt
    simp only [sextets, octets, octets_sextets s, sextet, Fin.ofNat, Option.bind_eq_bind,
      Option.bind_some, Option.pure_def, Option.some.injEq, List.cons.injEq, and_true]
    refine ⟨ofNat_eq ?_, ofNat_eq ?_, ofNat_eq ?_⟩ <;> omega
  | [a, b] => by
    have ha := a.toNat_lt
    have hb := b.toNat_lt
    simp only [sextets, octets, sextet, Fin.ofNat, Option.some.injEq, List.cons.injEq, and_true]
    refine ⟨ofNat_eq ?_, ofNat_eq ?_⟩ <;> omega
  | [a] => by
    have ha := a.toNat_lt
    simp only [sextets, octets, sextet, Fin.ofNat, Option.some.injEq, List.cons.injEq, and_true]
    exact ofNat_eq (by omega)
  | [] => rfl

/-- The pads that fill the last four characters. -/
def padding (n : ℕ) : ℕ := (3 - n % 3) % 3

theorem padding_le (n : ℕ) : padding n ≤ 2 := by
  unfold padding
  omega

theorem length_sextets : ∀ bs : List UInt8, (sextets bs).length + padding bs.length =
    4 * ((bs.length + 2) / 3)
  | a :: b :: c :: s => by
    have ih := length_sextets s
    simp only [sextets, List.length_cons, padding] at ih ⊢
    omega
  | [_, _] | [_] | [] => by simp [sextets, padding]

/-! ## Text -/

variable {α : Type} [DecidableEq α] (ab : Alphabet α)

omit [DecidableEq α] in
def encode (bs : List UInt8) : List α :=
  (sextets bs).map ab.digit ++ List.replicate (padding bs.length) ab.pad

/-- Without one or two pads at the end. -/
def dropPads (s : List α) : List α :=
  match s.reverse with
  | x :: y :: r => if x = ab.pad then (if y = ab.pad then r else y :: r).reverse else s
  | [x] => if x = ab.pad then [] else s
  | [] => s

/-- `none`: the text is no encoding. -/
def decode (s : List α) : Option (List UInt8) :=
  let s := s.filter fun c => !ab.blank c
  let s := if s.length % 4 = 0 then dropPads ab s else s
  (s.mapM ab.value).bind octets

variable {ab}

omit [DecidableEq α] in
theorem digit_ne_pad (n : Fin 64) : ab.digit n ≠ ab.pad := by
  intro h
  have hvalue := ab.value_digit n
  rw [h, ab.value_pad] at hvalue
  cases hvalue

omit [DecidableEq α] in
/-- Every character is a sextet's or the pad. -/
theorem mem_encode {bs : List UInt8} {c : α} (h : c ∈ encode ab bs) :
    c = ab.pad ∨ ∃ n, c = ab.digit n := by
  rcases List.mem_append.mp h with h | h
  · obtain ⟨n, -, rfl⟩ := List.mem_map.mp h
    exact .inr ⟨n, rfl⟩
  · exact .inl (List.eq_of_mem_replicate h)

omit [DecidableEq α] in
theorem blank_encode {bs : List UInt8} {c : α} (h : c ∈ encode ab bs) : ab.blank c = false := by
  rcases mem_encode h with rfl | ⟨n, rfl⟩
  · exact ab.blank_pad
  · exact ab.blank_digit n

omit [DecidableEq α] in
theorem length_encode (bs : List UInt8) : (encode ab bs).length % 4 = 0 := by
  unfold encode
  rw [List.length_append, List.length_map, List.length_replicate, length_sextets]
  omega

/-- One or two pads behind a text without pads are dropped, and nothing else. -/
theorem dropPads_append {s : List α} {k : ℕ} (hs : ab.pad ∉ s) (hk : k ≤ 2) :
    dropPads ab (s ++ List.replicate k ab.pad) = s := by
  have hlast : ∀ x r, s.reverse = x :: r → x ≠ ab.pad := by
    rintro x r hrev rfl
    exact hs (List.mem_reverse.mp (hrev ▸ List.mem_cons_self))
  unfold dropPads
  rw [List.reverse_append, List.reverse_replicate]
  match k, hk with
  | 0, _ =>
    rw [List.replicate_zero, List.nil_append, List.append_nil]
    split
    · next x y r hrev => rw [if_neg (hlast x _ hrev)]
    · next x hrev => rw [if_neg (hlast x _ hrev)]
    · rfl
  | 1, _ =>
    cases hrev : s.reverse with
    | nil => simp [List.reverse_eq_nil_iff.mp hrev]
    | cons x r =>
      simp only [List.replicate_one, List.cons_append, List.nil_append, if_true,
        if_neg (hlast x r hrev)]
      rw [← hrev, List.reverse_reverse]
  | 2, _ =>
    simp only [List.replicate_succ, List.replicate_zero, List.cons_append, List.nil_append,
      if_true, List.reverse_reverse]

omit [DecidableEq α] in
theorem mapM_value (ns : List (Fin 64)) : (ns.map ab.digit).mapM ab.value = some ns := by
  induction ns with
  | nil => rfl
  | cons n ns ih =>
    rw [List.map_cons, List.mapM_cons, ab.value_digit, ih]
    rfl

theorem decode_encode (bs : List UInt8) : decode ab (encode ab bs) = some bs := by
  have hblank : (encode ab bs).filter (fun c => !ab.blank c) = encode ab bs :=
    List.filter_eq_self.mpr fun c hc => by rw [blank_encode hc]; rfl
  have hpad : ab.pad ∉ (sextets bs).map ab.digit := by
    intro h
    obtain ⟨n, -, hn⟩ := List.mem_map.mp h
    exact digit_ne_pad n hn
  unfold decode
  simp only [hblank, length_encode, if_true]
  have hdrop : dropPads ab (encode ab bs) = (sextets bs).map ab.digit :=
    dropPads_append hpad (padding_le _)
  rw [hdrop, mapM_value]
  exact octets_sextets bs

end CloudScale.Lib.Base64
