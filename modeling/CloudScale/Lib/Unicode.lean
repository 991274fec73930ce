/-
  Characters as octets (UTF-8) and as code units of 16 bits (UTF-16), and back.

  The octets of a character are `String.utf8EncodeChar`. `decodeChar` takes the octets of one
  character and nothing else (`decodeChar_eq_some_iff`: no overlong form, no surrogate), and the
  first octet tells how many they are (`octetCount_head`). A text of code units is one of characters
  unless a surrogate stands alone in it (`codePoints`).
-/
import Mathlib.Data.List.Basic

namespace CloudScale.Lib.Unicode

/-! ## UTF-8 -/

/-- How many octets a character has that begins with this one; `none`: none begins so. -/
def octetCount (b : UInt8) : Option ℕ :=
  if b.toNat < 0x80 then some 1
  else if b.toNat < 0xc0 then none
  else if b.toNat < 0xe0 then some 2
  else if b.toNat < 0xf0 then some 3
  else if b.toNat < 0xf8 then some 4
  else none

/-- The number in the octets. -/
def codePoint : List UInt8 → ℕ
  | [a] => a.toNat
  | [a, b] => a.toNat % 32 * 64 + b.toNat % 64
  | [a, b, c] => a.toNat % 16 * 4096 + b.toNat % 64 * 64 + c.toNat % 64
  | [a, b, c, d] =>
    a.toNat % 8 * 262144 + b.toNat % 64 * 4096 + c.toNat % 64 * 64 + d.toNat % 64
  | _ => 0

/-- The character whose octets these are. -/
def decodeChar (bs : List UInt8) : Option Char :=
  let c := Char.ofNat (codePoint bs)
  if String.utf8EncodeChar c = bs then some c else none

/-- The forms of a character, by the number of its octets. -/
theorem utf8EncodeChar_cases (c : Char) :
    (c.toNat < 0x80 ∧ String.utf8EncodeChar c = [UInt8.ofNat c.toNat]) ∨
    (0x80 ≤ c.toNat ∧ c.toNat < 0x800 ∧ String.utf8EncodeChar c =
      [UInt8.ofNat (c.toNat / 64 % 32 + 0xc0), UInt8.ofNat (c.toNat % 64 + 0x80)]) ∨
    (0x800 ≤ c.toNat ∧ c.toNat < 0x10000 ∧ String.utf8EncodeChar c =
      [UInt8.ofNat (c.toNat / 4096 % 16 + 0xe0), UInt8.ofNat (c.toNat / 64 % 64 + 0x80),
        UInt8.ofNat (c.toNat % 64 + 0x80)]) ∨
    (0x10000 ≤ c.toNat ∧ c.toNat < 0x110000 ∧ String.utf8EncodeChar c =
      [UInt8.ofNat (c.toNat / 262144 % 8 + 0xf0), UInt8.ofNat (c.toNat / 4096 % 64 + 0x80),
        UInt8.ofNat (c.toNat / 64 % 64 + 0x80), UInt8.ofNat (c.toNat % 64 + 0x80)]) := by
  have hmax : c.toNat < 0x110000 := by
    rcases c.valid with h | h
    · exact Nat.lt_trans h (by decide)
    · exact h.2
  unfold String.utf8EncodeChar
  by_cases h₁ : c.toNat ≤ 0x7f
  · exact .inl ⟨by omega, if_pos h₁⟩
  · by_cases h₂ : c.toNat ≤ 0x7ff
    · exact .inr (.inl ⟨by omega, by omega, (if_neg h₁).trans (if_pos h₂)⟩)
    · by_cases h₃ : c.toNat ≤ 0xffff
      · exact .inr (.inr (.inl ⟨by omega, by omega,
          (if_neg h₁).trans ((if_neg h₂).trans (if_pos h₃))⟩))
      · exact .inr (.inr (.inr ⟨by omega, hmax,
          (if_neg h₁).trans ((if_neg h₂).trans (if_neg h₃))⟩))

theorem toNat_ofNat {n : ℕ} (h : n < 256) : (UInt8.ofNat n).toNat = n :=
  UInt8.toNat_ofNat_of_lt' h

theorem codePoint_utf8EncodeChar (c : Char) : codePoint (String.utf8EncodeChar c) = c.toNat := by
  rcases utf8EncodeChar_cases c with ⟨h, heq⟩ | ⟨h, h', heq⟩ | ⟨h, h', heq⟩ | ⟨h, h', heq⟩ <;>
    rw [heq] <;> unfold codePoint <;> simp (disch := omega) only [toNat_ofNat] <;> omega

theorem decodeChar_utf8EncodeChar (c : Char) : decodeChar (String.utf8EncodeChar c) = some c := by
  unfold decodeChar
  simp only [codePoint_utf8EncodeChar, Char.ofNat_toNat, if_true]

theorem decodeChar_eq_some_iff {bs : List UInt8} {c : Char} :
    decodeChar bs = some c ↔ String.utf8EncodeChar c = bs := by
  constructor
  · intro h
    unfold decodeChar at h
    simp only at h
    split at h
    · next hc =>
      obtain rfl := Option.some.inj h
      exact hc
    · cases h
  · rintro rfl
    exact decodeChar_utf8EncodeChar c

theorem octetCount_two {b : UInt8} (h : 0xc0 ≤ b.toNat) (h' : b.toNat < 0xe0) :
    octetCount b = some 2 := by
  unfold octetCount
  rw [if_neg (by omega), if_neg (by omega), if_pos h']

theorem octetCount_three {b : UInt8} (h : 0xe0 ≤ b.toNat) (h' : b.toNat < 0xf0) :
    octetCount b = some 3 := by
  unfold octetCount
  rw [if_neg (by omega), if_neg (by omega), if_neg (by omega), if_pos h']

theorem octetCount_four {b : UInt8} (h : 0xf0 ≤ b.toNat) (h' : b.toNat < 0xf8) :
    octetCount b = some 4 := by
  unfold octetCount
  rw [if_neg (by omega), if_neg (by omega), if_neg (by omega), if_neg (by omega), if_pos h']

/-- A character is one octet below 128, or it begins with one that tells how many there are, and all
    of them are from 128 on. -/
theorem octetCount_head (c : Char) :
    (c.toNat < 0x80 ∧ String.utf8EncodeChar c = [UInt8.ofNat c.toNat]) ∨
      ∃ b bs, String.utf8EncodeChar c = b :: bs ∧ octetCount b = some (bs.length + 1) ∧
        ∀ x ∈ b :: bs, 0x80 ≤ x.toNat := by
  rcases utf8EncodeChar_cases c with h | ⟨h, h', heq⟩ | ⟨h, h', heq⟩ | ⟨h, h', heq⟩
  · exact .inl h
  all_goals
    refine .inr ⟨_, _, heq, ?_, ?_⟩
    rotate_left
    · simp only [List.forall_mem_cons, List.not_mem_nil, false_implies, implies_true, and_true]
      simp (disch := omega) only [toNat_ofNat]
      omega
  · exact octetCount_two (by rw [toNat_ofNat] <;> omega) (by rw [toNat_ofNat] <;> omega)
  · exact octetCount_three (by rw [toNat_ofNat] <;> omega) (by rw [toNat_ofNat] <;> omega)
  · exact octetCount_four (by rw [toNat_ofNat] <;> omega) (by rw [toNat_ofNat] <;> omega)

/-! ## UTF-16 -/

def isLead (u : UInt16) : Bool := 0xd800 ≤ u.toNat && u.toNat < 0xdc00

def isTrail (u : UInt16) : Bool := 0xdc00 ≤ u.toNat && u.toNat < 0xe000

/-- The code units of a character. -/
def utf16 (c : Char) : List UInt16 :=
  if c.toNat < 0x10000 then [UInt16.ofNat c.toNat]
  else [UInt16.ofNat (0xd800 + (c.toNat - 0x10000) / 1024),
    UInt16.ofNat (0xdc00 + (c.toNat - 0x10000) % 1024)]

/-- The character of a pair of surrogates. -/
def surrogates (u v : UInt16) : Char :=
  Char.ofNat (0x10000 + (u.toNat - 0xd800) * 1024 + (v.toNat - 0xdc00))

/-- The characters of a text; `none`: a surrogate stands alone. -/
def codePoints : List UInt16 → Option (List Char)
  | [] => some []
  | [u] => if isLead u || isTrail u then none else some [Char.ofNat u.toNat]
  | u :: v :: s =>
    if isLead u && isTrail v then (codePoints s).map (surrogates u v :: ·)
    else if isLead u || isTrail u then none
    else (codePoints (v :: s)).map (Char.ofNat u.toNat :: ·)

theorem toNat_charOfNat {n : ℕ} (h : n.isValidChar) : (Char.ofNat n).toNat = n := by
  unfold Char.ofNat
  rw [dif_pos h]
  rfl

theorem unit_eq {u : UInt16} {n : ℕ} (h : n = u.toNat) : UInt16.ofNat n = u := by
  rw [h, UInt16.ofNat_toNat]

theorem utf16_bmp {u : UInt16} (hlead : isLead u = false) (htrail : isTrail u = false) :
    utf16 (Char.ofNat u.toNat) = [u] := by
  have hlt := u.toNat_lt
  have hvalid : u.toNat.isValidChar := by
    simp only [isLead, isTrail, Bool.and_eq_false_iff, decide_eq_false_iff_not] at hlead htrail
    unfold Nat.isValidChar
    omega
  unfold utf16
  rw [toNat_charOfNat hvalid, if_pos hlt, UInt16.ofNat_toNat]

theorem utf16_surrogates {u v : UInt16} (hlead : isLead u = true) (htrail : isTrail v = true) :
    utf16 (surrogates u v) = [u, v] := by
  simp only [isLead, isTrail, Bool.and_eq_true, decide_eq_true_eq] at hlead htrail
  have hvalid : (0x10000 + (u.toNat - 0xd800) * 1024 + (v.toNat - 0xdc00)).isValidChar := by
    unfold Nat.isValidChar
    omega
  unfold utf16 surrogates
  rw [toNat_charOfNat hvalid, if_neg (by omega)]
  exact congrArg₂ (fun x y => [x, y]) (unit_eq (by omega)) (unit_eq (by omega))

theorem utf16_codePoints : ∀ {s : List UInt16} {cs : List Char}, codePoints s = some cs →
    cs.flatMap utf16 = s
  | [], cs, h => by
    obtain rfl := Option.some.inj h
    rfl
  | [u], cs, h => by
    unfold codePoints at h
    split at h
    · cases h
    · next hu =>
      obtain ⟨hlead, htrail⟩ := Bool.or_eq_false_iff.mp (Bool.eq_false_iff.mpr hu)
      obtain rfl := Option.some.inj h
      rw [List.flatMap_singleton, utf16_bmp hlead htrail]
  | u :: v :: s, cs, h => by
    unfold codePoints at h
    split at h
    · next hpair =>
      obtain ⟨hlead, htrail⟩ := Bool.and_eq_true_iff.mp hpair
      obtain ⟨rest, hrest, rfl⟩ := Option.map_eq_some_iff.mp h
      rw [List.flatMap_cons, utf16_surrogates hlead htrail, utf16_codePoints hrest]
      rfl
    · split at h
      · cases h
      · next hu =>
        obtain ⟨hlead, htrail⟩ := Bool.or_eq_false_iff.mp (Bool.eq_false_iff.mpr hu)
        obtain ⟨rest, hrest, rfl⟩ := Option.map_eq_some_iff.mp h
        rw [List.flatMap_cons, utf16_bmp hlead htrail, utf16_codePoints hrest]
        rfl

/-- A surrogate does not pair across the end of a text of characters. -/
theorem codePoints_append : ∀ {s t : List UInt16} {cs ds : List Char}, codePoints s = some cs →
    codePoints t = some ds → codePoints (s ++ t) = some (cs ++ ds)
  | [], t, cs, ds, h, h' => by
    obtain rfl := Option.some.inj h
    exact h'
  | [u], t, cs, ds, h, h' => by
    unfold codePoints at h
    split at h
    · cases h
    · next hu =>
      obtain ⟨hlead, -⟩ := Bool.or_eq_false_iff.mp (Bool.eq_false_iff.mpr hu)
      obtain rfl := Option.some.inj h
      cases t with
      | nil =>
        obtain rfl := Option.some.inj h'
        show codePoints [u] = _
        unfold codePoints
        rw [if_neg hu]
        rfl
      | cons v t =>
        show codePoints (u :: v :: t) = _
        unfold codePoints
        rw [if_neg (by rw [hlead]; simp), if_neg hu, h']
        rfl
  | u :: v :: s, t, cs, ds, h, h' => by
    unfold codePoints at h
    show codePoints (u :: v :: (s ++ t)) = _
    unfold codePoints
    split at h
    · next hpair =>
      obtain ⟨rest, hrest, rfl⟩ := Option.map_eq_some_iff.mp h
      rw [if_pos hpair, codePoints_append hrest h']
      rfl
    · next hpair =>
      split at h
      · cases h
      · next hu =>
        obtain ⟨rest, hrest, rfl⟩ := Option.map_eq_some_iff.mp h
        rw [if_neg hpair, if_neg hu]
        show (codePoints (v :: s ++ t)).map _ = _
        rw [codePoints_append hrest h']
        rfl

end CloudScale.Lib.Unicode
