/-
  The text encodings of the browser: `encodeURIComponent`, `decodeURIComponent`, `escape`,
  `unescape`, `btoa` and `atob`.

  A binary string has an octet in each code unit. `unescape(encodeURIComponent(s))` is the UTF-8 of
  `s` as a binary string, and `decodeURIComponent(escape(b))` reads it back
  (`decodeURIComponent_escape`); `none` is a `URIError`, or the exception of `btoa` and `atob`.
-/
import Mathlib.Data.Bool.AllAny
import CloudScale.Frontend.JsString
import CloudScale.Lib.Base64
import CloudScale.Lib.Unicode

namespace CloudScale.Frontend

open CloudScale.Lib CloudScale.Lib.Unicode

/-! ## Hexadecimal digits -/

def upperHex (n : ℕ) : UInt16 := UInt16.ofNat (if n < 10 then 48 + n else 55 + n)

def hexValue (u : UInt16) : Option ℕ :=
  if 48 ≤ u && u ≤ 57 then some (u.toNat - 48)
  else if 65 ≤ u && u ≤ 70 then some (u.toNat - 55)
  else if 97 ≤ u && u ≤ 102 then some (u.toNat - 87)
  else none

/-- The number in the first two digits. -/
def hexPair : JsString → Option ℕ
  | a :: b :: _ => do return (← hexValue a) * 16 + (← hexValue b)
  | _ => none

/-- The unit in the first four digits. -/
def hexQuad : JsString → Option UInt16
  | a :: b :: c :: d :: _ => do
    return UInt16.ofNat ((← hexPair [a, b]) * 256 + (← hexPair [c, d]))
  | _ => none

/-- `%` and two digits. -/
def percent (n : ℕ) : JsString := [unit '%', upperHex (n / 16), upperHex (n % 16)]

theorem upperHex_spec : ∀ n < 16, hexValue (upperHex n) = some n ∧ upperHex n ≠ unit 'u' := by
  decide

theorem hexPair_upperHex {n : ℕ} (h : n < 256) (s : JsString) :
    hexPair (upperHex (n / 16) :: upperHex (n % 16) :: s) = some n := by
  have hhi := (upperHex_spec (n / 16) (by omega)).1
  have hlo := (upperHex_spec (n % 16) (by omega)).1
  simp only [hexPair, hhi, hlo, Option.bind_eq_bind, Option.bind_some, Option.pure_def,
    Option.some.injEq]
  omega

/-! ## The functions -/

def isAlphanumeric (u : UInt16) : Bool :=
  (48 ≤ u && u ≤ 57) || (65 ≤ u && u ≤ 90) || (97 ≤ u && u ≤ 122)

/-- `uriUnreserved`. -/
def isUnreserved (u : UInt16) : Bool := isAlphanumeric u || (units "-_.!~*\x27()").contains u

/-- The octets of a character, one in each unit. -/
def octetUnits (c : Char) : JsString := (String.utf8EncodeChar c).map UInt8.toUInt16

def encodeCodePoint (c : Char) : JsString :=
  if c.toNat < 0x80 && isUnreserved (unit c) then [unit c]
  else (String.utf8EncodeChar c).flatMap fun b => percent b.toNat

def encodeURIComponent (s : JsString) : Option JsString :=
  (codePoints s).map fun cs => cs.flatMap encodeCodePoint

/-- The escapes of `n` more octets. -/
def octetsAt : ℕ → JsString → Option (List UInt8)
  | 0, _ => some []
  | n + 1, p :: s =>
    if p = unit '%' then do
      let b ← hexPair s
      return UInt8.ofNat b :: (← octetsAt n (s.drop 2))
    else none
  | _ + 1, [] => none

/-- The character whose escape begins behind a `%`, and how many units the escape has behind it. -/
def escapedChar (s : JsString) : Option (Char × ℕ) := do
  let b := UInt8.ofNat (← hexPair s)
  let n ← octetCount b
  let bs ← octetsAt (n - 1) (s.drop 2)
  return (← decodeChar (b :: bs), 2 + 3 * (n - 1))

/-- `skip` units of an escape are still to be passed over. -/
def decodeFrom : ℕ → JsString → Option JsString
  | _, [] => some []
  | skip + 1, _ :: s => decodeFrom skip s
  | 0, u :: s =>
    if u = unit '%' then do
      let (c, skip) ← escapedChar s
      return utf16 c ++ (← decodeFrom skip s)
    else (decodeFrom 0 s).map (u :: ·)

def decodeURIComponent (s : JsString) : Option JsString := decodeFrom 0 s

def escapeUnit (u : UInt16) : JsString :=
  if isAlphanumeric u || (units "@*_+-./").contains u then [u]
  else if u.toNat < 256 then percent u.toNat
  else [unit '%', unit 'u', upperHex (u.toNat / 4096), upperHex (u.toNat / 256 % 16),
    upperHex (u.toNat / 16 % 16), upperHex (u.toNat % 16)]

def escape (s : JsString) : JsString := s.flatMap escapeUnit

/-- What an escape behind a `%` stands for, and how many units it has there. -/
def escapedUnit : JsString → Option (UInt16 × ℕ)
  | u :: a :: b :: c :: d :: s =>
    if u = unit 'u' then (hexQuad (a :: b :: c :: d :: s)).map fun v => (v, 5)
    else (hexPair (u :: a :: b :: c :: d :: s)).map fun n => (UInt16.ofNat n, 2)
  | s => (hexPair s).map fun n => (UInt16.ofNat n, 2)

def unescapeUnits : ℕ → JsString → JsString
  | _, [] => []
  | skip + 1, _ :: s => unescapeUnits skip s
  | 0, u :: s =>
    match if u = unit '%' then escapedUnit s else none with
    | some (v, skip) => v :: unescapeUnits skip s
    | none => u :: unescapeUnits 0 s

def unescape (s : JsString) : JsString := unescapeUnits 0 s

/-- The alphabet of `btoa`. -/
def standardAlphabet : Base64.Alphabet UInt16 where
  digit n := UInt16.ofNat (if n.val < 26 then 65 + n.val else if n.val < 52 then 71 + n.val
    else if n.val < 62 then n.val - 4 else if n.val = 62 then 43 else 47)
  value u :=
    if 65 ≤ u && u ≤ 90 then some (Base64.sextet (u.toNat - 65))
    else if 97 ≤ u && u ≤ 122 then some (Base64.sextet (u.toNat - 71))
    else if 48 ≤ u && u ≤ 57 then some (Base64.sextet (u.toNat + 4))
    else if u = 43 then some (Base64.sextet 62)
    else if u = 47 then some (Base64.sextet 63)
    else none
  pad := unit '='
  blank u := u == 9 || u == 10 || u == 12 || u == 13 || u == 32
  value_digit := by decide
  value_pad := by decide
  blank_digit := by decide
  blank_pad := by decide

def btoa (s : JsString) : Option JsString :=
  if s.all fun u => u.toNat < 256 then
    some (Base64.encode standardAlphabet (s.map UInt16.toUInt8))
  else none

def atob (s : JsString) : Option JsString :=
  (Base64.decode standardAlphabet s).map (List.map UInt8.toUInt16)

/-! ## Binary strings -/

/-- The UTF-8 of a text. -/
def binary (cs : List Char) : JsString :=
  (cs.flatMap String.utf8EncodeChar).map UInt8.toUInt16

theorem binary_cons (c : Char) (cs : List Char) :
    binary (c :: cs) = octetUnits c ++ binary cs := by
  unfold binary octetUnits
  rw [List.flatMap_cons, List.map_append]

theorem ofNat_octet (b : UInt8) : UInt16.ofNat b.toNat = b.toUInt16 :=
  unit_eq (UInt8.toNat_toUInt16 b).symm

theorem atob_btoa (bs : List UInt8) :
    ∃ t, btoa (bs.map UInt8.toUInt16) = some t ∧ atob t = some (bs.map UInt8.toUInt16) := by
  have hall : ((bs.map UInt8.toUInt16).all fun u => u.toNat < 256) = true := by
    simp only [List.all_map, List.all_eq_true, Function.comp_apply, UInt8.toNat_toUInt16,
      decide_eq_true_eq]
    exact fun b _ => b.toNat_lt
  have hback : (bs.map UInt8.toUInt16).map UInt16.toUInt8 = bs := by
    rw [List.map_map]
    exact List.map_id'' (fun b => UInt8.toUInt8_toUInt16 b) bs
  refine ⟨_, if_pos hall, ?_⟩
  unfold atob
  rw [Base64.decode_encode, Option.map_some, hback]

/-- A character below 128 is one octet. -/
theorem utf8EncodeChar_ascii {c : Char} (h : c.toNat < 0x80) :
    String.utf8EncodeChar c = [UInt8.ofNat c.toNat] := by
  rcases utf8EncodeChar_cases c with ⟨-, heq⟩ | ⟨h', -⟩ | ⟨h', -⟩ | ⟨h', -⟩
  · exact heq
  all_goals omega

theorem octetUnits_ascii {c : Char} (h : c.toNat < 0x80) : octetUnits c = [unit c] := by
  unfold octetUnits
  rw [utf8EncodeChar_ascii h, List.map_singleton, ← ofNat_octet, toNat_ofNat (by omega)]
  rfl

theorem utf16_ascii {c : Char} (h : c.toNat < 0x80) : utf16 c = [unit c] :=
  if_pos (Nat.lt_trans h (by decide))

/-! ## `unescape` after `encodeURIComponent` -/

theorem unescapeUnits_skip (w s : JsString) :
    unescapeUnits w.length (w ++ s) = unescapeUnits 0 s := by
  induction w with
  | nil => rfl
  | cons u w ih => exact ih

theorem unescape_cons {u : UInt16} (h : u ≠ unit '%') (s : JsString) :
    unescape (u :: s) = u :: unescape s := by
  unfold unescape
  rw [unescapeUnits, if_neg h]

theorem escapedUnit_upperHex {n : ℕ} (h : n < 256) (s : JsString) :
    escapedUnit (upperHex (n / 16) :: upperHex (n % 16) :: s) = some (UInt16.ofNat n, 2) := by
  have hu := (upperHex_spec (n / 16) (by omega)).2
  have hpair := hexPair_upperHex h
  match s with
  | a :: b :: c :: s => simp only [escapedUnit, if_neg hu, hpair, Option.map_some]
  | [a, b] => simp only [escapedUnit, hpair, Option.map_some]
  | [a] => simp only [escapedUnit, hpair, Option.map_some]
  | [] => simp only [escapedUnit, hpair, Option.map_some]

theorem unescape_percent {n : ℕ} (h : n < 256) (s : JsString) :
    unescape (percent n ++ s) = UInt16.ofNat n :: unescape s := by
  have hunit := escapedUnit_upperHex h s
  have hskip := unescapeUnits_skip [upperHex (n / 16), upperHex (n % 16)] s
  unfold unescape
  show unescapeUnits 0 (unit '%' :: upperHex (n / 16) :: upperHex (n % 16) :: s) = _
  rw [unescapeUnits, if_pos rfl, hunit]
  exact congrArg (List.cons _) hskip

theorem unescape_octets (bs : List UInt8) (s : JsString) :
    unescape ((bs.flatMap fun b => percent b.toNat) ++ s) =
      bs.map UInt8.toUInt16 ++ unescape s := by
  induction bs with
  | nil => rfl
  | cons b bs ih =>
    rw [List.flatMap_cons, List.append_assoc, unescape_percent b.toNat_lt, ih, ofNat_octet]
    rfl

theorem unescape_encodeCodePoint (c : Char) (s : JsString) :
    unescape (encodeCodePoint c ++ s) = octetUnits c ++ unescape s := by
  unfold encodeCodePoint
  split
  · next h =>
    obtain ⟨hascii, hsafe⟩ := Bool.and_eq_true_iff.mp h
    have hne : unit c ≠ unit '%' := by
      intro heq
      rw [heq] at hsafe
      revert hsafe
      decide
    rw [octetUnits_ascii (by simpa using hascii)]
    exact unescape_cons hne s
  · exact unescape_octets _ s

theorem unescape_encode (cs : List Char) :
    unescape (cs.flatMap encodeCodePoint) = binary cs := by
  induction cs with
  | nil => rfl
  | cons c cs ih => rw [List.flatMap_cons, unescape_encodeCodePoint, ih, binary_cons]

/-! ## `decodeURIComponent` after `escape` -/

theorem decodeFrom_skip (w s : JsString) : decodeFrom w.length (w ++ s) = decodeFrom 0 s := by
  induction w with
  | nil => rfl
  | cons u w ih => exact ih

theorem octetsAt_percent (bs : List UInt8) (s : JsString) :
    octetsAt bs.length ((bs.flatMap fun b => percent b.toNat) ++ s) = some bs := by
  induction bs with
  | nil => rfl
  | cons b bs ih =>
    have hpair := hexPair_upperHex b.toNat_lt ((bs.flatMap fun b => percent b.toNat) ++ s)
    show octetsAt (bs.length + 1) (unit '%' :: upperHex (b.toNat / 16) ::
      upperHex (b.toNat % 16) :: ((bs.flatMap fun b => percent b.toNat) ++ s)) = _
    simp only [octetsAt, if_true, hpair, List.drop_succ_cons, List.drop_zero, ih,
      Option.bind_eq_bind, Option.bind_some, Option.pure_def, UInt8.ofNat_toNat]

/-- All octets of a character escaped. -/
theorem decodeURIComponent_octets {c : Char} {b : UInt8} {bs : List UInt8}
    (h : String.utf8EncodeChar c = b :: bs) (hcount : octetCount b = some (bs.length + 1))
    (s : JsString) :
    decodeURIComponent (((b :: bs).flatMap fun b => percent b.toNat) ++ s) =
      (decodeURIComponent s).map (utf16 c ++ ·) := by
  have hchar : decodeChar (b :: bs) = some c := decodeChar_eq_some_iff.mpr h
  have hpair := hexPair_upperHex b.toNat_lt ((bs.flatMap fun b => percent b.toNat) ++ s)
  have hescaped : escapedChar (upperHex (b.toNat / 16) :: upperHex (b.toNat % 16) ::
      ((bs.flatMap fun b => percent b.toNat) ++ s)) = some (c, 2 + 3 * bs.length) := by
    simp only [escapedChar, hpair, UInt8.ofNat_toNat, hcount, Nat.add_sub_cancel,
      List.drop_succ_cons, List.drop_zero, octetsAt_percent, hchar, Option.bind_eq_bind,
      Option.bind_some, Option.pure_def]
  have hlength : (upperHex (b.toNat / 16) :: upperHex (b.toNat % 16) ::
      bs.flatMap fun b => percent b.toNat).length = 2 + 3 * bs.length := by
    simp only [List.length_cons, List.length_flatMap, percent, List.length_nil]
    simp
    omega
  have hskip := decodeFrom_skip (upperHex (b.toNat / 16) :: upperHex (b.toNat % 16) ::
    bs.flatMap fun b => percent b.toNat) s
  rw [hlength] at hskip
  show decodeFrom 0 (unit '%' :: (upperHex (b.toNat / 16) :: upperHex (b.toNat % 16) ::
    ((bs.flatMap fun b => percent b.toNat) ++ s))) = _
  rw [decodeFrom, if_pos rfl, hescaped]
  show (decodeFrom (2 + 3 * bs.length) _).bind _ = (decodeFrom 0 s).map _
  rw [← hskip, Option.map_eq_bind]
  rfl

theorem escape_append (s t : JsString) : escape (s ++ t) = escape s ++ escape t :=
  List.flatMap_append

theorem safe_low : ∀ u ∈ units "@*_+-./", u.toNat < 0x80 :=
  List.all_iff_forall_prop.mp (by decide)

/-- An octet from 128 on is always escaped. -/
theorem escapeUnit_high {b : UInt8} (h : 0x80 ≤ b.toNat) :
    escapeUnit b.toUInt16 = percent b.toNat := by
  have hnat : b.toUInt16.toNat = b.toNat := UInt8.toNat_toUInt16 b
  have halnum : isAlphanumeric b.toUInt16 = false := by
    simp only [isAlphanumeric, Bool.or_eq_false_iff, Bool.and_eq_false_iff,
      decide_eq_false_iff_not, UInt16.le_iff_toNat_le, hnat]
    refine ⟨⟨.inr ?_, .inr ?_⟩, .inr ?_⟩ <;> simp <;> omega
  have hsafe : (units "@*_+-./").contains b.toUInt16 = false := by
    refine Bool.eq_false_iff.mpr fun hmem => ?_
    have hlow := safe_low _ (List.contains_iff_mem.mp hmem)
    omega
  unfold escapeUnit
  rw [halnum, hsafe, if_neg (by simp), hnat, if_pos b.toNat_lt]

theorem escape_octets {bs : List UInt8} (h : ∀ b ∈ bs, 0x80 ≤ b.toNat) :
    escape (bs.map UInt8.toUInt16) = bs.flatMap fun b => percent b.toNat := by
  unfold escape
  rw [List.flatMap_map]
  exact List.flatMap_congr fun b hb => escapeUnit_high (h b hb)

theorem decodeURIComponent_cons {u : UInt16} (h : u ≠ unit '%') (s : JsString) :
    decodeURIComponent (u :: s) = (decodeURIComponent s).map (u :: ·) := by
  unfold decodeURIComponent
  rw [decodeFrom, if_neg h]

theorem decodeURIComponent_escapeChar (c : Char) (s : JsString) :
    decodeURIComponent (escape (octetUnits c) ++ s) =
      (decodeURIComponent s).map (utf16 c ++ ·) := by
  rcases octetCount_head c with ⟨h, heq⟩ | ⟨b, bs, heq, hcount, hhigh⟩
  · have hnat : (unit c).toNat = c.toNat := UInt16.toNat_ofNat_of_lt' (Nat.lt_trans h (by decide))
    rw [octetUnits_ascii h, utf16_ascii h]
    show decodeURIComponent (escapeUnit (unit c) ++ [] ++ s) = _
    rw [List.append_nil]
    unfold escapeUnit
    split
    · next hsafe =>
      refine decodeURIComponent_cons (fun hpercent => ?_) s
      rw [hpercent] at hsafe
      revert hsafe
      decide
    · rw [if_pos (by omega), hnat]
      have hone : octetCount (UInt8.ofNat c.toNat) = some (([] : List UInt8).length + 1) := by
        unfold octetCount
        rw [toNat_ofNat (by omega), if_pos h]
        rfl
      have hchar := decodeURIComponent_octets heq hone s
      rw [List.flatMap_singleton, toNat_ofNat (by omega), utf16_ascii h] at hchar
      exact hchar
  · unfold octetUnits
    rw [heq, escape_octets hhigh]
    exact decodeURIComponent_octets heq hcount s

theorem decodeURIComponent_escape (cs : List Char) :
    decodeURIComponent (escape (binary cs)) = some (cs.flatMap utf16) := by
  induction cs with
  | nil => rfl
  | cons c cs ih =>
    rw [binary_cons, escape_append, decodeURIComponent_escapeChar, ih]
    rfl

end CloudScale.Frontend
