/-
  The signature of a webhook (`verify_stripe_signature` in `payment/app/router.py`).

  `Accepted` says which headers are to be accepted, and with which timestamp. The function decides
  that, except that `hmac.compare_digest` raises `TypeError` on a signature with a character that is
  not ASCII, and only `ValueError` and `KeyError` are caught. `verify_exact_iff`: it returns a bool,
  and the right one, unless it gets so far with such a signature (`Raises`); and an accepted
  signature determines the timestamp and the payload, if HMAC is injective. `foreign_signature` is a
  header that raises.
-/
import CloudScale.Shared.PyText
import Mathlib.Data.Bool.AllAny

namespace CloudScale.PaymentService

open CloudScale.Lib CloudScale.Shared

/-! ## The header -/

/-- The value of an HTTP header, decoded as Latin-1. -/
structure Header where
  text : List Char
  latin1 : ∀ c ∈ text, c.toNat < 256

/-- `str.isascii`. -/
def isAscii (text : List Char) : Bool := text.all fun c => decide (c.toNat < 128)

/-- `hmac.new(secret.encode(), message, hashlib.sha256).hexdigest()`. -/
structure Hmac where
  hexdigest : (secret : String) → (message : List UInt8) → List Char
  ascii : ∀ secret message, isAscii (hexdigest secret message) = true
  ne_nil : ∀ secret message, hexdigest secret message ≠ []

inductive SignatureExc where
  | valueError
  | keyError
  | typeError
deriving DecidableEq

/-- A key and its value. -/
abbrev Part := List Char × List Char

/-- What `item.strip().split("=", 1)` gives of an item with a `=`. -/
def cut (item : List Char) : Part :=
  ((strip item).takeWhile (· ≠ '='), ((strip item).dropWhile (· ≠ '=')).tail)

/-- `key, value = item.strip().split("=", 1)`. -/
def splitItem (item : List Char) : Except SignatureExc Part :=
  if '=' ∈ strip item then .ok (cut item) else .error .valueError

/-- The loop over the items; a later part of a dict hides the earlier ones of its key. -/
def parseParts (parts : List Part) : List (List Char) → Except SignatureExc (List Part)
  | [] => .ok parts
  | item :: items => do
    let part ← splitItem item
    parseParts (part :: parts) items

/-- `hmac.compare_digest`, of two texts. -/
def compareDigest (a b : List Char) : Except SignatureExc Bool :=
  if isAscii a && isAscii b then .ok (decide (a = b)) else .error .typeError

/-! ## The verification -/

section Verification

variable (hm : Hmac) (now : Int) (payload : List UInt8)

def signedPayload (timestamp : List Char) : List UInt8 := encode (timestamp ++ ['.']) ++ payload

/-- The check of a timestamp and a signature. -/
def checkSignature (secret : String) (timestamp expectedSig : List Char) :
    Except SignatureExc Bool :=
  match pyInt timestamp with
  | none => .error .valueError
  | some t =>
    if 300 < now - t then .ok false
    else compareDigest (hm.hexdigest secret (signedPayload payload timestamp)) expectedSig

/-- The `try` block. -/
def verifyParts (header : Header) (secret : String) : Except SignatureExc Bool := do
  let parts ← parseParts [] (header.text.splitOn ',')
  match parts.lookup ['t'], parts.lookup ['v', '1'] with
  | some timestamp, some expectedSig =>
    if timestamp = [] ∨ expectedSig = [] then return false
    else checkSignature hm now payload secret timestamp expectedSig
  | _, _ => return false

/-- `except (ValueError, KeyError)`. -/
def caught : Except SignatureExc Bool → Except SignatureExc Bool
  | .error .valueError => .ok false
  | .error .keyError => .ok false
  | r => r

/-- `verify_stripe_signature`, at the time `now`. -/
def verifyStripeSignature (header : Header) (secret : String) : Except SignatureExc Bool :=
  if header.text = [] then .ok false else caught (verifyParts hm now payload header secret)

end Verification

/-! ## What is to be accepted -/

def Header.parts (header : Header) : List Part := (header.text.splitOn ',').map cut

/-- The value is that of the last part with the key. -/
def IsLast (parts : List Part) (key value : List Char) : Prop :=
  ∃ before after, parts = before ++ (key, value) :: after ∧ ∀ part ∈ after, part.1 ≠ key

/-- Every item of the header is a part, and the last `t` is a timestamp that is fresh. -/
structure Fresh (now : Int) (header : Header) (t : List Char) : Prop where
  parts : ∀ item ∈ header.text.splitOn ',', '=' ∈ item
  last : IsLast header.parts ['t'] t
  fresh : ∃ n, pyInt t = some n ∧ now - n ≤ 300

/-- The header carries the signature of the timestamp and the payload. -/
structure Accepted (hm : Hmac) (now : Int) (payload : List UInt8) (header : Header)
    (secret : String) (t : List Char) : Prop extends Fresh now header t where
  signed : IsLast header.parts ['v', '1'] (hm.hexdigest secret (signedPayload payload t))

/-- The verification says whether the signature is accepted, and an accepted signature is that of
    one timestamp and one payload. -/
def Exact (hm : Hmac) (now : Int) (payload : List UInt8) (header : Header) (secret : String) :
    Prop :=
  (∃ b, verifyStripeSignature hm now payload header secret = .ok b ∧
    (b = true ↔ ∃ t, Accepted hm now payload header secret t)) ∧
  ∀ now' payload' header' t t' v, Accepted hm now payload header secret t →
    Accepted hm now' payload' header' secret t' → IsLast header.parts ['v', '1'] v →
      IsLast header'.parts ['v', '1'] v → t = t' ∧ payload = payload'

/-- The signature of a fresh timestamp is not ASCII. -/
def Raises (now : Int) (header : Header) : Prop :=
  ∃ t v, Fresh now header t ∧ IsLast header.parts ['v', '1'] v ∧ ∃ c ∈ v, 128 ≤ c.toNat

/-! ## The parser -/

theorem eq_mem_strip {item : List Char} : '=' ∈ strip item ↔ '=' ∈ item := mem_trim (by decide)

/-- The items are split, or one of them has no `=`. -/
theorem parseParts_eq (parts : List Part) (items : List (List Char)) :
    parseParts parts items =
      if ∀ item ∈ items, '=' ∈ item then .ok ((items.map cut).reverse ++ parts)
      else .error .valueError := by
  induction items generalizing parts with
  | nil => simp [parseParts]
  | cons item items ih =>
    rw [parseParts, splitItem]
    by_cases h : '=' ∈ item
    · rw [if_pos (eq_mem_strip.mpr h)]
      simp [ih, h, bind, Except.bind]
    · rw [if_neg (mt eq_mem_strip.mp h)]
      simp [h, bind, Except.bind]

theorem lookup_reverse {parts : List Part} {key value : List Char} :
    parts.reverse.lookup key = some value ↔ IsLast parts key value := by
  rw [List.lookup_eq_some_iff]
  constructor
  · rintro ⟨after, before, hparts, hne⟩
    refine ⟨before.reverse, after.reverse, ?_, fun part hpart => ?_⟩
    · rw [← List.reverse_reverse parts, hparts]
      simp
    · exact (bne_iff_ne.mp (hne part (List.mem_reverse.mp hpart))).symm
  · rintro ⟨before, after, rfl, hne⟩
    refine ⟨after.reverse, before.reverse, by simp, fun part hpart => ?_⟩
    exact bne_iff_ne.mpr (hne part (List.mem_reverse.mp hpart)).symm

theorem isLast_unique {parts : List Part} {key value value' : List Char}
    (h : IsLast parts key value) (h' : IsLast parts key value') : value = value' :=
  Option.some.inj ((lookup_reverse.mpr h).symm.trans (lookup_reverse.mpr h'))

/-! ## The decision -/

section Decision

variable {hm : Hmac} {now : Int} {payload : List UInt8} {header : Header} {secret : String}
  {t v : List Char}

theorem Fresh.number_ne_nil (h : Fresh now header t) : t ≠ [] := by
  rintro rfl
  obtain ⟨n, hn, -⟩ := h.fresh
  cases hn

/-- The signature of a fresh timestamp, if it is the last one. -/
theorem Accepted.eq_digest (h : Accepted hm now payload header secret t)
    (hv : IsLast header.parts ['v', '1'] v) :
    v = hm.hexdigest secret (signedPayload payload t) := isLast_unique hv h.signed

theorem compareDigest_digest (t v : List Char) :
    compareDigest (hm.hexdigest secret (signedPayload payload t)) v =
      if isAscii v then .ok (decide (hm.hexdigest secret (signedPayload payload t) = v))
      else .error .typeError := by
  unfold compareDigest
  rw [hm.ascii, Bool.true_and]

variable (hm payload secret v) in
/-- The check of the last timestamp and the last signature. -/
theorem checkSignature_eq (hparts : ∀ item ∈ header.text.splitOn ',', '=' ∈ item)
    (ht : IsLast header.parts ['t'] t) :
    checkSignature hm now payload secret t v = .error .valueError ∧ ¬ Fresh now header t ∨
    checkSignature hm now payload secret t v = .ok false ∧ ¬ Fresh now header t ∨
    checkSignature hm now payload secret t v =
      compareDigest (hm.hexdigest secret (signedPayload payload t)) v ∧ Fresh now header t := by
  unfold checkSignature
  cases hn : pyInt t with
  | none =>
    refine Or.inl ⟨rfl, fun h => ?_⟩
    obtain ⟨n, hn', -⟩ := h.fresh
    cases hn.symm.trans hn'
  | some n =>
    dsimp only
    split
    · next hold =>
      refine Or.inr (Or.inl ⟨rfl, fun h => ?_⟩)
      obtain ⟨n', hn', hfresh⟩ := h.fresh
      obtain rfl := Option.some.inj (hn.symm.trans hn')
      exact Int.not_lt.mpr hfresh hold
    · next hfresh => exact Or.inr (Or.inr ⟨rfl, hparts, ht, n, hn, Int.not_lt.mp hfresh⟩)

/-- The function and what it is to decide agree, or it raises. -/
def Decided (hm : Hmac) (now : Int) (payload : List UInt8) (header : Header) (secret : String)
    (r : Except SignatureExc Bool) : Prop :=
  (r = .error .typeError ∧ Raises now header) ∨
    ∃ b, r = .ok b ∧ ¬ Raises now header ∧ (b = true ↔ ∃ t, Accepted hm now payload header secret t)

theorem decided_stale (h : ∀ t, ¬ Fresh now header t) :
    Decided hm now payload header secret (.ok false) := by
  refine Or.inr ⟨false, rfl, fun ⟨t, _, hfresh, _⟩ => h t hfresh, ?_⟩
  exact iff_of_false Bool.false_ne_true fun ⟨t, haccepted⟩ => h t haccepted.toFresh

/-- There is a last signature, and it is empty or there is none at all. -/
theorem decided_unsigned (h : ∀ v, IsLast header.parts ['v', '1'] v → v = []) :
    Decided hm now payload header secret (.ok false) := by
  refine Or.inr ⟨false, rfl, ?_, iff_of_false Bool.false_ne_true ?_⟩
  · rintro ⟨t, v, -, hv, c, hc, -⟩
    rw [h v hv] at hc
    cases hc
  · rintro ⟨t, haccepted⟩
    exact hm.ne_nil _ _ (h _ haccepted.signed)

variable (hm payload secret) in
/-- A fresh timestamp and its signature. -/
theorem decided_fresh (hfresh : Fresh now header t) (hv : IsLast header.parts ['v', '1'] v) :
    Decided hm now payload header secret
      (compareDigest (hm.hexdigest secret (signedPayload payload t)) v) := by
  rw [compareDigest_digest]
  have hascii_iff : isAscii v = true ↔ ∀ c ∈ v, c.toNat < 128 := by simp [isAscii]
  by_cases hascii : isAscii v = true
  · rw [if_pos hascii]
    refine Or.inr ⟨_, rfl, ?_, decide_eq_true_iff.trans ⟨?_, ?_⟩⟩
    · rintro ⟨t', v', -, hv', c, hc, hforeign⟩
      rw [isLast_unique hv' hv] at hc
      exact Nat.not_lt.mpr hforeign (hascii_iff.mp hascii c hc)
    · rintro rfl
      exact ⟨t, hfresh, hv⟩
    · rintro ⟨t', haccepted⟩
      rw [isLast_unique hfresh.last haccepted.last]
      exact (haccepted.eq_digest hv).symm
  · rw [if_neg hascii]
    obtain ⟨c, hc, hforeign⟩ : ∃ c ∈ v, 128 ≤ c.toNat := by
      simpa [hascii_iff] using hascii
    exact Or.inl ⟨rfl, t, v, hfresh, hv, c, hc, hforeign⟩

/-- The last timestamp and the last signature, if neither is empty. -/
theorem decided_check (hparts : ∀ item ∈ header.text.splitOn ',', '=' ∈ item)
    (ht : IsLast header.parts ['t'] t) (hv : IsLast header.parts ['v', '1'] v) :
    Decided hm now payload header secret
      (caught (checkSignature hm now payload secret t v)) := by
  have hstale : ¬ Fresh now header t → Decided hm now payload header secret (.ok false) :=
    fun h => decided_stale fun t' h' => h (isLast_unique h'.last ht ▸ h')
  rcases checkSignature_eq hm payload secret v hparts ht with
    ⟨hcheck, h⟩ | ⟨hcheck, h⟩ | ⟨hcheck, hfresh⟩
  · rw [hcheck]
    exact hstale h
  · rw [hcheck]
    exact hstale h
  · rw [hcheck]
    rcases decided_fresh hm payload secret hfresh hv with h | h
    · rw [h.1]
      exact Or.inl ⟨rfl, h.2⟩
    · obtain ⟨b, hb, h⟩ := h
      rw [hb]
      exact Or.inr ⟨b, rfl, h⟩

theorem verify_decided (hm : Hmac) (now : Int) (payload : List UInt8) (header : Header)
    (secret : String) : Decided hm now payload header secret
      (verifyStripeSignature hm now payload header secret) := by
  unfold verifyStripeSignature verifyParts
  rw [parseParts_eq, List.append_nil]
  by_cases hparts : ∀ item ∈ header.text.splitOn ',', '=' ∈ item
  · have htext : header.text ≠ [] := by
      intro htext
      rw [htext] at hparts
      exact absurd (hparts [] (by simp)) List.not_mem_nil
    rw [if_neg htext, if_pos hparts]
    show Decided hm now payload header secret (caught (match header.parts.reverse.lookup ['t'],
      header.parts.reverse.lookup ['v', '1'] with
      | some timestamp, some expectedSig =>
        if timestamp = [] ∨ expectedSig = [] then .ok false
        else checkSignature hm now payload secret timestamp expectedSig
      | _, _ => .ok false))
    cases ht : header.parts.reverse.lookup ['t'] with
    | none =>
      refine decided_stale fun t h => ?_
      cases ht.symm.trans (lookup_reverse.mpr h.last)
    | some timestamp =>
      cases hv : header.parts.reverse.lookup ['v', '1'] with
      | none =>
        refine decided_unsigned fun v h => ?_
        cases hv.symm.trans (lookup_reverse.mpr h)
      | some expectedSig =>
        have ht := lookup_reverse.mp ht
        have hv := lookup_reverse.mp hv
        dsimp only
        split
        · next hempty =>
          rcases hempty with rfl | rfl
          · refine decided_stale fun t h => h.number_ne_nil (isLast_unique h.last ht)
          · exact decided_unsigned fun v h => isLast_unique h hv
        · exact decided_check hparts ht hv
  · rw [if_neg hparts]
    have hfalse : Decided hm now payload header secret (.ok false) :=
      decided_stale fun t h => hparts h.parts
    split
    · exact hfalse
    · exact hfalse

/-- An accepted signature determines the timestamp and the payload. -/
theorem accepted_inj (hinj : Function.Injective (hm.hexdigest secret))
    (h : Accepted hm now payload header secret t) {now' : Int} {payload' : List UInt8}
    {header' : Header} {t' : List Char} (h' : Accepted hm now' payload' header' secret t')
    (hv : IsLast header.parts ['v', '1'] v) (hv' : IsLast header'.parts ['v', '1'] v) :
    t = t' ∧ payload = payload' := by
  have hdigest := (h.eq_digest hv).symm.trans (h'.eq_digest hv')
  obtain ⟨n, hn, -⟩ := h.fresh
  obtain ⟨n', hn', -⟩ := h'.fresh
  exact encode_dot_inj (not_dot_mem_of_pyInt hn) (not_dot_mem_of_pyInt hn') (hinj hdigest)

theorem not_exact_of_raises (h : Raises now header) : ¬ Exact hm now payload header secret := by
  rintro ⟨⟨b, hb, -⟩, -⟩
  rcases verify_decided hm now payload header secret with ⟨herror, -⟩ | ⟨b', -, hnot, -⟩
  · cases herror.symm.trans hb
  · exact hnot h

/-- The verification is exact unless it comes to a signature that is not ASCII. -/
theorem verify_exact_iff (hm : Hmac) (now : Int) (payload : List UInt8) (header : Header)
    (secret : String) (hinj : Function.Injective (hm.hexdigest secret)) :
    Exact hm now payload header secret ↔ ¬ Raises now header := by
  refine ⟨fun h hraises => not_exact_of_raises hraises h, fun hnot => ?_⟩
  rcases verify_decided hm now payload header secret with ⟨-, hraises⟩ | ⟨b, hb, -, hiff⟩
  · exact absurd hraises hnot
  · refine ⟨⟨b, hb, hiff⟩, fun now' payload' header' t t' v h h' hv hv' => ?_⟩
    exact accepted_inj hinj h h' hv hv'

end Decision

/-! ## Two headers -/

/-- A text for every message, in unary. -/
def unary (message : List UInt8) : List Char :=
  message.flatMap fun b => List.replicate b.toNat 'a' ++ ['b']

theorem unary_injective : Function.Injective unary := by
  intro message message' h
  induction message generalizing message' with
  | nil =>
    cases message' with
    | nil => rfl
    | cons b message' => simp [unary] at h
  | cons b message ih =>
    cases message' with
    | nil => simp [unary] at h
    | cons b' message' =>
      have hfree : ∀ n, 'b' ∉ List.replicate n 'a' := fun n hmem => by
        cases List.eq_of_mem_replicate hmem
      simp only [unary, List.flatMap_cons, List.append_assoc, List.singleton_append] at h
      obtain ⟨hbyte, hrest⟩ := append_sep_inj (hfree _) (hfree _) h
      have hlength := congrArg List.length hbyte
      rw [List.length_replicate, List.length_replicate] at hlength
      rw [UInt8.toNat_inj.mp hlength, ih hrest]

def timestamp : List Char := ['1', '7', '0', '0', '0', '0', '0', '0', '0', '0']

/-- HMAC-SHA256 of an event, given its digest; other messages have other digests. -/
def hmacOf (event : List UInt8) (digest : List Char) (hascii : isAscii digest = true)
    (hne : digest ≠ []) : Hmac where
  hexdigest secret message :=
    if secret = "whsec" ∧ message = signedPayload event timestamp then digest
    else 'x' :: unary message
  ascii secret message := by
    split
    · exact hascii
    · simp only [isAscii, unary, List.all_cons, List.all_flatMap, List.all_append,
        List.all_replicate]
      simp
  ne_nil secret message := by
    split
    · exact hne
    · exact List.cons_ne_nil _ _

theorem latin1_of_all {text : List Char} (h : (text.all fun c => decide (c.toNat < 256)) = true) :
    ∀ c ∈ text, c.toNat < 256 :=
  fun c hc => of_decide_eq_true (List.all_eq_true.mp h c hc)

/-- `t=1700000000,v1=` and the signature. -/
def headerOf (signature : List Char) (h : (signature.all fun c => decide (c.toNat < 256)) = true) :
    Header where
  text := ['t', '='] ++ timestamp ++ [',', 'v', '1', '='] ++ signature
  latin1 := List.forall_mem_append.mpr ⟨latin1_of_all (by decide), latin1_of_all h⟩

/-- An event without fields. -/
def emptyEvent : List UInt8 := [0x7B, 0x7D]

def digest : List Char :=
  Nat.toDigits 16 0x7d44587dddbaf4c7f70fef20f48cd594834ffea1641e3ac227b84408298738af

def eventHmac : Hmac := hmacOf emptyEvent digest (by decide +kernel) (by decide +kernel)

theorem eventHmac_injective : Function.Injective (eventHmac.hexdigest "whsec") := by
  intro message message' h
  have hdigest : ∀ message, digest ≠ 'x' :: unary message := fun message h =>
    have hhead : some '7' = some 'x' := congrArg List.head? h
    nomatch hhead
  dsimp only [eventHmac, hmacOf] at h
  split at h
  · next hm =>
    split at h
    · next hm' => exact hm.2.trans hm'.2.symm
    · exact absurd h (hdigest _)
  · split at h
    · exact absurd h.symm (hdigest _)
    · exact unary_injective (List.cons.inj h).2

def signedHeader : Header := headerOf digest (by decide +kernel)

theorem verify_exact_iff_signed :
    verifyStripeSignature eventHmac 1700000100 emptyEvent signedHeader "whsec" = .ok true ∧
      (Exact eventHmac 1700000100 emptyEvent signedHeader "whsec" ↔
        ¬ Raises 1700000100 signedHeader) :=
  ⟨by decide +kernel, verify_exact_iff _ _ _ _ _ eventHmac_injective⟩

def foreignHeader : Header := headerOf ['é'] (by decide +kernel)

theorem raises_foreign : Raises 1700000100 foreignHeader := by
  have hfresh : ∃ n, pyInt timestamp = some n ∧ 1700000100 - n ≤ 300 :=
    ⟨1700000000, by decide +kernel, by decide⟩
  refine ⟨timestamp, ['é'], ⟨by decide +kernel, ?_, hfresh⟩, ?_, ?_⟩
  · exact ⟨[], [(['v', '1'], ['é'])], by decide +kernel, by decide⟩
  · exact ⟨[(['t'], timestamp)], [], by decide +kernel, nofun⟩
  · exact ⟨'é', List.mem_singleton_self _, by decide⟩

/-- The verification is not total and exact. -/
theorem foreign_signature : ¬ ∀ hm now payload header secret,
    Function.Injective (hm.hexdigest secret) → Exact hm now payload header secret := fun h =>
  not_exact_of_raises raises_foreign
    (h eventHmac 1700000100 emptyEvent foreignHeader "whsec" eventHmac_injective)

end CloudScale.PaymentService
