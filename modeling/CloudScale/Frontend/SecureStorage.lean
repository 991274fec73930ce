/-
  `secureStorage`: values in the local storage of the browser, in base 64 and with a checksum.

  A write may find the storage full; `setItem` then writes an empty record, and where even that does
  not fit, the exception of the second write goes to its caller. Other code of the page has keys of
  its own there, and the visitor may clear the storage.

  `getItem_run`: over any such history `getItem` reads a plain map from keys to values.
  `getItem_altered`: the checksum finds every change of one unit of the payload. One step of
  `computeHash` can be undone in both of its arguments, 33 being odd, so the change stays to its
  end.
-/
import CloudScale.Frontend.Json

namespace CloudScale.Frontend

open CloudScale.Lib.Unicode

/-- The texts of an origin by their keys. -/
abbrev LocalStorage := JsString → Option JsString

def LocalStorage.set (store : LocalStorage) (key : JsString) (text : Option JsString) :
    LocalStorage :=
  Function.update store key text

def hashStep (hash : UInt32) (u : UInt16) : UInt32 := hash * 33 ^^^ u.toUInt32

def computeHash (str : JsString) : JsString := radixText 16 (str.foldl hashStep 5381).toNat

def storageKey (key : JsString) : JsString := units "cs_" ++ key

def storageObj {N : Type} (encoded checksum : JsString) : JsonValue N :=
  .obj [(units "d", .str encoded), (units "s", .str checksum)]

section Records

variable {N : Type} (nums : Numerals N)

def encodeItem (value : JsonValue N) : Option JsString := do
  let escaped ← encodeURIComponent (stringify nums value)
  btoa (unescape escaped)

/-- The storage afterwards, and whether the caller sees an exception. `fits` and `fitsEmpty`: the
    storage has room for the record, and for the empty one. -/
def setItem (key : JsString) (value : JsonValue N) (fits fitsEmpty : Bool) (store : LocalStorage) :
    LocalStorage × Bool :=
  let stored := do
    let encoded ← encodeItem nums value
    if fits then
      some (store.set (storageKey key)
        (some (stringify nums (storageObj encoded (computeHash encoded)))))
    else none
  match stored with
  | some store => (store, false)
  | none =>
    if fitsEmpty then
      (store.set (storageKey key) (some (stringify nums (storageObj [] []))), false)
    else (store, true)

def removeItem (key : JsString) (store : LocalStorage) : LocalStorage :=
  store.set (storageKey key) none

/-- What `computeHash` runs over and what `atob` is given when `d` is no string; without `length`
    nothing is hashed. `none`: one of the two throws. -/
def payload : JsonValue N → Option (JsString × JsString)
  | .str encoded => some (encoded, encoded)
  | .num n => some ([], nums.print n)
  | .bool b => some ([], units (if b then "true" else "false"))
  | .arr [] => some ([], [])
  | _ => none

/-- `none`: the checksum is wrong, or something throws. -/
def readItem (stored : JsString) : Option (JsonValue N) := do
  let record ← parse nums stored
  let d ← record.field (units "d")
  let (hashed, encoded) ← payload nums d
  match record.field (units "s") with
  | some (.str checksum) =>
    if checksum = computeHash hashed then do
      let bytes ← atob encoded
      let decoded ← decodeURIComponent (escape bytes)
      parse nums decoded
    else none
  | _ => none

def getItem (key : JsString) (store : LocalStorage) : JsonValue N :=
  match store (storageKey key) with
  | none => .null
  | some stored => if stored = [] then .null else (readItem nums stored).getD .null

end Records

/-! ## Histories -/

inductive StorageEvent (N : Type) where
  | setItem (key : JsString) (value : JsonValue N) (fits fitsEmpty : Bool)
  | removeItem (key : JsString)
  /-- Other code sets a text under a key of its own, or removes it. -/
  | elsewhere (key : JsString) (text : Option JsString)
  | clear

section Histories

variable {N : Type} (nums : Numerals N)

def stepStorage (store : LocalStorage) : StorageEvent N → LocalStorage
  | .setItem key value fits fitsEmpty => (setItem nums key value fits fitsEmpty store).1
  | .removeItem key => removeItem key store
  | .elsewhere key text => store.set key text
  | .clear => fun _ => none

/-- What `secureStorage` is for: a value for each key, `null` where there is none. -/
abbrev Vault (N : Type) := JsString → JsonValue N

def stepVault (vault : Vault N) : StorageEvent N → Vault N
  | .setItem key value fits fitsEmpty =>
    if fits then Function.update vault key value
    else if fitsEmpty then Function.update vault key .null
    else vault
  | .removeItem key => Function.update vault key .null
  | .elsewhere _ _ => vault
  | .clear => fun _ => .null

/-- Other code keeps away from the keys of `secureStorage`. -/
def KeepsAway : StorageEvent N → Prop
  | .elsewhere key _ => ¬units "cs_" <+: key
  | _ => True

/-! ## One record -/

theorem encodeItem_decodes (value : JsonValue N) : ∃ encoded bytes,
    encodeItem nums value = some encoded ∧ atob encoded = some bytes ∧
      decodeURIComponent (escape bytes) = some (stringify nums value) := by
  obtain ⟨cs, hcs⟩ := wellFormed_stringify nums value
  obtain ⟨encoded, hbtoa, hatob⟩ := atob_btoa (cs.flatMap String.utf8EncodeChar)
  refine ⟨encoded, binary cs, ?_, hatob, ?_⟩
  · simp only [encodeItem, encodeURIComponent, hcs, Option.map_some, Option.bind_eq_bind,
      Option.bind_some, unescape_encode]
    exact hbtoa
  · rw [decodeURIComponent_escape, utf16_codePoints hcs]

theorem storageObj_d (encoded checksum : JsString) :
    (storageObj encoded checksum : JsonValue N).field (units "d") = some (.str encoded) := by
  rw [storageObj, JsonValue.field, List.reverse_cons, List.reverse_singleton,
    List.singleton_append, List.lookup_cons,
    beq_false_of_ne (by decide : units "d" ≠ units "s"), List.lookup_cons_self]

theorem storageObj_s (encoded checksum : JsString) :
    (storageObj encoded checksum : JsonValue N).field (units "s") = some (.str checksum) := by
  rw [storageObj, JsonValue.field, List.reverse_cons, List.reverse_singleton,
    List.singleton_append, List.lookup_cons_self]

theorem readItem_record (encoded checksum : JsString) :
    readItem nums (stringify nums (storageObj encoded checksum)) =
      if checksum = computeHash encoded then
        (atob encoded).bind fun bytes => (decodeURIComponent (escape bytes)).bind (parse nums)
      else none := by
  simp only [readItem, parse_stringify, Option.bind_eq_bind, Option.bind_some, storageObj_d,
    payload, storageObj_s]

theorem getItem_set (key : JsString) (v : JsonValue N) (store : LocalStorage) :
    getItem nums key (store.set (storageKey key) (some (stringify nums v))) =
      (readItem nums (stringify nums v)).getD .null := by
  obtain ⟨u, s, hus, -⟩ := stringify_head nums v
  simp only [getItem, LocalStorage.set, Function.update_self]
  rw [if_neg (by rw [hus]; exact List.cons_ne_nil u s)]

theorem storageKey_inj {key key' : JsString} (h : storageKey key = storageKey key') :
    key = key' :=
  List.append_cancel_left h

theorem getItem_set_of_ne {key : JsString} {k : JsString} (h : storageKey key ≠ k)
    (text : Option JsString) (store : LocalStorage) :
    getItem nums key (store.set k text) = getItem nums key store := by
  simp only [getItem, LocalStorage.set, Function.update_of_ne h]

theorem getItem_remove (key : JsString) (store : LocalStorage) :
    getItem nums key (store.set (storageKey key) none) = .null := by
  simp only [getItem, LocalStorage.set, Function.update_self]

/-- A write under the key of an item changes that item alone. -/
theorem getItem_update (key : JsString) (text : Option JsString) (store : LocalStorage) :
    (fun k => getItem nums k (store.set (storageKey key) text)) =
      Function.update (fun k => getItem nums k store) key
        (getItem nums key (store.set (storageKey key) text)) := by
  funext k
  by_cases hk : k = key
  · subst hk
    rw [Function.update_self]
  · rw [Function.update_of_ne hk]
    exact getItem_set_of_ne nums (fun h => hk (storageKey_inj h)) text store

theorem getItem_setItem (key : JsString) (value : JsonValue N) (fits fitsEmpty : Bool)
    (store : LocalStorage) :
    (fun k => getItem nums k (setItem nums key value fits fitsEmpty store).1) =
      stepVault (fun k => getItem nums k store) (.setItem key value fits fitsEmpty) := by
  obtain ⟨encoded, bytes, hencoded, hatob, hdecoded⟩ := encodeItem_decodes nums value
  cases fits with
  | true =>
    simp only [setItem, hencoded, Option.bind_eq_bind, Option.bind_some, if_true, stepVault]
    rw [getItem_update, getItem_set, readItem_record, if_pos rfl, hatob, Option.bind_some,
      hdecoded, Option.bind_some, parse_stringify, Option.getD_some]
  | false =>
    have hempty : ([] : JsString) ≠ computeHash [] := by
      unfold computeHash radixText
      simp
    cases fitsEmpty with
    | true =>
      simp only [setItem, hencoded, Option.bind_eq_bind, Option.bind_some, Bool.false_eq_true,
        if_false, if_true, stepVault]
      rw [getItem_update, getItem_set, readItem_record, if_neg hempty, Option.getD_none]
    | false =>
      simp only [setItem, hencoded, Option.bind_eq_bind, Option.bind_some, Bool.false_eq_true,
        if_false, stepVault]

theorem getItem_step (store : LocalStorage) {e : StorageEvent N} (haway : KeepsAway e) :
    (fun k => getItem nums k (stepStorage nums store e)) =
      stepVault (fun k => getItem nums k store) e := by
  cases e with
  | setItem key value fits fitsEmpty => exact getItem_setItem nums key value fits fitsEmpty store
  | removeItem key =>
    rw [stepStorage, removeItem, getItem_update, getItem_remove]
    rfl
  | elsewhere key text =>
    funext k
    refine getItem_set_of_ne nums ?_ text store
    rintro rfl
    exact haway (List.prefix_append _ _)
  | clear => rfl

theorem getItem_run (store : LocalStorage) (es : List (StorageEvent N))
    (haway : ∀ e ∈ es, KeepsAway e) :
    (fun key => getItem nums key (es.foldl (stepStorage nums) store)) =
      es.foldl stepVault fun key => getItem nums key store := by
  induction es generalizing store with
  | nil => rfl
  | cons e es ih =>
    rw [List.foldl_cons, List.foldl_cons, ih _ fun e he => haway e (List.mem_cons_of_mem _ he),
      getItem_step nums store (haway e List.mem_cons_self)]

/-- A value, another key of the page, and a write that does not fit. -/
theorem getItem_run_full :
    getItem decimals (units "flag") ([StorageEvent.setItem (units "flag") (.num 1) true true,
      .elsewhere (units "cloudscale-locale") (some (units "fr")),
      .setItem (units "other") (.num 2) false true].foldl (stepStorage decimals) fun _ => none) =
        .num 1 :=
  (congrFun (getItem_run decimals _ _ (by
    simp only [List.forall_mem_cons, KeepsAway, List.not_mem_nil, false_implies, implies_true,
      and_true, true_and]
    decide)) (units "flag")).trans rfl

end Histories

/-! ## One unit of the payload is changed -/

theorem hashStep_hash (u : UInt16) : Function.Injective fun hash => hashStep hash u := by
  intro h₁ h₂ heq
  have hmul : h₁ * 33 = h₂ * 33 := UInt32.xor_left_inj u.toUInt32 |>.mp heq
  -- 33 times this is 1 modulo 2^32
  have hinv := congrArg (· * 1041204193) hmul
  simpa [UInt32.mul_assoc] using hinv

theorem hashStep_unit (hash : UInt32) : Function.Injective (hashStep hash) := by
  intro u v heq
  have hunit := congrArg UInt32.toNat ((UInt32.xor_right_inj (hash * 33)).mp heq)
  rw [UInt16.toNat_toUInt32, UInt16.toNat_toUInt32] at hunit
  exact UInt16.toNat_inj.mp hunit

theorem foldl_hashStep_injective (s : JsString) :
    Function.Injective fun hash => s.foldl hashStep hash := by
  induction s with
  | nil => exact fun _ _ h => h
  | cons u s ih => exact fun _ _ h => hashStep_hash u (ih h)

theorem computeHash_ne (s t : JsString) {u v : UInt16} (h : u ≠ v) :
    computeHash (s ++ u :: t) ≠ computeHash (s ++ v :: t) := by
  intro heq
  have hfold := UInt32.toNat_inj.mp (radixText_injective (by decide) (by decide) heq)
  rw [List.foldl_append, List.foldl_append] at hfold
  exact h (hashStep_unit _ (foldl_hashStep_injective t hfold))

/-- `d` or `s` of a record is not what `setItem` wrote: one unit of the payload is another, or the
    checksum is. -/
def Altered (encoded encoded' checksum' : JsString) : Prop :=
  (∃ s u v t, u ≠ v ∧ encoded = s ++ u :: t ∧ encoded' = s ++ v :: t ∧
    checksum' = computeHash encoded) ∨ (encoded' = encoded ∧ checksum' ≠ computeHash encoded)

theorem getItem_altered {N : Type} (nums : Numerals N) (key : JsString) (store : LocalStorage)
    {encoded encoded' checksum' : JsString} (h : Altered encoded encoded' checksum') :
    getItem nums key (store.set (storageKey key)
      (some (stringify nums (storageObj encoded' checksum')))) = .null := by
  have hwrong : checksum' ≠ computeHash encoded' := by
    rcases h with ⟨s, u, v, t, hne, rfl, rfl, rfl⟩ | ⟨rfl, h⟩
    · exact computeHash_ne s t hne
    · exact h
  rw [getItem_set, readItem_record, if_neg hwrong, Option.getD_none]

/-- One digit of the payload is another. -/
theorem getItem_altered_digit : getItem decimals (units "flag")
    (LocalStorage.set (fun _ => none) (storageKey (units "flag")) (some (stringify decimals
      (storageObj (units "NDM=") (computeHash (units "NDI=")))))) = .null :=
  getItem_altered decimals _ _ (.inl ⟨units "ND", unit 'I', unit 'M', units "=", by decide,
    by decide, by decide, rfl⟩)

end CloudScale.Frontend
