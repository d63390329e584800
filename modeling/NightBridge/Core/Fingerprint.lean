/-
# Fingerprints of public keys

`crates/core/src/identity/fingerprint.rs`.  A fingerprint is the first eight
bytes of the SHA-256 of a public key, shown as four hexadecimal groups and
parsed back by `from_str`, which drops the hyphens, wants sixteen bytes, and
reads them two at a time with `u8::from_str_radix`.

The parser slices a string by byte offsets, so it panics when an offset falls
inside a character; `Failure.panic` is that outcome.  SHA-256 and the other
primitives that come from other crates are the fields of `Primitives`, an
arbitrary choice of functions.
-/

import NightBridge.Data.Text

namespace NightBridge

open Data

/-- Thirty-two bytes: a digest, an Ed25519 public key, a channel binding. -/
abbrev Bytes32 := { bs : Bytes // bs.length = 32 }

/-- Sixty-four bytes: an Ed25519 signature. -/
abbrev Bytes64 := { bs : Bytes // bs.length = 64 }

/-- The functions the program takes from other crates. -/
class Primitives where
  /-- `Sha256::digest`. -/
  sha256 : Bytes → Bytes32
  /-- `blake3::hash`. -/
  blake3 : Bytes → Bytes32
  /-- `SigningKey::verifying_key`, on a secret key. -/
  verifyingKey : Bytes32 → Bytes32
  /-- `SigningKey::sign`, on a secret key and a message. -/
  sign : Bytes32 → Bytes → Bytes64
  /-- `VerifyingKey::from_bytes`, which may find no point on the curve. -/
  fromBytes : Bytes32 → Except String Unit
  /-- `VerifyingKey::verify_strict`, on a public key, a message and a signature. -/
  verifyStrict : Bytes32 → Bytes → Bytes64 → Except String Unit

/-- The first 32 bytes, padded with zeros. -/
def Bytes32.pad (bs : Bytes) : Bytes32 :=
  ⟨(bs ++ List.replicate 32 0).take 32, by simp⟩

/-- A choice of functions to run the model with: digests pad their input, a
public key is its secret key, and every signature is accepted. -/
@[reducible] def Primitives.sample : Primitives where
  sha256 := Bytes32.pad
  blake3 := Bytes32.pad
  verifyingKey secret := secret
  sign _ _ := ⟨List.replicate 64 0, by simp⟩
  fromBytes _ := .ok ()
  verifyStrict _ _ _ := .ok ()

namespace Core

/-- `CoreError`, the variants the modelled functions return. -/
inductive CoreError
  | crypto (message : String)
  | trustStore (message : String)
  deriving DecidableEq, Repr

/-- How a call can fail: with an error, or with a panic of the slice
`&cleaned[start..end]` in the parser. -/
inductive Failure
  | error (e : CoreError)
  | panic
  deriving DecidableEq, Repr

/-- `Fingerprint([u8; 8])`. -/
structure Fingerprint where
  bytes : Bytes
  length_eq : bytes.length = 8
  deriving DecidableEq

namespace Fingerprint

def fromPubkey [Primitives] (pubkey : Bytes32) : Fingerprint where
  bytes := (Primitives.sha256 pubkey.1).1.take 8
  length_eq := by simp [(Primitives.sha256 pubkey.1).2]

/-- The loop of `fmt`, at byte `index`: a hyphen before every even byte but the
first, then two digits. -/
def displayFrom : ℕ → Bytes → List Char
  | _, [] => []
  | index, byte :: rest =>
    (if 0 < index ∧ index % 2 = 0 then ['-'] else []) ++
      [hexDigit (byte.toNat / 16), hexDigit (byte.toNat % 16)] ++ displayFrom (index + 1) rest

/-- `impl fmt::Display for Fingerprint`. -/
def display (f : Fingerprint) : String := String.ofList (displayFrom 0 f.bytes)

/-- `u8::from_str_radix(s, 16)` on a two-byte string: a leading `+` is allowed. -/
def fromStrRadix16 (a b : UInt8) : Option UInt8 :=
  if a = 43 then (toDigit16 b).map UInt8.ofNat
  else match toDigit16 a, toDigit16 b with
    | some x, some y => some (UInt8.ofNat (16 * x + y))
    | _, _ => none

/-- A byte that continues a character; a string cannot be sliced there. -/
def isContinuation (b : UInt8) : Bool := 128 ≤ b.toNat && b.toNat < 192

/-- The loop over the pairs of `cleaned`. -/
def parsePairs : Bytes → Except Failure Bytes
  | a :: b :: rest =>
    -- `cleaned[start..end]` panics unless both ends lie between characters
    if isContinuation a || (rest.head?.map isContinuation).getD false then .error .panic
    else match fromStrRadix16 a b with
      | none => .error (.error (.crypto "invalid digit found in string"))
      | some x => (parsePairs rest).map (x :: ·)
  | _ => .ok []

theorem length_parsePairs : ∀ {n : ℕ} {bs xs : Bytes}, bs.length = 2 * n →
    parsePairs bs = .ok xs → xs.length = n
  | 0, [], xs, _, h => by cases h; rfl
  | n + 1, a :: b :: rest, xs, hl, h => by
    rw [parsePairs] at h
    split at h
    · cases h
    · split at h
      · cases h
      · cases hp : parsePairs rest with
        | error e => rw [hp] at h; cases h
        | ok ys =>
          rw [hp] at h
          cases h
          have hr : rest.length = 2 * n := by simp at hl; omega
          rw [List.length_cons, length_parsePairs hr hp]

/-- `from_str` once the hyphens are gone. -/
def ofCleaned (cleaned : Bytes) : Except Failure Fingerprint :=
  if h : cleaned.length = 16 then
    match hp : parsePairs cleaned with
    | .ok bytes => .ok ⟨bytes, length_parsePairs h hp⟩
    | .error e => .error e
  else .error (.error (.crypto ("fingerprint must be 16 hex chars, got " ++
    toString cleaned.length)))

/-- `impl FromStr for Fingerprint`. -/
def fromStr (value : String) : Except Failure Fingerprint :=
  ofCleaned ((value.toList.filter (· ≠ '-')).flatMap String.utf8EncodeChar)

theorem ofCleaned_eq_ok {cleaned : Bytes} {f : Fingerprint} (h : cleaned.length = 16)
    (hp : parsePairs cleaned = .ok f.bytes) : ofCleaned cleaned = .ok f := by
  unfold ofCleaned
  rw [dif_pos h]
  split
  · rename_i bytes hp'
    rw [hp] at hp'
    cases hp'
    rfl
  · rename_i e hp'
    rw [hp] at hp'
    cases hp'

/-! ### A displayed fingerprint parses back -/

theorem utf8EncodeChar_hexDigit : ∀ n < 16, String.utf8EncodeChar (hexDigit n) =
    [UInt8.ofNat (if n < 10 then 48 + n else 87 + n)] := by decide

theorem hexDigit_ne_hyphen : ∀ n < 16, hexDigit n ≠ '-' := by decide

theorem fromStrRadix16_hex : ∀ x < 16, ∀ y < 16,
    fromStrRadix16 (UInt8.ofNat (if x < 10 then 48 + x else 87 + x))
      (UInt8.ofNat (if y < 10 then 48 + y else 87 + y)) = some (UInt8.ofNat (16 * x + y)) := by
  decide

theorem isContinuation_hex : ∀ x < 16,
    isContinuation (UInt8.ofNat (if x < 10 then 48 + x else 87 + x)) = false := by
  decide

theorem utf8_hexChars_cons (b : UInt8) (bs : Bytes) :
    (hexChars (b :: bs)).flatMap String.utf8EncodeChar =
      UInt8.ofNat (if b.toNat / 16 < 10 then 48 + b.toNat / 16 else 87 + b.toNat / 16) ::
      UInt8.ofNat (if b.toNat % 16 < 10 then 48 + b.toNat % 16 else 87 + b.toNat % 16) ::
        (hexChars bs).flatMap String.utf8EncodeChar := by
  have hb := b.toNat_lt
  simp only [hexChars, List.flatMap_cons, List.cons_append, List.nil_append,
    utf8EncodeChar_hexDigit _ (show b.toNat / 16 < 16 by omega),
    utf8EncodeChar_hexDigit _ (Nat.mod_lt b.toNat (show 0 < 16 by decide))]

theorem length_utf8_hexChars (bs : Bytes) :
    ((hexChars bs).flatMap String.utf8EncodeChar).length = 2 * bs.length := by
  induction bs with
  | nil => rfl
  | cons b bs ih =>
    rw [utf8_hexChars_cons, List.length_cons, List.length_cons, ih, List.length_cons]
    omega

theorem parsePairs_hexChars (bs : Bytes) :
    parsePairs ((hexChars bs).flatMap String.utf8EncodeChar) = .ok bs := by
  induction bs with
  | nil => rfl
  | cons b bs ih =>
    have hb := b.toNat_lt
    have h1 : b.toNat / 16 < 16 := by omega
    have h2 : b.toNat % 16 < 16 := Nat.mod_lt _ (by decide)
    have hhead : ((((hexChars bs).flatMap String.utf8EncodeChar).head?).map isContinuation).getD
        false = false := by
      cases bs with
      | nil => rfl
      | cons c bs =>
        rw [utf8_hexChars_cons, List.head?_cons, Option.map_some, Option.getD_some]
        exact isContinuation_hex _ (by have := c.toNat_lt; omega)
    rw [utf8_hexChars_cons, parsePairs, isContinuation_hex _ h1, hhead, fromStrRadix16_hex _ h1 _ h2, ih]
    simp only [Bool.or_self, Bool.false_eq_true, if_false, Except.map]
    rw [Nat.div_add_mod, UInt8.ofNat_toNat]

theorem filter_displayFrom (k : ℕ) (bs : Bytes) :
    (displayFrom k bs).filter (· ≠ '-') = hexChars bs := by
  induction bs generalizing k with
  | nil => rfl
  | cons b bs ih =>
    have hb := b.toNat_lt
    have h1 := hexDigit_ne_hyphen (b.toNat / 16) (by omega)
    have h2 := hexDigit_ne_hyphen (b.toNat % 16) (Nat.mod_lt _ (by decide))
    rw [displayFrom, List.filter_append, ih (k + 1)]
    refine congrArg (· ++ hexChars bs) ?_
    by_cases hk : 0 < k ∧ k % 2 = 0 <;> simp [hk, h1, h2]

/-- **`parse` inverts `to_string`** on every fingerprint. -/
theorem fromStr_display (f : Fingerprint) : fromStr f.display = .ok f := by
  rw [fromStr, display, String.toList_ofList, filter_displayFrom]
  exact ofCleaned_eq_ok (by rw [length_utf8_hexChars, f.length_eq]) (parsePairs_hexChars f.bytes)

theorem display_injective : Function.Injective display := fun f g h => by
  have := fromStr_display g
  rw [← h, fromStr_display] at this
  exact Except.ok.inj this

end Fingerprint
end Core
end NightBridge
