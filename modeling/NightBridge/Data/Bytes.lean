/-
# Byte strings

What a file's bytes become under a positioned write, and big-endian integers.

`overwrite old off new` is a write of `new` at offset `off`: a gap between the
old end and `off` reads as zeros, bytes past the write stay.  `slice` is the
range a positioned read asks for.  Both are described byte by byte
(`getElem?_overwrite`, `getElem?_slice`), which is all later proofs use.
-/

import Mathlib.Data.List.Basic
import Mathlib.Data.List.Induction
import Mathlib.Algebra.Order.Group.Nat
import Mathlib.Tactic.Ring

namespace NightBridge.Data

abbrev Bytes := List UInt8

/-- The contents of a file after `new` is written at offset `off`. -/
def overwrite (old : Bytes) (off : ℕ) (new : Bytes) : Bytes :=
  if new = [] then old
  else old.take off ++ List.replicate (off - old.length) 0 ++ new ++ old.drop (off + new.length)

/-- `len` bytes from `off`, or what there is of them. -/
def slice (bs : Bytes) (off len : ℕ) : Bytes := (bs.drop off).take len

theorem getElem?_slice (bs : Bytes) (off len i : ℕ) :
    (slice bs off len)[i]? = if i < len then bs[off + i]? else none := by
  simp [slice, List.getElem?_take, List.getElem?_drop]

theorem slice_length {bs : Bytes} {off len : ℕ} (h : off + len ≤ bs.length) :
    (slice bs off len).length = len := by
  simp only [slice, List.length_take, List.length_drop]
  omega

theorem overwrite_length (old new : Bytes) : overwrite old old.length new = old ++ new := by
  unfold overwrite
  split_ifs with h
  · rw [h, List.append_nil]
  · simp [List.drop_eq_nil_of_le]

/-- **A positioned write, byte by byte.** -/
theorem getElem?_overwrite {old new : Bytes} (hnew : new ≠ []) (off i : ℕ) :
    (overwrite old off new)[i]? =
      if i < off then (if i < old.length then old[i]? else some 0)
      else if i < off + new.length then new[i - off]? else old[i]? := by
  rw [overwrite, if_neg hnew]
  have hlen : (old.take off).length + (off - old.length) = off := by
    rw [List.length_take]; omega
  split_ifs with h1 h2 h3
  · -- inside the old bytes, before the write
    rw [List.getElem?_append_left (by simp; omega), List.getElem?_append_left (by simp; omega),
      List.getElem?_append_left (by simp; omega), List.getElem?_take, if_pos h1]
  · -- in the gap
    rw [List.getElem?_append_left (by simp; omega), List.getElem?_append_left (by simp; omega),
      List.getElem?_append_right (by simp; omega), List.getElem?_replicate, if_pos]
    rw [List.length_take]; omega
  · -- in the write
    rw [List.getElem?_append_left (by simp; omega), List.getElem?_append_right (by simp; omega)]
    simp only [List.length_append, List.length_replicate, hlen]
  · -- past the write
    rw [List.getElem?_append_right (by simp; omega), List.getElem?_drop]
    simp only [List.length_append, List.length_replicate, hlen]
    congr 1
    omega

theorem length_overwrite {old new : Bytes} (hnew : new ≠ []) (off : ℕ) :
    (overwrite old off new).length = max old.length (off + new.length) := by
  rw [overwrite, if_neg hnew]
  simp only [List.length_append, List.length_take, List.length_replicate, List.length_drop]
  omega

theorem slice_overwrite_self {old new : Bytes} (hnew : new ≠ []) (off : ℕ) :
    slice (overwrite old off new) off new.length = new := by
  apply List.ext_getElem?
  intro i
  rw [getElem?_slice]
  split_ifs with hi
  · rw [getElem?_overwrite hnew, if_neg (by omega), if_pos (by omega), Nat.add_sub_cancel_left]
  · exact (List.getElem?_eq_none (by omega)).symm

/-- A slice keeps its bytes when the write agrees with them where the two
overlap. -/
theorem slice_overwrite_of_agree {old new : Bytes} (hnew : new ≠ []) {off o len : ℕ}
    (hlen : o + len ≤ old.length)
    (hagree : ∀ b, o ≤ b → b < o + len → off ≤ b → b < off + new.length →
      old[b]? = new[b - off]?) :
    slice (overwrite old off new) o len = slice old o len := by
  apply List.ext_getElem?
  intro i
  rw [getElem?_slice, getElem?_slice]
  split_ifs with hi
  · rw [getElem?_overwrite hnew]
    split_ifs with h1 h2 h3
    · rfl
    · omega
    · exact (hagree _ (by omega) (by omega) (by omega) h3).symm
    · rfl
  · rfl

/-! ### Big-endian integers -/

/-- The `n` big-endian bytes of `v` (`to_be_bytes` for a `8 n`-bit integer). -/
def toBeBytes : ℕ → ℕ → Bytes
  | 0, _ => []
  | n + 1, v => toBeBytes n (v / 256) ++ [UInt8.ofNat (v % 256)]

/-- The integer big-endian bytes stand for (`from_be_bytes`). -/
def ofBeBytes (bs : Bytes) : ℕ := bs.foldl (fun acc b => acc * 256 + b.toNat) 0

@[simp] theorem length_toBeBytes (n v : ℕ) : (toBeBytes n v).length = n := by
  induction n generalizing v with
  | zero => rfl
  | succ n ih => simp [toBeBytes, ih]

theorem ofBeBytes_append (bs : Bytes) (b : UInt8) :
    ofBeBytes (bs ++ [b]) = ofBeBytes bs * 256 + b.toNat := by
  simp [ofBeBytes]

theorem ofBeBytes_lt (bs : Bytes) : ofBeBytes bs < 256 ^ bs.length := by
  induction bs using List.reverseRecOn with
  | nil => simp [ofBeBytes]
  | append_singleton bs b ih =>
    have hb := b.toNat_lt
    rw [ofBeBytes_append, List.length_append, List.length_singleton, pow_succ]
    omega

/-- **Decoding inverts encoding** below the width. -/
theorem ofBeBytes_toBeBytes {n v : ℕ} (hv : v < 256 ^ n) : ofBeBytes (toBeBytes n v) = v := by
  induction n generalizing v with
  | zero => simp [toBeBytes, ofBeBytes] at hv ⊢; omega
  | succ n ih =>
    rw [pow_succ] at hv
    rw [toBeBytes, ofBeBytes_append, ih (by omega)]
    have : v % 256 < 256 := Nat.mod_lt _ (by decide)
    simp only [UInt8.toNat_ofNat']
    omega

/-- **Encoding inverts decoding**: every byte string of the width is an encoding. -/
theorem toBeBytes_ofBeBytes {n : ℕ} {bs : Bytes} (h : bs.length = n) :
    toBeBytes n (ofBeBytes bs) = bs := by
  subst h
  induction bs using List.reverseRecOn with
  | nil => rfl
  | append_singleton bs b ih =>
    have hb := b.toNat_lt
    have hdiv : (ofBeBytes bs * 256 + b.toNat) / 256 = ofBeBytes bs := by omega
    have hmod : (ofBeBytes bs * 256 + b.toNat) % 256 = b.toNat := by omega
    rw [List.length_append, List.length_singleton, toBeBytes, ofBeBytes_append, hdiv, hmod, ih,
      UInt8.ofNat_toNat]

end NightBridge.Data
