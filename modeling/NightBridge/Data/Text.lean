/-
# Strings as the standard library of the source treats them

`trim` strips the Unicode `White_Space` characters from both ends, `utf8` is
the bytes of a string, `hex` is the lower-case hexadecimal text of a byte
string, and `fileExtension` is what follows the last dot of a name.
-/

import NightBridge.Data.Bytes
import Mathlib.Data.List.TakeWhile

namespace NightBridge.Data

/-- `char::is_whitespace`: the Unicode property `White_Space`. -/
def isWhitespace (c : Char) : Bool :=
  let n := c.toNat
  (9 ≤ n && n ≤ 13) || n == 0x20 || n == 0x85 || n == 0xA0 || n == 0x1680 ||
    (0x2000 ≤ n && n ≤ 0x200A) || n == 0x2028 || n == 0x2029 || n == 0x202F || n == 0x205F ||
    n == 0x3000

/-- `str::trim`, on characters. -/
def trimChars (cs : List Char) : List Char :=
  ((cs.dropWhile isWhitespace).reverse.dropWhile isWhitespace).reverse

def trim (s : String) : String := String.ofList (trimChars s.toList)

/-- `s.trim().is_empty()`. -/
def isBlank (s : String) : Bool := s.toList.all isWhitespace

theorem mem_of_mem_trim {s : String} {c : Char} (h : c ∈ (trim s).toList) : c ∈ s.toList := by
  rw [trim, String.toList_ofList, trimChars, List.mem_reverse] at h
  have hfront := (List.dropWhile_suffix _).subset h
  exact (List.dropWhile_suffix _).subset (List.mem_reverse.mp hfront)

def utf8 (s : String) : Bytes := s.toList.flatMap String.utf8EncodeChar

def fromUtf8 (bs : Bytes) : Option String := String.fromUTF8? bs.toByteArray

/-- **Decoding inverts encoding.** -/
theorem fromUtf8_utf8 (s : String) : fromUtf8 (utf8 s) = some s := by
  have hbytes : (utf8 s).toByteArray = s.toByteArray := String.utf8Encode_toList
  rw [fromUtf8, hbytes, String.fromUTF8?, dif_pos s.isValidUTF8]
  rfl

/-- **Encoding inverts decoding.** -/
theorem utf8_of_fromUtf8 {bs : Bytes} {s : String} (h : fromUtf8 bs = some s) : utf8 s = bs := by
  have hbytes : (utf8 s).toByteArray = s.toByteArray := String.utf8Encode_toList
  rw [fromUtf8, String.fromUTF8?] at h
  split_ifs at h with hvalid
  have hs : s.toByteArray = bs.toByteArray := by rw [← Option.some.inj h]; rfl
  have hdata := congrArg (fun a : ByteArray => a.data.toList) (hbytes.trans hs)
  simpa using hdata

/-- **A text whose bytes begin another's begins it**, and the other bytes are
those of the rest. -/
theorem exists_of_utf8_append {s t : List Char} {bytes : Bytes}
    (h : utf8 (String.ofList s) ++ bytes = utf8 (String.ofList t)) :
    ∃ u, t = s ++ u ∧ bytes = utf8 (String.ofList u) := by
  simp only [utf8, String.toList_ofList] at h ⊢
  have hbytes : s.utf8Encode ++ bytes.toByteArray = t.utf8Encode := by
    rw [List.utf8Encode, List.utf8Encode, ← h, List.toByteArray_append]
  obtain ⟨u, rfl⟩ := List.isPrefix_of_utf8Encode_append_eq_utf8Encode _ hbytes
  rw [List.flatMap_append] at h
  exact ⟨u, rfl, List.append_cancel_left h⟩

theorem length_utf8_of_ascii {s : String} (h : ∀ c ∈ s.toList, c.toNat < 128) :
    (utf8 s).length = s.toList.length := by
  have hone : ∀ cs : List Char, (∀ c ∈ cs, c.toNat < 128) →
      (cs.flatMap String.utf8EncodeChar).length = cs.length := by
    intro cs hcs
    induction cs with
    | nil => rfl
    | cons c cs ih =>
      have hc : c.utf8Size = 1 := Char.utf8Size_eq_one_iff.mpr (by
        have := hcs c (by simp)
        rw [UInt32.le_iff_toNat_le]
        exact Nat.lt_succ_iff.mp this)
      rw [List.flatMap_cons, List.length_append, String.length_utf8EncodeChar, hc,
        ih fun c' hc' => hcs c' (by simp [hc']), List.length_cons, Nat.add_comm]
  exact hone _ h

/-- One hexadecimal digit, lower case. -/
def hexDigit (n : ℕ) : Char :=
  if n < 10 then Char.ofNat (48 + n) else Char.ofNat (87 + n)

/-- Lower-case hexadecimal characters of a byte string, two a byte. -/
def hexChars (bs : Bytes) : List Char :=
  bs.flatMap fun b => [hexDigit (b.toNat / 16), hexDigit (b.toNat % 16)]

/-- Lower-case hexadecimal text of a byte string. -/
def hex (bs : Bytes) : String := String.ofList (hexChars bs)

def isAsciiHexdigit (c : Char) : Bool :=
  (48 ≤ c.toNat && c.toNat ≤ 57) || (65 ≤ c.toNat && c.toNat ≤ 70) ||
    (97 ≤ c.toNat && c.toNat ≤ 102)

theorem isAsciiHexdigit_hexDigit : ∀ n < 16, isAsciiHexdigit (hexDigit n) = true := by decide

/-- `char::to_digit(16)` on one ASCII byte. -/
def toDigit16 (b : UInt8) : Option ℕ :=
  let n := b.toNat
  if 48 ≤ n ∧ n ≤ 57 then some (n - 48)
  else if 97 ≤ n ∧ n ≤ 102 then some (n - 87)
  else if 65 ≤ n ∧ n ≤ 70 then some (n - 55)
  else none

theorem isAsciiHexdigit_of_mem_hexChars {bs : Bytes} {c : Char} (h : c ∈ hexChars bs) :
    isAsciiHexdigit c = true := by
  simp only [hexChars, List.mem_flatMap, List.mem_cons, List.not_mem_nil, or_false] at h
  obtain ⟨b, -, rfl | rfl⟩ := h
  · exact isAsciiHexdigit_hexDigit _ (by have := b.toNat_lt; omega)
  · exact isAsciiHexdigit_hexDigit _ (Nat.mod_lt _ (by decide))

/-! ### Names of files -/

/-- What stands before and after the last dot of a name, when there is one. -/
def splitAtLastDot (name : String) : Option (String × String) :=
  let cs := name.toList.reverse
  if cs.contains '.' then
    some (String.ofList (cs.dropWhile (· ≠ '.')).tail.reverse,
      String.ofList (cs.takeWhile (· ≠ '.')).reverse)
  else none

theorem mem_of_splitAtLastDot {name before after : String}
    (h : splitAtLastDot name = some (before, after)) {c : Char}
    (hc : c ∈ before.toList ∨ c ∈ after.toList) : c ∈ name.toList := by
  rw [splitAtLastDot] at h
  split_ifs at h
  obtain ⟨rfl, rfl⟩ := Prod.mk.inj (Option.some.inj h)
  simp only [String.toList_ofList, List.mem_reverse] at hc
  rw [← List.mem_reverse]
  rcases hc with hc | hc
  · exact (List.dropWhile_suffix _).subset (List.mem_of_mem_tail hc)
  · exact (List.takeWhile_prefix _).subset hc

/-- `Path::extension` of a single component. -/
def fileExtension (name : String) : Option String :=
  if name = "." ∨ name = ".." then none
  else match splitAtLastDot name with
    | none => none
    | some (before, after) => if before = "" then none else some after

theorem mem_of_fileExtension {name ext : String} (h : fileExtension name = some ext) {c : Char}
    (hc : c ∈ ext.toList) : c ∈ name.toList := by
  rw [fileExtension] at h
  split_ifs at h
  split at h
  · cases h
  · rename_i before after hsplit
    split_ifs at h
    obtain rfl := Option.some.inj h
    exact mem_of_splitAtLastDot hsplit (.inr hc)

/-- The name is what stands before its last dot, the dot, and what follows. -/
theorem splitAtLastDot_spec {name before after : String}
    (h : splitAtLastDot name = some (before, after)) :
    name = before ++ "." ++ after ∧ '.' ∉ after.toList := by
  rw [splitAtLastDot] at h
  split_ifs at h with hdot
  obtain ⟨rfl, rfl⟩ := Prod.mk.inj (Option.some.inj h)
  have hmem : '.' ∈ name.toList.reverse := List.contains_iff_mem.mp hdot
  have hne : name.toList.reverse.dropWhile (· ≠ '.') ≠ [] := fun hnil => by
    simpa using List.dropWhile_eq_nil_iff.mp hnil '.' hmem
  have hhead : (name.toList.reverse.dropWhile (· ≠ '.')).head hne = '.' := by
    simpa using List.head_dropWhile_not (· ≠ '.') hne
  constructor
  · have hwhole := List.takeWhile_append_dropWhile (p := (· ≠ '.')) (l := name.toList.reverse)
    rw [← List.cons_head_tail hne, hhead] at hwhole
    refine String.toList_inj.mp ?_
    rw [← List.reverse_inj]
    refine hwhole.symm.trans ?_
    simp
  · intro hin
    rw [String.toList_ofList, List.mem_reverse] at hin
    simpa using List.mem_takeWhile_imp hin

theorem not_mem_of_splitAtLastDot {name : String} (h : splitAtLastDot name = none) :
    '.' ∉ name.toList := by
  rw [splitAtLastDot] at h
  split_ifs at h with hdot
  intro hin
  exact hdot (List.contains_iff_mem.mpr (List.mem_reverse.mpr hin))

theorem not_mem_of_fileExtension {name ext : String} (h : fileExtension name = some ext) :
    '.' ∉ ext.toList := by
  rw [fileExtension] at h
  split_ifs at h
  split at h
  · cases h
  · rename_i before after hsplit
    split_ifs at h
    exact Option.some.inj h ▸ (splitAtLastDot_spec hsplit).2

def endsWith (s suffix : String) : Bool := suffix.toList.isSuffixOf s.toList

/-- A dot and what follows it is the end of a name exactly when that follows the
last dot. -/
theorem endsWith_extension_iff {stem after tail : String} (hafter : '.' ∉ after.toList)
    (htail : '.' ∉ tail.toList) :
    endsWith (stem ++ "." ++ after) ("." ++ tail) = true ↔ after = tail := by
  have hdot : ".".toList = ['.'] := rfl
  rw [endsWith, List.isSuffixOf_iff_suffix]
  constructor
  · rintro ⟨front, h⟩
    simp only [String.toList_append, hdot, List.append_assoc, List.singleton_append] at h
    refine String.toList_inj.mp ?_
    rcases List.append_eq_append_iff.mp h with ⟨gap, -, hgap⟩ | ⟨gap, -, hgap⟩
    · cases gap with
      | nil => exact (List.cons.inj hgap).2.symm
      | cons c gap => exact absurd (by rw [(List.cons.inj hgap).2]; simp) htail
    · cases gap with
      | nil => exact (List.cons.inj hgap).2
      | cons c gap => exact absurd (by rw [(List.cons.inj hgap).2]; simp) hafter
  · rintro rfl
    simp only [String.toList_append, List.append_assoc]
    exact List.suffix_append _ _

/-- **Names with an extension end in it**, and a name that begins with its only
dot has none. -/
theorem endsWith_iff_fileExtension {tail : String} (hne : tail ≠ "") (htail : '.' ∉ tail.toList)
    (name : String) :
    endsWith name ("." ++ tail) = true ↔ fileExtension name = some tail ∨ name = "." ++ tail := by
  have hdot : ".".toList = ['.'] := rfl
  cases hsplit : splitAtLastDot name with
  | none =>
    have hnone := not_mem_of_splitAtLastDot hsplit
    refine iff_of_false (fun h => ?_) ?_
    · rw [endsWith, List.isSuffixOf_iff_suffix] at h
      exact hnone (h.subset (by simp [hdot]))
    · rintro (h | rfl)
      · simp [fileExtension, hsplit] at h
      · exact hnone (by simp [hdot])
  | some split =>
    obtain ⟨before, after⟩ := split
    obtain ⟨hname, hafter⟩ := splitAtLastDot_spec hsplit
    have hends : endsWith name ("." ++ tail) = true ↔ after = tail := by
      rw [hname]
      exact endsWith_extension_iff hafter htail
    rw [hends]
    by_cases hbefore : before = ""
    · -- the name begins with its last dot
      subst hbefore
      have hnone : fileExtension name = none := by simp [fileExtension, hsplit]
      rw [hnone, hname]
      simp [String.append_right_inj]
    · have hother : name ≠ "." ++ tail := by
        intro h
        have hlist := congrArg String.toList (hname.symm.trans h)
        simp only [String.toList_append, hdot, List.append_assoc, List.singleton_append] at hlist
        cases hcs : before.toList with
        | nil => exact hbefore (String.toList_inj.mp hcs)
        | cons c cs =>
          rw [hcs] at hlist
          exact htail (by rw [← (List.cons.inj hlist).2]; simp)
      constructor
      · rintro rfl
        -- a name with something on both sides of the dot is longer than `..`
        have hlong : 2 < name.toList.length := by
          have h1 : 0 < before.toList.length := List.length_pos_iff.mpr fun h =>
            hbefore (String.toList_inj.mp h)
          have h2 : 0 < after.toList.length := List.length_pos_iff.mpr fun h =>
            hne (String.toList_inj.mp h)
          rw [hname]
          simp only [String.toList_append, List.length_append, hdot, List.length_singleton]
          omega
        have hdots : ¬ (name = "." ∨ name = "..") := by
          rintro (rfl | rfl)
          · exact absurd hlong (by decide)
          · exact absurd hlong (by decide)
        simp [fileExtension, hdots, hsplit, hbefore]
      · rintro (h | h)
        · rw [fileExtension] at h
          split_ifs at h
          simpa [hsplit, hbefore] using h
        · exact absurd h hother

/-- `str::lines`, but for the `\r` a line may keep. -/
def lines (s : String) : List String := (s.toList.splitOn '\n').map String.ofList

end NightBridge.Data
