/-
# The text of a fingerprint

What `Fingerprint::from_str` makes of an arbitrary string.  It tests the length
of the text in bytes, cuts it by byte offsets and lets `u8::from_str_radix` read
the pieces, so two kinds of text that are not sixteen digits are not refused:
one with a sign before a digit is read as if the sign were a zero (`ReadsAll`),
and one with a character across the end of a piece makes the cut panic
(`Straddled`).  `fromStr_exact_iff` says that these are all.
-/

import NightBridge.Core.Fingerprint

namespace NightBridge.Core
namespace Fingerprint

open Data

/-- The UTF-8 bytes of characters. -/
def encode (cs : List Char) : Bytes := cs.flatMap String.utf8EncodeChar

/-! ### The bytes of a character -/

theorem isContinuation_ofNat {n : ℕ} (h : 128 ≤ n) (h' : n < 192) : isContinuation (UInt8.ofNat n) = true := by
  simp only [isContinuation, UInt8.toNat_ofNat', Bool.and_eq_true, decide_eq_true_eq]
  omega

theorem isContinuation_eq_false {b : UInt8} (h : b.toNat < 128 ∨ 192 ≤ b.toNat) :
    isContinuation b = false := by
  simp only [isContinuation, Bool.and_eq_false_iff, decide_eq_false_iff_not]
  omega

/-- **What UTF-8 makes of a character**: its code, or a leading byte and bytes
that continue it. -/
theorem utf8EncodeChar_cases (c : Char) :
    (c.utf8Size = 1 ∧ c.toNat < 128 ∧ String.utf8EncodeChar c = [UInt8.ofNat c.toNat]) ∨
    (∃ b x rest, 2 ≤ c.utf8Size ∧ 128 ≤ c.toNat ∧ String.utf8EncodeChar c = b :: x :: rest ∧
      192 ≤ b.toNat ∧ isContinuation x = true ∧ (rest = [] ↔ c.utf8Size = 2) ∧
      ∀ y ∈ rest, isContinuation y = true) := by
  have hlen := String.length_utf8EncodeChar c
  have hval : c.toNat = c.val.toNat := rfl
  rw [hval]
  unfold String.utf8EncodeChar at hlen ⊢
  dsimp only at hlen ⊢
  split_ifs at hlen ⊢ with h₁ h₂ h₃
  · exact .inl ⟨by simpa using hlen.symm, by omega, rfl⟩
  · refine .inr ⟨_, _, _, by simp at hlen; omega, by omega, rfl, ?_, isContinuation_ofNat (by omega) (by omega),
      by simp at hlen; simp; omega, by simp⟩
    simp only [UInt8.toNat_ofNat']
    omega
  · refine .inr ⟨_, _, _, by simp at hlen; omega, by omega, rfl, ?_, isContinuation_ofNat (by omega) (by omega),
      by simp at hlen; simp; omega, ?_⟩
    · simp only [UInt8.toNat_ofNat']
      omega
    · intro y hy
      simp only [List.mem_singleton] at hy
      rw [hy]
      exact isContinuation_ofNat (by omega) (by omega)
  · refine .inr ⟨_, _, _, by simp at hlen; omega, by omega, rfl, ?_, isContinuation_ofNat (by omega) (by omega),
      by simp at hlen; simp; omega, ?_⟩
    · simp only [UInt8.toNat_ofNat']
      omega
    · intro y hy
      simp only [List.mem_cons, List.not_mem_nil, or_false] at hy
      rcases hy with rfl | rfl <;> exact isContinuation_ofNat (by omega) (by omega)

theorem head?_encode (cs : List Char) : ((encode cs).head?.map isContinuation).getD false = false := by
  cases cs with
  | nil => rfl
  | cons c cs =>
    rcases utf8EncodeChar_cases c with ⟨-, hlt, hc⟩ | ⟨b, x, rest, -, -, hc, hb, -⟩
    · simpa [encode, hc] using isContinuation_eq_false (b := UInt8.ofNat c.toNat) (by simp; omega)
    · simpa [encode, hc] using isContinuation_eq_false (.inr hb)

/-! ### What a pair is read as -/

def digitValue (c : Char) : ℕ :=
  if c.toNat ≤ 57 then c.toNat - 48 else if c.toNat ≤ 70 then c.toNat - 55 else c.toNat - 87

theorem toDigit16_ofNat {c : Char} (h : c.toNat < 128) : toDigit16 (UInt8.ofNat c.toNat) =
    if isAsciiHexdigit c = true then some (digitValue c) else none := by
  have hn : (UInt8.ofNat c.toNat).toNat = c.toNat := by
    rw [UInt8.toNat_ofNat']
    omega
  simp only [toDigit16, hn, isAsciiHexdigit, digitValue, Bool.or_eq_true, Bool.and_eq_true,
    decide_eq_true_eq]
  split_ifs <;> first | omega | rfl

/-- Two characters that `from_str_radix` reads: two digits, or a sign and a
digit. -/
def Reads (c d : Char) : Prop := (c = '+' ∨ isAsciiHexdigit c = true) ∧ isAsciiHexdigit d = true

theorem lt_of_isAsciiHexdigit {c : Char} (h : isAsciiHexdigit c = true) :
    c.toNat < 128 ∧ digitValue c < 16 := by
  simp only [isAsciiHexdigit, Bool.or_eq_true, Bool.and_eq_true, decide_eq_true_eq] at h
  unfold digitValue
  split_ifs <;> omega

theorem Reads.lt {c d : Char} (h : Reads c d) : c.toNat < 128 ∧ d.toNat < 128 := by
  obtain ⟨rfl | hc, hd⟩ := h
  · exact ⟨by decide, (lt_of_isAsciiHexdigit hd).1⟩
  · exact ⟨(lt_of_isAsciiHexdigit hc).1, (lt_of_isAsciiHexdigit hd).1⟩

theorem ofNat_eq_plus {c : Char} (h : c.toNat < 128) : UInt8.ofNat c.toNat = 43 ↔ c = '+' := by
  rw [← UInt8.toNat_inj, UInt8.toNat_ofNat', ← Char.toNat_inj]
  simp
  omega

theorem fromStrRadix16_of_reads {c d : Char} (h : Reads c d) :
    ∃ x, fromStrRadix16 (UInt8.ofNat c.toNat) (UInt8.ofNat d.toNat) = some x ∧
      (isAsciiHexdigit c = true → x.toNat = 16 * digitValue c + digitValue d) := by
  obtain ⟨hc, hd⟩ := h.lt
  unfold fromStrRadix16
  rw [toDigit16_ofNat hd, if_pos h.2, toDigit16_ofNat hc]
  by_cases hplus : c = '+'
  · rw [if_pos ((ofNat_eq_plus hc).mpr hplus)]
    refine ⟨_, rfl, fun hdigit => ?_⟩
    rw [hplus] at hdigit
    exact absurd hdigit (by decide)
  · have hdigit := h.1.resolve_left hplus
    rw [if_neg (mt (ofNat_eq_plus hc).mp hplus), if_pos hdigit]
    refine ⟨_, rfl, fun _ => ?_⟩
    have hcv := (lt_of_isAsciiHexdigit hdigit).2
    have hdv := (lt_of_isAsciiHexdigit h.2).2
    rw [UInt8.toNat_ofNat']
    omega

theorem fromStrRadix16_of_not_reads {c d : Char} (hc : c.toNat < 128) (hd : d.toNat < 128)
    (h : ¬ Reads c d) : fromStrRadix16 (UInt8.ofNat c.toNat) (UInt8.ofNat d.toNat) = none := by
  unfold fromStrRadix16
  rw [toDigit16_ofNat hd, toDigit16_ofNat hc]
  by_cases hdigit : isAsciiHexdigit d = true
  · have hnot : ¬ (c = '+' ∨ isAsciiHexdigit c = true) := fun hc => h ⟨hc, hdigit⟩
    rw [not_or] at hnot
    rw [if_neg (mt (ofNat_eq_plus hc).mp hnot.1), if_neg hnot.2]
  · rw [if_neg hdigit]
    split_ifs <;> rfl

/-! ### The loop, on characters -/

/-- The text is pairs that `from_str_radix` reads. -/
def ReadsAll : List Char → Prop
  | [] => True
  | [_] => False
  | c :: d :: rest => Reads c d ∧ ReadsAll rest

/-- After pairs that are read, a character lies across the end of a pair. -/
def Straddled : List Char → Prop
  | [] => False
  | [c] => 3 ≤ c.utf8Size
  | c :: d :: rest => 3 ≤ c.utf8Size ∨ (c.utf8Size = 1 ∧ 2 ≤ d.utf8Size) ∨ (Reads c d ∧ Straddled rest)

theorem encode_cons_of_lt {c : Char} (h : c.toNat < 128) (rest : List Char) :
    encode (c :: rest) = UInt8.ofNat c.toNat :: encode rest := by
  rcases utf8EncodeChar_cases c with ⟨-, -, hc⟩ | ⟨_, _, _, -, hge, -⟩
  · rw [encode, List.flatMap_cons, hc]
    rfl
  · omega

theorem parsePairs_of_lt {c d : Char} (hc : c.toNat < 128) (hd : d.toNat < 128) (rest : List Char) :
    parsePairs (encode (c :: d :: rest)) =
      match fromStrRadix16 (UInt8.ofNat c.toNat) (UInt8.ofNat d.toNat) with
      | none => .error (.error (.crypto "invalid digit found in string"))
      | some x => (parsePairs (encode rest)).map (x :: ·) := by
  have hfirst : isContinuation (UInt8.ofNat c.toNat) = false :=
    isContinuation_eq_false (.inl (by rw [UInt8.toNat_ofNat']; omega))
  rw [encode_cons_of_lt hc, encode_cons_of_lt hd, parsePairs, head?_encode, hfirst]
  rfl

/-- A character of three or four bytes ends after the pair it begins. -/
theorem parsePairs_of_three_le {c : Char} (h : 3 ≤ c.utf8Size) (rest : List Char) :
    parsePairs (encode (c :: rest)) = .error .panic := by
  rcases utf8EncodeChar_cases c with ⟨hsize, -⟩ | ⟨b, x, more, -, -, hc, -, -, hmore, hall⟩
  · omega
  · cases more with
    | nil => exact absurd (hmore.mp rfl) (by omega)
    | cons y more =>
      rw [encode, List.flatMap_cons, hc, List.cons_append, List.cons_append, List.cons_append, parsePairs,
        List.head?_cons, Option.map_some, Option.getD_some, hall y (by simp), Bool.or_true, if_pos rfl]

theorem parsePairs_of_two {c : Char} (h : c.utf8Size = 2) (rest : List Char) :
    parsePairs (encode (c :: rest)) = .error (.error (.crypto "invalid digit found in string")) := by
  rcases utf8EncodeChar_cases c with ⟨hsize, -⟩ | ⟨b, x, more, -, -, hc, hb, -, hmore, -⟩
  · omega
  · have hdigit : toDigit16 b = none := by
      unfold toDigit16
      dsimp only
      split_ifs <;> first | omega | rfl
    have hplus : b ≠ 43 := fun hb' => by rw [hb'] at hb; exact absurd hb (by decide)
    have henc : encode (c :: rest) = b :: x :: encode rest := by
      rw [encode, List.flatMap_cons, hc, hmore.mpr h]
      rfl
    rw [henc, parsePairs, head?_encode, isContinuation_eq_false (.inr hb), fromStrRadix16, if_neg hplus,
      hdigit]
    rfl

/-- A character of several bytes after one of a single byte ends after their
pair. -/
theorem parsePairs_of_straddle {c d : Char} (hc : c.utf8Size = 1) (hd : 2 ≤ d.utf8Size) (rest : List Char) :
    parsePairs (encode (c :: d :: rest)) = .error .panic := by
  rcases utf8EncodeChar_cases c with ⟨-, hlt, -⟩ | ⟨_, _, _, hsize, -⟩
  · rcases utf8EncodeChar_cases d with ⟨hsize, -⟩ | ⟨b, x, more, -, -, hd, -, hx, -⟩
    · omega
    · rw [encode_cons_of_lt hlt, encode, List.flatMap_cons, hd, List.cons_append, List.cons_append,
        parsePairs, List.head?_cons, Option.map_some, Option.getD_some, hx, Bool.or_true, if_pos rfl]
  · omega

theorem parsePairs_of_straddled {cs : List Char} (h : Straddled cs) :
    parsePairs (encode cs) = .error .panic := by
  induction cs using Straddled.induct with
  | case1 => exact absurd h (by simp [Straddled])
  | case2 c => exact parsePairs_of_three_le h []
  | case3 c d rest ih =>
    rcases h with h | ⟨hc, hd⟩ | ⟨hreads, h⟩
    · exact parsePairs_of_three_le h _
    · exact parsePairs_of_straddle hc hd rest
    · obtain ⟨x, hx, -⟩ := fromStrRadix16_of_reads hreads
      rw [parsePairs_of_lt hreads.lt.1 hreads.lt.2, hx, ih h]
      rfl

/-- Pairs that are read give their bytes; digits give what they denote. -/
theorem parsePairs_of_readsAll {cs : List Char} (h : ReadsAll cs) :
    ∃ xs, parsePairs (encode cs) = .ok xs ∧ ((∀ c ∈ cs, isAsciiHexdigit c = true) → ∀ acc : ℕ,
      xs.foldl (fun acc b => acc * 256 + b.toNat) acc =
        cs.foldl (fun acc c => 16 * acc + digitValue c) acc) := by
  induction cs using ReadsAll.induct with
  | case1 => exact ⟨[], rfl, fun _ _ => rfl⟩
  | case2 c => exact absurd h (by simp [ReadsAll])
  | case3 c d rest ih =>
    obtain ⟨x, hx, hvalue⟩ := fromStrRadix16_of_reads h.1
    obtain ⟨xs, hxs, hfold⟩ := ih h.2
    refine ⟨x :: xs, ?_, fun hall acc => ?_⟩
    · rw [parsePairs_of_lt h.1.lt.1 h.1.lt.2, hx, hxs]
      rfl
    · rw [List.foldl_cons, List.foldl_cons, List.foldl_cons, hvalue (hall c (by simp)),
        hfold fun c' h' => hall c' (by simp [h'])]
      congr 1
      ring

/-- Every other text of an even number of bytes is refused. -/
theorem parsePairs_of_not_reads {cs : List Char} (heven : (encode cs).length % 2 = 0)
    (hreads : ¬ ReadsAll cs) (hstraddled : ¬ Straddled cs) :
    ∃ e, parsePairs (encode cs) = .error (.error e) := by
  induction cs using ReadsAll.induct with
  | case1 => exact absurd trivial hreads
  | case2 c =>
    have hlen : (encode [c]).length = c.utf8Size := by simp [encode]
    have hpos := c.utf8Size_pos
    have hlt : ¬ 3 ≤ c.utf8Size := hstraddled
    exact ⟨_, parsePairs_of_two (by omega) []⟩
  | case3 c d rest ih =>
    simp only [Straddled, not_or, not_and] at hstraddled
    obtain ⟨hthree, htwo, hrest⟩ := hstraddled
    rcases utf8EncodeChar_cases c with ⟨hsize, hc, -⟩ | ⟨_, _, _, hsize, -⟩
    · have hd : d.toNat < 128 := by
        rcases utf8EncodeChar_cases d with ⟨-, hd, -⟩ | ⟨_, _, _, hd, -⟩
        · exact hd
        · exact absurd hd (htwo hsize)
      rw [parsePairs_of_lt hc hd]
      by_cases hpair : Reads c d
      · obtain ⟨x, hx, -⟩ := fromStrRadix16_of_reads hpair
        have hlen : (encode (c :: d :: rest)).length = (encode rest).length + 2 := by
          rw [encode_cons_of_lt hc, encode_cons_of_lt hd, List.length_cons, List.length_cons]
        obtain ⟨e, he⟩ := ih (by omega) (fun h => hreads ⟨hpair, h⟩) (hrest hpair)
        rw [hx, he]
        exact ⟨e, rfl⟩
      · rw [fromStrRadix16_of_not_reads hc hd hpair]
        exact ⟨_, rfl⟩
    · exact ⟨_, parsePairs_of_two (by omega) _⟩

/-! ### The codec -/

/-- `cleaned`: the characters of a text that are not hyphens. -/
def cleaned (value : String) : List Char := value.toList.filter (· ≠ '-')

def SixteenDigits (cs : List Char) : Prop := cs.length = 16 ∧ ∀ c ∈ cs, isAsciiHexdigit c = true

/-- The number that hexadecimal digits denote. -/
def hexValue (cs : List Char) : ℕ := cs.foldl (fun acc c => 16 * acc + digitValue c) 0

/-- A text is read if it is sixteen digits, as what they denote, and refused
with an error if not. -/
def ReadExactly (value : String) : Prop :=
  fromStr value ≠ .error .panic ∧ ((∃ f, fromStr value = .ok f) ↔ SixteenDigits (cleaned value)) ∧
    ∀ f, fromStr value = .ok f → ofBeBytes f.bytes = hexValue (cleaned value)

/-- The texts of sixteen bytes with a sign or a character where the parser does
not look for one. -/
def Misread (value : String) : Prop :=
  (encode (cleaned value)).length = 16 ∧
    (Straddled (cleaned value) ∨ (ReadsAll (cleaned value) ∧ '+' ∈ cleaned value))

theorem ofCleaned_of_error {bs : Bytes} {e : Failure} (h : bs.length = 16)
    (hp : parsePairs bs = .error e) : ofCleaned bs = .error e := by
  unfold ofCleaned
  rw [dif_pos h]
  split
  · rename_i hp'
    rw [hp] at hp'
    cases hp'
  · rename_i hp'
    rw [hp] at hp'
    cases hp'
    rfl

theorem readsAll_of_digits {cs : List Char} (heven : cs.length % 2 = 0)
    (h : ∀ c ∈ cs, isAsciiHexdigit c = true) : ReadsAll cs := by
  induction cs using ReadsAll.induct with
  | case1 => trivial
  | case2 c => simp at heven
  | case3 c d rest ih =>
    refine ⟨⟨.inr (h c (by simp)), h d (by simp)⟩, ih ?_ fun c' h' => h c' (by simp [h'])⟩
    simp only [List.length_cons] at heven
    omega

theorem digits_of_readsAll {cs : List Char} (h : ReadsAll cs) (hplus : '+' ∉ cs) :
    ∀ c ∈ cs, isAsciiHexdigit c = true := by
  induction cs using ReadsAll.induct with
  | case1 => simp
  | case2 c => exact absurd h (by simp [ReadsAll])
  | case3 c d rest ih =>
    simp only [List.mem_cons, not_or] at hplus
    intro c' h'
    rcases List.mem_cons.mp h' with rfl | h'
    · exact h.1.1.resolve_left (Ne.symm hplus.1)
    · rcases List.mem_cons.mp h' with rfl | h'
      · exact h.1.2
      · exact ih h.2 hplus.2.2 c' h'

theorem length_encode_of_readsAll {cs : List Char} (h : ReadsAll cs) :
    (encode cs).length = cs.length := by
  induction cs using ReadsAll.induct with
  | case1 => rfl
  | case2 c => exact absurd h (by simp [ReadsAll])
  | case3 c d rest ih =>
    rw [encode_cons_of_lt h.1.lt.1, encode_cons_of_lt h.1.lt.2, List.length_cons, List.length_cons, ih h.2]
    rfl

theorem SixteenDigits.readsAll {cs : List Char} (h : SixteenDigits cs) : ReadsAll cs :=
  readsAll_of_digits (by rw [h.1]) h.2

theorem SixteenDigits.length_encode {cs : List Char} (h : SixteenDigits cs) : (encode cs).length = 16 := by
  rw [length_encode_of_readsAll h.readsAll, h.1]

theorem fromStr_of_length {value : String} (h : (encode (cleaned value)).length ≠ 16) :
    ∃ e, fromStr value = .error (.error e) := ⟨_, dif_neg h⟩

theorem fromStr_of_readsAll {value : String} (hlen : (encode (cleaned value)).length = 16)
    (h : ReadsAll (cleaned value)) : ∃ f, fromStr value = .ok f ∧
      ((∀ c ∈ cleaned value, isAsciiHexdigit c = true) → ofBeBytes f.bytes = hexValue (cleaned value)) := by
  obtain ⟨xs, hxs, hfold⟩ := parsePairs_of_readsAll h
  exact ⟨⟨xs, length_parsePairs hlen hxs⟩, ofCleaned_eq_ok hlen hxs, fun hall => hfold hall 0⟩

theorem straddled_of_panic {value : String} (h : fromStr value = .error .panic) :
    Straddled (cleaned value) := by
  by_contra hstraddled
  by_cases hlen : (encode (cleaned value)).length = 16
  · by_cases hreads : ReadsAll (cleaned value)
    · obtain ⟨f, hf, -⟩ := fromStr_of_readsAll hlen hreads
      rw [hf] at h
      cases h
    · obtain ⟨e, he⟩ := parsePairs_of_not_reads (by rw [hlen]) hreads hstraddled
      have herror : fromStr value = .error (.error e) := ofCleaned_of_error hlen he
      rw [herror] at h
      cases h
  · obtain ⟨e, he⟩ := fromStr_of_length hlen
    rw [he] at h
    cases h

theorem not_straddled_of_ascii {cs : List Char} (h : ∀ c ∈ cs, c.toNat < 128) : ¬ Straddled cs := by
  have hsize : ∀ c ∈ cs, c.utf8Size = 1 := by
    intro c hc
    rcases utf8EncodeChar_cases c with ⟨hone, -⟩ | ⟨_, _, _, -, hge, -⟩
    · exact hone
    · exact absurd (h c hc) (by omega)
  clear h
  induction cs using Straddled.induct with
  | case1 => exact id
  | case2 c =>
    have hc := hsize c (by simp)
    simp only [Straddled]
    omega
  | case3 c d rest ih =>
    have hc := hsize c (by simp)
    have hd := hsize d (by simp)
    rintro (h | ⟨-, h⟩ | ⟨-, h⟩)
    · omega
    · omega
    · exact ih (fun c' h' => hsize c' (by simp [h'])) h

/-- **No ASCII text makes the parser panic.** -/
theorem fromStr_ne_panic {value : String} (h : ∀ c ∈ value.toList, c.toNat < 128) :
    fromStr value ≠ .error .panic := fun hpanic =>
  not_straddled_of_ascii (fun c hc => h c (List.mem_of_mem_filter hc)) (straddled_of_panic hpanic)

theorem readExactly_of_error {value : String} {e : CoreError} (h : fromStr value = .error (.error e))
    (hnot : ¬ SixteenDigits (cleaned value)) : ReadExactly value := by
  refine ⟨by simp [h], ⟨fun ⟨f, hf⟩ => ?_, fun hdigits => absurd hdigits hnot⟩, fun f hf => ?_⟩ <;>
    · rw [h] at hf
      cases hf

/-- **The fingerprint codec.**  The texts that are not read exactly are those
with a sign before a digit or a character across the end of a pair; and a
displayed fingerprint is always read back. -/
theorem fromStr_exact_iff (value : String) (f : Fingerprint) :
    (ReadExactly value ↔ ¬ Misread value) ∧ fromStr f.display = .ok f := by
  refine ⟨?_, fromStr_display f⟩
  by_cases hlen : (encode (cleaned value)).length = 16
  · by_cases hstraddled : Straddled (cleaned value)
    · have hpanic : fromStr value = .error .panic :=
        ofCleaned_of_error hlen (parsePairs_of_straddled hstraddled)
      exact iff_of_false (fun h => h.1 hpanic) (not_not_intro ⟨hlen, .inl hstraddled⟩)
    by_cases hreads : ReadsAll (cleaned value)
    · obtain ⟨f, hf, hvalue⟩ := fromStr_of_readsAll hlen hreads
      by_cases hplus : '+' ∈ cleaned value
      · refine iff_of_false (fun h => ?_) (not_not_intro ⟨hlen, .inr ⟨hreads, hplus⟩⟩)
        exact absurd ((h.2.1.mp ⟨f, hf⟩).2 _ hplus) (by decide)
      · have hdigits := digits_of_readsAll hreads hplus
        have hsixteen : SixteenDigits (cleaned value) :=
          ⟨by rw [← length_encode_of_readsAll hreads, hlen], hdigits⟩
        refine iff_of_true ⟨by simp [hf], ⟨fun _ => hsixteen, fun _ => ⟨f, hf⟩⟩, fun f' hf' => ?_⟩
          fun h => h.2.elim hstraddled fun h => hplus h.2
        rw [hf] at hf'
        cases hf'
        exact hvalue hdigits
    · obtain ⟨e, he⟩ := parsePairs_of_not_reads (by rw [hlen]) hreads hstraddled
      exact iff_of_true (readExactly_of_error (ofCleaned_of_error hlen he) fun h => hreads h.readsAll)
        fun h => h.2.elim hstraddled fun h => hreads h.1
  · obtain ⟨e, he⟩ := fromStr_of_length hlen
    exact iff_of_true (readExactly_of_error he fun h => hlen h.length_encode) fun h => hlen h.1

/-- Eight signs and eight digits are accepted, and five characters of three
bytes panic. -/
theorem fromStr_misreads :
    (∃ f, fromStr "+1+1-+1+1-+1+1-+1+1" = .ok f ∧ f.bytes = List.replicate 8 1) ∧
      fromStr "€€€€€a" = .error .panic :=
  ⟨⟨⟨List.replicate 8 1, rfl⟩, by decide +kernel, rfl⟩, by decide +kernel⟩

end Fingerprint
end NightBridge.Core
