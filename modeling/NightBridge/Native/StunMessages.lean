/-
# The answers of a STUN server

What `parse_binding_response` makes of an answer that a server may send: a
header for the transaction, attributes of any types, lengths and padding, and
whatever follows in the datagram.  The loop steps from attribute to attribute
(`parseAttributes_body`), so the first one of type `XOR-MAPPED-ADDRESS` decides
(`stun_response_parsed`).
-/

import NightBridge.Native.Stun

namespace NightBridge.Native

open Data

/-- An attribute, with what pads its value to a multiple of four. -/
structure Attribute where
  kind : ℕ
  value : Bytes
  padding : Bytes
  kind_lt : kind < 2 ^ 16
  padded : value.length + padding.length = paddedAttrLen value.length

def Attribute.bytes (self : Attribute) : Bytes :=
  toBeBytes 2 self.kind ++ (toBeBytes 2 self.value.length ++ (self.value ++ self.padding))

/-- The attributes of a message, one after another. -/
def messageBody (attributes : List Attribute) : Bytes := attributes.flatMap Attribute.bytes

/-- A binding success response, and what follows it in the datagram. -/
def successResponse (transactionId : TransactionId) (attributes : List Attribute) (trailing : Bytes) :
    Bytes :=
  toBeBytes 2 bindingSuccessResponse ++ (toBeBytes 2 (messageBody attributes).length ++
    (toBeBytes 4 magicCookie ++ (transactionId.1 ++ (messageBody attributes ++ trailing))))

/-- The value of an `XOR-MAPPED-ADDRESS` that says an IPv4 endpoint.  The first
byte is reserved, and nothing is said of what follows the eighth. -/
def EncodesV4 (value : Bytes) (ip : Ipv4Addr) (port : UInt16) : Prop :=
  ∃ (reserved : UInt8) (rest : Bytes), value = reserved :: 1 ::
    (toBeBytes 2 (port ^^^ UInt16.ofNat (magicCookie >>> 16)).toNat ++
      (ip.a ^^^ 0x21) :: (ip.b ^^^ 0x12) :: (ip.c ^^^ 0xa4) :: (ip.d ^^^ 0x42) :: rest)

/-! ### Indexing a concatenation -/

theorem toBeBytes_two (n : ℕ) :
    toBeBytes 2 n = [UInt8.ofNat (n / 256 % 256), UInt8.ofNat (n % 256)] := rfl

theorem u16At_append {front : Bytes} {i n : ℕ} (hi : i = front.length) (hn : n < 2 ^ 16) (rest : Bytes) :
    u16At (front ++ (toBeBytes 2 n ++ rest)) i = some n := by
  subst hi
  have hvalue : ofBeBytes (toBeBytes 2 n) = n := ofBeBytes_toBeBytes hn
  rw [toBeBytes_two] at hvalue ⊢
  simp [u16At, hvalue]

theorem u32At_magicCookie {front : Bytes} {i : ℕ} (hi : i = front.length) (rest : Bytes) :
    u32At (front ++ (toBeBytes 4 magicCookie ++ rest)) i = some magicCookie := by
  subst hi
  have hbytes : toBeBytes 4 magicCookie = [0x21, 0x12, 0xa4, 0x42] := by decide
  have hvalue : ofBeBytes [0x21, 0x12, 0xa4, 0x42] = magicCookie := by decide
  rw [hbytes]
  simp [u32At, hvalue]

theorem bytesAt_append {front mid : Bytes} {i j : ℕ} (hi : i = front.length)
    (hj : j = front.length + mid.length) (rest : Bytes) :
    bytesAt (front ++ (mid ++ rest)) i j = some mid := by
  subst hi hj
  rw [bytesAt_eq (by omega) (by simp), slice, List.drop_left, Nat.add_sub_cancel_left,
    List.take_left]

/-! ### The value -/

/-- **An IPv4 endpoint is read back from its value.** -/
theorem parseXorMappedAddress_of_encodes {value : Bytes} {ip : Ipv4Addr} {port : UInt16}
    (h : EncodesV4 value ip port) : parseXorMappedAddress value = some (.ok (.v4 ip port)) := by
  obtain ⟨reserved, rest, rfl⟩ := h
  have hport := u16At_append (show 2 = [reserved, 1].length from rfl)
    (port ^^^ UInt16.ofNat (magicCookie >>> 16)).toNat_lt
    ((ip.a ^^^ 0x21) :: (ip.b ^^^ 0x12) :: (ip.c ^^^ 0xa4) :: (ip.d ^^^ 0x42) :: rest)
  simp only [List.cons_append, List.nil_append] at hport
  rw [parseXorMappedAddress, if_neg (by simp; omega), hport]
  simp only [Option.bind_eq_bind, Option.bind_some, UInt16.ofNat_toNat, UInt16.xor_assoc,
    UInt16.xor_self, UInt16.xor_zero, toBeBytes_two, List.cons_append, List.nil_append, List.getElem?_cons_succ,
    List.getElem?_cons_zero, UInt8.xor_assoc, UInt8.xor_self, UInt8.xor_zero]
  rfl

/-- A value that says no IPv4 endpoint is refused. -/
theorem parseXorMappedAddress_error {value : Bytes} (h : ∀ ip port, ¬ EncodesV4 value ip port) :
    ∃ e, parseXorMappedAddress value = some (.error e) := by
  by_cases hlen : value.length < 8
  · rw [parseXorMappedAddress, if_pos hlen]
    exact ⟨_, rfl⟩
  obtain ⟨b₀, b₁, b₂, b₃, b₄, b₅, b₆, b₇, rest, rfl⟩ :
      ∃ b₀ b₁ b₂ b₃ b₄ b₅ b₆ b₇ rest, value = b₀ :: b₁ :: b₂ :: b₃ :: b₄ :: b₅ :: b₆ :: b₇ :: rest := by
    rcases value with _ | ⟨b₀, _ | ⟨b₁, _ | ⟨b₂, _ | ⟨b₃, _ | ⟨b₄, _ | ⟨b₅, _ | ⟨b₆, _ | ⟨b₇, rest⟩⟩⟩⟩⟩⟩⟩⟩
    case cons.cons.cons.cons.cons.cons.cons.cons => exact ⟨_, _, _, _, _, _, _, _, _, rfl⟩
    all_goals exact absurd (by simp) hlen
  by_cases hfamily : b₁ = 1
  · -- every port and every address is the image of one under the cookie
    subst hfamily
    have hport : ofBeBytes [b₂, b₃] < 2 ^ 16 := by simpa using ofBeBytes_lt [b₂, b₃]
    refine absurd ⟨b₀, rest, ?_⟩ (h ⟨b₄ ^^^ 0x21, b₅ ^^^ 0x12, b₆ ^^^ 0xa4, b₇ ^^^ 0x42⟩
      (UInt16.ofNat (ofBeBytes [b₂, b₃]) ^^^ UInt16.ofNat (magicCookie >>> 16)))
    simp only [UInt16.xor_assoc, UInt16.xor_self, UInt16.xor_zero, UInt8.xor_assoc, UInt8.xor_self,
      UInt8.xor_zero, UInt16.toNat_ofNat', Nat.mod_eq_of_lt hport]
    rw [toBeBytes_ofBeBytes (show [b₂, b₃].length = 2 from rfl)]
    rfl
  · rw [parseXorMappedAddress, if_neg hlen]
    simp [hfamily, stunError]

/-! ### The message -/

theorem Attribute.length_bytes (self : Attribute) :
    self.bytes.length = 4 + paddedAttrLen self.value.length := by
  simp only [Attribute.bytes, List.length_append, length_toBeBytes, ← self.padded]
  omega

theorem le_paddedAttrLen (len : ℕ) : len ≤ paddedAttrLen len := by
  unfold paddedAttrLen
  omega

/-- **The loop steps over the attributes** until one says the mapped address. -/
theorem parseAttributes_body (front : Bytes) (attributes : List Attribute) (trailing : Bytes)
    (hlen : (messageBody attributes).length < 2 ^ 16) :
    parseAttributes (front ++ (messageBody attributes ++ trailing))
        (front.length + (messageBody attributes).length) front.length =
      match attributes.find? fun attr => attr.kind = xorMappedAddress with
      | none => some (stunError "STUN response missing XOR-MAPPED-ADDRESS")
      | some attr => parseXorMappedAddress attr.value := by
  induction attributes generalizing front with
  | nil =>
    rw [parseAttributes, if_neg (by simp [messageBody])]
    rfl
  | cons attr rest ih =>
    have hbody : messageBody (attr :: rest) = attr.bytes ++ messageBody rest := List.flatMap_cons
    have hpadded := le_paddedAttrLen attr.value.length
    have hbytes := attr.length_bytes
    rw [hbody, List.length_append] at hlen
    have hresponse : front ++ (messageBody (attr :: rest) ++ trailing) = front ++
        (toBeBytes 2 attr.kind ++ (toBeBytes 2 attr.value.length ++
          (attr.value ++ (attr.padding ++ (messageBody rest ++ trailing))))) := by
      simp only [hbody, Attribute.bytes, List.append_assoc]
    have hkind : u16At (front ++ (messageBody (attr :: rest) ++ trailing)) front.length =
        some attr.kind := by
      rw [hresponse]
      exact u16At_append rfl attr.kind_lt _
    have hlength : u16At (front ++ (messageBody (attr :: rest) ++ trailing)) (front.length + 2) =
        some attr.value.length := by
      rw [hresponse, ← List.append_assoc]
      exact u16At_append (by simp) (by omega) _
    have hvalue : bytesAt (front ++ (messageBody (attr :: rest) ++ trailing)) (front.length + 4)
        (front.length + 4 + attr.value.length) = some attr.value := by
      rw [hresponse, ← List.append_assoc, ← List.append_assoc]
      exact bytesAt_append (by simp) (by simp) _
    rw [parseAttributes, if_pos (by rw [hbody, List.length_append]; omega), hkind, hlength]
    simp only [Option.bind_eq_bind, Option.bind_some]
    rw [if_neg (by rw [hbody, List.length_append]; omega), List.find?_cons]
    by_cases hmapped : attr.kind = xorMappedAddress
    · rw [if_pos hmapped, hvalue]
      simp [hmapped]
    · have hnext : front.length + 4 + paddedAttrLen attr.value.length = (front ++ attr.bytes).length := by
        rw [List.length_append, hbytes]
        omega
      rw [if_neg hmapped, hnext, hbody, List.length_append, ← Nat.add_assoc, ← List.length_append,
        List.append_assoc, ← List.append_assoc front, ih (front ++ attr.bytes) (by omega)]
      simp [hmapped]

/-- **The first mapped address of a well-formed answer decides.** -/
theorem parseBindingResponse_success (transactionId : TransactionId) (attributes : List Attribute)
    (trailing : Bytes) (hlen : (messageBody attributes).length < 2 ^ 16) :
    parseBindingResponse (successResponse transactionId attributes trailing) transactionId =
      match attributes.find? fun attr => attr.kind = xorMappedAddress with
      | none => some (stunError "STUN response missing XOR-MAPPED-ADDRESS")
      | some attr => parseXorMappedAddress attr.value := by
  have hid : transactionId.1.length = 12 := transactionId.2
  have hresponse : (successResponse transactionId attributes trailing).length =
      20 + (messageBody attributes).length + trailing.length := by
    simp only [successResponse, List.length_append, length_toBeBytes, hid]
    omega
  have hkind : u16At (successResponse transactionId attributes trailing) 0 =
      some bindingSuccessResponse :=
        u16At_append (show 0 = ([] : Bytes).length from rfl) (by decide) _
  have hlength : u16At (successResponse transactionId attributes trailing) 2 =
      some (messageBody attributes).length := u16At_append (by simp) hlen _
  have hcookie : u32At (successResponse transactionId attributes trailing) 4 = some magicCookie := by
    rw [successResponse, ← List.append_assoc]
    exact u32At_magicCookie (by simp) _
  have htransaction : bytesAt (successResponse transactionId attributes trailing) 8 20 =
      some transactionId.1 := by
    rw [successResponse, ← List.append_assoc, ← List.append_assoc]
    exact bytesAt_append (by simp) (by simp [hid]) _
  have hfront : (toBeBytes 2 bindingSuccessResponse ++ (toBeBytes 2 (messageBody attributes).length ++
      (toBeBytes 4 magicCookie ++ transactionId.1))).length = headerLen := by simp [hid, headerLen]
  have hbody := parseAttributes_body (toBeBytes 2 bindingSuccessResponse ++
    (toBeBytes 2 (messageBody attributes).length ++ (toBeBytes 4 magicCookie ++ transactionId.1)))
      attributes trailing hlen
  rw [hfront] at hbody
  simp only [List.append_assoc] at hbody
  rw [parseBindingResponse, if_neg (by rw [hresponse, headerLen]; omega), hkind, hlength, hcookie,
    htransaction]
  simp only [Option.bind_eq_bind, Option.bind_some, ne_eq, not_true_eq_false, if_false]
  rw [if_neg (by rw [hresponse, headerLen]; omega)]
  exact hbody

/-- **What a STUN server answers is read as it was written.**  No bytes make the
parser panic; an answer to this transaction gives the endpoint that its first
`XOR-MAPPED-ADDRESS` encodes, and it is refused if there is none or the first
one encodes no IPv4 endpoint. -/
theorem stun_response_parsed (transactionId : TransactionId) :
    (∀ response, ∃ r, parseBindingResponse response transactionId = some r) ∧
      ∀ attributes trailing, (messageBody attributes).length < 2 ^ 16 →
        (∀ attr ip port, attributes.find? (fun attr => attr.kind = xorMappedAddress) = some attr →
          EncodesV4 attr.value ip port →
          parseBindingResponse (successResponse transactionId attributes trailing) transactionId =
            some (.ok (.v4 ip port))) ∧
        ((∀ attr, attributes.find? (fun attr => attr.kind = xorMappedAddress) = some attr →
            ∀ ip port, ¬ EncodesV4 attr.value ip port) →
          ∃ e, parseBindingResponse (successResponse transactionId attributes trailing) transactionId =
            some (.error e)) := by
  refine ⟨fun response => ?_, fun attributes trailing hlen => ?_⟩
  · obtain ⟨e, h⟩ | ⟨ip, port, h⟩ := parseBindingResponse_yieldsV4 response transactionId
    · exact ⟨_, h⟩
    · exact ⟨_, h⟩
  · rw [parseBindingResponse_success transactionId attributes trailing hlen]
    refine ⟨fun attr ip port hfirst hvalue => ?_, fun hnone => ?_⟩
    · rw [hfirst]
      exact parseXorMappedAddress_of_encodes hvalue
    · cases hfirst : attributes.find? fun attr => attr.kind = xorMappedAddress with
      | none => exact ⟨_, rfl⟩
      | some attr => exact parseXorMappedAddress_error (hnone attr hfirst)

/-- An answer whose mapped address, `192.0.2.15:54321`, stands after an
attribute of odd length. -/
theorem stun_response_parsed_after_software :
    parseBindingResponse (successResponse ⟨List.replicate 12 7, rfl⟩
        [⟨0x8022, [110, 98, 49], [0], by decide, rfl⟩,
          ⟨xorMappedAddress, [0, 1, 0xf5, 0x23, 0xe1, 0x12, 0xa6, 0x4d], [], by decide, rfl⟩] [255])
      ⟨List.replicate 12 7, rfl⟩ = some (.ok (.v4 ⟨192, 0, 2, 15⟩ 54321)) :=
  ((stun_response_parsed _).2 _ _ (by decide)).1 _ _ _ rfl ⟨0, [], by decide⟩

end NightBridge.Native
