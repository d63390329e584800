/-
# The STUN client

`crates/protocol-native-v1/src/stun.rs`: a binding request is sent to a server,
and the answer says under which address the server sees the socket.

An answer is a header of 20 bytes and attributes, each with a type, a length and
a value padded to a multiple of four.  Whoever answers chooses the bytes, so
every index is one that could be out of range: `none` is the panic that this
would be.  `parseBindingResponse_yieldsV4` says that there is none, and that an
accepted answer is an IPv4 address; its port may be any, also zero.
-/

import NightBridge.Native.Dto
import NightBridge.Data.SocketAddr

namespace NightBridge.Native

open Data

/-- `[u8; TRANSACTION_ID_LEN]`. -/
abbrev TransactionId := { bs : Bytes // bs.length = 12 }

def bindingSuccessResponse : ℕ := 0x0101
def xorMappedAddress : ℕ := 0x0020
def magicCookie : ℕ := 0x2112a442
def headerLen : ℕ := 20

def stunError {α : Type} (message : String) : Except NativeError α := .error (.transport message)

/-- `padded_attr_len`: `(len + 3) & !3`. -/
def paddedAttrLen (len : ℕ) : ℕ := (len + 3) / 4 * 4

/-! ### Indexing -/

/-- `u16::from_be_bytes([bs[i], bs[i + 1]])`. -/
def u16At (bs : Bytes) (i : ℕ) : Option ℕ := do return ofBeBytes [← bs[i]?, ← bs[i + 1]?]

/-- `u32::from_be_bytes` of four bytes from `i`. -/
def u32At (bs : Bytes) (i : ℕ) : Option ℕ := do
  return ofBeBytes [← bs[i]?, ← bs[i + 1]?, ← bs[i + 2]?, ← bs[i + 3]?]

/-- `&bs[i..j]`. -/
def bytesAt (bs : Bytes) (i j : ℕ) : Option Bytes :=
  if i ≤ j ∧ j ≤ bs.length then some (slice bs i (j - i)) else none

/-! ### Answers -/

def parseXorMappedAddress (attr : Bytes) : Option (Except NativeError SocketAddr) := do
  if attr.length < 8 then return stunError "STUN XOR-MAPPED-ADDRESS is truncated"
  if (← attr[1]?) ≠ 1 then return stunError "STUN XOR-MAPPED-ADDRESS must be IPv4"
  let xPort ← u16At attr 2
  let port := UInt16.ofNat xPort ^^^ UInt16.ofNat (magicCookie >>> 16)
  -- the bytes of the cookie
  let ip : Ipv4Addr := ⟨(← attr[4]?) ^^^ 0x21, (← attr[5]?) ^^^ 0x12,
    (← attr[6]?) ^^^ 0xa4, (← attr[7]?) ^^^ 0x42⟩
  return .ok (.v4 ip port)

/-- The loop over the attributes, from an offset up to the end of the message. -/
def parseAttributes (response : Bytes) (stop offset : ℕ) : Option (Except NativeError SocketAddr) :=
  if offset + 4 ≤ stop then do
    let attrType ← u16At response offset
    let attrLen ← u16At response (offset + 2)
    if offset + 4 + attrLen > stop then return stunError "STUN attribute is truncated"
    if attrType = xorMappedAddress then
      parseXorMappedAddress (← bytesAt response (offset + 4) (offset + 4 + attrLen))
    else parseAttributes response stop (offset + 4 + paddedAttrLen attrLen)
  else some (stunError "STUN response missing XOR-MAPPED-ADDRESS")
termination_by stop - offset

def parseBindingResponse (response : Bytes) (transactionId : TransactionId) :
    Option (Except NativeError SocketAddr) := do
  if response.length < headerLen then return stunError "STUN response is shorter than header"
  if (← u16At response 0) ≠ bindingSuccessResponse then
    return stunError "STUN response is not a binding success"
  let messageLen ← u16At response 2
  if response.length < headerLen + messageLen then return stunError "STUN response body is truncated"
  if (← u32At response 4) ≠ magicCookie then return stunError "STUN magic cookie mismatch"
  if (← bytesAt response 8 20) ≠ transactionId.1 then return stunError "STUN transaction id mismatch"
  parseAttributes response (headerLen + messageLen) headerLen

/-- The answer that says an IPv4 endpoint, with no other attribute
(`fixture_binding_success`). -/
def fixtureBindingSuccess (ip : Ipv4Addr) (port : UInt16) (transactionId : TransactionId) : Bytes :=
  let xPort := port ^^^ UInt16.ofNat (magicCookie >>> 16)
  let value : Bytes := [0, 1] ++ toBeBytes 2 xPort.toNat ++
    [ip.a ^^^ 0x21, ip.b ^^^ 0x12, ip.c ^^^ 0xa4, ip.d ^^^ 0x42]
  toBeBytes 2 bindingSuccessResponse ++ toBeBytes 2 12 ++ toBeBytes 4 magicCookie ++ transactionId.1 ++
    toBeBytes 2 xorMappedAddress ++ toBeBytes 2 value.length ++ value

/-! ### No index is out of range -/

theorem u16At_eq {bs : Bytes} {i : ℕ} (h : i + 2 ≤ bs.length) : ∃ n, u16At bs i = some n := by
  have h₀ : i < bs.length := by omega
  have h₁ : i + 1 < bs.length := by omega
  simp [u16At, h₀, h₁]

theorem u32At_eq {bs : Bytes} {i : ℕ} (h : i + 4 ≤ bs.length) : ∃ n, u32At bs i = some n := by
  have h₀ : i < bs.length := by omega
  have h₁ : i + 1 < bs.length := by omega
  have h₂ : i + 2 < bs.length := by omega
  have h₃ : i + 3 < bs.length := by omega
  simp [u32At, h₀, h₁, h₂, h₃]

theorem bytesAt_eq {bs : Bytes} {i j : ℕ} (hij : i ≤ j) (hj : j ≤ bs.length) :
    bytesAt bs i j = some (slice bs i (j - i)) := if_pos ⟨hij, hj⟩

/-- It ends without a panic, in an error or an IPv4 address. -/
def YieldsV4 (r : Option (Except NativeError SocketAddr)) : Prop :=
  (∃ e, r = some (.error e)) ∨ ∃ ip port, r = some (.ok (.v4 ip port))

theorem yieldsV4_error (e : NativeError) : YieldsV4 (some (.error e)) := .inl ⟨e, rfl⟩

theorem parseXorMappedAddress_yieldsV4 (attr : Bytes) : YieldsV4 (parseXorMappedAddress attr) := by
  rw [parseXorMappedAddress]
  by_cases hlen : attr.length < 8
  · rw [if_pos hlen]
    exact yieldsV4_error _
  obtain ⟨xPort, hport⟩ := u16At_eq (show 2 + 2 ≤ attr.length by omega)
  have hget (i : ℕ) (hi : i < 8) : ∃ b, attr[i]? = some b := ⟨_, List.getElem?_eq_getElem (by omega)⟩
  obtain ⟨b₁, h₁⟩ := hget 1 (by decide)
  obtain ⟨b₄, h₄⟩ := hget 4 (by decide)
  obtain ⟨b₅, h₅⟩ := hget 5 (by decide)
  obtain ⟨b₆, h₆⟩ := hget 6 (by decide)
  obtain ⟨b₇, h₇⟩ := hget 7 (by decide)
  simp only [hlen, hport, h₁, h₄, h₅, h₆, h₇, Option.bind_eq_bind, Option.bind_some, if_false]
  split_ifs
  · exact yieldsV4_error _
  · exact .inr ⟨_, _, rfl⟩

/-- **Every attribute the loop reads lies in the message.** -/
theorem parseAttributes_yieldsV4 {response : Bytes} {stop : ℕ} (hstop : stop ≤ response.length)
    (offset : ℕ) :
    YieldsV4 (parseAttributes response stop offset) := by
  fun_induction parseAttributes response stop offset with
  | case1 offset hle ih =>
    obtain ⟨attrType, htype⟩ := u16At_eq (show offset + 2 ≤ response.length by omega)
    obtain ⟨attrLen, hlen⟩ := u16At_eq (show offset + 2 + 2 ≤ response.length by omega)
    simp only [htype, hlen, Option.bind_eq_bind, Option.bind_some]
    split_ifs with hlong hmapped
    · exact yieldsV4_error _
    · rw [bytesAt_eq (by omega) (by omega)]
      exact parseXorMappedAddress_yieldsV4 _
    · exact ih attrLen
  | case2 => exact yieldsV4_error _

/-- **No answer makes the parser panic**, and one it accepts is an IPv4 address. -/
theorem parseBindingResponse_yieldsV4 (response : Bytes) (transactionId : TransactionId) :
    YieldsV4 (parseBindingResponse response transactionId) := by
  rw [parseBindingResponse]
  by_cases hheader : response.length < headerLen
  · rw [if_pos hheader]
    exact yieldsV4_error _
  have hlen : 20 ≤ response.length := Nat.not_lt.mp hheader
  obtain ⟨messageType, htype⟩ := u16At_eq (show 0 + 2 ≤ response.length by omega)
  obtain ⟨messageLen, hmessage⟩ := u16At_eq (show 2 + 2 ≤ response.length by omega)
  obtain ⟨cookie, hcookie⟩ := u32At_eq (show 4 + 4 ≤ response.length by omega)
  have hid := bytesAt_eq (show 8 ≤ 20 by decide) hlen
  simp only [hheader, htype, hmessage, hcookie, hid, Option.bind_eq_bind, Option.bind_some, if_false]
  split_ifs with htype' hbody hcookie' hid'
  · exact yieldsV4_error _
  · exact yieldsV4_error _
  · exact yieldsV4_error _
  · exact yieldsV4_error _
  · exact parseAttributes_yieldsV4 (Nat.not_lt.mp hbody) _

/-! ### Asking a server -/

/-- What the operating system answers while one server is asked, and the random
transaction id.  `recvFrom` is `none` if nothing arrives in time. -/
structure StunAttempt where
  bind : Except IoError Unit
  transactionId : TransactionId
  sendTo : Except IoError Unit
  recvFrom : Option (Except IoError Bytes)

def discoverServerReflexiveCandidate (localPort : UInt16) (attempt : StunAttempt) :
    Option (Except NativeError SocketAddr) :=
  if localPort = 0 then some (stunError "STUN local port must be greater than zero")
  else match attempt.bind, attempt.sendTo, attempt.recvFrom with
    | .error e, _, _ => some (.error (.io e))
    | .ok (), .error e, _ => some (.error (.io e))
    | .ok (), .ok (), none => some (stunError "STUN binding request timed out")
    | .ok (), .ok (), some (.error e) => some (.error (.io e))
    -- the buffer holds 1500 bytes, and the rest of a longer datagram is lost
    | .ok (), .ok (), some (.ok datagram) =>
        parseBindingResponse (datagram.take 1500) attempt.transactionId

/-- A server that answers with an IPv4 endpoint, to run the model with. -/
def StunAttempt.sample (ip : Ipv4Addr) (port : UInt16) : StunAttempt :=
  let transactionId : TransactionId := ⟨List.replicate 12 7, rfl⟩
  ⟨.ok (), transactionId, .ok (), some (.ok (fixtureBindingSuccess ip port transactionId))⟩

theorem discoverServerReflexiveCandidate_yieldsV4 (localPort : UInt16) (attempt : StunAttempt) :
    YieldsV4 (discoverServerReflexiveCandidate localPort attempt) := by
  rw [discoverServerReflexiveCandidate]
  split_ifs
  · exact yieldsV4_error _
  · split
    case h_5 => exact parseBindingResponse_yieldsV4 _ _
    all_goals exact yieldsV4_error _

end NightBridge.Native
