/-
# Socket addresses

The socket addresses of the standard library of the source, and the text
`a.b.c.d:port` of those of IPv4.

Addresses are ordered as the derived order of the library's types has it:
`SocketAddr.key` is an address as a list of numbers, to be compared
lexicographically.  `displayV4` and `parseV4` are `Display` and `FromStr` of
`SocketAddrV4`; the parser takes four numbers below 256, of at most three digits
and without leading zeros, and a port of any number of digits.
-/

import NightBridge.Data.Bytes

namespace NightBridge.Data

/-- `Ipv4Addr`, by its octets. -/
structure Ipv4Addr where
  a : UInt8
  b : UInt8
  c : UInt8
  d : UInt8
  deriving DecidableEq, Repr

namespace Ipv4Addr

def localhost : Ipv4Addr := ⟨127, 0, 0, 1⟩

def isLoopback (self : Ipv4Addr) : Bool := self.a == 127

def isUnspecified (self : Ipv4Addr) : Bool := self == ⟨0, 0, 0, 0⟩

/-- `impl Display for Ipv4Addr`. -/
def display (self : Ipv4Addr) : String :=
  toString self.a.toNat ++ "." ++ toString self.b.toNat ++ "." ++ toString self.c.toNat ++ "." ++
    toString self.d.toNat

end Ipv4Addr

inductive SocketAddr
  | v4 (ip : Ipv4Addr) (port : UInt16)
  | v6 (ip : BitVec 128) (port : UInt16) (flowinfo scopeId : UInt32)
  deriving DecidableEq, Repr

namespace SocketAddr

def port : SocketAddr → UInt16
  | .v4 _ port => port
  | .v6 _ port _ _ => port

/-- The numbers the order of addresses compares, one after another. -/
def key : SocketAddr → List ℕ
  | .v4 ip port => [0, ip.a.toNat, ip.b.toNat, ip.c.toNat, ip.d.toNat, port.toNat]
  | .v6 ip port flowinfo scopeId => [1, ip.toNat, port.toNat, flowinfo.toNat, scopeId.toNat]

theorem key_injective : Function.Injective key := by
  rintro (⟨⟨a, b, c, d⟩, port⟩ | ⟨ip, port, flowinfo, scopeId⟩)
    (⟨⟨a', b', c', d'⟩, port'⟩ | ⟨ip', port', flowinfo', scopeId'⟩) h
  · simpa [key, UInt8.toNat_inj, UInt16.toNat_inj, and_assoc] using h
  · simp [key] at h
  · simp [key] at h
  · simpa [key, BitVec.toNat_inj, UInt16.toNat_inj, UInt32.toNat_inj] using h

end SocketAddr

/-! ### The text of an IPv4 endpoint -/

def decimal (n : ℕ) : List Char := Nat.toDigits 10 n

/-- The number that digits stand for, if it is below a bound. -/
def readNumber (bound : ℕ) (cs : List Char) : Option ℕ :=
  if cs ≠ [] ∧ cs.all Char.isDigit ∧ Nat.ofDigitChars 10 cs 0 < bound then some
    (Nat.ofDigitChars 10 cs 0)
  else none

/-- One number of an IPv4 address. -/
def readOctet (cs : List Char) : Option UInt8 :=
  if cs.length ≤ 3 ∧ (cs.head? = some '0' → cs.length = 1) then (readNumber 256 cs).map UInt8.ofNat
  else none

def displayIp (ip : Ipv4Addr) : List Char :=
  ['.'].intercalate [decimal ip.a.toNat, decimal ip.b.toNat, decimal ip.c.toNat, decimal ip.d.toNat]

def parseIp (cs : List Char) : Option Ipv4Addr :=
  match cs.splitOn '.' with
  | [a, b, c, d] => do return ⟨← readOctet a, ← readOctet b, ← readOctet c, ← readOctet d⟩
  | _ => none

/-- `SocketAddrV4`'s `Display`. -/
def displayV4 (ip : Ipv4Addr) (port : UInt16) : String :=
  String.ofList ([':'].intercalate [displayIp ip, decimal port.toNat])

/-- `SocketAddrV4::from_str`. -/
def parseV4 (text : String) : Option SocketAddr :=
  match text.toList.splitOn ':' with
  | [ip, port] => do return .v4 (← parseIp ip) (UInt16.ofNat (← readNumber 65536 port))
  | _ => none

theorem readNumber_decimal {bound n : ℕ} (h : n < bound) : readNumber bound (decimal n) = some n := by
  have hdigits : (decimal n).all Char.isDigit := List.all_eq_true.mpr fun c hc =>
    Nat.isDigit_of_mem_toDigits (by decide) (by decide) hc
  rw [readNumber, decimal, Nat.ofDigitChars_ten_toDigits, if_pos ⟨Nat.toDigits_ne_nil, hdigits, h⟩]

theorem not_mem_decimal {c : Char} (hc : c.isDigit = false) (n : ℕ) : c ∉ decimal n := by
  intro hmem
  rw [Nat.isDigit_of_mem_toDigits (by decide) (by decide) hmem] at hc
  cases hc

theorem readOctet_decimal (b : UInt8) : readOctet (decimal b.toNat) = some b := by
  have hall : ∀ n : Fin 256, (decimal n).length ≤ 3 ∧
    ((decimal n).head? = some '0' → (decimal n).length = 1) := by
    decide +kernel
  rw [readOctet, if_pos (hall ⟨b.toNat, b.toNat_lt⟩), readNumber_decimal b.toNat_lt]
  simp

theorem parseIp_displayIp (ip : Ipv4Addr) : parseIp (displayIp ip) = some ip := by
  have hfields : (displayIp ip).splitOn '.' =
      [decimal ip.a.toNat, decimal ip.b.toNat, decimal ip.c.toNat, decimal ip.d.toNat] := by
    refine List.splitOn_intercalate '.' (fun field hfield => ?_) (by simp)
    simp only [List.mem_cons, List.not_mem_nil, or_false] at hfield
    rcases hfield with rfl | rfl | rfl | rfl <;> exact not_mem_decimal (by decide) _
  simp [parseIp, hfields, readOctet_decimal]

theorem colon_not_mem_displayIp (ip : Ipv4Addr) : ':' ∉ displayIp ip := by
  have hcolon (n : ℕ) : ':' ∉ decimal n := not_mem_decimal (by decide) n
  simp [displayIp, List.intercalate, hcolon]

/-- **An IPv4 endpoint is read back from its text.** -/
theorem parseV4_displayV4 (ip : Ipv4Addr) (port : UInt16) :
    parseV4 (displayV4 ip port) = some (.v4 ip port) := by
  have hfields : (displayV4 ip port).toList.splitOn ':' = [displayIp ip, decimal port.toNat] := by
    rw [displayV4, String.toList_ofList]
    refine List.splitOn_intercalate ':' (fun field hfield => ?_) (by simp)
    simp only [List.mem_cons, List.not_mem_nil, or_false] at hfield
    rcases hfield with rfl | rfl
    · exact colon_not_mem_displayIp ip
    · exact not_mem_decimal (by decide) _
  simp [parseV4, hfields, parseIp_displayIp, readNumber_decimal port.toNat_lt]

example : displayV4 .localhost 53400 = "127.0.0.1:53400" := by decide +kernel

end NightBridge.Data
