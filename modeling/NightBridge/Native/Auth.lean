/-
# Proof of possession in the handshake

`crates/protocol-native-v1/src/auth.rs` and
`crates/core/src/identity/keypair.rs`.  A `Hello` carries a signature, by the
key it claims, over a constant context, that key and the channel binding of the
connection.  The three parts are put one after the other with nothing between
them; they can be told apart again because the first two have a fixed length
(`identityProofMessage_inj`).
-/

import NightBridge.Native.Framing

namespace NightBridge.Native

open Data Effect

def identityProofContext : Bytes := utf8 "nightbridge-native-identity-proof-v1"

structure Keypair where
  secretBytes : Bytes32
  deriving DecidableEq

section auth

variable [Primitives]

def Keypair.publicBytes (keypair : Keypair) : Bytes32 :=
  Primitives.verifyingKey keypair.secretBytes

def Keypair.sign (keypair : Keypair) (message : Bytes) : Bytes64 :=
  Primitives.sign keypair.secretBytes message

def identityProofMessage (peerPubkey : Bytes32) (channelBinding : Bytes) : Bytes :=
  identityProofContext ++ peerPubkey.1 ++ channelBinding

def signIdentityProof (keypair : Keypair) (channelBinding : Bytes) : Bytes :=
  (keypair.sign (identityProofMessage keypair.publicBytes channelBinding)).1

/-- `Signature::from_slice`. -/
def signatureFromSlice (bytes : Bytes) : Except String Bytes64 :=
  if h : bytes.length = 64 then .ok ⟨bytes, h⟩ else .error "signature error"

def verifyIdentityProof (peerPubkey : Bytes32) (channelBinding signatureBytes : Bytes) :
    Except NativeError Unit :=
  match signatureFromSlice signatureBytes with
  | .error e => .error (.crypto ("invalid identity proof signature: " ++ e))
  | .ok signature =>
    match Primitives.fromBytes peerPubkey with
    | .error e => .error (.crypto ("invalid peer public key: " ++ e))
    | .ok () =>
      match Primitives.verifyStrict peerPubkey (identityProofMessage peerPubkey channelBinding)
          signature with
      | .error e => .error (.crypto ("identity proof verification failed: " ++ e))
      | .ok () => .ok ()

def buildAuthenticatedHello (keypair : Keypair) (nodeAlias : String) (nonce : Bytes)
    (extensions : List String) (channelBinding : Bytes) : Hello where
  protocolVersion := protocolVersion
  nodeAlias
  pubkey := keypair.publicBytes
  nonce
  extensions
  identityProof := signIdentityProof keypair channelBinding

def authenticateHello (hello : Hello) (channelBinding : Bytes) : Except NativeError Unit :=
  verifyIdentityProof hello.pubkey channelBinding hello.identityProof

def connectionChannelBinding : Io NativeError Bytes32 :=
  .call .exportKeyingMaterial fun
    | .ok binding => .ret binding
    | .error () => .fail (.crypto "failed to export channel binding from QUIC session")

def randomSessionNonce : Io AnyError Bytes := .call .randomNonce .ret

omit [Primitives] in
/-- **The signed message determines its parts.** -/
theorem identityProofMessage_inj {pk pk' : Bytes32} {b b' : Bytes}
    (h : identityProofMessage pk b = identityProofMessage pk' b') : pk = pk' ∧ b = b' := by
  rw [identityProofMessage, identityProofMessage, List.append_assoc, List.append_assoc] at h
  obtain ⟨hpk, hb⟩ := List.append_inj (List.append_cancel_left h) (by rw [pk.2, pk'.2])
  exact ⟨Subtype.ext hpk, hb⟩

/-- **What `authenticate_hello` accepts**, exactly. -/
theorem authenticateHello_eq_ok_iff {hello : Hello} {binding : Bytes} :
    authenticateHello hello binding = .ok () ↔
      Primitives.fromBytes hello.pubkey = .ok () ∧
        ∃ signature : Bytes64, signature.1 = hello.identityProof ∧
          Primitives.verifyStrict hello.pubkey (identityProofMessage hello.pubkey binding)
            signature = .ok () := by
  rw [authenticateHello, verifyIdentityProof, signatureFromSlice]
  by_cases hlen : hello.identityProof.length = 64
  · have hsig : (∃ signature : Bytes64, signature.1 = hello.identityProof ∧
        Primitives.verifyStrict hello.pubkey (identityProofMessage hello.pubkey binding)
          signature = .ok ()) ↔
        Primitives.verifyStrict hello.pubkey (identityProofMessage hello.pubkey binding)
          ⟨hello.identityProof, hlen⟩ = .ok () := by
      constructor
      · rintro ⟨⟨_, _⟩, rfl, hv⟩
        exact hv
      · exact fun hv => ⟨_, rfl, hv⟩
    rw [dif_pos hlen, hsig]
    dsimp only
    cases Primitives.fromBytes hello.pubkey with
    | error e => simp
    | ok u =>
      cases Primitives.verifyStrict hello.pubkey (identityProofMessage hello.pubkey binding)
        ⟨hello.identityProof, hlen⟩ <;> simp
  · rw [dif_neg hlen]
    simp only [reduceCtorEq, false_iff, not_and, not_exists]
    intro _ signature hs _
    exact hlen (hs ▸ signature.2)

end auth

end NightBridge.Native
