/-
# Identity proofs cannot be relayed

A network of honest keys, connections and an adversary.  An honest key signs
through `build_authenticated_hello` only, for the binding of some connection.
The adversary sees every `Hello` and starts connections with any bytes it likes,
but for one thing: a proof it puts into a `Hello` is one it has seen, or one
that no honest key made.

That signatures are ideal is `SymbolicSignatures`: a signature tells who signed
what, and a key verifies only what it signed.  A scheme of that kind is `tagged`
below, so the assumption can be met.
-/

import NightBridge.Daemon.Gate
import Mathlib.Logic.Relation

namespace NightBridge.Daemon

open Data Effect Native

section network

variable [Primitives]

/-- Ideal signatures, as far as honest keys are concerned: each signature was
made by one key for one message (or by nobody), and verifies for these only. -/
structure SymbolicSignatures (honest : Set Keypair) where
  /-- Who made the signature, and for what message. -/
  made : Bytes64 → Option (Bytes32 × Bytes)
  verified : ∀ k ∈ honest, ∀ message signature,
    Primitives.verifyStrict k.publicBytes message signature = .ok () →
      made signature = some (k.publicBytes, message)
  signed : ∀ k ∈ honest, ∀ binding : Bytes32,
    made (k.sign (identityProofMessage k.publicBytes binding.1)) =
      some (k.publicBytes, identityProofMessage k.publicBytes binding.1)

/-- What has happened: the `Hello`s that holders of honest keys built, each for a
connection, and the bytes that connections were started with. -/
structure Network (Conn : Type) where
  built : List (Keypair × Conn × Hello)
  delivered : List (Conn × Bytes)

/-- The network before anything has happened. -/
def Network.idle (Conn : Type) : Network Conn := ⟨[], []⟩

variable {honest : Set Keypair} {Conn : Type}

/-- What the adversary can use as a proof: one it has seen, or bytes that are not a
signature of an honest key. -/
def Derivable (signatures : SymbolicSignatures honest) (built : List (Keypair × Conn × Hello))
    (proof : Bytes) : Prop :=
  (∃ e ∈ built, e.2.2.identityProof = proof) ∨
    ∀ signature : Bytes64, signature.1 = proof → ∀ k ∈ honest, ∀ message,
      signatures.made signature ≠ some (k.publicBytes, message)

variable [Serde]

/-- One event on the network. -/
inductive NetworkStep (signatures : SymbolicSignatures honest) (binding : Conn → Bytes32) :
    Network Conn → Network Conn → Prop
  -- a holder of an honest key builds a `Hello` for a connection
  | build {net : Network Conn} {k : Keypair} (hk : k ∈ honest) (nodeAlias : String) (nonce : Bytes)
      (extensions : List String) (c : Conn) :
      NetworkStep signatures binding net { net with
        built := (k, c, buildAuthenticatedHello k nodeAlias nonce extensions (binding c).1)
          :: net.built }
  -- the adversary starts a connection, with a `Hello` or with anything else
  | deliver {net : Network Conn} (c : Conn) (inp : Bytes)
      (h : ∀ hello first more, inp = first ++ more → IsControlFrame (.hello hello) first →
        Derivable signatures net.built hello.identityProof) :
      NetworkStep signatures binding net { net with delivered := (c, inp) :: net.delivered }

variable {signatures : SymbolicSignatures honest} {binding : Conn → Bytes32} {net net' : Network Conn}

/-- What holds of a network at any time. -/
structure Network.Wf (signatures : SymbolicSignatures honest) (binding : Conn → Bytes32)
    (net : Network Conn) : Prop where
  built : ∀ e ∈ net.built, e.1 ∈ honest ∧
    e.2.2.identityProof = signIdentityProof e.1 (binding e.2.1).1
  delivered : ∀ d ∈ net.delivered, ∀ hello first more, d.2 = first ++ more →
    IsControlFrame (.hello hello) first → Derivable signatures net.built hello.identityProof

omit [Serde] in
theorem Derivable.mono {built built' : List (Keypair × Conn × Hello)} {proof : Bytes}
    (h : built ⊆ built') (hd : Derivable signatures built proof) : Derivable signatures built' proof :=
  hd.imp (fun ⟨e, he, hproof⟩ => ⟨e, h he, hproof⟩) fun hn => hn

theorem NetworkStep.wf (hstep : NetworkStep signatures binding net net')
    (h : net.Wf signatures binding) : net'.Wf signatures binding := by
  cases hstep with
  | build hk nodeAlias nonce extensions c =>
    refine ⟨fun e he => ?_, fun d hd hello first more hinp hframe => ?_⟩
    · rcases List.mem_cons.mp he with rfl | he
      · exact ⟨hk, rfl⟩
      · exact h.built e he
    · exact (h.delivered d hd hello first more hinp hframe).mono (List.subset_cons_self _ _)
  | deliver c inp hderivable =>
    refine ⟨h.built, fun d hd => ?_⟩
    rcases List.mem_cons.mp hd with rfl | hd
    · exact hderivable
    · exact h.delivered d hd

theorem wf_of_reachable
    (hreach : Relation.ReflTransGen (NetworkStep signatures binding) (.idle Conn) net) :
    net.Wf signatures binding := by
  induction hreach with
  | refl => exact ⟨by simp [Network.idle], by simp [Network.idle]⟩
  | tail _ hstep ih => exact hstep.wf ih

omit [Serde] in
/-- **A proof that an honest key verifies was made for the same connection.** -/
theorem built_of_derivable {hello : Hello} {c : Conn} (hinj : Function.Injective binding)
    (hbuilt : ∀ e ∈ net.built, e.1 ∈ honest ∧
      e.2.2.identityProof = signIdentityProof e.1 (binding e.2.1).1)
    (hderivable : Derivable signatures net.built hello.identityProof)
    (hauth : authenticateHello hello (binding c).1 = .ok ()) {k : Keypair} (hk : k ∈ honest)
    (hpk : k.publicBytes = hello.pubkey) :
    ∃ e ∈ net.built, e.1.publicBytes = hello.pubkey ∧ e.2.1 = c := by
  obtain ⟨-, signature, hsignature, hverify⟩ := authenticateHello_eq_ok_iff.mp hauth
  rw [← hpk] at hverify
  have hmade := signatures.verified k hk _ _ hverify
  rcases hderivable with ⟨⟨k', c', hello'⟩, he, hproof⟩ | hforeign
  · obtain ⟨hk', hsigned⟩ := hbuilt _ he
    have hsame : signature = k'.sign (identityProofMessage k'.publicBytes (binding c').1) :=
      Subtype.ext (hsignature.trans (hproof.symm.trans hsigned))
    rw [hsame, signatures.signed k' hk' (binding c')] at hmade
    obtain ⟨hpk', hbinding⟩ := identityProofMessage_inj (congrArg Prod.snd (Option.some.inj hmade))
    exact ⟨_, he, hpk'.trans hpk, hinj (Subtype.ext hbinding)⟩
  · exact absurd hmade (hforeign signature hsignature k hk _)

omit [Serde] in
/-- The call that comes right after `authenticate_hello` opens the trust store. -/
theorem next?_ensureNativePeerTrusted (trustDbPath : String) (hello : Hello) :
    (ensureNativePeerTrusted trustDbPath (peerOf hello)).next? = some .openTrust := by
  rw [ensureNativePeerTrusted, peerOf, Core.Fingerprint.fromStr_display]
  rfl

/-- **Proofs cannot be relayed or replayed.**  When a connection has got past
`authenticate_hello`, it was started with a `Hello`; if that claims an honest key,
then the holder of the key built a `Hello` for this very connection. -/
theorem hello_built_for_connection (hinj : Function.Injective binding)
    (hreach : Relation.ReflTransGen (NetworkStep signatures binding) (.idle Conn) net)
    {c : Conn} {inp out : Bytes} (hdelivered : (c, inp) ∈ net.delivered)
    {nodeAlias : String} {pubkey : Bytes32} {inboxDir : Path} {trustDbPath manifestPath : String}
    {seen : List (Prog.Seen Op Resp Store)} {k : Resp .openTrust → Io AnyError Unit} {w' : Wire}
    (hrun : (handleNativeConnection nodeAlias pubkey inboxDir trustDbPath manifestPath).Open exec
      ⟨inp, out, binding c⟩ seen (.call .openTrust k) w') :
    ∃ hello first more, inp = first ++ more ∧ IsControlFrame (.hello hello) first ∧
      authenticateHello hello (binding c).1 = .ok () ∧
      ∀ holder ∈ honest, holder.publicBytes = hello.pubkey →
        ∃ e ∈ net.built, e.1.publicBytes = hello.pubkey ∧ e.2.1 = c := by
  obtain ⟨hguarded, -⟩ := hrun.wp (wp_handleNativeConnection nodeAlias pubkey inboxDir trustDbPath
    manifestPath)
  obtain ⟨hello, hproved⟩ := hguarded.1 rfl
  obtain ⟨⟨first, more, hinp, hframe⟩, hauth⟩ := hproved.onWire hrun
  have hwf := wf_of_reachable hreach
  refine ⟨hello, first, more, hinp, hframe, hauth, fun holder hholder hpk => ?_⟩
  exact built_of_derivable hinj hwf.built (hwf.delivered _ hdelivered hello first more hinp hframe)
    hauth hholder hpk

end network

/-! ### A scheme with ideal signatures

A signature on an identity proof is the key and the binding themselves. -/

/-- Functions with such signatures. -/
@[reducible] def tagged : Primitives where
  __ := Primitives.sample
  sign secret message := ⟨secret.1 ++ (Bytes32.pad (message.drop 68)).1, by
    rw [List.length_append, secret.2, (Bytes32.pad _).2]⟩
  verifyStrict pk message signature :=
    if signature.1.take 32 = pk.1 ∧ message = identityProofMessage pk (signature.1.drop 32) then .ok ()
    else .error "signature error"

theorem drop_identityProofMessage (pk binding : Bytes32) :
    (identityProofMessage pk binding.1).drop 68 = binding.1 := by
  have hlen : (identityProofContext ++ pk.1).length = 68 := by
    rw [List.length_append, pk.2]
    decide
  rw [identityProofMessage, List.drop_append_of_le_length hlen.ge, ← hlen, List.drop_length,
    List.nil_append]

theorem pad_eq (bytes : Bytes32) : Bytes32.pad bytes.1 = bytes :=
  Subtype.ext (List.take_left' bytes.2)

/-- Its signatures are ideal. -/
def taggedSignatures : @SymbolicSignatures tagged Set.univ :=
  let _ := tagged
  { made signature := some (⟨signature.1.take 32, by simp [signature.2]⟩,
      identityProofMessage ⟨signature.1.take 32, by simp [signature.2]⟩ (signature.1.drop 32))
    verified := by
      intro k _ message signature h
      simp only [Primitives.verifyStrict] at h
      split_ifs at h with hs
      obtain ⟨hpk, rfl⟩ := hs
      simp only [hpk]
    signed := by
      intro k _ binding
      have htake : (k.sign (identityProofMessage k.publicBytes binding.1)).1.take 32 = k.secretBytes.1 :=
        List.take_left' k.secretBytes.2
      have hdrop : (k.sign (identityProofMessage k.publicBytes binding.1)).1.drop 32 = binding.1 := by
        refine (List.drop_left' k.secretBytes.2).trans ?_
        rw [drop_identityProofMessage, pad_eq]
      simp only [htake, hdrop]
      rfl }

/-- The bindings of two connections. -/
def twoBindings (c : Bool) : Bytes32 := .pad [if c then 1 else 0]

/-- The `Hello` the holder of the key `7` builds for the connection `true`. -/
def trueHello : Hello := @buildAuthenticatedHello tagged ⟨.pad [7]⟩ "peer" [] [] (twoBindings true).1

/-- Its frame, without the length. -/
def trueFrame : Bytes := 1 :: (ControlMessage.hello trueHello).json.bytes

def trueBytes : Bytes := toBeBytes 4 trueFrame.length ++ trueFrame

/-- A connection that was started with it, just past the check. -/
def trueRun : List (Prog.Seen Op Resp Store) × Prog Op Resp AnyError Unit × Wire :=
  Prog.drive exec .fresh 5 (@handleNativeConnection tagged (.table [.hello trueHello]) "daemon" (.pad [])
    ["inbox"] "trust" "manifest") ⟨trueBytes, [], twoBindings true⟩

theorem hello_built_for_connection_true :
    @authenticateHello tagged trueHello (twoBindings true).1 = .ok () ∧
    ∃ hello first more, trueBytes = first ++ more ∧
      @IsControlFrame (.table [.hello trueHello]) (.hello hello) first ∧
      @authenticateHello tagged hello (twoBindings true).1 = .ok () ∧
      ∀ holder ∈ (Set.univ : Set Keypair), @Keypair.publicBytes tagged holder = hello.pubkey →
        ∃ e ∈ [((⟨.pad [7]⟩ : Keypair), true, trueHello)],
          @Keypair.publicBytes tagged e.1 = hello.pubkey ∧ e.2.1 = true := by
  let _ : Primitives := tagged
  let _ : Serde := .table [.hello trueHello]
  refine ⟨by decide +kernel, ?_⟩
  have hnext : trueRun.2.1.next? = some .openTrust := by decide +kernel
  obtain ⟨k, hrun⟩ := Prog.open_drive_call trueRun.eq_1 hnext
  have hframe : ∀ hello first more, trueBytes = first ++ more →
      IsControlFrame (.hello hello) first → hello = trueHello := by
    rintro hello _ more hinp ⟨head, frame, rfl, hhead, hlen, -, -, hdecode⟩
    have hlength : ofBeBytes (toBeBytes 4 trueFrame.length) = trueFrame.length := by decide +kernel
    obtain ⟨rfl, hrest⟩ := List.append_inj (hinp.trans (List.append_assoc ..))
      ((length_toBeBytes _ _).trans hhead.symm)
    obtain ⟨rfl, -⟩ := List.append_inj ((List.append_nil _).trans hrest) (hlength.symm.trans hlen.symm)
    have hread : decodeFrame trueFrame = .ok (.hello trueHello) := by decide +kernel
    rw [hread] at hdecode
    exact (ControlMessage.hello.inj (Except.ok.inj hdecode)).symm
  have hreach : Relation.ReflTransGen (NetworkStep taggedSignatures twoBindings) (.idle Bool)
      ⟨[(⟨.pad [7]⟩, true, trueHello)], [(true, trueBytes)]⟩ :=
    .tail (.tail .refl (.build (Set.mem_univ _) "peer" [] [] true))
      (.deliver true _ fun hello first more hinp hf =>
      .inl ⟨_, List.mem_singleton_self _, by rw [hframe hello first more hinp hf]; rfl⟩)
  have hinj : Function.Injective twoBindings := by
    intro c c' h
    cases c <;> cases c' <;> first | rfl | exact absurd h (by decide)
  exact hello_built_for_connection hinj hreach (List.mem_singleton_self _) hrun

end NightBridge.Daemon
