/-
# Advertisements of native peers

`crates/protocol-native-v1/src/discovery.rs`: how a peer is written into the TXT
properties of an mDNS service and read back (`txt_round_trip_iff`).

A `HashMap<String, String>` is a table of its entries.  Reading goes through
them in the order of the map's hasher, which is any, because two keys may become
one when they are lower-cased and the later entry wins.
-/

import NightBridge.Api.Lan
import NightBridge.Data.Fields

namespace NightBridge.Api

open Data Effect NightBridge.Core NightBridge.Native

/-- `HashMap<String, String>`. -/
abbrev Properties := Table (String × String) Prod.fst

/-- The hasher of a map, as the order in which the map is iterated. -/
structure RandomState where
  iter : Properties → Properties
  perm : ∀ properties, (iter properties).rows.Perm properties.rows

/-- A hasher that keeps the order of insertion, to run the model with. -/
def RandomState.sample : RandomState := ⟨id, fun _ => .refl _⟩

def txtAlias : String := "alias"
def txtFingerprint : String := "fingerprint"
def txtPubkey : String := "pubkey"
def txtQuicPort : String := "quic_port"
def txtNativeCertificateFingerprint : String := "native_cert_fp"
def txtExtensions : String := "extensions"

def discoveryError {α : Type} (message : String) : Except NativeError α := .error (.protocol message)

/-! ### The checks -/

def isAscii (s : String) : Bool := s.toList.all fun c => c.toNat < 128

def validateTxtValue (field value : String) : Except NativeError Unit :=
  let value := trim value
  if value = "" then discoveryError (field ++ " is required")
  else if isAscii value = false then discoveryError (field ++ " must be ASCII")
  else if 255 < (utf8 value).length then discoveryError (field ++ " must fit in one TXT record")
  else .ok ()

def validateQuicPort (port : ℕ) : Except NativeError Unit :=
  if port = 0 then discoveryError "quic_port must be non-zero" else .ok ()

def isAsciiUppercase (c : Char) : Bool := 65 ≤ c.toNat && c.toNat ≤ 90

def validateCertificateFingerprint (value : String) : Except NativeError Unit :=
  if (utf8 value).length = 64 ∧
      value.toList.all (fun ch => isAsciiHexdigit ch && !isAsciiUppercase ch) = true then .ok ()
  else discoveryError "native certificate fingerprint must be 64 lowercase hex characters"

/-- The loop body of `validate_extensions`. -/
def validateExtension (extension : String) : Except NativeError Unit :=
  let extension := trim extension
  if extension = "" then discoveryError "extension value is required"
  else if isAscii extension = false ∨ ',' ∈ extension.toList ∨ 64 < (utf8 extension).length then
    discoveryError ("invalid extension: " ++ extension)
  else .ok ()

def validateExtensions : List String → Except NativeError Unit
  | [] => .ok ()
  | extension :: extensions => do
    validateExtension extension
    validateExtensions extensions

def validatePeerInfo (info : NativePeerInfo) : Except NativeError Unit := do
  validateTxtValue txtAlias info.nodeAlias
  validateTxtValue txtFingerprint info.fingerprint
  validateQuicPort info.quicPort
  validateExtensions info.extensions

/-! ### Writing -/

/-- `join(",")`. -/
def joinComma (values : List String) : String :=
  String.ofList ([','].intercalate (values.map String.toList))

/-- `peer_info_to_txt_properties`; the public key is written by `encode_hex`. -/
def peerInfoToTxtProperties (info : NativePeerInfo) : Except NativeError Properties := do
  validatePeerInfo info
  let properties : Properties := Table.empty
  let properties := properties.replace (txtAlias, trim info.nodeAlias)
  let properties := properties.replace (txtFingerprint, trim info.fingerprint)
  let properties := properties.replace (txtPubkey, hex info.pubkey.1)
  let properties := properties.replace (txtQuicPort, String.ofList (decimal info.quicPort))
  match info.nativeCertificateFingerprint with
  | some fingerprint =>
    validateCertificateFingerprint fingerprint
    let properties := properties.replace (txtNativeCertificateFingerprint, fingerprint)
    return properties.replace (txtExtensions, joinComma info.extensions)
  | none => return properties.replace (txtExtensions, joinComma info.extensions)

/-! ### Reading -/

def parseExtensions (value : String) : Except NativeError (List String) := do
  let extensions := ((value.toList.splitOn ',').map fun field => trim (String.ofList field)).filter (· ≠ "")
  validateExtensions extensions
  return extensions

/-- `str::parse::<u16>`, which allows a sign. -/
def parseU16 (value : String) : Option ℕ :=
  match value.toList with
  | '+' :: digits => readNumber 65536 digits
  | digits => readNumber 65536 digits

def decodeQuicPort (value : String) : Except NativeError ℕ :=
  match parseU16 value with
  | none => discoveryError ("quic_port is invalid: " ++ value)
  | some port => do
    validateQuicPort port
    return port

def hexNibble (byte : UInt8) : Except NativeError ℕ :=
  match toDigit16 byte with
  | some n => .ok n
  | none => discoveryError "pubkey contains non-hex characters"

/-- The loop of `decode_pubkey`. -/
def decodePairs : Bytes → Except NativeError Bytes
  | a :: b :: rest => do
    let high ← hexNibble a
    let low ← hexNibble b
    let bytes ← decodePairs rest
    return UInt8.ofNat (16 * high + low) :: bytes
  | _ => .ok []

theorem length_decodePairs {n : ℕ} {bs xs : Bytes} (hn : bs.length = 2 * n) (h : decodePairs bs = .ok xs) :
    xs.length = n := by
  induction n generalizing bs xs with
  | zero =>
    obtain rfl := List.eq_nil_of_length_eq_zero hn
    cases h
    rfl
  | succ n ih =>
    obtain ⟨a, b, rest, rfl⟩ : ∃ a b rest, bs = a :: b :: rest := by
      rcases bs with _ | ⟨a, _ | ⟨b, rest⟩⟩
      · simp at hn
      · simp at hn
        omega
      · exact ⟨a, b, rest, rfl⟩
    rw [decodePairs] at h
    cases ha : hexNibble a with
    | error e => rw [ha] at h; cases h
    | ok high =>
      cases hb : hexNibble b with
      | error e => rw [ha, hb] at h; cases h
      | ok low =>
        cases hr : decodePairs rest with
        | error e => rw [ha, hb, hr] at h; cases h
        | ok bytes =>
          rw [ha, hb, hr] at h
          cases h
          have hrest : rest.length = 2 * n := by simp at hn; omega
          rw [List.length_cons, ih hrest hr]

def decodePubkey (value : String) : Except NativeError Bytes32 :=
  if h : (utf8 value).length = 64 then
    match hp : decodePairs (utf8 value) with
    | .ok bytes => .ok ⟨bytes, length_decodePairs h hp⟩
    | .error e => .error e
  else discoveryError "pubkey must be 64 hex characters"

def asciiLowercase (s : String) : String := String.ofList (s.toList.map toAsciiLowercase)

/-- `normalized_properties`, of a map in the order in which it is iterated. -/
def normalizedProperties (properties : Properties) : Properties :=
  properties.rows.foldl (fun acc entry => acc.replace (asciiLowercase entry.1, trim entry.2)) .empty

def requiredProperty (properties : Properties) (key : String) : Except NativeError String :=
  match properties.find? key with
  | some (_, value) => if trim value = "" then discoveryError (key ++ " is required") else .ok value
  | none => discoveryError (key ++ " is required")

/-- The certificate fingerprint, which need not be there. -/
def certificateProperty (properties : Properties) : Except NativeError (Option String) :=
  match properties.find? txtNativeCertificateFingerprint with
  | some (_, value) => do
    validateCertificateFingerprint value
    return some value
  | none => .ok none

/-- `peer_info_from_txt_properties`, of a map in the order in which it is
iterated. -/
def peerInfoFromTxtProperties (properties : Properties) : Except NativeError NativePeerInfo := do
  let properties := normalizedProperties properties
  let nodeAlias ← requiredProperty properties txtAlias
  validateTxtValue txtAlias nodeAlias
  let fingerprint ← requiredProperty properties txtFingerprint
  validateTxtValue txtFingerprint fingerprint
  let pubkey ← decodePubkey (← requiredProperty properties txtPubkey)
  let quicPort ← decodeQuicPort (← requiredProperty properties txtQuicPort)
  let nativeCertificateFingerprint ← certificateProperty properties
  let extensions ← parseExtensions (← requiredProperty properties txtExtensions)
  return { nodeAlias, fingerprint, pubkey, quicPort, nativeCertificateFingerprint, extensions }

/-- Every field was read from its property and has passed its check. -/
structure ReadFrom (properties : Properties) (info : NativePeerInfo) : Prop where
  nodeAlias : requiredProperty properties txtAlias = .ok info.nodeAlias
  nodeAlias_valid : validateTxtValue txtAlias info.nodeAlias = .ok ()
  fingerprint : requiredProperty properties txtFingerprint = .ok info.fingerprint
  fingerprint_valid : validateTxtValue txtFingerprint info.fingerprint = .ok ()
  pubkey : ∃ text, requiredProperty properties txtPubkey = .ok text ∧ decodePubkey text = .ok info.pubkey
  quicPort : ∃ text, requiredProperty properties txtQuicPort = .ok text ∧
    decodeQuicPort text = .ok info.quicPort
  certificate : certificateProperty properties = .ok info.nativeCertificateFingerprint
  extensions : ∃ text, requiredProperty properties txtExtensions = .ok text ∧
    parseExtensions text = .ok info.extensions

/-- **What an advertisement that was read has.** -/
theorem readFrom_of_eq_ok {properties : Properties} {info : NativePeerInfo}
    (h : peerInfoFromTxtProperties properties = .ok info) :
    ReadFrom (normalizedProperties properties) info := by
  obtain ⟨_, halias, h⟩ := bind_eq_ok_iff.mp h
  obtain ⟨_, haliasValid, h⟩ := bind_eq_ok_iff.mp h
  obtain ⟨_, hfingerprint, h⟩ := bind_eq_ok_iff.mp h
  obtain ⟨_, hfingerprintValid, h⟩ := bind_eq_ok_iff.mp h
  obtain ⟨pubkey, hpubkey, h⟩ := bind_eq_ok_iff.mp h
  obtain ⟨_, hpubkeyText, h⟩ := bind_eq_ok_iff.mp h
  obtain ⟨port, hport, h⟩ := bind_eq_ok_iff.mp h
  obtain ⟨_, hportText, h⟩ := bind_eq_ok_iff.mp h
  obtain ⟨_, hcertificate, h⟩ := bind_eq_ok_iff.mp h
  obtain ⟨extensions, hextensions, h⟩ := bind_eq_ok_iff.mp h
  obtain ⟨_, hextensionsText, h⟩ := bind_eq_ok_iff.mp h
  cases h
  exact ⟨halias, haliasValid, hfingerprint, hfingerprintValid, ⟨pubkey, hpubkey, hpubkeyText⟩,
    ⟨port, hport, hportText⟩, hcertificate, ⟨extensions, hextensions, hextensionsText⟩⟩

/-! ### Looking a property up -/

theorem find?_iter (hasher : RandomState) (properties : Properties) (key : String) :
    (hasher.iter properties).find? key = properties.find? key := by
  ext entry
  rw [Table.find?_eq_some_iff, Table.find?_eq_some_iff, (hasher.perm properties).mem_iff]

/-- The last entry with a key wins, and there is only one. -/
theorem find?_foldl_replace {entries : List (String × String)} (hnodup : (entries.map Prod.fst).Nodup)
    (hlower : ∀ entry ∈ entries, asciiLowercase entry.1 = entry.1) (acc : Properties) (key : String) :
    (entries.foldl (fun acc entry => acc.replace (asciiLowercase entry.1, trim entry.2)) acc).find? key =
      ((entries.find? fun entry => entry.1 = key).map fun entry => (entry.1, trim entry.2)).or
        (acc.find? key) := by
  induction entries generalizing acc with
  | nil => rfl
  | cons entry entries ih =>
    rw [List.map_cons, List.nodup_cons] at hnodup
    rw [List.foldl_cons, ih hnodup.2 fun e he => hlower e (by simp [he]), Table.find?_replace,
      hlower entry (by simp), List.find?_cons]
    by_cases hkey : entry.1 = key
    · have hnone : (entries.find? fun e => e.1 = key) = none :=
        List.find?_eq_none.mpr fun e he hek => hnodup.1 (List.mem_map.mpr ⟨e, he, by
          rw [hkey]
          simpa using hek⟩)
      simp [hkey, hnone]
    · simp [hkey, Ne.symm hkey]

/-- **Lower-case keys are found after the normalization**, with their values
trimmed. -/
theorem find?_normalizedProperties {properties : Properties}
    (hlower : ∀ entry ∈ properties.rows, asciiLowercase entry.1 = entry.1) (key : String) :
    (normalizedProperties properties).find? key =
      (properties.find? key).map fun entry => (entry.1, trim entry.2) := by
  rw [normalizedProperties, find?_foldl_replace properties.nodup hlower]
  simp [Table.find?]

theorem requiredProperty_eq_ok {properties : Properties} {key value : String}
    (hfind : properties.find? key = some (key, value)) (hvalue : trim value ≠ "") :
    requiredProperty properties key = .ok value := by
  simp [requiredProperty, hfind, hvalue]

/-! ### Each field is read back -/

theorem toDigit16_hex : ∀ x < 16, toDigit16 (UInt8.ofNat (if x < 10 then 48 + x else 87 + x)) = some x := by
  decide

theorem decodePairs_hexChars (bs : Bytes) :
    decodePairs ((hexChars bs).flatMap String.utf8EncodeChar) = .ok bs := by
  induction bs with
  | nil => rfl
  | cons b bs ih =>
    have hb := b.toNat_lt
    have hhigh := toDigit16_hex (b.toNat / 16) (by omega)
    have hlow := toDigit16_hex (b.toNat % 16) (Nat.mod_lt _ (by decide))
    rw [Fingerprint.utf8_hexChars_cons, decodePairs, hexNibble, hexNibble, hhigh, hlow, ih]
    change Except.ok (UInt8.ofNat (16 * (b.toNat / 16) + b.toNat % 16) :: bs) = _
    rw [Nat.div_add_mod, UInt8.ofNat_toNat]

theorem decodePubkey_hex (pubkey : Bytes32) : decodePubkey (hex pubkey.1) = .ok pubkey := by
  have hbytes : utf8 (hex pubkey.1) = (hexChars pubkey.1).flatMap String.utf8EncodeChar := by
    rw [utf8, hex, String.toList_ofList]
  have hlen : (utf8 (hex pubkey.1)).length = 64 := by
    rw [hbytes, Fingerprint.length_utf8_hexChars, pubkey.2]
  have hpairs : decodePairs (utf8 (hex pubkey.1)) = .ok pubkey.1 := by
    rw [hbytes, decodePairs_hexChars]
  unfold decodePubkey
  rw [dif_pos hlen]
  split
  · rename_i bytes hp
    rw [hpairs] at hp
    cases hp
    rfl
  · rename_i e hp
    rw [hpairs] at hp
    cases hp

theorem decodeQuicPort_decimal {port : ℕ} (hpos : port ≠ 0) (hlt : port < 2 ^ 16) :
    decodeQuicPort (String.ofList (decimal port)) = .ok port := by
  have hplus : '+' ∉ decimal port := not_mem_decimal (by decide) port
  have hparse : parseU16 (String.ofList (decimal port)) = some port := by
    unfold parseU16
    rw [String.toList_ofList]
    split
    · rename_i digits heq
      rw [heq] at hplus
      exact absurd (List.mem_cons_self ..) hplus
    · exact readNumber_decimal hlt
  rw [decodeQuicPort, hparse]
  simp only [validateQuicPort, if_neg hpos]
  rfl

/-- What `validate_extensions` accepts of each extension. -/
def ValidExtension (extension : String) : Prop :=
  trim extension ≠ "" ∧ isAscii (trim extension) = true ∧ ',' ∉ (trim extension).toList ∧
    (utf8 (trim extension)).length ≤ 64

theorem validateExtension_eq_ok_iff {extension : String} :
    validateExtension extension = .ok () ↔ ValidExtension extension := by
  unfold validateExtension ValidExtension discoveryError
  dsimp only
  split_ifs with hempty hbad
  · simp [hempty]
  · simp only [false_iff]
    rintro ⟨-, hascii, hcomma, hlen⟩
    simp only [hascii, hcomma, Bool.true_eq_false, false_or] at hbad
    omega
  · simp only [not_or, Bool.not_eq_false, Nat.not_lt] at hbad
    simp [hempty, hbad]

theorem validateExtensions_eq_ok_iff {extensions : List String} :
    validateExtensions extensions = .ok () ↔ ∀ extension ∈ extensions, ValidExtension extension := by
  induction extensions with
  | nil => simp [validateExtensions]
  | cons extension extensions ih =>
    rw [List.forall_mem_cons, ← ih, ← validateExtension_eq_ok_iff, validateExtensions]
    cases validateExtension extension with
    | error e => exact iff_of_false (fun h => by cases h) fun h => by cases h.1
    | ok u => exact ⟨fun h => ⟨rfl, h⟩, fun h => h.2⟩

theorem ValidExtension.trim {extension : String} (h : ValidExtension extension) :
    ValidExtension (trim extension) := by
  unfold ValidExtension at h ⊢
  rwa [trim_trim]

/-- **Joined extensions are read back, trimmed.** -/
theorem parseExtensions_join {extensions : List String} (hne : extensions ≠ [])
    (hvalid : ∀ extension ∈ extensions, ValidExtension extension) :
    parseExtensions (trim (joinComma extensions)) = .ok (extensions.map Data.trim) := by
  have hcomma : ∀ field ∈ extensions.map String.toList, ',' ∉ field := by
    intro field hfield hmem
    obtain ⟨extension, hextension, rfl⟩ := List.mem_map.mp hfield
    exact (hvalid extension hextension).2.2.1 (mem_trim hmem (by decide))
  have hfields : ((Data.trim (joinComma extensions)).toList.splitOn ',').map
      (fun field => Data.trim (String.ofList field)) = extensions.map Data.trim := by
    have htrim : (fun field => Data.trim (String.ofList field)) = String.ofList ∘ trimChars :=
      funext fun field => by rw [Data.trim, String.toList_ofList]; rfl
    have hjoin : (Data.trim (joinComma extensions)).toList =
        trimChars ([','].intercalate (extensions.map String.toList)) := by
      rw [Data.trim, joinComma, String.toList_ofList, String.toList_ofList]
    rw [htrim, hjoin, ← List.map_map, map_trimChars_splitOn (by decide),
      List.splitOn_intercalate ',' hcomma (by simpa using hne), List.map_map, List.map_map]
    rfl
  have hfilter : (extensions.map Data.trim).filter (· ≠ "") = extensions.map Data.trim := by
    refine List.filter_eq_self.mpr fun field hfield => ?_
    obtain ⟨extension, hextension, rfl⟩ := List.mem_map.mp hfield
    simpa using (hvalid extension hextension).1
  have hall : validateExtensions (extensions.map Data.trim) = .ok () := by
    refine validateExtensions_eq_ok_iff.mpr fun field hfield => ?_
    obtain ⟨extension, hextension, rfl⟩ := List.mem_map.mp hfield
    exact (hvalid extension hextension).trim
  rw [parseExtensions, hfields, hfilter, hall]
  rfl

/-! ### The round trip -/

/-- The peer with its texts trimmed. -/
def trimmed (info : NativePeerInfo) : NativePeerInfo :=
  { info with
    nodeAlias := trim info.nodeAlias
    fingerprint := trim info.fingerprint
    extensions := info.extensions.map trim }

def txtEntries (info : NativePeerInfo) : List (String × String) :=
  [(txtAlias, trim info.nodeAlias), (txtFingerprint, trim info.fingerprint),
    (txtPubkey, hex info.pubkey.1), (txtQuicPort, String.ofList (decimal info.quicPort))] ++
  (info.nativeCertificateFingerprint.map fun fp => (txtNativeCertificateFingerprint, fp)).toList ++
  [(txtExtensions, joinComma info.extensions)]

theorem validatePeerInfo_eq_ok {info : NativePeerInfo} (h : validatePeerInfo info = .ok ()) :
    validateTxtValue txtAlias info.nodeAlias = .ok () ∧
      validateTxtValue txtFingerprint info.fingerprint = .ok () ∧ info.quicPort ≠ 0 ∧
      ∀ extension ∈ info.extensions, ValidExtension extension := by
  obtain ⟨_, halias, h⟩ := bind_eq_ok_iff.mp h
  obtain ⟨_, hfingerprint, h⟩ := bind_eq_ok_iff.mp h
  obtain ⟨_, hport, h⟩ := bind_eq_ok_iff.mp h
  refine ⟨halias, hfingerprint, fun hzero => ?_, validateExtensions_eq_ok_iff.mp h⟩
  rw [validateQuicPort, if_pos hzero] at hport
  cases hport

/-- **What the writer accepts, and what it writes.** -/
theorem peerInfoToTxtProperties_eq_ok {info : NativePeerInfo} {properties : Properties}
    (h : peerInfoToTxtProperties info = .ok properties) :
    validatePeerInfo info = .ok () ∧
      (∀ fp, info.nativeCertificateFingerprint = some fp → validateCertificateFingerprint fp = .ok ()) ∧
      properties.rows = txtEntries info := by
  obtain ⟨_, hinfo, h⟩ := bind_eq_ok_iff.mp h
  refine ⟨hinfo, ?_⟩
  cases hcert : info.nativeCertificateFingerprint with
  | none =>
    rw [hcert] at h
    cases h
    refine ⟨(fun fp hfp => by cases hfp), ?_⟩
    rw [txtEntries, hcert]
    rfl
  | some fp =>
    rw [hcert] at h
    obtain ⟨_, hvalid, h⟩ := bind_eq_ok_iff.mp h
    cases h
    refine ⟨fun fp' hfp' => Option.some.inj hfp' ▸ hvalid, ?_⟩
    rw [txtEntries, hcert]
    rfl

theorem lower_of_mem_txtEntries {info : NativePeerInfo} {entry : String × String}
    (h : entry ∈ txtEntries info) : asciiLowercase entry.1 = entry.1 := by
  have hkeys : ∀ key ∈ [txtAlias, txtFingerprint, txtPubkey, txtQuicPort,
      txtNativeCertificateFingerprint, txtExtensions], asciiLowercase key = key := by decide
  refine hkeys _ ?_
  cases hcert : info.nativeCertificateFingerprint <;> simp [txtEntries, hcert] at h <;> aesop

/-- **What the reader finds** of what was written, whatever the order of the map. -/
theorem find?_written {info : NativePeerInfo} {properties : Properties}
    (hrows : properties.rows = txtEntries info) (hasher : RandomState) (key : String) :
    (normalizedProperties (hasher.iter properties)).find? key =
      (properties.find? key).map fun entry => (entry.1, trim entry.2) := by
  have hlower : ∀ entry ∈ (hasher.iter properties).rows, asciiLowercase entry.1 = entry.1 := by
    intro entry hentry
    rw [(hasher.perm properties).mem_iff, hrows] at hentry
    exact lower_of_mem_txtEntries hentry
  rw [find?_normalizedProperties hlower, find?_iter]

theorem validateTxtValue_trim (field value : String) :
    validateTxtValue field (trim value) = validateTxtValue field value := by
  simp only [validateTxtValue, trim_trim]

theorem trim_ne_of_validateTxtValue {field value : String} (h : validateTxtValue field value = .ok ()) :
    trim value ≠ "" := by
  intro hempty
  rw [validateTxtValue, if_pos hempty] at h
  cases h

theorem isWhitespace_of_isAsciiHexdigit {c : Char} (h : isAsciiHexdigit c = true) :
    isWhitespace c = false := by
  simp only [isAsciiHexdigit, Bool.or_eq_true, Bool.and_eq_true, decide_eq_true_eq] at h
  simp only [isWhitespace, Bool.or_eq_false_iff, Bool.and_eq_false_iff, decide_eq_false_iff_not,
    beq_eq_false_iff_ne]
  omega

theorem trim_hex (bs : Bytes) : trim (hex bs) = hex bs :=
  trim_eq_self fun c hc => isWhitespace_of_isAsciiHexdigit
    (isAsciiHexdigit_of_mem_hexChars (by rwa [hex, String.toList_ofList] at hc))

theorem trim_decimal (n : ℕ) : trim (String.ofList (decimal n)) = String.ofList (decimal n) := by
  refine trim_eq_self fun c hc => ?_
  rw [String.toList_ofList] at hc
  have hdigit : c.isDigit = true := Nat.isDigit_of_mem_toDigits (by decide) (by decide) hc
  refine isWhitespace_of_isAsciiHexdigit ?_
  simp only [Char.isDigit, Bool.and_eq_true, decide_eq_true_eq, UInt32.le_iff_toNat_le] at hdigit
  simp only [isAsciiHexdigit, Bool.or_eq_true, Bool.and_eq_true, decide_eq_true_eq]
  exact .inl (.inl hdigit)

theorem trim_hex_ne (pubkey : Bytes32) : trim (hex pubkey.1) ≠ "" := by
  rw [trim_hex]
  intro hempty
  have hread := decodePubkey_hex pubkey
  rw [hempty] at hread
  cases hread

theorem trim_decimal_ne (n : ℕ) : trim (String.ofList (decimal n)) ≠ "" := by
  rw [trim_decimal]
  intro hempty
  have hnil : decimal n = [] := by simpa using congrArg String.toList hempty
  exact Nat.toDigits_ne_nil hnil

theorem trim_of_validateCertificateFingerprint {fp : String}
    (h : validateCertificateFingerprint fp = .ok ()) : trim fp = fp := by
  unfold validateCertificateFingerprint at h
  split_ifs at h with hvalid
  · refine trim_eq_self fun c hc => isWhitespace_of_isAsciiHexdigit ?_
    have hchar := List.all_eq_true.mp hvalid.2 c hc
    rw [Bool.and_eq_true] at hchar
    exact hchar.1
  · cases h

section written

variable {info : NativePeerInfo} {properties : Properties} (hrows : properties.rows = txtEntries info)
  (hasher : RandomState)
include hrows

theorem find?_of_mem {key value : String} (h : (key, value) ∈ txtEntries info) :
    properties.find? key = some (key, value) := Table.find?_eq_some_iff.mpr ⟨hrows ▸ h, rfl⟩

theorem requiredProperty_written {key value : String} (hwritten : (key, value) ∈ txtEntries info)
    (hvalue : trim value ≠ "") :
    requiredProperty (normalizedProperties (hasher.iter properties)) key = .ok (trim value) := by
  refine requiredProperty_eq_ok ?_ (by rwa [trim_trim])
  rw [find?_written hrows, find?_of_mem hrows hwritten]
  rfl

theorem requiredProperty_no_extensions (hnone : info.extensions = []) :
    requiredProperty (normalizedProperties (hasher.iter properties)) txtExtensions =
      discoveryError "extensions is required" := by
  have hwritten : (txtExtensions, joinComma []) ∈ txtEntries info := by simp [txtEntries, hnone]
  rw [requiredProperty, find?_written hrows, find?_of_mem hrows hwritten]
  rfl

theorem certificateProperty_written (hcert : ∀ fp, info.nativeCertificateFingerprint = some fp →
      validateCertificateFingerprint fp = .ok ()) :
    certificateProperty (normalizedProperties (hasher.iter properties)) =
      .ok info.nativeCertificateFingerprint := by
  rw [certificateProperty, find?_written hrows]
  cases hfp : info.nativeCertificateFingerprint with
  | none =>
    have hnone : properties.find? txtNativeCertificateFingerprint = none := by
      rw [Table.find?_eq_none_iff, hrows, txtEntries, hfp]
      simp [txtAlias, txtFingerprint, txtPubkey, txtQuicPort, txtExtensions, txtNativeCertificateFingerprint]
    rw [hnone]
    rfl
  | some fp =>
    have hvalid := hcert fp hfp
    rw [find?_of_mem hrows (show (_, fp) ∈ txtEntries info by simp [txtEntries, hfp])]
    simp only [Option.map_some, trim_of_validateCertificateFingerprint hvalid, hvalid]
    rfl

theorem peerInfoFromTxtProperties_written (hport : info.quicPort < 2 ^ 16)
    (hinfo : validatePeerInfo info = .ok ()) (hcert : ∀ fp, info.nativeCertificateFingerprint = some fp →
      validateCertificateFingerprint fp = .ok ()) (hne : info.extensions ≠ []) :
    peerInfoFromTxtProperties (hasher.iter properties) = .ok (trimmed info) := by
  obtain ⟨halias, hfingerprint, hzero, hextensions⟩ := validatePeerInfo_eq_ok hinfo
  have hparse := parseExtensions_join hne hextensions
  have hjoin : trim (joinComma info.extensions) ≠ "" := by
    intro hempty
    rw [hempty] at hparse
    cases hmap : info.extensions.map trim with
    | nil => exact hne (List.map_eq_nil_iff.mp hmap)
    | cons extension rest =>
      rw [hmap] at hparse
      cases hparse
  have hwritten {key value : String} := @requiredProperty_written info properties hrows hasher key value
  have halias' := @hwritten txtAlias (trim info.nodeAlias) (by simp [txtEntries])
    (by rw [trim_trim]; exact trim_ne_of_validateTxtValue halias)
  have hfingerprint' := @hwritten txtFingerprint (trim info.fingerprint) (by simp [txtEntries])
    (by rw [trim_trim]; exact trim_ne_of_validateTxtValue hfingerprint)
  have hpubkey := @hwritten txtPubkey (hex info.pubkey.1) (by simp [txtEntries]) (trim_hex_ne info.pubkey)
  have hquicPort := @hwritten txtQuicPort (String.ofList (decimal info.quicPort)) (by simp [txtEntries])
    (trim_decimal_ne info.quicPort)
  have hextensions' := @hwritten txtExtensions (joinComma info.extensions) (by simp [txtEntries]) hjoin
  rw [trim_trim] at halias' hfingerprint'
  rw [trim_hex] at hpubkey
  rw [trim_decimal] at hquicPort
  unfold peerInfoFromTxtProperties
  simp only [ok_bind, halias', hfingerprint', hpubkey, hquicPort, hextensions', hparse, validateTxtValue_trim,
    halias, hfingerprint, decodePubkey_hex, decodeQuicPort_decimal hzero hport,
    certificateProperty_written hrows hasher hcert]
  rfl

end written

/-- **Advertisements are read back**, with their texts trimmed, exactly if they
name an extension. -/
theorem txt_round_trip_iff (hasher : RandomState) {info : NativePeerInfo} (hport : info.quicPort < 2 ^ 16)
    {properties : Properties} (h : peerInfoToTxtProperties info = .ok properties) :
    peerInfoFromTxtProperties (hasher.iter properties) = .ok (trimmed info) ↔ info.extensions ≠ [] := by
  obtain ⟨hinfo, hcert, hrows⟩ := peerInfoToTxtProperties_eq_ok h
  refine ⟨fun hread hnone => ?_, peerInfoFromTxtProperties_written hrows hasher hport hinfo hcert⟩
  obtain ⟨_, hextensions, -⟩ := (readFrom_of_eq_ok hread).extensions
  rw [requiredProperty_no_extensions hrows hasher hnone] at hextensions
  cases hextensions

/-- A peer with two extensions, one of them padded. -/
def advertisedPeer : NativePeerInfo where
  nodeAlias := " workstation"
  fingerprint := "fp-123456"
  pubkey := .pad [7]
  quicPort := 48900
  nativeCertificateFingerprint := none
  extensions := [extResumeV1, extBlake3V1 ++ " "]

theorem txt_round_trip_iff_padded : ∃ properties, peerInfoToTxtProperties advertisedPeer = .ok properties ∧
    peerInfoFromTxtProperties (RandomState.sample.iter properties) = .ok (trimmed advertisedPeer) :=
  ⟨_, rfl, (txt_round_trip_iff .sample (by decide) rfl).mpr (by decide)⟩

/-- A peer without extensions is written and not read back. -/
theorem no_extensions_not_read : ∃ properties,
    peerInfoToTxtProperties { advertisedPeer with extensions := [] } = .ok properties ∧
      peerInfoFromTxtProperties (RandomState.sample.iter properties) =
        .error (.protocol "extensions is required") :=
  ⟨_, rfl, by decide +kernel⟩

end NightBridge.Api
