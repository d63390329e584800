/-
# The token of the local API

`crates/core/src/api_token.rs`: a daemon draws 32 random bytes, writes them in
base64 without padding and keeps the text in a file.  Whoever reads the file
trims it (`ApiToken::new`), so the text must lose nothing of the bytes, and
trimming nothing of the text.

`base64url_no_pad` cuts the bytes into chunks of three.  As numbers the indices
of a chunk are its bits, six at a time (`toNat_index₀` to `toNat_index₃`), from
which the bytes are read back.

The modes of files are not in the model: `set_permissions` fails if the file is
missing and changes nothing otherwise.
-/

import NightBridge.Data.Posix
import NightBridge.Data.Fields
import NightBridge.Effect.Prog

namespace NightBridge.Core

open Data Effect

/-! ### Base64 -/

section indices

variable (b₀ b₁ b₂ : UInt8)

theorem shiftLeft_or_eq {x y k : ℕ} (hx : x * 2 ^ k < 256) (hy : y < 2 ^ k) :
    x <<< k % 256 ||| y = x * 2 ^ k + y := by
  rw [Nat.shiftLeft_eq, Nat.mod_eq_of_lt hx, Nat.mul_comm, Nat.two_pow_add_eq_or_of_lt hy]

theorem toNat_shiftRight (b k : UInt8) : (b >>> k).toNat = b.toNat / 2 ^ (k.toNat % 8) := by
  rw [UInt8.toNat_shiftRight, Nat.shiftRight_eq_div_pow]

theorem toNat_index₀ : (b₀ >>> 2).toNat = b₀.toNat / 4 := toNat_shiftRight b₀ 2

theorem toNat_index₁ :
    ((b₀ &&& 0b00000011) <<< 4 ||| b₁ >>> 4).toNat = b₀.toNat % 4 * 16 + b₁.toNat / 16 := by
  have hlt := b₁.toNat_lt
  have hlow : (b₀ &&& 0b00000011).toNat = b₀.toNat % 4 := Nat.and_two_pow_sub_one_eq_mod b₀.toNat 2
  have hhigh : (b₁ >>> 4).toNat = b₁.toNat / 16 := toNat_shiftRight b₁ 4
  rw [UInt8.toNat_or, UInt8.toNat_shiftLeft, hlow, hhigh]
  exact shiftLeft_or_eq (k := 4) (by omega) (by omega)

theorem toNat_index₂ :
    ((b₁ &&& 0b00001111) <<< 2 ||| b₂ >>> 6).toNat = b₁.toNat % 16 * 4 + b₂.toNat / 64 := by
  have hlt := b₂.toNat_lt
  have hlow : (b₁ &&& 0b00001111).toNat = b₁.toNat % 16 := Nat.and_two_pow_sub_one_eq_mod b₁.toNat 4
  have hhigh : (b₂ >>> 6).toNat = b₂.toNat / 64 := toNat_shiftRight b₂ 6
  rw [UInt8.toNat_or, UInt8.toNat_shiftLeft, hlow, hhigh]
  exact shiftLeft_or_eq (k := 2) (by omega) (by omega)

theorem toNat_index₃ : (b₂ &&& 0b00111111).toNat = b₂.toNat % 64 :=
  Nat.and_two_pow_sub_one_eq_mod b₂.toNat 6

theorem index₀_lt : (b₀ >>> 2).toNat < 64 := by
  have := b₀.toNat_lt
  rw [toNat_index₀]
  omega

theorem index₁_lt : ((b₀ &&& 0b00000011) <<< 4 ||| b₁ >>> 4).toNat < 64 := by
  have := b₁.toNat_lt
  rw [toNat_index₁]
  omega

theorem index₂_lt : ((b₁ &&& 0b00001111) <<< 2 ||| b₂ >>> 6).toNat < 64 := by
  have := b₂.toNat_lt
  rw [toNat_index₂]
  omega

theorem index₃_lt : (b₂ &&& 0b00111111).toNat < 64 := by
  rw [toNat_index₃]
  omega

end indices

def base64Table : List Char := "ABCDEFGHIJKLMNOPQRSTUVWXYZabcdefghijklmnopqrstuvwxyz0123456789-_".toList

theorem length_table : base64Table.length = 64 := by decide +kernel

/-- `TABLE[index]`; no index of the encoder is out of bounds. -/
def base64Symbol (index : UInt8) (h : index.toNat < 64) : Char :=
  base64Table.get ⟨index.toNat, length_table.symm ▸ h⟩

/-- What is pushed for a chunk, of its first byte and the others. -/
def encodeChunk (b₀ : UInt8) (rest : Bytes) : List Char :=
  let b₁ := rest.getD 0 0
  let b₂ := rest.getD 1 0
  base64Symbol (b₀ >>> 2) (index₀_lt b₀) ::
  base64Symbol ((b₀ &&& 0b00000011) <<< 4 ||| b₁ >>> 4) (index₁_lt b₀ b₁) ::
  ((if rest.length + 1 > 1 then [base64Symbol ((b₁ &&& 0b00001111) <<< 2 ||| b₂ >>> 6)
    (index₂_lt b₁ b₂)] else []) ++
    if rest.length + 1 > 2 then [base64Symbol (b₂ &&& 0b00111111) (index₃_lt b₂)] else [])

/-- The loop of `base64url_no_pad`. -/
def encodeChunks : Bytes → List Char
  | b₀ :: b₁ :: b₂ :: bytes => encodeChunk b₀ [b₁, b₂] ++ encodeChunks bytes
  | b₀ :: rest => encodeChunk b₀ rest
  | [] => []

def base64urlNoPad (bytes : Bytes) : String := String.ofList (encodeChunks bytes)

example : base64urlNoPad [0x4d, 0x61, 0x6e, 0xff, 0xfe] = "TWFu__4" := by decide +kernel

/-! ### What the text keeps -/

/-- The characters that stand for themselves in a URL. -/
def isUrlSafe (c : Char) : Bool := c.isAlphanum || c == '-' || c == '_'

theorem isUrlSafe_of_mem_table : ∀ c ∈ base64Table, isUrlSafe c = true := by
  have hall : base64Table.all isUrlSafe = true := by decide +kernel
  exact List.all_eq_true.mp hall

theorem nodup_table : base64Table.Nodup := by decide +kernel

theorem mem_table_symbol {index : UInt8} (h : index.toNat < 64) : base64Symbol index h ∈ base64Table :=
  List.get_mem _ _

theorem idxOf_symbol {index : UInt8} (h : index.toNat < 64) :
    base64Table.idxOf (base64Symbol index h) = index.toNat :=
  nodup_table.idxOf_getElem _ _

theorem mem_table_of_mem_encodeChunk {b₀ : UInt8} {rest : Bytes} {c : Char} (h : c ∈ encodeChunk b₀ rest) :
    c ∈ base64Table := by
  unfold encodeChunk at h
  simp only [List.mem_cons, List.mem_append] at h
  rcases h with rfl | rfl | h | h
  · exact mem_table_symbol _
  · exact mem_table_symbol _
  all_goals
    split_ifs at h
    · obtain rfl := List.mem_singleton.mp h
      exact mem_table_symbol _
    · cases h

theorem length_le_one {rest : Bytes} (h : ∀ b₁ b₂ bytes, rest = b₁ :: b₂ :: bytes → False) :
    rest.length ≤ 1 := by
  rcases rest with _ | ⟨b₁, _ | ⟨b₂, bytes⟩⟩
  · exact Nat.zero_le 1
  · exact Nat.le_refl 1
  · exact (h b₁ b₂ bytes rfl).elim

theorem encodeChunks_of_short (b₀ : UInt8) {rest : Bytes} (h : rest.length ≤ 1) :
    encodeChunks (b₀ :: rest) = encodeChunk b₀ rest := by
  rcases rest with _ | ⟨b₁, _ | ⟨b₂, bytes⟩⟩
  · rfl
  · rfl
  · simp at h

theorem mem_table_of_mem_encodeChunks {bytes : Bytes} {c : Char} (h : c ∈ encodeChunks bytes) :
    c ∈ base64Table := by
  induction bytes using encodeChunks.induct with
  | case1 b₀ b₁ b₂ bytes ih =>
    rw [encodeChunks] at h
    exact (List.mem_append.mp h).elim mem_table_of_mem_encodeChunk ih
  | case2 b₀ rest hrest =>
    rw [encodeChunks_of_short b₀ (length_le_one hrest)] at h
    exact mem_table_of_mem_encodeChunk h
  | case3 => cases h

theorem length_encodeChunk (b₀ : UInt8) {rest : Bytes} (h : rest.length ≤ 2) :
    (encodeChunk b₀ rest).length = rest.length + 2 := by
  unfold encodeChunk
  have hcases : rest.length = 0 ∨ rest.length = 1 ∨ rest.length = 2 := by omega
  rcases hcases with h | h | h <;> simp [h]

theorem length_encodeChunks (bytes : Bytes) : (encodeChunks bytes).length = (4 * bytes.length + 2) / 3 := by
  induction bytes using encodeChunks.induct with
  | case1 b₀ b₁ b₂ bytes ih =>
    rw [encodeChunks, List.length_append, length_encodeChunk _ (by simp), ih]
    simp only [List.length_cons, List.length_nil]
    omega
  | case2 b₀ rest hrest =>
    have hshort := length_le_one hrest
    rw [encodeChunks_of_short b₀ hshort, length_encodeChunk b₀ (by omega), List.length_cons]
    omega
  | case3 => rfl

/-- **The indices of a chunk are its bits**, six at a time. -/
theorem indices_encodeChunk (b₀ : UInt8) (rest : Bytes) :
    (encodeChunk b₀ rest).map base64Table.idxOf = (b₀.toNat / 4) ::
      (b₀.toNat % 4 * 16 + (rest.getD 0 0).toNat / 16) ::
      ((if rest.length + 1 > 1 then [(rest.getD 0 0).toNat % 16 * 4 + (rest.getD 1 0).toNat / 64] else []) ++
        if rest.length + 1 > 2 then [(rest.getD 1 0).toNat % 64] else []) := by
  unfold encodeChunk
  simp only [List.map_cons, List.map_append, apply_ite (List.map _), List.map_nil, idxOf_symbol, toNat_index₀,
    toNat_index₁, toNat_index₂, toNat_index₃]

/-- **A chunk is read back** from its indices. -/
theorem encodeChunk_inj {a₀ b₀ : UInt8} {as bs : Bytes} (h : encodeChunk a₀ as = encodeChunk b₀ bs)
    (hlen : as.length = bs.length) (hshort : as.length ≤ 2) : a₀ = b₀ ∧ as = bs := by
  have hindices := congrArg (List.map base64Table.idxOf) h
  rw [indices_encodeChunk, indices_encodeChunk] at hindices
  rcases as with _ | ⟨a₁, _ | ⟨a₂, _ | ⟨a₃, as⟩⟩⟩
  · obtain rfl := List.length_eq_zero_iff.mp hlen.symm
    obtain ⟨h₀, h₁⟩ : a₀.toNat / 4 = b₀.toNat / 4 ∧ a₀.toNat % 4 = b₀.toNat % 4 := by
      simpa using hindices
    exact ⟨UInt8.toNat_inj.mp (by omega), rfl⟩
  · obtain ⟨b₁, rfl⟩ := List.length_eq_one_iff.mp hlen.symm
    obtain ⟨h₀, h₁, h₂⟩ : a₀.toNat / 4 = b₀.toNat / 4 ∧
        a₀.toNat % 4 * 16 + a₁.toNat / 16 = b₀.toNat % 4 * 16 + b₁.toNat / 16 ∧
        a₁.toNat % 16 = b₁.toNat % 16 := by
      simpa using hindices
    have ha := a₁.toNat_lt
    have hb := b₁.toNat_lt
    obtain rfl : a₁ = b₁ := UInt8.toNat_inj.mp (by omega)
    exact ⟨UInt8.toNat_inj.mp (by omega), rfl⟩
  · obtain ⟨b₁, b₂, rfl⟩ := List.length_eq_two.mp hlen.symm
    obtain ⟨h₀, h₁, h₂, h₃⟩ : a₀.toNat / 4 = b₀.toNat / 4 ∧
        a₀.toNat % 4 * 16 + a₁.toNat / 16 = b₀.toNat % 4 * 16 + b₁.toNat / 16 ∧
        a₁.toNat % 16 * 4 + a₂.toNat / 64 = b₁.toNat % 16 * 4 + b₂.toNat / 64 ∧
        a₂.toNat % 64 = b₂.toNat % 64 := by
      simpa using hindices
    have ha₁ := a₁.toNat_lt
    have hb₁ := b₁.toNat_lt
    have ha₂ := a₂.toNat_lt
    have hb₂ := b₂.toNat_lt
    obtain rfl : a₂ = b₂ := UInt8.toNat_inj.mp (by omega)
    obtain rfl : a₁ = b₁ := UInt8.toNat_inj.mp (by omega)
    exact ⟨UInt8.toNat_inj.mp (by omega), rfl⟩
  · simp at hshort

theorem length_eq_of_encodeChunks {as bs : Bytes} (h : encodeChunks as = encodeChunks bs) :
    as.length = bs.length := by
  have hlen := congrArg List.length h
  rw [length_encodeChunks, length_encodeChunks] at hlen
  omega

/-- **Nothing is lost**: different byte strings have different texts. -/
theorem encodeChunks_injective : Function.Injective encodeChunks := by
  intro as bs h
  have hlen := length_eq_of_encodeChunks h
  induction as using encodeChunks.induct generalizing bs with
  | case1 a₀ a₁ a₂ as ih =>
    rcases bs with _ | ⟨b₀, _ | ⟨b₁, _ | ⟨b₂, bs⟩⟩⟩
    case cons.cons.cons =>
      rw [encodeChunks, encodeChunks] at h
      have hchunks : (encodeChunk a₀ [a₁, a₂]).length = (encodeChunk b₀ [b₁, b₂]).length :=
        (length_encodeChunk a₀ (by simp)).trans (length_encodeChunk b₀ (by simp)).symm
      obtain ⟨hchunk, hrest⟩ := List.append_inj h hchunks
      obtain ⟨rfl, heq⟩ := encodeChunk_inj hchunk rfl le_rfl
      obtain ⟨rfl, rfl⟩ : a₁ = b₁ ∧ a₂ = b₂ := by simpa using heq
      rw [ih hrest (length_eq_of_encodeChunks hrest)]
    all_goals simp at hlen
  | case2 a₀ as has =>
    rcases bs with _ | ⟨b₀, bs⟩
    · simp at hlen
    · have hshort := length_le_one has
      have hlen' : as.length = bs.length := by simpa using hlen
      rw [encodeChunks_of_short a₀ hshort, encodeChunks_of_short b₀ (hlen' ▸ hshort)] at h
      obtain ⟨rfl, rfl⟩ := encodeChunk_inj h hlen' (by omega)
      rfl
  | case3 => exact (List.length_eq_zero_iff.mp hlen.symm).symm

/-! ### Tokens -/

abbrev Seed := { bytes : Bytes // bytes.length = 32 }

/-- `CoreError`, the variants the vault returns; a text that is not UTF-8 is an
I/O error too. -/
inductive TokenError
  | io (e : IoError)
  | invalidUtf8
  | identityVault (message : String)
  deriving DecidableEq, Repr

/-- `ApiToken`: a text that is not blank, without white space at its ends. -/
structure ApiToken where
  text : String
  trimmed : trim text = text
  nonempty : text ≠ ""

namespace ApiToken

theorem ext_text {token token' : ApiToken} (h : token.text = token'.text) : token = token' := by
  cases token
  cases token'
  cases h
  rfl

def new (token : String) : Except TokenError ApiToken :=
  if h : trim token = "" then .error (.identityVault "api token is blank")
  else .ok ⟨trim token, trim_trim token, h⟩

/-- **Trimming leaves a token as it is.** -/
theorem new_text (token : ApiToken) : new token.text = .ok token := by
  have hne : trim token.text ≠ "" := token.trimmed.symm ▸ token.nonempty
  rw [new, dif_neg hne]
  exact congrArg Except.ok (ext_text token.trimmed)

theorem isWhitespace_of_mem_table : ∀ c ∈ base64Table, isWhitespace c = false := by
  have hany : base64Table.any isWhitespace = false := by decide +kernel
  intro c hc
  exact Bool.eq_false_iff.mpr (List.any_eq_false.mp hany c hc)

theorem trim_base64urlNoPad (bytes : Bytes) : trim (base64urlNoPad bytes) = base64urlNoPad bytes := by
  refine trim_eq_self fun c hc => ?_
  rw [base64urlNoPad, String.toList_ofList] at hc
  exact isWhitespace_of_mem_table c (mem_table_of_mem_encodeChunks hc)

theorem base64urlNoPad_ne (seed : Seed) : base64urlNoPad seed.1 ≠ "" := by
  intro h
  have hlen := congrArg (fun text : String => text.toList.length) h
  simp only [base64urlNoPad, String.toList_ofList, length_encodeChunks, seed.2] at hlen
  exact absurd hlen (by decide)

/-- `ApiToken::generate`, of the bytes that the generator fills in. -/
def generate (seed : Seed) : ApiToken :=
  ⟨base64urlNoPad seed.1, trim_base64urlNoPad seed.1, base64urlNoPad_ne seed⟩

end ApiToken

/-! ### The vault -/

/-- One place where the vault reaches outside its memory. -/
inductive VaultOp
  | pathExists (path : Path)
  | read (path : Path)
  | createDirAll (path : Path)
  /-- `write_token_file`. -/
  | write (path : Path) (bytes : Bytes)
  | metadata (path : Path)
  | setPermissions (path : Path) (mode : ℕ)
  | rename (source target : Path)
  /-- `OsRng.fill_bytes`. -/
  | fillBytes

@[reducible] def VaultResp : VaultOp → Type
  | .pathExists _ => Bool
  | .read _ => Except IoError Bytes
  | .createDirAll _ => Except IoError Unit
  | .write .. => Except IoError Unit
  | .metadata _ => Except IoError Unit
  | .setPermissions .. => Except IoError Unit
  | .rename .. => Except IoError Unit
  | .fillBytes => Seed

/-- The tree, and the bytes that will be drawn. -/
structure VaultDisk where
  fs : Fs
  seeds : ℕ → Seed

/-- An operation on the tree that may fail and answers with nothing. -/
def VaultDisk.onFs (disk : VaultDisk) : Except IoError Fs → Except IoError Unit × VaultDisk
  | .ok fs => (.ok (), { disk with fs })
  | .error e => (.error e, disk)

/-- Whether a path can be asked for its metadata. -/
def VaultDisk.found (disk : VaultDisk) (path : Path) : Except IoError Unit :=
  if disk.fs.exists? path then .ok () else .error .notFound

def execVault : Prog.Handler VaultOp VaultResp VaultDisk
  | .pathExists path, disk => (disk.fs.exists? path, disk)
  | .read path, disk => (disk.fs.read path, disk)
  | .createDirAll path, disk => disk.onFs (disk.fs.createDirAll path)
  | .write path bytes, disk => disk.onFs (disk.fs.write path bytes)
  | .metadata path, disk => (disk.found path, disk)
  | .setPermissions path _, disk => (disk.found path, disk)
  | .rename source target, disk => disk.onFs (disk.fs.rename source target)
  | .fillBytes, disk => (disk.seeds 0, { disk with seeds := fun k => disk.seeds (k + 1) })

/-- `FsApiTokenVault`; its path ends in the name of a file. -/
structure FsApiTokenVault where
  parent : Path
  file : String
  normal : NormalName file

namespace FsApiTokenVault

variable (self : FsApiTokenVault)

def path : Path := self.parent ++ [self.file]

/-- `?` on an answer of the operating system. -/
def orIo {α : Type} (r : Except IoError α) : Prog VaultOp VaultResp TokenError α :=
  .ofExcept (r.mapError .io)

def readToString (path : Path) : Prog VaultOp VaultResp TokenError String := do
  let bytes ← .call (.read path) orIo
  .ofExcept ((fromUtf8 bytes).elim (.error .invalidUtf8) .ok)

def load : Prog VaultOp VaultResp TokenError (Option ApiToken) :=
  .call (.pathExists self.path) fun found =>
    if !found then pure none
    else do
      let token ← readToString self.path
      return some (← .ofExcept (ApiToken.new token))

def setOwnerOnlyPermissions (path : Path) : Prog VaultOp VaultResp TokenError Unit := do
  .call (.metadata path) orIo
  .call (.setPermissions path 0o600) orIo

def save (token : ApiToken) : Prog VaultOp VaultResp TokenError Unit := do
  .call (.createDirAll self.parent) orIo
  let tmpPath := withExtension self.path "token.tmp"
  .call (.write tmpPath (utf8 token.text)) orIo
  setOwnerOnlyPermissions tmpPath
  .call (.rename tmpPath self.path) orIo

def loadOrGenerate : Prog VaultOp VaultResp TokenError ApiToken := do
  match ← self.load with
  | some token => return token
  | none => do
    let token ← .call .fillBytes fun seed => pure (ApiToken.generate seed)
    self.save token
    return token

/-! ### What is reloaded -/

theorem tmpName_ne (file : String) : fileStem file ++ "." ++ "token.tmp" ≠ file := by
  intro h
  have hrev : file.toList.reverse = "pmt.nekot.".toList ++ (fileStem file).toList.reverse := by
    rw [← List.reverse_inj, List.reverse_reverse]
    conv_lhs => rw [← h]
    simp
  have hdots : file ≠ ".." := by
    rintro rfl
    exact absurd h (by decide)
  have hstem : fileStem file = String.ofList ("nekot.".toList ++ (fileStem file).toList.reverse).reverse := by
    conv_lhs => rw [fileStem, hrev]
    simp [hdots]
  have hlen := congrArg (fun name : String => name.toList.length) hstem
  simp at hlen

variable {self}

theorem resolve_path : resolve self.path = resolve self.parent ++ [self.file] :=
  resolve_append_normal _ self.normal

theorem resolve_tmpPath : resolve (withExtension self.path "token.tmp") =
    resolve self.parent ++ [fileStem self.file ++ "." ++ "token.tmp"] := by
  rw [path, withExtension_append]
  exact resolve_append_normal _ (normalName_of_mem 't' (by simp) (by decide))

theorem resolve_path_ne : resolve self.path ≠ resolve (withExtension self.path "token.tmp") := by
  rw [resolve_path, resolve_tmpPath]
  simpa using (tmpName_ne self.file).symm

theorem of_onFs {disk disk' : VaultDisk} {r : Except IoError Fs}
    (h : (orIo (disk.onFs r).1).run execVault (disk.onFs r).2 = (.ok (), disk')) :
    ∃ fs, r = .ok fs ∧ disk' = { disk with fs } := by
  cases r with
  | error e => cases h
  | ok fs =>
    cases h
    exact ⟨fs, rfl, rfl⟩

theorem of_orIo {disk disk' : VaultDisk} {r : Except IoError Unit}
    (h : (orIo r).run execVault disk = (.ok (), disk')) : disk' = disk := by
  rw [orIo, Prog.run_ofExcept] at h
  exact (Prod.mk.inj h).2.symm

theorem run_setOwnerOnlyPermissions {tmpPath : Path} {disk disk' : VaultDisk}
    (h : (setOwnerOnlyPermissions tmpPath).run execVault disk = (.ok (), disk')) : disk' = disk := by
  obtain ⟨_, disk₁, hmetadata, hmode⟩ := (Prog.run_bind_eq_ok _).mp h
  exact (of_orIo hmode).trans (of_orIo hmetadata)

/-- **A save that returns has left the text in the file.** -/
theorem view_of_save {token : ApiToken} {disk disk' : VaultDisk}
    (h : (self.save token).run execVault disk = (.ok (), disk')) :
    disk'.fs.view self.path = some (some (utf8 token.text)) := by
  unfold save at h
  obtain ⟨_, disk₁, -, h⟩ := (Prog.run_bind_eq_ok _).mp h
  obtain ⟨_, disk₂, h₂, h⟩ := (Prog.run_bind_eq_ok _).mp h
  obtain ⟨_, disk₃, h₃, h₄⟩ := (Prog.run_bind_eq_ok _).mp h
  obtain ⟨fs₂, hwrite, rfl⟩ := of_onFs h₂
  obtain rfl := run_setOwnerOnlyPermissions h₃
  obtain ⟨fs', hrename, rfl⟩ := of_onFs h₄
  rw [(Fs.view_rename hrename resolve_path_ne).1, (Fs.view_write hwrite).1]

/-- **The token is what is loaded.** -/
theorem load_of_view {token : ApiToken} {disk : VaultDisk}
    (h : disk.fs.view self.path = some (some (utf8 token.text))) :
    self.load.run execVault disk = (.ok (some token), disk) := by
  have hfound : disk.fs.exists? self.path = true := by rw [Fs.exists?_eq_view, h]; rfl
  have hread : disk.fs.read self.path = .ok (utf8 token.text) := Fs.read_eq_ok_iff_view.mpr h
  simp [load, readToString, execVault, hfound, hread, orIo, Except.mapError, fromUtf8_utf8, ApiToken.new_text]

end FsApiTokenVault

theorem base64urlNoPad_injective : Function.Injective base64urlNoPad := fun as bs h => by
  have hchars := congrArg String.toList h
  rw [base64urlNoPad, base64urlNoPad, String.toList_ofList, String.toList_ofList] at hchars
  exact encodeChunks_injective hchars

theorem isUrlSafe_of_mem {bytes : Bytes} {c : Char} (h : c ∈ (base64urlNoPad bytes).toList) :
    isUrlSafe c = true := by
  rw [base64urlNoPad, String.toList_ofList] at h
  exact isUrlSafe_of_mem_table c (mem_table_of_mem_encodeChunks h)

theorem toNat_lt_of_mem_table : ∀ c ∈ base64Table, c.toNat < 128 := by
  have hall : base64Table.all (fun c => decide (c.toNat < 128)) = true := by decide +kernel
  intro c hc
  exact of_decide_eq_true (List.all_eq_true.mp hall c hc)

theorem length_base64urlNoPad (bytes : Bytes) :
    (utf8 (base64urlNoPad bytes)).length = (4 * bytes.length + 2) / 3 := by
  rw [base64urlNoPad, length_utf8_of_ascii fun c hc => ?_, String.toList_ofList, length_encodeChunks]
  rw [String.toList_ofList] at hc
  exact toNat_lt_of_mem_table c (mem_table_of_mem_encodeChunks hc)

theorem ApiToken.generate_injective : Function.Injective ApiToken.generate := fun _ _ h =>
  Subtype.ext (base64urlNoPad_injective (congrArg ApiToken.text h))

/-- **The text of a token loses nothing.**  For all bytes the text has only
characters that are safe in a URL, four for every three bytes, rounded up;
different bytes, of whatever lengths, have different texts.  `ApiToken::new`
leaves the text of a generated token as it is, so different seeds are still
different tokens when they are read again; a vault that has saved one loads that
one. -/
theorem base64url_keeps_tokens :
    (∀ bytes : Bytes, (∀ c ∈ (base64urlNoPad bytes).toList, isUrlSafe c = true) ∧
      (utf8 (base64urlNoPad bytes)).length = (4 * bytes.length + 2) / 3) ∧
    Function.Injective base64urlNoPad ∧
    (∀ seed : Seed, ApiToken.new (base64urlNoPad seed.1) = .ok (ApiToken.generate seed)) ∧
    (∀ seed seed' : Seed, seed ≠ seed' →
      ApiToken.new (base64urlNoPad seed.1) ≠ ApiToken.new (base64urlNoPad seed'.1)) ∧
    ∀ (vault : FsApiTokenVault) (seed : Seed) (disk disk' : VaultDisk),
      (vault.save (ApiToken.generate seed)).run execVault disk = (.ok (), disk') →
      vault.load.run execVault disk' = (.ok (some (ApiToken.generate seed)), disk') := by
  have hnew : ∀ seed : Seed, ApiToken.new (base64urlNoPad seed.1) = .ok (ApiToken.generate seed) :=
    fun seed => (ApiToken.generate seed).new_text
  refine ⟨fun bytes => ⟨fun c hc => isUrlSafe_of_mem hc, length_base64urlNoPad bytes⟩,
    base64urlNoPad_injective, hnew, fun seed seed' hne h => hne ?_, fun vault seed disk disk' hsave => ?_⟩
  · rw [hnew, hnew] at h
    exact ApiToken.generate_injective (Except.ok.inj h)
  · exact FsApiTokenVault.load_of_view (FsApiTokenVault.view_of_save hsave)

theorem length_sampleBytes (last : UInt8) : (List.replicate 31 7 ++ [last]).length = 32 := by simp

/-- A seed by its last byte, to run the model with. -/
def Seed.sample (last : UInt8) : Seed := ⟨List.replicate 31 7 ++ [last], length_sampleBytes last⟩

theorem normalName_apiToken : NormalName "api.token" := by decide

def FsApiTokenVault.sample : FsApiTokenVault := ⟨["config"], "api.token", normalName_apiToken⟩

/-- Two seeds that differ in their last byte, one of them saved on a tree that
has nothing. -/
theorem base64url_keeps_tokens_pair :
    ApiToken.new (base64urlNoPad (Seed.sample 8).1) ≠ ApiToken.new (base64urlNoPad (Seed.sample 9).1) ∧
    ∃ disk', (FsApiTokenVault.sample.save (ApiToken.generate (Seed.sample 8))).run execVault
        ⟨.empty, fun _ => Seed.sample 9⟩ = (.ok (), disk') ∧
      FsApiTokenVault.sample.load.run execVault disk' =
        (.ok (some (ApiToken.generate (Seed.sample 8))), disk') := by
  obtain ⟨-, -, -, hdistinct, hreload⟩ := base64url_keeps_tokens
  have hsave : ((FsApiTokenVault.sample.save (ApiToken.generate (Seed.sample 8))).run execVault
      ⟨.empty, fun _ => Seed.sample 9⟩).1 = .ok () := by decide +kernel
  exact ⟨hdistinct _ _ (by decide), _, Prod.ext hsave rfl, hreload _ _ _ _ (Prod.ext hsave rfl)⟩

end NightBridge.Core
