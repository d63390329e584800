/-
# Crashes of a TLS vault

A run of `save` or `load_or_generate` that stops between two of its operations
leaves the disk as it is then, and the daemon starts again from there.  Each
file is replaced by one `rename`, so neither is ever half written.  There are
two renames: a crash between them leaves the new certificate with the old key,
or with no key at all, and then `load_or_generate` fails at every later start
(`crash_between_renames`).

The proof executes the programs once, with the invariant `Intact` at every point
where they may stop.
-/

import NightBridge.Effect.Crash
import NightBridge.Tls.Vault

namespace NightBridge.Tls

open Data Effect

/-- The targets of the renames that were made. -/
def renames (hist : History Op Resp) : List Path :=
  hist.filterMap fun
    | ⟨.rename _ target, .ok ()⟩ => some target
    | _ => none

namespace Vault

variable {ε : Type} (self : Vault ε)

/-! ### The paths of a vault -/

def certTmp : Path := self.configDir ++ [tmpName self.certFile]

def keyTmp : Path := self.configDir ++ [tmpName self.keyFile]

section paths

variable {self} {name name' : String}

theorem resolve_file (h : NormalName name) :
    resolve (self.configDir ++ [name]) = resolve self.configDir ++ [name] :=
  resolve_append_normal _ h

theorem resolve_ne (h : NormalName name) (h' : NormalName name') (hne : name ≠ name') :
    resolve (self.configDir ++ [name]) ≠ resolve (self.configDir ++ [name']) := by
  rw [resolve_file h, resolve_file h']
  simpa using hne

theorem not_prefix_dir (h : NormalName name) :
    ¬ resolve (self.configDir ++ [name]) <+: resolve self.configDir := by
  intro habove
  have hlen := habove.length_le
  rw [resolve_file h, List.length_append] at hlen
  simp at hlen

theorem resolve_dir_ne (h : NormalName name) :
    resolve self.configDir ≠ resolve (self.configDir ++ [name]) := fun heq =>
  not_prefix_dir h ⟨[], by simpa using heq.symm⟩

variable (self)

theorem normal_certFile : NormalName self.certFile := self.normal _ (by simp)

theorem normal_keyFile : NormalName self.keyFile := self.normal _ (by simp)

theorem normal_certTmp : NormalName (tmpName self.certFile) := self.normal _ (by simp)

theorem normal_keyTmp : NormalName (tmpName self.keyFile) := self.normal _ (by simp)

theorem names_ne : self.certFile ≠ self.keyFile ∧ self.certFile ≠ tmpName self.certFile ∧
    self.certFile ≠ tmpName self.keyFile ∧ self.keyFile ≠ tmpName self.certFile ∧
    self.keyFile ≠ tmpName self.keyFile ∧ tmpName self.certFile ≠ tmpName self.keyFile := by
  have hnodup := self.nodup
  simp only [List.nodup_cons, List.mem_cons, List.not_mem_nil, not_or, or_false] at hnodup
  tauto

end paths

/-! ### What is on the disk -/

def Stored (fs : Fs) : Option TlsIdentity → Prop
  | none => fs.view self.certPath = none ∧ fs.view self.keyPath = none
  | some identity => fs.view self.certPath = some (some identity.certDer) ∧
      fs.view self.keyPath = some (some identity.keyDer)

/-- Nothing is in the way of the files, and identities can be generated for the
alias. -/
structure Usable (vault : Vault ε) (aliasName : String) (disk : Disk) : Prop where
  dirOk : disk.fs.DirOk vault.configDir
  certTmp_ne : disk.fs.view vault.certTmp ≠ some none
  keyTmp_ne : disk.fs.view vault.keyTmp ≠ some none
  generates : ∀ k, ∃ identity, disk.identities k aliasName = .ok identity

/-- The old pair is there until the certificate is replaced, and a new one once
the key is. -/
structure Intact (vault : Vault ε) (aliasName : String) (old : Option TlsIdentity)
    (offers : TlsIdentity → Prop) (renamed : List Path) (disk : Disk) : Prop where
  usable : vault.Usable aliasName disk
  kept : vault.certPath ∉ renamed → vault.Stored disk.fs old
  replaced : vault.keyPath ∈ renamed → ∃ identity, offers identity ∧ vault.Stored disk.fs (some identity)

variable {self} {aliasName : String} {disk : Disk} {old : Option TlsIdentity}
  {offers : TlsIdentity → Prop}

theorem Stored.cert_ne_dir {fs : Fs} (h : self.Stored fs old) : fs.view self.certPath ≠ some none := by
  cases old with
  | none => rw [h.1]; nofun
  | some identity => rw [h.1]; nofun

theorem Stored.key_ne_dir {fs : Fs} (h : self.Stored fs old) : fs.view self.keyPath ≠ some none := by
  cases old with
  | none => rw [h.2]; nofun
  | some identity => rw [h.2]; nofun

theorem Stored.congr {fs fs' : Fs} (h : self.Stored fs old)
    (hcert : fs'.view self.certPath = fs.view self.certPath)
    (hkey : fs'.view self.keyPath = fs.view self.keyPath) : self.Stored fs' old := by
  cases old with
  | none => exact ⟨hcert.trans h.1, hkey.trans h.2⟩
  | some identity => exact ⟨hcert.trans h.1, hkey.trans h.2⟩

/-! ### One file -/

/-- One path has new contents, and the others are as they were. -/
structure Wrote (path : Path) (bytes : Bytes) (fs fs' : Fs) : Prop where
  view_eq : fs'.view path = some (some bytes)
  other : ∀ q, resolve q ≠ resolve path → fs'.view q = fs.view q

/-- A file was replaced through its temporary name. -/
structure Replaced (path tmp : Path) (bytes : Bytes) (fs fs' : Fs) : Prop where
  view_eq : fs'.view path = some (some bytes)
  tmp_eq : fs'.view tmp = none
  other : ∀ q, resolve q ≠ resolve path → resolve q ≠ resolve tmp → fs'.view q = fs.view q

/-- **`write_atomically`** stops before or after its rename, in a directory that
is there. -/
theorem crashWp_writeAtomically {J : List Path → Disk → Prop} {hist : History Op Resp} {name : String}
    {bytes : Bytes} {ownerOnly : Bool} (hname : NormalName name) (htmpName : NormalName (tmpName name))
    (hfits : nameFits name) (hne : name ≠ tmpName name)
    (hdir : disk.fs.view self.configDir = some none)
    (hpath : disk.fs.view (self.configDir ++ [name]) ≠ some none)
    (htmp : disk.fs.view (self.configDir ++ [tmpName name]) ≠ some none)
    (hbefore : J (renames hist) disk)
    (hwrote : ∀ fs', Wrote (self.configDir ++ [tmpName name]) bytes disk.fs fs' →
      J (renames hist) { disk with fs := fs' })
    (hreplaced : ∀ fs', Replaced (self.configDir ++ [name]) (self.configDir ++ [tmpName name])
      bytes disk.fs fs' →
      J (renames hist ++ [self.configDir ++ [name]]) { disk with fs := fs' }) :
    (self.writeAtomically (self.configDir ++ [name]) bytes ownerOnly).crashWp exec
      (fun hist' disk' => J (renames hist') disk')
      (fun hist' disk' r => r = .ok () ∧ renames hist' = renames hist ++ [self.configDir ++ [name]] ∧
        ∃ fs', disk' = { disk with fs := fs' } ∧
          Replaced (self.configDir ++ [name]) (self.configDir ++ [tmpName name]) bytes disk.fs fs')
            hist disk := by
  obtain ⟨fs₁, hwrite⟩ := Fs.write_isOk (resolve_file htmpName) hdir htmp bytes
  obtain ⟨hview₁, hother₁⟩ := Fs.view_write hwrite
  have hpath₁ : fs₁.view (self.configDir ++ [name]) ≠ some none := by
    rwa [hother₁ _ (resolve_ne hname htmpName hne)]
  have hdir₁ : fs₁.view self.configDir = some none := by
    rwa [hother₁ _ (resolve_dir_ne htmpName)]
  obtain ⟨fs₂, hrename⟩ := Fs.rename_isOk_of_view hview₁
    (by rwa [List.getLastD_concat]) (resolve_file hname) hdir₁ hpath₁
  obtain ⟨hview₂, htmp₂, hother₂⟩ := Fs.view_rename hrename (resolve_ne hname htmpName hne)
  have hreplaced₂ : Replaced (self.configDir ++ [name]) (self.configDir ++ [tmpName name]) bytes
    disk.fs fs₂ :=
    ⟨hview₂.trans hview₁, htmp₂, fun q h1 h2 => (hother₂ q h2 h1).trans (hother₁ q h2)⟩
  have hJ₁ := hwrote fs₁ ⟨hview₁, hother₁⟩
  have hwriteCall : exec (.write (self.configDir ++ [tmpName name]) bytes) disk =
      (.ok (), { disk with fs := fs₁ }) := by rw [exec, hwrite]; rfl
  have hrenameCall : exec (.rename (self.configDir ++ [tmpName name]) (self.configDir ++ [name]))
      { disk with fs := fs₁ } = (.ok (), { disk with fs := fs₂ }) := by rw [exec, hrename]; rfl
  have hfound : ({ disk with fs := fs₁ } : Disk).found (self.configDir ++ [tmpName name]) = .ok () := by
    rw [Disk.found, Fs.exists?_eq_view, hview₁]
    rfl
  rw [writeAtomically, withExtension_append]
  refine Prog.crashWp_call hwriteCall hbefore ?_
  cases ownerOnly with
  | false =>
    refine Prog.crashWp_call hrenameCall (by simpa [renames] using hJ₁) ?_
    refine ⟨by simpa [renames] using hreplaced fs₂ hreplaced₂, rfl, by simp [renames], fs₂,
      rfl, hreplaced₂⟩
  | true =>
    refine Prog.crashWp_call (congrArg (·, _) hfound) (by simpa [renames] using hJ₁) ?_
    refine Prog.crashWp_call (congrArg (·, _) hfound) (by simpa [renames] using hJ₁) ?_
    refine Prog.crashWp_call hrenameCall (by simpa [renames] using hJ₁) ?_
    refine ⟨by simpa [renames] using hreplaced fs₂ hreplaced₂, rfl, by simp [renames], fs₂,
      rfl, hreplaced₂⟩

/-! ### The programs -/

theorem orIo_ok {α : Type} (a : α) : self.orIo (.ok a) = .ret a := rfl

theorem Usable.of_dir (h : self.Usable aliasName disk) {fs : Fs}
    (hdir : fs.view self.configDir = some none)
    (hcertTmp : fs.view self.certTmp ≠ some none) (hkeyTmp : fs.view self.keyTmp ≠ some none) :
    self.Usable aliasName { disk with fs } :=
  ⟨Fs.dirOk_of_dir (Fs.view_eq_dir_iff.mp hdir), hcertTmp, hkeyTmp, h.generates⟩

theorem Intact.torn {renamed : List Path} (h : self.Usable aliasName disk)
    (hcert : self.certPath ∈ renamed)
    (hkey : self.keyPath ∉ renamed) : self.Intact aliasName old offers renamed disk :=
  ⟨h, fun hnot => absurd hcert hnot, fun hmem => absurd hmem hkey⟩

theorem Intact.before {renamed : List Path} (h : self.Usable aliasName disk)
    (hstored : self.Stored disk.fs old) (hkey : self.keyPath ∉ renamed) :
    self.Intact aliasName old offers renamed disk :=
  ⟨h, fun _ => hstored, fun hmem => absurd hmem hkey⟩

theorem certPath_ne_keyPath : self.certPath ≠ self.keyPath := by
  intro h
  have := List.append_cancel_left h
  exact self.names_ne.1 (by simpa using this)

section writes

variable {bytes : Bytes} {fs' : Fs}

theorem Usable.wrote {name : String} (htmp : NormalName (tmpName name))
    (h : self.Usable aliasName disk) (hdir : disk.fs.view self.configDir = some none)
    (hwrote : Wrote (self.configDir ++ [tmpName name]) bytes disk.fs fs') :
    self.Usable aliasName { disk with fs := fs' } := by
  have hkept : ∀ other, NormalName other → disk.fs.view (self.configDir ++ [other]) ≠ some none →
      fs'.view (self.configDir ++ [other]) ≠ some none := by
    intro other hother hne
    by_cases heq : other = tmpName name
    · rw [heq, hwrote.view_eq]
      nofun
    · exact (hwrote.other _ (resolve_ne hother htmp heq)).trans_ne hne
  exact h.of_dir ((hwrote.other _ (resolve_dir_ne htmp)).trans hdir)
    (hkept _ self.normal_certTmp h.certTmp_ne) (hkept _ self.normal_keyTmp h.keyTmp_ne)

theorem Replaced.dir {name : String} (hname : NormalName name) (htmpName : NormalName (tmpName name))
    {fs : Fs} (h : Replaced (self.configDir ++ [name]) (self.configDir ++ [tmpName name]) bytes fs fs')
    (hdir : fs.view self.configDir = some none) : fs'.view self.configDir = some none :=
  (h.other _ (resolve_dir_ne hname) (resolve_dir_ne htmpName)).trans hdir

theorem Usable.replaced {name : String} (hname : NormalName name) (htmp : NormalName (tmpName name))
    (h : self.Usable aliasName disk) (hdir : disk.fs.view self.configDir = some none)
    (hreplaced : Replaced (self.configDir ++ [name]) (self.configDir ++ [tmpName name]) bytes
      disk.fs fs') : self.Usable aliasName { disk with fs := fs' } := by
  have hkept : ∀ other, NormalName other → disk.fs.view (self.configDir ++ [other]) ≠ some none →
      fs'.view (self.configDir ++ [other]) ≠ some none := by
    intro other hother hne
    by_cases heq : other = name
    · rw [heq, hreplaced.view_eq]
      nofun
    by_cases heqTmp : other = tmpName name
    · rw [heqTmp, hreplaced.tmp_eq]
      nofun
    · exact (hreplaced.other _ (resolve_ne hother hname heq)
        (resolve_ne hother htmp heqTmp)).trans_ne hne
  exact h.of_dir (hreplaced.dir hname htmp hdir) (hkept _ self.normal_certTmp h.certTmp_ne)
    (hkept _ self.normal_keyTmp h.keyTmp_ne)

end writes

/-- The two writes of `save`, in a directory that is there. -/
theorem crashWp_writes {new : TlsIdentity} {hist : History Op Resp}
    (husable : self.Usable aliasName disk) (hdir : disk.fs.view self.configDir = some none)
    (hstored : self.Stored disk.fs old) (hoffers : offers new) (hkey : self.keyPath ∉ renames hist) :
    (do self.writeAtomically self.certPath new.certDer false
        self.writeAtomically self.keyPath new.keyDer true : Prog Op Resp ε Unit).crashWp exec
      (fun hist' disk' => self.Intact aliasName old offers (renames hist') disk')
      (fun _ disk' r => r = .ok () ∧ self.Stored disk'.fs (some new)) hist disk := by
  obtain ⟨hck, hcc, hck', hkc, hkk, -⟩ := self.names_ne
  have ncert := self.normal_certFile
  have nkey := self.normal_keyFile
  have ncertTmp := self.normal_certTmp
  have nkeyTmp := self.normal_keyTmp
  have htorn : self.certPath ∈ renames hist ++ [self.certPath] ∧
      self.keyPath ∉ renames hist ++ [self.certPath] :=
    ⟨by simp, by simp [hkey, certPath_ne_keyPath.symm]⟩
  -- the certificate
  refine Prog.crashWp_bind_of (crashWp_writeAtomically
    (J := fun renamed disk' => self.Intact aliasName old offers renamed disk') ncert ncertTmp
    self.fits.1 hcc hdir hstored.cert_ne_dir husable.certTmp_ne (.before husable hstored hkey)
      (fun fs' hwrote => ?_)
    (fun fs' hreplaced => .torn (husable.replaced ncert ncertTmp hdir hreplaced) htorn.1 htorn.2))
    (fun hist' disk' _ _ => ?_) nofun
  · exact .before (husable.wrote ncertTmp hdir hwrote) (hstored.congr
      (hwrote.other _ (resolve_ne ncert ncertTmp hcc)) (hwrote.other _ (resolve_ne nkey ncertTmp hkc))) hkey
  -- the key
  · rintro ⟨-, hrenames, fs₁, rfl, hreplaced⟩
    have hdir₁ : fs₁.view self.configDir = some none := hreplaced.dir ncert ncertTmp hdir
    have husable₁ := husable.replaced ncert ncertTmp hdir hreplaced
    rw [certPath, ← hrenames] at htorn
    have hkeyPath : fs₁.view self.keyPath = disk.fs.view self.keyPath :=
      hreplaced.other _ (resolve_ne nkey ncert hck.symm) (resolve_ne nkey ncertTmp hkc)
    have hstored' : ∀ fs', Replaced self.keyPath self.keyTmp new.keyDer fs₁ fs' →
        self.Stored fs' (some new) := fun fs' h =>
      ⟨(h.other _ (resolve_ne ncert nkey hck) (resolve_ne ncert nkeyTmp hck')).trans
        hreplaced.view_eq, h.view_eq⟩
    refine Prog.crashWp_mono (crashWp_writeAtomically
      (J := fun renamed disk' => self.Intact aliasName old offers renamed disk') nkey nkeyTmp
      self.fits.2 hkk hdir₁ (hkeyPath.trans_ne hstored.key_ne_dir) husable₁.keyTmp_ne
        (.torn husable₁ htorn.1 htorn.2)
      (fun fs' hwrote => .torn (husable₁.wrote nkeyTmp hdir₁ hwrote) htorn.1 htorn.2)
      (fun fs' hreplaced' => ?_)) ?_
    · exact ⟨husable₁.replaced nkey nkeyTmp hdir₁ hreplaced',
        fun hnot => absurd (List.mem_append_left _ htorn.1) hnot,
        fun _ => ⟨new, hoffers, hstored' fs' hreplaced'⟩⟩
    · rintro hist'' disk'' r ⟨rfl, -, fs₂, rfl, hreplaced'⟩
      exact ⟨rfl, hstored' fs₂ hreplaced'⟩

/-- **`save`** keeps the old pair up to its first rename and has the new one
after its second. -/
theorem crashWp_save {new : TlsIdentity} {hist : History Op Resp} (husable : self.Usable aliasName disk)
    (hstored : self.Stored disk.fs old) (hoffers : offers new) (hkey : self.keyPath ∉ renames hist) :
    (self.save new).crashWp exec
      (fun hist' disk' => self.Intact aliasName old offers (renames hist') disk')
      (fun _ disk' r => r = .ok () ∧ self.Stored disk'.fs (some new)) hist disk := by
  obtain ⟨fs₁, hmkdir⟩ := Fs.createDirAll_isOk husable.dirOk
  obtain ⟨hdir₁, hother₁⟩ := Fs.view_createDirAll hmkdir
  have hstored₁ : self.Stored fs₁ old := hstored.congr (hother₁ _ (not_prefix_dir self.normal_certFile))
    (hother₁ _ (not_prefix_dir self.normal_keyFile))
  have husable₁ : self.Usable aliasName { disk with fs := fs₁ } := by
    refine husable.of_dir hdir₁ ?_ ?_
    · exact (hother₁ _ (not_prefix_dir self.normal_certTmp)).trans_ne husable.certTmp_ne
    · exact (hother₁ _ (not_prefix_dir self.normal_keyTmp)).trans_ne husable.keyTmp_ne
  have hmkdirCall : exec (.createDirAll self.configDir) disk = (.ok (), { disk with fs := fs₁ }) := by
    rw [exec, hmkdir]
    rfl
  rw [save, Prog.call_bind]
  refine Prog.crashWp_call hmkdirCall (.before husable hstored hkey) ?_
  rw [orIo_ok, Prog.ret_bind]
  exact crashWp_writes husable₁ hdir₁ hstored₁ hoffers (by simpa [renames] using hkey)

/-- **`load`** changes nothing and answers what is stored. -/
theorem crashWp_load {hist : History Op Resp} (husable : self.Usable aliasName disk)
    (hstored : self.Stored disk.fs old) (hkey : self.keyPath ∉ renames hist) :
    self.load.crashWp exec
      (fun hist' disk' => self.Intact aliasName old offers (renames hist') disk')
      (fun hist' disk' r => r = .ok old ∧ disk' = disk ∧ renames hist' = renames hist) hist disk := by
  have hintact : ∀ {hist' : History Op Resp}, renames hist' = renames hist →
      self.Intact aliasName old offers (renames hist') disk := fun heq =>
    .before husable hstored (heq ▸ hkey)
  have hexists : ∀ path, exec (.pathExists path) disk = ((disk.fs.view path).isSome, disk) := fun path =>
    congrArg (·, disk) (Fs.exists?_eq_view disk.fs path)
  rw [load]
  refine Prog.crashWp_call (hexists _) (hintact rfl) (Prog.crashWp_call (hexists _) (hintact ?_) ?_)
  · simp [renames]
  cases old with
  | none =>
    rw [hstored.1, hstored.2]
    exact ⟨hintact (by simp [renames]), rfl, rfl, by simp [renames]⟩
  | some identity =>
    have hreadCert : exec (.read self.certPath) disk = (.ok identity.certDer, disk) :=
      congrArg (·, disk) (Fs.read_eq_ok_iff_view.mpr hstored.1)
    have hreadKey : exec (.read self.keyPath) disk = (.ok identity.keyDer, disk) :=
      congrArg (·, disk) (Fs.read_eq_ok_iff_view.mpr hstored.2)
    rw [hstored.1, hstored.2]
    refine Prog.crashWp_call hreadCert (hintact (by simp [renames])) ?_
    refine Prog.crashWp_call hreadKey (hintact (by simp [renames])) ?_
    exact ⟨hintact (by simp [renames]), rfl, rfl, by simp [renames]⟩

theorem Usable.generated (h : self.Usable aliasName disk) :
    self.Usable aliasName { disk with identities := fun k => disk.identities (k + 1) } :=
  { h with generates := fun k => h.generates (k + 1) }

/-- **`load_or_generate`** returns the pair that is stored, or stores the one it
generates. -/
theorem crashWp_loadOrGenerate {aliasName' : String} {hist : History Op Resp}
    (husable : self.Usable aliasName disk) (hstored : self.Stored disk.fs old)
    (hoffers : ∀ identity, disk.identities 0 aliasName' = .ok identity → offers identity)
    (hkey : self.keyPath ∉ renames hist) :
    (self.loadOrGenerate aliasName').crashWp exec
      (fun hist' disk' => self.Intact aliasName old offers (renames hist') disk')
      (fun _ disk' r => (∀ identity, r = .ok identity → self.Stored disk'.fs (some identity)) ∧
        r = match old with
          | some identity => .ok identity
          | none => (disk.identities 0 aliasName').mapError self.ofRcgen) hist disk := by
  rw [loadOrGenerate]
  refine Prog.crashWp_bind_of (crashWp_load husable hstored hkey) ?_ nofun
  rintro hist' disk' loaded - ⟨hloaded, rfl, hrenames⟩
  obtain rfl := Except.ok.inj hloaded
  have hkey' : self.keyPath ∉ renames hist' := hrenames ▸ hkey
  cases loaded with
  | some identity =>
    exact ⟨.before husable hstored hkey', fun _ heq => Except.ok.inj heq ▸ hstored, rfl⟩
  | none =>
    have hkey'' : ∀ r, self.keyPath ∉ renames (hist' ++ [⟨.generate aliasName', r⟩]) := by
      simpa [renames] using hkey'
    refine Prog.crashWp_call rfl (.before husable hstored hkey') ?_
    cases hgenerated : disk'.identities 0 aliasName' with
    | error e => exact ⟨.before husable.generated hstored (hkey'' _), nofun, rfl⟩
    | ok identity =>
      change (do self.save identity; pure identity : Prog Op Resp ε TlsIdentity).crashWp _ _ _ _ _
      refine Prog.crashWp_bind_of (crashWp_save husable.generated hstored (hoffers identity hgenerated)
        (hkey'' _)) (fun hist'' disk'' _ hintact hsaved => ?_) fun _ _ _ hsaved => nomatch hsaved.1
      exact ⟨hintact, fun _ heq => Except.ok.inj heq ▸ hsaved.2, rfl⟩

/-- What `load` accepts is a pair, or none. -/
theorem stored_of_load (h : (self.load.run exec disk).1 = .ok old) : self.Stored disk.fs old := by
  have hexists : ∀ path, exec (.pathExists path) disk = ((disk.fs.view path).isSome, disk) := fun path =>
    congrArg (·, disk) (Fs.exists?_eq_view disk.fs path)
  rw [load, Prog.run_call, Prog.run_call] at h
  simp only [hexists] at h
  cases hcert : disk.fs.view self.certPath with
  | none =>
    cases hkey : disk.fs.view self.keyPath with
    | none =>
      rw [hcert, hkey] at h
      obtain rfl := Except.ok.inj h
      exact ⟨hcert, hkey⟩
    | some v =>
      rw [hcert, hkey] at h
      cases h
  | some v =>
    cases hkey : disk.fs.view self.keyPath with
    | none =>
      rw [hcert, hkey] at h
      cases h
    | some w =>
      rw [hcert, hkey] at h
      simp only [Option.isSome_some, readFile, Prog.call_bind, Prog.run_call, exec] at h
      cases hreadCert : disk.fs.read self.certPath with
      | error e => rw [hreadCert] at h; cases h
      | ok certDer =>
        simp only [hreadCert, orIo_ok, Prog.ret_bind, Prog.run_call, exec] at h
        cases hreadKey : disk.fs.read self.keyPath with
        | error e => rw [hreadKey] at h; cases h
        | ok keyDer =>
          rw [hreadKey] at h
          obtain rfl := Except.ok.inj h
          exact ⟨Fs.read_eq_ok_iff_view.mp hreadCert, Fs.read_eq_ok_iff_view.mp hreadKey⟩

theorem load_of_stored (husable : self.Usable aliasName disk) (hstored : self.Stored disk.fs old) :
    (self.load.run exec disk).1 = .ok old := by
  have hrun : self.load.crashWp exec
      (fun hist disk' => self.Intact aliasName old (fun _ => True) (renames hist) disk') _ [] disk :=
    crashWp_load husable hstored nofun
  obtain ⟨-, hload, -⟩ := hrun.run
  exact hload

end Vault

/-! ### Crashes and restarts -/

/-- What a daemon is about when it crashes. -/
inductive Attempt
  | save (identity : TlsIdentity)
  | loadOrGenerate (aliasName : String)

/-- The identity an attempt would store. -/
def Attempt.offered (disk : Disk) : Attempt → Option TlsIdentity
  | .save identity => some identity
  | .loadOrGenerate aliasName => (disk.identities 0 aliasName).toOption

namespace Vault

variable {ε : Type} (self : Vault ε)

/-- The program of an attempt. -/
def attempt : Attempt → Prog Op Resp ε Unit
  | .save identity => self.save identity
  | .loadOrGenerate aliasName => do
    let _ ← self.loadOrGenerate aliasName
    pure ()

/-- An attempt that is cut after some operations: those it made, and the disk it
leaves. -/
def crash (disk : Disk) (a : Attempt × ℕ) : History Op Resp × Disk :=
  (self.attempt a.1).cut exec a.2 disk

/-- The disk after some attempts, each cut and begun on the disk the one before
left. -/
def restarts (disk : Disk) (attempts : List (Attempt × ℕ)) : Disk :=
  attempts.foldl (fun disk a => (self.crash disk a).2) disk

/-- The identities some attempts would store. -/
def offers (disk : Disk) : List (Attempt × ℕ) → List TlsIdentity
  | [] => []
  | a :: rest => (a.1.offered disk).toList ++ offers (self.crash disk a).2 rest

/-- No attempt is cut between its two renames. -/
def untorn (disk : Disk) : List (Attempt × ℕ) → Bool
  | [] => true
  | a :: rest =>
    decide (self.certPath ∈ renames (self.crash disk a).1 →
      self.keyPath ∈ renames (self.crash disk a).1) &&
      untorn (self.crash disk a).2 rest

variable {self} {aliasName : String} {disk : Disk} {old : Option TlsIdentity}

theorem crashWp_attempt (husable : self.Usable aliasName disk) (hstored : self.Stored disk.fs old)
    (a : Attempt) :
    (self.attempt a).crashWp exec
      (fun hist disk' =>
        self.Intact aliasName old (fun identity => a.offered disk = some identity) (renames hist) disk')
      (fun _ _ _ => True) [] disk := by
  cases a with
  | save identity => exact Prog.crashWp_mono (crashWp_save husable hstored rfl nofun) fun _ _
      _ _ => trivial
  | loadOrGenerate aliasName' =>
    refine Prog.crashWp_bind_of (crashWp_loadOrGenerate husable hstored (fun identity h => ?_) nofun)
      (fun _ _ _ hintact _ => ⟨hintact, trivial⟩) fun _ _ _ _ => trivial
    rw [Attempt.offered, h]
    rfl

/-- **One crash** that does not come between the renames leaves the old pair or
the new one. -/
theorem stored_of_crash (husable : self.Usable aliasName disk) (hstored : self.Stored disk.fs old)
    {a : Attempt × ℕ} (huntorn : self.certPath ∈ renames (self.crash disk a).1 →
      self.keyPath ∈ renames (self.crash disk a).1) :
    self.Usable aliasName (self.crash disk a).2 ∧
      (self.Stored (self.crash disk a).2.fs old ∨ ∃ identity, a.1.offered disk = some identity ∧
        self.Stored (self.crash disk a).2.fs (some identity)) := by
  have hintact := (crashWp_attempt husable hstored a.1).cut a.2
  refine ⟨hintact.usable, ?_⟩
  by_cases hcert : self.certPath ∈ renames (self.crash disk a).1
  · exact .inr (hintact.replaced (huntorn hcert))
  · exact .inl (hintact.kept hcert)

/-- Any number of such crashes. -/
theorem stored_of_restarts (attempts : List (Attempt × ℕ)) {disk : Disk} {old : Option TlsIdentity}
    (husable : self.Usable aliasName disk) (hstored : self.Stored disk.fs old)
    (huntorn : self.untorn disk attempts = true) :
    self.Usable aliasName (self.restarts disk attempts) ∧
      ∃ stored, self.Stored (self.restarts disk attempts).fs stored ∧
        (stored = old ∨ ∃ identity ∈ self.offers disk attempts, stored = some identity) := by
  induction attempts generalizing disk old with
  | nil => exact ⟨husable, old, hstored, .inl rfl⟩
  | cons a rest ih =>
    rw [untorn, Bool.and_eq_true, decide_eq_true_iff] at huntorn
    obtain ⟨husable', hold | ⟨identity, hoffered, hnew⟩⟩ := stored_of_crash husable hstored huntorn.1
    · obtain ⟨husable'', stored, hstored', hcases⟩ := ih husable' hold huntorn.2
      refine ⟨husable'', stored, hstored', hcases.imp_right ?_⟩
      rintro ⟨identity, hmem, rfl⟩
      exact ⟨identity, List.mem_append_right _ hmem, rfl⟩
    · obtain ⟨husable'', stored, hstored', hcases⟩ := ih husable' hnew huntorn.2
      refine ⟨husable'', stored, hstored', .inr ?_⟩
      rcases hcases with rfl | ⟨identity', hmem, rfl⟩
      · exact ⟨identity, List.mem_append_left _ (by simp [hoffered]), rfl⟩
      · exact ⟨identity', List.mem_append_right _ hmem, rfl⟩

/-- **A vault survives crashes that do not come between its two renames.**  From
a disk that `load` accepts, however often `save` and `load_or_generate` are cut,
`load` then answers none, the pair that was there, or a pair one of them was to
store, and `load_or_generate` succeeds. -/
theorem survives_crashes (self : Vault ε) {aliasName : String} {disk : Disk} {old : Option TlsIdentity}
    (husable : self.Usable aliasName disk) (hload : (self.load.run exec disk).1 = .ok old)
    {attempts : List (Attempt × ℕ)} (huntorn : self.untorn disk attempts = true) :
    let disk' := self.restarts disk attempts
    ∃ stored, (self.load.run exec disk').1 = .ok stored ∧
      (stored = old ∨ ∃ identity ∈ self.offers disk attempts, stored = some identity) ∧
      ∃ identity, ((self.loadOrGenerate aliasName).run exec disk').1 = .ok identity ∧
        (stored = none ∨ stored = some identity) := by
  intro disk'
  obtain ⟨husable', stored, hstored, hcases⟩ :=
    stored_of_restarts attempts husable (stored_of_load hload) huntorn
  refine ⟨stored, load_of_stored husable' hstored, hcases, ?_⟩
  have hrun : (self.loadOrGenerate aliasName).crashWp exec
      (fun hist disk' => self.Intact aliasName stored (fun _ => True) (renames hist) disk') _ [] disk' :=
    crashWp_loadOrGenerate husable' hstored (fun _ _ => trivial) nofun
  obtain ⟨-, -, hresult⟩ := hrun.run
  cases stored with
  | some identity => exact ⟨identity, hresult, .inr rfl⟩
  | none =>
    obtain ⟨identity, hgenerated⟩ := husable'.generates 0
    refine ⟨identity, ?_, .inl rfl⟩
    rw [hresult, hgenerated]
    rfl

end Vault

/-- An empty disk, on which every generated identity is the same. -/
def Disk.sample : Disk := ⟨.empty, fun _ _ => .ok ⟨[3], [4]⟩⟩

/-- A first start is cut before its first rename, a second one completes, and a
`save` is cut before its first rename. -/
theorem Vault.survives_crashes_start :
    let vault := NativeTlsVault.new ["config"]
    let disk' := vault.restarts .sample [(.loadOrGenerate "NAS", 5), (.loadOrGenerate "NAS", 12),
      (.save ⟨[1], [2]⟩, 2)]
    (vault.load.run exec disk').1 = .ok (some ⟨[3], [4]⟩) ∧
      ∃ stored, (vault.load.run exec disk').1 = .ok stored ∧
        (stored = none ∨ ∃ identity ∈ vault.offers .sample [(.loadOrGenerate "NAS", 5),
          (.loadOrGenerate "NAS", 12), (.save ⟨[1], [2]⟩, 2)], stored = some identity) ∧
        ∃ identity, ((vault.loadOrGenerate "NAS").run exec disk').1 = .ok identity ∧
          (stored = none ∨ stored = some identity) := by
  intro vault disk'
  have husable : vault.Usable "NAS" .sample :=
    ⟨Fs.dirOk_empty _, by decide +kernel, by decide +kernel, fun _ => ⟨_, rfl⟩⟩
  exact ⟨by decide +kernel, vault.survives_crashes husable (by decide +kernel) (by decide +kernel)⟩

/-- **A crash between the two renames.**  A `save` leaves the new certificate
with the old key; a first start leaves a certificate alone, and the vault is of
no more use. -/
theorem crash_between_renames :
    (let vault := NativeTlsVault.new ["config"]
     let disk := ((vault.save ⟨[1], [2]⟩).run exec .sample).2
     let torn := vault.restarts disk [(.save ⟨[3], [4]⟩, 3)]
     let alone := vault.restarts .sample [(.loadOrGenerate "NAS", 6)]
     (vault.load.run exec disk).1 = .ok (some ⟨[1], [2]⟩) ∧
       (vault.load.run exec torn).1 = .ok (some ⟨[3], [2]⟩) ∧
       (vault.load.run exec alone).1 = .error (.crypto "incomplete native TLS identity on disk") ∧
       ((vault.loadOrGenerate "NAS").run exec alone).1 =
         .error (.crypto "incomplete native TLS identity on disk")) ∧
    (let vault := TlsIdentityVault.new ["config"]
     let disk := ((vault.save ⟨[1], [2]⟩).run exec .sample).2
     let torn := vault.restarts disk [(.save ⟨[3], [4]⟩, 3)]
     let alone := vault.restarts .sample [(.loadOrGenerate "NAS", 6)]
     (vault.load.run exec disk).1 = .ok (some ⟨[1], [2]⟩) ∧
       (vault.load.run exec torn).1 = .ok (some ⟨[3], [2]⟩) ∧
       (vault.load.run exec alone).1 = .error (.crypto "incomplete LocalSend v2 TLS identity on disk") ∧
       ((vault.loadOrGenerate "NAS").run exec alone).1 =
         .error (.crypto "incomplete LocalSend v2 TLS identity on disk")) := by
  decide +kernel

end NightBridge.Tls
