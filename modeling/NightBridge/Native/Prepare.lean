/-
# The request a sender prepares

`prepare_request` reads every source file and offers it under the id `file-0`,
`file-1`, … with its size and digest.  `run_prepareRequest` says what a request
it returns is; `offer_prepared` that such a request is an offer of the bytes of
the source files (`sourceContent`) at stable and distinct staging paths, the ids
being made of characters `safe_component` keeps.
-/

import NightBridge.Native.Delivery

namespace NightBridge.Native

open Data Effect NativeTransferSender

/-- The id of the `index`-th file of a prepared request. -/
def preparedId (index : ℕ) : String := "file-" ++ toString index

theorem cleanComponent_preparedId (index : ℕ) :
    cleanComponent (preparedId index) = preparedId index := by
  have hkeep : ∀ c ∈ (preparedId index).toList, (c.isAlphanum || c = '-' || c = '_') = true := by
    intro c hc
    rw [preparedId, String.toList_append, List.mem_append] at hc
    rcases hc with hc | hc
    · have hall : "file-".toList.all (fun c => c.isAlphanum || c = '-' || c = '_') = true := by
        decide
      exact List.all_eq_true.mp hall c hc
    · rw [show toString index = index.repr from rfl, Nat.toList_repr] at hc
      have hdigit := Nat.isDigit_of_mem_toDigits (by decide) (by decide) hc
      simp [Char.isAlphanum, hdigit]
  rw [cleanComponent, List.filter_eq_self.mpr hkeep, String.ofList_toList]

theorem stable_preparedId (index : ℕ) : Stable (preparedId index) := by
  rw [Stable, cleanComponent_preparedId, preparedId]
  intro h
  have := congrArg (fun s : String => s.toList.length) h
  simp at this

theorem preparedId_injective : Function.Injective preparedId := by
  intro i j h
  have hdigits := congrArg String.toList h
  rw [preparedId, preparedId, String.toList_append, String.toList_append] at hdigits
  replace hdigits := List.append_cancel_left hdigits
  rw [show toString i = i.repr from rfl, show toString j = j.repr from rfl, Nat.toList_repr,
    Nat.toList_repr] at hdigits
  rw [← Nat.ofDigitChars_ten_toDigits (n := i), hdigits, Nat.ofDigitChars_ten_toDigits]

theorem isBlank_preparedId (index : ℕ) : isBlank (preparedId index) = false := by
  rw [isBlank, preparedId, String.toList_append, List.all_append]
  exact Bool.and_eq_false_imp.mpr fun h => absurd h (by decide)

/-- A prepared id is short. -/
theorem length_utf8_preparedId {index n : ℕ} (hn : 0 < n) (h : index < 10 ^ n) :
    (utf8 (preparedId index)).length ≤ 5 + n := by
  have hlist : (preparedId index).toList = "file-".toList ++ Nat.toDigits 10 index := by
    rw [preparedId, String.toList_append, show toString index = index.repr from rfl, Nat.toList_repr]
  have hascii : ∀ c ∈ (preparedId index).toList, c.toNat < 128 := by
    intro c hc
    rw [hlist, List.mem_append] at hc
    rcases hc with hc | hc
    · have hall : "file-".toList.all (fun c => c.toNat < 128) = true := by decide
      simpa using List.all_eq_true.mp hall c hc
    · have hdigit := Nat.isDigit_of_mem_toDigits (by decide) (by decide) hc
      simp only [Char.isDigit, Bool.and_eq_true, decide_eq_true_eq] at hdigit
      have := UInt32.le_iff_toNat_le.mp hdigit.2
      exact this.trans_lt (by decide)
  rw [length_utf8_of_ascii hascii, hlist, List.length_append]
  exact Nat.add_le_add (by decide) ((Nat.length_toDigits_le_iff (by decide) hn).mpr h)

/-- The offer made of the file at `path`. -/
def OfferOf [Primitives] (fs : Fs) (o : FileOffer) (path : Path) : Prop :=
  ∃ bytes, fs.contents path = some bytes ∧ o.size = bytes.length ∧ bytes.length < 2 ^ 63 ∧
    o.blake3 = some (blake3Hex bytes)

/-- The bytes of the source file offered under an id. -/
def sourceContent (fs : Fs) (sources : List (FileOffer × Path)) (fileId : String) : Bytes :=
  match sources.find? fun source => source.1.fileId = fileId with
  | some source => (fs.contents source.2).getD []
  | none => []

theorem sourceContent_eq {fs : Fs} {sources : List (FileOffer × Path)}
    (hnd : (sources.map fun source => source.1.fileId).Nodup) {o : FileOffer} {path : Path}
    (hm : (o, path) ∈ sources) : sourceContent fs sources o.fileId = (fs.contents path).getD [] := by
  have hfind : sources.find? (fun source => source.1.fileId = o.fileId) = some (o, path) := by
    cases hf : sources.find? (fun source => source.1.fileId = o.fileId) with
    | none => simpa using List.find?_eq_none.mp hf _ hm
    | some source =>
      have hid : source.1.fileId = o.fileId := by simpa using List.find?_some hf
      rw [List.inj_on_of_nodup_map hnd (List.mem_of_find?_eq_some hf) hm hid]
  rw [sourceContent, hfind]

section prepare

variable [Primitives] {s : Store} {w : Wire}

/-- What the loop of `prepare_request` returns. -/
theorem run_prepareFrom {paths : List Path} {index : ℕ} {files : List FileOffer} {sw : Store × Wire}
    (h : (prepareFrom index paths).run handler (s, w) = (.ok files, sw)) :
    sw = (s, w) ∧ List.Forall₂ (OfferOf s.fs) files paths ∧
      files.map FileOffer.fileId = (List.range' index files.length).map preparedId := by
  induction paths generalizing index files sw with
  | nil =>
    obtain ⟨hfiles, rfl⟩ := Prod.mk.inj h
    obtain rfl := Except.ok.inj hfiles
    exact ⟨rfl, .nil, rfl⟩
  | cons path paths ih =>
    rw [prepareFrom] at h
    cases hread : s.fs.read path with
    | error e =>
      rw [Prog.run_bind_error _ (show (readFile path).run handler (s, w) = (.error (.io e), (s, w))
        by simp [readFile, handler, exec, orIo, Except.mapError, hread])] at h
      cases h
    | ok bytes =>
      rw [Prog.run_bind_ok _ (show (readFile path).run handler (s, w) = (.ok bytes, (s, w))
        by simp [readFile, handler, exec, orIo, Except.mapError, hread])] at h
      cases hname : fileName path with
      | error e =>
        rw [hname] at h
        cases h
      | ok name =>
        rw [hname, Prog.ofExcept_ok, Prog.ret_bind] at h
        split_ifs at h with hlen
        · rw [Prog.run_bind] at h
          cases hrest : (prepareFrom (index + 1) paths).run handler (s, w) with
          | mk r sw' =>
            rw [hrest] at h
            cases r with
            | error e => cases h
            | ok rest =>
              obtain ⟨rfl, hall, hids⟩ := ih hrest
              obtain ⟨hfiles, rfl⟩ := Prod.mk.inj h
              obtain rfl := Except.ok.inj hfiles
              refine ⟨rfl, .cons ⟨bytes, Fs.read_eq_ok_iff.mp hread, rfl, hlen, rfl⟩ hall, ?_⟩
              rw [List.map_cons, hids, List.length_cons, List.range'_succ, List.map_cons]
              rfl
        · cases h

/-- **What a prepared request is.** -/
theorem run_prepareRequest {paths : List Path} {request : RequestTransfer} {sw : Store × Wire}
    (h : (prepareRequest paths).run handler (s, w) = (.ok request, sw)) :
    sw = ({ s with uuids := advance s.uuids }, w) ∧ request.transferId = s.uuids 0 ∧
      List.Forall₂ (OfferOf s.fs) request.files paths ∧
      request.files.map FileOffer.fileId = (List.range request.files.length).map preparedId := by
  rw [prepareRequest, Prog.run_bind] at h
  cases hrun : (prepareFrom 0 paths).run handler (s, w) with
  | mk r sw' =>
    rw [hrun] at h
    cases r with
    | error e => cases h
    | ok files =>
      obtain ⟨rfl, hall, hids⟩ := run_prepareFrom hrun
      obtain ⟨hreq, rfl⟩ := Prod.mk.inj h
      obtain rfl := Except.ok.inj hreq
      rw [← List.range_eq_range'] at hids
      exact ⟨rfl, rfl, hall, hids⟩

omit [Primitives] in
theorem exists_preparedId {files : List FileOffer}
    (hids : files.map FileOffer.fileId = (List.range files.length).map preparedId) {o : FileOffer}
    (ho : o ∈ files) : ∃ k < files.length, o.fileId = preparedId k := by
  have hmem : o.fileId ∈ files.map FileOffer.fileId := List.mem_map.mpr ⟨o, ho, rfl⟩
  rw [hids] at hmem
  obtain ⟨k, hk, he⟩ := List.mem_map.mp hmem
  exact ⟨k, List.mem_range.mp hk, he.symm⟩

omit [Primitives] in
theorem nodup_fileIds {files : List FileOffer}
    (hids : files.map FileOffer.fileId = (List.range files.length).map preparedId) :
    (files.map FileOffer.fileId).Nodup := by
  rw [hids]
  exact List.nodup_range.map preparedId_injective

/-- **A prepared request offers the bytes of its source files.** -/
theorem offer_prepared {fs : Fs} {paths : List Path} {request : RequestTransfer}
    (hstable : Stable request.transferId)
    (hall : List.Forall₂ (OfferOf fs) request.files paths)
    (hids : request.files.map FileOffer.fileId = (List.range request.files.length).map preparedId) :
    Offer request.transferId request.files (sourceContent fs (request.files.zip paths)) ∧
      ∀ o path, (o, path) ∈ request.files.zip paths →
        fs.contents path = some (sourceContent fs (request.files.zip paths) o.fileId) := by
  have hlen := hall.length_eq
  have hfst : (request.files.zip paths).map (fun source => source.1.fileId) =
      request.files.map FileOffer.fileId := by
    rw [show (fun source : FileOffer × Path => source.1.fileId) = FileOffer.fileId ∘ Prod.fst
      from rfl, ← List.map_map, List.map_fst_zip (by omega)]
  have hnd : ((request.files.zip paths).map fun source => source.1.fileId).Nodup := by
    rw [hfst]
    exact nodup_fileIds hids
  have hsource : ∀ o path, (o, path) ∈ request.files.zip paths → ∃ bytes,
      fs.contents path = some bytes ∧ o.size = bytes.length ∧ bytes.length < 2 ^ 63 ∧
        o.blake3 = some (blake3Hex bytes) ∧
        sourceContent fs (request.files.zip paths) o.fileId = bytes := by
    intro o path hm
    obtain ⟨bytes, hc, hsize, hlt, hhash⟩ := (List.forall₂_iff_zip.mp hall).2 hm
    exact ⟨bytes, hc, hsize, hlt, hhash, by rw [sourceContent_eq hnd hm, hc]; rfl⟩
  have hpair : ∀ o ∈ request.files, ∃ path, (o, path) ∈ request.files.zip paths := by
    intro o ho
    rw [← List.map_fst_zip (show request.files.length ≤ paths.length by omega)] at ho
    obtain ⟨⟨o', path⟩, hm, rfl⟩ := List.mem_map.mp ho
    exact ⟨path, hm⟩
  have hclean : ∀ o ∈ request.files, cleanComponent o.fileId = o.fileId := by
    intro o ho
    obtain ⟨k, -, hk⟩ := exists_preparedId hids ho
    rw [hk, cleanComponent_preparedId]
  refine ⟨⟨hstable, fun o ho => ?_, ?_, fun o ho => ?_, fun o ho => ?_, fun o ho h hh => ?_⟩,
    fun o path hm => ?_⟩
  · obtain ⟨k, -, hk⟩ := exists_preparedId hids ho
    rw [hk]
    exact stable_preparedId k
  · rw [List.map_congr_left hclean]
    exact nodup_fileIds hids
  · obtain ⟨path, hm⟩ := hpair o ho
    obtain ⟨bytes, -, hsize, -, -, hc⟩ := hsource o path hm
    rw [hc, hsize]
  · obtain ⟨path, hm⟩ := hpair o ho
    obtain ⟨bytes, -, hsize, hlt, -⟩ := hsource o path hm
    exact hsize.trans_lt hlt |>.le
  · obtain ⟨path, hm⟩ := hpair o ho
    obtain ⟨bytes, -, -, -, hhash, hc⟩ := hsource o path hm
    rw [hc]
    exact Option.some.inj (hhash.symm.trans hh)
  · obtain ⟨bytes, hc, -, -, -, hs⟩ := hsource o path hm
    rw [hc, hs]

/-- A request prepared from sources with bytes offers files with bytes. -/
theorem size_pos_prepared {fs : Fs} {paths : List Path} {files : List FileOffer}
    (hall : List.Forall₂ (OfferOf fs) files paths) (hpos : ∀ path ∈ paths, fs.contents path ≠ some []) :
    ∀ o ∈ files, 0 < o.size := by
  intro o ho
  have hlen := hall.length_eq
  rw [← List.map_fst_zip (show files.length ≤ paths.length by omega)] at ho
  obtain ⟨⟨o', path⟩, hm, rfl⟩ := List.mem_map.mp ho
  obtain ⟨bytes, hc, hsize, -⟩ := (List.forall₂_iff_zip.mp hall).2 hm
  have hne := hpos path (List.of_mem_zip hm).2
  rw [hc] at hne
  rw [show (o', path).1.size = bytes.length from hsize]
  exact List.length_pos_iff.mpr fun hnil => hne (by rw [hnil])

end prepare

end NightBridge.Native
