/-
# The manifest database

`manifest_schema.sql` and the SQL statements of `manifest.rs`: the tables
`transfers`, `transfer_files` and `verified_chunks` with their primary and
foreign keys, and one function for each statement the store runs.  SQLite keeps
integers as `i64`, so sizes, offsets and lengths are stored as integers and cast
back to `u64` when they are read; the casts are `asI64` and `asU64`.

`create_transfer` is one transaction: when an insert is refused, none of them
stays.  `verified_chunks` is keyed by the offset of a chunk, so recording a
chunk replaces the row of an earlier chunk at that offset, whatever its length.
-/

import NightBridge.Native.Dto
import NightBridge.Data.Span
import NightBridge.Data.Table

namespace NightBridge.Native

open Data

def asI64 (x : ℕ) : ℤ := if x < 2 ^ 63 then x else (x : ℤ) - 2 ^ 64

def asU64 (x : ℤ) : ℕ := (x % 2 ^ 64).toNat

@[simp] theorem asU64_asI64 {x : ℕ} (h : x < 2 ^ 64) : asU64 (asI64 x) = x := by
  unfold asU64 asI64
  split_ifs <;> omega

inductive TransferDirection
  | send
  | receive
  deriving DecidableEq, Repr

/-- `TransferState`; the column holds its text, one of the six the `CHECK`
allows. -/
inductive TransferState
  | pending
  | active
  | interrupted
  | completed
  | cancelled
  | failed
  deriving DecidableEq, Repr

structure TransferRow where
  transferId : String
  peerFingerprint : String
  direction : TransferDirection
  state : TransferState
  createdAt : ℤ
  updatedAt : ℤ
  deriving DecidableEq

structure FileRow where
  transferId : String
  fileId : String
  fileName : String
  size : ℤ
  blake3 : Option String
  deriving DecidableEq

structure ChunkRow where
  transferId : String
  fileId : String
  offset : ℤ
  length : ℤ
  blake3 : String
  deriving DecidableEq

/-- `PRIMARY KEY (transfer_id, file_id)`. -/
def FileRow.key (r : FileRow) : String × String := (r.transferId, r.fileId)

/-- `PRIMARY KEY (transfer_id, file_id, offset)`. -/
def ChunkRow.key (r : ChunkRow) : String × String × ℤ := (r.transferId, r.fileId, r.offset)

/-- The manifest database. -/
@[ext]
structure ManifestDb where
  transfers : Table TransferRow TransferRow.transferId
  files : Table FileRow FileRow.key
  chunks : Table ChunkRow ChunkRow.key

namespace ManifestDb

/-- The database after the schema has been created. -/
def empty : ManifestDb := ⟨Table.empty, Table.empty, Table.empty⟩

instance : Inhabited ManifestDb := ⟨empty⟩

/-- `SELECT state FROM transfers WHERE transfer_id = ?`. -/
def selectState (db : ManifestDb) (transferId : String) : Option TransferState :=
  (db.transfers.find? transferId).map TransferRow.state

/-- The inserts into `transfer_files` of one transaction. -/
def insertFiles (files : Table FileRow FileRow.key) :
    List FileRow → Option (Table FileRow FileRow.key)
  | [] => some files
  | r :: rs => (files.insert r).bind fun files' => insertFiles files' rs

/-- The transaction of `create_transfer`. -/
def insertTransfer (db : ManifestDb) (row : TransferRow) (rows : List FileRow) :
    Except String ManifestDb :=
  match db.transfers.insert row with
  | none => .error "UNIQUE constraint failed: transfers.transfer_id"
  | some transfers =>
    match insertFiles db.files rows with
    | none =>
      .error "UNIQUE constraint failed: transfer_files.transfer_id, transfer_files.file_id"
    | some files => .ok { db with transfers, files }

/-- `SELECT size FROM transfer_files WHERE transfer_id = ? AND file_id = ?`. -/
def selectSize (db : ManifestDb) (transferId fileId : String) : Option ℤ :=
  (db.files.find? (transferId, fileId)).map FileRow.size

/-- `INSERT OR REPLACE INTO verified_chunks`, with its foreign key. -/
def replaceChunk (db : ManifestDb) (row : ChunkRow) : Except String ManifestDb :=
  match db.files.find? (row.transferId, row.fileId) with
  | none => .error "FOREIGN KEY constraint failed"
  | some _ => .ok { db with chunks := db.chunks.replace row }

/-- `UPDATE transfers SET updated_at = ? WHERE transfer_id = ?`. -/
def touchTransfer (db : ManifestDb) (transferId : String) (now : ℤ) : ManifestDb :=
  { db with
    transfers := db.transfers.modify transferId (fun r => { r with updatedAt := now })
      (fun _ => rfl) }

/-- `UPDATE transfers SET state = ?, updated_at = ? WHERE transfer_id = ?`, with
the number of rows it changed. -/
def updateState (db : ManifestDb) (transferId : String) (state : TransferState) (now : ℤ) :
    ℕ × ManifestDb :=
  (if (db.transfers.find? transferId).isSome then 1 else 0,
    { db with
      transfers := db.transfers.modify transferId
        (fun r => { r with state := state, updatedAt := now }) (fun _ => rfl) })

/-- `SELECT … FROM transfer_files WHERE transfer_id = ?`. -/
def selectFiles (db : ManifestDb) (transferId : String) : List FileRow :=
  db.files.rows.filter fun r => r.transferId = transferId

/-- The same with `ORDER BY file_id ASC`; text is compared bytewise. -/
def selectFilesOrdered (db : ManifestDb) (transferId : String) : List FileRow :=
  (db.selectFiles transferId).insertionSort fun a b => a.fileId ≤ b.fileId

/-- `SELECT offset, length FROM verified_chunks WHERE transfer_id = ? AND
file_id = ? ORDER BY offset ASC`. -/
def selectRanges (db : ManifestDb) (transferId fileId : String) : List (ℤ × ℤ) :=
  ((db.chunks.rows.filter fun r => r.transferId = transferId ∧ r.fileId = fileId).insertionSort
    fun a b => a.offset ≤ b.offset).map fun r => (r.offset, r.length)

/-! ### What the statements leave alone -/

@[simp] theorem touchTransfer_chunks (db : ManifestDb) (t : String) (now : ℤ) :
    (db.touchTransfer t now).chunks = db.chunks := rfl

theorem selectState_touchTransfer (db : ManifestDb) (t t' : String) (now : ℤ) :
    (db.touchTransfer t now).selectState t' = db.selectState t' := by
  simp only [selectState, touchTransfer, Table.find?_modify]
  split_ifs
  · simp [Function.comp_def]
  · rfl

theorem selectState_updateState (db : ManifestDb) (t t' : String) (s : TransferState) (now : ℤ) :
    (db.updateState t s now).2.selectState t' =
      if t' = t then (db.selectState t').map (fun _ => s) else db.selectState t' := by
  simp only [selectState, updateState, Table.find?_modify]
  split_ifs
  · simp [Function.comp_def]
  · rfl

theorem insertFiles_eq_some_iff {files files' : Table FileRow FileRow.key} {rows : List FileRow} :
    insertFiles files rows = some files' ↔
      (rows.map FileRow.key).Nodup ∧ (∀ r ∈ rows, files.find? r.key = none) ∧
        files'.rows = files.rows ++ rows := by
  induction rows generalizing files with
  | nil =>
    simp only [insertFiles, Option.some.injEq, Table.ext_iff]
    simp [eq_comm]
  | cons r rows ih =>
    simp only [insertFiles, Option.bind_eq_some_iff, Table.insert_eq_some_iff, ih]
    have new : ∀ {f₁ : Table FileRow FileRow.key} (_ : f₁.rows = files.rows ++ [r])
        (r' : FileRow), f₁.find? r'.key = none ↔ files.find? r'.key = none ∧ r.key ≠ r'.key := by
      intro f₁ h₁ r'
      simp [Table.find?_eq_none_iff, h₁, or_imp, forall_and]
    constructor
    · rintro ⟨f₁, ⟨h1, h2⟩, h3, h4, h5⟩
      refine ⟨?_, ?_, by rw [h5, h2]; simp⟩
      · rw [List.map_cons, List.nodup_cons]
        refine ⟨?_, h3⟩
        rintro hm
        obtain ⟨r', hr', hk⟩ := List.mem_map.mp hm
        exact ((new h2 r').mp (h4 r' hr')).2 hk.symm
      · intro r' hr'
        rcases List.mem_cons.mp hr' with rfl | hr'
        · exact h1
        · exact ((new h2 r').mp (h4 r' hr')).1
    · rintro ⟨h1, h2, h3⟩
      rw [List.map_cons, List.nodup_cons] at h1
      obtain ⟨f₁, hf₁⟩ : ∃ f₁, files.insert r = some f₁ := by
        rw [← Option.ne_none_iff_exists', Ne, Table.insert_eq_none_iff]
        exact fun h => h (h2 r (by simp))
      have hrows := (Table.insert_eq_some_iff.mp hf₁).2
      refine ⟨f₁, ⟨h2 r (by simp), hrows⟩, h1.2, fun r' hr' => ?_, by rw [h3, hrows]; simp⟩
      exact (new hrows r').mpr ⟨h2 r' (List.mem_cons_of_mem _ hr'),
        fun he => h1.1 (List.mem_map.mpr ⟨r', hr', he.symm⟩)⟩

end ManifestDb
end NightBridge.Native
