/-
# The event stream of the daemon

`crates/daemon/src/events.rs` and `events` of `api/http.rs`: what happens in the
daemon is turned into a message of the protocol, the message into JSON, and the
JSON into a frame of server-sent events, with keep-alive comments in between.

A frame is written by `Event` of axum: a line `event:daemon`, a line `data:…`
for each line of the data, and an empty line.  A field with a line break in it
makes it panic; the text of a JSON value is one line, so each event is one frame
with one line of data (`frameText_event`).  Whether blanks follow the colon of a
field is left open, and so is what a comment says.
-/

import NightBridge.Data.Json

namespace NightBridge.Daemon

open Data JsonValue

/-! ### Messages -/

inductive DaemonEvent
  | transferStarted (transferId : String)
  | transferProgress (transferId : String) (bytesDone bytesTotal : ℕ)
  | transferCompleted (transferId : String)
  | transferFailed (transferId code message : String)
  | inboxChanged
  | peerSeen (aliasName address : String) (port : ℕ)
  deriving DecidableEq

structure DaemonEventEnvelope where
  eventId : String
  occurredAtUnixSeconds : ℤ
  event : DaemonEvent
  deriving DecidableEq

namespace Proto

inductive DaemonEventType
  | unspecified
  | transferStarted
  | transferProgress
  | transferCompleted
  | transferFailed
  | inboxChanged
  | peerSeen
  deriving DecidableEq

/-- `event_type as i32`. -/
def DaemonEventType.code : DaemonEventType → ℤ
  | .unspecified => 0
  | .transferStarted => 1
  | .transferProgress => 2
  | .transferCompleted => 3
  | .transferFailed => 4
  | .inboxChanged => 5
  | .peerSeen => 6

def DaemonEventType.tryFrom (code : ℤ) : Option DaemonEventType :=
  [.unspecified, .transferStarted, .transferProgress, .transferCompleted, .transferFailed, .inboxChanged,
    .peerSeen].find? fun eventType => eventType.code = code

structure TransferFile where
  fileId : String
  fileName : String
  path : Option String
  size : ℕ
  bytesDone : ℕ
  blake3 : Option String

structure InboxEntry where
  fileName : String
  path : String
  size : ℕ
  modifiedUnixSeconds : ℤ

/-- `ActiveTransfer`, without what no event shows. -/
structure ActiveTransfer where
  transferId : String
  peerFingerprint : String
  direction : ℤ
  state : ℤ
  bytesTotal : ℕ
  bytesDone : ℕ
  createdAtUnixSeconds : ℤ
  updatedAtUnixSeconds : ℤ

structure ErrorDetail where
  code : String
  message : String

/-- `LanPeer`, without what no event shows. -/
structure LanPeer where
  aliasName : String
  address : String
  port : ℕ
  protocol : ℤ
  fingerprint : Option String
  deviceModel : Option String
  deviceType : Option String
  download : Bool
  extensions : List String

inductive Payload
  | transferStarted (transfer : Option ActiveTransfer)
  | transferProgress (transferId : String) (bytesDone bytesTotal : ℕ) (files : List TransferFile)
  | transferCompleted (transferId : String) (inboxEntries : List InboxEntry)
  | transferFailed (transferId : String) (error : Option ErrorDetail)
  | inboxChanged (entries : List InboxEntry)
  | peerSeen (peer : Option LanPeer)

/-- `DaemonEvent` of the protocol. -/
structure DaemonEvent where
  eventId : String
  occurredAtUnixSeconds : ℤ
  type : ℤ
  payload : Option Payload

end Proto

open Proto

namespace DaemonEventEnvelope

variable (self : DaemonEventEnvelope)

def proto (eventType : DaemonEventType) (payload : Payload) : Proto.DaemonEvent :=
  ⟨self.eventId, self.occurredAtUnixSeconds, eventType.code, some payload⟩

/-- `to_proto`; the state of a started transfer is `Active`, which is 2. -/
def toProto : Proto.DaemonEvent :=
  match self.event with
  | .transferStarted transferId => self.proto .transferStarted (.transferStarted (some
      { transferId, peerFingerprint := "", direction := 0, state := 2, bytesTotal := 0, bytesDone := 0
        createdAtUnixSeconds := self.occurredAtUnixSeconds
        updatedAtUnixSeconds := self.occurredAtUnixSeconds }))
  | .transferProgress transferId bytesDone bytesTotal =>
      self.proto .transferProgress (.transferProgress transferId bytesDone bytesTotal [])
  | .transferCompleted transferId => self.proto .transferCompleted (.transferCompleted transferId [])
  | .transferFailed transferId code message =>
      self.proto .transferFailed (.transferFailed transferId (some ⟨code, message⟩))
  | .inboxChanged => self.proto .inboxChanged (.inboxChanged [])
  | .peerSeen aliasName address port => self.proto .peerSeen (.peerSeen (some
      { aliasName, address, port, protocol := 0, fingerprint := none, deviceModel := none, deviceType := none
        download := false, extensions := [] }))

end DaemonEventEnvelope

/-! ### JSON -/

def eventTypeName : DaemonEventType → String
  | .transferStarted => "transfer_started"
  | .transferProgress => "transfer_progress"
  | .transferCompleted => "transfer_completed"
  | .transferFailed => "transfer_failed"
  | .inboxChanged => "inbox_changed"
  | .peerSeen => "peer_seen"
  | .unspecified => "unspecified"

def transferFilesJson (files : List TransferFile) : JsonValue :=
  .array (files.map fun file => json
    [("file_id", .string file.fileId), ("file_name", .string file.fileName),
      ("path", ofOption .string file.path), ("size", .number file.size),
      ("bytes_done", .number file.bytesDone), ("blake3", ofOption .string file.blake3)])

def inboxEntriesJson (entries : List InboxEntry) : JsonValue :=
  .array (entries.map fun entry => json
    [("file_name", .string entry.fileName), ("path", .string entry.path), ("size", .number entry.size),
      ("modified_unix_seconds", .number entry.modifiedUnixSeconds)])

def payloadJson : Payload → String × JsonValue
  | .transferStarted transfer => ("transfer_started", json [("transfer", ofOption (fun transfer => json
      [("transfer_id", .string transfer.transferId), ("peer_fingerprint", .string transfer.peerFingerprint),
        ("direction", .number transfer.direction), ("state", .number transfer.state),
        ("bytes_total", .number transfer.bytesTotal), ("bytes_done", .number transfer.bytesDone),
        ("created_at_unix_seconds", .number transfer.createdAtUnixSeconds),
        ("updated_at_unix_seconds", .number transfer.updatedAtUnixSeconds)]) transfer)])
  | .transferProgress transferId bytesDone bytesTotal files => ("transfer_progress", json
      [("transfer_id", .string transferId), ("bytes_done", .number bytesDone),
        ("bytes_total", .number bytesTotal), ("files", transferFilesJson files)])
  | .transferCompleted transferId inboxEntries => ("transfer_completed", json
      [("transfer_id", .string transferId), ("inbox_entries", inboxEntriesJson inboxEntries)])
  | .transferFailed transferId error => ("transfer_failed", json
      [("transfer_id", .string transferId), ("error", ofOption (fun error => json
        [("code", .string error.code), ("message", .string error.message)]) error)])
  | .inboxChanged entries => ("inbox_changed", json [("entries", inboxEntriesJson entries)])
  | .peerSeen peer => ("peer_seen", json [("peer", ofOption (fun peer => json
      [("alias", .string peer.aliasName), ("address", .string peer.address), ("port", .number peer.port),
        ("protocol", .number peer.protocol), ("fingerprint", ofOption .string peer.fingerprint),
        ("device_model", ofOption .string peer.deviceModel), ("device_type", ofOption .string peer.deviceType),
        ("download", .bool peer.download), ("extensions", .array (peer.extensions.map .string))]) peer)])

def eventJson (event : Proto.DaemonEvent) : JsonValue :=
  let eventType := (DaemonEventType.tryFrom event.type).getD .unspecified
  let value := [("event_id", .string event.eventId),
    ("occurred_at_unix_seconds", .number event.occurredAtUnixSeconds),
    ("type", .string (eventTypeName eventType))]
  match event.payload with
  | some payload => json (value ++ [payloadJson payload])
  | none => json value

def DaemonEventEnvelope.data (event : DaemonEventEnvelope) : List Char := render (eventJson event.toProto)

/-! ### Frames -/

def sseLine (gap : ℕ) (name value : List Char) : List Char := name ++ ':' :: (List.replicate gap ' ' ++ value)

/-- A field of a frame; a line break in its value makes the writer panic. -/
def sseField (gap : ℕ) (name value : List Char) : Option (List Char) :=
  if '\r' ∈ value ∨ '\n' ∈ value then none else some (sseLine gap name value ++ ['\n'])

/-- `Event::default().event(event).data(data)`, and the empty line. -/
def sseEvent (gap : ℕ) (event data : List Char) : Option (List Char) := do
  let event ← sseField gap "event".toList event
  let data ← (data.splitOn '\n').mapM (sseField gap "data".toList)
  return event ++ data.flatten ++ ['\n']

structure SseComment where
  text : List Char
  oneLine : '\n' ∉ text

/-- What the endpoint sends. -/
inductive SseFrame
  | event (envelope : DaemonEventEnvelope)
  | keepAlive (comment : SseComment)

def frameText (gap : ℕ) : SseFrame → Option (List Char)
  | .event envelope => sseEvent gap "daemon".toList envelope.data
  | .keepAlive comment => some (':' :: comment.text ++ ['\n', '\n'])

def streamText (gap : ℕ) (frames : List SseFrame) : Option (List Char) :=
  (frames.mapM (frameText gap)).map List.flatten

def SseFrame.envelope? : SseFrame → Option DaemonEventEnvelope
  | .event envelope => some envelope
  | .keepAlive _ => none

/-! ### An event is one line of data -/

theorem newline_notMem_sseLine {gap : ℕ} {name value : List Char} (hname : '\n' ∉ name)
    (hvalue : '\n' ∉ value) :
    '\n' ∉ sseLine gap name value := by
  simp [sseLine, hname, hvalue]

theorem sseField_of_oneLine (gap : ℕ) (name : List Char) {value : List Char} (hvalue : OneLine value) :
    sseField gap name value = some (sseLine gap name value ++ ['\n']) :=
  if_neg fun hbreak => hbreak.elim (fun hmem => (hvalue _ hmem).2 rfl) fun hmem => (hvalue _ hmem).1 rfl

theorem DaemonEventEnvelope.newline_notMem_data (event : DaemonEventEnvelope) : '\n' ∉ event.data :=
  fun hmem => (oneLine_render _ _ hmem).1 rfl

theorem newline_notMem_eventLine (gap : ℕ) : '\n' ∉ sseLine gap "event".toList "daemon".toList :=
  newline_notMem_sseLine (by decide) (by decide)

theorem newline_notMem_dataLine (gap : ℕ) (event : DaemonEventEnvelope) :
    '\n' ∉ sseLine gap "data".toList event.data :=
  newline_notMem_sseLine (by decide) event.newline_notMem_data

theorem DaemonEventEnvelope.data_eq_cons (event : DaemonEventEnvelope) : ∃ cs, event.data = '\x7b' :: cs := by
  unfold DaemonEventEnvelope.data eventJson
  cases event.toProto.payload with
  | none => exact render_json _
  | some payload => exact render_json _

/-- **The frame of an event**: two lines and an empty one. -/
theorem frameText_event (gap : ℕ) (event : DaemonEventEnvelope) : frameText gap (.event event) =
    some ((sseLine gap "event".toList "daemon".toList ++ '\n' :: sseLine gap "data".toList event.data) ++
      ['\n', '\n']) := by
  have hname : OneLine "daemon".toList := by decide
  have hdata : OneLine event.data := oneLine_render _
  rw [frameText, sseEvent, sseField_of_oneLine gap _ hname, List.splitOn_eq_singleton event.newline_notMem_data,
    List.mapM_cons, sseField_of_oneLine gap _ hdata]
  simp

theorem isSome_frameText (gap : ℕ) (frame : SseFrame) : (frameText gap frame).isSome := by
  cases frame with
  | event envelope => rw [frameText_event]; rfl
  | keepAlive comment => rfl

@[simp] theorem streamText_nil (gap : ℕ) : streamText gap [] = some [] := rfl

theorem streamText_cons_eq_some {gap : ℕ} {frame : SseFrame} {frames : List SseFrame} {text : List Char} :
    streamText gap (frame :: frames) = some text ↔
      ∃ head tail, frameText gap frame = some head ∧ streamText gap frames = some tail ∧
        text = head ++ tail := by
  simp only [streamText, List.mapM_cons]
  cases frameText gap frame <;> cases frames.mapM (frameText gap) <;> simp [eq_comm]

theorem exists_streamText (gap : ℕ) (frames : List SseFrame) : ∃ text, streamText gap frames = some text := by
  induction frames with
  | nil => exact ⟨_, rfl⟩
  | cons frame frames ih =>
    obtain ⟨head, hhead⟩ := Option.isSome_iff_exists.mp (isSome_frameText gap frame)
    obtain ⟨tail, htail⟩ := ih
    exact ⟨head ++ tail, streamText_cons_eq_some.mpr ⟨head, tail, hhead, htail, rfl⟩⟩

end NightBridge.Daemon
