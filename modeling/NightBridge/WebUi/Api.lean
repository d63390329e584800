/-
# The client of the web UI

`crates/webui/src/api.ts`: the requests of a snapshot and the reader of the
event stream.

A snapshot is five requests, made at once against the base and with the token of
that moment (`Refresh.request`); it is there when the last of them is answered,
and fails with the first that fails.

The event stream is read piece by piece.  Each piece is decoded and added to a
buffer, and whatever stands in the buffer before an empty line is a frame.
`TextDecoder` is a parameter: of what it decodes only this is known, that the
pieces of a UTF-8 text come out as that text, however it is cut.  `JSON.parse`
is a function that may throw.

Texts are lists of characters.  The units of a JavaScript string are smaller,
but nothing here cuts a string other than next to an ASCII character.  An error
is its message.
-/

import NightBridge.Data.Json
import NightBridge.Data.Search

namespace NightBridge.WebUi

open Data

/-! ### Texts -/

/-- White space, in the sense of `trim`. -/
def isSpace (c : Char) : Bool :=
  let n := c.toNat
  (9 ≤ n && n ≤ 13) || n == 0x20 || n == 0xA0 || n == 0x1680 || (0x2000 ≤ n && n ≤ 0x200A) ||
    n == 0x2028 || n == 0x2029 || n == 0x202F || n == 0x205F || n == 0x3000 || n == 0xFEFF

def trimStart (text : List Char) : List Char := text.dropWhile isSpace

def trimText (text : String) : String :=
  String.ofList ((trimStart text.toList).reverse.dropWhile isSpace).reverse

/-- `text.replace(/\/+$/, "")`. -/
def stripSlashes (text : String) : String := String.ofList (text.toList.reverse.dropWhile (· = '/')).reverse

def resolveApiPath (apiBase path : String) : Except String String :=
  if path.toList.head? = some '/' then .ok (apiBase ++ path) else .error "API path must start with /"

/-! ### Requests -/

/-- What `fetch` resolves to; `json` is what the body is read as. -/
structure Response where
  status : ℕ
  statusText : String
  hasBody : Bool
  json : Except String JsonValue

def Response.ok (response : Response) : Bool := 200 ≤ response.status && response.status ≤ 299

/-- The error of a response that is not `ok`. -/
def Response.failure (response : Response) (otherwise : String) : String :=
  if response.status = 401 ∨ response.status = 403 then "Bad API token or token missing"
  else String.ofList (decimal response.status) ++ " " ++
    if response.statusText = "" then otherwise else response.statusText

/-- `requestJson`, of what `fetch` resolves to or is rejected with. -/
def requestJson : Except String Response → Except String JsonValue
  | .error message => .error ("Cannot reach daemon endpoint: " ++ message)
  | .ok response => if !response.ok then .error (response.failure "API request failed") else response.json

/-- The requests of a snapshot. -/
inductive Endpoint
  | status
  | trustedPeers
  | lanPeers
  | inbox
  | activeTransfers
  deriving DecidableEq

def Endpoint.path : Endpoint → String
  | .status => "/api/v1/status"
  | .trustedPeers => "/api/v1/peers/trusted"
  | .lanPeers => "/api/v1/peers/lan"
  | .inbox => "/api/v1/inbox"
  | .activeTransfers => "/api/v1/transfers/active"

/-- `DaemonSnapshot`; `none` is `undefined`. -/
structure DaemonSnapshot where
  status : JsonValue
  trustedPeers : Option JsonValue
  lanPeers : Option JsonValue
  inbox : Option JsonValue
  transfers : Option JsonValue

def member (value : JsonValue) (key : String) : Except String (Option JsonValue) :=
  match value with
  | .null => .error ("Cannot read properties of null (reading '" ++ key ++ "')")
  | .object fields => .ok (fields.lookup key)
  | _ => .ok none

/-- A snapshot that is being loaded: what its requests are made with, and what
has been answered. -/
structure Refresh where
  apiBase : String
  token : String
  answers : List (Endpoint × JsonValue)

/-- The address and the authorization of a request. -/
def Refresh.request (refresh : Refresh) (endpoint : Endpoint) : Except String String × String :=
  (resolveApiPath refresh.apiBase endpoint.path, "Bearer " ++ refresh.token)

/-- `loadSnapshot`, when every request is answered. -/
def Refresh.snapshot? (refresh : Refresh) : Option (Except String DaemonSnapshot) := do
  let status ← refresh.answers.lookup .status
  let trusted ← refresh.answers.lookup .trustedPeers
  let lan ← refresh.answers.lookup .lanPeers
  let inbox ← refresh.answers.lookup .inbox
  let active ← refresh.answers.lookup .activeTransfers
  return do
    let trustedPeers ← member trusted "peers"
    let lanPeers ← member lan "peers"
    let inbox ← member inbox "entries"
    let transfers ← member active "transfers"
    return ⟨status, trustedPeers, lanPeers, inbox, transfers⟩

/-- A request is answered, once: the snapshot goes on loading, or it is there or
has failed. -/
def Refresh.answer (refresh : Refresh) (endpoint : Endpoint) (fetched : Except String Response) :
    Refresh ⊕ Except String DaemonSnapshot :=
  if (refresh.answers.lookup endpoint).isSome then .inl refresh
  else match requestJson fetched with
    | .error message => .inr (.error message)
    | .ok value =>
      let refresh := { refresh with answers := refresh.answers ++ [(endpoint, value)] }
      match refresh.snapshot? with
      | none => .inl refresh
      | some loaded => .inr loaded

/-! ### The event stream -/

/-- The mark that a decoder drops at the beginning of a text. -/
def byteOrderMark : Char := '\uFEFF'

/-- What the pieces of a stream are decoded to, one after another. -/
def decodeAll {State : Type} (decode : State → Bytes → List Char × State) :
    State → List Bytes → List (List Char)
  | _, [] => []
  | state, bytes :: reads => (decode state bytes).1 :: decodeAll decode (decode state bytes).2 reads

/-- `TextDecoder`, with `decode(value, { stream: true })`. -/
structure TextDecoder where
  State : Type
  new : State
  decode : State → Bytes → List Char × State
  correct : ∀ (text : List Char) (reads : List Bytes), text.head? ≠ some byteOrderMark →
    reads.flatten = utf8 (String.ofList text) → (decodeAll decode new reads).flatten = text

/-- Decode what is a text, and hold back what is not one yet. -/
def decodeHolding (held bytes : Bytes) : List Char × Bytes :=
  match fromUtf8 (held ++ bytes) with
  | some text => (text.toList, [])
  | none => ([], held ++ bytes)

theorem flatten_decodeAll_holding {held : Bytes} {text : List Char} {reads : List Bytes}
    (hlast : reads = [] → held = []) (h : held ++ reads.flatten = utf8 (String.ofList text)) :
    (decodeAll decodeHolding held reads).flatten = text := by
  induction reads generalizing held text with
  | nil =>
    rw [hlast rfl] at h
    have hempty : utf8 (String.ofList text) ++ [] = utf8 (String.ofList []) := by
      rw [← h]
      rfl
    obtain ⟨rest, htext, -⟩ := exists_of_utf8_append hempty
    exact (List.append_eq_nil_iff.mp htext.symm).1.symm
  | cons bytes reads ih =>
    rw [List.flatten_cons, ← List.append_assoc] at h
    rw [decodeAll, List.flatten_cons]
    cases hdecoded : fromUtf8 (held ++ bytes) with
    | none =>
      -- the whole is a text, so there is more to come
      have hmore : reads = [] → held ++ bytes = [] := by
        rintro rfl
        rw [List.flatten_nil, List.append_nil] at h
        rw [h, fromUtf8_utf8] at hdecoded
        cases hdecoded
      simp only [decodeHolding, hdecoded, List.nil_append]
      exact ih hmore h
    | some first =>
      rw [← utf8_of_fromUtf8 hdecoded, ← first.ofList_toList] at h
      obtain ⟨rest, rfl, hrest⟩ := exists_of_utf8_append h
      simp only [decodeHolding, hdecoded]
      rw [ih (fun _ => rfl) hrest]

/-- A decoder that holds back what it has read until it is a text. -/
def TextDecoder.holding : TextDecoder where
  State := Bytes
  new := []
  decode := decodeHolding
  correct _ _ _ hreads := flatten_decodeAll_holding (fun _ => rfl) hreads

/-- How a promise stands. -/
inductive Settled
  | pending
  | fulfilled
  | rejected (message : String)
  deriving DecidableEq

/-- The empty line between two frames, with the break before it. -/
def boundaryText : List Char := ['\n', '\n']

def frameData (frame : List Char) : List Char :=
  ['\n'].intercalate (((frame.splitOn '\n').filter fun line => "data:".toList.isPrefixOf line).map fun line =>
    trimStart (line.drop 5))

section stream

variable {α : Type} (parse : List Char → Except String α)

/-- The inner loop of `streamEvents`: the events it calls `onEvent` with, and
what stays in the buffer, or what `JSON.parse` throws. -/
def drain (buffer : List Char) : List α × Except String (List Char) :=
  match _h : indexOf? boundaryText buffer with
  | none => ([], .ok buffer)
  | some boundary =>
    let frame := buffer.take boundary
    let rest := buffer.drop (boundary + 2)
    let data := frameData frame
    if data = [] then drain rest
    else match parse data with
      | .error message => ([], .error message)
      | .ok event => (event :: (drain rest).1, (drain rest).2)
termination_by buffer.length
decreasing_by all_goals
  have := add_length_le_of_indexOf? _h
  simp only [boundaryText, List.length_cons, List.length_nil, List.length_drop] at this ⊢
  omega

/-- One round of the outer loop: whether the signal is aborted when the round
begins, and what the reader answers, where `none` is the end. -/
structure Turn where
  aborted : Bool
  read : Except String (Option Bytes)

/-- The outer loop of `streamEvents`. -/
def readLoop (decoder : TextDecoder) : decoder.State → List Char → List Turn → List α × Settled
  | _, _, [] => ([], .pending)
  | state, buffer, turn :: turns =>
    if turn.aborted then ([], .fulfilled)
    else match turn.read with
      | .error message => ([], .rejected message)
      | .ok none => ([], .fulfilled)
      | .ok (some value) =>
        let (text, state) := decoder.decode state value
        match drain parse (buffer ++ text) with
        | (events, .error message) => (events, .rejected message)
        | (events, .ok buffer) =>
          let (later, settled) := readLoop decoder state buffer turns
          (events ++ later, settled)

/-- `streamEvents`: the events it calls `onEvent` with, and how its promise
stands.  `fetched` is what `fetch` resolves to or is rejected with, and
`aborted` is the signal at that time. -/
def streamEvents (decoder : TextDecoder) (aborted : Bool) (fetched : Except String Response)
    (turns : List Turn) : List α × Settled :=
  match fetched with
  | .error message => ([], if aborted then .fulfilled else .rejected ("Event stream disconnected: " ++ message))
  | .ok response =>
    if !response.ok || !response.hasBody then ([], .rejected (response.failure "event stream failed"))
    else readLoop parse decoder decoder.new [] turns

end stream

end NightBridge.WebUi
