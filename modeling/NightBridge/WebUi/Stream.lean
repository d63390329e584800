/-
# Reading the event stream

The daemon's event stream (`NightBridge.Daemon.EventStream`) read by the client
of the web UI (`NightBridge.WebUi.Api`).  The inner loop takes the frames out of
the buffer.  Once a frame is there, what follows does not change it
(`Drains.append`), so reading piece by piece comes to the frames of the whole
text (`readLoop_pieces`), and the frames of the whole text are those the daemon
wrote (`drains_streamText`).
-/

import NightBridge.Daemon.EventStream
import NightBridge.WebUi.Api

namespace NightBridge.WebUi

open Data Daemon

variable {α : Type}

/-! ### The frames of a buffer -/

section drain

variable (parse : List Char → Except String α)

/-- What the inner loop makes of a buffer, frame by frame. -/
inductive Drains : List Char → List α → Except String (List Char) → Prop
  | last {buffer : List Char} (hnone : indexOf? boundaryText buffer = none) : Drains buffer [] (.ok buffer)
  | skip {buffer : List Char} {boundary : ℕ} {events : List α} {result : Except String (List Char)}
      (hsome : indexOf? boundaryText buffer = some boundary) (hdata : frameData (buffer.take boundary) = [])
      (hrest : Drains (buffer.drop (boundary + 2)) events result) : Drains buffer events result
  | throws {buffer : List Char} {boundary : ℕ} {message : String}
      (hsome : indexOf? boundaryText buffer = some boundary) (hdata : frameData (buffer.take boundary) ≠ [])
      (hparse : parse (frameData (buffer.take boundary)) = .error message) : Drains buffer [] (.error message)
  | event {buffer : List Char} {boundary : ℕ} {event : α} {events : List α} {result : Except String (List Char)}
      (hsome : indexOf? boundaryText buffer = some boundary) (hdata : frameData (buffer.take boundary) ≠ [])
      (hparse : parse (frameData (buffer.take boundary)) = .ok event)
      (hrest : Drains (buffer.drop (boundary + 2)) events result) : Drains buffer (event :: events) result

variable {parse} {buffer more rest : List Char} {boundary : ℕ} {events later : List α} {event : α}
  {result : Except String (List Char)}

theorem drain_of_some (hsome : indexOf? boundaryText buffer = some boundary) : drain parse buffer =
    if frameData (buffer.take boundary) = [] then drain parse (buffer.drop (boundary + 2))
    else match parse (frameData (buffer.take boundary)) with
      | .error message => ([], .error message)
      | .ok event => (event :: (drain parse (buffer.drop (boundary + 2))).1,
          (drain parse (buffer.drop (boundary + 2))).2) := by
  rw [drain]
  split
  · rename_i hnone
    exact absurd (hsome.symm.trans hnone) (by simp)
  · rename_i hsome'
    obtain rfl := Option.some.inj (hsome.symm.trans hsome')
    rfl

theorem Drains.drain_eq (h : Drains parse buffer events result) : drain parse buffer = (events, result) := by
  induction h with
  | last hnone =>
    rw [drain]
    split
    · rfl
    · rename_i hsome
      exact absurd (hnone.symm.trans hsome) (by simp)
  | skip hsome hdata _ ih => rw [drain_of_some hsome, if_pos hdata, ih]
  | throws hsome hdata hparse => rw [drain_of_some hsome, if_neg hdata, hparse]
  | event hsome hdata hparse _ ih => rw [drain_of_some hsome, if_neg hdata, hparse, ih]

/-- The loop ends. -/
theorem exists_drains (parse : List Char → Except String α) (buffer : List Char) :
    ∃ events result, Drains parse buffer events result := by
  induction hlength : buffer.length using Nat.strong_induction_on generalizing buffer with
  | _ n ih =>
    cases hboundary : indexOf? boundaryText buffer with
    | none => exact ⟨_, _, .last hboundary⟩
    | some boundary =>
      have hfit : boundary + 2 ≤ buffer.length := add_length_le_of_indexOf? hboundary
      have hshorter : (buffer.drop (boundary + 2)).length < n := by
        rw [List.length_drop]
        omega
      obtain ⟨events, result, hrest⟩ := ih _ hshorter _ rfl
      by_cases hdata : frameData (buffer.take boundary) = []
      · exact ⟨_, _, .skip hboundary hdata hrest⟩
      · cases hparse : parse (frameData (buffer.take boundary)) with
        | error message => exact ⟨_, _, .throws hboundary hdata hparse⟩
        | ok event => exact ⟨_, _, .event hboundary hdata hparse hrest⟩

/-! What is put behind a buffer leaves its frames as they are. -/

theorem take_append_frame (hsome : indexOf? boundaryText buffer = some boundary) (more : List Char) :
    (buffer ++ more).take boundary = buffer.take boundary := by
  have hfit : boundary + 2 ≤ buffer.length := add_length_le_of_indexOf? hsome
  exact List.take_append_of_le_length (by omega)

theorem drop_append_frame (hsome : indexOf? boundaryText buffer = some boundary) (more : List Char) :
    (buffer ++ more).drop (boundary + 2) = buffer.drop (boundary + 2) ++ more :=
  List.drop_append_of_le_length (add_length_le_of_indexOf? hsome)

/-- The frames that are there come first; `later` and `result` are what comes
then. -/
theorem Drains.extend {first : Except String (List Char)} (h : Drains parse buffer events first)
    (hok : ∀ rest, first = .ok rest → Drains parse (rest ++ more) later result)
    (herror : ∀ message, first = .error message → later = [] ∧ result = .error message) :
    Drains parse (buffer ++ more) (events ++ later) result := by
  induction h with
  | last _ => exact hok _ rfl
  | skip hsome hdata _ ih =>
    refine .skip (indexOf?_append hsome more) ?_ ?_
    · rwa [take_append_frame hsome]
    · rw [drop_append_frame hsome]
      exact ih hok herror
  | throws hsome hdata hparse =>
    obtain ⟨rfl, rfl⟩ := herror _ rfl
    refine .throws (indexOf?_append hsome more) ?_ ?_
    · rwa [take_append_frame hsome]
    · rwa [take_append_frame hsome]
  | event hsome hdata hparse _ ih =>
    refine .event (indexOf?_append hsome more) ?_ ?_ ?_
    · rwa [take_append_frame hsome]
    · rwa [take_append_frame hsome]
    · rw [drop_append_frame hsome]
      exact ih hok herror

/-- **The frames that are there come first**, and then those of the rest with
what is put behind it. -/
theorem Drains.append (h : Drains parse buffer events (.ok rest))
    (hmore : Drains parse (rest ++ more) later result) :
    Drains parse (buffer ++ more) (events ++ later) result := by
  refine h.extend (fun rest' hrest => ?_) fun message herror => ?_
  · obtain rfl := Except.ok.inj hrest
    exact hmore
  · cases herror

theorem Drains.append_of_error {message : String} (h : Drains parse buffer events (.error message))
    (more : List Char) : Drains parse (buffer ++ more) events (.error message) := by
  have hthrows : Drains parse (buffer ++ more) (events ++ []) (.error message) := by
    refine h.extend (fun rest hrest => ?_) fun message' herror => ?_
    · cases hrest
    · exact ⟨rfl, herror⟩
  rwa [List.append_nil] at hthrows

theorem Drains.indexOf?_rest (h : Drains parse buffer events (.ok rest)) :
    indexOf? boundaryText rest = none := by
  generalize hok : Except.ok rest = first at h
  induction h with
  | last hnone =>
    obtain rfl := Except.ok.inj hok
    exact hnone
  | skip _ _ _ ih => exact ih hok
  | throws => cases hok
  | event _ _ _ _ ih => exact ih hok

end drain

/-! ### The reads -/

/-- A piece of the stream is read. -/
def Turn.piece (bytes : Bytes) : Turn := ⟨false, .ok (some bytes)⟩

/-- The stream is at its end. -/
def Turn.finish : Turn := ⟨false, .ok none⟩

section reads

variable {parse : List Char → Except String α} {decoder : TextDecoder}

/-- **Reading piece by piece comes to the frames of the whole text.** -/
theorem readLoop_pieces {turns : List Turn} {settled : Settled}
    (hturns : ∀ state buffer, readLoop parse decoder state buffer turns = ([], settled)) (reads : List Bytes)
    {state : decoder.State} {buffer rest : List Char} {events : List α}
    (hbuffer : indexOf? boundaryText buffer = none)
    (h : Drains parse (buffer ++ (decodeAll decoder.decode state reads).flatten) events (.ok rest)) :
    readLoop parse decoder state buffer (reads.map Turn.piece ++ turns) = (events, settled) := by
  induction reads generalizing state buffer events with
  | nil =>
    rw [decodeAll, List.flatten_nil, List.append_nil] at h
    obtain ⟨rfl, -⟩ := Prod.mk.inj ((Drains.last hbuffer).drain_eq.symm.trans h.drain_eq)
    exact hturns state buffer
  | cons bytes reads ih =>
    rw [decodeAll, List.flatten_cons, ← List.append_assoc] at h
    obtain ⟨first, result, hfirst⟩ := exists_drains parse (buffer ++ (decoder.decode state bytes).1)
    cases result with
    | error message =>
      -- a frame that cannot be parsed would be one of the whole text
      cases (hfirst.append_of_error _).drain_eq.symm.trans h.drain_eq
    | ok buffer' =>
      obtain ⟨later, result, hlater⟩ := exists_drains parse
        (buffer' ++ (decodeAll decoder.decode (decoder.decode state bytes).2 reads).flatten)
      obtain ⟨rfl, rfl⟩ := Prod.mk.inj ((hfirst.append hlater).drain_eq.symm.trans h.drain_eq)
      rw [List.map_cons, List.cons_append, readLoop]
      simp only [Turn.piece, Bool.false_eq_true, if_false, hfirst.drain_eq]
      rw [ih hfirst.indexOf?_rest hlater]

end reads

/-! ### The daemon's frames -/

section frames

variable {parse : List Char → Except String α} {rest : List Char} {events : List α}
  {result : Except String (List Char)}

theorem trimStart_replicate {c : Char} (hc : isSpace c = false) (gap : ℕ) (cs : List Char) :
    trimStart (List.replicate gap ' ' ++ c :: cs) = c :: cs := by
  rw [trimStart, List.dropWhile_append_of_pos fun x hx => ?_]
  · rw [List.dropWhile_cons_of_neg (by simp [hc])]
  · rw [List.eq_of_mem_replicate hx]
    decide

/-- **The data of an event's frame is the data of the event.** -/
theorem frameData_event (gap : ℕ) (event : DaemonEventEnvelope) :
    frameData (sseLine gap "event".toList "daemon".toList ++ '\n' :: sseLine gap "data".toList event.data) =
      event.data := by
  have htrim : trimStart (List.replicate gap ' ' ++ event.data) = event.data := by
    obtain ⟨cs, hcs⟩ := event.data_eq_cons
    rw [hcs, trimStart_replicate (by decide)]
  rw [frameData, List.splitOn_append_cons_self_of_not_mem (newline_notMem_eventLine gap),
    List.splitOn_eq_singleton (newline_notMem_dataLine gap event)]
  simp [sseLine, htrim]

theorem append_boundary (frame rest : List Char) :
    frame ++ ['\n', '\n'] ++ rest = frame ++ '\n' :: '\n' :: rest :=
  List.append_assoc frame _ rest

theorem drop_frame (frame rest : List Char) :
    (frame ++ '\n' :: '\n' :: rest).drop (frame.length + 2) = rest := by
  rw [List.drop_length_add_append]
  rfl

/-- **The loop takes a frame of the daemon as it is meant**: it calls back with
an event and skips a comment. -/
theorem Drains.frame {gap : ℕ} {frame : SseFrame} {text : List Char} {value : DaemonEventEnvelope → α}
    (htext : frameText gap frame = some text) (hparse : ∀ e ∈ frame.envelope?, parse e.data = .ok (value e))
    (hrest : Drains parse rest events result) :
    Drains parse (text ++ rest) ((frame.envelope?.map value).toList ++ events) result := by
  cases frame with
  | event event =>
    obtain rfl := Option.some.inj ((frameText_event gap event).symm.trans htext)
    rw [append_boundary]
    have hne : sseLine gap "data".toList event.data ≠ [] := by simp [sseLine]
    have hdata : event.data ≠ [] := by
      obtain ⟨cs, hcs⟩ := event.data_eq_cons
      simp [hcs]
    have hframe := indexOf?_twoLines (newline_notMem_eventLine gap) (newline_notMem_dataLine gap event) hne rest
    refine .event hframe ?_ ?_ ?_
    · rwa [List.take_left, frameData_event]
    · rw [List.take_left, frameData_event]
      exact hparse event rfl
    · rwa [drop_frame]
  | keepAlive comment =>
    obtain rfl := Option.some.inj htext
    have hline : '\n' ∉ ':' :: comment.text := by simp [comment.oneLine]
    have hframe := indexOf?_lastLine hline rest
    rw [append_boundary]
    refine .skip hframe ?_ ?_
    · rw [List.take_left, frameData, List.splitOn_eq_singleton hline]
      simp
    · rwa [drop_frame]

/-- **The frames of the daemon's text are the daemon's frames.** -/
theorem drains_streamText {gap : ℕ} {frames : List SseFrame} {text : List Char}
    {value : DaemonEventEnvelope → α}
    (htext : streamText gap frames = some text)
    (hparse : ∀ e ∈ frames.filterMap SseFrame.envelope?, parse e.data = .ok (value e)) :
    Drains parse text ((frames.filterMap SseFrame.envelope?).map value) (.ok []) := by
  induction frames generalizing text with
  | nil =>
    obtain rfl := Option.some.inj htext
    exact .last rfl
  | cons frame frames ih =>
    obtain ⟨head, tail, hhead, htail, rfl⟩ := streamText_cons_eq_some.mp htext
    have hframe : ∀ e ∈ frame.envelope?, parse e.data = .ok (value e) := fun e he =>
      hparse e (List.mem_filterMap.mpr ⟨frame, List.mem_cons_self, he⟩)
    have hframes : ∀ e ∈ frames.filterMap SseFrame.envelope?, parse e.data = .ok (value e) := fun e he => by
      obtain ⟨f, hf, hfe⟩ := List.mem_filterMap.mp he
      exact hparse e (List.mem_filterMap.mpr ⟨f, List.mem_cons_of_mem frame hf, hfe⟩)
    have hdrains := Drains.frame hhead hframe (ih htail hframes)
    rw [List.filterMap_cons]
    cases henvelope : frame.envelope? with
    | none => simpa [henvelope] using hdrains
    | some e => simpa [henvelope] using hdrains

end frames

/-! ### However the bytes are cut -/

theorem head?_frameText {gap : ℕ} {frame : SseFrame} {text : List Char}
    (htext : frameText gap frame = some text) :
    text.head? = some 'e' ∨ text.head? = some ':' := by
  cases frame with
  | event event =>
    obtain rfl := Option.some.inj ((frameText_event gap event).symm.trans htext)
    exact .inl rfl
  | keepAlive comment =>
    obtain rfl := Option.some.inj htext
    exact .inr rfl

/-- The text does not begin with a mark that the decoder would drop. -/
theorem head?_streamText {gap : ℕ} {frames : List SseFrame} {text : List Char}
    (htext : streamText gap frames = some text) : text.head? ≠ some byteOrderMark := by
  cases frames with
  | nil =>
    obtain rfl := Option.some.inj htext
    decide
  | cons frame frames =>
    obtain ⟨head, tail, hhead, -, rfl⟩ := streamText_cons_eq_some.mp htext
    rw [List.head?_append]
    rcases head?_frameText hhead with h | h
    · rw [h, Option.some_or]
      decide
    · rw [h, Option.some_or]
      decide

/-- **Every event is called back once, in order and parsed, however the bytes
are cut into reads.**  The signal is not aborted while the stream is read, and
the response is one with a stream in it. -/
theorem streamEvents_eq_events (decoder : TextDecoder) (parse : List Char → Except String α)
    (value : DaemonEventEnvelope → α) (gap : ℕ) (frames : List SseFrame)
    (hparse : ∀ e ∈ frames.filterMap SseFrame.envelope?, parse e.data = .ok (value e)) (response : Response)
    (hok : response.ok) (hbody : response.hasBody) :
    ∃ text, streamText gap frames = some text ∧
      ∀ reads : List Bytes, reads.flatten = utf8 (String.ofList text) → ∀ aborted : Bool,
        streamEvents parse decoder aborted (.ok response) (reads.map Turn.piece) =
            ((frames.filterMap SseFrame.envelope?).map value, .pending) ∧
          streamEvents parse decoder aborted (.ok response) (reads.map Turn.piece ++ [Turn.finish]) =
            ((frames.filterMap SseFrame.envelope?).map value, .fulfilled) := by
  obtain ⟨text, htext⟩ := exists_streamText gap frames
  refine ⟨text, htext, fun reads hreads aborted => ?_⟩
  have hdecoded := decoder.correct text reads (head?_streamText htext) hreads
  have hdrains : Drains parse ([] ++ (decodeAll decoder.decode decoder.new reads).flatten)
      ((frames.filterMap SseFrame.envelope?).map value) (.ok []) := by
    rw [List.nil_append, hdecoded]
    exact drains_streamText htext hparse
  simp only [streamEvents, hok, hbody, Bool.not_true, Bool.or_self, Bool.false_eq_true, if_false]
  constructor
  · rw [← List.append_nil (reads.map Turn.piece)]
    exact readLoop_pieces (fun _ _ => rfl) reads rfl hdrains
  · exact readLoop_pieces (fun _ _ => rfl) reads rfl hdrains

/-- A comment and an event with a letter of two bytes, read byte by byte. -/
theorem streamEvents_eq_events_bytewise :
    ∃ text, streamText 1 [.keepAlive ⟨[], List.not_mem_nil⟩,
      .event ⟨"e-1", 7, .peerSeen "Zoë" "10.0.0.2" 53317⟩] =
        some text ∧
      streamEvents (fun data => .ok data) .holding false (.ok ⟨200, "OK", true, .error ""⟩)
          ((utf8 (String.ofList text)).map fun byte => Turn.piece [byte]) =
        ([DaemonEventEnvelope.data ⟨"e-1", 7, .peerSeen "Zoë" "10.0.0.2" 53317⟩], .pending) := by
  obtain ⟨text, htext, hreads⟩ := streamEvents_eq_events .holding (fun data => .ok data)
    DaemonEventEnvelope.data 1
    [.keepAlive ⟨[], List.not_mem_nil⟩, .event ⟨"e-1", 7, .peerSeen "Zoë" "10.0.0.2" 53317⟩]
    (fun _ _ => rfl) ⟨200, "OK", true, .error ""⟩ rfl rfl
  have hbytes : ((utf8 (String.ofList text)).map fun byte => [byte]).flatten = utf8 (String.ofList text) :=
    List.flatMap_singleton' _
  have hpieces := (hreads _ hbytes false).1
  rw [List.map_map] at hpieces
  exact ⟨text, htext, hpieces⟩

end NightBridge.WebUi
