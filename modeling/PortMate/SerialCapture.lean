import PortMate.LogShards
import PortMate.WindowPolling

namespace PortMate

open List

def maxSerialCaptureFrames : Nat := 512
def maxSerialCaptureBytes : Nat := 1024 * 1024
def maxSerialCaptureFrameBytes : Nat := 64 * 1024
def maxSerialCaptureHistoryFrames : Nat := 4096
def maxSerialCaptureHistoryBytes : Nat := 8 * 1024 * 1024

structure CapturedFrame where
  id : String
  ts : DateTime
  direction : EventDirection
  bytes : List UInt8
  originalLength : Nat
  truncated : Bool
  deriving DecidableEq

def capturedFrame (id : String) (ts : DateTime) (direction : EventDirection) (bytes : List UInt8) :
    CapturedFrame :=
  let capturedLength := min bytes.length maxSerialCaptureFrameBytes
  { id, ts, direction, bytes := bytes.take capturedLength, originalLength := bytes.length
    truncated := capturedLength != bytes.length }

structure SerialCaptureBuffer where
  frames : List CapturedFrame := []
  capturedBytes : Nat := 0

open SerialCaptureBuffer

structure SerialCaptureSnapshot where
  frames : List CapturedFrame
  reset : Bool
  totalFrames : Nat
  capturedBytes : Nat

namespace SerialCaptureBuffer

/-- The loop of `push`: what is kept when `capturedLength` more bytes come. -/
def evict (capturedLength : Nat) : List CapturedFrame → Nat → SerialCaptureBuffer
  | [], capturedBytes => { frames := [], capturedBytes }
  | removed :: frames, capturedBytes =>
    if maxSerialCaptureFrames ≤ (removed :: frames).length ||
        maxSerialCaptureBytes < saturatingAdd capturedBytes capturedLength then
      evict capturedLength frames (capturedBytes - removed.bytes.length)
    else { frames := removed :: frames, capturedBytes }

def push (buffer : SerialCaptureBuffer) (id : String) (ts : DateTime) (direction : EventDirection)
    (bytes : List UInt8) : SerialCaptureBuffer :=
  if bytes.isEmpty then buffer
  else
    let frame := capturedFrame id ts direction bytes
    let capturedLength := min bytes.length maxSerialCaptureFrameBytes
    let kept := evict capturedLength buffer.frames buffer.capturedBytes
    { frames := kept.frames ++ [frame]
      capturedBytes := saturatingAdd kept.capturedBytes capturedLength }

def clear (_ : SerialCaptureBuffer) : SerialCaptureBuffer := {}

def snapshotSince (buffer : SerialCaptureBuffer) (afterId : Option String) :
    SerialCaptureSnapshot :=
  let start := (afterId.bind fun id => buffer.frames.findIdx? fun frame => frame.id = id).map (· + 1)
  let reset := afterId.isNone || start.isNone
  { frames := if reset then buffer.frames else buffer.frames.drop (start.getD 0)
    reset
    totalFrames := buffer.frames.length
    capturedBytes := buffer.capturedBytes }

end SerialCaptureBuffer

/-- What the history asks of a session's profile. -/
structure CaptureProfile where
  serial : Bool
  loggingEnabled : Bool
  loggingRaw : Bool

structure SerialCaptureHistorySnapshot where
  frames : List CapturedFrame := []
  enabled : Bool
  totalFrames : Nat := 0
  capturedBytes : Nat := 0
  droppedFrames : Nat := 0
  unavailableFrames : Nat := 0

structure HistoryCandidate where
  id : String
  ts : DateTime
  direction : EventDirection
  reference : String

def historyCandidates (sessionId : String) (events : List SessionEvent) : List HistoryCandidate :=
  events.filterMap fun event =>
    event.bytesRef.bind fun reference =>
      if event.sessionId = sessionId ∧ event.direction ≠ .system then
        some { id := event.id, ts := event.ts, direction := event.direction, reference }
      else none

/-- `Path::extension` of a whole path. -/
def pathExtension (path : List Char) : Option (List Char) :=
  ((path.splitOn '/').filter fun part => !part.isEmpty && part ≠ ['.']).getLast?.bind fun name =>
    if isDotName name then none else fileExtension name

/-- The loop of the history, from the newest candidate back; `files` are those that a candidate's
read finds. -/
def readHistory (crates : LogCrates) (files : HistoryCandidate → LogFiles) :
    List HistoryCandidate → SerialCaptureHistorySnapshot → SerialCaptureHistorySnapshot
  | [], history => history
  | candidate :: older, history =>
    if maxSerialCaptureHistoryFrames ≤ history.frames.length then history
    else
      let unavailable :=
        { history with unavailableFrames := saturatingAdd history.unavailableFrames 1 }
      match readVerifiedLogBytesRef crates (files candidate) candidate.reference.toList with
      | .error _ => readHistory crates files older unavailable
      | .ok (relative, _, bytes) =>
        if pathExtension relative ≠ some "raw".toList ∨ bytes.isEmpty then
          readHistory crates files older unavailable
        else
          let capturedLength := min bytes.length maxSerialCaptureFrameBytes
          if maxSerialCaptureHistoryBytes < saturatingAdd history.capturedBytes capturedLength then
            history
          else
            readHistory crates files older
              { history with
                capturedBytes := saturatingAdd history.capturedBytes capturedLength
                frames := history.frames ++
                  [capturedFrame candidate.id candidate.ts candidate.direction bytes] }

/-- The profile is looked up twice, as `checked` before and as `profile` with the events. -/
def serialCaptureHistoryInner (crates : LogCrates) (files : HistoryCandidate → LogFiles)
    (sessionId : String) (checked profile : Option CaptureProfile) (events : List SessionEvent) :
    Except String SerialCaptureHistorySnapshot :=
  match checked, profile with
  | none, _ => .error s!"unknown session: {sessionId}"
  | some checked, profile =>
    if !checked.serial then .error s!"session is not serial-backed: {sessionId}"
    else
      match profile with
      | none => .error s!"unknown session: {sessionId}"
      | some profile =>
        if !(profile.loggingEnabled && profile.loggingRaw) then .ok { enabled := false }
        else
          let candidates := historyCandidates sessionId events
          let history := readHistory crates files candidates.reverse { enabled := true }
          .ok { history with
            frames := history.frames.reverse
            totalFrames := candidates.length
            droppedFrames :=
              candidates.length - history.frames.length - history.unavailableFrames }

/-- What the link, the user and a client do to a session's buffer. -/
inductive CaptureEvent
  | captured (id : String) (ts : DateTime) (direction : EventDirection) (bytes : List UInt8)
  | cleared
  | polled

/-- A session's buffer and what a client of it holds. -/
structure CaptureMonitor where
  buffer : SerialCaptureBuffer := {}
  view : List CapturedFrame := []

open CaptureMonitor

namespace CaptureMonitor

def snapshot (monitor : CaptureMonitor) : SerialCaptureSnapshot :=
  monitor.buffer.snapshotSince (monitor.view.getLast?.map CapturedFrame.id)

def step (monitor : CaptureMonitor) : CaptureEvent → CaptureMonitor
  | .captured id ts direction bytes =>
    { monitor with buffer := monitor.buffer.push id ts direction bytes }
  | .cleared => { monitor with buffer := monitor.buffer.clear }
  | .polled =>
    let snapshot := monitor.snapshot
    { monitor with
      view := if snapshot.reset then snapshot.frames else monitor.view ++ snapshot.frames }

def run (monitor : CaptureMonitor) (events : List CaptureEvent) : CaptureMonitor :=
  events.foldl step monitor

/-- No poll of these events is answered by a reset. -/
def NoReset (monitor : CaptureMonitor) (events : List CaptureEvent) : Prop :=
  ∀ before after, events = before ++ .polled :: after →
    (monitor.run before).snapshot.reset = false

end CaptureMonitor

/-- The frames that the events bring, of reads that have bytes. -/
def capturedBy (events : List CaptureEvent) : List CapturedFrame :=
  events.flatMap fun
    | .captured id ts direction bytes =>
      if bytes.isEmpty then [] else [capturedFrame id ts direction bytes]
    | .cleared => []
    | .polled => []

/-- The frames that came since the last clear, `frames` when the events begin. -/
def sinceClear (frames : List CapturedFrame) : List CaptureEvent → List CapturedFrame
  | [] => frames
  | .cleared :: events => sinceClear [] events
  | event :: events => sinceClear (frames ++ capturedBy [event]) events

/-- Frames that both limits of the buffer admit. -/
def CapturesFit (frames : List CapturedFrame) : Prop :=
  frames.length ≤ maxSerialCaptureFrames ∧
    (frames.map (·.bytes.length)).sum ≤ maxSerialCaptureBytes

/-- Of the ends of `frames` that fit, `kept` is the one that has all others within it. -/
structure LongestEnd (kept frames : List CapturedFrame) : Prop where
  isEnd : kept <:+ frames
  fits : CapturesFit kept
  longest : ∀ other, other <:+ frames → CapturesFit other → other <:+ kept

section Limits

structure SerialCaptureBuffer.Sound (buffer : SerialCaptureBuffer) : Prop where
  sum : buffer.capturedBytes = (buffer.frames.map (·.bytes.length)).sum
  frameLimit : buffer.frames.length ≤ maxSerialCaptureFrames
  byteLimit : buffer.capturedBytes ≤ maxSerialCaptureBytes

theorem evict_spec {capturedLength : Nat} (frames : List CapturedFrame) {capturedBytes : Nat}
    (short : capturedLength ≤ maxSerialCaptureFrameBytes)
    (sum : capturedBytes = (frames.map (·.bytes.length)).sum)
    (limit : capturedBytes ≤ maxSerialCaptureBytes) :
    let kept := evict capturedLength frames capturedBytes
    kept.capturedBytes = (kept.frames.map (·.bytes.length)).sum ∧
      kept.frames.length < maxSerialCaptureFrames ∧
      kept.capturedBytes + capturedLength ≤ maxSerialCaptureBytes := by
  have frameBytes : maxSerialCaptureFrameBytes = 65536 := rfl
  have bytes : maxSerialCaptureBytes = 1048576 := rfl
  induction frames generalizing capturedBytes with
  | nil =>
    rw [map_nil, sum_nil] at sum
    subst sum
    refine ⟨rfl, Nat.zero_lt_succ _, ?_⟩
    change 0 + capturedLength ≤ maxSerialCaptureBytes
    omega
  | cons removed frames ih =>
    rw [evict]
    rw [map_cons, sum_cons] at sum
    split
    · exact @ih (capturedBytes - removed.bytes.length) (by omega) (by omega)
    next fits =>
      rw [Bool.or_eq_true, decide_eq_true_eq, decide_eq_true_eq, not_or, Nat.not_le, Nat.not_lt,
        saturatingAdd_small (by omega)] at fits
      exact ⟨sum, fits.1, fits.2⟩

theorem capturedFrame_length (id : String) (ts : DateTime) (direction : EventDirection)
    (bytes : List UInt8) : (capturedFrame id ts direction bytes).bytes.length =
      min bytes.length maxSerialCaptureFrameBytes := by
  rw [capturedFrame, length_take]
  omega

theorem push_sound {buffer : SerialCaptureBuffer} (sound : buffer.Sound) (id : String)
    (ts : DateTime) (direction : EventDirection) (bytes : List UInt8) :
    (buffer.push id ts direction bytes).Sound := by
  unfold push
  split
  · exact sound
  · have short : min bytes.length maxSerialCaptureFrameBytes ≤ maxSerialCaptureFrameBytes :=
      Nat.min_le_right _ _
    obtain ⟨sum, frames, room⟩ := evict_spec buffer.frames short sound.sum sound.byteLimit
    have limit : maxSerialCaptureBytes < 2 ^ 64 := by decide
    have total := saturatingAdd_small (Nat.lt_of_le_of_lt room limit)
    refine ⟨?_, ?_, ?_⟩
    · dsimp only
      rw [total, map_append, sum_append, ← sum, map_singleton, sum_singleton,
        capturedFrame_length]
    · rw [length_append, length_singleton]
      exact frames
    · dsimp only
      rw [total]
      exact room

theorem evict_suffix (capturedLength : Nat) (frames : List CapturedFrame) (capturedBytes : Nat) :
    (evict capturedLength frames capturedBytes).frames <:+ frames := by
  induction frames generalizing capturedBytes with
  | nil => exact suffix_refl []
  | cons removed frames ih =>
    rw [evict]
    split
    · exact (ih _).trans (suffix_cons removed frames)
    · exact suffix_refl _

/-- Every end that leaves room for the new bytes survives the eviction. -/
theorem evict_longest {capturedLength : Nat} {kept : List CapturedFrame}
    (few : kept.length < maxSerialCaptureFrames)
    (room : (kept.map (·.bytes.length)).sum + capturedLength ≤ maxSerialCaptureBytes)
    (frames : List CapturedFrame) {capturedBytes : Nat} (suffix : kept <:+ frames)
    (sum : capturedBytes = (frames.map (·.bytes.length)).sum) :
    kept <:+ (evict capturedLength frames capturedBytes).frames := by
  induction frames generalizing capturedBytes with
  | nil => exact suffix
  | cons removed frames ih =>
    rw [evict]
    split
    next full =>
      rcases suffix_cons_iff.mp suffix with whole | suffix
      · rw [Bool.or_eq_true, decide_eq_true_eq, decide_eq_true_eq, ← whole] at full
        rw [← whole] at sum
        have small : saturatingAdd capturedBytes capturedLength ≤ capturedBytes + capturedLength :=
          Nat.min_le_left _ _
        omega
      · rw [map_cons, sum_cons] at sum
        exact ih suffix (by omega)
    · exact suffix

theorem push_longest {buffer : SerialCaptureBuffer} (sound : buffer.Sound)
    {frames : List CapturedFrame} (longest : LongestEnd buffer.frames frames) (id : String)
    (ts : DateTime) (direction : EventDirection) (bytes : List UInt8) :
    LongestEnd (buffer.push id ts direction bytes).frames
      (frames ++ capturedBy [.captured id ts direction bytes]) := by
  have pushed := push_sound sound id ts direction bytes
  rw [push] at pushed ⊢
  rw [capturedBy, flatMap_singleton]
  dsimp only
  split
  · rw [append_nil]
    exact longest
  next some =>
    rw [if_neg some] at pushed
    have limits : CapturesFit _ := ⟨pushed.frameLimit, pushed.sum ▸ pushed.byteLimit⟩
    have tail := (evict_suffix (min bytes.length maxSerialCaptureFrameBytes) buffer.frames
      buffer.capturedBytes).trans longest.isEnd
    refine ⟨suffix_append_self_iff.mpr tail, limits, fun other suffix fits => ?_⟩
    rcases suffix_concat_iff.mp suffix with rfl | ⟨older, rfl, olderEnd⟩
    · exact nil_suffix
    · obtain ⟨few, room⟩ := fits
      rw [length_append, length_singleton] at few
      rw [map_append, sum_append, map_singleton, sum_singleton, capturedFrame_length] at room
      have held := longest.longest older olderEnd ⟨by omega, by omega⟩
      exact suffix_append_self_iff.mpr (evict_longest few room _ held sound.sum)

theorem step_sound {monitor : CaptureMonitor} (sound : monitor.buffer.Sound) :
    ∀ event, (monitor.step event).buffer.Sound
  | .captured id ts direction bytes => push_sound sound id ts direction bytes
  | .cleared => ⟨rfl, Nat.zero_le _, Nat.zero_le _⟩
  | .polled => sound

theorem run_sound (events : List CaptureEvent) {monitor : CaptureMonitor}
    (sound : monitor.buffer.Sound) : (monitor.run events).buffer.Sound := by
  induction events generalizing monitor with
  | nil => exact sound
  | cons event events ih => exact ih (step_sound sound event)

theorem run_longest (events : List CaptureEvent) {monitor : CaptureMonitor}
    (sound : monitor.buffer.Sound) {frames : List CapturedFrame}
    (longest : LongestEnd monitor.buffer.frames frames) :
    LongestEnd (monitor.run events).buffer.frames (sinceClear frames events) := by
  induction events generalizing monitor frames with
  | nil => exact longest
  | cons event events ih =>
    have next := step_sound sound event
    cases event with
    | captured id ts direction bytes =>
      exact ih next (push_longest sound longest id ts direction bytes)
    | cleared =>
      exact ih next ⟨nil_suffix, ⟨Nat.zero_le _, Nat.zero_le _⟩, fun _ suffix _ => suffix⟩
    | polled =>
      have same : LongestEnd monitor.buffer.frames (frames ++ capturedBy [.polled]) :=
        (append_nil frames).symm ▸ longest
      exact ih next same

end Limits

section Following

/-- What the buffer holds is the end of what the client holds and what came since its poll. -/
def BufferFollows (monitor : CaptureMonitor) (pending : List CapturedFrame) : Prop :=
  monitor.buffer.frames <:+ monitor.view ++ pending

theorem capturedBy_cons (event : CaptureEvent) (events : List CaptureEvent) :
    capturedBy (event :: events) = capturedBy [event] ++ capturedBy events := by
  rw [capturedBy, flatMap_cons, capturedBy, flatMap_singleton, capturedBy]

theorem push_frames (buffer : SerialCaptureBuffer) (id : String) (ts : DateTime)
    (direction : EventDirection) (bytes : List UInt8) : ∃ kept, kept <:+ buffer.frames ∧
      (buffer.push id ts direction bytes).frames =
        kept ++ capturedBy [.captured id ts direction bytes] := by
  rw [push, capturedBy, flatMap_singleton]
  dsimp only
  split
  · exact ⟨buffer.frames, suffix_refl _, (append_nil _).symm⟩
  · exact ⟨_, evict_suffix _ _ _, rfl⟩

theorem snapshot_eq (monitor : CaptureMonitor) :
    (monitor.snapshot.frames, monitor.snapshot.reset) =
      snapshotSince CapturedFrame.id monitor.buffer.frames
        (monitor.view.getLast?.map CapturedFrame.id) := by
  rw [snapshot, SerialCaptureBuffer.snapshotSince, snapshotSince]
  cases monitor.view.getLast? with
  | none => rfl
  | some last =>
    cases found : monitor.buffer.frames.findIdx? fun frame => decide (frame.id = last.id) <;>
      simp [found]

theorem follows_captured {monitor : CaptureMonitor} {pending : List CapturedFrame}
    (follows : BufferFollows monitor pending) (id : String) (ts : DateTime) (direction : EventDirection)
    (bytes : List UInt8) :
    BufferFollows (monitor.step (.captured id ts direction bytes))
      (pending ++ capturedBy [.captured id ts direction bytes]) := by
  obtain ⟨kept, suffix, frames⟩ := push_frames monitor.buffer id ts direction bytes
  rw [BufferFollows, step, frames, ← append_assoc]
  obtain ⟨gone, whole⟩ := suffix.trans follows
  exact ⟨gone, by rw [← append_assoc, whole]⟩

theorem follows_polled {monitor : CaptureMonitor} {pending : List CapturedFrame}
    (follows : BufferFollows monitor pending)
    (distinct : ((monitor.view ++ pending).map CapturedFrame.id).Nodup) :
    (monitor.snapshot.reset = false ∧ (monitor.step .polled).view = monitor.view ++ pending) ∨
      monitor.snapshot.reset = true ∧ (monitor.step .polled).view = monitor.buffer.frames := by
  rw [step]
  dsimp only
  have answer := snapshot_eq monitor
  rcases snapshotSince_cases follows distinct with part | whole
  · rw [part] at answer
    obtain ⟨frames, reset⟩ := Prod.mk.inj answer
    rw [reset, frames]
    exact .inl ⟨rfl, rfl⟩
  · rw [whole] at answer
    obtain ⟨frames, reset⟩ := Prod.mk.inj answer
    rw [reset, frames]
    exact .inr ⟨rfl, rfl⟩

theorem follows_run (events : List CaptureEvent) {monitor : CaptureMonitor}
    {pending : List CapturedFrame} (follows : BufferFollows monitor pending)
    (distinct : ((monitor.view ++ pending ++ capturedBy events).map CapturedFrame.id).Nodup) :
    ∃ pending', BufferFollows (monitor.run events) pending' ∧
      ((monitor.run events).view ++ pending').Sublist (monitor.view ++ pending ++ capturedBy events) ∧
      (monitor.NoReset events →
        (monitor.run events).view ++ pending' = monitor.view ++ pending ++ capturedBy events) := by
  induction events generalizing monitor pending with
  | nil =>
    have none : monitor.view ++ pending ++ capturedBy [] = monitor.view ++ pending :=
      append_nil _
    rw [none]
    exact ⟨pending, follows, List.Sublist.refl _, fun _ => rfl⟩
  | cons event events ih =>
    rw [capturedBy_cons, ← append_assoc] at distinct ⊢
    have later : monitor.NoReset (event :: events) → (monitor.step event).NoReset events :=
      fun none before after split => none (event :: before) after (by rw [split]; rfl)
    cases event with
    | captured id ts direction bytes =>
      have next := follows_captured follows id ts direction bytes
      rw [append_assoc _ pending] at distinct ⊢
      obtain ⟨pending', follows', sub, same⟩ := ih next distinct
      exact ⟨pending', follows', sub, fun none => same (later none)⟩
    | cleared =>
      have nothing : monitor.view ++ pending ++ capturedBy [.cleared] = monitor.view ++ pending :=
        append_nil _
      rw [nothing] at distinct ⊢
      obtain ⟨pending', follows', sub, same⟩ :=
        @ih (monitor.step .cleared) pending nil_suffix distinct
      exact ⟨pending', follows', sub, fun none => same (later none)⟩
    | polled =>
      have nothing : monitor.view ++ pending ++ capturedBy [.polled] = monitor.view ++ pending :=
        append_nil _
      rw [nothing] at distinct ⊢
      have held : ((monitor.view ++ pending).map CapturedFrame.id).Nodup :=
        distinct.sublist ((sublist_append_left _ _).map _)
      rcases follows_polled follows held with ⟨_, view⟩ | ⟨reset, view⟩
      · have next : BufferFollows (monitor.step .polled) [] := by
          rw [BufferFollows, view, append_nil]
          exact follows
        obtain ⟨pending', follows', sub, same⟩ :=
          ih next (by rw [view, append_nil]; exact distinct)
        rw [view, append_nil] at sub same
        exact ⟨pending', follows', sub, fun none => same (later none)⟩
      · have next : BufferFollows (monitor.step .polled) [] := by
          rw [BufferFollows, view, append_nil]
          exact suffix_refl _
        have smaller : (monitor.buffer.frames ++ capturedBy events).Sublist
            (monitor.view ++ pending ++ capturedBy events) :=
          follows.sublist.append (List.Sublist.refl _)
        obtain ⟨pending', follows', sub, -⟩ :=
          ih next (by rw [view, append_nil]; exact distinct.sublist (smaller.map _))
        rw [view, append_nil] at sub
        refine ⟨pending', follows', sub.trans smaller, fun none => ?_⟩
        have kept := none [] events rfl
        exact absurd (kept.symm.trans reset) (by decide)

end Following

section History

theorem readHistory_count (crates : LogCrates) (files : HistoryCandidate → LogFiles)
    (candidates : List HistoryCandidate) (history : SerialCaptureHistorySnapshot) :
    (readHistory crates files candidates history).frames.length +
        (readHistory crates files candidates history).unavailableFrames ≤
      history.frames.length + history.unavailableFrames + candidates.length := by
  induction candidates generalizing history with
  | nil => exact Nat.le_refl _
  | cons candidate older ih =>
    have counted : saturatingAdd history.unavailableFrames 1 ≤ history.unavailableFrames + 1 :=
      Nat.min_le_left _ _
    rw [readHistory, length_cons]
    split
    · omega
    · dsimp only
      have unavailable := ih
        { history with unavailableFrames := saturatingAdd history.unavailableFrames 1 }
      dsimp only at unavailable
      split
      · omega
      · split
        · omega
        · split
          · omega
          next relative _ bytes _ _ _ =>
            refine Nat.le_trans (ih _) ?_
            dsimp only
            rw [length_append, length_singleton]
            omega

theorem history_count {crates : LogCrates} {files : HistoryCandidate → LogFiles}
    {sessionId : String} {checked profile : Option CaptureProfile} {events : List SessionEvent}
    {history : SerialCaptureHistorySnapshot}
    (answered : serialCaptureHistoryInner crates files sessionId checked profile events =
      .ok history) :
    history.frames.length + history.unavailableFrames + history.droppedFrames =
      history.totalFrames := by
  unfold serialCaptureHistoryInner at answered
  split at answered
  · cases answered
  · split at answered
    · cases answered
    · split at answered
      · cases answered
      · split at answered
        · cases answered
          rfl
        · obtain rfl := Except.ok.inj answered
          have count := readHistory_count crates files (historyCandidates sessionId events).reverse
            { enabled := true }
          dsimp only at count ⊢
          rw [length_reverse, length_nil] at count
          rw [length_reverse]
          omega

end History

variable (monitor : CaptureMonitor)

theorem run_append (before after : List CaptureEvent) :
    monitor.run (before ++ after) = (monitor.run before).run after :=
  foldl_append

theorem noReset_concat {monitor : CaptureMonitor} {middle : List CaptureEvent}
    (none : monitor.NoReset (middle ++ [.polled])) :
    monitor.NoReset middle ∧ (monitor.run middle).snapshot.reset = false :=
  ⟨fun before after split => none before (after ++ [.polled]) (by rw [split]; simp),
    none middle [] rfl⟩

theorem noReset_nil : monitor.NoReset [] := by
  intro before after split
  cases before <;> cases split

theorem noReset_cons {monitor : CaptureMonitor} {event : CaptureEvent} {events : List CaptureEvent}
    (first : event = .polled → monitor.snapshot.reset = false)
    (rest : (monitor.step event).NoReset events) : monitor.NoReset (event :: events) := by
  intro before after split
  cases before with
  | nil => exact first (cons.inj split).1
  | cons _ before =>
    obtain ⟨rfl, others⟩ := cons.inj split
    exact rest before after others

theorem polled_reset {monitor : CaptureMonitor} (reset : monitor.snapshot.reset = true) :
    (monitor.step .polled).view = monitor.buffer.frames := by
  rw [step]
  dsimp only
  rw [if_pos reset]
  exact if_pos reset

theorem follows_reached {events : List CaptureEvent}
    (fresh : ((capturedBy events).map CapturedFrame.id).Nodup) :
    ∃ pending, BufferFollows (run {} events) pending ∧
      ((run {} events).view ++ pending).Sublist (capturedBy events) := by
  have start : BufferFollows {} [] := suffix_refl []
  obtain ⟨pending, follows, sub, -⟩ := follows_run events start fresh
  exact ⟨pending, follows, sub⟩

/-- A client of a session's buffer, in any run whose frames have ids of their own. -/
theorem serial_capture_followed (events : List CaptureEvent)
    (fresh : ((capturedBy events).map CapturedFrame.id).Nodup) :
    let reached := run {} events
    let polled := reached.step .polled
    (reached.buffer.capturedBytes = (reached.buffer.frames.map (·.bytes.length)).sum ∧
      reached.buffer.frames.length ≤ maxSerialCaptureFrames ∧
      reached.buffer.capturedBytes ≤ maxSerialCaptureBytes ∧
      LongestEnd reached.buffer.frames (sinceClear [] events)) ∧
    (polled.buffer = reached.buffer ∧ polled.buffer.frames <:+ polled.view ∧
      (reached.snapshot.reset = true → polled.view = polled.buffer.frames)) ∧
    (∀ before middle, events = before ++ .polled :: middle →
      (run {} before).snapshot.reset = true →
      (run {} (before ++ [.polled])).NoReset (middle ++ [.polled]) →
        polled.view = (run {} before).buffer.frames ++ capturedBy middle ∧
          (polled.view.map CapturedFrame.id).Nodup) ∧
    ∀ crates files sessionId checked profile stored history,
      serialCaptureHistoryInner crates files sessionId checked profile stored = .ok history →
        history.frames.length + history.unavailableFrames + history.droppedFrames =
          history.totalFrames := by
  intro reached polled
  obtain ⟨pending, follows, sub⟩ := follows_reached fresh
  have answer := follows_polled follows (fresh.sublist (sub.map _))
  have empty : SerialCaptureBuffer.Sound {} := ⟨rfl, Nat.zero_le _, Nat.zero_le _⟩
  have sound := @run_sound events {} empty
  have longest := @run_longest events {} empty [] ⟨suffix_refl _, ⟨Nat.zero_le _, Nat.zero_le _⟩,
    fun _ suffix _ => suffix⟩
  refine ⟨⟨sound.sum, sound.frameLimit, sound.byteLimit, longest⟩, ⟨rfl, ?_, fun reset => ?_⟩,
    fun before middle split reset none => ?_,
    fun _ _ _ _ _ _ _ answered => history_count answered⟩
  · rcases answer with ⟨-, view⟩ | ⟨-, view⟩
    · exact view ▸ follows
    · exact view ▸ suffix_refl _
  · exact polled_reset reset
  · -- the poll that resets starts the stretch with the buffer's frames
    have parts : capturedBy events = capturedBy before ++ capturedBy middle := by
      rw [split, capturedBy, flatMap_append, flatMap_cons]
      rfl
    rw [parts] at fresh
    obtain ⟨pending₀, follows₀, sub₀⟩ :=
      follows_reached (fresh.sublist ((sublist_append_left _ _).map _))
    have base : (run {} before).buffer.frames.Sublist (capturedBy before) :=
      follows₀.sublist.trans sub₀
    have start : run {} (before ++ [.polled]) =
        (run {} before).step .polled := run_append {} before [.polled]
    have view₀ : (run {} (before ++ [.polled])).view =
        (run {} before).buffer.frames := by
      rw [start]
      exact polled_reset reset
    have stretch : (run {} (before ++ [.polled])).run middle = reached := by
      rw [← run_append, append_assoc, singleton_append, ← split]
    have follows₁ : BufferFollows (run {} (before ++ [.polled])) [] := by
      rw [BufferFollows, view₀, append_nil, start]
      exact suffix_refl _
    have distinct : (((run {} (before ++ [CaptureEvent.polled])).view ++ [] ++
        capturedBy middle).map CapturedFrame.id).Nodup := by
      rw [view₀, append_nil]
      exact fresh.sublist ((base.append (List.Sublist.refl _)).map _)
    obtain ⟨pending', follows', -, same⟩ := follows_run middle follows₁ distinct
    obtain ⟨noneMiddle, last⟩ := noReset_concat none
    have whole := same noneMiddle
    rw [view₀, append_nil] at whole distinct
    rw [stretch] at follows' whole last
    rcases follows_polled follows' (whole ▸ distinct) with ⟨-, view⟩ | ⟨again, -⟩
    · exact ⟨view.trans whole, by rw [view, whole]; exact distinct⟩
    · exact absurd (last.symm.trans again) (by decide)

/-- The client holds the first read, polls after the second and receives it and the third. -/
theorem serial_capture_polled_twice :
    let polled := (run {} [.captured "a" 0 .inbound [1], .polled,
      .captured "b" 1 .outbound [2, 3], .polled, .captured "c" 2 .inbound [4]]).step .polled
    polled.view = [capturedFrame "a" 0 .inbound [1], capturedFrame "b" 1 .outbound [2, 3],
        capturedFrame "c" 2 .inbound [4]] ∧
      (polled.view.map CapturedFrame.id).Nodup := by
  have read (id : String) (ts : DateTime) (direction : EventDirection) (bytes : List UInt8)
      (monitor : CaptureMonitor) : CaptureEvent.captured id ts direction bytes = .polled →
        monitor.snapshot.reset = false := by
    intro same
    cases same
  refine (serial_capture_followed [.captured "a" 0 .inbound [1], .polled,
    .captured "b" 1 .outbound [2, 3], .polled, .captured "c" 2 .inbound [4]] (by decide)).2.2.1
    [.captured "a" 0 .inbound [1]] [.captured "b" 1 .outbound [2, 3], .polled,
      .captured "c" 2 .inbound [4]] rfl rfl ?_
  exact noReset_cons (read "b" 1 .outbound [2, 3] _)
    (noReset_cons (fun _ => rfl) (noReset_cons (read "c" 2 .inbound [4] _)
      (noReset_cons (fun _ => rfl) (noReset_nil _))))

end PortMate
