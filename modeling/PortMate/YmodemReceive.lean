import PortMate.YmodemLink

namespace PortMate

open Or UInt8 YmodemReceiver

/-- A receiver that took the metadata and the first `k` blocks of the source. -/
structure YmodemProgress (source metadata : List UInt8) (k : Nat) (r : YmodemReceiver) : Prop where
  metadata : r.metadata = metadata
  expectedSize : r.expectedSize = some source.length
  expected : r.expected = ofNat (k + 1)
  output : r.output.Limited source.length (paddedPrefix source ymodemBlockSize k)
  bytesReceived : r.bytesReceived = k * ymodemBlockSize
  begun : k = 0 ∨ (k - 1) * ymodemBlockSize < source.length

structure YmodemFresh (r : YmodemReceiver) : Prop where
  expected : r.expected = 1
  output : r.output = .create
  bytesReceived : r.bytesReceived = 0

/-- The receiver that took `d` frames and part of another. -/
inductive YmodemReading (source metadata : List UInt8) : Nat → List UInt8 → YmodemReceiver → Prop
  | metadataMarker {r : YmodemReceiver} {left : Nat} (phase : r.phase = .metadataMarker left)
      (fresh : YmodemFresh r) : YmodemReading source metadata 0 [] r
  | metadataPacket {r : YmodemReceiver} {marker : UInt8} {bytes : List UInt8}
      (phase : r.phase = .metadataPacket marker bytes) (fresh : YmodemFresh r) :
      YmodemReading source metadata 0 (marker :: bytes) r
  | marker {r : YmodemReceiver} {k : Nat} (phase : r.phase = .marker)
      (progress : YmodemProgress source metadata k r) : YmodemReading source metadata (k + 1) [] r
  | packet {r : YmodemReceiver} {k : Nat} {marker : UInt8} {bytes : List UInt8}
      (phase : r.phase = .packet marker bytes) (progress : YmodemProgress source metadata k r) :
      YmodemReading source metadata (k + 1) (marker :: bytes) r
  | finalMarker {r : YmodemReceiver} {d : Nat} (phase : r.phase = .finalMarker)
      (file : r.output.file = source) : YmodemReading source metadata d [] r
  | finalPacket {r : YmodemReceiver} {d : Nat} {marker : UInt8} {bytes : List UInt8}
      (phase : r.phase = .finalPacket marker bytes) (file : r.output.file = source) :
      YmodemReading source metadata d (marker :: bytes) r

/-- The receiver ended, and if it reports success its file is the source. -/
def YmodemStopped (source : List UInt8) (r : YmodemReceiver) : Prop :=
  ∃ result, r.phase = .finished result ∧
    ∀ bytesWritten, result = .ok bytesWritten → r.output.file = source

section Receiver

variable {source metadata : List UInt8} {r : YmodemReceiver} {a : UInt8} {rest : List UInt8}

theorem ymodem_receiver_failed (source : List UInt8) (r : YmodemReceiver) (error : String) :
    YmodemStopped source (r.fail error) :=
  ⟨.error error, rfl, fun _ same => nomatch same⟩

theorem conclude_stopped (file : r.output.file = source) : YmodemStopped source r.conclude := by
  unfold conclude
  split
  · split_ifs
    · exact ymodem_receiver_failed source r _
    · exact ⟨_, rfl, fun _ _ => file⟩
  · exact ⟨_, rfl, fun _ _ => file⟩

theorem ymodemPacketOf_marker {i : Nat} {marker blockNo : UInt8} {payload : List UInt8}
    (packet : ymodemPacketOf source metadata i = some (marker, blockNo, payload)) :
    marker = modemSoh ∨ marker = modemStx := by
  match i with
  | 0 =>
    cases packet
    exact inl rfl
  | 1 =>
    cases packet
    exact inl rfl
  | k + 2 =>
    simp only [ymodemPacketOf] at packet
    split_ifs at packet
    · cases packet
      exact inr rfl
    · cases packet
      exact inl rfl

theorem wait_packet_marker {marker : UInt8} (h : marker = modemSoh ∨ marker = modemStx) :
    modemWaitForNextMarker marker = .ready marker ∧ marker ≠ modemEot := by
  rcases h with rfl | rfl
  · exact ⟨rfl, by decide⟩
  · exact ⟨rfl, by decide⟩

theorem ymodemFrame_cases {i : Nat} {bytes : List UInt8}
    (whole : ymodemFrame source metadata i = a :: bytes) :
    ymodemPacketOf source metadata i = none ∧ a = modemEot ∧ bytes = [] ∨
      ∃ blockNo payload, ymodemPacketOf source metadata i = some (a, blockNo, payload) ∧
        bytes = modemPacketBody a blockNo payload := by
  unfold ymodemFrame at whole
  split at whole
  next marker blockNo payload packet =>
    rw [modemSendPacket_crc] at whole
    obtain ⟨rfl, body⟩ := List.cons.inj whole
    exact inr ⟨blockNo, payload, packet, body.symm⟩
  next packet =>
    obtain ⟨rfl, ended⟩ := List.cons.inj whole
    exact inl ⟨packet, rfl, ended.symm⟩

theorem ymodemFrame_inside {i : Nat} {marker : UInt8} {bytes : List UInt8}
    (whole : ymodemFrame source metadata i = marker :: bytes ++ a :: rest) :
    ∃ blockNo payload, ymodemPacketOf source metadata i = some (marker, blockNo, payload) ∧
      modemPacketBody marker blockNo payload = (bytes ++ [a]) ++ rest := by
  rcases ymodemFrame_cases whole with ⟨-, -, ended⟩ | ⟨blockNo, payload, packet, body⟩
  · simp at ended
  · exact ⟨blockNo, payload, packet, by rw [← body]; simp⟩

theorem modemReadPacket_cases {marker blockNo : UInt8} {payload bytes : List UInt8}
    (body : modemPacketBody marker blockNo payload = bytes ++ rest) :
    rest ≠ [] ∧ modemReadPacket marker bytes = .more ∨
      rest = [] ∧ modemReadPacket marker bytes =
        .packet ⟨blockNo, modemPacketData payload (modemBlockSize marker)⟩ := by
  by_cases last : rest = []
  · rw [last, List.append_nil] at body
    exact inr ⟨last, body ▸ modemReadPacket_whole marker blockNo payload⟩
  · exact inl ⟨last, modemReadPacket_part body last⟩

theorem ymodemPacketOf_none {k i : Nat} (position : i = k + 1 ∧ 1 ≤ k + 1 ∨ i = k + 1 + 1)
    (begun : k = 0 ∨ (k - 1) * ymodemBlockSize < source.length)
    (eot : ymodemPacketOf source metadata i = none) :
    i = k + 2 ∧ source.length ≤ k * ymodemBlockSize := by
  rcases position with ⟨rfl, -⟩ | rfl
  · match k with
    | 0 => simp [ymodemPacketOf] at eot
    | j + 1 =>
      have more : j * ymodemBlockSize < source.length := by simpa using begun
      simp [ymodemPacketOf, more] at eot
  · refine ⟨rfl, Nat.not_lt.mp fun more => ?_⟩
    simp [ymodemPacketOf, more] at eot

theorem progress_file {k : Nat} (progress : YmodemProgress source metadata k r)
    (whole : source.length ≤ k * ymodemBlockSize) : r.output.file = source :=
  progress.output.file.trans (paddedPrefix_take whole)

theorem ymodem_takes_marker {k i : Nat} (phase : r.phase = .marker)
    (progress : YmodemProgress source metadata k r)
    (position : i = k + 1 ∧ 1 ≤ k + 1 ∨ i = k + 1 + 1)
    (whole : ymodemFrame source metadata i = a :: rest) :
    TakesSymbol (YmodemReading source metadata) (YmodemStopped source) (k + 1) i [a] rest
      (r.step (.symbol a)).1 := by
  rcases ymodemFrame_cases whole with ⟨eot, rfl, rfl⟩ | ⟨blockNo, payload, packet, rfl⟩
  · obtain ⟨rfl, ended⟩ := ymodemPacketOf_none position progress.begun eot
    have final : (r.step (.symbol modemEot)).1 = { r with phase := .finalMarker } := by
      simp only [YmodemReceiver.step, phase]
      rfl
    have file := progress_file progress ended
    rw [final]
    exact inr (inl ⟨rfl, .finalMarker rfl file⟩)
  · obtain ⟨ready, notEot⟩ := wait_packet_marker (ymodemPacketOf_marker packet)
    simp only [YmodemReceiver.step, phase, ready, if_neg notEot]
    exact inr (inr ⟨modemPacketBody_ne_nil _ _ _, .packet rfl
      ⟨progress.metadata, progress.expectedSize, progress.expected, progress.output,
        progress.bytesReceived, progress.begun⟩⟩)

theorem YmodemProgress.listening {k : Nat} (progress : YmodemProgress source metadata k r) :
    YmodemReading source metadata (k + 1) [] { r with phase := .marker } :=
  .marker rfl ⟨progress.metadata, progress.expectedSize, progress.expected, progress.output,
    progress.bytesReceived, progress.begun⟩

theorem ymodem_accept_progress {k : Nat} {next : YmodemReceiver}
    (progress : YmodemProgress source metadata k r) (more : k * ymodemBlockSize < source.length)
    {blockNo : UInt8}
    (h : r.accept ⟨blockNo, modemPacketData
      (modemNextRead source (k * ymodemBlockSize) ymodemBlockSize) ymodemBlockSize⟩ = .ok next) :
    YmodemReading source metadata (k + 2) [] next := by
  simp only [accept, progress.expectedSize] at h
  obtain ⟨output, appended, h⟩ := except_bind_eq_ok h
  obtain ⟨bytesReceived, added, h⟩ := except_bind_eq_ok h
  cases h
  have limited := append_limited progress.output appended
  rw [paddedPrefix_succ more] at limited
  refine .marker rfl ⟨progress.metadata, rfl, ?_, limited, ?_, inr more⟩
  · simp only [progress.expected]
    rw [ofNat_add (k + 1) 1]
    rfl
  · simp only [checkedAddU64_ok added, progress.bytesReceived, modemPacketData_length]
    exact (Nat.succ_mul k ymodemBlockSize).symm

theorem ymodem_takes_packet (sized : metadata.length = xmodemBlockSize) {k i : Nat}
    (progress : YmodemProgress source metadata k r)
    (position : i = k + 1 ∧ 1 ≤ k + 1 ∨ i = k + 1 + 1) {marker blockNo : UInt8}
    {payload : List UInt8}
    (packet : ymodemPacketOf source metadata i = some (marker, blockNo, payload)) :
    YmodemStopped source
        (r.onPacket ⟨blockNo, modemPacketData payload (modemBlockSize marker)⟩).1 ∨
      YmodemReading source metadata i []
        (r.onPacket ⟨blockNo, modemPacketData payload (modemBlockSize marker)⟩).1 := by
  rcases position with ⟨rfl, -⟩ | rfl
  · refine inr ?_
    cases k with
    | zero =>
      cases packet
      have same : modemPacketData metadata (modemBlockSize modemSoh) = r.metadata := by
        rw [progress.metadata]
        exact modemPacketData_full sized
      have ahead : (0 : UInt8) ≠ r.expected := by
        rw [progress.expected]
        exact ofNat_succ_ne 0
      have nothing : r.bytesReceived = 0 := by simpa using progress.bytesReceived
      rw [onPacket, if_neg ahead, if_pos ⟨nothing, rfl, same⟩]
      exact progress.listening
    | succ j =>
      have more : j * ymodemBlockSize < source.length := by simpa using progress.begun
      simp only [ymodemPacketOf, if_pos more] at packet
      cases packet
      have received : 0 < r.bytesReceived := by
        rw [progress.bytesReceived]
        exact Nat.mul_pos (Nat.succ_pos j) (by decide)
      have repeated : ofNat (j + 1) ≠ r.expected := by
        rw [progress.expected]
        exact ofNat_succ_ne (j + 1)
      have previous : ofNat (j + 1) = r.expected - 1 := by
        rw [progress.expected, ofNat_add (j + 1) 1]
        simp
      rw [onPacket, if_neg repeated, if_neg fun first => received.ne' first.1,
        if_pos ⟨received, previous⟩]
      exact progress.listening
  · simp only [ymodemPacketOf] at packet
    split_ifs at packet with more last
    · cases packet
      simp only [onPacket, progress.expected, ↓reduceIte]
      split
      next next accepted => exact inr (ymodem_accept_progress progress more accepted)
      next => exact inl (ymodem_receiver_failed source r _)
    · exact absurd progress.begun last

theorem ymodem_takes_metadata {name : String} (bound : source.length < 2 ^ 64)
    (named : ymodemMetadataBlock name source.length = .ok metadata) (fresh : YmodemFresh r) :
    YmodemStopped source (r.onMetadata ⟨0, modemPacketData metadata (modemBlockSize modemSoh)⟩).1 ∨
      YmodemReading source metadata 1 []
        (r.onMetadata ⟨0, modemPacketData metadata (modemBlockSize modemSoh)⟩).1 := by
  have whole : modemPacketData metadata (modemBlockSize modemSoh) = metadata :=
    modemPacketData_full (ymodemMetadataBlock_ok named).1
  simp only [onMetadata, whole, parseYmodemMetadata_block named bound, ne_eq,
    not_true, ↓reduceIte]
  split_ifs
  · exact inl (ymodem_receiver_failed source r _)
  · exact inl (ymodem_receiver_failed source r _)
  · refine inr (.marker rfl ⟨rfl, rfl, fresh.expected, ?_, ?_, inl rfl⟩)
    · simp only [fresh.output]
      exact ⟨by simp [paddedPrefix, ModemOutput.create], rfl⟩
    · simp only [fresh.bytesReceived, Nat.zero_mul]

theorem ymodem_takes_symbol {name : String} (bound : source.length < 2 ^ 64)
    (named : ymodemMetadataBlock name source.length = .ok metadata) {d i : Nat}
    {part : List UInt8} (reading : YmodemReading source metadata d part r)
    (position : i = d ∧ 1 ≤ d ∨ i = d + 1)
    (whole : ymodemFrame source metadata i = part ++ a :: rest) :
    TakesSymbol (YmodemReading source metadata) (YmodemStopped source) d i (part ++ [a]) rest
      (r.step (.symbol a)).1 := by
  cases reading with
  | metadataMarker phase fresh =>
    obtain rfl : i = 1 := by omega
    rcases ymodemFrame_cases whole with ⟨eot, -⟩ | ⟨blockNo, payload, packet, rfl⟩
    · exact nomatch eot
    · obtain ⟨ready, notEot⟩ := wait_packet_marker (ymodemPacketOf_marker packet)
      simp only [YmodemReceiver.step, phase, ready, if_neg notEot]
      exact inr (inr ⟨modemPacketBody_ne_nil _ _ _,
        .metadataPacket rfl ⟨fresh.expected, fresh.output, fresh.bytesReceived⟩⟩)
  | metadataPacket phase fresh =>
    obtain rfl : i = 1 := by omega
    obtain ⟨blockNo, payload, packet, body⟩ := ymodemFrame_inside whole
    cases packet
    rcases modemReadPacket_cases body with ⟨more, read⟩ | ⟨last, read⟩
    · simp only [YmodemReceiver.step, phase, read]
      exact inr (inr ⟨more,
        .metadataPacket rfl ⟨fresh.expected, fresh.output, fresh.bytesReceived⟩⟩)
    · simp only [YmodemReceiver.step, phase, read]
      exact (ymodem_takes_metadata bound named fresh).imp_right fun next => inl ⟨last, next⟩
  | marker phase progress => exact ymodem_takes_marker phase progress position whole
  | packet phase progress =>
    obtain ⟨blockNo, payload, packet, body⟩ := ymodemFrame_inside whole
    rcases modemReadPacket_cases body with ⟨more, read⟩ | ⟨last, read⟩
    · simp only [YmodemReceiver.step, phase, read]
      exact inr (inr ⟨more, .packet rfl ⟨progress.metadata, progress.expectedSize,
        progress.expected, progress.output, progress.bytesReceived, progress.begun⟩⟩)
    · simp only [YmodemReceiver.step, phase, read]
      exact (ymodem_takes_packet (ymodemMetadataBlock_ok named).1 progress position
        packet).imp_right fun next => inl ⟨last, next⟩
  | finalMarker phase file =>
    rcases ymodemFrame_cases whole with ⟨-, rfl, -⟩ | ⟨blockNo, payload, packet, rfl⟩
    · have concluded : (r.step (.symbol modemEot)).1 = r.conclude := by
        simp only [YmodemReceiver.step, phase]
        rfl
      rw [concluded]
      exact inl (conclude_stopped file)
    · obtain ⟨ready, notEot⟩ := wait_packet_marker (ymodemPacketOf_marker packet)
      simp only [YmodemReceiver.step, phase, ready, if_neg notEot]
      exact inr (inr ⟨modemPacketBody_ne_nil _ _ _, .finalPacket rfl file⟩)
  | finalPacket phase file =>
    obtain ⟨blockNo, payload, packet, body⟩ := ymodemFrame_inside whole
    rcases modemReadPacket_cases body with ⟨more, read⟩ | ⟨last, read⟩
    · simp only [YmodemReceiver.step, phase, read]
      exact inr (inr ⟨more, .finalPacket rfl file⟩)
    · simp only [YmodemReceiver.step, phase, read]
      exact inl (conclude_stopped file)

theorem ymodem_waits {d : Nat} {part : List UInt8} {arrival : Arrival UInt8}
    (reading : YmodemReading source metadata d part r) (alone : arrival.Alone) :
    YmodemStopped source (r.step arrival).1 ∨
      YmodemReading source metadata d part (r.step arrival).1 := by
  cases arrival with
  | symbol a => exact alone.elim
  | interrupt reason =>
    refine inl ?_
    cases reading with
    | finalMarker phase file =>
      simp only [YmodemReceiver.step, phase]
      exact conclude_stopped file
    | metadataMarker phase | metadataPacket phase | marker phase | packet phase | finalPacket phase =>
      simp only [YmodemReceiver.step, phase]
      exact ymodem_receiver_failed source r reason
  | timeout =>
    cases reading with
    | @metadataMarker _ left phase fresh =>
      cases left with
      | zero =>
        simp only [YmodemReceiver.step, phase]
        exact inl (ymodem_receiver_failed source r _)
      | succ left =>
        simp only [YmodemReceiver.step, phase]
        exact inr (.metadataMarker rfl ⟨fresh.expected, fresh.output, fresh.bytesReceived⟩)
    | finalMarker phase file =>
      simp only [YmodemReceiver.step, phase]
      exact inl (conclude_stopped file)
    | metadataPacket phase | marker phase | packet phase | finalPacket phase =>
      simp only [YmodemReceiver.step, phase]
      exact inl (ymodem_receiver_failed source r _)

theorem ymodem_asks {arrival : Arrival UInt8} (reading : YmodemReading source metadata 0 [] r)
    (alone : arrival.Alone) (b : UInt8)
    (mem : b ∈ ((r.step arrival).2.flatMap ReceiverSignal.bytes)) : b = modemCrcRequest := by
  cases reading with
  | finalMarker phase =>
    cases arrival with
    | symbol a => exact alone.elim
    | timeout | interrupt => simp [YmodemReceiver.step, phase] at mem
  | @metadataMarker _ left phase =>
    cases arrival with
    | symbol a => exact alone.elim
    | interrupt => simp [YmodemReceiver.step, phase] at mem
    | timeout =>
      cases left with
      | zero => simp [YmodemReceiver.step, phase] at mem
      | succ left => simpa [YmodemReceiver.step, phase, ReceiverSignal.bytes] using mem

theorem ymodem_stopped_stays {arrival : Arrival UInt8} (stopped : YmodemStopped source r) :
    r.step arrival = (r, []) := by
  obtain ⟨result, phase, -⟩ := stopped
  simp [YmodemReceiver.step, phase]

theorem ymodem_assembling {name : String} (bound : source.length < 2 ^ 64)
    (named : ymodemMetadataBlock name source.length = .ok metadata) :
    Assembling (ymodemReceiveFile.emitting ReceiverSignal.bytes) (ymodemFrame source metadata)
      (· = modemCrcRequest) (YmodemReading source metadata) (YmodemStopped source) where
  symbol reading position whole := ymodem_takes_symbol bound named reading position whole
  alone := ymodem_waits
  asks := ymodem_asks
  stopped stopped := by
    simp only [Transducer.emitting_step, ymodemReceiveFile, ymodem_stopped_stays stopped]
    exact ⟨stopped, rfl⟩

end Receiver

end PortMate
