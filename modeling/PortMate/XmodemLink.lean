import PortMate.Xmodem

namespace PortMate

open List Or UInt8

/-- What the sender writes for the first time as its `i`-th frame. -/
def xmodemFrame (source : List UInt8) (i : Nat) : List UInt8 :=
  if (i - 1) * xmodemBlockSize < source.length then
    modemSendPacket modemSoh (ofNat i)
      (modemNextRead source ((i - 1) * xmodemBlockSize) xmodemBlockSize) true
  else [modemEot]

theorem xmodemFrame_ne_nil (source : List UInt8) (i : Nat) : xmodemFrame source i ≠ [] := by
  unfold xmodemFrame
  split_ifs
  · simp [modemSendPacket_crc]
  · simp

variable {source : List UInt8}

theorem xmodemFrame_eot {k : Nat} (whole : source.length ≤ k * xmodemBlockSize) :
    xmodemFrame source (k + 1) = [modemEot] := by
  rw [xmodemFrame, Nat.add_sub_cancel, if_neg (by omega)]

/-- The sender that has begun `e` frames. -/
inductive XmodemSending (source : List UInt8) : Nat → XmodemSender → Prop
  | waiting {s : XmodemSender} (phase : s.phase = .waitForReceiver) (same : s.source = source)
      (bytesDone : s.bytesDone = 0) (blockNo : s.blockNo = 1) : XmodemSending source 0 s
  | packet {s : XmodemSender} {k left : Nat} (phase : s.phase = .packet left)
      (same : s.source = source) (crc : s.crc = true) (bytesDone : s.bytesDone = k * xmodemBlockSize)
      (more : k * xmodemBlockSize < source.length) (blockNo : s.blockNo = ofNat (k + 1)) :
      XmodemSending source (k + 1) s
  | eot {s : XmodemSender} {k left : Nat} (phase : s.phase = .eot left)
      (whole : source.length ≤ k * xmodemBlockSize) : XmodemSending source (k + 1) s
  | finished {s : XmodemSender} {e : Nat} {result : Except String Nat}
      (phase : s.phase = .finished result) : XmodemSending source e s

def XmodemSender.Started (s : XmodemSender) : Prop := s.phase ≠ .waitForReceiver

variable {s : XmodemSender}

theorem xmodemFrame_packet {k : Nat} (same : s.source = source) (crc : s.crc = true)
    (bytesDone : s.bytesDone = k * xmodemBlockSize) (more : k * xmodemBlockSize < source.length)
    (blockNo : s.blockNo = ofNat (k + 1)) : s.packet = xmodemFrame source (k + 1) := by
  rw [xmodemFrame, Nat.add_sub_cancel, if_pos more, XmodemSender.packet, XmodemSender.read, same,
    crc, bytesDone, blockNo]

theorem sendNext_writes {k : Nat} (same : s.source = source) (crc : s.crc = true)
    (bytesDone : s.bytesDone = min (k * xmodemBlockSize) source.length)
    (blockNo : s.blockNo = ofNat (k + 1)) :
    WritesFrame (xmodemFrame source) (XmodemSending source) k s.sendNext := by
  subst same
  refine inr (inr ?_)
  unfold XmodemSender.sendNext
  split_ifs with more auto
  · have at_k : s.bytesDone = k * xmodemBlockSize := by omega
    have room : k * xmodemBlockSize < s.source.length := by omega
    exact ⟨.packet rfl rfl crc at_k room blockNo,
      xmodemFrame_packet rfl crc at_k room blockNo⟩
  · have whole : s.source.length ≤ k * xmodemBlockSize := by omega
    exact ⟨.eot rfl whole, (xmodemFrame_eot whole).symm⟩
  · have whole : s.source.length ≤ k * xmodemBlockSize := by omega
    exact ⟨.eot rfl whole, (xmodemFrame_eot whole).symm⟩

theorem packet_writes {k left : Nat} (phase : s.phase = .packet left) (same : s.source = source)
    (crc : s.crc = true) (bytesDone : s.bytesDone = k * xmodemBlockSize)
    (more : k * xmodemBlockSize < source.length) (blockNo : s.blockNo = ofNat (k + 1))
    (arrival : Arrival UInt8) :
    WritesFrame (xmodemFrame source) (XmodemSending source) (k + 1) (s.step arrival) := by
  subst same
  simp only [XmodemSender.step, phase]
  split
  · refine sendNext_writes rfl crc ?_ ?_
    · simp only [XmodemSender.read, modemNextRead, length_take, length_drop, bytesDone]
      rw [Nat.succ_mul]
      omega
    · simp only [blockNo]
      rw [ofNat_add (k + 1) 1]
      rfl
  · exact inr (inl ⟨Nat.succ_pos k, .packet rfl rfl crc bytesDone more blockNo,
      xmodemFrame_packet rfl crc bytesDone more blockNo⟩)
  · exact inl ⟨.finished rfl, rfl⟩
  · exact inl ⟨.finished rfl, rfl⟩
  · exact inl ⟨.packet phase rfl crc bytesDone more blockNo, rfl⟩

theorem eot_writes {k left : Nat} (phase : s.phase = .eot left)
    (whole : source.length ≤ k * xmodemBlockSize) (arrival : Arrival UInt8) :
    WritesFrame (xmodemFrame source) (XmodemSending source) (k + 1) (s.step arrival) := by
  simp only [XmodemSender.step, phase]
  split
  · exact inl ⟨.finished rfl, rfl⟩
  · exact inr (inl ⟨Nat.succ_pos k, .eot rfl whole, (xmodemFrame_eot whole).symm⟩)
  · split_ifs <;> exact inl ⟨.finished rfl, rfl⟩
  · exact inl ⟨.finished rfl, rfl⟩
  · exact inl ⟨.eot phase whole, rfl⟩

theorem sendNext_started (s : XmodemSender) : s.sendNext.1.Started := by
  unfold XmodemSender.sendNext
  split_ifs <;> exact nofun

theorem step_started (s : XmodemSender) (arrival : Arrival UInt8) (started : s.Started) :
    (s.step arrival).1.Started := by
  unfold XmodemSender.step
  split
  next phase => exact absurd phase started
  next phase =>
    split
    · exact sendNext_started _
    · exact nofun
    · exact nofun
    · exact nofun
    · exact started
  next phase =>
    split
    · exact nofun
    · exact nofun
    · split_ifs <;> exact nofun
    · exact nofun
    · exact started
  next => exact started

theorem xmodem_stuttering (source : List UInt8) :
    Stuttering xmodemSendFile (xmodemFrame source) XmodemSender.Started (· = modemCrcRequest)
      (XmodemSending source) where
  step := by
    intro e s arrival sending asked
    change WritesFrame _ _ _ (s.step arrival)
    cases sending with
    | waiting phase same bytesDone blockNo =>
      cases arrival with
      | symbol byte =>
        obtain rfl : byte = modemCrcRequest := asked (· phase) _ rfl
        simp only [XmodemSender.step, phase]
        exact sendNext_writes same rfl (by simp [bytesDone]) blockNo
      | timeout =>
        simp only [XmodemSender.step, phase]
        exact inl ⟨.finished rfl, rfl⟩
      | interrupt reason =>
        simp only [XmodemSender.step, phase]
        exact inl ⟨.finished rfl, rfl⟩
    | packet phase same crc bytesDone more blockNo =>
      exact packet_writes phase same crc bytesDone more blockNo arrival
    | eot phase whole => exact eot_writes phase whole arrival
    | finished phase =>
      simp only [XmodemSender.step, phase]
      exact inl ⟨.finished phase, rfl⟩
  stays _ started := step_started _ _ started
  idle {e s} sending idle := by
    have phase : s.phase = .waitForReceiver := not_not.mp idle
    cases sending <;> simp_all

/-- A receiver that took the first `d` blocks of the source. -/
structure XmodemProgress (source : List UInt8) (d : Nat) (r : XmodemReceiver) : Prop where
  expected : r.expected = ofNat (d + 1)
  output : r.output.Trimmed (paddedPrefix source xmodemBlockSize d)
  begun : ∀ k, d = k + 1 → k * xmodemBlockSize < source.length

/-- The receiver that took `d` frames and part of another. -/
inductive XmodemReading (source : List UInt8) : Nat → List UInt8 → XmodemReceiver → Prop
  | first {r : XmodemReceiver} {left : Nat} (phase : r.phase = .firstMarker left)
      (progress : XmodemProgress source 0 r) : XmodemReading source 0 [] r
  | marker {r : XmodemReceiver} {d : Nat} (phase : r.phase = .marker)
      (progress : XmodemProgress source d r) : XmodemReading source d [] r
  | packet {r : XmodemReceiver} {d : Nat} {bytes : List UInt8}
      (phase : r.phase = .packet modemSoh bytes) (progress : XmodemProgress source d r) :
      XmodemReading source d (modemSoh :: bytes) r

/-- The receiver ended, and if it reports success its file is the stripped source. -/
def XmodemStopped (source : List UInt8) (r : XmodemReceiver) : Prop :=
  ∃ result, r.phase = .finished result ∧
    ∀ bytesWritten, result = .ok bytesWritten →
      r.output.file = source.rdropWhile (· = modemEof) ∧ bytesWritten = r.output.file.length

theorem XmodemProgress.start (source : List UInt8) : XmodemProgress source 0 .start where
  expected := rfl
  output := by
    have empty : paddedPrefix source xmodemBlockSize 0 = [] := by simp [paddedPrefix]
    rw [empty]
    exact trimmed_create
  begun k same := absurd same (Nat.succ_ne_zero k).symm

theorem xmodem_failed (source : List UInt8) (r : XmodemReceiver) (error : String) :
    XmodemStopped source (r.fail error) :=
  ⟨.error error, rfl, fun _ same => nomatch same⟩

variable {r : XmodemReceiver}

theorem xmodem_takes_marker {d i : Nat} {a : UInt8} {rest : List UInt8}
    (progress : XmodemProgress source d r) (position : i = d ∧ 1 ≤ d ∨ i = d + 1)
    (whole : xmodemFrame source i = a :: rest) :
    TakesSymbol (XmodemReading source) (XmodemStopped source) d i [a] rest (r.onMarker a).1 := by
  unfold xmodemFrame at whole
  split_ifs at whole with block
  · rw [modemSendPacket_crc] at whole
    obtain ⟨rfl, body⟩ := List.cons.inj whole
    have opened : r.onMarker modemSoh = ({ r with phase := .packet modemSoh [] }, []) := rfl
    rw [opened]
    exact inr (inr ⟨body ▸ modemPacketBody_ne_nil _ _ _,
      .packet rfl ⟨progress.expected, progress.output, progress.begun⟩⟩)
  · obtain ⟨rfl, -⟩ := List.cons.inj whole
    have ended : source.length ≤ d * xmodemBlockSize := by
      rcases position with ⟨rfl, positive⟩ | rfl
      · have begun := progress.begun (i - 1) (by omega)
        omega
      · rw [Nat.add_sub_cancel] at block
        omega
    refine inl ⟨_, rfl, fun bytesWritten same => ?_⟩
    cases same
    exact ⟨progress.output.file.trans (paddedPrefix_rdropWhile ended),
      progress.output.bytesWritten⟩

theorem accept_progress {d : Nat} {r next : XmodemReceiver} (progress : XmodemProgress source d r)
    (more : d * xmodemBlockSize < source.length) {blockNo : UInt8}
    (h : r.accept ⟨blockNo, modemPacketData (modemNextRead source (d * xmodemBlockSize) xmodemBlockSize) xmodemBlockSize⟩ = .ok next) :
    next.phase = .marker ∧ XmodemProgress source (d + 1) next := by
  obtain ⟨output, appended, h⟩ := except_bind_eq_ok h
  obtain ⟨bytesReceived, -, h⟩ := except_bind_eq_ok h
  cases h
  have trimmed := append_trimmed progress.output appended
  rw [paddedPrefix_succ more] at trimmed
  refine ⟨rfl, ?_, trimmed, fun k same => ?_⟩
  · simp only [progress.expected]
    rw [ofNat_add (d + 1) 1]
    rfl
  · obtain rfl : d = k := by omega
    exact more

theorem xmodem_takes_packet {d i : Nat} (progress : XmodemProgress source d r)
    (position : i = d ∧ 1 ≤ d ∨ i = d + 1) (block : (i - 1) * xmodemBlockSize < source.length) :
    XmodemStopped source (r.onPacket ⟨ofNat i, modemPacketData
      (modemNextRead source ((i - 1) * xmodemBlockSize) xmodemBlockSize) xmodemBlockSize⟩).1 ∨
    XmodemReading source i [] (r.onPacket ⟨ofNat i, modemPacketData
      (modemNextRead source ((i - 1) * xmodemBlockSize) xmodemBlockSize) xmodemBlockSize⟩).1 := by
  unfold XmodemReceiver.onPacket
  rcases position with ⟨rfl, positive⟩ | rfl
  · rw [if_neg (by rw [progress.expected]; exact ofNat_succ_ne i)]
    split_ifs
    · exact inr (.marker rfl ⟨progress.expected, progress.output, progress.begun⟩)
    · exact inl (xmodem_failed source r _)
  · rw [if_pos progress.expected.symm, Nat.add_sub_cancel]
    rw [Nat.add_sub_cancel] at block
    split
    next next accepted =>
      obtain ⟨phase, further⟩ := accept_progress progress block accepted
      exact inr (.marker phase further)
    next => exact inl (xmodem_failed source r _)

theorem xmodem_takes_byte {d i : Nat} {a : UInt8} {bytes rest : List UInt8}
    (phase : r.phase = .packet modemSoh bytes) (progress : XmodemProgress source d r)
    (position : i = d ∧ 1 ≤ d ∨ i = d + 1)
    (whole : xmodemFrame source i = modemSoh :: bytes ++ a :: rest) :
    TakesSymbol (XmodemReading source) (XmodemStopped source) d i (modemSoh :: bytes ++ [a]) rest
      (r.step (.symbol a)).1 := by
  unfold xmodemFrame at whole
  split_ifs at whole with block
  · rw [modemSendPacket_crc] at whole
    have body := (List.cons.inj whole).2
    change _ = bytes ++ a :: rest at body
    rw [append_cons] at body
    by_cases last : rest = []
    · rw [last, append_nil] at body
      have read := modemReadPacket_whole modemSoh (ofNat i)
        (modemNextRead source ((i - 1) * xmodemBlockSize) xmodemBlockSize)
      rw [body] at read
      simp only [XmodemReceiver.step, phase, read]
      exact (xmodem_takes_packet progress position block).imp_right fun reading =>
        inl ⟨last, reading⟩
    · simp only [XmodemReceiver.step, phase, modemReadPacket_part body last]
      exact inr (inr ⟨last, .packet rfl
        ⟨progress.expected, progress.output, progress.begun⟩⟩)
  · simp at whole

theorem xmodem_waits {d : Nat} {part : List UInt8} {arrival : Arrival UInt8}
    (reading : XmodemReading source d part r) (alone : arrival.Alone) :
    XmodemStopped source (r.step arrival).1 ∨ XmodemReading source d part (r.step arrival).1 := by
  cases arrival with
  | symbol a => exact alone.elim
  | interrupt reason =>
    refine inl ?_
    cases reading with
    | first phase => simpa only [XmodemReceiver.step, phase] using xmodem_failed source r reason
    | marker phase => simpa only [XmodemReceiver.step, phase] using xmodem_failed source r reason
    | packet phase => simpa only [XmodemReceiver.step, phase] using xmodem_failed source r reason
  | timeout =>
    cases reading with
    | @first _ left phase progress =>
      cases left with
      | zero =>
        simp only [XmodemReceiver.step, phase]
        exact inl (xmodem_failed source r _)
      | succ left =>
        simp only [XmodemReceiver.step, phase]
        exact inr (.first rfl ⟨progress.expected, progress.output, progress.begun⟩)
    | marker phase =>
      simp only [XmodemReceiver.step, phase]
      exact inl (xmodem_failed source r _)
    | packet phase =>
      simp only [XmodemReceiver.step, phase]
      exact inl (xmodem_failed source r _)

theorem xmodem_assembling (source : List UInt8) :
    Assembling (xmodemReceiveFile.emitting ReceiverSignal.bytes) (xmodemFrame source)
      (· = modemCrcRequest) (XmodemReading source) (XmodemStopped source) where
  symbol := by
    intro d i part a rest r reading position whole
    change TakesSymbol _ _ _ _ _ _ (r.step (.symbol a)).1
    cases reading with
    | first phase progress =>
      have listening : r.step (.symbol a) = r.onMarker a := by simp [XmodemReceiver.step, phase]
      rw [listening]
      exact xmodem_takes_marker progress position whole
    | marker phase progress =>
      have listening : r.step (.symbol a) = r.onMarker a := by simp [XmodemReceiver.step, phase]
      rw [listening]
      exact xmodem_takes_marker progress position whole
    | packet phase progress => exact xmodem_takes_byte phase progress position whole
  alone := xmodem_waits
  asks := by
    intro arrival r reading alone b mem
    simp only [Transducer.emitting_step, xmodemReceiveFile] at mem
    cases arrival with
    | symbol a => exact alone.elim
    | interrupt reason =>
      cases reading with
      | first phase => simp [XmodemReceiver.step, phase] at mem
      | marker phase => simp [XmodemReceiver.step, phase] at mem
    | timeout =>
      cases reading with
      | @first _ left phase =>
        cases left with
        | zero => simp [XmodemReceiver.step, phase] at mem
        | succ left => simpa [XmodemReceiver.step, phase, ReceiverSignal.bytes] using mem
      | marker phase => simp [XmodemReceiver.step, phase] at mem
  stopped := by
    rintro arrival r ⟨result, phase, sound⟩
    have still : r.step arrival = (r, []) := by simp [XmodemReceiver.step, phase]
    simp only [Transducer.emitting_step, xmodemReceiveFile, still]
    exact ⟨⟨result, phase, sound⟩, rfl⟩

end PortMate
