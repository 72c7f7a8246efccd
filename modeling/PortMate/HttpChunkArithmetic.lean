import PortMate.HttpChunkTurns

namespace PortMate

open List ChunkReader

section Outcomes

/-- What the reader makes of the stream from here on. -/
def ChunkLoop.outcome (maxBodyBytes : Nat) (loop : ChunkLoop) : Except String (List UInt8) :=
  match loop.phase with
  | .size => readHttpChunks true maxBodyBytes loop.body loop.reader
  | .trailer trailerCount =>
    match readHttpChunkTrailers true trailerCount loop.reader with
    | .error error => .error error
    | .ok reader =>
      if reader.position ≠ reader.encoded.length then
        .error "HTTP request contains bytes after its chunked body"
      else .ok loop.body
  | .data size =>
    match ensureHttpChunkBytes (size + 2) loop.reader with
    | .error error => .error error
    | .ok filled =>
      if (filled.pending.drop size).take 2 ≠ crlf then
        .error "HTTP chunk data is not terminated by CRLF"
      else if maxHttpChunkFramingBytes < filled.framingBytes + 2 then
        .error "HTTP chunk framing exceeds the 64 KiB limit"
      else
        readHttpChunks true maxBodyBytes (loop.body ++ filled.pending.take size)
          (filled.pastChunk size)

/-- What is read of a chunk once its line is there. -/
def sizeOutcome (maxBodyBytes : Nat) (body line : List UInt8) (reader : ChunkReader) :
    Except String (List UInt8) :=
  match httpChunkSize line with
  | .error error => .error error
  | .ok size =>
    if maxBodyBytes - body.length < size then .error "HTTP body is too large"
    else if size = 0 then ChunkLoop.outcome maxBodyBytes ⟨reader, body, .trailer 0⟩
    else ChunkLoop.outcome maxBodyBytes ⟨reader, body, .data size⟩

theorem readHttpChunks_eq (maxBodyBytes : Nat) (body : List UInt8) (reader : ChunkReader) :
    readHttpChunks true maxBodyBytes body reader =
      match readHttpChunkLine true reader with
      | .error error => .error error
      | .ok (line, after) => sizeOutcome maxBodyBytes body line after := by
  rw [readHttpChunks]
  split
  next error failed => rw [failed]
  next line after read =>
    rw [read]
    show _ = sizeOutcome maxBodyBytes body line after
    unfold sizeOutcome
    cases sized : httpChunkSize line with
    | error error => rfl
    | ok size =>
      dsimp only
      split
      · rfl
      · split
        · rfl
        · rw [ChunkLoop.outcome]
          dsimp only
          split
          next error failed => rw [failed]
          next filled readData =>
            rw [readData]
            dsimp only
            split
            · rfl
            · split
              · rfl
              · rfl

variable {maxBodyBytes initial : Nat} {loop : ChunkLoop}

inductive ChunkStep (maxBodyBytes initial : Nat) (loop : ChunkLoop) :
    Except ArithmeticFault ChunkTurn → Prop
  | late (line : loop.LateLine)
      (outcome : loop.outcome maxBodyBytes = .error "attempt to subtract with overflow") :
      ChunkStep maxBodyBytes initial loop (.error .subtraction)
  | failed (message : String) (outcome : loop.outcome maxBodyBytes = .error message) :
      ChunkStep maxBodyBytes initial loop (.ok (.failed message))
  | finished (body : List UInt8) (outcome : loop.outcome maxBodyBytes = .ok body) :
      ChunkStep maxBodyBytes initial loop (.ok (.finished body))
  | goesOn (next : ChunkLoop) (sound : next.Sound maxBodyBytes initial)
      (grows : loop.reader.encoded.length + loop.reader.framingBytes <
        next.reader.encoded.length + next.reader.framingBytes)
      (total : next.reader.total = loop.reader.total)
      (outcome : loop.outcome maxBodyBytes = next.outcome maxBodyBytes) :
      ChunkStep maxBodyBytes initial loop (.ok (.goesOn next))

theorem advance_sound (sound : loop.Sound maxBodyBytes initial) {lineEnd : Nat}
    (found : findPattern crlf loop.reader.pending = some lineEnd)
    (limit : loop.reader.framingBytes + (lineEnd + 2) ≤ maxHttpChunkFramingBytes)
    {phase : ChunkPhase} (due : loop.body.length + phase.due ≤ maxBodyBytes)
    (trailers : ∀ trailerCount, phase = .trailer trailerCount → trailerCount ≤ maxHttpHeaders) :
    (ChunkLoop.mk (loop.reader.advance (lineEnd + 2)) loop.body phase).Sound maxBodyBytes initial := by
  have fits : lineEnd + 2 ≤ loop.reader.pending.length := findPattern_length found
  rw [pending_length] at fits
  have within := sound.within
  have counted := sound.counted
  have grown := sound.grown
  unfold ChunkReader.Within at within
  refine ⟨?_, ?_, limit, due, ?_, trailers⟩
  · show loop.reader.position + (lineEnd + 2) ≤ loop.reader.encoded.length
    omega
  · show loop.reader.position + (lineEnd + 2) =
      loop.body.length + (loop.reader.framingBytes + (lineEnd + 2))
    omega
  · exact grown.imp_right fun grown =>
      Nat.le_trans grown (Nat.add_le_add_right (Nat.le_add_right _ _) _)

theorem extend_sound (sound : loop.Sound maxBodyBytes initial) {room : Nat} {bytes : List UInt8}
    {segments : List (List UInt8)} (read : readSome room loop.reader.segments = some (bytes, segments))
    (within : loop.reader.pending.length + room ≤ maxBodyBytes + maxHttpChunkFramingBytes + 2) :
    ({ loop with reader := loop.reader.extend bytes segments } : ChunkLoop).Sound
      maxBodyBytes initial := by
  have bounded := (readSome_found read).2
  have inside := sound.within
  refine ⟨(follows_extend sound.within read).within, sound.counted, sound.framed,
    sound.due, .inr ?_, sound.trailers⟩
  show (loop.reader.encoded ++ bytes).length ≤ loop.reader.position + _
  unfold ChunkReader.Within at inside
  rw [pending_length] at within
  rw [length_append]
  omega

theorem extend_grows {room : Nat} {bytes : List UInt8} {segments : List (List UInt8)}
    (read : readSome room loop.reader.segments = some (bytes, segments)) :
    loop.reader.encoded.length + loop.reader.framingBytes <
      (loop.reader.extend bytes segments).encoded.length +
        (loop.reader.extend bytes segments).framingBytes := by
  have some := length_pos_iff.mpr (readSome_found read).1
  show _ < (loop.reader.encoded ++ bytes).length + loop.reader.framingBytes
  rw [length_append]
  omega

theorem advance_grows (lineEnd : Nat) :
    loop.reader.encoded.length + loop.reader.framingBytes <
      (loop.reader.advance (lineEnd + 2)).encoded.length +
        (loop.reader.advance (lineEnd + 2)).framingBytes := by
  show _ < loop.reader.encoded.length + (loop.reader.framingBytes + (lineEnd + 2))
  omega

theorem lineTurn_step (sound : loop.Sound maxBodyBytes initial)
    (small : loop.reader.encoded.length < 2 ^ 63) (line : ∀ size, loop.phase ≠ .data size)
    {next : List UInt8 → ChunkReader → Except ArithmeticFault ChunkTurn}
    (failing : ∀ message, readHttpChunkLine true loop.reader = .error message →
      loop.outcome maxBodyBytes = .error message)
    (same : ∀ reader, readHttpChunkLine true loop.reader = readHttpChunkLine true reader →
      loop.outcome maxBodyBytes = ({ loop with reader } : ChunkLoop).outcome maxBodyBytes)
    (found : ∀ lineEnd, findPattern crlf loop.reader.pending = some lineEnd →
      loop.reader.framingBytes + (lineEnd + 2) ≤ maxHttpChunkFramingBytes →
      ChunkStep maxBodyBytes initial loop
        (next (loop.reader.pending.take lineEnd) (loop.reader.advance (lineEnd + 2)))) :
    ChunkStep maxBodyBytes initial loop (chunkLineTurn loop next) := by
  have turn := chunkLineTurn_cases sound small next
  generalize chunkLineTurn loop next = result at turn
  cases turn with
  | refused message refused => exact .failed message (failing message refused)
  | line here limit => exact found _ here limit
  | more open' near short read again =>
    refine .goesOn _ (extend_sound sound read ?_) (extend_grows read)
      (follows_extend sound.within read).total (same _ again)
    omega
  | late open' short late refused => exact .late ⟨line, open', short, late⟩ (failing _ refused)

theorem sizeTurn_step (sound : loop.Sound maxBodyBytes initial)
    (small : loop.reader.encoded.length < 2 ^ 63) (phase : loop.phase = .size) :
    ChunkStep maxBodyBytes initial loop (sizeTurn maxBodyBytes loop) := by
  have outcome : loop.outcome maxBodyBytes =
      match readHttpChunkLine true loop.reader with
      | .error error => .error error
      | .ok (line, after) => sizeOutcome maxBodyBytes loop.body line after := by
    rw [ChunkLoop.outcome, phase]
    exact readHttpChunks_eq maxBodyBytes loop.body loop.reader
  refine lineTurn_step sound small (by simp [phase]) ?_ ?_ ?_
  · intro message refused
    rw [outcome, refused]
  · intro reader again
    rw [outcome, again, ChunkLoop.outcome, phase]
    exact (readHttpChunks_eq maxBodyBytes loop.body reader).symm
  · intro lineEnd found limit
    have taken : (loop.reader.pending.take lineEnd).length < 2 ^ 63 := by
      rw [length_take, pending_length]
      omega
    rw [readHttpChunkLine_pending found limit] at outcome
    have due : loop.body.length ≤ maxBodyBytes := Nat.le_trans (Nat.le_add_right _ _) sound.due
    have stays := fun phase (inside : loop.body.length + ChunkPhase.due phase ≤ maxBodyBytes)
        (first : ∀ count, phase = .trailer count → count ≤ maxHttpHeaders) =>
      @ChunkStep.goesOn maxBodyBytes initial loop _
        (advance_sound sound found limit inside first) (advance_grows lineEnd) rfl
    simp only [sizeOutcome] at outcome
    rw [checkedChunkSize_eq taken, except_bind_ok]
    cases sized : httpChunkSize (loop.reader.pending.take lineEnd) with
    | error message =>
      rw [sized] at outcome
      exact .failed message outcome
    | ok size =>
      rw [sized] at outcome
      dsimp only at outcome ⊢
      split at outcome
      next large =>
        rw [if_pos large]
        exact .failed _ outcome
      next fits =>
        rw [if_neg fits]
        split at outcome
        next zero =>
          rw [if_pos zero]
          refine stays (.trailer 0) due ?_ outcome
          intro count same
          cases same
          exact Nat.zero_le _
        next some =>
          rw [if_neg some]
          refine stays (.data size) ?_ (fun count other => ChunkPhase.noConfusion other) outcome
          show loop.body.length + size ≤ maxBodyBytes
          omega

theorem readHttpChunkTrailers_eq (trailerCount : Nat) (reader : ChunkReader) :
    readHttpChunkTrailers true trailerCount reader =
      match readHttpChunkLine true reader with
      | .error error => .error error
      | .ok (line, after) =>
        if line.isEmpty then .ok after
        else if maxHttpHeaders < trailerCount + 1 then
          .error "HTTP chunk trailers exceed the 128-field limit"
        else if !isHttpTrailer line then .error "invalid HTTP chunk trailer"
        else readHttpChunkTrailers true (trailerCount + 1) after := by
  refine (readHttpChunkTrailers.eq_def true trailerCount reader).trans ?_
  cases readHttpChunkLine true reader <;> rfl

theorem trailerTurn_step (sound : loop.Sound maxBodyBytes initial)
    (small : loop.reader.encoded.length < 2 ^ 63) {trailerCount : Nat}
    (phase : loop.phase = .trailer trailerCount) :
    ChunkStep maxBodyBytes initial loop (trailerTurn trailerCount loop) := by
  have outcome := readHttpChunkTrailers_eq trailerCount loop.reader
  refine lineTurn_step sound small (by simp [phase]) ?_ ?_ ?_
  · intro message refused
    rw [refused] at outcome
    rw [ChunkLoop.outcome, phase]
    dsimp only
    rw [outcome]
  · intro reader again
    rw [again, ← readHttpChunkTrailers_eq] at outcome
    rw [ChunkLoop.outcome, ChunkLoop.outcome, phase]
    dsimp only
    rw [outcome]
  · intro lineEnd found limit
    have taken : (loop.reader.pending.take lineEnd).length < 2 ^ 63 := by
      rw [length_take, pending_length]
      omega
    have counted := sound.trailers trailerCount phase
    have due : loop.body.length ≤ maxBodyBytes := Nat.le_trans (Nat.le_add_right _ _) sound.due
    have headers : maxHttpHeaders = 128 := rfl
    rw [readHttpChunkLine_pending found limit] at outcome
    dsimp only at outcome
    split
    next empty =>
      rw [if_pos empty] at outcome
      split
      next unread =>
        refine .failed _ ?_
        rw [ChunkLoop.outcome, phase]
        dsimp only
        rw [outcome]
        exact if_pos unread
      next read =>
        refine .finished _ ?_
        rw [ChunkLoop.outcome, phase]
        dsimp only
        rw [outcome]
        exact if_neg read
    next some =>
      rw [if_neg some] at outcome
      rw [checkedPlus_ok (by omega), except_bind_ok]
      split
      next many =>
        rw [if_pos many] at outcome
        refine .failed _ ?_
        rw [ChunkLoop.outcome, phase]
        dsimp only
        rw [outcome]
      next fits =>
        rw [if_neg fits] at outcome
        rw [checkedTrailer_eq taken, except_bind_ok]
        split
        next invalid =>
          rw [if_pos invalid] at outcome
          refine .failed _ ?_
          rw [ChunkLoop.outcome, phase]
          dsimp only
          rw [outcome]
        next valid =>
          rw [if_neg valid] at outcome
          refine .goesOn _ (advance_sound sound found limit due ?_) (advance_grows lineEnd) rfl ?_
          · intro count same
            cases same
            omega
          · rw [ChunkLoop.outcome, ChunkLoop.outcome, phase]
            dsimp only
            rw [outcome]

theorem dataTurn_missing (admitted : maxBodyBytes ≤ maxHttpBodyBytes) {size : Nat}
    (due : size ≤ maxBodyBytes) (missing : loop.reader.pending.length < size + 2) :
    dataTurn size loop = .ok (readMore loop (size + 2 - loop.reader.pending.length)
      "connection closed before HTTP chunk data") := by
  have body : maxHttpBodyBytes = 6 * 1024 * 1024 := rfl
  rw [pending_length] at missing ⊢
  rw [dataTurn, checkedPlus_ok (by omega)]
  simp only [except_bind_ok]
  rw [if_pos missing, checkedMinus_ok (by omega), except_bind_ok]

theorem dataTurn_there (sound : loop.Sound maxBodyBytes initial)
    (small : loop.reader.encoded.length < 2 ^ 63) {size : Nat}
    (there : size + 2 ≤ loop.reader.pending.length) :
    dataTurn size loop =
      if (loop.reader.pending.drop size).take 2 ≠ crlf then
        .ok (.failed "HTTP chunk data is not terminated by CRLF")
      else if maxHttpChunkFramingBytes < loop.reader.framingBytes + 2 then
        .ok (.failed "HTTP chunk framing exceeds the 64 KiB limit")
      else .ok (.goesOn ⟨loop.reader.pastChunk size, loop.body ++ loop.reader.pending.take size,
        .size⟩) := by
  have within := sound.within
  have framed := sound.framed
  have framing : maxHttpChunkFramingBytes = 64 * 1024 := rfl
  unfold ChunkReader.Within at within
  rw [pending_length] at there
  have ends : (loop.reader.encoded.take (loop.reader.position + size + 2)).drop
      (loop.reader.position + size) = (loop.reader.pending.drop size).take 2 := by
    rw [ChunkReader.pending, drop_drop, drop_take, Nat.add_sub_cancel_left]
  have data : (loop.reader.encoded.take (loop.reader.position + size)).drop
      loop.reader.position = loop.reader.pending.take size := by
    rw [ChunkReader.pending, drop_take, Nat.add_sub_cancel_left]
  have closed : (Except.ok ((loop.reader.pending.drop size).take 2) :
      Except ArithmeticFault (List UInt8)).toOption ≠ some crlf ↔
        (loop.reader.pending.drop size).take 2 ≠ crlf :=
    not_congr Option.some_inj
  rw [dataTurn, checkedPlus_ok (by omega)]
  simp only [except_bind_ok]
  rw [if_neg (by omega), checkedPlus_ok (by omega), except_bind_ok, checkedPlus_ok (by omega),
    except_bind_ok, checkedSlice_ok (by omega) (by omega), ends,
    checkedSlice_ok (by omega) (by omega), data]
  simp only [closed, except_bind_ok]
  rw [checkedPlus_ok (by omega)]
  rfl

theorem ensureHttpChunkBytes_ended {required : Nat} {reader : ChunkReader}
    (missing : reader.pending.length < required)
    (ended : readSome (min (required - reader.pending.length) httpBufferBytes) reader.segments =
      none) :
    ensureHttpChunkBytes required reader = .error "connection closed before HTTP chunk data" := by
  rw [pending_length] at missing ended
  rw [ensureHttpChunkBytes, if_neg (Nat.not_le_of_lt missing)]
  dsimp only
  split
  next => rfl
  next read => cases ended.symm.trans read

theorem ensureHttpChunkBytes_more {required : Nat} {reader : ChunkReader} {bytes : List UInt8}
    {segments : List (List UInt8)} (missing : reader.pending.length < required)
    (read : readSome (min (required - reader.pending.length) httpBufferBytes) reader.segments =
      some (bytes, segments)) :
    ensureHttpChunkBytes required reader =
      ensureHttpChunkBytes required (reader.extend bytes segments) := by
  rw [pending_length] at missing read
  conv => lhs; rw [ensureHttpChunkBytes, if_neg (Nat.not_le_of_lt missing)]
  dsimp only
  split
  next ended => cases ended.symm.trans read
  next again =>
    obtain ⟨rfl, rfl⟩ := Prod.mk.inj (Option.some.inj (again.symm.trans read))
    rfl

theorem dataTurn_step (sound : loop.Sound maxBodyBytes initial)
    (admitted : maxBodyBytes ≤ maxHttpBodyBytes)
    (small : loop.reader.encoded.length < 2 ^ 63) {size : Nat} (phase : loop.phase = .data size) :
    ChunkStep maxBodyBytes initial loop (dataTurn size loop) := by
  have due : loop.body.length + size ≤ maxBodyBytes := by
    have due := sound.due
    rw [phase] at due
    exact due
  by_cases missing : loop.reader.pending.length < size + 2
  · rw [dataTurn_missing admitted (by omega) missing, readMore]
    split
    next ended =>
      refine .failed _ ?_
      rw [ChunkLoop.outcome, phase]
      dsimp only
      rw [ensureHttpChunkBytes_ended missing ended]
    next bytes segments read =>
      refine .goesOn _ (extend_sound sound read (by omega)) (extend_grows read)
        (follows_extend sound.within read).total ?_
      rw [ChunkLoop.outcome, ChunkLoop.outcome, phase]
      dsimp only
      rw [ensureHttpChunkBytes_more missing read]
  · have there := Nat.le_of_not_lt missing
    have within := sound.within
    have counted := sound.counted
    have grown := sound.grown
    have taken : (loop.reader.pending.take size).length = size := by
      rw [length_take]
      omega
    have outcome : loop.outcome maxBodyBytes =
        if (loop.reader.pending.drop size).take 2 ≠ crlf then
          .error "HTTP chunk data is not terminated by CRLF"
        else if maxHttpChunkFramingBytes < loop.reader.framingBytes + 2 then
          .error "HTTP chunk framing exceeds the 64 KiB limit"
        else
          readHttpChunks true maxBodyBytes (loop.body ++ loop.reader.pending.take size)
            (loop.reader.pastChunk size) := by
      have filled : ensureHttpChunkBytes (size + 2) loop.reader = .ok loop.reader := by
        rw [ensureHttpChunkBytes, if_pos (by rwa [← pending_length])]
      rw [ChunkLoop.outcome, phase]
      dsimp only
      rw [filled]
    rw [dataTurn_there sound small there]
    split
    next unterminated =>
      rw [if_pos unterminated] at outcome
      exact .failed _ outcome
    next terminated =>
      rw [if_neg terminated] at outcome
      split
      next long =>
        rw [if_pos long] at outcome
        exact .failed _ outcome
      next fits =>
        rw [if_neg fits] at outcome
        refine .goesOn _ ⟨(follows_pastChunk within there).within, ?_, Nat.le_of_not_lt fits, ?_, ?_,
          fun _ other => ChunkPhase.noConfusion other⟩ ?_ rfl outcome
        · show loop.reader.position + size + 2 =
            (loop.body ++ loop.reader.pending.take size).length + (loop.reader.framingBytes + 2)
          rw [length_append, taken]
          omega
        · show (loop.body ++ loop.reader.pending.take size).length + 0 ≤ maxBodyBytes
          rw [length_append, taken]
          omega
        · show loop.reader.encoded.length ≤ _ ∨ loop.reader.encoded.length ≤
            loop.reader.position + size + 2 + (maxBodyBytes + maxHttpChunkFramingBytes + 2)
          omega
        · show _ < loop.reader.encoded.length + (loop.reader.framingBytes + 2)
          omega

theorem chunkTurn_step (sound : loop.Sound maxBodyBytes initial)
    (admitted : maxBodyBytes ≤ maxHttpBodyBytes) (slice : initial < 2 ^ 63) :
    ChunkStep maxBodyBytes initial loop (chunkTurn maxBodyBytes loop) := by
  have small := sound.small admitted slice
  rw [chunkTurn]
  split
  next phase => exact sizeTurn_step sound small phase
  next trailerCount phase => exact trailerTurn_step sound small phase
  next size phase => exact dataTurn_step sound admitted small phase

theorem chunkTurn_faults_iff (sound : loop.Sound maxBodyBytes initial)
    (admitted : maxBodyBytes ≤ maxHttpBodyBytes) (slice : initial < 2 ^ 63) :
    (∃ fault, chunkTurn maxBodyBytes loop = .error fault) ↔ loop.LateLine := by
  have step := chunkTurn_step sound admitted slice
  constructor
  · rintro ⟨fault, faults⟩
    rw [faults] at step
    cases step with
    | late line outcome => exact line
  · intro late
    have small := sound.small admitted slice
    refine ⟨.subtraction, ?_⟩
    rw [chunkTurn]
    split
    next => exact chunkLineTurn_late sound small late _
    next => exact chunkLineTurn_late sound small late _
    next size phase => exact absurd phase (late.line size)

end Outcomes

section Runs

variable {maxBodyBytes : Nat} {initialBody : List UInt8} {segments : List (List UInt8)}
  {turns : Nat} {loop : ChunkLoop}

section Bounds

variable (admitted : maxBodyBytes ≤ maxHttpBodyBytes) (slice : initialBody.length < 2 ^ 63)
  (run : TurnsTo maxBodyBytes (chunkedBodyStart initialBody segments) turns loop)

include admitted slice run

theorem TurnsTo.sound :
    loop.Sound maxBodyBytes initialBody.length ∧
      initialBody.length + turns ≤ loop.reader.encoded.length + loop.reader.framingBytes := by
  induction run with
  | start => exact ⟨chunkedBodyStart_sound initialBody segments, Nat.le_refl _⟩
  | turn before goes ih =>
    have step := chunkTurn_step ih.1 admitted slice
    rw [goes] at step
    cases step with
    | goesOn next sound grows total outcome =>
      refine ⟨sound, ?_⟩
      have counted := ih.2
      omega

theorem TurnsTo.total : loop.reader.total = initialBody.length + segments.flatten.length := by
  induction run with
  | start => rfl
  | turn before goes ih =>
    have step := chunkTurn_step (before.sound admitted slice).1 admitted slice
    rw [goes] at step
    cases step with
    | goesOn next sound grows total outcome => rw [total, ih]

theorem TurnsTo.bounded : turns ≤ 2 * maxBodyBytes + 3 * maxHttpChunkFramingBytes + 2 := by
  obtain ⟨sound, counted⟩ := run.sound admitted slice
  have grown := sound.grown
  have framed := sound.framed
  have due := sound.due
  have behind := sound.counted
  omega

theorem TurnsTo.not_late
    (few : initialBody.length + segments.flatten.length ≤ maxHttpChunkFramingBytes + 1) :
    ¬ loop.LateLine := by
  intro late
  have total := run.total admitted slice
  have beyond := late.late
  unfold ChunkReader.total at total
  omega

end Bounds

/-- The arithmetic of a run is safe exactly where no line has to be read on late; that is so where the
whole stream is within the limit of the framing. -/
theorem chunked_body_safe_iff (admitted : maxBodyBytes ≤ maxHttpBodyBytes)
    (slice : initialBody.length < 2 ^ 63) :
    ((∀ turns loop, TurnsTo maxBodyBytes (chunkedBodyStart initialBody segments) turns loop →
        ∀ fault, chunkTurn maxBodyBytes loop ≠ .error fault) ↔
      ∀ turns loop, TurnsTo maxBodyBytes (chunkedBodyStart initialBody segments) turns loop →
        ¬ loop.LateLine) ∧
    (∀ turns loop, TurnsTo maxBodyBytes (chunkedBodyStart initialBody segments) turns loop →
      turns ≤ 2 * maxBodyBytes + 3 * maxHttpChunkFramingBytes + 2) ∧
    (initialBody.length + segments.flatten.length ≤ maxHttpChunkFramingBytes + 1 →
      ∀ turns loop, TurnsTo maxBodyBytes (chunkedBodyStart initialBody segments) turns loop →
        ∀ fault, chunkTurn maxBodyBytes loop ≠ .error fault) := by
  have faults : ∀ turns loop,
      TurnsTo maxBodyBytes (chunkedBodyStart initialBody segments) turns loop →
        ((∀ fault, chunkTurn maxBodyBytes loop ≠ .error fault) ↔ ¬ loop.LateLine) := by
    intro turns loop run
    rw [← chunkTurn_faults_iff (run.sound admitted slice).1 admitted slice, not_exists]
  refine ⟨?_, fun turns loop run => run.bounded admitted slice, fun few turns loop run => ?_⟩
  · exact forall_congr' fun turns => forall_congr' fun loop => forall_congr' (faults turns loop)
  · exact (faults turns loop run).mpr (run.not_late admitted slice few)

theorem small_body_safe :
    (∀ turns loop, TurnsTo 1024 (chunkedBodyStart [] [bytesOf "1\r\n", bytesOf "a\r\n0\r\n\r\n"])
      turns loop → ∀ fault, chunkTurn 1024 loop ≠ .error fault) ∧
    ∀ turns loop, TurnsTo 1024 (chunkedBodyStart [] [bytesOf "1\r\n", bytesOf "a\r\n0\r\n\r\n"])
      turns loop → turns ≤ 2 * 1024 + 3 * maxHttpChunkFramingBytes + 2 := by
  obtain ⟨-, bounded, safe⟩ := @chunked_body_safe_iff 1024 []
    [bytesOf "1\r\n", bytesOf "a\r\n0\r\n\r\n"] (by decide) (by decide)
  exact ⟨safe (by decide), bounded⟩

theorem TurnsTo.fills (admitted : maxBodyBytes ≤ maxHttpBodyBytes)
    (slice : initialBody.length < 2 ^ 63)
    (run : TurnsTo maxBodyBytes (chunkedBodyStart initialBody segments) turns loop) {size : Nat}
    (phase : loop.phase = .data size) {bytes : List UInt8} {more : List (List UInt8)}
    (next : loop.reader.segments = bytes :: more)
    (exact' : loop.reader.pending.length + bytes.length = size + 2) :
    ∃ turns, TurnsTo maxBodyBytes (chunkedBodyStart initialBody segments) turns
      { loop with reader := loop.reader.extend bytes ([] :: more) } := by
  generalize length : bytes.length = count
  induction count using Nat.strong_induction_on generalizing bytes turns loop with
  | _ count ih =>
    obtain ⟨sound, -⟩ := run.sound admitted slice
    cases bytes with
    | nil =>
      refine ⟨turns, ?_⟩
      have same : loop.reader.extend [] ([] :: more) = loop.reader := by
        rw [extend, append_nil, ← next]
      rwa [same]
    | cons byte bytes =>
      have due : size ≤ maxBodyBytes := by
        have due := sound.due
        rw [phase] at due
        exact Nat.le_trans (Nat.le_add_left _ _) due
      rw [length_cons] at exact' length
      have missing : loop.reader.pending.length < size + 2 := by omega
      have buffer : httpBufferBytes = 4096 := rfl
      generalize room : min (size + 2 - loop.reader.pending.length) httpBufferBytes = places
      have read : readSome places loop.reader.segments =
          some ((byte :: bytes).take places, (byte :: bytes).drop places :: more) := by
        rw [next, readSome, if_neg (by omega)]
      have turn : chunkTurn maxBodyBytes loop = .ok (.goesOn { loop with
          reader := loop.reader.extend ((byte :: bytes).take places)
            ((byte :: bytes).drop places :: more) }) := by
        rw [chunkTurn, phase]
        dsimp only
        rw [dataTurn_missing admitted due missing, readMore, room, read, phase]
      have pending := pending_extend sound.within ((byte :: bytes).take places)
        ((byte :: bytes).drop places :: more)
      obtain ⟨turns, filled⟩ := ih ((byte :: bytes).drop places).length
        (by rw [length_drop, length_cons]; omega) (run.turn turn) phase rfl
        (by
          show (loop.reader.extend _ _).pending.length + _ = _
          rw [pending, length_append, length_take, length_drop, length_cons]
          omega) rfl
      refine ⟨turns, ?_⟩
      have whole : (loop.reader.extend ((byte :: bytes).take places)
          ((byte :: bytes).drop places :: more)).extend ((byte :: bytes).drop places) ([] :: more) =
            loop.reader.extend (byte :: bytes) ([] :: more) := by
        simp only [extend, append_assoc, take_append_drop]
      rwa [← whole]

end Runs

section Late

variable {maxBodyBytes size lineEnd : Nat} {sizeLine data : List UInt8}

theorem sizeLine_turn (fits : lineEnd + 2 ≤ maxHttpChunkFramingBytes)
    (found : findPattern crlf sizeLine = some lineEnd) (whole : sizeLine.length = lineEnd + 2)
    (sized : httpChunkSize (sizeLine.take lineEnd) = .ok size) (some : size ≠ 0)
    (admits : size ≤ maxBodyBytes) (segments : List (List UInt8)) :
    chunkTurn maxBodyBytes (chunkedBodyStart sizeLine segments) =
      .ok (.goesOn ⟨⟨sizeLine, lineEnd + 2, lineEnd + 2, segments⟩, [], .data size⟩) := by
  have framing : maxHttpChunkFramingBytes = 64 * 1024 := rfl
  have pending : (chunkedBodyStart sizeLine segments).reader.pending = sizeLine := rfl
  have short : (sizeLine.take lineEnd).length < 2 ^ 63 := by
    rw [length_take]
    omega
  have checked := checkedChunkSize_eq short
  rw [sized] at checked
  have turn : chunkTurn maxBodyBytes (chunkedBodyStart sizeLine segments) =
      sizeTurn maxBodyBytes (chunkedBodyStart sizeLine segments) := rfl
  rw [turn, sizeTurn, chunkLineTurn_eq (Nat.zero_le _) (by show sizeLine.length < _; omega) (Nat.zero_le _),
    pending, found]
  dsimp only
  rw [if_neg (by show ¬ _ < 0 + (lineEnd + 2); omega), checked, except_bind_ok]
  dsimp only
  rw [if_neg (by show ¬ maxBodyBytes - 0 < size; omega), if_neg some]
  simp only [chunkedBodyStart, advance, Nat.zero_add]

theorem late_line_faults (admitted : maxBodyBytes ≤ maxHttpBodyBytes)
    (fits : lineEnd + 4 ≤ maxHttpChunkFramingBytes)
    (found : findPattern crlf sizeLine = some lineEnd) (whole : sizeLine.length = lineEnd + 2)
    (sized : httpChunkSize (sizeLine.take lineEnd) = .ok size) (some : size ≠ 0)
    (admits : size ≤ maxBodyBytes) (length : data.length = size)
    (large : maxHttpChunkFramingBytes + 1 < sizeLine.length + (size + 2))
    (segments : List (List UInt8)) :
    ∃ turns loop, TurnsTo maxBodyBytes
        (chunkedBodyStart sizeLine ((data ++ crlf) :: segments)) turns loop ∧
      ∃ fault, chunkTurn maxBodyBytes loop = .error fault := by
  have framing : maxHttpChunkFramingBytes = 64 * 1024 := rfl
  have slice : sizeLine.length < 2 ^ 63 := by omega
  have lineLength : crlf.length = 2 := rfl
  have dataLength : (data ++ crlf).length = size + 2 := by rw [length_append, length, lineLength]
  have start := sizeLine_turn (by omega) found whole sized some admits ((data ++ crlf) :: segments)
  obtain ⟨turns, filled⟩ := (TurnsTo.turn .start start).fills admitted slice rfl rfl (by
    rw [pending_length, dataLength]
    dsimp only
    omega)
  obtain ⟨sound, -⟩ := filled.sound admitted slice
  generalize reading : extend _ _ _ = reader at filled sound
  have encoded : reader.encoded = sizeLine ++ (data ++ crlf) := by rw [← reading]; rfl
  have position : reader.position = lineEnd + 2 := by rw [← reading]; rfl
  have counted : reader.framingBytes = lineEnd + 2 := by rw [← reading]; rfl
  have pending : reader.pending = data ++ crlf := by
    rw [ChunkReader.pending, encoded, position]
    exact drop_left' whole
  have turn := dataTurn_there sound (sound.small admitted slice)
    (show size + 2 ≤ reader.pending.length by rw [pending, dataLength])
  have ends : (reader.pending.drop size).take 2 = crlf := by
    rw [pending, drop_left' length]
    rfl
  rw [if_neg (not_not_intro ends), if_neg (by rw [counted]; omega)] at turn
  have last := filled.turn turn
  have total : (reader.pastChunk size).encoded.length = sizeLine.length + (size + 2) := by
    show reader.encoded.length = _
    rw [encoded, length_append, dataLength]
  have drained : (reader.pastChunk size).pending = [] := by
    apply drop_eq_nil_of_le
    rw [total]
    show _ ≤ reader.position + size + 2
    omega
  have late : (ChunkLoop.mk (reader.pastChunk size) ([] ++ reader.pending.take size)
      .size).LateLine := by
    refine ⟨fun _ other => ChunkPhase.noConfusion other, ?_, ?_, ?_⟩
    · rw [drained]
      rfl
    · rw [drained]
      decide
    · rw [total]
      exact large
  have lastSound := (last.sound admitted slice).1
  exact ⟨_, _, last, (chunkTurn_faults_iff lastSound admitted slice).mpr late⟩

/-- A whole chunk of 70000 bytes under an admitted limit. -/
theorem admitted_body_faults :
    ∃ turns loop, TurnsTo 80000 (chunkedBodyStart (bytesOf "11170\r\n")
        [List.replicate 70000 0 ++ crlf, bytesOf "0\r\n\r\n"]) turns loop ∧
      ∃ fault, chunkTurn 80000 loop = .error fault := by
  have sized : httpChunkSize ((bytesOf "11170\r\n").take 5) = .ok 70000 := by decide
  exact late_line_faults (by decide) (by decide) (by decide) (by decide) sized
    (by decide) (by decide) length_replicate (by decide) _

end Late

end PortMate
