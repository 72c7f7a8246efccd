import PortMate.LogShards

namespace PortMate

open List LogAppend Option Transducer

/-- The shard at a path has the bytes at an offset, and the size of a file. -/
def HoldsBytes (files : LogFiles) (path : LogPath) (offset : Nat) (bytes : List UInt8) : Prop :=
  ∃ file before after, entryAt files path = some file ∧ file.content = before ++ bytes ++ after ∧
    before.length = offset ∧ file.content.length ≤ maxFileSize

def SizedFiles (files : LogFiles) : Prop :=
  ∀ path file, entryAt files path = some file → file.content.length ≤ maxFileSize

/-- The shards after the events, from an empty directory. -/
def filesAfter (crates : LogCrates) (events : List LogEvent) : LogFiles :=
  ((logStorage crates).run [] events).1

theorem filesAfter_append (crates : LogCrates) (before later : List LogEvent) :
    filesAfter crates (before ++ later) =
      ((logStorage crates).run (filesAfter crates before) later).1 := by
  unfold filesAfter
  rw [Transducer.run_append]

theorem maxFileSize_lt : maxFileSize < 2 ^ 64 := by simp [maxFileSize]

theorem maxLogSegmentBytes_lt : maxLogSegmentBytes < 2 ^ 64 := by simp [maxLogSegmentBytes]

section References

variable {crates : LogCrates} {files : LogFiles} {path : LogPath} {bytes : List UInt8} {offset : Nat}

theorem append_files (crates : LogCrates) (files : LogFiles) (append : LogAppend) :
    (appendLogBytes crates files append).1 = files ∨
      ∃ count, count ≤ maxFileSize -
          ((entryAt files (append.path crates)).getD append.fresh).content.length ∧
        unusableLogPath (append.path crates) = false ∧
        (appendLogBytes crates files append).1 =
          upsertEntry (append.path crates) append.fresh (append.write count) files := by
  unfold appendLogBytes
  simp only
  split
  · exact .inl rfl
  · split
    next => exact .inl rfl
    next usable =>
      have usable := Bool.eq_false_iff.mpr usable
      cases append.prepared with
      | error error => exact .inl rfl
      | ok prepared =>
        cases append.broken with
        | some broken => exact .inr ⟨_, Nat.min_le_right _ _, usable, rfl⟩
        | none =>
          simp only
          split
          next => exact .inr ⟨_, Nat.le_refl _, usable, rfl⟩
          next fits => exact .inr ⟨_, not_lt.mp fits, usable, rfl⟩

theorem append_ok {append : LogAppend} {reference : List Char}
    (appended : (appendLogBytes crates files append).2 = .ok reference) :
    unusableLogPath (append.path crates) = false ∧
      ∃ file, entryAt (appendLogBytes crates files append).1 (append.path crates) = some file ∧
        ∃ before, file.content = before ++ append.bytes ∧
          before.length + append.bytes.length ≤ max before.length maxFileSize ∧
          before = ((entryAt files (append.path crates)).getD append.fresh).content ∧
          reference = formatLogBytesRef (relativeLogPath (append.path crates)) before.length
            append.bytes.length (crates.sha256.hex append.bytes) := by
  unfold appendLogBytes at appended ⊢
  simp only at appended ⊢
  split at appended
  next => cases appended
  next notParent =>
    split at appended
    next => cases appended
    next usable =>
      rw [if_neg notParent, if_neg usable]
      cases prepared : append.prepared with
      | error error => simp [prepared] at appended
      | ok done =>
        cases broken : append.broken with
        | some broken => simp [prepared, broken] at appended
        | none =>
          simp only [prepared, broken] at appended
          split at appended
          next => cases appended
          next fits =>
            simp only [Except.ok.injEq] at appended
            refine ⟨Bool.eq_false_iff.mpr usable, append.write append.bytes.length
              ((entryAt files (append.path crates)).getD append.fresh), ?_, _, ?_, ?_, rfl,
              appended.symm⟩
            · simp only [if_neg fits]
              rw [entryAt_upsert, if_pos rfl]
            · simp [write]
            · omega

theorem removeShards_entryAt (recheck : LogPath → Option LogFile → Except String Bool)
    (removes : LogPath → Except String Unit) (paths : List LogPath) (files : LogFiles)
    (path : LogPath) :
    entryAt (removeShards recheck removes paths files).1 path = entryAt files path ∨
      entryAt (removeShards recheck removes paths files).1 path = none ∧
        ∃ file, entryAt files path = some file ∧
          (path, file) ∈ (removeShards recheck removes paths files).2.1 := by
  induction paths generalizing files with
  | nil => exact .inl rfl
  | cons first rest ih =>
    unfold removeShards
    split
    next => exact .inl rfl
    next file _ present =>
      split
      · exact .inl rfl
      · have later := ih (files.filter fun entry => entry.1 ≠ first)
        rw [entryAt_filter_ne] at later
        by_cases same : path = first
        · subst same
          rw [if_pos rfl] at later
          refine .inr ⟨?_, file, present, mem_cons_self⟩
          obtain gone | ⟨gone, _⟩ := later
          · exact gone
          · exact gone
        · rw [if_neg same] at later
          refine later.imp_right ?_
          rintro ⟨gone, file, known, removed⟩
          exact ⟨gone, file, known, mem_cons_of_mem _ removed⟩
    next => exact ih files

/-- The shard of an append, grown by some of its bytes. -/
def GrownBy (crates : LogCrates) (files : LogFiles) (event : LogEvent) (path : LogPath)
    (file : LogFile) : Prop :=
  ∃ append count, event = .append append ∧ append.path crates = path ∧
    unusableLogPath path = false ∧
    count ≤ maxFileSize - ((entryAt files path).getD append.fresh).content.length ∧
    file = append.write count ((entryAt files path).getD append.fresh)

theorem step_append (crates : LogCrates) (files : LogFiles) (append : LogAppend) :
    (logStorage crates).step files (.append append) =
      ((appendLogBytes crates files append).1,
        [.appended (append.path crates) (appendLogBytes crates files append).2]) := rfl

theorem step_delete (crates : LogCrates) (files : LogFiles) (relatives : List (List Char))
    (removes : LogPath → Except String Unit) :
    (logStorage crates).step files (.delete relatives removes) =
      ((deleteLogShards crates files relatives removes).1,
        (deleteLogShards crates files relatives removes).2.1.map fun entry =>
          .removed none entry.1 entry.2) := rfl

theorem step_prune (crates : LogCrates) (files : LogFiles) (profile : LogProfile) (now : DateTime)
    (listed : Except String Unit) (removes : LogPath → Except String Unit) :
    (logStorage crates).step files (.prune profile now listed removes) =
      ((pruneExpiredLogShards crates files profile now listed removes).1,
        (pruneExpiredLogShards crates files profile now listed removes).2.1.map fun entry =>
          .removed (some profile) entry.1 entry.2) := rfl

theorem deleteLogShards_entryAt (crates : LogCrates) (files : LogFiles)
    (relatives : List (List Char)) (removes : LogPath → Except String Unit) (path : LogPath) :
    entryAt (deleteLogShards crates files relatives removes).1 path = entryAt files path ∨
      entryAt (deleteLogShards crates files relatives removes).1 path = none ∧
        ∃ file, entryAt files path = some file ∧
          (path, file) ∈ (deleteLogShards crates files relatives removes).2.1 := by
  unfold deleteLogShards
  split
  · exact .inl rfl
  · split
    · exact .inl rfl
    · split
      next => exact .inl rfl
      next paths _ => exact removeShards_entryAt _ removes paths files path

theorem pruneExpiredLogShards_entryAt (crates : LogCrates) (files : LogFiles)
    (profile : LogProfile) (now : DateTime) (listed : Except String Unit)
    (removes : LogPath → Except String Unit) (path : LogPath) :
    entryAt (pruneExpiredLogShards crates files profile now listed removes).1 path =
        entryAt files path ∨
      entryAt (pruneExpiredLogShards crates files profile now listed removes).1 path = none ∧
        ∃ file, entryAt files path = some file ∧
          (path, file) ∈ (pruneExpiredLogShards crates files profile now listed removes).2.1 := by
  unfold pruneExpiredLogShards
  split
  · exact .inl rfl
  · simp only
    split
    · exact .inl rfl
    · exact removeShards_entryAt _ removes _ files path

theorem storage_step (crates : LogCrates) (files : LogFiles) (event : LogEvent) (path : LogPath) :
    entryAt ((logStorage crates).step files event).1 path = entryAt files path ∨
      (∃ file, entryAt ((logStorage crates).step files event).1 path = some file ∧
        GrownBy crates files event path file) ∨
      entryAt ((logStorage crates).step files event).1 path = none ∧
        ∃ pruned file, .removed pruned path file ∈ ((logStorage crates).step files event).2 := by
  cases event with
  | append append =>
    rw [step_append]
    obtain same | ⟨count, fits, usable, grown⟩ := append_files crates files append
    · rw [same]
      exact .inl rfl
    · rw [grown]
      simp only [entryAt_upsert]
      by_cases here : path = append.path crates
      · rw [if_pos here]
        rw [← here] at fits usable ⊢
        exact .inr (.inl ⟨_, rfl, append, count, rfl, here.symm, usable, fits, rfl⟩)
      · rw [if_neg here]
        exact .inl rfl
  | delete relatives removes =>
    rw [step_delete]
    obtain same | ⟨gone, file, _, removed⟩ :=
      deleteLogShards_entryAt crates files relatives removes path
    · exact .inl same
    · exact .inr (.inr ⟨gone, none, file, mem_map.mpr ⟨(path, file), removed, rfl⟩⟩)
  | prune profile now listed removes =>
    rw [step_prune]
    obtain same | ⟨gone, file, _, removed⟩ :=
      pruneExpiredLogShards_entryAt crates files profile now listed removes path
    · exact .inl same
    · exact .inr (.inr ⟨gone, some profile, file, mem_map.mpr ⟨(path, file), removed, rfl⟩⟩)

theorem write_length {append : LogAppend} {count : Nat} {file : LogFile}
    (fits : count ≤ maxFileSize - file.content.length)
    (sized : file.content.length ≤ maxFileSize) :
    (append.write count file).content.length ≤ maxFileSize := by
  simp only [write, length_append, length_take]
  omega

theorem sized_step (sized : SizedFiles files) (event : LogEvent) :
    SizedFiles ((logStorage crates).step files event).1 := by
  intro path file present
  obtain same | ⟨grown, here, append, count, _, _, _, fits, rfl⟩ | ⟨gone, _⟩ :=
    storage_step crates files event path
  · exact sized path file (same ▸ present)
  · rw [here] at present
    cases present
    refine write_length fits ?_
    cases before : entryAt files path with
    | none => exact Nat.zero_le _
    | some file => exact sized path file before
  · rw [gone] at present
    cases present

theorem sized_run (crates : LogCrates) (events : List LogEvent) :
    SizedFiles (filesAfter crates events) :=
  @Transducer.run_preserves _ _ _ (logStorage crates) SizedFiles
    (fun _ event sized => sized_step sized event) []
    (fun _ _ present => by cases present) events

theorem holds_step {event : LogEvent} (holds : HoldsBytes files path offset bytes)
    (kept : ∀ pruned file, .removed pruned path file ∉ ((logStorage crates).step files event).2) :
    HoldsBytes ((logStorage crates).step files event).1 path offset bytes := by
  obtain ⟨file, before, after, present, content, offset_eq, sized⟩ := holds
  obtain same | ⟨grown, here, append, count, _, _, _, fits, rfl⟩ | ⟨_, pruned, file, removed⟩ :=
    storage_step crates files event path
  · exact ⟨file, before, after, same.trans present, content, offset_eq, sized⟩
  · rw [present, getD_some] at here fits
    refine ⟨_, before, after ++ append.bytes.take count, here, ?_, offset_eq,
      write_length fits sized⟩
    simp [write, content]
  · exact absurd removed (kept pruned file)

theorem holds_run {events : List LogEvent} (holds : HoldsBytes files path offset bytes)
    (kept : ∀ pruned file, .removed pruned path file ∉ ((logStorage crates).run files events).2) :
    HoldsBytes ((logStorage crates).run files events).1 path offset bytes := by
  induction events generalizing files with
  | nil => exact holds
  | cons event events ih =>
    rw [run] at kept ⊢
    simp only [mem_append, not_or] at kept
    exact ih (holds_step holds fun pruned file => (kept pruned file).1)
      fun pruned file => (kept pruned file).2

theorem read_holding (crates : LogCrates) (shard : ShardPath path) (small : bytes.length ≤ maxLogSegmentBytes)
    (holds : HoldsBytes files path offset bytes) :
    readParsedLogBytesRef crates files ⟨relativeLogPath path, offset, bytes.length,
      some (crates.sha256.hex bytes)⟩ = .ok (relativeLogPath path, offset, bytes) := by
  obtain ⟨file, before, after, present, content, rfl, sized⟩ := holds
  exact read_formatted shard present content small (lt_of_le_of_lt sized maxFileSize_lt)

theorem read_digest {parsed : ParsedLogBytesRef} {digest : List Char}
    {result : List Char × Nat × List UInt8} (verified : parsed.sha256 = some digest)
    (read : readParsedLogBytesRef crates files parsed = .ok result) :
    crates.sha256.hex result.2.2 = digest := by
  unfold readParsedLogBytesRef at read
  split at read
  · cases read
  · obtain ⟨path, _, read⟩ := except_bind_eq_ok read
    obtain ⟨finish, _, read⟩ := except_bind_eq_ok read
    simp only at read
    split at read
    · cases read
    · split at read
      next => cases read
      next same =>
        cases read
        rw [verified] at same
        simpa using Eq.symm (by simpa using same)

theorem read_segment {file : LogFile} {length : Nat} {sha256 : Option (List Char)}
    {result : List Char × Nat × List UInt8} (shard : ShardPath path)
    (present : entryAt files path = some file)
    (read : readParsedLogBytesRef crates files ⟨relativeLogPath path, offset, length, sha256⟩ =
      .ok result) :
    result = (relativeLogPath path, offset, (file.content.drop offset).take length) := by
  unfold readParsedLogBytesRef at read
  split at read
  · cases read
  · rw [resolve_shard shard (by rw [present]; rfl)] at read
    obtain ⟨found, same, read⟩ := except_bind_eq_ok read
    cases same
    obtain ⟨finish, _, read⟩ := except_bind_eq_ok read
    simp only [present, map_some, getD_some] at read
    split at read
    · cases read
    · split at read
      · cases read
      · cases read
        rfl

theorem formatted_parses (crates : LogCrates) (shard : ShardPath path) (offset_fits : offset < 2 ^ 64) (length_fits : bytes.length < 2 ^ 64) :
    parseLogBytesRef (formatLogBytesRef (relativeLogPath path) offset bytes.length
        (crates.sha256.hex bytes)) =
      .ok ⟨relativeLogPath path, offset, bytes.length, some (crates.sha256.hex bytes)⟩ :=
  parse_format (relativeLogPath_ne_nil shard) offset_fits length_fits (crates.sha256.hex_digest bytes)

theorem read_parsed {reference digest : List Char} {parsed : ParsedLogBytesRef}
    (parses : parseLogBytesRef reference = .ok parsed) (verified : parsed.sha256 = some digest) :
    readLogBytesRef crates files reference = readParsedLogBytesRef crates files parsed ∧
      readVerifiedLogBytesRef crates files reference =
        readParsedLogBytesRef crates files parsed := by
  unfold readLogBytesRef readVerifiedLogBytesRef
  rw [parses]
  simp [bind, Except.bind, verified]

end References

def LogFile.segment (file : LogFile) (offset length : Nat) : List UInt8 :=
  (file.content.drop offset).take length

/-- What an append says is read back, whatever is appended after it. -/
theorem log_references_readable (crates : LogCrates) (before later : List LogEvent)
    (append : LogAppend) (reference : List Char)
    (appended : (appendLogBytes crates (filesAfter crates before) append).2 = .ok reference)
    (small : append.bytes.length ≤ maxLogSegmentBytes)
    (kept : ∀ pruned file, .removed pruned (append.path crates) file ∉
      ((logStorage crates).run (filesAfter crates (before ++ [.append append])) later).2) :
    (∃ offset,
      parseLogBytesRef reference = .ok ⟨relativeLogPath (append.path crates), offset,
        append.bytes.length, some (crates.sha256.hex append.bytes)⟩ ∧
      readLogBytesRef crates (filesAfter crates (before ++ .append append :: later)) reference =
        .ok (relativeLogPath (append.path crates), offset, append.bytes) ∧
      readVerifiedLogBytesRef crates (filesAfter crates (before ++ .append append :: later))
        reference = .ok (relativeLogPath (append.path crates), offset, append.bytes) ∧
      (∀ changed file, entryAt changed (append.path crates) = some file →
        crates.sha256.hex (file.segment offset append.bytes.length) ≠
          crates.sha256.hex append.bytes →
        ∃ error, readVerifiedLogBytesRef crates changed reference = .error error) ∧
      (Function.Injective crates.sha256.hex → ∀ changed file,
        entryAt changed (append.path crates) = some file →
        file.segment offset append.bytes.length ≠ append.bytes →
        ∃ error, readVerifiedLogBytesRef crates changed reference = .error error)) ∧
    ∀ (profile : LogProfile) (date : List Char) (extension : LogExtension) (offset : Nat)
      (bytes : List UInt8),
      unusableLogPath (profile.logShardRelativePath date extension.text) = false →
      offset < 2 ^ 64 → bytes.length < 2 ^ 64 →
      parseLogBytesRef (formatLogBytesRef
          (relativeLogPath (profile.logShardRelativePath date extension.text)) offset bytes.length
          (crates.sha256.hex bytes)) =
        .ok ⟨relativeLogPath (profile.logShardRelativePath date extension.text), offset,
          bytes.length, some (crates.sha256.hex bytes)⟩ := by
  obtain ⟨usable, file, present, start, content, fits, old, written⟩ := append_ok appended
  have shard : ShardPath (append.path crates) := logShardRelativePath_shard usable
  have here : (appendLogBytes crates (filesAfter crates before) append).1 =
      filesAfter crates (before ++ [.append append]) := by
    rw [filesAfter_append, run_cons, run_nil, step_append]
  rw [here] at present
  have sized := sized_run crates (before ++ [.append append]) _ _ present
  have start_fits : start.length < 2 ^ 64 := by
    rw [content, length_append] at sized
    exact lt_of_le_of_lt (le_trans (Nat.le_add_right _ _) sized) maxFileSize_lt
  have length_fits : append.bytes.length < 2 ^ 64 := lt_of_le_of_lt small maxLogSegmentBytes_lt
  have parses := formatted_parses crates shard start_fits length_fits
  rw [← written] at parses
  have holds : HoldsBytes (filesAfter crates (before ++ [.append append])) (append.path crates)
      start.length append.bytes :=
    ⟨file, start, [], present, content.trans (append_nil _).symm, rfl, sized⟩
  have rest : ((logStorage crates).run (filesAfter crates (before ++ [.append append])) later).1 =
      filesAfter crates (before ++ .append append :: later) := by
    rw [← filesAfter_append, append_assoc, singleton_append]
  have read := read_holding crates shard small (rest ▸ holds_run holds kept)
  have changes : ∀ changed file, entryAt changed (append.path crates) = some file →
      crates.sha256.hex (file.segment start.length append.bytes.length) ≠
        crates.sha256.hex append.bytes →
      ∃ error, readVerifiedLogBytesRef crates changed reference = .error error := by
    intro changed other present differs
    rw [(read_parsed parses rfl).2]
    cases again : readParsedLogBytesRef crates changed ⟨relativeLogPath (append.path crates),
      start.length, append.bytes.length, some (crates.sha256.hex append.bytes)⟩ with
    | error error => exact ⟨error, rfl⟩
    | ok result =>
      have digest := read_digest rfl again
      rw [read_segment shard present again] at digest
      exact absurd digest differs
  refine ⟨⟨start.length, parses, ?_, ?_, changes, ?_⟩, ?_⟩
  · exact (read_parsed parses rfl).1.trans read
  · exact (read_parsed parses rfl).2.trans read
  · exact fun injective changed file here differs => changes changed file here (injective.ne differs)
  · intro profile date extension offset bytes usable offset_fits length_fits
    exact formatted_parses crates (logShardRelativePath_shard usable) offset_fits length_fits

/-- The digest of the letter A; nothing else is asked for. -/
def sampleSha256 : Sha256 where
  digest bytes := if bytes = [65] then
    [0x55, 0x9a, 0xea, 0xd0, 0x82, 0x64, 0xd5, 0x79, 0x5d, 0x39, 0x09, 0x71, 0x8c, 0xdd, 0x05, 0xab,
      0xd4, 0x95, 0x72, 0xe8, 0x4f, 0xe5, 0x55, 0x90, 0xee, 0xf3, 0x1a, 0x88, 0xa0, 0x8f, 0xdf, 0xfd]
    else List.replicate 32 0
  length bytes := by split <;> rfl

def sampleLogCrates : LogCrates where
  sha256 := sampleSha256
  dateText _ := "1970-01-01".toList
  parsesDate text := text = "1970-01-01".toList
  root := "/logs"

def sampleLogProfile : LogProfile :=
  ⟨"s1", "Core switch", "lab", "{group}/{session}-{date}.jsonl", 0⟩

def sampleLogAppend : LogAppend := ⟨sampleLogProfile, .raw, 0, [65], .ok (), none⟩

def sampleLogReference : List Char :=
  "v2:lab/s1-1970-01-01.raw:1:1:559aead08264d5795d3909718cdd05abd49572e84fe55590eef31a88a08fdffd".toList

theorem sample_reference_readable : ∃ offset,
    readVerifiedLogBytesRef sampleLogCrates (filesAfter sampleLogCrates
        ([.append sampleLogAppend] ++ .append sampleLogAppend :: [.append sampleLogAppend]))
      sampleLogReference =
    .ok (relativeLogPath (sampleLogAppend.path sampleLogCrates), offset, sampleLogAppend.bytes) := by
  obtain ⟨offset, _, _, read, _⟩ := (log_references_readable sampleLogCrates
    [.append sampleLogAppend] [.append sampleLogAppend] sampleLogAppend sampleLogReference
    (by decide) (by decide) (by
      intro pruned file removed
      rw [run_cons, run_nil, step_append, append_nil,
        mem_singleton] at removed
      cases removed)).1
  exact ⟨offset, read⟩

end PortMate
