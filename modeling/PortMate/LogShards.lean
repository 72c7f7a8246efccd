import PortMate.KeyedLists
import PortMate.LogBytesRefs
import PortMate.SessionModels
import PortMate.Transducer

namespace PortMate

open List Bool LogExtension

section Entries

variable {κ β : Type} [DecidableEq κ]

def entryAt (entries : List (κ × β)) (key : κ) : Option β := entries.lookup key

variable (key other : κ)

theorem entryAt_upsert (start : β) (edit : β → β) (entries : List (κ × β)) :
    entryAt (upsertEntry key start edit entries) other =
      if other = key then some (edit ((entryAt entries key).getD start)) else entryAt entries other :=
  lookup_upsertEntry key other start edit entries

theorem entryAt_filter_ne (entries : List (κ × β)) :
    entryAt (entries.filter fun entry => entry.1 ≠ key) other =
      if other = key then none else entryAt entries other :=
  lookup_filter_ne key other entries

theorem entryAt_cons (value : β) (entries : List (κ × β)) :
    entryAt ((key, value) :: entries) other =
      if other = key then some value else entryAt entries other := by
  unfold entryAt
  rw [lookup_cons]
  by_cases same : other = key
  · simp [same]
  · simp [same, beq_false_of_ne same]

theorem entryAt_filter_kept (keeps : β → Bool) {key : κ} {value : β} {entries : List (κ × β)}
    (here : entryAt entries key = some value) (kept : keeps value = true) :
    entryAt (entries.filter fun entry => keeps entry.2) key = some value := by
  induction entries with
  | nil => cases here
  | cons entry entries ih =>
    obtain ⟨first, other⟩ := entry
    rw [entryAt_cons] at here
    by_cases same : key = first
    · rw [if_pos same] at here
      cases here
      rw [filter_cons, if_pos kept, entryAt_cons, if_pos same]
    · rw [if_neg same] at here
      rw [filter_cons]
      split
      · rw [entryAt_cons, if_neg same]
        exact ih here
      · exact ih here

end Entries

def maxLogShards : Nat := 10000

def maxFileSize : Nat := 2 ^ 63 - 1

def logRetentionDateToken : List Char := "PORTMATE_RETENTION_DATE_5A8F".toList

/-- The digest and the dates of the crates, and the log directory as it is shown. -/
structure LogCrates where
  sha256 : Sha256
  dateText : DateTime → List Char
  parsesDate : List Char → Bool
  root : String

/-- A shard; the writers are, for the proofs, the profiles whose bytes it was given. -/
structure LogFile where
  content : List UInt8
  modified : DateTime
  writers : List String
  deriving DecidableEq

abbrev LogFiles := List (LogPath × LogFile)

/-- One append, with how its files come out: `prepared` is the directory, the checks and the open
file, and `broken` how many bytes are in when a write fails. -/
structure LogAppend where
  profile : LogProfile
  extension : LogExtension
  now : DateTime
  bytes : List UInt8
  prepared : Except String Unit
  broken : Option (Nat × String)

namespace LogCrates

variable (crates : LogCrates)

def display (path : LogPath) : String := crates.root ++ "/" ++ String.ofList (relativeLogPath path)

end LogCrates

namespace LogAppend

def path (append : LogAppend) (crates : LogCrates) : LogPath :=
  append.profile.logShardRelativePath (crates.dateText append.now) append.extension.text

/-- The shard with the first of the bytes at its end. -/
def write (append : LogAppend) (count : Nat) (file : LogFile) : LogFile where
  content := file.content ++ append.bytes.take count
  modified := if (append.bytes.take count).isEmpty then file.modified else append.now
  writers := append.profile.id :: file.writers

def fresh (append : LogAppend) : LogFile := ⟨[], append.now, []⟩

end LogAppend

/-- `append_log_bytes` after its retention check. -/
def appendLogBytes (crates : LogCrates) (files : LogFiles) (append : LogAppend) :
    LogFiles × Except String (List Char) :=
  let path := append.path crates
  if path = [['.', '.']] then
    (files, .error s!"log shard target is not a regular file: {crates.display path}")
  else if unusableLogPath path then
    (files, .error s!"log shard escaped log root: {crates.display path}")
  else
    match append.prepared with
    | .error error => (files, .error error)
    | .ok () =>
      let offset := ((entryAt files path).getD append.fresh).content.length
      let room := maxFileSize - offset
      let written count := upsertEntry path append.fresh (append.write count) files
      match append.broken with
      | some (count, error) =>
        (written (min count room),
          .error s!"failed to append log shard {crates.display path}: {error}")
      | none =>
        if room < append.bytes.length then
          (written room,
            .error s!"failed to append log shard {crates.display path}: File too large")
        else
          (written append.bytes.length,
            .ok (formatLogBytesRef (relativeLogPath path) offset append.bytes.length
              (crates.sha256.hex append.bytes)))

/-- `resolve_log_shard_path`: the names under the log directory. -/
def resolveLogShardPath (files : LogFiles) (text : List Char) : Except String LogPath :=
  let relative := (rustTrim (String.ofList text)).toList
  if relative.isEmpty || relative.contains '\x00' || relative.contains '\\' then
    .error "invalid log shard path"
  else
    match (normalComponents relative).filter isLogShardPath with
    | none => .error s!"invalid log shard path: {String.ofList relative}"
    | some path =>
      if (entryAt files path).isSome then .ok path
      else .error s!"log shard not found {String.ofList relative}: No such file or directory"

def readParsedLogBytesRef (crates : LogCrates) (files : LogFiles) (parsed : ParsedLogBytesRef) :
    Except String (List Char × Nat × List UInt8) := do
  if maxLogSegmentBytes < parsed.length then
    .error s!"log segment exceeds {maxLogSegmentBytes} byte limit"
  else
    let path ← resolveLogShardPath files parsed.relative
    let content := ((entryAt files path).map LogFile.content).getD []
    let finish ← checkedAddU64 parsed.offset parsed.length "bytesRef range overflow"
    let bytes := (content.drop parsed.offset).take parsed.length
    if content.length < finish then
      .error s!"bytesRef range {parsed.offset}..{finish} exceeds shard size {content.length}"
    else if parsed.sha256.any fun expected => expected ≠ crates.sha256.hex bytes then
      .error "bytesRef content mismatch: log shard was replaced or modified"
    else .ok (parsed.relative, parsed.offset, bytes)

def readLogBytesRef (crates : LogCrates) (files : LogFiles) (reference : List Char) :
    Except String (List Char × Nat × List UInt8) := do
  let parsed ← parseLogBytesRef reference
  readParsedLogBytesRef crates files parsed

def readVerifiedLogBytesRef (crates : LogCrates) (files : LogFiles) (reference : List Char) :
    Except String (List Char × Nat × List UInt8) := do
  let parsed ← parseLogBytesRef reference
  if parsed.sha256.isNone then .error "bytesRef does not include a SHA-256 digest"
  else readParsedLogBytesRef crates files parsed

/-- The loop over the files to remove: what the second look at a file says, and whether it can be
removed. The first error ends it; what was removed is kept with it. -/
def removeShards (recheck : LogPath → Option LogFile → Except String Bool)
    (removes : LogPath → Except String Unit) :
    List LogPath → LogFiles → LogFiles × List (LogPath × LogFile) × Except String Unit
  | [], files => (files, [], .ok ())
  | path :: rest, files =>
    match recheck path (entryAt files path), entryAt files path with
    | .error error, _ => (files, [], .error error)
    | .ok true, some file =>
      match removes path with
      | .error error => (files, [], .error error)
      | .ok () =>
        let later := removeShards recheck removes rest (files.filter fun entry => entry.1 ≠ path)
        (later.1, (path, file) :: later.2.1, later.2.2)
    | .ok _, _ => removeShards recheck removes rest files

def maxLogDeleteBatch : Nat := 1000

/-- `delete_log_shards_inner`. -/
def deleteLogShards (crates : LogCrates) (files : LogFiles) (relatives : List (List Char))
    (removes : LogPath → Except String Unit) :
    LogFiles × List (LogPath × LogFile) × Except String Unit :=
  if relatives.isEmpty then (files, [], .error "select at least one log shard")
  else if maxLogDeleteBatch < relatives.length then
    (files, [], .error s!"log delete batch limit exceeded ({maxLogDeleteBatch})")
  else
    match relatives.eraseDups.mapM (resolveLogShardPath files) with
    | .error error => (files, [], .error error)
    | .ok paths =>
      removeShards (fun path file => match file with
        | none => .error s!"failed to read log metadata {crates.display path}: No such file or directory"
        | some _ => .ok true) removes paths files

namespace LogProfile

def validateLoggingRetention (profile : LogProfile) : Except String Unit :=
  if profile.retentionDays = 0 then .ok ()
  else if !containsPattern "\x7bsession\x7d".toList profile.pathTemplate.toList &&
      !containsPattern "\x7bprofile\x7d".toList profile.pathTemplate.toList then
    .error "log retention requires \x7bsession\x7d or \x7bprofile\x7d in the path template"
  else .ok ()

/-- The shards of a profile with a token for the date. -/
def retentionPattern (profile : LogProfile) : LogPath :=
  profile.logShardRelativePath logRetentionDateToken jsonl.text

end LogProfile

/-- `str::split_once` at a pattern. -/
def splitOncePattern (pattern : List Char) : List Char → Option (List Char × List Char)
  | [] => none
  | c :: rest =>
    if pattern.isPrefixOf (c :: rest) then some ([], (c :: rest).drop pattern.length)
    else (splitOncePattern pattern rest).map fun (before, after) => (c :: before, after)

def logPathComponentMatches (crates : LogCrates) (actual pattern : PathName) : Bool :=
  match splitOncePattern logRetentionDateToken pattern with
  | none => actual = pattern
  | some (front, suffix) =>
    if containsPattern logRetentionDateToken suffix || !front.isPrefixOf actual ||
        !suffix.isSuffixOf actual || actual.length < front.length + suffix.length then false
    else
      crates.parsesDate
        ((actual.drop front.length).take (actual.length - suffix.length - front.length))

def logShardMatchesProfilePattern (crates : LogCrates) (relative pattern : LogPath) : Bool :=
  let actual := setExtension relative jsonl.text
  actual.length = pattern.length &&
    (actual.zip pattern).all fun (actual, pattern) => logPathComponentMatches crates actual pattern

/-- Newest first, and by the path among the same age. -/
def newerShard (left right : LogPath × LogFile) : Bool :=
  right.2.modified < left.2.modified || (left.2.modified = right.2.modified &&
    String.ofList (relativeLogPath left.1) ≤ String.ofList (relativeLogPath right.1))

/-- `list_log_shards_inner`, where the directories can be read. -/
def listLogShards (files : LogFiles) : Except String LogFiles :=
  let shards := files.filter fun entry => isLogShardPath entry.1
  if maxLogShards < shards.length then .error s!"log shard limit exceeded ({maxLogShards})"
  else .ok (shards.mergeSort newerShard)

def microsPerDay : Int := 86400 * 1000000

/-- `prune_expired_log_shards_for_profile`; `listed` is how reading the directories goes. -/
def pruneExpiredLogShards (crates : LogCrates) (files : LogFiles) (profile : LogProfile)
    (now : DateTime) (listed : Except String Unit) (removes : LogPath → Except String Unit) :
    LogFiles × List (LogPath × LogFile) × Except String Unit :=
  if profile.retentionDays = 0 then (files, [], .ok ())
  else
    let cutoff : DateTime := now - profile.retentionDays * microsPerDay
    let shards := do
      profile.validateLoggingRetention
      listed
      listLogShards files
    match shards with
    | .error error => (files, [], .error error)
    | .ok shards =>
      let candidates := shards.filter fun shard =>
        logShardMatchesProfilePattern crates shard.1 profile.retentionPattern &&
          shard.2.modified < cutoff
      removeShards (fun _ file => .ok (file.any fun file => file.modified < cutoff)) removes
        (candidates.map (·.1)) files

inductive LogEvent
  | append (append : LogAppend)
  | delete (relatives : List (List Char)) (removes : LogPath → Except String Unit)
  | prune (profile : LogProfile) (now : DateTime) (listed : Except String Unit)
      (removes : LogPath → Except String Unit)

inductive LogSignal
  | appended (path : LogPath) (result : Except String (List Char))
  | removed (pruned : Option LogProfile) (path : LogPath) (file : LogFile)

def logStorage (crates : LogCrates) : Transducer LogFiles LogEvent LogSignal where
  step files event :=
    match event with
    | .append append =>
      let done := appendLogBytes crates files append
      (done.1, [.appended (append.path crates) done.2])
    | .delete relatives removes =>
      let done := deleteLogShards crates files relatives removes
      (done.1, done.2.1.map fun entry => .removed none entry.1 entry.2)
    | .prune profile now listed removes =>
      let done := pruneExpiredLogShards crates files profile now listed removes
      (done.1, done.2.1.map fun entry => .removed (some profile) entry.1 entry.2)

section Reading

variable {crates : LogCrates} {files : LogFiles}

theorem clean_bounds {c : Char} (clean : (c.isAlphanum || c = '-' || c = '_' || c = '.') = true) :
    45 ≤ c.toNat ∧ c.toNat ≤ 122 := by
  simp only [or_eq_true, decide_eq_true_eq] at clean
  obtain ((alphanum | rfl) | rfl) | rfl := clean
  · obtain ⟨low, high⟩ := alphanum_bounds alphanum
    exact ⟨by omega, high⟩
  all_goals exact ⟨by decide, by decide⟩

theorem mem_relativeLogPath {path : LogPath} {c : Char} (mem : c ∈ relativeLogPath path) :
    c = '/' ∨ ∃ name ∈ path, c ∈ name := by
  unfold relativeLogPath at mem
  induction path with
  | nil => cases mem
  | cons name rest ih =>
    cases rest with
    | nil =>
      rw [intercalate_singleton] at mem
      exact .inr ⟨name, by simp, mem⟩
    | cons next rest =>
      rw [intercalate_cons_cons, mem_append, mem_append] at mem
      obtain (mem | mem) | mem := mem
      · exact .inr ⟨name, by simp, mem⟩
      · exact .inl (mem_singleton.mp mem)
      · refine (ih mem).imp_right ?_
        rintro ⟨other, inside, mem⟩
        exact ⟨other, mem_cons_of_mem _ inside, mem⟩

theorem rustTrim_solid {text : List Char} (solid : ∀ c ∈ text, isRustWhitespace c = false) :
    (rustTrim (String.ofList text)).toList = text := by
  have kept : ∀ list : List Char, (∀ c ∈ list, isRustWhitespace c = false) →
      list.dropWhile isRustWhitespace = list := by
    intro list solid
    cases list with
    | nil => rfl
    | cons c list => simp [solid c (by simp)]
  unfold rustTrim
  rw [String.toList_ofList, String.toList_ofList, kept text solid,
    kept text.reverse fun c mem => solid c (mem_reverse.mp mem), reverse_reverse]

theorem relativeLogPath_ne_nil {path : LogPath} (shard : ShardPath path) :
    relativeLogPath path ≠ [] := by
  intro empty
  have components := normalComponents_relative shard
  rw [empty] at components
  obtain rfl : path = [] := (Option.some.inj components).symm
  exact absurd shard.shard (by decide)

theorem resolve_shard {path : LogPath} (shard : ShardPath path)
    (present : (entryAt files path).isSome = true) :
    resolveLogShardPath files (relativeLogPath path) = .ok path := by
  have bounds : ∀ c ∈ relativeLogPath path, (45 ≤ c.toNat ∧ c.toNat ≤ 122) ∧ c ≠ '\\' := by
    intro c mem
    obtain rfl | ⟨name, inside, mem⟩ := mem_relativeLogPath mem
    · exact ⟨⟨by decide, by decide⟩, by decide⟩
    · have clean := shard.clean name inside c mem
      exact ⟨clean_bounds clean, fun same => absurd (same ▸ clean) (by decide)⟩
  have trimmed : (rustTrim (String.ofList (relativeLogPath path))).toList = relativeLogPath path := by
    refine rustTrim_solid fun c mem => ?_
    have := (bounds c mem).1
    simp only [isRustWhitespace, or_eq_false_iff, and_eq_false_iff,
      decide_eq_false_iff_not, beq_eq_false_iff_ne]
    omega
  have filled : (relativeLogPath path).isEmpty = false := by
    simpa using relativeLogPath_ne_nil shard
  have nul : (relativeLogPath path).contains '\x00' = false := by
    rw [← not_eq_true, contains_iff_mem]
    exact fun mem => absurd (bounds _ mem).1 (by decide)
  have backslash : (relativeLogPath path).contains '\\' = false := by
    rw [← not_eq_true, contains_iff_mem]
    exact fun mem => (bounds _ mem).2 rfl
  unfold resolveLogShardPath
  simp only [trimmed, filled, nul, backslash, normalComponents_relative shard]
  simp [Option.filter, shard.shard, present]

theorem read_formatted {path : LogPath} {file : LogFile} {bytes before after : List UInt8}
    (shard : ShardPath path) (present : entryAt files path = some file)
    (content : file.content = before ++ bytes ++ after)
    (small : bytes.length ≤ maxLogSegmentBytes) (fits : file.content.length < 2 ^ 64) :
    readParsedLogBytesRef crates files ⟨relativeLogPath path, before.length, bytes.length,
        some (crates.sha256.hex bytes)⟩ =
      .ok (relativeLogPath path, before.length, bytes) := by
  have size : before.length + bytes.length ≤ file.content.length := by
    rw [content, length_append, length_append]
    omega
  have segment : (file.content.drop before.length).take bytes.length = bytes := by
    rw [content, append_assoc, drop_left, take_left]
  unfold readParsedLogBytesRef checkedAddU64
  rw [if_neg (not_lt.mpr small), resolve_shard shard (by rw [present]; rfl)]
  rw [if_pos (show before.length + bytes.length < 2 ^ 64 by omega)]
  simp [bind, Except.bind, present, segment, not_lt.mpr size]

end Reading

end PortMate
