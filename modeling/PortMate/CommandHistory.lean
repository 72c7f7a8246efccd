import PortMate.RustText

namespace PortMate

def maxCommandHistoryEntries : Nat := 10000

def maxCommandHistoryRetentionDays : Nat := 3650

def maxCommandHistoryCommandCharacters : Nat := 8192

def maxCommandHistoryStorageBytes : Nat := 2 * 1024 * 1024

def maxCommandHistorySessionIdCharacters : Nat := 256

def maxCommandHistoryInputEntries : Nat := maxCommandHistoryEntries * 2

def maxJavascriptSafeInteger : Nat := 9007199254740991

def i64Min : Int := -9223372036854775808

structure CommandHistoryEntry where
  command : List Char
  recordedAt : Int
  sessionId : Option (List Char)
  deriving DecidableEq

structure CommandHistoryPolicy where
  enabled : Bool
  limit : Nat
  retentionDays : Nat
  deriving DecidableEq

/-- The fields of the store that hold the command history. -/
structure CommandHistory where
  entries : List CommandHistoryEntry
  migrated : Bool
  revision : Nat
  policy : CommandHistoryPolicy
  deriving DecidableEq

def jsonCharacter (c : Char) : List Char :=
  if c = '"' then ['\\', '"']
  else if c = '\\' then ['\\', '\\']
  else if c = '\x08' then ['\\', 'b']
  else if c = '\x0c' then ['\\', 'f']
  else if c = '\n' then ['\\', 'n']
  else if c = '\r' then ['\\', 'r']
  else if c = '\t' then ['\\', 't']
  else if c.toNat < 0x20 then
    ['\\', 'u', '0', '0', Nat.digitChar (c.toNat / 16), Nat.digitChar (c.toNat % 16)]
  else [c]

def jsonText (text : List Char) : List Char := ['"'] ++ text.flatMap jsonCharacter ++ ['"']

/-- `serde_json::to_vec` of an entry, as text. -/
def CommandHistoryEntry.json (entry : CommandHistoryEntry) : List Char :=
  "\x7b\"command\":".toList ++ jsonText entry.command ++ ",\"recordedAt\":".toList ++
    (toString entry.recordedAt).toList ++
    (match entry.sessionId with
      | none => []
      | some sessionId => ",\"sessionId\":".toList ++ jsonText sessionId) ++
    "\x7d".toList

def commandHistoryJson (entries : List CommandHistoryEntry) : List Char :=
  "\x7b\"version\":3,\"entries\":[".toList ++
    [','].intercalate (entries.map CommandHistoryEntry.json) ++ "]\x7d".toList

def commandHistoryEmptySnapshotBytes : Nat := utf8Length "\x7b\"version\":3,\"entries\":[]\x7d".toList

def normalizeHistorySessionId (value : List Char) : Option (List Char) :=
  let value := trimText value
  if !value.isEmpty && value.length ≤ maxCommandHistorySessionIdCharacters &&
      !value.any isRustControl then some value
  else none

def CommandHistoryEntry.identity (entry : CommandHistoryEntry) : List Char × Option (List Char) :=
  (entry.command, entry.sessionId.bind normalizeHistorySessionId)

/-- `clamp(0, now_ms.max(0))`. -/
def recordedTime (now recordedAt : Int) : Int := max 0 (min recordedAt (max now 0))

def CommandHistoryEntry.candidate (entry : CommandHistoryEntry) (now : Int) :
    CommandHistoryEntry where
  command := entry.command
  recordedAt := recordedTime now entry.recordedAt
  sessionId := entry.sessionId.bind normalizeHistorySessionId

def CommandHistoryEntry.unusable (entry : CommandHistoryEntry) : Bool :=
  (trimText entry.command).isEmpty || entry.command.contains '\x00' ||
    maxCommandHistoryCommandCharacters < entry.command.length

/-- What the loop of `normalized_command_history` carries. -/
structure HistoryScan where
  seen : List (List Char × Option (List Char))
  normalized : List CommandHistoryEntry
  bytes : Nat

def HistoryScan.start : HistoryScan := ⟨[], [], commandHistoryEmptySnapshotBytes⟩

def HistoryScan.entryBytes (scan : HistoryScan) (candidate : CommandHistoryEntry) : Nat :=
  utf8Length candidate.json + if scan.normalized.isEmpty then 0 else 1

def HistoryScan.push (scan : HistoryScan) (now : Int) (entry : CommandHistoryEntry) :
    HistoryScan where
  seen := entry.identity :: scan.seen
  normalized := scan.normalized ++ [entry.candidate now]
  bytes := scan.bytes + scan.entryBytes (entry.candidate now)

/-- The entries that `continue` passes over. -/
def HistoryScan.skips (scan : HistoryScan) (cutoff now : Int) (entry : CommandHistoryEntry) : Bool :=
  entry.unusable || scan.seen.contains entry.identity ||
    recordedTime now entry.recordedAt < cutoff ||
    maxCommandHistoryStorageBytes < scan.bytes + scan.entryBytes (entry.candidate now)

def normalizeHistoryEntries (limit : Nat) (cutoff now : Int) (scan : HistoryScan) :
    List CommandHistoryEntry → HistoryScan
  | [] => scan
  | entry :: rest =>
    if scan.skips cutoff now entry then normalizeHistoryEntries limit cutoff now scan rest
    else
      let scan := scan.push now entry
      if limit ≤ scan.normalized.length then scan
      else normalizeHistoryEntries limit cutoff now scan rest

def historyCutoff (retentionDays : Nat) (now : Int) : Int :=
  if retentionDays = 0 then i64Min
  else max i64Min (now - retentionDays * (24 * 60 * 60 * 1000))

def normalizedCommandHistory (entries : List CommandHistoryEntry) (limit retentionDays : Nat)
    (now : Int) : Except String (List CommandHistoryEntry) :=
  if limit < 1 || maxCommandHistoryEntries < limit then
    .error s!"command history limit must be between 1 and {maxCommandHistoryEntries}"
  else if maxCommandHistoryRetentionDays < retentionDays then
    .error s!"command history retention must be between 0 and {maxCommandHistoryRetentionDays} days"
  else
    .ok (normalizeHistoryEntries limit (historyCutoff retentionDays now) now .start
      (entries.take maxCommandHistoryInputEntries)).normalized

namespace CommandHistory

def replaceCommandHistory (history : CommandHistory) (entries : List CommandHistoryEntry)
    (limit retentionDays : Nat) (now : Int) :
    Except String (List CommandHistoryEntry) × CommandHistory :=
  match normalizedCommandHistory entries limit retentionDays now with
  | .error error => (.error error, history)
  | .ok normalized =>
    let changed := history.entries ≠ normalized || !history.migrated
    if changed && maxJavascriptSafeInteger ≤ history.revision then
      (.error "command history revision is exhausted; restart with a repaired Store", history)
    else
      (.ok normalized,
        { history with
          entries := normalized
          migrated := true
          revision := if changed then history.revision + 1 else history.revision })

def mergeCommandHistory (history : CommandHistory) (entries : List CommandHistoryEntry)
    (limit retentionDays : Nat) (now : Int) :
    Except String (List CommandHistoryEntry) × CommandHistory :=
  let merged := (entries ++ history.entries).mergeSort fun first second =>
    second.recordedAt ≤ first.recordedAt
  history.replaceCommandHistory merged limit retentionDays now

def recordCommandHistory (history : CommandHistory) (command : List Char)
    (sessionId : Option (List Char)) (limit retentionDays : Nat) (now : Int) :
    Except String (List CommandHistoryEntry) × CommandHistory :=
  match normalizedCommandHistory [⟨command, now, sessionId⟩] 1 0 now with
  | .error error => (.error error, history)
  | .ok [] =>
    (.error "command history entry is empty, invalid, or exceeds its character limit", history)
  | .ok (candidate :: _) =>
    let entries := ⟨command, now, candidate.sessionId⟩ :: history.entries.filter fun entry =>
      entry.command ≠ command || entry.sessionId ≠ candidate.sessionId
    history.replaceCommandHistory entries limit retentionDays now

def clearCommandHistory (history : CommandHistory) (now : Int) :
    Except String (List CommandHistoryEntry) × CommandHistory :=
  history.replaceCommandHistory [] maxCommandHistoryEntries 0 now

def shouldSkipEmptyMigration (history : CommandHistory) (entries : List CommandHistoryEntry) : Bool :=
  !history.migrated && history.entries.isEmpty && entries.isEmpty

/-- The command that imports the entries that the window kept; once migrated, the history that is
there is normalized. -/
def migrateCommandHistory (history : CommandHistory) (entries : List CommandHistoryEntry)
    (now : Int) : Except String (List CommandHistoryEntry) × CommandHistory :=
  if maxCommandHistoryEntries < entries.length then
    (.error s!"command history migration exceeds {maxCommandHistoryEntries} entries", history)
  else if !history.policy.enabled then (.ok [], history)
  else if history.shouldSkipEmptyMigration entries then
    (normalizedCommandHistory [] history.policy.limit history.policy.retentionDays now, history)
  else
    let source := if history.migrated then history.entries else entries
    history.replaceCommandHistory source history.policy.limit history.policy.retentionDays now

end CommandHistory

inductive HistoryOperation
  | record (command : List Char) (sessionId : Option (List Char)) (limit retentionDays : Nat)
  | merge (entries : List CommandHistoryEntry) (limit retentionDays : Nat)
  | replace (entries : List CommandHistoryEntry) (limit retentionDays : Nat)
  | clear
  | migrate (entries : List CommandHistoryEntry)

namespace HistoryOperation

def run (history : CommandHistory) (now : Int) :
    HistoryOperation → Except String (List CommandHistoryEntry) × CommandHistory
  | .record command sessionId limit retentionDays =>
    history.recordCommandHistory command sessionId limit retentionDays now
  | .merge entries limit retentionDays =>
    history.mergeCommandHistory entries limit retentionDays now
  | .replace entries limit retentionDays =>
    history.replaceCommandHistory entries limit retentionDays now
  | .clear => history.clearCommandHistory now
  | .migrate entries => history.migrateCommandHistory entries now

/-- The limit and the days that the operation normalizes with. -/
def bounds (history : CommandHistory) : HistoryOperation → Nat × Nat
  | .record _ _ limit retentionDays | .merge _ limit retentionDays
  | .replace _ limit retentionDays => (limit, retentionDays)
  | .clear => (maxCommandHistoryEntries, 0)
  | .migrate _ => (history.policy.limit, history.policy.retentionDays)

/-- An import while the history is off, or of nothing into nothing. -/
def skipped (history : CommandHistory) : HistoryOperation → Bool
  | .migrate entries => !history.policy.enabled || history.shouldSkipEmptyMigration entries
  | _ => false

end HistoryOperation

end PortMate
