import Mathlib.Data.List.Basic

namespace PortMate

/-- A `DateTime<Utc>` as microseconds from the epoch. -/
abbrev DateTime := Int

inductive SessionKind
  | ssh | serial | shell | telnet | tcp | tmux
  deriving DecidableEq

inductive SessionStatus
  | disconnected | connecting | connected | reconnecting | blocked | error
  deriving DecidableEq

inductive EventDirection
  | inbound | outbound | system
  deriving DecidableEq

inductive EventStream
  | stdout | stderr | control | audit
  deriving DecidableEq

structure SessionProfile where
  id : String
  name : String
  kind : SessionKind
  group : String
  tags : List String
  deriving DecidableEq

structure SessionRuntime where
  sessionId : String
  paneId : String
  status : SessionStatus
  title : String
  cwd : Option String
  connectedSince : Option DateTime
  lastActivity : DateTime
  lastDisconnect : Option DateTime
  lastDisconnectReason : Option String
  activeTransport : SessionKind
  deriving DecidableEq

/-- A `BTreeMap<String, String>`: pairs in key order, each key once. -/
abbrev Details := List (String × String)

def Details.insert (details : Details) (key value : String) : Details :=
  match details with
  | [] => [(key, value)]
  | (k, v) :: rest =>
    if key < k then (key, value) :: (k, v) :: rest
    else if key = k then (key, value) :: rest
    else (k, v) :: Details.insert rest key value

structure SessionEvent where
  id : String
  sessionId : String
  paneId : String
  ts : DateTime
  direction : EventDirection
  stream : EventStream
  bytesRef : Option String
  text : Option String
  annotations : Details
  deriving DecidableEq

structure TimelineMark where
  id : String
  sessionId : String
  ts : DateTime
  label : String
  details : Option String
  deriving DecidableEq

structure SysmonSnapshot where
  sessionId : String
  ts : DateTime
  uptimeSeconds : Nat
  deriving DecidableEq

inductive TransferProtocol
  | sftp | scp | tftp | xmodem | ymodem | zmodem
  deriving DecidableEq

inductive TransferStatus
  | queued | running | completed | failed | cancelled
  deriving DecidableEq

structure TransferTask where
  id : String
  sessionId : String
  protocol : TransferProtocol
  source : String
  destination : String
  bytesTotal : Nat
  bytesDone : Nat
  status : TransferStatus
  message : Option String
  startedAt : Option DateTime
  finishedAt : Option DateTime
  deriving DecidableEq

inductive HostKeyScope
  | profile | project | user
  deriving DecidableEq

structure TrustedHostKey where
  id : String
  profileId : Option String
  hostAlias : String
  host : String
  port : Nat
  algorithm : String
  fingerprintSha256 : String
  publicKeyBase64 : String
  scope : HostKeyScope
  label : Option String
  firstSeen : DateTime
  lastSeen : DateTime
  deriving DecidableEq

structure HostKeyStore where
  keys : List TrustedHostKey
  deriving DecidableEq

inductive IdentitySource
  | profileVault | systemFile | agent | publicKeyOnly
  deriving DecidableEq

structure IdentityRef where
  id : String
  label : String
  source : IdentitySource
  fingerprintSha256 : Option String
  path : Option String
  secretRef : Option String
  deriving DecidableEq

inductive OneKeyKind
  | account | ssh
  deriving DecidableEq

structure OneKeyIdentity where
  sourceProfileId : String
  identity : IdentityRef
  deriving DecidableEq

structure OneKeyCredential where
  id : String
  label : String
  kind : OneKeyKind
  username : String
  passwordSecretRef : Option String
  passphraseSecretRef : Option String
  identity : Option OneKeyIdentity
  sessionIds : List String
  createdAt : DateTime
  updatedAt : DateTime
  deriving DecidableEq

inductive McpScope
  | readSessions | readLogs | readTransfers | readTunnels | readScripts | readMcp
  | writeInput | transfer | hostFiles | tunnel | manageSessions | runScripts | manageMcp
  deriving DecidableEq

structure McpGrant where
  clientId : String
  name : String
  scopes : List McpScope
  allowedSessions : List String
  confirmWrites : Bool
  expiresAt : Option DateTime
  revokedAt : Option DateTime
  deriving DecidableEq

structure HostScriptConfig where
  allowedClientIds : List String
  deriving DecidableEq

structure CustomScript where
  id : String
  name : String
  description : String
  content : String
  host : HostScriptConfig
  mcpEnabled : Bool
  createdAt : DateTime
  updatedAt : DateTime
  deriving DecidableEq

structure AuditRecord where
  id : String
  ts : DateTime
  actor : String
  action : String
  sessionId : Option String
  decision : String
  details : Details
  deriving DecidableEq

/-- A screen of the runtime cache: the parser is shared between clones, so the value is its handle. -/
structure TerminalScreen where
  parser : Nat
  resetAt : DateTime
  deriving DecidableEq

/-- The store without its system event sink, which all clones share. -/
structure SessionStore where
  profiles : List SessionProfile
  runtimes : List SessionRuntime
  events : List SessionEvent
  transfers : List TransferTask
  oneKeys : List OneKeyCredential
  customScripts : List CustomScript
  hostKeys : HostKeyStore
  grants : List McpGrant
  audit : List AuditRecord
  timeline : List TimelineMark
  sysmon : List SysmonSnapshot
  eventCounts : List (String × Nat)
  terminalScreens : List (String × TerminalScreen)
  deriving DecidableEq

def SessionStore.default : SessionStore where
  profiles := []
  runtimes := []
  events := []
  transfers := []
  oneKeys := []
  customScripts := []
  hostKeys := ⟨[]⟩
  grants := []
  audit := []
  timeline := []
  sysmon := []
  eventCounts := []
  terminalScreens := []

end PortMate
