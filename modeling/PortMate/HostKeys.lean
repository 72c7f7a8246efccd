import PortMate.RustText
import PortMate.SessionModels

namespace PortMate

open String

inductive HostKeyMode
  | strict | trustOnFirstUse | askEveryTime
  deriving DecidableEq

structure HostKeyPolicy where
  mode : HostKeyMode
  hostAlias : Option String
  trustScope : HostKeyScope
  allowRotation : Bool
  checkIp : Bool
  deriving DecidableEq

inductive HostKeyDecision
  | trustOnce | appendToProfile | appendToProject | replaceForProfile | reject
  deriving DecidableEq

structure HostKeyObservation where
  host : String
  port : Nat
  hostAlias : Option String
  algorithm : String
  publicKeyBase64 : String
  deriving DecidableEq

def HostKeyObservation.targetAlias (observation : HostKeyObservation) (policy : HostKeyPolicy) :
    String :=
  (observation.hostAlias.or policy.hostAlias).getD observation.host

inductive HostKeyEvaluation
  | trusted (matchedKeyId fingerprintSha256 : String)
  | unknown (hostAlias host : String) (port : Nat) (algorithm fingerprintSha256 reason : String)
  | mismatch (hostAlias host : String) (port : Nat) (algorithm : String)
      (expected : List TrustedHostKey) (observedFingerprintSha256 reason : String)
  deriving DecidableEq

/-- The line of a known_hosts file: its hosts, the algorithm and the key. -/
structure KnownHostsLine where
  hosts : List (List Char)
  algorithm : List Char
  publicKeyBase64 : List Char

/-- `split_whitespace`. -/
def splitWhitespace (text : List Char) : List (List Char) :=
  (text.splitOnP isRustWhitespace).filter fun word => !word.isEmpty

def KnownHostsLine.parse (line : List Char) : Option KnownHostsLine :=
  match splitWhitespace line with
  | hosts :: algorithm :: publicKeyBase64 :: _ =>
    if hosts.head? = some '#' || hosts.head? = some '|' then none
    else some ⟨hosts.splitOn ',', algorithm, publicKeyBase64⟩
  | _ => none

/-- `parse::<u16>()`. -/
def parseU16 (text : List Char) : Option Nat :=
  (parseUsize text).filter (· < 65536)

/-- `split_once("]:")`. -/
def splitBracketPort : List Char → Option (List Char × List Char)
  | ']' :: ':' :: rest => some ([], rest)
  | c :: rest => (splitBracketPort rest).map fun (front, rest) => (c :: front, rest)
  | [] => none

def splitKnownHost (host : List Char) : Option (List Char × Nat) :=
  match host with
  | '[' :: rest =>
    match splitBracketPort rest with
    | some (name, port) =>
      match (parseU16 port).filter (· ≠ 0) with
      | some port => if name.isEmpty then none else some (name, port)
      | none => none
    | none => none
  | [] => none
  | _ => some (host, 22)

section HostKeys

-- `compute_ssh_sha256_fingerprint`: nothing for a key that is not valid base64.
variable (fingerprintOf : String → Option String)

namespace HostKeyStore

def candidates (store : HostKeyStore) (profileId : String) (policy : HostKeyPolicy)
    (hostAlias : String) (observation : HostKeyObservation) : List TrustedHostKey :=
  store.keys.filter fun key =>
    key.hostAlias = hostAlias && key.port = observation.port &&
      (!policy.checkIp || key.host = observation.host) &&
      match key.scope with
      | .profile => key.profileId = some profileId
      | .project => policy.trustScope = .project || policy.trustScope = .profile
      | .user => true

def evaluate (store : HostKeyStore) (profileId : String) (policy : HostKeyPolicy)
    (observation : HostKeyObservation) : Except String HostKeyEvaluation :=
  match fingerprintOf observation.publicKeyBase64 with
  | none => .error "host key is not valid base64"
  | some fingerprint =>
    let hostAlias := observation.targetAlias policy
    let candidates := store.candidates profileId policy hostAlias observation
    match candidates.find? fun key =>
        key.algorithm = observation.algorithm && key.fingerprintSha256 = fingerprint with
    | some trusted => .ok (.trusted trusted.id fingerprint)
    | none =>
      let sameAlgorithm := candidates.filter (·.algorithm = observation.algorithm)
      if sameAlgorithm.isEmpty then
        .ok (.unknown hostAlias observation.host observation.port observation.algorithm fingerprint
          "no trusted key exists for this alias and algorithm")
      else if policy.allowRotation then
        .ok (.unknown hostAlias observation.host observation.port observation.algorithm fingerprint
          "alias key rotated; policy allows re-trusting it like a first meeting")
      else
        .ok (.mismatch hostAlias observation.host observation.port observation.algorithm
          sameAlgorithm fingerprint "same alias and algorithm already has a different host key")

def makeTrustedKey (profileId : String) (policy : HostKeyPolicy) (observation : HostKeyObservation)
    (scope : HostKeyScope) (newId : String) (now : DateTime) : Except String TrustedHostKey :=
  match fingerprintOf observation.publicKeyBase64 with
  | none => .error "host key is not valid base64"
  | some fingerprint => .ok
    { id := newId
      profileId := some profileId
      hostAlias := observation.targetAlias policy
      host := observation.host
      port := observation.port
      algorithm := observation.algorithm
      fingerprintSha256 := fingerprint
      publicKeyBase64 := observation.publicKeyBase64
      scope := scope
      label := none
      firstSeen := now
      lastSeen := now }

def replaces (profileId hostAlias : String) (port : Nat) (algorithm : String)
    (key : TrustedHostKey) : Bool :=
  key.profileId = some profileId && key.hostAlias = hostAlias && key.port = port &&
    key.algorithm = algorithm

def applyDecision (store : HostKeyStore) (profileId : String) (policy : HostKeyPolicy)
    (observation : HostKeyObservation) (decision : HostKeyDecision) (newId : String)
    (now : DateTime) : Except String (HostKeyStore × Option TrustedHostKey) :=
  let append (keys : List TrustedHostKey) (scope : HostKeyScope) :=
    match makeTrustedKey fingerprintOf profileId policy observation scope newId now with
    | .error error => .error error
    | .ok key => .ok (⟨keys ++ [key]⟩, some key)
  match decision with
  | .reject => .error "host key decision rejected the observed key"
  | .trustOnce => .ok (store, none)
  | .appendToProfile => append store.keys .profile
  | .appendToProject => append store.keys .project
  | .replaceForProfile =>
    append (store.keys.filter fun key =>
      !replaces profileId (observation.targetAlias policy) observation.port observation.algorithm
        key) .profile

/-- The hosts that the text of a known_hosts file names, each with its line and fingerprint. -/
def importedHosts (contents : List Char) : List (KnownHostsLine × String × List Char × Nat) :=
  ((contents.splitOn '\n').filterMap KnownHostsLine.parse).flatMap fun line =>
    match fingerprintOf (ofList line.publicKeyBase64) with
    | none => []
    | some fingerprint =>
      (line.hosts.filterMap splitKnownHost).map fun host => (line, fingerprint, host)

def importedKey (profileId : String) (now : DateTime) (newId : String)
    (entry : KnownHostsLine × String × List Char × Nat) : TrustedHostKey where
  id := newId
  profileId := some profileId
  hostAlias := ofList entry.2.2.1
  host := ofList entry.2.2.1
  port := entry.2.2.2
  algorithm := ofList entry.1.algorithm
  fingerprintSha256 := entry.2.1
  publicKeyBase64 := ofList entry.1.publicKeyBase64
  scope := .profile
  label := some "imported known_hosts"
  firstSeen := now
  lastSeen := now

/-- Every new key takes the next of the given ids. -/
def importKnownHosts (store : HostKeyStore) (profileId : String) (contents : List Char)
    (newIds : Nat → String) (now : DateTime) : HostKeyStore where
  keys := store.keys ++ (importedHosts fingerprintOf contents).mapIdx fun index entry =>
    importedKey profileId now (newIds index) entry

end HostKeyStore

end HostKeys

end PortMate
