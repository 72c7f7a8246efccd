import PortMate.HostKeys

namespace PortMate

structure JumpHop where
  host : String
  port : Nat
  hostKeyPolicy : Option HostKeyPolicy
  deriving DecidableEq

/-- What of an SSH connection bears on host keys. -/
structure SshTrust where
  endpointHost : String
  endpointPort : Nat
  jumps : List JumpHop
  hostKeyPolicy : HostKeyPolicy
  trustedHostKeys : List TrustedHostKey
  deriving DecidableEq

/-- A profile; without `ssh` it is not SSH-backed. -/
structure HostKeyProfile where
  id : String
  ssh : Option SshTrust
  deriving DecidableEq

structure TrustStore where
  hostKeys : HostKeyStore
  profiles : List HostKeyProfile
  deriving DecidableEq

namespace HostKeyProfile

def mapMirror (edit : List TrustedHostKey → List TrustedHostKey) (profile : HostKeyProfile) :
    HostKeyProfile :=
  { profile with
    ssh := profile.ssh.map fun ssh => { ssh with trustedHostKeys := edit ssh.trustedHostKeys } }

def mirror (profile : HostKeyProfile) : List TrustedHostKey :=
  (profile.ssh.map (·.trustedHostKeys)).getD []

end HostKeyProfile

/-- The first key with the id is overwritten; without one the key is added. -/
def mirrorKey (key : TrustedHostKey) : List TrustedHostKey → List TrustedHostKey
  | [] => [key]
  | existing :: keys =>
    if existing.id = key.id then key :: keys else existing :: mirrorKey key keys

def editProfile (profileId : String) (edit : HostKeyProfile → HostKeyProfile) :
    List HostKeyProfile → List HostKeyProfile
  | [] => []
  | profile :: profiles =>
    if profile.id = profileId then edit profile :: profiles
    else profile :: editProfile profileId edit profiles

structure HostKeyUpdateRequest where
  keyId : String
  expectedKey : TrustedHostKey
  profileId : Option String
  hostAlias : String
  host : String
  port : Nat
  scope : HostKeyScope
  label : Option String

/-- One field of `merge_expected_json_value`. -/
def mergeField {α : Type} [DecidableEq α] (field : String) (expected current incoming : α) :
    Except String α :=
  if incoming = expected then .ok current
  else if current = expected ∨ incoming = current then .ok incoming
  else .error s!"Host Key 字段已被其他操作修改，请刷新后重试: hostKey.{field}"

/-- `trim` and no empty text. -/
def filledText (text : Option String) : Option String :=
  (text.map rustTrim).filter (· ≠ "")

/-- `apply_host_key_editable_fields`. -/
def applyHostKeyEditableFields (target source : TrustedHostKey) : TrustedHostKey :=
  { target with
    profileId := source.profileId
    hostAlias := source.hostAlias
    host := source.host
    port := source.port
    scope := source.scope
    label := source.label }

/-- The fields that an update does not change come out as the current key has them. -/
def mergeExpectedHostKeyUpdate (current expected incoming : TrustedHostKey) :
    Except String TrustedHostKey := do
  if current.id ≠ incoming.id ∨ expected.id ≠ incoming.id then
    throw "expectedKey 与更新目标不是同一个 host key"
  let profileId ← mergeField "profileId" expected.profileId current.profileId incoming.profileId
  let hostAlias ← mergeField "alias" expected.hostAlias current.hostAlias incoming.hostAlias
  let host ← mergeField "host" expected.host current.host incoming.host
  let port ← mergeField "port" expected.port current.port incoming.port
  let scope ← mergeField "scope" expected.scope current.scope incoming.scope
  let label ← mergeField "label" expected.label current.label incoming.label
  return { current with profileId, hostAlias, host, port, scope, label }

def jumpHostKeyPolicy (ssh : SshTrust) (jump : JumpHop) : HostKeyPolicy :=
  let defaultAlias := s!"jump:{rustTrim jump.host}:{jump.port}"
  let policy := jump.hostKeyPolicy.getD
    { ssh.hostKeyPolicy with hostAlias := some defaultAlias, trustScope := .profile }
  { policy with hostAlias := some ((filledText policy.hostAlias).getD defaultAlias) }

/-- The policy of the target or of the first jump host that the observation is of. -/
def hostKeyScanPolicyForObservation (profileId : String) (ssh : SshTrust)
    (observation : HostKeyObservation) : Option HostKeyPolicy :=
  let targetAlias := ssh.hostKeyPolicy.hostAlias.getD profileId
  if observation.host = ssh.endpointHost ∧ observation.port = ssh.endpointPort ∧
      observation.hostAlias = some targetAlias then
    some ssh.hostKeyPolicy
  else
    (ssh.jumps.find? fun jump =>
      observation.host = jump.host && observation.port = jump.port &&
        observation.hostAlias = (jumpHostKeyPolicy ssh jump).hostAlias).map (jumpHostKeyPolicy ssh)

inductive SshHostKeyVerification
  | standard | reconnectIgnoreChanges
  deriving DecidableEq

section Trust

variable (fingerprintOf : String → Option String)

namespace TrustStore

def profile (store : TrustStore) (profileId : String) : Option HostKeyProfile :=
  store.profiles.find? fun profile => profile.id = profileId

def mapMirrors (store : TrustStore) (edit : List TrustedHostKey → List TrustedHostKey) :
    TrustStore :=
  { store with profiles := store.profiles.map (HostKeyProfile.mapMirror edit) }

def mirrorPersistentHostKey (store : TrustStore) (key : TrustedHostKey) :
    Except String TrustStore :=
  match key.profileId with
  | none => .error s!"host key {key.id} has no source Profile"
  | some profileId =>
    match store.profile profileId with
    | none => .error s!"unknown session: {profileId}"
    | some profile =>
      if profile.ssh.isNone then .error s!"profile is not SSH-backed: {profileId}"
      else .ok { store with
        profiles := editProfile profileId (HostKeyProfile.mapMirror (mirrorKey key)) store.profiles }

def mirrorPersistentHostKeys (store : TrustStore) (keys : List TrustedHostKey) :
    Except String TrustStore :=
  keys.foldlM mirrorPersistentHostKey store

/-- The ids that no key of the store has any more. -/
def removedIds (previous retained : HostKeyStore) : List String :=
  (previous.keys.map (·.id)).filter fun id => !(retained.keys.map (·.id)).contains id

/-- `apply_persistent_host_key_decision_with_policy`, on a copy of the store. -/
def applyPersistentHostKeyDecision (store : TrustStore) (profileId : String)
    (policy : HostKeyPolicy) (observation : HostKeyObservation) (decision : HostKeyDecision)
    (newId : String) (now : DateTime) : Except String (TrustStore × Option TrustedHostKey) :=
  match store.hostKeys.applyDecision fingerprintOf profileId policy observation decision newId
      now with
  | .error error => .error error
  | .ok (hostKeys, trusted) =>
    let removed := removedIds store.hostKeys hostKeys
    let next := { store with hostKeys := hostKeys }.mapMirrors
      (List.filter fun key => !removed.contains key.id)
    match trusted with
    | none => .ok (next, none)
    | some key =>
      match next.mirrorPersistentHostKey key with
      | .error error => .error error
      | .ok mirrored => .ok (mirrored, some key)

def deleteHostKeysFromStore (store : TrustStore) (keyIds : List String) : TrustStore :=
  { store with hostKeys := ⟨store.hostKeys.keys.filter fun key => !keyIds.contains key.id⟩ }.mapMirrors
    (List.filter fun key => !keyIds.contains key.id)

/-- `import_known_hosts`: the new keys are those behind the ones that were there. -/
def importKnownHosts (store : TrustStore) (profileId : String) (contents : List Char)
    (newIds : Nat → String) (now : DateTime) : Except String TrustStore :=
  if (store.profile profileId).isNone then .error s!"unknown session: {profileId}"
  else
    let hostKeys := store.hostKeys.importKnownHosts fingerprintOf profileId contents newIds now
    mirrorPersistentHostKeys { store with hostKeys := hostKeys }
      (hostKeys.keys.drop store.hostKeys.keys.length)

def editKey (keyId : String) (edit : TrustedHostKey → TrustedHostKey) :
    List TrustedHostKey → List TrustedHostKey
  | [] => []
  | key :: keys => if key.id = keyId then edit key :: keys else key :: editKey keyId edit keys

def updateHostKeyInStore (store : TrustStore) (request : HostKeyUpdateRequest) :
    Except String TrustStore :=
  let hostAlias := rustTrim request.hostAlias
  let host := rustTrim request.host
  if request.expectedKey.id ≠ request.keyId then
    .error "expectedKey 与更新目标不是同一个 host key"
  else if hostAlias = "" then .error "host key alias 不能为空"
  else if host = "" then .error "host key host 不能为空"
  else if request.port = 0 then .error "host key 端口必须在 1-65535 之间"
  else
    match store.hostKeys.keys.find? fun key => key.id = request.keyId with
    | none => .error s!"unknown host key: {request.keyId}"
    | some currentKey =>
      match mergeExpectedHostKeyUpdate currentKey request.expectedKey
          { request.expectedKey with
            profileId := filledText request.profileId
            hostAlias := hostAlias
            host := host
            port := request.port
            scope := request.scope
            label := filledText request.label } with
      | .error error => .error error
      | .ok merged =>
        if merged.scope = .profile ∧ merged.profileId = none then
          .error "Profile scope host key 必须选择 Profile"
        else
          match merged.profileId.filter fun profileId => (store.profile profileId).isNone with
          | some profileId => .error s!"unknown session: {profileId}"
          | none => .ok ({ store with
              hostKeys := ⟨editKey request.keyId (applyHostKeyEditableFields · merged)
                store.hostKeys.keys⟩ }.mapMirrors
            (List.map fun key =>
              if key.id = request.keyId then applyHostKeyEditableFields key merged else key))

/-- `upsert_profile`: the profile as it comes out of normalization and merging. -/
def upsertProfile (store : TrustStore) (profile : HostKeyProfile) : TrustStore :=
  { store with
    profiles :=
      if (store.profile profile.id).isSome then
        editProfile profile.id (fun _ => profile) store.profiles
      else store.profiles ++ [profile] }

/-- The host keys that a connection of the profile is checked against, one-time keys last. -/
def connectHostKeys (store : TrustStore) (profileId : String) (oneTime : List TrustedHostKey) :
    HostKeyStore where
  keys := store.hostKeys.keys ++ ((store.profile profileId).map (·.mirror)).getD [] ++ oneTime

end TrustStore

/-- `prepare_scanned_host_key_draft`: the decision is taken on the keys of the profile alone, and the
profile with the keys that come out is not saved yet. -/
def prepareScannedHostKeyDraft (profile : HostKeyProfile) (observation : HostKeyObservation)
    (decision : HostKeyDecision) (newId : String) (now : DateTime) :
    Except String HostKeyProfile :=
  if decision ≠ .appendToProfile ∧ decision ≠ .replaceForProfile then
    .error "会话设置草稿只支持 Profile 范围的 Host Key 信任"
  else
    match profile.ssh with
    | none => .error s!"Profile {profile.id} 不是 SSH/Tmux 会话"
    | some ssh =>
      match hostKeyScanPolicyForObservation profile.id ssh observation with
      | none => .error "Host Key 扫描结果与当前 SSH 目标或 Jump Host 不匹配，请重新扫描"
      | some policy =>
        match HostKeyStore.applyDecision fingerprintOf ⟨ssh.trustedHostKeys⟩ profile.id policy
            observation decision newId now with
        | .error error => .error error
        | .ok (_, none) => .error "Host Key 草稿决策未生成持久信任记录"
        | .ok (keys, some _) =>
          .ok { profile with ssh := some { ssh with trustedHostKeys := keys.keys } }

/-- The certificate suffix of a host key algorithm. -/
def isHostCertificate (algorithm : String) : Bool :=
  "-cert-v01@openssh.com".toList.isSuffixOf algorithm.toList

def SshHostKeyVerification.ignoresChange (verification : SshHostKeyVerification)
    (profileId : String) (policy : HostKeyPolicy) (hostKeys : HostKeyStore)
    (observation : HostKeyObservation) (evaluation : HostKeyEvaluation) : Bool :=
  verification = .reconnectIgnoreChanges && !isHostCertificate observation.algorithm &&
    (match evaluation with
    | .trusted .. => false
    | _ => true) &&
    !(hostKeys.candidates profileId policy (observation.targetAlias policy) observation).isEmpty

def describeHostKeyRejection : HostKeyEvaluation → String
  | .trusted _ _ => "SSH host key 已受信任"
  | .unknown hostAlias _ port algorithm fingerprint _ =>
    s!"SSH host key 未受信任: alias={hostAlias}:{port}, algorithm={algorithm}, fingerprint={fingerprint}"
  | .mismatch hostAlias _ port algorithm expected observed _ =>
    let expected := ", ".intercalate (expected.map (·.fingerprintSha256))
    s!"SSH host key 已变化，已阻断: alias={hostAlias}:{port}, algorithm={algorithm}, observed={observed}, expected=[{expected}]"

/-- `verify_ssh_host_key_observation`. -/
def verifySshHostKeyObservation (profileId : String) (policy : HostKeyPolicy)
    (hostKeys : HostKeyStore) (oneTimeHostKeyIds : List String) (observation : HostKeyObservation)
    (verification : SshHostKeyVerification) : Except String Unit :=
  if isHostCertificate observation.algorithm then
    .error "SSH host certificates are not supported by the configured host-key policy"
  else
    match hostKeys.evaluate fingerprintOf profileId policy observation with
    | .error error => .error s!"host key fingerprint 计算失败: {error}"
    | .ok evaluation =>
      if verification.ignoresChange profileId policy hostKeys observation evaluation then .ok ()
      else
        match evaluation with
        | .trusted matchedKeyId fingerprint =>
          if policy.mode ≠ .askEveryTime ∨ matchedKeyId ∈ oneTimeHostKeyIds then .ok ()
          else
            .error s!"SSH host key requires confirmation for this connection: {fingerprint}"
        | .unknown .. =>
          if policy.mode = .trustOnFirstUse then .ok ()
          else .error (describeHostKeyRejection evaluation)
        | .mismatch .. => .error (describeHostKeyRejection evaluation)

end Trust

end PortMate
