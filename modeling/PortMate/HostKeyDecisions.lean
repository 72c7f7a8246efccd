import PortMate.HostKeyReplacement

namespace PortMate

open List Bool

namespace HostKeyStore

/-- The store without the keys that a replacement takes out. -/
def withoutReplaced (store : HostKeyStore) (profileId : String) (policy : HostKeyPolicy)
    (observation : HostKeyObservation) : HostKeyStore where
  keys := store.keys.filter fun key =>
    !replaces profileId (observation.targetAlias policy) observation.port observation.algorithm key

section Decisions

variable (fingerprintOf : String → Option String)

/-- A new key is made and goes behind the others. -/
def pushTrustedKey (store : HostKeyStore) (profileId : String) (policy : HostKeyPolicy)
    (observation : HostKeyObservation) (scope : HostKeyScope) (newId : String) (now : DateTime) :
    HostKeyStore × Except String (Option TrustedHostKey) :=
  match makeTrustedKey fingerprintOf profileId policy observation scope newId now with
  | .error error => (store, .error error)
  | .ok key => (⟨store.keys ++ [key]⟩, .ok (some key))

/-- `apply_decision` on the store in place: a replacement has taken the old keys out when it comes to
the new one. -/
def applyDecisionInPlace (store : HostKeyStore) (profileId : String) (policy : HostKeyPolicy)
    (observation : HostKeyObservation) (decision : HostKeyDecision) (newId : String)
    (now : DateTime) : HostKeyStore × Except String (Option TrustedHostKey) :=
  match decision with
  | .reject => (store, .error "host key decision rejected the observed key")
  | .trustOnce => (store, .ok none)
  | .appendToProfile =>
    store.pushTrustedKey fingerprintOf profileId policy observation .profile newId now
  | .appendToProject =>
    store.pushTrustedKey fingerprintOf profileId policy observation .project newId now
  | .replaceForProfile =>
    (store.withoutReplaced profileId policy observation).pushTrustedKey fingerprintOf profileId
      policy observation .profile newId now

variable {fingerprintOf}

theorem applyDecision_eq (store : HostKeyStore) (profileId : String) (policy : HostKeyPolicy)
    (observation : HostKeyObservation) (decision : HostKeyDecision) (newId : String)
    (now : DateTime) :
    store.applyDecision fingerprintOf profileId policy observation decision newId now =
      match store.applyDecisionInPlace fingerprintOf profileId policy observation decision newId now
        with
      | (_, .error error) => .error error
      | (after, .ok trusted) => .ok (after, trusted) := by
  unfold applyDecision applyDecisionInPlace pushTrustedKey
  cases decision with
  | reject => rfl
  | trustOnce => rfl
  | appendToProfile =>
    dsimp only
    cases makeTrustedKey fingerprintOf profileId policy observation .profile newId now <;> rfl
  | appendToProject =>
    dsimp only
    cases makeTrustedKey fingerprintOf profileId policy observation .project newId now <;> rfl
  | replaceForProfile =>
    dsimp only
    cases makeTrustedKey fingerprintOf profileId policy observation .profile newId now <;> rfl

theorem pushTrustedKey_unreadable {store : HostKeyStore} {profileId newId : String}
    {policy : HostKeyPolicy} {observation : HostKeyObservation} {scope : HostKeyScope}
    {now : DateTime} (unreadable : fingerprintOf observation.publicKeyBase64 = none) :
    store.pushTrustedKey fingerprintOf profileId policy observation scope newId now =
      (store, .error "host key is not valid base64") := by
  unfold pushTrustedKey makeTrustedKey
  rw [unreadable]

theorem pushTrustedKey_readable {store : HostKeyStore} {profileId newId fingerprint : String}
    {policy : HostKeyPolicy} {observation : HostKeyObservation} {scope : HostKeyScope}
    {now : DateTime} (readable : fingerprintOf observation.publicKeyBase64 = some fingerprint) :
    ∃ key, store.pushTrustedKey fingerprintOf profileId policy observation scope newId now =
        (⟨store.keys ++ [key]⟩, .ok (some key)) ∧
      key.profileId = some profileId ∧ key.hostAlias = observation.targetAlias policy ∧
      key.host = observation.host ∧ key.port = observation.port ∧
      key.algorithm = observation.algorithm ∧ key.fingerprintSha256 = fingerprint ∧
      key.scope = scope := by
  unfold pushTrustedKey makeTrustedKey
  rw [readable]
  exact ⟨_, rfl, rfl, rfl, rfl, rfl, rfl, rfl, rfl⟩

theorem withoutReplaced_eq_iff {store : HostKeyStore} {profileId : String} {policy : HostKeyPolicy}
    {observation : HostKeyObservation} :
    store.withoutReplaced profileId policy observation = store ↔
      ∀ key ∈ store.keys, replaces profileId (observation.targetAlias policy) observation.port
        observation.algorithm key = false := by
  obtain ⟨keys⟩ := store
  unfold withoutReplaced
  rw [HostKeyStore.mk.injEq, filter_eq_self]
  simp only [not_eq_true']

variable (fingerprintOf)

/-- A failed decision leaves the store alone, but a replacement by a key that cannot be read has
removed the keys that it was to replace. -/
theorem failed_decision_keeps_store_iff (store : HostKeyStore) (profileId : String)
    (policy : HostKeyPolicy) (observation : HostKeyObservation) (decision : HostKeyDecision)
    (newId : String) (now : DateTime) :
    (∀ error, (store.applyDecisionInPlace fingerprintOf profileId policy observation decision newId
        now).2 = .error error →
      (store.applyDecisionInPlace fingerprintOf profileId policy observation decision newId now).1 =
        store) ↔
    (decision = .replaceForProfile → fingerprintOf observation.publicKeyBase64 = none →
      ∀ key ∈ store.keys, replaces profileId (observation.targetAlias policy) observation.port
        observation.algorithm key = false) := by
  unfold applyDecisionInPlace
  cases readable : fingerprintOf observation.publicKeyBase64 with
  | none =>
    have pushed : ∀ (left : HostKeyStore) scope, left.pushTrustedKey fingerprintOf profileId policy
        observation scope newId now = (left, .error "host key is not valid base64") :=
      fun _ _ => pushTrustedKey_unreadable readable
    cases decision with
    | replaceForProfile =>
      dsimp only
      rw [pushed, ← withoutReplaced_eq_iff]
      exact ⟨fun atomic _ _ => atomic _ rfl, fun harmless _ _ => harmless rfl rfl⟩
    | appendToProfile =>
      dsimp only
      rw [pushed]
      exact ⟨fun _ => nofun, fun _ _ _ => rfl⟩
    | appendToProject =>
      dsimp only
      rw [pushed]
      exact ⟨fun _ => nofun, fun _ _ _ => rfl⟩
    | _ => exact ⟨fun _ => nofun, fun _ _ _ => rfl⟩
  | some fingerprint =>
    have pushed : ∀ (left : HostKeyStore) scope error, (left.pushTrustedKey fingerprintOf profileId
        policy observation scope newId now).2 ≠ .error error := by
      intro left scope error failed
      obtain ⟨key, given, -⟩ := @pushTrustedKey_readable fingerprintOf left profileId newId fingerprint
        policy observation scope now readable
      rw [given] at failed
      cases failed
    refine ⟨fun _ _ => nofun, fun _ error failed => ?_⟩
    cases decision with
    | reject => rfl
    | trustOnce => cases failed
    | _ => exact absurd failed (pushed _ _ error)

def bmcPolicyFor (trustScope : HostKeyScope) : HostKeyPolicy :=
  ⟨.strict, none, trustScope, false, false⟩

def bmcSeen (publicKey : String) : HostKeyObservation :=
  ⟨"bmc.lab", 22, some "bmc", "ssh-ed25519", publicKey⟩

/-- One valid public key with its fingerprint; the others cannot be read. -/
def oneFingerprint (publicKey : String) : Option String :=
  if publicKey = "YWJj" then some "SHA256:ungWv48Bz+pBQUDeXa4iI7ADYaOWF3qctBD/YfIAFa0" else none

/-- A replacement by a key that is not base64 fails, and the trusted key is gone. -/
theorem failed_replacement_removes_key :
    let store := (applyDecisionInPlace oneFingerprint ⟨[]⟩ "bmc" (bmcPolicyFor .profile)
      (bmcSeen "YWJj") .appendToProfile "k1" 1).1
    store.keys.length = 1 ∧
      store.applyDecisionInPlace oneFingerprint "bmc" (bmcPolicyFor .profile) (bmcSeen "%")
        .replaceForProfile "k2" 2 = (⟨[]⟩, .error "host key is not valid base64") := by
  decide

end Decisions

section Law

variable (fingerprintOf : String → Option String)

/-- The records that a connection of the profile under the policy looks at. -/
structure Visible (profileId : String) (policy : HostKeyPolicy) (observation : HostKeyObservation)
    (key : TrustedHostKey) : Prop where
  hostAlias : key.hostAlias = observation.targetAlias policy
  port : key.port = observation.port
  host : policy.checkIp = true → key.host = observation.host
  profile : key.scope = .profile → key.profileId = some profileId
  project : key.scope = .project → policy.trustScope ≠ .user

variable {fingerprintOf}

variable {policy : HostKeyPolicy} {observation : HostKeyObservation} {store : HostKeyStore}
  {profileId : String}

theorem mem_candidates_iff {key : TrustedHostKey} :
    key ∈ store.candidates profileId policy (observation.targetAlias policy) observation ↔
      key ∈ store.keys ∧ Visible profileId policy observation key := by
  unfold candidates
  rw [mem_filter]
  refine and_congr_right fun _ => ?_
  rw [and_eq_true, and_eq_true, and_eq_true]
  refine (and_congr_right (c := (key.scope = .profile → key.profileId = some profileId) ∧
    (key.scope = .project → policy.trustScope ≠ .user)) fun _ => ?_).trans ?_
  · cases key.scope <;> cases policy.trustScope <;> simp
  constructor
  · rintro ⟨⟨⟨hostAlias, port⟩, host⟩, profile, project⟩
    refine ⟨of_decide_eq_true hostAlias, of_decide_eq_true port, fun checks => ?_, profile, project⟩
    simpa [checks] using host
  · rintro ⟨hostAlias, port, host, profile, project⟩
    refine ⟨⟨⟨decide_eq_true hostAlias, decide_eq_true port⟩, ?_⟩, profile, project⟩
    cases checks : policy.checkIp with
    | false => rfl
    | true => simpa using host checks

/-- The record has the algorithm and the fingerprint of the observation. -/
structure Matches (fingerprintOf : String → Option String) (observation : HostKeyObservation)
    (key : TrustedHostKey) : Prop where
  algorithm : key.algorithm = observation.algorithm
  fingerprint : fingerprintOf observation.publicKeyBase64 = some key.fingerprintSha256

theorem acceptedThrough_iff {key : TrustedHostKey} :
    AcceptedThrough fingerprintOf store profileId policy observation key ↔
      key ∈ store.keys ∧ Visible profileId policy observation key ∧
        Matches fingerprintOf observation key := by
  constructor
  · rintro ⟨candidate, algorithm, fingerprint⟩
    obtain ⟨mem, visible⟩ := mem_candidates_iff.mp candidate
    exact ⟨mem, visible, algorithm, fingerprint⟩
  · rintro ⟨mem, visible, algorithm, fingerprint⟩
    exact ⟨mem_candidates_iff.mpr ⟨mem, visible⟩, algorithm, fingerprint⟩

theorem evaluate_trusted_iff_visible :
    (∃ id fingerprint, store.evaluate fingerprintOf profileId policy observation =
      .ok (.trusted id fingerprint)) ↔
      ∃ key ∈ store.keys, Visible profileId policy observation key ∧
        Matches fingerprintOf observation key := by
  rw [evaluate_trusted_iff]
  exact exists_congr fun key => acceptedThrough_iff

theorem evaluate_mismatch {hostAlias host algorithm fingerprint reason : String} {port : Nat}
    {expected : List TrustedHostKey}
    (evaluated : store.evaluate fingerprintOf profileId policy observation = .ok (.mismatch hostAlias host port algorithm expected fingerprint reason)) :
    (∃ key ∈ store.keys, Visible profileId policy observation key ∧
        key.algorithm = observation.algorithm) ∧
      (∀ key ∈ store.keys, Visible profileId policy observation key →
        ¬ Matches fingerprintOf observation key) ∧
      policy.allowRotation = false := by
  have untrusted : ¬ ∃ id fingerprint, store.evaluate fingerprintOf profileId policy observation =
      .ok (.trusted id fingerprint) := by
    rintro ⟨_, _, trusted⟩
    cases evaluated.symm.trans trusted
  rw [evaluate_trusted_iff_visible] at untrusted
  have nobody : ∀ key ∈ store.keys, Visible profileId policy observation key →
      ¬ Matches fingerprintOf observation key :=
    fun key mem visible matching => untrusted ⟨key, mem, visible, matching⟩
  unfold evaluate at evaluated
  split at evaluated
  · cases evaluated
  · dsimp only at evaluated
    split at evaluated
    · cases evaluated
    · split at evaluated
      next => cases evaluated
      next others =>
        split at evaluated
        next => cases evaluated
        next fixed =>
          obtain ⟨key, mem⟩ := exists_mem_of_ne_nil _ fun empty =>
            others (List.isEmpty_iff.mpr empty)
          obtain ⟨candidate, algorithm⟩ := mem_filter.mp mem
          obtain ⟨stored, visible⟩ := mem_candidates_iff.mp candidate
          exact ⟨⟨key, stored, visible, of_decide_eq_true algorithm⟩, nobody,
            not_eq_true _ ▸ fixed⟩

theorem applyDecision_new {store after : HostKeyStore} {profileId newId : String}
    {decision : HostKeyDecision} {now : DateTime} {trusted : Option TrustedHostKey}
    (lasting : decision ≠ .trustOnce)
    (applied : store.applyDecision fingerprintOf profileId policy observation decision newId now = .ok (after, trusted)) :
    ∃ key ∈ after.keys, Matches fingerprintOf observation key ∧
      (Visible profileId policy observation key ↔
        (decision = .appendToProject → policy.trustScope ≠ .user)) ∧
      (decision = .appendToProject → key.scope = .project ∧ after.keys = store.keys ++ [key]) := by
  rw [applyDecision_eq] at applied
  unfold applyDecisionInPlace at applied
  cases readable : fingerprintOf observation.publicKeyBase64 with
  | none =>
    have pushed : ∀ (left : HostKeyStore) scope, left.pushTrustedKey fingerprintOf profileId policy
        observation scope newId now = (left, .error "host key is not valid base64") :=
      fun _ _ => pushTrustedKey_unreadable readable
    cases decision with
    | reject => cases applied
    | trustOnce => exact absurd rfl lasting
    | _ =>
      dsimp only at applied
      rw [pushed] at applied
      cases applied
  | some fingerprint =>
    have pushed := fun (left : HostKeyStore) scope => @pushTrustedKey_readable fingerprintOf left
      profileId newId fingerprint policy observation scope now readable
    have ofProfile : ∀ {key : TrustedHostKey}, key.profileId = some profileId →
        key.hostAlias = observation.targetAlias policy → key.host = observation.host →
        key.port = observation.port → key.scope = .profile →
        Visible profileId policy observation key := by
      intro key owner hostAlias host port scope
      refine ⟨hostAlias, port, fun _ => host, fun _ => owner, fun project => ?_⟩
      cases scope.symm.trans project
    cases decision with
    | reject => cases applied
    | trustOnce => exact absurd rfl lasting
    | appendToProfile =>
      obtain ⟨key, made, owner, hostAlias, host, port, algorithm, same, scope⟩ := pushed store .profile
      dsimp only at applied
      rw [made] at applied
      obtain ⟨rfl, -⟩ := Prod.mk.inj (Except.ok.inj applied)
      refine ⟨key, mem_append_right _ (.head _), ⟨algorithm, same ▸ readable⟩, ?_, nofun⟩
      exact ⟨fun _ => nofun, fun _ => ofProfile owner hostAlias host port scope⟩
    | replaceForProfile =>
      obtain ⟨key, made, owner, hostAlias, host, port, algorithm, same, scope⟩ :=
        pushed (store.withoutReplaced profileId policy observation) .profile
      dsimp only at applied
      rw [made] at applied
      obtain ⟨rfl, -⟩ := Prod.mk.inj (Except.ok.inj applied)
      refine ⟨key, mem_append_right _ (.head _), ⟨algorithm, same ▸ readable⟩, ?_, nofun⟩
      exact ⟨fun _ => nofun, fun _ => ofProfile owner hostAlias host port scope⟩
    | appendToProject =>
      obtain ⟨key, made, owner, hostAlias, host, port, algorithm, same, scope⟩ := pushed store .project
      dsimp only at applied
      rw [made] at applied
      obtain ⟨rfl, -⟩ := Prod.mk.inj (Except.ok.inj applied)
      refine ⟨key, mem_append_right _ (.head _), ⟨algorithm, same ▸ readable⟩, ?_,
        fun _ => ⟨scope, rfl⟩⟩
      exact ⟨fun visible _ => visible.project scope,
        fun seen => ⟨hostAlias, port, fun _ => host, fun _ => owner, fun _ => seen rfl⟩⟩

variable (fingerprintOf)

/-- A decision that lasts makes the observed key trusted, but that for the project under a policy that
trusts the user's scope alone, after which the key is trusted if it was before. -/
theorem host_key_law (store : HostKeyStore) (profileId : String) (policy : HostKeyPolicy)
    (observation : HostKeyObservation) :
    ((∃ id fingerprint, store.evaluate fingerprintOf profileId policy observation =
        .ok (.trusted id fingerprint)) ↔
      ∃ key ∈ store.keys, Visible profileId policy observation key ∧
        Matches fingerprintOf observation key) ∧
    (∀ hostAlias host port algorithm expected fingerprint reason,
      store.evaluate fingerprintOf profileId policy observation =
        .ok (.mismatch hostAlias host port algorithm expected fingerprint reason) →
      (∃ key ∈ store.keys, Visible profileId policy observation key ∧
          key.algorithm = observation.algorithm) ∧
        (∀ key ∈ store.keys, Visible profileId policy observation key →
          ¬ Matches fingerprintOf observation key) ∧
        policy.allowRotation = false) ∧
    (∀ decision newId now after trusted, decision ≠ .trustOnce →
      store.applyDecision fingerprintOf profileId policy observation decision newId now =
        .ok (after, trusted) →
      ((decision = .appendToProject → policy.trustScope ≠ .user) →
        ∃ id fingerprint, after.evaluate fingerprintOf profileId policy observation =
          .ok (.trusted id fingerprint)) ∧
      (decision = .appendToProject → policy.trustScope = .user →
        ((∃ id fingerprint, after.evaluate fingerprintOf profileId policy observation =
            .ok (.trusted id fingerprint)) ↔
          ∃ id fingerprint, store.evaluate fingerprintOf profileId policy observation =
            .ok (.trusted id fingerprint)))) := by
  refine ⟨evaluate_trusted_iff_visible, fun _ _ _ _ _ _ _ => evaluate_mismatch, ?_⟩
  intro decision newId now after trusted lasting applied
  obtain ⟨key, mem, matching, visible, project⟩ := applyDecision_new lasting applied
  constructor
  · intro seen
    exact evaluate_trusted_iff_visible.mpr ⟨key, mem, visible.mpr seen, matching⟩
  · intro forProject userOnly
    obtain ⟨-, keys⟩ := project forProject
    rw [evaluate_trusted_iff_visible, evaluate_trusted_iff_visible, keys]
    constructor
    · rintro ⟨other, there, seen, same⟩
      rcases mem_append.mp there with before | new
      · exact ⟨other, before, seen, same⟩
      · cases mem_singleton.mp new
        exact absurd userOnly (visible.mp seen forProject)
    · rintro ⟨other, before, seen, same⟩
      exact ⟨other, mem_append_left _ before, seen, same⟩

def bmcProjectKey : TrustedHostKey :=
  ⟨"k1", some "bmc", "bmc", "bmc.lab", 22, "ssh-ed25519",
    "SHA256:ungWv48Bz+pBQUDeXa4iI7ADYaOWF3qctBD/YfIAFa0", "YWJj", .project, none, 1, 1⟩

theorem project_key_trusted :
    ∃ id fingerprint, evaluate oneFingerprint ⟨[bmcProjectKey]⟩ "bmc" (bmcPolicyFor .project)
      (bmcSeen "YWJj") = .ok (.trusted id fingerprint) :=
  ((host_key_law oneFingerprint ⟨[]⟩ "bmc" (bmcPolicyFor .project) (bmcSeen "YWJj")).2.2
    .appendToProject "k1" 1 ⟨[bmcProjectKey]⟩ (some bmcProjectKey) (by decide) (by decide)).1
      (fun _ => by decide)

/-- A key that was added to the project is unknown to the user scope policy that added it. -/
theorem project_key_unseen :
    applyDecision oneFingerprint ⟨[]⟩ "bmc" (bmcPolicyFor .user) (bmcSeen "YWJj") .appendToProject
        "k1" 1 = .ok (⟨[bmcProjectKey]⟩, some bmcProjectKey) ∧
      evaluate oneFingerprint ⟨[bmcProjectKey]⟩ "bmc" (bmcPolicyFor .user) (bmcSeen "YWJj") =
        .ok (.unknown "bmc" "bmc.lab" 22 "ssh-ed25519"
          "SHA256:ungWv48Bz+pBQUDeXa4iI7ADYaOWF3qctBD/YfIAFa0"
          "no trusted key exists for this alias and algorithm") := by
  decide

end Law

end HostKeyStore

end PortMate
