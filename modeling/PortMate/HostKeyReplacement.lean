import PortMate.HostKeyTrust
import PortMate.Transducer

namespace PortMate

open List Except Or HostKeyProfile HostKeyStore

section Accepted

variable (fingerprintOf : String → Option String)

/-- The observation is the key that this record trusts, where the policy looks for it. -/
structure AcceptedThrough (keys : HostKeyStore) (profileId : String) (policy : HostKeyPolicy)
    (observation : HostKeyObservation) (key : TrustedHostKey) : Prop where
  candidate :
    key ∈ keys.candidates profileId policy (observation.targetAlias policy) observation
  algorithm : key.algorithm = observation.algorithm
  fingerprint : fingerprintOf observation.publicKeyBase64 = some key.fingerprintSha256

variable {fingerprintOf}

theorem evaluate_trusted_iff {keys : HostKeyStore} {profileId : String} {policy : HostKeyPolicy}
    {observation : HostKeyObservation} :
    (∃ id fingerprint, keys.evaluate fingerprintOf profileId policy observation =
      .ok (.trusted id fingerprint)) ↔
      ∃ key, AcceptedThrough fingerprintOf keys profileId policy observation key := by
  unfold evaluate
  cases known : fingerprintOf observation.publicKeyBase64 with
  | none =>
    constructor
    · rintro ⟨_, _, evaluated⟩
      cases evaluated
    · rintro ⟨key, accepted⟩
      cases known.symm.trans accepted.fingerprint
  | some fingerprint =>
    simp only
    split
    next trusted found =>
      have candidate := mem_of_find?_eq_some found
      have matching := find?_some found
      simp only [Bool.and_eq_true, decide_eq_true_eq] at matching
      refine ⟨fun _ => ⟨trusted, candidate, matching.1, ?_⟩, fun _ => ⟨_, _, rfl⟩⟩
      rw [known, matching.2]
    next missing =>
      constructor
      · rintro ⟨_, _, evaluated⟩
        split at evaluated
        · cases evaluated
        · split at evaluated <;> cases evaluated
      · rintro ⟨key, accepted⟩
        have none := find?_eq_none.mp missing key accepted.candidate
        have same := Option.some.inj (known.symm.trans accepted.fingerprint)
        simp [accepted.algorithm, same] at none

end Accepted

section Lookups

theorem mirrorKey_mem {key k : TrustedHostKey} {keys : List TrustedHostKey}
    (mem : k ∈ mirrorKey key keys) : k = key ∨ k ∈ keys := by
  induction keys with
  | nil => exact inl (mem_singleton.mp mem)
  | cons existing keys ih =>
    unfold mirrorKey at mem
    split at mem
    · exact (mem_cons.mp mem).imp_right fun later => .tail _ later
    · rcases mem_cons.mp mem with rfl | mem
      · exact inr (.head _)
      · exact (ih mem).imp_right fun later => .tail _ later

theorem mirrorKey_fresh {key : TrustedHostKey} {keys : List TrustedHostKey}
    (fresh : ∀ k ∈ keys, k.id ≠ key.id) : mirrorKey key keys = keys ++ [key] := by
  induction keys with
  | nil => rfl
  | cons existing keys ih =>
    rw [mirrorKey, if_neg (fresh existing (.head _)),
      ih fun k mem => fresh k (.tail _ mem)]
    rfl

theorem editProfile_mem {profileId : String} {edit : HostKeyProfile → HostKeyProfile}
    {profiles : List HostKeyProfile} {profile : HostKeyProfile}
    (mem : profile ∈ editProfile profileId edit profiles) :
    profile ∈ profiles ∨ ∃ before ∈ profiles, profile = edit before := by
  induction profiles with
  | nil => exact absurd mem not_mem_nil
  | cons first profiles ih =>
    unfold editProfile at mem
    split at mem
    · rcases mem_cons.mp mem with rfl | mem
      · exact inr ⟨first, .head _, rfl⟩
      · exact inl (.tail _ mem)
    · rcases mem_cons.mp mem with rfl | mem
      · exact inl (.head _)
      · rcases ih mem with there | ⟨before, there, same⟩
        · exact inl (.tail _ there)
        · exact inr ⟨before, .tail _ there, same⟩

theorem find_editProfile {profileId : String} {edit : HostKeyProfile → HostKeyProfile}
    (kept : ∀ profile, (edit profile).id = profile.id) (profiles : List HostKeyProfile) :
    (editProfile profileId edit profiles).find? (fun profile => profile.id = profileId) =
      (profiles.find? fun profile => profile.id = profileId).map edit := by
  induction profiles with
  | nil => rfl
  | cons first profiles ih =>
    unfold editProfile
    split
    next here => simp [kept, here]
    next other => simp [other, ih]

namespace TrustStore

theorem profile_mapMirrors (store : TrustStore) (edit : List TrustedHostKey → List TrustedHostKey)
    (profileId : String) :
    (store.mapMirrors edit).profile profileId =
      (store.profile profileId).map (mapMirror edit) := by
  unfold profile mapMirrors
  rw [find?_map]
  rfl

theorem mirror_mapMirror (profile : HostKeyProfile)
    (edit : List TrustedHostKey → List TrustedHostKey) (nothing : edit [] = []) :
    (profile.mapMirror edit).mirror = edit profile.mirror := by
  unfold mapMirror HostKeyProfile.mirror
  cases profile.ssh with
  | none => exact nothing.symm
  | some ssh => rfl

def mirrorOf (store : TrustStore) (profileId : String) : List TrustedHostKey :=
  ((store.profile profileId).map (·.mirror)).getD []

theorem mirrorOf_mapMirrors (store : TrustStore) {edit : List TrustedHostKey → List TrustedHostKey}
    (nothing : edit [] = []) (profileId : String) :
    (store.mapMirrors edit).mirrorOf profileId = edit (store.mirrorOf profileId) := by
  unfold mirrorOf
  rw [profile_mapMirrors]
  cases store.profile profileId with
  | none => exact nothing.symm
  | some profile => exact mirror_mapMirror profile edit nothing

theorem mirrorPersistentHostKey_ok {store after : TrustStore} {key : TrustedHostKey}
    (mirrored : store.mirrorPersistentHostKey key = .ok after) :
    ∃ profileId, key.profileId = some profileId ∧ after.hostKeys = store.hostKeys ∧
      after.profiles =
        editProfile profileId (mapMirror (mirrorKey key)) store.profiles ∧
      after.mirrorOf profileId = mirrorKey key (store.mirrorOf profileId) := by
  unfold mirrorPersistentHostKey at mirrored
  split at mirrored
  next => cases mirrored
  next profileId given =>
    split at mirrored
    next => cases mirrored
    next profile found =>
      split at mirrored
      next => cases mirrored
      next backed =>
        cases ok.inj mirrored
        refine ⟨profileId, given, rfl, rfl, ?_⟩
        have edited := @find_editProfile profileId (mapMirror (mirrorKey key))
          (fun _ => rfl) store.profiles
        unfold TrustStore.profile at found
        unfold mirrorOf TrustStore.profile
        rw [edited, found]
        unfold mapMirror HostKeyProfile.mirror
        cases ssh : profile.ssh with
        | none => simp [ssh] at backed
        | some trust => simp [ssh]

end TrustStore

end Lookups

open TrustStore

section Replacement

variable {fingerprintOf : String → Option String}

variable {policy : HostKeyPolicy} {observation : HostKeyObservation} {profileId newId : String}

theorem applyDecision_ok {keys after : HostKeyStore} {decision : HostKeyDecision} {now : DateTime}
    {trusted : Option TrustedHostKey}
    (applied : keys.applyDecision fingerprintOf profileId policy observation decision newId now = .ok (after, trusted)) :
    (trusted = none ∧ after = keys) ∨
      ∃ key kept, trusted = some key ∧ after.keys = kept ++ [key] ∧ kept.Sublist keys.keys ∧
        key.id = newId ∧ (decision = .replaceForProfile →
          key.hostAlias = observation.targetAlias policy ∧ key.port = observation.port ∧
          key.algorithm = observation.algorithm ∧ key.profileId = some profileId ∧
          key.scope = .profile ∧
          kept = keys.keys.filter fun old =>
            !HostKeyStore.replaces profileId key.hostAlias key.port key.algorithm old) := by
  unfold applyDecision makeTrustedKey at applied
  cases known : fingerprintOf observation.publicKeyBase64 with
  | none =>
    cases decision with
    | trustOnce =>
      obtain ⟨rfl, rfl⟩ := Prod.mk.inj (ok.inj applied)
      exact inl ⟨rfl, rfl⟩
    | _ => simp [known] at applied
  | some fingerprint =>
    cases decision with
    | trustOnce =>
      obtain ⟨rfl, rfl⟩ := Prod.mk.inj (ok.inj applied)
      exact inl ⟨rfl, rfl⟩
    | reject => cases applied
    | appendToProfile =>
      simp only [known] at applied
      obtain ⟨rfl, rfl⟩ := Prod.mk.inj (ok.inj applied)
      exact inr ⟨_, _, rfl, rfl, .refl _, rfl, nofun⟩
    | appendToProject =>
      simp only [known] at applied
      obtain ⟨rfl, rfl⟩ := Prod.mk.inj (ok.inj applied)
      exact inr ⟨_, _, rfl, rfl, .refl _, rfl, nofun⟩
    | replaceForProfile =>
      simp only [known] at applied
      obtain ⟨rfl, rfl⟩ := Prod.mk.inj (ok.inj applied)
      exact inr ⟨_, _, rfl, rfl, filter_sublist, rfl,
        fun _ => ⟨rfl, rfl, rfl, rfl, rfl, rfl⟩⟩

theorem mem_removedIds {previous retained : HostKeyStore} {id : String} :
    id ∈ removedIds previous retained ↔
      (∃ key ∈ previous.keys, key.id = id) ∧ ∀ key ∈ retained.keys, key.id ≠ id := by
  unfold removedIds
  simp only [mem_filter, mem_map, Bool.not_eq_true', contains_eq_mem,
    decide_eq_false_iff_not, not_exists, not_and]

structure Decided (store after : TrustStore) (key : TrustedHostKey) (kept : List TrustedHostKey)
    (profileId : String) : Prop where
  owner : key.profileId = some profileId
  keys : after.hostKeys.keys = kept ++ [key]
  profiles : after.profiles = editProfile profileId (mapMirror (mirrorKey key))
    (store.profiles.map (mapMirror (List.filter fun old =>
      !(removedIds store.hostKeys ⟨kept ++ [key]⟩).contains old.id)))
  mirror : after.mirrorOf profileId = mirrorKey key ((store.mirrorOf profileId).filter fun old =>
    !(removedIds store.hostKeys ⟨kept ++ [key]⟩).contains old.id)

theorem applyPersistentHostKeyDecision_ok {store after : TrustStore} {decision : HostKeyDecision}
    {now : DateTime} {trusted : Option TrustedHostKey}
    (applied : store.applyPersistentHostKeyDecision fingerprintOf profileId policy observation decision newId now = .ok (after, trusted)) :
    (trusted = none ∧ after.hostKeys = store.hostKeys ∧
        after.profiles = store.profiles.map (mapMirror (List.filter fun old =>
          !(removedIds store.hostKeys store.hostKeys).contains old.id))) ∨
      ∃ key kept owner, trusted = some key ∧ Decided store after key kept owner ∧
        kept.Sublist store.hostKeys.keys ∧ key.id = newId ∧ (decision = .replaceForProfile →
          owner = profileId ∧ key.scope = .profile ∧
          kept = store.hostKeys.keys.filter fun old =>
            !HostKeyStore.replaces profileId key.hostAlias key.port key.algorithm old) := by
  unfold applyPersistentHostKeyDecision at applied
  split at applied
  next => cases applied
  next hostKeys given decided =>
    rcases applyDecision_ok decided with ⟨rfl, rfl⟩ | ⟨key, kept, rfl, keys, sub, fresh, replaced⟩
    · obtain ⟨rfl, rfl⟩ := Prod.mk.inj (ok.inj applied)
      exact inl ⟨rfl, rfl, rfl⟩
    · have same : hostKeys = ⟨kept ++ [key]⟩ := by
        rw [← keys]
      subst same
      simp only at applied
      split at applied
      next => cases applied
      next mirrored given =>
        obtain ⟨rfl, same⟩ := Prod.mk.inj (ok.inj applied)
        subst same
        obtain ⟨owner, owned, hostKeys, profiles, mirror⟩ :=
          mirrorPersistentHostKey_ok given
        refine inr ⟨key, kept, owner, rfl, ⟨owned, ?_, profiles, ?_⟩, sub, fresh, ?_⟩
        · rw [hostKeys]
          rfl
        · rw [mirror, mirrorOf_mapMirrors _ rfl]
          rfl
        · intro replacing
          obtain ⟨_, _, _, given, scope, filtered⟩ := replaced replacing
          exact ⟨Option.some.inj (owned.symm.trans given), scope, filtered⟩

variable (fingerprintOf)

/-- The connections of the profile take no other key for this one through a record of the profile. -/
def OnlyReplacement (store : TrustStore) (profileId : String) (policy : HostKeyPolicy)
    (key : TrustedHostKey) : Prop :=
  ∀ observation other, observation.targetAlias policy = key.hostAlias →
    observation.port = key.port → observation.algorithm = key.algorithm →
    other.scope = .profile →
    AcceptedThrough fingerprintOf (store.connectHostKeys profileId []) profileId policy
      observation other →
    other.fingerprintSha256 = key.fingerprintSha256

/-- Some public key has the fingerprint of the record. -/
def Presentable (key : TrustedHostKey) : Prop :=
  ∃ publicKey, fingerprintOf publicKey = some key.fingerprintSha256

/-- The store has the record under its id, and every record with that id is replaced. -/
def ReplacedInStore (store : TrustStore) (profileId hostAlias : String) (port : Nat)
    (algorithm : String) (key : TrustedHostKey) : Prop :=
  (∃ old ∈ store.hostKeys.keys, old.id = key.id) ∧
    ∀ old ∈ store.hostKeys.keys, old.id = key.id →
      HostKeyStore.replaces profileId hostAlias port algorithm old = true

variable {fingerprintOf}

theorem mem_candidates {keys : HostKeyStore} {profileId hostAlias : String} {key : TrustedHostKey}
    (scope : key.scope = .profile) :
    key ∈ keys.candidates profileId policy hostAlias observation ↔
      key ∈ keys.keys ∧ key.hostAlias = hostAlias ∧ key.port = observation.port ∧
        (policy.checkIp = true → key.host = observation.host) ∧ key.profileId = some profileId := by
  unfold candidates
  simp only [mem_filter, scope, Bool.and_eq_true, decide_eq_true_eq, Bool.or_eq_true,
    Bool.not_eq_true', and_assoc]
  cases policy.checkIp <;> simp

/-- After a replacement the profile's records trust the new key alone just where its mirror held no
other record for the same target, but such as the store replaced under the same id. -/
theorem onlyReplacement_iff {store after : TrustStore} {now : DateTime} {key : TrustedHostKey}
    (freshMirror : ∀ old ∈ store.mirrorOf profileId, old.id ≠ newId)
    (applied : store.applyPersistentHostKeyDecision fingerprintOf profileId policy observation .replaceForProfile newId now = .ok (after, some key))
    (connectPolicy : HostKeyPolicy) :
    OnlyReplacement fingerprintOf after profileId connectPolicy key ↔
      ∀ old ∈ store.mirrorOf profileId, old.scope = .profile →
        HostKeyStore.replaces profileId key.hostAlias key.port key.algorithm old = true →
        Presentable fingerprintOf old →
        old.fingerprintSha256 = key.fingerprintSha256 ∨
          ReplacedInStore store profileId key.hostAlias key.port key.algorithm old := by
  rcases applyPersistentHostKeyDecision_ok applied with ⟨none, -⟩ |
    ⟨_, kept, owner, same, decided, -, keyId, replaced⟩
  · cases none
  cases Option.some.inj same
  obtain ⟨rfl, scope, rfl⟩ := replaced rfl
  have removed : ∀ old ∈ store.mirrorOf owner, old.id ∈ removedIds store.hostKeys
      ⟨(store.hostKeys.keys.filter fun old =>
        !HostKeyStore.replaces owner key.hostAlias key.port key.algorithm old) ++ [key]⟩ ↔
      ReplacedInStore store owner key.hostAlias key.port key.algorithm old := by
    intro old mem
    rw [mem_removedIds]
    refine and_congr_right fun _ => ⟨fun gone listed there same => ?_, fun all listed there same => ?_⟩
    · by_contra retained
      refine gone listed (mem_append_left _ (mem_filter.mpr ⟨there, ?_⟩)) same
      simpa using retained
    · rcases mem_append.mp there with retained | new
      · obtain ⟨inStore, keeps⟩ := mem_filter.mp retained
        rw [all listed inStore same] at keeps
        cases keeps
      · cases mem_singleton.mp new
        exact freshMirror old mem (same.symm.trans keyId)
  have mirror : after.mirrorOf owner = (store.mirrorOf owner).filter (fun old =>
      !(removedIds store.hostKeys ⟨(store.hostKeys.keys.filter fun old =>
        !HostKeyStore.replaces owner key.hostAlias key.port key.algorithm old) ++ [key]⟩).contains
          old.id) ++ [key] := by
    rw [decided.mirror, mirrorKey_fresh]
    intro old mem
    rw [keyId]
    exact freshMirror old (mem_filter.mp mem).1
  have connect : (after.connectHostKeys owner []).keys =
      after.hostKeys.keys ++ after.mirrorOf owner := append_nil _
  constructor
  · intro only old mem profileScope target presentable
    obtain ⟨publicKey, fingerprint⟩ := presentable
    by_contra other
    obtain ⟨different, inStore⟩ := not_or.mp other
    simp only [HostKeyStore.replaces, Bool.and_eq_true, decide_eq_true_eq] at target
    obtain ⟨⟨⟨owned, sameAlias⟩, samePort⟩, sameAlgorithm⟩ := target
    refine different (only ⟨old.host, key.port, some key.hostAlias, key.algorithm, publicKey⟩ old
      rfl rfl rfl profileScope ⟨?_, sameAlgorithm, fingerprint⟩)
    rw [mem_candidates profileScope, connect, mirror]
    refine ⟨?_, sameAlias, samePort, fun _ => rfl, owned⟩
    refine mem_append_right _ (mem_append_left _ (mem_filter.mpr ⟨mem, ?_⟩))
    have stays := fun gone => inStore ((removed old mem).mp gone)
    simpa using stays
  · intro mirrored observation other sameAlias samePort sameAlgorithm profileScope accepted
    obtain ⟨there, target, port, -, owned⟩ := (mem_candidates profileScope).mp accepted.candidate
    have replaces : HostKeyStore.replaces owner key.hostAlias key.port key.algorithm other = true := by
      simp [HostKeyStore.replaces, owned, target, port, sameAlias, samePort, accepted.algorithm,
        sameAlgorithm]
    rw [connect, decided.keys, mirror] at there
    rcases mem_append.mp there with inStore | inMirror
    · rcases mem_append.mp inStore with retained | new
      · have keeps := (mem_filter.mp retained).2
        rw [replaces] at keeps
        cases keeps
      · rw [mem_singleton.mp new]
    · rcases mem_append.mp inMirror with retained | new
      · obtain ⟨mem, stays⟩ := mem_filter.mp retained
        rcases mirrored other mem profileScope replaces ⟨_, accepted.fingerprint⟩ with same | gone
        · exact same
        · have gone := (removed other mem).mpr gone
          simp [gone] at stays
      · rw [mem_singleton.mp new]

end Replacement

end PortMate
