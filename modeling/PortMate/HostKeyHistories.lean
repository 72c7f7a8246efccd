import Mathlib.Data.List.Nodup
import PortMate.HostKeyReplacement

namespace PortMate

open List HostKeyProfile HostKeyStore TrustStore

/-- The commands that change host keys or profiles, with the ids and times that they take. A scan
that is kept as a draft reaches the store in the profile that a later `save` carries. -/
inductive HostKeyEvent
  | decide (profileId : String) (policy : HostKeyPolicy) (observation : HostKeyObservation)
      (decision : HostKeyDecision) (newId : String) (now : DateTime)
  | save (profile : HostKeyProfile)
  | update (request : HostKeyUpdateRequest)
  | delete (keyIds : List String)
  | importKnownHosts (profileId : String) (contents : List Char) (newIds : Nat → String)
      (now : DateTime)

/-- A replacement that succeeded, and the store after it. -/
structure HostKeyReplacement where
  profileId : String
  key : TrustedHostKey
  after : TrustStore
  deriving DecidableEq

section Histories

variable (fingerprintOf : String → Option String)

/-- A command that fails leaves the store as it was. -/
def hostKeyStep (store : TrustStore) : HostKeyEvent → TrustStore × List HostKeyReplacement
  | .decide profileId policy observation decision newId now =>
    match store.applyPersistentHostKeyDecision fingerprintOf profileId policy observation decision
        newId now with
    | .error _ => (store, [])
    | .ok (after, none) => (after, [])
    | .ok (after, some key) =>
      (after, if decision = .replaceForProfile then [⟨profileId, key, after⟩] else [])
  | .save profile => (store.upsertProfile profile, [])
  | .update request => ((store.updateHostKeyInStore request).toOption.getD store, [])
  | .delete keyIds => (store.deleteHostKeysFromStore keyIds, [])
  | .importKnownHosts profileId contents newIds now =>
    ((store.importKnownHosts fingerprintOf profileId contents newIds now).toOption.getD store, [])

def hostKeyCommands : Transducer TrustStore HostKeyEvent HostKeyReplacement where
  step := hostKeyStep fingerprintOf

structure SameTarget (stored mirrored : TrustedHostKey) : Prop where
  id : stored.id = mirrored.id
  profileId : stored.profileId = mirrored.profileId
  hostAlias : stored.hostAlias = mirrored.hostAlias
  port : stored.port = mirrored.port
  algorithm : stored.algorithm = mirrored.algorithm

/-- Every key that the profile mirrors is in the store. -/
def MirrorsStore (keys : List TrustedHostKey) (profile : HostKeyProfile) : Prop :=
  ∀ mirrored ∈ profile.mirror, ∃ stored ∈ keys, SameTarget stored mirrored

structure Mirrored (store : TrustStore) : Prop where
  ids : (store.hostKeys.keys.map (·.id)).Nodup
  copies : ∀ profile ∈ store.profiles, MirrorsStore store.hostKeys.keys profile

/-- The ids that a command makes are in the store neither as keys nor as copies. -/
def NewIds (store : TrustStore) : HostKeyEvent → Prop
  | .decide _ _ _ _ newId _ =>
    newId ∉ store.hostKeys.keys.map (·.id) ∧
      ∀ profile ∈ store.profiles, newId ∉ profile.mirror.map (·.id)
  | .importKnownHosts _ _ newIds _ =>
    Function.Injective newIds ∧ ∀ index, newIds index ∉ store.hostKeys.keys.map (·.id)
  | _ => True

/-- A saved profile mirrors no key that the store does not have. -/
def KeepsMirrors (store : TrustStore) (event : HostKeyEvent) : Prop :=
  NewIds store event ∧ ∀ profile, event = .save profile → MirrorsStore store.hostKeys.keys profile

variable {fingerprintOf}

theorem SameTarget.refl (key : TrustedHostKey) : SameTarget key key := ⟨rfl, rfl, rfl, rfl, rfl⟩

variable {keys : List TrustedHostKey} {key : TrustedHostKey} {profile : HostKeyProfile}

theorem MirrorsStore.mirrorKey (mirrors : MirrorsStore keys profile) (listed : key ∈ keys) :
    MirrorsStore keys (profile.mapMirror (PortMate.mirrorKey key)) := by
  intro mirrored mem
  unfold mapMirror mirror at mem
  cases backed : profile.ssh with
  | none => simp [backed] at mem
  | some ssh =>
    rw [backed] at mem
    rcases mirrorKey_mem mem with rfl | there
    · exact ⟨mirrored, listed, .refl _⟩
    · refine mirrors mirrored ?_
      rw [mirror, backed]
      exact there

theorem MirrorsStore.filter {keep : TrustedHostKey → Bool}
    (mirrors : ∀ mirrored ∈ profile.mirror, keep mirrored = true → ∃ stored ∈ keys, SameTarget stored mirrored) :
    MirrorsStore keys (profile.mapMirror (List.filter keep)) := by
  intro mirrored mem
  rw [mirror_mapMirror profile _ rfl] at mem
  obtain ⟨there, kept⟩ := mem_filter.mp mem
  exact mirrors mirrored there kept

variable {store after : TrustStore}

theorem Mirrored.mirrorPersistentHostKey (mirrored : Mirrored store)
    (listed : key ∈ store.hostKeys.keys) (done : store.mirrorPersistentHostKey key = .ok after) :
    Mirrored after ∧ after.hostKeys = store.hostKeys := by
  obtain ⟨owner, -, hostKeys, profiles, -⟩ := mirrorPersistentHostKey_ok done
  refine ⟨⟨hostKeys ▸ mirrored.ids, ?_⟩, hostKeys⟩
  intro profile mem
  rw [profiles] at mem
  rw [hostKeys]
  rcases editProfile_mem mem with there | ⟨before, there, rfl⟩
  · exact mirrored.copies profile there
  · exact (mirrored.copies before there).mirrorKey listed

theorem Mirrored.mirrorPersistentHostKeys (mirrored : Mirrored store)
    (listed : ∀ key ∈ keys, key ∈ store.hostKeys.keys)
    (done : store.mirrorPersistentHostKeys keys = .ok after) : Mirrored after := by
  induction keys generalizing store with
  | nil =>
    cases Except.ok.inj done
    exact mirrored
  | cons key keys ih =>
    unfold TrustStore.mirrorPersistentHostKeys at done
    rw [foldlM_cons] at done
    obtain ⟨next, first, rest⟩ := except_bind_eq_ok done
    obtain ⟨still, same⟩ := mirrored.mirrorPersistentHostKey (listed key (.head _)) first
    exact ih still (fun other mem => same ▸ listed other (.tail _ mem)) rest

theorem Mirrored.mirrorOf {store : TrustStore} (mirrored : Mirrored store) (profileId : String) :
    ∀ old ∈ store.mirrorOf profileId, ∃ stored ∈ store.hostKeys.keys, SameTarget stored old := by
  intro old mem
  unfold TrustStore.mirrorOf TrustStore.profile at mem
  cases found : store.profiles.find? fun profile => profile.id = profileId with
  | none => simp [found] at mem
  | some profile =>
    rw [found] at mem
    exact mirrored.copies profile (mem_of_find?_eq_some found) old mem

theorem same_of_id (ids : (keys.map (·.id)).Nodup) {one two : TrustedHostKey} (first : one ∈ keys)
    (second : two ∈ keys) (same : one.id = two.id) : one = two :=
  inj_on_of_nodup_map ids first second same

theorem Mirrored.decide {profileId newId : String} {policy : HostKeyPolicy}
    {observation : HostKeyObservation} {decision : HostKeyDecision} {now : DateTime}
    {trusted : Option TrustedHostKey} (mirrored : Mirrored store)
    (fresh : newId ∉ store.hostKeys.keys.map (·.id))
    (applied : store.applyPersistentHostKeyDecision fingerprintOf profileId policy observation decision newId now = .ok (after, trusted)) :
    Mirrored after := by
  rcases applyPersistentHostKeyDecision_ok applied with ⟨-, hostKeys, profiles⟩ |
    ⟨key, kept, owner, -, decided, sub, keyId, -⟩
  · refine ⟨hostKeys ▸ mirrored.ids, fun profile mem => ?_⟩
    rw [profiles] at mem
    obtain ⟨before, there, rfl⟩ := mem_map.mp mem
    rw [hostKeys]
    exact .filter fun old inMirror _ => mirrored.copies before there old inMirror
  have new : ∀ old ∈ store.hostKeys.keys, old.id ≠ key.id := by
    intro old mem same
    exact fresh (mem_map.mpr ⟨old, mem, same.trans keyId⟩)
  -- What the mirrors keep was not removed, so the store keeps it too.
  have cleaned : ∀ before ∈ store.profiles, MirrorsStore (kept ++ [key])
      (before.mapMirror (List.filter fun old =>
        !(removedIds store.hostKeys ⟨kept ++ [key]⟩).contains old.id)) := by
    intro before there
    refine .filter fun old inMirror stays => ?_
    obtain ⟨stored, listed, target⟩ := mirrored.copies before there old inMirror
    refine ⟨stored, mem_append_left _ ?_, target⟩
    by_contra gone
    have removed : old.id ∈ removedIds store.hostKeys ⟨kept ++ [key]⟩ := by
      refine mem_removedIds.mpr ⟨⟨stored, listed, target.id⟩, fun other there same => ?_⟩
      rcases mem_append.mp there with retained | last
      · have known := same_of_id mirrored.ids (sub.subset retained) listed
          (same.trans target.id.symm)
        exact gone (known ▸ retained)
      · rw [mem_singleton.mp last] at same
        exact new stored listed (target.id.trans same.symm)
    simp [removed] at stays
  constructor
  · rw [decided.keys, map_append, nodup_append]
    refine ⟨mirrored.ids.sublist (sub.map _), nodup_singleton _, fun id inKept other last => ?_⟩
    obtain ⟨old, retained, rfl⟩ := mem_map.mp inKept
    rw [map_singleton, mem_singleton] at last
    rw [last]
    exact new old (sub.subset retained)
  · intro profile mem
    rw [decided.profiles] at mem
    rw [decided.keys]
    rcases editProfile_mem mem with there | ⟨before, there, rfl⟩
    · obtain ⟨old, inStore, rfl⟩ := mem_map.mp there
      exact cleaned old inStore
    · obtain ⟨old, inStore, rfl⟩ := mem_map.mp there
      exact (cleaned old inStore).mirrorKey (mem_append_right _ (mem_singleton.mpr rfl))

theorem Mirrored.delete {store : TrustStore} (mirrored : Mirrored store) (keyIds : List String) :
    Mirrored (store.deleteHostKeysFromStore keyIds) := by
  refine ⟨mirrored.ids.sublist (filter_sublist.map _), fun profile mem => ?_⟩
  obtain ⟨before, there, rfl⟩ := mem_map.mp mem
  refine .filter fun old inMirror stays => ?_
  obtain ⟨stored, listed, target⟩ := mirrored.copies before there old inMirror
  exact ⟨stored, mem_filter.mpr ⟨listed, by rw [target.id]; exact stays⟩, target⟩

theorem Mirrored.save {store : TrustStore} (mirrored : Mirrored store)
    (mirrors : MirrorsStore store.hostKeys.keys profile) :
    Mirrored (store.upsertProfile profile) := by
  refine ⟨mirrored.ids, fun other mem => ?_⟩
  unfold upsertProfile at mem
  simp only at mem
  split at mem
  · rcases editProfile_mem mem with there | ⟨_, _, rfl⟩
    · exact mirrored.copies other there
    · exact mirrors
  · rcases mem_append.mp mem with there | new
    · exact mirrored.copies other there
    · rw [mem_singleton.mp new]
      exact mirrors

theorem Mirrored.importKnownHosts {profileId : String} {contents : List Char}
    {newIds : Nat → String} {now : DateTime} (mirrored : Mirrored store)
    (distinct : Function.Injective newIds)
    (fresh : ∀ index, newIds index ∉ store.hostKeys.keys.map (·.id))
    (done : store.importKnownHosts fingerprintOf profileId contents newIds now = .ok after) :
    Mirrored after := by
  unfold TrustStore.importKnownHosts at done
  split at done
  · cases done
  · have added : (store.hostKeys.importKnownHosts fingerprintOf profileId contents newIds now).keys =
        store.hostKeys.keys ++ (importedHosts fingerprintOf contents).mapIdx
          fun index entry => importedKey profileId now (newIds index) entry := rfl
    have ids : ((importedHosts fingerprintOf contents).mapIdx fun index entry =>
        importedKey profileId now (newIds index) entry).map (·.id) =
          (List.range (importedHosts fingerprintOf contents).length).map newIds := by
      refine ext_getElem (by simp) fun index _ _ => ?_
      simp [importedKey]
    refine Mirrored.mirrorPersistentHostKeys ⟨?_, ?_⟩ ?_ done
    · rw [added, map_append, ids, nodup_append]
      refine ⟨mirrored.ids, nodup_range.map distinct, fun id inStore other new => ?_⟩
      obtain ⟨index, -, rfl⟩ := mem_map.mp new
      exact fun same => fresh index (same ▸ inStore)
    · intro profile there old inMirror
      obtain ⟨stored, listed, target⟩ := mirrored.copies profile there old inMirror
      exact ⟨stored, mem_append_left _ listed, target⟩
    · exact fun key mem => mem_of_mem_drop mem

theorem editKey_ids {keyId : String} {edit : TrustedHostKey → TrustedHostKey}
    (kept : ∀ key, (edit key).id = key.id) (keys : List TrustedHostKey) :
    (editKey keyId edit keys).map (·.id) = keys.map (·.id) := by
  induction keys with
  | nil => rfl
  | cons first keys ih =>
    unfold editKey
    split
    · rw [map_cons, map_cons, kept]
    · rw [map_cons, map_cons, ih]

theorem mem_editKey {keyId : String} {edit : TrustedHostKey → TrustedHostKey}
    (ids : (keys.map (·.id)).Nodup) (mem : key ∈ keys) :
    (if key.id = keyId then edit key else key) ∈ editKey keyId edit keys := by
  induction keys with
  | nil => cases mem
  | cons first keys ih =>
    rw [map_cons, nodup_cons] at ids
    unfold editKey
    split
    next here =>
      rcases mem_cons.mp mem with rfl | later
      · rw [if_pos here]
        exact .head _
      · have other : key.id ≠ keyId := by
          intro same
          exact ids.1 (mem_map.mpr ⟨key, later, same.trans here.symm⟩)
        rw [if_neg other]
        exact .tail _ later
    next other =>
      rcases mem_cons.mp mem with rfl | later
      · rw [if_neg other]
        exact .head _
      · exact .tail _ (ih ids.2 later)

theorem updateHostKeyInStore_ok {request : HostKeyUpdateRequest}
    (done : store.updateHostKeyInStore request = .ok after) :
    ∃ merged, after = { store with
      hostKeys := ⟨editKey request.keyId (applyHostKeyEditableFields · merged)
        store.hostKeys.keys⟩ }.mapMirrors (List.map fun key =>
          if key.id = request.keyId then applyHostKeyEditableFields key merged else key) := by
  unfold updateHostKeyInStore at done
  dsimp only at done
  split at done
  · cases done
  split at done
  · cases done
  split at done
  · cases done
  split at done
  · cases done
  split at done
  · cases done
  split at done
  · cases done
  next merged _ =>
    split at done
    · cases done
    split at done
    · cases done
    · exact ⟨merged, (Except.ok.inj done).symm⟩

theorem Mirrored.update {request : HostKeyUpdateRequest} (mirrored : Mirrored store)
    (done : store.updateHostKeyInStore request = .ok after) : Mirrored after := by
  obtain ⟨merged, rfl⟩ := updateHostKeyInStore_ok done
  refine ⟨?_, fun profile mem => ?_⟩
  · change ((editKey _ _ _).map (·.id)).Nodup
    rw [@editKey_ids _ (applyHostKeyEditableFields · merged) fun _ => rfl]
    exact mirrored.ids
  · obtain ⟨before, there, rfl⟩ := mem_map.mp mem
    intro copy inMirror
    rw [mirror_mapMirror before _ rfl] at inMirror
    obtain ⟨old, copied, rfl⟩ := mem_map.mp inMirror
    obtain ⟨stored, listed, target⟩ := mirrored.copies before there old copied
    refine ⟨_, mem_editKey mirrored.ids listed, ?_⟩
    rw [target.id]
    split
    · exact ⟨target.id, rfl, rfl, rfl, target.algorithm⟩
    · exact target

theorem hostKeyStep_mirrored {store : TrustStore} {event : HostKeyEvent}
    (mirrored : Mirrored store) (keeps : KeepsMirrors store event) :
    Mirrored (hostKeyStep fingerprintOf store event).1 ∧
      ∀ replacement ∈ (hostKeyStep fingerprintOf store event).2, ∀ connectPolicy,
        OnlyReplacement fingerprintOf replacement.after replacement.profileId connectPolicy
          replacement.key := by
  cases event with
  | decide profileId policy observation decision newId now =>
    dsimp only [hostKeyStep]
    cases applied : store.applyPersistentHostKeyDecision fingerprintOf profileId policy observation
        decision newId now with
    | error _ => exact ⟨mirrored, by simp⟩
    | ok result =>
      obtain ⟨after, trusted⟩ := result
      have next := mirrored.decide keeps.1.1 applied
      cases trusted with
      | none => exact ⟨next, by simp⟩
      | some key =>
        refine ⟨next, fun replacement emitted connectPolicy => ?_⟩
        dsimp only at emitted
        split at emitted
        next replacing =>
          subst replacing
          rw [mem_singleton.mp emitted]
          have known : ∀ old ∈ store.mirrorOf profileId,
              ∃ stored ∈ store.hostKeys.keys, SameTarget stored old :=
            mirrored.mirrorOf profileId
          refine (onlyReplacement_iff ?_ applied connectPolicy).mpr fun old mem _ target _ => ?_
          · intro old mem same
            obtain ⟨stored, listed, record⟩ := known old mem
            exact keeps.1.1 (mem_map.mpr ⟨stored, listed, record.id.trans same⟩)
          · obtain ⟨stored, listed, record⟩ := known old mem
            refine Or.inr ⟨⟨stored, listed, record.id⟩, fun other there same => ?_⟩
            rw [same_of_id mirrored.ids there listed (same.trans record.id.symm)]
            unfold replaces at target ⊢
            rw [record.profileId, record.hostAlias, record.port, record.algorithm]
            exact target
        next => cases emitted
  | save profile => exact ⟨mirrored.save (keeps.2 profile rfl), by simp [hostKeyStep]⟩
  | update request =>
    refine ⟨?_, by simp [hostKeyStep]⟩
    change Mirrored ((store.updateHostKeyInStore request).toOption.getD store)
    cases done : store.updateHostKeyInStore request with
    | error _ => exact mirrored
    | ok after => exact mirrored.update done
  | delete keyIds => exact ⟨mirrored.delete keyIds, by simp [hostKeyStep]⟩
  | importKnownHosts profileId contents newIds now =>
    refine ⟨?_, by simp [hostKeyStep]⟩
    change Mirrored ((store.importKnownHosts fingerprintOf profileId contents newIds
      now).toOption.getD store)
    cases done : store.importKnownHosts fingerprintOf profileId contents newIds now with
    | error _ => exact mirrored
    | ok after => exact mirrored.importKnownHosts keeps.1.1 keeps.1.2 done

variable (fingerprintOf)

/-- A replacement is effective in every history whose saves keep to the store's keys; at any store
it is just when the mirror of the profile held no other record for the target, but such as the
store replaces under the same id. -/
theorem host_key_replacement_effective_iff :
    (∀ events, (hostKeyCommands fingerprintOf).StepsMeet KeepsMirrors ⟨⟨[]⟩, []⟩ events →
      ∀ replacement ∈ ((hostKeyCommands fingerprintOf).run ⟨⟨[]⟩, []⟩ events).2, ∀ connectPolicy,
        OnlyReplacement fingerprintOf replacement.after replacement.profileId connectPolicy
          replacement.key) ∧
    ∀ store after profileId newId policy observation now key,
      (∀ old ∈ store.mirrorOf profileId, old.id ≠ newId) →
      store.applyPersistentHostKeyDecision fingerprintOf profileId policy observation
        .replaceForProfile newId now = .ok (after, some key) →
      ∀ connectPolicy, OnlyReplacement fingerprintOf after profileId connectPolicy key ↔
        ∀ old ∈ store.mirrorOf profileId, old.scope = .profile →
          replaces profileId key.hostAlias key.port key.algorithm old = true →
          Presentable fingerprintOf old →
          old.fingerprintSha256 = key.fingerprintSha256 ∨
            ReplacedInStore store profileId key.hostAlias key.port key.algorithm old := by
  refine ⟨fun events meets => ?_, fun _ _ _ _ _ _ _ _ => onlyReplacement_iff⟩
  have kept := @Transducer.run_preserves_trace_of _ _ _ (hostKeyCommands fingerprintOf) KeepsMirrors
    (fun store emitted => Mirrored store ∧ ∀ replacement ∈ emitted, ∀ connectPolicy,
      OnlyReplacement fingerprintOf replacement.after replacement.profileId connectPolicy
        replacement.key) ?_ _ [] _ meets ⟨⟨nodup_nil, nofun⟩, nofun⟩
  · exact kept.2
  · intro store emitted event keeps ⟨mirrored, effective⟩
    obtain ⟨next, now⟩ := hostKeyStep_mirrored mirrored keeps
    refine ⟨next, fun replacement mem => ?_⟩
    rcases mem_append.mp mem with earlier | last
    · exact effective replacement earlier
    · exact now replacement last

def twoFingerprints (publicKey : String) : Option String :=
  if publicKey = "YWJj" then some "SHA256:ungWv48Bz+pBQUDeXa4iI7ADYaOWF3qctBD/YfIAFa0"
  else if publicKey = "ZGVm" then some "SHA256:y4N5rCCYqhZQKeOTilHaC87PwAj9Z5X0AReGR/lsWzQ"
  else none

def bmcPolicy : HostKeyPolicy := ⟨.strict, none, .profile, false, false⟩

def bmcProfile : HostKeyProfile := ⟨"bmc", some ⟨"bmc.lab", 22, [], bmcPolicy, []⟩⟩

def bmcObserved (publicKey : String) : HostKeyObservation :=
  ⟨"bmc.lab", 22, some "bmc", "ssh-ed25519", publicKey⟩

/-- The first key is trusted in the draft of the profile's settings. -/
def bmcDraft : HostKeyProfile :=
  (prepareScannedHostKeyDraft twoFingerprints bmcProfile (bmcObserved "YWJj") .appendToProfile "k1"
    1).toOption.getD bmcProfile

/-- The first key is trusted in one way or in the other, and then replaced. -/
def bmcHistory (trusting : HostKeyEvent) : List HostKeyEvent :=
  [.save bmcProfile, trusting,
    .decide "bmc" bmcPolicy (bmcObserved "ZGVm") .replaceForProfile "k2" 2]

def bmcTrusting : HostKeyEvent :=
  .decide "bmc" bmcPolicy (bmcObserved "YWJj") .appendToProfile "k1" 1

/-- The store once the first key is trusted, and the one in which it is replaced. -/
def bmcTrusted : TrustStore :=
  ((hostKeyCommands twoFingerprints).run ⟨⟨[]⟩, []⟩ [.save bmcProfile, bmcTrusting]).1

def bmcKey (id publicKey fingerprint : String) (now : DateTime) : TrustedHostKey :=
  ⟨id, some "bmc", "bmc", "bmc.lab", 22, "ssh-ed25519", fingerprint, publicKey, .profile, none, now,
    now⟩

def bmcNewKey : TrustedHostKey :=
  bmcKey "k2" "ZGVm" "SHA256:y4N5rCCYqhZQKeOTilHaC87PwAj9Z5X0AReGR/lsWzQ" 2

def bmcReplaced : TrustStore :=
  ⟨⟨[bmcNewKey]⟩, [⟨"bmc", some ⟨"bmc.lab", 22, [], bmcPolicy, [bmcNewKey]⟩⟩]⟩

theorem trusted_key_replaced :
    (∀ replacement ∈ ((hostKeyCommands twoFingerprints).run ⟨⟨[]⟩, []⟩
        (bmcHistory bmcTrusting)).2, ∀ connectPolicy,
      OnlyReplacement twoFingerprints replacement.after replacement.profileId connectPolicy
        replacement.key) ∧
    (OnlyReplacement twoFingerprints bmcReplaced "bmc" bmcPolicy bmcNewKey ↔
      ∀ old ∈ bmcTrusted.mirrorOf "bmc", old.scope = .profile →
        replaces "bmc" bmcNewKey.hostAlias bmcNewKey.port bmcNewKey.algorithm old =
          true →
        Presentable twoFingerprints old →
        old.fingerprintSha256 = bmcNewKey.fingerprintSha256 ∨
          ReplacedInStore bmcTrusted "bmc" bmcNewKey.hostAlias bmcNewKey.port bmcNewKey.algorithm
            old) := by
  obtain ⟨histories, stores⟩ := host_key_replacement_effective_iff twoFingerprints
  constructor
  · refine histories _ ⟨⟨trivial, ?_⟩, ⟨⟨by decide, by decide⟩, nofun⟩, ⟨⟨by decide, by decide⟩, nofun⟩,
      trivial⟩
    intro profile saved
    cases saved
    exact nofun
  · exact stores bmcTrusted bmcReplaced "bmc" "k2" bmcPolicy (bmcObserved "ZGVm") 2 bmcNewKey
      (by decide) (by decide) bmcPolicy

/-- A key that the user trusted in the draft of the profile, saved and then replaced, still lets a
strict connection through. -/
theorem drafted_key_survives :
    (hostKeyCommands twoFingerprints).StepsMeet NewIds ⟨⟨[]⟩, []⟩ (bmcHistory (.save bmcDraft)) ∧
    ∃ replacement ∈ ((hostKeyCommands twoFingerprints).run ⟨⟨[]⟩, []⟩
        (bmcHistory (.save bmcDraft))).2,
      verifySshHostKeyObservation twoFingerprints "bmc" bmcPolicy
        (replacement.after.connectHostKeys "bmc" []) [] (bmcObserved "YWJj") .standard = .ok () ∧
      ¬ OnlyReplacement twoFingerprints replacement.after replacement.profileId bmcPolicy
        replacement.key := by
  refine ⟨⟨trivial, trivial, ⟨by decide, by decide⟩, trivial⟩, ?_⟩
  refine ⟨⟨"bmc", bmcNewKey, ⟨⟨[bmcNewKey]⟩, [⟨"bmc", some ⟨"bmc.lab", 22, [], bmcPolicy,
    [bmcKey "k1" "YWJj" "SHA256:ungWv48Bz+pBQUDeXa4iI7ADYaOWF3qctBD/YfIAFa0" 1,
      bmcNewKey]⟩⟩]⟩⟩, ?_, by decide, ?_⟩
  · decide
  · intro only
    have same := only (bmcObserved "YWJj")
      (bmcKey "k1" "YWJj" "SHA256:ungWv48Bz+pBQUDeXa4iI7ADYaOWF3qctBD/YfIAFa0" 1) rfl rfl rfl rfl
      ⟨by decide, rfl, by decide⟩
    exact absurd same (by decide)

end Histories

end PortMate
