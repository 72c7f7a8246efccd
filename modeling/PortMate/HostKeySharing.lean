import PortMate.HostKeyDecisions
import PortMate.HostKeyHistories

namespace PortMate

open List

namespace HostKeyStore

section Sharing

variable {fingerprintOf : String → Option String}

theorem filter_of_swapped {α : Type} {sees out : α → Bool} {kept added : List α}
    (hidden : ∀ a ∈ kept, out a = true → sees a = false) (unseen : ∀ a ∈ added, sees a = false) :
    ((kept.filter fun a => !out a) ++ added).filter sees = kept.filter sees := by
  have nothing : added.filter sees = [] :=
    filter_eq_nil_iff.mpr fun a mem => by simp [unseen a mem]
  rw [List.filter_append, nothing, append_nil, filter_filter]
  refine filter_congr fun a mem => ?_
  cases taken : out a with
  | false => rw [Bool.not_false, Bool.and_true]
  | true => rw [hidden a mem taken, Bool.false_and]

theorem candidates_elsewhere {store after : HostKeyStore} {profileId other hostAlias : String}
    {port : Nat} {algorithm : String} {added : List TrustedHostKey}
    (own : ∀ key ∈ store.keys, replaces profileId hostAlias port algorithm key = true →
      key.scope = .profile)
    (keys : after.keys = (store.keys.filter fun key =>
      !replaces profileId hostAlias port algorithm key) ++ added)
    (mine : ∀ key ∈ added, key.scope = .profile ∧ key.profileId = some profileId)
    (apart : other ≠ profileId) (policy : HostKeyPolicy) (targetAlias : String)
    (observation : HostKeyObservation) :
    after.candidates other policy targetAlias observation =
      store.candidates other policy targetAlias observation := by
  unfold candidates
  rw [keys]
  refine filter_of_swapped (fun key listed out => ?_) (fun key listed => ?_)
  · have creator : key.profileId = some profileId := by
      simp only [replaces, Bool.and_eq_true, decide_eq_true_eq] at out
      exact out.1.1.1
    rw [own key listed out, creator]
    simp [Ne.symm apart]
  · rw [(mine key listed).1, (mine key listed).2]
    simp [Ne.symm apart]

theorem evaluate_of_candidates {store after : HostKeyStore} {profileId : String}
    {policy : HostKeyPolicy} {observation : HostKeyObservation}
    (same : after.candidates profileId policy (observation.targetAlias policy) observation =
      store.candidates profileId policy (observation.targetAlias policy) observation) :
    after.evaluate fingerprintOf profileId policy observation =
      store.evaluate fingerprintOf profileId policy observation := by
  unfold evaluate
  dsimp only
  rw [same]

theorem replaced_keys (store : HostKeyStore) (profileId newId : String) (policy : HostKeyPolicy)
    (observation : HostKeyObservation) (now : DateTime) :
    ∃ added, (store.applyDecisionInPlace fingerprintOf profileId policy observation
        .replaceForProfile newId now).1.keys =
        (store.keys.filter fun key => !replaces profileId (observation.targetAlias policy)
          observation.port observation.algorithm key) ++ added ∧
      ∀ key ∈ added, key.scope = .profile ∧ key.profileId = some profileId := by
  unfold applyDecisionInPlace
  dsimp only
  cases readable : fingerprintOf observation.publicKeyBase64 with
  | none =>
    rw [pushTrustedKey_unreadable readable]
    exact ⟨[], (append_nil _).symm, fun _ none => absurd none not_mem_nil⟩
  | some fingerprint =>
    obtain ⟨key, pushed, creator, _, _, _, _, _, scope⟩ :=
      @pushTrustedKey_readable fingerprintOf (store.withoutReplaced profileId policy observation)
        profileId newId fingerprint policy observation .profile now readable
    rw [pushed]
    refine ⟨[key], rfl, fun other listed => ?_⟩
    obtain rfl := mem_singleton.mp listed
    exact ⟨scope, creator⟩

theorem candidates_own {store : HostKeyStore} {profileId hostAlias : String} {policy : HostKeyPolicy}
    {observation : HostKeyObservation} {key : TrustedHostKey}
    (listed : key ∈ store.candidates profileId policy hostAlias observation)
    (scope : key.scope = .profile) : key.profileId = some profileId := by
  have visible := (mem_filter.mp listed).2
  rw [Bool.and_eq_true, scope] at visible
  exact of_decide_eq_true visible.2

/-- The observation of a strict profile that meets a shared key with another fingerprint. -/
def strangerAt (key : TrustedHostKey) (publicKey : String) : HostKeyObservation :=
  ⟨key.host, key.port, some key.hostAlias, key.algorithm, publicKey⟩

def strictPolicy : HostKeyPolicy := ⟨.strict, none, .profile, false, false⟩

theorem evaluate_stranger {store : HostKeyStore} {publicKey fingerprint : String}
    (readable : fingerprintOf publicKey = some fingerprint)
    {shared : TrustedHostKey} {other : String}
    (unknown : ∀ key ∈ store.candidates other strictPolicy shared.hostAlias
      (strangerAt shared publicKey), key.fingerprintSha256 ≠ fingerprint) :
    let expected := (store.candidates other strictPolicy shared.hostAlias
      (strangerAt shared publicKey)).filter fun key => key.algorithm = shared.algorithm
    store.evaluate fingerprintOf other strictPolicy (strangerAt shared publicKey) =
      if expected.isEmpty then
        .ok (.unknown shared.hostAlias shared.host shared.port shared.algorithm fingerprint
          "no trusted key exists for this alias and algorithm")
      else
        .ok (.mismatch shared.hostAlias shared.host shared.port shared.algorithm expected fingerprint
          "same alias and algorithm already has a different host key") := by
  intro expected
  have nobody : (store.candidates other strictPolicy shared.hostAlias
      (strangerAt shared publicKey)).find? (fun key =>
        key.algorithm = shared.algorithm && key.fingerprintSha256 = fingerprint) = none := by
    refine find?_eq_none.mpr fun key listed => ?_
    simp [unknown key listed]
  unfold evaluate
  have seen : (strangerAt shared publicKey).publicKeyBase64 = publicKey := rfl
  have target : (strangerAt shared publicKey).targetAlias strictPolicy = shared.hostAlias := rfl
  have algorithm : (strangerAt shared publicKey).algorithm = shared.algorithm := rfl
  rw [seen, readable]
  dsimp only
  rw [target, algorithm, nobody]
  rfl

variable (fingerprintOf)

/-- A replacement leaves other endpoints and algorithms alone, and the evaluations of the other
profiles exactly if it takes out no key that they share. -/
theorem replacement_isolated_iff (store : HostKeyStore) (profileId : String) (policy : HostKeyPolicy)
    (observation : HostKeyObservation) (newId : String) (now : DateTime)
    (unknown : ∃ publicKey fingerprint, fingerprintOf publicKey = some fingerprint ∧
      ∀ key ∈ store.keys, key.fingerprintSha256 ≠ fingerprint) :
    let after := (store.applyDecisionInPlace fingerprintOf profileId policy observation
      .replaceForProfile newId now).1
    ((∀ other, other ≠ profileId → ∀ policy observation,
        after.evaluate fingerprintOf other policy observation =
          store.evaluate fingerprintOf other policy observation) ∧
      ∀ key ∈ store.keys, key ∉ after.keys →
        key.hostAlias = observation.targetAlias policy ∧ key.port = observation.port ∧
          key.algorithm = observation.algorithm) ↔
    ∀ key ∈ store.keys, key.profileId = some profileId →
      key.hostAlias = observation.targetAlias policy → key.port = observation.port →
        key.algorithm = observation.algorithm → key.scope = .profile := by
  intro after
  obtain ⟨added, keys, mine⟩ :=
    @replaced_keys fingerprintOf store profileId newId policy observation now
  have replaces_iff : ∀ key, replaces profileId (observation.targetAlias policy) observation.port
      observation.algorithm key = true ↔ key.profileId = some profileId ∧
        key.hostAlias = observation.targetAlias policy ∧ key.port = observation.port ∧
          key.algorithm = observation.algorithm := fun key => by
    simp only [replaces, Bool.and_eq_true, decide_eq_true_eq, and_assoc]
  constructor
  · rintro ⟨same, _⟩ key listed creator hostAlias port algorithm
    by_contra shared
    obtain ⟨publicKey, fingerprint, readable, fresh⟩ := unknown
    obtain ⟨other, apart⟩ : ∃ other, other ≠ profileId := by
      by_cases first : profileId = "a"
      · exact ⟨"b", by simp [first]⟩
      · exact ⟨"a", Ne.symm first⟩
    have equal := same other apart strictPolicy (strangerAt key publicKey)
    have before : ∀ known ∈ store.candidates other strictPolicy key.hostAlias
        (strangerAt key publicKey), known.fingerprintSha256 ≠ fingerprint :=
      fun known candidate => fresh known (mem_filter.mp candidate).1
    have later : ∀ known ∈ after.candidates other strictPolicy key.hostAlias
        (strangerAt key publicKey), known.fingerprintSha256 ≠ fingerprint := by
      intro known candidate
      have stored := (mem_filter.mp candidate).1
      rw [keys, mem_append] at stored
      obtain stays | new := stored
      · exact fresh known (mem_filter.mp stays).1
      · obtain ⟨scope, creator⟩ := mine known new
        have own := creator.symm.trans (candidates_own candidate scope)
        exact absurd (Option.some.inj own).symm apart
    have inside : key ∈ (store.candidates other strictPolicy key.hostAlias
        (strangerAt key publicKey)).filter fun known => known.algorithm = key.algorithm := by
      refine mem_filter.mpr ⟨mem_filter.mpr ⟨listed, ?_⟩, by simp⟩
      cases scope : key.scope with
      | profile => exact absurd scope shared
      | project => simp [strangerAt, strictPolicy]
      | user => simp [strangerAt, strictPolicy]
    have outside : key ∉ (after.candidates other strictPolicy key.hostAlias
        (strangerAt key publicKey)).filter fun known => known.algorithm = key.algorithm := by
      intro candidate
      have stored := (mem_filter.mp (mem_filter.mp candidate).1).1
      rw [keys, mem_append] at stored
      obtain stays | new := stored
      · have kept := (mem_filter.mp stays).2
        rw [(replaces_iff key).mpr ⟨creator, hostAlias, port, algorithm⟩] at kept
        cases kept
      · exact shared (mine key new).1
    rw [evaluate_stranger readable before, evaluate_stranger readable later] at equal
    have listing : ¬ ((store.candidates other strictPolicy key.hostAlias
        (strangerAt key publicKey)).filter fun known => known.algorithm = key.algorithm).isEmpty =
          true := fun empty => ne_nil_of_mem inside (List.isEmpty_iff.mp empty)
    rw [if_neg listing] at equal
    split at equal
    · cases equal
    · have lists := HostKeyEvaluation.mismatch.inj (Except.ok.inj equal)
      exact outside (lists.2.2.2.2.1 ▸ inside)
  · intro own
    refine ⟨fun other apart policy' observation' => ?_, fun key listed gone => ?_⟩
    · refine evaluate_of_candidates (candidates_elsewhere (fun key listed out => ?_) keys mine apart
        policy' _ observation')
      obtain ⟨creator, hostAlias, port, algorithm⟩ := (replaces_iff key).mp out
      exact own key listed creator hostAlias port algorithm
    · have out : replaces profileId (observation.targetAlias policy) observation.port
          observation.algorithm key = true := by
        by_contra stays
        refine gone ?_
        rw [keys, mem_append, mem_filter]
        exact .inl ⟨listed, by simp [stays]⟩
      exact ((replaces_iff key).mp out).2

theorem replacement_by_stranger_isolated :
    (∃ publicKey fingerprint, twoFingerprints publicKey = some fingerprint ∧
      ∀ key ∈ [bmcProjectKey], key.fingerprintSha256 ≠ fingerprint) ∧
    let after := (applyDecisionInPlace twoFingerprints ⟨[bmcProjectKey]⟩ "web" bmcPolicy
      (bmcObserved "ZGVm") .replaceForProfile "k2" 2).1
    ((∀ other, other ≠ "web" → ∀ policy observation,
        after.evaluate twoFingerprints other policy observation =
          evaluate twoFingerprints ⟨[bmcProjectKey]⟩ other policy observation) ∧
      ∀ key ∈ [bmcProjectKey], key ∉ after.keys →
        key.hostAlias = "bmc" ∧ key.port = 22 ∧ key.algorithm = "ssh-ed25519") := by
  have unknown : ∃ publicKey fingerprint, twoFingerprints publicKey = some fingerprint ∧
      ∀ key ∈ [bmcProjectKey], key.fingerprintSha256 ≠ fingerprint :=
    ⟨"ZGVm", "SHA256:y4N5rCCYqhZQKeOTilHaC87PwAj9Z5X0AReGR/lsWzQ", by decide, by decide⟩
  exact ⟨unknown, (replacement_isolated_iff twoFingerprints ⟨[bmcProjectKey]⟩ "web" bmcPolicy
    (bmcObserved "ZGVm") "k2" 2 unknown).mpr (by decide)⟩

/-- The profile that shared its key replaces it: to the other profiles the host is then new. -/
theorem replacement_forgets_shared_key :
    let after := (applyDecisionInPlace twoFingerprints ⟨[bmcProjectKey]⟩ "bmc" bmcPolicy
      (bmcObserved "ZGVm") .replaceForProfile "k2" 2).1
    evaluate twoFingerprints ⟨[bmcProjectKey]⟩ "web" bmcPolicy (bmcObserved "YWJj") =
        .ok (.trusted "k1" "SHA256:ungWv48Bz+pBQUDeXa4iI7ADYaOWF3qctBD/YfIAFa0") ∧
      after.evaluate twoFingerprints "web" bmcPolicy (bmcObserved "YWJj") =
        .ok (.unknown "bmc" "bmc.lab" 22 "ssh-ed25519"
          "SHA256:ungWv48Bz+pBQUDeXa4iI7ADYaOWF3qctBD/YfIAFa0"
          "no trusted key exists for this alias and algorithm") := by
  decide

end Sharing

end HostKeyStore

end PortMate
