import PortMate.JsonMerge

namespace PortMate

open List Bool JsonValue Prod

section Lookups

variable {α : Type}

theorem lookup_eq_none_iff {fields : List (String × α)} {key : String} :
    fields.lookup key = none ↔ key ∉ fields.map fst := by
  rw [List.lookup_eq_none_iff, mem_map]
  constructor
  · rintro none ⟨field, mem, rfl⟩
    simpa using none field mem
  · intro absent field mem
    exact bne_iff_ne.mpr fun same => absent ⟨field, mem, same.symm⟩

theorem lookup_none_of_sameStructure {ν : Type} {expected current incoming : List (String × JsonValue ν)}
    (structured : sameStructure expected current incoming = true)
    (nodup : (expected.map fst).Nodup) {key : String} (absent : expected.lookup key = none) :
    current.lookup key = none ∧ incoming.lookup key = none := by
  unfold sameStructure at structured
  rw [and_eq_true, and_eq_true, decide_eq_true_eq, decide_eq_true_eq,
    all_eq_true] at structured
  obtain ⟨⟨currentLength, incomingLength⟩, all⟩ := structured
  have covered : ∀ others : List (String × JsonValue ν), expected.length = others.length →
      (∀ field ∈ expected, (others.lookup field.1).isSome = true) → others.lookup key = none := by
    intro others length found
    have subset : expected.map fst ⊆ others.map fst := by
      intro name mem
      obtain ⟨field, there, rfl⟩ := mem_map.mp mem
      by_contra missing
      have present := found field there
      rw [lookup_eq_none_iff.mpr missing] at present
      cases present
    have perm := (subperm_of_subset nodup subset).perm_of_length_le (by
      rw [length_map, length_map, length])
    rw [lookup_eq_none_iff] at absent ⊢
    exact fun mem => absent (perm.symm.subset mem)
  refine ⟨covered current currentLength fun field mem => ?_,
    covered incoming incomingLength fun field mem => ?_⟩
  · exact (and_eq_true_iff.mp (all field mem)).1
  · exact (and_eq_true_iff.mp (all field mem)).2

end Lookups

section Merge

variable {ν : Type} [DecidableEq ν] {entity path : String}

/-- A place is as one side has it where that side changed it, and as the other has it elsewhere. -/
structure MergedPlace (expected current incoming merged : Option (JsonValue ν)) : Prop where
  kept : incoming = expected → merged = current
  changed : incoming ≠ expected → merged = incoming

theorem merge_place {expected current incoming merged : JsonValue ν}
    (ascending : expected.AscendingNames)
    (ok : mergeExpectedJsonValue entity path expected current incoming = .ok merged)
    (steps : List JsonStep)
    (leaf : ∀ fields, merged.place steps = some (.object fields) → fields = []) :
    MergedPlace (expected.place steps) (current.place steps) (incoming.place steps)
      (merged.place steps) := by
  induction steps generalizing path expected current incoming merged with
  | nil =>
    rcases mergeExpectedJsonValue_ok ok with ⟨rfl, rfl⟩ | ⟨rfl, rfl⟩ | ⟨rfl, rfl⟩ |
      ⟨expectedFields, currentFields, incomingFields, fields, rfl, rfl, rfl, rfl, changed, structured,
        given⟩
    · exact ⟨fun _ => rfl, absurd rfl⟩
    · exact ⟨id, fun _ => rfl⟩
    · exact ⟨fun _ => rfl, fun _ => rfl⟩
    · have none : expectedFields = [] := by
        have names := mergeExpectedFields_names given
        rw [leaf fields rfl] at names
        exact map_eq_nil_iff.mp names.symm
      subst none
      unfold sameStructure at structured
      rw [and_eq_true, and_eq_true, decide_eq_true_eq, decide_eq_true_eq] at structured
      exact absurd (congrArg JsonValue.object (length_eq_zero_iff.mp structured.1.2.symm)) changed
  | cons step steps ih =>
    rcases mergeExpectedJsonValue_ok ok with ⟨rfl, rfl⟩ | ⟨rfl, rfl⟩ | ⟨rfl, rfl⟩ |
      ⟨expectedFields, currentFields, incomingFields, fields, rfl, rfl, rfl, rfl, changed, structured,
        given⟩
    · exact ⟨fun _ => rfl, absurd rfl⟩
    · exact ⟨id, fun _ => rfl⟩
    · exact ⟨fun _ => rfl, fun _ => rfl⟩
    · cases step with
      | index position => exact ⟨fun _ => rfl, fun _ => rfl⟩
      | key name =>
        rw [place_key] at leaf ⊢
        rw [place_key, place_key, place_key]
        rcases mergeExpectedFields_lookup given name with ⟨absent, noField⟩ |
          ⟨expectedValue, currentValue, incomingValue, value, found, currentFound, incomingFound,
            valueFound, mergedValue⟩
        · obtain ⟨noCurrent, noIncoming⟩ :=
            lookup_none_of_sameStructure structured ascending.nodup absent
          rw [absent, noField, noCurrent, noIncoming]
          exact ⟨fun _ => rfl, fun _ => rfl⟩
        · rw [valueFound] at leaf
          rw [found, currentFound, incomingFound, valueFound]
          exact ih (@JsonValue.AscendingNames.child ν _ _ ascending (.key name) found) mergedValue leaf

theorem merge_ascending {expected current incoming merged : JsonValue ν}
    (ascending : expected.AscendingNames) (currentAscending : current.AscendingNames)
    (incomingAscending : incoming.AscendingNames)
    (ok : mergeExpectedJsonValue entity path expected current incoming = .ok merged) :
    merged.AscendingNames := by
  intro steps
  induction steps generalizing path expected current incoming merged with
  | nil =>
    intro fields there
    rcases mergeExpectedJsonValue_ok ok with ⟨rfl, rfl⟩ | ⟨rfl, rfl⟩ | ⟨rfl, rfl⟩ |
      ⟨expectedFields, currentFields, incomingFields, merged, rfl, rfl, rfl, rfl, -, -, given⟩
    · exact currentAscending [] fields there
    · exact incomingAscending [] fields there
    · exact incomingAscending [] fields there
    · cases JsonValue.object.inj (Option.some.inj there)
      rw [mergeExpectedFields_names given]
      exact ascending [] expectedFields rfl
  | cons step steps ih =>
    intro fields there
    rcases mergeExpectedJsonValue_ok ok with ⟨rfl, rfl⟩ | ⟨rfl, rfl⟩ | ⟨rfl, rfl⟩ |
      ⟨expectedFields, currentFields, incomingFields, merged, rfl, rfl, rfl, rfl, -, -, given⟩
    · exact currentAscending (step :: steps) fields there
    · exact incomingAscending (step :: steps) fields there
    · exact incomingAscending (step :: steps) fields there
    · cases step with
      | index position => cases there
      | key name =>
        rw [place_key] at there
        rcases mergeExpectedFields_lookup given name with ⟨-, noField⟩ |
          ⟨expectedValue, currentValue, incomingValue, value, found, currentFound, incomingFound,
            valueFound, mergedValue⟩
        · rw [noField] at there
          cases there
        · rw [valueFound] at there
          exact ih (@JsonValue.AscendingNames.child ν _ _ ascending (.key name) found)
            (@JsonValue.AscendingNames.child ν _ _ currentAscending (.key name) currentFound)
            (@JsonValue.AscendingNames.child ν _ _ incomingAscending (.key name) incomingFound)
            mergedValue fields there

/-- Both sides changed what is at the place, to different values, and it is no object in all three
that could be merged field by field. -/
structure Conflict (expected current incoming : Option (JsonValue ν)) : Prop where
  currentChanged : current ≠ expected
  incomingChanged : incoming ≠ expected
  apart : current ≠ incoming
  whole : ∀ expectedFields currentFields incomingFields, expected = some (.object expectedFields) →
    current = some (.object currentFields) → incoming = some (.object incomingFields) →
    sameStructure expectedFields currentFields incomingFields = false

theorem merge_conflict {expected current incoming : JsonValue ν}
    (ascending : expected.AscendingNames) {steps : List JsonStep}
    (conflict : Conflict (expected.place steps) (current.place steps) (incoming.place steps)) :
    ∃ error, mergeExpectedJsonValue entity path expected current incoming = .error error := by
  cases ok : mergeExpectedJsonValue entity path expected current incoming with
  | error error => exact ⟨error, rfl⟩
  | ok merged =>
    exfalso
    induction steps generalizing path expected current incoming merged with
    | nil =>
      rcases mergeExpectedJsonValue_ok ok with ⟨rfl, -⟩ | ⟨rfl, -⟩ | ⟨rfl, -⟩ |
        ⟨expectedFields, currentFields, incomingFields, fields, rfl, rfl, rfl, -, -, structured, -⟩
      · exact conflict.incomingChanged rfl
      · exact conflict.currentChanged rfl
      · exact conflict.apart rfl
      · rw [conflict.whole expectedFields currentFields incomingFields rfl rfl rfl] at structured
        cases structured
    | cons step steps ih =>
      rcases mergeExpectedJsonValue_ok ok with ⟨rfl, -⟩ | ⟨rfl, -⟩ | ⟨rfl, -⟩ |
        ⟨expectedFields, currentFields, incomingFields, fields, rfl, rfl, rfl, -, -, structured, given⟩
      · exact conflict.incomingChanged rfl
      · exact conflict.currentChanged rfl
      · exact conflict.apart rfl
      · cases step with
        | index position => exact conflict.currentChanged rfl
        | key name =>
          rw [place_key, place_key, place_key] at conflict
          rcases mergeExpectedFields_lookup given name with ⟨absent, -⟩ |
            ⟨expectedValue, currentValue, incomingValue, value, found, currentFound, incomingFound, -,
              mergedValue⟩
          · obtain ⟨noCurrent, -⟩ :=
              lookup_none_of_sameStructure structured ascending.nodup absent
            rw [absent, noCurrent] at conflict
            exact conflict.currentChanged rfl
          · rw [found, currentFound, incomingFound] at conflict
            exact ih (@JsonValue.AscendingNames.child ν _ _ ascending (.key name) found) conflict _
              mergedValue

mutual

theorem merge_comm (entity path : String) (expected current incoming : JsonValue ν) :
    mergeExpectedJsonValue entity path expected current incoming =
      mergeExpectedJsonValue entity path expected incoming current := by
  by_cases unchanged : incoming = expected
  · subst unchanged
    unfold mergeExpectedJsonValue
    by_cases same : current = incoming
    · rw [same]
    · rw [if_pos rfl, if_neg same, if_pos (Or.inl rfl)]
  · by_cases kept : current = expected
    · subst kept
      unfold mergeExpectedJsonValue
      rw [if_neg unchanged, if_pos (Or.inl rfl), if_pos rfl]
    · by_cases same : incoming = current
      · rw [same]
      · have other : ¬ (current = expected ∨ incoming = current) := not_or.mpr ⟨kept, same⟩
        have another : ¬ (incoming = expected ∨ current = incoming) :=
          not_or.mpr ⟨unchanged, fun equal => same equal.symm⟩
        cases expected with
        | object expectedFields =>
          cases current with
          | object currentFields =>
            cases incoming with
            | object incomingFields =>
              have structured : sameStructure expectedFields currentFields incomingFields =
                  sameStructure expectedFields incomingFields currentFields := by
                unfold sameStructure
                rw [Bool.and_comm (decide (expectedFields.length = currentFields.length))]
                congr 2
                exact funext fun field => Bool.and_comm _ _
              unfold mergeExpectedJsonValue
              rw [if_neg unchanged, if_neg other, if_neg kept, if_neg another]
              dsimp only
              rw [structured, mergeFields_comm entity path expectedFields currentFields incomingFields]
            | _ =>
              unfold mergeExpectedJsonValue
              rw [if_neg unchanged, if_neg other, if_neg kept, if_neg another]
          | _ =>
            unfold mergeExpectedJsonValue
            rw [if_neg unchanged, if_neg other, if_neg kept, if_neg another]
            cases incoming <;> rfl
        | _ =>
          unfold mergeExpectedJsonValue
          rw [if_neg unchanged, if_neg other, if_neg kept, if_neg another]

theorem mergeFields_comm (entity path : String)
    (expected current incoming : List (String × JsonValue ν)) :
    mergeExpectedFields entity path expected current incoming =
      mergeExpectedFields entity path expected incoming current := by
  cases expected with
  | nil => rfl
  | cons field rest =>
    obtain ⟨key, expectedValue⟩ := field
    unfold mergeExpectedFields
    cases current.lookup key with
    | none => cases incoming.lookup key <;> rfl
    | some currentValue =>
      cases incoming.lookup key with
      | none => rfl
      | some incomingValue =>
        dsimp only
        rw [merge_comm entity (path ++ "." ++ key) expectedValue currentValue incomingValue,
          mergeFields_comm entity path rest current incoming]

end

def JsonDocument.merge (entity path : String) (expected current incoming : JsonDocument ν) :
    Except String (JsonDocument ν) :=
  match ok : mergeExpectedJsonValue entity path expected.value current.value incoming.value with
  | .error error => .error error
  | .ok merged =>
    .ok ⟨merged, merge_ascending expected.ascending current.ascending incoming.ascending ok⟩

theorem JsonDocument.merge_ok {expected current incoming merged : JsonDocument ν}
    (ok : JsonDocument.merge entity path expected current incoming = .ok merged) :
    mergeExpectedJsonValue entity path expected.value current.value incoming.value =
      .ok merged.value := by
  unfold JsonDocument.merge at ok
  split at ok
  next => cases ok
  next value given => rw [given, ← Except.ok.inj ok]

theorem JsonDocument.merge_of_ok {expected current incoming merged : JsonDocument ν}
    (ok : mergeExpectedJsonValue entity path expected.value current.value incoming.value =
      .ok merged.value) :
    JsonDocument.merge entity path expected current incoming = .ok merged := by
  unfold JsonDocument.merge
  split
  next error given => cases ok.symm.trans given
  next value given => cases Except.ok.inj (ok.symm.trans given); rfl

theorem JsonDocument.merge_of_error {expected current incoming : JsonDocument ν} {error : String}
    (failed : mergeExpectedJsonValue entity path expected.value current.value incoming.value =
      .error error) : JsonDocument.merge entity path expected current incoming = .error error := by
  unfold JsonDocument.merge
  split
  next other given => rw [Except.error.inj (given.symm.trans failed)]
  next value given => cases failed.symm.trans given

/-- The three-way merge loses no edit of either side. -/
theorem three_way_merge (entity path : String) (expected : JsonDocument ν) :
    (∀ current incoming merged : JsonDocument ν,
      JsonDocument.merge entity path expected current incoming = .ok merged → ∀ steps,
      (∀ fields, merged.value.place steps = some (.object fields) → fields = []) →
      MergedPlace (expected.value.place steps) (current.value.place steps)
        (incoming.value.place steps) (merged.value.place steps)) ∧
    (∀ current incoming, JsonDocument.merge entity path expected current incoming =
      JsonDocument.merge entity path expected incoming current) ∧
    (∀ incoming, JsonDocument.merge entity path expected expected incoming = .ok incoming) ∧
    (∀ current, JsonDocument.merge entity path expected current expected = .ok current) ∧
    (∀ (current incoming : JsonDocument ν) steps, Conflict (expected.value.place steps)
        (current.value.place steps) (incoming.value.place steps) →
      ∃ error, JsonDocument.merge entity path expected current incoming = .error error) := by
  refine ⟨fun current incoming merged ok steps leaf => ?_, fun current incoming => ?_,
    fun incoming => ?_, fun current => ?_, fun current incoming steps conflict => ?_⟩
  · exact merge_place expected.ascending (JsonDocument.merge_ok ok) steps leaf
  · have swapped := merge_comm entity path expected.value current.value incoming.value
    cases result : JsonDocument.merge entity path expected incoming current with
    | ok merged => exact JsonDocument.merge_of_ok (swapped.trans (JsonDocument.merge_ok result))
    | error error =>
      cases other : mergeExpectedJsonValue entity path expected.value incoming.value current.value with
      | error error' =>
        rw [JsonDocument.merge_of_error (swapped.trans other), ← result,
          JsonDocument.merge_of_error other]
      | ok merged =>
        have ascending := merge_ascending expected.ascending incoming.ascending current.ascending other
        rw [@JsonDocument.merge_of_ok ν _ entity path expected incoming current ⟨merged, ascending⟩
          other] at result
        cases result
  · refine JsonDocument.merge_of_ok ?_
    unfold mergeExpectedJsonValue
    split
    next same => rw [same]
    next => rw [if_pos (Or.inl rfl)]
  · refine JsonDocument.merge_of_ok ?_
    unfold mergeExpectedJsonValue
    rw [if_pos rfl]
  · obtain ⟨error, failed⟩ := @merge_conflict ν _ entity path _ _ _ expected.ascending steps conflict
    exact ⟨error, JsonDocument.merge_of_error failed⟩

end Merge

open JsonDocument

section Endpoint

def endpointValue (host : String) (port : Nat) : JsonValue Nat :=
  .object [("host", .string host), ("port", .number port)]

def endpointDocument (host : String) (port : Nat) : JsonDocument Nat where
  value := endpointValue host port
  ascending := by
    intro steps fields there
    cases steps with
    | nil =>
      cases JsonValue.object.inj (Option.some.inj there)
      have names : ["host", "port"].Pairwise (· < ·) := by decide
      exact names
    | cons step steps =>
      cases step with
      | index position => cases there
      | key name =>
        unfold endpointValue at there
        rw [place_key, lookup_cons] at there
        split at there
        · cases steps <;> cases there
        · rw [lookup_cons] at there
          split at there
          · cases steps <;> cases there
          · cases there

/-- One window moved the host, the other one the port. -/
theorem endpoint_edits_merged :
    MergedPlace ((endpointDocument "lab-a" 22).value.place [.key "host"])
      ((endpointDocument "lab-a" 2222).value.place [.key "host"])
      ((endpointDocument "lab-b" 22).value.place [.key "host"])
      ((endpointDocument "lab-b" 2222).value.place [.key "host"]) := by
  refine (three_way_merge "Profile" "profile" (endpointDocument "lab-a" 22)).1
    (endpointDocument "lab-a" 2222) (endpointDocument "lab-b" 22) (endpointDocument "lab-b" 2222)
    (merge_of_ok ?_) [.key "host"] nofun
  rfl

end Endpoint

section Profiles

variable {ν Profile : Type} [DecidableEq ν] (id : Profile → String)
  (toValue : Profile → Except String (JsonDocument ν))
  (fromValue : JsonDocument ν → Except String Profile)

/-- `serde_json::to_value` and `from_value` are given. -/
def mergeExpectedProfileUpdate (currentProfile expectedProfile : Option Profile)
    (incomingProfile : Profile) : Except String Profile :=
  match currentProfile, expectedProfile with
  | some current, some expected =>
    if id current ≠ id incomingProfile ∨ id expected ≠ id incomingProfile then
      .error "expectedProfile 与保存目标不是同一个 Profile"
    else
      match toValue expected, toValue current, toValue incomingProfile with
      | .error error, _, _ => .error s!"序列化 expectedProfile 失败: {error}"
      | _, .error error, _ => .error s!"序列化当前 Profile 失败: {error}"
      | _, _, .error error => .error s!"序列化待保存 Profile 失败: {error}"
      | .ok expected, .ok current, .ok incoming =>
        match JsonDocument.merge "Profile" "profile" expected current incoming with
        | .error error => .error error
        | .ok merged =>
          match fromValue merged with
          | .error error => .error s!"反序列化合并后的 Profile 失败: {error}"
          | .ok profile => .ok profile
  | some _, none => .error "保存现有 Profile 必须提供 expectedProfile 版本"
  | none, some _ => .error "Profile 已被其他操作删除，请刷新会话列表"
  | none, none => .ok incomingProfile

variable {id toValue fromValue} {current expected incoming first second profile : Profile}

theorem mergeExpectedProfileUpdate_known :
    mergeExpectedProfileUpdate id toValue fromValue (some current) (some expected) incoming =
        .ok profile ↔
      (id current = id incoming ∧ id expected = id incoming) ∧
        ∃ expectedValue currentValue incomingValue merged, toValue expected = .ok expectedValue ∧
          toValue current = .ok currentValue ∧ toValue incoming = .ok incomingValue ∧
          JsonDocument.merge "Profile" "profile" expectedValue currentValue incomingValue =
            .ok merged ∧ fromValue merged = .ok profile := by
  constructor
  · intro ok
    unfold mergeExpectedProfileUpdate at ok
    dsimp only at ok
    split at ok
    next => cases ok
    next sameIds =>
      split at ok
      next => cases ok
      next => cases ok
      next => cases ok
      next expectedValue currentValue incomingValue expectedGiven currentGiven incomingGiven =>
        split at ok
        next => cases ok
        next merged given =>
          split at ok
          next => cases ok
          next result read =>
            cases Except.ok.inj ok
            exact ⟨by simpa using sameIds, expectedValue, currentValue, incomingValue, merged,
              expectedGiven, currentGiven, incomingGiven, given, read⟩
  · rintro ⟨⟨own, same⟩, expectedValue, currentValue, incomingValue, merged, expectedGiven,
      currentGiven, incomingGiven, given, read⟩
    simp [mergeExpectedProfileUpdate, own, same, expectedGiven, currentGiven, incomingGiven, given,
      read]

theorem JsonDocument.merge_swap {expected current incoming merged : JsonDocument ν}
    (ok : JsonDocument.merge entity path expected current incoming = .ok merged) :
    JsonDocument.merge entity path expected incoming current = .ok merged :=
  merge_of_ok ((merge_comm entity path _ _ _).trans (merge_ok ok))

theorem JsonDocument.merge_expected (expected incoming : JsonDocument ν) :
    JsonDocument.merge entity path expected expected incoming = .ok incoming := by
  refine merge_of_ok ?_
  unfold mergeExpectedJsonValue
  split
  next same => rw [same]
  next => rw [if_pos (Or.inl rfl)]

/-- Two windows save what each has made of one version, one after the other. -/
def savesOfBoth (id : Profile → String) (toValue : Profile → Except String (JsonDocument ν))
    (fromValue : JsonDocument ν → Except String Profile) (expected first second : Profile) :
    Except String Profile := do
  let current ← mergeExpectedProfileUpdate id toValue fromValue (some expected) (some expected) first
  mergeExpectedProfileUpdate id toValue fromValue (some current) (some expected) second

theorem savesOfBoth_swap
    (roundTrip : ∀ profile value, toValue profile = .ok value → fromValue value = .ok profile)
    (ok : savesOfBoth id toValue fromValue expected first second = .ok profile) :
    savesOfBoth id toValue fromValue expected second first = .ok profile := by
  unfold savesOfBoth at ok ⊢
  cases saved : mergeExpectedProfileUpdate id toValue fromValue (some expected) (some expected)
      first with
  | error error =>
    rw [saved] at ok
    cases ok
  | ok current =>
    rw [saved] at ok
    replace ok : mergeExpectedProfileUpdate id toValue fromValue (some current) (some expected)
      second = .ok profile := ok
    obtain ⟨⟨-, firstId⟩, start, start', firstValue, kept, startGiven, again, firstGiven, given, read⟩ :=
      mergeExpectedProfileUpdate_known.mp saved
    obtain rfl : start = start' := Except.ok.inj (startGiven.symm.trans again)
    obtain rfl : kept = firstValue :=
      Except.ok.inj (given.symm.trans (merge_expected _ _))
    obtain rfl : current = first := Except.ok.inj (read.symm.trans (roundTrip _ _ firstGiven))
    obtain ⟨⟨same, secondId⟩, start', currentValue, secondValue, merged, again, currentGiven,
      secondGiven, given, read⟩ := mergeExpectedProfileUpdate_known.mp ok
    obtain rfl : start = start' := Except.ok.inj (startGiven.symm.trans again)
    have alone : mergeExpectedProfileUpdate id toValue fromValue (some expected) (some expected)
        second = .ok second :=
      mergeExpectedProfileUpdate_known.mpr ⟨⟨secondId, secondId⟩, start, start, secondValue,
        secondValue, startGiven, startGiven, secondGiven, merge_expected _ _,
        roundTrip _ _ secondGiven⟩
    rw [alone]
    exact mergeExpectedProfileUpdate_known.mpr ⟨⟨same.symm, firstId⟩, start, secondValue,
      currentValue, merged, startGiven, secondGiven, currentGiven, merge_swap given, read⟩

/-- Which of two windows saves first does not matter: either both orders are refused, or both leave
the same profile. -/
theorem concurrent_saves_commute
    (roundTrip : ∀ profile value, toValue profile = .ok value → fromValue value = .ok profile)
    (expected first second profile : Profile) :
    savesOfBoth id toValue fromValue expected first second = .ok profile ↔
      savesOfBoth id toValue fromValue expected second first = .ok profile :=
  ⟨savesOfBoth_swap roundTrip, savesOfBoth_swap roundTrip⟩

theorem endpoint_saves_commute :
    savesOfBoth (fun _ => "lab") .ok .ok (endpointDocument "lab-a" 22) (endpointDocument "lab-b" 22)
      (endpointDocument "lab-a" 2222) = .ok (endpointDocument "lab-b" 2222) :=
  (concurrent_saves_commute (fun _ _ given => by rw [Except.ok.inj given]) _ _ _ _).mp rfl

end Profiles

end PortMate
