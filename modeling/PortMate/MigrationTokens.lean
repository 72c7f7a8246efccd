import Mathlib.Data.Finset.Sort
import Mathlib.Data.String.Basic
import PortMate.DelimitedLists
import PortMate.LogBytesRefs
import PortMate.SnapshotVersion
import PortMate.Utf8Reading

namespace PortMate

open List

inductive SecretStorage
  | native | portable
  deriving DecidableEq

def SecretStorage.tokenByte : SecretStorage → UInt8
  | .native => 0
  | .portable => 1

structure ProfileSecretMigrationRequest where
  targetStorage : SecretStorage
  profileIds : List String
  cleanupSource : Bool

structure ProfileSecretMigrationPreview where
  planToken : String
  targetStorage : SecretStorage
  selectedProfileCount : UInt64
  affectedProfileCount : UInt64
  eligibleReferenceCount : UInt64
  eligibleSecretCount : UInt64
  retainedSharedSecretCount : UInt64
  retainedInFlightSecretCount : UInt64
  alreadyTargetReferenceCount : UInt64
  excludedReservedReferenceCount : UInt64

/-- An ordered map from secret references to how often the selected profiles use them. -/
structure SourceRefCounts where
  entries : List (String × UInt64)
  sorted : (entries.map Prod.fst).Pairwise (· < ·)

structure ProfileSecretMigrationPlan where
  preview : ProfileSecretMigrationPreview
  selectedProfileIds : List String
  affectedProfileIds : List String
  sourceRefCounts : SourceRefCounts
  inFlightSourceRefs : Finset String

open ProfileSecretMigrationPlan

/-- `update_migration_token_field`, as what it feeds to the digest. -/
def migrationTokenField (value : String) : List UInt8 :=
  toLeBytes 8 (byteLength value) ++ utf8Bytes value

def migrationTokenCount (count : UInt64) : List UInt8 := toLeBytes 8 count.toNat

def migrationTokenEntry (entry : String × UInt64) : List UInt8 :=
  migrationTokenField entry.1 ++ migrationTokenCount entry.2

namespace ProfileSecretMigrationPlan

variable (plan : ProfileSecretMigrationPlan) (request : ProfileSecretMigrationRequest)

def tokenCounts : List UInt8 :=
  [plan.preview.retainedSharedSecretCount, plan.preview.alreadyTargetReferenceCount,
    plan.preview.excludedReservedReferenceCount].flatMap migrationTokenCount

/-- All bytes that `profile_secret_migration_plan_token` feeds to the digest. -/
def tokenBytes : List UInt8 :=
  utf8Bytes "portmate-profile-secret-migration-v1\x00" ++
    request.targetStorage.tokenByte :: (if request.cleanupSource then 1 else 0) ::
    (plan.selectedProfileIds.flatMap migrationTokenField ++
      0xff :: (plan.affectedProfileIds.flatMap migrationTokenField ++
        0xfe :: (plan.sourceRefCounts.entries.flatMap migrationTokenEntry ++
          0xfd :: ((plan.inFlightSourceRefs.sort (· ≤ ·)).flatMap migrationTokenField ++
            plan.tokenCounts))))

end ProfileSecretMigrationPlan

def profileSecretMigrationPlanToken (sha256 : List UInt8 → List UInt8)
    (plan : ProfileSecretMigrationPlan) (request : ProfileSecretMigrationRequest) : List Char :=
  (sha256 (plan.tokenBytes request)).flatMap lowerHexByte

/-- What the ids and the secret references are taken to be. -/
structure TokenText (value : String) : Prop where
  filled : value ≠ ""
  clean : '\x00' ∉ value.toList
  short : byteLength value < 2 ^ 32

theorem toLeBytes_append (width more n : Nat) :
    toLeBytes (width + more) n = toLeBytes width n ++ toLeBytes more (n / 256 ^ width) := by
  induction width generalizing n with
  | zero => simp [toLeBytes]
  | succ width ih =>
    rw [Nat.add_right_comm, toLeBytes, toLeBytes, ih, cons_append, Nat.div_div_eq_div_mul,
      Nat.pow_succ']

theorem toLeBytes_zero (width : Nat) : toLeBytes width 0 = List.replicate width 0 := by
  induction width with
  | zero => rfl
  | succ width ih =>
    rw [toLeBytes, Nat.zero_div, ih]
    rfl

theorem utf8Bytes_filled {value : String} (filled : value ≠ "") : utf8Bytes value ≠ [] := by
  intro empty
  exact filled (utf8Bytes_injective (empty.trans rfl))

theorem migrationTokenField_shape {value : String} (text : TokenText value) :
    ∃ low first rest, migrationTokenField value = low ++ [0, 0, 0, 0] ++ first :: rest ∧
      low.length = 4 ∧ low[0]? = some (UInt8.ofNat (byteLength value)) ∧ first ≠ 0 ∧
      rest.length + 1 = byteLength value := by
  obtain ⟨first, rest, bytes⟩ := exists_cons_of_ne_nil (utf8Bytes_filled text.filled)
  have high : byteLength value / 256 ^ 4 = 0 :=
    Nat.div_eq_of_lt (by simpa using text.short)
  refine ⟨toLeBytes 4 (byteLength value), first, rest, ?_, by simp, rfl, ?_, ?_⟩
  · rw [migrationTokenField, toLeBytes_append 4 4, high, toLeBytes_zero, bytes]
    rfl
  · rintro rfl
    exact utf8Bytes_ne_zero text.clean (bytes ▸ mem_cons_self)
  · rw [byteLength, bytes, length_cons]

theorem migrationTokenField_delimiting : SelfDelimiting migrationTokenField TokenText := by
  intro a b more more' right right' same
  rw [migrationTokenField, migrationTokenField, append_assoc, append_assoc] at same
  obtain ⟨lengths, tails⟩ := append_inj same (by simp)
  have short := right.short
  have short' := right'.short
  have length := toLeBytes_inj (by omega) (by omega) lengths
  obtain ⟨bytes, rests⟩ := append_inj tails length
  exact ⟨utf8Bytes_injective bytes, rests⟩

theorem migrationTokenEntry_delimiting :
    SelfDelimiting migrationTokenEntry (fun entry => TokenText entry.1) := by
  intro a b more more' right right' same
  rw [migrationTokenEntry, migrationTokenEntry, append_assoc, append_assoc] at same
  obtain ⟨name, tails⟩ := migrationTokenField_delimiting _ _ _ _ right right' same
  obtain ⟨counts, rests⟩ := append_inj tails (by simp [migrationTokenCount])
  have count := toLeBytes_inj a.2.toNat_lt b.2.toNat_lt counts
  exact ⟨Prod.ext name (UInt64.toNat_inj.mp count), rests⟩

/-- A text that ends soon or has the zeros of a length near its front, at most `n` bytes behind
the place where a field has them. -/
def QuietStart (n : Nat) (text : List UInt8) : Prop :=
  text.length ≤ 24 + n ∨
    ∃ k, 4 ≤ k ∧ k ≤ 4 + n ∧ ∀ i, k ≤ i → i < k + 4 → text[i]? = some 0

theorem QuietStart.cons {n : Nat} {text : List UInt8} (quiet : QuietStart n text) (byte : UInt8) :
    QuietStart (n + 1) (byte :: text) := by
  obtain short | ⟨k, low, high, zeros⟩ := quiet
  · exact .inl (by rw [length_cons]; omega)
  · refine .inr ⟨k + 1, by omega, by omega, fun i reached within => ?_⟩
    obtain ⟨j, rfl⟩ : ∃ j, i = j + 1 := ⟨i - 1, by omega⟩
    rw [getElem?_cons_succ]
    exact zeros j (by omega) (by omega)

theorem migrationTokenField_zeros {value : String} (text : TokenText value) (more : List UInt8)
    {i : Nat} (low : 4 ≤ i) (high : i < 8) : (migrationTokenField value ++ more)[i]? = some 0 := by
  obtain ⟨front, first, rest, shape, four, -⟩ := migrationTokenField_shape text
  rw [shape, append_assoc, append_assoc, getElem?_append_right (by omega), four]
  obtain ⟨j, rfl, small⟩ : ∃ j, i = 4 + j ∧ j < 4 := ⟨i - 4, by omega, by omega⟩
  rw [Nat.add_sub_cancel_left]
  obtain _ | _ | _ | _ | j := j
  · rfl
  · rfl
  · rfl
  · rfl
  · omega

theorem QuietStart.items {α : Type} {item : α → List UInt8} {Right : α → Prop}
    (zeros : ∀ a more i, Right a → 4 ≤ i → i < 8 → (item a ++ more)[i]? = some 0)
    {n : Nat} {text : List UInt8} (quiet : QuietStart n text) {as : List α}
    (right : ∀ a ∈ as, Right a) : QuietStart n (as.flatMap item ++ text) := by
  cases as with
  | nil => exact quiet
  | cons a as =>
    rw [flatMap_cons, append_assoc]
    exact .inr ⟨4, Nat.le_refl 4, by omega, fun i =>
      zeros a _ i (right a mem_cons_self)⟩

theorem separator_not_field {n : Nat} {text more : List UInt8} (quiet : QuietStart n text)
    (near : n ≤ 3) {separator : UInt8} (large : 253 ≤ separator.toNat) {value : String}
    (right : TokenText value) : migrationTokenField value ++ more ≠ separator :: text := by
  intro same
  obtain ⟨front, first, rest, shape, four, lowest, nonzero, length⟩ :=
    migrationTokenField_shape right
  rw [shape] at same
  obtain short | ⟨k, low, high, zeros⟩ := quiet
  · have head := congrArg (·[0]?) same
    have lengths := congrArg List.length same
    simp only [append_assoc, length_append, length_cons] at lengths
    rw [append_assoc, append_assoc, getElem?_append_left (by omega), lowest,
      getElem?_cons_zero, Option.some.injEq] at head
    have size : byteLength value % 256 = separator.toNat := by rw [← head, UInt8.toNat_ofNat']
    omega
  · -- the first byte of the field stands where the text has the last of the four zeros
    have place := congrArg (·[8]?) same
    simp only [append_assoc] at place
    rw [getElem?_append_right (by omega), four, getElem?_cons_succ,
      zeros 7 (by omega) (by omega)] at place
    exact nonzero (Option.some.inj place)

theorem separator_closes {α : Type} {item : α → List UInt8} {Right : α → Prop}
    {key : α → String} (front : ∀ a, ∃ rest, item a = migrationTokenField (key a) ++ rest)
    (texts : ∀ a, Right a → TokenText (key a)) {n : Nat} {text : List UInt8}
    (quiet : QuietStart n text) (near : n ≤ 3) {separator : UInt8} (large : 253 ≤ separator.toNat)
    (behind : List UInt8) : ClosesBefore item Right behind (separator :: text) := by
  apply closesBefore_of_no_start
  intro a more right same
  obtain ⟨rest, shape⟩ := front a
  rw [shape, append_assoc] at same
  exact separator_not_field quiet near large (texts a right) same

theorem lowerHexByte_injective {a b : UInt8} (same : lowerHexByte a = lowerHexByte b) : a = b := by
  have digits : ∀ x y : Fin 16, lowerHexDigit x.1 = lowerHexDigit y.1 → x = y := by decide
  have aBound := a.toNat_lt
  have bBound := b.toNat_lt
  simp only [lowerHexByte, List.cons.injEq, and_true] at same
  have high := congrArg Fin.val (digits ⟨a.toNat / 16, by omega⟩ ⟨b.toNat / 16, by omega⟩ same.1)
  have low := congrArg Fin.val (digits ⟨a.toNat % 16, by omega⟩ ⟨b.toNat % 16, by omega⟩ same.2)
  apply UInt8.toNat_inj.mp
  simp only at high low
  omega

theorem lowerHex_injective {bytes bytes' : List UInt8}
    (same : bytes.flatMap lowerHexByte = bytes'.flatMap lowerHexByte) : bytes = bytes' := by
  have delimiting : SelfDelimiting lowerHexByte (fun _ => True) := by
    intro a b more more' _ _ same
    obtain ⟨bytes, rests⟩ := append_inj same rfl
    exact ⟨lowerHexByte_injective bytes, rests⟩
  have closes : ClosesBefore lowerHexByte (fun _ => True) [] [] :=
    closesBefore_of_length (fun _ _ => cons_ne_nil _ _) (Nat.le_refl 0)
  exact (delimited_injective delimiting closes closes (fun _ _ => trivial) (fun _ _ => trivial)
    (congrArg (· ++ []) same)).1

namespace ProfileSecretMigrationPlan

/-- Ids and secret references are filled, free of NUL and shorter than 2 ^ 32 bytes. -/
structure TokenTexts (plan : ProfileSecretMigrationPlan) : Prop where
  selected : ∀ id ∈ plan.selectedProfileIds, TokenText id
  affected : ∀ id ∈ plan.affectedProfileIds, TokenText id
  sources : ∀ entry ∈ plan.sourceRefCounts.entries, TokenText entry.1
  inFlight : ∀ secretRef ∈ plan.inFlightSourceRefs, TokenText secretRef

section Sections

variable {plan : ProfileSecretMigrationPlan}

theorem tokenCounts_length : plan.tokenCounts.length = 24 := rfl

theorem inFlight_quiet (texts : plan.TokenTexts) : QuietStart 0
    ((plan.inFlightSourceRefs.sort (· ≤ ·)).flatMap migrationTokenField ++ plan.tokenCounts) :=
  QuietStart.items (fun _ more _ right => migrationTokenField_zeros right more)
    (.inl (Nat.le_of_eq tokenCounts_length))
    fun secretRef mem => texts.inFlight secretRef ((Finset.mem_sort _).mp mem)

theorem sources_quiet (texts : plan.TokenTexts) : QuietStart 1
    (plan.sourceRefCounts.entries.flatMap migrationTokenEntry ++
      0xfd :: ((plan.inFlightSourceRefs.sort (· ≤ ·)).flatMap migrationTokenField ++
        plan.tokenCounts)) := by
  refine QuietStart.items (fun entry more i right low high => ?_)
    ((inFlight_quiet texts).cons 0xfd) texts.sources
  rw [migrationTokenEntry, append_assoc]
  exact migrationTokenField_zeros right _ low high

theorem affected_quiet (texts : plan.TokenTexts) : QuietStart 2
    (plan.affectedProfileIds.flatMap migrationTokenField ++
      0xfe :: (plan.sourceRefCounts.entries.flatMap migrationTokenEntry ++
        0xfd :: ((plan.inFlightSourceRefs.sort (· ≤ ·)).flatMap migrationTokenField ++
          plan.tokenCounts))) :=
  QuietStart.items (fun _ more _ right => migrationTokenField_zeros right more)
    ((sources_quiet texts).cons 0xfe) texts.affected

end Sections

section TokenBytes

variable {plan plan' : ProfileSecretMigrationPlan}

theorem tokenCounts_injective (same : plan.tokenCounts = plan'.tokenCounts) :
    plan.preview.retainedSharedSecretCount = plan'.preview.retainedSharedSecretCount ∧
      plan.preview.alreadyTargetReferenceCount = plan'.preview.alreadyTargetReferenceCount ∧
      plan.preview.excludedReservedReferenceCount =
        plan'.preview.excludedReservedReferenceCount := by
  have count : ∀ {x y : UInt64} {more more' : List UInt8},
      migrationTokenCount x ++ more = migrationTokenCount y ++ more' → x = y ∧ more = more' := by
    intro x y more more' same
    obtain ⟨counts, rests⟩ := append_inj same (by simp [migrationTokenCount])
    exact ⟨UInt64.toNat_inj.mp (toLeBytes_inj x.toNat_lt y.toNat_lt counts), rests⟩
  simp only [tokenCounts, flatMap_cons] at same
  obtain ⟨shared, same⟩ := count same
  obtain ⟨already, same⟩ := count same
  obtain ⟨reserved, -⟩ := count same
  exact ⟨shared, already, reserved⟩

theorem tokenLists_injective (texts : plan.TokenTexts) (texts' : plan'.TokenTexts)
    (same : plan.selectedProfileIds.flatMap migrationTokenField ++
        0xff :: (plan.affectedProfileIds.flatMap migrationTokenField ++
          0xfe :: (plan.sourceRefCounts.entries.flatMap migrationTokenEntry ++
            0xfd :: ((plan.inFlightSourceRefs.sort (· ≤ ·)).flatMap migrationTokenField ++
              plan.tokenCounts))) =
      plan'.selectedProfileIds.flatMap migrationTokenField ++
        0xff :: (plan'.affectedProfileIds.flatMap migrationTokenField ++
          0xfe :: (plan'.sourceRefCounts.entries.flatMap migrationTokenEntry ++
            0xfd :: ((plan'.inFlightSourceRefs.sort (· ≤ ·)).flatMap migrationTokenField ++
              plan'.tokenCounts)))) :
    plan.selectedProfileIds = plan'.selectedProfileIds ∧
      plan.affectedProfileIds = plan'.affectedProfileIds ∧
      plan.sourceRefCounts.entries = plan'.sourceRefCounts.entries ∧
      plan.inFlightSourceRefs.sort (· ≤ ·) = plan'.inFlightSourceRefs.sort (· ≤ ·) ∧
      plan.tokenCounts = plan'.tokenCounts := by
  have fields : ∀ value, ∃ rest, migrationTokenField value = migrationTokenField value ++ rest :=
    fun value => ⟨[], (append_nil _).symm⟩
  obtain ⟨selected, same⟩ := delimited_injective migrationTokenField_delimiting
    (separator_closes fields (fun _ => id) (affected_quiet texts) (by omega) (by decide) _)
    (separator_closes fields (fun _ => id) (affected_quiet texts') (by omega) (by decide) _)
    texts.selected texts'.selected same
  obtain ⟨affected, same⟩ := delimited_injective migrationTokenField_delimiting
    (separator_closes fields (fun _ => id) (sources_quiet texts) (by omega) (by decide) _)
    (separator_closes fields (fun _ => id) (sources_quiet texts') (by omega) (by decide) _)
    texts.affected texts'.affected (List.cons.inj same).2
  obtain ⟨sources, same⟩ := delimited_injective migrationTokenEntry_delimiting
    (separator_closes (fun entry => ⟨_, rfl⟩) (fun _ => id) (inFlight_quiet texts) (by omega)
      (by decide) _)
    (separator_closes (fun entry => ⟨_, rfl⟩) (fun _ => id) (inFlight_quiet texts') (by omega)
      (by decide) _)
    texts.sources texts'.sources (List.cons.inj same).2
  -- nothing shows the end of the last list but the length of what follows it
  have filled : ∀ value, TokenText value → migrationTokenField value ≠ [] := fun value _ empty => by
    have length := congrArg List.length empty
    simp [migrationTokenField] at length
  obtain ⟨inFlight, counts⟩ := delimited_injective migrationTokenField_delimiting
    (closesBefore_of_length filled (Nat.le_of_eq (by rw [tokenCounts_length, tokenCounts_length])))
    (closesBefore_of_length filled (Nat.le_of_eq (by rw [tokenCounts_length, tokenCounts_length])))
    (fun secretRef mem => texts.inFlight secretRef ((Finset.mem_sort _).mp mem))
    (fun secretRef mem => texts'.inFlight secretRef ((Finset.mem_sort _).mp mem))
    (List.cons.inj same).2
  exact ⟨selected, affected, sources, inFlight, counts⟩

end TokenBytes

end ProfileSecretMigrationPlan

theorem SecretStorage.tokenByte_injective : Function.Injective SecretStorage.tokenByte := by
  intro storage storage' same
  cases storage <;> cases storage' <;> first | rfl | exact absurd same (by decide)

/-- What a plan's token stands for: two plans with one token move the same secrets of the same
profiles to the same place. -/
theorem migration_plan_token_binds {sha256 : List UInt8 → List UInt8}
    (collisionFree : Function.Injective sha256) {plan plan' : ProfileSecretMigrationPlan}
    {request request' : ProfileSecretMigrationRequest} (texts : plan.TokenTexts)
    (texts' : plan'.TokenTexts)
    (same : profileSecretMigrationPlanToken sha256 plan request =
      profileSecretMigrationPlanToken sha256 plan' request') :
    request.targetStorage = request'.targetStorage ∧
      request.cleanupSource = request'.cleanupSource ∧
      plan.selectedProfileIds = plan'.selectedProfileIds ∧
      plan.affectedProfileIds = plan'.affectedProfileIds ∧
      plan.sourceRefCounts = plan'.sourceRefCounts ∧
      plan.inFlightSourceRefs = plan'.inFlightSourceRefs ∧
      plan.preview.retainedSharedSecretCount = plan'.preview.retainedSharedSecretCount ∧
      plan.preview.alreadyTargetReferenceCount = plan'.preview.alreadyTargetReferenceCount ∧
      plan.preview.excludedReservedReferenceCount =
        plan'.preview.excludedReservedReferenceCount := by
  have bytes := collisionFree (lowerHex_injective same)
  obtain ⟨storage, bytes⟩ := List.cons.inj (append_cancel_left bytes)
  obtain ⟨cleanup, lists⟩ := List.cons.inj bytes
  obtain ⟨selected, affected, sources, inFlight, counts⟩ :=
    tokenLists_injective texts texts' lists
  have sourceCounts : plan.sourceRefCounts = plan'.sourceRefCounts := by
    cases h : plan.sourceRefCounts
    cases h' : plan'.sourceRefCounts
    simpa [h, h'] using sources
  have secretRefs : plan.inFlightSourceRefs = plan'.inFlightSourceRefs := by
    rw [← Finset.sort_toFinset plan.inFlightSourceRefs (· ≤ ·), inFlight, Finset.sort_toFinset]
  refine ⟨SecretStorage.tokenByte_injective storage, ?_, selected, affected, sourceCounts,
    secretRefs, tokenCounts_injective counts⟩
  cases h : request.cleanupSource <;> cases h' : request'.cleanupSource <;>
    first | rfl | exact absurd cleanup (by rw [h, h']; decide)

def sampleMigration : ProfileSecretMigrationRequest where
  targetStorage := .portable
  profileIds := ["router"]
  cleanupSource := true

def samplePlan : ProfileSecretMigrationPlan where
  preview :=
    { planToken := ""
      targetStorage := .portable
      selectedProfileCount := 1
      affectedProfileCount := 1
      eligibleReferenceCount := 1
      eligibleSecretCount := 1
      retainedSharedSecretCount := 0
      retainedInFlightSecretCount := 0
      alreadyTargetReferenceCount := 0
      excludedReservedReferenceCount := 0 }
  selectedProfileIds := ["router"]
  affectedProfileIds := ["router"]
  sourceRefCounts := ⟨[("keychain:pw", 1)], pairwise_singleton _ _⟩
  inFlightSourceRefs := ∅

theorem samplePlan_texts : samplePlan.TokenTexts where
  selected := by
    intro id mem
    rw [mem_singleton.mp mem]
    exact ⟨by decide, by decide, by decide⟩
  affected := by
    intro id mem
    rw [mem_singleton.mp mem]
    exact ⟨by decide, by decide, by decide⟩
  sources := by
    intro entry mem
    rw [mem_singleton.mp mem]
    exact ⟨by decide, by decide, by decide⟩
  inFlight := fun _ mem => absurd mem (Finset.notMem_empty _)

/-- The digest of the sample's token, and of nothing else a text of that length. -/
def sampleTokenDigest (bytes : List UInt8) : List UInt8 :=
  if bytes = samplePlan.tokenBytes sampleMigration then
    [186, 9, 177, 188, 131, 98, 55, 30, 97, 203, 200, 169, 157, 12, 62, 5, 177, 121, 184, 93,
      15, 76, 159, 235, 2, 191, 255, 228, 70, 161, 82, 216]
  else List.replicate 33 0 ++ bytes

theorem sampleTokenDigest_injective : Function.Injective sampleTokenDigest := by
  intro bytes bytes' same
  unfold sampleTokenDigest at same
  split at same
  next first =>
    split at same
    next second => exact first.trans second.symm
    next => exact absurd (congrArg List.length same) (by simp)
  next =>
    split at same
    · exact absurd (congrArg List.length same) (by simp)
    · exact append_cancel_left same

def sampleMigrationTwice : ProfileSecretMigrationRequest :=
  { sampleMigration with profileIds := ["router", "router"] }

theorem sample_plan_token_binds :
    profileSecretMigrationPlanToken sampleTokenDigest samplePlan sampleMigrationTwice =
        profileSecretMigrationPlanToken sampleTokenDigest samplePlan sampleMigration ∧
      sampleMigrationTwice.targetStorage = sampleMigration.targetStorage ∧
      sampleMigrationTwice.cleanupSource = sampleMigration.cleanupSource :=
  have bound := @migration_plan_token_binds _ sampleTokenDigest_injective samplePlan samplePlan
    sampleMigrationTwice sampleMigration samplePlan_texts samplePlan_texts rfl
  ⟨rfl, bound.1, bound.2.1⟩

end PortMate
