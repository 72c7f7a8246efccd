import Mathlib.Data.List.Infix
import Mathlib.Data.List.Nodup
import PortMate.CommandHistory

namespace PortMate

open List HistoryOperation

theorem normalizeHistorySessionId_idem {value kept : List Char}
    (normalized : normalizeHistorySessionId value = some kept) :
    normalizeHistorySessionId kept = some kept := by
  unfold normalizeHistorySessionId at normalized ⊢
  dsimp only at normalized ⊢
  split at normalized
  next valid =>
    cases normalized
    rw [trimText_idem, if_pos valid]
  next => cases normalized

theorem sessionId_idem (sessionId : Option (List Char)) :
    (sessionId.bind normalizeHistorySessionId).bind normalizeHistorySessionId =
      sessionId.bind normalizeHistorySessionId := by
  cases normalized : sessionId.bind normalizeHistorySessionId with
  | none => rfl
  | some kept =>
    obtain ⟨value, _, normalized⟩ := Option.bind_eq_some_iff.mp normalized
    exact normalizeHistorySessionId_idem normalized

theorem recordedTime_idem (now recordedAt : Int) :
    recordedTime now (recordedTime now recordedAt) = recordedTime now recordedAt := by
  unfold recordedTime
  omega

theorem recordedTime_mono (now : Int) {first second : Int} (order : first ≤ second) :
    recordedTime now first ≤ recordedTime now second := by
  unfold recordedTime
  omega

namespace CommandHistoryEntry

variable (entry : CommandHistoryEntry)

@[simp]
theorem candidate_identity (now : Int) : (entry.candidate now).identity = entry.identity :=
  congrArg (Prod.mk entry.command) (sessionId_idem entry.sessionId)

@[simp]
theorem candidate_candidate (now : Int) :
    (entry.candidate now).candidate now = entry.candidate now := by
  unfold candidate
  dsimp only
  rw [recordedTime_idem, sessionId_idem]

end CommandHistoryEntry

open CommandHistoryEntry

theorem utf8Length_join (texts : List (List Char)) (last : List Char) :
    utf8Length ([','].intercalate (texts ++ [last])) =
      utf8Length ([','].intercalate texts) + (utf8Length last + if texts.isEmpty then 0 else 1) := by
  induction texts with
  | nil => simp [utf8Length]
  | cons text texts ih =>
    have comma : utf8Length [','] = 1 := by decide
    have joined : [','].intercalate ((text :: texts) ++ [last]) =
        text ++ [','] ++ [','].intercalate (texts ++ [last]) :=
      intercalate_cons_of_ne_nil (by simp)
    rw [joined, utf8Length_append, utf8Length_append, ih, comma]
    cases texts with
    | nil =>
      simp only [intercalate_singleton, intercalate_nil, isEmpty_nil, if_true,
        isEmpty_cons]
      have none : utf8Length [] = 0 := rfl
      rw [none]
      simp only [Bool.false_eq_true, if_false]
      omega
    | cons next texts =>
      rw [intercalate_cons_cons, utf8Length_append, utf8Length_append, comma]
      simp only [isEmpty_cons, Bool.false_eq_true, if_false]
      omega

theorem commandHistoryJson_nil : utf8Length (commandHistoryJson []) =
    commandHistoryEmptySnapshotBytes := by decide

theorem commandHistoryJson_concat (entries : List CommandHistoryEntry) (entry : CommandHistoryEntry) :
    utf8Length (commandHistoryJson (entries ++ [entry])) =
      utf8Length (commandHistoryJson entries) +
        (utf8Length entry.json + if entries.isEmpty then 0 else 1) := by
  unfold commandHistoryJson
  rw [map_append, map_singleton, utf8Length_append, utf8Length_append, utf8Length_join,
    utf8Length_append, utf8Length_append, isEmpty_map]
  omega

theorem commandHistoryJson_append_le (entries more : List CommandHistoryEntry) :
    utf8Length (commandHistoryJson entries) ≤ utf8Length (commandHistoryJson (entries ++ more)) := by
  induction more using List.reverseRecOn with
  | nil => rw [append_nil]
  | append_singleton more entry ih =>
    rw [← append_assoc, commandHistoryJson_concat]
    omega

structure HistoryEntryValid (cutoff now : Int) (entry : CommandHistoryEntry) : Prop where
  usable : entry.unusable = false
  clean : entry.candidate now = entry
  recent : cutoff ≤ entry.recordedAt

structure HistoryValid (limit : Nat) (cutoff now : Int) (entries : List CommandHistoryEntry) :
    Prop where
  entry : ∀ entry ∈ entries, HistoryEntryValid cutoff now entry
  unique : (entries.map CommandHistoryEntry.identity).Nodup
  few : entries.length ≤ limit
  fits : utf8Length (commandHistoryJson entries) ≤ maxCommandHistoryStorageBytes

namespace HistoryScan

/-- What the loop carries besides the entries is determined by them. -/
structure Sound (scan : HistoryScan) : Prop where
  seen : ∀ identity, identity ∈ scan.seen ↔
    identity ∈ scan.normalized.map CommandHistoryEntry.identity
  bytes : scan.bytes = utf8Length (commandHistoryJson scan.normalized)

theorem start_sound : start.Sound where
  seen := fun _ => by simp [start]
  bytes := commandHistoryJson_nil.symm

variable {scan : HistoryScan} {limit : Nat} {cutoff now : Int}

theorem Sound.fits_iff (sound : scan.Sound) (candidate : CommandHistoryEntry) :
    scan.bytes + scan.entryBytes candidate =
      utf8Length (commandHistoryJson (scan.normalized ++ [candidate])) := by
  rw [commandHistoryJson_concat, sound.bytes]
  rfl

theorem Sound.push (sound : scan.Sound) (now : Int) (entry : CommandHistoryEntry) :
    (scan.push now entry).Sound where
  seen := fun identity => by
    have added : (scan.push now entry).normalized.map CommandHistoryEntry.identity =
        scan.normalized.map CommandHistoryEntry.identity ++ [entry.identity] := by
      rw [HistoryScan.push, map_append, map_singleton,
        candidate_identity]
    rw [added, mem_append, ← sound.seen, mem_singleton]
    exact mem_cons.trans or_comm
  bytes := sound.fits_iff (entry.candidate now)

theorem Sound.skips_iff (sound : scan.Sound) (entry : CommandHistoryEntry) :
    scan.skips cutoff now entry = true ↔ entry.unusable = true ∨
      entry.identity ∈ scan.normalized.map CommandHistoryEntry.identity ∨
      recordedTime now entry.recordedAt < cutoff ∨
      maxCommandHistoryStorageBytes <
        utf8Length (commandHistoryJson (scan.normalized ++ [entry.candidate now])) := by
  unfold skips
  rw [sound.fits_iff]
  simp only [Bool.or_eq_true, contains_iff_mem, sound.seen, decide_eq_true_eq, or_assoc]

theorem Sound.push_valid (sound : scan.Sound) {entry : CommandHistoryEntry}
    (valid : HistoryValid limit cutoff now scan.normalized)
    (taken : scan.skips cutoff now entry = false) (room : scan.normalized.length < limit) :
    HistoryValid limit cutoff now (scan.push now entry).normalized := by
  have free := mt (@Sound.skips_iff scan cutoff now sound entry).mpr (by simp [taken])
  simp only [not_or, Bool.not_eq_true, Int.not_lt, Nat.not_lt] at free
  obtain ⟨usable, fresh, recent, fits⟩ := free
  refine ⟨fun kept listed => ?_, ?_, ?_, fits⟩
  · obtain old | new := mem_append.mp listed
    · exact valid.entry kept old
    · obtain rfl := mem_singleton.mp new
      exact ⟨usable, entry.candidate_candidate now, recent⟩
  · rw [HistoryScan.push, map_append, map_singleton, nodup_append]
    refine ⟨valid.unique, nodup_singleton _, fun first old second new same => ?_⟩
    rw [mem_singleton, candidate_identity] at new
    exact fresh (new ▸ same ▸ old)
  · rw [HistoryScan.push, length_append, length_singleton]
    exact room

theorem loop_extends (limit : Nat) (cutoff now : Int) (scan : HistoryScan)
    (entries : List CommandHistoryEntry) :
    ∃ more, (normalizeHistoryEntries limit cutoff now scan entries).normalized =
        scan.normalized ++ more ∧
      more.Sublist (entries.map (·.candidate now)) := by
  induction entries generalizing scan with
  | nil => exact ⟨[], (append_nil _).symm, nil_sublist _⟩
  | cons entry rest ih =>
    rw [normalizeHistoryEntries]
    split
    · obtain ⟨more, result, part⟩ := ih scan
      exact ⟨more, result, part.trans (sublist_cons_self _ _)⟩
    · dsimp only
      split
      · exact ⟨[entry.candidate now], rfl, (nil_sublist _).cons_cons _⟩
      · obtain ⟨more, result, part⟩ := ih (scan.push now entry)
        refine ⟨entry.candidate now :: more, ?_, part.cons_cons _⟩
        rw [result, HistoryScan.push, append_assoc]
        rfl

theorem Sound.loop_valid (sound : scan.Sound) (valid : HistoryValid limit cutoff now scan.normalized)
    (room : scan.normalized.length < limit) (entries : List CommandHistoryEntry) :
    HistoryValid limit cutoff now
      (normalizeHistoryEntries limit cutoff now scan entries).normalized := by
  induction entries generalizing scan with
  | nil => exact valid
  | cons entry rest ih =>
    rw [normalizeHistoryEntries]
    split
    · exact ih sound valid room
    next taken =>
      have pushed := sound.push_valid valid (Bool.eq_false_iff.mpr taken) room
      dsimp only
      split
      · exact pushed
      next more => exact ih (sound.push now entry) pushed (Nat.lt_of_not_le more)

theorem Sound.loop_of_valid (sound : scan.Sound) {entries : List CommandHistoryEntry}
    (valid : HistoryValid limit cutoff now (scan.normalized ++ entries)) :
    (normalizeHistoryEntries limit cutoff now scan entries).normalized =
      scan.normalized ++ entries := by
  induction entries generalizing scan with
  | nil => exact (append_nil _).symm
  | cons entry rest ih =>
    obtain ⟨usable, clean, recent⟩ := valid.entry entry (by simp)
    have split_rest : scan.normalized ++ entry :: rest = scan.normalized ++ [entry] ++ rest := by
      rw [append_assoc]
      rfl
    have taken : ¬ scan.skips cutoff now entry = true := by
      rw [sound.skips_iff, clean]
      have time : recordedTime now entry.recordedAt = entry.recordedAt :=
        congrArg CommandHistoryEntry.recordedAt clean
      have unique := valid.unique
      rw [map_append, nodup_append] at unique
      have fits := (commandHistoryJson_append_le (scan.normalized ++ [entry]) rest).trans
        (split_rest ▸ valid.fits)
      rintro (bad | known | old | large)
      · simp [usable] at bad
      · exact unique.2.2 _ known entry.identity (by simp) rfl
      · omega
      · omega
    have pushed : (scan.push now entry).normalized = scan.normalized ++ [entry] := by
      rw [HistoryScan.push, clean]
    rw [normalizeHistoryEntries, if_neg taken]
    dsimp only
    rw [split_rest, ← pushed] at valid ⊢
    split
    next full =>
      have few := valid.few
      rw [length_append] at few
      have none : rest = [] := eq_nil_of_length_eq_zero (by omega)
      rw [none, append_nil]
    next => exact ih (sound.push now entry) valid

theorem loop_one {entry : CommandHistoryEntry} (taken : ¬ scan.skips cutoff now entry = true) :
    (normalizeHistoryEntries limit cutoff now scan [entry]).normalized =
      (scan.push now entry).normalized := by
  rw [normalizeHistoryEntries, if_neg taken]
  dsimp only
  split <;> rfl

theorem loop_append (scan : HistoryScan) (first second : List CommandHistoryEntry)
    (room : (normalizeHistoryEntries limit cutoff now scan first).normalized.length < limit) :
    normalizeHistoryEntries limit cutoff now scan (first ++ second) =
      normalizeHistoryEntries limit cutoff now
        (normalizeHistoryEntries limit cutoff now scan first) second := by
  induction first generalizing scan with
  | nil => rfl
  | cons entry rest ih =>
    rw [cons_append, normalizeHistoryEntries, normalizeHistoryEntries]
    rw [normalizeHistoryEntries] at room
    split
    next skip =>
      rw [if_pos skip] at room
      exact ih scan room
    next taken =>
      rw [if_neg taken] at room
      dsimp only at room ⊢
      split
      next full =>
        rw [if_pos full] at room
        omega
      next more =>
        rw [if_neg more] at room
        exact ih (scan.push now entry) room

theorem Sound.loop (sound : scan.Sound) (entries : List CommandHistoryEntry) :
    (normalizeHistoryEntries limit cutoff now scan entries).Sound := by
  induction entries generalizing scan with
  | nil => exact sound
  | cons entry rest ih =>
    rw [normalizeHistoryEntries]
    split
    · exact ih sound
    · dsimp only
      split
      · exact sound.push now entry
      · exact ih (sound.push now entry)

theorem commandHistoryJson_prefix_le {entries more : List CommandHistoryEntry}
    (part : entries <+: more) (entry : CommandHistoryEntry) :
    utf8Length (commandHistoryJson (entries ++ [entry])) ≤
      utf8Length (commandHistoryJson (more ++ [entry])) := by
  obtain ⟨tail, rfl⟩ := part
  have bytes := commandHistoryJson_append_le entries tail
  rw [commandHistoryJson_concat, commandHistoryJson_concat]
  cases entries with
  | nil => simp only [isEmpty_nil, if_true]; omega
  | cons first rest =>
    simp only [cons_append, isEmpty_cons, Bool.false_eq_true, if_false] at bytes ⊢
    omega

theorem identity_ne_of_before {before after : List CommandHistoryEntry} {kept : CommandHistoryEntry}
    (unique : ((before ++ kept :: after).map CommandHistoryEntry.identity).Nodup)
    {identity : List Char × Option (List Char)}
    (known : identity ∈ before.map CommandHistoryEntry.identity) : identity ≠ kept.identity := by
  rw [map_append, nodup_append] at unique
  exact unique.2.2 identity known kept.identity (by simp)

/-- An entry under the identity of one that was taken later was passed over for itself, for its
time, or for want of room. -/
theorem Sound.loop_explained (sound : scan.Sound)
    (valid : HistoryValid limit cutoff now scan.normalized) (room : scan.normalized.length < limit)
    {entries before after : List CommandHistoryEntry} {kept : CommandHistoryEntry}
    (result : (normalizeHistoryEntries limit cutoff now scan entries).normalized =
      before ++ kept :: after) (added : scan.normalized.length ≤ before.length) :
    ∃ earlier entry later, entries = earlier ++ entry :: later ∧ entry.candidate now = kept ∧
      ∀ passed ∈ earlier, passed.identity = kept.identity →
        passed.unusable = true ∨ recordedTime now passed.recordedAt < cutoff ∨
          maxCommandHistoryStorageBytes <
            utf8Length (commandHistoryJson (before ++ [passed.candidate now])) := by
  induction entries generalizing scan with
  | nil =>
    have sizes := congrArg List.length result
    rw [normalizeHistoryEntries, length_append, length_cons] at sizes
    omega
  | cons entry rest ih =>
    have unique := (sound.loop_valid valid room (entry :: rest)).unique
    rw [result] at unique
    obtain ⟨more, extended, _⟩ := loop_extends limit cutoff now scan (entry :: rest)
    have start : scan.normalized <+: before :=
      prefix_of_prefix_length_le ⟨more, extended.symm.trans result⟩ ⟨kept :: after, rfl⟩ added
    by_cases skip : scan.skips cutoff now entry = true
    · rw [normalizeHistoryEntries, if_pos skip] at result
      obtain ⟨earlier, source, later, rfl, same, passed⟩ := ih sound valid room result added
      refine ⟨entry :: earlier, source, later, rfl, same, fun other listed own => ?_⟩
      obtain rfl | listed := mem_cons.mp listed
      · obtain bad | known | old | large := (sound.skips_iff other).mp skip
        · exact .inl bad
        · exact absurd own (identity_ne_of_before unique
            ((start.map CommandHistoryEntry.identity).subset known))
        · exact .inr (.inl old)
        · exact .inr (.inr (large.trans_le (commandHistoryJson_prefix_le start _)))
      · exact passed other listed own
    · have pushed := sound.push_valid valid (Bool.eq_false_iff.mpr skip) room
      have grown : (scan.push now entry).normalized = scan.normalized ++ [entry.candidate now] := rfl
      rw [normalizeHistoryEntries, if_neg skip] at result
      dsimp only at result
      obtain same | beyond := added.eq_or_lt
      · have equal : scan.normalized = before := start.eq_of_length same
        subst equal
        refine ⟨[], entry, rest, rfl, ?_, by simp⟩
        have next : (scan.push now entry).normalized <+: scan.normalized ++ kept :: after := by
          rw [← result]
          split
          · exact prefix_rfl
          · obtain ⟨more, extended, _⟩ := loop_extends limit cutoff now (scan.push now entry) rest
            exact ⟨more, extended.symm⟩
        rw [grown, prefix_append_right_inj] at next
        exact (cons_prefix_cons.mp next).1
      · split at result
        next =>
          have sizes := congrArg List.length result
          rw [grown, length_append, length_append, length_singleton,
            length_cons] at sizes
          omega
        next more =>
          have reached : (scan.push now entry).normalized.length ≤ before.length := by
            rw [grown, length_append, length_singleton]
            exact beyond
          obtain ⟨earlier, source, later, rfl, same, passed⟩ :=
            ih (sound.push now entry) pushed (Nat.lt_of_not_le more) result reached
          refine ⟨entry :: earlier, source, later, rfl, same, fun other listed own => ?_⟩
          obtain rfl | listed := mem_cons.mp listed
          · obtain ⟨more, extended, _⟩ := loop_extends limit cutoff now (scan.push now other)
              (earlier ++ source :: later)
            have inside : (scan.push now other).normalized <+: before :=
              prefix_of_prefix_length_le ⟨more, extended.symm.trans result⟩
                ⟨kept :: after, rfl⟩ reached
            have known : other.identity ∈ before.map CommandHistoryEntry.identity :=
              (inside.map CommandHistoryEntry.identity).subset (by simp [grown])
            exact absurd own (identity_ne_of_before unique known)
          · exact passed other listed own

end HistoryScan

open HistoryScan

section Normalized

variable {entries kept : List CommandHistoryEntry} {limit retentionDays : Nat} {now : Int}

theorem normalizedCommandHistory_eq
    (normalized : normalizedCommandHistory entries limit retentionDays now = .ok kept) :
    0 < limit ∧ limit ≤ maxCommandHistoryEntries ∧
      retentionDays ≤ maxCommandHistoryRetentionDays ∧
      (normalizeHistoryEntries limit (historyCutoff retentionDays now) now .start
        (entries.take maxCommandHistoryInputEntries)).normalized = kept := by
  unfold normalizedCommandHistory at normalized
  split at normalized
  · cases normalized
  next bounded =>
    split at normalized
    · cases normalized
    next days =>
      simp only [Bool.or_eq_true, decide_eq_true_eq, not_or] at bounded
      exact ⟨by omega, by omega, by omega, Except.ok.inj normalized⟩

theorem start_valid (limit : Nat) (cutoff now : Int) :
    HistoryValid limit cutoff now start.normalized where
  entry := fun _ none => absurd none not_mem_nil
  unique := nodup_nil
  few := Nat.zero_le limit
  fits := by decide

theorem normalizedCommandHistory_valid
    (normalized : normalizedCommandHistory entries limit retentionDays now = .ok kept) :
    HistoryValid limit (historyCutoff retentionDays now) now kept := by
  obtain ⟨positive, _, _, rfl⟩ := normalizedCommandHistory_eq normalized
  exact HistoryScan.start_sound.loop_valid (start_valid _ _ _) positive _

theorem normalizedCommandHistory_idem
    (normalized : normalizedCommandHistory entries limit retentionDays now = .ok kept) :
    normalizedCommandHistory kept limit retentionDays now = .ok kept := by
  obtain ⟨positive, bounded, days, _⟩ := normalizedCommandHistory_eq normalized
  have valid := normalizedCommandHistory_valid normalized
  have whole : kept.take maxCommandHistoryInputEntries = kept :=
    take_of_length_le (valid.few.trans (bounded.trans (by decide)))
  have again : (normalizeHistoryEntries limit (historyCutoff retentionDays now) now .start
      kept).normalized = [] ++ kept := HistoryScan.start_sound.loop_of_valid valid
  rw [normalizedCommandHistory, if_neg (by simp; omega), if_neg (by omega), whole, again]
  rfl

end Normalized

namespace CommandHistory

variable (history : CommandHistory) (limit retentionDays : Nat) (now : Int)

/-- The history with normalized entries, and the revision that goes with them. -/
def renewed (kept : List CommandHistoryEntry) : CommandHistory :=
  { history with
    entries := kept
    migrated := true
    revision :=
      if history.entries ≠ kept ∨ history.migrated = false then history.revision + 1
      else history.revision }

theorem renewed_revision (kept : List CommandHistoryEntry) :
    (history.renewed kept).revision = history.revision +
      if history.entries ≠ (history.renewed kept).entries ∨ history.migrated = false then 1 else 0 := by
  by_cases changed : history.entries ≠ kept ∨ history.migrated = false
  · have one : (if history.entries ≠ kept ∨ history.migrated = false then 1 else 0) = 1 :=
      if_pos changed
    exact (if_pos changed).trans (congrArg (history.revision + ·) one.symm)
  · have none : (if history.entries ≠ kept ∨ history.migrated = false then 1 else 0) = 0 :=
      if_neg changed
    exact (if_neg changed).trans (congrArg (history.revision + ·) none.symm)

theorem replaceCommandHistory_cases (entries : List CommandHistoryEntry) :
    (∃ error, history.replaceCommandHistory entries limit retentionDays now =
        (.error error, history)) ∨
      ∃ kept, normalizedCommandHistory entries limit retentionDays now = .ok kept ∧
        history.replaceCommandHistory entries limit retentionDays now =
          (.ok kept, history.renewed kept) := by
  unfold replaceCommandHistory
  cases normalized : normalizedCommandHistory entries limit retentionDays now with
  | error error => exact .inl ⟨error, rfl⟩
  | ok kept =>
    dsimp only
    split
    · exact .inl ⟨_, rfl⟩
    · refine .inr ⟨kept, rfl, ?_⟩
      rw [renewed]
      congr 2
      simp only [Bool.or_eq_true, decide_eq_true_eq, Bool.not_eq_true']

theorem historyCutoff_le (retentionDays : Nat) (now : Int) :
    historyCutoff retentionDays now ≤ recordedTime now now := by
  have past : i64Min ≤ 0 := by decide
  unfold historyCutoff recordedTime
  split <;> omega

theorem recordCommandHistory_cases (command : List Char) (sessionId : Option (List Char)) :
    (∃ error, history.recordCommandHistory command sessionId limit retentionDays now =
        (.error error, history)) ∨
      ∃ entries kept rest, normalizedCommandHistory entries limit retentionDays now = .ok kept ∧
        history.recordCommandHistory command sessionId limit retentionDays now =
          (.ok kept, history.renewed kept) ∧
        kept = ⟨command, recordedTime now now, sessionId.bind normalizeHistorySessionId⟩ :: rest := by
  let new : CommandHistoryEntry := ⟨command, now, sessionId⟩
  unfold recordCommandHistory
  cases checked : normalizedCommandHistory [new] 1 0 now with
  | error error => exact .inl ⟨error, rfl⟩
  | ok candidates =>
    cases candidates with
    | nil => exact .inl ⟨_, rfl⟩
    | cons candidate others =>
      obtain ⟨_, _, _, scanned⟩ := normalizedCommandHistory_eq checked
      have one : [new].take maxCommandHistoryInputEntries = [new] :=
        take_of_length_le (show 1 ≤ maxCommandHistoryInputEntries by decide)
      have taken : ¬ start.skips (historyCutoff 0 now) now new = true := by
        intro skip
        rw [one, normalizeHistoryEntries, if_pos skip] at scanned
        cases scanned
      have same : candidate = new.candidate now := by
        rw [one, normalizeHistoryEntries, if_neg taken] at scanned
        dsimp only at scanned
        split at scanned <;> exact (List.cons.inj scanned).1.symm
      subst same
      let source : CommandHistoryEntry := ⟨command, now, (new.candidate now).sessionId⟩
      have source_candidate : source.candidate now = new.candidate now :=
        congrArg (CommandHistoryEntry.mk command _) (sessionId_idem sessionId)
      have source_taken : ¬ start.skips (historyCutoff retentionDays now) now source =
          true := by
        rw [HistoryScan.start_sound.skips_iff, source_candidate]
        rw [HistoryScan.start_sound.skips_iff] at taken
        have recent := historyCutoff_le retentionDays now
        rintro (bad | known | old | large)
        · exact taken (.inl bad)
        · exact absurd known not_mem_nil
        · exact absurd old (Int.not_lt.mpr recent)
        · exact taken (.inr (.inr (.inr large)))
      obtain refused | ⟨kept, normalized, renewed⟩ :=
        history.replaceCommandHistory_cases limit retentionDays now
          (source :: history.entries.filter fun entry =>
            entry.command ≠ command || entry.sessionId ≠ (new.candidate now).sessionId)
      · exact .inl refused
      · obtain ⟨_, _, _, scanned⟩ := normalizedCommandHistory_eq normalized
        have first : ∃ rest, kept = new.candidate now :: rest := by
          rw [maxCommandHistoryInputEntries, take_cons (by decide), normalizeHistoryEntries,
            if_neg source_taken] at scanned
          dsimp only at scanned
          split at scanned
          · exact ⟨[], by rw [← scanned, push, source_candidate]; rfl⟩
          · obtain ⟨more, extended, _⟩ := loop_extends limit
              (historyCutoff retentionDays now) now (start.push now source)
              ((history.entries.filter fun entry => entry.command ≠ command ||
                entry.sessionId ≠ (new.candidate now).sessionId).take
                  (maxCommandHistoryEntries * 2 - 1))
            refine ⟨more, ?_⟩
            rw [← scanned, extended, push, source_candidate]
            rfl
        obtain ⟨rest, first⟩ := first
        exact .inr ⟨_, kept, rest, normalized, renewed, first⟩

theorem run_cases (operation : HistoryOperation) :
    (∃ error, operation.run history now = (.error error, history)) ∨
      operation.skipped history = true ∧ (operation.run history now).2 = history ∨
      operation.skipped history = false ∧ ∃ entries kept,
        normalizedCommandHistory entries (operation.bounds history).1 (operation.bounds history).2
          now = .ok kept ∧
        operation.run history now = (.ok kept, history.renewed kept) := by
  cases operation with
  | record command sessionId limit retentionDays =>
    obtain refused | ⟨entries, kept, _, normalized, renewed, _⟩ :=
      history.recordCommandHistory_cases limit retentionDays now command sessionId
    · exact .inl refused
    · exact .inr (.inr ⟨rfl, entries, kept, normalized, renewed⟩)
  | merge entries limit retentionDays =>
    obtain refused | ⟨kept, normalized, renewed⟩ :=
      history.replaceCommandHistory_cases limit retentionDays now
        ((entries ++ history.entries).mergeSort fun first second =>
          second.recordedAt ≤ first.recordedAt)
    · exact .inl refused
    · exact .inr (.inr ⟨rfl, _, kept, normalized, renewed⟩)
  | replace entries limit retentionDays =>
    obtain refused | ⟨kept, normalized, renewed⟩ :=
      history.replaceCommandHistory_cases limit retentionDays now entries
    · exact .inl refused
    · exact .inr (.inr ⟨rfl, _, kept, normalized, renewed⟩)
  | clear =>
    obtain refused | ⟨kept, normalized, renewed⟩ :=
      history.replaceCommandHistory_cases maxCommandHistoryEntries 0 now []
    · exact .inl refused
    · exact .inr (.inr ⟨rfl, _, kept, normalized, renewed⟩)
  | migrate entries =>
    simp only [run, skipped, migrateCommandHistory]
    split
    · exact .inl ⟨_, rfl⟩
    · split
      next off => exact .inr (.inl ⟨Bool.or_eq_true_iff.mpr (.inl off), rfl⟩)
      next on =>
        split
        next empty => exact .inr (.inl ⟨by simp [empty], rfl⟩)
        next some =>
          obtain refused | ⟨kept, normalized, renewed⟩ :=
            history.replaceCommandHistory_cases history.policy.limit history.policy.retentionDays now
              (if history.migrated then history.entries else entries)
          · exact .inl refused
          · refine .inr (.inr ⟨?_, _, kept, normalized, renewed⟩)
            simp only [Bool.or_eq_false_iff]
            exact ⟨Bool.eq_false_iff.mpr on, Bool.eq_false_iff.mpr some⟩

end CommandHistory

section Merge

variable {entries kept : List CommandHistoryEntry} {limit retentionDays : Nat} {now : Int}

theorem merged_sorted (entries : List CommandHistoryEntry) :
    (entries.mergeSort fun first second =>
      second.recordedAt ≤ first.recordedAt).Pairwise fun first second =>
        second.recordedAt ≤ first.recordedAt := by
  have sorted : (entries.mergeSort fun first second =>
      second.recordedAt ≤ first.recordedAt).Pairwise fun first second =>
        decide (second.recordedAt ≤ first.recordedAt) = true :=
    pairwise_mergeSort (fun a b c first second => by simp only [decide_eq_true_eq] at *; omega)
      (fun a b => by simp only [Bool.or_eq_true, decide_eq_true_eq]; omega) entries
  exact sorted.imp of_decide_eq_true

theorem normalizedCommandHistory_sorted
    (sorted : entries.Pairwise fun first second => second.recordedAt ≤ first.recordedAt)
    (normalized : normalizedCommandHistory entries limit retentionDays now = .ok kept) :
    kept.Pairwise fun first second => second.recordedAt ≤ first.recordedAt := by
  obtain ⟨_, _, _, rfl⟩ := normalizedCommandHistory_eq normalized
  obtain ⟨more, extended, part⟩ := loop_extends limit (historyCutoff retentionDays now)
    now .start (entries.take maxCommandHistoryInputEntries)
  rw [extended]
  refine List.Pairwise.sublist part (pairwise_map.mpr ?_)
  exact (sorted.sublist (take_sublist _ _)).imp fun order => recordedTime_mono now order

theorem normalizedCommandHistory_newest
    (sorted : entries.Pairwise fun first second => second.recordedAt ≤ first.recordedAt)
    (normalized : normalizedCommandHistory entries limit retentionDays now = .ok kept)
    {before after : List CommandHistoryEntry} {entry : CommandHistoryEntry}
    (result : kept = before ++ entry :: after) :
    (∃ source ∈ entries, source.candidate now = entry) ∧
      ∀ source ∈ entries, source.identity = entry.identity →
        entry.recordedAt < recordedTime now source.recordedAt →
          maxCommandHistoryStorageBytes <
            utf8Length (commandHistoryJson (before ++ [source.candidate now])) := by
  have valid := (normalizedCommandHistory_valid normalized).entry entry (by simp [result])
  obtain ⟨positive, _, _, scanned⟩ := normalizedCommandHistory_eq normalized
  obtain ⟨earlier, source, later, taken, same, passed⟩ :=
    HistoryScan.start_sound.loop_explained (start_valid limit _ now) positive
      (scanned.trans result) (Nat.zero_le _)
  have whole : entries = earlier ++ source :: (later ++ entries.drop maxCommandHistoryInputEntries) := by
    refine (take_append_drop maxCommandHistoryInputEntries entries).symm.trans ?_
    rw [taken, append_assoc, cons_append]
  refine ⟨⟨source, by rw [whole]; simp, same⟩, fun other listed own newer => ?_⟩
  have time : recordedTime now source.recordedAt = entry.recordedAt :=
    congrArg CommandHistoryEntry.recordedAt same
  have ahead : other ∈ earlier := by
    rw [whole, mem_append, mem_cons] at listed
    obtain first | rfl | behind := listed
    · exact first
    · omega
    · rw [whole, pairwise_append, pairwise_cons] at sorted
      have order := recordedTime_mono now (sorted.2.1.1 other behind)
      omega
  obtain bad | old | large := passed other ahead own
  · have command : other.command = entry.command := congrArg Prod.fst own
    have usable := valid.usable
    rw [unusable, ← command] at usable
    exact absurd (bad.symm.trans usable) (by simp)
  · have recent := valid.recent
    omega
  · exact large

end Merge

/-- Every operation of the command history either leaves the store as it is, or makes it valid and
raises the revision by one exactly if it changed it or was the first; merging keeps the newest time
of every identity, as far as there is room for it. -/
theorem command_history_kept (history : CommandHistory) (now : Int) :
    (∀ operation : HistoryOperation,
      (∀ error, (operation.run history now).1 = .error error →
        (operation.run history now).2 = history) ∧
      (operation.skipped history = true → (operation.run history now).2 = history) ∧
      ∀ kept, operation.skipped history = false → (operation.run history now).1 = .ok kept →
        let next := (operation.run history now).2
        let bounds := operation.bounds history
        next.entries = kept ∧ next.migrated = true ∧
          HistoryValid bounds.1 (historyCutoff bounds.2 now) now next.entries ∧
          normalizedCommandHistory kept bounds.1 bounds.2 now = .ok kept ∧
          next.revision = history.revision +
            if history.entries ≠ next.entries ∨ history.migrated = false then 1 else 0) ∧
    (∀ entries limit retentionDays kept,
      (history.mergeCommandHistory entries limit retentionDays now).1 = .ok kept →
        (kept.Pairwise fun first second => second.recordedAt ≤ first.recordedAt) ∧
        ∀ before entry after, kept = before ++ entry :: after →
          (∃ source ∈ entries ++ history.entries, source.candidate now = entry) ∧
          ∀ source ∈ entries ++ history.entries, source.identity = entry.identity →
            entry.recordedAt < recordedTime now source.recordedAt →
              maxCommandHistoryStorageBytes <
                utf8Length (commandHistoryJson (before ++ [source.candidate now]))) ∧
    ∀ command sessionId limit retentionDays kept,
      (history.recordCommandHistory command sessionId limit retentionDays now).1 = .ok kept →
        ∃ rest, kept =
          ⟨command, recordedTime now now, sessionId.bind normalizeHistorySessionId⟩ :: rest := by
  refine ⟨fun operation => ?_, ?_, ?_⟩
  · obtain ⟨error, refused⟩ | ⟨skips, same⟩ | ⟨goes, entries, kept, normalized, renewed⟩ :=
      history.run_cases now operation
    · rw [refused]
      exact ⟨fun _ _ => rfl, fun _ => rfl, fun kept _ wrong => by cases wrong⟩
    · refine ⟨fun _ _ => same, fun _ => same, fun kept goes => ?_⟩
      exact absurd (skips.symm.trans goes) (by simp)
    · rw [renewed]
      refine ⟨fun _ wrong => (nomatch wrong), fun skips => ?_, fun result _ same => ?_⟩
      · exact absurd (skips.symm.trans goes) (by simp)
      · cases same
        refine ⟨rfl, rfl, normalizedCommandHistory_valid normalized,
          normalizedCommandHistory_idem normalized, history.renewed_revision kept⟩
  · intro entries limit retentionDays kept merged
    let sorted := (entries ++ history.entries).mergeSort fun first second =>
      second.recordedAt ≤ first.recordedAt
    obtain ⟨error, refused⟩ | ⟨result, normalized, renewed⟩ :=
      history.replaceCommandHistory_cases limit retentionDays now sorted
    · exact absurd (merged.symm.trans (congrArg Prod.fst refused)) (by simp)
    · cases merged.symm.trans (congrArg Prod.fst renewed)
      have order := merged_sorted (entries ++ history.entries)
      refine ⟨normalizedCommandHistory_sorted order normalized, fun before entry after result => ?_⟩
      have listed : ∀ source, source ∈ sorted ↔ source ∈ entries ++ history.entries := fun source =>
        mem_mergeSort
      have newest := normalizedCommandHistory_newest order normalized result
      simp only [← listed]
      exact newest
  · intro command sessionId limit retentionDays kept recorded
    obtain ⟨error, refused⟩ | ⟨_, result, rest, _, renewed, first⟩ :=
      history.recordCommandHistory_cases limit retentionDays now command sessionId
    · exact absurd (recorded.symm.trans (congrArg Prod.fst refused)) (by simp)
    · cases recorded.symm.trans (congrArg Prod.fst renewed)
      exact ⟨rest, first⟩

section Full

/-- Forty-two commands that leave some 36 KB of the storage free. -/
def fillingEntry (i : Nat) : CommandHistoryEntry :=
  ⟨List.replicate (8192 - i) '\x01', 2000000000000, none⟩

def fillingEntries (n : Nat) : List CommandHistoryEntry := (List.range n).map fillingEntry

def lastEntry (recordedAt : Int) : CommandHistoryEntry :=
  ⟨List.replicate 6018 '\x02', recordedAt, none⟩

theorem fillingEntry_length (i : Nat) : (fillingEntry i).identity.1.length = 8192 - i :=
  length_replicate

theorem lastEntry_length (recordedAt : Int) : (lastEntry recordedAt).identity.1.length = 6018 :=
  length_replicate

theorem json_replicate {c : Char} (escaped : utf8Length (jsonCharacter c) = 6) (n : Nat)
    (recordedAt : Int) :
    utf8Length (json ⟨List.replicate n c, recordedAt, none⟩) =
      6 * n + utf8Length (json ⟨[], recordedAt, none⟩) := by
  have text : utf8Length ((List.replicate n c).flatMap jsonCharacter) = 6 * n := by
    induction n with
    | zero => rfl
    | succ n ih =>
      rw [replicate_succ, flatMap_cons, utf8Length_append, ih, escaped]
      omega
  unfold json jsonText
  generalize "\x7b\"command\":".toList = opening
  generalize ",\"recordedAt\":".toList = middle
  generalize "\x7d".toList = closing
  generalize (toString recordedAt).toList = digits
  rw [flatMap_nil]
  simp only [utf8Length_append, text]
  have none : utf8Length [] = 0 := rfl
  omega

theorem trimText_replicate {c : Char} (dark : isRustWhitespace c = false) (n : Nat) :
    trimText (List.replicate n c) = List.replicate n c := by
  have kept : (List.replicate n c).dropWhile isRustWhitespace = List.replicate n c := by
    cases n with
    | zero => rfl
    | succ n => rw [replicate_succ, dropWhile_cons_of_neg (by simp [dark])]
  rw [trimText, kept, List.rdropWhile, reverse_replicate, kept, reverse_replicate]

theorem fillingEntries_bytes (n : Nat) (few : n < 8192) :
    utf8Length (commandHistoryJson (fillingEntries (n + 1))) + 6 * (List.range (n + 1)).sum =
      67 + 42 * n + 49152 * (n + 1) := by
  have escaped : utf8Length (jsonCharacter '\x01') = 6 := by decide
  have bare : utf8Length (json ⟨[], 2000000000000, none⟩) = 41 := by
    decide
  have each : ∀ i, utf8Length (fillingEntry i).json = 6 * (8192 - i) + 41 := fun i => by
    rw [fillingEntry, json_replicate escaped, bare]
  have empty : commandHistoryEmptySnapshotBytes = 26 := by decide
  have grown : ∀ n, fillingEntries (n + 1) = fillingEntries n ++ [fillingEntry n] := fun n => by
    rw [fillingEntries, range_succ, map_append]
    rfl
  have total : ∀ n, (List.range (n + 1)).sum = (List.range n).sum + n := fun n => by
    rw [range_succ, sum_append, sum_singleton]
  induction n with
  | zero =>
    have none : fillingEntries 0 = [] := rfl
    rw [grown, none, commandHistoryJson_concat, each, commandHistoryJson_nil, empty]
    rfl
  | succ n ih =>
    have before := ih (by omega)
    rw [grown, commandHistoryJson_concat, each, total]
    have some : (fillingEntries (n + 1)).isEmpty = false := by
      rw [grown]
      simp
    simp only [some, Bool.false_eq_true, if_false]
    omega

theorem fillingEntries_full : utf8Length (commandHistoryJson (fillingEntries 42)) = 2061007 := by
  have bytes := fillingEntries_bytes 41 (by decide)
  have sum : (List.range (41 + 1)).sum = 861 := by decide
  have size : 41 + 1 = 42 := rfl
  rw [sum, size] at bytes
  generalize utf8Length (commandHistoryJson (fillingEntries 42)) = total at bytes ⊢
  omega

theorem replicate_usable {c : Char} (dark : isRustWhitespace c = false) (plain : c ≠ '\x00')
    {n : Nat} (positive : 0 < n) (few : n ≤ 8192) (recordedAt : Int) :
    unusable ⟨List.replicate n c, recordedAt, none⟩ = false := by
  have some : (trimText (List.replicate n c)).isEmpty = false := by
    rw [trimText_replicate dark]
    cases n with
    | zero => omega
    | succ n => rfl
  have clean : (List.replicate n c).contains '\x00' = false := by
    simpa using fun _ => plain.symm
  have short : ¬ maxCommandHistoryCommandCharacters < n := by
    show ¬ 8192 < n
    omega
  simp only [unusable, some, clean, length_replicate, short, decide_false,
    Bool.or_self]

theorem fillingEntries_valid : HistoryValid 10000 i64Min 3000000000000 (fillingEntries 42) where
  entry := by
    intro entry listed
    obtain ⟨i, inside, rfl⟩ := mem_map.mp listed
    have small := mem_range.mp inside
    exact ⟨replicate_usable (by decide) (by decide) (by omega) (by omega) _, rfl,
      show i64Min ≤ 2000000000000 by decide⟩
  unique := by
    rw [fillingEntries, map_map]
    refine List.Nodup.map_on (fun i first j second same => ?_) nodup_range
    have lengths := fillingEntry_length i
    rw [show (fillingEntry i).identity = (fillingEntry j).identity from same,
      fillingEntry_length] at lengths
    have small := mem_range.mp first
    have other := mem_range.mp second
    omega
  few := by
    rw [fillingEntries, length_map, length_range]
    decide
  fits := by
    rw [fillingEntries_full]
    decide

/-- The newer time of a command takes twelve bytes more than the older one; where only the older one
fits, merging keeps that. -/
theorem merge_keeps_older_time :
    let history : CommandHistory := ⟨[], false, 0, ⟨true, 10000, 0⟩⟩
    let entries := fillingEntries 42 ++ [lastEntry 1000000000000, lastEntry 0]
    ∃ kept, (history.mergeCommandHistory entries 10000 0 3000000000000).1 = .ok kept ∧
      lastEntry 0 ∈ kept ∧
      (lastEntry 1000000000000).identity = (lastEntry 0).identity ∧
      (lastEntry 0).recordedAt <
        recordedTime 3000000000000 (lastEntry 1000000000000).recordedAt := by
  intro history entries
  have sorted : entries.Pairwise fun first second =>
      decide (second.recordedAt ≤ first.recordedAt) = true := by
    refine pairwise_append.mpr ⟨?_, ?_, ?_⟩
    · exact pairwise_map.mpr (pairwise_of_forall fun _ _ =>
        decide_eq_true (Int.le_refl 2000000000000))
    · exact pairwise_pair.mpr (show decide ((0 : Int) ≤ 1000000000000) = true by decide)
    · intro first filling second last
      obtain ⟨i, _, rfl⟩ := mem_map.mp filling
      obtain rfl | last := mem_cons.mp last
      · exact show decide ((1000000000000 : Int) ≤ 2000000000000) = true by decide
      · obtain rfl := mem_singleton.mp last
        exact show decide ((0 : Int) ≤ 2000000000000) = true by decide
  have merged : (entries ++ history.entries).mergeSort (fun first second =>
      second.recordedAt ≤ first.recordedAt) = entries := by
    have none : history.entries = [] := rfl
    rw [none, append_nil, mergeSort_of_pairwise sorted]
  have whole : entries.take maxCommandHistoryInputEntries = entries := by
    refine take_of_length_le ?_
    simp only [entries, fillingEntries, length_append, length_map, length_range]
    decide
  let filled := normalizeHistoryEntries 10000 i64Min 3000000000000 .start (fillingEntries 42)
  have kept : filled.normalized = fillingEntries 42 :=
    HistoryScan.start_sound.loop_of_valid fillingEntries_valid
  have sound : filled.Sound := HistoryScan.start_sound.loop _
  have size : filled.normalized.length = 42 := by
    rw [kept, fillingEntries, length_map, length_range]
  have escaped : utf8Length (jsonCharacter '\x02') = 6 := by decide
  have some : (fillingEntries 42).isEmpty = false := rfl
  have newer : filled.skips i64Min 3000000000000 (lastEntry 1000000000000) = true := by
    rw [sound.skips_iff, kept, commandHistoryJson_concat]
    have bare : utf8Length (json ⟨[], 1000000000000, none⟩) = 41 := by
      decide
    have own : utf8Length ((lastEntry 1000000000000).candidate 3000000000000).json =
        6 * 6018 + 41 := (json_replicate escaped 6018 1000000000000).trans (by rw [bare])
    rw [own, some, fillingEntries_full]
    exact .inr (.inr (.inr (by decide)))
  have clean : (lastEntry 0).candidate 3000000000000 = lastEntry 0 := rfl
  have older : ¬ filled.skips i64Min 3000000000000 (lastEntry 0) = true := by
    rw [sound.skips_iff, kept, clean, commandHistoryJson_concat]
    have bare : utf8Length (json ⟨[], 0, none⟩) = 29 := by decide
    have own : utf8Length (lastEntry 0).json = 6 * 6018 + 29 :=
      (json_replicate escaped 6018 0).trans (by rw [bare])
    rw [own, some, fillingEntries_full]
    rintro (bad | known | old | large)
    · exact absurd bad (by
        rw [lastEntry, replicate_usable (by decide) (by decide) (by decide) (by decide)]
        decide)
    · obtain ⟨entry, listed, same⟩ := mem_map.mp known
      obtain ⟨i, inside, rfl⟩ := mem_map.mp listed
      have small := mem_range.mp inside
      have lengths := fillingEntry_length i
      rw [same, lastEntry_length] at lengths
      omega
    · exact absurd old (show ¬ (0 : Int) < i64Min by decide)
    · exact absurd large (by decide)
  have scanned : (normalizeHistoryEntries 10000 i64Min 3000000000000 .start entries).normalized =
      fillingEntries 42 ++ [lastEntry 0] := by
    have room : filled.normalized.length < 10000 := by
      rw [size]
      decide
    have pushed : (filled.push 3000000000000 (lastEntry 0)).normalized =
        fillingEntries 42 ++ [lastEntry 0] := by rw [push, kept, clean]
    rw [loop_append .start (fillingEntries 42) _ room]
    rw [normalizeHistoryEntries, if_pos newer]
    exact (loop_one older).trans pushed
  have normalized : normalizedCommandHistory entries 10000 0 3000000000000 =
      .ok (fillingEntries 42 ++ [lastEntry 0]) := by
    have cutoff : historyCutoff 0 3000000000000 = i64Min := if_pos rfl
    rw [normalizedCommandHistory, if_neg (by decide), if_neg (by decide), whole, cutoff, scanned]
  refine ⟨fillingEntries 42 ++ [lastEntry 0], ?_, by simp, rfl, by decide⟩
  rw [CommandHistory.mergeCommandHistory, merged, CommandHistory.replaceCommandHistory, normalized]
  dsimp only
  rw [if_neg fun both => absurd (Bool.and_eq_true_iff.mp both).2 (by decide)]

end Full

end PortMate
