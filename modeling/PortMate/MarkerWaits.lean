import PortMate.SegmentedReads
import PortMate.TelnetText

namespace PortMate

open List Option

/-- `Remembers longest seen kept`: of what was seen, all is kept or at least one place fewer than
the longest pattern has. -/
def Remembers {α : Type} (longest : Nat) (seen kept : List α) : Prop :=
  ∃ old, seen = old ++ kept ∧ (old = [] ∨ longest ≤ kept.length + 1)

section Remembering

variable {α : Type} {longest : Nat} {seen kept : List α}

theorem remembers_nil : Remembers longest ([] : List α) [] := ⟨[], rfl, .inl rfl⟩

theorem Remembers.append (remembers : Remembers longest seen kept) (more : List α) :
    Remembers longest (seen ++ more) (kept ++ more) := by
  obtain ⟨old, rfl, enough⟩ := remembers
  refine ⟨old, append_assoc old kept more, enough.imp_right fun long => ?_⟩
  rw [length_append]
  omega

theorem Remembers.drop (remembers : Remembers longest seen kept) {count : Nat}
    (enough : longest ≤ (kept.drop count).length + 1) :
    Remembers longest seen (kept.drop count) := by
  obtain ⟨old, rfl, -⟩ := remembers
  exact ⟨old ++ kept.take count,
    by rw [append_assoc, take_append_drop], .inr enough⟩

variable [BEq α] [LawfulBEq α] {pattern : List α}

theorem Remembers.search (remembers : Remembers longest seen kept)
    (fits : pattern.length ≤ longest) (absent : ¬ pattern <:+: seen) (more : List α) :
    findPattern pattern (seen ++ more) =
      (findPattern pattern (kept ++ more)).map (· + (seen.length - kept.length)) := by
  obtain ⟨old, rfl, enough⟩ := remembers
  rw [findPattern_behind absent (enough.imp_right (Nat.le_trans fits)), length_append,
    Nat.add_sub_cancel]

theorem Remembers.occurs (remembers : Remembers longest seen kept)
    (fits : pattern.length ≤ longest) (absent : ¬ pattern <:+: seen) (more : List α) :
    (findPattern pattern (kept ++ more)).isSome = (findPattern pattern (seen ++ more)).isSome := by
  rw [remembers.search fits absent more, isSome_map]

end Remembering

/-- A buffer of more than 64 KiB is cut back to its last bytes. -/
def cutBack (keep : Nat) (buffered : List UInt8) : List UInt8 :=
  if 64 * 1024 < buffered.length then buffered.drop (buffered.length - keep) else buffered

theorem Remembers.cutBack {longest : Nat} {seen kept : List UInt8}
    (remembers : Remembers longest seen kept) :
    Remembers longest seen (cutBack (longest - 1) kept) := by
  unfold PortMate.cutBack
  split
  · by_cases long : longest - 1 ≤ kept.length
    · apply remembers.drop
      rw [length_drop]
      omega
    · rw [Nat.sub_eq_zero_of_le (by omega), drop_zero]
      exact remembers
  · exact remembers

/-- The reader that a transfer goes on with: the bytes behind the marker that came with it, and the
messages that are still to come. -/
structure MarkerReader where
  pending : List UInt8
  receiver : List (List UInt8)

def MarkerReader.bytes (reader : MarkerReader) : List UInt8 :=
  reader.pending ++ reader.receiver.flatten

/-- The wait for a marker with what is buffered so far; it has no result as long as messages are
missing. -/
def afterMarkerFrom (marker buffered : List UInt8) : List (List UInt8) → Option MarkerReader
  | [] => none
  | bytes :: receiver =>
    let buffered := buffered ++ bytes
    match findPattern marker buffered with
    | some offset => some { pending := buffered.drop (offset + marker.length), receiver }
    | none => afterMarkerFrom marker (cutBack (marker.length - 1) buffered) receiver

def afterMarker (marker : List UInt8) (receiver : List (List UInt8)) : Option MarkerReader :=
  afterMarkerFrom marker [] receiver

theorem afterMarkerFrom_bytes {marker seen buffered : List UInt8} (filled : marker ≠ [])
    (remembers : Remembers marker.length seen buffered) (absent : ¬ marker <:+: seen)
    (receiver : List (List UInt8)) :
    (afterMarkerFrom marker buffered receiver).map MarkerReader.bytes =
      (findPattern marker (seen ++ receiver.flatten)).map fun offset =>
        (seen ++ receiver.flatten).drop (offset + marker.length) := by
  induction receiver generalizing seen buffered with
  | nil =>
    rw [flatten_nil, append_nil, (findPattern_eq_none filled).mpr absent]
    rfl
  | cons bytes receiver ih =>
    have search := remembers.search (Nat.le_refl _) absent bytes
    rw [afterMarkerFrom, flatten_cons, ← append_assoc]
    cases found : findPattern marker (buffered ++ bytes) with
    | some offset =>
      rw [found] at search
      have fits := findPattern_length found
      rw [findPattern_append receiver.flatten search]
      obtain ⟨old, rfl, -⟩ := remembers
      have place : offset + ((old ++ buffered).length - buffered.length) + marker.length =
          old.length + (offset + marker.length) := by
        rw [length_append]
        omega
      have handed : (old ++ buffered ++ bytes ++ receiver.flatten).drop
          (old.length + (offset + marker.length)) =
            (buffered ++ bytes).drop (offset + marker.length) ++ receiver.flatten := by
        rw [append_assoc old, append_assoc old, drop_length_add_append,
          drop_append_of_le_length fits]
      simp only [map_some, MarkerReader.bytes, place, handed]
    | none =>
      rw [found] at search
      exact ih (remembers.append bytes).cutBack ((findPattern_eq_none filled).mp search)

theorem not_infix_nil {α : Type} {pattern : List α} (filled : pattern ≠ []) :
    ¬ pattern <:+: [] := fun inside => filled (infix_nil.mp inside)

theorem afterMarker_bytes {marker : List UInt8} (filled : marker ≠ [])
    (receiver : List (List UInt8)) :
    (afterMarker marker receiver).map MarkerReader.bytes =
      (findPattern marker receiver.flatten).map fun offset =>
        receiver.flatten.drop (offset + marker.length) :=
  afterMarkerFrom_bytes filled remembers_nil (not_infix_nil filled) receiver

theorem afterMarker_isSome {marker : List UInt8} (filled : marker ≠ [])
    (receiver : List (List UInt8)) :
    (afterMarker marker receiver).isSome ↔ marker <:+: receiver.flatten := by
  have same := congrArg isSome (afterMarker_bytes filled receiver)
  rw [isSome_map, isSome_map] at same
  rw [same, findPattern_isSome filled]

theorem afterMarker_handsOn {marker : List UInt8} (filled : marker ≠ [])
    {receiver : List (List UInt8)} {reader : MarkerReader}
    (found : afterMarker marker receiver = some reader) :
    ∃ before, receiver.flatten = before ++ marker ++ reader.bytes ∧
      ∀ earlier < before.length, ¬ marker <+: receiver.flatten.drop earlier := by
  have bytes := afterMarker_bytes filled receiver
  rw [found, map_some, eq_comm, map_eq_some_iff] at bytes
  obtain ⟨offset, foundAt, bytes⟩ := bytes
  have fits := findPattern_length foundAt
  refine ⟨receiver.flatten.take offset, ?_, ?_⟩
  · obtain ⟨behind, here⟩ := findPattern_match foundAt
    rw [← drop_drop, ← here, drop_left] at bytes
    rw [← bytes, append_assoc, here, take_append_drop]
  · rw [length_take, Nat.min_eq_left (by omega)]
    exact findPattern_first foundAt

/-- What a wait for the end of a command looks for, and what its error begins with. -/
structure CompletionMarkers where
  success : List UInt8
  failure : List UInt8
  failed : List Char

namespace CompletionMarkers

variable (markers : CompletionMarkers)

def longest : Nat := max markers.success.length markers.failure.length

def waitFrom (output : List UInt8) : List (List UInt8) → Option (Except (List Char) Unit)
  | [] => none
  | bytes :: receiver =>
    let output := output ++ bytes
    if (findPattern markers.success output).isSome then some (.ok ())
    else if (findPattern markers.failure output).isSome then
      some (.error (markers.failed ++ fromUtf8Lossy output))
    else waitFrom (cutBack (markers.longest - 1) output) receiver

def wait (receiver : List (List UInt8)) : Option (Except (List Char) Unit) :=
  markers.waitFrom [] receiver

/-- The result is the one of the marker that occurs. -/
def Answers (stream : List UInt8) (result : Option (Except (List Char) Unit)) : Prop :=
  (result = some (.ok ()) ↔ markers.success <:+: stream) ∧
    ((∃ message, result = some (.error message)) ↔ markers.failure <:+: stream)

variable {markers}

theorem waitFrom_answers (successFilled : markers.success ≠ []) (failureFilled : markers.failure ≠ [])
    {seen output : List UInt8} (remembers : Remembers markers.longest seen output)
    (noSuccess : ¬ markers.success <:+: seen) (noFailure : ¬ markers.failure <:+: seen)
    (receiver : List (List UInt8))
    (oneOnly : ¬ (markers.success <:+: seen ++ receiver.flatten ∧
      markers.failure <:+: seen ++ receiver.flatten)) :
    markers.Answers (seen ++ receiver.flatten) (markers.waitFrom output receiver) := by
  induction receiver generalizing seen output with
  | nil =>
    rw [flatten_nil, append_nil]
    exact ⟨iff_of_false nofun noSuccess, iff_of_false nofun noFailure⟩
  | cons bytes receiver ih =>
    have success := remembers.occurs (Nat.le_max_left _ markers.failure.length) noSuccess bytes
    have failure := remembers.occurs (Nat.le_max_right markers.success.length _) noFailure bytes
    have later : seen ++ bytes <+: seen ++ (bytes :: receiver).flatten := by
      rw [flatten_cons, ← append_assoc]
      exact prefix_append _ _
    rw [waitFrom]
    simp only [success, failure, findPattern_isSome successFilled, findPattern_isSome failureFilled]
    split
    next here =>
      have occurs := here.trans later.isInfix
      exact ⟨iff_of_true rfl occurs, iff_of_false nofun fun other => oneOnly ⟨occurs, other⟩⟩
    next noSuccess =>
      split
      next here =>
        have occurs := here.trans later.isInfix
        exact ⟨iff_of_false nofun fun other => oneOnly ⟨other, occurs⟩,
          iff_of_true ⟨_, rfl⟩ occurs⟩
      next noFailure =>
        rw [flatten_cons, ← append_assoc] at oneOnly ⊢
        exact ih (remembers.append bytes).cutBack noSuccess noFailure oneOnly

theorem wait_answers (successFilled : markers.success ≠ []) (failureFilled : markers.failure ≠ [])
    (receiver : List (List UInt8))
    (oneOnly : ¬ (markers.success <:+: receiver.flatten ∧ markers.failure <:+: receiver.flatten)) :
    markers.Answers receiver.flatten (markers.wait receiver) :=
  waitFrom_answers successFilled failureFilled remembers_nil (not_infix_nil successFilled)
    (not_infix_nil failureFilled) receiver oneOnly

end CompletionMarkers

end PortMate
