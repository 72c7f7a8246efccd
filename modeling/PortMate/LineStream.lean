namespace PortMate

open List

variable {α : Type} [BEq α] [LawfulBEq α]

/-- The parts of the stream that a separator has ended. -/
def endedParts (separator : α) (stream : List α) : List (List α) :=
  (stream.splitOn separator).dropLast

def openPart (separator : α) (stream : List α) : List α :=
  (stream.splitOn separator).getLast (splitOn_ne_nil separator stream)

variable {separator : α}

omit [LawfulBEq α] in
theorem endedParts_concat_openPart (stream : List α) :
    endedParts separator stream ++ [openPart separator stream] = stream.splitOn separator :=
  dropLast_concat_getLast _

theorem endedParts_plain {stream : List α} (plain : separator ∉ stream) :
    endedParts separator stream = [] := by
  rw [endedParts, splitOn_eq_singleton plain, dropLast_singleton]

theorem openPart_plain {stream : List α} (plain : separator ∉ stream) :
    openPart separator stream = stream := by
  simp only [openPart, splitOn_eq_singleton plain, getLast_singleton]

theorem endedParts_append_cons {part : List α} (plain : separator ∉ part) (rest : List α) :
    endedParts separator (part ++ separator :: rest) = part :: endedParts separator rest := by
  rw [endedParts, splitOn_append_cons_self_of_not_mem plain,
    dropLast_cons_of_ne_nil (splitOn_ne_nil separator rest), endedParts]

theorem openPart_append_cons {part : List α} (plain : separator ∉ part) (rest : List α) :
    openPart separator (part ++ separator :: rest) = openPart separator rest := by
  simp only [openPart, splitOn_append_cons_self_of_not_mem plain,
    getLast_cons (splitOn_ne_nil separator rest)]

variable (separator) in
theorem stream_induction {motive : List α → Prop}
    (plain : ∀ part, separator ∉ part → motive part)
    (ended : ∀ part rest, separator ∉ part → motive rest → motive (part ++ separator :: rest))
    (stream : List α) : motive stream := by
  by_cases none : separator ∉ stream
  · exact plain stream none
  · obtain ⟨part, rest, rfl, plainPart⟩ := eq_append_cons_of_mem (Decidable.not_not.mp none)
    have shorter : rest.length < (part ++ separator :: rest).length := by simp; omega
    exact ended part rest plainPart (stream_induction plain ended rest)
termination_by stream.length

theorem not_mem_openPart (stream : List α) : separator ∉ openPart separator stream := by
  induction stream using stream_induction separator with
  | plain part plain =>
    rw [openPart_plain plain]
    exact plain
  | ended part rest plain ih =>
    rw [openPart_append_cons plain]
    exact ih

theorem not_mem_endedParts {stream part : List α} (mem : part ∈ endedParts separator stream) :
    separator ∉ part := by
  induction stream using stream_induction separator with
  | plain start plain =>
    rw [endedParts_plain plain] at mem
    cases mem
  | ended first rest plain ih =>
    rw [endedParts_append_cons plain] at mem
    rcases mem_cons.mp mem with rfl | later
    · exact plain
    · exact ih later

theorem splitOn_openPart (stream more : List α) :
    endedParts separator (stream ++ more) =
        endedParts separator stream ++ endedParts separator (openPart separator stream ++ more) ∧
      openPart separator (stream ++ more) = openPart separator (openPart separator stream ++ more) := by
  induction stream using stream_induction separator with
  | plain part plain =>
    rw [endedParts_plain plain, openPart_plain plain]
    exact ⟨rfl, rfl⟩
  | ended part rest plain ih =>
    rw [append_assoc, cons_append, endedParts_append_cons plain,
      endedParts_append_cons plain, openPart_append_cons plain, openPart_append_cons plain,
      ih.1, ih.2]
    exact ⟨rfl, rfl⟩

theorem exists_part_longer {start : List α} (plain : separator ∉ start) (more : List α) :
    ∃ part ∈ (start ++ more).splitOn separator, start.length ≤ part.length := by
  by_cases ends : separator ∈ more
  · obtain ⟨part, rest, rfl, plainPart⟩ := eq_append_cons_of_mem ends
    have split := splitOn_append_cons_self_of_not_mem
      (show separator ∉ start ++ part by simp [plain, plainPart]) rest
    rw [← append_assoc, split]
    exact ⟨start ++ part, mem_cons_self, by simp⟩
  · rw [splitOn_eq_singleton (show separator ∉ start ++ more by simp [plain, ends])]
    exact ⟨start ++ more, mem_singleton_self _, by simp⟩

/-- `split_inclusive`: each part with its separator, the last one perhaps without. -/
def splitInclusive (separator : α) : List α → List (List α)
  | [] => []
  | x :: rest =>
    if x == separator then [x] :: splitInclusive separator rest
    else
      match splitInclusive separator rest with
      | [] => [[x]]
      | part :: parts => (x :: part) :: parts

def remainder (separator : α) (stream : List α) : List (List α) :=
  if (openPart separator stream).isEmpty then [] else [openPart separator stream]

theorem not_mem_cons {x : α} {part : List α} (plain : separator ∉ x :: part) :
    ¬(x == separator) = true ∧ separator ∉ part := by
  rw [mem_cons, not_or] at plain
  exact ⟨fun same => plain.1 (eq_of_beq same).symm, plain.2⟩

theorem splitInclusive_plain {part : List α} (plain : separator ∉ part) :
    splitInclusive separator part = if part.isEmpty then [] else [part] := by
  induction part with
  | nil => rfl
  | cons x part ih =>
    obtain ⟨differs, plain⟩ := not_mem_cons plain
    rw [splitInclusive, if_neg differs, ih plain]
    cases part <;> rfl

theorem splitInclusive_append_cons {part : List α} (plain : separator ∉ part) (rest : List α) :
    splitInclusive separator (part ++ separator :: rest) =
      (part ++ [separator]) :: splitInclusive separator rest := by
  induction part with
  | nil => rw [nil_append, splitInclusive, if_pos (beq_self_eq_true separator), nil_append]
  | cons x part ih =>
    obtain ⟨differs, plain⟩ := not_mem_cons plain
    rw [cons_append, splitInclusive, if_neg differs, ih plain]
    rfl

theorem splitInclusive_eq (stream : List α) : splitInclusive separator stream =
    (endedParts separator stream).map (· ++ [separator]) ++ remainder separator stream := by
  induction stream using stream_induction separator with
  | plain part plain =>
    rw [endedParts_plain plain, remainder, openPart_plain plain, splitInclusive_plain plain]
    rfl
  | ended part rest plain ih =>
    rw [splitInclusive_append_cons plain, ih, endedParts_append_cons plain, remainder, remainder,
      openPart_append_cons plain]
    rfl

theorem endedParts_joined {parts : List (List α)} (plain : ∀ part ∈ parts, separator ∉ part)
    (more : List α) :
    endedParts separator (parts.flatMap (· ++ [separator]) ++ more) =
        parts ++ endedParts separator more ∧
      openPart separator (parts.flatMap (· ++ [separator]) ++ more) = openPart separator more := by
  induction parts with
  | nil => exact ⟨rfl, rfl⟩
  | cons part parts ih =>
    obtain ⟨first, others⟩ := forall_mem_cons.mp plain
    have shape : (part :: parts).flatMap (· ++ [separator]) ++ more =
        part ++ separator :: (parts.flatMap (· ++ [separator]) ++ more) := by simp
    rw [shape, endedParts_append_cons first, openPart_append_cons first, (ih others).1, (ih others).2]
    exact ⟨rfl, rfl⟩

theorem joined_endedParts (stream : List α) :
    (endedParts separator stream).flatMap (· ++ [separator]) ++ openPart separator stream =
      stream := by
  induction stream using stream_induction separator with
  | plain part plain =>
    rw [endedParts_plain plain, openPart_plain plain]
    rfl
  | ended part rest plain ih =>
    rw [endedParts_append_cons plain, openPart_append_cons plain, flatMap_cons,
      append_assoc, append_assoc, ih]
    rfl

end PortMate
