import PortMate.SegmentedReads

namespace PortMate

open List

section ExactReads

variable {α : Type}

/-- `read_exact`: reads until `count` elements are there, and nothing if the stream ends before. -/
def readExactly (count : Nat) : List (List α) → Option (List α × List (List α))
  | [] => if count = 0 then some ([], []) else none
  | segment :: segments =>
    if segment.length ≤ count then
      (readExactly (count - segment.length) segments).map fun (found, rest) => (segment ++ found, rest)
    else some (segment.take count, segment.drop count :: segments)

theorem readExactly_eq {count : Nat} {segments : List (List α)} {front more : List α}
    (whole : segments.flatten = front ++ more) (enough : front.length = count) :
    ∃ rest, readExactly count segments = some (front, rest) ∧ rest.flatten = more := by
  induction segments generalizing count front with
  | nil =>
    obtain ⟨rfl, rfl⟩ := append_eq_nil_iff.mp whole.symm
    exact ⟨[], if_pos enough.symm, rfl⟩
  | cons segment segments ih =>
    rw [flatten_cons] at whole
    rw [readExactly]
    split
    next short =>
      rcases append_eq_append_iff.mp whole with ⟨part, rfl, later⟩ | ⟨part, split, rfl⟩
      · rw [length_append] at enough
        obtain ⟨rest, read, flat⟩ := ih later (by omega : part.length = count - segment.length)
        rw [read]
        exact ⟨rest, rfl, flat⟩
      · have none : part = [] := by
          rw [split, length_append] at short
          exact length_eq_zero_iff.mp (by omega)
        subst none
        rw [append_nil] at split
        subst split
        have nothing : ([] : List α).length = count - segment.length := by
          rw [enough, Nat.sub_self]
          rfl
        obtain ⟨rest, read, flat⟩ := ih rfl nothing
        rw [read]
        exact ⟨rest, by simp, flat⟩
    next long =>
      rcases append_eq_append_iff.mp whole with ⟨part, rfl, -⟩ | ⟨part, rfl, rfl⟩
      · rw [length_append] at enough
        omega
      · refine ⟨part :: segments, ?_, rfl⟩
        rw [← enough, take_left, drop_left]

end ExactReads

/-- What a program on a stream does next; `lost` stands in front of an error of the read. -/
inductive StreamProgram (α : Type) where
  | done (value : α)
  | fail (error : String)
  | read (count : Nat) (lost : String) (next : List UInt8 → StreamProgram α)
  | write (bytes : List UInt8) (next : StreamProgram α)

namespace StreamProgram

variable {α β : Type}

def readExact (count : Nat) (lost : String) : StreamProgram (List UInt8) := .read count lost .done

def writeAll (bytes : List UInt8) : StreamProgram Unit := .write bytes (.done ())

def bind : StreamProgram α → (α → StreamProgram β) → StreamProgram β
  | .done value, f => f value
  | .fail error, _ => .fail error
  | .read count lost next, f => .read count lost fun bytes => (next bytes).bind f
  | .write bytes next, f => .write bytes (next.bind f)

instance : Monad StreamProgram where
  pure := .done
  bind := bind

end StreamProgram

/-- How a program came out, what it left in the stream and what it wrote. -/
structure StreamRun (α : Type) where
  result : Except String α
  rest : List (List UInt8)
  written : List UInt8

namespace StreamProgram

variable {α β : Type}

def runOn : StreamProgram α → List (List UInt8) → StreamRun α
  | .done value, segments => { result := .ok value, rest := segments, written := [] }
  | .fail error, segments => { result := .error error, rest := segments, written := [] }
  | .read count lost next, segments =>
    match readExactly count segments with
    | none => { result := .error (lost ++ "early eof"), rest := [], written := [] }
    | some (bytes, rest) => (next bytes).runOn rest
  | .write bytes next, segments =>
    let run := next.runOn segments
    { run with written := bytes ++ run.written }

variable (bytes : List UInt8)

@[simp] theorem writeAll_bind (f : Unit → StreamProgram β) :
    (writeAll bytes >>= f) = .write bytes (f ()) := rfl

@[simp] theorem write_bind (next : StreamProgram α) (f : α → StreamProgram β) :
    (StreamProgram.write bytes next >>= f) = .write bytes (next >>= f) := rfl

@[simp] theorem read_bind (count : Nat) (lost : String) (next : List UInt8 → StreamProgram α)
    (f : α → StreamProgram β) :
    (StreamProgram.read count lost next >>= f) = .read count lost fun bytes => next bytes >>= f :=
  rfl

theorem runOn_read {count : Nat} {segments rest : List (List UInt8)} {bytes : List UInt8}
    (read : readExactly count segments = some (bytes, rest)) (lost : String)
    (next : List UInt8 → StreamProgram α) :
    (StreamProgram.read count lost next).runOn segments = (next bytes).runOn rest := by
  rw [runOn, read]

@[simp] theorem written_write (next : StreamProgram α) (segments : List (List UInt8)) :
    ((StreamProgram.write bytes next).runOn segments).written =
      bytes ++ (next.runOn segments).written := rfl

theorem runOn_bind (program : StreamProgram α) (f : α → StreamProgram β)
    (segments : List (List UInt8)) :
    (program >>= f).runOn segments =
      match (program.runOn segments).result with
      | .error error =>
        { result := .error error
          rest := (program.runOn segments).rest
          written := (program.runOn segments).written }
      | .ok value =>
        { result := ((f value).runOn (program.runOn segments).rest).result
          rest := ((f value).runOn (program.runOn segments).rest).rest
          written := (program.runOn segments).written ++
            ((f value).runOn (program.runOn segments).rest).written } := by
  induction program generalizing segments with
  | done value => rfl
  | fail error => rfl
  | read count lost next ih =>
    cases read : readExactly count segments with
    | none =>
      rw [read_bind, runOn, runOn, read]
    | some found => rw [read_bind, runOn_read read, runOn_read read, ih]
  | write bytes next ih =>
    have step := ih segments
    rw [write_bind, runOn, step, runOn]
    cases (next.runOn segments).result with
    | error error => rfl
    | ok value => simp

def WritesNothing : StreamProgram α → Prop
  | .done _ => True
  | .fail _ => True
  | .read _ _ next => ∀ bytes, (next bytes).WritesNothing
  | .write _ _ => False

theorem readExact_silent (count : Nat) (lost : String) : (readExact count lost).WritesNothing :=
  fun _ => trivial

variable {program : StreamProgram α}

theorem writesNothing_bind {f : α → StreamProgram β} (silent : program.WritesNothing)
    (later : ∀ value, (f value).WritesNothing) : (program >>= f).WritesNothing := by
  induction program with
  | done value => exact later value
  | fail error => trivial
  | read count lost next ih => exact fun bytes => ih bytes (silent bytes)
  | write bytes next => exact silent.elim

theorem written_of_writesNothing (silent : program.WritesNothing) (segments : List (List UInt8)) :
    (program.runOn segments).written = [] := by
  induction program generalizing segments with
  | done value => rfl
  | fail error => rfl
  | read count lost next ih =>
    rw [runOn]
    cases readExactly count segments with
    | none => rfl
    | some found => exact ih found.1 (silent found.1) found.2
  | write bytes next => exact silent.elim

/-- What a program comes to on a stream, however that is cut. -/
def Yields (program : StreamProgram α) (stream : List UInt8) (result : Except String α)
    (written more : List UInt8) : Prop :=
  ∀ segments : List (List UInt8), segments.flatten = stream →
    (program.runOn segments).result = result ∧ (program.runOn segments).written = written ∧
      (program.runOn segments).rest.flatten = more

theorem yields_done (value : α) (stream : List UInt8) :
    (StreamProgram.done value).Yields stream (.ok value) [] stream :=
  fun _ whole => ⟨rfl, rfl, whole⟩

theorem yields_fail (error : String) (stream : List UInt8) :
    (StreamProgram.fail error : StreamProgram α).Yields stream (.error error) [] stream :=
  fun _ whole => ⟨rfl, rfl, whole⟩

theorem Yields.bind {stream middle written : List UInt8} {value : α}
    (first : program.Yields stream (.ok value) written middle) {f : α → StreamProgram β}
    {result : Except String β} {later more : List UInt8}
    (second : (f value).Yields middle result later more) :
    (program >>= f).Yields stream result (written ++ later) more := by
  intro segments whole
  obtain ⟨ended, written, rest⟩ := first segments whole
  obtain ⟨result, later, more⟩ := second _ rest
  rw [runOn_bind, ended]
  exact ⟨result, by rw [← written, ← later], more⟩

variable {stream written more : List UInt8}

theorem Yields.bind_error {error : String}
    (failed : program.Yields stream (.error error) written more) (f : α → StreamProgram β) :
    (program >>= f).Yields stream (.error error) written more := by
  intro segments whole
  obtain ⟨ended, written, rest⟩ := failed segments whole
  rw [runOn_bind, ended]
  exact ⟨rfl, written, rest⟩

variable {result : Except String α}

theorem Yields.write (yields : program.Yields stream result written more) (bytes : List UInt8) :
    (StreamProgram.write bytes program).Yields stream result (bytes ++ written) more := by
  intro segments whole
  obtain ⟨result, written, rest⟩ := yields segments whole
  exact ⟨result, congrArg (bytes ++ ·) written, rest⟩

theorem Yields.read {next : List UInt8 → StreamProgram α} {stream written more bytes : List UInt8}
    (yields : (next bytes).Yields stream result written more) (lost : String) {count : Nat}
    (enough : bytes.length = count) :
    (StreamProgram.read count lost next).Yields (bytes ++ stream) result written more := by
  intro segments whole
  obtain ⟨rest, read, flat⟩ := readExactly_eq whole enough
  rw [runOn, read]
  exact yields rest flat

theorem Yields.readExact {f : List UInt8 → StreamProgram α} {stream written more bytes : List UInt8}
    {count : Nat} {lost : String} (yields : (f bytes).Yields stream result written more)
    (enough : bytes.length = count) :
    (StreamProgram.readExact count lost >>= f).Yields (bytes ++ stream) result written more :=
  yields.read lost enough

theorem Yields.writeAll {f : Unit → StreamProgram α}
    (yields : (f ()).Yields stream result written more) (bytes : List UInt8) :
    (StreamProgram.writeAll bytes >>= f).Yields stream result (bytes ++ written) more :=
  yields.write bytes

end StreamProgram

end PortMate
