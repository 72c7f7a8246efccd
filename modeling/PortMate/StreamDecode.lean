import PortMate.Transducer
import PortMate.Utf8Reading

namespace PortMate

open List Utf8Start

theorem utf8Start_take {first : UInt8} {rest : List UInt8} {c : Char} {more : Nat}
    (start : utf8Start first rest = .char c more) :
    utf8Start first (rest.take more) = .char c more := by
  unfold utf8Start at start ⊢
  split
  next one =>
    rw [if_pos one] at start
    exact start
  next one =>
    rw [if_neg one] at start
    split
    next two =>
      rw [if_pos two] at start
      match rest, start with
      | second :: rest, start =>
        dsimp only at start
        split at start
        next follows =>
          obtain ⟨rfl, rfl⟩ := char.inj start
          simp [follows]
        next => cases start
    next two =>
      rw [if_neg two] at start
      split
      next three =>
        rw [if_pos three] at start
        match rest, start with
        | [second], start =>
          dsimp only at start
          split at start <;> cases start
        | second :: third :: rest, start =>
          dsimp only at start
          split at start
          next => cases start
          next follows =>
            split at start
            next continues =>
              obtain ⟨rfl, rfl⟩ := char.inj start
              simp [follows, continues]
            next => cases start
      next three =>
        rw [if_neg three] at start
        split
        next four =>
          rw [if_pos four] at start
          match rest, start with
          | [second], start =>
            dsimp only at start
            split at start <;> cases start
          | [second, third], start =>
            dsimp only at start
            split at start
            · cases start
            · split at start <;> cases start
          | second :: third :: fourth :: rest, start =>
            dsimp only at start
            split at start
            next => cases start
            next follows =>
              split at start
              next => cases start
              next continues =>
                split at start
                next ends =>
                  obtain ⟨rfl, rfl⟩ := char.inj start
                  simp [follows, continues, ends]
                next => cases start
        next four =>
          rw [if_neg four] at start
          exact start

theorem fromUtf8Checked_ok {bytes : List UInt8} {text : List Char} (read : fromUtf8Checked bytes = .ok text)
    (more : List UInt8) : fromUtf8Lossy (bytes ++ more) = text ++ fromUtf8Lossy more := by
  induction bytes using fromUtf8Checked.induct generalizing text with
  | case1 =>
    rw [fromUtf8Checked] at read
    obtain rfl := Except.ok.inj read
    rfl
  | case2 first rest c taken start text' later ih =>
    rw [fromUtf8Checked_char start, later] at read
    obtain rfl := Except.ok.inj read
    rw [cons_append, fromUtf8Lossy_char
      (by rw [utf8Start_append (by rw [start]; exact Utf8Start.noConfusion), start]),
      drop_append_of_le_length (char_fits start), ih later, cons_append]
  | case3 first rest c taken start error later =>
    rw [fromUtf8Checked_char start, later] at read
    cases read
  | case4 first rest taken start =>
    rw [fromUtf8Checked, start] at read
    cases read
  | case5 first rest start =>
    rw [fromUtf8Checked, start] at read
    cases read

theorem fromUtf8Checked_error {bytes : List UInt8} {error : Utf8Error}
    (failed : fromUtf8Checked bytes = .error error) :
    ∃ text first rest, fromUtf8Checked (bytes.take error.validUpTo) = .ok text ∧
      bytes.drop error.validUpTo = first :: rest ∧
      ((∃ taken, error.errorLen = some (taken + 1) ∧ utf8Start first rest = .broken taken) ∨
        error.errorLen = none ∧ utf8Start first rest = .cut) := by
  induction bytes using fromUtf8Checked.induct generalizing error with
  | case1 =>
    rw [fromUtf8Checked] at failed
    cases failed
  | case2 first rest c taken start text later =>
    rw [fromUtf8Checked_char start, later] at failed
    cases failed
  | case3 first rest c taken start error' later ih =>
    rw [fromUtf8Checked_char start, later] at failed
    obtain rfl := Except.error.inj failed
    obtain ⟨text, first', rest', read, behind, form⟩ := ih later
    refine ⟨c :: text, first', rest', ?_, ?_, form⟩
    · have split : rest.take (error'.validUpTo + taken) =
          rest.take taken ++ (rest.drop taken).take error'.validUpTo := by
        rw [Nat.add_comm, take_add]
      have length : (rest.take taken).length = taken := by
        rw [length_take, Nat.min_eq_left (char_fits start)]
      have front := utf8Start_take start
      rw [take_succ_cons, split, fromUtf8Checked_char
        (by rw [utf8Start_append (by rw [front]; exact Utf8Start.noConfusion), front]),
        drop_left' length, read]
    · rw [drop_succ_cons, Nat.add_comm, ← drop_drop, behind]
  | case4 first rest taken start =>
    rw [fromUtf8Checked, start] at failed
    obtain rfl := Except.error.inj failed
    exact ⟨[], first, rest, by rw [take_zero, fromUtf8Checked], rfl, .inl ⟨taken, rfl, start⟩⟩
  | case5 first rest start =>
    rw [fromUtf8Checked, start] at failed
    obtain rfl := Except.error.inj failed
    exact ⟨[], first, rest, by rw [take_zero, fromUtf8Checked], rfl, .inr ⟨rfl, start⟩⟩

theorem fromUtf8Checked_error_length {bytes : List UInt8} {error : Utf8Error} {length : Nat}
    (failed : fromUtf8Checked bytes = .error error) (broken : error.errorLen = some length) :
    (bytes.drop (error.validUpTo + length)).length < bytes.length := by
  obtain ⟨text, first, rest, -, behind, ⟨taken, same, -⟩ | ⟨none, -⟩⟩ :=
    fromUtf8Checked_error failed
  · obtain rfl := Option.some.inj (broken.symm.trans same)
    have left := congrArg List.length behind
    rw [length_drop, length_cons] at left
    rw [length_drop]
    omega
  · rw [none] at broken
    cases broken

/-- `StreamDecoder`: the bytes that wait for the rest of their character. -/
structure StreamDecoder where
  pending : List UInt8

namespace StreamDecoder

/-- The loop of `feed`: what it puts out, and the bytes that it leaves. -/
def decode (pending : List UInt8) : List Char × List UInt8 :=
  match _failed : fromUtf8Checked pending with
  | .ok text => (text, [])
  | .error error =>
    let text := (fromUtf8Checked (pending.take error.validUpTo)).toOption.getD []
    match _broken : error.errorLen with
    | some length =>
      let (output, left) := decode (pending.drop (error.validUpTo + length))
      (text ++ replacementChar :: output, left)
    | none => (text, pending.drop error.validUpTo)
termination_by pending.length
decreasing_by exact fromUtf8Checked_error_length _failed _broken

def feed (decoder : StreamDecoder) (bytes : List UInt8) : StreamDecoder × List Char :=
  let (output, left) := decode (decoder.pending ++ bytes)
  (⟨left⟩, output)

def finish (decoder : StreamDecoder) : StreamDecoder × List Char :=
  (⟨[]⟩, fromUtf8Lossy decoder.pending)

end StreamDecoder

def streamDecoding : Transducer StreamDecoder (List UInt8) Char where
  step := StreamDecoder.feed

theorem StreamDecoder.decode_ok {pending : List UInt8} {text : List Char}
    (read : fromUtf8Checked pending = .ok text) : decode pending = (text, []) := by
  unfold decode
  split
  next text' read' => rw [Except.ok.inj (read.symm.trans read')]
  next failed =>
    rw [read] at failed
    cases failed

theorem StreamDecoder.decode_error {pending : List UInt8} {error : Utf8Error} {text : List Char}
    (failed : fromUtf8Checked pending = .error error)
    (valid : fromUtf8Checked (pending.take error.validUpTo) = .ok text) :
    decode pending = match error.errorLen with
      | some length =>
        (text ++ replacementChar :: (decode (pending.drop (error.validUpTo + length))).1,
          (decode (pending.drop (error.validUpTo + length))).2)
      | none => (text, pending.drop error.validUpTo) := by
  rw [decode]
  split
  next read =>
    rw [failed] at read
    cases read
  next error' failed' =>
    obtain rfl := Except.error.inj (failed.symm.trans failed')
    rw [valid]
    dsimp only
    split
    next length broken => rw [broken]; rfl
    next whole => rw [whole]; rfl

theorem StreamDecoder.decode_spec (pending : List UInt8) :
    (decode pending).2.length ≤ 3 ∧ ∀ more, fromUtf8Lossy (pending ++ more) =
      (decode pending).1 ++ fromUtf8Lossy ((decode pending).2 ++ more) := by
  induction length : pending.length using Nat.strongRecOn generalizing pending with
  | _ n ih =>
    subst length
    cases read : fromUtf8Checked pending with
    | ok text =>
      rw [decode_ok read]
      exact ⟨Nat.zero_le _, fun more => fromUtf8Checked_ok read more⟩
    | error error =>
      obtain ⟨text, first, rest, valid, behind, form⟩ := fromUtf8Checked_error read
      have front : ∀ more, fromUtf8Lossy (pending ++ more) =
          text ++ fromUtf8Lossy (first :: (rest ++ more)) := by
        intro more
        rw [← cons_append, ← behind, ← fromUtf8Checked_ok valid, ← append_assoc,
          take_append_drop]
      rw [decode_error read valid]
      obtain ⟨taken, broken, start⟩ | ⟨whole, start⟩ := form
      · obtain ⟨short, later⟩ :=
          ih _ (fromUtf8Checked_error_length read broken) (pending.drop (error.validUpTo + (taken + 1))) rfl
        rw [broken]
        refine ⟨short, fun more => ?_⟩
        have left : rest.drop taken = pending.drop (error.validUpTo + (taken + 1)) := by
          rw [← drop_drop, behind, drop_succ_cons]
        rw [front, fromUtf8Lossy_broken
            (by rw [utf8Start_append (by rw [start]; exact Utf8Start.noConfusion), start]),
          drop_append_of_le_length (broken_fits start), left, later,
          append_assoc, cons_append]
      · rw [whole]
        refine ⟨?_, fun more => ?_⟩
        · have short := cut_short start
          dsimp only
          rw [behind, length_cons]
          omega
        · dsimp only
          rw [front, behind, cons_append]

theorem streamDecoding_run (chunks : List (List UInt8)) (decoder : StreamDecoder)
    (short : decoder.pending.length ≤ 3) :
    (streamDecoding.run decoder chunks).1.pending.length ≤ 3 ∧
      ∀ more, fromUtf8Lossy (decoder.pending ++ chunks.flatten ++ more) =
        (streamDecoding.run decoder chunks).2 ++
          fromUtf8Lossy ((streamDecoding.run decoder chunks).1.pending ++ more) := by
  induction chunks generalizing decoder with
  | nil => exact ⟨short, fun more => by simp⟩
  | cons chunk chunks ih =>
    obtain ⟨held, decoded⟩ := StreamDecoder.decode_spec (decoder.pending ++ chunk)
    obtain ⟨kept, later⟩ := ih (streamDecoding.step decoder chunk).1 held
    refine ⟨kept, fun more => ?_⟩
    rw [Transducer.run_cons, flatten_cons, ← append_assoc decoder.pending,
      append_assoc _ chunks.flatten, decoded, append_assoc, ← later, append_assoc]
    rfl

/-- However a stream is cut, the decoder says what its bytes say as a whole. -/
theorem stream_decoding_whole (chunks : List (List UInt8)) :
    (streamDecoding.run ⟨[]⟩ chunks).2 ++ (streamDecoding.run ⟨[]⟩ chunks).1.finish.2 =
        fromUtf8Lossy chunks.flatten ∧
      ∀ taken, taken <+: chunks → (streamDecoding.run ⟨[]⟩ taken).1.pending.length ≤ 3 := by
  refine ⟨?_, fun taken _ => (streamDecoding_run taken ⟨[]⟩ (Nat.zero_le _)).1⟩
  have whole := (streamDecoding_run chunks ⟨[]⟩ (Nat.zero_le _)).2 []
  rw [append_nil, nil_append, append_nil] at whole
  exact whole.symm

end PortMate
