import PortMate.RustText
import PortMate.SplitPattern

namespace PortMate

open List

def tmuxFieldSeparator : List Char := "|PORTMATE:Q1:|".toList

/-- `#\x7bq:field\x7d`. -/
def tmuxQuotedVariable (field : List Char) : List Char := "#\x7bq:".toList ++ field ++ ['}']

def tmuxListFormat (fields : List (List Char)) : List Char :=
  tmuxFieldSeparator.intercalate (fields.map tmuxQuotedVariable)

def tmuxWindowListFormat : List Char :=
  tmuxListFormat ["session_name".toList, "window_index".toList, "window_id".toList,
    "window_name".toList, "window_panes".toList, "window_active".toList]

def tmuxUnquoteField : List Char → Option (List Char)
  | [] => some []
  | character :: characters =>
    if character = '\\' then
      match characters with
      | [] => none
      | character :: characters =>
        if isRustControl character then none
        else (tmuxUnquoteField characters).map (character :: ·)
    else if isRustControl character then none
    else (tmuxUnquoteField characters).map (character :: ·)

def tmuxFields (line : List Char) : Option (List (List Char)) :=
  if containsPattern tmuxFieldSeparator line then
    (splitPattern tmuxFieldSeparator 0 line).mapM tmuxUnquoteField
  else
    let separator := if containsPattern ['\x1f'] line then ['\x1f'] else ['\t']
    some (splitPattern separator 0 line)

/-- What the q modifier may make of a value: backslash and pipe come out escaped, every other
character as it is or escaped. -/
inductive QModified : List Char → List Char → Prop
  | nil : QModified [] []
  | plain {c : Char} {value quoted : List Char} (slash : c ≠ '\\') (pipe : c ≠ '|')
      (rest : QModified value quoted) : QModified (c :: value) (c :: quoted)
  | escaped {c : Char} {value quoted : List Char} (rest : QModified value quoted) :
      QModified (c :: value) ('\\' :: c :: quoted)

/-- The record tmux prints for a format: a quoted variable is replaced by its value, other text is
copied. The values are given in the order of the variables. -/
inductive FormatExpands (q : List Char → List Char) :
    List Char → List (List Char) → List Char → Prop
  | done : FormatExpands q [] [] []
  | text {c : Char} {format record : List Char} {values : List (List Char)} (literal : c ≠ '#')
      (rest : FormatExpands q format values record) : FormatExpands q (c :: format) values (c :: record)
  | quoted {name format value record : List Char} {values : List (List Char)}
      (named : '}' ∉ name) (rest : FormatExpands q format values record) :
      FormatExpands q (tmuxQuotedVariable name ++ format) (value :: values) (q value ++ record)

theorem append_cons_inj_of_notMem_both {α : Type} {mark : α} {name other rest more : List α}
    (inName : mark ∉ name) (inOther : mark ∉ other)
    (same : name ++ mark :: rest = other ++ mark :: more) : name = other ∧ rest = more := by
  induction name generalizing other with
  | nil =>
    cases other with
    | nil => exact ⟨rfl, (List.cons.inj same).2⟩
    | cons first other => exact absurd (List.cons.inj same).1 (ne_of_not_mem_cons inOther)
  | cons first name ih =>
    cases other with
    | nil => exact absurd (List.cons.inj same).1.symm (ne_of_not_mem_cons inName)
    | cons second other =>
      obtain ⟨rfl, later⟩ := List.cons.inj same
      obtain ⟨rfl, rfl⟩ := ih (not_mem_of_not_mem_cons inName)
        (not_mem_of_not_mem_cons inOther) later
      exact ⟨rfl, rfl⟩

theorem FormatExpands.of_text {q : List Char → List Char} {text format record : List Char}
    {values : List (List Char)} (literal : '#' ∉ text)
    (expands : FormatExpands q (text ++ format) values record) :
    ∃ after, record = text ++ after ∧ FormatExpands q format values after := by
  induction text generalizing record with
  | nil => exact ⟨record, rfl, expands⟩
  | cons first text ih =>
    obtain ⟨notFirst, notLater⟩ := ne_and_not_mem_of_not_mem_cons literal
    generalize whole : first :: text ++ format = input at expands
    cases expands with
    | done => simp at whole
    | text plain rest =>
      obtain ⟨rfl, rfl⟩ := List.cons.inj whole
      obtain ⟨after, rfl, expanded⟩ := ih notLater rest
      exact ⟨after, rfl, expanded⟩
    | quoted named rest =>
      obtain ⟨hash, _⟩ := List.cons.inj whole
      exact absurd hash.symm notFirst

theorem FormatExpands.of_variable {q : List Char → List Char} {name format record : List Char}
    {values : List (List Char)} (named : '}' ∉ name)
    (expands : FormatExpands q (tmuxQuotedVariable name ++ format) values record) :
    ∃ value later after, values = value :: later ∧ record = q value ++ after ∧
      FormatExpands q format later after := by
  generalize whole : tmuxQuotedVariable name ++ format = input at expands
  cases expands with
  | done => simp [tmuxQuotedVariable] at whole
  | text literal rest =>
    obtain ⟨hash, _⟩ := List.cons.inj whole
    exact absurd hash.symm literal
  | @quoted other tail value after later otherNamed rest =>
    have bodies : name ++ '}' :: format = other ++ '}' :: tail := by
      simpa [tmuxQuotedVariable] using whole
    have same := (append_cons_inj_of_notMem_both named otherNamed bodies).2
    exact ⟨value, later, after, rfl, rfl, same ▸ rest⟩

theorem FormatExpands.record {q : List Char → List Char} {names values : List (List Char)}
    {record : List Char} (named : ∀ name ∈ names, '}' ∉ name)
    (expands : FormatExpands q (tmuxListFormat names) values record) :
    record = tmuxFieldSeparator.intercalate (values.map q) ∧ values.length = names.length := by
  induction names generalizing values record with
  | nil =>
    cases expands with
    | done => exact ⟨rfl, rfl⟩
  | cons name names ih =>
    obtain ⟨nameOk, namesOk⟩ := forall_mem_cons.mp named
    cases names with
    | nil =>
      have whole : tmuxListFormat [name] = tmuxQuotedVariable name ++ [] := by
        simp [tmuxListFormat]
      rw [whole] at expands
      obtain ⟨value, later, after, rfl, rfl, rest⟩ := expands.of_variable nameOk
      cases rest with
      | done => simp
    | cons next names =>
      have whole : tmuxListFormat (name :: next :: names) =
          tmuxQuotedVariable name ++ (tmuxFieldSeparator ++ tmuxListFormat (next :: names)) := by
        simp [tmuxListFormat]
      rw [whole] at expands
      obtain ⟨value, later, after, rfl, rfl, rest⟩ := expands.of_variable nameOk
      obtain ⟨tail, rfl, expanded⟩ := rest.of_text (by decide)
      obtain ⟨joined, counted⟩ := ih namesOk expanded
      obtain ⟨second, later, rfl⟩ : ∃ second rest, later = second :: rest := by
        cases later with
        | nil => simp at counted
        | cons second later => exact ⟨second, later, rfl⟩
      exact ⟨by simp [joined], by simpa using counted⟩

theorem FormatExpands.after_text {q : List Char → List Char} {text format record : List Char}
    {values : List (List Char)} (literal : '#' ∉ text)
    (expands : FormatExpands q format values record) :
    FormatExpands q (text ++ format) values (text ++ record) := by
  induction text with
  | nil => exact expands
  | cons first text ih =>
    obtain ⟨notFirst, notLater⟩ := ne_and_not_mem_of_not_mem_cons literal
    exact .text (Ne.symm notFirst) (ih notLater)

theorem formatExpands_record (q : List Char → List Char) {names values : List (List Char)}
    (named : ∀ name ∈ names, '}' ∉ name) (same : names.length = values.length) :
    FormatExpands q (tmuxListFormat names) values
      (tmuxFieldSeparator.intercalate (values.map q)) := by
  induction names generalizing values with
  | nil =>
    obtain rfl := length_eq_zero_iff.mp same.symm
    exact .done
  | cons name names ih =>
    obtain ⟨nameOk, namesOk⟩ := forall_mem_cons.mp named
    match values, names with
    | [], _ => simp at same
    | [value], [] =>
      have expands : FormatExpands q (tmuxQuotedVariable name ++ []) [value] (q value ++ []) :=
        .quoted nameOk .done
      simpa [tmuxListFormat] using expands
    | [_], _ :: _ => simp at same
    | _ :: _ :: _, [] => simp at same
    | value :: second :: values, next :: names =>
      have literal : '#' ∉ tmuxFieldSeparator := by decide
      have rest := (ih namesOk (Nat.succ.inj same)).after_text literal
      have expands := @FormatExpands.quoted q name _ value _ _ nameOk rest
      simpa [tmuxListFormat] using expands

/-- A quoted field can only be taken for the end of its record up to the last pipe. -/
def tmuxFieldTail : List Char := "|PORTMATE:Q1:".toList

theorem QModified.head_ne {value quoted : List Char} (modified : QModified value ('|' :: quoted)) :
    False := by
  cases modified with
  | plain _ pipe _ => exact pipe rfl

theorem QModified.before_pipe {value quoted : List Char} (modified : QModified value quoted) :
    ∀ start c rest, quoted = start ++ c :: '|' :: rest → c = '\\' := by
  induction modified with
  | nil => intro start c rest parts; simp at parts
  | @plain first value quoted slash pipe later ih =>
    intro start c rest parts
    cases start with
    | nil =>
      obtain ⟨_, rfl⟩ := List.cons.inj parts
      exact later.head_ne.elim
    | cons other start => exact ih start c rest (List.cons.inj parts).2
  | @escaped first value quoted later ih =>
    intro start c rest parts
    match start with
    | [] => exact (List.cons.inj parts).1.symm
    | [other] =>
      obtain ⟨_, parts⟩ := List.cons.inj parts
      obtain ⟨_, rfl⟩ := List.cons.inj parts
      exact later.head_ne.elim
    | other :: another :: start =>
      exact ih start c rest (List.cons.inj (List.cons.inj parts).2).2

theorem tmuxUnquoteField_plain {c : Char} (slash : c ≠ '\\') (rest : List Char) :
    tmuxUnquoteField (c :: rest) =
      if isRustControl c then none else (tmuxUnquoteField rest).map (c :: ·) := by
  rw [tmuxUnquoteField.eq_def]
  exact if_neg slash

theorem tmuxUnquoteField_escaped (c : Char) (rest : List Char) :
    tmuxUnquoteField ('\\' :: c :: rest) =
      if isRustControl c then none else (tmuxUnquoteField rest).map (c :: ·) := by
  rw [tmuxUnquoteField]
  exact if_pos rfl

theorem tmuxUnquoteField_quoted {value quoted : List Char} (modified : QModified value quoted)
    (plain : ∀ c ∈ value, isRustControl c = false) : tmuxUnquoteField quoted = some value := by
  induction modified with
  | nil => rfl
  | plain slash pipe later ih =>
    obtain ⟨first, rest⟩ := forall_mem_cons.mp plain
    simp [tmuxUnquoteField_plain slash, first, ih rest]
  | escaped later ih =>
    obtain ⟨first, rest⟩ := forall_mem_cons.mp plain
    simp [tmuxUnquoteField_escaped, first, ih rest]

theorem tmuxUnquoteField_before_pipe {value quoted : List Char}
    (modified : QModified value quoted) :
    ∀ start rest, quoted = start ++ '|' :: rest → tmuxUnquoteField start = none := by
  induction modified with
  | nil => intro start rest parts; simp at parts
  | @plain first value quoted slash pipe later ih =>
    intro start rest parts
    cases start with
    | nil => exact absurd (List.cons.inj parts).1 pipe
    | cons other start =>
      obtain ⟨rfl, tail⟩ := List.cons.inj parts
      simp [tmuxUnquoteField_plain slash, ih start rest tail]
  | @escaped first value quoted later ih =>
    intro start rest parts
    match start with
    | [] => exact absurd (List.cons.inj parts).1 (by decide)
    | [other] =>
      obtain ⟨rfl, _⟩ := List.cons.inj parts
      rfl
    | other :: another :: start =>
      obtain ⟨slash, parts⟩ := List.cons.inj parts
      obtain ⟨rfl, tail⟩ := List.cons.inj parts
      rw [← slash]
      simp [tmuxUnquoteField_escaped, ih start rest tail]

theorem QModified.match_start {value quoted start suffix rest : List Char}
    (modified : QModified value quoted) (parts : quoted = start ++ suffix) (filled : suffix ≠ [])
    (found : tmuxFieldSeparator <+: suffix ++ rest)
    (behind : rest = [] ∨ ∃ later, rest = tmuxFieldSeparator ++ later) :
    suffix = tmuxFieldTail ∧ rest ≠ [] := by
  have inside : ∀ more, suffix ≠ tmuxFieldSeparator ++ more := by
    rintro more rfl
    have cut : quoted = (start ++ "|PORTMATE:Q1".toList) ++ ':' :: '|' :: more := by
      rw [parts, append_assoc]
      rfl
    exact absurd (modified.before_pipe _ _ _ cut) (by decide)
  obtain ⟨after, same⟩ := found
  obtain ⟨more, long, _⟩ | ⟨more, short, tail⟩ := append_eq_append_iff.mp same
  · exact absurd long (inside more)
  · cases more with
    | nil => exact absurd (by simpa using short.symm) (inside [])
    | cons first more =>
      obtain rfl | ⟨later, rfl⟩ := behind
      · simp at tail
      · have opens : tmuxFieldSeparator = '|' :: "PORTMATE:Q1:|".toList := by decide
        rw [opens] at tail
        obtain ⟨pipe, _⟩ := List.cons.inj tail
        have position : tmuxFieldSeparator[suffix.length]? = some '|' := by
          rw [short, ← pipe]
          simp
        have only : ∀ index < 14, tmuxFieldSeparator[index]? = some '|' → index = 0 ∨ index = 13 := by
          decide
        have bound : suffix.length < 14 := by
          have counted := congrArg List.length short
          rw [length_append, length_cons] at counted
          have size : tmuxFieldSeparator.length = 14 := rfl
          omega
        obtain none | here := only _ bound position
        · exact absurd (length_eq_zero_iff.mp none) filled
        · refine ⟨?_, nofun⟩
          have taken := congrArg (List.take 13) short
          rw [← here, take_left, here] at taken
          exact taken.symm

theorem splitPattern_quoted {value quoted rest : List Char} (modified : QModified value quoted)
    (ends : tmuxFieldTail <:+ quoted → rest = [])
    (behind : rest = [] ∨ ∃ later, rest = tmuxFieldSeparator ++ later) :
    splitPattern tmuxFieldSeparator 0 (quoted ++ rest) =
      growFirst quoted (splitPattern tmuxFieldSeparator 0 rest) := by
  refine splitPattern_piece quoted rest fun start suffix parts filled found => ?_
  obtain ⟨rfl, more⟩ := modified.match_start parts filled found behind
  exact more (ends ⟨start, parts.symm⟩)

theorem tmuxFieldSeparator_ne_nil : tmuxFieldSeparator ≠ [] := by decide

theorem separator_overlap (later : List Char) :
    tmuxFieldTail ++ (tmuxFieldSeparator ++ later) =
      tmuxFieldSeparator ++ ("PORTMATE:Q1:|".toList ++ later) := by
  have doubled : tmuxFieldTail ++ tmuxFieldSeparator =
      tmuxFieldSeparator ++ "PORTMATE:Q1:|".toList := by decide
  rw [← append_assoc, doubled, append_assoc]

theorem splitPattern_cut {value start : List Char}
    (modified : QModified value (start ++ tmuxFieldTail)) (later : List Char) :
    splitPattern tmuxFieldSeparator 0 (start ++ tmuxFieldTail ++ (tmuxFieldSeparator ++ later)) =
      start :: splitPattern tmuxFieldSeparator 0 ("PORTMATE:Q1:|".toList ++ later) := by
  have noMatch : ∀ first suffix, start = first ++ suffix → suffix ≠ [] → ¬ tmuxFieldSeparator <+:
      suffix ++ (tmuxFieldSeparator ++ ("PORTMATE:Q1:|".toList ++ later)) := by
    rintro first suffix rfl filled found
    rw [← separator_overlap, ← append_assoc] at found
    obtain ⟨whole, _⟩ := modified.match_start (append_assoc first suffix tmuxFieldTail)
      (append_ne_nil_of_left_ne_nil filled _) found (.inr ⟨later, rfl⟩)
    exact filled (append_left_eq_self.mp whole)
  rw [append_assoc, separator_overlap, splitPattern_piece start _ noMatch,
    splitPattern_match tmuxFieldSeparator_ne_nil]
  simp [growFirst]

theorem split_record_iff {q : List Char → List Char} (documented : ∀ value, QModified value (q value))
    (first : List Char) (values : List (List Char))
    (plain : ∀ value ∈ first :: values, ∀ c ∈ value, isRustControl c = false) :
    (splitPattern tmuxFieldSeparator 0
        (tmuxFieldSeparator.intercalate ((first :: values).map q))).mapM tmuxUnquoteField =
        some (first :: values) ↔
      ∀ value ∈ (first :: values).dropLast, ¬ tmuxFieldTail <:+ q value := by
  induction values generalizing first with
  | nil =>
    have kept := splitPattern_quoted (documented first) (fun _ => rfl) (.inl rfl)
    have unquoted := tmuxUnquoteField_quoted (documented first) (plain first mem_cons_self)
    rw [append_nil] at kept
    simp [kept, growFirst, splitPattern, unquoted]
  | cons second values ih =>
    obtain ⟨firstPlain, restPlain⟩ := forall_mem_cons.mp plain
    have whole : tmuxFieldSeparator.intercalate ((first :: second :: values).map q) =
        q first ++ (tmuxFieldSeparator ++
          tmuxFieldSeparator.intercalate ((second :: values).map q)) := by
      simp
    rw [whole, dropLast_cons_cons, forall_mem_cons]
    by_cases ends : tmuxFieldTail <:+ q first
    · obtain ⟨start, parts⟩ := ends
      have cut := tmuxUnquoteField_before_pipe (documented first) start "PORTMATE:Q1:".toList
        parts.symm
      have modified := documented first
      rw [← parts] at modified ⊢
      rw [splitPattern_cut modified, mapM_cons, cut]
      simp
    · have unquoted := tmuxUnquoteField_quoted (documented first) firstPlain
      rw [splitPattern_quoted (documented first) (fun does => absurd does ends) (.inr ⟨_, rfl⟩),
        splitPattern_match tmuxFieldSeparator_ne_nil, growFirst, append_nil, mapM_cons,
        unquoted, ← ih second restPlain]
      cases later : (splitPattern tmuxFieldSeparator 0
          (tmuxFieldSeparator.intercalate ((second :: values).map q))).mapM tmuxUnquoteField with
      | none => simp
      | some fields => simp [ends]

/-- What tmux prints for a list format is read back as the fields it was made of, unless the text
of a field that is not the last ends like a separator: then the record is given up. -/
theorem tmux_fields_round_trip_iff (q : List Char → List Char)
    (documented : ∀ value, QModified value (q value)) (names fields : List (List Char))
    (record : List Char) (named : ∀ name ∈ names, '}' ∉ name)
    (expands : FormatExpands q (tmuxListFormat names) fields record) (two : 2 ≤ fields.length)
    (plain : ∀ field ∈ fields, ∀ c ∈ field, isRustControl c = false) :
    tmuxFields record = some fields ↔
      ∀ field ∈ fields.dropLast, ¬ "|PORTMATE:Q1:".toList <:+ q field := by
  obtain ⟨rfl, _⟩ := expands.record named
  match fields with
  | [] => simp at two
  | [_] => simp at two
  | first :: second :: fields =>
    have whole : tmuxFieldSeparator.intercalate ((first :: second :: fields).map q) =
        q first ++ (tmuxFieldSeparator ++
          tmuxFieldSeparator.intercalate ((second :: fields).map q)) := by
      simp
    have separated := containsPattern_of_match tmuxFieldSeparator (q first)
      (tmuxFieldSeparator.intercalate ((second :: fields).map q))
    rw [← whole] at separated
    rw [tmuxFields, if_pos separated]
    exact split_record_iff documented first (second :: fields) plain

def tmuxShellCharacters : List Char := "|&;<>()$\x60\\\"'*?[# =%".toList

def tmuxQuote (value : List Char) : List Char :=
  value.flatMap fun c => if c ∈ tmuxShellCharacters then ['\\', c] else [c]

theorem tmuxQuote_documented (value : List Char) : QModified value (tmuxQuote value) := by
  induction value with
  | nil => exact .nil
  | cons c value ih =>
    by_cases special : c ∈ tmuxShellCharacters
    · simpa [tmuxQuote, special] using QModified.escaped ih
    · have slash : c ≠ '\\' := fun same => special (same ▸ by decide)
      have pipe : c ≠ '|' := fun same => special (same ▸ by decide)
      simpa [tmuxQuote, special] using QModified.plain slash pipe ih

def tmuxWindowVariables : List (List Char) :=
  ["session_name".toList, "window_index".toList, "window_id".toList, "window_name".toList,
    "window_panes".toList, "window_active".toList]

/-- The record of a window of a session `main`. -/
def windowFields (name : String) : List (List Char) :=
  ["main".toList, "1".toList, "@4".toList, name.toList, "2".toList, "1".toList]

theorem windowFields_expand (name : String) :
    FormatExpands tmuxQuote tmuxWindowListFormat (windowFields name)
      (tmuxFieldSeparator.intercalate ((windowFields name).map tmuxQuote)) :=
  @formatExpands_record tmuxQuote tmuxWindowVariables (windowFields name) (by decide) rfl

theorem plain_of_all {fields : List (List Char)}
    (all : (fields.all fun field => field.all fun c => !isRustControl c) = true) :
    ∀ field ∈ fields, ∀ c ∈ field, isRustControl c = false := by
  simpa using all

theorem piped_window_name_read_back :
    tmuxFields (tmuxFieldSeparator.intercalate ((windowFields "a|PORTMATE:Q1:|b\\").map tmuxQuote)) =
      some (windowFields "a|PORTMATE:Q1:|b\\") :=
  (tmux_fields_round_trip_iff tmuxQuote tmuxQuote_documented tmuxWindowVariables _ _ (by decide)
    (windowFields_expand _) (by decide) (plain_of_all (by decide))).mpr
      (by decide)

/-- The name of a window may end like a separator, and its record is then given up. -/
theorem window_named_like_a_separator :
    (∀ field ∈ windowFields "|PORTMATE:Q1:", ∀ c ∈ field, isRustControl c = false) ∧
      ∃ record, FormatExpands tmuxQuote tmuxWindowListFormat (windowFields "|PORTMATE:Q1:") record ∧
        tmuxFields record = none :=
  ⟨plain_of_all (by decide), _, windowFields_expand _, by decide⟩

end PortMate
