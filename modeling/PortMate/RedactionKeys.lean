import PortMate.Redaction

namespace PortMate

open List Regex

def markerText (edge : String) (label : List Char) : List Char :=
  edge.toList ++ label ++ "PRIVATE KEY-----".toList

theorem keyPrefix_needs : keyPrefix.Needs isAssignment :=
  needs_seq_right <| needs_seq_right <| needs_seq_right <|
    needs_seq_right <| needs_seq_left <| needs_set _

variable (text tail : List Char)

theorem wordJoin_settled :
    (seq (.opt (.set isWordJoin)) (keyword "key")).SettledAt text ('-' :: '-' :: tail) := by
  cases text with
  | nil => rfl
  | cons c text =>
    apply settledAt_seq
    · simp only [Regex.SettledAt, opt, matchesAt, cons_append]
      split <;> simp [Found.before, Found.nothing]
    · exact fun m _ => settledAt_of_rejects (by decide) _ _

theorem keyPrefix_settled : keyPrefix.SettledAt text ('-' :: '-' :: tail) := by
  have name : ∀ s, secretName.SettledAt s ('-' :: '-' :: tail) := by
    intro s
    have plain : ∀ name ∈ ["password", "passwd", "pwd", "token", "api", "secret"],
        (keyword name).SettledAt s ('-' :: '-' :: tail) := by
      intro name mem
      apply settledAt_of_rejects
      revert name
      decide
    refine settledAt_alt (plain _ (by simp)) <| settledAt_alt (plain _ (by simp)) <|
      settledAt_alt (plain _ (by simp)) <| settledAt_alt (plain _ (by simp)) <|
      settledAt_alt ?_ (plain _ (by simp))
    exact settledAt_seq (plain _ (by simp)) fun m _ => wordJoin_settled m.rest tail
  apply settledAt_seq (settledAt_of_rejects (by decide) _ _)
  intro m _
  apply settledAt_seq (name m.rest)
  intro m _
  exact settledAt_of_rejects (by decide) _ _

theorem keyPrefix_dash (text : List Char) : keyPrefix.first ('-' :: text) = none := rfl

theorem keyPrefix_before_dashes :
    keyPrefix.pieces (text ++ '-' :: '-' :: tail) =
      keyPrefix.pieces text ++ keyPrefix.pieces ('-' :: '-' :: tail) :=
  pieces_append keyPrefix_needs.takesText fun s _ _ => (keyPrefix_settled s tail).first

theorem keyPrefix_unassigned {text : List Char} (none : ∀ c ∈ text, isAssignment c = false) :
    keyPrefix.pieces text = text.map .text := by
  apply pieces_unmatched
  intro s _ inside
  rw [first_eq_none, eq_nil_iff_forall_not_mem]
  intro m mem
  obtain ⟨c, taken, assigns⟩ := keyPrefix_needs s m mem
  have here : c ∈ s := by
    rw [← taken_append_rest mem]
    exact mem_append_left _ taken
  rw [none c (inside.subset here)] at assigns
  exact absurd assigns Bool.false_ne_true

theorem keyPrefix_marker {edge : String} {label : List Char}
    (edgeClean : (edge.toList.all fun c => !isAssignment c) = true)
    (labelled : ∀ c ∈ label, isUpperOrSpace c = true) (tail : List Char) :
    keyPrefix.pieces (markerText edge label ++ tail) =
      (markerText edge label).map .text ++ keyPrefix.pieces tail := by
  have labelClean : ∀ c ∈ label, isAssignment c = false := by
    intro c mem
    have upper := labelled c mem
    rw [isAssignment, Bool.or_eq_false_iff, beq_eq_false_iff_ne, beq_eq_false_iff_ne]
    constructor <;> rintro rfl <;> exact absurd upper (by decide)
  have split : markerText edge label ++ tail =
      (edge.toList ++ label ++ "PRIVATE KEY".toList) ++ '-' :: '-' :: '-' :: '-' :: '-' :: tail := by
    simp [markerText]
  have unassigned : ∀ c ∈ edge.toList ++ label ++ "PRIVATE KEY".toList, isAssignment c = false := by
    simp only [mem_append]
    rintro c ((mem | mem) | mem)
    · simpa using all_eq_true.mp edgeClean c mem
    · exact labelClean c mem
    · have closing : ("PRIVATE KEY".toList.all fun c => !isAssignment c) = true := by decide
      simpa using all_eq_true.mp closing c mem
  rw [split, keyPrefix_before_dashes, keyPrefix_unassigned unassigned]
  simp [pieces_none (keyPrefix_dash _), markerText]

def hasKey (pieces : List (Piece Char)) : Bool := !(keyedValues pieces).2.isEmpty

theorem redactGap_break {nextKey : Bool} {gap tail : List Char} {c : Char}
    (lineEnd : isLineBreak c = true) :
    redactGap nextKey (gap ++ c :: tail) = redactGap nextKey gap ++ c :: tail := by
  have keep : ∀ text : List Char,
      (text ++ c :: tail).takeWhile (fun c => !isLineBreak c) =
        text.takeWhile (fun c => !isLineBreak c) ∧
      (text ++ c :: tail).dropWhile (fun c => !isLineBreak c) =
        text.dropWhile (fun c => !isLineBreak c) ++ c :: tail := by
    intro text
    induction text with
    | nil => simp [lineEnd]
    | cons d text ih =>
      cases same : isLineBreak d
      · simp [same, ih]
      · simp [same]
  simp [redactGap, keep gap]

theorem redactKeys_text (nextKey : Bool) (c : Char) (pieces : List (Piece Char)) :
    redactKeys nextKey (.text c :: pieces) = c :: redactKeys nextKey pieces := rfl

theorem keyedValues_append_text {left : List (Piece Char)} (none : (keyedValues left).2 = [])
    (right : List (Piece Char)) :
    keyedValues (left ++ right) =
      ((keyedValues left).1 ++ (keyedValues right).1, (keyedValues right).2) := by
  induction left with
  | nil => rfl
  | cons piece left ih =>
    cases piece with
    | text d =>
      rw [cons_append, keyedValues, ih none]
      rfl
    | found key captures => simp [keyedValues] at none

theorem keyedValues_append_key {left : List (Piece Char)} (some : (keyedValues left).2 ≠ [])
    (right : List (Piece Char)) :
    (keyedValues (left ++ right)).1 = (keyedValues left).1 ∧
      (keyedValues (left ++ right)).2 ≠ [] := by
  induction left with
  | nil => exact absurd rfl some
  | cons piece left ih =>
    cases piece with
    | text d =>
      obtain ⟨lead, keyed⟩ := ih some
      simp [keyedValues, lead, keyed]
    | found key captures => simp [keyedValues]

theorem redactKeys_break {nextKey : Bool} {left right : List (Piece Char)} {c : Char}
    (lineEnd : isLineBreak c = true) :
    redactKeys nextKey (left ++ .text c :: right) =
      redactKeys (nextKey || hasKey right) left ++ c :: redactKeys nextKey right := by
  induction left with
  | nil => rfl
  | cons piece left ih =>
    cases piece with
    | text d => rw [cons_append, redactKeys_text, redactKeys_text, ih, cons_append]
    | found key captures =>
      by_cases none : (keyedValues left).2 = []
      · simp [redactKeys, keyedValues, redactKeyed, keyedValues_append_text none, none, hasKey,
          redactGap_break lineEnd]
      · obtain ⟨lead, keyed⟩ := keyedValues_append_key none (.text c :: right)
        have later : redactKeyed nextKey (keyedValues (left ++ .text c :: right)).2 =
            redactKeyed (nextKey || hasKey right) (keyedValues left).2 ++
              c :: redactKeys nextKey right := by
          simpa [redactKeys, lead] using ih
        simp [redactKeys, keyedValues, redactKeyed, lead, later,
          isEmpty_eq_false_iff.mpr keyed, isEmpty_eq_false_iff.mpr none]

def isBase64 (c : Char) : Bool := c.isAlphanum || c == '+' || c == '/' || c == '='

theorem base64_clean {c : Char} (base64 : isBase64 c = true) :
    isRustWhitespace c = false ∧ isQuote c = false ∧ isDelimiter c = false ∧ c ≠ '-' := by
  have known : ∀ d ∈ ['\x22', '\x27', ',', ';', '-'], c ≠ d := by
    rintro d mem rfl
    have no : (['\x22', '\x27', ',', ';', '-'].all fun d => !isBase64 d) = true := by decide
    have other := all_eq_true.mp no c mem
    rw [base64] at other
    exact absurd other (by decide)
  have visible : 33 ≤ c.toNat ∧ c.toNat ≤ 126 := by
    simp only [isBase64, Bool.or_eq_true, beq_iff_eq, or_assoc] at base64
    obtain alphanum | rfl | rfl | rfl := base64
    · have bounds := alphanum_bounds alphanum
      omega
    all_goals decide
  refine ⟨?_, ?_, ?_, known '-' (by simp)⟩
  · simp only [isRustWhitespace, Bool.or_eq_false_iff, Bool.and_eq_false_iff,
      decide_eq_false_iff_not, beq_eq_false_iff_ne]
    omega
  · simp [isQuote, known]
  · simp [isDelimiter, known]

theorem redactValue_base64 {line : List Char} (base64 : ∀ c ∈ line, isBase64 c = true)
    (nextKey : Bool) : redactValue nextKey line = if line = [] then [] else redacted := by
  have unquoted : redactQuoted line = none := by
    cases line with
    | nil => rfl
    | cons c line =>
      obtain ⟨visible, bare, -, -⟩ := base64_clean (base64 c (by simp))
      simp [redactQuoted, visible, bare]
  have untrimmed : trimEnd line = line := by
    rw [trimEnd, rdropWhile_eq_self_iff]
    intro nonempty
    simp [(base64_clean (base64 _ (getLast_mem nonempty))).1]
  have undelimited : beforeDelimiter line = line := by
    have all : line.reverse.dropWhile (fun c => !isDelimiter c) = [] := by
      rw [dropWhile_eq_nil_iff]
      intro c mem
      simp [(base64_clean (base64 c (mem_reverse.mp mem))).2.2.1]
    rw [beforeDelimiter, all]
  have value : unquotedValue nextKey line = line := by
    cases nextKey <;> simp [unquotedValue, untrimmed, undelimited]
  simp only [redactValue, unquoted, value, drop_length, append_nil]
  split <;> simp_all

theorem redactGap_base64 {gap : List Char}
    (base64 : ∀ c ∈ gap, isBase64 c = true ∨ isLineBreak c = true) (nextKey : Bool) :
    redactGap nextKey gap = redactGap false gap ∧
      ∀ c ∈ redactGap false gap, c ∈ gap ∨ c ∈ redacted := by
  have line : ∀ c ∈ gap.takeWhile (fun c => !isLineBreak c), isBase64 c = true := by
    intro c mem
    have inside : isLineBreak c = false := by simpa using mem_takeWhile_imp mem
    exact (base64 c ((takeWhile_sublist _).subset mem)).resolve_right (by simp [inside])
  simp only [redactGap, redactValue_base64 line, true_and]
  intro c mem
  obtain mem | mem := mem_append.mp mem
  · split at mem
    · simp at mem
    · exact .inr mem
  · exact .inl ((dropWhile_suffix _).subset mem)

theorem keyedValues_letters {pieces : List (Piece Char)} {kind : Char → Prop}
    (all : ∀ c ∈ pieces.flatMap Piece.letters, kind c) :
    (∀ c ∈ (keyedValues pieces).1, kind c) ∧
      ∀ keyed ∈ (keyedValues pieces).2, (∀ c ∈ keyed.1, kind c) ∧ ∀ c ∈ keyed.2, kind c := by
  induction pieces with
  | nil => simp [keyedValues]
  | cons piece pieces ih =>
    simp only [flatMap_cons, mem_append] at all
    obtain ⟨lead, keyed⟩ := ih fun c mem => all c (.inr mem)
    cases piece with
    | text d =>
      refine ⟨?_, keyed⟩
      intro c mem
      obtain rfl | mem := mem_cons.mp mem
      · exact all c (.inl (by simp [Piece.letters]))
      · exact lead c mem
    | found key captures =>
      refine ⟨by simp [keyedValues], ?_⟩
      intro pair mem
      obtain rfl | mem := mem_cons.mp mem
      · exact ⟨fun c inside => all c (.inl inside), lead⟩
      · exact keyed pair mem

theorem redactKeyed_base64 {keyed : List (List Char × List Char)}
    (base64 : ∀ pair ∈ keyed, ∀ c ∈ pair.2, isBase64 c = true ∨ isLineBreak c = true)
    (nextKey : Bool) :
    redactKeyed nextKey keyed = redactKeyed false keyed ∧
      ∀ c ∈ redactKeyed false keyed, (∃ pair ∈ keyed, c ∈ pair.1 ∨ c ∈ pair.2) ∨ c ∈ redacted := by
  induction keyed with
  | nil => simp [redactKeyed]
  | cons pair keyed ih =>
    obtain ⟨key, gap⟩ := pair
    obtain ⟨same, letters⟩ := ih fun pair mem => base64 pair (mem_cons_of_mem _ mem)
    have gapSame := fun flag => redactGap_base64 (base64 _ mem_cons_self) flag
    constructor
    · rw [redactKeyed, redactKeyed, same, (gapSame _).1, ← (gapSame (false || !keyed.isEmpty)).1]
    · intro c mem
      rw [redactKeyed, (gapSame _).1, mem_append, mem_append] at mem
      obtain (mem | mem) | mem := mem
      · exact .inl ⟨_, mem_cons_self, .inl mem⟩
      · exact ((gapSame false).2 c mem).imp_left fun mem => ⟨_, mem_cons_self, .inr mem⟩
      · refine (letters c mem).imp_left ?_
        rintro ⟨pair, inside, mem⟩
        exact ⟨pair, mem_cons_of_mem _ inside, mem⟩

theorem fromClosingQuote_suffix {quote : Char} {escaped : Bool} {text rest : List Char}
    (closed : fromClosingQuote quote escaped text = some rest) : rest <:+ text ∧ rest ≠ [] := by
  induction text generalizing escaped with
  | nil => cases escaped <;> exact nomatch closed
  | cons c text ih =>
    have later : ∀ {escaped}, fromClosingQuote quote escaped text = some rest →
        rest <:+ c :: text ∧ rest ≠ [] := by
      intro escaped closed
      obtain ⟨suffix, nonempty⟩ := ih closed
      exact ⟨suffix.trans (suffix_cons c text), nonempty⟩
    cases escaped with
    | true => exact later closed
    | false =>
      rw [fromClosingQuote] at closed
      split at closed
      · exact later closed
      · split at closed
        · obtain rfl := Option.some.inj closed
          exact ⟨suffix_refl _, cons_ne_nil _ _⟩
        · exact later closed

theorem getLast?_suffix {text part : List Char} (suffix : part <:+ text) (nonempty : part ≠ []) :
    part.getLast? = text.getLast? := by
  obtain ⟨front, rfl⟩ := suffix
  simp [getLast?_append, getLast?_eq_some_getLast nonempty]

/-- What a pass leaves at the end of a text that ended in a dash. -/
def EndsClosed (text : List Char) : Prop := text.getLast? = some '-' ∨ text.getLast? = some '>'

theorem EndsClosed.append {text : List Char} (closed : EndsClosed text) (front : List Char) :
    EndsClosed (front ++ text) := by
  obtain closed | closed := closed <;> simp [EndsClosed, getLast?_append, closed]

theorem redactValue_endsClosed {line : List Char} (dash : line.getLast? = some '-')
    (nextKey : Bool) : EndsClosed (redactValue nextKey line) := by
  rw [redactValue]
  split
  next output quoted =>
    rw [redactQuoted] at quoted
    split at quoted
    next => exact nomatch quoted
    next quote text content =>
      split at quoted
      · obtain ⟨rest, closed, rfl⟩ := Option.map_eq_some_iff.mp quoted
        obtain ⟨suffix, nonempty⟩ := fromClosingQuote_suffix closed
        have inLine : rest <:+ line := by
          refine suffix.trans ((suffix_cons quote text).trans ?_)
          rw [← content]
          exact dropWhile_suffix _
        have last := getLast?_suffix inLine nonempty
        rw [dash] at last
        exact EndsClosed.append (.inl last) _
      · exact nomatch quoted
  next =>
    obtain ⟨front, rfl⟩ := getLast?_eq_some_iff.mp dash
    have whole : unquotedValue nextKey (front ++ ['-']) = front ++ ['-'] := by
      cases nextKey with
      | false => rfl
      | true =>
        have untrimmed : trimEnd (front ++ ['-']) = front ++ ['-'] := by
          simp [trimEnd, show isRustWhitespace '-' = false from rfl]
        rw [unquotedValue, if_pos rfl, untrimmed, beforeDelimiter]
        split
        · rfl
        · rw [if_neg]
          simp [show isDelimiter '-' = false from rfl, show isRustWhitespace '-' = false from rfl]
    simp only [whole, append_eq_nil_iff, cons_ne_nil, and_false, if_false,
      drop_length, append_nil]
    exact .inr rfl

theorem redactGap_endsClosed {gap : List Char} (dash : gap.getLast? = some '-')
    (nextKey : Bool) : EndsClosed (redactGap nextKey gap) := by
  rw [redactGap]
  by_cases broken : gap.dropWhile (fun c => !isLineBreak c) = []
  · rw [broken, append_nil]
    apply redactValue_endsClosed
    have whole := takeWhile_append_dropWhile (p := fun c => !isLineBreak c) (l := gap)
    rw [broken, append_nil] at whole
    rw [whole, dash]
  · apply EndsClosed.append
    rw [EndsClosed, getLast?_suffix (dropWhile_suffix _) broken]
    exact .inl dash

theorem redactKeyed_endsClosed {gap : List Char} (dash : gap.getLast? = some '-')
    (front : List (List Char × List Char)) (key : List Char) (nextKey : Bool) :
    EndsClosed (redactKeyed nextKey (front ++ [(key, gap)])) := by
  induction front with
  | nil => simpa [redactKeyed] using (redactGap_endsClosed dash nextKey).append key
  | cons pair front ih => exact ih.append _

variable (pieces : List (Piece Char))

theorem keyedValues_dash :
    ((keyedValues (pieces ++ [.text '-'])).2 = [] ∧
      (keyedValues (pieces ++ [.text '-'])).1.getLast? = some '-') ∨
    ∃ front key gap, (keyedValues (pieces ++ [.text '-'])).2 = front ++ [(key, gap)] ∧
      gap.getLast? = some '-' := by
  induction pieces with
  | nil => exact .inl ⟨rfl, rfl⟩
  | cons piece pieces ih =>
    cases piece with
    | text c =>
      refine ih.imp_left ?_
      rintro ⟨none, dash⟩
      exact ⟨none, by simp [keyedValues, getLast?_cons, dash]⟩
    | found key captures =>
      right
      obtain ⟨none, dash⟩ | ⟨front, key', gap, keyed, dash⟩ := ih
      · exact ⟨[], key, _, by simp [keyedValues, none], dash⟩
      · exact ⟨(key, (keyedValues (pieces ++ [.text '-'])).1) :: front, key', gap, by simp [keyedValues, keyed], dash⟩

theorem redactKeys_endsClosed (nextKey : Bool) :
    EndsClosed (redactKeys nextKey (pieces ++ [.text '-'])) := by
  rw [redactKeys]
  obtain ⟨none, dash⟩ | ⟨front, key, gap, keyed, dash⟩ := keyedValues_dash pieces
  · rw [none, redactKeyed, append_nil]
    exact .inl dash
  · rw [keyed]
    exact (redactKeyed_endsClosed dash front key nextKey).append _

/-- The lines of a key with any line breaks, from the break behind the first marker to the
break before the last. -/
structure KeyBody where
  text : List Char
  base64 : ∀ c ∈ text, isBase64 c = true ∨ isLineBreak c = true
  opens : ∃ c rest, text = c :: rest ∧ isLineBreak c = true
  closes : ∃ c, text.getLast? = some c ∧ isLineBreak c = true

/-- No key takes the last line break along: its value ends in the body. -/
def KeyBody.EndsValues (body : KeyBody) : Prop :=
  ∃ front c, keyPrefix.pieces body.text = front ++ [.text c]

theorem redactKeys_line {left : List (Piece Char)} {c : Char} (lineEnd : isLineBreak c = true)
    (right : List (Piece Char)) :
    redactKeys false (left ++ [.text c] ++ right) =
      redactKeys (hasKey right) (left ++ [.text c]) ++ redactKeys false right := by
  rw [append_assoc, singleton_append, redactKeys_break lineEnd, redactKeys_break lineEnd]
  simp [hasKey, redactKeys, redactKeyed, keyedValues]

theorem keyPrefix_lead (lead : List Char) {label : List Char} (labelled : ∀ c ∈ label, isUpperOrSpace c = true)
    (tail : List Char) :
    keyPrefix.pieces (lead ++ markerText "-----BEGIN " label ++ tail) =
      keyPrefix.pieces lead ++ (markerText "-----BEGIN " label).map .text ++
        keyPrefix.pieces tail := by
  rw [append_assoc, append_assoc, ← keyPrefix_marker (by decide) labelled]
  exact keyPrefix_before_dashes _ _

theorem keyPrefix_tail (text label tail : List Char) :
    keyPrefix.pieces (text ++ (markerText "-----END " label ++ tail)) =
      keyPrefix.pieces text ++ keyPrefix.pieces (markerText "-----END " label ++ tail) :=
  keyPrefix_before_dashes _ _

variable (body : KeyBody)

theorem KeyBody.pieces_opens :
    ∃ c rest, isLineBreak c = true ∧ body.text = c :: rest ∧
      keyPrefix.pieces body.text = .text c :: keyPrefix.pieces rest := by
  obtain ⟨c, rest, text, lineStart⟩ := body.opens
  refine ⟨c, rest, lineStart, text, ?_⟩
  rw [text]
  apply pieces_none
  simp only [isLineBreak, Bool.or_eq_true, beq_iff_eq] at lineStart
  obtain rfl | rfl := lineStart <;> rfl

theorem KeyBody.pieces_closes {body : KeyBody} (ends : body.EndsValues) :
    ∃ front c, keyPrefix.pieces body.text = front ++ [.text c] ∧ isLineBreak c = true := by
  obtain ⟨front, c, pieces⟩ := ends
  obtain ⟨d, last, lineEnd⟩ := body.closes
  have letters := pieces_letters keyPrefix_needs.takesText body.text
  rw [pieces, flatMap_append] at letters
  rw [← letters] at last
  obtain rfl : c = d := by simpa [Piece.letters] using last
  exact ⟨front, c, pieces, lineEnd⟩

theorem redactKeys_key {lead label label' tail : List Char} {body : KeyBody}
    (labelled : ∀ c ∈ label, isUpperOrSpace c = true) (ends : body.EndsValues) :
    redactKeys false (keyPrefix.pieces (lead ++ markerText "-----BEGIN " label ++ body.text ++
        (markerText "-----END " label' ++ tail))) =
      redactKeys (hasKey (keyPrefix.pieces body.text) ||
          hasKey (keyPrefix.pieces (markerText "-----END " label' ++ tail)))
        (keyPrefix.pieces (lead ++ markerText "-----BEGIN " label)) ++
      redactKeys false (keyPrefix.pieces body.text) ++
      redactKeys false (keyPrefix.pieces (markerText "-----END " label' ++ tail)) := by
  obtain ⟨front, c, closes, lineEnd⟩ := body.pieces_closes ends
  obtain ⟨d, rest, lineStart, -, opens⟩ := body.pieces_opens
  have before := keyPrefix_lead lead labelled []
  rw [append_nil, pieces_nil, append_nil] at before
  have letters : ∀ c ∈ (keyPrefix.pieces body.text).flatMap Piece.letters,
      isBase64 c = true ∨ isLineBreak c = true := by
    rw [pieces_letters keyPrefix_needs.takesText]
    exact body.base64
  have same : ∀ flag, redactKeys flag (keyPrefix.pieces body.text) =
      redactKeys false (keyPrefix.pieces body.text) := by
    intro flag
    rw [redactKeys, redactKeys, (redactKeyed_base64
      (fun pair mem => ((keyedValues_letters letters).2 pair mem).2) flag).1]
  rw [append_assoc (lead ++ _), keyPrefix_lead lead labelled, keyPrefix_tail, ← before,
    ← append_assoc]
  have tailStep : ∀ left right, redactKeys false (left ++ keyPrefix.pieces body.text ++ right) =
      redactKeys (hasKey right) (left ++ keyPrefix.pieces body.text) ++ redactKeys false right := by
    intro left right
    rw [closes, ← append_assoc]
    exact redactKeys_line lineEnd right
  have leadStep : ∀ flag left, redactKeys flag (left ++ keyPrefix.pieces body.text) =
      redactKeys (flag || hasKey (keyPrefix.pieces body.text)) left ++
        redactKeys false (keyPrefix.pieces body.text) := by
    intro flag left
    rw [← same flag, opens, redactKeys_break lineStart]
    rfl
  rw [tailStep, leadStep, Bool.or_comm]

theorem KeyBody.redacted_opens : ∃ c rest, isLineBreak c = true ∧
    redactKeys false (keyPrefix.pieces body.text) = c :: rest := by
  obtain ⟨c, rest, lineStart, -, opens⟩ := body.pieces_opens
  exact ⟨c, _, lineStart, by rw [opens, redactKeys_text]⟩

theorem KeyBody.redacted_closes {body : KeyBody} (ends : body.EndsValues) :
    ∃ c, isLineBreak c = true ∧
      (redactKeys false (keyPrefix.pieces body.text)).getLast? = some c := by
  obtain ⟨front, c, closes, lineEnd⟩ := body.pieces_closes ends
  refine ⟨c, lineEnd, ?_⟩
  rw [closes, redactKeys_break lineEnd]
  simp [redactKeys, redactKeyed, keyedValues]

theorem KeyBody.redacted_undashed : '-' ∉ redactKeys false (keyPrefix.pieces body.text) := by
  have letters : ∀ c ∈ (keyPrefix.pieces body.text).flatMap Piece.letters,
      isBase64 c = true ∨ isLineBreak c = true := by
    rw [pieces_letters keyPrefix_needs.takesText]
    exact body.base64
  obtain ⟨lead, keyed⟩ := keyedValues_letters letters
  have dash : ¬(isBase64 '-' = true ∨ isLineBreak '-' = true) := by decide
  intro mem
  rw [redactKeys, mem_append] at mem
  obtain mem | mem := mem
  · exact dash (lead _ mem)
  · obtain ⟨pair, inside, mem | mem⟩ | mem :=
      (redactKeyed_base64 (fun pair mem => (keyed pair mem).2) false).2 _ mem
    · exact dash ((keyed pair inside).1 _ mem)
    · exact dash ((keyed pair inside).2 _ mem)
    · revert mem
      decide

end PortMate
