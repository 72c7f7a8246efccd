import PortMate.RedactionRepeats

namespace PortMate

open List Regex

section Passes

/-- What the two loops make of the output of the key/value pass. -/
def redactText (text : List Char) : List Char :=
  redactPattern pemKey (redactPattern bearerToken (redactKeyText text))

theorem redactSecrets_redactText {search : Search} (documented : search.Documented) (rounds : Nat)
    (text : List Char) : redactSecrets search (rounds + 2) text = some (redactText text) :=
  redactSecrets_eq documented rounds text

theorem bearerPass_masked (text : List Char) :
    Masked redacted text (redactPattern bearerToken text) := by
  refine replacePieces_masked bearerToken_needs.takesText text fun s m found => ?_
  obtain ⟨n, -, token, -, rfl⟩ := bearerToken_cases (first_mem found)
  have replaced := Masked.keeps n.taken (.replace token.taken (.nil : Masked redacted [] []))
  rwa [append_nil, append_nil] at replaced

theorem pemPass_masked (text : List Char) :
    Masked redactedSecret text (redactPattern pemKey text) := by
  refine replacePieces_masked pemKey_takes text fun s m found => ?_
  rw [pemKey_replacement found]
  have replaced := Masked.replace m.taken (.nil : Masked redactedSecret [] [])
  rwa [append_nil, append_nil] at replaced

theorem redactText_clear (text : List Char) :
    Clear bearerToken (redactText text) ∧ Clear pemKey (redactText text) := by
  have bearer : Clear bearerToken (redactPattern bearerToken (redactKeyText text)) :=
    fun s nonempty suffix => first_eq_none.mp (bearerToken_clear _ s nonempty suffix)
  exact ⟨bearer.masked bearer_shut_redactedSecret (pemPass_masked _),
    fun s nonempty suffix => first_eq_none.mp (pemKey_clear _ s nonempty suffix)⟩

theorem redactText_of_clear {text : List Char} (bearer : Clear bearerToken text)
    (pem : Clear pemKey text) : redactText text = redactKeyText text := by
  have masked := redactKeyText_masked text
  have noToken := bearer.masked bearer_shut_redacted masked
  have noKey := pemKey_clear_masked pem_shut_redacted.1 pem_shut_redacted.2 masked pem
  rw [redactText, noToken.fixed, noKey.fixed]

theorem redactText_settles (text : List Char) :
    redactText (redactText (redactText text)) = redactText (redactText text) := by
  obtain ⟨bearer, pem⟩ := redactText_clear text
  obtain ⟨bearer', pem'⟩ := redactText_clear (redactText text)
  rw [redactText_of_clear bearer' pem', redactText_of_clear bearer pem, redactKeyText_settles]

end Passes

section Gaps

/-- A letter that stands in what is left of a redacted value, or around it. -/
def isRemnant (c : Char) : Bool :=
  isRustWhitespace c || isQuote c || isDelimiter c || redacted.contains c

def PassesRemnants (pattern : Regex Char) : Prop :=
  ∀ c, isRemnant c = true → ∀ text, pattern.first (c :: text) = none

theorem remnant_plain {c : Char} (remnant : isRemnant c = true) :
    caseless 'b' c = false ∧ c ≠ '-' := by
  have plain : ∀ d, isRemnant d = false → c ≠ d := by
    rintro d none rfl
    rw [none] at remnant
    exact Bool.false_ne_true remnant
  refine ⟨?_, plain '-' (by decide)⟩
  simp [caseless, plain 'b' (by decide), show 'b'.toUpper = 'B' from rfl, plain 'B' (by decide)]

theorem bearer_passesRemnants : PassesRemnants bearerToken := by
  intro c remnant text
  have other : bearerWord.matchesAt (c :: text) = [] := by
    rw [bearerWord, matchesAt, keyword, show "bearer".toList.map caseless =
      caseless 'b' :: "earer".toList.map caseless from rfl, word_cons,
      if_neg (by simp [(remnant_plain remnant).1])]
    rfl
  rw [first_eq_none, eq_nil_iff_forall_not_mem]
  intro m mem
  obtain ⟨n, wordMem, -⟩ := bearerToken_cases mem
  rw [other] at wordMem
  exact absurd wordMem not_mem_nil

theorem pem_passesRemnants : PassesRemnants pemKey :=
  fun _ remnant text => pemKey_undashed (remnant_plain remnant).2 text

variable {pattern : Regex Char}

theorem PassesRemnants.redactPattern (passes : PassesRemnants pattern) {front : List Char}
    (remnants : ∀ c ∈ front, isRemnant c = true) (text : List Char) :
    redactPattern pattern (front ++ text) = front ++ redactPattern pattern text := by
  induction front with
  | nil => rfl
  | cons c front ih =>
    obtain ⟨here, later⟩ := forall_mem_cons.mp remnants
    rw [cons_append, redactPattern_none (passes c here _), ih later, cons_append]

theorem firstLine_unbroken (gap : List Char) : ∀ c ∈ firstLine gap, isLineBreak c = false :=
  fun c mem => by simpa using mem_takeWhile_imp mem

theorem remnant_white {c : Char} (white : isRustWhitespace c = true) : isRemnant c = true := by
  simp [isRemnant, white]

theorem remnant_quote {c : Char} (quotes : isQuote c = true) : isRemnant c = true := by
  simp [isRemnant, quotes]

theorem remnant_delimiter {c : Char} (delimits : isDelimiter c = true) : isRemnant c = true := by
  simp [isRemnant, delimits]

theorem remnant_redacted {c : Char} (mem : c ∈ redacted) : isRemnant c = true := by
  simp [isRemnant, mem]

theorem remnant_break {c : Char} (breaks : isLineBreak c = true) : isRemnant c = true := by
  simp only [isLineBreak, Bool.or_eq_true, beq_iff_eq] at breaks
  obtain rfl | rfl := breaks <;> decide

theorem remnant_behind {nextKey : Bool} {behind : List Char} (left : LeftBehind nextKey behind) :
    ∀ c ∈ behind, isRemnant c = true :=
  fun c mem => (leftBehind_break left c mem).elim remnant_white remnant_delimiter

theorem pass_breaks (passes : PassesRemnants pattern) (gap : List Char) :
    ∀ c, (redactPattern pattern (linesBelow gap)).head? = some c → isLineBreak c = true := by
  have breaks := linesBelow_breaks gap
  cases below : linesBelow gap with
  | nil => exact nofun
  | cons d rest =>
    rw [below] at breaks
    rw [redactPattern_none (passes d (remnant_break (breaks d rfl)) rest)]
    exact breaks

theorem shownGap_pass (passes : PassesRemnants pattern) {nextKey : Bool} {gap : List Char}
    (shown : ShownGap nextKey gap) : ShownGap nextKey (redactPattern pattern gap) := by
  have unbroken := firstLine_unbroken gap
  have own : (∀ c ∈ firstLine gap, isRemnant c = true) →
      ShownGap nextKey (redactPattern pattern gap) := by
    intro remnants
    have kept := passes.redactPattern remnants (linesBelow gap)
    rw [firstLine_append_linesBelow] at kept
    rw [ShownGap, kept, (firstLine_of unbroken (pass_breaks passes gap)).1]
    exact shown
  rw [ShownGap] at shown
  generalize line : firstLine gap = first at shown unbroken own
  cases shown with
  | @quoted space quote rest white quotes =>
    have whole : (space ++ quote :: (redacted ++ [quote])) ++ (rest ++ linesBelow gap) = gap := by
      have same := firstLine_append_linesBelow gap
      rw [line] at same
      simpa using same
    have remnants : ∀ c ∈ space ++ quote :: (redacted ++ [quote]), isRemnant c = true := by
      intro c mem
      simp only [mem_append, mem_cons, not_mem_nil, or_false] at mem
      obtain mem | rfl | mem | rfl := mem
      · exact remnant_white (white c mem)
      · exact remnant_quote quotes
      · exact remnant_redacted mem
      · exact remnant_quote quotes
    have open' : ∀ c ∈ space ++ quote :: (redacted ++ [quote]), (!isLineBreak c) = true := by
      intro c mem
      rw [unbroken c (by simp at mem ⊢; tauto)]
      rfl
    have kept := passes.redactPattern remnants (rest ++ linesBelow gap)
    rw [whole] at kept
    rw [ShownGap, kept, firstLine, takeWhile_append_of_pos open']
    have shown := @ShownLine.quoted nextKey _ _
      (firstLine (redactPattern pattern (rest ++ linesBelow gap))) white quotes
    simpa [firstLine] using shown
  | plain left =>
    exact own fun c mem => (mem_append.mp mem).elim remnant_redacted (remnant_behind left c)
  | blank left => exact own (remnant_behind left)

theorem shownGaps_pass (passes : PassesRemnants pattern) {keyed : List (List Char × List Char)}
    (shown : ShownGaps keyed) :
    ShownGaps (keyed.map fun pair => (pair.1, redactPattern pattern pair.2)) := by
  induction keyed with
  | nil => trivial
  | cons pair keyed ih =>
    refine ⟨?_, ih shown.2⟩
    have same : (keyed.map fun pair => (pair.1, redactPattern pattern pair.2)).isEmpty =
        keyed.isEmpty := by cases keyed <;> rfl
    rw [same]
    exact shownGap_pass passes shown.1

end Gaps

section Apart

/-- The text before the first key, and the keys with what stands behind each. -/
abbrev KeyedText := List Char × List (List Char × List Char)

def KeyedText.text (read : KeyedText) : List Char := read.1 ++ assemble read.2

/-- What the pattern finds in the text it finds in the parts between the keys. -/
def FoundApart (pattern : Regex Char) (read : KeyedText) : Prop :=
  pattern.pieces read.text =
    pattern.pieces read.1 ++ read.2.flatMap fun pair => pair.1.map .text ++ pattern.pieces pair.2

instance (pattern : Regex Char) (read : KeyedText) : Decidable (FoundApart pattern read) :=
  inferInstanceAs (Decidable (_ = _))

def redactParts (pattern : Regex Char) (read : KeyedText) : KeyedText :=
  (redactPattern pattern read.1, read.2.map fun pair => (pair.1, redactPattern pattern pair.2))

theorem redactPattern_apart {pattern : Regex Char} {read : KeyedText}
    (apart : FoundApart pattern read) :
    redactPattern pattern read.text = (redactParts pattern read).text := by
  have gaps : ∀ keyed : List (List Char × List Char),
      replacePieces secretReplacement
        (keyed.flatMap fun pair => pair.1.map .text ++ pattern.pieces pair.2) =
      assemble (keyed.map fun pair => (pair.1, redactPattern pattern pair.2)) := by
    intro keyed
    induction keyed with
    | nil => rfl
    | cons pair keyed ih =>
      rw [flatMap_cons, map_cons, assemble_cons, replacePieces_append,
        replacePieces_append, replacePieces_text, ih, append_assoc]
      rfl
  rw [redactPattern, apart, replacePieces_append, gaps]
  rfl

/-- The keys of the text are those that a search finds in it. -/
structure KeyedText.Chained (read : KeyedText) : Prop where
  free : Unkeyed read.1 (assemble read.2)
  chain : KeyChain read.2

theorem KeyedText.Chained.readKeys {read : KeyedText} (chained : read.Chained) :
    readKeys read.text = read :=
  keyedValues_chain chained.free chained.chain

theorem KeyedText.Chained.redactParts {pattern : Regex Char} {mask : List Char} {read : KeyedText}
    (chained : read.Chained) (kept : MaskKept mask)
    (masks : ∀ text, Masked mask text (redactPattern pattern text)) :
    (redactParts pattern read).Chained := by
  have gaps : ∀ keyed : List (List Char × List Char), GapsKept keyed
      (keyed.map fun pair => (pair.1, redactPattern pattern pair.2)) := by
    intro keyed
    induction keyed with
    | nil => exact .nil
    | cons pair keyed ih => exact .cons ⟨rfl, gapKept_of_masked kept (masks pair.2)⟩ ih
  obtain ⟨chain, tails, -⟩ := chained.chain.kept (gaps read.2)
  exact ⟨(gapKept_of_masked kept (masks read.1)).free _ (tails _ chained.free), chain⟩

/-- The text once its values are redacted, as it is read again. -/
def redactedRead (text : List Char) : KeyedText :=
  ((readKeys text).1, redactGaps (readKeys text).2)

theorem redactedRead_text (text : List Char) : (redactedRead text).text = redactKeyText text :=
  (redactKeyText_eq text).symm

theorem redactedRead_chained (text : List Char) : (redactedRead text).Chained := by
  obtain ⟨-, free, chain⟩ := exists_chain text
  obtain ⟨chain', tails, -⟩ := chain.kept (redactGaps_kept _)
  exact ⟨tails _ free, chain'⟩

/-- The tokens and blocks that the loops replace stand between the keys. -/
def SecretsBetweenKeys (text : List Char) : Prop :=
  FoundApart bearerToken (redactedRead text) ∧
    FoundApart pemKey (redactParts bearerToken (redactedRead text))

instance (text : List Char) : Decidable (SecretsBetweenKeys text) :=
  inferInstanceAs (Decidable (_ ∧ _))

theorem redactText_idempotent {text : List Char} (between : SecretsBetweenKeys text) :
    redactText (redactText text) = redactText text := by
  obtain ⟨bearerApart, pemApart⟩ := between
  have whole : redactText text =
      (redactParts pemKey (redactParts bearerToken (redactedRead text))).text := by
    rw [redactText, ← redactedRead_text, redactPattern_apart bearerApart,
      redactPattern_apart pemApart]
  have chained := ((redactedRead_chained text).redactParts redacted_kept bearerPass_masked).redactParts
    redactedSecret_kept pemPass_masked
  have shown : ShownGaps (redactParts pemKey (redactParts bearerToken (redactedRead text))).2 :=
    shownGaps_pass pem_passesRemnants (shownGaps_pass bearer_passesRemnants (redactGaps_shown _))
  obtain ⟨bearer, pem⟩ := redactText_clear text
  rw [redactText_of_clear bearer pem, redactKeyText_eq, whole, chained.readKeys,
    shownGaps_fixed shown]
  rfl

end Apart

section Values

/-- A value on one line that the quote behind it is the first to close. -/
structure QuotedValue (quote : Char) (value : List Char) : Prop where
  closed : fromClosingQuote quote false (value ++ [quote]) = some [quote]
  unbroken : ∀ c ∈ value, isLineBreak c = false

/-- A value without quotes that runs to the end of its line or to the white space before the
next key. -/
structure PlainValue (nextKey : Bool) (value : List Char) : Prop where
  nonempty : value ≠ []
  plain : ∀ c ∈ value, isQuote c = false ∧ isDelimiter c = false ∧ isLineBreak c = false
  visible : nextKey = true → ∀ c, value.getLast? = some c → isRustWhitespace c = false

inductive SameButValue (nextKey : Bool) : List Char → List Char → Prop
  | same (gap : List Char) : SameButValue nextKey gap gap
  | quoted {quote : Char} {value value' : List Char} (quotes : isQuote quote = true)
      (quoted : QuotedValue quote value) (quoted' : QuotedValue quote value') (rest : List Char) :
      SameButValue nextKey (quote :: (value ++ quote :: rest)) (quote :: (value' ++ quote :: rest))
  | plain {value value' space below : List Char} (plain : PlainValue nextKey value)
      (plain' : PlainValue nextKey value')
      (white : ∀ c ∈ space, isRustWhitespace c = true ∧ isLineBreak c = false)
      (behind : nextKey = true ∨ space = [])
      (ends : ∀ c, below.head? = some c → isLineBreak c = true) :
      SameButValue nextKey (value ++ space ++ below) (value' ++ space ++ below)

/-- The same keys, each with the same behind it but for its value. -/
inductive SameButValues : List (List Char × List Char) → List (List Char × List Char) → Prop
  | nil : SameButValues [] []
  | cons {gap gap' : List Char} {keyed keyed' : List (List Char × List Char)} (key : List Char)
      (own : SameButValue (!keyed.isEmpty) gap gap') (later : SameButValues keyed keyed') :
      SameButValues ((key, gap) :: keyed) ((key, gap') :: keyed')

theorem fromClosingQuote_append {quote : Char} {escaped : Bool} {text rest : List Char}
    (closed : fromClosingQuote quote escaped text = some rest) (tail : List Char) :
    fromClosingQuote quote escaped (text ++ tail) = some (rest ++ tail) := by
  induction text generalizing escaped with
  | nil => cases escaped <;> cases closed
  | cons c text ih =>
    cases escaped with
    | true => exact ih closed
    | false =>
      rw [fromClosingQuote] at closed
      rw [cons_append, fromClosingQuote]
      split at closed
      next slash => rw [if_pos slash, ih closed]
      next slash =>
        rw [if_neg slash]
        split at closed
        next same => rw [if_pos same, ← Option.some.inj closed, cons_append]
        next other => rw [if_neg other, ih closed]

theorem redactGap_quoted (nextKey : Bool) {quote : Char} {value : List Char}
    (quotes : isQuote quote = true) (quoted : QuotedValue quote value) (rest : List Char) :
    redactGap nextKey (quote :: (value ++ quote :: rest)) =
      quote :: (redacted ++ quote :: rest) := by
  have plain : isLineBreak quote = false := by
    simp only [isQuote, Bool.or_eq_true, beq_iff_eq] at quotes
    obtain rfl | rfl := quotes <;> rfl
  have open' : ∀ c ∈ quote :: (value ++ quote :: firstLine rest), isLineBreak c = false := by
    intro c mem
    simp only [mem_cons, mem_append] at mem
    obtain rfl | mem | rfl | mem := mem
    · exact plain
    · exact quoted.unbroken c mem
    · exact plain
    · exact firstLine_unbroken rest c mem
  have lines := firstLine_of open' (linesBelow_breaks rest)
  have whole : quote :: (value ++ quote :: firstLine rest) ++ linesBelow rest =
      quote :: (value ++ quote :: rest) := by
    rw [cons_append, append_assoc, cons_append, firstLine_append_linesBelow]
  rw [whole] at lines
  have closed := fromClosingQuote_append quoted.closed (firstLine rest)
  rw [append_assoc, singleton_append] at closed
  rw [redactGap_eq, lines.1, lines.2, redactValue, redactQuoted,
    dropWhile_cons_of_neg (by simp [(quote_visible quotes).1]),
    takeWhile_cons_of_neg (by simp [(quote_visible quotes).1])]
  dsimp only
  rw [if_pos quotes, closed, Option.map_some]
  simp [firstLine_append_linesBelow]

theorem redactQuoted_unquoted {line : List Char} (plain : ∀ c ∈ line, isQuote c = false) :
    redactQuoted line = none := by
  rw [redactQuoted]
  split
  next => rfl
  next quote text content =>
    have mem : quote ∈ line.dropWhile isRustWhitespace := by
      rw [content]
      exact mem_cons_self
    rw [plain quote ((dropWhile_suffix _).subset mem), if_neg Bool.false_ne_true]

theorem white_unquoted {c : Char} (white : isRustWhitespace c = true) : isQuote c = false := by
  cases quotes : isQuote c with
  | false => rfl
  | true =>
    rw [(quote_visible quotes).1] at white
    exact absurd white Bool.false_ne_true

theorem PlainValue.unquoted {nextKey : Bool} {value space : List Char}
    (plain : PlainValue nextKey value) (white : ∀ c ∈ space, isRustWhitespace c = true)
    (behind : nextKey = true ∨ space = []) : unquotedValue nextKey (value ++ space) = value := by
  cases nextKey with
  | false =>
    obtain rfl := behind.resolve_left Bool.false_ne_true
    rw [append_nil, unquotedValue, if_neg Bool.false_ne_true]
  | true =>
    obtain ⟨front, c, rfl⟩ := eq_nil_or_concat' value |>.resolve_left plain.nonempty
    have visible := plain.visible rfl c getLast?_concat
    have delimits := (plain.plain c (by simp)).2.1
    rw [unquotedValue, if_pos rfl, trimEnd_white _ white, trimEnd_visible visible,
      beforeDelimiter_visible visible delimits]

theorem redactGap_plain {nextKey : Bool} {value space below : List Char}
    (plain : PlainValue nextKey value)
    (white : ∀ c ∈ space, isRustWhitespace c = true ∧ isLineBreak c = false)
    (behind : nextKey = true ∨ space = [])
    (ends : ∀ c, below.head? = some c → isLineBreak c = true) :
    redactGap nextKey (value ++ space ++ below) = redacted ++ space ++ below := by
  have unbroken : ∀ c ∈ value ++ space, isLineBreak c = false := fun c mem =>
    (mem_append.mp mem).elim (fun mem => (plain.plain c mem).2.2) fun mem => (white c mem).2
  have unquoted : ∀ c ∈ value ++ space, isQuote c = false := fun c mem =>
    (mem_append.mp mem).elim (fun mem => (plain.plain c mem).1) fun mem =>
      white_unquoted (white c mem).1
  obtain ⟨first, lines⟩ := firstLine_of unbroken ends
  rw [redactGap_eq, first, lines, redactValue, redactQuoted_unquoted unquoted]
  dsimp only
  rw [plain.unquoted (fun c mem => (white c mem).1) behind, if_neg plain.nonempty, drop_left]

theorem SameButValue.redactGap {nextKey : Bool} {gap gap' : List Char}
    (same : SameButValue nextKey gap gap') : redactGap nextKey gap = redactGap nextKey gap' := by
  cases same with
  | same => rfl
  | quoted quotes quoted quoted' rest =>
    rw [redactGap_quoted nextKey quotes quoted, redactGap_quoted nextKey quotes quoted']
  | plain plain plain' white behind ends =>
    rw [redactGap_plain plain white behind ends, redactGap_plain plain' white behind ends]

theorem SameButValues.isEmpty {keyed keyed' : List (List Char × List Char)}
    (same : SameButValues keyed keyed') : keyed'.isEmpty = keyed.isEmpty := by
  cases same <;> rfl

theorem SameButValues.redactGaps {keyed keyed' : List (List Char × List Char)}
    (same : SameButValues keyed keyed') : redactGaps keyed = redactGaps keyed' := by
  induction same with
  | nil => rfl
  | cons key own later ih =>
    rw [PortMate.redactGaps, PortMate.redactGaps, own.redactGap, later.isEmpty, ih]

end Values

section Noninterference

variable {search : Search}

/-- The loops end after the first replacement. The output does not depend on the values that
differ, as long as the search finds the same keys. It settles at the second run, and at the
first where the replaced tokens and blocks stand between the keys. -/
theorem redactSecrets_hides (documented : search.Documented) :
    (∀ text, ∃ output, ∀ rounds, redactSecrets search (rounds + 2) text = some output) ∧
    (∀ text text' rounds,
      (keyedValues (search keyPrefix text)).1 = (keyedValues (search keyPrefix text')).1 →
      SameButValues (keyedValues (search keyPrefix text)).2
        (keyedValues (search keyPrefix text')).2 →
      redactSecrets search rounds text = redactSecrets search rounds text') ∧
    (∀ text once twice rounds, redactSecrets search (rounds + 2) text = some once →
      redactSecrets search (rounds + 2) once = some twice →
      redactSecrets search (rounds + 2) twice = some twice ∧
        (SecretsBetweenKeys text → twice = once)) := by
  refine ⟨fun text => ⟨_, fun rounds => redactSecrets_redactText documented rounds text⟩, ?_, ?_⟩
  · intro text text' rounds lead keyed
    have same : redactKeyValueSecrets search text = redactKeyValueSecrets search text' := by
      rw [redactKeyValueSecrets, redactKeyValueSecrets, redactKeys, redactKeys, lead,
        redactKeyed_gaps, redactKeyed_gaps, keyed.redactGaps]
    rw [redactSecrets, redactSecrets, same]
  · intro text once twice rounds first second
    rw [redactSecrets_redactText documented] at first second ⊢
    obtain rfl := Option.some.inj first
    obtain rfl := Option.some.inj second
    exact ⟨congrArg some (redactText_settles text), redactText_idempotent⟩

theorem all_unbroken {value : List Char} (none : value.any isLineBreak = false) :
    ∀ c ∈ value, isLineBreak c = false :=
  fun c mem => Bool.eq_false_iff.mpr (any_eq_false.mp none c mem)

theorem sample_values_hidden :
    redactSecrets pieces 2 "pwd='a,b' token=left\nbearer abc".toList =
      redactSecrets pieces 2 "pwd='c' token=right now\nbearer abc".toList ∧
    ∃ once, redactSecrets pieces 2 "pwd='c' token=right now\nbearer abc".toList = some once ∧
      redactSecrets pieces 2 once = some once := by
  obtain ⟨ends, hides, settles⟩ := @redactSecrets_hides pieces fun _ _ _ => rfl
  constructor
  · refine hides _ _ 2 (by decide) ?_
    have read : (keyedValues (keyPrefix.pieces "pwd='a,b' token=left\nbearer abc".toList)).2 =
        [("pwd=".toList, "'a,b' ".toList), ("token=".toList, "left\nbearer abc".toList)] := by
      decide
    have read' : (keyedValues (keyPrefix.pieces
          "pwd='c' token=right now\nbearer abc".toList)).2 =
        [("pwd=".toList, "'c' ".toList), ("token=".toList, "right now\nbearer abc".toList)] := by
      decide
    rw [read, read']
    have quoted : SameButValue true "'a,b' ".toList "'c' ".toList :=
      @SameButValue.quoted true '\x27' "a,b".toList "c".toList rfl ⟨rfl, all_unbroken rfl⟩
        ⟨rfl, all_unbroken rfl⟩ " ".toList
    have plain : ∀ value : List Char, value ≠ [] →
        (value.all fun c => !isQuote c && !isDelimiter c && !isLineBreak c) = true →
        PlainValue false value := by
      intro value nonempty all
      refine ⟨nonempty, fun c mem => ?_, nofun⟩
      simpa [and_assoc] using all_eq_true.mp all c mem
    have unquoted : SameButValue false "left\nbearer abc".toList "right now\nbearer abc".toList :=
      @SameButValue.plain false "left".toList "right now".toList [] "\nbearer abc".toList
        (plain _ (by decide) rfl) (plain _ (by decide) rfl) nofun (.inr rfl)
        fun c head => Option.some.inj head ▸ rfl
    exact .cons _ quoted (.cons _ unquoted .nil)
  · obtain ⟨once, first⟩ := ends "pwd='c' token=right now\nbearer abc".toList
    obtain ⟨twice, second⟩ := ends once
    refine ⟨once, first 0, ?_⟩
    have same := (settles _ once twice 0 (first 0) (second 0)).2 (by decide)
    exact same ▸ second 0

/-- A key that takes the closing quote of the value before it, and a token that takes a key. -/
theorem touching_secrets_shown :
    redactSecrets pieces 2 "password='a,'token=x".toList ≠
      redactSecrets pieces 2 "password='ab'token=x".toList ∧
    (redactSecrets pieces 2 "pwd=abc,\nbearer token=q".toList).bind
        (redactSecrets pieces 2) ≠
      redactSecrets pieces 2 "pwd=abc,\nbearer token=q".toList := by
  decide

end Noninterference

end PortMate
