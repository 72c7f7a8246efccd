import PortMate.RedactionKeyChains
import PortMate.RedactionPem

namespace PortMate

open List Bool Masked Regex

section Lines

/-- What an unquoted value leaves behind it on its line: with a key to follow, the white space and
the delimiter before that. -/
inductive LeftBehind : Bool → List Char → Prop
  | nothing (nextKey : Bool) : LeftBehind nextKey []
  | space {space : List Char} (white : ∀ c ∈ space, isRustWhitespace c = true) :
      LeftBehind true space
  | delimiter {c : Char} {space : List Char} (delimits : isDelimiter c = true)
      (white : ∀ d ∈ space, isRustWhitespace d = true) : LeftBehind true (c :: space)

inductive ShownLine (nextKey : Bool) : List Char → Prop
  | quoted {space : List Char} {quote : Char} (rest : List Char)
      (white : ∀ c ∈ space, isRustWhitespace c = true) (quotes : isQuote quote = true) :
      ShownLine nextKey (space ++ quote :: (redacted ++ quote :: rest))
  | plain {behind : List Char} (left : LeftBehind nextKey behind) :
      ShownLine nextKey (redacted ++ behind)
  | blank {line : List Char} (left : LeftBehind nextKey line) : ShownLine nextKey line

theorem fromClosingQuote_head {quote : Char} {escaped : Bool} {text rest : List Char}
    (closed : fromClosingQuote quote escaped text = some rest) :
    ∃ body behind, text = body ++ quote :: behind ∧ rest = quote :: behind := by
  induction text generalizing escaped with
  | nil => cases escaped <;> cases closed
  | cons c text ih =>
    have later : ∀ {escaped}, fromClosingQuote quote escaped text = some rest →
        ∃ body behind, c :: text = body ++ quote :: behind ∧ rest = quote :: behind := by
      intro escaped closed
      obtain ⟨body, behind, rfl, same⟩ := ih closed
      exact ⟨c :: body, behind, rfl, same⟩
    cases escaped with
    | true => exact later closed
    | false =>
      rw [fromClosingQuote] at closed
      split at closed
      · exact later closed
      · split at closed
        next same =>
          obtain rfl := Option.some.inj closed
          exact ⟨[], text, by rw [same]; rfl, by rw [same]⟩
        next => exact later closed

theorem quote_visible {quote : Char} (quotes : isQuote quote = true) :
    isRustWhitespace quote = false ∧ isDelimiter quote = false := by
  simp only [isQuote, or_eq_true, beq_iff_eq] at quotes
  obtain rfl | rfl := quotes <;> decide

theorem delimiter_visible {c : Char} (delimits : isDelimiter c = true) :
    isRustWhitespace c = false ∧ isQuote c = false := by
  simp only [isDelimiter, or_eq_true, beq_iff_eq] at delimits
  obtain rfl | rfl := delimits <;> decide

theorem span_white {space : List Char} (white : ∀ c ∈ space, isRustWhitespace c = true) {c : Char}
    (visible : isRustWhitespace c = false) (rest : List Char) :
    (space ++ c :: rest).takeWhile isRustWhitespace = space ∧
      (space ++ c :: rest).dropWhile isRustWhitespace = c :: rest := by
  refine NoLead.split (fun d head => ?_) white
  obtain rfl := Option.some.inj head
  exact visible

theorem trimEnd_white (text : List Char) {space : List Char}
    (white : ∀ c ∈ space, isRustWhitespace c = true) : trimEnd (text ++ space) = trimEnd text := by
  rw [trimEnd, trimEnd, List.rdropWhile, List.rdropWhile, reverse_append,
    dropWhile_append_of_pos fun c mem => white c (mem_reverse.mp mem)]

theorem trimEnd_visible {c : Char} (visible : isRustWhitespace c = false) (text : List Char) :
    trimEnd (text ++ [c]) = text ++ [c] := by
  simp [trimEnd, visible]

theorem beforeDelimiter_delimited {c : Char} (delimits : isDelimiter c = true) (text : List Char) :
    beforeDelimiter (text ++ [c]) = text := by
  simp [beforeDelimiter, delimits]

theorem beforeDelimiter_visible {c : Char} (visible : isRustWhitespace c = false)
    (plain : isDelimiter c = false) (text : List Char) :
    beforeDelimiter (text ++ [c]) = text ++ [c] := by
  rw [beforeDelimiter]
  split
  · rfl
  · rw [if_neg]
    simp [plain, visible]

theorem leftBehind_break {nextKey : Bool} {behind : List Char} (left : LeftBehind nextKey behind) :
    ∀ c ∈ behind, isRustWhitespace c = true ∨ isDelimiter c = true := by
  cases left with
  | nothing => exact nofun
  | space white => exact fun c mem => .inl (white c mem)
  | delimiter delimits white =>
    exact forall_mem_cons.mpr ⟨.inr delimits, fun c mem => .inl (white c mem)⟩

theorem unquotedValue_behind (nextKey : Bool) (line : List Char) :
    ∃ behind, LeftBehind nextKey behind ∧ line = unquotedValue nextKey line ++ behind := by
  cases nextKey with
  | false => exact ⟨[], .nothing false, (append_nil _).symm⟩
  | true =>
    obtain ⟨space, white, whole⟩ : ∃ space, (∀ c ∈ space, isRustWhitespace c = true) ∧
        trimEnd line ++ space = line :=
      ⟨_, fun c mem => mem_rtakeWhile_imp mem, rdropWhile_append_rtakeWhile⟩
    rw [unquotedValue, if_pos rfl]
    cases trimmed : trimEnd line using List.reverseRecOn with
    | nil =>
      rw [trimmed] at whole
      exact ⟨space, .space white, whole.symm⟩
    | append_singleton text c =>
      have visible : isRustWhitespace c = false := by
        have kept := rdropWhile_last_not isRustWhitespace line (by
          rw [show List.rdropWhile isRustWhitespace line = text ++ [c] from trimmed]
          simp)
        simpa [show List.rdropWhile isRustWhitespace line = text ++ [c] from trimmed] using kept
      rw [trimmed] at whole
      cases delimits : isDelimiter c with
      | true =>
        rw [beforeDelimiter_delimited delimits]
        exact ⟨c :: space, .delimiter delimits white, by rw [← whole]; simp⟩
      | false =>
        rw [beforeDelimiter_visible visible delimits]
        exact ⟨space, .space white, whole.symm⟩

theorem redactQuoted_plain {c : Char} (visible : isRustWhitespace c = false)
    (plain : isQuote c = false) (line : List Char) : redactQuoted (c :: line) = none := by
  simp [redactQuoted, visible, plain]

theorem redactQuoted_some {line output : List Char} (quoted : redactQuoted line = some output) :
    ∃ space quote body rest, line = space ++ quote :: (body ++ quote :: rest) ∧
      (∀ c ∈ space, isRustWhitespace c = true) ∧ isQuote quote = true ∧
      output = space ++ quote :: (redacted ++ quote :: rest) := by
  rw [redactQuoted] at quoted
  split at quoted
  next => cases quoted
  next quote text content =>
    split at quoted
    next quotes =>
      obtain ⟨rest, closed, rfl⟩ := Option.map_eq_some_iff.mp quoted
      obtain ⟨body, behind, rfl, rfl⟩ := fromClosingQuote_head closed
      refine ⟨line.takeWhile isRustWhitespace, quote, body, behind, ?_,
        fun c mem => mem_takeWhile_imp mem, quotes, by simp⟩
      rw [← content, takeWhile_append_dropWhile]
    next => cases quoted

theorem redactValue_shown (nextKey : Bool) (line : List Char) :
    ShownLine nextKey (redactValue nextKey line) := by
  rw [redactValue]
  split
  next output quoted =>
    obtain ⟨space, quote, body, rest, -, white, quotes, rfl⟩ := redactQuoted_some quoted
    exact .quoted rest white quotes
  next =>
    obtain ⟨behind, left, whole⟩ := unquotedValue_behind nextKey line
    dsimp only
    split
    next empty =>
      rw [empty, nil_append] at whole
      rw [whole]
      exact .blank left
    next =>
      have rest : line.drop (unquotedValue nextKey line).length = behind := by
        generalize unquotedValue nextKey line = value at whole
        rw [whole]
        exact drop_left
      rw [rest]
      exact .plain left

theorem closing_redacted {quote : Char} (quotes : isQuote quote = true) (rest : List Char) :
    fromClosingQuote quote false (redacted ++ quote :: rest) = some (quote :: rest) := by
  simp only [isQuote, or_eq_true, beq_iff_eq] at quotes
  obtain rfl | rfl := quotes <;> rfl

theorem unquotedValue_behind_redacted {nextKey : Bool} {behind : List Char}
    (left : LeftBehind nextKey behind) : unquotedValue nextKey (redacted ++ behind) = redacted := by
  cases left with
  | nothing =>
    cases nextKey <;> rfl
  | space white =>
    rw [unquotedValue, if_pos rfl, trimEnd_white _ white]
    rfl
  | @delimiter c space delimits white =>
    rw [unquotedValue, if_pos rfl, append_cons, trimEnd_white _ white,
      trimEnd_visible (delimiter_visible delimits).1, beforeDelimiter_delimited delimits]

theorem blank_value {nextKey : Bool} {line : List Char} (left : LeftBehind nextKey line) :
    redactQuoted line = none ∧ unquotedValue nextKey line = [] := by
  cases left with
  | nothing => cases nextKey <;> exact ⟨rfl, rfl⟩
  | space white =>
    have dropped : line.dropWhile isRustWhitespace = [] := dropWhile_eq_nil_iff.mpr white
    refine ⟨by rw [redactQuoted, dropped], ?_⟩
    have trimmed := trimEnd_white [] white
    rw [nil_append] at trimmed
    rw [unquotedValue, if_pos rfl, trimmed]
    rfl
  | @delimiter c space delimits white =>
    obtain ⟨visible, plain⟩ := delimiter_visible delimits
    refine ⟨redactQuoted_plain visible plain space, ?_⟩
    have trimmed := trimEnd_white [c] white
    rw [singleton_append, show trimEnd [c] = [] ++ [c] from trimEnd_visible visible []] at trimmed
    rw [unquotedValue, if_pos rfl, trimmed, beforeDelimiter_delimited delimits]

theorem shown_fixed {nextKey : Bool} {line : List Char} (shown : ShownLine nextKey line) :
    redactValue nextKey line = line := by
  cases shown with
  | @quoted space quote rest white quotes =>
    obtain ⟨taken, left⟩ := span_white white (quote_visible quotes).1 (redacted ++ quote :: rest)
    rw [redactValue, redactQuoted, left]
    dsimp only
    rw [if_pos quotes, closing_redacted quotes, taken, Option.map_some]
    simp
  | @plain behind left =>
    have unquoted : redactQuoted (redacted ++ behind) = none :=
      redactQuoted_plain (show isRustWhitespace '<' = false from rfl) rfl _
    rw [redactValue, unquoted]
    dsimp only
    rw [unquotedValue_behind_redacted left, if_neg (by decide), drop_left]
  | blank left =>
    obtain ⟨unquoted, none⟩ := blank_value left
    rw [redactValue, unquoted]
    dsimp only
    rw [if_pos none]

end Lines

section Keys

def firstLine (gap : List Char) : List Char := gap.takeWhile fun c => !isLineBreak c

def linesBelow (gap : List Char) : List Char := gap.dropWhile fun c => !isLineBreak c

theorem firstLine_append_linesBelow (gap : List Char) : firstLine gap ++ linesBelow gap = gap :=
  takeWhile_append_dropWhile

variable (nextKey : Bool)

theorem redactGap_eq (gap : List Char) :
    redactGap nextKey gap = redactValue nextKey (firstLine gap) ++ linesBelow gap := rfl

theorem redactValue_masked (line : List Char) :
    Masked redacted line (redactValue nextKey line) := by
  rw [redactValue]
  split
  next output quoted =>
    obtain ⟨space, quote, body, rest, rfl, -, -, rfl⟩ := redactQuoted_some quoted
    exact keeps space (.keep quote (.replace body (Masked.refl _ _)))
  next =>
    dsimp only
    split
    · exact Masked.refl _ _
    · conv_lhs => rw [← take_append_drop (unquotedValue nextKey line).length line]
      exact .replace _ (Masked.refl _ _)

theorem redactGap_masked (gap : List Char) : Masked redacted gap (redactGap nextKey gap) := by
  have masked := (redactValue_masked nextKey (firstLine gap)).append
    (Masked.refl redacted (linesBelow gap))
  rwa [firstLine_append_linesBelow] at masked

theorem firstLine_of {line below : List Char} (unbroken : ∀ c ∈ line, isLineBreak c = false)
    (breaks : ∀ c, below.head? = some c → isLineBreak c = true) :
    firstLine (line ++ below) = line ∧ linesBelow (line ++ below) = below := by
  induction line with
  | nil =>
    cases below with
    | nil => exact ⟨rfl, rfl⟩
    | cons c below => simp [firstLine, linesBelow, breaks c rfl]
  | cons c line ih =>
    obtain ⟨here, later⟩ := forall_mem_cons.mp unbroken
    obtain ⟨first, rest⟩ := ih later
    rw [firstLine] at first
    rw [linesBelow] at rest
    simp [firstLine, linesBelow, here, first, rest]

theorem linesBelow_breaks (gap : List Char) :
    ∀ c, (linesBelow gap).head? = some c → isLineBreak c = true := by
  induction gap with
  | nil => exact nofun
  | cons d gap ih =>
    intro c head
    cases lineEnd : isLineBreak d with
    | true =>
      rw [linesBelow, dropWhile_cons_of_neg (by simp [lineEnd])] at head
      exact Option.some.inj head ▸ lineEnd
    | false =>
      rw [linesBelow, dropWhile_cons_of_pos (by simp [lineEnd])] at head
      exact ih c head

theorem redacted_unbroken {c : Char} (mem : c ∈ redacted) : isLineBreak c = false := by
  have none : redacted.any isLineBreak = false := by decide
  exact eq_false_iff.mpr (any_eq_false.mp none c mem)

theorem redactGap_lines (gap : List Char) :
    firstLine (redactGap nextKey gap) = redactValue nextKey (firstLine gap) ∧
      linesBelow (redactGap nextKey gap) = linesBelow gap := by
  refine firstLine_of (fun c mem => ?_) (linesBelow_breaks gap)
  obtain inside | inside := (redactValue_masked nextKey (firstLine gap)).mem mem
  · simpa using mem_takeWhile_imp inside
  · exact redacted_unbroken inside

/-- The value at the start of a gap is redacted. -/
def ShownGap (nextKey : Bool) (gap : List Char) : Prop := ShownLine nextKey (firstLine gap)

theorem redactGap_shown (gap : List Char) : ShownGap nextKey (redactGap nextKey gap) := by
  rw [ShownGap, (redactGap_lines nextKey gap).1]
  exact redactValue_shown nextKey (firstLine gap)

theorem shownGap_fixed {nextKey : Bool} {gap : List Char} (shown : ShownGap nextKey gap) :
    redactGap nextKey gap = gap := by
  rw [redactGap_eq, shown_fixed shown, firstLine_append_linesBelow]

/-- Every gap but the last has a key after it. -/
def redactGaps : List (List Char × List Char) → List (List Char × List Char)
  | [] => []
  | (key, gap) :: rest => (key, redactGap (!rest.isEmpty) gap) :: redactGaps rest

def ShownGaps : List (List Char × List Char) → Prop
  | [] => True
  | (_, gap) :: rest => ShownGap (!rest.isEmpty) gap ∧ ShownGaps rest

variable (keyed : List (List Char × List Char))

theorem redactGaps_isEmpty : (redactGaps keyed).isEmpty = keyed.isEmpty := by
  cases keyed <;> rfl

theorem redactKeyed_gaps : redactKeyed false keyed = assemble (redactGaps keyed) := by
  induction keyed with
  | nil => rfl
  | cons pair keyed ih =>
    obtain ⟨key, gap⟩ := pair
    rw [redactKeyed, redactGaps, assemble_cons, ih, Bool.false_or, append_assoc]

theorem redactGaps_shown : ShownGaps (redactGaps keyed) := by
  induction keyed with
  | nil => trivial
  | cons pair keyed ih =>
    refine ⟨?_, ih⟩
    rw [redactGaps_isEmpty]
    exact redactGap_shown _ pair.2

theorem shownGaps_fixed {keyed : List (List Char × List Char)} (shown : ShownGaps keyed) :
    redactGaps keyed = keyed := by
  induction keyed with
  | nil => rfl
  | cons pair keyed ih => rw [redactGaps, shownGap_fixed shown.1, ih shown.2]

theorem redactGaps_kept : GapsKept keyed (redactGaps keyed) := by
  induction keyed with
  | nil => exact .nil
  | cons pair keyed ih =>
    exact .cons ⟨rfl, gapKept_of_masked redacted_kept (redactGap_masked _ pair.2)⟩ ih

def redactKeyText (text : List Char) : List Char := redactKeys false (keyPrefix.pieces text)

/-- The text before the keys, and each key with its gap. -/
def readKeys (text : List Char) : List Char × List (List Char × List Char) :=
  keyedValues (keyPrefix.pieces text)

theorem redactKeyText_eq (text : List Char) :
    redactKeyText text = (readKeys text).1 ++ assemble (redactGaps (readKeys text).2) := by
  rw [redactKeyText, redactKeys, redactKeyed_gaps]
  rfl

theorem readKeys_redacted (text : List Char) :
    readKeys (redactKeyText text) = ((readKeys text).1, redactGaps (readKeys text).2) := by
  obtain ⟨-, free, chain⟩ := exists_chain text
  obtain ⟨chain', tails, -⟩ := chain.kept (redactGaps_kept _)
  rw [redactKeyText_eq]
  exact keyedValues_chain (tails _ free) chain'

theorem redactKeyText_settles (text : List Char) :
    redactKeyText (redactKeyText text) = redactKeyText text := by
  rw [redactKeyText_eq, readKeys_redacted, shownGaps_fixed (redactGaps_shown _), ← redactKeyText_eq]

theorem redactKeyText_masked (text : List Char) : Masked redacted text (redactKeyText text) := by
  have gaps : ∀ keyed, Masked redacted (assemble keyed) (assemble (redactGaps keyed)) := by
    intro keyed
    induction keyed with
    | nil => exact .nil
    | cons pair keyed ih =>
      obtain ⟨key, gap⟩ := pair
      rw [redactGaps, assemble_cons, assemble_cons]
      exact keeps key ((redactGap_masked _ gap).append ih)
  have masked := keeps (readKeys text).1 (gaps (readKeys text).2)
  rwa [show (readKeys text).1 ++ assemble (readKeys text).2 = text from (exists_chain text).1,
    ← redactKeyText_eq] at masked

end Keys

section Tokens

/-- The pattern begins nowhere in the text. -/
def Clear (pattern : Regex Char) (text : List Char) : Prop :=
  ∀ s, s ≠ [] → s <:+ text → pattern.matchesAt s = []

theorem Clear.fixed {pattern : Regex Char} {text : List Char} (clear : Clear pattern text) :
    redactPattern pattern text = text :=
  redactPattern_unmatched fun s nonempty suffix => first_eq_none.mpr (clear s nonempty suffix)

theorem Clear.masked {pattern : Regex Char} {mask text result : List Char}
    (clear : Clear pattern text) (shut : pattern.ShutBy mask) (masked : Masked mask text result) :
    Clear pattern result := by
  have unmatched := masked_unmatched shut masked [] fun s nonempty suffix => by
    rw [append_nil]
    exact clear s nonempty suffix
  intro s nonempty suffix
  have none := unmatched s nonempty suffix
  rwa [append_nil] at none

theorem shutBy_brackets {pattern : Regex Char} {kind : Char → Bool} {inner : List Char}
    (needs : pattern.Needs kind) (rejects : (pattern.rejects '<' && pattern.rejects '>') = true)
    (none : ('<' :: inner).any kind = false) : pattern.ShutBy ('<' :: inner ++ ['>']) := by
  obtain ⟨opening, closing⟩ := and_eq_true_iff.mp rejects
  refine ⟨⟨'<', inner ++ ['>'], rfl, opening⟩, ⟨'<' :: inner, '>', rfl, closing, ?_⟩⟩
  intro part mem
  rw [eq_nil_iff_forall_not_mem]
  intro m found
  obtain ⟨c, taken, kindOf⟩ := needs part m found
  have here : c ∈ part := by
    rw [← taken_append_rest found]
    exact mem_append_left _ taken
  exact any_eq_false.mp none c (((mem_tails _ _).mp mem).subset here) kindOf

theorem bearerToken_blank : bearerToken.Needs isRustWhitespace :=
  needs_seq_left <| needs_capture <| needs_seq_right <|
    needs_seq_left <| needs_set _

theorem bearer_shut_redacted : bearerToken.ShutBy redacted :=
  @shutBy_brackets _ _ "redacted".toList bearerToken_blank (by decide) (by decide)

theorem bearer_shut_redactedSecret : bearerToken.ShutBy redactedSecret :=
  @shutBy_brackets _ _ "redacted-secret".toList bearerToken_blank (by decide) (by decide)

theorem pemEnd_needs : pemEnd.Needs fun c => c == '-' :=
  needs_seq_left <| needs_seq_left <| needs_set _

theorem pem_shut_redacted : pemBegin.ShutBy redacted ∧ pemEnd.ShutBy redacted :=
  ⟨@shutBy_brackets _ _ "redacted".toList pemBegin_needs (by decide) (by decide),
    @shutBy_brackets _ _ "redacted".toList pemEnd_needs (by decide) (by decide)⟩

theorem pemKey_matches {text : List Char} : pemKey.matchesAt text ≠ [] ↔
    ∃ m ∈ pemBegin.matchesAt text, ∃ s, s <:+ m.rest ∧ pemEnd.matchesAt s ≠ [] := by
  constructor
  · intro found
    obtain ⟨k, mem⟩ := exists_mem_of_ne_nil _ found
    obtain ⟨m, marked, n, closed, -⟩ := mem_seq.mp mem
    exact ⟨m, marked, upTo_matches.mp (ne_nil_of_mem closed)⟩
  · rintro ⟨m, marked, closes⟩
    obtain ⟨n, closed⟩ := exists_mem_of_ne_nil _ (upTo_matches.mpr closes)
    exact ne_nil_of_mem (mem_seq.mpr ⟨m, marked, n, closed, rfl⟩)

variable {mask text result : List Char}

theorem pemKey_masked (opens : pemBegin.ShutBy mask) (closes : pemEnd.ShutBy mask)
    (masked : Masked mask text result) (front : List Char)
    (found : pemKey.matchesAt (front ++ result) ≠ []) : pemKey.matchesAt (front ++ text) ≠ [] := by
  induction masked generalizing front with
  | nil => exact found
  | @keep c text result later ih =>
    rw [append_cons] at found ⊢
    exact ih (front ++ [c]) found
  | @replace part text result later ih =>
    obtain ⟨m, marked, s, suffix, ends⟩ := pemKey_matches.mp found
    obtain ⟨d, rest, shape, rejected⟩ := opens.opening
    have settled := settledAt_of_rejects rejected front (rest ++ result)
    rw [Regex.SettledAt] at settled
    rw [shape, cons_append, settled] at marked
    obtain ⟨first, firstMem, rfl⟩ := mem_map.mp marked
    refine pemKey_matches.mpr ⟨first.before (part ++ text), matchesAt_append _ firstMem, ?_⟩
    have behind : s <:+ first.rest ++ (mask ++ result) := by
      rw [shape]
      exact suffix
    obtain inside | ⟨lead, -, leadSuffix, rfl⟩ := suffix_append_cases behind
    · obtain inside | ⟨lead, leadNonempty, leadSuffix, rfl⟩ := suffix_append_cases inside
      · by_contra none
        have unmatched : ∀ s, s ≠ [] → s <:+ text → pemEnd.matchesAt (s ++ []) = [] := by
          intro s _ suffix
          rw [append_nil]
          by_contra found
          exact none ⟨s, (suffix.trans (suffix_append part text)).trans
            (suffix_append first.rest _), found⟩
        have nonempty : s ≠ [] := by
          rintro rfl
          exact ends rfl
        have nothing := masked_unmatched closes later [] unmatched s nonempty inside
        rw [append_nil] at nothing
        exact ends nothing
      · exact absurd (closes.unmatched leadNonempty leadSuffix result) ends
    · obtain ⟨skipped, whole⟩ := leadSuffix
      refine ⟨lead ++ (part ++ text), ⟨skipped, ?_⟩,
        closes.matches_before lead result (part ++ text) ends⟩
      rw [← append_assoc, whole]
      rfl

theorem pemKey_clear_masked (opens : pemBegin.ShutBy mask) (closes : pemEnd.ShutBy mask)
    (masked : Masked mask text result) (clear : Clear pemKey text) : Clear pemKey result := by
  induction masked with
  | nil => exact clear
  | @keep c text result later ih =>
    intro s nonempty suffix
    obtain rfl | suffix := suffix_cons_iff.mp suffix
    · by_contra found
      exact pemKey_masked opens closes later [c] found
        (clear (c :: text) (cons_ne_nil _ _) (suffix_refl _))
    · exact ih (fun s nonempty inside => clear s nonempty (inside.trans (suffix_cons c text)))
        s nonempty suffix
  | @replace part text result later ih =>
    intro s nonempty suffix
    obtain suffix | ⟨inside, insideNonempty, insideSuffix, rfl⟩ := suffix_append_cases suffix
    · exact ih (fun s nonempty inside =>
        clear s nonempty (inside.trans (suffix_append part text))) s nonempty suffix
    · rw [eq_nil_iff_forall_not_mem]
      intro k found
      obtain ⟨m, marked, -⟩ := pemKey_matches.mp (ne_nil_of_mem found)
      rw [opens.unmatched insideNonempty insideSuffix result] at marked
      exact absurd marked not_mem_nil

end Tokens

end PortMate
