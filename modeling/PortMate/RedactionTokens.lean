import PortMate.RedactionKeys

namespace PortMate

open List Bool Regex

/-- `replace_all` with the mark for a secret. -/
def redactPattern (pattern : Regex Char) (text : List Char) : List Char :=
  replacePieces secretReplacement (pattern.pieces text)

theorem bearerToken_needs : bearerToken.Needs isTokenChar :=
  needs_seq_right <| needs_capture <| needs_seq_left <| needs_set _

variable {pattern : Regex Char}

theorem redactPattern_append {text tail : List Char}
    (pieces : pattern.pieces (text ++ tail) = pattern.pieces text ++ pattern.pieces tail) :
    redactPattern pattern (text ++ tail) = redactPattern pattern text ++ redactPattern pattern tail := by
  rw [redactPattern, pieces, replacePieces_append]
  rfl

variable {c : Char}

theorem tokenChar_break (lineEnd : isLineBreak c = true) :
    (capture (.plus isTokenChar)).rejects c = true := by
  simp only [isLineBreak, or_eq_true, beq_iff_eq] at lineEnd
  obtain rfl | rfl := lineEnd <;> rfl

theorem bearer_after_closed {text tail : List Char} (closed : EndsClosed text)
    (lineStart : isLineBreak c = true) :
    redactPattern bearerToken (text ++ c :: tail) =
      redactPattern bearerToken text ++ redactPattern bearerToken (c :: tail) := by
  apply redactPattern_append
  apply pieces_append bearerToken_needs.takesText
  intro s nonempty suffix
  apply Regex.SettledAt.first
  obtain ⟨d, rejected, last⟩ : ∃ d, (capture bearerWord).rejects d = true ∧
      s.getLast? = some d := by
    rw [getLast?_suffix suffix nonempty]
    obtain last | last := closed
    · exact ⟨_, by decide, last⟩
    · exact ⟨_, by decide, last⟩
  obtain ⟨front, rfl⟩ := getLast?_eq_some_iff.mp last
  exact settledAt_seq (settledAt_last rejected front _) fun m _ =>
    settledAt_of_rejects (tokenChar_break lineStart) _ _

/-- No word `bearer` with its white space reaches the end of the text. -/
def BearerEndsInside (text : List Char) : Prop :=
  ∀ s ∈ text.tails, ∀ m ∈ bearerWord.matchesAt s, m.rest ≠ []

instance (text : List Char) : Decidable (BearerEndsInside text) :=
  inferInstanceAs (Decidable (∀ s ∈ text.tails, ∀ m ∈ bearerWord.matchesAt s, m.rest ≠ []))

theorem bearer_before_dash {text tail : List Char} (last : text.getLast? = some c)
    (lineEnd : isLineBreak c = true) (inside : BearerEndsInside text) :
    redactPattern bearerToken (text ++ '-' :: tail) =
      redactPattern bearerToken text ++ redactPattern bearerToken ('-' :: tail) := by
  apply redactPattern_append
  apply pieces_append bearerToken_needs.takesText
  intro s _ suffix
  apply Regex.SettledAt.first
  apply settledAt_seq (settledAt_of_rejects (by decide) _ _)
  intro m mem
  obtain ⟨n, wordMem, rfl⟩ := mem_map.mp mem
  have unread := inside s ((mem_tails _ _).mpr suffix) n wordMem
  have behind : n.rest <:+ s := ⟨n.taken, taken_append_rest wordMem⟩
  have restLast : n.rest.getLast? = some c := by
    rw [← last]
    exact getLast?_suffix (behind.trans suffix) unread
  obtain ⟨front, rest⟩ := getLast?_eq_some_iff.mp restLast
  change (capture (.plus isTokenChar)).SettledAt n.rest _
  rw [rest]
  exact settledAt_last (tokenChar_break lineEnd) front _

variable {text : List Char}

theorem redactPattern_none (none : pattern.first (c :: text) = none) :
    redactPattern pattern (c :: text) = c :: redactPattern pattern text := by
  rw [redactPattern, pieces_none none]
  rfl

theorem redactPattern_some (takes : pattern.TakesText) {m : Found Char}
    (found : pattern.first (c :: text) = some m) :
    redactPattern pattern (c :: text) =
      secretReplacement m.taken m.captures ++ redactPattern pattern m.rest := by
  rw [redactPattern, pieces_some takes found]
  rfl

theorem redactPattern_unmatched (unmatched : ∀ s, s ≠ [] → s <:+ text → pattern.first s = none) :
    redactPattern pattern text = text := by
  rw [redactPattern, pieces_unmatched unmatched, replacePieces_text]

theorem bearerWord_shape {m : Found Char} (mem : m ∈ bearerWord.matchesAt text) :
    m.captures = [] ∧ ∃ word space, m.taken = word ++ space ∧ word.length = 6 ∧ space ≠ [] ∧
      ∀ c ∈ space, isRustWhitespace c = true := by
  obtain ⟨x, xMem, y, yMem, rfl⟩ := mem_seq.mp mem
  obtain ⟨captures, c, more, taken, all⟩ := plus_shape yMem
  refine ⟨by simp [word_captures xMem, captures], x.taken, y.taken, rfl,
    word_length xMem, by simp [taken], all⟩

theorem bearerToken_cases {m : Found Char} (mem : m ∈ bearerToken.matchesAt text) :
    ∃ n ∈ bearerWord.matchesAt text, ∃ token ∈ (plus isTokenChar).matchesAt n.rest,
      m = ⟨n.taken ++ token.taken, [n.taken, token.taken], token.rest⟩ := by
  obtain ⟨x, xMem, y, yMem, rfl⟩ := mem_seq.mp mem
  obtain ⟨n, wordMem, rfl⟩ := mem_map.mp xMem
  obtain ⟨token, tokenMem, rfl⟩ := mem_map.mp yMem
  refine ⟨n, wordMem, token, tokenMem, ?_⟩
  simp [Found.followedBy, (bearerWord_shape wordMem).1, (plus_shape tokenMem).1]

theorem tokenChar_visible (token : isTokenChar c = true) : isRustWhitespace c = false := by
  have low : 33 ≤ c.toNat ∧ (c.toNat ≤ 126 ∨ c.toNat = 0x17F ∨ c.toNat = 0x212A) := by
    rw [isTokenChar, or_eq_true] at token
    obtain alphanum | listed := token
    · have bounds := alphanum_bounds alphanum
      omega
    · have all : (['.', '_', '~', '+', '/', '=', '-', '\u017F', '\u212A'].all fun d =>
          decide (33 ≤ d.toNat ∧ (d.toNat ≤ 126 ∨ d.toNat = 0x17F ∨ d.toNat = 0x212A))) = true := by
        decide
      simpa using all_eq_true.mp all c (contains_iff_mem.mp listed)
  simp only [isRustWhitespace, or_eq_false_iff, and_eq_false_iff,
    decide_eq_false_iff_not, beq_eq_false_iff_ne]
  omega

theorem bearerToken_not_in_word {text part : List Char} {n : Found Char}
    (wordMem : n ∈ bearerWord.matchesAt text) (suffix : part <:+ n.taken) :
    bearerToken.matchesAt part = [] := by
  rw [eq_nil_iff_forall_not_mem]
  intro m mem
  obtain ⟨-, word, space, taken, length, -, white⟩ := bearerWord_shape wordMem
  obtain ⟨n', wordMem', token, tokenMem, -⟩ := bearerToken_cases mem
  obtain ⟨-, word', space', taken', length', -, -⟩ := bearerWord_shape wordMem'
  obtain ⟨-, c, more, tokenTaken, all⟩ := plus_shape tokenMem
  obtain ⟨front, whole⟩ := suffix
  have split : front ++ n'.taken ++ (c :: more ++ token.rest) = word ++ space := by
    rw [← taken, ← whole, ← taken_append_rest wordMem', ← taken_append_rest tokenMem,
      tokenTaken]
    simp
  have long : word.length ≤ (front ++ n'.taken).length := by
    simp only [length_append, taken', length, length']
    omega
  have inSpace : c ∈ space := by
    have behind := congrArg (List.drop word.length) split
    rw [drop_left, drop_append_of_le_length long] at behind
    rw [← behind]
    simp
  have blank := white c inSpace
  rw [tokenChar_visible (all c (by simp [tokenTaken]))] at blank
  exact Bool.false_ne_true blank

theorem bearerToken_redacted (front : List Char)
    (some : bearerToken.matchesAt (front ++ redactPattern bearerToken text) ≠ []) :
    bearerToken.matchesAt (front ++ text) ≠ [] := by
  induction text using search_induction bearerToken_needs.takesText generalizing front with
  | nil => exact some
  | pass c text none ih =>
    rw [redactPattern_none none, append_cons] at some
    rw [append_cons]
    exact ih _ some
  | found c text m found ih =>
    rw [redactPattern_some bearerToken_needs.takesText found] at some
    obtain ⟨n, -, token, -, rfl⟩ := bearerToken_cases (first_mem found)
    have closed : secretReplacement (n.taken ++ token.taken) [n.taken, token.taken] =
        n.taken ++ '<' :: "redacted>".toList := rfl
    simp only [closed, append_assoc, cons_append] at some
    have settled := settledAt_of_rejects (show bearerToken.rejects '<' = true by decide)
      (front ++ n.taken) ("redacted>".toList ++ redactPattern bearerToken token.rest)
    rw [Regex.SettledAt, append_assoc] at settled
    rw [settled, ne_eq, map_eq_nil_iff] at some
    obtain ⟨k, inside⟩ := exists_mem_of_ne_nil _ some
    have whole := taken_append_rest (first_mem found)
    rw [← whole, append_assoc, ← append_assoc]
    exact ne_nil_of_mem (matchesAt_append _ inside)

theorem bearerToken_clear (text : List Char) :
    ∀ s, s ≠ [] → s <:+ redactPattern bearerToken text → bearerToken.first s = none := by
  induction text using search_induction bearerToken_needs.takesText with
  | nil => exact fun s nonempty suffix => absurd (suffix_nil.mp suffix) nonempty
  | pass c text none ih =>
    intro s nonempty suffix
    rw [redactPattern_none none] at suffix
    obtain rfl | suffix := suffix_cons_iff.mp suffix
    · rw [first_eq_none] at none ⊢
      by_contra some
      exact bearerToken_redacted [c] some none
    · exact ih s nonempty suffix
  | found c text m found ih =>
    intro s nonempty suffix
    rw [redactPattern_some bearerToken_needs.takesText found] at suffix
    obtain ⟨n, wordMem, token, -, rfl⟩ := bearerToken_cases (first_mem found)
    have closed : secretReplacement (n.taken ++ token.taken) [n.taken, token.taken] =
        n.taken ++ ("<redacted".toList ++ ['>']) := rfl
    rw [closed, append_assoc] at suffix
    obtain suffix | ⟨part, partNonempty, partSuffix, rfl⟩ := suffix_append_cases suffix
    · obtain suffix | ⟨part, partNonempty, partSuffix, rfl⟩ := suffix_append_cases suffix
      · exact ih s nonempty suffix
      · rw [first_eq_none]
        exact unmatched_part "<redacted".toList (by decide) (by decide) partNonempty partSuffix _
    · rw [first_eq_none, append_assoc]
      have bare := bearerToken_not_in_word wordMem partSuffix
      have settled := settledAt_of_rejects (show bearerToken.rejects '<' = true by decide)
        part ("redacted".toList ++ ['>'] ++ redactPattern bearerToken token.rest)
      rw [Regex.SettledAt, bare] at settled
      exact settled

theorem bearerToken_settles (text : List Char) :
    redactPattern bearerToken (redactPattern bearerToken text) = redactPattern bearerToken text :=
  redactPattern_unmatched (bearerToken_clear text)

theorem bearerToken_letters (mem : c ∈ redactPattern bearerToken text) :
    c ∈ text ∨ c ∈ redacted := by
  induction text using search_induction bearerToken_needs.takesText with
  | nil => exact .inl mem
  | pass d text none ih =>
    rw [redactPattern_none none] at mem
    obtain rfl | mem := mem_cons.mp mem
    · exact .inl mem_cons_self
    · exact (ih mem).imp_left (mem_cons_of_mem d)
  | found d text m found ih =>
    rw [redactPattern_some bearerToken_needs.takesText found] at mem
    have whole := taken_append_rest (first_mem found)
    obtain ⟨n, -, token, -, rfl⟩ := bearerToken_cases (first_mem found)
    have kept : secretReplacement (n.taken ++ token.taken) [n.taken, token.taken] =
        n.taken ++ redacted := rfl
    simp only [kept, mem_append] at mem
    rw [← whole]
    obtain (mem | mem) | mem := mem
    · exact .inl (by simp [mem])
    · exact .inr mem
    · exact (ih mem).imp_left fun mem => by simp [mem]

theorem bearerToken_break (lineStart : isLineBreak c = true) (text : List Char) :
    redactPattern bearerToken (c :: text) = c :: redactPattern bearerToken text := by
  apply redactPattern_none
  simp only [isLineBreak, or_eq_true, beq_iff_eq] at lineStart
  obtain rfl | rfl := lineStart <;> rfl

end PortMate
