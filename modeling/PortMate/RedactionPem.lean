import PortMate.RedactionTokens

namespace PortMate

open List Found Option Regex

theorem literal_taken {text : String} {input : List Char} {m : Found Char}
    (mem : m ∈ (literal text).matchesAt input) : m.taken = text.toList := by
  rw [literal] at mem
  generalize text.toList = letters at mem ⊢
  induction letters generalizing input m with
  | nil =>
    obtain rfl := mem_singleton.mp mem
    rfl
  | cons letter letters ih =>
    cases input with
    | nil => exact absurd mem not_mem_nil
    | cons c input =>
      rw [map_cons, word_cons] at mem
      split at mem
      next same =>
        obtain ⟨n, inside, rfl⟩ := mem_map.mp mem
        rw [beyond_taken, ih inside, beq_iff_eq.mp same]
        rfl
      next => exact absurd mem not_mem_nil

/-- The label of a marker line and what closes it. -/
def markerRest : Regex Char := .seq (.many true isUpperOrSpace) (literal "PRIVATE KEY-----")

theorem markerRest_cons (c : Char) (text : List Char) :
    markerRest.matchesAt (c :: text) =
      (if isUpperOrSpace c then (markerRest.matchesAt text).map (beyond [c]) else []) ++
        (literal "PRIVATE KEY-----").matchesAt (c :: text) := by
  simp only [markerRest, matchesAt, manyAt, if_true]
  split
  · simp [flatMap_map, beyond_followedBy, map_flatMap, Function.comp_def]
  · simp

theorem markerRest_once (text : List Char) : (markerRest.matchesAt text).length ≤ 1 := by
  induction text with
  | nil => decide
  | cons c text ih =>
    rw [markerRest_cons]
    cases here : (literal "PRIVATE KEY-----").matchesAt (c :: text) with
    | nil =>
      split
      · simpa using ih
      · simp
    | cons m more =>
      -- Behind the `P` of the closing words the label cannot end a second time.
      have mem : m ∈ (literal "PRIVATE KEY-----").matchesAt (c :: text) := by simp [here]
      have whole := taken_append_rest mem
      rw [literal_taken mem] at whole
      obtain ⟨rfl, rfl⟩ : 'P' = c ∧ "RIVATE KEY-----".toList ++ m.rest = text :=
        List.cons.inj whole
      have later : markerRest.matchesAt ("RIVATE KEY-----".toList ++ m.rest) = [] := by
        simp [markerRest_cons, literal, word_cons, isUpperOrSpace]
      have once := word_once ("PRIVATE KEY-----".toList.map fun letter c => c == letter)
        ('P' :: ("RIVATE KEY-----".toList ++ m.rest))
      rw [← literal, here] at once
      rw [later, map_nil, ite_self, nil_append]
      exact once

theorem marker_once (edge : String) (text : List Char) :
    ((pemMarker edge).matchesAt text).length ≤ 1 := by
  have first := word_once (edge.toList.map fun letter c => c == letter) text
  change (((literal edge).matchesAt text).flatMap fun m =>
    (markerRest.matchesAt m.rest).map m.followedBy).length ≤ 1
  rw [← literal] at first
  cases here : (literal edge).matchesAt text with
  | nil => simp
  | cons m more =>
    rw [here] at first
    obtain rfl : more = [] := by simpa using first
    simpa using markerRest_once m.rest

theorem pemBegin_needs : pemBegin.Needs fun c => c == '-' :=
  needs_seq_left <| needs_seq_left <| needs_set _

theorem pemKey_takes : pemKey.TakesText := (needs_seq_left pemBegin_needs).takesText

theorem pemKey_first (text : List Char) :
    pemKey.first text =
      (pemBegin.first text).bind fun m => (pemEnd.upTo.first m.rest).map m.followedBy := by
  have once := marker_once "-----BEGIN " text
  rw [← pemBegin] at once
  simp only [Regex.first, pemKey, matchesAt]
  cases here : pemBegin.matchesAt text with
  | nil => rfl
  | cons m more =>
    rw [here] at once
    obtain rfl : more = [] := by simpa using once
    simp

theorem marker_captures {edge : String} {text : List Char} {m : Found Char}
    (mem : m ∈ (pemMarker edge).matchesAt text) : m.captures = [] := by
  obtain ⟨x, xMem, y, yMem, rfl⟩ := mem_seq.mp mem
  obtain ⟨z, zMem, w, wMem, rfl⟩ := mem_seq.mp yMem
  simp [word_captures xMem, (mem_manyAt zMem).2.1, word_captures wMem]

theorem pemKey_replacement {text : List Char} {m : Found Char}
    (found : pemKey.first text = some m) :
    secretReplacement m.taken m.captures = redactedSecret := by
  obtain ⟨x, xMem, y, yMem, rfl⟩ := mem_seq.mp (first_mem found)
  obtain ⟨z, zMem, w, wMem, rfl⟩ := mem_seq.mp yMem
  simp [secretReplacement, marker_captures xMem, (mem_manyAt zMem).2.1, marker_captures wMem]

theorem marker_undashed {edge : String} {rest : List Char} (edgeDash : edge.toList = '-' :: rest)
    {c : Char} (undashed : c ≠ '-') (text : List Char) :
    (pemMarker edge).first (c :: text) = none := by
  have none : (literal edge).matchesAt (c :: text) = [] := by
    rw [literal, edgeDash, map_cons, word_cons, if_neg]
    simpa using undashed
  rw [first_eq_none, pemMarker, matchesAt, none]
  rfl

theorem pemKey_undashed {c : Char} (undashed : c ≠ '-') (text : List Char) :
    pemKey.first (c :: text) = none := by
  rw [pemKey_first, show pemBegin.first (c :: text) = none from marker_undashed rfl undashed text]
  rfl

theorem pemEnd_upTo_undashed {text : List Char} (undashed : '-' ∉ text) (tail : List Char) :
    pemEnd.upTo.first (text ++ tail) = (pemEnd.upTo.first tail).map (beyond text) := by
  induction text with
  | nil => simp
  | cons c text ih =>
    obtain ⟨here, later⟩ := ne_and_not_mem_of_not_mem_cons undashed
    rw [cons_append, upTo_cons,
      show pemEnd.first (c :: (text ++ tail)) = none from marker_undashed rfl here.symm _, ih later]
    simp [beyond_cons c text, Function.comp_def]

/-- The search for keys passes over a first marker that no last marker closes. -/
def leftOpen (text : List Char) : Bool :=
  (pemKey.attempts text).any fun place =>
    (pemKey.first (place.1 :: place.2)).isNone && (pemBegin.first (place.1 :: place.2)).isSome

theorem leftOpen_none {c : Char} {text : List Char} (none : pemKey.first (c :: text) = none) :
    leftOpen (c :: text) = ((pemBegin.first (c :: text)).isSome || leftOpen text) := by
  simp [leftOpen, attempts_none none, none]

theorem leftOpen_some {c : Char} {text : List Char} {m : Found Char}
    (found : pemKey.first (c :: text) = some m) : leftOpen (c :: text) = leftOpen m.rest := by
  simp [leftOpen, attempts_some pemKey_takes found, found]

section

variable {text tail lines lines' : List Char}

def OpensLine (lines : List Char) : Prop := ∃ c rest, lines = c :: rest ∧ isLineBreak c = true

theorem marker_settled (opens : OpensLine lines) (text tail : List Char) :
    pemBegin.SettledAt text (lines ++ tail) ∧ pemEnd.SettledAt text (lines ++ tail) := by
  obtain ⟨c, rest, rfl, lineStart⟩ := opens
  simp only [isLineBreak, Bool.or_eq_true, beq_iff_eq] at lineStart
  obtain rfl | rfl := lineStart
  · exact ⟨settledAt_of_rejects (by decide) _ _, settledAt_of_rejects (by decide) _ _⟩
  · exact ⟨settledAt_of_rejects (by decide) _ _, settledAt_of_rejects (by decide) _ _⟩

theorem pemKey_over (opens : OpensLine lines) (undashed : '-' ∉ lines)
    (text tail : List Char) :
    pemKey.first (text ++ (lines ++ tail)) = (pemBegin.first text).bind fun m =>
      (((pemEnd.upTo.first m.rest).map (before (lines ++ tail))).or
        ((pemEnd.upTo.first tail).map (beyond (m.rest ++ lines)))).map
          (m.before (lines ++ tail)).followedBy := by
  rw [pemKey_first, (marker_settled opens text tail).1.first]
  cases pemBegin.first text with
  | none => rfl
  | some m =>
    simp only [map_some, bind_some, before_rest]
    rw [upTo_append rfl fun s _ _ => (marker_settled opens s tail).2.first,
      pemEnd_upTo_undashed undashed]
    congr 2
    rw [Option.map_map]
    congr 1
    funext n
    simp [beyond]

theorem pemKey_over_none (opens : OpensLine lines) (undashed : '-' ∉ lines)
    (closed : pemBegin.first text = none) (tail : List Char) :
    pemKey.first (text ++ (lines ++ tail)) = none := by
  rw [pemKey_over opens undashed, closed]
  rfl

theorem pemKey_over_some (opens : OpensLine lines) (undashed : '-' ∉ lines)
    {m : Found Char} (found : pemKey.first text = some m) (tail : List Char) :
    pemKey.first (text ++ (lines ++ tail)) = some (m.before (lines ++ tail)) := by
  rw [pemKey_first] at found
  obtain ⟨start, marked, found⟩ := bind_eq_some_iff.mp found
  obtain ⟨n, closed, rfl⟩ := map_eq_some_iff.mp found
  rw [pemKey_over opens undashed, marked, bind_some, closed]
  rfl

theorem pemKey_over_open (opens : OpensLine lines) (undashed : '-' ∉ lines)
    {m : Found Char} (unclosed : pemKey.first text = none) (marked : pemBegin.first text = some m)
    (tail : List Char) :
    pemKey.first (text ++ (lines ++ tail)) =
      ((pemEnd.upTo.first tail).map (beyond (m.rest ++ lines))).map
        (m.before (lines ++ tail)).followedBy := by
  rw [pemKey_first, marked, bind_some, map_eq_none_iff] at unclosed
  rw [pemKey_over opens undashed, marked, bind_some, unclosed]
  rfl

theorem pem_undashed (undashed : '-' ∉ lines) (tail : List Char) :
    redactPattern pemKey (lines ++ tail) = lines ++ redactPattern pemKey tail := by
  induction lines with
  | nil => rfl
  | cons c lines ih =>
    obtain ⟨here, later⟩ := ne_and_not_mem_of_not_mem_cons undashed
    rw [cons_append, redactPattern_none (pemKey_undashed here.symm _), ih later,
      cons_append]

theorem pem_lines_shown (opens : OpensLine lines) (undashed : '-' ∉ lines)
    (shown : ¬(leftOpen text = true ∧ pemEnd.occursIn tail = true)) :
    redactPattern pemKey (text ++ (lines ++ tail)) =
      redactPattern pemKey text ++ (lines ++ redactPattern pemKey tail) := by
  induction text using search_induction pemKey_takes with
  | nil => exact pem_undashed undashed tail
  | pass c text none ih =>
    rw [leftOpen_none none] at shown
    have across : pemKey.first (c :: text ++ (lines ++ tail)) = Option.none := by
      cases marked : pemBegin.first (c :: text) with
      | none => exact pemKey_over_none opens undashed marked tail
      | some m =>
        rw [pemKey_over_open opens undashed none marked]
        have unclosed : pemEnd.upTo.first tail = Option.none := by
          simpa [marked, occursIn] using shown
        rw [unclosed]
        rfl
    rw [cons_append] at across ⊢
    rw [redactPattern_none across, redactPattern_none none, ih, cons_append]
    rintro ⟨unclosed, closed⟩
    exact shown ⟨by rw [unclosed, Bool.or_true], closed⟩
  | found c text m found ih =>
    have across := pemKey_over_some opens undashed found tail
    rw [cons_append] at across ⊢
    rw [redactPattern_some pemKey_takes across, redactPattern_some pemKey_takes found,
      before_rest, ih (by rwa [leftOpen_some found] at shown), append_assoc]
    rfl

theorem pem_lines_hidden (opens : OpensLine lines)
    (undashed : '-' ∉ lines) (opens' : OpensLine lines') (undashed' : '-' ∉ lines')
    (hidden : leftOpen text = true) (closed : pemEnd.occursIn tail = true) :
    redactPattern pemKey (text ++ (lines ++ tail)) =
      redactPattern pemKey (text ++ (lines' ++ tail)) := by
  induction text using search_induction pemKey_takes with
  | nil => exact absurd hidden Bool.false_ne_true
  | pass c text none ih =>
    rw [leftOpen_none none] at hidden
    cases marked : pemBegin.first (c :: text) with
    | none =>
      have across := pemKey_over_none opens undashed marked tail
      have across' := pemKey_over_none opens' undashed' marked tail
      rw [cons_append] at across across' ⊢
      rw [redactPattern_none across, cons_append, redactPattern_none across',
        ih (by simpa [marked] using hidden)]
    | some m =>
      obtain ⟨n, found⟩ := isSome_iff_exists.mp closed
      have across := pemKey_over_open opens undashed none marked tail
      have across' := pemKey_over_open opens' undashed' none marked tail
      rw [found, map_some, map_some] at across across'
      have replaced := pemKey_replacement across
      have replaced' := pemKey_replacement across'
      rw [cons_append] at across across' ⊢
      rw [redactPattern_some pemKey_takes across, cons_append,
        redactPattern_some pemKey_takes across', replaced, replaced']
      rfl
  | found c text m found ih =>
    have across := pemKey_over_some opens undashed found tail
    have across' := pemKey_over_some opens' undashed' found tail
    rw [cons_append] at across across' ⊢
    rw [redactPattern_some pemKey_takes across, cons_append,
      redactPattern_some pemKey_takes across', before_rest, before_rest,
      ih (by rwa [leftOpen_some found] at hidden)]
    rfl

end

theorem pemKey_redacted {text : List Char} (front : List Char)
    (some : pemKey.matchesAt (front ++ redactPattern pemKey text) ≠ []) :
    pemKey.matchesAt (front ++ text) ≠ [] := by
  induction text using search_induction pemKey_takes generalizing front with
  | nil => exact some
  | pass c text none ih =>
    rw [redactPattern_none none, append_cons] at some
    rw [append_cons]
    exact ih _ some
  | found c text m found ih =>
    rw [redactPattern_some pemKey_takes found, pemKey_replacement found] at some
    obtain ⟨k, inside⟩ := exists_mem_of_ne_nil _ some
    obtain ⟨start, marked, -, -, -⟩ := mem_seq.mp inside
    have settled := settledAt_of_rejects (show pemBegin.rejects '<' = true by decide)
      front ("redacted-secret>".toList ++ redactPattern pemKey m.rest)
    have bracket : redactedSecret ++ redactPattern pemKey m.rest =
        '<' :: ("redacted-secret>".toList ++ redactPattern pemKey m.rest) := rfl
    rw [bracket, settled] at marked
    obtain ⟨first, firstMem, rfl⟩ := mem_map.mp marked
    obtain ⟨x, xMem, y, yMem, rfl⟩ := mem_seq.mp (first_mem found)
    obtain ⟨s, suffix, ends⟩ := upTo_matches.mp (ne_nil_of_mem yMem)
    have behind : x.rest <:+ c :: text := ⟨x.taken, taken_append_rest xMem⟩
    have closes : pemEnd.upTo.matchesAt (first.rest ++ c :: text) ≠ [] :=
      upTo_matches.mpr
        ⟨s, (suffix.trans behind).trans (suffix_append first.rest (c :: text)), ends⟩
    obtain ⟨z, zMem⟩ := exists_mem_of_ne_nil _ closes
    exact ne_nil_of_mem
      (mem_seq.mpr ⟨_, matchesAt_append (c :: text) firstMem, z, zMem, rfl⟩)

theorem pemKey_clear (text : List Char) :
    ∀ s, s ≠ [] → s <:+ redactPattern pemKey text → pemKey.first s = none := by
  induction text using search_induction pemKey_takes with
  | nil => exact fun s nonempty suffix => absurd (suffix_nil.mp suffix) nonempty
  | pass c text none ih =>
    intro s nonempty suffix
    rw [redactPattern_none none] at suffix
    obtain rfl | suffix := suffix_cons_iff.mp suffix
    · rw [first_eq_none] at none ⊢
      by_contra some
      exact pemKey_redacted [c] some none
    · exact ih s nonempty suffix
  | found c text m found ih =>
    intro s nonempty suffix
    rw [redactPattern_some pemKey_takes found, pemKey_replacement found] at suffix
    obtain suffix | ⟨part, partNonempty, partSuffix, rfl⟩ := suffix_append_cases suffix
    · exact ih s nonempty suffix
    · have unmarked : pemBegin.matchesAt (part ++ redactPattern pemKey m.rest) = [] :=
        unmatched_part (d := '>') "<redacted-secret".toList (by decide) (by decide)
          partNonempty partSuffix _
      rw [pemKey_first, first_eq_none.mpr unmarked]
      rfl

theorem pemKey_settles (text : List Char) :
    redactPattern pemKey (redactPattern pemKey text) = redactPattern pemKey text :=
  redactPattern_unmatched (pemKey_clear text)

theorem repeatUntilStable_settles {pass : List Char → List Char}
    (settles : ∀ text, pass (pass text) = pass text) (rounds : Nat) (text : List Char) :
    repeatUntilStable pass (rounds + 2) text = some (pass text) := by
  rw [repeatUntilStable]
  split
  next stable => rw [stable]
  next => rw [repeatUntilStable, if_pos (settles text)]

theorem redactSecrets_eq {search : Search} (documented : search.Documented) (rounds : Nat)
    (input : List Char) :
    redactSecrets search (rounds + 2) input = some (redactPattern pemKey
      (redactPattern bearerToken (redactKeys false (keyPrefix.pieces input)))) := by
  have passes : ∀ pattern ∈ secretPatterns,
      (fun text => replacePieces secretReplacement (search pattern text)) =
        redactPattern pattern := by
    intro pattern mem
    funext text
    rw [documented pattern (mem_cons_of_mem _ mem), redactPattern]
  simp only [redactSecrets, redactKeyValueSecrets, documented keyPrefix mem_cons_self]
  simp [secretPatterns, passes bearerToken (by simp [secretPatterns]),
    passes pemKey (by simp [secretPatterns]), repeatUntilStable_settles bearerToken_settles,
    repeatUntilStable_settles pemKey_settles]

end PortMate
