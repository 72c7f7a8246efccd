import Mathlib.Data.List.Chain
import PortMate.RuntimeStatus

namespace PortMate

open List Option

/-- A whitespace character and those that follow it become one blank. -/
def collapseWhitespace : List Char → List Char
  | [] => []
  | c :: rest =>
    if isRustWhitespace c then ' ' :: (collapseWhitespace rest).dropWhile isRustWhitespace
    else c :: collapseWhitespace rest

/-- A reason as it is shown: collapsed, trimmed and cut. A blank one is none. -/
def plainDisconnectReason (value : String) : Option String :=
  let text := trimText (collapseWhitespace value.toList)
  if text = [] then none
  else if maxSessionDisconnectReasonCharacters < text.length then
    some (String.ofList (text.take (maxSessionDisconnectReasonCharacters - 3) ++ ['.', '.', '.']))
  else some (String.ofList text)

section Trimming

theorem rdropWhile_cons {α : Type} (p : α → Bool) (c : α) (text : List α) :
    (c :: text).rdropWhile p =
      if text.rdropWhile p = [] ∧ p c = true then [] else c :: text.rdropWhile p := by
  unfold List.rdropWhile
  rw [reverse_cons, dropWhile_append]
  by_cases empty : text.reverse.dropWhile p = []
  · rw [empty]
    cases pc : p c with
    | true => simp [pc]
    | false => simp [pc]
  · have some : (text.reverse.dropWhile p).isEmpty = false := by simpa using empty
    rw [some]
    simp [empty]

theorem trimRight_solid {c : Char} (solid : isRustWhitespace c = false) (text : List Char) :
    (c :: text).rdropWhile isRustWhitespace = c :: text.rdropWhile isRustWhitespace := by
  rw [rdropWhile_cons, if_neg]
  rintro ⟨-, blank⟩
  rw [solid] at blank
  cases blank

/-- What follows the first character of a reason. -/
def laterCharacters (pendingSpace : Bool) : List Char → List Char
  | [] => []
  | c :: rest =>
    if isRustWhitespace c then laterCharacters true rest
    else if pendingSpace then ' ' :: c :: laterCharacters false rest
    else c :: laterCharacters false rest

theorem laterCharacters_eq (rest : List Char) :
    laterCharacters false rest = (collapseWhitespace rest).rdropWhile isRustWhitespace ∧
      laterCharacters true rest =
        (' ' :: (collapseWhitespace rest).dropWhile isRustWhitespace).rdropWhile
          isRustWhitespace := by
  induction rest with
  | nil => exact ⟨rfl, rfl⟩
  | cons c rest ih =>
    obtain ⟨plain, pending⟩ := ih
    unfold laterCharacters collapseWhitespace
    cases blank : isRustWhitespace c with
    | true =>
      refine ⟨pending, pending.trans ?_⟩
      have space : isRustWhitespace ' ' = true := by decide
      rw [if_pos rfl, dropWhile_cons_of_pos space, dropWhile_idempotent]
    | false =>
      have whole : (c :: collapseWhitespace rest).dropWhile isRustWhitespace =
          c :: collapseWhitespace rest := dropWhile_cons_of_neg (by simp [blank])
      have trimmed := trimRight_solid blank (collapseWhitespace rest)
      simp only [Bool.false_eq_true, if_false, if_true]
      constructor
      · rw [trimmed, plain]
      · rw [whole, rdropWhile_cons, trimmed, plain, if_neg (by simp)]

theorem dropWhile_collapse (text : List Char) :
    (collapseWhitespace text).dropWhile isRustWhitespace =
      collapseWhitespace (text.dropWhile isRustWhitespace) := by
  induction text with
  | nil => rfl
  | cons c rest ih =>
    have space : isRustWhitespace ' ' = true := by decide
    cases blank : isRustWhitespace c with
    | true =>
      rw [dropWhile_cons_of_pos blank, ← ih, collapseWhitespace, if_pos blank,
        dropWhile_cons_of_pos space, dropWhile_idempotent]
    | false =>
      have solid : ¬ isRustWhitespace c = true := by simp [blank]
      rw [dropWhile_cons_of_neg solid, collapseWhitespace, if_neg solid,
        dropWhile_cons_of_neg solid]

end Trimming

section Loop

theorem reasonCharacters_eq (rest : List Char) {normalized : List Char} (pendingSpace : Bool)
    (some : normalized ≠ []) (fits : normalized.length ≤ maxSessionDisconnectReasonCharacters) :
    let whole := normalized ++ laterCharacters pendingSpace rest
    if whole.length ≤ maxSessionDisconnectReasonCharacters then
      reasonCharacters pendingSpace normalized rest = (whole, false)
    else
      ∃ kept, reasonCharacters pendingSpace normalized rest = (kept, true) ∧ kept ≠ [] ∧
        kept.take (maxSessionDisconnectReasonCharacters - 3) =
          whole.take (maxSessionDisconnectReasonCharacters - 3) := by
  induction rest generalizing normalized pendingSpace with
  | nil =>
    unfold laterCharacters reasonCharacters
    dsimp only
    rw [append_nil, if_pos fits]
  | cons c rest ih =>
    have filled : normalized.isEmpty = false := by simpa using some
    unfold laterCharacters reasonCharacters
    rw [filled, Bool.not_false]
    cases blank : isRustWhitespace c with
    | true =>
      simp only [if_true]
      exact ih true some fits
    | false =>
      simp only [Bool.false_eq_true, if_false]
      -- What is cut off here lies behind the limit.
      have cut : ∀ {more : List Char}, normalized.length = maxSessionDisconnectReasonCharacters →
          normalized.take (maxSessionDisconnectReasonCharacters - 3) =
            (normalized ++ more).take (maxSessionDisconnectReasonCharacters - 3) := by
        intro more full
        rw [take_append_of_le_length (by omega)]
      cases pendingSpace with
      | true =>
        simp only [if_true]
        by_cases full : normalized.length = maxSessionDisconnectReasonCharacters
        · rw [if_neg (by rw [length_append, length_cons]; omega), if_pos full]
          exact ⟨normalized, rfl, some, cut full⟩
        · rw [if_neg full]
          by_cases last : normalized.length + 1 = maxSessionDisconnectReasonCharacters
          · rw [if_neg (by simp only [length_append, length_cons]; omega), if_pos last]
            refine ⟨normalized ++ [' '], rfl, by simp, ?_⟩
            have split : normalized ++ ' ' :: c :: laterCharacters false rest =
                (normalized ++ [' ']) ++ c :: laterCharacters false rest := by simp
            rw [split]
            refine (take_append_of_le_length ?_).symm
            rw [length_append, length_singleton]
            omega
          · rw [if_neg last]
            have later := @ih (normalized ++ [' ', c]) false (by simp)
              (by simp only [length_append, length_cons, length_nil]; omega)
            rwa [append_assoc] at later
      | false =>
        simp only [Bool.false_eq_true, if_false]
        by_cases full : normalized.length = maxSessionDisconnectReasonCharacters
        · rw [if_neg (by rw [length_append, length_cons]; omega), if_pos full]
          exact ⟨normalized, rfl, some, cut full⟩
        · rw [if_neg full]
          have later := @ih (normalized ++ [c]) false (by simp)
            (by rw [length_append, length_singleton]; omega)
          rwa [append_assoc] at later

theorem reasonCharacters_blank (text : List Char) :
    reasonCharacters false [] text =
      reasonCharacters false [] (text.dropWhile isRustWhitespace) := by
  induction text with
  | nil => rfl
  | cons c rest ih =>
    cases blank : isRustWhitespace c with
    | true =>
      rw [dropWhile_cons_of_pos blank, ← ih, reasonCharacters, if_pos blank]
      rfl
    | false => rw [dropWhile_cons_of_neg (by simp [blank])]

theorem normalizeSessionDisconnectReason_eq (value : String) :
    normalizeSessionDisconnectReason value = plainDisconnectReason value := by
  unfold normalizeSessionDisconnectReason plainDisconnectReason trimText
  rw [reasonCharacters_blank, dropWhile_collapse]
  cases start : value.toList.dropWhile isRustWhitespace with
  | nil => rfl
  | cons c rest =>
    have solid : isRustWhitespace c = false := by
      have head := head?_dropWhile_not isRustWhitespace value.toList
      rw [start] at head
      simpa using head
    have whole : (collapseWhitespace (c :: rest)).rdropWhile isRustWhitespace =
        c :: laterCharacters false rest := by
      rw [collapseWhitespace, if_neg (by simp [solid]), trimRight_solid solid,
        (laterCharacters_eq rest).1]
    have first : reasonCharacters false [] (c :: rest) = reasonCharacters false [c] rest := by
      rw [reasonCharacters, if_neg (by simp [solid])]
      rfl
    rw [whole, first]
    have run := @reasonCharacters_eq rest [c] false (cons_ne_nil _ _)
      (by decide : 1 ≤ maxSessionDisconnectReasonCharacters)
    dsimp only [singleton_append] at run ⊢
    rw [if_neg (cons_ne_nil _ _)]
    by_cases short : (c :: laterCharacters false rest).length ≤ maxSessionDisconnectReasonCharacters
    · rw [if_pos short] at run
      rw [run, if_neg (Nat.not_lt_of_le short)]
      rfl
    · rw [if_neg short] at run
      obtain ⟨kept, result, some, same⟩ := run
      rw [result, if_pos (Nat.lt_of_not_le short)]
      dsimp only
      rw [same, if_neg (by simpa using some), if_pos rfl]

end Loop

section Idempotence

/-- Every whitespace is a blank, and no two of them are neighbours. -/
structure OneBlank (text : List Char) : Prop where
  blanks : ∀ c ∈ text, isRustWhitespace c = true → c = ' '
  apart : text.IsChain fun c d => ¬ (isRustWhitespace c = true ∧ isRustWhitespace d = true)

theorem OneBlank.inside {text part : List Char} (one : OneBlank text) (inside : part <:+: text) :
    OneBlank part where
  blanks := fun c mem => one.blanks c (inside.subset mem)
  apart := one.apart.infix inside

theorem collapseWhitespace_oneBlank (text : List Char) : OneBlank (collapseWhitespace text) := by
  induction text with
  | nil => exact ⟨nofun, .nil⟩
  | cons c rest ih =>
    unfold collapseWhitespace
    split
    next =>
      have tail := ih.inside (dropWhile_suffix isRustWhitespace).isInfix
      refine ⟨fun d mem blank => ?_, isChain_cons.mpr ⟨fun d head both => ?_, tail.apart⟩⟩
      · rcases mem_cons.mp mem with same | later
        · exact same
        · exact tail.blanks d later blank
      · have solid := head?_dropWhile_not isRustWhitespace (collapseWhitespace rest)
        rw [mem_def.mp head] at solid
        have other : isRustWhitespace d = false := by simpa using solid
        rw [both.2] at other
        cases other
    next solid =>
      refine ⟨fun d mem blank => ?_, isChain_cons.mpr ⟨fun d _ both => solid both.1, ih.apart⟩⟩
      rcases mem_cons.mp mem with rfl | later
      · exact absurd blank solid
      · exact ih.blanks d later blank

theorem collapseWhitespace_id {text : List Char} (one : OneBlank text) :
    collapseWhitespace text = text := by
  induction text with
  | nil => rfl
  | cons c rest ih =>
    rw [collapseWhitespace, ih (one.inside (suffix_cons c rest).isInfix)]
    split
    next blank =>
      rw [one.blanks c mem_cons_self blank]
      refine congrArg _ ?_
      cases rest with
      | nil => rfl
      | cons d rest =>
        refine dropWhile_cons_of_neg fun next => ?_
        exact (isChain_cons_cons.mp one.apart).1 ⟨blank, next⟩
    next => rfl

theorem trimText_solid {first last : Char} {text : List Char}
    (head : (text ++ [last]).head? = some first) (solid : isRustWhitespace first = false)
    (end_solid : isRustWhitespace last = false) : trimText (text ++ [last]) = text ++ [last] := by
  unfold trimText
  have start : (text ++ [last]).dropWhile isRustWhitespace = text ++ [last] := by
    cases text with
    | nil => exact dropWhile_cons_of_neg (by simp [end_solid])
    | cons c text =>
      obtain rfl : c = first := Option.some.inj head
      exact dropWhile_cons_of_neg (by simp [solid])
  rw [start, rdropWhile_concat_neg _ _ _ (by simp [end_solid])]

theorem trimText_head {text : List Char} {first : Char}
    (head : (trimText text).head? = some first) : isRustWhitespace first = false := by
  obtain ⟨tail, whole⟩ := List.rdropWhile_prefix isRustWhitespace (text.dropWhile isRustWhitespace)
  have solid := head?_dropWhile_not isRustWhitespace text
  unfold trimText at head
  rw [← whole, head?_append, head] at solid
  simpa using solid

theorem plainDisconnectReason_again {text : List Char} (one : OneBlank text)
    (trimmed : trimText text = text) (filled : text ≠ [])
    (short : text.length ≤ maxSessionDisconnectReasonCharacters) :
    plainDisconnectReason (String.ofList text) = some (String.ofList text) := by
  unfold plainDisconnectReason
  rw [String.toList_ofList, collapseWhitespace_id one, trimmed]
  dsimp only
  rw [if_neg filled, if_neg (Nat.not_lt_of_le short)]

end Idempotence

/-- The loop gives what collapsing, trimming and cutting give, within the limit; and a reason that is
normalized again stays as it is. -/
theorem session_disconnect_reason_plain (value : String) :
    normalizeSessionDisconnectReason value = plainDisconnectReason value ∧
      ((normalizeSessionDisconnectReason value).map fun reason => reason.toList.length).getD 0 ≤
        maxSessionDisconnectReasonCharacters ∧
      (normalizeSessionDisconnectReason value).bind normalizeSessionDisconnectReason =
        normalizeSessionDisconnectReason value := by
  refine ⟨normalizeSessionDisconnectReason_eq value, ?_⟩
  rw [normalizeSessionDisconnectReason_eq value]
  generalize whole : trimText (collapseWhitespace value.toList) = text
  have trimmed : trimText text = text := by
    rw [← whole]
    exact trimText_idem _
  have one : OneBlank text := by
    rw [← whole]
    refine (collapseWhitespace_oneBlank value.toList).inside ?_
    exact (List.rdropWhile_prefix _ _).isInfix.trans (dropWhile_suffix _).isInfix
  unfold plainDisconnectReason
  rw [whole]
  dsimp only
  split
  next => exact ⟨Nat.zero_le _, rfl⟩
  next filled =>
    split
    next long =>
      have front : (text.take (maxSessionDisconnectReasonCharacters - 3)).length =
          maxSessionDisconnectReasonCharacters - 3 := by
        rw [length_take]
        omega
      have length : (text.take (maxSessionDisconnectReasonCharacters - 3) ++ ['.', '.', '.']).length =
          maxSessionDisconnectReasonCharacters := by
        rw [length_append, front]
        rfl
      rw [map_some, getD_some, String.toList_ofList, length, bind_some,
        normalizeSessionDisconnectReason_eq]
      refine ⟨Nat.le_refl _, plainDisconnectReason_again ?_ ?_ (by simp) (Nat.le_of_eq length)⟩
      · -- The dots are no whitespace, so they bring no second blank.
        have kept := one.inside (List.take_prefix (maxSessionDisconnectReasonCharacters - 3) text).isInfix
        have dot : isRustWhitespace '.' = false := by decide
        refine ⟨fun c mem blank => ?_, isChain_append.mpr ⟨kept.apart, ?_, ?_⟩⟩
        · rcases mem_append.mp mem with old | dots
          · exact kept.blanks c old blank
          · obtain rfl : c = '.' := by simpa using dots
            rw [dot] at blank
            cases blank
        · simp [dot]
        · simp [dot]
      · obtain ⟨first, rest, rfl⟩ := exists_cons_of_ne_nil filled
        have solid : isRustWhitespace first = false := by
          refine @trimText_head (first :: rest) first ?_
          rw [trimmed]
          rfl
        have split : (first :: rest).take (maxSessionDisconnectReasonCharacters - 3) ++
              ['.', '.', '.'] =
            ((first :: rest).take (maxSessionDisconnectReasonCharacters - 3) ++ ['.', '.']) ++
              ['.'] := by
          rw [append_assoc]
          rfl
        rw [split]
        exact trimText_solid rfl solid (by decide)
    next short =>
      rw [map_some, getD_some, String.toList_ofList, bind_some,
        normalizeSessionDisconnectReason_eq]
      have fits := Nat.le_of_not_lt short
      exact ⟨fits, plainDisconnectReason_again one trimmed filled fits⟩

end PortMate
