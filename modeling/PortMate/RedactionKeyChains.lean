import PortMate.RedactionTokens
import PortMate.RegexMasks

namespace PortMate

open List Found Regex

/-- A key up to the white space before its assignment. -/
def keyHead : Regex Char :=
  .seq (.opt (.set isQuote)) <| .seq secretName <| .seq (.opt (.set isQuote)) <|
    .many true isRustWhitespace

def assignmentStart : Regex Char := .seq (.set isAssignment) (.many true isRustWhitespace)

theorem seq_congr {a b b' : Regex Char} (same : ∀ text, b.matchesAt text = b'.matchesAt text)
    (text : List Char) : (seq a b).matchesAt text = (seq a b').matchesAt text := by
  simp only [matchesAt, same]

variable (text : List Char)

theorem keyPrefix_split :
    keyPrefix.matchesAt text = (seq keyHead assignmentStart).matchesAt text := by
  rw [keyPrefix, keyHead, ← seq_assoc]
  refine seq_congr (fun text => ?_) text
  rw [← seq_assoc]
  refine seq_congr (fun text => ?_) text
  exact seq_assoc _ _ _ text

theorem assignment_cases {c : Char} (assigns : isAssignment c = true) : c = ':' ∨ c = '=' := by
  simpa [isAssignment] using assigns

theorem keyHead_rejects {c : Char} (assigns : isAssignment c = true) : keyHead.rejects c = true := by
  obtain rfl | rfl := assignment_cases assigns <;> rfl

def headWord (text : List Char) : Bool := (keyHead.matchesAt text).any fun m => m.rest.isEmpty

theorem findSome?_const {α β : Type} (p : α → Bool) (found : β) (xs : List α) :
    xs.findSome? (fun x => if p x then some found else none) = if xs.any p then some found else none := by
  induction xs with
  | nil => rfl
  | cons x xs ih =>
    rw [findSome?_cons, any_cons, ih]
    cases p x <;> rfl

theorem findSome?_congr_mem {α β : Type} {f g : α → Option β} {xs : List α}
    (same : ∀ x ∈ xs, f x = g x) : xs.findSome? f = xs.findSome? g := by
  induction xs with
  | nil => rfl
  | cons x xs ih =>
    rw [findSome?_cons, findSome?_cons, same x mem_cons_self,
      ih fun x mem => same x (mem_cons_of_mem _ mem)]

theorem keyPrefix_at {word : List Char} {c : Char} (plain : ∀ d ∈ word, isAssignment d = false)
    (assigns : isAssignment c = true) (text : List Char) :
    keyPrefix.first (word ++ c :: text) =
      if headWord word then
        some ⟨word ++ c :: text.takeWhile isRustWhitespace, [], text.dropWhile isRustWhitespace⟩
      else none := by
  have settled := settledAt_of_rejects (keyHead_rejects assigns) word text
  rw [Regex.SettledAt] at settled
  rw [first, keyPrefix_split, matchesAt, settled, flatMap_map, head?_flatMap,
    headWord, ← findSome?_const]
  apply findSome?_congr_mem
  intro m mem
  have whole := taken_append_rest mem
  have captures := groupless_captures (show keyHead.groupless = true from rfl) mem
  cases unread : m.rest with
  | nil =>
    rw [unread, append_nil] at whole
    simp [unread, assignmentStart, matchesAt, assigns, manyAt_head, followedBy,
      captures, whole, before]
  | cons d rest =>
    have inside : d ∈ word := by
      rw [← whole, unread]
      simp
    simp [unread, assignmentStart, matchesAt, plain d inside, before]

theorem keyPrefix_plain {text : List Char} (plain : ∀ c ∈ text, isAssignment c = false) :
    keyPrefix.first text = none := by
  rw [first_eq_none, eq_nil_iff_forall_not_mem]
  intro m mem
  obtain ⟨c, taken, assigns⟩ := keyPrefix_needs text m mem
  have here : c ∈ text := by
    rw [← taken_append_rest mem]
    exact mem_append_left _ taken
  rw [plain c here] at assigns
  exact absurd assigns Bool.false_ne_true

theorem assignment_split : (∀ c ∈ text, isAssignment c = false) ∨
    ∃ word c rest, text = word ++ c :: rest ∧ (∀ d ∈ word, isAssignment d = false) ∧
      isAssignment c = true := by
  induction text with
  | nil => exact .inl nofun
  | cons d text ih =>
    cases assigns : isAssignment d with
    | true => exact .inr ⟨[], d, text, rfl, nofun, assigns⟩
    | false =>
      obtain plain | ⟨word, c, rest, rfl, plain, here⟩ := ih
      · exact .inl (forall_mem_cons.mpr ⟨assigns, plain⟩)
      · exact .inr ⟨d :: word, c, rest, rfl, forall_mem_cons.mpr ⟨assigns, plain⟩, here⟩

theorem keyPrefix_isSome {front : List Char} (assigned : ∃ c ∈ front, isAssignment c = true)
    (tail tail' : List Char) :
    (keyPrefix.first (front ++ tail)).isSome = (keyPrefix.first (front ++ tail')).isSome := by
  obtain plain | ⟨word, c, rest, rfl, plain, here⟩ := assignment_split front
  · obtain ⟨c, mem, assigns⟩ := assigned
    rw [plain c mem] at assigns
    cases assigns
  · rw [append_assoc, append_assoc, cons_append, cons_append,
      keyPrefix_at plain here, keyPrefix_at plain here]
    cases headWord word <;> rfl

def NoLead (text : List Char) : Prop := ∀ c, text.head? = some c → isRustWhitespace c = false

theorem noLead_dropWhile : NoLead (text.dropWhile isRustWhitespace) := by
  intro c head
  induction text with
  | nil => cases head
  | cons d text ih =>
    cases white : isRustWhitespace d with
    | true => exact ih (by simpa [white] using head)
    | false =>
      rw [dropWhile_cons_of_neg (by simp [white])] at head
      exact Option.some.inj head ▸ white

theorem NoLead.split {text : List Char} (lead : NoLead text) {space : List Char}
    (white : ∀ c ∈ space, isRustWhitespace c = true) :
    (space ++ text).takeWhile isRustWhitespace = space ∧
      (space ++ text).dropWhile isRustWhitespace = text := by
  induction space with
  | nil =>
    cases text with
    | nil => exact ⟨rfl, rfl⟩
    | cons c text => simp [lead c rfl]
  | cons c space ih =>
    obtain ⟨here, later⟩ := forall_mem_cons.mp white
    obtain ⟨taken, left⟩ := ih later
    simp [here, taken, left]

theorem keyPrefix_found {text : List Char} {m : Found Char} (found : keyPrefix.first text = some m) :
    ∃ word c space, m.taken = word ++ c :: space ∧ (∀ d ∈ word, isAssignment d = false) ∧
      isAssignment c = true ∧ headWord word = true ∧ (∀ d ∈ space, isRustWhitespace d = true) ∧
      m.captures = [] ∧ NoLead m.rest := by
  obtain plain | ⟨word, c, rest, rfl, plain, here⟩ := assignment_split text
  · rw [keyPrefix_plain plain] at found
    cases found
  · rw [keyPrefix_at plain here] at found
    split at found
    next head =>
      obtain rfl := Option.some.inj found
      exact ⟨word, c, _, rfl, plain, here, head, fun d mem => mem_takeWhile_imp mem, rfl,
        noLead_dropWhile rest⟩
    next => cases found

theorem keyPrefix_again {key rest : List Char} {captures : List (List Char)}
    (found : keyPrefix.first (key ++ rest) = some ⟨key, captures, rest⟩) {other : List Char}
    (lead : NoLead other) : keyPrefix.first (key ++ other) = some ⟨key, [], other⟩ := by
  obtain ⟨word, c, space, taken, plain, assigns, head, white, -, -⟩ := keyPrefix_found found
  dsimp only at taken
  obtain ⟨keep, left⟩ := lead.split white
  rw [taken, append_assoc, cons_append, keyPrefix_at plain assigns, if_pos head, keep, left]

theorem found_assigned {key rest : List Char} {captures : List (List Char)}
    (found : keyPrefix.first (key ++ rest) = some ⟨key, captures, rest⟩) :
    ∃ c ∈ key, isAssignment c = true :=
  keyPrefix_needs _ _ (first_mem found)

def Unkeyed (text tail : List Char) : Prop :=
  ∀ s, s ≠ [] → s <:+ text → keyPrefix.matchesAt (s ++ tail) = []

/-- The text of keys with what stands behind each. -/
def assemble (keyed : List (List Char × List Char)) : List Char :=
  keyed.flatMap fun pair => pair.1 ++ pair.2

theorem assemble_cons (key gap : List Char) (keyed : List (List Char × List Char)) :
    assemble ((key, gap) :: keyed) = key ++ (gap ++ assemble keyed) := by
  simp [assemble]

/-- The keys are those that a search finds in the text. -/
inductive KeyChain : List (List Char × List Char) → Prop
  | nil : KeyChain []
  | cons {key gap : List Char} {keyed : List (List Char × List Char)}
      (found : keyPrefix.first (key ++ (gap ++ assemble keyed)) =
        some ⟨key, [], gap ++ assemble keyed⟩)
      (free : Unkeyed gap (assemble keyed)) (later : KeyChain keyed) :
      KeyChain ((key, gap) :: keyed)

theorem pieces_unkeyed {text tail : List Char} (free : Unkeyed text tail) :
    keyPrefix.pieces (text ++ tail) = text.map .text ++ keyPrefix.pieces tail := by
  induction text with
  | nil => rfl
  | cons c text ih =>
    have none := first_eq_none.mpr (free (c :: text) (cons_ne_nil _ _) (suffix_refl _))
    rw [cons_append] at none ⊢
    rw [pieces_none none,
      ih fun s nonempty suffix => free s nonempty (suffix.trans (suffix_cons c text))]
    rfl

theorem keyedValues_text (pieces : List (Piece Char)) :
    keyedValues (text.map .text ++ pieces) = (text ++ (keyedValues pieces).1, (keyedValues pieces).2) := by
  induction text with
  | nil => rfl
  | cons c text ih => rw [map_cons, cons_append, keyedValues, ih]; rfl

theorem pieces_found {key gap : List Char} (found : keyPrefix.first (key ++ gap) = some ⟨key, [], gap⟩) :
    keyPrefix.pieces (key ++ gap) = .found key [] :: keyPrefix.pieces gap := by
  have nonempty := keyPrefix_needs.takesText _ _ (first_mem found)
  cases key with
  | nil => exact absurd rfl nonempty
  | cons c key => exact pieces_some keyPrefix_needs.takesText found

theorem keyedValues_chain {lead : List Char} {keyed : List (List Char × List Char)}
    (free : Unkeyed lead (assemble keyed)) (chain : KeyChain keyed) :
    keyedValues (keyPrefix.pieces (lead ++ assemble keyed)) = (lead, keyed) := by
  rw [pieces_unkeyed free, keyedValues_text]
  suffices own : keyedValues (keyPrefix.pieces (assemble keyed)) = ([], keyed) by
    rw [own, append_nil]
  clear free lead
  induction chain with
  | nil => rfl
  | @cons key gap keyed found free later ih =>
    rw [assemble_cons, pieces_found found, pieces_unkeyed free, keyedValues, keyedValues_text, ih,
      append_nil]

theorem exists_chain (text : List Char) :
    let read := keyedValues (keyPrefix.pieces text)
    read.1 ++ assemble read.2 = text ∧ Unkeyed read.1 (assemble read.2) ∧ KeyChain read.2 := by
  induction text using search_induction keyPrefix_needs.takesText with
  | nil => exact ⟨rfl, fun s nonempty suffix => absurd (suffix_nil.mp suffix) nonempty, .nil⟩
  | pass c text none ih =>
    obtain ⟨whole, free, chain⟩ := ih
    rw [pieces_none none, keyedValues]
    refine ⟨?_, ?_, chain⟩
    · rw [cons_append, whole]
    · intro s nonempty suffix
      obtain rfl | suffix := suffix_cons_iff.mp suffix
      · rw [cons_append, whole]
        exact first_eq_none.mp none
      · exact free s nonempty suffix
  | found c text m found ih =>
    obtain ⟨whole, free, chain⟩ := ih
    have split := taken_append_rest (first_mem found)
    have captures := (keyPrefix_found found).choose_spec.choose_spec.choose_spec.2.2.2.2.2.1
    rw [pieces_some keyPrefix_needs.takesText found, keyedValues]
    refine ⟨?_, fun s nonempty suffix => absurd (suffix_nil.mp suffix) nonempty, ?_⟩
    · rw [assemble_cons, whole, nil_append, split]
    · refine .cons ?_ free chain
      rw [whole, split, found, ← captures]

/-- What may become of a gap without new keys in it. -/
structure GapKept (gap gap' : List Char) : Prop where
  free : ∀ tail, Unkeyed gap tail → Unkeyed gap' tail
  lead : NoLead gap → NoLead gap'
  empty : gap' = [] → gap = []

theorem unkeyed_tail {text key rest rest' : List Char} (assigned : ∃ c ∈ key, isAssignment c = true)
    (free : Unkeyed text (key ++ rest)) : Unkeyed text (key ++ rest') := by
  intro s nonempty suffix
  have none := free s nonempty suffix
  have inFront : ∃ c ∈ s ++ key, isAssignment c = true := by
    obtain ⟨c, mem, assigns⟩ := assigned
    exact ⟨c, mem_append_right s mem, assigns⟩
  have same := keyPrefix_isSome inFront rest rest'
  rw [← first_eq_none] at none ⊢
  rw [append_assoc, append_assoc, none] at same
  exact Option.isNone_iff_eq_none.mp (Option.isSome_eq_false_iff.mp same.symm)

/-- The same keys, with what may become of the gaps. -/
abbrev GapsKept := List.Forall₂ fun pair pair' : List Char × List Char =>
  pair.1 = pair'.1 ∧ GapKept pair.2 pair'.2

theorem KeyChain.kept {keyed keyed' : List (List Char × List Char)} (chain : KeyChain keyed)
    (kept : GapsKept keyed keyed') : KeyChain keyed' ∧
      (∀ text, Unkeyed text (assemble keyed) → Unkeyed text (assemble keyed')) ∧
      (NoLead (assemble keyed) → NoLead (assemble keyed')) := by
  induction kept with
  | nil => exact ⟨.nil, fun _ free => free, fun lead => lead⟩
  | @cons pair pair' keyed keyed' own others ih =>
    obtain ⟨key, gap⟩ := pair
    obtain ⟨key', gap'⟩ := pair'
    obtain ⟨rfl, own⟩ := own
    cases chain with
    | cons found free later =>
      obtain ⟨chain, tails, leads⟩ := ih later
      have assigned := found_assigned found
      have lead : NoLead (gap ++ assemble keyed) :=
        (keyPrefix_found found).choose_spec.choose_spec.choose_spec.2.2.2.2.2.2
      have lead' : NoLead (gap' ++ assemble keyed') := by
        cases empty : gap' with
        | nil =>
          have none : gap = [] := own.empty empty
          rw [none] at lead
          exact leads lead
        | cons c rest =>
          have alone : NoLead gap := by
            intro d head
            exact lead d (by rw [head?_append, head]; rfl)
          have alone' := own.lead alone
          rw [empty] at alone'
          exact fun d head => alone' d head
      refine ⟨.cons (keyPrefix_again found lead') (tails gap' (own.free _ free)) chain, ?_, ?_⟩
      · intro text free
        rw [assemble_cons] at free ⊢
        exact unkeyed_tail assigned free
      · intro lead c head
        obtain ⟨d, mem, -⟩ := assigned
        rw [assemble_cons] at lead head
        cases key with
        | nil => cases mem
        | cons e key => exact lead c head

/-- A mask that keys do not read into and that starts visibly. -/
structure MaskKept (mask : List Char) : Prop where
  shut : keyPrefix.ShutBy mask
  visible : ∃ c rest, mask = c :: rest ∧ isRustWhitespace c = false

theorem maskKept_of {mask : List Char} {inner : List Char} (shape : mask = '<' :: inner ++ ['>'])
    (plain : inner.any isAssignment = false) : MaskKept mask := by
  subst shape
  refine ⟨⟨⟨'<', inner ++ ['>'], rfl, by decide⟩, ⟨'<' :: inner, '>', rfl, by decide, ?_⟩⟩,
    ⟨'<', inner ++ ['>'], rfl, by decide⟩⟩
  intro part mem
  have suffix := (mem_tails _ _).mp mem
  exact first_eq_none.mp (keyPrefix_plain fun c inside =>
    (mem_cons.mp (suffix.subset inside)).elim (fun same => same ▸ rfl) fun mem =>
      Bool.eq_false_iff.mpr (any_eq_false.mp plain c mem))

theorem redacted_kept : MaskKept redacted :=
  @maskKept_of redacted "redacted".toList rfl (by decide)

theorem redactedSecret_kept : MaskKept redactedSecret :=
  @maskKept_of redactedSecret "redacted-secret".toList rfl (by decide)

theorem gapKept_of_masked {mask gap gap' : List Char} (kept : MaskKept mask)
    (masked : Masked mask gap gap') : GapKept gap gap' where
  free tail free := masked_unmatched kept.shut masked tail free
  lead lead := by
    obtain ⟨d, rest, rfl, visible⟩ := kept.visible
    cases masked with
    | nil => exact lead
    | keep c later => exact fun e head => lead e head
    | replace part later =>
      intro e head
      obtain rfl := Option.some.inj head
      exact visible
  empty empty := by
    obtain ⟨d, rest, rfl, -⟩ := kept.visible
    cases masked with
    | nil => rfl
    | keep c later => cases empty
    | replace part later => cases empty

end PortMate
