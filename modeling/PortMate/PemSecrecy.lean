import PortMate.RedactionPem

namespace PortMate

open List

/-- The label of a marker line, such as `RSA ` or nothing. -/
abbrev PemLabel := { label : List Char // ∀ c ∈ label, isUpperOrSpace c = true }

/-- A text around a key: its lines stand between the two markers. -/
def pemText (lead : List Char) (label : PemLabel) (body : KeyBody) (label' : PemLabel)
    (tail : List Char) : List Char :=
  lead ++ markerText "-----BEGIN " label.1 ++ body.text ++
    (markerText "-----END " label'.1 ++ tail)

/-- The key/value and the bearer pass over a part of a text; `nextKey` tells whether a key
follows behind the part. -/
def firstPasses (nextKey : Bool) (text : List Char) : List Char :=
  redactPattern bearerToken (redactKeys nextKey (keyPrefix.pieces text))

/-- The lines keep their passwords and tokens to themselves: neither the value of their last
key nor a bearer token goes on in the marker behind them. -/
structure KeyBody.SelfContained (body : KeyBody) : Prop where
  values : body.EndsValues
  tokens : BearerEndsInside (redactKeys false (keyPrefix.pieces body.text))

/-- Whether a key follows behind the first marker line. -/
def keyBehind (body : KeyBody) (label : PemLabel) (tail : List Char) : Bool :=
  hasKey (keyPrefix.pieces body.text) ||
    hasKey (keyPrefix.pieces (markerText "-----END " label.1 ++ tail))

/-- The earlier passes leave a first marker open before the lines and a last one behind them. -/
def MarkersStand (nextKey : Bool) (lead : List Char) (label label' : PemLabel)
    (tail : List Char) : Prop :=
  leftOpen (firstPasses nextKey (lead ++ markerText "-----BEGIN " label.1)) = true ∧
    pemEnd.occursIn (firstPasses false (markerText "-----END " label'.1 ++ tail)) = true

theorem KeyBody.lines_open (body : KeyBody) : OpensLine (firstPasses false body.text) := by
  obtain ⟨c, rest, lineStart, opens⟩ := body.redacted_opens
  refine ⟨c, redactPattern bearerToken rest, ?_, lineStart⟩
  rw [firstPasses, opens, bearerToken_break lineStart]

theorem KeyBody.lines_undashed (body : KeyBody) : '-' ∉ firstPasses false body.text := by
  intro mem
  obtain mem | mem := bearerToken_letters mem
  · exact body.redacted_undashed mem
  · exact absurd mem (by decide)

theorem firstPasses_pemText {lead tail : List Char} {label label' : PemLabel} {body : KeyBody}
    (contained : body.SelfContained) :
    firstPasses false (pemText lead label body label' tail) =
      firstPasses (keyBehind body label' tail) (lead ++ markerText "-----BEGIN " label.1) ++
        (firstPasses false body.text ++
          firstPasses false (markerText "-----END " label'.1 ++ tail)) := by
  have closed : EndsClosed (redactKeys (keyBehind body label' tail)
      (keyPrefix.pieces (lead ++ markerText "-----BEGIN " label.1))) := by
    have pieces := keyPrefix_lead lead label.2 []
    rw [append_nil, Regex.pieces_nil, append_nil] at pieces
    have dash : markerText "-----BEGIN " label.1 =
        "-----BEGIN ".toList ++ label.1 ++ "PRIVATE KEY----".toList ++ ['-'] := by
      simp [markerText]
    rw [pieces, dash, map_append, ← append_assoc]
    exact redactKeys_endsClosed _ _
  obtain ⟨c, rest, lineStart, opens⟩ := body.redacted_opens
  obtain ⟨d, lineEnd, last⟩ := KeyBody.redacted_closes contained.values
  obtain ⟨more, dash⟩ : ∃ more, redactKeys false
      (keyPrefix.pieces (markerText "-----END " label'.1 ++ tail)) = '-' :: more := by
    have front : markerText "-----END " label'.1 ++ tail =
        '-' :: ("----END ".toList ++ label'.1 ++ "PRIVATE KEY-----".toList ++ tail) := by
      simp [markerText]
    rw [front, Regex.pieces_none (keyPrefix_dash _), redactKeys_text]
    exact ⟨_, rfl⟩
  rw [firstPasses, pemText, redactKeys_key label.2 contained.values, append_assoc, opens,
    cons_append, ← keyBehind, bearer_after_closed closed lineStart, ← cons_append,
    ← opens, dash, bearer_before_dash last lineEnd contained.tokens, ← dash]
  rfl

theorem redactSecrets_passes {search : Search} (documented : search.Documented) (rounds : Nat)
    (input : List Char) : redactSecrets search (rounds + 2) input =
      some (redactPattern pemKey (firstPasses false input)) :=
  redactSecrets_eq documented rounds input

theorem redactSecrets_lines {search : Search} (documented : search.Documented) (rounds : Nat)
    (body : KeyBody) :
    redactSecrets search (rounds + 2) body.text = some (firstPasses false body.text) := by
  have alone := pem_undashed body.lines_undashed []
  rw [append_nil] at alone
  rw [redactSecrets_passes documented, alone]
  exact congrArg some (append_nil _)

/-- Two keys in the same place give the same redacted text just where the markers around
them outlive the earlier passes, or where the lines alone could not be told apart. -/
theorem key_lines_indistinguishable_iff {search : Search} (documented : search.Documented)
    (rounds : Nat) (lead tail : List Char) (label label' : PemLabel) {body body' : KeyBody}
    (contained : body.SelfContained) (contained' : body'.SelfContained)
    (sameLead : firstPasses (keyBehind body label' tail)
        (lead ++ markerText "-----BEGIN " label.1) =
      firstPasses (keyBehind body' label' tail) (lead ++ markerText "-----BEGIN " label.1)) :
    redactSecrets search (rounds + 2) (pemText lead label body label' tail) =
        redactSecrets search (rounds + 2) (pemText lead label body' label' tail) ↔
      MarkersStand (keyBehind body label' tail) lead label label' tail ∨
        redactSecrets search (rounds + 2) body.text =
          redactSecrets search (rounds + 2) body'.text := by
  rw [redactSecrets_passes documented, redactSecrets_passes documented,
    redactSecrets_lines documented, redactSecrets_lines documented, Option.some.injEq,
    Option.some.injEq, firstPasses_pemText contained, firstPasses_pemText contained', ← sameLead]
  constructor
  · intro same
    by_cases hidden : MarkersStand (keyBehind body label' tail) lead label label' tail
    · exact .inl hidden
    · rw [pem_lines_shown body.lines_open body.lines_undashed hidden,
        pem_lines_shown body'.lines_open body'.lines_undashed hidden] at same
      exact .inr (append_cancel_right (append_cancel_left same))
  · rintro (⟨standing, closed⟩ | same)
    · exact pem_lines_hidden body.lines_open body.lines_undashed body'.lines_open
        body'.lines_undashed standing closed
    · rw [same]

def noLabel : PemLabel := ⟨[], fun _ mem => absurd mem not_mem_nil⟩

def oneLine (letter : Char) (base64 : isBase64 letter = true) : KeyBody where
  text := ['\n', letter, letter, letter, letter, '\n']
  base64 := by
    intro c mem
    obtain rfl | rfl | rfl : c = '\n' ∨ c = letter ∨ c = '\n' := by simpa using mem
    · exact .inr rfl
    · exact .inl base64
    · exact .inr rfl
  opens := ⟨_, _, rfl, rfl⟩
  closes := ⟨_, rfl, rfl⟩

theorem marked_key_lines_indistinguishable :
    redactSecrets Regex.pieces 2
        (pemText "key ".toList noLabel (oneLine 'A' rfl) noLabel []) =
      redactSecrets Regex.pieces 2 (pemText "key ".toList noLabel (oneLine 'B' rfl) noLabel []) :=
  (key_lines_indistinguishable_iff (fun _ _ _ => rfl) 0 _ _ _ _
    ⟨⟨"\nAAAA".toList.map .text, '\n', by decide⟩, by decide⟩
    ⟨⟨"\nBBBB".toList.map .text, '\n', by decide⟩, by decide⟩
    (by decide)).mpr (.inl ⟨by decide, by decide⟩)

/-- An assignment in front of the first marker takes it for its value. -/
theorem assigned_key_lines_shown :
    ¬ ∀ (lead tail : List Char) (label label' : PemLabel) (body body' : KeyBody),
      redactSecrets Regex.pieces 2 (pemText lead label body label' tail) =
        redactSecrets Regex.pieces 2 (pemText lead label body' label' tail) := by
  intro hidden
  have shown : redactSecrets Regex.pieces 2
        (pemText "SECRET=".toList noLabel (oneLine 'A' rfl) noLabel []) ≠
      redactSecrets Regex.pieces 2
        (pemText "SECRET=".toList noLabel (oneLine 'B' rfl) noLabel []) := by decide
  exact shown (hidden _ _ _ _ _ _)

end PortMate
