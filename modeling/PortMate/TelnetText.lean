import PortMate.TelnetTransparency
import PortMate.Utf8Reading

namespace PortMate

open List TelnetSignal FilterLoop Transducer

/-- The line ends of the network terminal: a bare CR is padded, a bare LF gets its CR. -/
def encodeNvtText : List Char → List Char
  | '\r' :: '\n' :: text => '\r' :: '\n' :: encodeNvtText text
  | '\r' :: text => '\r' :: '\x00' :: encodeNvtText text
  | '\n' :: text => '\r' :: '\n' :: encodeNvtText text
  | c :: text => c :: encodeNvtText text
  | [] => []

def encodeTelnetOutboundText (text : List Char) (localBinary : Bool) : List Char :=
  if localBinary then text else encodeNvtText text

/-- What the peer is to see: each bare LF as CR LF, everything else as it is. -/
def withCrLf : List Char → List Char
  | '\r' :: '\n' :: text => '\r' :: '\n' :: withCrLf text
  | '\n' :: text => '\r' :: '\n' :: withCrLf text
  | c :: text => c :: withCrLf text
  | [] => []

def textBytes (text : List Char) : List UInt8 := text.flatMap String.utf8EncodeChar

theorem encodeTelnetOutboundBytes_text (text : List Char) :
    encodeTelnetOutboundBytes (textBytes text) = textBytes text := by
  rw [encodeTelnetOutboundBytes_eq_flatMap]
  have plain : ∀ bytes : List UInt8, telnetIac ∉ bytes → bytes.flatMap escapeIac = bytes := by
    intro bytes free
    induction bytes with
    | nil => rfl
    | cons byte bytes ih =>
      obtain ⟨first, later⟩ := not_or.mp (mt mem_cons.mpr free)
      rw [flatMap_cons, escapeIac, if_neg (Ne.symm first), ih later]
      rfl
  refine plain _ fun mem => ?_
  obtain ⟨c, -, inside⟩ := mem_flatMap.mp mem
  have value : telnetIac.toNat = 255 := rfl
  have bounds := utf8EncodeChar_bytes inside
  omega

theorem stripCrNul_plain {bytes : List UInt8} (plain : ∀ byte ∈ bytes, byte ≠ 13)
    (rest : List UInt8) : stripCrNul false (bytes ++ rest) = bytes ++ stripCrNul false rest := by
  induction bytes with
  | nil => rfl
  | cons byte bytes ih =>
    obtain ⟨first, later⟩ := forall_mem_cons.mp plain
    rw [cons_append, stripCrNul, if_neg (by simp), decide_eq_false first, ih later]
    rfl

theorem stripCrNul_encodeNvtText (text : List Char) :
    stripCrNul false (textBytes (encodeNvtText text)) = textBytes (withCrLf text) := by
  induction text using encodeNvtText.induct with
  | case1 text ih =>
    rw [encodeNvtText, withCrLf]
    change stripCrNul false (13 :: 10 :: textBytes (encodeNvtText text)) =
      13 :: 10 :: textBytes (withCrLf text)
    rw [← ih]
    rfl
  | case2 text further ih =>
    rw [encodeNvtText, withCrLf]
    · change stripCrNul false (13 :: 0 :: textBytes (encodeNvtText text)) =
        13 :: textBytes (withCrLf text)
      rw [← ih]
      rfl
    · exact fun rest _ => further rest
    · decide
    · exact fun rest => further rest
  | case3 text ih =>
    rw [encodeNvtText, withCrLf]
    change stripCrNul false (13 :: 10 :: textBytes (encodeNvtText text)) =
      13 :: 10 :: textBytes (withCrLf text)
    rw [← ih]
    rfl
  | case4 c text pair bare feed ih =>
    rw [encodeNvtText, withCrLf]
    · change stripCrNul false (String.utf8EncodeChar c ++ textBytes (encodeNvtText text)) =
        String.utf8EncodeChar c ++ textBytes (withCrLf text)
      rw [stripCrNul_plain, ih]
      intro byte mem carriage
      have bounds := utf8EncodeChar_bytes mem
      rw [carriage] at bounds
      have value : c.val.toNat = 13 := by
        obtain ⟨-, same⟩ | ⟨high, -⟩ := bounds
        · exact same
        · exact absurd high (by decide)
      exact bare (Char.ext (UInt32.toNat_inj.mp value))
    · exact pair
    · exact feed
    · exact pair
    · exact bare
    · exact feed
  | case5 => rfl

end PortMate
