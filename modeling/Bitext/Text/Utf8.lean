/-
UTF-8: where a byte sequence stops being text.

Core decides whether bytes are UTF-8 (`String.fromUTF8?`).  A reader of a damaged file
wants to know more: how many bytes are text, and what stands there instead.  The rule
is the one of the Unicode standard's "maximal subpart": the longest start of a
well-formed sequence that the bytes contain at that place, at least one byte.

The scan below goes through the bytes once.  Inside a character it carries the ranges
that the following bytes have to lie in; these depend on the lead byte only, and only
the first of them differs from the plain continuation bytes.  That is what excludes
overlong forms, surrogates and code points above U+10FFFF.
-/
namespace Bitext.Utf8

/-- A closed range of byte values. -/
structure ByteRange where
  least : UInt8
  greatest : UInt8

/-- A byte lies in the range. -/
def ByteRange.holds (range : ByteRange) (b : UInt8) : Bool :=
  range.least ≤ b && b ≤ range.greatest

/-- The bytes that may follow inside a character, unless the lead byte says otherwise. -/
def continuation : ByteRange := ⟨0x80, 0xBF⟩

/-- The ranges of the bytes that follow a lead byte, or nothing when it leads no
character. -/
def followers (lead : UInt8) : Option (List ByteRange) :=
  if lead ≤ 0x7F then some []
  else if lead < 0xC2 then none
  else if lead ≤ 0xDF then some [continuation]
  else if lead = 0xE0 then some [⟨0xA0, 0xBF⟩, continuation]
  else if lead = 0xED then some [⟨0x80, 0x9F⟩, continuation]
  else if lead ≤ 0xEF then some [continuation, continuation]
  else if lead = 0xF0 then some [⟨0x90, 0xBF⟩, continuation, continuation]
  else if lead ≤ 0xF3 then some [continuation, continuation, continuation]
  else if lead = 0xF4 then some [⟨0x80, 0x8F⟩, continuation, continuation]
  else none

/-- Why bytes are not text: the length of the longest prefix that is, and the length of
the bad sequence behind it, absent when the bytes end inside a good one. -/
structure Defect where
  validUpTo : Nat
  badLength : Option Nat
  deriving DecidableEq, Repr

/-- The defect in words. -/
def Defect.message (defect : Defect) : String :=
  match defect.badLength with
  | some length =>
      "invalid utf-8 sequence of " ++ toString length ++ " bytes from index "
        ++ toString defect.validUpTo
  | none => "incomplete utf-8 byte sequence from index " ++ toString defect.validUpTo

/-- Goes through the bytes.  The current character began at `start`, `seen` of its
bytes have passed, and those still `expected` follow; with nothing expected the next
byte leads a new character. -/
def scan (start seen : Nat) : List ByteRange → List UInt8 → Option Defect
  | [], [] => none
  | _ :: _, [] => some ⟨start, none⟩
  | [], b :: rest =>
      match followers b with
      | none => some ⟨start + seen, some 1⟩
      | some expected => scan (start + seen) 1 expected rest
  | range :: expected, b :: rest =>
      if range.holds b then scan start (seen + 1) expected rest else some ⟨start, some seen⟩

/-- The first defect of the bytes, if they are not text. -/
def firstDefect (bytes : List UInt8) : Option Defect := scan 0 0 [] bytes

/-- The text that bytes stand for, or their first defect.  Bytes that core refuses and
in which the scan finds nothing would be reported as ending too early. -/
def decode (bytes : ByteArray) : Except Defect String :=
  match String.fromUTF8? bytes with
  | some text => .ok text
  | none => .error ((firstDefect bytes.data.toList).getD ⟨bytes.size, none⟩)

/-- Bytes are the text of which they are the encoding, and no other. -/
theorem fromUTF8?_eq_some_iff {bytes : ByteArray} {text : String} :
    String.fromUTF8? bytes = some text ↔ text.toUTF8 = bytes := by
  unfold String.fromUTF8?
  constructor
  · intro h
    split at h
    · obtain rfl := Option.some.inj h
      rfl
    · cases h
  · rintro rfl
    exact dif_pos text.isValidUTF8

/-- Decoding a text's own bytes gives the text back. -/
theorem decode_toUTF8 (text : String) : decode text.toUTF8 = .ok text := by
  rw [decode, fromUTF8?_eq_some_iff.mpr rfl]

/-- Only a text's own bytes decode to it. -/
theorem toUTF8_of_decode {bytes : ByteArray} {text : String} (h : decode bytes = .ok text) :
    text.toUTF8 = bytes := by
  unfold decode at h
  split at h
  · rename_i found hfound
    obtain rfl := Except.ok.inj h
    exact fromUTF8?_eq_some_iff.mp hfound
  · cases h

end Bitext.Utf8
