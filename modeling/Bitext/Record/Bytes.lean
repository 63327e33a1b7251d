/-
Numbers and texts as bytes.

Both file formats are made of the same parts: numbers in four bytes, least significant
first, and texts as their number of UTF-8 bytes followed by those bytes.  What is
written has to fit, so an encoder may refuse a number or a text; what is read may be
anything, so a decoder may refuse bytes.  A decoder is given the whole file and a
position in it.  It reads only inside the file, whatever the position is, and tells a
fault by the position at which a part should have started.
-/
import Bitext.Fault

namespace Bitext.Bytes

/-! ### Encoding -/

/-- The given number of bytes of a number, least significant first. -/
def littleEndian : Nat → Nat → List UInt8
  | 0, _ => []
  | width + 1, n => UInt8.ofNat n :: littleEndian width (n / 256)

/-- The number that bytes stand for, least significant first. -/
def toNat : List UInt8 → Nat
  | [] => 0
  | b :: rest => b.toNat + 256 * toNat rest

/-- The range of a number in four bytes. -/
def wordRange : Nat := UInt32.size

/-- The range of a number in four bytes that is read as one that may be negative. -/
def signedRange : Nat := wordRange / 2

/-- The four bytes of a number. -/
def word (n : Nat) : ByteArray := (littleEndian 4 n).toByteArray

/-- The four bytes of a number, if it fits. -/
def word? (what : Context) (n : Nat) : Except Fault ByteArray :=
  if n < wordRange then .ok (word n) else .error ⟨.numberTooLarge, [what]⟩

/-- The bytes of a text behind their number, if it fits. -/
def text? (s : String) : Except Fault ByteArray :=
  if s.utf8ByteSize < wordRange then .ok (word s.utf8ByteSize ++ s.toUTF8)
  else .error ⟨.numberTooLarge, [.storingText s.utf8ByteSize]⟩

@[simp] theorem length_littleEndian (width n : Nat) : (littleEndian width n).length = width := by
  induction width generalizing n with
  | zero => rfl
  | succ width ih => simp [littleEndian, ih]

/-- Bytes are the bytes of the number that they stand for. -/
theorem littleEndian_toNat (bytes : List UInt8) :
    littleEndian bytes.length (toNat bytes) = bytes := by
  induction bytes with
  | nil => rfl
  | cons b rest ih =>
      have hb := UInt8.toNat_lt b
      have low : UInt8.ofNat (b.toNat + 256 * toNat rest) = b := by
        apply UInt8.toNat_inj.mp
        rw [UInt8.toNat_ofNat']
        omega
      have high : (b.toNat + 256 * toNat rest) / 256 = toNat rest := by omega
      rw [List.length_cons, littleEndian, toNat, low, high, ih]

@[simp] theorem size_word (n : Nat) : (word n).size = 4 := by
  simp [word]

/-! ### Decoding -/

/-- The bytes of a file from a position on, if there are so many. -/
def slice (bytes : ByteArray) (position count : Nat) : Except RecordFault ByteArray :=
  if position + count ≤ bytes.size then .ok (bytes.extract position (position + count))
  else .error ⟨position, .tooShort count (bytes.size - position)⟩

/-- The number in the four bytes at a position. -/
def wordAt (bytes : ByteArray) (position : Nat) : Except RecordFault Nat :=
  (slice bytes position 4).map fun found => toNat found.data.toList

/-- A number in four bytes, read as one that may be negative. -/
def signed (n : Nat) : Int := if n < signedRange then n else (n : Int) - wordRange

/-- The text whose length stands at a position, and the position behind it. -/
def textAt (bytes : ByteArray) (position : Nat) : Except RecordFault (String × Nat) := do
  let length ← wordAt bytes position
  let content ← slice bytes (position + 4) length
  match Utf8.decode content with
  | .ok s => .ok (s, position + 4 + length)
  | .error defect => .error ⟨position, .notText defect⟩

end Bitext.Bytes
