/-
Where parts stand in a file.

Both file formats are parts put side by side, and both are read at a position.  What
reader and writer have in common is that a part *stands at* a position: so many bytes in
front of it, then the part, then anything.  Standing somewhere passes from a record to its
parts and is not disturbed by what is written behind, so a decoder is understood part by
part, however long the file has become around the record.
-/
import Mathlib.Algebra.Order.Ring.Nat
import Bitext.Record.Bytes

namespace Bitext.Bytes

/-- The part is what the file has at the position. -/
def StandsAt (file : ByteArray) (position : Nat) (part : ByteArray) : Prop :=
  ∃ front back, file = front ++ part ++ back ∧ front.size = position

namespace StandsAt

variable {file part first second : ByteArray} {position : Nat}

/-- What is written behind does not move a part. -/
theorem append (h : StandsAt file position part) (more : ByteArray) :
    StandsAt (file ++ more) position part := by
  obtain ⟨front, back, rfl, hsize⟩ := h
  exact ⟨front, back ++ more, by simp only [ByteArray.append_assoc], hsize⟩

/-- What is written last stands where the file ended. -/
theorem last (file part : ByteArray) : StandsAt (file ++ part) file.size part :=
  ⟨file, .empty, by simp, rfl⟩

/-- A whole file stands at its start. -/
theorem whole (file : ByteArray) : StandsAt file 0 file := ⟨.empty, .empty, by simp, rfl⟩

/-- The first of two parts stands where both stand. -/
theorem left (h : StandsAt file position (first ++ second)) : StandsAt file position first := by
  obtain ⟨front, back, rfl, hsize⟩ := h
  exact ⟨front, second ++ back, by simp only [ByteArray.append_assoc], hsize⟩

/-- The second of two parts stands behind the first. -/
theorem right (h : StandsAt file position (first ++ second)) :
    StandsAt file (position + first.size) second := by
  obtain ⟨front, back, rfl, hsize⟩ := h
  refine ⟨front ++ first, back, by simp only [ByteArray.append_assoc], ?_⟩
  rw [ByteArray.size_append, hsize]

/-- A part that stands in a file lies inside it. -/
theorem le_size (h : StandsAt file position part) : position + part.size ≤ file.size := by
  obtain ⟨front, back, rfl, hsize⟩ := h
  simp only [ByteArray.size_append]
  omega

/-- Reading as many bytes as a part has gives the part. -/
theorem slice_eq (h : StandsAt file position part) : slice file position part.size = .ok part := by
  have hle := h.le_size
  obtain ⟨front, back, rfl, rfl⟩ := h
  have hskip : (front ++ (part ++ back)).extract (front.size + 0) (front.size + part.size)
      = (part ++ back).extract 0 part.size := ByteArray.extract_append_size_add
  rw [slice, if_pos hle, ByteArray.append_assoc]
  rw [Nat.add_zero, ByteArray.extract_append_eq_left rfl] at hskip
  rw [hskip]

end StandsAt

/-! ### Numbers -/

/-- Reading back what was written gives the number, as far as it fits. -/
theorem toNat_littleEndian (width n : Nat) : toNat (littleEndian width n) = n % 256 ^ width := by
  induction width generalizing n with
  | zero => simp [littleEndian, toNat, Nat.mod_one]
  | succ width ih =>
      have low : (UInt8.ofNat n).toNat = n % 256 := UInt8.toNat_ofNat'
      have split : n % (256 * 256 ^ width) = n % 256 + 256 * (n / 256 % 256 ^ width) :=
        Nat.mod_mul
      rw [littleEndian, toNat, ih, low, ← split, ← Nat.pow_succ']

theorem toNat_word {n : Nat} (h : n < wordRange) : toNat (word n).data.toList = n := by
  unfold word
  rw [List.data_toByteArray, toNat_littleEndian]
  exact Nat.mod_eq_of_lt h

/-- A number that fits is read where it stands. -/
theorem StandsAt.wordAt_eq {file : ByteArray} {position n : Nat}
    (h : StandsAt file position (word n)) (hn : n < wordRange) : wordAt file position = .ok n := by
  have hslice := h.slice_eq
  rw [size_word] at hslice
  rw [wordAt, hslice]
  show Except.ok (toNat (word n).data.toList) = _
  rw [toNat_word hn]

theorem signed_of_lt {n : Nat} (h : n < signedRange) : signed n = n := by
  rw [signed, if_pos h]

/-! ### Texts -/

/-- The bytes of a text behind their number. -/
def text (s : String) : ByteArray := word s.utf8ByteSize ++ s.toUTF8

@[simp] theorem size_text (s : String) : (text s).size = 4 + s.utf8ByteSize := by
  simp [text]

theorem text?_eq (s : String) :
    text? s = if s.utf8ByteSize < wordRange then .ok (text s)
      else .error ⟨.numberTooLarge, [.storingText s.utf8ByteSize]⟩ := rfl

/-- A text that fits is read where it stands. -/
theorem StandsAt.textAt_eq {file : ByteArray} {position : Nat} {s : String}
    (h : StandsAt file position (text s)) (hs : s.utf8ByteSize < wordRange) :
    textAt file position = .ok (s, position + (text s).size) := by
  have hlength : wordAt file position = .ok s.utf8ByteSize := h.left.wordAt_eq hs
  have hcontent : slice file (position + 4) s.utf8ByteSize = .ok s.toUTF8 := by
    have hslice := h.right.slice_eq
    rw [size_word] at hslice
    exact hslice
  simp only [textAt, hlength, hcontent, bind, Except.bind, Utf8.decode_toUTF8]
  rw [size_text, Nat.add_assoc]

end Bitext.Bytes
