/-
The lines of a text file.

A file is cut at its line feeds.  What stands behind the last line feed is a line too,
unless nothing stands there.  A line feed takes a carriage return before it along, and
one more carriage return at the end of the line is removed whether a line feed followed
or not; so files with either kind of line ends read alike, and a file that was converted
twice still does.

A line is text or it is not: a line that is no UTF-8 is found out when it is reached, and
not before.  A folder can be opened like a file, and then its first line cannot be read.
-/
import Bitext.Disk.Basic

namespace Bitext.TextLines

/-- The byte of a line feed. -/
def lineFeed : UInt8 := 10

/-- The byte of a carriage return. -/
def carriageReturn : UInt8 := 13

/-- A line before it is known to be text, and whether a line feed ended it. -/
structure RawLine where
  bytes : List UInt8
  ended : Bool
  deriving DecidableEq, Repr

/-- The pieces between line feeds as lines. -/
def ofPieces : List (List UInt8) → List RawLine
  | [] => []
  | [last] => if last.isEmpty then [] else [⟨last, false⟩]
  | piece :: rest => ⟨piece, true⟩ :: ofPieces rest

/-- The lines of a file. -/
def cut (bytes : List UInt8) : List RawLine := ofPieces (bytes.splitOn lineFeed)

/-- Bytes without a carriage return at their end. -/
def dropReturn (bytes : List UInt8) : List UInt8 :=
  if bytes.getLast? = some carriageReturn then bytes.dropLast else bytes

/-- The content of a line: the carriage return of its line feed and one more are not part
of it. -/
def RawLine.content (line : RawLine) : List UInt8 :=
  dropReturn (if line.ended then dropReturn line.bytes else line.bytes)

/-- The text of a line. -/
def RawLine.text (line : RawLine) : Except Cause String :=
  match String.fromUTF8? line.content.toByteArray with
  | some text => .ok text
  | none => .error .lineNotText

/-- The lines of what was opened, each as text or with the reason why it is none. -/
def ofNode : Node → List (Except Cause String)
  | .folder => [.error (.system .isAFolder)]
  | .file bytes => (cut bytes.data.toList).map RawLine.text

end Bitext.TextLines
