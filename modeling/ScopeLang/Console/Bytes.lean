import ScopeLang.Console

namespace ScopeLang

/-!
# Input as bytes

The lines of a stream of bytes, and the text of a file. A line ends with its
line feed; what follows the last line feed is a line when it is not empty.
-/

/-- The byte that ends a line. -/
def lineFeed : UInt8 :=
  10

/-- Bytes cut behind every line feed. -/
def splitLines : List UInt8 → List (List UInt8)
  | [] => []
  | byte :: rest =>
      if byte = lineFeed then
        [byte] :: splitLines rest
      else
        match splitLines rest with
        | [] => [[byte]]
        | line :: lines => (byte :: line) :: lines

/-- No byte is lost in cutting. -/
theorem flatten_splitLines (bytes : List UInt8) :
    (splitLines bytes).flatten = bytes := by
  induction bytes with
  | nil => rfl
  | cons byte rest inductionHypothesis =>
      unfold splitLines
      split
      · simp [inductionHypothesis]
      · split <;> simp_all

/-- The line that bytes spell in UTF-8. -/
def Line.ofBytes (bytes : ByteArray) : Line :=
  match String.fromUTF8? bytes with
  | some content => .text content
  | none => .malformed

/-- The lines that a stream of bytes holds. -/
def Input.ofBytes (bytes : ByteArray) : Input :=
  .waiting ((splitLines bytes.toList).map fun line => .ofBytes ⟨line.toArray⟩)

end ScopeLang
