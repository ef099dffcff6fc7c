import ScopeLang.Text

namespace ScopeLang

/-!
# Spans and positions

A span is a half-open range of byte offsets in the UTF-8 form of a source
text. A position is the one-based line and column, counted in characters, that
an offset stands for.
-/

/-- A half-open byte range of a source text. -/
structure Span where
  start : UInt32
  stop : UInt32
  deriving Repr, DecidableEq, Inhabited

namespace Span

/-- A byte offset as 32 bits; larger offsets become the largest one. -/
def clamp (offset : Nat) : UInt32 :=
  UInt32.ofNat (min offset (UInt32.size - 1))

/-- The span between two byte offsets of any size. -/
def ofRange (start stop : Nat) : Span :=
  ⟨clamp start, clamp stop⟩

/-- The empty span at an offset. -/
def point (offset : Nat) : Span :=
  ofRange offset offset

/-- The number of bytes covered; a reversed span covers none. -/
def length (span : Span) : Nat :=
  span.stop.toNat - span.start.toNat

/-- Whether no byte is covered. -/
def isEmpty (span : Span) : Bool :=
  span.length == 0

/-- Both offsets, as token listings show them. -/
def describe (span : Span) : String :=
  Text.Decimal.ofNat span.start.toNat ++ ".." ++ Text.Decimal.ofNat span.stop.toNat

/-- An offset below the limit is kept. -/
theorem toNat_clamp
    {offset : Nat}
    (bound : offset < UInt32.size) :
    (clamp offset).toNat = offset := by
  have kept : min offset (UInt32.size - 1) = offset :=
    Nat.min_eq_left (Nat.le_sub_one_of_lt bound)
  rw [clamp, kept]
  exact UInt32.toNat_ofNat_of_lt' bound

end Span

namespace Text

/-- The number of bytes that characters take in UTF-8. -/
def byteLength (characters : List Char) : Nat :=
  characters.foldr (fun c bytes => c.utf8Size + bytes) 0

/-- The leading characters that take exactly so many bytes, if some do. -/
def leadingBytes? : Nat → List Char → Option (List Char)
  | 0, _ => some []
  | _ + 1, [] => none
  | bytes + 1, c :: rest =>
      if c.utf8Size ≤ bytes + 1 then
        (leadingBytes? (bytes + 1 - c.utf8Size) rest).map (c :: ·)
      else
        none

end Text

/-- A one-based line and column. -/
structure Position where
  line : Nat
  column : Nat
  deriving Repr, DecidableEq, Inhabited

namespace Position

/-- The position that is reached after reading some characters. -/
def after (read : List Char) : Position where
  line := read.count '\n' + 1
  column := (read.reverse.takeWhile (· != '\n')).length + 1

end Position

/--
The position at which a span starts. A start beyond the source, or inside a
character, stands for the end of the source.
-/
def Span.position (span : Span) (source : List Char) : Position :=
  Position.after ((Text.leadingBytes? span.start.toNat source).getD source)

end ScopeLang
