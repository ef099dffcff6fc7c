import ScopeLang.Proofs.Token.LongestMatch

namespace ScopeLang

/-!
# Spans tile the source

The spans of the tokens of a source lie one behind the other, on character
boundaries, and what lies between them is spaces and comments. Together with
these they cover every byte of the source exactly once.
-/

namespace Text

theorem utf8ByteSize_ofList (characters : List Char) :
    (String.ofList characters).utf8ByteSize = byteLength characters := by
  induction characters with
  | nil =>
      rfl
  | cons c rest inductionHypothesis =>
      rw [← List.singleton_append, String.ofList_append, String.utf8ByteSize_append,
        inductionHypothesis, ← String.singleton_eq_ofList, String.utf8ByteSize_singleton,
        List.singleton_append, byteLength_cons]

theorem byteLength_toList (text : String) :
    byteLength text.toList = text.utf8ByteSize := by
  rw [← utf8ByteSize_ofList, String.ofList_toList]

theorem byteLength_pos
    {characters : List Char}
    (nonempty : characters ≠ []) :
    0 < byteLength characters := by
  cases characters with
  | nil =>
      exact (nonempty rfl).elim
  | cons c rest =>
      rw [byteLength_cons]
      exact Nat.add_pos_left c.utf8Size_pos _

/-- The byte offsets at which characters begin, and the end of the last one. -/
def IsBoundary (characters : List Char) (offset : Nat) : Prop :=
  ∃ before after, characters = before ++ after ∧ byteLength before = offset

end Text

/-- Whether a byte lies in a span. -/
def Span.Covers (span : Span) (byte : Nat) : Prop :=
  span.start.toNat ≤ byte ∧ byte < span.stop.toNat

/-- Some characters of a source that stand together. -/
structure Stretch (source : List Char) where
  before : List Char
  text : List Char
  after : List Char
  whole : source = before ++ (text ++ after)

namespace Stretch

variable {source : List Char}

/-- The byte offset of the first character. -/
def start (stretch : Stretch source) : Nat :=
  Text.byteLength stretch.before

/-- The byte offset behind the last character. -/
def stop (stretch : Stretch source) : Nat :=
  stretch.start + Text.byteLength stretch.text

/-- A space, or a comment that reaches to the end of its line. -/
def IsSkipped (stretch : Stretch source) : Prop :=
  (∃ c, stretch.text = [c] ∧ isSpacing c = true) ∨
    IsComment stretch.text ∧ EndsLine stretch.after

/-- Whether a stretch has no byte in common with a span. -/
def ApartFrom (stretch : Stretch source) (span : Span) : Prop :=
  span.stop.toNat ≤ stretch.start ∨ stretch.stop ≤ span.start.toNat

end Stretch

/-- Spans that tile a source from a byte offset on. -/
structure Tiles (source : List Char) (offset : Nat) (spans : List Span) : Prop where
  nonempty : ∀ span ∈ spans, span.start.toNat < span.stop.toNat
  /-- Each span ends before all later ones begin. -/
  ordered : spans.Pairwise fun earlier later => earlier.stop.toNat ≤ later.start.toNat
  inside : ∀ span ∈ spans,
    offset ≤ span.start.toNat ∧ span.stop.toNat ≤ Text.byteLength source
  boundaries : ∀ span ∈ spans,
    Text.IsBoundary source span.start.toNat ∧ Text.IsBoundary source span.stop.toNat
  /-- Whatever is not covered belongs to a space or a comment outside of all spans. -/
  skipped : ∀ byte,
    offset ≤ byte →
    byte < Text.byteLength source →
    (∀ span ∈ spans, ¬ span.Covers byte) →
      ∃ stretch : Stretch source,
        stretch.IsSkipped ∧
          (offset ≤ stretch.start ∧ stretch.start ≤ byte ∧ byte < stretch.stop) ∧
            ∀ span ∈ spans, stretch.ApartFrom span

/-- A byte of a space or a comment that lies between two byte offsets. -/
def SkippedWithin (source : List Char) (low high byte : Nat) : Prop :=
  ∃ stretch : Stretch source,
    stretch.IsSkipped ∧
      (low ≤ stretch.start ∧ stretch.start ≤ byte ∧ byte < stretch.stop) ∧ stretch.stop ≤ high

/-- A space or a comment, with more to skip behind it. -/
theorem SkippedWithin.of_front
    {source before text gap rest : List Char}
    {byte : Nat}
    (whole : source = before ++ (text ++ (gap ++ rest)))
    (skipped : Stretch.IsSkipped ⟨before, text, gap ++ rest, whole⟩)
    (lower : Text.byteLength before ≤ byte)
    (behind :
      Text.byteLength (before ++ text) ≤ byte →
        SkippedWithin source (Text.byteLength (before ++ text))
          (Text.byteLength (before ++ text ++ gap)) byte) :
    SkippedWithin source (Text.byteLength before) (Text.byteLength (before ++ text ++ gap))
      byte := by
  rw [Text.byteLength_append _ gap, Text.byteLength_append] at behind ⊢
  by_cases here : byte < Text.byteLength before + Text.byteLength text
  · exact ⟨_, skipped, ⟨Nat.le_refl _, lower, here⟩, Nat.le_add_right _ _⟩
  · obtain ⟨later, laterSkipped, ⟨low, holds⟩, high⟩ := behind (Nat.not_lt.mp here)
    exact ⟨later, laterSkipped, ⟨Nat.le_trans (Nat.le_add_right _ _) low, holds⟩, high⟩

/-- Every byte of a gap belongs to a space or a comment of the gap. -/
theorem Gap.skippedWithin
    {source before gap rest : List Char}
    {byte : Nat}
    (gapped : Gap gap rest)
    (whole : source = before ++ (gap ++ rest))
    (lower : Text.byteLength before ≤ byte)
    (upper : byte < Text.byteLength (before ++ gap)) :
    SkippedWithin source (Text.byteLength before) (Text.byteLength (before ++ gap)) byte := by
  induction gapped generalizing before with
  | nothing =>
      rw [List.append_nil] at upper
      exact (Nat.not_lt.mpr lower upper).elim
  | @space c gap rest spacing _ inductionHypothesis =>
      have split : before ++ c :: gap = before ++ [c] ++ gap := by
        simp
      rw [split] at upper ⊢
      refine .of_front (by simpa using whole) (.inl ⟨c, rfl, spacing⟩) lower fun behind => ?_
      exact inductionHypothesis (by simp [whole]) behind upper
  | @comment text gap rest isComment endsLine _ inductionHypothesis =>
      rw [← List.append_assoc] at upper ⊢
      refine .of_front (by simpa using whole) (.inr ⟨isComment, endsLine⟩) lower fun behind => ?_
      exact inductionHypothesis (by simp [whole]) behind upper

namespace Tiles

/-- A gap up to the end of the source is tiled without a span. -/
theorem finish
    {source before gap : List Char}
    (gapped : Gap gap [])
    (whole : source = before ++ gap) :
    Tiles source (Text.byteLength before) [] where
  nonempty := nofun
  ordered := .nil
  inside := nofun
  boundaries := nofun
  skipped := by
    intro byte lower upper _
    have ended : source = before ++ (gap ++ []) := by
      rw [whole, List.append_nil]
    rw [whole] at upper
    obtain ⟨stretch, skipped, holds, -⟩ := gapped.skippedWithin ended lower upper
    exact ⟨stretch, skipped, holds, nofun⟩

/--
A gap and the span behind it, in front of spans that tile the rest. A byte lies in the gap
in front of the span, in the span, or behind it.
-/
theorem token
    {source before gap text rest : List Char}
    {span : Span}
    {spans : List Span}
    (gapped : Gap gap (text ++ rest))
    (nonempty : text ≠ [])
    (whole : source = before ++ (gap ++ (text ++ rest)))
    (start : span.start.toNat = Text.byteLength (before ++ gap))
    (stop : span.stop.toNat = Text.byteLength (before ++ gap ++ text))
    (tiles : Tiles source span.stop.toNat spans) :
    Tiles source (Text.byteLength before) (span :: spans) := by
  have beforeStart : Text.byteLength before ≤ span.start.toNat := by
    rw [start, Text.byteLength_append]
    exact Nat.le_add_right _ _
  have positive : span.start.toNat < span.stop.toNat := by
    rw [start, stop, Text.byteLength_append (before ++ gap)]
    exact Nat.lt_add_of_pos_right (Text.byteLength_pos nonempty)
  have fits : span.stop.toNat ≤ Text.byteLength source := by
    rw [stop, whole, ← List.append_assoc, ← List.append_assoc, Text.byteLength_append _ rest]
    exact Nat.le_add_right _ _
  constructor
  case nonempty =>
    exact List.forall_mem_cons.mpr ⟨positive, tiles.nonempty⟩
  case ordered =>
    exact .cons (fun later member => (tiles.inside later member).1) tiles.ordered
  case inside =>
    refine List.forall_mem_cons.mpr ⟨⟨beforeStart, fits⟩, fun later member => ?_⟩
    obtain ⟨laterStart, laterFits⟩ := tiles.inside later member
    exact ⟨by omega, laterFits⟩
  case boundaries =>
    refine List.forall_mem_cons.mpr ⟨⟨?_, ?_⟩, tiles.boundaries⟩
    · exact ⟨before ++ gap, text ++ rest, by simp [whole], start.symm⟩
    · exact ⟨before ++ gap ++ text, rest, by simp [whole], stop.symm⟩
  case skipped =>
    intro byte lower upper uncovered
    obtain ⟨notHere, notLater⟩ := List.forall_mem_cons.mp uncovered
    by_cases inGap : byte < span.start.toNat
    · obtain ⟨stretch, skipped, holds, high⟩ :=
        gapped.skippedWithin whole lower (start ▸ inGap)
      rw [← start] at high
      refine ⟨stretch, skipped, holds, ?_⟩
      refine List.forall_mem_cons.mpr ⟨.inr high, fun later member => .inr ?_⟩
      have laterStart := (tiles.inside later member).1
      omega
    · have behind : span.stop.toNat ≤ byte := by
        by_contra covered
        exact notHere ⟨Nat.not_lt.mp inGap, Nat.not_le.mp covered⟩
      obtain ⟨stretch, skipped, ⟨low, holds⟩, apart⟩ :=
        tiles.skipped byte behind upper notLater
      refine ⟨stretch, skipped, ⟨by omega, holds⟩, ?_⟩
      exact List.forall_mem_cons.mpr ⟨.inl low, apart⟩

end Tiles

/-- A longest match has at least one character. -/
theorem LongestMatch.ne_nil
    {characters text : List Char}
    (matched : LongestMatch characters text) :
    text ≠ [] := by
  cases matched with
  | lexeme _ lexeme =>
      exact lexeme.ne_nil
  | stray =>
      exact List.cons_ne_nil _ _

/-- What is scanned ends with the end mark, and the spans before the mark tile the source. -/
theorem Scanned.tiles
    {names : NameTable}
    {source characters : List Char}
    {offset : Nat}
    {tokens : List Token}
    (short : Text.byteLength source < UInt32.size)
    (scanned : Scanned names offset characters tokens) :
    ∀ {before : List Char},
      source = before ++ characters →
      offset = Text.byteLength before →
        ∃ inner,
          tokens = inner ++ [⟨.endOfInput, Span.point (Text.byteLength source)⟩] ∧
            Tiles source offset (inner.map Token.span) := by
  induction scanned with
  | finish gapped =>
      rintro before whole rfl
      refine ⟨[], ?_, .finish gapped whole⟩
      rw [whole, Text.byteLength_append]
      rfl
  | @token offset start stop gap text rest kind tokens gapped matched _ atStart atStop _
      inductionHypothesis =>
      rintro before whole rfl
      rw [← Text.byteLength_append] at atStart
      rw [atStart, ← Text.byteLength_append] at atStop
      have split : source = before ++ gap ++ text ++ rest := by
        simp [whole]
      obtain ⟨inner, shape, tiles⟩ := inductionHypothesis split atStop
      have bound : stop ≤ Text.byteLength source := by
        rw [split, Text.byteLength_append _ rest, atStop]
        exact Nat.le_add_right _ _
      have order : start ≤ stop := by
        rw [atStart, atStop, Text.byteLength_append _ text]
        exact Nat.le_add_right _ _
      have startKept : (Span.clamp start).toNat = start :=
        Span.toNat_clamp (by omega)
      have stopKept : (Span.clamp stop).toNat = stop :=
        Span.toNat_clamp (by omega)
      refine ⟨⟨kind, Span.ofRange start stop⟩ :: inner, by rw [shape]; rfl, ?_⟩
      refine .token gapped matched.ne_nil whole (startKept.trans atStart)
        (stopKept.trans atStop) ?_
      show Tiles source (Span.clamp stop).toNat (inner.map Token.span)
      rw [stopKept]
      exact tiles

namespace Token

/--
A source shorter than 2^32 bytes is tiled: behind the last token stands the only end
mark, at the end of the source, and the spans of the other tokens and the spaces and
comments between them share out its bytes.
-/
theorem lex_spans_tile
    (source : String)
    (names : NameTable)
    (short : source.utf8ByteSize < UInt32.size) :
    ∃ tokens finish,
      (lex source names).1 = tokens ++ [finish] ∧
        (∀ token ∈ tokens, token.kind ≠ .endOfInput) ∧
          (finish.kind = .endOfInput ∧
            finish.span.start.toNat = source.utf8ByteSize ∧
              finish.span.stop.toNat = source.utf8ByteSize) ∧
            Tiles source.toList 0 (tokens.map Token.span) := by
  rw [← Text.byteLength_toList] at short ⊢
  obtain ⟨tokens, shape, tiles⟩ :=
    (scanned_ofCharacters 0 names source.toList).tiles short
      (List.nil_append source.toList).symm rfl
  have tokensEq : (ofCharacters 0 names source.toList).1 = tokens :=
    List.append_inj_left' shape rfl
  refine ⟨tokens, ⟨.endOfInput, Span.point (Text.byteLength source.toList)⟩, ?_, ?_, ?_, tiles⟩
  · rw [lex_eq, tokensEq]
  · intro token member
    rw [← tokensEq] at member
    exact kind_ne_endOfInput_of_mem_inside member
  · exact ⟨rfl, Span.toNat_clamp short, Span.toNat_clamp short⟩

/-- A comment with a stray character of three bytes behind it. -/
theorem lex_spans_tile_stray_character :
    "x# y\n€".utf8ByteSize < UInt32.size ∧
      (lex "x# y\n€" .initial).1 =
          [⟨.ident ⟨1⟩, ⟨0, 1⟩⟩, ⟨.invalid, ⟨5, 8⟩⟩, ⟨.endOfInput, ⟨8, 8⟩⟩] ∧
        Tiles "x# y\n€".toList 0 [⟨0, 1⟩, ⟨5, 8⟩] := by
  have short : "x# y\n€".utf8ByteSize < UInt32.size := by
    decide
  have read :
      (lex "x# y\n€" .initial).1 =
        [⟨.ident ⟨1⟩, ⟨0, 1⟩⟩, ⟨.invalid, ⟨5, 8⟩⟩, ⟨.endOfInput, ⟨8, 8⟩⟩] := by
    decide +kernel
  obtain ⟨tokens, finish, shape, -, -, tiles⟩ := lex_spans_tile "x# y\n€" .initial short
  have tokensEq : [⟨.ident ⟨1⟩, ⟨0, 1⟩⟩, ⟨.invalid, ⟨5, 8⟩⟩] = tokens :=
    List.append_inj_left' (read.symm.trans shape) rfl
  rw [← tokensEq] at tiles
  exact ⟨short, read, tiles⟩

end Token

end ScopeLang
