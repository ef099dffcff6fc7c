import ScopeLang.Proofs.Diagnostic.Lines

namespace ScopeLang

/-!
# Positions in order

Every character that is read leads to a later position: a line break to the beginning of the
next line, and any other character to the next column. Positions are therefore in the order of
their byte offsets, and the position of a character tells its offset.
-/

namespace Position

/-- One position comes before another: on an earlier line, or earlier on the same line. -/
def Precedes (first second : Position) : Prop :=
  first.line < second.line ∨ first.line = second.line ∧ first.column < second.column

namespace Precedes

variable {first second third : Position}

/-- A position precedes what is preceded by a later one. -/
theorem trans
    (earlier : first.Precedes second)
    (later : second.Precedes third) :
    first.Precedes third := by
  unfold Precedes at *
  omega

/-- A position does not precede itself. -/
theorem ne (earlier : first.Precedes second) :
    first ≠ second := by
  rintro rfl
  unfold Precedes at earlier
  omega

/-- Of two positions, at most one precedes the other. -/
theorem asymm (earlier : first.Precedes second) :
    ¬ second.Precedes first :=
  fun later => (earlier.trans later).ne rfl

end Precedes

/-! ## Reading on -/

/-- Behind a line break one is at the beginning of the next line. -/
theorem after_concat_lineBreak (read : List Char) :
    after (read ++ ['\n']) = ⟨(after read).line + 1, 1⟩ := by
  simp [after]

/-- Behind any other character one is a column further on. -/
theorem after_concat_of_ne
    {c : Char}
    (different : c ≠ '\n')
    (read : List Char) :
    after (read ++ [c]) = ⟨(after read).line, (after read).column + 1⟩ := by
  simp [after, different]

/-- Every character moves the position onward. -/
theorem precedes_after_concat (read : List Char) (c : Char) :
    (after read).Precedes (after (read ++ [c])) := by
  by_cases lineBreak : c = '\n'
  · rw [lineBreak, after_concat_lineBreak]
    exact .inl (Nat.lt_succ_self _)
  · rw [after_concat_of_ne lineBreak]
    exact .inr ⟨rfl, Nat.lt_succ_self _⟩

/-- Whatever is read on leads to a later position. -/
theorem precedes_after_append (read : List Char) (c : Char) (more : List Char) :
    (after read).Precedes (after (read ++ c :: more)) := by
  induction more generalizing read c with
  | nil =>
      exact precedes_after_concat read c
  | cons next more inductionHypothesis =>
      have further := inductionHypothesis (read ++ [c]) next
      rw [List.append_assoc, List.singleton_append] at further
      exact (precedes_after_concat read c).trans further

end Position

namespace Span

/--
Two spans that start at character boundaries have their positions in the order of the
starts. Of two beginnings of the source the one with fewer bytes is the beginning of the
other.
-/
theorem position_precedes
    {source : List Char}
    {first second : Span}
    (atFirst : Text.IsBoundary source first.start.toNat)
    (atSecond : Text.IsBoundary source second.start.toNat)
    (earlier : first.start < second.start) :
    (first.position source).Precedes (second.position source) := by
  obtain ⟨before, after, whole, start⟩ := atFirst
  obtain ⟨longer, rest, otherWhole, otherStart⟩ := atSecond
  have bytes : Text.byteLength before < Text.byteLength longer := by
    rw [start, otherStart]
    exact UInt32.lt_iff_toNat_lt.mp earlier
  have firstPosition := position_append start.symm after
  have secondPosition := position_append otherStart.symm rest
  rw [← whole] at firstPosition
  rw [← otherWhole] at secondPosition
  rw [firstPosition, secondPosition]
  rcases List.append_eq_append_iff.mp (whole.symm.trans otherWhole) with
    ⟨more, rfl, -⟩ | ⟨more, rfl, -⟩
  · cases more with
    | nil =>
        simp at bytes
    | cons c more =>
        exact Position.precedes_after_append before c more
  · rw [Text.byteLength_append] at bytes
    omega

/--
Positions identify the character boundaries of a source. In the order of lines, and of columns
within a line, they come in the order of the byte offsets, so different offsets never share a
position. Lines and columns are counted from one.
-/
theorem position_precedes_iff
    (source : String)
    (first second : Span)
    (atFirst : Text.IsBoundary source.toList first.start.toNat)
    (atSecond : Text.IsBoundary source.toList second.start.toNat) :
    ((first.position source.toList).Precedes (second.position source.toList) ↔
        first.start < second.start) ∧
      (first.position source.toList = second.position source.toList ↔
          first.start = second.start) ∧
        1 ≤ (first.position source.toList).line ∧
          1 ≤ (first.position source.toList).column := by
  have positive :
      1 ≤ (first.position source.toList).line ∧ 1 ≤ (first.position source.toList).column :=
    ⟨Nat.succ_pos _, Nat.succ_pos _⟩
  rcases Std.lt_trichotomy first.start second.start with less | equal | greater
  · have precedes := position_precedes atFirst atSecond less
    exact ⟨iff_of_true precedes less, iff_of_false precedes.ne (UInt32.ne_of_lt less), positive⟩
  · have same : first.position source.toList = second.position source.toList := by
      rw [position, position, equal]
    have notLess : ¬ first.start < second.start := by
      rw [equal]
      exact UInt32.lt_irrefl _
    have notBefore : ¬ (first.position source.toList).Precedes (second.position source.toList) :=
      fun precedes => precedes.ne same
    exact ⟨iff_of_false notBefore notLess, iff_of_true same equal, positive⟩
  · have precedes := position_precedes atSecond atFirst greater
    exact
      ⟨iff_of_false precedes.asymm (UInt32.lt_asymm greater),
        iff_of_false precedes.ne.symm (UInt32.ne_of_lt greater).symm, positive⟩

/-- An empty line in front, and the end of the source behind a character of three bytes. -/
theorem position_precedes_iff_empty_line :
    let source := "é\r\n\n€"
    let first : Span := ⟨4, 4⟩
    let second : Span := ⟨8, 8⟩
    Text.IsBoundary source.toList first.start.toNat ∧
      Text.IsBoundary source.toList second.start.toNat ∧
        first.position source.toList = ⟨2, 1⟩ ∧
          second.position source.toList = ⟨3, 2⟩ ∧
            (first.position source.toList).Precedes (second.position source.toList) := by
  intro source first second
  have atFirst : Text.IsBoundary source.toList first.start.toNat :=
    ⟨['é', '\r', '\n'], ['\n', '€'], by decide, by decide⟩
  have atSecond : Text.IsBoundary source.toList second.start.toNat :=
    ⟨['é', '\r', '\n', '\n', '€'], [], by decide, by decide⟩
  have precedes := (position_precedes_iff source first second atFirst atSecond).1.mpr (by decide)
  exact ⟨atFirst, atSecond, by decide +kernel, by decide +kernel, precedes⟩

end Span

end ScopeLang
