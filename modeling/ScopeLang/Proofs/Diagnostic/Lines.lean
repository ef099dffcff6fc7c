import Mathlib.Data.List.DropRight
import ScopeLang.Diagnostic
import ScopeLang.Proofs.Token.Tiling

namespace ScopeLang

/-!
# Lines and positions

A position counts line breaks and characters up to an offset, and the line to be shown is
found by cutting off as many lines. Both speak of one line: it begins behind a line break,
it ends at one or with the source, and the column tells how much of it is in front of
the offset.
-/

namespace Text

/--
Where a line ends: with the source or at a line break. A carriage return in front of the
break belongs to the break.
-/
inductive LineEnds (text : List Char) : List Char → Prop where
  | source :
      LineEnds text []
  | lineFeed {rest} :
      text.getLast? ≠ some '\r' →
      LineEnds text ('\n' :: rest)
  | carriageReturn {rest} :
      LineEnds text ('\r' :: '\n' :: rest)

/-- Where a line begins: with the source or behind a line break. -/
def LineBegins (before : List Char) : Prop :=
  before = [] ∨ before.getLast? = some '\n'

end Text

/-- A stretch of the source that is one line, without the line break. -/
structure Stretch.IsLine {source : List Char} (line : Stretch source) : Prop where
  begins : Text.LineBegins line.before
  unbroken : '\n' ∉ line.text
  ends : Text.LineEnds line.text line.after

namespace Text

/-- What comes before a character boundary is found by its number of bytes. -/
theorem leadingBytes?_append (before after : List Char) :
    leadingBytes? (byteLength before) (before ++ after) = some before := by
  induction before with
  | nil =>
      simp [byteLength, leadingBytes?]
  | cons c rest inductionHypothesis =>
      rw [byteLength_cons, List.cons_append]
      obtain ⟨bytes, positive⟩ := Nat.exists_eq_add_one.mpr (Nat.add_pos_left c.utf8Size_pos
        (byteLength rest))
      rw [positive, leadingBytes?, if_pos (by omega), ← positive, Nat.add_sub_cancel_left,
        inductionHypothesis, Option.map_some]

/-- Two beginnings of one text that take as many bytes are the same. -/
theorem eq_of_byteLength_eq
    {first second firstRest secondRest : List Char}
    (whole : first ++ firstRest = second ++ secondRest)
    (sameLength : byteLength first = byteLength second) :
    first = second := by
  have found := leadingBytes?_append first firstRest
  rw [whole, sameLength, leadingBytes?_append] at found
  exact (Option.some.inj found).symm

/-! ## The line at a place -/

/-- The first line goes on to where a line ends. -/
theorem exists_eq_firstLine_append (text : List Char) :
    ∃ rest,
      text = firstLine text ++ rest ∧
        '\n' ∉ firstLine text ∧ LineEnds (firstLine text) rest := by
  have whole : text.takeWhile (· != '\n') ++ text.dropWhile (· != '\n') = text :=
    List.takeWhile_append_dropWhile
  have unbroken : '\n' ∉ text.takeWhile (· != '\n') := fun member => by
    simpa using List.mem_takeWhile_imp member
  have stops := List.head?_dropWhile_not (· != '\n') text
  unfold firstLine
  dsimp only
  generalize text.takeWhile (· != '\n') = line at whole unbroken ⊢
  generalize text.dropWhile (· != '\n') = rest at whole stops
  obtain rfl : line ++ rest = text := whole
  cases rest with
  | nil =>
      rw [List.append_nil, if_neg unbroken]
      exact ⟨[], by simp, unbroken, .source⟩
  | cons c rest =>
      obtain rfl : c = '\n' := by
        simpa using stops
      rw [if_pos (by simp)]
      split
      · rename_i carriage
        obtain ⟨front, rfl⟩ := List.getLast?_eq_some_iff.mp carriage
        rw [List.dropLast_concat]
        refine ⟨'\r' :: '\n' :: rest, by simp, ?_, .carriageReturn⟩
        exact fun member => unbroken (List.mem_append_left _ member)
      · rename_i noCarriage
        exact ⟨'\n' :: rest, rfl, unbroken, .lineFeed noCarriage⟩

/-- Characters without any part of a line break are in the first line. -/
theorem prefix_firstLine
    {front rest : List Char}
    (unbroken : '\n' ∉ front)
    (apart : front.getLast? = some '\r' → rest.head? ≠ some '\n') :
    front <+: firstLine (front ++ rest) := by
  obtain ⟨behind, whole, -, ends⟩ := exists_eq_firstLine_append (front ++ rest)
  have shown : firstLine (front ++ rest) <+: front ++ rest :=
    ⟨behind, whole.symm⟩
  rcases List.prefix_or_prefix_of_prefix (List.prefix_append front rest) shown with inside | less
  · exact inside
  · obtain ⟨more, split⟩ := less
    generalize firstLine (front ++ rest) = line at *
    subst split
    rw [List.append_assoc, List.append_cancel_left_eq] at whole
    cases more with
    | nil =>
        simp
    | cons c more =>
        exfalso
        rw [List.cons_append] at whole
        cases ends with
        | source =>
            cases whole
        | lineFeed =>
            obtain ⟨rfl, -⟩ := List.cons.inj whole
            simp at unbroken
        | carriageReturn =>
            obtain ⟨rfl, later⟩ := List.cons.inj whole
            cases more with
            | nil =>
                rw [List.nil_append] at later
                subst later
                simp at apart
            | cons d more =>
                obtain ⟨rfl, -⟩ := List.cons.inj later
                simp at unbroken

/-- A line break begins the next line. -/
theorem lineAt_cons_lineBreak (count : Nat) (text : List Char) :
    lineAt (count + 1) ('\n' :: text) = lineAt count text := by
  simp [lineAt, afterFirstLine]

/-- A character of the first line makes no difference to those behind. -/
theorem lineAt_cons_of_ne
    {c : Char}
    (different : c ≠ '\n')
    (count : Nat)
    (text : List Char) :
    lineAt (count + 1) (c :: text) = lineAt (count + 1) text := by
  simp [lineAt, afterFirstLine, different]

/-- The line behind as many line breaks as there are before it. -/
theorem lineAt_count
    {before : List Char}
    (begins : LineBegins before)
    (rest : List Char) :
    lineAt (before.count '\n') (before ++ rest) = firstLine rest := by
  induction before with
  | nil =>
      rfl
  | cons c before inductionHypothesis =>
      have lastBreak : (c :: before).getLast? = some '\n' := by
        simpa [LineBegins] using begins
      cases before with
      | nil =>
          obtain rfl : c = '\n' := by
            simpa using lastBreak
          exact lineAt_cons_lineBreak 0 rest
      | cons d before =>
          rw [List.getLast?_cons_cons] at lastBreak
          have later := inductionHypothesis (.inr lastBreak)
          by_cases here : c = '\n'
          · rw [here, List.count_cons_self, List.cons_append, lineAt_cons_lineBreak, later]
          · obtain ⟨count, positive⟩ : ∃ count, (d :: before).count '\n' = count + 1 := by
              refine Nat.exists_eq_add_one.mpr (List.count_pos_iff.mpr ?_)
              exact List.mem_of_getLast? lastBreak
            rw [List.count_cons_of_ne here, List.cons_append]
            rw [positive] at later ⊢
            rw [lineAt_cons_of_ne here, later]

/-- Every place in a source has the beginning of its line in front of it. -/
theorem exists_lineBegins (before : List Char) :
    ∃ above front, before = above ++ front ∧ LineBegins above ∧ '\n' ∉ front := by
  refine ⟨before.rdropWhile (· != '\n'), before.rtakeWhile (· != '\n'),
    List.rdropWhile_append_rtakeWhile.symm, ?_, ?_⟩
  · by_cases nothing : before.rdropWhile (· != '\n') = []
    · exact .inl nothing
    · have last := List.rdropWhile_last_not _ _ nothing
      rw [Bool.not_eq_true, bne_eq_false_iff_eq] at last
      refine .inr ?_
      rw [List.getLast?_eq_some_getLast nothing, last]
  · exact fun member => by simpa using List.mem_rtakeWhile_imp member

end Text

/-- A span that starts at a character boundary has the position that is reached there. -/
theorem Span.position_append
    {span : Span}
    {before : List Char}
    (start : span.start.toNat = Text.byteLength before)
    (after : List Char) :
    span.position (before ++ after) = .after before := by
  rw [position, start, Text.leadingBytes?_append, Option.getD_some]

/-- The position behind so many lines and so many characters of the next one. -/
theorem Position.after_append
    {above front : List Char}
    (begins : Text.LineBegins above)
    (unbroken : '\n' ∉ front) :
    Position.after (above ++ front) = ⟨above.count '\n' + 1, front.length + 1⟩ := by
  have kept : ∀ c ∈ front.reverse, (c != '\n') = true := by
    intro c member
    exact bne_iff_ne.mpr fun same => unbroken (same ▸ List.mem_reverse.mp member)
  have stopped : above.reverse.takeWhile (· != '\n') = [] := by
    rcases begins with rfl | last
    · rfl
    · obtain ⟨lines, rfl⟩ := List.getLast?_eq_some_iff.mp last
      simp
  rw [after, List.count_append, List.count_eq_zero.mpr unbroken, List.reverse_append,
    List.takeWhile_append_of_pos kept, stopped, List.append_nil, List.length_reverse]

/-- The byte offsets of a stretch tell its text. -/
theorem Stretch.text_eq
    {source : List Char}
    {first second : Stretch source}
    (start : first.start = second.start)
    (stop : first.stop = second.stop) :
    first.text = second.text := by
  have sameLength : Text.byteLength first.text = Text.byteLength second.text := by
    rw [Stretch.stop, Stretch.stop, start] at stop
    exact Nat.add_left_cancel stop
  have whole := first.whole.symm.trans second.whole
  have sameBefore := Text.eq_of_byteLength_eq whole start
  rw [sameBefore, List.append_cancel_left_eq] at whole
  exact Text.eq_of_byteLength_eq whole sameLength

/--
A stretch within a line: the line is the one that is found by the position in front of the
stretch, and the column tells how much of the line is there.
-/
theorem Stretch.exists_isLine
    {source : List Char}
    (stretch : Stretch source)
    (unbroken : '\n' ∉ stretch.text)
    (apart :
      (stretch.before ++ stretch.text).getLast? = some '\r' →
        stretch.after.head? ≠ some '\n') :
    ∃ (line : Stretch source) (front behind : List Char),
      line.IsLine ∧
        stretch.before = line.before ++ front ∧
          line.text = front ++ (stretch.text ++ behind) ∧
            Position.after stretch.before =
                ⟨line.before.count '\n' + 1, front.length + 1⟩ ∧
              Text.lineAt (line.before.count '\n') source = line.text := by
  obtain ⟨before, text, after, rfl⟩ := stretch
  obtain ⟨above, front, rfl, begins, noBreak⟩ := Text.exists_lineBegins before
  have within : front ++ text <+: Text.firstLine (front ++ text ++ after) := by
    refine Text.prefix_firstLine ?_ fun carriage => apart ?_
    · simpa using ⟨noBreak, unbroken⟩
    · rw [List.append_assoc, List.getLast?_append, carriage, Option.some_or]
  obtain ⟨behind, split⟩ := within
  obtain ⟨below, whole, lineUnbroken, ends⟩ :=
    Text.exists_eq_firstLine_append (front ++ text ++ after)
  have found := Text.lineAt_count begins (front ++ text ++ after)
  generalize Text.firstLine (front ++ text ++ after) = shown at *
  subst split
  let line : Stretch (above ++ front ++ (text ++ after)) :=
    ⟨above, front ++ text ++ behind, below, by rw [← whole]; simp⟩
  refine ⟨line, front, behind, ⟨begins, lineUnbroken, ends⟩, rfl, ?_, ?_, ?_⟩
  · exact List.append_assoc _ _ _
  · exact Position.after_append begins noBreak
  · have regrouped : above ++ front ++ (text ++ after) = above ++ (front ++ text ++ after) := by
      simp
    exact (congrArg (Text.lineAt _) regrouped).trans found

end ScopeLang
