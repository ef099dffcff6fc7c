import Mathlib.Data.List.DropRight
import ScopeLang.Text

namespace ScopeLang.Text

/-!
# Trimming

What trimming takes away are the blanks at both ends and nothing else. So text with
blanks around it is recovered, whatever of these was cut off before.
-/

/-- Trimming takes away nothing but blanks. -/
theorem count_trimBlanks
    {c : Char}
    (visible : isBlank c = false)
    (characters : List Char) :
    (trimBlanks characters).count c = characters.count c := by
  have dropped (some : List Char) : (some.dropWhile isBlank).count c = some.count c := by
    induction some with
    | nil =>
        rfl
    | cons first rest inductionHypothesis =>
        by_cases blank : isBlank first = true
        · have different : first ≠ c := by
            rintro rfl
            exact nomatch blank.symm.trans visible
          rw [List.dropWhile_cons_of_pos blank, inductionHypothesis,
            List.count_cons_of_ne different]
        · rw [List.dropWhile_cons_of_neg blank]
  rw [trimBlanks, dropEndWhile, List.count_reverse, dropped, List.count_reverse, dropped]

/-- Characters to be dropped do not hide what stands in front of them. -/
theorem dropEndWhile_append_of_forall
    {drop : Char → Bool}
    {trail : List Char}
    (dropped : ∀ c ∈ trail, drop c = true)
    (characters : List Char) :
    dropEndWhile drop (characters ++ trail) = dropEndWhile drop characters := by
  have droppedReversed : ∀ c ∈ trail.reverse, drop c = true := by
    simpa using dropped
  rw [dropEndWhile, List.reverse_append, List.dropWhile_append_of_pos droppedReversed,
    dropEndWhile]

/-- Blanks at the end make no difference to what is left after trimming. -/
theorem trimBlanks_append_blanks
    {trail : List Char}
    (blank : ∀ c ∈ trail, isBlank c = true)
    (characters : List Char) :
    trimBlanks (characters ++ trail) = trimBlanks characters := by
  rw [trimBlanks, trimBlanks, List.dropWhile_append]
  split
  · rename_i nothing
    rw [List.isEmpty_iff.mp nothing, List.dropWhile_eq_nil_iff.mpr blank]
  · exact dropEndWhile_append_of_forall blank _

/-- It does not matter whether some of the blanks at the end were dropped before. -/
theorem trimBlanks_dropEndWhile
    {drop : Char → Bool}
    (narrower : ∀ c, drop c = true → isBlank c = true)
    (characters : List Char) :
    trimBlanks (dropEndWhile drop characters) = trimBlanks characters := by
  have split :
      dropEndWhile drop characters ++ (characters.reverse.takeWhile drop).reverse = characters := by
    rw [dropEndWhile, ← List.reverse_append, List.takeWhile_append_dropWhile,
      List.reverse_reverse]
  have blank : ∀ c ∈ (characters.reverse.takeWhile drop).reverse, isBlank c = true := by
    intro c member
    exact narrower c (List.mem_takeWhile_imp (List.mem_reverse.mp member))
  rw [← trimBlanks_append_blanks blank, split]

/-- Text without blanks is what is left of it and any blanks around it. -/
theorem trimBlanks_eq_of_blanks_around
    {lead text trail : List Char}
    (leadBlank : ∀ c ∈ lead, isBlank c = true)
    (visible : ∀ c ∈ text, isBlank c = false)
    (trailBlank : ∀ c ∈ trail, isBlank c = true) :
    trimBlanks (lead ++ text ++ trail) = text := by
  have kept : text.dropWhile isBlank = text := by
    rw [List.dropWhile_eq_self_iff]
    intro some
    simp [visible]
  have keptReversed : text.reverse.dropWhile isBlank = text.reverse := by
    rw [List.dropWhile_eq_self_iff]
    intro some
    simp [visible]
  rw [trimBlanks_append_blanks trailBlank, trimBlanks, List.dropWhile_append_of_pos leadBlank,
    kept, dropEndWhile, keptReversed, List.reverse_reverse]

end ScopeLang.Text
