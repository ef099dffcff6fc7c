import Mathlib.Data.List.Basic
import ScopeLang.Ast.Tree

namespace ScopeLang

/-!
# Drawings show their trees

A drawing can be read back. Its lines are its rows, since no label has a line
break, and the rows show the trees: a margin separates what hangs below a node
from the node's siblings, and a branch says whether a node is the last of them.
-/

namespace Tree

/-- A list is divided in one way only at the place where a condition first fails. -/
theorem append_inj_of_takeWhile
    {α : Type}
    (holds : α → Bool)
    {first second rest otherRest : List α}
    (throughout : ∀ entry ∈ first, holds entry = true)
    (otherThroughout : ∀ entry ∈ second, holds entry = true)
    (stops : rest.takeWhile holds = [])
    (otherStops : otherRest.takeWhile holds = [])
    (same : first ++ rest = second ++ otherRest) :
    first = second ∧ rest = otherRest := by
  have sameStart := congrArg (List.takeWhile holds) same
  rw [List.takeWhile_append_of_pos throughout, List.takeWhile_append_of_pos otherThroughout,
    stops, otherStops, List.append_nil, List.append_nil] at sameStart
  subst sameStart
  exact ⟨rfl, List.append_cancel_left same⟩

/-! ## Rows -/

/-- A branch shows whether a node is the last of its siblings, and its label follows. -/
theorem branch_append_inj
    {last otherLast : Bool}
    {label otherLabel : String}
    (same :
      (if last then "└── " else "├── ") ++ label =
        (if otherLast then "└── " else "├── ") ++ otherLabel) :
    last = otherLast ∧ label = otherLabel := by
  cases last <;> cases otherLast <;> simp_all [← String.toList_inj]

mutual

/-- Every row of a tree has the margin in front. -/
theorem margin_prefix_of_mem_rows
    {margin row : String}
    {last : Bool} :
    {tree : Tree} →
      row ∈ rows margin last tree →
      margin.toList <+: row.toList
  | .node label children, member => by
      rw [rows] at member
      rcases List.mem_cons.mp member with rfl | below
      · simp [List.append_assoc]
      · have longer := margin_prefix_of_mem_rowsOfAll below
        rw [String.toList_append] at longer
        exact (List.prefix_append _ _).trans longer

/-- Every row of the trees on a margin begins with the margin. -/
theorem margin_prefix_of_mem_rowsOfAll
    {margin row : String} :
    {trees : List Tree} →
      row ∈ rowsOfAll margin trees →
      margin.toList <+: row.toList
  | [], member => by
      simp [rowsOfAll] at member
  | tree :: rest, member => by
      rw [rowsOfAll] at member
      rcases List.mem_append.mp member with own | later
      · exact margin_prefix_of_mem_rows own
      · exact margin_prefix_of_mem_rowsOfAll later

end

/-- The rows of siblings do not have the margin of what hangs below one of them. -/
theorem takeWhile_rowsOfAll
    (margin : String)
    (last : Bool)
    (trees : List Tree) :
    (rowsOfAll margin trees).takeWhile (fun row =>
        (margin ++ (if last then "    " else "│   ")).toList.isPrefixOf row.toList) =
      [] := by
  match trees with
  | [] =>
      rfl
  | .node label children :: rest =>
      rw [rowsOfAll, rows, List.cons_append, List.takeWhile_cons_of_neg]
      rw [List.isPrefixOf_iff_prefix, String.append_assoc, String.toList_append,
        String.toList_append, List.prefix_append_right_inj]
      cases last <;> cases rest.isEmpty <;> simp

/--
The rows on a margin show the trees that hang on it. All rows below a node keep the margin
that its branch leaves, and the row of the next sibling does not, so the rows are divided at
the same place.
-/
theorem rowsOfAll_inj
    {margin : String} :
    {trees others : List Tree} →
      rowsOfAll margin trees = rowsOfAll margin others →
      trees = others
  | [], [], _ =>
      rfl
  | [], .node _ _ :: _, same => by
      simp [rowsOfAll, rows] at same
  | .node _ _ :: _, [], same => by
      simp [rowsOfAll, rows] at same
  | .node label children :: rest, .node otherLabel otherChildren :: others, same => by
      simp only [rowsOfAll, rows, List.cons_append, List.cons.injEq, String.append_assoc,
        String.append_right_inj] at same
      obtain ⟨sameRow, sameBelow⟩ := same
      obtain ⟨sameLast, rfl⟩ := branch_append_inj sameRow
      rw [← sameLast] at sameBelow
      obtain ⟨sameChildren, sameRest⟩ :=
        append_inj_of_takeWhile _
          (fun _ below => List.isPrefixOf_iff_prefix.mpr (margin_prefix_of_mem_rowsOfAll below))
          (fun _ below => List.isPrefixOf_iff_prefix.mpr (margin_prefix_of_mem_rowsOfAll below))
          (takeWhile_rowsOfAll margin rest.isEmpty rest)
          (takeWhile_rowsOfAll margin rest.isEmpty others)
          sameBelow
      rw [rowsOfAll_inj sameChildren, rowsOfAll_inj sameRest]

/-! ## Lines -/

mutual

/-- Trees whose labels have no line break. -/
inductive OneLine : Tree → Prop where
  | node {label children} :
      '\n' ∉ label.toList →
      AllOneLine children →
      OneLine (.node label children)

/-- Siblings whose labels, and those below them, have no line break. -/
inductive AllOneLine : List Tree → Prop where
  | nil :
      AllOneLine []
  | cons {tree rest} :
      OneLine tree →
      AllOneLine rest →
      AllOneLine (tree :: rest)

end

mutual

/-- Rows have no line break, as the margin and the labels have none. -/
theorem OneLine.newline_notMem_rows
    {margin row : String}
    {last : Bool}
    (margined : '\n' ∉ margin.toList) :
    {tree : Tree} →
      tree.OneLine →
      row ∈ rows margin last tree →
      '\n' ∉ row.toList
  | .node label children, .node own below, member => by
      rw [rows] at member
      rcases List.mem_cons.mp member with rfl | member
      · cases last <;> simp [margined, own]
      · refine below.newline_notMem_rowsOfAll ?_ member
        cases last <;> simp [margined]

/-- Trees with labels on one line are drawn with rows on one line. -/
theorem AllOneLine.newline_notMem_rowsOfAll
    {margin row : String}
    (margined : '\n' ∉ margin.toList) :
    {trees : List Tree} →
      AllOneLine trees →
      row ∈ rowsOfAll margin trees →
      '\n' ∉ row.toList
  | [], _, member => by
      simp [rowsOfAll] at member
  | _ :: _, .cons first later, member => by
      rw [rowsOfAll] at member
      rcases List.mem_append.mp member with own | member
      · exact first.newline_notMem_rows margined own
      · exact later.newline_notMem_rowsOfAll margined member

end

/-- Lines are recovered from a text when none of them has a line break inside. -/
theorem lines_inj
    {lines others : List String}
    (unbroken : ∀ line ∈ lines, '\n' ∉ line.toList)
    (otherUnbroken : ∀ line ∈ others, '\n' ∉ line.toList)
    (same :
      String.join (lines.map fun line => line ++ "\n") =
        String.join (others.map fun line => line ++ "\n")) :
    lines = others := by
  rw [← String.toList_inj, String.toList_join, String.toList_join] at same
  induction lines generalizing others with
  | nil =>
      cases others with
      | nil =>
          rfl
      | cons line rest =>
          simp at same
  | cons line lines inductionHypothesis =>
      cases others with
      | nil =>
          simp at same
      | cons other others =>
          obtain ⟨own, later⟩ := List.forall_mem_cons.mp unbroken
          obtain ⟨otherOwn, otherLater⟩ := List.forall_mem_cons.mp otherUnbroken
          simp only [List.map_cons, List.flatMap_cons, String.toList_append,
            List.append_assoc] at same
          obtain ⟨sameLine, sameRest⟩ :=
            append_inj_of_takeWhile (· != '\n')
              (fun c member => bne_iff_ne.mpr fun broken => own (broken ▸ member))
              (fun c member => bne_iff_ne.mpr fun broken => otherOwn (broken ▸ member))
              (by simp) (by simp) same
          rw [String.toList_inj.mp sameLine,
            inductionHypothesis later otherLater (List.append_cancel_left sameRest)]

/-- A drawing shows its trees. -/
theorem draw_inj
    {heading : String}
    {trees others : List Tree}
    (headed : '\n' ∉ heading.toList)
    (oneLine : AllOneLine trees)
    (otherOneLine : AllOneLine others)
    (same : draw heading trees = draw heading others) :
    trees = others := by
  have unbroken
      {hanging : List Tree}
      (hangingOneLine : AllOneLine hanging) :
      ∀ row ∈ heading :: rowsOfAll "" hanging, '\n' ∉ row.toList :=
    List.forall_mem_cons.mpr
      ⟨headed, fun _ => hangingOneLine.newline_notMem_rowsOfAll (by simp)⟩
  have sameRows := lines_inj (unbroken oneLine) (unbroken otherOneLine) same
  exact rowsOfAll_inj (List.cons.inj sameRows).2

end Tree

end ScopeLang
