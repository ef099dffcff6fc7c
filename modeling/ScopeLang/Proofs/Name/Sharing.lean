import Mathlib.Data.List.Nodup
import Mathlib.Logic.Relator
import ScopeLang.Name
import ScopeLang.Proofs.Ast.Renaming

namespace ScopeLang

/-!
# Name tables that share texts

A name table grows at its end and keeps its texts distinct. When two tables take
in the same texts, one of them from a larger stock, the names they give out
differ, but names of one text correspond to each other, one to one.
-/

/-- A name is determined by its position. -/
theorem Name.eq_of_index_eq
    {name other : Name}
    (same : name.index = other.index) :
    name = other := by
  obtain ⟨raw⟩ := name
  obtain ⟨otherRaw⟩ := other
  exact congrArg Name.mk (UInt32.toNat_inj.mp same)

/-- A name is the name of its position. -/
theorem Name.ofIndex_index (name : Name) :
    ofIndex name.index = name :=
  eq_of_index_eq (index_ofIndex name.raw.toNat_lt)

namespace NameTable

/-! ## Both sides of a table -/

/-- Of distinct texts, each is found with the name of its position. -/
theorem nameOf?_of_getElem?
    {names : NameTable}
    {text : String}
    {name : Name}
    (distinct : names.texts.Nodup)
    (here : names.texts[name.index]? = some text) :
    names.nameOf? text = some name := by
  obtain ⟨inside, atIndex⟩ := List.getElem?_eq_some_iff.mp here
  refine nameOf?_eq_some_iff.mpr ⟨name.index, ?_, name.ofIndex_index⟩
  refine List.idxOf?_eq_some_iff.mpr ⟨inside, atIndex, fun earlier less same => ?_⟩
  have sameIndex := distinct.getElem_inj_iff.mp (same.trans atIndex.symm)
  omega

/-- A known text stands at the position of its name, if there are names enough. -/
theorem getElem?_of_nameOf?
    {names : NameTable}
    {text : String}
    {name : Name}
    (room : names.size ≤ UInt32.size)
    (known : names.nameOf? text = some name) :
    names.texts[name.index]? = some text := by
  obtain ⟨index, found, rfl⟩ := nameOf?_eq_some_iff.mp known
  obtain ⟨inside, here, -⟩ := List.idxOf?_eq_some_iff.mp found
  rw [Name.index_ofIndex (Nat.lt_of_lt_of_le inside room), List.getElem?_eq_getElem inside, here]

/-- A text that was taken in is known by the name that it got. -/
theorem nameOf?_intern (names : NameTable) (text : String) :
    (names.intern text).2.nameOf? text = some (names.intern text).1 := by
  cases found : names.nameOf? text with
  | some name =>
      rw [intern_of_known found]
      exact found
  | none =>
      rw [intern_of_new found]
      exact List.lookup_cons_self

/-- A text that is known keeps its name. -/
theorem nameOf?_intern_of_known
    {names : NameTable}
    {other : String}
    {name : Name}
    (known : names.nameOf? other = some name)
    (text : String) :
    (names.intern text).2.nameOf? other = some name := by
  cases found : names.nameOf? text with
  | some =>
      rw [intern_of_known found]
      exact known
  | none =>
      have different : other ≠ text := by
        rintro rfl
        cases found.symm.trans known
      rw [intern_of_new found, nameOf?, push, List.lookup_cons, beq_false_of_ne different]
      exact known

/-! ## Growth -/

/-- A known text leaves the table as it is, and a new one enters at the end. -/
theorem intern_cases (names : NameTable) (text : String) :
    (text ∈ names.texts ∧ (names.intern text).2 = names) ∨
      (text ∉ names.texts ∧ (names.intern text).2.texts = names.texts ++ [text]) := by
  cases found : names.nameOf? text with
  | some name =>
      have known : text ∈ names.texts := by
        by_contra absent
        cases (nameOf?_eq_none_iff.mpr absent).symm.trans found
      rw [intern_of_known found]
      exact .inl ⟨known, rfl⟩
  | none =>
      rw [intern_of_new found]
      exact .inr ⟨nameOf?_eq_none_iff.mp found, rfl⟩

/-- The texts that were known keep their positions. -/
theorem prefix_intern (names : NameTable) (text : String) :
    names.texts <+: (names.intern text).2.texts := by
  rcases names.intern_cases text with ⟨-, same⟩ | ⟨-, grown⟩
  · exact ⟨[], by rw [same, List.append_nil]⟩
  · rw [grown]
    exact List.prefix_append _ _

/-- Distinct texts stay distinct. -/
theorem nodup_intern
    {names : NameTable}
    (distinct : names.texts.Nodup)
    (text : String) :
    (names.intern text).2.texts.Nodup := by
  rcases names.intern_cases text with ⟨-, same⟩ | ⟨new, grown⟩
  · rw [same]
    exact distinct
  · rw [grown]
    exact distinct.append (List.nodup_singleton text) (List.disjoint_singleton.mpr new)

/-- The text that was taken in is known, and else what was known before. -/
theorem mem_intern_iff
    {names : NameTable}
    {text other : String} :
    other ∈ (names.intern text).2.texts ↔ other ∈ names.texts ∨ other = text := by
  rcases names.intern_cases text with ⟨known, same⟩ | ⟨-, grown⟩
  · rw [same]
    exact ⟨.inl, fun found => found.elim id (· ▸ known)⟩
  · rw [grown]
    simp

/-- A text stands at the position of its name, if the table has room for it. -/
theorem getElem?_intern
    {names : NameTable}
    {text : String}
    (room : (names.intern text).2.size ≤ UInt32.size) :
    (names.intern text).2.texts[(names.intern text).1.index]? = some text :=
  getElem?_of_nameOf? room (names.nameOf?_intern text)

/-- Interning texts one after the other only adds texts at the end. -/
theorem prefix_internAll (names : NameTable) (texts : List String) :
    names.texts <+: (names.internAll texts).texts := by
  induction texts generalizing names with
  | nil =>
      exact List.prefix_rfl
  | cons text texts inductionHypothesis =>
      exact (names.prefix_intern text).trans (inductionHypothesis _)

/-- Interning texts one after the other enters none twice. -/
theorem nodup_internAll
    {names : NameTable}
    (distinct : names.texts.Nodup)
    (texts : List String) :
    (names.internAll texts).texts.Nodup := by
  induction texts generalizing names with
  | nil =>
      exact distinct
  | cons text texts inductionHypothesis =>
      exact inductionHypothesis (nodup_intern distinct text)

/-! ## A table with fewer texts -/

/-- Tables of distinct texts, of which the first has no text that the second has not. -/
structure Within (fewer more : NameTable) : Prop where
  distinct : fewer.texts.Nodup
  moreDistinct : more.texts.Nodup
  known : fewer.texts ⊆ more.texts

namespace Within

variable {fewer more : NameTable}

/-- A table whose texts another one has is no longer than that one. -/
theorem size_le
    (within : fewer.Within more) :
    fewer.size ≤ more.size :=
  within.distinct.length_le_of_subset within.known

/-- Interning a text in both tables keeps one within the other. -/
theorem intern
    (within : fewer.Within more)
    (text : String) :
    (fewer.intern text).2.Within (more.intern text).2 where
  distinct := nodup_intern within.distinct text
  moreDistinct := nodup_intern within.moreDistinct text
  known := by
    intro other member
    rcases mem_intern_iff.mp member with old | rfl
    · exact mem_intern_iff.mpr (.inl (within.known old))
    · exact mem_intern_iff.mpr (.inr rfl)

/-- Interning texts in both tables keeps one within the other. -/
theorem internAll
    (within : fewer.Within more)
    (texts : List String) :
    (fewer.internAll texts).Within (more.internAll texts) := by
  induction texts generalizing fewer more with
  | nil =>
      exact within
  | cons text texts inductionHypothesis =>
      exact inductionHypothesis (within.intern text)

/-- The larger table may grow alone. -/
theorem internAll_more
    (within : fewer.Within more)
    (texts : List String) :
    fewer.Within (more.internAll texts) where
  distinct := within.distinct
  moreDistinct := nodup_internAll within.moreDistinct texts
  known := List.Subset.trans within.known (more.prefix_internAll texts).subset

end Within

/-! ## Names of one text -/

/-- Names of two tables that have the same text there. -/
def Shares (names other : NameTable) : Renaming :=
  fun name otherName =>
    ∃ text,
      names.texts[name.index]? = some text ∧
        other.texts[otherName.index]? = some text

namespace Shares

variable {names other : NameTable}

/-- Shared names have the same text. -/
theorem textOf_eq
    {name otherName : Name}
    (shared : names.Shares other name otherName) :
    names.textOf name = other.textOf otherName := by
  obtain ⟨text, here, there⟩ := shared
  rw [textOf, textOf, here, there]

/-- A text keeps its position while the table grows. -/
theorem getElem?_of_prefix
    {grown : NameTable}
    {text : String}
    {position : Nat}
    (longer : names.texts <+: grown.texts)
    (here : names.texts[position]? = some text) :
    grown.texts[position]? = some text := by
  obtain ⟨added, whole⟩ := longer
  obtain ⟨inside, -⟩ := List.getElem?_eq_some_iff.mp here
  rw [← whole, List.getElem?_append_left inside, here]

/-- Names keep their texts while the tables grow. -/
theorem mono
    {grown otherGrown : NameTable}
    (longer : names.texts <+: grown.texts)
    (otherLonger : other.texts <+: otherGrown.texts)
    (name otherName : Name)
    (shared : names.Shares other name otherName) :
    grown.Shares otherGrown name otherName := by
  obtain ⟨text, here, there⟩ := shared
  exact ⟨text, getElem?_of_prefix longer here, getElem?_of_prefix otherLonger there⟩

/-- Two names of one text are the same name. -/
theorem eq_of_getElem?
    {text : String}
    {name second : Name}
    (distinct : names.texts.Nodup)
    (here : names.texts[name.index]? = some text)
    (there : names.texts[second.index]? = some text) :
    name = second := by
  obtain ⟨inside, -⟩ := List.getElem?_eq_some_iff.mp here
  exact Name.eq_of_index_eq
    ((List.getElem?_inj inside distinct).mp (here.trans there.symm))

/-- Of distinct texts, each belongs to one name. -/
theorem biUnique
    (distinct : names.texts.Nodup)
    (otherDistinct : other.texts.Nodup) :
    Relator.BiUnique (names.Shares other) := by
  constructor
  · rintro name otherName second ⟨text, here, there⟩ ⟨secondText, secondHere, secondThere⟩
    obtain rfl : text = secondText :=
      Option.some.inj (there.symm.trans secondThere)
    exact eq_of_getElem? distinct here secondHere
  · rintro name otherName second ⟨text, here, there⟩ ⟨secondText, secondHere, secondThere⟩
    obtain rfl : text = secondText :=
      Option.some.inj (here.symm.trans secondHere)
    exact eq_of_getElem? otherDistinct there secondThere

/-- The names that two tables give to a text correspond to each other. -/
theorem intern
    {text : String}
    (room : (names.intern text).2.size ≤ UInt32.size)
    (otherRoom : (other.intern text).2.size ≤ UInt32.size) :
    (names.intern text).2.Shares (other.intern text).2 (names.intern text).1
      (other.intern text).1 :=
  ⟨text, getElem?_intern room, getElem?_intern otherRoom⟩

end Shares

end NameTable

end ScopeLang
