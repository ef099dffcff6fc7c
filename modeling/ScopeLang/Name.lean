import ScopeLang.Text

namespace ScopeLang

/-!
# Names and the name table

An identifier is represented by its position in a table of distinct texts. The
table only grows, so a name keeps its text for as long as the table lives.
-/

/-- An identifier, as its position in a name table. -/
structure Name where
  raw : UInt32
  deriving Repr, DecidableEq, Inhabited

namespace Name

/-- The name at a position; positions beyond 32 bits share the last name. -/
def ofIndex (index : Nat) : Name :=
  ⟨UInt32.ofNat (min index (UInt32.size - 1))⟩

/-- The table position of a name. -/
def index (name : Name) : Nat :=
  name.raw.toNat

/-- The name shown as its position, for messages without a table at hand. -/
def describe (name : Name) : String :=
  "Name(" ++ Text.Decimal.ofNat name.index ++ ")"

/-- The name of the empty text. -/
def empty : Name :=
  ofIndex 0

/-- A position below the limit is recovered from its name. -/
theorem index_ofIndex
    {index : Nat}
    (bound : index < UInt32.size) :
    (ofIndex index).index = index := by
  have kept : min index (UInt32.size - 1) = index :=
    Nat.min_eq_left (Nat.le_sub_one_of_lt bound)
  rw [ofIndex, kept]
  exact UInt32.toNat_ofNat_of_lt' bound

end Name

/--
The known texts, kept twice: with the name of each, where names are looked up by text, and
in order, where texts are looked up by position.
-/
structure NameTable where
  /-- The known texts with their names, the latest first. -/
  byText : List (String × Name)
  /-- The known texts, each at the position of its name. -/
  texts : List String
  /-- A text is found with the name of the position at which it stands. -/
  agree : ∀ text, byText.lookup text = (texts.idxOf? text).map Name.ofIndex
  deriving Repr, DecidableEq

namespace NameTable

/-- The table that knows the empty text only. -/
def initial : NameTable where
  byText := [("", .empty)]
  texts := [""]
  agree text := by
    by_cases same : text = ""
    · rw [same]
      rfl
    · rw [List.lookup_cons, beq_false_of_ne same, List.idxOf?_cons,
        beq_false_of_ne (Ne.symm same)]
      rfl

instance : Inhabited NameTable :=
  ⟨initial⟩

/-- The number of known texts, the empty one included. -/
def size (names : NameTable) : Nat :=
  names.texts.length

/-- Whether nothing beyond the empty text is known. -/
def isEmpty (names : NameTable) : Bool :=
  names.size ≤ 1

/-- The name of a text, if the text is known. -/
def nameOf? (names : NameTable) (text : String) : Option Name :=
  names.byText.lookup text

/-- The text of a name; a name that is not in the table has the empty text. -/
def textOf (names : NameTable) (name : Name) : String :=
  (names.texts[name.index]?).getD ""

/-- What is not known stands nowhere. -/
theorem nameOf?_eq_none_iff
    {names : NameTable}
    {text : String} :
    names.nameOf? text = none ↔ text ∉ names.texts := by
  rw [nameOf?, names.agree, Option.map_eq_none_iff, List.idxOf?_eq_none_iff]

/-- The name of a known text is that of the position where it stands. -/
theorem nameOf?_eq_some_iff
    {names : NameTable}
    {text : String}
    {name : Name} :
    names.nameOf? text = some name ↔
      ∃ index, names.texts.idxOf? text = some index ∧ Name.ofIndex index = name := by
  rw [nameOf?, names.agree, Option.map_eq_some_iff]

/-- A text that is new on both sides is found where it was added. -/
theorem agree_push
    {names : NameTable}
    {text : String}
    (new : names.nameOf? text = none)
    (other : String) :
    ((text, Name.ofIndex names.size) :: names.byText).lookup other =
      ((names.texts ++ [text]).idxOf? other).map Name.ofIndex := by
  have appended :
      (names.texts ++ [text]).idxOf? other =
        (names.texts.idxOf? other).or (([text].idxOf? other).map (· + names.size)) :=
    List.findIdx?_append
  by_cases same : other = text
  · subst same
    have absent : names.texts.idxOf? other = none :=
      List.idxOf?_eq_none_iff.mpr (nameOf?_eq_none_iff.mp new)
    rw [appended, absent, List.lookup_cons, beq_self_eq_true]
    simp
  · have missing : [text].idxOf? other = none :=
      List.idxOf?_eq_none_iff.mpr fun member => same (List.mem_singleton.mp member)
    rw [appended, missing, Option.map_none, Option.or_none, List.lookup_cons,
      beq_false_of_ne same]
    exact names.agree other

/-- The table with a new text at its end. -/
def push
    (names : NameTable)
    (text : String)
    (new : names.nameOf? text = none) :
    NameTable where
  byText := (text, .ofIndex names.size) :: names.byText
  texts := names.texts ++ [text]
  agree := agree_push new

/-- The name of a text, which enters the table at its end when it is new. -/
def intern (names : NameTable) (text : String) : Name × NameTable :=
  match found : names.nameOf? text with
  | some name => (name, names)
  | none => (.ofIndex names.size, names.push text found)

/-- A known text has its name already. -/
theorem intern_of_known
    {names : NameTable}
    {text : String}
    {name : Name}
    (known : names.nameOf? text = some name) :
    names.intern text = (name, names) := by
  unfold intern
  split <;> simp_all

/-- A new text gets the next free position. -/
theorem intern_of_new
    {names : NameTable}
    {text : String}
    (new : names.nameOf? text = none) :
    names.intern text = (.ofIndex names.size, names.push text new) := by
  unfold intern
  split <;> simp_all

/-- The table after taking in several texts in order. -/
def internAll (names : NameTable) (texts : List String) : NameTable :=
  texts.foldl (fun known text => (known.intern text).2) names

end NameTable

end ScopeLang
