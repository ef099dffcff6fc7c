import Mathlib.Data.Finset.Dedup
import Mathlib.Data.Finset.Card
import Mathlib.Data.Finset.Insert
import ScopeLang.Proofs.Name.Sharing

namespace ScopeLang

/-!
# Histories of name tables

A table is asked for the names of texts and for the texts of names, in any order. What it
answers makes up a history. From the history alone one can tell which texts the table
holds and where, so names and texts belong together one to one, now and ever after.
-/

/-- What a name table is asked for. -/
inductive NameCall where
  | intern (text : String)
  | lookup (name : Name)
  deriving Repr, DecidableEq

/-- What a name table was asked for, with its answer. -/
inductive NameEvent where
  | interned (text : String) (name : Name)
  | lookedUp (name : Name) (text : String)
  deriving Repr, DecidableEq

namespace NameEvent

/-- The text that a name was asked for. -/
def text? : NameEvent → Option String
  | .interned text _ => some text
  | .lookedUp _ _ => none

/-- The texts that names were asked for, in order. -/
def texts (events : List NameEvent) : List String :=
  events.filterMap text?

/-- The texts recorded are those of the interning calls. -/
theorem mem_texts_iff
    {events : List NameEvent}
    {text : String} :
    text ∈ texts events ↔ ∃ name, .interned text name ∈ events := by
  rw [texts, List.mem_filterMap]
  constructor
  · rintro ⟨event, member, found⟩
    cases event with
    | interned other name =>
        obtain rfl : other = text := Option.some.inj found
        exact ⟨name, member⟩
    | lookedUp name other =>
        cases found
  · rintro ⟨name, member⟩
    exact ⟨_, member, rfl⟩

/-- There are no more texts up to some event than there are in all. -/
theorem card_texts_le
    (earlier later : List NameEvent) :
    (texts earlier).toFinset.card ≤ (texts (earlier ++ later)).toFinset.card := by
  apply Finset.card_le_card
  intro text
  rw [List.mem_toFinset, List.mem_toFinset, texts, texts, List.filterMap_append]
  exact List.mem_append_left _

end NameEvent

namespace NameTable

/-- Answer a call. -/
def perform (names : NameTable) : NameCall → NameEvent × NameTable
  | .intern text => (.interned text (names.intern text).1, (names.intern text).2)
  | .lookup name => (.lookedUp name (names.textOf name), names)

/-- Answer calls one after the other. -/
def history (names : NameTable) : List NameCall → List NameEvent × NameTable
  | [] => ([], names)
  | call :: calls =>
      let (event, names) := names.perform call
      let (events, names) := names.history calls
      (event :: events, names)

/-- A history is its first call and the history of the table that call leaves. -/
theorem history_cons (names : NameTable) (call : NameCall) (calls : List NameCall) :
    names.history (call :: calls) =
      ((names.perform call).1 :: ((names.perform call).2.history calls).1,
        ((names.perform call).2.history calls).2) :=
  rfl

/-- An event of a history answers a call, after calls that were answered by the earlier events. -/
theorem exists_of_history_eq
    {names : NameTable}
    {calls : List NameCall}
    {earlier later : List NameEvent}
    {event : NameEvent}
    (split : (names.history calls).1 = earlier ++ event :: later) :
    ∃ before call,
      (names.history before).1 = earlier ∧
        ((names.history before).2.perform call).1 = event := by
  induction earlier generalizing names calls with
  | nil =>
      cases calls with
      | nil =>
          cases split
      | cons call calls =>
          rw [history_cons, List.nil_append, List.cons.injEq] at split
          exact ⟨[], call, rfl, split.1⟩
  | cons first earlier inductionHypothesis =>
      cases calls with
      | nil =>
          cases split
      | cons call calls =>
          rw [history_cons, List.cons_append, List.cons.injEq] at split
          obtain ⟨sameFirst, behind⟩ := split
          obtain ⟨before, asked, sameEarlier, answered⟩ := inductionHypothesis behind
          refine ⟨call :: before, asked, ?_, answered⟩
          rw [history_cons, sameFirst, sameEarlier]

/-! ## What a history tells about the table -/

/--
A table holds the texts of a history, each once and with the name that it got. Its two
sides are inverse to each other: the name of a text is the position of this text.
-/
structure Records (names : NameTable) (events : List NameEvent) : Prop where
  distinct : names.texts.Nodup
  empty : names.texts[0]? = some ""
  known : ∀ text, text ∈ names.texts ↔ text ∈ "" :: NameEvent.texts events
  named : ∀ text name, .interned text name ∈ events → names.nameOf? text = some name
  inverse : names.size ≤ UInt32.size →
    ∀ text name, names.nameOf? text = some name ↔ names.texts[name.index]? = some text

namespace Records

variable {names : NameTable} {events : List NameEvent}

/-- The two sides of a table of distinct texts are inverse to each other. -/
theorem inverse_of_nodup
    (distinct : names.texts.Nodup)
    (room : names.size ≤ UInt32.size)
    (text : String)
    (name : Name) :
    names.nameOf? text = some name ↔ names.texts[name.index]? = some text :=
  ⟨getElem?_of_nameOf? room, nameOf?_of_getElem? distinct⟩

/-- A fresh table has recorded nothing. -/
theorem initial : NameTable.initial.Records [] where
  distinct := by decide
  empty := rfl
  known := fun _ => Iff.rfl
  named := nofun
  inverse := inverse_of_nodup (by decide)

/-- The step lemma: answering a call keeps the record. -/
theorem perform
    (records : names.Records events)
    (call : NameCall) :
    (names.perform call).2.Records (events ++ [(names.perform call).1]) := by
  cases call with
  | intern text =>
      have distinct := nodup_intern records.distinct text
      exact {
        distinct := distinct
        empty := Shares.getElem?_of_prefix (names.prefix_intern text) records.empty
        known := by
          intro other
          rw [NameTable.perform, mem_intern_iff, records.known]
          simp [NameEvent.texts, NameEvent.text?, or_assoc]
        named := by
          intro other name member
          rcases List.mem_append.mp member with old | new
          · exact nameOf?_intern_of_known (records.named other name old) text
          · obtain ⟨rfl, rfl⟩ : other = text ∧ name = (names.intern text).1 := by
              simpa [NameTable.perform] using new
            exact names.nameOf?_intern other
        inverse := inverse_of_nodup distinct }
  | lookup name =>
      exact {
        distinct := records.distinct
        empty := records.empty
        known := by
          intro other
          rw [NameTable.perform, records.known]
          simp [NameEvent.texts, NameEvent.text?]
        named := by
          intro other otherName member
          refine records.named other otherName ?_
          simpa [NameTable.perform] using member
        inverse := records.inverse }

/-- The run lemma: so does answering any number of calls. -/
theorem history
    (records : names.Records events)
    (calls : List NameCall) :
    (names.history calls).2.Records (events ++ (names.history calls).1) := by
  induction calls generalizing names events with
  | nil =>
      rw [NameTable.history, List.append_nil]
      exact records
  | cons call calls inductionHypothesis =>
      have performed := inductionHypothesis (records.perform call)
      rw [List.append_assoc] at performed
      exact performed

/-- As many texts are known as there are different ones in the history, with the empty one. -/
theorem size_eq
    (records : names.Records events) :
    names.size = ("" :: NameEvent.texts events).toFinset.card := by
  rw [size, ← List.toFinset_card_of_nodup records.distinct]
  congr 1
  ext text
  rw [List.mem_toFinset, List.mem_toFinset, records.known]

/-- There are enough names for the texts of the history. -/
theorem room
    (records : names.Records events)
    (few : (NameEvent.texts events).toFinset.card < UInt32.size) :
    names.size ≤ UInt32.size := by
  rw [records.size_eq, List.toFinset_cons]
  exact (Finset.card_insert_le _ _).trans few

/-- A text stands at the position of the name that it got. -/
theorem getElem?_eq
    (records : names.Records events)
    (room : names.size ≤ UInt32.size)
    {text : String}
    {name : Name}
    (given : .interned text name ∈ events) :
    names.texts[name.index]? = some text :=
  (records.inverse room text name).mp (records.named text name given)

/-- Names that were given out are the same exactly for the same texts. -/
theorem name_eq_iff
    (records : names.Records events)
    (room : names.size ≤ UInt32.size)
    {text other : String}
    {name otherName : Name}
    (given : .interned text name ∈ events)
    (otherGiven : .interned other otherName ∈ events) :
    name = otherName ↔ text = other := by
  constructor
  · rintro rfl
    have here := records.getElem?_eq room given
    exact Option.some.inj (here.symm.trans (records.getElem?_eq room otherGiven))
  · rintro rfl
    have known := records.named text name given
    exact Option.some.inj (known.symm.trans (records.named text otherName otherGiven))

/-- A name that was given to a text has this text. -/
theorem textOf_eq
    (records : names.Records events)
    (room : names.size ≤ UInt32.size)
    {text : String}
    {name : Name}
    (given : .interned text name ∈ events) :
    names.textOf name = text := by
  rw [textOf, records.getElem?_eq room given, Option.getD_some]

/-- A name that was given to no text has no text. -/
theorem textOf_eq_empty
    (records : names.Records events)
    (room : names.size ≤ UInt32.size)
    {name : Name}
    (notGiven : ∀ text, .interned text name ∉ events) :
    names.textOf name = "" := by
  cases found : names.texts[name.index]? with
  | none =>
      rw [textOf, found, Option.getD_none]
  | some text =>
      rw [textOf, found, Option.getD_some]
      have member := (records.known text).mp (List.mem_of_getElem? found)
      rcases List.mem_cons.mp member with empty | asked
      · exact empty
      · obtain ⟨other, given⟩ := NameEvent.mem_texts_iff.mp asked
        have known := (records.inverse room text name).mpr found
        obtain rfl : other = name :=
          Option.some.inj ((records.named text other given).symm.trans known)
        exact (notGiven text given).elim

/-- The empty text has the first name. -/
theorem intern_empty
    (records : names.Records events) :
    names.intern "" = (.empty, names) := by
  have first : names.texts[Name.empty.index]? = some "" :=
    records.empty
  exact intern_of_known (nameOf?_of_getElem? records.distinct first)

/-- A text that is not in the history gets the number of those that are as its position. -/
theorem index_intern
    (records : names.Records events)
    {text : String}
    (new : text ∉ "" :: NameEvent.texts events)
    (room : (names.intern text).2.size ≤ UInt32.size) :
    (names.intern text).1.index = ("" :: NameEvent.texts events).toFinset.card := by
  have notKnown : names.nameOf? text = none :=
    nameOf?_eq_none_iff.mpr fun member => new ((records.known text).mp member)
  rw [intern_of_new notKnown] at room ⊢
  have bound : names.size < UInt32.size := by
    simpa [size, push, Nat.succ_le_iff] using room
  rw [Name.index_ofIndex bound, records.size_eq]

end Records

/-- A fresh table records the history of any calls. -/
theorem records_history (calls : List NameCall) :
    (initial.history calls).2.Records (initial.history calls).1 :=
  Records.initial.history calls

/--
An event of a history was answered by a table that had recorded the events before, and
that had names enough for the answer.
-/
theorem exists_records_of_history_eq
    {calls : List NameCall}
    (few : (NameEvent.texts (initial.history calls).1).toFinset.card < UInt32.size)
    {earlier later : List NameEvent}
    {event : NameEvent}
    (split : (initial.history calls).1 = earlier ++ event :: later) :
    ∃ names : NameTable,
      names.Records earlier ∧
        ∃ call,
          (names.perform call).1 = event ∧ (names.perform call).2.size ≤ UInt32.size := by
  obtain ⟨before, call, sameEarlier, answered⟩ := exists_of_history_eq split
  have records := records_history before
  rw [sameEarlier] at records
  refine ⟨_, records, call, answered, (records.perform call).room ?_⟩
  rw [List.append_cons] at split
  rw [split] at few
  rw [answered]
  exact Nat.lt_of_le_of_lt (NameEvent.card_texts_le _ later) few

/-- The answer to a lookup, from a table that had recorded the events before. -/
theorem exists_records_of_lookedUp
    {calls : List NameCall}
    (few : (NameEvent.texts (initial.history calls).1).toFinset.card < UInt32.size)
    {earlier later : List NameEvent}
    {name : Name}
    {found : String}
    (split : (initial.history calls).1 = earlier ++ .lookedUp name found :: later) :
    ∃ names : NameTable,
      names.Records earlier ∧ names.size ≤ UInt32.size ∧ names.textOf name = found := by
  obtain ⟨names, records, call, answered, room⟩ := exists_records_of_history_eq few split
  cases call with
  | intern =>
      cases answered
  | lookup =>
      cases answered
      exact ⟨names, records, room, rfl⟩

/-- A text that appears for the first time gets the number of those before as its position. -/
theorem index_of_interned
    {calls : List NameCall}
    (few : (NameEvent.texts (initial.history calls).1).toFinset.card < UInt32.size)
    {earlier later : List NameEvent}
    {text : String}
    {name : Name}
    (split : (initial.history calls).1 = earlier ++ .interned text name :: later)
    (new : text ∉ "" :: NameEvent.texts earlier) :
    name.index = ("" :: NameEvent.texts earlier).toFinset.card := by
  obtain ⟨names, records, call, answered, room⟩ := exists_records_of_history_eq few split
  cases call with
  | intern =>
      cases answered
      exact records.index_intern new room
  | lookup =>
      cases answered

/--
As long as there are fewer than 2^32 texts, a table that was fresh before any calls is a
bijection that lasts. The empty text has position 0, and every new text gets the next one.
Names are the same exactly when their texts are. From the call that gives out a name on, every
lookup of it answers its text, and up to this call the empty text. The size is the number of
texts, the empty one included.
-/
theorem lasting_bijection
    (calls : List NameCall)
    (few : (NameEvent.texts (initial.history calls).1).toFinset.card < UInt32.size) :
    let events := (initial.history calls).1
    let names := (initial.history calls).2
    ((names.intern "").1.index = 0 ∧ (names.intern "").2 = names) ∧
    (∀ earlier text name later,
      events = earlier ++ .interned text name :: later →
        text ∉ "" :: NameEvent.texts earlier →
          name.index = ("" :: NameEvent.texts earlier).toFinset.card) ∧
    (∀ text name other otherName,
      .interned text name ∈ events →
        .interned other otherName ∈ events →
          (name = otherName ↔ text = other)) ∧
    (∀ earlier text name later,
      events = earlier ++ .interned text name :: later →
        names.textOf name = text ∧
          ∀ found, .lookedUp name found ∈ later → found = text) ∧
    (∀ earlier name found later,
      events = earlier ++ .lookedUp name found :: later →
        (∀ text, .interned text name ∉ earlier) →
          found = "") ∧
    names.size = ("" :: NameEvent.texts events).toFinset.card := by
  intro events names
  have records : names.Records events := records_history calls
  have room : names.size ≤ UInt32.size := records.room few
  refine ⟨?_, ?_, ?_, ?_, ?_, ?_⟩
  · rw [records.intern_empty]
    exact ⟨rfl, rfl⟩
  · intro earlier text name later split new
    exact index_of_interned few split new
  · intro text name other otherName given otherGiven
    exact records.name_eq_iff room given otherGiven
  · intro earlier text name later split
    have given : .interned text name ∈ events := by
      simp [split]
    refine ⟨records.textOf_eq room given, fun found member => ?_⟩
    obtain ⟨between, rest, rfl⟩ := List.append_of_mem member
    rw [← List.cons_append, ← List.append_assoc] at split
    obtain ⟨middle, middleRecords, middleRoom, answered⟩ :=
      exists_records_of_lookedUp few split
    rw [← answered]
    exact middleRecords.textOf_eq middleRoom (by simp)
  · intro earlier name found later split notGiven
    obtain ⟨middle, middleRecords, middleRoom, answered⟩ :=
      exists_records_of_lookedUp few split
    rw [← answered]
    exact middleRecords.textOf_eq_empty middleRoom notGiven
  · exact records.size_eq

/-- A name that is looked up before and after it is given out, and the empty text between. -/
theorem lasting_bijection_two_texts :
    let calls : List NameCall :=
      [.lookup ⟨1⟩, .intern "x", .intern "", .intern "y", .intern "x", .lookup ⟨1⟩]
    let events : List NameEvent :=
      [.lookedUp ⟨1⟩ "", .interned "x" ⟨1⟩, .interned "" ⟨0⟩, .interned "y" ⟨2⟩,
        .interned "x" ⟨1⟩, .lookedUp ⟨1⟩ "x"]
    (NameEvent.texts (initial.history calls).1).toFinset.card < UInt32.size ∧
      (initial.history calls).1 = events ∧
        (initial.history calls).2.size = 3 ∧
          (initial.history calls).2.textOf ⟨2⟩ = "y" ∧
            (⟨2⟩ : Name).index = ("" :: NameEvent.texts (events.take 3)).toFinset.card := by
  intro calls events
  have few : (NameEvent.texts (initial.history calls).1).toFinset.card < UInt32.size := by
    decide
  have answered : (initial.history calls).1 = events :=
    rfl
  obtain ⟨-, next, -, lasting, -, size⟩ := lasting_bijection calls few
  refine ⟨few, answered, size.trans (by decide), ?_, ?_⟩
  · exact (lasting (events.take 3) "y" ⟨2⟩ (events.drop 4) rfl).1
  · exact next (events.take 3) "y" ⟨2⟩ (events.drop 4) rfl (by decide)

end NameTable

end ScopeLang
