import Mathlib.Data.Finmap
import ScopeLang.Proofs.Scope.OpenScopes

namespace ScopeLang

/-!
# Environments are scope chains

An environment keeps its values by name, and its scopes keep names only. The
plain reading of the same operations is a chain of frames, one for each open
scope, in which every frame keeps its own values. The two are transposed: the
stack of a name holds the values that the frames have for it, in scope order.

That relation holds at the start and is kept by every operation, and it makes
the answers equal. So no sequence of operations tells the two apart.
-/

/-- A call of one of the operations on scopes and bindings. -/
inductive ScopeOp where
  | openScope
  | closeScope
  | bind (name : Name) (value : Value)
  | rebind (name : Name) (value : Value)
  | lookup (name : Name)
  | isBound (name : Name)

/-- What a call answers. -/
inductive ScopeAnswer where
  | done
  | value (value : Value)
  | truth (truth : Bool)
  | refused (error : ScopeError)

namespace ScopeAnswer

/-- The answer of a call that changes the state unless it is refused. -/
def ofChange (state : σ) : Except ScopeError σ → ScopeAnswer × σ
  | .ok next => (.done, next)
  | .error error => (.refused error, state)

/-- The answer of a call that looks for a value. -/
def ofSearch : Except ScopeError Value → ScopeAnswer
  | .ok found => .value found
  | .error error => .refused error

/-- An operation that is refused leaves the state it was tried on. -/
theorem eq_of_ofChange_refused
    {state next : σ}
    {outcome : Except ScopeError σ}
    {error : ScopeError}
    (refused : ofChange state outcome = (.refused error, next)) :
    next = state := by
  cases outcome with
  | ok changed =>
      simp [ofChange] at refused
  | error =>
      exact (Prod.ext_iff.mp refused).2.symm

end ScopeAnswer

/-- The answer of every call, with the number of scopes that are open after it. -/
def ScopeOp.trace
    (step : σ → ScopeOp → ScopeAnswer × σ)
    (depth : σ → Nat)
    (state : σ) :
    List ScopeOp → List (ScopeAnswer × Nat)
  | [] => []
  | op :: rest =>
      ((step state op).1, depth (step state op).2) ::
        trace step depth (step state op).2 rest

namespace Environment

/-- One call on an environment. -/
def step (env : Environment) : ScopeOp → ScopeAnswer × Environment
  | .openScope => (.done, env.openScope)
  | .closeScope => (.done, env.closeScope)
  | .bind name value => ScopeAnswer.ofChange env (env.bind name value)
  | .rebind name value => ScopeAnswer.ofChange env (env.rebind name value)
  | .lookup name => (.ofSearch (env.lookup name), env)
  | .isBound name => (.truth (env.isBound name), env)

/-- The environment after several calls. -/
def after (env : Environment) (ops : List ScopeOp) : Environment :=
  ops.foldl (fun reached op => (reached.step op).2) env

end Environment

/-- The names that one scope has declared, with their values. -/
abbrev Frame := Finmap fun _ : Name => Value

namespace Frame

/-- Overwrite a name in the first frame that has it. -/
def overwrite (name : Name) (value : Value) : List Frame → Option (List Frame)
  | [] => none
  | frame :: rest =>
      if name ∈ frame then
        some (frame.insert name value :: rest)
      else
        (overwrite name value rest).map (frame :: ·)

end Frame

/-- The frames of all open scopes; there is always an innermost one. -/
structure ScopeChain where
  innermost : Frame
  /-- The frames around it, the outermost one last. -/
  enclosing : List Frame

namespace ScopeChain

/-- The chain of one frame, in which nothing is declared. -/
def initial : ScopeChain :=
  ⟨∅, []⟩

/-- All frames, innermost one first. -/
def frames (chain : ScopeChain) : List Frame :=
  chain.innermost :: chain.enclosing

def depth (chain : ScopeChain) : Nat :=
  chain.frames.length

def openScope (chain : ScopeChain) : ScopeChain :=
  ⟨∅, chain.frames⟩

/-- Drop the innermost frame, unless it is the only one. -/
def closeScope (chain : ScopeChain) : ScopeChain :=
  match chain.enclosing with
  | [] => chain
  | frame :: rest => ⟨frame, rest⟩

/-- Enter a name into the innermost frame, unless the frame has it already. -/
def bind (chain : ScopeChain) (name : Name) (value : Value) : Except ScopeError ScopeChain :=
  if name ∈ chain.innermost then
    .error (.alreadyDeclared name)
  else
    .ok { chain with innermost := chain.innermost.insert name value }

/-- Overwrite a name in the innermost frame that has it. -/
def rebind (chain : ScopeChain) (name : Name) (value : Value) : Except ScopeError ScopeChain :=
  if name ∈ chain.innermost then
    .ok { chain with innermost := chain.innermost.insert name value }
  else
    match Frame.overwrite name value chain.enclosing with
    | some enclosing => .ok { chain with enclosing := enclosing }
    | none => .error (.unbound name)

/-- The value of a name in the innermost frame that has it. -/
def lookup (chain : ScopeChain) (name : Name) : Except ScopeError Value :=
  match chain.frames.findSome? (fun frame => frame.lookup name) with
  | some value => .ok value
  | none => .error (.unbound name)

/-- Whether some frame has a name. -/
def isBound (chain : ScopeChain) (name : Name) : Bool :=
  chain.frames.any (fun frame => name ∈ frame)

/-- One call on a scope chain. -/
def step (chain : ScopeChain) : ScopeOp → ScopeAnswer × ScopeChain
  | .openScope => (.done, chain.openScope)
  | .closeScope => (.done, chain.closeScope)
  | .bind name value => ScopeAnswer.ofChange chain (chain.bind name value)
  | .rebind name value => ScopeAnswer.ofChange chain (chain.rebind name value)
  | .lookup name => (.ofSearch (chain.lookup name), chain)
  | .isBound name => (.truth (chain.isBound name), chain)

end ScopeChain

/-- A scope and a frame that declare the same names. -/
structure Frame.Declares (names : List Name) (frame : Frame) : Prop where
  nodup : names.Nodup
  mem_iff : ∀ name, name ∈ names ↔ name ∈ frame

namespace Frame

/-- A scope with no names matches a frame with no entries. -/
theorem declares_empty :
    Declares [] ∅ where
  nodup :=
    List.nodup_nil
  mem_iff name := by
    simpa using Finmap.notMem_empty

/-- Declaring a new name in both keeps them alike. -/
theorem Declares.insert_new
    {frame : Frame}
    {names : List Name}
    (declares : Declares names frame)
    {name : Name}
    (fresh : name ∉ names)
    (value : Value) :
    Declares (name :: names) (frame.insert name value) where
  nodup :=
    List.nodup_cons.mpr ⟨fresh, declares.nodup⟩
  mem_iff other := by
    simp [declares.mem_iff]

/-- Overwriting a name leaves the declared names as they are. -/
theorem Declares.insert_known
    {frame : Frame}
    {names : List Name}
    (declares : Declares names frame)
    {name : Name}
    (known : name ∈ frame)
    (value : Value) :
    Declares names (frame.insert name value) where
  nodup :=
    declares.nodup
  mem_iff other := by
    rw [declares.mem_iff, Finmap.mem_insert]
    constructor
    · exact Or.inr
    · rintro (rfl | member)
      · exact known
      · exact member

/-- The values that frames have for a name, in the order of the frames. -/
def valuesOf (frames : List Frame) (name : Name) : List Value :=
  frames.filterMap fun frame => frame.lookup name

/-- Below a frame that declares the name lie the values of the frames around it. -/
theorem valuesOf_cons_of_mem
    {frame : Frame}
    {name : Name}
    (member : name ∈ frame)
    (rest : List Frame) :
    (valuesOf (frame :: rest) name).tail = valuesOf rest name := by
  obtain ⟨value, found⟩ := Finmap.mem_iff.mp member
  simp [valuesOf, found]

/-- A frame that does not declare the name adds no value of it. -/
theorem valuesOf_cons_of_notMem
    {frame : Frame}
    {name : Name}
    (absent : name ∉ frame)
    (rest : List Frame) :
    valuesOf (frame :: rest) name = valuesOf rest name := by
  have missing : frame.lookup name = none :=
    Finmap.lookup_eq_none.mpr absent
  simp [valuesOf, missing]

/-- A declaration puts its value on top of those of the frames around. -/
theorem valuesOf_insert_self
    (frame : Frame)
    (name : Name)
    (value : Value)
    (rest : List Frame) :
    valuesOf (frame.insert name value :: rest) name =
      value :: valuesOf rest name := by
  simp [valuesOf]

/-- A declaration leaves the values of every other name. -/
theorem valuesOf_insert_of_ne
    {name other : Name}
    (different : other ≠ name)
    (frame : Frame)
    (value : Value)
    (rest : List Frame) :
    valuesOf (frame.insert name value :: rest) other =
      valuesOf (frame :: rest) other := by
  simp [valuesOf, List.filterMap_cons, Finmap.lookup_insert_of_ne _ different]

end Frame

namespace Frame

/-- Nothing is overwritten only where no frame has a value for the name. -/
theorem valuesOf_of_overwrite_eq_none
    {name : Name}
    {value : Value}
    {frames : List Frame}
    (unchanged : overwrite name value frames = none) :
    valuesOf frames name = [] := by
  induction frames with
  | nil =>
      rfl
  | cons frame rest inductionHypothesis =>
      by_cases member : name ∈ frame
      · simp [overwrite, member] at unchanged
      · have restUnchanged : overwrite name value rest = none := by
          simpa [overwrite, member] using unchanged
        rw [valuesOf_cons_of_notMem member]
        exact inductionHypothesis restUnchanged

/--
Overwriting replaces the first value that frames have for the name. It changes
no other value and declares nothing.
-/
theorem of_overwrite_eq_some
    {name : Name}
    {value : Value}
    {frames changed : List Frame}
    (overwritten : overwrite name value frames = some changed) :
    (∃ replaced covered,
        valuesOf frames name = replaced :: covered ∧
          valuesOf changed name = value :: covered) ∧
      (∀ other,
        other ≠ name →
        valuesOf changed other = valuesOf frames other) ∧
      (∀ scopes,
        List.Forall₂ Declares scopes frames →
        List.Forall₂ Declares scopes changed) := by
  induction frames generalizing changed with
  | nil =>
      simp [overwrite] at overwritten
  | cons frame rest inductionHypothesis =>
      by_cases member : name ∈ frame
      · obtain rfl : frame.insert name value :: rest = changed := by
          simpa [overwrite, member] using overwritten
        obtain ⟨replaced, found⟩ := Finmap.mem_iff.mp member
        refine ⟨⟨replaced, valuesOf rest name, ?_, ?_⟩, ?_, ?_⟩
        · simp [valuesOf, found]
        · exact valuesOf_insert_self frame name value rest
        · intro other different
          exact valuesOf_insert_of_ne different frame value rest
        · intro scopes declared
          cases declared with
          | cons here around =>
              exact .cons (here.insert_known member value) around
      · obtain ⟨changedRest, restOverwritten, rfl⟩ :
            ∃ changedRest,
              overwrite name value rest = some changedRest ∧
                frame :: changedRest = changed := by
          simpa [overwrite, member] using overwritten
        obtain ⟨⟨replaced, covered, before, after⟩, others, declares⟩ :=
          inductionHypothesis restOverwritten
        refine ⟨⟨replaced, covered, ?_, ?_⟩, ?_, ?_⟩
        · rw [valuesOf_cons_of_notMem member, before]
        · rw [valuesOf_cons_of_notMem member, after]
        · intro other different
          have same := others other different
          simp only [valuesOf] at same
          simp only [valuesOf, List.filterMap_cons, same]
        · intro scopes declared
          cases declared with
          | cons here around =>
              exact .cons here (declares _ around)

end Frame

namespace ScopeChain

/-- Assignment overwrites in the whole chain and is refused where nothing is overwritten. -/
private theorem rebind_cases
    (chain : ScopeChain)
    (name : Name)
    (value : Value) :
    (∃ changed,
        chain.rebind name value = .ok changed ∧
          Frame.overwrite name value chain.frames = some changed.frames) ∨
      (chain.rebind name value = .error (.unbound name) ∧
        Frame.overwrite name value chain.frames = none) := by
  by_cases member : name ∈ chain.innermost
  · left
    refine ⟨⟨chain.innermost.insert name value, chain.enclosing⟩, ?_, ?_⟩
    · simp [rebind, member]
    · simp [Frame.overwrite, frames, member]
  · cases around : Frame.overwrite name value chain.enclosing with
    | none =>
        right
        simp [rebind, Frame.overwrite, frames, member, around]
    | some enclosing =>
        left
        refine ⟨⟨chain.innermost, enclosing⟩, ?_, ?_⟩
        · simp [rebind, member, around]
        · simp [Frame.overwrite, frames, member, around]

end ScopeChain

namespace BindingStacks

/-- No name is kept without values. -/
def NoneEmpty (bindings : BindingStacks) : Prop :=
  ∀ name, bindings.lookup name ≠ some []

/-- Giving a name its values leaves no empty stack behind: a name without values is taken out. -/
theorem NoneEmpty.setStack
    {bindings : BindingStacks}
    (noneEmpty : bindings.NoneEmpty)
    (name : Name)
    (values : List Value) :
    (bindings.setStack name values).NoneEmpty := by
  intro other
  by_cases here : other = name
  · subst here
    rw [lookup_setStack_self]
    cases values <;> simp
  · rw [lookup_setStack_of_ne here]
    exact noneEmpty other

/-- Closing a scope, name by name, leaves no empty stack behind. -/
theorem NoneEmpty.foldl_drop
    {bindings : BindingStacks}
    (noneEmpty : bindings.NoneEmpty)
    (names : List Name) :
    (names.foldl (fun kept dropped => kept.drop dropped) bindings).NoneEmpty := by
  induction names generalizing bindings with
  | nil =>
      exact noneEmpty
  | cons first rest inductionHypothesis =>
      exact inductionHypothesis (noneEmpty.setStack first _)

/-- Where no stack is empty, a name is kept exactly when it has values. -/
theorem NoneEmpty.isSome_lookup
    {bindings : BindingStacks}
    (noneEmpty : bindings.NoneEmpty)
    (name : Name) :
    (bindings.lookup name).isSome = !(bindings.stackOf name).isEmpty := by
  have notEmpty := noneEmpty name
  cases kept : bindings.lookup name with
  | none =>
      simp [stackOf, kept]
  | some values =>
      cases values with
      | nil =>
          exact (notEmpty kept).elim
      | cons value covered =>
          simp [stackOf, kept]

end BindingStacks

/--
An environment stands for a scope chain: scope by scope both declare the same
names, and the stack of every name holds the values of the frames in order.
-/
structure Environment.Represents (env : Environment) (chain : ScopeChain) : Prop where
  scopes : List.Forall₂ Frame.Declares env.scopes chain.frames
  values : ∀ name, env.bindings.stackOf name = Frame.valuesOf chain.frames name
  noneEmpty : env.bindings.NoneEmpty

namespace Environment.Represents

/-- Binding stacks and chain agree at the start, with one scope and no names. -/
theorem initial :
    Represents .initial .initial where
  scopes :=
    .cons Frame.declares_empty .nil
  values name := by
    simp [Environment.initial, ScopeChain.initial, ScopeChain.frames,
      BindingStacks.stackOf, Frame.valuesOf]
  noneEmpty name := by
    simp [Environment.initial]

variable {env : Environment} {chain : ScopeChain}

/-- Both count the same open scopes. -/
theorem depth_eq
    (represents : Represents env chain) :
    env.depth = chain.depth := by
  have sameLength := represents.scopes.length_eq
  rw [env.depth_eq, ScopeChain.depth, ← sameLength, env.scopes_eq]
  rfl

/-- The innermost scope has the names of the innermost frame. -/
theorem innermost
    (represents : Represents env chain) :
    Frame.Declares env.current chain.innermost := by
  have alike := represents.scopes
  rw [env.scopes_eq] at alike
  exact (List.forall₂_cons.mp alike).1

/-- The scopes around it match the frames around, one by one. -/
theorem enclosing
    (represents : Represents env chain) :
    List.Forall₂ Frame.Declares env.enclosing chain.enclosing := by
  have alike := represents.scopes
  rw [env.scopes_eq] at alike
  exact (List.forall₂_cons.mp alike).2

/-- Opening a scope adds an empty frame, and no value moves. -/
theorem openScope
    (represents : Represents env chain) :
    Represents env.openScope chain.openScope where
  scopes :=
    .cons Frame.declares_empty represents.scopes
  values name := by
    have absent : name ∉ (∅ : Frame) :=
      Finmap.notMem_empty
    exact (represents.values name).trans
      (Frame.valuesOf_cons_of_notMem absent chain.frames).symm
  noneEmpty :=
    represents.noneEmpty

/--
Closing drops one value of each name that the innermost frame has, in whichever
order: these are the values of that frame.
-/
theorem closeScope
    (represents : Represents env chain) :
    Represents env.closeScope chain.closeScope := by
  have around := represents.enclosing
  cases shape : chain.enclosing with
  | nil =>
      rw [shape] at around
      have outermost : env.enclosing = [] :=
        List.forall₂_nil_right_iff.mp around
      have stays : chain.closeScope = chain := by
        simp [ScopeChain.closeScope, shape]
      rw [closeScope_of_outermost outermost, stays]
      exact represents
  | cons frame rest =>
      rw [shape] at around
      have nested : env.enclosing ≠ [] := by
        intro outermost
        rw [outermost] at around
        cases around
      have remaining : chain.closeScope.frames = frame :: rest := by
        simp [ScopeChain.closeScope, ScopeChain.frames, shape]
      have innermost := represents.innermost
      refine ⟨?_, ?_, ?_⟩
      · rw [scopes_closeScope nested, remaining]
        exact around
      · intro name
        have before := represents.values name
        rw [ScopeChain.frames, shape] at before
        rw [stackOf_closeScope nested innermost.nodup, remaining, before]
        by_cases declared : name ∈ env.current
        · have member := (innermost.mem_iff name).mp declared
          rw [if_pos declared, Frame.valuesOf_cons_of_mem member]
        · have absent : name ∉ chain.innermost :=
            mt (innermost.mem_iff name).mpr declared
          rw [if_neg declared, Frame.valuesOf_cons_of_notMem absent]
      · cases nestedShape : env.nested with
        | nil =>
            simpa [Environment.closeScope, nestedShape] using
              represents.noneEmpty
        | cons scope others =>
            simpa [Environment.closeScope, nestedShape] using
              represents.noneEmpty.foldl_drop scope

/-- Both refuse a second declaration, and otherwise push the value and enter it. -/
theorem bind
    (represents : Represents env chain)
    (name : Name)
    (value : Value) :
    (∃ after changed,
        env.bind name value = .ok after ∧
          chain.bind name value = .ok changed ∧
            Represents after changed) ∨
      (env.bind name value = .error (.alreadyDeclared name) ∧
        chain.bind name value = .error (.alreadyDeclared name)) := by
  have innermost := represents.innermost
  by_cases declared : name ∈ env.current
  · have member := (innermost.mem_iff name).mp declared
    right
    simp [Environment.bind, ScopeChain.bind, declared, member]
  · have absent : name ∉ chain.innermost :=
      mt (innermost.mem_iff name).mpr declared
    left
    have bound :
        env.bind name value =
          .ok { env.declareName name with
            bindings := env.bindings.push name value } := by
      simp [Environment.bind, declared]
    obtain ⟨-, scopesAfter, bindingsAfter⟩ := of_bind_eq_ok bound
    refine ⟨_, ⟨chain.innermost.insert name value, chain.enclosing⟩, bound, ?_, ?_⟩
    · simp [ScopeChain.bind, absent]
    · refine ⟨?_, ?_, ?_⟩
      · rw [scopesAfter]
        exact .cons (innermost.insert_new declared value) represents.enclosing
      · intro other
        rw [bindingsAfter]
        by_cases here : other = name
        · subst here
          rw [BindingStacks.stackOf_push_self, represents.values,
            ScopeChain.frames, Frame.valuesOf_cons_of_notMem absent]
          exact (Frame.valuesOf_insert_self _ _ _ _).symm
        · rw [BindingStacks.stackOf_push_of_ne here, represents.values]
          exact (Frame.valuesOf_insert_of_ne here _ _ _).symm
      · exact represents.noneEmpty.setStack name _

/-- Both refuse an unknown name, and otherwise replace its innermost value. -/
theorem rebind
    (represents : Represents env chain)
    (name : Name)
    (value : Value) :
    (∃ after changed,
        env.rebind name value = .ok after ∧
          chain.rebind name value = .ok changed ∧
            Represents after changed) ∨
      (env.rebind name value = .error (.unbound name) ∧
        chain.rebind name value = .error (.unbound name)) := by
  have stack := represents.values name
  rcases chain.rebind_cases name value with
      ⟨changed, rebound, overwritten⟩ | ⟨refused, unchanged⟩
  · obtain ⟨⟨replaced, covered, before, after⟩, others, declares⟩ :=
      Frame.of_overwrite_eq_some overwritten
    rw [before] at stack
    left
    refine
      ⟨{ env with bindings := env.bindings.setStack name (value :: covered) },
        changed, ?_, rebound, ?_⟩
    · simp [Environment.rebind, stack]
    · refine ⟨declares _ represents.scopes, ?_, represents.noneEmpty.setStack name _⟩
      intro other
      by_cases here : other = name
      · subst here
        rw [BindingStacks.stackOf_setStack_self, after]
      · rw [BindingStacks.stackOf_setStack_of_ne here, represents.values,
          others other here]
  · rw [Frame.valuesOf_of_overwrite_eq_none unchanged] at stack
    right
    simp [Environment.rebind, stack, refused]

/-- Whatever the innermost scope has declared has a value in the innermost frame. -/
theorem stackOf_ne_nil
    {name : Name}
    (represents : Represents env chain)
    (declared : name ∈ env.current) :
    env.bindings.stackOf name ≠ [] := by
  obtain ⟨value, here⟩ :=
    Finmap.mem_iff.mp ((represents.innermost.mem_iff name).mp declared)
  rw [represents.values]
  simp [Frame.valuesOf, ScopeChain.frames, here]

/--
A name is looked up as in the chain of scopes. Without a value in any frame, the innermost
scope cannot have declared it.
-/
theorem lookup
    (represents : Represents env chain)
    (name : Name) :
    env.lookup name = chain.lookup name := by
  have stack := represents.values name
  have searched :
      chain.frames.findSome? (fun frame => frame.lookup name) =
        (Frame.valuesOf chain.frames name).head? :=
    List.head?_filterMap.symm
  cases found : Frame.valuesOf chain.frames name with
  | nil =>
      have undeclared : name ∉ env.current := by
        intro declared
        exact represents.stackOf_ne_nil declared (stack.trans found)
      rw [found] at stack searched
      simp [Environment.lookup, ScopeChain.lookup, stack, searched, undeclared]
  | cons value covered =>
      rw [found] at stack searched
      simp [Environment.lookup, ScopeChain.lookup, stack, searched]

/-- A name is bound in the stacks when some frame has it. -/
theorem isBound
    (represents : Represents env chain)
    (name : Name) :
    env.isBound name = chain.isBound name := by
  rw [Environment.isBound, represents.noneEmpty.isSome_lookup,
    represents.values, ScopeChain.isBound, Bool.eq_iff_iff]
  simp [Frame.valuesOf, List.filterMap_eq_nil_iff, Finmap.lookup_eq_none]

/-- One call: the answers are equal, and the environment still stands for the chain. -/
theorem step
    (represents : Represents env chain)
    (op : ScopeOp) :
    (env.step op).1 = (chain.step op).1 ∧
      Represents (env.step op).2 (chain.step op).2 := by
  cases op with
  | openScope =>
      exact ⟨rfl, represents.openScope⟩
  | closeScope =>
      exact ⟨rfl, represents.closeScope⟩
  | bind name value =>
      simp only [Environment.step, ScopeChain.step]
      rcases represents.bind name value with
          ⟨after, changed, bound, entered, still⟩ | ⟨refused, alsoRefused⟩
      · rw [bound, entered]
        exact ⟨rfl, still⟩
      · rw [refused, alsoRefused]
        exact ⟨rfl, represents⟩
  | rebind name value =>
      simp only [Environment.step, ScopeChain.step]
      rcases represents.rebind name value with
          ⟨after, changed, rebound, overwritten, still⟩ | ⟨refused, alsoRefused⟩
      · rw [rebound, overwritten]
        exact ⟨rfl, still⟩
      · rw [refused, alsoRefused]
        exact ⟨rfl, represents⟩
  | lookup name =>
      simp only [Environment.step, ScopeChain.step, represents.lookup]
      exact ⟨trivial, represents⟩
  | isBound name =>
      simp only [Environment.step, ScopeChain.step, represents.isBound]
      exact ⟨trivial, represents⟩

/-- Any operations in a row get the same answers and see the same depths on both sides. -/
theorem trace
    (represents : Represents env chain)
    (ops : List ScopeOp) :
    ScopeOp.trace Environment.step Environment.depth env ops =
      ScopeOp.trace ScopeChain.step ScopeChain.depth chain ops := by
  induction ops generalizing env chain with
  | nil =>
      rfl
  | cons op rest inductionHypothesis =>
      obtain ⟨sameAnswer, still⟩ := represents.step op
      simp only [ScopeOp.trace, sameAnswer, still.depth_eq,
        inductionHypothesis still]

/-- Every environment that calls reach stands for some scope chain. -/
theorem after
    (represents : Represents env chain)
    (ops : List ScopeOp) :
    ∃ reached, Represents (env.after ops) reached := by
  induction ops generalizing env chain with
  | nil =>
      exact ⟨chain, represents⟩
  | cons op rest inductionHypothesis =>
      exact inductionHypothesis (represents.step op).2

end Environment.Represents

namespace Environment

/--
No sequence of calls on a fresh environment tells it from a scope chain.
Wherever such a sequence leads, a refused call changes nothing, a name is bound
exactly when a lookup finds its value, and no lookup meets a corrupted scope.
-/
theorem refines_scopeChain
    (ops : List ScopeOp) :
    ScopeOp.trace step depth initial ops =
        ScopeOp.trace ScopeChain.step ScopeChain.depth .initial ops ∧
      (∀ op error next,
        (initial.after ops).step op = (.refused error, next) →
        next = initial.after ops) ∧
      (∀ name,
        (initial.after ops).isBound name = true ↔
          ∃ value, (initial.after ops).lookup name = .ok value) ∧
      (∀ name culprit,
        (initial.after ops).lookup name ≠ .error (.corrupted culprit)) := by
  obtain ⟨chain, represents⟩ := Represents.initial.after ops
  refine ⟨Represents.initial.trace ops, ?_, ?_, ?_⟩
  · intro op error next refused
    cases op with
    | openScope | closeScope | isBound =>
        simp [step] at refused
    | lookup name =>
        exact (Prod.ext_iff.mp refused).2.symm
    | bind | rebind =>
        exact ScopeAnswer.eq_of_ofChange_refused refused
  · intro name
    rw [isBound, represents.noneEmpty.isSome_lookup, lookup]
    cases (initial.after ops).bindings.stackOf name with
    | nil =>
        split_ifs <;> simp
    | cons value covered =>
        simp
  · intro name culprit corrupted
    rw [represents.lookup, ScopeChain.lookup] at corrupted
    split at corrupted <;> simp at corrupted

end Environment

end ScopeLang
