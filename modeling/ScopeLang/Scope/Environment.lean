import ScopeLang.Value

namespace ScopeLang

/-!
# Environments

Bindings are kept by name: each bound name has a stack of values, the live one
on top. Scopes record only which names they declared, so closing a scope drops
one value of each of those names and uncovers what it shadowed. The outermost
scope is never closed.
-/

/-- Why an operation on an environment is refused. -/
inductive ScopeError where
  /-- The name has no live binding. -/
  | unbound (name : Name)
  /-- The innermost scope has declared the name already. -/
  | alreadyDeclared (name : Name)
  /-- The innermost scope has declared the name, which has no binding. -/
  | corrupted (name : Name)
  deriving Repr, DecidableEq, Inhabited

namespace ScopeError

/-- The message for a reader who knows names by position. -/
def message : ScopeError → String
  | .unbound name => "no binding for " ++ name.describe
  | .alreadyDeclared name => name.describe ++ " is already declared in this scope"
  | .corrupted name =>
      name.describe ++ " is declared in the current scope but has no binding"

end ScopeError

/-- Stacks of values, one for each bound name. -/
abbrev BindingStacks := List (Name × List Value)

namespace BindingStacks

/-- The values of a name, the live one first; a name that is not bound has none. -/
def stackOf (bindings : BindingStacks) (name : Name) : List Value :=
  (bindings.lookup name).getD []

/--
The bindings with another stack for a name, which keeps its place. A new name
enters at the end, and a name that is left without values leaves.
-/
def setStack (name : Name) (values : List Value) : BindingStacks → BindingStacks
  | [] => if values.isEmpty then [] else [(name, values)]
  | (other, stack) :: rest =>
      if other = name then
        if values.isEmpty then setStack name values rest else (name, values) :: rest
      else
        (other, stack) :: setStack name values rest

/-- A value more on top of a name. -/
def push (name : Name) (value : Value) (bindings : BindingStacks) : BindingStacks :=
  bindings.setStack name (value :: bindings.stackOf name)

/-- The live value of a name less. -/
def drop (name : Name) (bindings : BindingStacks) : BindingStacks :=
  bindings.setStack name (bindings.stackOf name).tail

/-- A name is kept with the stack that it was given, and not at all without values. -/
theorem lookup_setStack_self
    (name : Name)
    (values : List Value)
    (bindings : BindingStacks) :
    (setStack name values bindings).lookup name =
      if values.isEmpty then none else some values := by
  induction bindings with
  | nil =>
      cases values <;> simp [setStack]
  | cons entry rest inductionHypothesis =>
      obtain ⟨other, stack⟩ := entry
      by_cases same : other = name
      · subst same
        cases values with
        | nil =>
            simpa [setStack] using inductionHypothesis
        | cons value covered =>
            simp [setStack]
      · have different : (name == other) = false := by
          simpa using Ne.symm same
        simpa [setStack, List.lookup_cons, same, different] using
          inductionHypothesis

/-- The other names keep their bindings. -/
theorem lookup_setStack_of_ne
    {name other : Name}
    (different : other ≠ name)
    (values : List Value)
    (bindings : BindingStacks) :
    (setStack name values bindings).lookup other = bindings.lookup other := by
  have unequal : (other == name) = false := by
    simpa using different
  induction bindings with
  | nil =>
      cases values <;> simp [setStack, List.lookup_cons, unequal]
  | cons entry rest inductionHypothesis =>
      obtain ⟨first, stack⟩ := entry
      by_cases same : first = name
      · subst same
        cases values with
        | nil =>
            simpa [setStack, List.lookup_cons, unequal] using
              inductionHypothesis
        | cons value covered =>
            simp [setStack, List.lookup_cons, unequal]
      · by_cases here : other = first
        · subst here
          simp [setStack, same]
        · have elsewhere : (other == first) = false := by
            simpa using here
          simpa [setStack, List.lookup_cons, same, elsewhere] using
            inductionHypothesis

/-- A name has the stack that it was given. -/
@[simp] theorem stackOf_setStack_self
    (name : Name)
    (values : List Value)
    (bindings : BindingStacks) :
    (setStack name values bindings).stackOf name = values := by
  rw [stackOf, lookup_setStack_self]
  cases values <;> rfl

/-- The other names keep their stacks. -/
theorem stackOf_setStack_of_ne
    {name other : Name}
    (different : other ≠ name)
    (values : List Value)
    (bindings : BindingStacks) :
    (setStack name values bindings).stackOf other = bindings.stackOf other := by
  rw [stackOf, lookup_setStack_of_ne different, stackOf]

/-- A pushed value lies on top of its name. -/
@[simp] theorem stackOf_push_self
    (name : Name)
    (value : Value)
    (bindings : BindingStacks) :
    (push name value bindings).stackOf name = value :: bindings.stackOf name := by
  simp [push]

/-- A pushed value leaves the stacks of other names alone. -/
theorem stackOf_push_of_ne
    {name other : Name}
    (different : other ≠ name)
    (value : Value)
    (bindings : BindingStacks) :
    (push name value bindings).stackOf other = bindings.stackOf other :=
  stackOf_setStack_of_ne different _ bindings

/-- A dropped value is the top one of its name. -/
@[simp] theorem stackOf_drop_self
    (name : Name)
    (bindings : BindingStacks) :
    (drop name bindings).stackOf name = (bindings.stackOf name).tail := by
  simp [drop]

/-- A dropped value leaves the stacks of other names alone. -/
theorem stackOf_drop_of_ne
    {name other : Name}
    (different : other ≠ name)
    (bindings : BindingStacks) :
    (drop name bindings).stackOf other = bindings.stackOf other :=
  stackOf_setStack_of_ne different _ bindings

end BindingStacks

/-- The bindings of all names, and the names that each open scope has declared. -/
structure Environment where
  bindings : BindingStacks
  /-- Names declared in the outermost scope. -/
  outermost : List Name
  /-- Names declared in each nested scope, innermost scope first. -/
  nested : List (List Name)

namespace Environment

/-- The environment with nothing but its outermost scope. -/
def initial : Environment :=
  ⟨[], [], []⟩

instance : Inhabited Environment :=
  ⟨initial⟩

/-- The number of open scopes, the outermost one included. -/
def depth (env : Environment) : Nat :=
  env.nested.length + 1

/-- The names declared in the innermost scope. -/
def current (env : Environment) : List Name :=
  env.nested.head?.getD env.outermost

/-- The environment with a name added to the innermost scope. -/
def declareName (env : Environment) (name : Name) : Environment :=
  match env.nested with
  | [] => { env with outermost := name :: env.outermost }
  | scope :: rest => { env with nested := (name :: scope) :: rest }

/-- Open a scope. -/
def openScope (env : Environment) : Environment :=
  { env with nested := [] :: env.nested }

/-- Close the innermost scope and drop what it declared; the outermost one stays. -/
def closeScope (env : Environment) : Environment :=
  match env.nested with
  | [] => env
  | scope :: rest =>
      { env with
        bindings := scope.foldl (fun bindings name => bindings.drop name) env.bindings
        nested := rest }

/-- Declare a name in the innermost scope. -/
def bind (env : Environment) (name : Name) (value : Value) : Except ScopeError Environment :=
  if name ∈ env.current then
    .error (.alreadyDeclared name)
  else
    .ok { env.declareName name with bindings := env.bindings.push name value }

/-- Replace the live value of a name, wherever the name was declared. -/
def rebind (env : Environment) (name : Name) (value : Value) : Except ScopeError Environment :=
  match env.bindings.stackOf name with
  | [] => .error (.unbound name)
  | _ :: covered => .ok { env with bindings := env.bindings.setStack name (value :: covered) }

/-- The live value of a name. -/
def lookup (env : Environment) (name : Name) : Except ScopeError Value :=
  match env.bindings.stackOf name with
  | value :: _ => .ok value
  | [] => if name ∈ env.current then .error (.corrupted name) else .error (.unbound name)

/-- Whether bindings are kept for a name. -/
def isBound (env : Environment) (name : Name) : Bool :=
  (env.bindings.lookup name).isSome

end Environment

end ScopeLang
