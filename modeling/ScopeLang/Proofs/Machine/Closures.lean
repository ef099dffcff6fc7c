import ScopeLang.Proofs.Machine.Run
import ScopeLang.Proofs.Scope.OpenScopes

namespace ScopeLang

/-!
# The closures alive

A run makes closures of the lambdas that are written in its task, and else only
hands on closures that it finds in the environment or on the return channel. So
whatever holds of the lambdas in a task and in the closures of a machine holds of
every closure that the run yields or leaves behind, those that it calls included.
-/

/-- A parameter and a body. -/
structure Lambda where
  param : Name
  body : List Stmt

mutual

/-- The lambdas of an expression, with those that are written in their bodies. -/
def Expr.lambdas : Expr → List Lambda
  | .ident _ | .number _ | .bool _ | .read => []
  | .binary _ left right => left.lambdas ++ right.lambdas
  | .unary _ operand => operand.lambdas
  | .ret value => value.lambdas
  | .lambda param body => ⟨param, body⟩ :: Stmt.allLambdas body
  | .call callee arg => callee.lambdas ++ arg.lambdas

/-- The lambdas of a statement, with those that are written in their bodies. -/
def Stmt.lambdas : Stmt → List Lambda
  | .skip => []
  | .block body => Stmt.allLambdas body
  | .ifThen condition thenBody => condition.lambdas ++ Stmt.allLambdas thenBody
  | .ifElse condition thenBody elseBody =>
      condition.lambdas ++ (Stmt.allLambdas thenBody ++ Stmt.allLambdas elseBody)
  | .loop condition body => condition.lambdas ++ Stmt.allLambdas body
  | .declare _ value | .assign _ value | .write value | .eval value => value.lambdas

/-- The lambdas of the statements of a sequence. -/
def Stmt.allLambdas : List Stmt → List Lambda
  | [] => []
  | statement :: rest => statement.lambdas ++ Stmt.allLambdas rest

end

/-- The lambda that a closure is, with those that are written in its body. -/
def Value.lambdas : Value → List Lambda
  | .closure param body => ⟨param, body⟩ :: Stmt.allLambdas body
  | _ => []

/-- The lambdas that a task is given. -/
def Task.lambdas : Task → List Lambda
  | .eval expr => expr.lambdas
  | .apply param body arg => (Value.closure param body).lambdas ++ arg.lambdas
  | .exec statement => statement.lambdas
  | .loop condition body => condition.lambdas ++ Stmt.allLambdas body
  | .block body | .execAll body => Stmt.allLambdas body

/-- All lambdas of a value are of some kind. -/
def Value.Every (allowed : Lambda → Prop) (value : Value) : Prop :=
  ∀ lambda ∈ value.lambdas, allowed lambda

/-- All lambdas that a task is given are of some kind. -/
def Task.Every (allowed : Lambda → Prop) (task : Task) : Prop :=
  ∀ lambda ∈ task.lambdas, allowed lambda

/-- The lambda that is called is of the kind that all lambdas of the call are. -/
theorem Task.Every.called
    {allowed : Lambda → Prop}
    {param : Name}
    {body : List Stmt}
    {arg : Value}
    (every : (Task.apply param body arg).Every allowed) :
    allowed ⟨param, body⟩ :=
  every _ (List.mem_append_left _ List.mem_cons_self)

/-- The missing value holds no closure. -/
theorem Value.every_unset (allowed : Lambda → Prop) : Value.unset.Every allowed :=
  List.forall_mem_nil _

namespace BindingStacks

/-- Dropping values takes some off the top of a stack. -/
theorem foldl_drop_suffix
    (names : List Name)
    (bindings : BindingStacks)
    (name : Name) :
    (names.foldl (fun kept dropped => kept.drop dropped) bindings).stackOf name <:+
      bindings.stackOf name := by
  induction names generalizing bindings with
  | nil =>
      exact List.suffix_refl _
  | cons first rest inductionHypothesis =>
      refine (inductionHypothesis (bindings.drop first)).trans ?_
      by_cases here : name = first
      · subst here
        rw [stackOf_drop_self]
        exact List.tail_suffix _
      · exact stackOf_drop_of_ne here bindings ▸ List.suffix_refl _

end BindingStacks

namespace Environment

/-- Every value of every name satisfies a property, live or covered. -/
def Holds (property : Value → Prop) (env : Environment) : Prop :=
  ∀ name, ∀ value ∈ env.bindings.stackOf name, property value

namespace Holds

variable {property : Value → Prop} {env after : Environment} {name : Name} {value : Value}

/-- Closing a scope drops values and brings none. -/
theorem closeScope (holds : env.Holds property) : env.closeScope.Holds property := by
  intro name value member
  unfold Environment.closeScope at member
  split at member
  · exact holds name value member
  · have found := (BindingStacks.foldl_drop_suffix _ env.bindings name).subset member
    exact holds name value found

/-- A declaration adds no value but its own. -/
theorem of_bind
    (holds : env.Holds property)
    (satisfied : property value)
    (bound : env.bind name value = .ok after) :
    after.Holds property := by
  obtain ⟨-, -, bindings⟩ := of_bind_eq_ok bound
  intro other found member
  rw [bindings] at member
  by_cases same : other = name
  · subst same
    rw [BindingStacks.stackOf_push_self, List.mem_cons] at member
    rcases member with rfl | below
    · exact satisfied
    · exact holds other found below
  · rw [BindingStacks.stackOf_push_of_ne same] at member
    exact holds other found member

/-- An assignment adds no value but its own. -/
theorem of_rebind
    (holds : env.Holds property)
    (satisfied : property value)
    (rebound : env.rebind name value = .ok after) :
    after.Holds property := by
  obtain ⟨replaced, covered, stack, -, bindings⟩ := of_rebind_eq_ok rebound
  intro other found member
  rw [bindings] at member
  by_cases same : other = name
  · subst same
    rw [BindingStacks.stackOf_setStack_self, List.mem_cons] at member
    rcases member with rfl | below
    · exact satisfied
    · refine holds other found ?_
      rw [stack]
      exact List.mem_cons_of_mem _ below
  · rw [BindingStacks.stackOf_setStack_of_ne same] at member
    exact holds other found member

/-- What a lookup finds is one of the values held. -/
theorem lookup
    (holds : env.Holds property)
    (found : env.lookup name = .ok value) :
    property value := by
  unfold Environment.lookup at found
  split at found
  · rename_i stack
    cases found
    refine holds name value ?_
    rw [stack]
    exact List.mem_cons_self
  · split at found <;> cases found

end Holds

end Environment

namespace Machine

/-- Every value in the environment and on the return channel satisfies a property. -/
structure Holds (property : Value → Prop) (machine : Machine) : Prop where
  bound : machine.env.Holds property
  pending : ∀ value ∈ machine.returns, property value

namespace Holds

variable {property : Value → Prop} {machine : Machine}

/-- Nothing is bound and nothing pending before anything was evaluated. -/
theorem ofConsole (console : Console) : (Machine.ofConsole console).Holds property :=
  ⟨fun _ _ => nofun, fun _ => nofun⟩

theorem mono
    {weaker : Value → Prop}
    (holds : machine.Holds property)
    (implies : ∀ value, property value → weaker value) :
    machine.Holds weaker :=
  ⟨fun name value member => implies value (holds.bound name value member),
    fun value member => implies value (holds.pending value member)⟩

theorem report
    (holds : machine.Holds property)
    (error : EvalError) :
    (machine.report error).Holds property := by
  unfold Machine.report
  split
  · exact holds
  · exact ⟨holds.bound, holds.pending⟩

/-- Settling a result changes no value that the machine holds. -/
theorem settle
    (holds : machine.Holds property)
    (result : Except EvalError Value) :
    (machine.settle result).2.Holds property := by
  unfold Machine.settle
  split
  · exact holds
  · split
    · exact holds
    · exact holds.report _

theorem decideCondition
    {after : Machine}
    {value : Value}
    {decision : Option Bool}
    (holds : machine.Holds property)
    (decided : machine.decideCondition value = (decision, after)) :
    after.Holds property := by
  obtain rfl : (machine.decideCondition value).2 = after := by
    rw [decided]
  unfold Machine.decideCondition
  split
  · exact holds
  · split
    · exact holds
    · exact holds.report _

/-- Reading a number changes no value that the machine holds. -/
theorem readNumber
    (holds : machine.Holds property)
    (prompt : String) :
    (machine.readNumber prompt).2.Holds property := by
  unfold Machine.readNumber
  split
  · exact holds
  · exact ⟨holds.bound, holds.pending⟩

theorem write
    (holds : machine.Holds property)
    (text : String) :
    (machine.write text).Holds property := by
  unfold Machine.write
  split
  · exact holds
  · exact ⟨holds.bound, holds.pending⟩

/-- The return channel takes one more value, which is the one returned. -/
theorem pushReturn
    {value : Value}
    (holds : machine.Holds property)
    (satisfied : property value) :
    (machine.pushReturn value).Holds property :=
  ⟨holds.bound, List.forall_mem_cons.mpr ⟨satisfied, holds.pending⟩⟩

theorem openScope (holds : machine.Holds property) : machine.openScope.Holds property :=
  ⟨holds.bound, holds.pending⟩

theorem closeScope (holds : machine.Holds property) : machine.closeScope.Holds property :=
  ⟨holds.bound.closeScope, holds.pending⟩

theorem declare
    {value : Value}
    (holds : machine.Holds property)
    (satisfied : property value)
    (names : NameTable)
    (name : Name) :
    (machine.declare names name value).Holds property := by
  unfold Machine.declare
  split
  · rename_i bound
    exact ⟨holds.bound.of_bind satisfied bound, holds.pending⟩
  · exact holds.report _

theorem assign
    {value : Value}
    (holds : machine.Holds property)
    (satisfied : property value)
    (names : NameTable)
    (name : Name) :
    (machine.assign names name value).Holds property := by
  unfold Machine.assign
  split
  · rename_i rebound
    exact ⟨holds.bound.of_rebind satisfied rebound, holds.pending⟩
  · exact holds.report _

/-- A call binds its argument and holds nothing else that is new. -/
theorem enterCall
    {arg : Value}
    (holds : machine.Holds property)
    (satisfied : property arg)
    (names : NameTable)
    (param : Name) :
    (machine.enterCall names param arg).Holds property := by
  have opened :
      { machine.openScope with activeCalls := machine.activeCalls + 1 }.Holds property :=
    ⟨holds.bound, holds.pending⟩
  exact opened.declare satisfied names param

/-- A call yields a value of the channel, and unset when there is none. -/
theorem leaveCall
    (holds : machine.Holds property)
    (unset : property .unset) :
    property machine.leaveCall.1 ∧ machine.leaveCall.2.Holds property := by
  unfold Machine.leaveCall Machine.popReturn
  cases shape : machine.returns with
  | nil =>
      refine ⟨unset, holds.bound.closeScope, ?_⟩
      exact List.forall_mem_nil _
  | cons value rest =>
      have pending := holds.pending
      rw [shape] at pending
      obtain ⟨latest, others⟩ := List.forall_mem_cons.mp pending
      exact ⟨latest, holds.bound.closeScope, others⟩

end Holds

end Machine

section

variable {allowed : Lambda → Prop}

/-- A value that is settled is unset or the result, which carries over what holds of it. -/
theorem Value.every_settle
    (machine : Machine)
    {result : Except EvalError Value}
    (known : ∀ value, result = .ok value → value.Every allowed) :
    (machine.settle result).1.Every allowed := by
  unfold Machine.settle
  split
  · exact Value.every_unset allowed
  · split
    · exact known _ rfl
    · exact Value.every_unset allowed

/-- Operators yield numbers and truth values, never closures. -/
theorem BinaryOp.every_apply
    {op : BinaryOp}
    {left right value : Value}
    (applied : op.apply left right = .ok value) :
    value.Every allowed := by
  cases op with
  | add | sub | mul | eq | lt | le | gt | ge =>
      simp only [BinaryOp.apply] at applied
      cases operands : left.numbers right with
      | error =>
          rw [operands] at applied
          cases applied
      | ok =>
          rw [operands] at applied
          cases applied
          exact List.forall_mem_nil _
  | div =>
      simp only [BinaryOp.apply] at applied
      cases operands : left.numbers right with
      | error =>
          rw [operands] at applied
          cases applied
      | ok =>
          rw [operands] at applied
          simp only [bind, Except.bind] at applied
          split at applied
          · cases applied
          · cases applied
            exact List.forall_mem_nil _
  | ne =>
      cases applied
  | and | or =>
      simp only [BinaryOp.apply] at applied
      cases operands : left.booleans right with
      | error =>
          rw [operands] at applied
          cases applied
      | ok =>
          rw [operands] at applied
          cases applied
          exact List.forall_mem_nil _

/-- A prefix operator yields a number or a truth value, never a closure. -/
theorem UnaryOp.every_apply
    {op : UnaryOp}
    {operand value : Value}
    (applied : op.apply operand = .ok value) :
    value.Every allowed := by
  cases op <;> cases operand <;> cases applied <;> exact List.forall_mem_nil _

/-- A line of input is a number or nothing, never a closure. -/
theorem Value.every_numberIn (line : Option Line) : (Machine.numberIn line).Every allowed := by
  unfold Machine.numberIn
  split
  · split <;> exact List.forall_mem_nil _
  · exact Value.every_unset allowed

theorem Value.every_readNumber
    (machine : Machine)
    (prompt : String) :
    (machine.readNumber prompt).1.Every allowed := by
  unfold Machine.readNumber
  split
  · exact Value.every_unset allowed
  · exact Value.every_numberIn _

/-- What holds of all lambdas given to a run holds of all lambdas that it yields and leaves. -/
theorem Run.every
    {context : Context}
    {task : Task}
    {before after : Machine}
    {value : Value}
    (run : Run context task before value after)
    (written : task.Every allowed)
    (held : before.Holds (Value.Every allowed)) :
    value.Every allowed ∧ after.Holds (Value.Every allowed) := by
  have unset := Value.every_unset allowed
  induction run with
  | number | bool | retSkipped | callSkipped | skip | skipped | loopSkipped | nil =>
      exact ⟨List.forall_mem_nil _, held⟩
  | @ident before name _ settled =>
      rw [← settled]
      refine ⟨Value.every_settle _ ?_, held.settle _⟩
      intro value found
      cases looked : before.env.lookup name with
      | error =>
          rw [looked] at found
          cases found
      | ok =>
          rw [looked] at found
          cases found
          exact held.bound.lookup looked
  | binary _ _ settled left right =>
      obtain ⟨leftWritten, rightWritten⟩ := List.forall_mem_append.mp written
      obtain ⟨-, middleHeld⟩ := left leftWritten held
      obtain ⟨-, lastHeld⟩ := right rightWritten middleHeld
      rw [← settled]
      exact ⟨Value.every_settle _ fun _ => BinaryOp.every_apply, lastHeld.settle _⟩
  | unary _ settled operand =>
      obtain ⟨-, middleHeld⟩ := operand written held
      rw [← settled]
      exact ⟨Value.every_settle _ fun _ => UnaryOp.every_apply, middleHeld.settle _⟩
  | read answered =>
      rw [← answered]
      exact ⟨Value.every_readNumber _ _, held.readNumber _⟩
  | ret _ _ returned =>
      obtain ⟨valueEvery, middleHeld⟩ := returned written held
      exact ⟨unset, middleHeld.pushReturn valueEvery⟩
  | lambda settled =>
      rw [← settled]
      refine ⟨Value.every_settle _ ?_, held.settle _⟩
      intro value made
      cases made
      exact written
  | call _ _ _ _ callee arg applied =>
      obtain ⟨calleeWritten, argWritten⟩ := List.forall_mem_append.mp written
      obtain ⟨closureEvery, calledHeld⟩ := callee calleeWritten held
      obtain ⟨valueEvery, suppliedHeld⟩ := arg argWritten calledHeld
      exact applied (List.forall_mem_append.mpr ⟨closureEvery, valueEvery⟩) suppliedHeld
  | callRefused _ _ _ callee =>
      obtain ⟨calleeWritten, -⟩ := List.forall_mem_append.mp written
      obtain ⟨-, calledHeld⟩ := callee calleeWritten held
      exact ⟨unset, calledHeld.report _⟩
  | applyRefused =>
      exact ⟨unset, held.report _⟩
  | apply _ _ left body =>
      obtain ⟨closureEvery, argEvery⟩ := List.forall_mem_append.mp written
      obtain ⟨-, bodyWritten⟩ := List.forall_mem_cons.mp closureEvery
      obtain ⟨-, lastHeld⟩ := body bodyWritten (held.enterCall argEvery _ _)
      rw [← left]
      exact lastHeld.leaveCall unset
  | execBlock _ body | execLoop _ body | evalOnly _ _ body =>
      obtain ⟨-, afterHeld⟩ := body written held
      exact ⟨unset, afterHeld⟩
  | ifThenTaken _ _ decided _ condition body =>
      obtain ⟨conditionWritten, bodyWritten⟩ := List.forall_mem_append.mp written
      obtain ⟨-, middleHeld⟩ := condition conditionWritten held
      exact body bodyWritten (middleHeld.decideCondition decided)
  | ifElseTaken _ _ decided _ condition body =>
      obtain ⟨conditionWritten, bodiesWritten⟩ := List.forall_mem_append.mp written
      obtain ⟨thenWritten, -⟩ := List.forall_mem_append.mp bodiesWritten
      obtain ⟨-, middleHeld⟩ := condition conditionWritten held
      exact body thenWritten (middleHeld.decideCondition decided)
  | ifElseOther _ _ decided _ condition body =>
      obtain ⟨conditionWritten, bodiesWritten⟩ := List.forall_mem_append.mp written
      obtain ⟨-, elseWritten⟩ := List.forall_mem_append.mp bodiesWritten
      obtain ⟨-, middleHeld⟩ := condition conditionWritten held
      exact body elseWritten (middleHeld.decideCondition decided)
  | ifThenLeft _ _ decided _ condition | ifElseLeft _ _ decided condition
  | loopLeft _ _ decided _ condition =>
      obtain ⟨conditionWritten, -⟩ := List.forall_mem_append.mp written
      obtain ⟨-, middleHeld⟩ := condition conditionWritten held
      exact ⟨unset, middleHeld.decideCondition decided⟩
  | declare _ _ evaluated =>
      obtain ⟨valueEvery, middleHeld⟩ := evaluated written held
      exact ⟨unset, middleHeld.declare valueEvery _ _⟩
  | assign _ _ evaluated =>
      obtain ⟨valueEvery, middleHeld⟩ := evaluated written held
      exact ⟨unset, middleHeld.assign valueEvery _ _⟩
  | write _ _ evaluated =>
      obtain ⟨-, middleHeld⟩ := evaluated written held
      exact ⟨unset, middleHeld.write _⟩
  | loopAgain _ _ decided _ _ condition body again =>
      obtain ⟨conditionWritten, bodyWritten⟩ := List.forall_mem_append.mp written
      obtain ⟨-, middleHeld⟩ := condition conditionWritten held
      obtain ⟨-, againHeld⟩ := body bodyWritten (middleHeld.decideCondition decided)
      exact again written againHeld
  | block _ body =>
      obtain ⟨-, lastHeld⟩ := body written held.openScope
      exact ⟨unset, lastHeld.closeScope⟩
  | cons _ _ first remaining =>
      obtain ⟨firstWritten, restWritten⟩ := List.forall_mem_append.mp written
      obtain ⟨-, middleHeld⟩ := first firstWritten held
      exact remaining restWritten middleHeld

end

end ScopeLang
