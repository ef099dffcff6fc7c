import ScopeLang.Proofs.Machine.EmptyScope
import ScopeLang.Proofs.Machine.Step

namespace ScopeLang

/-!
# A call of a lambda literal is a block

Calling a lambda expression on the spot does what a block does that declares the
parameter and goes on with the body, and then takes a value from the return
channel. The two differ in when the scope is opened, before or after the
argument, and in the number of active calls. Neither makes a difference: an
expression does not notice an empty scope around it, and without a limit nothing
looks at the number of active calls.
-/

namespace Run

variable {context : Context} {before after : Machine} {value : Value}

/-- Without a limit, a sequence runs in the same way whatever the number of active calls is. -/
theorem execAll_withCalls
    {body : List Stmt}
    (unlimited : context.config.maxDepth = none)
    (reachable : before.env.Reachable)
    (nested : 1 ≤ before.env.nested.length)
    (run : Run context (.execAll body) before .unset after)
    (count : Nat) :
    Run context (.execAll body) { before with activeCalls := count } .unset
      { after with activeCalls := count } := by
  have agree :
      before.AgreeWithin context.config 1 { before with activeCalls := count } :=
    ⟨.refl reachable nested, rfl, rfl, rfl, fun limited => (limited unlimited).elim⟩
  obtain ⟨last, lastRun, agreeAfter⟩ := run.of_agree agree nofun
  obtain ⟨fresh, -, grows⟩ := run.tidy.env
  obtain ⟨otherFresh, -, otherGrows⟩ := lastRun.tidy.env
  have sameEnv : last.env = after.env := by
    refine Environment.eq_of_scopes agreeAfter.env.bindings ?_
    rw [last.env.scopes_eq, after.env.scopes_eq, agreeAfter.env.current_eq, grows.enclosing]
    exact congrArg _ otherGrows.enclosing
  have calls : last.activeCalls = count :=
    lastRun.tidy.calls
  obtain rfl : last = { after with activeCalls := count } := by
    rw [← sameEnv, ← calls, ← agreeAfter.returns, ← agreeAfter.failed, ← agreeAfter.console]
  exact lastRun

/-- What a call of a lambda literal does, step by step. -/
theorem call_lambda_iff
    {param : Name}
    {body : List Stmt}
    {arg : Expr}
    (unlimited : context.config.maxDepth = none)
    (running : before.failed = false) :
    Run context (.eval (.call (.lambda param body) arg)) before value after ↔
      ∃ supply supplied last,
        Run context (.eval arg) before supply supplied ∧
          Run context (.execAll body) (supplied.enterCall context.names param supply)
            .unset last ∧
            last.leaveCall = (value, after) := by
  have closure : before.settle (.ok (.closure param body)) = (.closure param body, before) := by
    simp [Machine.settle, running]
  have allowed (machine : Machine) : machine.brokenLimit? context.config = none := by
    simp [Machine.brokenLimit?, unlimited]
  constructor
  · intro run
    cases run with
    | callSkipped up =>
        rw [running] at up
        cases up
    | call _ calleeRun argRun applyRun =>
        generalize calleeIs : Value.closure _ _ = callee at calleeRun
        cases calleeRun with
        | lambda settled =>
            rw [closure] at settled
            subst settled
            cases calleeIs
            cases applyRun with
            | applyRefused broken =>
                rw [allowed] at broken
                cases broken
            | apply _ bodyRun left =>
                exact ⟨_, _, _, argRun, bodyRun, left⟩
    | callRefused _ calleeRun notClosure =>
        cases calleeRun with
        | lambda settled =>
            rw [closure] at settled
            subst settled
            exact (notClosure _ _ rfl).elim
  · rintro ⟨supply, supplied, last, argRun, bodyRun, left⟩
    have calleeRun :
        Run context (.eval (.lambda param body)) before (.closure param body) before :=
      .lambda closure
    have applyRun :
        Run context (.apply param body supply) supplied value after :=
      .apply (allowed supplied) bodyRun left
    exact .call running calleeRun argRun applyRun

/-- What a block that begins with a declaration does, step by step. -/
theorem block_declare_iff
    {name : Name}
    {expr : Expr}
    {rest : List Stmt}
    (running : before.failed = false) :
    Run context (.exec (.block (.declare name expr :: rest))) before .unset after ↔
      ∃ declared middle last,
        Run context (.eval expr) before.openScope declared middle ∧
          Run context (.execAll rest) (middle.declare context.names name declared)
            .unset last ∧
            last.closeScope = after := by
  rw [exec_block_iff]
  constructor
  · rintro ⟨last, bodyRun, closed⟩
    cases bodyRun with
    | cons declareRun restRun =>
        cases declareRun with
        | skipped _ up =>
            have down : before.openScope.failed = false :=
              running
            rw [down] at up
            cases up
        | declare _ valueRun =>
            exact ⟨_, _, _, valueRun, restRun, closed⟩
  · rintro ⟨declared, middle, last, valueRun, restRun, closed⟩
    exact ⟨last, .cons (.declare running valueRun) restRun, closed⟩

end Run

namespace Machine

/-- A declaration does not look at the number of active calls. -/
theorem declare_withCalls
    (machine : Machine)
    (count : Nat)
    (names : NameTable)
    (name : Name)
    (value : Value) :
    { machine with activeCalls := count }.declare names name value =
      { machine.declare names name value with activeCalls := count } := by
  unfold declare
  cases machine.env.bind name value with
  | ok =>
      rfl
  | error =>
      simp only [report]
      split <;> rfl

/-- The scope of a call is one in which the parameter is declared. -/
theorem enterCall_eq
    (machine : Machine)
    (names : NameTable)
    (param : Name)
    (arg : Value) :
    machine.enterCall names param arg =
      { machine.openScope.declare names param arg with
        activeCalls := machine.activeCalls + 1 } :=
  declare_withCalls machine.openScope (machine.activeCalls + 1) names param arg

/-- Leaving a call is closing its scope and taking a value. -/
theorem leaveCall_eq
    (machine : Machine) :
    { machine with activeCalls := machine.activeCalls + 1 }.leaveCall =
      machine.closeScope.popReturn :=
  rfl

/-- A declaration in a scope that was just opened is never refused. -/
theorem declare_openScope
    (machine : Machine)
    (names : NameTable)
    (name : Name)
    (value : Value) :
    ∃ env,
      machine.env.openScope.bind name value = .ok env ∧
        machine.openScope.declare names name value = { machine with env := env } ∧
          1 ≤ env.nested.length :=
  ⟨_, rfl, rfl, Nat.le_add_left 1 _⟩

end Machine

/-- A call of a lambda literal and the block that it amounts to. -/
theorem Run.call_lambda_iff_block
    {context : Context}
    {before after : Machine}
    {value : Value}
    {param : Name}
    {body : List Stmt}
    {arg : Expr}
    (unlimited : context.config.maxDepth = none)
    (running : before.failed = false)
    (reachable : before.env.Reachable) :
    Run context (.eval (.call (.lambda param body) arg)) before value after ↔
      ∃ last,
        Run context (.exec (.block (.declare param arg :: body))) before .unset last ∧
          last.popReturn = (value, after) := by
  rw [call_lambda_iff unlimited running]
  constructor
  · rintro ⟨supply, supplied, last, argRun, bodyRun, left⟩
    obtain ⟨env, bound, declared, nested⟩ :=
      supplied.declare_openScope context.names param supply
    have inside :=
      (argRun.reachable reachable).openScope.of_bind bound
    rw [supplied.enterCall_eq, declared] at bodyRun
    have calls : last.activeCalls = supplied.activeCalls + 1 :=
      bodyRun.tidy.calls
    have innerRun :=
      execAll_withCalls unlimited inside nested bodyRun supplied.activeCalls
    have argInside :=
      (openScope_iff reachable rfl).mpr ⟨supplied, argRun, rfl⟩
    refine ⟨_, (block_declare_iff running).mpr
      ⟨supply, _, _, argInside, declared ▸ innerRun, rfl⟩, ?_⟩
    rw [← left, ← Machine.leaveCall_eq, ← calls]
  · rintro ⟨_, blockRun, popped⟩
    obtain ⟨supply, middle, last, argInside, bodyRun, rfl⟩ :=
      (block_declare_iff running).mp blockRun
    obtain ⟨supplied, argRun, rfl⟩ :=
      (openScope_iff reachable rfl).mp argInside
    obtain ⟨env, bound, declared, nested⟩ :=
      supplied.declare_openScope context.names param supply
    have inside :=
      (argRun.reachable reachable).openScope.of_bind bound
    rw [declared] at bodyRun
    have calls : last.activeCalls = supplied.activeCalls :=
      bodyRun.tidy.calls
    have calledRun :=
      execAll_withCalls unlimited inside nested bodyRun (supplied.activeCalls + 1)
    refine ⟨supply, supplied, { last with activeCalls := supplied.activeCalls + 1 },
      argRun, ?_, ?_⟩
    · rw [supplied.enterCall_eq, declared]
      exact calledRun
    · rw [← popped, ← Machine.leaveCall_eq, calls]

namespace Machine

/--
With the flag down and no limit on calls, calling a lambda literal ends exactly
when the block ends that declares its parameter and runs its body. The call then
leaves the machine of the block less one pending value, which is its own value.
The environment is one that operations on environments lead to; there, no name is
declared without a binding, which would show in its own scope only.
-/
theorem eval_call_lambda_eq_block
    (context : Context)
    (before : Machine)
    (unlimited : context.config.maxDepth = none)
    (running : before.failed = false)
    (reachable : before.env.Reachable)
    (param : Name)
    (body : List Stmt)
    (arg : Expr)
    (value : Value)
    (after : Machine) :
    (∃ fuel,
        eval context fuel (.call (.lambda param body) arg) before = some (value, after)) ↔
      ∃ fuel last,
        exec context fuel (.block (.declare param arg :: body)) before = some last ∧
          last.popReturn = (value, after) := by
  constructor
  · intro ended
    obtain ⟨last, blockRun, popped⟩ :=
      (Run.call_lambda_iff_block unlimited running reachable).mp
        (Run.iff_exists_fuel.mpr ended)
    obtain ⟨fuel, blockEnded⟩ := blockRun.exists_fuel
    obtain ⟨_, reached, same⟩ := Option.map_eq_some_iff.mp blockEnded
    obtain ⟨-, rfl⟩ := Prod.mk.inj same
    exact ⟨fuel, _, reached, popped⟩
  · rintro ⟨fuel, last, blockEnded, popped⟩
    have blockRun :
        Run context (.exec (.block (.declare param arg :: body))) before .unset last :=
      .of_run (Option.map_eq_some_iff.mpr ⟨last, blockEnded, rfl⟩)
    exact Run.iff_exists_fuel.mp
      ((Run.call_lambda_iff_block unlimited running reachable).mpr ⟨last, blockRun, popped⟩)

/--
An argument that fails after it has assigned to the name of the parameter, with
a value pending that the call takes although its body has no effect.
-/
theorem eval_call_lambda_eq_block_failing_argument :
    let arg : Expr :=
      .binary .div (.call (.lambda ⟨2⟩ [.assign ⟨1⟩ (.ident ⟨2⟩)]) (.number 8)) (.number 0)
    let body : List Stmt :=
      [.write (.ident ⟨1⟩), .eval (.ret (.ident ⟨1⟩))]
    let before : Machine :=
      { Machine.ofConsole (.ofInput .closed) with
        env := Environment.initial.after [.bind ⟨1⟩ (.number 5)]
        returns := [.bool true, .bool false] }
    before.failed = false ∧
      ∃ value after,
        eval ⟨.initial, {}⟩ 9 (.call (.lambda ⟨1⟩ body) arg) before = some (value, after) ∧
          value = .bool false ∧
            after.failed = true ∧
              after.env.bindings = [(⟨1⟩, [.number 8])] ∧
                ∃ fuel last,
                  exec ⟨.initial, {}⟩ fuel (.block (.declare ⟨1⟩ arg :: body)) before =
                      some last ∧
                    last.popReturn = (value, after) := by
  intro arg body before
  have ended :
      eval ⟨.initial, {}⟩ 9 (.call (.lambda ⟨1⟩ body) arg) before = some (.bool false, _) :=
    rfl
  refine ⟨rfl, _, _, ended, rfl, rfl, rfl, ?_⟩
  exact (eval_call_lambda_eq_block ⟨.initial, {}⟩ before rfl rfl ⟨_, rfl⟩ ⟨1⟩ body arg _ _).mp
    ⟨9, ended⟩

end Machine

end ScopeLang
