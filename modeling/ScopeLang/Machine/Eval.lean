import ScopeLang.Machine

namespace ScopeLang

/-!
# Evaluation

Expressions yield a value and statements only change the machine. Both operands
of an operator are always evaluated, the left one first. Programs need not
terminate, so evaluation takes fuel and has no result when the fuel runs out; a
run that has a result has the same result with more fuel.
-/

namespace Machine

mutual

/-- Evaluate an expression. -/
def eval (context : Context) : Nat → Expr → Machine → Option (Value × Machine)
  | 0, _, _ => none
  | fuel + 1, expr, machine =>
      match expr with
      | .number value => some (.number value, machine)
      | .bool value => some (.bool value, machine)
      | .ident name =>
          some (machine.settle ((machine.env.lookup name).mapError (.ofScope context.names)))
      | .binary op left right => do
          let (first, machine) ← eval context fuel left machine
          let (second, machine) ← eval context fuel right machine
          return machine.settle (op.apply first second)
      | .unary op operand => do
          let (value, machine) ← eval context fuel operand machine
          return machine.settle (op.apply value)
      | .read => some (machine.readNumber context.config.readPrompt)
      | .ret value =>
          if machine.failed then
            some (.unset, machine)
          else do
            let (value, machine) ← eval context fuel value machine
            return (.unset, machine.pushReturn value)
      | .lambda param body => some (machine.settle (.ok (.closure param body)))
      | .call callee arg =>
          if machine.failed then
            some (.unset, machine)
          else do
            let (function, machine) ← eval context fuel callee machine
            match function with
            | .closure param body =>
                let (value, machine) ← eval context fuel arg machine
                apply context fuel param body value machine
            | _ => return (.unset, machine.report .callNonFunction)

/--
Call a closure. The body runs also when the argument failed, without effects,
and the call takes its value from the return channel all the same.
-/
def apply (context : Context) :
    Nat → Name → List Stmt → Value → Machine → Option (Value × Machine)
  | 0, _, _, _, _ => none
  | fuel + 1, param, body, arg, machine =>
      match machine.brokenLimit? context.config with
      | some limit => some (.unset, machine.report (.recursionLimit limit))
      | none => do
          let machine ← execAll context fuel body (machine.enterCall context.names param arg)
          return machine.leaveCall

/-- Execute a statement. -/
def exec (context : Context) : Nat → Stmt → Machine → Option Machine
  | 0, _, _ => none
  | fuel + 1, statement, machine =>
      match statement with
      | .skip => some machine
      | .block body => block context fuel body machine
      | .ifThen condition thenBody =>
          if machine.failed then
            some machine
          else do
            let (value, machine) ← eval context fuel condition machine
            match machine.decideCondition value with
            | (some true, machine) => block context fuel thenBody machine
            | (_, machine) => return machine
      | .ifElse condition thenBody elseBody =>
          if machine.failed then
            some machine
          else do
            let (value, machine) ← eval context fuel condition machine
            match machine.decideCondition value with
            | (some true, machine) => block context fuel thenBody machine
            | (some false, machine) => block context fuel elseBody machine
            | (none, machine) => return machine
      | .loop condition body => loop context fuel condition body machine
      | .declare name value =>
          if machine.failed then
            some machine
          else do
            let (value, machine) ← eval context fuel value machine
            return machine.declare context.names name value
      | .assign name value =>
          if machine.failed then
            some machine
          else do
            let (value, machine) ← eval context fuel value machine
            return machine.assign context.names name value
      | .write value =>
          if machine.failed then
            some machine
          else do
            let (value, machine) ← eval context fuel value machine
            return machine.write value.text
      | .eval value =>
          if machine.failed then
            some machine
          else do
            let (_, machine) ← eval context fuel value machine
            return machine

/-- Repeat a body, each time in a scope of its own, while a condition holds. -/
def loop (context : Context) : Nat → Expr → List Stmt → Machine → Option Machine
  | 0, _, _, _ => none
  | fuel + 1, condition, body, machine =>
      if machine.failed then
        some machine
      else do
        let (value, machine) ← eval context fuel condition machine
        match machine.decideCondition value with
        | (some true, machine) =>
            let machine ← block context fuel body machine
            loop context fuel condition body machine
        | (_, machine) => return machine

/-- Execute a sequence in a scope of its own. -/
def block (context : Context) : Nat → List Stmt → Machine → Option Machine
  | 0, _, _ => none
  | fuel + 1, body, machine => do
      let machine ← execAll context fuel body machine.openScope
      return machine.closeScope

/-- Execute the statements of a sequence in order. -/
def execAll (context : Context) : Nat → List Stmt → Machine → Option Machine
  | 0, _, _ => none
  | _ + 1, [], machine => some machine
  | fuel + 1, statement :: rest, machine => do
      let machine ← exec context fuel statement machine
      execAll context fuel rest machine

end

/-- Run a fragment with the flag lowered first, and tell whether it stayed down. -/
def runFragment
    (context : Context)
    (fuel : Nat)
    (fragment : List Stmt)
    (machine : Machine) :
    Option (Bool × Machine) := do
  let machine ← execAll context fuel fragment machine.clearFailure
  return (!machine.failed, machine)

end Machine

end ScopeLang
