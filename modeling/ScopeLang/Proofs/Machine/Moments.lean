import ScopeLang.Proofs.Machine.Closures
import ScopeLang.Proofs.Machine.Diagnosis

namespace ScopeLang

/-!
# The moments of a run

A run starts further runs: those of its operands, of the statements of its body, of
the body that it calls. Each of them starts from what the ones before it have left.
A run that ends has ended every run that it reached, and it has given none of them
another lambda than it was given.
-/

/-- A task that is about to run on a machine. -/
structure Moment where
  task : Task
  machine : Machine

/-- A run starts another one, without entering the body of a call. -/
inductive Starts (context : Context) : Moment → Moment → Prop where
  | left {before op left right} :
      Starts context ⟨.eval (.binary op left right), before⟩ ⟨.eval left, before⟩
  | right {before middle op left right value} :
      Run context (.eval left) before value middle →
      Starts context ⟨.eval (.binary op left right), before⟩ ⟨.eval right, middle⟩
  | operand {before op operand} :
      Starts context ⟨.eval (.unary op operand), before⟩ ⟨.eval operand, before⟩
  | returned {before expr} :
      before.failed = false →
      Starts context ⟨.eval (.ret expr), before⟩ ⟨.eval expr, before⟩
  | callee {before callee arg} :
      before.failed = false →
      Starts context ⟨.eval (.call callee arg), before⟩ ⟨.eval callee, before⟩
  | arg {before called callee arg param body} :
      before.failed = false →
      Run context (.eval callee) before (.closure param body) called →
      Starts context ⟨.eval (.call callee arg), before⟩ ⟨.eval arg, called⟩
  | call {before called supplied callee arg param body value} :
      before.failed = false →
      Run context (.eval callee) before (.closure param body) called →
      Run context (.eval arg) called value supplied →
      Starts context ⟨.eval (.call callee arg), before⟩ ⟨.apply param body value, supplied⟩
  | execBlock {before body} :
      Starts context ⟨.exec (.block body), before⟩ ⟨.block body, before⟩
  | ifThen {before condition thenBody} :
      before.failed = false →
      Starts context ⟨.exec (.ifThen condition thenBody), before⟩ ⟨.eval condition, before⟩
  | ifThenTaken {before middle chosen condition thenBody value} :
      before.failed = false →
      Run context (.eval condition) before value middle →
      middle.decideCondition value = (some true, chosen) →
      Starts context ⟨.exec (.ifThen condition thenBody), before⟩ ⟨.block thenBody, chosen⟩
  | ifElse {before condition thenBody elseBody} :
      before.failed = false →
      Starts context ⟨.exec (.ifElse condition thenBody elseBody), before⟩
        ⟨.eval condition, before⟩
  | ifElseTaken {before middle chosen condition thenBody elseBody value} :
      before.failed = false →
      Run context (.eval condition) before value middle →
      middle.decideCondition value = (some true, chosen) →
      Starts context ⟨.exec (.ifElse condition thenBody elseBody), before⟩
        ⟨.block thenBody, chosen⟩
  | ifElseOther {before middle chosen condition thenBody elseBody value} :
      before.failed = false →
      Run context (.eval condition) before value middle →
      middle.decideCondition value = (some false, chosen) →
      Starts context ⟨.exec (.ifElse condition thenBody elseBody), before⟩
        ⟨.block elseBody, chosen⟩
  | execLoop {before condition body} :
      Starts context ⟨.exec (.loop condition body), before⟩ ⟨.loop condition body, before⟩
  | declare {before name expr} :
      before.failed = false →
      Starts context ⟨.exec (.declare name expr), before⟩ ⟨.eval expr, before⟩
  | assign {before name expr} :
      before.failed = false →
      Starts context ⟨.exec (.assign name expr), before⟩ ⟨.eval expr, before⟩
  | write {before expr} :
      before.failed = false →
      Starts context ⟨.exec (.write expr), before⟩ ⟨.eval expr, before⟩
  | evalOnly {before expr} :
      before.failed = false →
      Starts context ⟨.exec (.eval expr), before⟩ ⟨.eval expr, before⟩
  | loop {before condition body} :
      before.failed = false →
      Starts context ⟨.loop condition body, before⟩ ⟨.eval condition, before⟩
  | loopBody {before middle chosen condition body value} :
      before.failed = false →
      Run context (.eval condition) before value middle →
      middle.decideCondition value = (some true, chosen) →
      Starts context ⟨.loop condition body, before⟩ ⟨.block body, chosen⟩
  | loopAgain {before middle chosen again condition body value} :
      before.failed = false →
      Run context (.eval condition) before value middle →
      middle.decideCondition value = (some true, chosen) →
      Run context (.block body) chosen .unset again →
      Starts context ⟨.loop condition body, before⟩ ⟨.loop condition body, again⟩
  | block {before body} :
      Starts context ⟨.block body, before⟩ ⟨.execAll body, before.openScope⟩
  | first {before statement rest} :
      Starts context ⟨.execAll (statement :: rest), before⟩ ⟨.exec statement, before⟩
  | rest {before middle statement rest} :
      Run context (.exec statement) before .unset middle →
      Starts context ⟨.execAll (statement :: rest), before⟩ ⟨.execAll rest, middle⟩

/-- A run starts another one, over any number of others, all in the same body. -/
abbrev Within (context : Context) : Moment → Moment → Prop :=
  Relation.ReflTransGen (Starts context)

/-- A run reaches another one, which it starts over any number of others and calls. -/
inductive Reaches (context : Context) (outer : Moment) : Moment → Prop where
  | refl :
      Reaches context outer outer
  | starts {middle inner} :
      Reaches context outer middle →
      Starts context middle inner →
      Reaches context outer inner
  | enters {entry param body arg} :
      Reaches context outer ⟨.apply param body arg, entry⟩ →
      entry.brokenLimit? context.config = none →
      Reaches context outer ⟨.execAll body, entry.enterCall context.names param arg⟩

/-- What is reached from a run that is reached is reached. -/
theorem Reaches.trans
    {context : Context}
    {outer middle inner : Moment}
    (first : Reaches context outer middle)
    (second : Reaches context middle inner) :
    Reaches context outer inner := by
  induction second with
  | refl =>
      exact first
  | starts _ starts inductionHypothesis =>
      exact .starts inductionHypothesis starts
  | enters _ allowed inductionHypothesis =>
      exact .enters inductionHypothesis allowed

/-- A flag that is down was down before. -/
theorem Machine.Speaks.running
    {before after : Machine}
    (speaks : Speaks before after)
    (running : after.failed = false) :
    before.failed = false := by
  cases speaks with
  | silent _ afterUp =>
      exact nomatch running.symm.trans afterUp
  | well beforeDown | failing _ beforeDown =>
      exact beforeDown

namespace Run

/-- A run that ends with the flag down began with the flag down. -/
theorem running
    {context : Context}
    {task : Task}
    {before after : Machine}
    {value : Value}
    (run : Run context task before value after)
    (running : after.failed = false) :
    before.failed = false :=
  (Machine.Speaks.of_steps run.steps).running running

/-- A task ends in one way at most. -/
theorem unique
    {context : Context}
    {task : Task}
    {before after otherAfter : Machine}
    {value otherValue : Value}
    (run : Run context task before value after)
    (other : Run context task before otherValue otherAfter) :
    value = otherValue ∧ after = otherAfter := by
  obtain ⟨least, ends⟩ := run.exists_least_fuel
  obtain ⟨otherLeast, otherEnds⟩ := other.exists_least_fuel
  have ended := ends (max least otherLeast) (Nat.le_max_left _ _)
  have otherEnded := otherEnds (max least otherLeast) (Nat.le_max_right _ _)
  exact Prod.mk.inj (Option.some.inj (ended.symm.trans otherEnded))

/--
A run that ends has ended every run that it started. Runs are unique, so what ran before the
start is what ran before it in the whole run.
-/
theorem started
    {context : Context}
    {task : Task}
    {before after : Machine}
    {value : Value}
    {inner : Moment}
    (run : Run context task before value after)
    (starts : Starts context ⟨task, before⟩ inner) :
    ∃ innerValue innerAfter,
      Run context inner.task inner.machine innerValue innerAfter ∧
        Machine.Steps context innerAfter after := by
  cases starts with
  | left =>
      cases run with
      | binary leftRun rightRun settled =>
          rw [← settled]
          exact ⟨_, _, leftRun, rightRun.steps.trans (Machine.Steps.settle _ _)⟩
  | right earlier =>
      cases run with
      | binary leftRun rightRun settled =>
          obtain ⟨rfl, rfl⟩ := earlier.unique leftRun
          rw [← settled]
          exact ⟨_, _, rightRun, Machine.Steps.settle _ _⟩
  | operand =>
      cases run with
      | unary operandRun settled =>
          rw [← settled]
          exact ⟨_, _, operandRun, Machine.Steps.settle _ _⟩
  | returned running =>
      cases run with
      | retSkipped failed =>
          exact nomatch running.symm.trans failed
      | ret _ valueRun =>
          exact ⟨_, _, valueRun, .single (.pushReturn _)⟩
  | callee running =>
      cases run with
      | callSkipped failed =>
          exact nomatch running.symm.trans failed
      | call _ calleeRun argRun applyRun =>
          exact ⟨_, _, calleeRun, argRun.steps.trans applyRun.steps⟩
      | callRefused _ calleeRun =>
          exact ⟨_, _, calleeRun, .single (.report _)⟩
  | arg running earlier =>
      cases run with
      | callSkipped failed =>
          exact nomatch running.symm.trans failed
      | call _ calleeRun argRun applyRun =>
          obtain ⟨-, rfl⟩ := earlier.unique calleeRun
          exact ⟨_, _, argRun, applyRun.steps⟩
      | callRefused _ calleeRun notClosure =>
          exact (notClosure _ _ (earlier.unique calleeRun).1.symm).elim
  | call running earlier supplied =>
      cases run with
      | callSkipped failed =>
          exact nomatch running.symm.trans failed
      | call _ calleeRun argRun applyRun =>
          obtain ⟨closure, rfl⟩ := earlier.unique calleeRun
          obtain ⟨rfl, rfl⟩ := supplied.unique argRun
          cases closure
          exact ⟨_, _, applyRun, .refl⟩
      | callRefused _ calleeRun notClosure =>
          exact (notClosure _ _ (earlier.unique calleeRun).1.symm).elim
  | execBlock =>
      cases run with
      | skipped guarded =>
          exact guarded.elim
      | execBlock bodyRun =>
          exact ⟨_, _, bodyRun, .refl⟩
  | ifThen running =>
      cases run with
      | skipped _ failed =>
          exact nomatch running.symm.trans failed
      | ifThenTaken _ conditionRun decided bodyRun =>
          exact ⟨_, _, conditionRun, (Machine.Steps.decideCondition decided).trans bodyRun.steps⟩
      | ifThenLeft _ conditionRun decided =>
          exact ⟨_, _, conditionRun, Machine.Steps.decideCondition decided⟩
  | ifThenTaken running earlier taken =>
      cases run with
      | skipped _ failed =>
          exact nomatch running.symm.trans failed
      | ifThenTaken _ conditionRun decided bodyRun =>
          obtain ⟨rfl, rfl⟩ := earlier.unique conditionRun
          cases taken.symm.trans decided
          exact ⟨_, _, bodyRun, .refl⟩
      | ifThenLeft _ conditionRun decided notTrue =>
          obtain ⟨rfl, rfl⟩ := earlier.unique conditionRun
          cases taken.symm.trans decided
          exact (notTrue rfl).elim
  | ifElse running =>
      cases run with
      | skipped _ failed =>
          exact nomatch running.symm.trans failed
      | ifElseTaken _ conditionRun decided bodyRun | ifElseOther _ conditionRun decided bodyRun =>
          exact ⟨_, _, conditionRun, (Machine.Steps.decideCondition decided).trans bodyRun.steps⟩
      | ifElseLeft _ conditionRun decided =>
          exact ⟨_, _, conditionRun, Machine.Steps.decideCondition decided⟩
  | ifElseTaken running earlier taken =>
      cases run with
      | skipped _ failed =>
          exact nomatch running.symm.trans failed
      | ifElseTaken _ conditionRun decided bodyRun =>
          obtain ⟨rfl, rfl⟩ := earlier.unique conditionRun
          cases taken.symm.trans decided
          exact ⟨_, _, bodyRun, .refl⟩
      | ifElseOther _ conditionRun decided | ifElseLeft _ conditionRun decided =>
          obtain ⟨rfl, rfl⟩ := earlier.unique conditionRun
          cases taken.symm.trans decided
  | ifElseOther running earlier taken =>
      cases run with
      | skipped _ failed =>
          exact nomatch running.symm.trans failed
      | ifElseOther _ conditionRun decided bodyRun =>
          obtain ⟨rfl, rfl⟩ := earlier.unique conditionRun
          cases taken.symm.trans decided
          exact ⟨_, _, bodyRun, .refl⟩
      | ifElseTaken _ conditionRun decided | ifElseLeft _ conditionRun decided =>
          obtain ⟨rfl, rfl⟩ := earlier.unique conditionRun
          cases taken.symm.trans decided
  | execLoop =>
      cases run with
      | skipped guarded =>
          exact guarded.elim
      | execLoop loopRun =>
          exact ⟨_, _, loopRun, .refl⟩
  | declare running =>
      cases run with
      | skipped _ failed =>
          exact nomatch running.symm.trans failed
      | declare _ valueRun =>
          exact ⟨_, _, valueRun, .single (.declare _ _)⟩
  | assign running =>
      cases run with
      | skipped _ failed =>
          exact nomatch running.symm.trans failed
      | assign _ valueRun =>
          exact ⟨_, _, valueRun, .single (.assign _ _)⟩
  | write running =>
      cases run with
      | skipped _ failed =>
          exact nomatch running.symm.trans failed
      | write _ valueRun =>
          exact ⟨_, _, valueRun, .single (.write _)⟩
  | evalOnly running =>
      cases run with
      | skipped _ failed =>
          exact nomatch running.symm.trans failed
      | evalOnly _ valueRun =>
          exact ⟨_, _, valueRun, .refl⟩
  | loop running =>
      cases run with
      | loopSkipped failed =>
          exact nomatch running.symm.trans failed
      | loopAgain _ conditionRun decided bodyRun againRun =>
          have repeated := bodyRun.steps.trans againRun.steps
          exact ⟨_, _, conditionRun, (Machine.Steps.decideCondition decided).trans repeated⟩
      | loopLeft _ conditionRun decided =>
          exact ⟨_, _, conditionRun, Machine.Steps.decideCondition decided⟩
  | loopBody running earlier taken =>
      cases run with
      | loopSkipped failed =>
          exact nomatch running.symm.trans failed
      | loopAgain _ conditionRun decided bodyRun againRun =>
          obtain ⟨rfl, rfl⟩ := earlier.unique conditionRun
          cases taken.symm.trans decided
          exact ⟨_, _, bodyRun, againRun.steps⟩
      | loopLeft _ conditionRun decided notTrue =>
          obtain ⟨rfl, rfl⟩ := earlier.unique conditionRun
          cases taken.symm.trans decided
          exact (notTrue rfl).elim
  | loopAgain running earlier taken body =>
      cases run with
      | loopSkipped failed =>
          exact nomatch running.symm.trans failed
      | loopAgain _ conditionRun decided bodyRun againRun =>
          obtain ⟨rfl, rfl⟩ := earlier.unique conditionRun
          cases taken.symm.trans decided
          obtain ⟨-, rfl⟩ := body.unique bodyRun
          exact ⟨_, _, againRun, .refl⟩
      | loopLeft _ conditionRun decided notTrue =>
          obtain ⟨rfl, rfl⟩ := earlier.unique conditionRun
          cases taken.symm.trans decided
          exact (notTrue rfl).elim
  | block =>
      cases run with
      | block bodyRun =>
          exact ⟨_, _, bodyRun, .single .closeScope⟩
  | first =>
      cases run with
      | cons firstRun restRun =>
          exact ⟨_, _, firstRun, restRun.steps⟩
  | rest earlier =>
      cases run with
      | cons firstRun restRun =>
          obtain ⟨-, rfl⟩ := earlier.unique firstRun
          exact ⟨_, _, restRun, .refl⟩

/-- A call that ends and is not refused has ended its body. -/
theorem entered
    {context : Context}
    {param : Name}
    {body : List Stmt}
    {arg value : Value}
    {entry after : Machine}
    (run : Run context (.apply param body arg) entry value after)
    (allowed : entry.brokenLimit? context.config = none) :
    ∃ last,
      Run context (.execAll body) (entry.enterCall context.names param arg) .unset last ∧
        last.leaveCall = (value, after) := by
  cases run with
  | applyRefused broken =>
      exact nomatch allowed.symm.trans broken
  | apply _ bodyRun left =>
      exact ⟨_, bodyRun, left⟩

/-- A run that ends has ended every run that it reached. -/
theorem reached
    {context : Context}
    {task : Task}
    {before after : Machine}
    {value : Value}
    {inner : Moment}
    (run : Run context task before value after)
    (reaches : Reaches context ⟨task, before⟩ inner) :
    ∃ innerValue innerAfter,
      Run context inner.task inner.machine innerValue innerAfter ∧
        Machine.Steps context innerAfter after := by
  induction reaches with
  | refl =>
      exact ⟨value, after, run, .refl⟩
  | starts _ starts inductionHypothesis =>
      obtain ⟨_, _, middleRun, toEnd⟩ := inductionHypothesis
      obtain ⟨_, _, innerRun, toMiddle⟩ := middleRun.started starts
      exact ⟨_, _, innerRun, toMiddle.trans toEnd⟩
  | enters _ allowed inductionHypothesis =>
      obtain ⟨_, _, applyRun, toEnd⟩ := inductionHypothesis
      obtain ⟨last, bodyRun, left⟩ := applyRun.entered allowed
      refine ⟨_, last, bodyRun, .head ?_ toEnd⟩
      have leaves : Machine.Step context last last.leaveCall.2 := .leaveCall
      rwa [left] at leaves

end Run

section

variable {context : Context} {allowed : Lambda → Prop} {outer inner : Moment}

/-- All lambdas that a run is given, in its task and on the machine, are of some kind. -/
structure Moment.Every (allowed : Lambda → Prop) (moment : Moment) : Prop where
  written : moment.task.Every allowed
  held : moment.machine.Holds (Value.Every allowed)

/-- A run gives the runs that it starts no other lambdas than it was given. -/
theorem Moment.Every.starts
    (every : outer.Every allowed)
    (starts : Starts context outer inner) :
    inner.Every allowed := by
  obtain ⟨written, held⟩ := every
  cases starts with
  | left | callee | ifThen | ifElse | loop | first =>
      obtain ⟨firstWritten, -⟩ := List.forall_mem_append.mp written
      exact ⟨firstWritten, held⟩
  | right earlier | arg _ earlier | rest earlier =>
      obtain ⟨firstWritten, secondWritten⟩ := List.forall_mem_append.mp written
      exact ⟨secondWritten, (earlier.every firstWritten held).2⟩
  | operand | returned | execBlock | execLoop | declare | assign | write | evalOnly =>
      exact ⟨written, held⟩
  | call _ earlier supplied =>
      obtain ⟨calleeWritten, argWritten⟩ := List.forall_mem_append.mp written
      obtain ⟨closureEvery, calledHeld⟩ := earlier.every calleeWritten held
      obtain ⟨valueEvery, suppliedHeld⟩ := supplied.every argWritten calledHeld
      exact ⟨List.forall_mem_append.mpr ⟨closureEvery, valueEvery⟩, suppliedHeld⟩
  | ifThenTaken _ earlier decided | loopBody _ earlier decided =>
      obtain ⟨conditionWritten, bodyWritten⟩ := List.forall_mem_append.mp written
      obtain ⟨-, middleHeld⟩ := earlier.every conditionWritten held
      exact ⟨bodyWritten, middleHeld.decideCondition decided⟩
  | ifElseTaken _ earlier decided =>
      obtain ⟨conditionWritten, bodiesWritten⟩ := List.forall_mem_append.mp written
      obtain ⟨thenWritten, -⟩ := List.forall_mem_append.mp bodiesWritten
      obtain ⟨-, middleHeld⟩ := earlier.every conditionWritten held
      exact ⟨thenWritten, middleHeld.decideCondition decided⟩
  | ifElseOther _ earlier decided =>
      obtain ⟨conditionWritten, bodiesWritten⟩ := List.forall_mem_append.mp written
      obtain ⟨-, elseWritten⟩ := List.forall_mem_append.mp bodiesWritten
      obtain ⟨-, middleHeld⟩ := earlier.every conditionWritten held
      exact ⟨elseWritten, middleHeld.decideCondition decided⟩
  | loopAgain _ earlier decided body =>
      obtain ⟨conditionWritten, bodyWritten⟩ := List.forall_mem_append.mp written
      obtain ⟨-, middleHeld⟩ := earlier.every conditionWritten held
      obtain ⟨-, againHeld⟩ := body.every bodyWritten (middleHeld.decideCondition decided)
      exact ⟨written, againHeld⟩
  | block =>
      exact ⟨written, held.openScope⟩

/-- The body of a call is given no other lambdas than the call. -/
theorem Moment.Every.enters
    {entry : Machine}
    {param : Name}
    {body : List Stmt}
    {arg : Value}
    (every : Moment.Every allowed ⟨.apply param body arg, entry⟩) :
    Moment.Every allowed ⟨.execAll body, entry.enterCall context.names param arg⟩ := by
  obtain ⟨closureEvery, argEvery⟩ := List.forall_mem_append.mp every.written
  obtain ⟨-, bodyWritten⟩ := List.forall_mem_cons.mp closureEvery
  exact ⟨bodyWritten, every.held.enterCall argEvery context.names param⟩

/-- A run gives the runs that it reaches no other lambdas than it was given. -/
theorem Moment.Every.reaches
    (every : outer.Every allowed)
    (reaches : Reaches context outer inner) :
    inner.Every allowed := by
  induction reaches with
  | refl =>
      exact every
  | starts _ starts inductionHypothesis =>
      exact inductionHypothesis.starts starts
  | enters _ _ inductionHypothesis =>
      exact inductionHypothesis.enters

end

end ScopeLang
