import Lox.Proofs.Evaluation.Frame
import Lox.Session

/-!
Contract: the bindings of a session from step to step.

Owns:
- the steps of a session, and the session after them;
- that between steps only the global scope is there, and no name is ever lost from it;
- the frame of expressions, programs and sessions as one law.

Does not own: what steps write, and the values that they leave.
-/

namespace Lox

open Environment

namespace Session

/-- A step of a session: a source is run on some writer, or the expression that it begins with is
evaluated. -/
inductive Step where
  | run (source : String) (writer : Writer) (output : writer.State)
  | evaluate (source : String)

/-- The session after the step, however the step ends. -/
def after (session : Session) : Step → Session
  | .run source writer output =>
    match Program.ofSource source with
    | .error _ => session
    | .ok program => ⟨(executeAllOn writer program ⟨session.environment, output⟩).2.environment⟩
  | .evaluate source => (session.evaluate source).2

/-- A run on an output of some capacity is a step on that output. -/
theorem session_run (source : String) (capacity : Capacity) (session : Session) :
    (session.run source capacity).session =
      session.after (.run source Sink.writer { capacity := capacity }) := by
  simp only [run, after]
  cases Program.ofSource source with
  | error reports => rfl
  | ok program =>
    have done : executeAll program ⟨session.environment, { capacity := capacity }⟩ = _ :=
      executeAll_world program ⟨session.environment, { capacity := capacity }⟩
    simp only [execute, done]
    rfl

/-- The session after the steps. -/
def afterAll (steps : List Step) (session : Session) : Session :=
  steps.foldl after session

/-- Every step stays within a frame. -/
theorem framed_after (step : Step) (session : Session) :
    Framed (fun _ => True) (fun _ => True) session.environment
      (session.after step).environment := by
  have widen {Declared Changed : String → Prop} {before after : Environment}
      (framed : Framed Declared Changed before after) :
      Framed (fun _ => True) (fun _ => True) before after :=
    framed.mono (fun _ _ => trivial) (fun _ _ => trivial)
  cases step with
  | run source writer output =>
    rw [after]
    cases Program.ofSource source with
    | error reports => exact .refl session.environment
    | ok program =>
      exact widen (executeAllOn_framed program (⟨session.environment, output⟩ : writer.World))
  | evaluate source =>
    rw [after, evaluate]
    cases Expr.ofSource source with
    | error reports => exact .refl session.environment
    | ok tree => exact widen (tree.evaluate_framed session.environment)

theorem framed_afterAll (steps : List Step) (session : Session) :
    Framed (fun _ => True) (fun _ => True) session.environment
      (session.afterAll steps).environment := by
  induction steps generalizing session with
  | nil => exact .refl session.environment
  | cons step rest inductionHypothesis =>
    exact (framed_after step session).trans (inductionHypothesis (session.after step))

theorem afterAll_append (first second : List Step) (session : Session) :
    session.afterAll (first ++ second) = (session.afterAll first).afterAll second :=
  List.foldl_append

end Session

/-- However an execution on any writer ends, the bindings stay within the frame of the program, and
so they do on a sink.  An expression adds no name to any scope.  At the end of every step of a
session only the global scope is there, and it has every name that it had after the steps
before. -/
theorem scopes_framed :
    (∀ (writer : Writer) (program : Program) (world : writer.World),
      Framed (Program.Declares · program) (Program.Changes · program) world.environment
        (executeAllOn writer program world).2.environment) ∧
    (∀ (program : Program) (world : World),
      Framed (Program.Declares · program) (Program.Changes · program) world.environment
        (executeAll program world).2.environment) ∧
    (∀ (tree : Expr) (environment : Environment) (position : Nat) (name : String),
      (tree.evaluate environment).2.HasAt position name ↔ environment.HasAt position name) ∧
    (∀ steps : List Session.Step, (Session.afterAll steps {}).environment.depth = 1) ∧
    ∀ (steps others : List Session.Step) (name : String),
      (Session.afterAll steps {}).environment.HasAt 0 name →
        (Session.afterAll (steps ++ others) {}).environment.HasAt 0 name := by
  refine ⟨fun writer program world => executeAllOn_framed program world,
    fun program world => ?_, fun tree environment position name => ⟨fun held => ?_, ?_⟩,
    fun steps => (Session.framed_afterAll steps {}).depth_eq, fun steps others name held => ?_⟩
  · have done : executeAll program world = _ :=
      executeAll_world program ⟨world.environment, world.sink⟩
    rw [done]
    exact executeAllOn_framed program (⟨world.environment, world.sink⟩ : Sink.writer.World)
  · have framed := tree.evaluate_framed environment
    exact Classical.byContradiction fun notHeld =>
      (framed.newNames position name notHeld held).2
  · exact (tree.evaluate_framed environment).keepsNames position name
  · rw [Session.afterAll_append]
    exact (Session.framed_afterAll others _).keepsNames 0 name held

end Lox
