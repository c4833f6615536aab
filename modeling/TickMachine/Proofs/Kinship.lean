import TickMachine.Proofs.Bond
import TickMachine.Proofs.Composed

/-!
# Kinship

Bonds are enough to compare machines while they make transitions.  A kinship is a bond on which
machines show the same to all of their operations: only the history and its limit may differ, and of
the runs the journal and the clock.  Whatever is composed of the parts of operations has equal
results on runs that are akin, and leaves them akin.
-/

namespace TickMachine

variable {β D N α : Type}

/-- A bond between runs that survives everything that operations are composed of. -/
structure Kinship
    (conduct : Conduct β D N)
    (akin : Run β D N → Run β D N → Prop) : Prop extends Bond akin where
  /-- The machines differ in their histories and in the limits of these only. -/
  same {left right : Run β D N} :
    akin left right → ∃ historyLimit history, right.machine =
      left.machine.withLimits left.machine.config.chainLimit historyLimit history
  /-- Both machines change in the same way. -/
  inner {left right : Run β D N} (change : Machine β D → Machine β D) :
    Machine.IsInner change → akin left right →
      akin (left.mapMachine change) (right.mapMachine change)
  /-- The hands of the callers change in the same way. -/
  handle {left right : Run β D N} (hands : Hands β) :
    akin left right → akin { left with hands := hands } { right with hands := hands }
  /-- The kinship survives all calls of hooks. -/
  spared (hook : Hook) : Spared conduct akin hook

namespace Kernel

variable {conduct : Conduct β D N} {akin : Run β D N → Run β D N → Prop}

section Serving

variable (kinship : Kinship conduct akin)
  (next : Parallel akin (nextRequest : Kernel β D N (Option (Request β))) nextRequest)
  (served : ∀ asked, Parallel akin (serveAsked conduct asked) (serveAsked conduct asked))
include kinship

theorem abortChain_parallel : Parallel akin (abortChain : Kernel β D N Unit) abortChain := by
  intro left right together
  obtain ⟨historyLimit, history, machine⟩ := kinship.same together
  have limit : right.machine.config.chainLimit = left.machine.config.chainLimit := by
    rw [machine]
    rfl
  rw [abortChain, bind_apply, bind_apply, machine_apply, machine_apply]
  dsimp only
  rw [limit]
  have ends : Parallel akin (do
      changeMachine emptied
      log (.chainAborted left.machine.config.chainLimit)
      refuse (.chainTooLong left.machine.config.chainLimit) : Kernel β D N Unit) _ :=
    .bind (fun _ _ together => .ok () (kinship.inner emptied (fun _ _ _ _ => rfl) together))
      fun _ => .bind (kinship.log _) fun _ => .refuse _
  exact ends together

include next served

theorem serveWithin_parallel (budget : Nat) :
    Parallel akin (serveWithin conduct budget) (serveWithin conduct budget) := by
  induction budget with
  | zero =>
      intro left right together
      obtain ⟨historyLimit, history, machine⟩ := kinship.same together
      have inbox : right.machine.inbox = left.machine.inbox := by
        rw [machine]
        rfl
      rw [serveWithin, bind_apply, bind_apply, machine_apply, machine_apply]
      dsimp only
      rw [inbox]
      split
      · exact .ok () together
      · exact abortChain_parallel kinship together
  | succ budget inductionHypothesis =>
      apply Parallel.bind next
      intro found
      cases found with
      | none => exact .pure ()
      | some asked => exact .bind (served asked) fun _ => inductionHypothesis

theorem serveHooks_parallel : Parallel akin (serveHooks conduct) (serveHooks conduct) := by
  intro left right together
  obtain ⟨historyLimit, history, machine⟩ := kinship.same together
  have budget : chainBudget right.machine = chainBudget left.machine := by
    rw [machine]
    rfl
  rw [serveHooks, bind_apply, bind_apply, machine_apply, machine_apply]
  dsimp only
  rw [budget]
  exact serveWithin_parallel kinship next served (chainBudget left.machine) together

end Serving

/-- What operations are composed of has equal results on runs that are akin. -/
theorem Composed.parallel
    {program : Kernel β D N α}
    (composed : Composed conduct program)
    (kinship : Kinship conduct akin) :
    Parallel akin program program := by
  induction composed with
  | pure value => exact .pure value
  | refuse refusal => exact .refuse refusal
  | bind _ _ first rest => exact .bind first rest
  | look blind _ rest =>
      intro left right together
      obtain ⟨historyLimit, history, machine⟩ := kinship.same together
      rw [bind_apply, bind_apply, machine_apply, machine_apply]
      dsimp only
      rw [machine, blind]
      exact rest left.machine together
  | change change isInner =>
      exact fun _ _ together => .ok () (kinship.inner change isInner together)
  | write entry => exact fun _ _ together => .ok () (kinship.write entry together)
  | record source target subject => exact kinship.addToHistory source target subject
  | react hook subject =>
      intro left right together
      rw [modifyGet_apply, modifyGet_apply, Run.react_eq, Run.react_eq,
        kinship.reaction together, kinship.settled together]
      exact .ok _ (kinship.spared hook subject together)
  | breakOff breakdown =>
      cases breakdown with
      | none => exact .pure ()
      | some message => exact fun _ _ together => .error _ together
  | handle move =>
      intro left right together
      rw [modifyGet_apply, modifyGet_apply, kinship.hands together]
      exact .ok _ (kinship.handle _ together)
  | takeUp origin request =>
      exact kinship.takeUp origin origin request fun _ _ together =>
        .ok () (kinship.write _ together)
  | orMend _ mend mended =>
      exact .orMend mended fun _ _ together => kinship.inner _ (fun _ _ _ _ => rfl) together
  | serveHooks _ _ next served => exact serveHooks_parallel kinship next served

end Kernel
end TickMachine
