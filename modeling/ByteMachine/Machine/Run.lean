import ByteMachine.Machine.Step

/-!
# Runs

A run is a number of steps, ended early by the first that stops the machine. A run without a
limit is one with a limit that no run needs: between two steps a running machine differs
only in its registers and its program counter, which lies in RAM, so a run that is longer
than the number of these states has come back to one of them and never stops.
-/

namespace ByteMachine.Machine

/-- Steps at most `limit` times. The effects of earlier steps are collected in `before`,
newest first. -/
def runFrom : Nat → Machine → List Effects → Except StepError Transition
  | 0, machine, before => .ok ⟨machine, none, Effects.concat before.reverse⟩
  | limit + 1, machine, before =>
    match machine.step with
    | .error error => .error error
    | .ok ⟨machine, none, effects⟩ => runFrom limit machine (effects :: before)
    | .ok ⟨machine, some reason, effects⟩ =>
      .ok ⟨machine, some reason, Effects.concat (effects :: before).reverse⟩

/-- At most `limit` **steps**, and none behind the first that gives a reason to stop. It fails only
if a step does. -/
def runFor (limit : Nat) (machine : Machine) : Except StepError Transition :=
  machine.runFrom limit []

/-- The number of states in which a running machine can be **between** two steps: a program counter
in the memory, and a byte in each register. -/
def stateCount (machine : Machine) : Nat :=
  machine.ram.size * Nat.pow 256 machine.registers.count

/-- A run **without a limit**. It has no reason to stop if the machine never stops, and that is
known after as many steps as there are states. -/
def run (machine : Machine) : Except StepError Transition :=
  machine.runFor (machine.stateCount + 1)

end ByteMachine.Machine
