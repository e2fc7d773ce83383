import Handheld.Cpu

/-!
# Steps in a row

The steps of a processor one after another, with their costs, the trace and the notices. A fault
ends the run: the steps that were still to come are not taken.
-/

namespace Handheld.Cpu

set_option autoImplicit false

structure Run (β : Type) where
  cpu : Cpu β
  bus : β
  costs : Array UInt32
  trace : Array Event
  notices : Array Notice
  fault : Option Fault

variable {β : Type}

def Run.start (cpu : Cpu β) (bus : β) : Run β := ⟨cpu, bus, #[], #[], #[], none⟩

variable [Bus β]

def Run.next (run : Run β) : Run β :=
  match run with
  | ⟨cpu, bus, costs, trace, notices, some fault⟩ =>
    ⟨cpu, bus, costs, trace, notices, some fault⟩
  | ⟨cpu, bus, costs, trace, notices, none⟩ =>
    let (⟨cpu, bus, reported, ticks⟩, trace) := cpu.stepTraced bus trace
    let notices := notices ++ reported
    match ticks with
    | .ok cost => ⟨cpu, bus, costs.push cost, trace, notices, none⟩
    | .error fault => ⟨cpu, bus, costs, trace, notices, some fault⟩

def Run.steps : Nat → Run β → Run β
  | 0, run => run
  | count + 1, run => steps count run.next

/-- The first `count` steps, or as many as there are up to a fault. -/
def run (cpu : Cpu β) (bus : β) (count : Nat) : Run β := Run.steps count (.start cpu bus)

theorem Run.steps_succ (count : Nat) (run : Run β) : steps (count + 1) run = (steps count run).next
    := by
  induction count generalizing run with
  | zero => rfl
  | succ count induction => exact induction run.next

theorem run_succ (cpu : Cpu β) (bus : β) (count : Nat) :
    cpu.run bus (count + 1) = (cpu.run bus count).next :=
  Run.steps_succ count (.start cpu bus)

theorem Run.next_of_completed {run : Run β} {cost : UInt32} (going : run.fault = none)
    (completed : (run.cpu.step run.bus).ticks = .ok cost) :
    run.next =
      { cpu := (run.cpu.step run.bus).cpu
        bus := (run.cpu.step run.bus).bus
        costs := run.costs.push cost
        trace := (run.cpu.stepTraced run.bus run.trace).2
        notices := run.notices ++ (run.cpu.step run.bus).notices
        fault := none } := by
  obtain ⟨cpu, bus, costs, trace, notices, fault⟩ := run
  obtain rfl : fault = none := going
  simp only [next, step_traced_fst] at completed ⊢
  rw [completed]

theorem Run.fault_next_of_error {run : Run β} {fault : Fault} (going : run.fault = none)
    (stopped : (run.cpu.step run.bus).ticks = .error fault) : run.next.fault = some fault := by
  obtain ⟨cpu, bus, costs, trace, notices, before⟩ := run
  obtain rfl : before = none := going
  simp only [next, step_traced_fst] at stopped ⊢
  rw [stopped]

theorem Run.next_of_fault {run : Run β} {fault : Fault} (stopped : run.fault = some fault) :
    run.next = run := by
  obtain ⟨cpu, bus, costs, trace, notices, before⟩ := run
  obtain rfl : before = some fault := stopped
  rfl

end Handheld.Cpu
