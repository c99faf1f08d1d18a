import Ece391.Interrupt.EndOfInterrupt
import Ece391.Library.RoundRobin

namespace Ece391

open Library Kernel

/-! # Every active task gets its turn (scheduler.c) -/

/-- An event is a system call or a keyboard interrupt; what lies around `terminals[]` may change
with it. -/
inductive ScheduleInput where
  | timer
  | event (event : Event) (outside : Int → Terminal)

def ScheduleInput.isTimer : ScheduleInput → Bool
  | .timer => true
  | .event .. => false

def scheduleSystem (image : Image) : Transitions IrqState ScheduleInput where
  step
    | state, .timer => state.switchTask.toOption.map (·.2.1)
    | state, .event event outside =>
        (state.driver.kernel.step image event).map fun kernel =>
          { state.setKernel kernel with outside }

variable {image : Image} {kernel after : Kernel} {control : Control}

theorem terminalSwitch_currentTaskIdx {term : Int} {frame : CallFrame} {tlb : TlbUse}
    (done : kernel.terminalSwitch image term frame tlb = .done (control, after)) :
    after.currentTaskIdx = kernel.currentTaskIdx := by
  rcases terminalSwitch_eq_done done with
    ⟨_, rfl⟩ | ⟨target, cur, shown, different, rfl, leaving, ⟨inactive, started⟩ | ⟨active, resumed⟩⟩
  · rfl
  · exact (execute_currentTaskIdx started).trans leaving.currentTaskIdx
  · have same := congrArg (fun result => result.2.currentTaskIdx) resumed
    exact same.trans ((resumeTerminal_currentTaskIdx ..).trans leaving.currentTaskIdx)

theorem closeDescriptors_currentTaskIdx {fds : List Nat}
    (done : closeDescriptors fds kernel = .done after) :
    after.currentTaskIdx = kernel.currentTaskIdx := by
  induction fds generalizing kernel with
  | nil =>
      cases done
      rfl
  | cons fd rest ih =>
      obtain ⟨⟨value, middle⟩, closing, remaining⟩ := Outcome.bind_eq_done.mp done
      exact (ih remaining).trans (sysClose_quiet closing).currentTaskIdx

theorem halt_currentTaskIdx {status : Byte} (done : kernel.halt status = .done (control, after)) :
    after.currentTaskIdx = kernel.currentTaskIdx := by
  unfold halt at done
  obtain ⟨cur, _, rest⟩ := Outcome.bind_eq_done.mp done
  dsimp only at rest
  split at rest
  · cases rest
    rfl
  · obtain ⟨mapped, set, remaining⟩ := Outcome.bind_eq_done.mp rest
    obtain ⟨cr3, _, rfl⟩ := setProgrampage_eq_done.mp set
    obtain ⟨closed, closing, returned⟩ := Outcome.bind_eq_done.mp remaining
    cases returned
    have kept := closeDescriptors_currentTaskIdx closing
    exact kept

theorem step_currentTaskIdx {event : Event} (stepped : kernel.step image event = some after) :
    after.currentTaskIdx = kernel.currentTaskIdx := by
  cases event with
  | execute command frame =>
      obtain ⟨⟨control, next⟩, returned, rfl⟩ := Option.map_eq_some_iff.mp stepped
      exact execute_currentTaskIdx (Outcome.toOption_eq_some.mp returned)
  | halt status =>
      obtain ⟨⟨control, next⟩, returned, rfl⟩ := Option.map_eq_some_iff.mp stepped
      exact halt_currentTaskIdx (Outcome.toOption_eq_some.mp returned)
  | terminalSwitch term irq frame tlb =>
      obtain ⟨⟨control, next⟩, returned, rfl⟩ := Option.map_eq_some_iff.mp stepped
      have kept := terminalSwitch_currentTaskIdx (Outcome.toOption_eq_some.mp returned)
      exact kept
  | sysOpen filename =>
      obtain ⟨⟨value, next⟩, returned, rfl⟩ := Option.map_eq_some_iff.mp stepped
      exact (sysOpen_quiet (Outcome.toOption_eq_some.mp returned)).currentTaskIdx
  | sysClose fd =>
      obtain ⟨⟨value, next⟩, returned, rfl⟩ := Option.map_eq_some_iff.mp stepped
      exact (sysClose_quiet (Outcome.toOption_eq_some.mp returned)).currentTaskIdx
  | sysRead fd buf nbytes =>
      obtain ⟨⟨value, result, next⟩, returned, rfl⟩ := Option.map_eq_some_iff.mp stepped
      exact (sysRead_quiet (Outcome.toOption_eq_some.mp returned)).currentTaskIdx

variable {state next final : IrqState} {target : Nat} {writes : List PortWrite}

theorem searchTask_eq (state : IrqState) (remaining index : Nat) :
    state.searchTask remaining index =
      RoundRobin.search MAXTERMS state.activeTask remaining index := by
  induction remaining generalizing index with
  | zero => rfl
  | succ remaining ih => rw [IrqState.searchTask, RoundRobin.search, ih]

theorem switchTasks_index {newTaskIdx : Nat}
    (switched : state.switchTasks newTaskIdx = .done (control, next, writes)) :
    next.driver.kernel.currentTaskIdx = newTaskIdx := by
  rw [IrqState.switchTasks] at switched
  dsimp only at switched
  split at switched
  · cases switched
    rfl
  · cases switched

/-- A timer interrupt while a task is active: its turn comes, or comes nearer. -/
theorem switchTask_nearer (inside : state.driver.kernel.currentTaskIdx < MAXTERMS)
    (insideTarget : target < MAXTERMS) (active : state.activeTask target = true)
    (other : state.driver.kernel.currentTaskIdx ≠ target)
    (switched : state.switchTask = .done (control, next, writes)) :
    next.driver.kernel.currentTaskIdx < MAXTERMS ∧
      (next.driver.kernel.currentTaskIdx ≠ target →
        RoundRobin.waits MAXTERMS next.driver.kernel.currentTaskIdx target <
          RoundRobin.waits MAXTERMS state.driver.kernel.currentTaskIdx target) := by
  have there := RoundRobin.waits_offset inside insideTarget
  have positive : 0 < MAXTERMS := Nat.lt_of_le_of_lt (Nat.zero_le _) inside
  rw [← there] at active
  have finds := RoundRobin.search_ne_none (Nat.mod_lt _ positive)
    (RoundRobin.waits_lt positive _ _) active
  rw [there] at active
  rw [IrqState.switchTask, searchTask_eq] at switched
  cases found : RoundRobin.search MAXTERMS state.activeTask MAXTERMS
      ((state.driver.kernel.currentTaskIdx + 1) % MAXTERMS) with
  | none => exact absurd found finds
  | some newTaskIdx =>
      have nearer := RoundRobin.search_nearer inside insideTarget active found
      rw [found] at switched
      dsimp only at switched
      split at switched
      · rename_i same
        cases switched
        subst newTaskIdx
        exact absurd (nearer.2 other) (Nat.lt_irrefl _)
      · rw [switchTasks_index switched]
        exact nearer

theorem timer_switches (stepped : (scheduleSystem image).step state .timer = some next) :
    ∃ control writes, state.switchTask = .done (control, next, writes) := by
  obtain ⟨⟨control, after, writes⟩, returned, rfl⟩ := Option.map_eq_some_iff.mp stepped
  exact ⟨control, writes, Outcome.toOption_eq_some.mp returned⟩

theorem event_currentTaskIdx {event : Event} {outside : Int → Terminal}
    (stepped : (scheduleSystem image).step state (.event event outside) = some next) :
    next.driver.kernel.currentTaskIdx = state.driver.kernel.currentTaskIdx := by
  obtain ⟨after, kernelStep, rfl⟩ := Option.map_eq_some_iff.mp stepped
  exact step_currentTaskIdx kernelStep

/-- The task is active and waits for its turn. -/
structure AwaitsTurn (target : Nat) (state : IrqState) : Prop where
  inside : state.driver.kernel.currentTaskIdx < MAXTERMS
  active : state.activeTask target = true
  other : state.driver.kernel.currentTaskIdx ≠ target

theorem AwaitsTurn.next_inside {input : ScheduleInput} (insideTarget : target < MAXTERMS)
    (waiting : AwaitsTurn target state) (stepped : (scheduleSystem image).step state input = some next) :
    next.driver.kernel.currentTaskIdx < MAXTERMS := by
  cases input with
  | timer =>
      obtain ⟨control, writes, switched⟩ := timer_switches stepped
      exact (switchTask_nearer waiting.inside insideTarget waiting.active waiting.other switched).1
  | event event outside =>
      rw [event_currentTaskIdx stepped]
      exact waiting.inside

/-- While a task waits, the timer comes less than MAXTERMS times. -/
theorem timers_while_waiting {inputs : List ScheduleInput} (insideTarget : target < MAXTERMS)
    (always : (scheduleSystem image).Always (AwaitsTurn target) state inputs)
    (ran : (scheduleSystem image).run state inputs = some final) :
    inputs.countP ScheduleInput.isTimer < MAXTERMS := by
  have positive : 0 < MAXTERMS := Nat.lt_of_le_of_lt (Nat.zero_le _) insideTarget
  let rank : IrqState → Nat := fun state =>
    RoundRobin.waits MAXTERMS state.driver.kernel.currentTaskIdx target
  have falls : ∀ state input next, AwaitsTurn target state → AwaitsTurn target next →
      input.isTimer = true → (scheduleSystem image).step state input = some next →
        rank next < rank state := by
    intro state input next waiting later isTimer stepped
    cases input with
    | timer =>
        obtain ⟨control, writes, switched⟩ := timer_switches stepped
        exact (switchTask_nearer waiting.inside insideTarget waiting.active waiting.other
          switched).2 later.other
    | event event outside => cases isTimer
  have rests : ∀ state input next, AwaitsTurn target state → AwaitsTurn target next →
      input.isTimer = false → (scheduleSystem image).step state input = some next →
        rank next ≤ rank state := by
    intro state input next waiting later isEvent stepped
    cases input with
    | timer => cases isEvent
    | event event outside =>
        exact Nat.le_of_eq (congrArg (RoundRobin.waits MAXTERMS · target)
          (event_currentTaskIdx stepped))
  have bound := Transitions.turns_le_rank rank falls rests always ran
  have short : rank state < MAXTERMS := RoundRobin.waits_lt positive _ _
  omega

theorem always_awaits {inputs : List ScheduleInput} (insideTarget : target < MAXTERMS)
    (inside : state.driver.kernel.currentTaskIdx < MAXTERMS)
    (active : (scheduleSystem image).Always (fun state => state.activeTask target = true) state inputs)
    (other : (scheduleSystem image).Always
      (fun state => state.driver.kernel.currentTaskIdx ≠ target) state inputs) :
    (scheduleSystem image).Always (AwaitsTurn target) state inputs := by
  induction inputs generalizing state with
  | nil => exact ⟨inside, active, other⟩
  | cons input rest ih =>
      have waiting : AwaitsTurn target state := ⟨inside, active.1, other.1⟩
      refine ⟨waiting, fun next stepped => ?_⟩
      exact ih (waiting.next_inside insideTarget stepped) (active.2 next stepped)
        (other.2 next stepped)

/-- A task that stays active has its turn by the time the timer has come MAXTERMS times,
whatever the other tasks, the system calls and the user do. -/
theorem active_task_has_turn {inputs : List ScheduleInput} (insideTarget : target < MAXTERMS)
    (inside : state.driver.kernel.currentTaskIdx < MAXTERMS)
    (active : (scheduleSystem image).Always (fun state => state.activeTask target = true) state inputs)
    (ran : (scheduleSystem image).run state inputs = some final)
    (many : MAXTERMS ≤ inputs.countP ScheduleInput.isTimer) :
    ¬ (scheduleSystem image).Always
      (fun state => state.driver.kernel.currentTaskIdx ≠ target) state inputs := by
  intro other
  have few := timers_while_waiting insideTarget (always_awaits insideTarget inside active other) ran
  omega

theorem setTerminal_active {task : Int} {terminal : Terminal} (other : Int)
    (same : terminal.active = (state.terminal task).active) :
    ((state.setTerminal task terminal).terminal other).active = (state.terminal other).active := by
  cases place : terminalAt task with
  | some term =>
      have before : state.terminal task = state.driver.kernel.terminals term := by
        simp only [IrqState.terminal, place]
      rw [before] at same
      simp only [IrqState.setTerminal, place, IrqState.terminal, IrqState.setKernel,
        Kernel.setTerminal]
      cases terminalAt other with
      | none => rfl
      | some otherTerm =>
          dsimp only
          by_cases here : otherTerm = term
          · subst otherTerm
            rw [Function.update_self, same]
          · rw [Function.update_of_ne here]
  | none =>
      have before : state.terminal task = state.outside task := by
        simp only [IrqState.terminal, place]
      rw [before] at same
      simp only [IrqState.setTerminal, place, IrqState.terminal]
      cases terminalAt other with
      | some otherTerm => rfl
      | none =>
          dsimp only
          by_cases here : other = task
          · subst other
            rw [Function.update_self, same]
          · rw [Function.update_of_ne here]

theorem setTerminal_tasks (task : Int) (terminal : Terminal) :
    (state.setTerminal task terminal).driver.kernel.tasks = state.driver.kernel.tasks := by
  rw [IrqState.setTerminal]
  split <;> rfl

theorem setTerminal_activeTask {task : Int} {terminal : Terminal} (index : Nat)
    (same : terminal.active = (state.terminal task).active) :
    (state.setTerminal task terminal).activeTask index = state.activeTask index := by
  rw [IrqState.activeTask, IrqState.activeTask, setTerminal_tasks]
  cases state.driver.kernel.tasks index with
  | none => rfl
  | some other =>
      dsimp only
      rw [setTerminal_active other same]

/-- A switch leaves all tasks as active as they were. -/
theorem switchTask_activeTask (switched : state.switchTask = .done (control, next, writes))
    (index : Nat) : next.activeTask index = state.activeTask index := by
  rw [IrqState.switchTask] at switched
  split at switched
  · cases switched
    rfl
  · split at switched
    · cases switched
      rfl
    · rw [IrqState.switchTasks] at switched
      dsimp only at switched
      split at switched
      · rename_i outgoing incoming _ _
        cases switched
        let saved : Terminal := { state.terminal outgoing with
          esp := state.driver.kernel.esp_0
          ebp := state.driver.kernel.ebp_0
          kernelEsp := state.driver.kernel.tssEsp0
          cr3 := state.driver.kernel.cr3 }
        have sameActive : saved.active = (state.terminal outgoing).active := rfl
        have kept := setTerminal_activeTask index sameActive
        exact kept
      · cases switched

/-- Two active tasks, the first of which runs. -/
def twoTasksState : IrqState :=
  ⟨⟨twoTasks, ⟨false, false, false, false, false⟩⟩, fun _ => zeroedTerminal⟩

/-- The second one has its turn. -/
theorem active_task_has_turn_second :
    ¬ (scheduleSystem shellImage).Always
      (fun state => state.driver.kernel.currentTaskIdx ≠ 1) twoTasksState [.timer, .timer, .timer] := by
  have active : (scheduleSystem shellImage).Always (fun state => state.activeTask 1 = true)
      twoTasksState [.timer, .timer, .timer] := by
    have onlyTimers : (scheduleSystem shellImage).Respects (fun _ input => input = .timer)
        twoTasksState [.timer, .timer, .timer] := by
      refine Transitions.respects_of_forall _ fun input member _ => ?_
      simpa using member
    refine Transitions.always_of_respects ?_ rfl onlyTimers
    rintro state input next holds rfl stepped
    obtain ⟨control, writes, switched⟩ := timer_switches stepped
    exact (switchTask_activeTask switched 1).trans holds
  have runs : ((scheduleSystem shellImage).run twoTasksState [.timer, .timer, .timer]).isSome :=
    rfl
  obtain ⟨final, ran⟩ := Option.isSome_iff_exists.mp runs
  exact active_task_has_turn (by decide) (by decide) active ran (by decide)

end Ece391
