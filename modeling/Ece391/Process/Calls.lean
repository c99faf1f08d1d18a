import Ece391.Process.Effects

namespace Ece391

open Library

/-! # Which call created a process

The kernel keeps no record of the `execute` calls that are still waiting for
their child; a run is given one here, beside the state and never read by it.
-/

/-- A call of `execute` as the kernel met it. -/
structure ExecuteCall where
  caller : Nat
  esp : Word
  ebp : Word
  /-- The caller's descriptors at the call. -/
  fd : Nat → FileDescriptor

structure Recorded where
  kernel : Kernel
  /-- For a process that another process started, the call that created it. -/
  createdBy : Nat → Option ExecuteCall

namespace Recorded

def begin (kernel : Kernel) : Recorded := ⟨kernel, fun _ => none⟩

/-- The pid and the call of a process that `event` creates for a parent. -/
def creation (image : Image) (kernel : Kernel) : Event → Option (Nat × ExecuteCall)
  | .execute command frame =>
      match kernel.execute image command frame, findProgramid kernel.cr3,
        (findSlot kernel.openTasks).2 with
      | .done (.iret _, _), .done caller, some slot =>
          some (slot, ⟨caller, frame.esp, frame.ebp, (kernel.pcb caller).fd⟩)
      | _, _, _ => none
  | _ => none

def step (image : Image) (recorded : Recorded) (event : Event) : Option Recorded :=
  (recorded.kernel.step image event).map fun next =>
    { kernel := next
      createdBy :=
        match creation image recorded.kernel event with
        | some (slot, call) => Function.update recorded.createdBy slot (some call)
        | none => recorded.createdBy }

end Recorded

def recordedSystem (image : Image) : Transitions Recorded Event := ⟨Recorded.step image⟩

namespace Recorded

variable {image : Image} {recorded next : Recorded} {event : Event}

theorem step_eq_some (stepped : recorded.step image event = some next) :
    recorded.kernel.step image event = some next.kernel ∧
      next.createdBy = match creation image recorded.kernel event with
        | some (slot, call) => Function.update recorded.createdBy slot (some call)
        | none => recorded.createdBy := by
  obtain ⟨kernel, taken, rfl⟩ := Option.map_eq_some_iff.mp stepped
  exact ⟨taken, rfl⟩

theorem creation_of_launched {kernel after : Kernel} {command : Option CString} {frame : CallFrame}
    {entry : Word} {cur slot : Nat}
    (returned : kernel.execute image command frame = .done (.iret entry, after))
    (launched : Kernel.Launched kernel frame cur slot after) :
    creation image kernel (.execute command frame) =
      some (slot, ⟨cur, frame.esp, frame.ebp, (kernel.pcb cur).fd⟩) := by
  simp only [creation, returned, launched.current, launched.found]

theorem creation_of_refused {kernel after : Kernel} {command : Option CString} {frame : CallFrame}
    {value : Int} (returned : kernel.execute image command frame = .done (.returns value, after)) :
    creation image kernel (.execute command frame) = none := by
  simp only [creation, returned]

/-- Recording a step changes nothing about it. -/
theorem step_kernel (recorded : Recorded) (event : Event) :
    ((recordedSystem image).step recorded event).map kernel =
      (kernelSystem image).step recorded.kernel event := by
  show ((recorded.kernel.step image event).map _).map kernel = recorded.kernel.step image event
  rw [Option.map_map]
  exact Option.map_id'

theorem run_exists {kernel final : Kernel} {events : List Event}
    (same : recorded.kernel = kernel)
    (ran : (kernelSystem image).run kernel events = some final) :
    ∃ last, (recordedSystem image).run recorded events = some last ∧ last.kernel = final := by
  subst same
  rw [← Transitions.run_map step_kernel] at ran
  exact Option.map_eq_some_iff.mp ran

/-- What is allowed of the kernel's steps is allowed of the recorded ones. -/
theorem respects_kernel {allowed : Kernel → Event → Prop} {events : List Event}
    (respects : (kernelSystem image).Respects allowed recorded.kernel events) :
    (recordedSystem image).Respects (fun recorded event => allowed recorded.kernel event)
      recorded events :=
  Transitions.respects_map step_kernel respects

end Recorded

end Ece391
