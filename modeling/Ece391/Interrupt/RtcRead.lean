import Ece391.Library.Transition
import Ece391.SystemCall.Files
import Ece391.Process.Step

namespace Ece391

open Library

/-! # Waiting for the clock (rtc.c)

`rtc_read` is taken one statement at a time: between any two of them the clock
may tick and another process may run.  All readers share one flag.
-/

def Kernel.rtcInterrupt (kernel : Kernel) : Kernel := { kernel with rtcInterruptFlag := 1 }

/-- The statement of `rtc_read` that comes next. -/
inductive RtcStatement where
  | wait
  | clear
  | leave
deriving DecidableEq, Repr

/-- A call of `rtc_read`.  `ticked` says that the clock has ticked since it was
made; the code does not keep that. -/
structure RtcCall where
  next : RtcStatement
  ticked : Bool

/-- `returned` holds `ticked` of every call that has returned. -/
structure RtcReaders (Process : Type) where
  kernel : Kernel
  calls : Process → Option RtcCall
  returned : List Bool

inductive RtcInput (Process : Type) where
  | tick
  | call (process : Process)
  | advance (process : Process)

namespace RtcReaders

variable {Process : Type} [DecidableEq Process] {readers : RtcReaders Process}

def setCall (readers : RtcReaders Process) (process : Process) (call : Option RtcCall) :
    RtcReaders Process :=
  { readers with calls := Function.update readers.calls process call }

/-- The next statement of a call. -/
def advance (readers : RtcReaders Process) (process : Process) (call : RtcCall) :
    RtcReaders Process :=
  match call.next with
  | .wait =>
      if readers.kernel.rtcInterruptFlag = 0 then readers
      else readers.setCall process (some { call with next := .clear })
  | .clear =>
      { readers.setCall process (some { call with next := .leave }) with
        kernel := { readers.kernel with rtcInterruptFlag := 0 } }
  | .leave =>
      { readers.setCall process none with returned := readers.returned ++ [call.ticked] }

/-- A process makes one call at a time. -/
def step (readers : RtcReaders Process) : RtcInput Process → Option (RtcReaders Process)
  | .tick =>
      some { readers with
        kernel := readers.kernel.rtcInterrupt
        calls := fun process =>
          (readers.calls process).map fun call => { call with ticked := true } }
  | .call process =>
      match readers.calls process with
      | none => some (readers.setCall process (some ⟨.wait, false⟩))
      | some _ => none
  | .advance process => (readers.calls process).map fun call => readers.advance process call

/-- No call has been made yet. -/
def start (kernel : Kernel) : RtcReaders Process := ⟨kernel, fun _ => none, []⟩

/-- The clock ticked during every call that has returned. -/
def Waited (readers : RtcReaders Process) : Prop := ∀ ticked ∈ readers.returned, ticked = true

/-- The flag is clear when a call is made. -/
def CalledClear (readers : RtcReaders Process) : RtcInput Process → Prop
  | .call process => readers.calls process = none → readers.kernel.rtcInterruptFlag = 0
  | _ => True

end RtcReaders

def RtcInput.isCall {Process : Type} : RtcInput Process → Prop
  | .call _ => True
  | _ => False

def rtcSystem (Process : Type) [DecidableEq Process] :
    Transitions (RtcReaders Process) (RtcInput Process) := ⟨RtcReaders.step⟩

namespace RtcReaders

variable {Process : Type} {readers next : RtcReaders Process}

/-- A call whose loop the flag will end, or that is behind its loop, has seen a
tick. -/
structure Waiting (readers : RtcReaders Process) : Prop where
  calls : ∀ process call, readers.calls process = some call →
    call.next ≠ .wait ∨ readers.kernel.rtcInterruptFlag ≠ 0 → call.ticked = true
  returned : readers.Waited

/-- With the flag clear only calls behind their loop count. -/
theorem Waiting.cleared (waiting : readers.Waiting) :
    { readers with kernel := { readers.kernel with rtcInterruptFlag := 0 } }.Waiting := by
  refine ⟨fun process call found seen => ?_, waiting.returned⟩
  exact waiting.calls process call found (.inl (seen.resolve_right fun set => set rfl))

variable [DecidableEq Process]

theorem Waiting.setCall {process : Process} {call : Option RtcCall} (waiting : readers.Waiting)
    (isWaiting : ∀ other, call = some other →
      other.next ≠ .wait ∨ readers.kernel.rtcInterruptFlag ≠ 0 → other.ticked = true) :
    (readers.setCall process call).Waiting := by
  refine ⟨fun other found isFound seen => ?_, waiting.returned⟩
  simp only [RtcReaders.setCall, Function.update_apply] at isFound
  split at isFound
  · exact isWaiting found isFound seen
  · exact waiting.calls other found isFound seen

theorem Waiting.advance {process : Process} {call : RtcCall} (waiting : readers.Waiting)
    (found : readers.calls process = some call) : (readers.advance process call).Waiting := by
  have seen := waiting.calls process call found
  unfold RtcReaders.advance
  cases point : call.next with
  | wait =>
      dsimp only
      split
      · exact waiting
      · rename_i set
        refine waiting.setCall fun other isOther _ => ?_
        cases isOther
        exact seen (.inr set)
  | clear =>
      have ticked := seen (.inl (by rw [point]; decide))
      refine (waiting.setCall fun other isOther _ => ?_).cleared
      cases isOther
      exact ticked
  | leave =>
      have ticked := seen (.inl (by rw [point]; decide))
      have left : (readers.setCall process none).Waiting :=
        waiting.setCall fun other isOther => by cases isOther
      refine ⟨left.calls, fun entry member => ?_⟩
      rcases List.mem_append.mp member with earlier | last
      · exact waiting.returned entry earlier
      · rw [List.mem_singleton.mp last]
        exact ticked

theorem Waiting.step {input : RtcInput Process} (waiting : readers.Waiting)
    (clear : readers.CalledClear input) (stepped : readers.step input = some next) :
    next.Waiting := by
  cases input with
  | tick =>
      cases stepped
      refine ⟨fun process call found _ => ?_, waiting.returned⟩
      obtain ⟨before, _, rfl⟩ := Option.map_eq_some_iff.mp found
      rfl
  | call process =>
      simp only [RtcReaders.step] at stepped
      split at stepped
      · rename_i idle
        cases stepped
        refine waiting.setCall fun other isOther seen => ?_
        cases isOther
        rcases seen with behind | set
        · exact absurd rfl behind
        · exact absurd (clear idle) set
      · cases stepped
  | advance process =>
      obtain ⟨call, found, rfl⟩ := Option.map_eq_some_iff.mp stepped
      exact waiting.advance found

section Alone

variable {process : Process} {ticked : Bool}

theorem step_call (idle : readers.calls process = none) :
    readers.step (.call process) = some (readers.setCall process (some ⟨.wait, false⟩)) := by
  simp only [RtcReaders.step, idle]

theorem step_wait (waits : readers.calls process = some ⟨.wait, ticked⟩)
    (set : readers.kernel.rtcInterruptFlag ≠ 0) :
    readers.step (.advance process) = some (readers.setCall process (some ⟨.clear, ticked⟩)) := by
  simp only [RtcReaders.step, waits, Option.map_some, RtcReaders.advance, if_neg set]

theorem step_clear (clears : readers.calls process = some ⟨.clear, ticked⟩) :
    readers.step (.advance process) =
      some { readers.setCall process (some ⟨.leave, ticked⟩) with
        kernel := { readers.kernel with rtcInterruptFlag := 0 } } := by
  simp only [RtcReaders.step, clears, Option.map_some, RtcReaders.advance]

theorem step_leave (leaves : readers.calls process = some ⟨.leave, ticked⟩) :
    readers.step (.advance process) =
      some { readers.setCall process none with returned := readers.returned ++ [ticked] } := by
  simp only [RtcReaders.step, leaves, Option.map_some, RtcReaders.advance]

@[simp] theorem setCall_calls (call : Option RtcCall) :
    (readers.setCall process call).calls process = call := by
  simp only [RtcReaders.setCall, Function.update_self]

/-- A call that finds the flag set and is left alone returns at once, and does to
the kernel what `rtc_read` does in one step. -/
theorem run_alone (idle : readers.calls process = none)
    {value : Int} {after : Kernel} (read : readers.kernel.rtcRead = .done (value, after)) :
    (rtcSystem Process).run readers
        [.call process, .advance process, .advance process, .advance process] =
      some ⟨after, Function.update readers.calls process none, readers.returned ++ [false]⟩ := by
  have set : readers.kernel.rtcInterruptFlag ≠ 0 := by
    intro clear
    rw [Kernel.rtcRead, if_pos clear] at read
    cases read
  rw [Kernel.rtcRead, if_neg set] at read
  cases read
  refine Transitions.run_cons.mpr ⟨_, step_call idle, ?_⟩
  refine Transitions.run_cons.mpr ⟨_, step_wait (setCall_calls _) set, ?_⟩
  refine Transitions.run_cons.mpr ⟨_, step_clear (setCall_calls _), ?_⟩
  refine Transitions.run_cons.mpr ⟨_, step_leave (setCall_calls _), ?_⟩
  simp only [Transitions.run, RtcReaders.setCall, Function.update_idem]

theorem run_alone_unwaited (idle : readers.calls process = none)
    (set : readers.kernel.rtcInterruptFlag ≠ 0) :
    ¬ (rtcSystem Process).Always Waited readers
      [.call process, .advance process, .advance process, .advance process] := by
  intro always
  have read : readers.kernel.rtcRead = .done (0, { readers.kernel with rtcInterruptFlag := 0 }) :=
    if_neg set
  have waited := always.last (run_alone idle read)
  exact absurd (waited false (List.mem_append_right _ (List.mem_singleton_self _))) (by decide)

end Alone

end RtcReaders

/-- However a run goes on from any of its points without another call, every call
of `rtc_read` returns only after a tick, if and only if all calls of the run are
made while the flag is clear. -/
theorem rtcRead_waits_iff {Process : Type} [DecidableEq Process] (kernel : Kernel)
    (inputs : List (RtcInput Process)) :
    (∀ before behind, before ++ behind = inputs → ∀ steps, (∀ step ∈ steps, ¬ step.isCall) →
      (rtcSystem Process).Always RtcReaders.Waited (.start kernel) (before ++ steps)) ↔
      (rtcSystem Process).Respects RtcReaders.CalledClear (.start kernel) inputs := by
  have initial : (RtcReaders.start kernel : RtcReaders Process).Waiting :=
    ⟨fun _ _ found => (by cases found), fun _ member => absurd member List.not_mem_nil⟩
  have kept : ∀ (readers : RtcReaders Process) input next, readers.Waiting →
      readers.CalledClear input → readers.step input = some next → next.Waiting :=
    fun readers input next waiting clear stepped => waiting.step clear stepped
  refine Transitions.always_after_iff_respects kept (fun _ waiting => waiting.returned) ?_ ?_ initial
  · intro readers input other
    cases input with
    | call process => exact absurd trivial other
    | tick => trivial
    | advance process => trivial
  · intro readers input waiting set
    cases input with
    | tick => exact absurd trivial set
    | advance process => exact absurd trivial set
    | call process =>
        obtain ⟨idle, set⟩ := Classical.not_imp.mp set
        refine ⟨[.advance process, .advance process, .advance process], ?_,
          RtcReaders.run_alone_unwaited idle set⟩
        intro step member
        simp only [List.mem_cons, List.not_mem_nil, or_false, or_self] at member
        rw [member]
        exact id

/-- The tick came before the call. -/
theorem rtcRead_stale : ¬ (rtcSystem Unit).Always RtcReaders.Waited (.start (.boot zeroedMemory))
    [.tick, .call (), .advance (), .advance (), .advance ()] := by
  intro always
  have ticked := always.2 _ rfl
  exact RtcReaders.run_alone_unwaited rfl (by decide) ticked

end Ece391
