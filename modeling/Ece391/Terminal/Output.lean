import Ece391.Terminal.Cursor

namespace Ece391

open Library Kernel

/-! # What write prints -/

variable {image : Image} {behind : BehindTables} {driver : TerminalDriver} {buf other : UserMemory}
  {console : Console} {nbytes : Int} {length : Nat} {cached : Nat → Bool}

theorem strlenFrom_eq_done {limit i : Nat} :
    strlenFrom buf limit i = .done length ↔ i ≤ length ∧ length < i + limit ∧
      (∀ j, i ≤ j → j < length → ∃ byte, buf j = some byte ∧ byte ≠ 0) ∧ buf length = some 0 := by
  induction limit generalizing i with
  | zero =>
      simp only [strlenFrom, reduceCtorEq, false_iff]
      omega
  | succ limit ih =>
      simp only [strlenFrom]
      constructor
      · intro done
        split at done
        · cases done
        · rename_i byte present
          split at done
          · rename_i zero
            cases done
            rw [zero] at present
            exact ⟨Nat.le_refl _, by omega, fun j low below => by omega, present⟩
          · rename_i nonzero
            obtain ⟨low, high, inside, ended⟩ := ih.mp done
            refine ⟨by omega, by omega, fun j jLow below => ?_, ended⟩
            by_cases first : j = i
            · exact ⟨byte, by rw [first, present], nonzero⟩
            · exact inside j (by omega) below
      · intro measured
        obtain ⟨low, high, inside, ended⟩ := measured
        by_cases last : i = length
        · rw [last, ended]
          rfl
        · obtain ⟨byte, present, nonzero⟩ := inside i (Nat.le_refl _) (by omega)
          rw [present]
          dsimp only
          rw [if_neg nonzero]
          exact ih.mpr ⟨by omega, by omega, fun j jLow below => inside j (by omega) below, ended⟩

theorem strlen_eq_done : strlen buf = .done length ↔ length < 4294967296 ∧
    (∀ j < length, ∃ byte, buf j = some byte ∧ byte ≠ 0) ∧ buf length = some 0 := by
  simp only [strlen]
  rw [strlenFrom_eq_done, Nat.zero_add]
  constructor
  · intro measured
    obtain ⟨_, bound, inside, ended⟩ := measured
    exact ⟨bound, fun j below => inside j (Nat.zero_le _) below, ended⟩
  · intro measured
    obtain ⟨bound, inside, ended⟩ := measured
    exact ⟨Nat.zero_le _, bound, fun j _ below => inside j below, ended⟩

namespace Console

/-- On the video page every character can be stored. -/
theorem InRows.puts_char (inRows : console.InRows) (onPage : console.y ≤ NUM_ROWS) (char : Byte) :
    ∃ after, console.putc char = .done after := by
  obtain ⟨left, right, top, bottom⟩ := inRows
  unfold NUM_COLS at right
  unfold NUM_ROWS at onPage bottom
  simp only [Console.putc]
  split
  · exact ⟨_, rfl⟩
  · simp only [Console.storeCell]
    have inPage : 0 ≤ 2 * ((NUM_COLS : Int) * console.y + console.x) ∧
        2 * ((NUM_COLS : Int) * console.y + console.x) < MEM_4KB := by
      simp only [NUM_COLS, MEM_4KB]
      omega
    rw [if_pos inPage]
    exact ⟨_, rfl⟩

/-- As long as no NUL comes, the loop prints byte after byte. -/
theorem InRows.prints (measured : strlen buf = .done length) {remaining i : Nat} {toPrint : Byte}
    (inRows : console.InRows) (inside : i + remaining ≤ length) (loaded : buf i = some toPrint) :
    ∃ printed after, console.writeLoop buf remaining i toPrint = .done (printed, after) ∧
      printed.map some = (List.range' i remaining).map buf := by
  obtain ⟨_, nonzero, ended⟩ := strlen_eq_done.mp measured
  induction remaining generalizing i toPrint console with
  | zero => exact ⟨[], console, rfl, rfl⟩
  | succ remaining ih =>
      obtain ⟨byte, present, notNul⟩ := nonzero i (by omega)
      obtain rfl : byte = toPrint := Option.some.inj (present.symm.trans loaded)
      obtain ⟨wrappedIn, onPage⟩ := inRows.wrapLine (length > NUM_COLS)
      obtain ⟨put, putting⟩ := wrappedIn.puts_char onPage byte
      have putIn := wrappedIn.putc byte put putting
      obtain ⟨next, nextLoaded⟩ : ∃ next, buf (i + 1) = some next := by
        by_cases last : i + 1 = length
        · exact ⟨0, by rw [last, ended]⟩
        · obtain ⟨next, nextLoaded, _⟩ := nonzero (i + 1) (by omega)
          exact ⟨next, nextLoaded⟩
      obtain ⟨rest, after, printsRest, same⟩ := ih putIn (by omega) nextLoaded
      refine ⟨byte :: rest, after, ?_, ?_⟩
      · simp only [Console.writeLoop]
        rw [if_neg notNul, measured, Outcome.done_bind, putting, Outcome.done_bind, nextLoaded]
        dsimp only
        rw [printsRest]
        rfl
      · rw [List.range'_succ, List.map_cons, List.map_cons, same, present]

end Console

/-- `write` to the terminal prints the `nbytes` bytes at `buf` and returns
`nbytes`. -/
def WritesAll (kernel : Kernel) (cached : Nat → Bool) (buf : UserMemory) (nbytes : Int) : Prop :=
  ∃ printed after, kernel.sysWrite cached 1 buf nbytes = .done (nbytes, printed, after) ∧
    printed.map some = (List.range nbytes.toNat).map buf

theorem writesAll_iff {kernel : Kernel} {processes : Forest TerminalId Nat}
    (attended : Attended kernel processes) (inRows : CursorsInRows kernel) (low : 0 ≤ nbytes)
    (high : nbytes < 2147483648) :
    WritesAll kernel cached buf nbytes ↔ strlen buf = .done nbytes.toNat := by
  constructor
  · intro writes
    obtain ⟨printed, after, done, _⟩ := writes
    obtain ⟨length, console, measured, value, _⟩ := attended.write done
    obtain ⟨bound, _⟩ := strlen_eq_done.mp measured
    have same : length = nbytes.toNat := by
      unfold int32 at value
      split at value <;> omega
    rw [← same]
    exact measured
  · intro measured
    obtain ⟨_, nonzero, ended⟩ := strlen_eq_done.mp measured
    obtain ⟨toPrint, loaded⟩ : ∃ toPrint, buf 0 = some toPrint := by
      by_cases empty : nbytes.toNat = 0
      · exact ⟨0, by rw [← empty, ended]⟩
      · obtain ⟨byte, present, _⟩ := nonzero 0 (by omega)
        exact ⟨byte, present⟩
    have shownIn : kernel.shownConsole.InRows := inRows kernel.oldTerminal
    obtain ⟨printed, console, prints, same⟩ :=
      shownIn.prints measured (Nat.le_of_eq (Nat.zero_add _)) loaded
    have writes : kernel.shownConsole.terminalWrite buf nbytes = .done (printed, console) := by
      rw [Console.terminalWrite, loaded]
      exact prints
    obtain ⟨after, done⟩ := attended.writes cached writes measured
    have value : int32 nbytes.toNat = nbytes := by
      rw [int32_of_lt (by omega)]
      omega
    rw [value] at done
    refine ⟨printed, after, done, ?_⟩
    rw [same, List.range_eq_range']

theorem bootedShell_exists :
    ∃ start, FirstShell shellImage start ∧ BootMessages start := by
  obtain ⟨start, started, launched⟩ := firstShell_exists shellImage_valid zeroedMemory zeroedFrame
  have startX : start.screenX = 0 := launched.display.screenX.trans (boot_screenX _)
  have startY : start.screenY = 0 := launched.display.screenY.trans (boot_screenY _)
  let blank : Console := ⟨fun _ => 0, 0, 0, fun _ => 0, 0⟩
  exact ⟨start, started, blank, blank, [], rfl, rfl, rfl, startX, startY⟩

/-- The bytes a, b and NUL. -/
def twoChars : UserMemory := fun i => some (if i = 0 then 97 else if i = 1 then 98 else 0)

theorem twoChars_strlen : strlen twoChars = .done 2 := by
  refine strlen_eq_done.mpr ⟨by decide, fun j below => ?_, rfl⟩
  have first : j = 0 ∨ j = 1 := by omega
  rcases first with rfl | rfl
  · exact ⟨97, rfl, by decide⟩
  · exact ⟨98, rfl, by decide⟩

end Ece391
