import Ece391.Grep.DoOneFile
import Ece391.Library.Block
import Ece391.Library.Lines
import Mathlib.Data.List.GetD

namespace Ece391

open Library

/-! # One pass over the buffer

`LineLoop` says what the loop over the lines leaves: the complete lines have been
searched, and the last one has been searched, too, or moved to the front.
-/

variable {data : Nat → Byte} {s fname : CString} {line text chunk bytes : List Byte}
  {start i n last cnt room : Nat}

/-- The bytes are those of a string without its terminator. -/
def NulFree (bytes : List Byte) : Prop := ∀ byte ∈ bytes, byte ≠ 0

theorem NulFree.tail {first : Byte} (nulFree : NulFree (first :: bytes)) : NulFree bytes :=
  fun byte member => nulFree byte (List.mem_cons_of_mem _ member)

/-- The comparison stops at the end of the line: the pattern is found where the line
goes on with it. -/
theorem ece391StrncmpFrom_eq_zero {s1 s2 : Nat → Byte} {pattern : List Byte}
    (isLine : Stored s1 i (line ++ [0])) (isPattern : Stored s2 i pattern) (nulFree : NulFree line)
    (patternFree : NulFree pattern) :
    ece391StrncmpFrom s1 s2 pattern.length i = 0 ↔ pattern <+: line := by
  induction pattern generalizing line i with
  | nil => exact ⟨fun _ => List.nil_prefix, fun _ => rfl⟩
  | cons first rest ih =>
      obtain ⟨isFirst, isRest⟩ := isPattern
      have different : ∀ {left right : Byte}, left ≠ right →
          ¬ (left.toNat : Int) - right.toNat = 0 := by
        intro left right differ same
        exact differ (UInt8.toNat_inj.mp (by omega))
      simp only [List.length_cons, ece391StrncmpFrom, isFirst]
      cases line with
      | nil =>
          have ended : s1 i = 0 := isLine.1
          have nonzero : first ≠ 0 := patternFree first (List.mem_cons_self ..)
          rw [ended, if_neg nonzero.symm]
          refine ⟨fun same => absurd same (different nonzero.symm), fun isPrefix => ?_⟩
          cases List.prefix_nil.mp isPrefix
      | cons byte others =>
          obtain ⟨isByte, isOthers⟩ := isLine
          have nonzero : byte ≠ 0 := nulFree byte (List.mem_cons_self ..)
          rw [isByte, List.cons_prefix_cons]
          by_cases same : byte = first
          · subst same
            rw [if_pos rfl]
            have later := ih isOthers isRest nulFree.tail patternFree.tail
            by_cases lastByte : rest.length = 0
            · rw [if_pos (.inr lastByte), List.eq_nil_of_length_eq_zero lastByte]
              exact ⟨fun _ => ⟨rfl, List.nil_prefix⟩, fun _ => rfl⟩
            · rw [if_neg (not_or.mpr ⟨nonzero, lastByte⟩), later]
              exact ⟨fun found => ⟨rfl, found⟩, fun found => found.2⟩
          · rw [if_neg same]
            exact ⟨fun zero => absurd zero (different same),
              fun found => absurd found.1.symm same⟩

/-- A line with the pattern in it. -/
def contains (s : CString) (line : List Byte) : Bool := decide (s.bytes <:+: line)

/-- The search finds nothing if the first byte of the pattern is negative as a `char`. -/
def finds (s : CString) (line : List Byte) : Bool :=
  decide ((s.char 0).toNat < 128) && contains s line

/-- A `char` and a `uint8_t` compare as their values. -/
theorem signed_eq_iff (left right : Byte) :
    left.toInt8.toInt = (right.toNat : Int) ↔ left.toNat < 128 ∧ left = right := by
  have small := left.toNat_lt
  have value : left.toInt8.toInt = if 2 * left.toNat < 256 then (left.toNat : Int)
      else (left.toNat : Int) - 256 := BitVec.toInt_eq_toNat_cond left.toBitVec
  have bound := right.toNat_lt
  rw [value, ← UInt8.toNat_inj]
  split <;> omega

theorem matchFrom_eq (isLine : Stored data start (line ++ [0])) (nulFree : NulFree line)
    (nonempty : s.bytes ≠ []) : Grep.matchFrom s data line.length start = finds s line := by
  induction line generalizing start with
  | nil =>
      have absent : ¬ s.bytes <:+: [] := fun found => nonempty (List.infix_nil.mp found)
      rw [finds, contains, decide_eq_false absent, Bool.and_false]
      rfl
  | cons byte rest ih =>
      obtain ⟨first, others, isBytes⟩ := List.exists_cons_of_ne_nil nonempty
      have isHere : Stored (fun i => data (start + i)) 0 (byte :: rest ++ [0]) :=
        stored_shift.mpr isLine
      have isPattern := (stored_append.mp s.stored).1
      have compares := ece391StrncmpFrom_eq_zero isHere isPattern nulFree s.nonzero
      have startsWith : s.char 0 = first := by
        rw [CString.char, isBytes]
        rfl
      have here : ((s.char 0).toInt8.toInt = ((data start).toNat : Int) ∧
          ece391Strncmp (fun i => data (start + i)) s.char s.strlen = 0) ↔
            (s.char 0).toNat < 128 ∧ s.bytes <+: byte :: rest := by
        rw [ece391Strncmp, CString.strlen, compares, isLine.1, signed_eq_iff, and_assoc]
        refine and_congr_right fun _ => ⟨fun found => found.2, fun found => ⟨?_, found⟩⟩
        rw [startsWith]
        rw [isBytes, List.cons_prefix_cons] at found
        exact found.1
      simp only [List.length_cons, Grep.matchFrom]
      rw [ih isLine.2 nulFree.tail]
      by_cases positive : (s.char 0).toNat < 128
      · by_cases found : s.bytes <+: byte :: rest
        · rw [if_pos (here.mpr ⟨positive, found⟩), finds, decide_eq_true positive, contains,
            decide_eq_true (List.infix_cons_iff.mpr (.inl found))]
          rfl
        · rw [if_neg fun both => found (here.mp both).2, finds, finds]
          congr 1
          rw [contains, contains, decide_eq_decide, List.infix_cons_iff]
          exact ⟨.inr, fun either => either.resolve_left found⟩
      · rw [if_neg fun both => positive (here.mp both).1, finds, finds, decide_eq_false positive]
        rfl

/-- A copy to lower addresses does not overtake itself. -/
theorem ece391Strcpy_eq {dst source : Nat} (isLine : Stored data source (line ++ [0]))
    (nulFree : NulFree line) (lower : dst < source) (enough : line.length < room) :
    ∃ after, ece391Strcpy dst source room data = some after ∧ Stored after dst (line ++ [0]) ∧
      ∀ index, index < dst ∨ dst + line.length < index → after index = data index := by
  induction line generalizing dst source room data with
  | nil =>
      obtain ⟨room, rfl⟩ := Nat.exists_eq_add_one_of_ne_zero (Nat.ne_of_gt enough)
      have zero : data source = 0 := isLine.1
      refine ⟨Function.update data dst 0, ?_, ⟨Function.update_self .., trivial⟩, ?_⟩
      · simp only [ece391Strcpy, zero, if_pos]
      · intro index outside
        have differs : index ≠ dst := by
          rcases outside with below | above
          · exact Nat.ne_of_lt below
          · exact Nat.ne_of_gt above
        exact Function.update_of_ne differs _ _
  | cons byte rest ih =>
      obtain ⟨room, rfl⟩ :=
        Nat.exists_eq_add_one_of_ne_zero (Nat.ne_of_gt (Nat.zero_lt_of_lt enough))
      obtain ⟨isByte, isRest⟩ := isLine
      have nonzero : byte ≠ 0 := nulFree byte (List.mem_cons_self ..)
      have still : Stored (Function.update data dst byte) (source + 1) (rest ++ [0]) :=
        isRest.congr fun index low _ => Function.update_of_ne (by omega) _ _
      obtain ⟨after, copied, isCopy, elsewhere⟩ := ih still nulFree.tail
        (Nat.succ_lt_succ lower) (Nat.lt_of_succ_lt_succ enough)
      refine ⟨after, ?_, ⟨?_, isCopy⟩, fun index outside => ?_⟩
      · simp only [ece391Strcpy, isByte, if_neg nonzero]
        exact copied
      · rw [elsewhere dst (.inl (Nat.lt_succ_self dst)), Function.update_self]
      · rw [List.length_cons] at outside
        rw [elsewhere index (by omega), Function.update_of_ne (by omega)]

theorem lineEndFrom_eq {remaining : Nat} (isLine : Stored data start line) (single : 10 ∉ line)
    (stops : line.length = remaining ∨
      line.length < remaining ∧ data (start + line.length) = 10) :
    Grep.lineEndFrom data remaining start = start + line.length := by
  induction line generalizing start remaining with
  | nil =>
      rcases stops with rfl | ⟨inside, newline⟩
      · rfl
      · obtain ⟨rest, rfl⟩ := Nat.exists_eq_add_one_of_ne_zero (Nat.ne_of_gt inside)
        have here : data start = 10 := newline
        rw [Grep.lineEndFrom, if_neg (not_not_intro here)]
        rfl
  | cons byte others ih =>
      obtain ⟨isByte, isOthers⟩ := isLine
      obtain ⟨notHere, single⟩ := List.ne_and_not_mem_of_not_mem_cons single
      rw [List.length_cons] at stops ⊢
      obtain ⟨rest, rfl⟩ : ∃ rest, remaining = rest + 1 :=
        Nat.exists_eq_add_one_of_ne_zero (by omega)
      have passes : data start ≠ 10 := by
        rw [isByte]
        exact notHere.symm
      have shifted : start + (others.length + 1) = start + 1 + others.length := by omega
      rw [Grep.lineEndFrom, if_pos passes, shifted]
      refine ih isOthers single ?_
      rcases stops with whole | ⟨inside, newline⟩
      · exact .inl (Nat.succ.inj whole)
      · exact .inr ⟨Nat.lt_of_succ_lt_succ inside, shifted ▸ newline⟩

/-- The report of the lines that are found. -/
def listing (found : List Byte → Bool) (fname : CString) (lines : List (List Byte)) : List Byte :=
  (lines.filter found).flatMap (Grep.report fname)

section Listing

variable {found : List Byte → Bool}

theorem listing_append (found : List Byte → Bool) (fname : CString)
    (first second : List (List Byte)) :
    listing found fname (first ++ second) =
      listing found fname first ++ listing found fname second := by
  simp only [listing, List.filter_append, List.flatMap_append]

theorem listing_cons (found : List Byte → Bool) (fname : CString) (line : List Byte)
    (others : List (List Byte)) :
    listing found fname (line :: others) =
      listing found fname [line] ++ listing found fname others :=
  listing_append found fname [line] others

theorem listing_found (isFound : found line = true) :
    listing found fname [line] = Grep.report fname line := by
  simp [listing, isFound]

theorem listing_absent (absent : found line = false) : listing found fname [line] = [] := by
  simp [listing, absent]

end Listing

theorem finds_nil (nonempty : s.bytes ≠ []) : finds s [] = false := by
  have absent : ¬ s.bytes <:+: [] := fun found => nonempty (List.infix_nil.mp found)
  rw [finds, contains, decide_eq_false absent, Bool.and_false]

theorem listing_empty (nonempty : s.bytes ≠ []) : listing (finds s) fname [[]] = [] :=
  listing_absent (finds_nil nonempty)

/-- A line in the buffer, with a NUL behind it, is searched and reported whole. -/
theorem searchLine_eq {progress : Grep.Progress} (isLine : Stored progress.data start (line ++ [0]))
    (nulFree : NulFree line) (nonempty : s.bytes ≠ []) (fits : start + line.length ≤ BUFSIZE) :
    Grep.searchLine s fname start (start + line.length) progress =
      some { progress with out := progress.out ++ listing (finds s) fname [line] } := by
  have length : start + line.length - start = line.length := by omega
  rw [Grep.searchLine, length, matchFrom_eq isLine nulFree nonempty]
  cases found : finds s line with
  | true =>
      have whole : stringAt progress.data (BUFSIZE + 1 - start) start = some ⟨line, nulFree⟩ := by
        refine stringAt_eq_some (fun index inside => ?_) ?_
        · have bytes := (stored_iff 0).mp isLine index (by
            rw [List.length_append]
            exact Nat.lt_succ_of_le inside)
          rw [bytes, CString.char]
          by_cases inLine : index < line.length
          · exact List.getD_append _ _ _ _ inLine
          · have isEnd : index = line.length := Nat.le_antisymm inside (Nat.le_of_not_lt inLine)
            subst isEnd
            simp
        · simp only [CString.strlen]
          omega
      rw [if_pos rfl, whole, listing_found found]
      rfl
  | false => rw [if_neg (by decide), listing_absent found, List.append_nil]

/-- The last line in the buffer goes to its front: the byte behind it is no newline,
the file may go on, and there is room in front of it. -/
def Carries (cnt lineStart : Nat) (chunk : List Byte) (before : Grep.Progress) : Prop :=
  before.data before.last ≠ 10 ∧ 0 ≠ cnt ∧ (lineStart ≠ 0 ∨ 10 ∈ chunk)

/-- What the loop leaves of the bytes `chunk`, the last ones in the buffer. -/
structure LineLoop (s fname : CString) (cnt lineStart : Nat) (chunk : List Byte)
    (before after : Grep.Progress) : Prop where
  carried : Carries cnt lineStart chunk before →
    after.last = (lastLine 10 chunk).length ∧ Stored after.data 0 (lastLine 10 chunk) ∧
      after.out = before.out ++ listing (finds s) fname (completeLines 10 chunk)
  searched : ¬ Carries cnt lineStart chunk before →
    after.last = 0 ∧ after.out = before.out ++ listing (finds s) fname (chunk.splitOn 10)
  complete : lastLine 10 chunk = [] → after.data BUFSIZE = before.data BUFSIZE
  notFull : before.last < BUFSIZE → after.data BUFSIZE = before.data BUFSIZE
  full : lastLine 10 chunk ≠ [] → before.last = BUFSIZE → after.data BUFSIZE = 0

theorem stored_ended (isLine : Stored data start line) :
    Stored (Function.update data (start + line.length) 0) start (line ++ [0]) := by
  refine stored_append.mpr ⟨isLine.congr fun index _ high => ?_, Function.update_self .., trivial⟩
  exact Function.update_of_ne (Nat.ne_of_lt high) _ _

/-- A line without its end that goes to the front of the buffer. -/
theorem LineLoop.carried_line {progress : Grep.Progress} (isChunk : Stored progress.data start chunk)
    (nulFree : NulFree chunk) (single : 10 ∉ chunk) (reaches : start + chunk.length = progress.last)
    (fits : progress.last ≤ BUFSIZE) (isSome : chunk ≠ [])
    (goes : progress.data progress.last ≠ 10 ∧ 0 ≠ cnt ∧ start ≠ 0) (fuel : Nat) :
    ∃ after, Grep.lineLoop s fname cnt (fuel + 1) start progress = some after ∧
      LineLoop s fname cnt start chunk progress after := by
  have isLast : lastLine 10 chunk = chunk := lastLine_single single
  have isEnd : Grep.lineEndFrom progress.data (progress.last - start) start = progress.last := by
    rw [lineEndFrom_eq isChunk single (.inl (by omega)), reaches]
  have endedLine := stored_ended isChunk
  rw [reaches] at endedLine
  have inFront := goes.2.2
  obtain ⟨moved, copied, isMoved, elsewhere⟩ :=
    ece391Strcpy_eq endedLine nulFree (Nat.pos_of_ne_zero inFront)
      (show chunk.length < BUFSIZE + 1 - start by omega)
  have atEnd := elsewhere BUFSIZE (.inr (by omega))
  refine ⟨⟨moved, progress.last - start, progress.out⟩, ?_, ?_⟩
  · simp only [Grep.lineLoop, isEnd]
    rw [if_pos goes, copied]
    rfl
  · constructor
    · intro _
      rw [isLast, completeLines_single single]
      exact ⟨by dsimp only; omega, (stored_append.mp isMoved).1, (List.append_nil _).symm⟩
    · exact fun stays => absurd ⟨goes.1, goes.2.1, .inl inFront⟩ stays
    · intro isNil
      exact absurd (isLast.symm.trans isNil) isSome
    · intro notFull
      exact atEnd.trans (Function.update_of_ne (Nat.ne_of_gt notFull) _ _)
    · intro _ full
      dsimp only
      rw [atEnd, full]
      exact Function.update_self ..

/-- A line without its end that is searched where it is. -/
theorem LineLoop.searched_line {progress : Grep.Progress} (nonempty : s.bytes ≠ [])
    (isChunk : Stored progress.data start chunk) (nulFree : NulFree chunk) (single : 10 ∉ chunk)
    (reaches : start + chunk.length = progress.last) (fits : progress.last ≤ BUFSIZE)
    (nonemptyChunk : chunk ≠ [] ∨ start = 0)
    (stays : ¬ (progress.data progress.last ≠ 10 ∧ 0 ≠ cnt ∧ start ≠ 0)) (fuel : Nat) :
    ∃ after, Grep.lineLoop s fname cnt (fuel + 1) start progress = some after ∧
      LineLoop s fname cnt start chunk progress after := by
  have isLast : lastLine 10 chunk = chunk := lastLine_single single
  have isEnd : Grep.lineEndFrom progress.data (progress.last - start) start = progress.last := by
    rw [lineEndFrom_eq isChunk single (.inl (by omega)), reaches]
  have endedLine := stored_ended isChunk
  rw [reaches] at endedLine
  let ended : Grep.Progress := { progress with data := Function.update progress.data progress.last 0 }
  have searched : Grep.searchLine s fname start (start + chunk.length) ended =
      some { ended with out := ended.out ++ listing (finds s) fname [chunk] } :=
    searchLine_eq endedLine nulFree nonempty (by omega)
  rw [reaches] at searched
  refine ⟨{ ended with last := 0, out := ended.out ++ listing (finds s) fname [chunk] }, ?_, ?_⟩
  · simp only [Grep.lineLoop, isEnd]
    rw [if_neg stays, searched, Option.bind_some, if_pos (Nat.le_succ _)]
  · constructor
    · rintro ⟨notNewline, goesOn, inFront | newline⟩
      · exact absurd ⟨notNewline, goesOn, inFront⟩ stays
      · exact absurd newline single
    · intro _
      rw [List.splitOn_eq_singleton single]
      exact ⟨rfl, rfl⟩
    · intro isNil
      rw [isLast] at isNil
      have isStart := nonemptyChunk.resolve_left (not_not_intro isNil)
      rw [isNil, isStart] at reaches
      have empty : progress.last = 0 := reaches.symm
      refine Function.update_of_ne ?_ _ _
      rw [empty]
      decide
    · intro notFull
      exact Function.update_of_ne (Nat.ne_of_gt notFull) _ _
    · intro _ full
      rw [← full]
      exact Function.update_self ..

/-- The progress behind the search of a line that a newline ends. -/
def Grep.Progress.reported (progress : Grep.Progress) (s fname : CString) (start : Nat)
    (line : List Byte) : Grep.Progress :=
  ⟨Function.update progress.data (start + line.length) 0, progress.last,
    progress.out ++ listing (finds s) fname [line]⟩

section Reported

variable {progress : Grep.Progress} {more : List Byte}

theorem reported_outside (inside : start + line.length < progress.last)
    (fits : progress.last ≤ BUFSIZE) :
    (progress.reported s fname start line).data BUFSIZE = progress.data BUFSIZE :=
  Function.update_of_ne (by omega) _ _

theorem LineLoop.ended (nonempty : s.bytes ≠ []) (single : 10 ∉ line)
    (inside : start + line.length < progress.last) (fits : progress.last ≤ BUFSIZE) :
    LineLoop s fname cnt start (line ++ [10]) progress
      { progress.reported s fname start line with last := 0 } := by
  have outside := @reported_outside s fname line start progress inside fits
  have lines : completeLines 10 (line ++ [10]) = [line] := completeLines_append single []
  have lastIs : lastLine 10 (line ++ [10]) = [] := lastLine_append single []
  constructor
  · intro _
    rw [lastIs, lines]
    exact ⟨rfl, trivial, rfl⟩
  · intro _
    rw [splitOn_eq_completeLines, lines, lastIs, listing_append, listing_empty nonempty,
      List.append_nil]
    exact ⟨rfl, rfl⟩
  · exact fun _ => outside
  · exact fun _ => outside
  · exact fun isSome => absurd lastIs isSome

theorem LineLoop.behind {after : Grep.Progress} (single : 10 ∉ line)
    (inside : start + line.length < progress.last) (fits : progress.last ≤ BUFSIZE)
    (rest : LineLoop s fname cnt (start + line.length + 1) more
      (progress.reported s fname start line) after) :
    LineLoop s fname cnt start (line ++ 10 :: more) progress after := by
  have outside := @reported_outside s fname line start progress inside fits
  have lastByte : (progress.reported s fname start line).data progress.last =
      progress.data progress.last := Function.update_of_ne (by omega) _ _
  have same : Carries cnt (start + line.length + 1) more (progress.reported s fname start line) ↔
      Carries cnt start (line ++ 10 :: more) progress := by
    have sameLast : (progress.reported s fname start line).last = progress.last := rfl
    simp only [Carries, sameLast, lastByte]
    simp
  obtain ⟨carried, drained, complete, notFull, full⟩ := rest
  rw [same] at carried drained
  constructor
  · intro carries
    obtain ⟨isLast, isStored, out⟩ := carried carries
    rw [lastLine_append single, completeLines_append single, listing_cons, out]
    exact ⟨isLast, isStored, List.append_assoc ..⟩
  · intro stays
    obtain ⟨isLast, out⟩ := drained stays
    rw [List.splitOn_append_cons_self_of_not_mem single, listing_cons, out]
    exact ⟨isLast, List.append_assoc ..⟩
  · rw [lastLine_append single]
    exact fun isNil => (complete isNil).trans outside
  · exact fun below => (notFull below).trans outside
  · rw [lastLine_append single]
    exact full

end Reported

theorem lineLoop_eq {progress : Grep.Progress} {fuel : Nat} (nonempty : s.bytes ≠ [])
    (isChunk : Stored progress.data start chunk) (nulFree : NulFree chunk)
    (reaches : start + chunk.length = progress.last) (fits : progress.last ≤ BUFSIZE)
    (nonemptyChunk : chunk ≠ [] ∨ start = 0) (enough : chunk.length < fuel) :
    ∃ after, Grep.lineLoop s fname cnt fuel start progress = some after ∧
      LineLoop s fname cnt start chunk progress after := by
  induction chunk using lines_induction (10 : Byte) generalizing start progress fuel with
  | single line single =>
      obtain ⟨fuel, rfl⟩ := Nat.exists_eq_add_one_of_ne_zero (Nat.ne_of_gt (Nat.zero_lt_of_lt enough))
      by_cases goes : progress.data progress.last ≠ 10 ∧ 0 ≠ cnt ∧ start ≠ 0
      · have isSome := nonemptyChunk.resolve_right goes.2.2
        exact LineLoop.carried_line isChunk nulFree single reaches fits isSome goes fuel
      · exact LineLoop.searched_line nonempty isChunk nulFree single reaches fits nonemptyChunk
          goes fuel
  | next line more single ih =>
      obtain ⟨fuel, rfl⟩ := Nat.exists_eq_add_one_of_ne_zero (Nat.ne_of_gt (Nat.zero_lt_of_lt enough))
      rw [List.length_append, List.length_cons] at reaches enough
      obtain ⟨isLine, isBehind⟩ := stored_append.mp isChunk
      obtain ⟨newline, isMore⟩ := isBehind
      have lineFree : NulFree line := fun byte member => nulFree byte (List.mem_append_left _ member)
      have moreFree : NulFree more := fun byte member =>
        nulFree byte (List.mem_append_right _ (List.mem_cons_of_mem _ member))
      have inside : start + line.length < progress.last := by omega
      have isEnd : Grep.lineEndFrom progress.data (progress.last - start) start =
          start + line.length := lineEndFrom_eq isLine single (.inr ⟨by omega, newline⟩)
      have isSearched : Grep.searchLine s fname start (start + line.length)
          { progress with data := Function.update progress.data (start + line.length) 0 } =
            some (progress.reported s fname start line) :=
        searchLine_eq (stored_ended isLine) lineFree nonempty (by omega)
      have isNewline : ¬ (progress.data (start + line.length) ≠ 10 ∧ 0 ≠ cnt ∧ start ≠ 0) :=
        fun goes => goes.1 newline
      simp only [Grep.lineLoop, isEnd]
      rw [if_neg isNewline, isSearched, Option.bind_some]
      have sameLast : (progress.reported s fname start line).last = progress.last := rfl
      by_cases last : progress.last ≤ start + line.length + 1
      · have isNil : more = [] := List.eq_nil_of_length_eq_zero (by omega)
        subst isNil
        exact ⟨_, if_pos last, LineLoop.ended nonempty single inside fits⟩
      · have isMoreSome : more ≠ [] := by
          intro isNil
          rw [isNil] at reaches
          exact last (Nat.le_of_eq reaches.symm)
        have still : Stored (progress.reported s fname start line).data (start + line.length + 1)
            more := isMore.congr fun index low _ => Function.update_of_ne (by omega) _ _
        have reachesEnd : start + line.length + 1 + more.length =
            (progress.reported s fname start line).last := by
          rw [sameLast]
          omega
        have enoughLeft : more.length < fuel := by omega
        obtain ⟨after, looped, rest⟩ :=
          ih still moreFree reachesEnd fits (.inl isMoreSome) enoughLeft
        exact ⟨after, (if_neg last).trans looped, rest.behind single inside fits⟩

end Ece391
