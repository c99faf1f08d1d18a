import Ece391.Grep.LineLoop

namespace Ece391

open Library

/-! # The reads of grep

A line that goes on behind the buffer is moved to its front.  The byte behind the
buffer is only set when that happens: before, it can look like the end of the line.
-/

namespace Grep

/-- No line fills the buffer. -/
def ShortLines (text : List Byte) : Prop := ∀ line ∈ text.splitOn 10, line.length < BUFSIZE

/-- The line that the first read to end inside a line cuts in two. -/
def straddle (file : List Byte) : Option (List Byte × List Byte) :=
  if file.length < BUFSIZE then none
  else if lastLine 10 (file.take BUFSIZE) = [] then straddle (file.drop BUFSIZE)
  else some (lastLine 10 (file.take BUFSIZE), firstLine 10 (file.drop BUFSIZE))
termination_by file.length
decreasing_by
  rw [List.length_drop]
  have positive : 0 < BUFSIZE := by decide
  omega

end Grep

variable {data : Nat → Byte} {s fname : CString} {bytes carry rest file : List Byte}
  {last fuel : Nat} {progress : Grep.Progress}

theorem storeRead_stored (data : Nat → Byte) (last : Nat) (bytes : List Byte) :
    Stored (Grep.storeRead data last bytes) last bytes := by
  refine (stored_iff 0).mpr fun i inside => ?_
  rw [Grep.storeRead, if_pos (by omega), Nat.add_sub_cancel_left]

theorem storeRead_elsewhere {index : Nat} (outside : index < last ∨ last + bytes.length ≤ index) :
    Grep.storeRead data last bytes index = data index := if_neg (by omega)

theorem NulFree.append {left right : List Byte} (isLeft : NulFree left) (isRight : NulFree right) :
    NulFree (left ++ right) := by
  intro byte member
  rcases List.mem_append.mp member with inLeft | inRight
  · exact isLeft byte inLeft
  · exact isRight byte inRight

theorem NulFree.lastLine (nulFree : NulFree bytes) : NulFree (lastLine 10 bytes) := by
  obtain ⟨front, whole, _⟩ := lastLine_suffix (10 : Byte) bytes
  intro byte member
  refine nulFree byte ?_
  rw [whole]
  exact List.mem_append_right _ member

theorem straddle_block {block left : List Byte} (full : block.length = BUFSIZE) :
    Grep.straddle (block ++ left) =
      if lastLine 10 block = [] then Grep.straddle left
      else some (lastLine 10 block, firstLine 10 left) := by
  have large : ¬ (block ++ left).length < BUFSIZE := by
    rw [List.length_append]
    omega
  rw [Grep.straddle, if_neg large, ← full, List.take_left, List.drop_left]

/-- What a read and the pass over the buffer leave, with `carry` in front of the
buffer before the read. -/
theorem read_pass {got : List Byte} (fname : CString) (nonempty : s.bytes ≠ [])
    (isCarry : Stored progress.data 0 carry) (isLast : progress.last = carry.length)
    (fits : carry.length + got.length ≤ BUFSIZE) (nulFree : NulFree (carry ++ got)) :
    (progress.fill got).data BUFSIZE = progress.data BUFSIZE ∧
      ∃ after, Grep.lineLoop s fname got.length ((progress.fill got).last + 1) 0
          (progress.fill got) = some after ∧
        LineLoop s fname got.length 0 (carry ++ got) (progress.fill got) after := by
  have isFilled : (progress.fill got).last = (carry ++ got).length := by
    rw [List.length_append, ← isLast]
    rfl
  have isChunk : Stored (progress.fill got).data 0 (carry ++ got) := by
    refine stored_append.mpr ⟨isCarry.congr fun index _ high => ?_, ?_⟩
    · exact storeRead_elsewhere (.inl (by omega))
    · rw [Nat.zero_add, ← isLast]
      exact storeRead_stored ..
  refine ⟨storeRead_elsewhere (.inr (by omega)), ?_⟩
  refine lineLoop_eq nonempty isChunk nulFree ?_ ?_ (.inr rfl) ?_
  · rw [isFilled, Nat.zero_add]
  · rw [isFilled, List.length_append]
    exact fits
  · rw [isFilled]
    exact Nat.lt_succ_self _

theorem newline_of_full {block more : List Byte} (short : Grep.ShortLines (block ++ more))
    (full : BUFSIZE ≤ block.length) : 10 ∈ block := by
  by_contra single
  rw [Grep.ShortLines, splitOn_line_append single] at short
  have first := short _ (List.mem_cons_self ..)
  rw [List.length_append] at first
  omega

theorem Grep.ShortLines.behind {block more : List Byte} (short : Grep.ShortLines (block ++ more)) :
    Grep.ShortLines (lastLine 10 block ++ more) := by
  intro line member
  refine short line ?_
  rw [splitOn_append]
  exact List.mem_append_right _ member

theorem Grep.ShortLines.left {block more : List Byte} (short : Grep.ShortLines (block ++ more)) :
    Grep.ShortLines more := by
  have behind := short.behind
  rw [Grep.ShortLines, splitOn_line_append (lastLine_no_newline _ _)] at behind
  intro line member
  rw [splitOn_eq_firstLine] at member
  rcases List.mem_cons.mp member with isFirst | isLater
  · have longer := behind _ (List.mem_cons_self ..)
    rw [List.length_append] at longer
    rw [isFirst]
    omega
  · exact behind line (List.mem_cons_of_mem _ isLater)

/-- A line that is carried to the front leaves no newline behind the buffer where
there was none. -/
theorem LineLoop.safe {cnt : Nat} {chunk left : List Byte} {filled searched : Grep.Progress}
    (pass : LineLoop s fname cnt 0 chunk filled searched) (isFilled : filled.last = chunk.length)
    (fits : chunk.length ≤ BUFSIZE)
    (safe : chunk.length + left.length < BUFSIZE ∨ filled.data BUFSIZE ≠ 10) :
    (lastLine 10 chunk).length + left.length < BUFSIZE ∨ searched.data BUFSIZE ≠ 10 := by
  rcases safe with small | notNewline
  · have shorter := lastLine_length_le (10 : Byte) chunk
    exact .inl (by omega)
  · right
    by_cases notFull : chunk.length < BUFSIZE
    · rw [pass.notFull (by rw [isFilled]; exact notFull)]
      exact notNewline
    · by_cases isNil : lastLine 10 chunk = []
      · rw [pass.complete isNil]
        exact notNewline
      · rw [pass.full isNil (by rw [isFilled]; omega)]
        decide

/-- A buffer that is searched to its end although the read brought something is the
last one. -/
theorem Grep.ShortLines.all_read {cnt : Nat} {chunk left : List Byte} {filled : Grep.Progress}
    (short : Grep.ShortLines (chunk ++ left)) (isFilled : filled.last = chunk.length)
    (safe : chunk.length + left.length < BUFSIZE ∨ filled.data BUFSIZE ≠ 10) (goesOn : cnt ≠ 0)
    (full : left ≠ [] → chunk.length = BUFSIZE) (stays : ¬ Carries cnt 0 chunk filled) :
    left = [] := by
  by_contra more
  have isFull := full more
  have notNewline := safe.resolve_left (by omega)
  refine stays ⟨?_, Ne.symm goesOn, .inr ?_⟩
  · rw [isFilled, isFull]
    exact notNewline
  · exact newline_of_full short (Nat.le_of_eq isFull.symm)

/-- A search in which nothing is taken for a newline that is none: each line is found
whole, and reported if it contains the pattern. -/
theorem readLoop_eq (nonempty : s.bytes ≠ []) (isCarry : Stored progress.data 0 carry)
    (isLast : progress.last = carry.length) (single : 10 ∉ carry) (nulFree : NulFree (carry ++ rest))
    (short : Grep.ShortLines (carry ++ rest))
    (safe : carry.length + rest.length < BUFSIZE ∨ progress.data BUFSIZE ≠ 10)
    (enough : rest.length < fuel) :
    ∃ after, Grep.readLoop s fname fuel rest progress = some after ∧
      after.out = progress.out ++ listing (finds s) fname ((carry ++ rest).splitOn 10) := by
  induction fuel generalizing carry rest progress with
  | zero => exact absurd enough (Nat.not_lt_zero _)
  | succ fuel ih =>
      have isShort : carry.length < BUFSIZE := by
        rw [Grep.ShortLines, splitOn_line_append single] at short
        have first := short _ (List.mem_cons_self ..)
        rw [List.length_append] at first
        omega
      obtain ⟨got, left, isGot, isLeft, whole⟩ : ∃ got left,
          rest.take (BUFSIZE - carry.length) = got ∧ rest.drop (BUFSIZE - carry.length) = left ∧
            rest = got ++ left := ⟨_, _, rfl, rfl, (List.take_append_drop ..).symm⟩
      have gotLength : got.length = min (BUFSIZE - carry.length) rest.length := by
        rw [← isGot, List.length_take]
      have leftLength : left.length = rest.length - (BUFSIZE - carry.length) := by
        rw [← isLeft, List.length_drop]
      rw [whole, ← List.append_assoc] at nulFree short ⊢
      have chunkFree : NulFree (carry ++ got) := fun byte member =>
        nulFree byte (List.mem_append_left _ member)
      obtain ⟨sameByte, searched, isSearched, pass⟩ :=
        read_pass fname nonempty isCarry isLast (by omega) chunkFree
      have isFilled : (progress.fill got).last = (carry ++ got).length := by
        rw [List.length_append, ← isLast]
        rfl
      have filledSafe : (carry ++ got).length + left.length < BUFSIZE ∨
          (progress.fill got).data BUFSIZE ≠ 10 := by
        rw [sameByte, List.length_append, Nat.add_assoc, ← List.length_append, ← whole]
        exact safe
      simp only [Grep.readLoop, isLast]
      rw [← whole, isGot, isLeft, isSearched, Option.bind_some]
      by_cases ended : got.length = 0
      · rw [if_pos ended]
        have leftNil : left = [] := List.eq_nil_of_length_eq_zero (by omega)
        have stays : ¬ Carries got.length 0 (carry ++ got) (progress.fill got) :=
          fun carries => carries.2.1 ended.symm
        rw [leftNil, List.append_nil]
        exact ⟨searched, rfl, (pass.searched stays).2⟩
      · rw [if_neg ended]
        by_cases carries : Carries got.length 0 (carry ++ got) (progress.fill got)
        · obtain ⟨nextLast, nextCarry, out⟩ := pass.carried carries
          have nextFree : NulFree (lastLine 10 (carry ++ got) ++ left) :=
            chunkFree.lastLine.append fun byte member => nulFree byte (List.mem_append_right _ member)
          have nextSafe := pass.safe isFilled (by rw [List.length_append]; omega) filledSafe
          obtain ⟨after, looped, result⟩ := ih nextCarry nextLast (lastLine_no_newline _ _) nextFree
            short.behind nextSafe (by omega)
          refine ⟨after, looped, ?_⟩
          rw [result, out, splitOn_append 10 (carry ++ got) left, listing_append, ← List.append_assoc]
          rfl
        · obtain ⟨nextLast, out⟩ := pass.searched carries
          have leftNil : left = [] := by
            refine short.all_read isFilled filledSafe ended (fun more => ?_) carries
            have positive := List.length_pos_iff.mpr more
            rw [List.length_append]
            omega
          subst leftNil
          have noByte : NulFree ([] ++ []) := fun _ member => absurd member List.not_mem_nil
          have noLine : Grep.ShortLines ([] ++ []) := by
            intro line member
            rw [List.mem_singleton.mp member]
            decide
          obtain ⟨after, looped, result⟩ := @ih [] [] searched trivial nextLast List.not_mem_nil noByte
            noLine (.inl (by decide)) (by rw [List.length_nil]; omega)
          refine ⟨after, looped, ?_⟩
          rw [result, out, List.append_nil (carry ++ got)]
          have nothing : listing (finds s) fname (List.splitOn 10 ([] ++ [])) = [] := listing_empty nonempty
          rw [nothing, List.append_nil]
          rfl

/-- The lines that the search finds when the byte behind the buffer looks like a
newline at first: the straddled line is found in two parts. -/
structure FoundCut (s fname : CString) (file out found : List Byte) : Prop where
  whole : Grep.straddle file = none → found = out ++ listing (finds s) fname (file.splitOn 10)
  cut : ∀ before behind, Grep.straddle file = some (before, behind) → before ≠ [] ∧
    ∃ earlier later, file.splitOn 10 = earlier ++ (before ++ behind) :: later ∧
      found = out ++ listing (finds s) fname (earlier ++ before :: behind :: later)

/-- A full read that ends at a line's end. -/
theorem FoundCut.behind {block left out found : List Byte} (full : block.length = BUFSIZE)
    (isNil : lastLine 10 block = [])
    (cut : FoundCut s fname left (out ++ listing (finds s) fname (completeLines 10 block)) found) :
    FoundCut s fname (block ++ left) out found := by
  have same : Grep.straddle (block ++ left) = Grep.straddle left := by
    rw [straddle_block full, if_pos isNil]
  have lines : (block ++ left).splitOn 10 = completeLines 10 block ++ left.splitOn 10 := by
    rw [splitOn_append, isNil, List.nil_append]
  constructor
  · intro isNone
    rw [cut.whole (same.symm.trans isNone), lines, listing_append, List.append_assoc]
  · intro before behind isCut
    obtain ⟨isSome, earlier, later, split, isFound⟩ := cut.cut before behind (same.symm.trans isCut)
    refine ⟨isSome, completeLines 10 block ++ earlier, later, ?_, ?_⟩
    · rw [lines, split, List.append_assoc]
    · rw [isFound, List.append_assoc, List.append_assoc,
        listing_append (finds s) fname (completeLines 10 block)]

/-- A full read that ends inside a line. -/
theorem FoundCut.inside {block left out found : List Byte} (full : block.length = BUFSIZE)
    (isSome : lastLine 10 block ≠ [])
    (isFound : found =
      out ++ listing (finds s) fname (block.splitOn 10) ++ listing (finds s) fname (left.splitOn 10)) :
    FoundCut s fname (block ++ left) out found := by
  have isCut : Grep.straddle (block ++ left) = some (lastLine 10 block, firstLine 10 left) := by
    rw [straddle_block full, if_neg isSome]
  refine ⟨fun isNone => ?_, fun before behind cut => ?_⟩
  · rw [isNone] at isCut
    cases isCut
  · cases isCut.symm.trans cut
    refine ⟨isSome, completeLines 10 block, (left.splitOn 10).tail, ?_, ?_⟩
    · rw [splitOn_append, splitOn_line_append (lastLine_no_newline _ _)]
    · rw [isFound, splitOn_eq_completeLines, splitOn_eq_firstLine (10 : Byte) left,
        List.append_assoc, ← listing_append, List.append_assoc]
      rfl

/-- A read that fills the buffer in front of a newline: all of it is searched. -/
theorem readLoop_block {block left : List Byte} (nonempty : s.bytes ≠ [])
    (isLast : progress.last = 0) (full : block.length = BUFSIZE) (nulFree : NulFree block)
    (newline : progress.data BUFSIZE = 10) (fuel : Nat) :
    ∃ searched : Grep.Progress,
      Grep.readLoop s fname (fuel + 1) (block ++ left) progress =
        Grep.readLoop s fname fuel left searched ∧
      searched.last = 0 ∧
      searched.out = progress.out ++ listing (finds s) fname (block.splitOn 10) ∧
      (lastLine 10 block = [] → searched.data BUFSIZE = 10) ∧
      (lastLine 10 block ≠ [] → searched.data BUFSIZE ≠ 10) := by
  have noCarry : Stored progress.data 0 [] := trivial
  have inBuffer : ([] : List Byte).length + block.length ≤ BUFSIZE := by
    rw [List.length_nil]
    omega
  obtain ⟨sameByte, searched, isSearched, pass⟩ :=
    read_pass fname nonempty noCarry isLast inBuffer nulFree
  have isFilled : (progress.fill block).last = BUFSIZE := by
    rw [← full, ← Nat.zero_add block.length, ← isLast]
    rfl
  have stays : ¬ Carries block.length 0 ([] ++ block) (progress.fill block) := by
    intro carries
    refine carries.1 ?_
    rw [isFilled, sameByte]
    exact newline
  obtain ⟨nextLast, out⟩ := pass.searched stays
  refine ⟨searched, ?_, nextLast, out, fun isNil => ?_, fun isSome => ?_⟩
  · have goesOn : ¬ block.length = 0 := by
      rw [full]
      decide
    simp only [Grep.readLoop, isLast]
    rw [Nat.sub_zero, ← full, List.take_left, List.drop_left, isSearched, Option.bind_some,
      if_neg goesOn]
  · exact ((pass.complete isNil).trans sameByte).trans newline
  · have isZero : searched.data BUFSIZE = 0 := pass.full isSome isFilled
    rw [isZero]
    decide

theorem readLoop_cut (nonempty : s.bytes ≠ []) (isLast : progress.last = 0)
    (nulFree : NulFree rest) (short : Grep.ShortLines rest) (newline : progress.data BUFSIZE = 10)
    (enough : rest.length < fuel) :
    ∃ after, Grep.readLoop s fname fuel rest progress = some after ∧
      FoundCut s fname rest progress.out after.out := by
  induction fuel generalizing rest progress with
  | zero => exact absurd enough (Nat.not_lt_zero _)
  | succ fuel ih =>
      by_cases small : rest.length < BUFSIZE
      · have safe : ([] : List Byte).length + rest.length < BUFSIZE ∨ progress.data BUFSIZE ≠ 10 :=
          .inl (by rwa [List.length_nil, Nat.zero_add])
        have isNone : Grep.straddle rest = none := by rw [Grep.straddle, if_pos small]
        obtain ⟨after, looped, result⟩ :=
          @readLoop_eq s fname [] rest (fuel + 1) progress nonempty trivial isLast List.not_mem_nil
            nulFree short safe enough
        refine ⟨after, looped, fun _ => result, fun before behind cut => ?_⟩
        rw [isNone] at cut
        cases cut
      · obtain ⟨block, left, full, rfl⟩ : ∃ block left, block.length = BUFSIZE ∧
            rest = block ++ left := by
          refine ⟨rest.take BUFSIZE, rest.drop BUFSIZE, ?_, (List.take_append_drop ..).symm⟩
          rw [List.length_take]
          omega
        have blockFree : NulFree block := fun byte member =>
          nulFree byte (List.mem_append_left _ member)
        have leftFree : NulFree left := fun byte member =>
          nulFree byte (List.mem_append_right _ member)
        have fewer : left.length < fuel := by
          have positive : 0 < BUFSIZE := by decide
          rw [List.length_append] at enough
          omega
        obtain ⟨searched, isRead, nextLast, out, whole, cleared⟩ :=
          @readLoop_block s fname progress block left nonempty isLast full blockFree newline fuel
        rw [isRead]
        by_cases isNil : lastLine 10 block = []
        · obtain ⟨after, looped, found⟩ := ih nextLast leftFree short.left (whole isNil) fewer
          refine ⟨after, looped, FoundCut.behind full isNil ?_⟩
          rw [splitOn_eq_completeLines (10 : Byte) block, isNil, listing_append,
            listing_empty nonempty, List.append_nil] at out
          rwa [out] at found
        · obtain ⟨after, looped, result⟩ :=
            @readLoop_eq s fname [] left fuel searched nonempty trivial nextLast List.not_mem_nil
              leftFree short.left (.inr (cleared isNil)) fewer
          rw [out, List.nil_append] at result
          exact ⟨after, looped, FoundCut.inside full isNil result⟩

theorem report_length (fname : CString) (line : List Byte) :
    (Grep.report fname line).length = fname.bytes.length + line.length + 2 := by
  simp only [Grep.report, List.length_append, List.length_singleton]
  omega

theorem contains_eq_true : contains s line = true ↔ s.bytes <:+: line := decide_eq_true_iff

theorem contains_eq_false : contains s line = false ↔ ¬ s.bytes <:+: line := decide_eq_false_iff_not

/-- The two parts of a line are listed like the line only if the second one is empty or
the pattern is not in it. -/
theorem listing_parts {before behind : List Byte} (nonempty : s.bytes ≠ []) (isSome : before ≠ []) :
    listing (contains s) fname [before] ++ listing (contains s) fname [behind] =
        listing (contains s) fname [before ++ behind] ↔
      behind = [] ∨ ¬ s.bytes <:+: before ++ behind := by
  have emptyLine : listing (contains s) fname [[]] = [] :=
    listing_absent (contains_eq_false.mpr fun found => nonempty (List.infix_nil.mp found))
  have atMost : ∀ line, listing (contains s) fname [line] = [] ∨
      (listing (contains s) fname [line]).length = fname.bytes.length + line.length + 2 := by
    intro line
    cases found : contains s line with
    | true => exact .inr (by rw [listing_found found, report_length])
    | false => exact .inl (listing_absent found)
  by_cases found : s.bytes <:+: before ++ behind
  · by_cases isNil : behind = []
    · subst isNil
      rw [emptyLine, List.append_nil, List.append_nil]
      exact ⟨fun _ => .inl rfl, fun _ => rfl⟩
    · have positive := List.length_pos_iff.mpr isNil
      have positiveBefore := List.length_pos_iff.mpr isSome
      constructor
      · intro same
        have lengths := congrArg List.length same
        rw [List.length_append, listing_found (contains_eq_true.mpr found), report_length,
          List.length_append] at lengths
        rcases atMost before with noBefore | withBefore
        · rw [noBefore, List.length_nil] at lengths
          rcases atMost behind with noBehind | withBehind
          · rw [noBehind, List.length_nil] at lengths
            omega
          · omega
        · rcases atMost behind with noBehind | withBehind
          · rw [noBehind, List.length_nil] at lengths
            omega
          · omega
      · rintro (isEmpty | absent)
        · exact absurd isEmpty isNil
        · exact absurd found absent
  · have notBefore : ¬ s.bytes <:+: before := fun inBefore =>
      found (inBefore.trans (List.prefix_append before behind).isInfix)
    have notBehind : ¬ s.bytes <:+: behind := fun inBehind =>
      found (inBehind.trans (List.suffix_append before behind).isInfix)
    rw [listing_absent (contains_eq_false.mpr found),
      listing_absent (contains_eq_false.mpr notBefore),
      listing_absent (contains_eq_false.mpr notBehind)]
    exact ⟨fun _ => .inr found, fun _ => rfl⟩

theorem finds_eq_contains (positive : (s.char 0).toNat < 128) : finds s = contains s := by
  funext line
  rw [finds, decide_eq_true positive, Bool.true_and]

theorem listing_negative (negative : ¬ (s.char 0).toNat < 128) (lines : List (List Byte)) :
    listing (finds s) fname lines = [] := by
  have nothing : lines.filter (finds s) = [] := List.filter_eq_nil_iff.mpr fun line _ found => by
    rw [finds, decide_eq_false negative] at found
    cases found
  rw [listing, nothing]
  rfl

theorem listing_eq_nil {lines : List (List Byte)} :
    listing (contains s) fname lines = [] ↔ ∀ line ∈ lines, ¬ s.bytes <:+: line := by
  constructor
  · intro nothing line member found
    obtain ⟨before, behind, rfl⟩ := List.append_of_mem member
    rw [listing_append, listing_cons, listing_found (contains_eq_true.mpr found)] at nothing
    have short := congrArg List.length nothing
    rw [List.length_append, List.length_append, report_length, List.length_nil] at short
    omega
  · intro absent
    have nothing : lines.filter (contains s) = [] := List.filter_eq_nil_iff.mpr
      fun line member found => absent line member (contains_eq_true.mp found)
    rw [listing, nothing]
    rfl

theorem doOneFile_eq {fd closed : Int} (opens : fd ≠ -1) (closes : closed ≠ -1)
    {after : Grep.Progress}
    (looped : Grep.readLoop s fname (file.length + 1) file ⟨data, 0, []⟩ = some after) :
    Grep.doOneFile s fname fd closed data file = some (0, after.out) := by
  rw [Grep.doOneFile, if_neg opens, looped, Option.map_some, if_neg closes]

/-- A line that is cut in two is printed rightly if the cut is at its end or it does
not contain the pattern. -/
theorem doOneFile_cut {fd closed : Int} {before behind : List Byte} (nonempty : s.bytes ≠ [])
    (positive : (s.char 0).toNat < 128) (opens : fd ≠ -1) (closes : closed ≠ -1)
    (nulFree : NulFree file) (short : Grep.ShortLines file) (newline : data BUFSIZE = 10)
    (cut : Grep.straddle file = some (before, behind)) :
    Grep.doOneFile s fname fd closed data file =
        some (0, listing (contains s) fname (file.splitOn 10)) ↔
      behind = [] ∨ ¬ s.bytes <:+: before ++ behind := by
  obtain ⟨after, looped, found⟩ :=
    @readLoop_cut s fname file (file.length + 1) ⟨data, 0, []⟩ nonempty rfl nulFree short newline
      (Nat.lt_succ_self _)
  obtain ⟨isSome, earlier, later, lines, out⟩ := found.cut before behind cut
  rw [finds_eq_contains positive] at out
  rw [doOneFile_eq opens closes looped, ← @listing_parts s fname _ _ nonempty isSome, out, lines]
  simp only [Option.some.injEq, Prod.mk.injEq, true_and, List.nil_append]
  rw [listing_append, listing_append, listing_cons _ _ before, listing_cons _ _ behind,
    listing_cons _ _ (before ++ behind), List.append_right_inj, ← List.append_assoc,
    List.append_left_inj]

/-- What is printed if no line is cut in two, or no pattern is found at all. -/
theorem doOneFile_lists {fd closed : Int} (nonempty : s.bytes ≠ []) (opens : fd ≠ -1)
    (closes : closed ≠ -1) (nulFree : NulFree file) (short : Grep.ShortLines file)
    (harmless : data BUFSIZE ≠ 10 ∨ Grep.straddle file = none ∨ ¬ (s.char 0).toNat < 128) :
    Grep.doOneFile s fname fd closed data file =
      some (0, listing (finds s) fname (file.splitOn 10)) := by
  by_cases newline : data BUFSIZE = 10
  · obtain ⟨after, looped, found⟩ :=
      @readLoop_cut s fname file (file.length + 1) ⟨data, 0, []⟩ nonempty rfl nulFree short newline
        (Nat.lt_succ_self _)
    rw [doOneFile_eq opens closes looped]
    cases cut : Grep.straddle file with
    | none =>
        rw [found.whole cut]
        rfl
    | some parts =>
        rcases harmless with other | isNone | negative
        · exact absurd newline other
        · rw [cut] at isNone
          cases isNone
        · obtain ⟨_, _, _, _, out⟩ := found.cut parts.1 parts.2 cut
          rw [listing_negative negative] at out ⊢
          rw [out]
          rfl
  · have safe : ([] : List Byte).length + file.length < BUFSIZE ∨ data BUFSIZE ≠ 10 := .inr newline
    obtain ⟨after, looped, found⟩ :=
      @readLoop_eq s fname [] file (file.length + 1) ⟨data, 0, []⟩ nonempty trivial rfl
        List.not_mem_nil nulFree short safe (Nat.lt_succ_self _)
    rw [doOneFile_eq opens closes looped, found]
    rfl

/-- When the search prints what it should: a pattern with a first byte from 128 on is found
nowhere, and any other is found rightly if the byte behind the buffer is no newline, or the
line that the first read cuts in two does not matter. -/
def Grep.PrintsMatches (s : CString) (data : Nat → Byte) (file : List Byte) : Prop :=
  if (s.char 0).toNat < 128 then
    data BUFSIZE = 10 → ∀ before behind, Grep.straddle file = some (before, behind) →
      behind = [] ∨ ¬ s.bytes <:+: before ++ behind
  else ∀ line ∈ file.splitOn 10, ¬ s.bytes <:+: line

/-- The search prints exactly the lines that contain the pattern, under this condition. -/
theorem doOneFile_iff (s fname : CString) (fd closed : Int) (data : Nat → Byte) (file : List Byte)
    (nonempty : s.bytes ≠ []) (opens : fd ≠ -1) (closes : closed ≠ -1) (nulFree : NulFree file)
    (short : Grep.ShortLines file) :
    Grep.doOneFile s fname fd closed data file =
        some (0, listing (contains s) fname (file.splitOn 10)) ↔
      Grep.PrintsMatches s data file := by
  by_cases positive : (s.char 0).toNat < 128
  · have wholeLines : data BUFSIZE ≠ 10 ∨ Grep.straddle file = none →
        Grep.doOneFile s fname fd closed data file =
          some (0, listing (contains s) fname (file.splitOn 10)) := by
      intro harmless
      rw [← finds_eq_contains positive]
      exact doOneFile_lists nonempty opens closes nulFree short (harmless.imp_right .inl)
    rw [Grep.PrintsMatches, if_pos positive]
    by_cases newline : data BUFSIZE = 10
    · cases cut : Grep.straddle file with
      | none =>
          refine ⟨fun _ _ before behind isSome => ?_, fun _ => wholeLines (.inr cut)⟩
          cases isSome
      | some parts =>
          obtain ⟨before, behind⟩ := parts
          rw [doOneFile_cut nonempty positive opens closes nulFree short newline cut]
          constructor
          · intro allowed _ first second isParts
            cases isParts
            exact allowed
          · exact fun allowed => allowed newline before behind rfl
    · exact ⟨fun _ isNewline => absurd isNewline newline, fun _ => wholeLines (.inl newline)⟩
  · rw [Grep.PrintsMatches, if_neg positive, ← @listing_eq_nil s fname,
      doOneFile_lists nonempty opens closes nulFree short (.inr (.inr positive)),
      listing_negative positive]
    simp only [Option.some.injEq, Prod.mk.injEq, true_and]
    exact eq_comm

/-- Two empty lines and one of 1023 bytes, the last of which is behind the buffer. -/
def straddledFile : List Byte := [10, 10] ++ List.replicate 1022 97 ++ [97]

def aString : CString := ⟨[97], by simp⟩

theorem doOneFile_short :
    Grep.doOneFile aString aString 3 0 (fun _ => 0) [97, 10, 98] = some (0, [97, 58, 97, 10]) := by
  have lines : List.splitOn 10 ([97, 10, 98] : List Byte) = [[97], [98]] := by decide
  have short : Grep.ShortLines [97, 10, 98] := by
    rw [Grep.ShortLines, lines]
    decide
  have prints : Grep.PrintsMatches aString (fun _ => 0) [97, 10, 98] := by
    rw [Grep.PrintsMatches, if_pos (by decide)]
    exact fun newline => absurd newline (by decide)
  have searched := (doOneFile_iff aString aString 3 0 (fun _ => 0) [97, 10, 98] (by decide)
    (by decide) (by decide) (by simp [NulFree]) short).mpr prints
  rw [searched, lines]
  decide

/-- With a newline in the uninitialised byte behind the buffer the long line is printed
in two parts. -/
theorem doOneFile_straddled :
    Grep.doOneFile aString aString 3 0 (fun _ => 10) straddledFile ≠
      some (0, listing (contains aString) aString (straddledFile.splitOn 10)) := by
  have single : ∀ count, (10 : Byte) ∉ List.replicate count 97 := by
    intro count member
    exact absurd (List.eq_of_mem_replicate member) (by decide)
  have whole : straddledFile = 10 :: 10 :: List.replicate 1023 97 := by
    rw [List.replicate_succ' (n := 1022)]
    rfl
  have lines : straddledFile.splitOn 10 = [[], [], List.replicate 1023 97] := by
    rw [whole, ← List.splitOn_eq_singleton (single 1023)]
    exact List.splitOn_append_cons_self_of_not_mem List.not_mem_nil _
  have nulFree : NulFree straddledFile := by
    intro byte member
    rw [whole] at member
    rcases List.mem_cons.mp member with rfl | later
    · decide
    · rcases List.mem_cons.mp later with rfl | inLine
      · decide
      · rw [List.eq_of_mem_replicate inLine]
        decide
  have short : Grep.ShortLines straddledFile := by
    rw [Grep.ShortLines, lines]
    intro line member
    rcases List.mem_cons.mp member with rfl | later
    · decide
    · rcases List.mem_cons.mp later with rfl | isLong
      · decide
      · rw [List.mem_singleton.mp isLong, List.length_replicate]
        decide
  have isLast : lastLine 10 ([10, 10] ++ List.replicate 1022 97) = List.replicate 1022 (97 : Byte) :=
    ((lastLine_append List.not_mem_nil (10 :: List.replicate 1022 97)).trans
      (lastLine_append List.not_mem_nil _)).trans (lastLine_single (single 1022))
  have cut : Grep.straddle straddledFile = some (List.replicate 1022 97, [97]) := by
    have full : ([10, 10] ++ List.replicate 1022 (97 : Byte)).length = BUFSIZE := by
      rw [List.length_append, List.length_replicate]
      rfl
    have isSome : List.replicate 1022 (97 : Byte) ≠ [] := List.cons_ne_nil _ _
    rw [straddledFile, straddle_block full, isLast, if_neg isSome]
    rfl
  intro searched
  rcases (doOneFile_cut (by decide) (by decide) (by decide) (by decide) nulFree short rfl cut).mp
    searched with
    isNil | absent
  · cases isNil
  · exact absent (List.suffix_append _ _).isInfix

end Ece391
