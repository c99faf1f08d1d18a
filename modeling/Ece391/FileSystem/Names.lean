import Ece391.FileSystem

namespace Ece391

/-! # The names of the directory

A name field has 32 bytes and need not end in a NUL; the look-up compares 31 of
them, in all 63 slots.
-/

/-- The name field of a directory entry holds exactly this name. -/
structure ExactName (image : Image) (name : CString) (index : Nat) : Prop where
  length : name.strlen ≤ CHAR_LENGTH
  bytes : ∀ j < name.strlen, (image.dirEntry index).fileName j = name.char j
  terminated : name.strlen < CHAR_LENGTH → (image.dirEntry index).fileName name.strlen = 0

/-- The name of an entry. -/
def fieldName (image : Image) (index : Nat) : CString :=
  .upTo image.byte CHAR_LENGTH (64 + 64 * index)

/-- The first entry in use that has this name. -/
def lookupName (image : Image) (fname : CString) : Option Nat :=
  (List.range image.numDirectory).find? fun index =>
    fname.strlen ≠ 0 ∧ fieldName image index = fname

/-- At most 63 entries are in use and the others are zero. -/
structure BootBlock (image : Image) : Prop where
  count : image.numDirectory ≤ NUM_DIR_ENTRIES
  unused : ∀ index, image.numDirectory ≤ index → index < NUM_DIR_ENTRIES →
    ∀ i < 64, image.byte (64 + 64 * index + i) = 0

/-- The look-up finds the first entry in use that has this name, or nothing. -/
def LooksUpExactly (image : Image) (fname : CString) : Prop :=
  readDentryByName image fname = .done ((lookupName image fname).map image.dirEntry)

/-- A name of 32 bytes that continues one of 31. -/
structure LongerName (image : Image) (fname : CString) (index : Nat) : Prop where
  length : fname.strlen = 31
  full : (fieldName image index).strlen = CHAR_LENGTH
  bytes : ∀ i < 31, (fieldName image index).char i = fname.char i

section Names

variable {image : Image} {name fname : CString} {index : Nat}

theorem exactName_iff : ExactName image name index ↔ fieldName image index = name := by
  simp only [fieldName]
  rw [upTo_eq_iff]
  constructor
  · intro exactName
    exact ⟨exactName.length, exactName.bytes, exactName.terminated⟩
  · intro field
    exact ⟨field.length, field.bytes, field.terminated⟩

theorem ExactName.matches (exactName : ExactName image name index) (short : name.strlen < 32) :
    EntryMatches image name index := by
  refine strncmp_eq_zero.mpr ⟨name.strlen, ?_, fun j below => (exactName.bytes j below).symm, ?_⟩
  · unfold CHAR_LENGTH; omega
  · exact .inr ⟨CString.char_of_ge (Nat.le_refl _), exactName.terminated short⟩

/-- The comparison of 31 bytes is exact up to the last byte of the field. -/
theorem exactName_of_matches (found : EntryMatches image name index) (short : name.strlen < 32)
    (last : name.strlen = 31 → (image.dirEntry index).fileName 31 = 0) :
    ExactName image name index := by
  obtain ⟨stop, bound, agree, ending⟩ := strncmp_eq_zero.mp found
  unfold CHAR_LENGTH at bound ending
  have reaches : name.strlen ≤ stop := by
    rcases ending with full | ⟨zero, _⟩
    · omega
    · exact CString.char_eq_zero_iff.mp zero
  refine ⟨by unfold CHAR_LENGTH; omega, fun j below => (agree j (by omega)).symm, fun _ => ?_⟩
  by_cases inside : name.strlen < stop
  · rw [← agree _ inside]
    exact CString.char_of_ge (Nat.le_refl _)
  · have same : name.strlen = stop := by omega
    rcases ending with full | ⟨_, zero⟩
    · have whole : name.strlen = 31 := by omega
      rw [whole]
      exact last whole
    · rwa [same]

theorem fieldName_field (image : Image) (index : Nat) :
    Field image.byte CHAR_LENGTH (64 + 64 * index) (fieldName image index) :=
  field_upTo image.byte CHAR_LENGTH (64 + 64 * index)

/-- The comparison takes the name itself and, for 31 bytes, what continues it. -/
theorem entryMatches_iff (short : fname.strlen < 32) :
    EntryMatches image fname index ↔
      fieldName image index = fname ∨ LongerName image fname index := by
  have field := fieldName_field image index
  constructor
  · intro found
    by_cases last : fname.strlen = 31 → (image.dirEntry index).fileName 31 = 0
    · exact .inl (exactName_iff.mp (exactName_of_matches found short last))
    · obtain ⟨whole, continued⟩ := Classical.not_imp.mp last
      obtain ⟨stop, bound, agree, ending⟩ := strncmp_eq_zero.mp found
      unfold CHAR_LENGTH at bound ending
      have reaches : 31 ≤ stop := by
        rcases ending with full | ⟨zero, _⟩
        · omega
        · exact whole ▸ CString.char_eq_zero_iff.mp zero
      have same : ∀ i < 31, image.byte (64 + 64 * index + i) = fname.char i :=
        fun i below => (agree i (by omega)).symm
      have full : (fieldName image index).strlen = CHAR_LENGTH := by
        refine Nat.le_antisymm field.length (Nat.le_of_not_lt fun shorter => ?_)
        have ended := field.terminated shorter
        unfold CHAR_LENGTH at shorter
        by_cases inside : (fieldName image index).strlen < 31
        · rw [same _ inside] at ended
          exact CString.char_ne_zero (by omega) ended
        · have atLast : (fieldName image index).strlen = 31 := by omega
          rw [atLast] at ended
          exact continued ended
      refine .inr ⟨whole, full, fun i below => ?_⟩
      rw [← same i below, field.bytes i (by rw [full]; unfold CHAR_LENGTH; omega)]
  · intro named
    rcases named with same | longer
    · exact (exactName_iff.mpr same).matches short
    · refine strncmp_eq_zero.mpr ⟨31, by decide, fun j below => ?_, .inl rfl⟩
      have stored := field.bytes j (by rw [longer.full]; unfold CHAR_LENGTH; omega)
      exact ((longer.bytes j below).symm).trans stored.symm

theorem LongerName.not_exact (longer : LongerName image fname index) :
    fieldName image index ≠ fname := by
  intro same
  have length := longer.length
  rw [← same, longer.full] at length
  cases length

theorem BootBlock.fieldName_unused (boot : BootBlock image) (unused : image.numDirectory ≤ index)
    (bound : index < NUM_DIR_ENTRIES) : fieldName image index = .empty := by
  have zero := boot.unused index unused bound 0 (by decide)
  refine upTo_eq_iff.mpr ⟨Nat.zero_le _, fun i below => ?_, fun _ => zero⟩
  exact absurd below (Nat.not_lt_zero i)

end Names

theorem lookupName_eq_some {image : Image} {fname : CString} {index : Nat} :
    lookupName image fname = some index ↔
      fname.strlen ≠ 0 ∧ index < image.numDirectory ∧ fieldName image index = fname ∧
        ∀ j < index, fieldName image j ≠ fname := by
  simp only [lookupName]
  rw [List.find?_range_eq_some]
  simp only [List.mem_range, decide_eq_true_eq, Bool.not_eq_true', decide_eq_false_iff_not, not_and]
  constructor
  · intro found
    obtain ⟨⟨nonempty, same⟩, bound, first⟩ := found
    exact ⟨nonempty, bound, same, fun j below => first j below nonempty⟩
  · intro found
    obtain ⟨nonempty, bound, same, first⟩ := found
    exact ⟨⟨nonempty, same⟩, bound, fun j below _ => first j below⟩

variable {image : Image} {fname : CString}

/-- No slot is empty for the empty name to match, and every name of 32 bytes that
continues a name of 31 stands behind an entry with the name itself. -/
structure NoFalseMatch (image : Image) (fname : CString) : Prop where
  empty : fname.strlen = 0 → ∀ index < NUM_DIR_ENTRIES, fieldName image index ≠ .empty
  longer : ∀ index < NUM_DIR_ENTRIES, LongerName image fname index →
    ∃ earlier < index, fieldName image earlier = fname

theorem NoFalseMatch.found_iff (safe : NoFalseMatch image fname) (boot : BootBlock image)
    (short : fname.strlen < 32) (index : Nat) :
    findEntry image fname.char NUM_DIR_ENTRIES 0 = some index ↔
      lookupName image fname = some index := by
  have count := boot.count
  rw [findEntry_eq_some, lookupName_eq_some, entryMatches_iff short]
  constructor
  · intro found
    obtain ⟨_, bound, named, first⟩ := found
    have same : fieldName image index = fname := by
      rcases named with same | longer
      · exact same
      · obtain ⟨earlier, before, same⟩ := safe.longer index (by omega) longer
        exact absurd ((entryMatches_iff short).mpr (.inl same)) (first earlier (Nat.zero_le _) before)
    have nonempty : fname.strlen ≠ 0 := by
      intro zero
      have isEmpty : fname = .empty := CString.ext_bytes (List.eq_nil_of_length_eq_zero zero)
      exact safe.empty zero index (by omega) (same.trans isEmpty)
    refine ⟨nonempty, ?_, same, fun j below other => ?_⟩
    · by_contra unused
      rw [boot.fieldName_unused (Nat.le_of_not_lt unused) (by omega)] at same
      exact nonempty (same ▸ rfl)
    · exact first j (Nat.zero_le _) below ((entryMatches_iff short).mpr (.inl other))
  · intro found
    obtain ⟨_, bound, same, first⟩ := found
    refine ⟨Nat.zero_le _, by omega, .inl same, fun j _ below matched => ?_⟩
    rcases (entryMatches_iff short).mp matched with other | longer
    · exact first j below other
    · obtain ⟨earlier, before, other⟩ := safe.longer j (by omega) longer
      exact first earlier (by omega) other

/-- A slot that matches is found, or one before it. -/
theorem readDentryByName_of_matches (short : fname.strlen < 32) {index : Nat}
    (bound : index < NUM_DIR_ENTRIES) (matched : EntryMatches image fname index) :
    ∃ first ≤ index, EntryMatches image fname first ∧
      readDentryByName image fname = .done (some (image.dirEntry first)) := by
  rw [readDentryByName_of_short short]
  induction index using Nat.strongRecOn with
  | ind index ih =>
      by_cases earlier : ∃ other < index, EntryMatches image fname other
      · obtain ⟨other, before, otherMatched⟩ := earlier
        obtain ⟨first, low, found⟩ := ih other before (by omega) otherMatched
        exact ⟨first, by omega, found⟩
      · have found : findEntry image fname.char NUM_DIR_ENTRIES 0 = some index :=
          findEntry_eq_some.mpr ⟨Nat.zero_le _, by omega, matched, fun j _ below other =>
            earlier ⟨j, below, other⟩⟩
        refine ⟨index, Nat.le_refl _, matched, ?_⟩
        rw [found]
        rfl

theorem LooksUpExactly.not_empty (exactly : LooksUpExactly image fname)
    (zero : fname.strlen = 0) {index : Nat} (bound : index < NUM_DIR_ENTRIES) :
    fieldName image index ≠ .empty := by
  intro isEmpty
  have short : fname.strlen < 32 := by omega
  have same : fieldName image index = fname :=
    isEmpty.trans (CString.ext_bytes (List.eq_nil_of_length_eq_zero zero)).symm
  obtain ⟨first, _, _, found⟩ :=
    readDentryByName_of_matches short bound ((entryMatches_iff short).mpr (.inl same))
  have looked := exactly.symm.trans found
  cases listed : lookupName image fname with
  | none =>
      rw [listed] at looked
      cases looked
  | some other => exact (lookupName_eq_some.mp listed).1 zero

theorem LooksUpExactly.not_first_longer (exactly : LooksUpExactly image fname) {index : Nat}
    (bound : index < NUM_DIR_ENTRIES) (longer : LongerName image fname index) :
    ∃ earlier < index, fieldName image earlier = fname := by
  have length := longer.length
  have short : fname.strlen < 32 := by omega
  obtain ⟨first, low, matched, found⟩ :=
    readDentryByName_of_matches short bound ((entryMatches_iff short).mpr (.inr longer))
  have looked := exactly.symm.trans found
  cases listed : lookupName image fname with
  | none =>
      rw [listed] at looked
      cases looked
  | some other =>
      rw [listed, Option.map_some] at looked
      have sameEntry : image.dirEntry other = image.dirEntry first :=
        Option.some.inj (Outcome.done.inj looked)
      have ofOther := exactName_iff.mpr (lookupName_eq_some.mp listed).2.2.1
      have ofFirst : ExactName image fname first := by
        obtain ⟨fits, bytes, terminated⟩ := ofOther
        rw [sameEntry] at bytes terminated
        exact ⟨fits, bytes, terminated⟩
      have same := exactName_iff.mp ofFirst
      refine ⟨first, Nat.lt_of_le_of_ne low fun last => ?_, same⟩
      exact longer.not_exact (last ▸ same)

/-- The look-up of a name is exact if and only if no slot is empty for the empty
name, and no name of 32 bytes that continues the one looked up comes first. -/
theorem name_lookup_exact_iff {image : Image} {fname : CString} (boot : BootBlock image)
    (short : fname.strlen < 32) :
    LooksUpExactly image fname ↔ NoFalseMatch image fname := by
  constructor
  · intro exactly
    exact ⟨fun zero index bound => exactly.not_empty zero bound,
      fun index bound longer => exactly.not_first_longer bound longer⟩
  · intro safe
    have same : findEntry image fname.char NUM_DIR_ENTRIES 0 = lookupName image fname :=
      Option.ext fun index => safe.found_iff boot short index
    rw [LooksUpExactly, readDentryByName_of_short short, same]

theorem shellImage_bootBlock : BootBlock shellImage := by
  refine ⟨by decide, fun index low bound i inside => ?_⟩
  have count : shellImage.numDirectory = 1 := by decide
  unfold NUM_DIR_ENTRIES at bound
  simp only [shellImage]
  rw [if_neg (by omega), if_neg (by omega), if_neg (by omega), if_neg (by omega), if_neg (by omega),
    if_neg (by omega), if_neg (by omega), if_neg (by omega), if_neg (by omega), if_neg (by omega),
    if_neg (by omega)]

theorem name_lookup_exact_iff_shell :
    LooksUpExactly shellImage shellCommand ↔ NoFalseMatch shellImage shellCommand :=
  name_lookup_exact_iff shellImage_bootBlock (by decide)

/-- The empty name, in a directory with unused entries. -/
theorem empty_name_found : BootBlock shellImage ∧ ¬ LooksUpExactly shellImage .empty := by
  refine ⟨shellImage_bootBlock, fun exactly => ?_⟩
  have unused : fieldName shellImage 1 = .empty :=
    shellImage_bootBlock.fieldName_unused (by decide) (by decide)
  exact exactly.not_empty rfl (by decide) unused

end Ece391
