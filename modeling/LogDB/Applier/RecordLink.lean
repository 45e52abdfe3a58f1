import LogDB.Applier.RecordInsert

/-!
The link from a compact record to the next one, as `record.cpp` keeps it relative to the page
pointer: `rec_set_next_offs_new` stores the distance to the next record as the low 16 bits of a
difference of `int32_t`s, and `rec_get_next_offs` and `rec_get_next_ptr` add it back modulo the
page size, with 0 for the end of the list. A record is its offset in the page, so the page
pointer, aligned or not, cancels out.

A link written and read back gives the record linked to, from every offset of the page. The two
getters read one field and name the same record; only their ends of the list differ, for a
stored value whose target wraps to offset 0, which `rec_get_next_offs` reports as the end of the
list and `rec_get_next_ptr` as the start of the page.
-/

namespace LogDB

open LogDB.Lib

section Link

variable (page : Nat → UInt8)

/-- `rec_get_next_ptr`: `rec_get_next_ptr_const` without the `const`. -/
def recGetNextPtr (rec : Nat) : Option Nat :=
  recGetNextPtrConst page rec

/-- The field `rec_set_next_offs_new` stores for a link to `next`: the difference to `next` in
16 bits, or 0 for the null pointer. -/
theorem recSetNextOffsNew_eq {rec next : Nat} (hrec : REC_NEXT ≤ rec)
    (hnext : next < DATA_PAGE_SIZE) :
    recSetNextOffsNew page rec next = some (writeBE page (rec - REC_NEXT) 2
      (if next = 0 then 0 else (next + 2 ^ 32 - rec) % 2 ^ 16)) := by
  have hmask : ∀ v : Nat, v % 2 ^ 32 &&& REC_NEXT_MASK = v % 2 ^ 16 := fun v => by
    rw [show REC_NEXT_MASK = 2 ^ 16 - 1 from rfl, Nat.and_two_pow_sub_one_eq_mod]
    omega
  simp only [recSetNextOffsNew, if_neg (show ¬DATA_PAGE_SIZE ≤ next by omega),
    if_neg (show ¬rec < REC_NEXT by omega), hmask]

theorem rec_next_le_of_set {rec next : Nat} {page' : Nat → UInt8}
    (hset : recSetNextOffsNew page rec next = some page') : REC_NEXT ≤ rec := by
  by_contra hlt
  simp only [recSetNextOffsNew, if_pos (Nat.lt_of_not_le hlt), ite_self, reduceCtorEq] at hset

theorem next_field_round_trip {rec next : Nat} (hrec : rec < DATA_PAGE_SIZE)
    (hnext : next < DATA_PAGE_SIZE) (hne : next ≠ rec) :
    (next + 2 ^ 32 - rec) % 2 ^ 16 ≠ 0 ∧
      (rec + (next + 2 ^ 32 - rec) % 2 ^ 16) % DATA_PAGE_SIZE = next := by
  simp only [DATA_PAGE_SIZE] at hrec hnext ⊢
  omega

theorem readBE_next_field_of_set {rec next : Nat} {page' : Nat → UInt8}
    (hset : recSetNextOffsNew page rec next = some page') (hnext : next < DATA_PAGE_SIZE) :
    readBE page' (rec - REC_NEXT) 2 = if next = 0 then 0 else (next + 2 ^ 32 - rec) % 2 ^ 16 := by
  rw [recSetNextOffsNew_eq page (rec_next_le_of_set page hset) hnext, Option.some.injEq] at hset
  subst hset
  rw [readBE_writeBE_self]
  split <;> omega

theorem recGetNextOffs_of_set {rec next : Nat} {page' : Nat → UInt8}
    (hset : recSetNextOffsNew page rec next = some page') (hrec : rec < DATA_PAGE_SIZE)
    (hnext : next < DATA_PAGE_SIZE) (hne : next ≠ 0 → next ≠ rec) :
    recGetNextOffs page' rec = next ∧ (readBE page' (rec - REC_NEXT) 2 = 0 ↔ next = 0) := by
  have hread := readBE_next_field_of_set page hset hnext
  have hin : ¬rec < REC_NEXT := not_lt.mpr (rec_next_le_of_set page hset)
  by_cases h0 : next = 0
  · rw [if_pos h0] at hread
    simp [recGetNextOffs, hin, hread, h0]
  · obtain ⟨hfield, hback⟩ := next_field_round_trip hrec hnext (hne h0)
    rw [if_neg h0] at hread
    rw [recGetNextOffs, if_neg hin, hread, if_neg hfield, hback]
    exact ⟨rfl, iff_of_false hfield h0⟩

/-- The two getters read one field: the pointer is null exactly when the field is 0, and
otherwise points at the offset `rec_get_next_offs` computes. -/
theorem recGetNextPtr_eq {rec : Nat} (hrec : REC_NEXT ≤ rec) :
    recGetNextPtr page rec = if readBE page (rec - REC_NEXT) 2 = 0 then none
      else some (recGetNextOffs page rec) := by
  simp only [recGetNextPtr, recGetNextPtrConst, recGetNextOffs, if_neg (not_lt.mpr hrec)]
  split <;> rfl

/-- `rec_get_next_offs` answers 0 for a null field, and for a field whose target wraps to the
start of the page. -/
theorem recGetNextOffs_eq_zero_iff {rec : Nat} (hrec : REC_NEXT ≤ rec) :
    recGetNextOffs page rec = 0 ↔ readBE page (rec - REC_NEXT) 2 = 0 ∨
      (rec + readBE page (rec - REC_NEXT) 2) % DATA_PAGE_SIZE = 0 := by
  simp only [recGetNextOffs, if_neg (not_lt.mpr hrec)]
  split <;> simp_all

/-- The relative link round-trips from every record offset of the page: a link to a record
`n ≠ rec` reads back as `n` through both getters, and a null link as 0 and the null pointer.
For every stored value the pointer is null exactly when the field is 0 and otherwise points at
the offset `rec_get_next_offs` answers; that offset is 0 exactly for a null field or one whose
target wraps to the start of the page. -/
theorem next_link_round_trip (rec : Nat) (hrec₀ : REC_NEXT ≤ rec) (hrec : rec < DATA_PAGE_SIZE) :
    (∀ n, 0 < n → n < DATA_PAGE_SIZE → n ≠ rec → ∃ page', recSetNextOffsNew page rec n = some page' ∧
      recGetNextOffs page' rec = n ∧ recGetNextPtr page' rec = some n) ∧
    (∃ page', recSetNextOffsNew page rec 0 = some page' ∧ recGetNextOffs page' rec = 0 ∧
      recGetNextPtr page' rec = none) ∧
    recGetNextPtr page rec = (if readBE page (rec - REC_NEXT) 2 = 0 then none
      else some (recGetNextOffs page rec)) ∧
    (recGetNextOffs page rec = 0 ↔ readBE page (rec - REC_NEXT) 2 = 0 ∨
      (rec + readBE page (rec - REC_NEXT) 2) % DATA_PAGE_SIZE = 0) := by
  refine ⟨fun n hn hlt hne => ?_, ?_, recGetNextPtr_eq page hrec₀,
    recGetNextOffs_eq_zero_iff page hrec₀⟩
  · -- a link to another record: the field is the difference, not 0
    obtain ⟨page', hset⟩ : ∃ page', recSetNextOffsNew page rec n = some page' :=
      ⟨_, recSetNextOffsNew_eq page hrec₀ hlt⟩
    obtain ⟨hoffs, hnull⟩ := recGetNextOffs_of_set page hset hrec hlt fun _ => hne
    refine ⟨page', hset, hoffs, ?_⟩
    rw [recGetNextPtr_eq _ hrec₀, if_neg fun h => hn.ne' (hnull.mp h), hoffs]
  · -- the null link stores 0
    obtain ⟨page', hset⟩ : ∃ page', recSetNextOffsNew page rec 0 = some page' :=
      ⟨_, recSetNextOffsNew_eq page hrec₀ (by decide)⟩
    obtain ⟨hoffs, hnull⟩ := recGetNextOffs_of_set page hset hrec (by decide) fun h => absurd rfl h
    exact ⟨page', hset, hoffs, by rw [recGetNextPtr_eq _ hrec₀, if_pos (hnull.mpr rfl)]⟩

theorem next_link_round_trip_infimum :
    REC_NEXT ≤ PAGE_NEW_INFIMUM ∧ PAGE_NEW_INFIMUM < DATA_PAGE_SIZE ∧
      ∃ page', recSetNextOffsNew (fun _ => 0) PAGE_NEW_INFIMUM PAGE_NEW_SUPREMUM = some page' ∧
        recGetNextOffs page' PAGE_NEW_INFIMUM = PAGE_NEW_SUPREMUM ∧
        recGetNextPtr page' PAGE_NEW_INFIMUM = some PAGE_NEW_SUPREMUM :=
  ⟨by decide, by decide, (next_link_round_trip (fun _ => 0) PAGE_NEW_INFIMUM (by decide)
    (by decide)).1 PAGE_NEW_SUPREMUM (by decide) (by decide) (by decide)⟩

/-- A supremum whose field holds `DATA_PAGE_SIZE - PAGE_NEW_SUPREMUM`: `rec_get_next_offs`
answers 0, the end of the list for `page_rec_get_next`, while `rec_get_next_ptr` answers the
start of the page. -/
theorem next_getters_disagree_on_wrap :
    recGetNextOffs (writeBE (fun _ => 0) (PAGE_NEW_SUPREMUM - REC_NEXT) 2
        (DATA_PAGE_SIZE - PAGE_NEW_SUPREMUM)) PAGE_NEW_SUPREMUM = 0 ∧
      recGetNextPtr (writeBE (fun _ => 0) (PAGE_NEW_SUPREMUM - REC_NEXT) 2
        (DATA_PAGE_SIZE - PAGE_NEW_SUPREMUM)) PAGE_NEW_SUPREMUM = some 0 ∧
      pageRecGetNext (writeBE (fun _ => 0) (PAGE_NEW_SUPREMUM - REC_NEXT) 2
        (DATA_PAGE_SIZE - PAGE_NEW_SUPREMUM)) PAGE_NEW_SUPREMUM = none := by
  decide

end Link

end LogDB
