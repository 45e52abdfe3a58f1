import LogDB.Applier.RecordInsert

/-!
Reorganizing a compact index page: `ApplyCompPageReorganize` of `log_parse.cpp` copies the
page, recreates it with `page_create_low`, and inserts the records of the copy one after the
other with `page_copy_rec_list_end_no_locks`; it exits when a record does not fit or when the
data size or the room left changes. Beside it, the dispatcher of the three inserting
appliers, and the whole page invariant of `LogDB.Applier.IndexPage` with its free list, heap
numbers and data size.
-/

namespace LogDB

open LogDB.Lib

/-! ### The copy and the applier -/

section Reorganize

variable (fromPage : Nat → UInt8) (info : RecordInfo)

/-- The loop of `page_copy_rec_list_end_no_locks` for at most `fuel` turns: the record
`fromRec` of `fromPage`, up to the supremum, goes after `toRec`, the one inserted before it. A
record that does not fit exits, and the null pointer at the end of a broken list fails the
assert of `page_cur_is_after_last`. -/
def copyRecListTurns : Nat → Nat → Nat → (Nat → UInt8) → Option (Nat → UInt8)
  | 0, _, _, _ => none
  | fuel + 1, fromRec, toRec, toPage =>
      if fromRec = PAGE_NEW_SUPREMUM then some toPage else do
        let insertOffsets ← calculateOffsets fromPage info fromRec
        let _ ← calculateOffsets toPage info toRec
        let (insRec, toPage) ← (← pageCurInsertRecLow toPage info toRec insertOffsets
          fromPage fromRec)
        let fromRec ← pageRecGetNext fromPage fromRec
        copyRecListTurns fuel fromRec insRec toPage

/-- `page_copy_rec_list_end_no_locks(to_page, from_page, from_rec, index)`, from the record
after `from_rec` when that is the infimum. -/
def pageCopyRecListEndNoLocks (toPage : Nat → UInt8) (fromRec : Nat) : Option (Nat → UInt8) := do
  let fromRec ← if fromRec = PAGE_NEW_INFIMUM then pageRecGetNext fromPage fromRec
    else some fromRec
  if readBE toPage (DATA_PAGE_SIZE - 10) 2 ≠ PAGE_NEW_INFIMUM then none
  copyRecListTurns fromPage info DATA_PAGE_SIZE fromRec PAGE_NEW_INFIMUM toPage

end Reorganize

/-- `page_is_leaf`: level 0. -/
def pageIsLeaf (page : Nat → UInt8) : Bool :=
  readBE page (PAGE_HEADER + PAGE_LEVEL) 2 = 0

/-- `ApplyCompPageReorganize`: recreate the page, copy the records back from the old one, and
keep the highest transaction id of a leaf. A change of the data size or of the room left
exits. -/
def applyCompPageReorganize (log : LogEntry) (page : Nat → UInt8) : Option (Bool × (Nat → UInt8)) :=
  match parseRecInfoFromLog log.body log.body.length 0 with
  | .error .null => some (false, page)
  | .error .abort => none
  | .ok (info, _) => do
      let dataSize1 ← pageGetDataSize page
      let maxInsSize1 ← pageGetMaxInsertSizeAfterReorganize page 1
      let tempPage := page
      let page := pageCreateLow page
      let page ← pageCopyRecListEndNoLocks tempPage info page PAGE_NEW_INFIMUM
      let page := if pageIsLeaf page then
          writeBE page (PAGE_HEADER + PAGE_MAX_TRX_ID) 8
            (readBE tempPage (PAGE_HEADER + PAGE_MAX_TRX_ID) 8)
        else page
      let dataSize2 ← pageGetDataSize page
      let maxInsSize2 ← pageGetMaxInsertSizeAfterReorganize page 1
      if dataSize1 ≠ dataSize2 ∨ maxInsSize1 ≠ maxInsSize2 then none
      some (true, page)

/-! ### The dispatcher -/

section Dispatch

variable {log : LogEntry} {page page' : Nat → UInt8} {b : Bool}

/-- `ApplyCompRecInsert` asserts where the others answer `false`. -/
theorem applyCompRecInsert_true (h : applyCompRecInsert log page = some (b, page')) : b = true := by
  unfold applyCompRecInsert at h
  split at h
  · cases h
  · simp only [Option.bind_eq_bind, Option.bind_eq_some_iff] at h
    obtain ⟨_, -, ⟨bits, origin, mismatch⟩, -, h⟩ := h
    by_cases hm : mismatch < DATA_PAGE_SIZE
    · simp only [hm, not_true_eq_false, if_false, Option.bind_eq_some_iff, Option.some.injEq,
        Prod.mk.injEq] at h
      obtain ⟨_, -, h⟩ := h
      exact h.1.symm
    · simp [hm] at h

theorem applyCompListEndCopyCreated_unchanged
    (h : applyCompListEndCopyCreated log page = some (false, page')) : page' = page := by
  unfold applyCompListEndCopyCreated at h
  split at h
  · cases h
    rfl
  · cases h
  · simp only [Option.bind_eq_bind, Option.bind_eq_some_iff] at h
    obtain ⟨_, -, h⟩ := h
    split at h
    · cases h
    · simp at h

theorem applyCompPageReorganize_unchanged
    (h : applyCompPageReorganize log page = some (false, page')) : page' = page := by
  unfold applyCompPageReorganize at h
  split at h
  · cases h
    rfl
  · cases h
  · simp only [Option.bind_eq_bind, Option.bind_eq_some_iff] at h
    obtain ⟨_, -, _, -, _, -, _, -, _, -, h⟩ := h
    split at h
    · cases h
    · simp at h

end Dispatch

/-- The dispatcher's inserting appliers as modelled here, and `other` for the rest. -/
def RecordApplier.withInserts (other : RecordApplier) : RecordApplier where
  apply t log page := match t with
    | .MLOG_COMP_REC_INSERT => applyCompRecInsert log page
    | .MLOG_COMP_LIST_END_COPY_CREATED => applyCompListEndCopyCreated log page
    | .MLOG_COMP_PAGE_REORGANIZE => applyCompPageReorganize log page
    | t => other.apply t log page
  unchanged_of_false t log data data' h := by
    split at h
    · exact absurd (applyCompRecInsert_true h) Bool.false_ne_true
    · exact applyCompListEndCopyCreated_unchanged h
    · exact applyCompPageReorganize_unchanged h
    · exact other.unchanged_of_false _ _ _ _ h

/-! ### The whole page invariant -/

/-- The user records of a record list: all but the infimum and the supremum. -/
def userRecs (recs : List Nat) : List Nat :=
  (recs.drop 1).dropLast

/-- The size of the record at `rec` under the index `info`: its extra bytes and its data. -/
def recSize (page : Nat → UInt8) (info : RecordInfo) (rec : Nat) : Option Nat := do
  let offsets ← calculateOffsets page info rec
  let extra ← recOffsExtraSize offsets
  let data ← recOffsDataSize offsets
  some (extra + data)

/-- Part (d) of a well-formed page: `frees` lists the records met along the next pointers from
`PAGE_FREE`, without repetition and apart from the record list, up to one whose next field is
0. -/
structure FreeList (page : Nat → UInt8) (recs frees : List Nat) : Prop where
  head : pageHeaderGetPtr page PAGE_FREE = frees.head?
  linked : Linked (recGetNextPtrConst page) frees
  last : ∀ r ∈ frees.getLast?, recGetNextPtrConst page r = none
  nodup : frees.Nodup
  disjoint : ∀ r ∈ frees, r ∉ recs

/-- A well-formed compact page, parts (a) to (f), for the index `info` that fixes the size of
each record: the record list and the directory of `LogDB.Applier.IndexPage`, the free list,
heap numbers that are distinct and below `PAGE_N_HEAP`, and a heap that holds the user
records and the garbage. -/
structure WellFormedPage (page : Nat → UInt8) (info : RecordInfo) (recs ps frees : List Nat) :
    Prop where
  records : RecordList page recs
  directory : PageDirectory page recs ps
  free : FreeList page recs frees
  heap_nodup : ((recs ++ frees).map (recGetHeapNoNew page)).Nodup
  heap_lt : ∀ r ∈ recs ++ frees, recGetHeapNoNew page r < pageDirGetNHeap page
  data_size : ∃ sizes : List Nat, (userRecs recs).map (recSize page info) = sizes.map some ∧
    pageHeaderGetField page PAGE_HEAP_TOP =
      PAGE_NEW_SUPREMUM_END + pageHeaderGetField page PAGE_GARBAGE + sizes.sum

/-! ### An index of one field -/

end LogDB
