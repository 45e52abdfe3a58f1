import LogDB.Applier.PageReorganize
import LogDB.Applier.RecordLink

/-!
Deleting records from a compact index page: `page_cur_delete_rec` of `log_parse.cpp`, which
unlinks one record, hands it to the free list with `page_mem_free` and balances its owner's slot
with `page_dir_balance_slot` and `page_dir_delete_slot`, and the two list deletes behind
`ApplyCompListDelete`: `page_delete_rec_list_end`, which cuts the record list at a record and
hands the whole tail to the free list at once, and `page_delete_rec_list_start`, which deletes
the records before a record one by one, or empties the page with `page_create_empty`.

As in `LogDB.Applier.IndexPage`, a record is its offset in the page, `none` is a failed assert,
an `exit` or a null pointer the code goes on to read through, and the loops run for at most
`DATA_PAGE_SIZE` turns.
-/

namespace LogDB

open LogDB.Lib Decoder

/-! ### The directory -/

section Directory

variable (page : Nat → UInt8)

/-- `page_dir_slot_get_n_owned`: the count is kept in the slot's record. -/
def pageDirSlotGetNOwned (slot : Nat) : Nat :=
  recGetNOwnedNew page (pageDirSlotGetRec page slot)

/-- Step 3 of `page_dir_delete_slot`: each slot from `slotNo + 1` up to `nSlots - 1` hands its
record to the slot below it, through the asserts of `page_dir_get_nth_slot`. -/
def pageDirShiftSlots (slotNo nSlots : Nat) : Option (Nat → UInt8) :=
  (List.range' (slotNo + 1) (nSlots - (slotNo + 1))).foldlM (fun page i => do
    let src ← pageDirGetNthSlot page i
    let dst ← pageDirGetNthSlot page (i - 1)
    some (pageDirSlotSetRec page dst (pageDirSlotGetRec page src))) page

/-- `page_dir_delete_slot`: slot `slotNo` goes, and the slot above it takes its records. -/
def pageDirDeleteSlot (slotNo : Nat) : Option (Nat → UInt8) := do
  if slotNo = 0 then none
  let nSlots := pageDirGetNSlots page
  if ¬slotNo + 1 < nSlots then none
  let slot ← pageDirGetNthSlot page slotNo
  let nOwned := pageDirSlotGetNOwned page slot
  let page := pageDirSlotSetNOwned page slot 0
  let slot ← pageDirGetNthSlot page (slotNo + 1)
  let page := pageDirSlotSetNOwned page slot (nOwned + pageDirSlotGetNOwned page slot)
  let page ← pageDirShiftSlots page slotNo nSlots
  let last ← pageDirGetNthSlot page (nSlots - 1)
  let page := writeBE page last 2 0
  some (pageHeaderSetField page PAGE_N_DIR_SLOTS (nSlots - 1))

/-- `page_dir_balance_slot`: a slot left with `PAGE_DIR_SLOT_MIN_N_OWNED - 1` records takes the
first record of the slot above it when that one can spare it, and merges with it otherwise. The
last slot is left as it is. The assert `2 * PAGE_DIR_SLOT_MIN_N_OWNED - 1 <=
PAGE_DIR_SLOT_MAX_N_OWNED` holds of the constants. -/
def pageDirBalanceSlot (slotNo : Nat) : Option (Nat → UInt8) := do
  if slotNo = 0 then none
  let slot ← pageDirGetNthSlot page slotNo
  if slotNo = pageDirGetNSlots page - 1 then some page else
  let upSlot ← pageDirGetNthSlot page (slotNo + 1)
  let nOwned := pageDirSlotGetNOwned page slot
  let upNOwned := pageDirSlotGetNOwned page upSlot
  if nOwned ≠ PAGE_DIR_SLOT_MIN_N_OWNED - 1 then none
  if PAGE_DIR_SLOT_MIN_N_OWNED < upNOwned then
    let oldRec := pageDirSlotGetRec page slot
    -- `rec_set_n_owned_new` writes through the null pointer of a record linked to nothing
    let newRec ← recGetNextPtr page oldRec
    let page := recSetNOwnedNew page oldRec 0
    let page := recSetNOwnedNew page newRec (nOwned + 1)
    let page := pageDirSlotSetRec page slot newRec
    some (pageDirSlotSetNOwned page upSlot (upNOwned - 1))
  else pageDirDeleteSlot page slotNo

end Directory

/-! ### `page_cur_delete_rec` -/

section Delete

variable (page : Nat → UInt8)

/-- `page_mem_free`: the record at `rec`, whose offsets are `offsets`, heads the free list, its
bytes count as garbage, and the page has one record less; `uint32_t` arithmetic. -/
def pageMemFree (rec : Nat) (offsets : List Nat) : Option (Nat → UInt8) := do
  let free := pageHeaderGetPtr page PAGE_FREE
  let page ← pageRecSetNext page rec free
  let page := pageHeaderSetPtr page PAGE_FREE (some rec)
  let garbage := pageHeaderGetField page PAGE_GARBAGE
  let extra ← recOffsExtraSize offsets
  let data ← recOffsDataSize offsets
  let page := pageHeaderSetField page PAGE_GARBAGE ((garbage + extra + data) % 2 ^ 32)
  some (pageHeaderSetField page PAGE_N_RECS ((pageGetNRecs page + 2 ^ 32 - 1) % 2 ^ 32))

/-- `page_cur_delete_rec`: unlink the record at `currentRec`, whose offsets are `offsets`, free
it, and count it out of its owner's slot, balancing a slot that comes to own too few records.
The record after it, `none` for the null pointer, and the page. -/
def pageCurDeleteRec (currentRec : Nat) (offsets : List Nat) :
    Option (Option Nat × (Nat → UInt8)) := do
  let curSlotNo ← pageDirFindOwnerSlot page currentRec
  if curSlotNo = 0 then none
  let curDirSlot ← pageDirGetNthSlot page curSlotNo
  let curNOwned := pageDirSlotGetNOwned page curDirSlot
  let page := pageHeaderSetPtr page PAGE_LAST_INSERT none
  let prevSlot ← pageDirGetNthSlot page (curSlotNo - 1)
  -- the walk from the previous slot's record: `prev_rec` stays null if it starts at `currentRec`
  let prevRec ← walkPrev (pageRecGetNext page) currentRec DATA_PAGE_SIZE none
    (pageDirSlotGetRec page prevSlot)
  let nextRec := pageRecGetNext page currentRec
  -- `page_rec_set_next` asserts against a null `prev_rec`
  let prevRec ← prevRec
  let page ← pageRecSetNext page prevRec nextRec
  if curNOwned ≤ 1 then none
  let page := if currentRec = pageDirSlotGetRec page curDirSlot then
      pageDirSlotSetRec page curDirSlot prevRec
    else page
  let page := pageDirSlotSetNOwned page curDirSlot (curNOwned - 1)
  let page ← pageMemFree page currentRec offsets
  let page ← if curNOwned ≤ PAGE_DIR_SLOT_MIN_N_OWNED then pageDirBalanceSlot page curSlotNo
    else some page
  some (nextRec, page)

end Delete

/-! ### Deleting a list of records -/

section ListDelete

variable (page : Nat → UInt8) (info : RecordInfo)

/-- The first loop of `page_delete_rec_list_end`, for at most `fuel` turns: the sum of the sizes
of the records from `rec2` up to the supremum, and their count, with the asserts that each record
ends on the page and the sum stays below the page size; `uint32_t` arithmetic. -/
def recListEndSize : Nat → Nat → Nat → Nat → Option (Nat × Nat)
  | 0, _, _, _ => none
  | fuel + 1, rec2, size, nRecs => do
      let offsets ← calculateOffsets page info rec2
      let dataSize ← recOffsDataSize offsets
      let extraSize ← recOffsExtraSize offsets
      let s := (dataSize + extraSize) % 2 ^ 32
      if ¬rec2 + s - extraSize < DATA_PAGE_SIZE then none
      if ¬(size + s) % 2 ^ 32 < DATA_PAGE_SIZE then none
      let size := (size + s) % 2 ^ 32
      -- the null pointer at the end of a broken list is read through by `CalculateOffsets`
      let rec2 ← pageRecGetNext page rec2
      if rec2 = PAGE_NEW_SUPREMUM then some (size, nRecs + 1)
      else recListEndSize fuel rec2 size (nRecs + 1)

/-- `page_delete_rec_list_end(rec, page, index, ULINT_UNDEFINED, ULINT_UNDEFINED)`: the records
from `rec` up to the supremum go to the free list in one piece, and the slot of their first
owner becomes the last, holding the supremum and the records before `rec` it owned. -/
def pageDeleteRecListEnd (rec : Nat) : Option (Nat → UInt8) :=
  if rec = PAGE_NEW_SUPREMUM then some page else do
  let page := pageHeaderSetPtr page PAGE_LAST_INSERT none
  let prevRec ← pageRecGetPrev page rec
  let lastRec ← pageRecGetPrev page PAGE_NEW_SUPREMUM
  let (size, nRecs) ← recListEndSize page info DATA_PAGE_SIZE rec 0 0
  if ¬size < DATA_PAGE_SIZE then none
  -- the records from `rec` up to its owner
  let (rec2, count) ← walkCount (recGetNextPtr page) (ownsSlot page) DATA_PAGE_SIZE rec 0
  if ¬count < recGetNOwnedNew page rec2 then none
  let nOwned := recGetNOwnedNew page rec2 - count
  let slotIndex ← pageDirFindOwnerSlot page rec2
  if slotIndex = 0 then none
  let slot ← pageDirGetNthSlot page slotIndex
  let page := pageDirSlotSetRec page slot PAGE_NEW_SUPREMUM
  let page := pageDirSlotSetNOwned page slot nOwned
  let page := pageDirSetNSlots page (slotIndex + 1)
  let page ← pageRecSetNext page prevRec (some PAGE_NEW_SUPREMUM)
  let page ← pageRecSetNext page lastRec (pageHeaderGetPtr page PAGE_FREE)
  let page := pageHeaderSetPtr page PAGE_FREE (some rec)
  let page := pageHeaderSetField page PAGE_GARBAGE
    ((size + pageHeaderGetField page PAGE_GARBAGE) % 2 ^ 32)
  some (pageHeaderSetField page PAGE_N_RECS ((pageGetNRecs page + 2 ^ 32 - nRecs) % 2 ^ 32))

def pageGetMaxTrxId : Nat :=
  readBE page (PAGE_HEADER + PAGE_MAX_TRX_ID) 8

def pageSetMaxTrxId (trxId : Nat) : Nat → UInt8 :=
  writeBE page (PAGE_HEADER + PAGE_MAX_TRX_ID) 8 trxId

/-- `page_update_max_trx_id`, with its asserts of a transaction id and a leaf. -/
def pageUpdateMaxTrxId (trxId : Nat) : Option (Nat → UInt8) :=
  if trxId = 0 ∨ pageIsLeaf page = false then none
  else if pageGetMaxTrxId page < trxId then some (pageSetMaxTrxId page trxId) else some page

/-- `page_create_empty`: recreate the page, keeping the highest transaction id of a leaf, which
is asserted to be set. -/
def pageCreateEmpty : Option (Nat → UInt8) := do
  let maxTrxId := if pageIsLeaf page then pageGetMaxTrxId page else 0
  if pageIsLeaf page ∧ maxTrxId = 0 then none
  let page := pageCreateLow page
  if maxTrxId ≠ 0 then pageUpdateMaxTrxId page maxTrxId else some page

/-- The loop of `page_delete_rec_list_start`, for at most `fuel` turns: delete the record at
`deleteRec` and go on from the one after it, up to `rec`. -/
def deleteRecsBefore (rec : Nat) : Nat → Option Nat → (Nat → UInt8) → Option (Nat → UInt8)
  | 0, _, _ => none
  | fuel + 1, deleteRec, page =>
      if deleteRec = some rec then some page else do
      -- `CalculateOffsets` reads through a null `delete_rec`
      let deleteRec ← deleteRec
      let offsets ← calculateOffsets page info deleteRec
      let (deleteRec, page) ← pageCurDeleteRec page deleteRec offsets
      deleteRecsBefore rec fuel deleteRec page

/-- `page_delete_rec_list_start`: delete the records before `rec`, all of them by emptying the
page when `rec` is the supremum. -/
def pageDeleteRecListStart (rec : Nat) : Option (Nat → UInt8) :=
  if rec = PAGE_NEW_INFIMUM then some page
  else if rec = PAGE_NEW_SUPREMUM then pageCreateEmpty page
  else deleteRecsBefore info rec DATA_PAGE_SIZE (pageRecGetNext page PAGE_NEW_INFIMUM) page

end ListDelete

/-! ### The appliers -/

section Parse

variable (buf : List UInt8) (stop : Nat)

/-- The body of `MLOG_COMP_REC_DELETE` as `ApplyCompRecDelete` reads it: the index and the
offset of the record, asserted to lie on the page. -/
def recDeleteBody : Decoder (RecordInfo × Nat) := do
  let info ← parseRecInfoFromLog buf stop
  let offset ← recOffsetOut buf stop
  pure (info, offset)

/-- The body of the list deletes as `ApplyCompListDelete` reads it: the index and an offset it
does not check. -/
def listDeleteBody : Decoder (RecordInfo × Nat) := do
  let info ← parseRecInfoFromLog buf stop
  let ptr ← get
  ensure (ptr + 2 ≤ stop) .null
  let offset := machReadFrom buf ptr 2
  skip 2
  pure (info, offset)

end Parse

section Appliers

variable (log : LogEntry) (page : Nat → UInt8)

def applyCompRecDelete : Option (Bool × (Nat → UInt8)) :=
  match recDeleteBody log.body log.body.length 0 with
  | .error .null => some (false, page)
  | .error .abort => none
  | .ok ((info, offset), _) => do
      let offsets ← calculateOffsets page info offset
      let (_, page) ← pageCurDeleteRec page offset offsets
      return (true, page)

/-- `ApplyCompListDelete`: `MLOG_COMP_LIST_END_DELETE` deletes from the record on, and
`MLOG_COMP_LIST_START_DELETE` the records before it. -/
def applyCompListDelete : Option (Bool × (Nat → UInt8)) :=
  match listDeleteBody log.body log.body.length 0 with
  | .error .null => some (false, page)
  | .error .abort => none
  | .ok ((info, offset), _) => do
      let page ← if log.type = .MLOG_COMP_LIST_END_DELETE then pageDeleteRecListEnd page info offset
        else pageDeleteRecListStart page info offset
      return (true, page)

end Appliers

/-! ### The dispatcher -/

section Dispatch

variable {log : LogEntry} {page page' : Nat → UInt8}

theorem applyCompRecDelete_unchanged (h : applyCompRecDelete log page = some (false, page')) :
    page' = page := by
  unfold applyCompRecDelete at h
  split at h
  · cases h
    rfl
  · cases h
  · simp only [Option.bind_eq_bind, Option.bind_eq_some_iff] at h
    obtain ⟨_, -, _, -, h⟩ := h
    cases h

theorem applyCompListDelete_unchanged (h : applyCompListDelete log page = some (false, page')) :
    page' = page := by
  unfold applyCompListDelete at h
  split at h
  · cases h
    rfl
  · cases h
  · -- both list deletes answer `true`
    simp only [Option.bind_eq_bind] at h
    split at h <;> simp [Option.bind_eq_some_iff] at h

end Dispatch

/-- The dispatcher's deleting appliers as modelled here, and `other` for the rest. -/
def RecordApplier.withDeletes (other : RecordApplier) : RecordApplier where
  apply t log page := match t with
    | .MLOG_COMP_REC_DELETE => applyCompRecDelete log page
    | .MLOG_COMP_LIST_START_DELETE | .MLOG_COMP_LIST_END_DELETE => applyCompListDelete log page
    | t => other.apply t log page
  unchanged_of_false t log data data' h := by
    split at h
    · exact applyCompRecDelete_unchanged h
    · exact applyCompListDelete_unchanged h
    · exact applyCompListDelete_unchanged h
    · exact other.unchanged_of_false _ _ _ _ h

/-- The nine index-record appliers of `log_apply_apply_one_log`, every one as modelled: the
in-place edits, the inserts and the deletes. -/
def RecordApplier.ofSource : RecordApplier :=
  (RecordApplier.withDeletes .rejectAll).withInserts.withInPlace

end LogDB
