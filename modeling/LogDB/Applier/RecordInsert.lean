import LogDB.Applier.RecordApply

/-!
Inserting records into a compact index page: `page_cur_insert_rec_low` of `log_parse.cpp`,
with the allocation from the free list or the heap, the linking, and the directory split it
does, and the three appliers that call it: `ApplyCompRecInsert`, the loop of
`ApplyCompListEndCopyCreated` over `page_cur_parse_insert_rec`, and
`ApplyCompPageReorganize`, which rebuilds a page through `page_copy_rec_list_end_no_locks`.

A record is its offset in the page, as in `LogDB.Applier.IndexPage`. The record to insert
lies in a memory of its own: the buffer an insert body is built in, or the copy of the page
that a reorganization reads. As there, `none` is a failed assert, an `exit`, or a null pointer
the code goes on to read through; the loops run for a bounded number of turns.
-/

namespace LogDB

open LogDB.Lib Decoder

/-! ### Header fields and record bits -/

section Fields

variable (page : Nat → UInt8)

/-- `page_header_get_ptr`: an offset of 0 is the null pointer. -/
def pageHeaderGetPtr (field : Nat) : Option Nat :=
  let offs := pageHeaderGetField page field
  if offs = 0 then none else some offs

def pageHeaderSetPtr (field : Nat) (ptr : Option Nat) : Nat → UInt8 :=
  pageHeaderSetField page field (ptr.getD 0)

/-- `rec_set_bit_field_1`: in the byte `offs` before the origin, the bits under `mask` give
way to `val << shift`, which is not masked. -/
def recSetBitField1 (rec val offs mask shift : Nat) : Nat → UInt8 :=
  Function.update page (rec - offs)
    (.ofNat (((page (rec - offs)).toNat &&& (255 - mask)) ||| val <<< shift))

def recSetNOwnedNew (rec n : Nat) : Nat → UInt8 :=
  recSetBitField1 page rec n REC_NEW_N_OWNED REC_N_OWNED_MASK REC_N_OWNED_SHIFT

def recSetStatus (rec bits : Nat) : Nat → UInt8 :=
  recSetBitField1 page rec bits REC_NEW_STATUS REC_NEW_STATUS_MASK REC_NEW_STATUS_SHIFT

def recGetHeapNoNew (rec : Nat) : Nat :=
  (readBE page (rec - REC_NEW_HEAP_NO) 2 &&& REC_HEAP_NO_MASK) >>> REC_HEAP_NO_SHIFT

/-- `rec_set_heap_no_new` through `rec_set_bit_field_2`. Of the asserts there only the one on
the value can fail for the mask and the shift of the heap number. -/
def recSetHeapNoNew (rec heapNo : Nat) : Option (Nat → UInt8) :=
  let field := rec - REC_NEW_HEAP_NO
  if (heapNo <<< REC_HEAP_NO_SHIFT) &&& REC_HEAP_NO_MASK ≠ heapNo <<< REC_HEAP_NO_SHIFT then none
  else some (writeBE page field 2
    ((readBE page field 2 &&& (0xFFFF - REC_HEAP_NO_MASK)) ||| heapNo <<< REC_HEAP_NO_SHIFT))

/-- `rec_set_next_offs_new`: the distance to `next` as a difference of `int32_t`s kept in 16
bits, and 0 for the null pointer. -/
def recSetNextOffsNew (rec next : Nat) : Option (Nat → UInt8) :=
  if DATA_PAGE_SIZE ≤ next then none
  -- the field of a record at offset 0 or 1 would lie before the frame
  else if rec < REC_NEXT then none
  else some (writeBE page (rec - REC_NEXT) 2
    (if next = 0 then 0 else (next + 2 ^ 32 - rec) % 2 ^ 32 &&& REC_NEXT_MASK))

/-- `page_rec_set_next`, which asserts that a record is not linked to itself. -/
def pageRecSetNext (rec : Nat) (next : Option Nat) : Option (Nat → UInt8) :=
  if next = some rec then none else recSetNextOffsNew page rec (next.getD 0)

/-- `rec_get_info_and_status_bits`, with the assert of `rec_get_info_bits` that no info bit
but the deleted and the min-rec flag is set. -/
def recGetInfoAndStatusBits (rec : Nat) : Option Nat :=
  let info := recGetBitField1 page rec REC_NEW_INFO_BITS REC_INFO_BITS_MASK REC_INFO_BITS_SHIFT
  if info &&& (255 - REC_INFO_DELETED_FLAG - REC_INFO_MIN_REC_FLAG) ≠ 0 then none
  else some (info ||| recGetBitField1 page rec REC_NEW_STATUS REC_NEW_STATUS_MASK
    REC_NEW_STATUS_SHIFT)

/-- `rec_set_info_and_status_bits`: the status bits, then the info bits with their assert. -/
def recSetInfoAndStatusBits (rec bits : Nat) : Option (Nat → UInt8) :=
  recSetInfoBitsNew (recSetStatus page rec (bits &&& REC_NEW_STATUS_MASK)) rec
    (bits &&& (0xFFFFFFFF - REC_NEW_STATUS_MASK))

end Fields

/-- `RecordInfo::GetExtraSize`. -/
def recOffsExtraSize (offsets : List Nat) : Option Nat :=
  (getNOffset offsets REC_OFFS_HEADER_SIZE).map
    (· &&& (0xFFFFFFFF - (REC_OFFS_COMPACT ||| REC_OFFS_EXTERNAL)))

/-- `RecordInfo::GetDataSize`: where the last field ends. -/
def recOffsDataSize (offsets : List Nat) : Option Nat :=
  if offsets.length ≤ REC_OFFS_HEADER_SIZE then none else do
    let n ← getNOffset offsets 1
    (getNOffset offsets (REC_OFFS_HEADER_SIZE + n)).map (· &&& REC_OFFS_MASK)

/-! ### Room on the page -/

section Space

variable (page : Nat → UInt8)

def pageDirGetNHeap : Nat :=
  pageHeaderGetField page PAGE_N_HEAP &&& 0x7fff

/-- `page_dir_set_n_heap`, which asserts that the count stays below `0x8000` and goes up by
one; the compact flag stays. -/
def pageDirSetNHeap (nHeap : Nat) : Option (Nat → UInt8) :=
  let field := pageHeaderGetField page PAGE_N_HEAP
  if nHeap < 0x8000 ∧ nHeap = (field &&& 0x7fff) + 1 then
    some (pageHeaderSetField page PAGE_N_HEAP (nHeap ||| (0x8000 &&& field)))
  else none

/-- `page_dir_calc_reserved_space`: half a slot for a record, rounded up, in `uint32_t`. -/
def pageDirCalcReservedSpace (nRecs : Nat) : Nat :=
  (PAGE_DIR_SLOT_SIZE * nRecs + PAGE_DIR_SLOT_MIN_N_OWNED - 1) % 2 ^ 32 / PAGE_DIR_SLOT_MIN_N_OWNED

def pageGetFreeSpaceOfEmpty : Nat :=
  DATA_PAGE_SIZE - PAGE_NEW_SUPREMUM_END - PAGE_DIR - 2 * PAGE_DIR_SLOT_SIZE

/-- `page_get_max_insert_size`: room for `n_recs` more records on top of the heap, with
directory space reserved for every record of the heap; `uint32_t` arithmetic. -/
def pageGetMaxInsertSize (nRecs : Nat) : Nat :=
  let occupied := (pageHeaderGetField page PAGE_HEAP_TOP + 2 ^ 32 - PAGE_NEW_SUPREMUM_END +
    pageDirCalcReservedSpace ((nRecs + pageDirGetNHeap page + 2 ^ 32 - 2) % 2 ^ 32)) % 2 ^ 32
  if occupied > pageGetFreeSpaceOfEmpty then 0 else pageGetFreeSpaceOfEmpty - occupied

/-- `page_mem_alloc_heap`: the block at the heap top, its heap number and the page, or
`some none` for the null pointer of a page without room. -/
def pageMemAllocHeap (need : Nat) : Option (Option (Nat × Nat × (Nat → UInt8))) :=
  if pageGetMaxInsertSize page 1 ≥ need then do
    -- a heap top of 0 is the null pointer, which `rec_copy` asserts against
    let block := pageHeaderGetField page PAGE_HEAP_TOP
    let page := pageHeaderSetField page PAGE_HEAP_TOP (block + need)
    let heapNo := pageDirGetNHeap page
    let page ← pageDirSetNHeap page (1 + heapNo)
    some (some (block, heapNo, page))
  else some none

/-- `page_mem_alloc_free`: `next` heads the free list, and the garbage goes down by `need`. -/
def pageMemAllocFree (next : Option Nat) (need : Nat) : Nat → UInt8 :=
  let page := pageHeaderSetPtr page PAGE_FREE next
  let garbage := pageHeaderGetField page PAGE_GARBAGE
  pageHeaderSetField page PAGE_GARBAGE ((garbage + 2 ^ 32 - need) % 2 ^ 32)

/-- `page_get_data_size`: the heap without the infimum, the supremum and the garbage, in
`uint32_t` and asserted below the page size. -/
def pageGetDataSize : Option Nat :=
  let ret := (pageHeaderGetField page PAGE_HEAP_TOP + 2 ^ 32 - PAGE_NEW_SUPREMUM_END + 2 ^ 32 -
    pageHeaderGetField page PAGE_GARBAGE) % 2 ^ 32
  if ret < DATA_PAGE_SIZE then some ret else none

def pageGetMaxInsertSizeAfterReorganize (nRecs : Nat) : Option Nat := do
  let dataSize ← pageGetDataSize page
  let occupied := (dataSize +
    pageDirCalcReservedSpace ((nRecs + pageGetNRecs page) % 2 ^ 32)) % 2 ^ 32
  some (if occupied > pageGetFreeSpaceOfEmpty then 0 else pageGetFreeSpaceOfEmpty - occupied)

end Space

/-! ### The directory -/

section Directory

variable (page : Nat → UInt8)

def pageDirSetNSlots (nSlots : Nat) : Nat → UInt8 :=
  pageHeaderSetField page PAGE_N_DIR_SLOTS nSlots

def pageDirSlotSetRec (slot rec : Nat) : Nat → UInt8 :=
  writeBE page slot 2 rec

/-- `page_dir_slot_set_n_owned`: the count is kept in the slot's record. -/
def pageDirSlotSetNOwned (slot n : Nat) : Nat → UInt8 :=
  recSetNOwnedNew page (pageDirSlotGetRec page slot) n

/-- `page_dir_add_slot`: one slot more, the slots above `start` moving one place down the
page to make room. A page with slots to split has two or more, so `n_slots - 1` does not
wrap. -/
def pageDirAddSlot (start : Nat) : Option (Nat → UInt8) := do
  let nSlots := pageDirGetNSlots page
  if ¬start < nSlots - 1 then none
  let page := pageDirSetNSlots page (nSlots + 1)
  let slot ← pageDirGetNthSlot page nSlots
  some (copyBytes page slot page (slot + PAGE_DIR_SLOT_SIZE)
    ((nSlots - 1 - start) * PAGE_DIR_SLOT_SIZE))

/-- `k` turns of `rec = page_rec_get_next(page, rec)`; the null pointer is not followed. -/
def pageRecGetNextN : Nat → Nat → Option Nat
  | 0, rec => some rec
  | k + 1, rec => (pageRecGetNext page rec).bind (pageRecGetNextN k)

/-- `page_dir_split_slot`: a slot owning `PAGE_DIR_SLOT_MAX_N_OWNED + 1` records hands the
first half of them to a new slot below it. The assert that half of them is at least
`PAGE_DIR_SLOT_MIN_N_OWNED` holds of 9. -/
def pageDirSplitSlot (slotNo : Nat) : Option (Nat → UInt8) := do
  if slotNo = 0 then none
  let slot ← pageDirGetNthSlot page slotNo
  let nOwned := recGetNOwnedNew page (pageDirSlotGetRec page slot)
  if nOwned ≠ PAGE_DIR_SLOT_MAX_N_OWNED + 1 then none
  let prevSlot ← pageDirGetNthSlot page (slotNo - 1)
  let rec ← pageRecGetNextN page (nOwned / 2) (pageDirSlotGetRec page prevSlot)
  let page ← pageDirAddSlot page (slotNo - 1)
  let newSlot ← pageDirGetNthSlot page slotNo
  let slot ← pageDirGetNthSlot page (slotNo + 1)
  let page := pageDirSlotSetRec page newSlot rec
  let page := pageDirSlotSetNOwned page newSlot (nOwned / 2)
  some (pageDirSlotSetNOwned page slot (nOwned - nOwned / 2))

end Directory

/-! ### `page_cur_insert_rec_low` -/

section Insert

variable (page : Nat → UInt8)

/-- `rec_copy` of the record of `src` at `srcRec` to the block `buf` of the page: its origin
in the page. -/
def recCopy (buf : Nat) (src : Nat → UInt8) (srcRec : Nat) (offsets : List Nat) :
    Option (Nat × (Nat → UInt8)) := do
  if buf = 0 then none
  let extra ← recOffsExtraSize offsets
  let data ← recOffsDataSize offsets
  some (buf + extra, copyBytes page buf src (srcRec - extra) (extra + data))

/-- Step 6 of `page_cur_insert_rec_low`: an insert right after the last one, or right before
it, counts on in that direction; any other insert starts the count again. -/
def pageUpdateDirection (preRec insertRec : Nat) : Nat → UInt8 :=
  let direction := pageHeaderGetField page PAGE_DIRECTION
  let nDirection := pageHeaderGetField page PAGE_N_DIRECTION
  let (direction, nDirection) := match pageHeaderGetPtr page PAGE_LAST_INSERT with
    | none => (PAGE_NO_DIRECTION, 0)
    | some lastInsert =>
        if lastInsert = preRec ∧ direction ≠ PAGE_LEFT then (PAGE_RIGHT, nDirection + 1)
        else if pageRecGetNext page insertRec = some lastInsert ∧ direction ≠ PAGE_RIGHT then
          (PAGE_LEFT, nDirection + 1)
        else (PAGE_NO_DIRECTION, 0)
  let page := pageHeaderSetField page PAGE_DIRECTION direction
  pageHeaderSetField page PAGE_N_DIRECTION nDirection

/-- The block `page_cur_insert_rec_low` takes for a record of `recSize` bytes, its heap
number and the page: the head of the free list when that record is large enough, else the
heap top; `some none` for a page without room. -/
def pageAllocRec (info : RecordInfo) (recSize : Nat) :
    Option (Option (Nat × Nat × (Nat → UInt8))) := do
  let fromFree ← match pageHeaderGetPtr page PAGE_FREE with
    | some freeRec => do
        let freeOffsets ← calculateOffsets page info freeRec
        let freeExtra ← recOffsExtraSize freeOffsets
        let freeData ← recOffsDataSize freeOffsets
        if freeExtra + freeData < recSize then some none
        else some (some (freeRec - freeExtra, recGetHeapNoNew page freeRec,
          pageMemAllocFree page (recGetNextPtrConst page freeRec) recSize))
    | none => some none
  match fromFree with
  | some block => some (some block)
  | none => pageMemAllocHeap page recSize

/-- Steps 3 to 8 of `page_cur_insert_rec_low` once the block `insertBuf` is taken: copy the
record, link it after `preRec`, count it, and count it in its owner's slot, splitting a slot
that comes to own too many. -/
def pageInsertIntoBlock (preRec : Nat) (offsets : List Nat) (src : Nat → UInt8) (srcRec : Nat)
    (insertBuf heapNo : Nat) : Option (Nat × (Nat → UInt8)) := do
  let (insertRec, page) ← recCopy page insertBuf src srcRec offsets
  let nextRec := pageRecGetNext page preRec
  let page ← pageRecSetNext page insertRec nextRec
  let page ← pageRecSetNext page preRec (some insertRec)
  let page := pageHeaderSetField page PAGE_N_RECS (1 + pageGetNRecs page)
  let page := recSetNOwnedNew page insertRec 0
  let page ← recSetHeapNoNew page insertRec heapNo
  let page := pageUpdateDirection page preRec insertRec
  let page := pageHeaderSetPtr page PAGE_LAST_INSERT (some insertRec)
  let ownerRec ← pageRecFindOwnerRec page insertRec
  let nOwned := recGetNOwnedNew page ownerRec
  let page := recSetNOwnedNew page ownerRec (nOwned + 1)
  let page ← if nOwned = PAGE_DIR_SLOT_MAX_N_OWNED then do
      let slotNo ← pageDirFindOwnerSlot page ownerRec
      pageDirSplitSlot page slotNo
    else some page
  some (insertRec, page)

/-- `page_cur_insert_rec_low`: insert the record of `src` at `srcRec`, with the offsets
`offsets`, after the record `preRec`. `some none` is the null pointer of a page without room,
which leaves the page as it was. -/
def pageCurInsertRecLow (info : RecordInfo) (preRec : Nat) (offsets : List Nat)
    (src : Nat → UInt8) (srcRec : Nat) : Option (Option (Nat × (Nat → UInt8))) := do
  let extra ← recOffsExtraSize offsets
  let data ← recOffsDataSize offsets
  match ← pageAllocRec page info (extra + data) with
  | none => some none
  | some (insertBuf, heapNo, page) =>
      (pageInsertIntoBlock page preRec offsets src srcRec insertBuf heapNo).map some

end Insert

/-! ### Inserts decoded from the log -/

section Parse

variable (buf : List UInt8) (stop : Nat)

/-- What `page_cur_parse_insert_rec` and `ApplyCompRecInsert` read of an insert after the
cursor: `end_seg_len`; when its low bit is set, the info and status bits, `origin_offset` and
`mismatch_index`; and the end segment. A body cut short, or an `end_seg_len` of twice the page
or more, gives `trunc`: `nullptr` in the former and `assert(false)` in the latter. -/
def insertSegment (trunc : Fail) : Decoder (Nat × Option (Nat × Nat × Nat) × List UInt8) := do
  let endSegLen ← onNull .abort (machParseCompressed buf stop)
  ensure (endSegLen < DATA_PAGE_SIZE <<< 1) trunc
  let explicit ← if endSegLen &&& 1 ≠ 0 then do
      let ptr ← get
      ensure (ptr + 1 ≤ stop) trunc
      let bits := machReadFrom buf ptr 1
      skip 1
      let originOffset ← onNull trunc (machParseCompressed buf stop)
      ensure (originOffset < DATA_PAGE_SIZE) .abort
      let mismatchIndex ← onNull trunc (machParseCompressed buf stop)
      ensure (mismatchIndex < DATA_PAGE_SIZE) .abort
      pure (some (bits, originOffset, mismatchIndex))
    else pure none
  let ptr ← get
  ensure (ptr + (endSegLen >>> 1) ≤ stop) trunc
  skip (endSegLen >>> 1)
  pure (endSegLen, explicit, (buf.drop ptr).take (endSegLen >>> 1))

end Parse

section Build

variable (page : Nat → UInt8)

/-- The info and status bits, the origin and the mismatch index of the record to insert: those
of the body, or, when it has none, those of the cursor record, which the new record matches up
to its end segment. -/
def insertHeader (cursorRec : Nat) (preOffsets : List Nat) (endSegLen : Nat) :
    Option (Nat × Nat × Nat) → Option (Nat × Nat × Nat)
  | some header => some header
  | none => do
      let bits ← recGetInfoAndStatusBits page cursorRec
      let extra ← recOffsExtraSize preOffsets
      let data ← recOffsDataSize preOffsets
      some (bits, extra, (data + extra + 2 ^ 32 - (endSegLen >>> 1)) % 2 ^ 32)

/-- `buf1`: the first `mismatch_index` bytes of the cursor record from its extra bytes on, then
the end segment. The code leaves the other bytes of the buffer unwritten; they are 0 here. -/
def insertBuffer (start mismatchIndex : Nat) (seg : List UInt8) : Nat → UInt8 :=
  writeBytes (copyBytes (fun _ => 0) 0 page start mismatchIndex) mismatchIndex seg

/-- Build the record in `buf1` with its info and status bits, and insert it after the cursor;
where `page_cur_insert_rec_low` finds no room the page stays as it was, and nobody looks. -/
def insertAfterCursor (info : RecordInfo) (cursorRec : Nat) (preOffsets : List Nat)
    (header : Nat × Nat × Nat) (seg : List UInt8) : Option (Nat → UInt8) := do
  let (bits, originOffset, mismatchIndex) := header
  let preExtra ← recOffsExtraSize preOffsets
  let recBuf := insertBuffer page (cursorRec - preExtra) mismatchIndex seg
  let recBuf ← recSetInfoAndStatusBits recBuf originOffset bits
  let offsets ← calculateOffsets recBuf info originOffset
  let inserted ← pageCurInsertRecLow page info cursorRec offsets recBuf originOffset
  some ((inserted.map Prod.snd).getD page)

end Build

section Apply

variable (buf : List UInt8) (stop : Nat)

/-- `page_cur_parse_insert_rec(is_short, ptr, end_ptr, page, rec_info)`: the cursor is the last
record when `is_short`, else read from the body; the page after the insert, with `null` for
the `nullptr` it returns before touching the page. -/
def pageCurParseInsertRec (isShort : Bool) (page : Nat → UInt8) (info : RecordInfo) :
    Decoder (Nat → UInt8) := do
  let cursorRec ← if isShort then ofOption (pageRecGetPrev page PAGE_NEW_SUPREMUM)
    else do
      let ptr ← get
      ensure (ptr + 2 ≤ stop) .abort
      let offset := machReadFrom buf ptr 2
      skip 2
      ensure (offset < DATA_PAGE_SIZE) .abort
      pure offset
  let (endSegLen, explicit, seg) ← insertSegment buf stop .null
  let preOffsets ← ofOption (calculateOffsets page info cursorRec)
  let header ← ofOption (insertHeader page cursorRec preOffsets endSegLen explicit)
  ofOption (insertAfterCursor page info cursorRec preOffsets header seg)

/-- The body of `MLOG_COMP_REC_INSERT` as `ApplyCompRecInsert` reads it: the index, the cursor
and the insert after it, every failure an assert. -/
def recInsertBody : Decoder (RecordInfo × Nat × Nat × Option (Nat × Nat × Nat) × List UInt8) := do
  let info ← parseRecInfoFromLog buf stop
  let ptr ← get
  ensure (ptr + 2 ≤ stop) .abort
  let offset := machReadFrom buf ptr 2
  skip 2
  ensure (offset < DATA_PAGE_SIZE) .abort
  let (endSegLen, explicit, seg) ← insertSegment buf stop .abort
  pure (info, offset, endSegLen, explicit, seg)

/-- The body of `MLOG_COMP_LIST_END_COPY_CREATED` up to its records, as
`ApplyCompListEndCopyCreated` reads it: the index and `rec_end`, the end of the records. -/
def copyCreatedHead : Decoder (RecordInfo × Nat) := do
  let info ← parseRecInfoFromLog buf stop
  let ptr ← get
  ensure (ptr + 4 ≤ stop) .null
  let logDataLen := machReadFrom buf ptr 4
  skip 4
  ensure (ptr + 4 + logDataLen ≤ stop) .null
  pure (info, ptr + 4 + logDataLen)

/-- The loop `while (ptr < rec_end) ptr = page_cur_parse_insert_rec(true, ptr, end_ptr, page,
rec_info);` for at most `fuel` turns. The pointer is `none` once a call has returned `nullptr`:
the null pointer compares below `rec_end`, so the loop hands it to the next call, which reads
the body through it. -/
def copyCreatedLoop (info : RecordInfo) (recEnd : Nat) :
    Nat → Option Nat → (Nat → UInt8) → Option (Nat × (Nat → UInt8))
  | 0, _, _ => none
  | _ + 1, none, _ => none
  | fuel + 1, some ptr, page =>
      if ptr < recEnd then
        match pageCurParseInsertRec buf stop true page info ptr with
        | .ok (page, ptr) => copyCreatedLoop info recEnd fuel (some ptr) page
        | .error .null => copyCreatedLoop info recEnd fuel none page
        | .error .abort => none
      else some (ptr, page)

end Apply

section Appliers

variable (log : LogEntry) (page : Nat → UInt8)

/-- `ApplyCompRecInsert`, which turns every `nullptr` of the decoding into `assert(false)` and
asserts once more that the mismatch index lies on the page. -/
def applyCompRecInsert : Option (Bool × (Nat → UInt8)) :=
  match recInsertBody log.body log.body.length 0 with
  | .error _ => none
  | .ok ((info, cursorRec, endSegLen, explicit, seg), _) => do
      let preOffsets ← calculateOffsets page info cursorRec
      let (bits, originOffset, mismatchIndex) ←
        insertHeader page cursorRec preOffsets endSegLen explicit
      if ¬mismatchIndex < DATA_PAGE_SIZE then none
      let page ← insertAfterCursor page info cursorRec preOffsets
        (bits, originOffset, mismatchIndex) seg
      some (true, page)

/-- `ApplyCompListEndCopyCreated`: the records up to `rec_end`, each inserted after the last
record of the page, then `assert(ptr == rec_end)` and the last insert forgotten. -/
def applyCompListEndCopyCreated : Option (Bool × (Nat → UInt8)) :=
  match copyCreatedHead log.body log.body.length 0 with
  | .error .null => some (false, page)
  | .error .abort => none
  | .ok ((info, recEnd), ptr) => do
      let (ptr, page) ← copyCreatedLoop log.body log.body.length info recEnd
        (log.body.length + 1) (some ptr) page
      if ptr ≠ recEnd then none
      let page := pageHeaderSetPtr page PAGE_LAST_INSERT none
      let page := pageHeaderSetField page PAGE_DIRECTION PAGE_NO_DIRECTION
      some (true, pageHeaderSetField page PAGE_N_DIRECTION 0)

end Appliers

/-! ### What the apply path decodes of a framed body -/

section Framing

variable {buf : List UInt8} {stop : Nat}

theorem parseRecInfoFromLog_eq (ptr : Nat) :
    parseRecInfoFromLog buf stop ptr =
      let n := machReadFrom buf ptr 2
      let nUniq := machReadFrom buf (ptr + 2) 2
      if ptr + 4 ≤ stop ∧ nUniq ≤ n ∧ ptr + 4 + n * 2 ≤ stop ∧
          (nUniq ≠ n → nUniq + DATA_ROLL_PTR ≤ n) then
        parseRecInfoFields buf n ⟨n, nUniq, 0, if nUniq ≠ n then DICT_CLUSTERED else 0, []⟩ (ptr + 4)
      else .error .abort := by
  dsimp only
  rw [parseRecInfoFromLog, get_bind_run]
  by_cases h1 : ptr + 4 ≤ stop
  · rw [ensure_bind_of h1]
    dsimp only
    rw [bind_run_ok (skip_run 4 ptr)]
    by_cases h2 : machReadFrom buf (ptr + 2) 2 ≤ machReadFrom buf ptr 2
    · rw [ensure_bind_of h2, get_bind_run]
      by_cases h3 : ptr + 4 + machReadFrom buf ptr 2 * 2 ≤ stop
      · rw [ensure_bind_of h3]
        by_cases h4 : machReadFrom buf (ptr + 2) 2 ≠ machReadFrom buf ptr 2
        · rw [if_pos h4, if_pos h4]
          by_cases h5 : machReadFrom buf (ptr + 2) 2 + DATA_ROLL_PTR ≤ machReadFrom buf ptr 2
          · rw [ensure_bind_of h5, pure_bind, if_pos ⟨h1, h2, h3, fun _ => h5⟩]
          · rw [bind_run_error (by rw [ensure_run, if_neg h5]),
              if_neg fun h => h5 (h.2.2.2 h4)]
        · rw [if_neg h4, if_neg h4, pure_bind, if_pos ⟨h1, h2, h3, fun h => absurd h h4⟩]
      · rw [bind_run_error (by rw [ensure_run, if_neg h3]), if_neg fun h => h3 h.2.2.1]
    · rw [bind_run_error (by rw [ensure_run, if_neg h2]), if_neg fun h => h2 h.2.1]
  · rw [bind_run_error (by rw [ensure_run, if_neg h1]), if_neg fun h => h1 h.1]

theorem parseRecInfoFields_ptr {k : Nat} {info info' : RecordInfo} {ptr p : Nat}
    (h : parseRecInfoFields buf k info ptr = .ok (info', p)) : p = ptr + k * 2 := by
  induction k generalizing info ptr with
  | zero =>
      cases h
      rfl
  | succ k ih =>
      rw [parseRecInfoFields, get_bind_run, bind_run_ok (skip_run 2 ptr)] at h
      -- whatever the two bytes describe, the loop goes on two bytes further
      generalize RecordInfo.addField info _ _ _ = o at h
      cases o with
      | none => cases h
      | some info₁ =>
          have := ih h
          omega

/-- Where `ParseRecInfoFromLog` accepts an index, `mlog_parse_index` accepts it too and stops
at the same place. -/
theorem mlogParseIndex_of_parseRecInfoFromLog {info : RecordInfo} {ptr p : Nat}
    (h : parseRecInfoFromLog buf stop ptr = .ok (info, p)) :
    mlogParseIndex buf stop true ptr = .ok ((), p) := by
  rw [parseRecInfoFromLog_eq] at h
  dsimp only at h
  split_ifs at h with hc <;> first
    | cases h
    | have hp := parseRecInfoFields_ptr h
      simp only [mlogParseIndex, if_true, get_bind_run, ensure_bind_of hc.1,
        bind_run_ok (skip_run 4 ptr), consume_run, if_pos hc.2.2.1, hp]
/-- On a body the parser framed, `ApplyCompListEndCopyCreated` reads the index and the length
of the records as the parser did, and the records end where the body ends. -/
theorem copyCreatedHead_of_framed {info : RecordInfo} {p : Nat}
    (hparse : parseSingleLogRecordBody buf buf.length .MLOG_COMP_LIST_END_COPY_CREATED 0 =
      .ok ((), buf.length))
    (hinfo : parseRecInfoFromLog buf buf.length 0 = .ok (info, p)) :
    copyCreatedHead buf buf.length 0 = .ok ((info, buf.length), p + 4) := by
  simp only [parseSingleLogRecordBody, decide_true] at hparse
  rw [bind_run_ok (mlogParseIndex_of_parseRecInfoFromLog hinfo), parseCopyRecListToCreatedPage,
    lengthPrefixed, get_bind_run] at hparse
  obtain ⟨_, q, h4, hparse⟩ := bind_ok hparse
  obtain ⟨hlen, rfl⟩ := ensure_ok h4
  rw [bind_run_ok (skip_run 4 q)] at hparse
  obtain ⟨hend, heq⟩ := consume_ok hparse
  rw [copyCreatedHead, bind_run_ok hinfo, get_bind_run, ensure_bind_of hlen]
  rw [bind_run_ok (skip_run 4 q), ensure_bind_of (by omega), pure_run, ← heq]

/-- A record that starts at the end of the body fails `assert(ptr != nullptr)` on its first
compressed integer. -/
theorem insertSegment_of_le {trunc : Fail} {ptr : Nat} (h : stop ≤ ptr) :
    insertSegment buf stop trunc ptr = .error .abort := by
  rw [insertSegment, bind_run_error]
  rw [onNull_of_null]
  simp only [machParseCompressed, if_pos h]

theorem pageCurParseInsertRec_short_null {page : Nat → UInt8} {info : RecordInfo} {ptr c : Nat}
    (hprev : pageRecGetPrev page PAGE_NEW_SUPREMUM = some c)
    (hseg : insertSegment buf stop .null ptr = .error .null) :
    pageCurParseInsertRec buf stop true page info ptr = .error .null := by
  rw [pageCurParseInsertRec, if_pos rfl, hprev, bind_run_ok (ofOption_some c ptr)]
  exact bind_run_error hseg _

theorem copyCreatedLoop_null {info : RecordInfo} {recEnd fuel : Nat} {page : Nat → UInt8} :
    copyCreatedLoop buf stop info recEnd fuel none page = none := by
  cases fuel <;> rfl

end Framing

/-- `mlog_parse_index` and `PARSE_COPY_REC_LIST_TO_CREATED_PAGE` check only the outer length of
an `MLOG_COMP_LIST_END_COPY_CREATED` body, and `ApplyCompListEndCopyCreated` trusts the framing
of the records inside. On a well-formed page, a body that the parser accepts but whose first
record is cut off by the end of the body makes `page_cur_parse_insert_rec` return `nullptr`;
the loop hands the null pointer back to it, and the applier dies. -/
theorem copy_created_passes_null_back {data : Nat → UInt8} {recs ps : List Nat}
    (hl : RecordList data recs) (hd : PageDirectory data recs ps) {log : LogEntry}
    {info : RecordInfo} {p : Nat}
    (hparse : parseSingleLogRecordBody log.body log.body.length .MLOG_COMP_LIST_END_COPY_CREATED 0 =
      .ok ((), log.body.length))
    (hinfo : parseRecInfoFromLog log.body log.body.length 0 = .ok (info, p))
    (hcut : insertSegment log.body log.body.length .null (p + 4) = .error .null) :
    copyCreatedHead log.body log.body.length 0 = .ok ((info, log.body.length), p + 4) ∧
      pageCurParseInsertRec log.body log.body.length true data info (p + 4) = .error .null ∧
      copyCreatedLoop log.body log.body.length info log.body.length (log.body.length + 1)
          (some (p + 4)) data =
        copyCreatedLoop log.body log.body.length info log.body.length log.body.length none data ∧
      applyCompListEndCopyCreated log data = none := by
  have hhead := copyCreatedHead_of_framed hparse hinfo
  -- a record starting at the end of the body fails an assert, not the length check
  have hlt : p + 4 < log.body.length := by
    by_contra hge
    rw [insertSegment_of_le (by omega)] at hcut
    cases hcut
  obtain ⟨_, hprev⟩ := pageRecGetPrev_supremum hl hd
  have hnull : pageCurParseInsertRec log.body log.body.length true data info (p + 4) =
      .error .null := pageCurParseInsertRec_short_null hprev hcut
  have hloop : copyCreatedLoop log.body log.body.length info log.body.length
      (log.body.length + 1) (some (p + 4)) data =
      copyCreatedLoop log.body log.body.length info log.body.length log.body.length none data := by
    rw [copyCreatedLoop, if_pos hlt, hnull]
  refine ⟨hhead, hnull, hloop, ?_⟩
  simp only [applyCompListEndCopyCreated, hhead, hloop, copyCreatedLoop_null, Option.bind_eq_bind,
    Option.bind_none]

set_option maxRecDepth 4000 in
theorem copy_created_passes_null_back_cut :
    parseSingleLogRecordBody [0, 1, 0, 1, 0x80, 0x08, 0, 0, 0, 1, 0x04] 11
        .MLOG_COMP_LIST_END_COPY_CREATED 0 = .ok ((), 11) ∧
      insertSegment [0, 1, 0, 1, 0x80, 0x08, 0, 0, 0, 1, 0x04] 11 .null 10 = .error .null ∧
      applyCompListEndCopyCreated
        ⟨.MLOG_COMP_LIST_END_COPY_CREATED, 1, 3, 8204, 14, [0, 1, 0, 1, 0x80, 0x08, 0, 0, 0, 1, 0x04]⟩
        (pageCreateLow fun _ => 0) = none :=
  ⟨by decide, rfl, (@copy_created_passes_null_back _ _ _ (pageCreateLow_recordList fun _ => 0)
    (pageCreateLow_pageDirectory fun _ => 0)
    ⟨.MLOG_COMP_LIST_END_COPY_CREATED, 1, 3, 8204, 14, [0, 1, 0, 1, 0x80, 0x08, 0, 0, 0, 1, 0x04]⟩
    ⟨1, 1, 0, 0, [⟨3, 256, 8, 8⟩]⟩ 6 (by decide) rfl rfl).2.2.2⟩

end LogDB
