import LogDB.Applier.LogApply

/-!
Framing one redo record: `ParseSingleLogRecord` of `log_parse.cpp` and the body parsers it
calls with a null page, which only find where a record ends.

A decoder runs over the parse buffer up to `end_ptr`, here `stop`. It stops with `null`
where the C routine returns `nullptr` (the record runs past `end_ptr`, and
`ParseSingleLogRecord` then returns 0) and with `abort` where an `assert` fails. The
parse-or-apply routines of `LogDB.Applier.LogApply` are run here with no page.
-/

namespace LogDB

open LogDB.Lib Decoder

/-! ### The body parsers -/

section Body

variable (buf : List UInt8) (stop : Nat)

/-- A `w`-byte length and as many bytes after it, as in `PARSE_OR_APPLY_ADD_UNDO_REC`,
`PARSE_COPY_REC_LIST_TO_CREATED_PAGE` and the names of `PARSE_MLOG_FILE_X`. -/
def lengthPrefixed (w : Nat) : Decoder Unit := do
  let ptr ← get
  ensure (ptr + w ≤ stop) .null
  let len := machReadFrom buf ptr w
  skip w
  consume stop len .null

/-- A two-byte record offset, which must lie on the page. -/
def recOffset : Decoder Unit := do
  let ptr ← get
  ensure (ptr + 2 ≤ stop) .null
  let offset := machReadFrom buf ptr 2
  skip 2
  ensure (offset ≤ DATA_PAGE_SIZE) .abort

def parseMlogFileX (type : LogType) : Decoder Unit := do
  -- the four bytes of flags of `MLOG_FILE_CREATE2`
  if type = .MLOG_FILE_CREATE2 then consume stop 4 .null
  lengthPrefixed buf stop 2
  if type = .MLOG_FILE_RENAME2 then lengthPrefixed buf stop 2

def parseMlogTruncate : Decoder Unit := consume stop 8 .null

def mlogParseIndex (comp : Bool) : Decoder Unit := do
  if comp then
    let ptr ← get
    ensure (ptr + 4 ≤ stop) .null
    let n := machReadFrom buf ptr 2
    skip 4
    consume stop (n * 2) .null

def rowUpdParseSysVals : Decoder Unit := do
  let _ ← machParseCompressed buf stop
  consume stop DATA_ROLL_PTR_LEN .null
  let _ ← machU64ParseCompressed buf stop

def parseMlogRecSecDeleteMark : Decoder Unit := do
  let ptr ← get
  ensure (ptr + 3 ≤ stop) .null
  let offset := machReadFrom buf (ptr + 1) 2
  skip 3
  ensure (offset ≤ DATA_PAGE_SIZE) .abort

/-- The updated fields of `row_upd_index_parse`: a field number and a length each, and the
new value unless it is SQL NULL. -/
def rowUpdParseFields : Nat → Decoder Unit
  | 0 => pure ()
  | n + 1 => do
      let _ ← machParseCompressed buf stop
      let len ← machParseCompressed buf stop
      if len ≠ UNIV_SQL_NULL then consume stop len .null
      rowUpdParseFields n

def rowUpdIndexParse : Decoder Unit := do
  consume stop 1 .null
  let nFields ← machParseCompressed buf stop
  rowUpdParseFields buf stop nFields

def parseMlogRecUpdateInPlace : Decoder Unit := do
  consume stop 1 .null
  rowUpdParseSysVals buf stop
  recOffset buf stop
  rowUpdIndexParse buf stop

def parseMlogRecInsert (isShort : Bool) : Decoder Unit := do
  if !isShort then
    let ptr ← get
    ensure (ptr + 2 ≤ stop) .null
    let offset := machReadFrom buf ptr 2
    skip 2
    -- an offset past the page is taken for a truncated record
    ensure (offset < DATA_PAGE_SIZE) .null
  let endSegLen ← machParseCompressed buf stop
  ensure (endSegLen < DATA_PAGE_SIZE <<< 1) .null
  if endSegLen &&& 1 ≠ 0 then
    consume stop 1 .null
    let originOffset ← machParseCompressed buf stop
    ensure (originOffset < DATA_PAGE_SIZE) .abort
    let mismatchIndex ← machParseCompressed buf stop
    ensure (mismatchIndex < DATA_PAGE_SIZE) .abort
  consume stop (endSegLen >>> 1) .null

def parseMlogRecClustDeleteMark : Decoder Unit := do
  consume stop 2 .null
  rowUpdParseSysVals buf stop
  recOffset buf stop

def parseDeleteRecList (type : LogType) : Decoder Unit := do
  ensure (type = .MLOG_LIST_END_DELETE ∨ type = .MLOG_LIST_START_DELETE ∨
    type = .MLOG_COMP_LIST_END_DELETE ∨ type = .MLOG_COMP_LIST_START_DELETE) .abort
  consume stop 2 .null

def parseCopyRecListToCreatedPage : Decoder Unit := lengthPrefixed buf stop 4

def parsePageReorganize (compressed : Bool) : Decoder Unit := do
  if compressed then
    let ptr ← get
    ensure (ptr ≠ stop) .null
    let level := machReadFrom buf ptr 1
    ensure (level ≤ 9) .abort
    skip 1

def parseAddUndoRec : Decoder Unit := lengthPrefixed buf stop 2

def parseSetMinRecMark : Decoder Unit := consume stop 2 .null

def parseDeleteRec : Decoder Unit := recOffset buf stop

def parseSingleLogRecordBody (type : LogType) : Decoder Unit :=
  match type with
  | .MLOG_FILE_NAME | .MLOG_FILE_DELETE | .MLOG_FILE_CREATE2 | .MLOG_FILE_RENAME2 =>
      parseMlogFileX buf stop type
  -- a truncated record is taken for a corrupt one
  | .MLOG_INDEX_LOAD => consume stop 8 .abort
  | .MLOG_TRUNCATE => parseMlogTruncate stop
  | .MLOG_1BYTE | .MLOG_2BYTES | .MLOG_4BYTES | .MLOG_8BYTES => do
      let _ ← parseOrApplyNBytes type buf stop none
  | .MLOG_REC_INSERT | .MLOG_COMP_REC_INSERT => do
      mlogParseIndex buf stop (type = .MLOG_COMP_REC_INSERT)
      parseMlogRecInsert buf stop false
  | .MLOG_REC_CLUST_DELETE_MARK | .MLOG_COMP_REC_CLUST_DELETE_MARK => do
      mlogParseIndex buf stop (type = .MLOG_COMP_REC_CLUST_DELETE_MARK)
      parseMlogRecClustDeleteMark buf stop
  | .MLOG_COMP_REC_SEC_DELETE_MARK => do
      mlogParseIndex buf stop true
      parseMlogRecSecDeleteMark buf stop
  | .MLOG_REC_SEC_DELETE_MARK => parseMlogRecSecDeleteMark buf stop
  | .MLOG_REC_UPDATE_IN_PLACE | .MLOG_COMP_REC_UPDATE_IN_PLACE => do
      mlogParseIndex buf stop (type = .MLOG_COMP_REC_UPDATE_IN_PLACE)
      parseMlogRecUpdateInPlace buf stop
  | .MLOG_LIST_END_DELETE | .MLOG_COMP_LIST_END_DELETE | .MLOG_LIST_START_DELETE
  | .MLOG_COMP_LIST_START_DELETE => do
      mlogParseIndex buf stop
        (type = .MLOG_COMP_LIST_END_DELETE ∨ type = .MLOG_COMP_LIST_START_DELETE)
      parseDeleteRecList stop type
  | .MLOG_LIST_END_COPY_CREATED | .MLOG_COMP_LIST_END_COPY_CREATED => do
      mlogParseIndex buf stop (type = .MLOG_COMP_LIST_END_COPY_CREATED)
      parseCopyRecListToCreatedPage buf stop
  | .MLOG_PAGE_REORGANIZE | .MLOG_COMP_PAGE_REORGANIZE | .MLOG_ZIP_PAGE_REORGANIZE => do
      mlogParseIndex buf stop (type ≠ .MLOG_PAGE_REORGANIZE)
      parsePageReorganize buf stop (type = .MLOG_ZIP_PAGE_REORGANIZE)
  | .MLOG_PAGE_CREATE | .MLOG_COMP_PAGE_CREATE | .MLOG_PAGE_CREATE_RTREE
  | .MLOG_COMP_PAGE_CREATE_RTREE => pure ()
  | .MLOG_UNDO_INSERT => parseAddUndoRec buf stop
  | .MLOG_UNDO_ERASE_END | .MLOG_UNDO_HDR_DISCARD => pure ()
  | .MLOG_UNDO_INIT => do
      let _ ← machParseCompressed buf stop
  | .MLOG_UNDO_HDR_CREATE | .MLOG_UNDO_HDR_REUSE => do
      let _ ← machU64ParseCompressed buf stop
  | .MLOG_REC_MIN_MARK | .MLOG_COMP_REC_MIN_MARK => parseSetMinRecMark stop
  | .MLOG_REC_DELETE | .MLOG_COMP_REC_DELETE => do
      mlogParseIndex buf stop (type = .MLOG_COMP_REC_DELETE)
      parseDeleteRec buf stop
  | .MLOG_IBUF_BITMAP_INIT | .MLOG_INIT_FILE_PAGE | .MLOG_INIT_FILE_PAGE2 => pure ()
  | .MLOG_WRITE_STRING => do
      let _ ← parseOrApplyString buf stop none
  | .MLOG_ZIP_WRITE_NODE_PTR | .MLOG_ZIP_WRITE_BLOB_PTR | .MLOG_ZIP_WRITE_HEADER
  | .MLOG_ZIP_PAGE_COMPRESS | .MLOG_ZIP_PAGE_COMPRESS_NO_DATA => pure ()
  -- an unknown log type
  | _ => fail .abort

end Body

/-! ### One record -/

/-- What `ParseSingleLogRecord` returns through its reference parameters. -/
structure ParsedRecord where
  type : LogType
  spaceId : Nat
  pageId : Nat
  /-- `*body`: where the body starts, null for the records of fixed length -/
  body : Option Nat
  isSingle : Bool
  isMultiEnd : Bool
  deriving DecidableEq, Repr

def parseSingleLogRecord (buf : List UInt8) (stop : Nat) : Decoder ParsedRecord := do
  let ptr ← get
  ensure (ptr < stop) .null
  let raw := machReadFrom buf ptr 1
  -- the records of fixed length; their space and page ids are never set
  if raw = LogType.MLOG_MULTI_REC_END.toNat then
    skip 1
    return ⟨.MLOG_MULTI_REC_END, 0, 0, none, false, true⟩
  if raw = LogType.MLOG_DUMMY_RECORD.toNat then
    skip 1
    return ⟨.MLOG_DUMMY_RECORD, 0, 0, none, false, false⟩
  if raw = LogType.MLOG_CHECKPOINT.toNat then
    consume stop SIZE_OF_MLOG_CHECKPOINT .null
    return ⟨.MLOG_CHECKPOINT, 0, 0, none, false, false⟩
  -- `& ~MLOG_SINGLE_REC_FLAG` on a byte
  let v := raw &&& 0x7F
  ensure (v ≤ LogType.MLOG_BIGGEST_TYPE.toNat) .abort
  skip 1
  ensure (ptr + 1 + 2 ≤ stop) .null
  let spaceId ← machParseCompressed buf stop
  let pageId ← machParseCompressed buf stop
  let body ← get
  -- a value that names no type reaches the default branch of the body's switch
  let some type := LogType.ofNat? v | fail .abort
  parseSingleLogRecordBody buf stop type
  return ⟨type, spaceId, pageId, some body, raw &&& LogType.MLOG_SINGLE_REC_FLAG.toNat != 0,
    false⟩

/-! ### Records of a type -/

namespace LogType

theorem toNat_ofNat? {v : Nat} {t : LogType} (h : ofNat? v = some t) : t.toNat = v := by
  simpa using List.find?_some h

theorem toNat_le_biggest {t : LogType} (h : t.toNat < MLOG_SINGLE_REC_FLAG.toNat) :
    t.toNat ≤ MLOG_BIGGEST_TYPE.toNat := by
  cases t <;> simp_all [toNat, MLOG_BIGGEST_TYPE]

end LogType

/-- At `ptr`, before `stop`, the buffer holds the header of a record other than the three of
fixed length: the type byte `raw`, then the space and page ids as compressed integers, up to
the body at `body`. -/
structure RecordHeader (buf : List UInt8) (stop ptr raw spaceId pageId body : Nat) : Prop where
  lt : ptr < stop
  raw_eq : machReadFrom buf ptr 1 = raw
  not_multi : raw ≠ LogType.MLOG_MULTI_REC_END.toNat
  not_dummy : raw ≠ LogType.MLOG_DUMMY_RECORD.toNat
  not_checkpoint : raw ≠ LogType.MLOG_CHECKPOINT.toNat
  room : ptr + 1 + 2 ≤ stop
  ids : ∃ p, machParseCompressed buf stop (ptr + 1) = .ok (spaceId, p) ∧
    machParseCompressed buf stop p = .ok (pageId, body)

section Header

variable {buf : List UInt8} {stop ptr raw spaceId pageId body : Nat} {t : LogType}

theorem parseSingleLogRecord_header (h : RecordHeader buf stop ptr raw spaceId pageId body)
    (ht : LogType.ofNat? (raw &&& 0x7F) = some t) :
    parseSingleLogRecord buf stop ptr =
      (do parseSingleLogRecordBody buf stop t
          return (⟨t, spaceId, pageId, some body,
            raw &&& LogType.MLOG_SINGLE_REC_FLAG.toNat != 0, false⟩ : ParsedRecord)) body := by
  obtain ⟨hlt, hraw, hmulti, hdummy, hcheck, hroom, p, hs, hp⟩ := h
  have hle : raw &&& 0x7F ≤ LogType.MLOG_BIGGEST_TYPE.toNat := by
    rw [← LogType.toNat_ofNat? ht]
    apply LogType.toNat_le_biggest
    rw [LogType.toNat_ofNat? ht]
    exact Nat.lt_of_le_of_lt Nat.and_le_right (by decide)
  simp only [parseSingleLogRecord, bind_run, get_run, ensure_run, if_pos hlt, hraw, if_neg hmulti,
    if_neg hdummy, if_neg hcheck, if_pos hle, skip_run, if_pos hroom, hs, hp, ht]

/-- An `MLOG_INDEX_LOAD` record whose eight bytes of body do not all lie in the buffer fails
the assert of `ParseSingleLogRecordBody`. -/
theorem parseSingleLogRecord_indexLoad_short (h : RecordHeader buf stop ptr raw spaceId pageId body)
    (ht : LogType.ofNat? (raw &&& 0x7F) = some .MLOG_INDEX_LOAD) (hshort : stop < body + 8) :
    parseSingleLogRecord buf stop ptr = .error .abort := by
  rw [parseSingleLogRecord_header h ht]
  simp [parseSingleLogRecordBody, bind_run, Nat.not_le.mpr hshort]

theorem RecordHeader.extend {stop' : Nat} (h : RecordHeader buf stop ptr raw spaceId pageId body)
    (hs : stop ≤ stop') : RecordHeader buf stop' ptr raw spaceId pageId body := by
  obtain ⟨hlt, hraw, hmulti, hdummy, hcheck, hroom, p, hsp, hpg⟩ := h
  exact ⟨by omega, hraw, hmulti, hdummy, hcheck, by omega, p, machParseCompressed_extend hsp hs,
    machParseCompressed_extend hpg hs⟩

/-- `ParseSingleLogRecord` is not prefix-stable on `MLOG_INDEX_LOAD`: cut inside the eight
bytes of its body, the record fails the assert of `ParseSingleLogRecordBody`, while on any
extension that holds the whole body it is framed, past the end of the cut. -/
theorem index_load_prefix_aborts {n : Nat}
    (h : RecordHeader buf n ptr raw spaceId pageId body)
    (ht : LogType.ofNat? (raw &&& 0x7F) = some .MLOG_INDEX_LOAD)
    (hcut : n < body + 8) (hfull : body + 8 ≤ buf.length) :
    parseSingleLogRecord buf n ptr = .error .abort ∧
      parseSingleLogRecord buf buf.length ptr =
        .ok (⟨.MLOG_INDEX_LOAD, spaceId, pageId, some body,
          raw &&& LogType.MLOG_SINGLE_REC_FLAG.toNat != 0, false⟩, body + 8) := by
  refine ⟨parseSingleLogRecord_indexLoad_short h ht hcut, ?_⟩
  rw [parseSingleLogRecord_header (h.extend (by omega)) ht]
  simp [parseSingleLogRecordBody, bind_run, hfull]

theorem index_load_prefix_aborts_five :
    parseSingleLogRecord [189, 1, 0, 0, 0, 0, 0, 0, 0, 32, 12] 5 0 = .error .abort ∧
      parseSingleLogRecord [189, 1, 0, 0, 0, 0, 0, 0, 0, 32, 12]
        [189, 1, 0, 0, 0, 0, 0, 0, 0, 32, 12].length 0 =
        .ok (⟨.MLOG_INDEX_LOAD, 1, 0, some 3, 189 &&& LogType.MLOG_SINGLE_REC_FLAG.toNat != 0,
          false⟩, 3 + 8) :=
  index_load_prefix_aborts
    ⟨by decide, rfl, by decide, by decide, by decide, by decide, 2, by decide, by decide⟩
    (by decide) (by decide) (by decide)

end Header

/-! ### A write the parser admits -/

/-- `ParseOrApplyNBytes` checks only `offset < DATA_PAGE_SIZE` before it writes: a body of
`MLOG_2BYTES`, `MLOG_4BYTES` or `MLOG_8BYTES` whose offset lies within its width of the page
end passes `ParseSingleLogRecordBody`, and `log_apply_apply_one_log` then writes past the
16 KB frame. -/
theorem nBytes_write_past_frame (rec : RecordApplier) (data : Nat → UInt8) {log : LogEntry}
    {p : Nat} (htype : log.type = .MLOG_2BYTES ∨ log.type = .MLOG_4BYTES ∨ log.type = .MLOG_8BYTES)
    (hparse : parseSingleLogRecordBody log.body log.body.length log.type 0 = .ok ((), p))
    (hover : DATA_PAGE_SIZE < machReadFrom log.body 0 2 + log.type.nBytesWidth) :
    (∃ v, parseOrApplyNBytes log.type log.body log.body.length (some data) 0 =
        writePageField (some data) (machReadFrom log.body 0 2) log.type.nBytesWidth v p) ∧
      logApplyApplyOneLog rec data log = none := by
  -- the body parser of these types is the parse path of `ParseOrApplyNBytes`
  have hbody : ∃ a, parseOrApplyNBytes log.type log.body log.body.length none 0 = .ok (a, p) := by
    rcases htype with h | h | h <;> rw [h] at hparse ⊢ <;>
    · simp only [parseSingleLogRecordBody] at hparse
      obtain ⟨a, q, hq, hp⟩ := bind_ok hparse
      simp only [pure_run, Except.ok.injEq, Prod.mk.injEq] at hp
      exact ⟨a, hp.2 ▸ hq⟩
  obtain ⟨a, hbody⟩ := hbody
  obtain ⟨v, hv⟩ := parseOrApplyNBytes_apply data (Or.inr htype) hbody
  refine ⟨⟨v, hv⟩, ?_⟩
  have hpast : parseOrApplyNBytes log.type log.body log.body.length (some data) 0 = .error .abort := by
    rw [hv, writePageField, bind_run, ensure_run, if_neg (by omega)]
  rcases htype with h | h | h <;>
    simp only [logApplyApplyOneLog, h, applyBody] <;> rw [← h, hpast]

theorem nBytes_write_past_frame_16383 :
    (∃ v, parseOrApplyNBytes .MLOG_2BYTES [0x3F, 0xFF, 0x05] 3 (some fun _ => 0) 0 =
        writePageField (some fun _ => 0) (machReadFrom [0x3F, 0xFF, 0x05] 0 2)
          LogType.MLOG_2BYTES.nBytesWidth v 3) ∧
      logApplyApplyOneLog RecordApplier.rejectAll (fun _ => 0)
        ⟨.MLOG_2BYTES, 1, 3, 8204, 6, [0x3F, 0xFF, 0x05]⟩ = none :=
  @nBytes_write_past_frame RecordApplier.rejectAll (fun _ => 0)
    ⟨.MLOG_2BYTES, 1, 3, 8204, 6, [0x3F, 0xFF, 0x05]⟩ 3 (Or.inl rfl) (by decide) (by decide)

end LogDB
