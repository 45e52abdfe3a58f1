import LogDB.Applier.IndexPage
import LogDB.Applier.RecordParse

/-!
The appliers that change one record in place (`ApplyCompRecClusterDeleteMark`,
`ApplyCompRecSecondDeleteMark` and `ApplyCompRecUpdateInPlace` of `log_parse.cpp`), with the
decoding they do of their own (`ParseRecInfoFromLog`, `row_upd_parse_sys_vals` with its
outputs and `row_upd_index_parse` filling an `UpdateInfo`) and the field offsets of
`bean.cpp` (`RecordInfo::AddField`, `CalculateOffsets`, `InitOffsetsCompOrdinary`).

A record is its offset in the page, and the bytes before its origin are read downwards from
there. An applier answers `false` where its decoding meets `nullptr` and `none` where an
assert fails.
-/

namespace LogDB

open LogDB.Lib Decoder

/-! ### Index descriptors -/

/-- A field of a `RecordInfo`, as `RecordInfo::AddField` stores it. -/
structure FieldInfo where
  mainType : Nat
  preciseType : Nat
  length : Nat
  fixedLength : Nat
  deriving DecidableEq, Repr

/-- A `RecordInfo` as the log describes the index. Its record pointer and offsets vector are
the argument and the result of `calculateOffsets`. -/
structure RecordInfo where
  nFields : Nat
  nUnique : Nat
  nNullable : Nat
  indexType : Nat
  fields : List FieldInfo
  deriving DecidableEq, Repr

/-- `RecordInfo::AddField`. On a clustered index the two fields after the unique ones are
`DB_TRX_ID` and `DB_ROLL_PTR`, retyped as system columns. -/
def RecordInfo.addField (info : RecordInfo) (mainType preciseType length : Nat) :
    Option RecordInfo := do
  let fixedLen ← if mainType = DATA_FIXBINARY then some length
    else if mainType = DATA_BINARY then some 0 else none
  let fixedLen := if fixedLen > DICT_MAX_FIXED_COL_LEN then 0 else fixedLen
  let nNullable := if preciseType &&& DATA_NOT_NULL = 0 then info.nNullable + 1 else info.nNullable
  let i := info.fields.length
  let sys := info.nFields ≠ info.nUnique
  let (mainType, preciseType) ← if sys ∧ i = DATA_TRX_ID - 1 + info.nUnique then
      (if length = DATA_TRX_ID_LEN then some (DATA_SYS, DATA_TRX_ID ||| DATA_NOT_NULL) else none)
    else some (mainType, preciseType)
  let (mainType, preciseType) ← if sys ∧ i = DATA_ROLL_PTR - 1 + info.nUnique then
      (if length = DATA_ROLL_PTR_LEN then some (DATA_SYS, DATA_ROLL_PTR ||| DATA_NOT_NULL)
        else none)
    else some (mainType, preciseType)
  some { info with
    nNullable := nNullable
    fields := info.fields ++ [⟨mainType, preciseType, length, fixedLen⟩] }

/-- The position of `DB_TRX_ID`, the transaction id and the roll pointer that
`row_upd_parse_sys_vals` hands back. -/
structure SysVals where
  pos : Nat
  trxId : Nat
  rollPtr : Nat
  deriving DecidableEq, Repr

/-- A field of an `UpdateInfo`: its number, its precise type (`DATA_VIRTUAL` or 0), and the
new value with its length, `UNIV_SQL_NULL` for SQL NULL. -/
structure UpdateField where
  fieldNo : Nat
  prtype : Nat
  data : List UInt8
  len : Nat
  deriving DecidableEq, Repr

structure UpdateInfo where
  infoBits : Nat
  fields : List UpdateField
  deriving DecidableEq, Repr

/-! ### The decoders of the appliers -/

section Decode

variable (buf : List UInt8) (stop : Nat)

/-- The field loop of `ParseRecInfoFromLog`: two bytes a field, whose high bit is NOT NULL
and whose other bits are the length, 0 or `0x7fff` for a variable-length field. -/
def parseRecInfoFields : Nat → RecordInfo → Decoder RecordInfo
  | 0, info => pure info
  | k + 1, info => do
      let ptr ← get
      let len := machReadFrom buf ptr 2
      skip 2
      match info.addField (if (len + 1) &&& 0x7fff ≤ 1 then DATA_BINARY else DATA_FIXBINARY)
          (if len &&& 0x8000 ≠ 0 then DATA_NOT_NULL else 0) (len &&& 0x7fff) with
      | some info => parseRecInfoFields k info
      | none => fail .abort

/-- `ParseRecInfoFromLog(ptr, end_ptr, rec_info, true)`. Its two length checks are asserts
ahead of their `return nullptr`. -/
def parseRecInfoFromLog : Decoder RecordInfo := do
  let ptr ← get
  ensure (ptr + 4 ≤ stop) .abort
  let n := machReadFrom buf ptr 2
  let nUniq := machReadFrom buf (ptr + 2) 2
  skip 4
  ensure (nUniq ≤ n) .abort
  let ptr ← get
  ensure (ptr + n * 2 ≤ stop) .abort
  let info : RecordInfo := ⟨n, nUniq, 0, 0, []⟩
  let info ← if nUniq ≠ n then do
      ensure (nUniq + DATA_ROLL_PTR ≤ n) .abort
      pure { info with indexType := DICT_CLUSTERED }
    else pure info
  parseRecInfoFields buf n info

/-- `row_upd_parse_sys_vals` of the appliers, which keeps what it reads. -/
def rowUpdParseSysValsOut : Decoder SysVals := do
  let pos ← machParseCompressed buf stop
  let ptr ← get
  ensure (ptr + DATA_ROLL_PTR_LEN ≤ stop) .null
  let rollPtr := machReadFrom buf ptr DATA_ROLL_PTR_LEN
  skip DATA_ROLL_PTR_LEN
  let trxId ← machU64ParseCompressed buf stop
  pure ⟨pos, trxId, rollPtr⟩

/-- The field loop of `row_upd_index_parse` filling an `UpdateInfo`. A field number past
`REC_MAX_N_FIELDS` marks a virtual column; the number is kept in a 16-bit field. -/
def rowUpdIndexParseFieldsOut : Nat → Decoder (List UpdateField)
  | 0 => pure []
  | k + 1 => do
      let fieldNo ← machParseCompressed buf stop
      let (prtype, fieldNo) := if fieldNo ≥ REC_MAX_N_FIELDS then
          (DATA_VIRTUAL, fieldNo - REC_MAX_N_FIELDS) else (0, fieldNo)
      let len ← machParseCompressed buf stop
      let (data, len) ← if len ≠ UNIV_SQL_NULL then do
          let ptr ← get
          ensure (ptr + len ≤ stop) .null
          skip len
          pure ((buf.drop ptr).take len, len)
        else pure ([], UNIV_SQL_NULL)
      let fields ← rowUpdIndexParseFieldsOut k
      pure (⟨fieldNo % 2 ^ 16, prtype, data, len⟩ :: fields)

def rowUpdIndexParseOut : Decoder UpdateInfo := do
  let ptr ← get
  ensure (ptr + 1 ≤ stop) .null
  let infoBits := machReadFrom buf ptr 1
  skip 1
  let nFields ← machParseCompressed buf stop
  let fields ← rowUpdIndexParseFieldsOut buf stop nFields
  pure ⟨infoBits, fields⟩

/-- A two-byte record offset, asserted to lie on the page. -/
def recOffsetOut : Decoder Nat := do
  let ptr ← get
  ensure (ptr + 2 ≤ stop) .null
  let offset := machReadFrom buf ptr 2
  skip 2
  ensure (offset ≤ DATA_PAGE_SIZE) .abort
  pure offset

/-- The body of `MLOG_COMP_REC_CLUST_DELETE_MARK` as `ApplyCompRecClusterDeleteMark` reads
it: the index, the flags, the delete mark, the system values and the record offset. -/
def clustDeleteMarkBody : Decoder (RecordInfo × Nat × Nat × SysVals × Nat) := do
  let info ← parseRecInfoFromLog buf stop
  let ptr ← get
  ensure (ptr + 2 ≤ stop) .null
  let flags := machReadFrom buf ptr 1
  let val := machReadFrom buf (ptr + 1) 1
  skip 2
  let sys ← rowUpdParseSysValsOut buf stop
  let offset ← recOffsetOut buf stop
  pure (info, flags, val, sys, offset)

/-- The body of `MLOG_COMP_REC_SEC_DELETE_MARK` as `ApplyCompRecSecondDeleteMark` reads it:
the index, the delete mark and the record offset. -/
def secDeleteMarkBody : Decoder (RecordInfo × Nat × Nat) := do
  let info ← parseRecInfoFromLog buf stop
  let ptr ← get
  ensure (ptr + 3 ≤ stop) .null
  let val := machReadFrom buf ptr 1
  let offset := machReadFrom buf (ptr + 1) 2
  skip 3
  ensure (offset ≤ DATA_PAGE_SIZE) .abort
  pure (info, val, offset)

/-- The body of `MLOG_COMP_REC_UPDATE_IN_PLACE` as `ApplyCompRecUpdateInPlace` reads it: the
index, the flags, the system values, the record offset and the update vector. -/
def updateInPlaceBody : Decoder (RecordInfo × Nat × SysVals × Nat × UpdateInfo) := do
  let info ← parseRecInfoFromLog buf stop
  let ptr ← get
  ensure (ptr + 1 ≤ stop) .null
  let flags := machReadFrom buf ptr 1
  skip 1
  let sys ← rowUpdParseSysValsOut buf stop
  let recOffset ← recOffsetOut buf stop
  let update ← rowUpdIndexParseOut buf stop
  pure (info, flags, sys, recOffset, update)

end Decode

/-! ### Field offsets -/

/-- `DATA_BIG_COL`: a column whose length may take two bytes. -/
def dataBigCol (f : FieldInfo) : Bool :=
  f.length > 255 || f.mainType = DATA_BLOB || f.mainType = DATA_VAR_POINT ||
    f.mainType = DATA_GEOMETRY

/-- The variables of the loop that reads a record's null flags and lengths: the end of the
fields read so far, the byte and the mask of the next null flag, the next length byte, the
external flag, and the count of nullable fields left. -/
structure OffsLoop where
  offs : Nat
  nulls : Nat
  nullMask : Nat
  lens : Nat
  anyExt : Nat
  nNull : Nat
  deriving DecidableEq, Repr

/-- The null flag of a nullable field: the flags are read low bit first from the byte
`nulls` down, and `nulls` moves to the next byte once the mask has left a byte. -/
def readNullFlag (page : Nat → UInt8) (s : OffsLoop) : Bool × OffsLoop :=
  let nulls := if s.nullMask % 256 = 0 then s.nulls - 1 else s.nulls
  let mask := if s.nullMask % 256 = 0 then 1 else s.nullMask
  ((page nulls).toNat &&& mask != 0, { s with nulls := nulls, nullMask := mask <<< 1 })

/-- Whether field `f` is SQL NULL: only a nullable field has a null flag. -/
def fieldNullFlag (page : Nat → UInt8) (f : FieldInfo) (s : OffsLoop) : Bool × OffsLoop :=
  if f.preciseType &&& DATA_NOT_NULL = 0 then readNullFlag page s else (false, s)

/-- The length of a variable-length field, read from the byte `lens` down: a second byte
when a big column's first has its high bit set. -/
def readLenBytes (page : Nat → UInt8) (big : Bool) (s : OffsLoop) : Bool × Nat × OffsLoop :=
  let len := (page s.lens).toNat
  if big ∧ len &&& 0x80 ≠ 0 then
    (true, len <<< 8 ||| (page (s.lens - 1)).toNat, { s with lens := s.lens - 2 })
  else (false, len, { s with lens := s.lens - 1 })

/-- The end info of a field that is not SQL NULL. The ordinary loop flags an externally
stored column, and the node pointer loop asserts there is none. -/
def fieldEnd (page : Nat → UInt8) (ordinary : Bool) (f : FieldInfo) (s : OffsLoop) :
    Option (Nat × OffsLoop) :=
  if f.fixedLength = 0 then
    let r := readLenBytes page (dataBigCol f) s
    let len := r.2.1
    let s := r.2.2
    if r.1 then
      let offs := s.offs + (len &&& 0x3fff)
      if len &&& 0x4000 = 0 then some (offs, { s with offs := offs })
      else if ordinary then
        some (offs ||| REC_OFFS_EXTERNAL, { s with offs := offs, anyExt := REC_OFFS_EXTERNAL })
      else none
    else some (s.offs + len, { s with offs := s.offs + len })
  else some (s.offs + f.fixedLength, { s with offs := s.offs + f.fixedLength })

/-- One turn of the loop of `InitOffsetsCompOrdinary` (`ordinary`) or of the one of
`CalculateOffsets` on a node pointer record, which stores the child page number as field
`nodePtrField`: the end info of field `i`. -/
def offsTurn (page : Nat → UInt8) (info : RecordInfo) (nodePtrField : Nat) (ordinary : Bool)
    (i : Nat) (s : OffsLoop) : Option (Nat × OffsLoop) :=
  if i = nodePtrField then
    some (s.offs + REC_NODE_PTR_SIZE, { s with offs := s.offs + REC_NODE_PTR_SIZE })
  else do
    let f ← info.fields[i]?
    let nullable := f.preciseType &&& DATA_NOT_NULL = 0
    -- `assert(n_null--)`, in the ordinary loop only
    if ordinary ∧ nullable ∧ s.nNull = 0 then none
    let s := { s with nNull := if ordinary ∧ nullable then s.nNull - 1 else s.nNull }
    let r := fieldNullFlag page f s
    if r.1 then
      -- no length is stored for an SQL NULL, and `offs` stays
      some (r.2.offs ||| REC_OFFS_SQL_NULL, r.2)
    else fieldEnd page ordinary f r.2

/-- `k` turns of the loop from field `i` on: the end info of each field and the loop's
variables after the last. -/
def offsTurns (page : Nat → UInt8) (info : RecordInfo) (nodePtrField : Nat) (ordinary : Bool) :
    Nat → Nat → OffsLoop → Option (List Nat × OffsLoop)
  | 0, _, s => some ([], s)
  | k + 1, i, s => do
      let (e, s) ← offsTurn page info nodePtrField ordinary i s
      let (es, s) ← offsTurns page info nodePtrField ordinary k (i + 1) s
      some (e :: es, s)

/-- `CalculateOffsets(ULINT_UNDEFINED)`, the only call made, on the record at `rec`, with
`InitOffsetsCompOrdinary` for an ordinary record: the `offsets_` vector. Status bits that
are no record status leave it cleared. -/
def calculateOffsets (page : Nat → UInt8) (info : RecordInfo) (rec : Nat) : Option (List Nat) :=
  let status := recGetBitField1 page rec REC_NEW_STATUS REC_NEW_STATUS_MASK REC_NEW_STATUS_SHIFT
  let clustered := info.indexType &&& DICT_CLUSTERED ≠ 0
  if status = REC_STATUS_INFIMUM ∨ status = REC_STATUS_SUPREMUM then
    -- the one field of the infimum and of the supremum is 8 bytes long
    some [0, 1, 0, 0, REC_N_NEW_EXTRA_BYTES ||| REC_OFFS_COMPACT, 8]
  else if status = REC_STATUS_ORDINARY ∨ status = REC_STATUS_NODE_PTR then do
    let ordinary := status = REC_STATUS_ORDINARY
    let n := if ordinary then info.nFields
      else if clustered then info.nUnique + 1 else info.nFields + 1
    let nodePtrField := if ordinary then ULINT_UNDEFINED
      else if clustered then info.nUnique else info.nFields
    let nulls := rec - (REC_N_NEW_EXTRA_BYTES + 1)
    let s : OffsLoop := ⟨0, nulls, 1, nulls - (info.nNullable + 7) / 8, 0, info.nNullable⟩
    -- a do-while: with no field its one turn reads a field the index does not have
    let (ends, s) ← offsTurns page info nodePtrField ordinary (max n 1) 0 s
    some ([0, n, 0, 0, (rec - (s.lens + 1)) ||| REC_OFFS_COMPACT ||| s.anyExt] ++ ends)
  else some []

/-- `RecordInfo::GetNOffset`, with its assert. -/
def getNOffset (offsets : List Nat) (n : Nat) : Option Nat :=
  offsets[n]?

/-- `rec_get_nth_field_offs`: where field `n` starts from the record origin, and its length,
`UNIV_SQL_NULL` for an SQL NULL; the length is a difference of `uint32_t`s. -/
def recGetNthFieldOffs (offsets : List Nat) (n : Nat) : Option (Nat × Nat) := do
  let offs ← if n = 0 then some 0
    else (getNOffset offsets (REC_OFFS_HEADER_SIZE + n)).map (· &&& REC_OFFS_MASK)
  let length ← getNOffset offsets (REC_OFFS_HEADER_SIZE + n + 1)
  some (offs, if length &&& REC_OFFS_SQL_NULL ≠ 0 then UNIV_SQL_NULL
    else ((length &&& REC_OFFS_MASK) + 2 ^ 32 - offs) % 2 ^ 32)

/-- `rec_offs_nth_sql_null`. -/
def recOffsNthSqlNull (offsets : List Nat) (n : Nat) : Option Bool :=
  (getNOffset offsets (REC_OFFS_HEADER_SIZE + n + 1)).map (· &&& REC_OFFS_SQL_NULL ≠ 0)

/-! ### Writing a record -/

section Write

variable (page : Nat → UInt8)

/-- `rec_set_info_bits_new`, with the assert of `rec_info_bits_valid` on the new bits; the
info byte lies before the frame for a record origin below 5. -/
def recSetInfoBitsNew (rec bits : Nat) : Option (Nat → UInt8) :=
  if rec < REC_NEW_INFO_BITS then none
  else if bits &&& (255 - REC_INFO_DELETED_FLAG - REC_INFO_MIN_REC_FLAG) ≠ 0 then none
  else
    let infoAt := rec - REC_NEW_INFO_BITS
    some (Function.update page infoAt
      (.ofNat (((page infoAt).toNat &&& (255 - REC_INFO_BITS_MASK)) ||| bits <<< REC_INFO_BITS_SHIFT)))

/-- `row_upd_rec_sys_fields_in_recovery`: the 6-byte transaction id and the 7-byte roll
pointer at field `pos`, which must be 6 bytes long; `trx_write_trx_id` asserts a nonzero
id. -/
def rowUpdRecSysFieldsInRecovery (rec : Nat) (offsets : List Nat) (sys : SysVals) :
    Option (Nat → UInt8) := do
  let (offs, len) ← recGetNthFieldOffs offsets sys.pos
  if len ≠ DATA_TRX_ID_LEN then none
  if sys.trxId = 0 then none
  let page := writeBE page (rec + offs) DATA_TRX_ID_LEN sys.trxId
  some (writeBE page (rec + offs + DATA_TRX_ID_LEN) DATA_ROLL_PTR_LEN sys.rollPtr)

/-- `rec_get_1byte_offs_flag` of an old-style record. -/
def recGet1byteOffsFlag (rec : Nat) : Bool :=
  recGetBitField1 page rec REC_OLD_SHORT REC_OLD_SHORT_MASK REC_OLD_SHORT_SHIFT ≠ 0

/-- `rec_get_field_start_offs` of an old-style record. -/
def recGetFieldStartOffs (rec n : Nat) : Nat :=
  if n = 0 then 0
  else if recGet1byteOffsFlag page rec then
    (page (rec - (REC_N_OLD_EXTRA_BYTES + n))).toNat &&& (255 - REC_1BYTE_SQL_NULL_MASK)
  else readBE page (rec - (REC_N_OLD_EXTRA_BYTES + 2 * n)) 2 &&&
    (0xFFFF - REC_2BYTE_SQL_NULL_MASK - REC_2BYTE_EXTERN_MASK)

/-- `rec_get_nth_field_size` of an old-style record, a difference of `uint32_t`s. -/
def recGetNthFieldSize (rec n : Nat) : Nat :=
  (recGetFieldStartOffs page rec (n + 1) + 2 ^ 32 - recGetFieldStartOffs page rec n) % 2 ^ 32

/-- `rec_set_nth_field_null_bit` of an old-style record. -/
def recSetNthFieldNullBit (rec i : Nat) (val : Bool) : Nat → UInt8 :=
  if recGet1byteOffsFlag page rec then
    let pos := rec - (REC_N_OLD_EXTRA_BYTES + i + 1)
    let info := (page pos).toNat
    Function.update page pos (.ofNat (if val then info ||| REC_1BYTE_SQL_NULL_MASK
      else info &&& (255 - REC_1BYTE_SQL_NULL_MASK)))
  else
    let pos := rec - (REC_N_OLD_EXTRA_BYTES + 2 * i + 2)
    let info := readBE page pos 2
    writeBE page pos 2 (if val then info ||| REC_2BYTE_SQL_NULL_MASK
      else info &&& (0xFFFF - REC_2BYTE_SQL_NULL_MASK))

/-- `rec_set_nth_field_sql_null` of an old-style record. -/
def recSetNthFieldSqlNull (rec n : Nat) : Nat → UInt8 :=
  let offset := recGetFieldStartOffs page rec n
  let page' := fillBytes page (rec + offset) (recGetNthFieldSize page rec n) 0
  recSetNthFieldNullBit page' rec n true

/-- `rec_set_nth_field`. On a compact record the old-style routines run where the update
would change whether the field is SQL NULL. -/
def recSetNthField (rec : Nat) (offsets : List Nat) (n : Nat) (data : List UInt8) (len : Nat) :
    Option (Nat → UInt8) := do
  if len = UNIV_SQL_NULL then
    let isNull ← recOffsNthSqlNull offsets n
    return if isNull then page else recSetNthFieldSqlNull page rec n
  let (offs, len2) ← recGetNthFieldOffs offsets n
  let page ← if len2 = UNIV_SQL_NULL then
      let page := recSetNthFieldNullBit page rec n false
      if len = recGetNthFieldSize page rec n then some page else none
    else if len2 = len then some page else none
  some (writeBytes page (rec + offs) (data.take len))

/-- One turn of the loop of `row_upd_rec_in_place`: a virtual column is skipped on an index
without virtual columns. -/
def rowUpdRecField (rec : Nat) (info : RecordInfo) (offsets : List Nat) (f : UpdateField) :
    Option (Nat → UInt8) :=
  if f.prtype &&& DATA_VIRTUAL = DATA_VIRTUAL ∧ info.indexType &&& DICT_VIRTUAL = 0 then some page
  else recSetNthField page rec offsets f.fieldNo f.data f.len

/-- `row_upd_rec_in_place`: the info bits of the update, then each updated field. -/
def rowUpdRecInPlace (rec : Nat) (info : RecordInfo) (offsets : List Nat) (update : UpdateInfo) :
    Option (Nat → UInt8) := do
  let page ← recSetInfoBitsNew page rec update.infoBits
  update.fields.foldlM (fun page f => rowUpdRecField page rec info offsets f) page

end Write

/-! ### The appliers -/

section Appliers

variable (log : LogEntry) (page : Nat → UInt8)

/-- `ApplyCompRecClusterDeleteMark`: the delete mark, then the system fields unless
`BTR_KEEP_SYS_FLAG` is set, at the offsets computed after the mark. -/
def applyCompRecClusterDeleteMark : Option (Bool × (Nat → UInt8)) :=
  match clustDeleteMarkBody log.body log.body.length 0 with
  | .error .null => some (false, page)
  | .error .abort => none
  | .ok ((info, flags, val, sys, rec), _) => do
      let page ← recSetDeletedFlagNew page rec val
      if flags &&& BTR_KEEP_SYS_FLAG ≠ 0 then return (true, page)
      let offsets ← calculateOffsets page info rec
      let page ← rowUpdRecSysFieldsInRecovery page rec offsets sys
      return (true, page)

def applyCompRecSecondDeleteMark : Option (Bool × (Nat → UInt8)) :=
  match secDeleteMarkBody log.body log.body.length 0 with
  | .error .null => some (false, page)
  | .error .abort => none
  | .ok ((_, val, rec), _) => do
      let page ← recSetDeletedFlagNew page rec val
      return (true, page)

/-- `ApplyCompRecUpdateInPlace`: the system fields unless `BTR_KEEP_SYS_FLAG` is set, then the
update vector. -/
def applyCompRecUpdateInPlace : Option (Bool × (Nat → UInt8)) :=
  match updateInPlaceBody log.body log.body.length 0 with
  | .error .null => some (false, page)
  | .error .abort => none
  | .ok ((info, flags, sys, rec, update), _) => do
      let offsets ← calculateOffsets page info rec
      let page ← if flags &&& BTR_KEEP_SYS_FLAG ≠ 0 then some page
        else rowUpdRecSysFieldsInRecovery page rec offsets sys
      let page ← rowUpdRecInPlace page rec info offsets update
      return (true, page)

end Appliers

/-! ### The bytes the offsets are read from -/

section Congr

variable {page page' : Nat → UInt8} {B : Nat}

@[simp] theorem readNullFlag_lens (s : OffsLoop) : (readNullFlag page s).2.lens = s.lens := rfl

theorem readNullFlag_nulls_le (s : OffsLoop) : (readNullFlag page s).2.nulls ≤ s.nulls := by
  unfold readNullFlag
  split <;> simp

theorem readNullFlag_congr (h : ∀ i ≤ B, page' i = page i) {s : OffsLoop} (hn : s.nulls ≤ B) :
    readNullFlag page' s = readNullFlag page s := by
  unfold readNullFlag
  by_cases hc : s.nullMask % 256 = 0
  · simp only [hc, if_true, h (s.nulls - 1) (by omega)]
  · simp only [hc, if_false, h s.nulls hn]

@[simp] theorem fieldNullFlag_lens (f : FieldInfo) (s : OffsLoop) :
    (fieldNullFlag page f s).2.lens = s.lens := by
  unfold fieldNullFlag
  split <;> simp

theorem fieldNullFlag_nulls_le (f : FieldInfo) (s : OffsLoop) :
    (fieldNullFlag page f s).2.nulls ≤ s.nulls := by
  unfold fieldNullFlag
  split
  · exact readNullFlag_nulls_le s
  · exact Nat.le_refl _

theorem fieldNullFlag_congr (h : ∀ i ≤ B, page' i = page i) (f : FieldInfo) {s : OffsLoop}
    (hn : s.nulls ≤ B) : fieldNullFlag page' f s = fieldNullFlag page f s := by
  simp only [fieldNullFlag, readNullFlag_congr h hn]

theorem readLenBytes_congr (h : ∀ i ≤ B, page' i = page i) (big : Bool) {s : OffsLoop}
    (hl : s.lens ≤ B) : readLenBytes page' big s = readLenBytes page big s := by
  simp only [readLenBytes, h s.lens hl, h (s.lens - 1) (by omega)]

theorem fieldEnd_congr (h : ∀ i ≤ B, page' i = page i) (ordinary : Bool) (f : FieldInfo)
    {s : OffsLoop} (hl : s.lens ≤ B) : fieldEnd page' ordinary f s = fieldEnd page ordinary f s := by
  simp only [fieldEnd, readLenBytes_congr h _ hl]

theorem readLenBytes_le (big : Bool) (s : OffsLoop) :
    (readLenBytes page big s).2.2.nulls = s.nulls ∧ (readLenBytes page big s).2.2.lens ≤ s.lens := by
  simp only [readLenBytes]
  split <;> simp

theorem fieldEnd_le {ordinary : Bool} {f : FieldInfo} {s s' : OffsLoop} {e : Nat}
    (h : fieldEnd page ordinary f s = some (e, s')) : s'.nulls ≤ s.nulls ∧ s'.lens ≤ s.lens := by
  obtain ⟨hn, hl⟩ := @readLenBytes_le page (dataBigCol f) s
  simp only [fieldEnd] at h
  split at h
  · split at h
    · split at h
      · cases h
        exact ⟨hn.le, hl⟩
      · split at h
        · cases h
          exact ⟨hn.le, hl⟩
        · cases h
    · cases h
      exact ⟨hn.le, hl⟩
  · cases h
    exact ⟨Nat.le_refl _, Nat.le_refl _⟩

theorem offsTurn_le {info : RecordInfo} {p i e : Nat} {ordinary : Bool} {s s' : OffsLoop}
    (h : offsTurn page info p ordinary i s = some (e, s')) : s'.nulls ≤ s.nulls ∧ s'.lens ≤ s.lens := by
  unfold offsTurn at h
  split at h
  · cases h
    exact ⟨Nat.le_refl _, Nat.le_refl _⟩
  · simp only [Option.bind_eq_bind, Option.bind_eq_some_iff] at h
    obtain ⟨f, -, h⟩ := h
    generalize hs1 : ({ s with nNull := if ordinary ∧ f.preciseType &&& DATA_NOT_NULL = 0
      then s.nNull - 1 else s.nNull } : OffsLoop) = s1 at h
    have h1 : s1.nulls = s.nulls ∧ s1.lens = s.lens := by
      subst hs1
      exact ⟨rfl, rfl⟩
    have hn := @fieldNullFlag_nulls_le page f s1
    split at h
    · simp at h
    · split at h
      · cases h
        simp only [fieldNullFlag_lens]
        omega
      · have := fieldEnd_le h
        simp only [fieldNullFlag_lens] at this
        omega

theorem offsTurn_congr (h : ∀ i ≤ B, page' i = page i) (info : RecordInfo) (p : Nat)
    (ordinary : Bool) (i : Nat) {s : OffsLoop} (hn : s.nulls ≤ B) (hl : s.lens ≤ B) :
    offsTurn page' info p ordinary i s = offsTurn page info p ordinary i s := by
  unfold offsTurn
  simp only [fieldNullFlag_congr h, fieldEnd_congr h, fieldNullFlag_lens, hn, hl]

theorem offsTurns_congr (h : ∀ i ≤ B, page' i = page i) (info : RecordInfo) (p : Nat)
    (ordinary : Bool) (k i : Nat) {s : OffsLoop} (hn : s.nulls ≤ B) (hl : s.lens ≤ B) :
    offsTurns page' info p ordinary k i s = offsTurns page info p ordinary k i s := by
  induction k generalizing i s with
  | zero => rfl
  | succ k ih =>
      simp only [offsTurns, offsTurn_congr h info p ordinary i hn hl]
      cases hturn : offsTurn page info p ordinary i s with
      | none => rfl
      | some r =>
          obtain ⟨e, s'⟩ := r
          have hle := offsTurn_le hturn
          simp only [Option.bind_eq_bind, Option.bind_some]
          rw [ih (i + 1) (by omega) (by omega)]

/-- `CalculateOffsets` reads the status bits and, below the extra bytes, the null flags and
the lengths: a page that agrees there gives the same offsets. -/
theorem calculateOffsets_congr {rec : Nat} (hrec : REC_N_NEW_EXTRA_BYTES + 1 ≤ rec)
    (h : ∀ i, i + (REC_N_NEW_EXTRA_BYTES + 1) ≤ rec ∨ i + REC_NEW_STATUS = rec →
      page' i = page i) (info : RecordInfo) :
    calculateOffsets page' info rec = calculateOffsets page info rec := by
  have hstatus : recGetBitField1 page' rec REC_NEW_STATUS REC_NEW_STATUS_MASK REC_NEW_STATUS_SHIFT =
      recGetBitField1 page rec REC_NEW_STATUS REC_NEW_STATUS_MASK REC_NEW_STATUS_SHIFT := by
    simp only [recGetBitField1]
    rw [h (rec - REC_NEW_STATUS) (Or.inr (by simp only [REC_NEW_STATUS, REC_N_NEW_EXTRA_BYTES] at hrec ⊢; omega))]
  have hB : ∀ i ≤ rec - (REC_N_NEW_EXTRA_BYTES + 1), page' i = page i :=
    fun i hi => h i (Or.inl (by omega))
  simp only [calculateOffsets, hstatus]
  rw [offsTurns_congr hB _ _ _ _ _ (Nat.le_refl _) (Nat.sub_le _ _)]

end Congr

/-! ### What the appliers write -/

section Frame

variable {page page' : Nat → UInt8}

theorem recSetDeletedFlagNew_eqOn {rec flag : Nat}
    (h : recSetDeletedFlagNew page rec flag = some page') :
    REC_NEW_INFO_BITS ≤ rec ∧ Set.EqOn page' page {rec - REC_NEW_INFO_BITS}ᶜ := by
  simp only [recSetDeletedFlagNew, Option.bind_eq_bind] at h
  split at h
  · simp at h
  · split at h
    · simp at h
    · -- whichever way the flag goes, the one write is to the info byte
      have hw : ∃ v, Function.update page (rec - REC_NEW_INFO_BITS) v = page' := by
        split at h <;> simp at h <;> exact ⟨_, h.2⟩
      obtain ⟨v, rfl⟩ := hw
      exact ⟨by omega, update_eqOn _ _ _⟩

theorem recSetInfoBitsNew_eqOn {rec bits : Nat} (h : recSetInfoBitsNew page rec bits = some page') :
    REC_NEW_INFO_BITS ≤ rec ∧ Set.EqOn page' page {rec - REC_NEW_INFO_BITS}ᶜ := by
  unfold recSetInfoBitsNew at h
  split at h
  · cases h
  · split at h
    · cases h
    · cases h
      exact ⟨by omega, update_eqOn _ _ _⟩

/-- The 13 bytes of `DB_TRX_ID` and `DB_ROLL_PTR` from the start of field `pos`. -/
def sysFieldBytes (offsets : List Nat) (rec pos : Nat) : Set Nat :=
  {i | ∃ offs len, recGetNthFieldOffs offsets pos = some (offs, len) ∧ rec + offs ≤ i ∧
    i < rec + offs + (DATA_TRX_ID_LEN + DATA_ROLL_PTR_LEN)}

theorem rowUpdRecSysFieldsInRecovery_eqOn {rec : Nat} {offsets : List Nat} {sys : SysVals}
    (h : rowUpdRecSysFieldsInRecovery page rec offsets sys = some page') :
    Set.EqOn page' page (sysFieldBytes offsets rec sys.pos)ᶜ := by
  simp only [rowUpdRecSysFieldsInRecovery, Option.bind_eq_bind, Option.bind_eq_some_iff] at h
  obtain ⟨⟨offs, len⟩, hoffs, h⟩ := h
  -- past the asserts on the field's length and on the id, the two writes
  have hw : writeBE (writeBE page (rec + offs) DATA_TRX_ID_LEN sys.trxId)
      (rec + offs + DATA_TRX_ID_LEN) DATA_ROLL_PTR_LEN sys.rollPtr = page' := by
    by_cases hl : len ≠ DATA_TRX_ID_LEN
    · simp [hl] at h
    · by_cases ht : sys.trxId = 0
      · simp [hl, ht] at h
      · simpa [hl, ht] using h
  subst hw
  refine (eqOn_compl_union (writeBE_eqOn _ _ _ _) (writeBE_eqOn _ _ _ _)).mono
    (Set.compl_subset_compl.mpr ?_)
  rintro i (⟨hi1, hi2⟩ | ⟨hi1, hi2⟩) <;> exact ⟨offs, len, hoffs, by omega, by omega⟩

/-- The `len` bytes of field `n` from where `offsets` puts its start; an SQL NULL has none. -/
def fieldBytes (offsets : List Nat) (rec n len : Nat) : Set Nat :=
  {i | len ≠ UNIV_SQL_NULL ∧ ∃ offs, recGetNthFieldOffs offsets n = some (offs, len) ∧
    rec + offs ≤ i ∧ i < rec + offs + len}

/-- The new value of `f` has the stored form of its field: SQL NULL for an SQL NULL field,
and otherwise as many bytes as the field has. -/
def UpdateField.Fits (offsets : List Nat) (f : UpdateField) : Prop :=
  if f.len = UNIV_SQL_NULL then recOffsNthSqlNull offsets f.fieldNo = some true
  else ∃ offs, recGetNthFieldOffs offsets f.fieldNo = some (offs, f.len)

theorem recSetNthField_eqOn {rec : Nat} {offsets : List Nat} {f : UpdateField}
    (hfit : f.Fits offsets) (h : recSetNthField page rec offsets f.fieldNo f.data f.len = some page') :
    Set.EqOn page' page (fieldBytes offsets rec f.fieldNo f.len)ᶜ := by
  unfold UpdateField.Fits at hfit
  unfold recSetNthField at h
  by_cases hnull : f.len = UNIV_SQL_NULL
  · rw [if_pos hnull] at hfit
    simp only [hnull, ↓reduceIte, hfit, Option.pure_def, Option.bind_eq_bind, Option.bind_some,
      Option.some.injEq] at h
    subst h
    exact Set.eqOn_refl _ _
  · rw [if_neg hnull] at hfit
    obtain ⟨offs, hoffs⟩ := hfit
    simp only [hnull, ↓reduceIte, hoffs, Option.bind_eq_bind, Option.bind_some, Option.bind_none,
      Option.some.injEq] at h
    subst h
    refine (writeBytes_eqOn _ _ _).mono (Set.compl_subset_compl.mpr fun i hi => ?_)
    have := List.length_take_le f.len f.data
    simp only [Set.mem_Ico] at hi
    exact ⟨hnull, offs, hoffs, hi.1, by omega⟩

theorem rowUpdRecField_eqOn {rec : Nat} {info : RecordInfo} {offsets : List Nat} {f : UpdateField}
    (hfit : f.Fits offsets) (h : rowUpdRecField page rec info offsets f = some page') :
    Set.EqOn page' page (fieldBytes offsets rec f.fieldNo f.len)ᶜ := by
  unfold rowUpdRecField at h
  split at h
  · cases h
    exact Set.eqOn_refl _ _
  · exact recSetNthField_eqOn hfit h

/-- The bytes of the fields an update vector names. -/
def updateBytes (offsets : List Nat) (rec : Nat) (fields : List UpdateField) : Set Nat :=
  {i | ∃ f ∈ fields, i ∈ fieldBytes offsets rec f.fieldNo f.len}

/-- The loop of `row_upd_rec_in_place` writes only the bytes of the fields it updates. -/
theorem foldlM_rowUpdRecField_eqOn {rec : Nat} {info : RecordInfo} {offsets : List Nat} :
    ∀ {fields : List UpdateField} {page page' : Nat → UInt8}, (∀ f ∈ fields, f.Fits offsets) →
      fields.foldlM (fun page f => rowUpdRecField page rec info offsets f) page = some page' →
      Set.EqOn page' page (updateBytes offsets rec fields)ᶜ
  | [], page, page', _, h => by
      cases h
      exact Set.eqOn_refl _ _
  | f :: fields, page, page', hfits, h => by
      simp only [List.foldlM_cons, Option.bind_eq_bind, Option.bind_eq_some_iff] at h
      obtain ⟨p1, hp1, h⟩ := h
      have h1 := rowUpdRecField_eqOn (hfits f List.mem_cons_self) hp1
      have h2 := foldlM_rowUpdRecField_eqOn (fun g hg => hfits g (List.mem_cons_of_mem _ hg)) h
      refine (eqOn_compl_union h2 h1).mono (Set.compl_subset_compl.mpr ?_)
      rintro i (hi | ⟨g, hg, hi⟩)
      · exact ⟨f, List.mem_cons_self, hi⟩
      · exact ⟨g, List.mem_cons_of_mem _ hg, hi⟩

theorem rowUpdRecInPlace_eqOn {rec : Nat} {info : RecordInfo} {offsets : List Nat}
    {update : UpdateInfo} (hfits : ∀ f ∈ update.fields, f.Fits offsets)
    (h : rowUpdRecInPlace page rec info offsets update = some page') :
    REC_NEW_INFO_BITS ≤ rec ∧
      Set.EqOn page' page ({rec - REC_NEW_INFO_BITS} ∪ updateBytes offsets rec update.fields)ᶜ := by
  simp only [rowUpdRecInPlace, Option.bind_eq_bind, Option.bind_eq_some_iff] at h
  obtain ⟨p1, hp1, h⟩ := h
  obtain ⟨h5, h1⟩ := recSetInfoBitsNew_eqOn hp1
  exact ⟨h5, eqOn_compl_union (foldlM_rowUpdRecField_eqOn hfits h) h1⟩

end Frame

/-! ### The dispatcher with the in-place appliers -/

section Dispatch

variable {log : LogEntry} {page page' : Nat → UInt8}

theorem applyCompRecClusterDeleteMark_unchanged
    (h : applyCompRecClusterDeleteMark log page = some (false, page')) : page' = page := by
  unfold applyCompRecClusterDeleteMark at h
  split at h
  · cases h
    rfl
  · cases h
  · -- a decoded body is applied and answers `true`
    simp only [Option.bind_eq_bind, Option.bind_eq_some_iff] at h
    obtain ⟨p1, -, h⟩ := h
    split at h <;> simp [Option.bind_eq_some_iff] at h

theorem applyCompRecSecondDeleteMark_unchanged
    (h : applyCompRecSecondDeleteMark log page = some (false, page')) : page' = page := by
  unfold applyCompRecSecondDeleteMark at h
  split at h
  · cases h
    rfl
  · cases h
  · simp [Option.bind_eq_some_iff] at h

theorem applyCompRecUpdateInPlace_unchanged
    (h : applyCompRecUpdateInPlace log page = some (false, page')) : page' = page := by
  unfold applyCompRecUpdateInPlace at h
  split at h
  · cases h
    rfl
  · cases h
  · simp only [Option.bind_eq_bind, Option.bind_eq_some_iff] at h
    obtain ⟨offsets, -, h⟩ := h
    split at h <;> simp [Option.bind_eq_some_iff] at h

/-- The dispatcher's index-record appliers: the three in-place ones as modelled here, and
`other` for the rest. -/
def RecordApplier.withInPlace (other : RecordApplier) : RecordApplier where
  apply t log page := match t with
    | .MLOG_COMP_REC_CLUST_DELETE_MARK => applyCompRecClusterDeleteMark log page
    | .MLOG_COMP_REC_SEC_DELETE_MARK => applyCompRecSecondDeleteMark log page
    | .MLOG_COMP_REC_UPDATE_IN_PLACE => applyCompRecUpdateInPlace log page
    | t => other.apply t log page
  unchanged_of_false t log data data' h := by
    split at h
    · exact applyCompRecClusterDeleteMark_unchanged h
    · exact applyCompRecSecondDeleteMark_unchanged h
    · exact applyCompRecUpdateInPlace_unchanged h
    · exact other.unchanged_of_false _ _ _ _ h

end Dispatch

/-! ### The bytes an in-place record may change -/

/-- What a body of an in-place record asks for, as its applier decodes it: the record, the
index (none for `MLOG_REC_SEC_DELETE_MARK`, which has none), whether the system fields stay,
the system values and the updated fields. -/
structure InPlaceEdit where
  record : Nat
  info : Option RecordInfo
  keepSys : Bool
  sys : SysVals
  fields : List UpdateField
  deriving DecidableEq, Repr

/-- The edit that the applier of `MLOG_COMP_REC_CLUST_DELETE_MARK`, `MLOG_REC_SEC_DELETE_MARK`,
`MLOG_COMP_REC_SEC_DELETE_MARK` or `MLOG_COMP_REC_UPDATE_IN_PLACE` decodes from a body. -/
def inPlaceEdit (log : LogEntry) : Option InPlaceEdit :=
  match log.type with
  | .MLOG_COMP_REC_CLUST_DELETE_MARK =>
      match clustDeleteMarkBody log.body log.body.length 0 with
      | .ok ((info, flags, _, sys, rec), _) =>
          some ⟨rec, some info, flags &&& BTR_KEEP_SYS_FLAG != 0, sys, []⟩
      | .error _ => none
  | .MLOG_REC_SEC_DELETE_MARK =>
      if log.body.length < 3 then none
      else some ⟨machReadFrom log.body 1 2, none, true, ⟨0, 0, 0⟩, []⟩
  | .MLOG_COMP_REC_SEC_DELETE_MARK =>
      match secDeleteMarkBody log.body log.body.length 0 with
      | .ok ((info, _, rec), _) => some ⟨rec, some info, true, ⟨0, 0, 0⟩, []⟩
      | .error _ => none
  | .MLOG_COMP_REC_UPDATE_IN_PLACE =>
      match updateInPlaceBody log.body log.body.length 0 with
      | .ok ((info, flags, sys, rec, update), _) =>
          some ⟨rec, some info, flags &&& BTR_KEEP_SYS_FLAG != 0, sys, update.fields⟩
      | .error _ => none
  | _ => none

namespace InPlaceEdit

/-- The offsets of the edited record on `page`. -/
def offsets (e : InPlaceEdit) (page : Nat → UInt8) : Option (List Nat) :=
  e.info.bind fun info => calculateOffsets page info e.record

/-- The bytes the edit may change on `page`: the record's info bits, the bytes of the fields
it updates, and the system fields at `pos` unless they stay. The field positions are those
`CalculateOffsets` reads off `page`. -/
def touched (e : InPlaceEdit) (page : Nat → UInt8) : Set Nat :=
  {e.record - REC_NEW_INFO_BITS} ∪ {i | ∃ offsets, e.offsets page = some offsets ∧
    (i ∈ updateBytes offsets e.record e.fields ∨
      (e.keepSys = false ∧ i ∈ sysFieldBytes offsets e.record e.sys.pos))}

theorem touched_ge {e : InPlaceEdit} {page : Nat → UInt8} {i : Nat} (h : i ∈ e.touched page) :
    i = e.record - REC_NEW_INFO_BITS ∨ e.record ≤ i := by
  rcases h with h | ⟨offsets, -, ⟨f, -, -, offs, -, h1, -⟩ | ⟨-, offs, len, -, h1, -⟩⟩
  · exact .inl h
  · exact .inr (by omega)
  · exact .inr (by omega)

/-- The edit leaves the offsets of its record as they were, for any index: it writes neither
the status bits nor the null flags and the lengths below the extra bytes. -/
theorem calculateOffsets_of_eqOn {e : InPlaceEdit} {page page' : Nat → UInt8}
    (hrec : REC_N_NEW_EXTRA_BYTES + 1 ≤ e.record) (h : Set.EqOn page' page (e.touched page)ᶜ)
    (info : RecordInfo) : calculateOffsets page' info e.record = calculateOffsets page info e.record :=
  calculateOffsets_congr hrec (fun i hi => h fun hmem => by
    have := touched_ge hmem
    simp only [REC_N_NEW_EXTRA_BYTES, REC_NEW_STATUS, REC_NEW_INFO_BITS] at hi hrec this
    omega) info

end InPlaceEdit

section Edits

variable {log : LogEntry} {page page' : Nat → UInt8}

theorem applyRecSecondDeleteMark_eqOn (h : applyRecSecondDeleteMark log page = some (true, page')) :
    Set.EqOn page' page {machReadFrom log.body 1 2 - REC_NEW_INFO_BITS}ᶜ := by
  unfold applyRecSecondDeleteMark at h
  by_cases hshort : log.body.length < 3
  · simp [hshort] at h
  · simp only [hshort, if_false, Option.bind_eq_bind] at h
    split at h
    · simp at h
    · simp only [Option.bind_eq_some_iff, Option.pure_def, Option.some.injEq, Prod.mk.injEq] at h
      obtain ⟨p1, hp1, -, rfl⟩ := h
      exact (recSetDeletedFlagNew_eqOn hp1).2

theorem applyCompRecSecondDeleteMark_eqOn {info : RecordInfo} {val rec q : Nat}
    (hb : secDeleteMarkBody log.body log.body.length 0 = .ok ((info, val, rec), q))
    (h : applyCompRecSecondDeleteMark log page = some (true, page')) :
    Set.EqOn page' page {rec - REC_NEW_INFO_BITS}ᶜ := by
  simp only [applyCompRecSecondDeleteMark, hb, Option.bind_eq_bind, Option.bind_eq_some_iff,
    Option.pure_def, Option.some.injEq, Prod.mk.injEq] at h
  obtain ⟨p1, hp1, -, rfl⟩ := h
  exact (recSetDeletedFlagNew_eqOn hp1).2

/-- The delete mark leaves the offsets alone: the system fields are written where they were
before it. -/
theorem applyCompRecClusterDeleteMark_eqOn {info : RecordInfo} {flags val rec q : Nat}
    {sys : SysVals}
    (hb : clustDeleteMarkBody log.body log.body.length 0 = .ok ((info, flags, val, sys, rec), q))
    (hrec : REC_N_NEW_EXTRA_BYTES + 1 ≤ rec)
    (h : applyCompRecClusterDeleteMark log page = some (true, page')) :
    Set.EqOn page' page
      (InPlaceEdit.touched ⟨rec, some info, flags &&& BTR_KEEP_SYS_FLAG != 0, sys, []⟩ page)ᶜ := by
  by_cases hkeep : flags &&& BTR_KEEP_SYS_FLAG = 0
  · simp only [applyCompRecClusterDeleteMark, hb, hkeep, ne_eq, not_true_eq_false, if_false,
      Option.bind_eq_bind, Option.bind_eq_some_iff, Option.pure_def, Option.some.injEq,
      Prod.mk.injEq] at h
    obtain ⟨p1, hp1, offsets, hoff, p2, hp2, -, rfl⟩ := h
    have h1 := (recSetDeletedFlagNew_eqOn hp1).2
    have hoffs : calculateOffsets p1 info rec = calculateOffsets page info rec :=
      calculateOffsets_congr hrec (fun i hi => h1 (Set.mem_compl_singleton_iff.mpr (by
        simp only [REC_N_NEW_EXTRA_BYTES, REC_NEW_STATUS, REC_NEW_INFO_BITS] at hi hrec ⊢
        omega))) info
    refine (eqOn_compl_union (rowUpdRecSysFieldsInRecovery_eqOn hp2) h1).mono
      (Set.compl_subset_compl.mpr ?_)
    rintro i (hi | hi)
    · exact .inl hi
    · refine .inr ⟨offsets, ?_, .inr ⟨by simp [hkeep], hi⟩⟩
      simp only [InPlaceEdit.offsets, Option.bind_some, ← hoffs, hoff]
  · simp only [applyCompRecClusterDeleteMark, hb, hkeep, ne_eq, not_false_eq_true, if_true,
      Option.bind_eq_bind, Option.bind_eq_some_iff, Option.pure_def, Option.some.injEq,
      Prod.mk.injEq] at h
    obtain ⟨p1, hp1, -, rfl⟩ := h
    exact (recSetDeletedFlagNew_eqOn hp1).2.mono (Set.compl_subset_compl.mpr Set.subset_union_left)

theorem applyCompRecUpdateInPlace_eqOn {info : RecordInfo} {flags rec q : Nat} {sys : SysVals}
    {update : UpdateInfo}
    (hb : updateInPlaceBody log.body log.body.length 0 = .ok ((info, flags, sys, rec, update), q))
    (hfits : ∀ offsets, calculateOffsets page info rec = some offsets →
      ∀ f ∈ update.fields, f.Fits offsets)
    (h : applyCompRecUpdateInPlace log page = some (true, page')) :
    Set.EqOn page' page (InPlaceEdit.touched
      ⟨rec, some info, flags &&& BTR_KEEP_SYS_FLAG != 0, sys, update.fields⟩ page)ᶜ := by
  simp only [applyCompRecUpdateInPlace, hb, Option.bind_eq_bind, Option.bind_eq_some_iff] at h
  obtain ⟨offsets, hoff, h⟩ := h
  have hoffE : InPlaceEdit.offsets
      ⟨rec, some info, flags &&& BTR_KEEP_SYS_FLAG != 0, sys, update.fields⟩ page = some offsets := by
    simp only [InPlaceEdit.offsets, Option.bind_some, hoff]
  -- the system fields first, unless they stay, then the update vector
  obtain ⟨p2, h2, h⟩ : ∃ p2, Set.EqOn p2 page (InPlaceEdit.touched
      ⟨rec, some info, flags &&& BTR_KEEP_SYS_FLAG != 0, sys, update.fields⟩ page)ᶜ ∧
      rowUpdRecInPlace p2 rec info offsets update = some page' := by
    by_cases hkeep : flags &&& BTR_KEEP_SYS_FLAG = 0
    · simp only [hkeep, ne_eq, not_true_eq_false, if_false, Option.bind_eq_some_iff,
        Option.pure_def, Option.some.injEq, Prod.mk.injEq] at h
      obtain ⟨p2, hp2, p3, hp3, -, rfl⟩ := h
      refine ⟨p2, (rowUpdRecSysFieldsInRecovery_eqOn hp2).mono
        (Set.compl_subset_compl.mpr fun i hi => ?_), hp3⟩
      exact .inr ⟨offsets, hoffE, .inr ⟨by simp [hkeep], hi⟩⟩
    · simp only [hkeep, ne_eq, not_false_eq_true, if_true, Option.bind_some,
        Option.bind_eq_some_iff, Option.pure_def, Option.some.injEq, Prod.mk.injEq] at h
      obtain ⟨p3, hp3, -, rfl⟩ := h
      exact ⟨page, Set.eqOn_refl _ _, hp3⟩
  have h3 := (rowUpdRecInPlace_eqOn (hfits offsets hoff) h).2
  refine (eqOn_compl_union h3 h2).mono (Set.compl_subset_compl.mpr ?_)
  rintro i (hi | hi | hi)
  · exact hi
  · exact .inl hi
  · exact .inr ⟨offsets, hoffE, .inl hi⟩

end Edits

/-- The applier of each in-place type changes at most the bytes of the edit it decodes. -/
theorem applied_edit_eqOn (other : RecordApplier) {data data' : Nat → UInt8} {log : LogEntry}
    {e : InPlaceEdit} (he : inPlaceEdit log = some e) (hrec : REC_N_NEW_EXTRA_BYTES + 1 ≤ e.record)
    (hfits : ∀ offsets, e.offsets data = some offsets → ∀ f ∈ e.fields, f.Fits offsets)
    (h : logApplyApplyOneLog other.withInPlace data log = some (true, data')) :
    Set.EqOn data' data (e.touched data)ᶜ := by
  unfold inPlaceEdit at he
  split at he
  · rename_i htype
    split at he
    · cases he
      simp only [logApplyApplyOneLog, htype, RecordApplier.withInPlace] at h
      exact applyCompRecClusterDeleteMark_eqOn ‹_› hrec h
    · cases he
  · rename_i htype
    split at he
    · cases he
    · cases he
      simp only [logApplyApplyOneLog, htype] at h
      exact (applyRecSecondDeleteMark_eqOn h).mono
        (Set.compl_subset_compl.mpr Set.subset_union_left)
  · rename_i htype
    split at he
    · cases he
      simp only [logApplyApplyOneLog, htype, RecordApplier.withInPlace] at h
      exact (applyCompRecSecondDeleteMark_eqOn ‹_› h).mono
        (Set.compl_subset_compl.mpr Set.subset_union_left)
    · cases he
  · rename_i htype
    split at he
    · cases he
      simp only [logApplyApplyOneLog, htype, RecordApplier.withInPlace] at h
      exact applyCompRecUpdateInPlace_eqOn ‹_› (fun offsets hoff => hfits offsets
        (by simp only [InPlaceEdit.offsets, Option.bind_some, hoff])) h
    · cases he
  · cases he

/-- The in-place record types change only their record. On a page whose record list is well
formed, the body of an `MLOG_COMP_REC_CLUST_DELETE_MARK`, `MLOG_REC_SEC_DELETE_MARK`,
`MLOG_COMP_REC_SEC_DELETE_MARK` or `MLOG_COMP_REC_UPDATE_IN_PLACE` that names a record of the
list past the infimum, and gives each updated field a value of its stored form, changes at
most the bytes its edit allows, and leaves the record's offsets under any index, so its
extra size and its data size, as they were. -/
theorem in_place_changes_only_record (other : RecordApplier) {data data' : Nat → UInt8}
    {recs : List Nat} (hl : RecordList data recs) {log : LogEntry} {e : InPlaceEdit}
    (he : inPlaceEdit log = some e) (hr : e.record ∈ recs.tail)
    (hfits : ∀ offsets, e.offsets data = some offsets → ∀ f ∈ e.fields, f.Fits offsets)
    {b : Bool} (h : logApplyApplyOneLog other.withInPlace data log = some (b, data')) :
    Set.EqOn data' data (e.touched data)ᶜ ∧
      ∀ info, calculateOffsets data' info e.record = calculateOffsets data info e.record := by
  have hrec : REC_N_NEW_EXTRA_BYTES + 1 ≤ e.record := by
    have := (hl.in_page _ hr).1
    simp only [PAGE_NEW_SUPREMUM, PAGE_DATA, PAGE_HEADER, FSEG_PAGE_DATA, FIL_PAGE_DATA,
      FSEG_HEADER_SIZE, REC_N_NEW_EXTRA_BYTES] at this ⊢
    omega
  have hframe : Set.EqOn data' data (e.touched data)ᶜ := by
    cases b with
    | false =>
        rw [logApplyApplyOneLog_unchanged h]
        exact Set.eqOn_refl _ _
    | true => exact applied_edit_eqOn other he hrec hfits h
  exact ⟨hframe, InPlaceEdit.calculateOffsets_of_eqOn hrec hframe⟩

/-- An `MLOG_COMP_REC_UPDATE_IN_PLACE` of the user record of `fullPage`, under a clustered index
of a 4-byte key and the two system fields: the flags do not keep the system fields, and the
update vector sets the key to `[1, 2, 3, 4]`. -/
def keyUpdateLog : LogEntry :=
  ⟨.MLOG_COMP_REC_UPDATE_IN_PLACE, 1, 0, 8204, 37,
    [0, 3, 0, 1, 0x80, 0x04, 0x80, 0x06, 0x80, 0x07, 0, 0x01, 0, 0, 0, 0, 0, 0, 5, 0x00, 0, 0, 0, 9,
      0, 127, 0, 0x01, 0x00, 0x04, 1, 2, 3, 4]⟩

set_option maxRecDepth 4000 in
theorem in_place_changes_only_record_keyUpdate :
    ∃ e data', inPlaceEdit keyUpdateLog = some e ∧ e.record = 127 ∧ e.keepSys = false ∧
      e.fields ≠ [] ∧
      logApplyApplyOneLog RecordApplier.rejectAll.withInPlace fullPage keyUpdateLog =
        some (true, data') ∧
      Set.EqOn data' fullPage (e.touched fullPage)ᶜ ∧
      ∀ info, calculateOffsets data' info e.record = calculateOffsets fullPage info e.record := by
  obtain ⟨e, he⟩ : ∃ e, inPlaceEdit keyUpdateLog = some e := ⟨_, rfl⟩
  obtain ⟨data', h⟩ : ∃ data', logApplyApplyOneLog RecordApplier.rejectAll.withInPlace fullPage
      keyUpdateLog = some (true, data') := ⟨_, rfl⟩
  -- what the applier decodes: the record, the flags, the update and the record's offsets
  have hdecoded : (inPlaceEdit keyUpdateLog).map (fun e => (e.record, e.keepSys, e.fields)) =
      some (127, false, [⟨0, 0, [1, 2, 3, 4], 4⟩]) := by decide
  have hoffs : (inPlaceEdit keyUpdateLog).bind (·.offsets fullPage) =
      some [0, 3, 0, 0, 5 ||| REC_OFFS_COMPACT, 4, 10, 17] := by decide
  simp only [he, Option.map_some, Option.some.injEq, Prod.mk.injEq, Option.bind_some] at hdecoded hoffs
  obtain ⟨hrec, hkeep, hfields⟩ := hdecoded
  have hl : e.record ∈ [99, 127, 112].tail := by simp [hrec]
  have hfits : ∀ offsets, e.offsets fullPage = some offsets → ∀ f ∈ e.fields, f.Fits offsets := by
    intro offsets hoff f hf
    rw [hoffs, Option.some.injEq] at hoff
    subst hoff
    rw [hfields, List.mem_singleton] at hf
    subst hf
    exact ⟨0, by decide⟩
  exact ⟨e, data', he, hrec, hkeep, by simp [hfields], h,
    in_place_changes_only_record _ fullPage_recordList he hl hfits h⟩

end LogDB
