import Mathlib.Data.Nat.Notation

/-!
The applier's configuration (`applier_config.h`), the redo record types of
`log_type.h`, and the two value types every component passes around: the page
address and the parsed log entry of `bean.h`.

Sizes are natural numbers; where the C++ stores one in a fixed-width field the
model says so at the use site. A `LogEntry` keeps its body as the byte string
the constructor copies out of the parse buffer.
-/

namespace LogDB

/-! ### Sizes of the log and of data pages -/

def APPLY_BATCH_SIZE : Nat := 8 * 1024 * 1024
def LOG_FILE_NUMBER : Nat := 2
def APPLIER_THREAD : Nat := 1
/-- `2UL * 1024 * 1024 * 1204`, stored in a `uint32_t` (taken modulo `2 ^ 32`). -/
def PER_LOG_FILE_SIZE : Nat := 2 * 1024 * 1024 * 1204 % 4294967296
def LOG_BLOCK_SIZE : Nat := 512
def DATA_PAGE_SIZE : Nat := 16 * 1024
def N_LOG_METADATA_BLOCKS : Nat := 4
def N_LOG_METADATA_BLOCK_BYTES : Nat := N_LOG_METADATA_BLOCKS * LOG_BLOCK_SIZE
def BUFFER_POOL_SIZE : Nat := 80 * 1024

def LOG_BLOCK_HDR_DATA_LEN : Nat := 4
def LOG_BLOCK_HDR_SIZE : Nat := 12
def LOG_BLOCK_TRL_SIZE : Nat := 4
def LOG_CHECKPOINT_NO : Nat := 0
def LOG_CHECKPOINT_LSN : Nat := 8
def LOG_CHECKPOINT_OFFSET : Nat := 16
def LOG_CHECKPOINT_1 : Nat := LOG_BLOCK_SIZE
def LOG_CHECKPOINT_2 : Nat := 3 * LOG_BLOCK_SIZE
def OS_FILE_LOG_BLOCK_SIZE : Nat := 512
def SIZE_OF_MLOG_CHECKPOINT : Nat := 9
def DATA_ROLL_PTR_LEN : Nat := 7
def UNIV_SQL_NULL : Nat := 0xFFFFFFFF

/-! ### Offsets in a data page -/

def FIL_PAGE_SPACE_OR_CHKSUM : Nat := 0
def FIL_PAGE_OFFSET : Nat := 4
def FIL_PAGE_LSN : Nat := 16
def FIL_PAGE_TYPE : Nat := 24
def FIL_PAGE_ARCH_LOG_NO_OR_SPACE_ID : Nat := 34
def FIL_PAGE_DATA : Nat := 38
def FIL_PAGE_END_LSN_OLD_CHKSUM : Nat := 8
def FIL_PAGE_DATA_END : Nat := 8
def BUF_NO_CHECKSUM_MAGIC : Nat := 0xDEADBEEF
def FIL_PAGE_INDEX : Nat := 17855
def FIL_PAGE_IBUF_BITMAP : Nat := 5

/-! ### Offsets in an index page and in its records -/

def FSEG_PAGE_DATA : Nat := FIL_PAGE_DATA
def FSEG_HEADER_SIZE : Nat := 10
def PAGE_HEADER : Nat := FSEG_PAGE_DATA
def PAGE_N_DIR_SLOTS : Nat := 0
def PAGE_HEAP_TOP : Nat := 2
def PAGE_N_HEAP : Nat := 4
def PAGE_FREE : Nat := 6
def PAGE_GARBAGE : Nat := 8
def PAGE_LAST_INSERT : Nat := 10
def PAGE_DIRECTION : Nat := 12
def PAGE_N_DIRECTION : Nat := 14
def PAGE_N_RECS : Nat := 16
def PAGE_MAX_TRX_ID : Nat := 18
def PAGE_HEADER_PRIV_END : Nat := 26
def PAGE_LEVEL : Nat := 26
def PAGE_INDEX_ID : Nat := 28
def PAGE_LEFT : Nat := 1
def PAGE_RIGHT : Nat := 2
def PAGE_NO_DIRECTION : Nat := 5
def PAGE_HEAP_NO_USER_LOW : Nat := 2
def PAGE_DIR : Nat := FIL_PAGE_DATA_END
def PAGE_DIR_SLOT_SIZE : Nat := 2
def PAGE_DIR_SLOT_MAX_N_OWNED : Nat := 8
def PAGE_DIR_SLOT_MIN_N_OWNED : Nat := 4
def REC_N_NEW_EXTRA_BYTES : Nat := 5
def PAGE_DATA : Nat := PAGE_HEADER + 36 + 2 * FSEG_HEADER_SIZE
def PAGE_NEW_SUPREMUM : Nat := PAGE_DATA + 2 * REC_N_NEW_EXTRA_BYTES + 8
def PAGE_NEW_INFIMUM : Nat := PAGE_DATA + REC_N_NEW_EXTRA_BYTES
def PAGE_NEW_SUPREMUM_END : Nat := PAGE_NEW_SUPREMUM + 8
def IBUF_BITMAP : Nat := PAGE_DATA
def IBUF_BITS_PER_PAGE : Nat := 4
def REC_NEW_INFO_BITS : Nat := 5
def REC_INFO_BITS_MASK : Nat := 0xF0
def REC_INFO_BITS_SHIFT : Nat := 0
def REC_INFO_MIN_REC_FLAG : Nat := 0x10
def REC_INFO_DELETED_FLAG : Nat := 0x20
def REC_NEW_N_OWNED : Nat := 5
def REC_N_OWNED_MASK : Nat := 0xF
def REC_N_OWNED_SHIFT : Nat := 0
def REC_NEXT : Nat := 2
def REC_NEXT_MASK : Nat := 0xFFFF
def REC_NEW_HEAP_NO : Nat := 4
def REC_HEAP_NO_MASK : Nat := 0xFFF8
def REC_HEAP_NO_SHIFT : Nat := 3
def REC_NEW_STATUS : Nat := 3
def REC_NEW_STATUS_MASK : Nat := 0x7
def REC_NEW_STATUS_SHIFT : Nat := 0
def REC_STATUS_ORDINARY : Nat := 0
def REC_STATUS_NODE_PTR : Nat := 1
def REC_STATUS_INFIMUM : Nat := 2
def REC_STATUS_SUPREMUM : Nat := 3
def REC_NODE_PTR_SIZE : Nat := 4
def REC_MAX_N_FIELDS : Nat := 1024 - 1
def REC_OLD_SHORT : Nat := 3
def REC_OLD_SHORT_MASK : Nat := 0x1
def REC_OLD_SHORT_SHIFT : Nat := 0
def REC_N_OLD_EXTRA_BYTES : Nat := 6
def REC_1BYTE_SQL_NULL_MASK : Nat := 0x80
def REC_2BYTE_SQL_NULL_MASK : Nat := 0x8000
def REC_2BYTE_EXTERN_MASK : Nat := 0x4000

/-! ### Index descriptors and field offsets -/

def DICT_CLUSTERED : Nat := 1
def DICT_VIRTUAL : Nat := 128
def DICT_MAX_FIXED_COL_LEN : Nat := 768
def DATA_TRX_ID : Nat := 1
def DATA_TRX_ID_LEN : Nat := 6
def DATA_ROLL_PTR : Nat := 2
def DATA_NOT_NULL : Nat := 256
def DATA_VIRTUAL : Nat := 8192
def DATA_FIXBINARY : Nat := 3
def DATA_BINARY : Nat := 4
def DATA_BLOB : Nat := 5
def DATA_SYS : Nat := 8
def DATA_GEOMETRY : Nat := 14
def DATA_VAR_POINT : Nat := 16
def REC_OFFS_HEADER_SIZE : Nat := 4
def ULINT_UNDEFINED : Nat := 0xFFFFFFFF
def REC_OFFS_COMPACT : Nat := 1 <<< 31
def REC_OFFS_SQL_NULL : Nat := 1 <<< 31
def REC_OFFS_EXTERNAL : Nat := 1 <<< 30
def REC_OFFS_MASK : Nat := REC_OFFS_EXTERNAL - 1
def BTR_KEEP_SYS_FLAG : Nat := 4

/-- The infimum and supremum records of an empty compact page, as `page_create_low`
copies them to `PAGE_DATA`. -/
def infimum_supremum_compact : List UInt8 :=
  [0x01, 0x00, 0x02, 0x00, 0x0d, 0x69, 0x6e, 0x66, 0x69, 0x6d, 0x75, 0x6d, 0x00,
   0x01, 0x00, 0x0b, 0x00, 0x00, 0x73, 0x75, 0x70, 0x72, 0x65, 0x6d, 0x75, 0x6d]

/-! ### Redo record types -/

/-- The enumerators of `enum LOG_TYPE`. `MLOG_BIGGEST_TYPE` is a second name for
`MLOG_INDEX_LOAD` and is `LogType.MLOG_BIGGEST_TYPE` below. -/
inductive LogType where
  | MLOG_SINGLE_REC_FLAG | MLOG_1BYTE | MLOG_2BYTES | MLOG_4BYTES | MLOG_8BYTES
  | MLOG_REC_INSERT | MLOG_REC_CLUST_DELETE_MARK | MLOG_REC_SEC_DELETE_MARK
  | MLOG_REC_UPDATE_IN_PLACE | MLOG_REC_DELETE | MLOG_LIST_END_DELETE
  | MLOG_LIST_START_DELETE | MLOG_LIST_END_COPY_CREATED | MLOG_PAGE_REORGANIZE
  | MLOG_PAGE_CREATE | MLOG_UNDO_INSERT | MLOG_UNDO_ERASE_END | MLOG_UNDO_INIT
  | MLOG_UNDO_HDR_DISCARD | MLOG_UNDO_HDR_REUSE | MLOG_UNDO_HDR_CREATE | MLOG_REC_MIN_MARK
  | MLOG_IBUF_BITMAP_INIT | MLOG_INIT_FILE_PAGE | MLOG_WRITE_STRING | MLOG_MULTI_REC_END
  | MLOG_DUMMY_RECORD | MLOG_FILE_CREATE | MLOG_FILE_RENAME | MLOG_FILE_DELETE
  | MLOG_COMP_REC_MIN_MARK | MLOG_COMP_PAGE_CREATE | MLOG_COMP_REC_INSERT
  | MLOG_COMP_REC_CLUST_DELETE_MARK | MLOG_COMP_REC_SEC_DELETE_MARK
  | MLOG_COMP_REC_UPDATE_IN_PLACE | MLOG_COMP_REC_DELETE | MLOG_COMP_LIST_END_DELETE
  | MLOG_COMP_LIST_START_DELETE | MLOG_COMP_LIST_END_COPY_CREATED | MLOG_COMP_PAGE_REORGANIZE
  | MLOG_FILE_CREATE2 | MLOG_ZIP_WRITE_NODE_PTR | MLOG_ZIP_WRITE_BLOB_PTR
  | MLOG_ZIP_WRITE_HEADER | MLOG_ZIP_PAGE_COMPRESS | MLOG_ZIP_PAGE_COMPRESS_NO_DATA
  | MLOG_ZIP_PAGE_REORGANIZE | MLOG_FILE_RENAME2 | MLOG_FILE_NAME | MLOG_CHECKPOINT
  | MLOG_PAGE_CREATE_RTREE | MLOG_COMP_PAGE_CREATE_RTREE | MLOG_INIT_FILE_PAGE2
  | MLOG_TRUNCATE | MLOG_INDEX_LOAD
  deriving DecidableEq, Repr

namespace LogType

/-- The value of each enumerator. -/
def toNat : LogType → Nat
  | MLOG_SINGLE_REC_FLAG => 128 | MLOG_1BYTE => 1 | MLOG_2BYTES => 2 | MLOG_4BYTES => 4
  | MLOG_8BYTES => 8 | MLOG_REC_INSERT => 9 | MLOG_REC_CLUST_DELETE_MARK => 10
  | MLOG_REC_SEC_DELETE_MARK => 11 | MLOG_REC_UPDATE_IN_PLACE => 13 | MLOG_REC_DELETE => 14
  | MLOG_LIST_END_DELETE => 15 | MLOG_LIST_START_DELETE => 16
  | MLOG_LIST_END_COPY_CREATED => 17 | MLOG_PAGE_REORGANIZE => 18 | MLOG_PAGE_CREATE => 19
  | MLOG_UNDO_INSERT => 20 | MLOG_UNDO_ERASE_END => 21 | MLOG_UNDO_INIT => 22
  | MLOG_UNDO_HDR_DISCARD => 23 | MLOG_UNDO_HDR_REUSE => 24 | MLOG_UNDO_HDR_CREATE => 25
  | MLOG_REC_MIN_MARK => 26 | MLOG_IBUF_BITMAP_INIT => 27 | MLOG_INIT_FILE_PAGE => 29
  | MLOG_WRITE_STRING => 30 | MLOG_MULTI_REC_END => 31 | MLOG_DUMMY_RECORD => 32
  | MLOG_FILE_CREATE => 33 | MLOG_FILE_RENAME => 34 | MLOG_FILE_DELETE => 35
  | MLOG_COMP_REC_MIN_MARK => 36 | MLOG_COMP_PAGE_CREATE => 37 | MLOG_COMP_REC_INSERT => 38
  | MLOG_COMP_REC_CLUST_DELETE_MARK => 39 | MLOG_COMP_REC_SEC_DELETE_MARK => 40
  | MLOG_COMP_REC_UPDATE_IN_PLACE => 41 | MLOG_COMP_REC_DELETE => 42
  | MLOG_COMP_LIST_END_DELETE => 43 | MLOG_COMP_LIST_START_DELETE => 44
  | MLOG_COMP_LIST_END_COPY_CREATED => 45 | MLOG_COMP_PAGE_REORGANIZE => 46
  | MLOG_FILE_CREATE2 => 47 | MLOG_ZIP_WRITE_NODE_PTR => 48 | MLOG_ZIP_WRITE_BLOB_PTR => 49
  | MLOG_ZIP_WRITE_HEADER => 50 | MLOG_ZIP_PAGE_COMPRESS => 51
  | MLOG_ZIP_PAGE_COMPRESS_NO_DATA => 52 | MLOG_ZIP_PAGE_REORGANIZE => 53
  | MLOG_FILE_RENAME2 => 54 | MLOG_FILE_NAME => 55 | MLOG_CHECKPOINT => 56
  | MLOG_PAGE_CREATE_RTREE => 57 | MLOG_COMP_PAGE_CREATE_RTREE => 58
  | MLOG_INIT_FILE_PAGE2 => 59 | MLOG_TRUNCATE => 60 | MLOG_INDEX_LOAD => 61

/-- All enumerators, in the order of `log_type.h`. -/
def all : List LogType :=
  [MLOG_SINGLE_REC_FLAG, MLOG_1BYTE, MLOG_2BYTES, MLOG_4BYTES, MLOG_8BYTES, MLOG_REC_INSERT,
   MLOG_REC_CLUST_DELETE_MARK, MLOG_REC_SEC_DELETE_MARK, MLOG_REC_UPDATE_IN_PLACE,
   MLOG_REC_DELETE, MLOG_LIST_END_DELETE, MLOG_LIST_START_DELETE, MLOG_LIST_END_COPY_CREATED,
   MLOG_PAGE_REORGANIZE, MLOG_PAGE_CREATE, MLOG_UNDO_INSERT, MLOG_UNDO_ERASE_END,
   MLOG_UNDO_INIT, MLOG_UNDO_HDR_DISCARD, MLOG_UNDO_HDR_REUSE, MLOG_UNDO_HDR_CREATE,
   MLOG_REC_MIN_MARK, MLOG_IBUF_BITMAP_INIT, MLOG_INIT_FILE_PAGE, MLOG_WRITE_STRING,
   MLOG_MULTI_REC_END, MLOG_DUMMY_RECORD, MLOG_FILE_CREATE, MLOG_FILE_RENAME,
   MLOG_FILE_DELETE, MLOG_COMP_REC_MIN_MARK, MLOG_COMP_PAGE_CREATE, MLOG_COMP_REC_INSERT,
   MLOG_COMP_REC_CLUST_DELETE_MARK, MLOG_COMP_REC_SEC_DELETE_MARK,
   MLOG_COMP_REC_UPDATE_IN_PLACE, MLOG_COMP_REC_DELETE, MLOG_COMP_LIST_END_DELETE,
   MLOG_COMP_LIST_START_DELETE, MLOG_COMP_LIST_END_COPY_CREATED, MLOG_COMP_PAGE_REORGANIZE,
   MLOG_FILE_CREATE2, MLOG_ZIP_WRITE_NODE_PTR, MLOG_ZIP_WRITE_BLOB_PTR,
   MLOG_ZIP_WRITE_HEADER, MLOG_ZIP_PAGE_COMPRESS, MLOG_ZIP_PAGE_COMPRESS_NO_DATA,
   MLOG_ZIP_PAGE_REORGANIZE, MLOG_FILE_RENAME2, MLOG_FILE_NAME, MLOG_CHECKPOINT,
   MLOG_PAGE_CREATE_RTREE, MLOG_COMP_PAGE_CREATE_RTREE, MLOG_INIT_FILE_PAGE2, MLOG_TRUNCATE,
   MLOG_INDEX_LOAD]

/-- `static_cast<LOG_TYPE>(v)`, for the values that name an enumerator. -/
def ofNat? (v : Nat) : Option LogType := all.find? (·.toNat == v)

def MLOG_BIGGEST_TYPE : LogType := MLOG_INDEX_LOAD

end LogType

/-- `PageAddress`: a tablespace id and a page number. -/
structure PageAddress where
  spaceId : Nat
  pageId : Nat
  deriving DecidableEq, Repr

/-- `LogEntry`: one parsed redo record. `logLen` is the length of the whole record,
header included; `body` is the copy of the record body the constructor makes. -/
structure LogEntry where
  type : LogType
  spaceId : Nat
  pageId : Nat
  logStartLsn : Nat
  logLen : Nat
  body : List UInt8
  deriving DecidableEq, Repr

/-- The page a log entry is for. -/
def LogEntry.address (e : LogEntry) : PageAddress := ⟨e.spaceId, e.pageId⟩

end LogDB
