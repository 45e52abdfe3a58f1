import LogDB.Applier.Config
import LogDB.Lib.Bytes

/-!
A frame of the buffer pool (`class Page` in `buffer_pool.h`): the bytes of one
16 KB data page and the flags the pool and the applier read. The page LSN lives
at `FIL_PAGE_LSN` and, a second time, in the trailer; the checksum at offset 0
and at the start of the trailer.

The bytes are a total map; only the offsets below `DATA_PAGE_SIZE` belong to
the page. The frame's `std::mutex` is the `locked` flag: the calls of the
model are made by one thread, and locking a mutex that thread already holds
never returns.
-/

namespace LogDB

open LogDB.Lib

inductive PageState where
  | INVALID
  | FROM_BUFFER
  | FROM_DISK
  deriving DecidableEq, Repr

structure Page where
  data : Nat → UInt8
  dirty : Bool
  locked : Bool
  state : PageState

namespace Page

/-- `mach_read_from_n(data_ + off)`. -/
def read (page : Page) (off n : Nat) : Nat := readBE page.data off n

/-- `GetLSN`. -/
def getLSN (page : Page) : Nat := page.read FIL_PAGE_LSN 8

/-- `WritePageLSN`: the header copy and the 8 bytes at the end of the page. -/
def writePageLSN (page : Page) (lsn : Nat) : Page :=
  { page with
    data := writeBE (writeBE page.data FIL_PAGE_LSN 8 lsn)
      (DATA_PAGE_SIZE - FIL_PAGE_END_LSN_OLD_CHKSUM) 8 lsn
    dirty := true }

/-- `WriteCheckSum`: the 4 bytes at offset 0 and the first 4 of the trailer. -/
def writeCheckSum (page : Page) (checksum : Nat) : Page :=
  { page with
    data := writeBE (writeBE page.data FIL_PAGE_SPACE_OR_CHKSUM 4 checksum)
      (DATA_PAGE_SIZE - FIL_PAGE_END_LSN_OLD_CHKSUM) 4 checksum
    dirty := true }

/-- `Reset`: all bytes zero, state `INVALID`; the dirty flag is kept. -/
def reset (page : Page) : Page := { page with data := fun _ => 0, state := .INVALID }

@[simp] theorem getLSN_writePageLSN (page : Page) (lsn : Nat) :
    (page.writePageLSN lsn).getLSN = lsn % 2 ^ 64 := by
  simp only [getLSN, read, writePageLSN]
  rw [readBE_writeBE_other (by simp [FIL_PAGE_LSN, DATA_PAGE_SIZE, FIL_PAGE_END_LSN_OLD_CHKSUM]),
    readBE_writeBE_self]
  rfl

@[simp] theorem getLSN_writeCheckSum (page : Page) (checksum : Nat) :
    (page.writeCheckSum checksum).getLSN = page.getLSN := by
  simp only [getLSN, read, writeCheckSum]
  rw [readBE_writeBE_other (by simp [FIL_PAGE_LSN, DATA_PAGE_SIZE, FIL_PAGE_END_LSN_OLD_CHKSUM]),
    readBE_writeBE_other (by simp [FIL_PAGE_LSN, FIL_PAGE_SPACE_OR_CHKSUM])]

end Page

end LogDB
