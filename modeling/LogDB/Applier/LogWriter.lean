import Mathlib.Tactic.Linarith
import Mathlib.Tactic.Ring
import Mathlib.Data.List.GetD
import LogDB.Applier.Utility
import LogDB.Lib.Run

/-!
The log group of `log_log.h` and its writer: `init_applier_module` sizes the log buffer,
`copy_log_to_buf` strips the block headers and trailers of every redo write MySQL sends
to an `ib_logfile` and appends the payload to the ring `log_buf`, and
`log_group_off_to_log_buf_off` maps an offset in the log files to one in the ring.

`log_buf_size` and `log_buf_size_per_file` are `uint32_t` fields: their values are taken
modulo `2 ^ 32`. The other counters are `size_t` and stay far below `2 ^ 64`.
-/

namespace LogDB

open LogDB.Lib

/-- `copy_buf_size`: `8 << 10 << 10`. -/
def copyBufSize : Nat := 8 * 1024 * 1024

/-- The fields of `log_group_t` the writer, the parser and the apply scheduler share. -/
structure LogGroup where
  perFileSize : Nat
  logBufSizePerFile : Nat
  logBufSize : Nat
  logBuf : Nat → UInt8
  parsedOffset : Nat
  writtenOffset : Nat
  writtenCapacity : Nat
  needToParse : Nat
  writtenIsn : Nat
  parsedIsn : Nat
  appliedIsn : Nat

namespace LogGroup

def logGroupOffToLogBufOff (g : LogGroup) (logGroupOff : Nat) : Option Nat :=
  let nFile := logGroupOff / g.perFileSize
  let offInFile := logGroupOff % g.perFileSize
  let nBlock := offInFile / LOG_BLOCK_SIZE
  let offInBlock := offInFile % LOG_BLOCK_SIZE
  -- neither in a metadata block nor in a block's header or trailer
  if nBlock < N_LOG_METADATA_BLOCKS then none
  else if offInBlock < LOG_BLOCK_HDR_SIZE then none
  else if LOG_BLOCK_SIZE - LOG_BLOCK_TRL_SIZE ≤ offInBlock then none
  else some (g.logBufSizePerFile * nFile +
    (nBlock - N_LOG_METADATA_BLOCKS) * (LOG_BLOCK_SIZE - LOG_BLOCK_HDR_SIZE - LOG_BLOCK_TRL_SIZE) +
    (offInBlock - LOG_BLOCK_HDR_SIZE))

/-- The payload length of a block from its `LOG_BLOCK_HDR_DATA_LEN` field, after the two
asserts both loops of `copy_log_to_buf` make on it. -/
def blockDataLen (dataLen : Nat) : Option Nat :=
  if dataLen < LOG_BLOCK_HDR_SIZE then none
  else if ¬(dataLen = 512 ∨ dataLen < LOG_BLOCK_SIZE - LOG_BLOCK_TRL_SIZE) then none
  else some (if dataLen = LOG_BLOCK_SIZE then dataLen - LOG_BLOCK_HDR_SIZE - LOG_BLOCK_TRL_SIZE
    else dataLen - LOG_BLOCK_HDR_SIZE)

/-- The first loop of `copy_log_to_buf`: the payload bytes of the blocks from `base` on
that lie past `written_offset`. It stops at a block whose length field is zero and after
the first block that is not full. -/
def actualLen (g : LogGroup) (buf : List UInt8) : Nat → Nat → Nat → Nat → Option Nat
  | 0, _, _, acc => some acc
  | n + 1, base, logGroupOffset, acc =>
      let dataLen := machReadFrom buf (base + LOG_BLOCK_HDR_DATA_LEN) 2
      if dataLen = 0 then some acc else do
      let dataLen ← blockDataLen dataLen
      let start ← g.logGroupOffToLogBufOff (logGroupOffset + LOG_BLOCK_HDR_SIZE)
      let stop := start + dataLen
      let acc := if stop > g.writtenOffset then acc + (stop - max g.writtenOffset start) else acc
      if dataLen ≠ LOG_BLOCK_SIZE - LOG_BLOCK_HDR_SIZE - LOG_BLOCK_TRL_SIZE then some acc
      else g.actualLen buf n (base + LOG_BLOCK_SIZE) (logGroupOffset + LOG_BLOCK_SIZE) acc

/-- The second loop of `copy_log_to_buf`: copy the new payload bytes to `log_buf` at
`written_offset`. Unlike the first loop it has no test for a zero length field. -/
def copyBlocks (buf : List UInt8) : Nat → Nat → Nat → LogGroup → Option LogGroup
  | 0, _, _, g => some g
  | n + 1, base, logGroupOffset, g => do
      let dataLen ← blockDataLen (machReadFrom buf (base + LOG_BLOCK_HDR_DATA_LEN) 2)
      let start ← g.logGroupOffToLogBufOff (logGroupOffset + LOG_BLOCK_HDR_SIZE)
      let stop := start + dataLen
      let g ← if stop > g.writtenOffset then
          -- assert: the log is written block after block, with no hole
          if start ≤ g.writtenOffset then
            let len := stop - max g.writtenOffset start
            let src := base + LOG_BLOCK_HDR_SIZE + dataLen - len
            some { g with
              logBuf := writeBytes g.logBuf g.writtenOffset ((buf.drop src).take len)
              writtenOffset := (g.writtenOffset + len) % g.logBufSize }
          else none
        else some g
      if dataLen ≠ LOG_BLOCK_SIZE - LOG_BLOCK_HDR_SIZE - LOG_BLOCK_TRL_SIZE then some g
      else copyBlocks buf n (base + LOG_BLOCK_SIZE) (logGroupOffset + LOG_BLOCK_SIZE) g

/-- Gather the iovecs into `copy_buf`; one write holds at most `copy_buf_size` bytes. -/
def gather (iov : List (List UInt8)) : Option (List UInt8) :=
  iov.foldlM (fun buf v => if buf.length + v.length ≤ copyBufSize then some (buf ++ v) else none) []

def copyLogToBuf (g : LogGroup) (logFileIndex offset : Nat) (iov : List (List UInt8)) :
    Option LogGroup := do
  if offset % LOG_BLOCK_SIZE ≠ 0 then none else
  let buf ← gather iov
  if buf.length % LOG_BLOCK_SIZE ≠ 0 then none else
  -- a write from the start of a file skips the metadata blocks
  let (base, offset, totalLen) :=
    if offset = 0 ∧ buf.length > N_LOG_METADATA_BLOCK_BYTES then
      (N_LOG_METADATA_BLOCK_BYTES, offset + N_LOG_METADATA_BLOCK_BYTES,
        buf.length - N_LOG_METADATA_BLOCK_BYTES)
    else (0, offset, buf.length)
  let blocks := totalLen / LOG_BLOCK_SIZE
  let logGroupOffset := logFileIndex * g.perFileSize + offset
  let actualLen ← g.actualLen buf blocks base logGroupOffset 0
  if actualLen = 0 then some g else
  if g.writtenOffset + actualLen > g.logBufSize then none else
  -- wait until the applier has freed enough of the buffer
  if g.writtenCapacity < actualLen then none else
  let g ← copyBlocks buf blocks base logGroupOffset g
  some { g with
    writtenCapacity := g.writtenCapacity - actualLen
    needToParse := g.needToParse + actualLen
    writtenIsn := g.writtenIsn + actualLen }

end LogGroup

/-- `init_applier_module` for log files of `perFileSize` bytes, given the offset
`find_max_checkpoint` reads from the metadata blocks and the data length of the block that
offset falls in. A `LogFatal` stops the server. -/
def initApplierModule (perFileSize checkpointOffset dataLen : Nat) : Option LogGroup :=
  if perFileSize = 0 ∨ perFileSize % APPLY_BATCH_SIZE ≠ 0 then none else
  let logDataPerBlock := LOG_BLOCK_SIZE - LOG_BLOCK_HDR_SIZE - LOG_BLOCK_TRL_SIZE
  let logBlocks := perFileSize / LOG_BLOCK_SIZE - N_LOG_METADATA_BLOCKS
  let logBufSizePerFile := logDataPerBlock * logBlocks % 4294967296
  let g : LogGroup :=
    { perFileSize := perFileSize
      logBufSizePerFile := logBufSizePerFile
      logBufSize := logBufSizePerFile * LOG_FILE_NUMBER % 4294967296
      logBuf := fun _ => 0
      parsedOffset := 0
      writtenOffset := 0
      writtenCapacity := 0
      needToParse := 0
      writtenIsn := 0
      parsedIsn := 0
      appliedIsn := 0 }
  -- log left in the files that was never recovered
  if checkpointOffset % perFileSize % LOG_BLOCK_SIZE ≠ dataLen then none else do
  let off ← g.logGroupOffToLogBufOff checkpointOffset
  some { g with
    writtenOffset := off
    parsedOffset := off
    writtenCapacity := LOG_FILE_NUMBER * perFileSize }

/-- What the writer, the parser and the apply scheduler do to the log group. -/
inductive LogAction where
  | copyLogToBuf (logFileIndex offset : Nat) (iov : List (List UInt8))
  /-- the parser has consumed one record of `len` bytes -/
  | parseRecord (len : Nat)
  /-- an apply round has credited `n` bytes -/
  | credit (n : Nat)

namespace LogGroup

def step (g : LogGroup) : LogAction → Option LogGroup
  | .copyLogToBuf i offset iov => g.copyLogToBuf i offset iov
  | .parseRecord len =>
      if 0 < len ∧ len ≤ g.needToParse then
        some { g with
          parsedIsn := g.parsedIsn + len
          parsedOffset := (g.parsedOffset + len) % g.logBufSize
          needToParse := g.needToParse - len }
      else none
  | .credit n =>
      some { g with appliedIsn := g.appliedIsn + n, writtenCapacity := g.writtenCapacity + n }

/-! ### The counters of the log -/

/-- The counters a copy into the ring leaves alone. -/
def Counters (g : LogGroup) : Nat × Nat × Nat := (g.parsedIsn, g.needToParse, g.writtenIsn)

theorem copyBlocks_counters {buf : List UInt8} {n base off : Nat} {g g' : LogGroup}
    (h : copyBlocks buf n base off g = some g') : g'.Counters = g.Counters := by
  induction n generalizing base off g with
  | zero =>
      cases h
      rfl
  | succ n ih =>
      simp only [copyBlocks, Option.bind_eq_bind, Option.bind_eq_some_iff] at h
      obtain ⟨dataLen, -, start, -, h⟩ := h
      have hrest : ∀ g₁ : LogGroup,
          (if dataLen ≠ LOG_BLOCK_SIZE - LOG_BLOCK_HDR_SIZE - LOG_BLOCK_TRL_SIZE then some g₁
            else copyBlocks buf n (base + LOG_BLOCK_SIZE) (off + LOG_BLOCK_SIZE) g₁) = some g' →
          g₁.Counters = g.Counters → g'.Counters = g.Counters := by
        intro g₁ h h₁
        split at h
        · cases h
          exact h₁
        · exact (ih h).trans h₁
      split at h
      · split at h
        · rw [Option.bind_some] at h
          exact hrest _ h rfl
        · cases h
      · rw [Option.bind_some] at h
        exact hrest _ h rfl

theorem copyLogToBuf_counters {g g' : LogGroup} {i offset : Nat} {iov : List (List UInt8)}
    (h : g.copyLogToBuf i offset iov = some g') :
    ∃ len, g'.parsedIsn = g.parsedIsn ∧ g'.needToParse = g.needToParse + len ∧
      g'.writtenIsn = g.writtenIsn + len := by
  simp only [copyLogToBuf, Option.bind_eq_bind] at h
  split at h
  · cases h
  · simp only [Option.bind_eq_some_iff] at h
    obtain ⟨buf, -, h⟩ := h
    split at h
    · cases h
    · generalize (if offset = 0 ∧ buf.length > N_LOG_METADATA_BLOCK_BYTES then _ else _) = layout
        at h
      simp only [Option.bind_eq_some_iff] at h
      obtain ⟨actualLen, -, h⟩ := h
      split at h
      · cases h
        exact ⟨0, rfl, rfl, rfl⟩
      split at h
      · cases h
      split at h
      · cases h
      rw [Option.bind_eq_some_iff] at h
      obtain ⟨g₁, hg₁, h⟩ := h
      cases h
      have hc := copyBlocks_counters hg₁
      simp only [Counters, Prod.mk.injEq] at hc
      exact ⟨actualLen, hc.1, congrArg (· + actualLen) hc.2.1, congrArg (· + actualLen) hc.2.2⟩

theorem initApplierModule_counters {perFileSize checkpointOffset dataLen : Nat} {g : LogGroup}
    (h : initApplierModule perFileSize checkpointOffset dataLen = some g) :
    g.Counters = (0, 0, 0) := by
  unfold initApplierModule at h
  split at h
  · cases h
  split at h
  · cases h
  simp only [Option.bind_eq_bind, Option.bind_eq_some_iff] at h
  obtain ⟨off, -, h⟩ := h
  cases h
  rfl

theorem step_parseRecord {g g' : LogGroup} {len : Nat} (h : g.step (.parseRecord len) = some g') :
    0 < len ∧ len ≤ g.needToParse ∧
      g' = { g with
        parsedIsn := g.parsedIsn + len
        parsedOffset := (g.parsedOffset + len) % g.logBufSize
        needToParse := g.needToParse - len } := by
  simp only [step] at h
  split at h
  · rename_i hlen
    cases h
    exact ⟨hlen.1, hlen.2, rfl⟩
  · cases h

/-- `need_to_parse` is what the writer has added to `written_isn` and the parser has not
moved to `parsed_isn` yet. -/
theorem step_isn {g g' : LogGroup} {a : LogAction} (h : g.step a = some g')
    (hg : g.parsedIsn + g.needToParse = g.writtenIsn) :
    g'.parsedIsn + g'.needToParse = g'.writtenIsn := by
  cases a with
  | copyLogToBuf i offset iov =>
      obtain ⟨len, hp, hn, hw⟩ := copyLogToBuf_counters h
      rw [hp, hn, hw]
      omega
  | parseRecord len =>
      obtain ⟨-, hle, rfl⟩ := step_parseRecord h
      simp only
      omega
  | credit n =>
      cases h
      exact hg

theorem reachable_isn {g₀ g : LogGroup} (h₀ : g₀.parsedIsn + g₀.needToParse = g₀.writtenIsn)
    (h : Reachable step g₀ g) : g.parsedIsn + g.needToParse = g.writtenIsn :=
  reachable_induction (P := fun g : LogGroup => g.parsedIsn + g.needToParse = g.writtenIsn) h₀
    (fun _ _ _ hs ht => step_isn ht hs) h

/-- The log group after the writer has appended `len` payload bytes to the ring, which
then holds `m`. -/
def append (g : LogGroup) (m : Nat → UInt8) (len : Nat) : LogGroup :=
  { g with
    logBuf := m
    writtenOffset := (g.writtenOffset + len) % g.logBufSize
    writtenCapacity := g.writtenCapacity - len
    needToParse := g.needToParse + len
    writtenIsn := g.writtenIsn + len }

section Append

variable (g : LogGroup) (m : Nat → UInt8) (len : Nat)

@[simp] theorem perFileSize_append : (g.append m len).perFileSize = g.perFileSize := rfl
@[simp] theorem logBufSizePerFile_append :
    (g.append m len).logBufSizePerFile = g.logBufSizePerFile := rfl
@[simp] theorem logBufSize_append : (g.append m len).logBufSize = g.logBufSize := rfl
@[simp] theorem writtenOffset_append :
    (g.append m len).writtenOffset = (g.writtenOffset + len) % g.logBufSize := rfl
@[simp] theorem writtenCapacity_append :
    (g.append m len).writtenCapacity = g.writtenCapacity - len := rfl
@[simp] theorem writtenIsn_append : (g.append m len).writtenIsn = g.writtenIsn + len := rfl
@[simp] theorem parsedIsn_append : (g.append m len).parsedIsn = g.parsedIsn := rfl

theorem append_append (m' : Nat → UInt8) (len' : Nat) :
    (g.append m len).append m' len' = g.append m' (len + len') := by
  simp only [append, Nat.mod_add_mod, Nat.add_assoc, Nat.sub_sub]

end Append

/-! ### Writes of full blocks -/

/-- The `k` blocks of `buf` from `base` on say they are full: their
`LOG_BLOCK_HDR_DATA_LEN` field is `LOG_BLOCK_SIZE`. -/
def FullBlocks (buf : List UInt8) (base k : Nat) : Prop :=
  ∀ i < k, machReadFrom buf (base + 512 * i + 4) 2 = 512

theorem FullBlocks.head {buf : List UInt8} {base k : Nat} (h : FullBlocks buf base (k + 1)) :
    machReadFrom buf (base + 4) 2 = 512 := by
  simpa using h 0 (by omega)

theorem FullBlocks.tail {buf : List UInt8} {base k : Nat} (h : FullBlocks buf base (k + 1)) :
    FullBlocks buf (base + 512) k := by
  intro i hi
  have := h (i + 1) (by omega)
  rwa [show base + 512 * (i + 1) + 4 = base + 512 + 512 * i + 4 by omega] at this

theorem blockDataLen_full : blockDataLen 512 = some 496 := by
  simp [blockDataLen, LOG_BLOCK_SIZE, LOG_BLOCK_HDR_SIZE, LOG_BLOCK_TRL_SIZE]

variable {g : LogGroup}

/-- The ring offset of the first payload byte of data block `b` of file `n`: block
`b + N_LOG_METADATA_BLOCKS` of the file. -/
theorem logGroupOffToLogBufOff_block {n b : Nat} (hF : 512 * (b + 5) ≤ g.perFileSize) :
    g.logGroupOffToLogBufOff (n * g.perFileSize + 512 * (b + 4) + 12) =
      some (g.logBufSizePerFile * n + 496 * b) := by
  have hpos : 0 < g.perFileSize := by linarith
  have hr : 512 * (b + 4) + 12 < g.perFileSize := by linarith
  have hdiv : (n * g.perFileSize + 512 * (b + 4) + 12) / g.perFileSize = n := by
    rw [Nat.add_assoc, Nat.mul_comm, Nat.mul_add_div hpos, Nat.div_eq_of_lt hr, Nat.add_zero]
  have hmod : (n * g.perFileSize + 512 * (b + 4) + 12) % g.perFileSize = 512 * (b + 4) + 12 := by
    rw [Nat.add_assoc, Nat.mul_comm, Nat.mul_add_mod, Nat.mod_eq_of_lt hr]
  have hb : (512 * (b + 4) + 12) / 512 = b + 4 := by
    rw [Nat.add_comm, Nat.add_mul_div_left _ _ (by decide)]
    simp
  have ho : (512 * (b + 4) + 12) % 512 = 12 := by
    rw [Nat.add_comm, Nat.add_mul_mod_self_left]
  simp only [logGroupOffToLogBufOff, hdiv, hmod, LOG_BLOCK_SIZE, N_LOG_METADATA_BLOCKS,
    LOG_BLOCK_HDR_SIZE, LOG_BLOCK_TRL_SIZE, hb, ho]
  rw [if_neg (by omega), if_neg (by omega), if_neg (by omega)]
  simp [Nat.mul_comm]

theorem actualLen_succ_full {buf : List UInt8} {k base off acc start : Nat}
    (hhead : machReadFrom buf (base + 4) 2 = 512)
    (hoff : g.logGroupOffToLogBufOff (off + 12) = some start) :
    g.actualLen buf (k + 1) base off acc =
      g.actualLen buf k (base + 512) (off + 512)
        (if start + 496 > g.writtenOffset then acc + (start + 496 - max g.writtenOffset start)
          else acc) := by
  simp [actualLen, LOG_BLOCK_HDR_DATA_LEN, hhead, hoff, blockDataLen_full, LOG_BLOCK_SIZE,
    LOG_BLOCK_HDR_SIZE, LOG_BLOCK_TRL_SIZE]

theorem actualLen_full {buf : List UInt8} {n b k base acc : Nat} (hfull : FullBlocks buf base k)
    (hF : 512 * (b + k + 4) ≤ g.perFileSize)
    (hw : g.writtenOffset ≤ g.logBufSizePerFile * n + 496 * b) :
    g.actualLen buf k base (n * g.perFileSize + 512 * (b + 4)) acc = some (acc + 496 * k) := by
  induction k generalizing b base acc with
  | zero => simp [actualLen]
  | succ k ih =>
      have hoff := logGroupOffToLogBufOff_block (g := g) (n := n) (b := b) (by linarith)
      have hlt : g.writtenOffset < g.logBufSizePerFile * n + 496 * b + 496 := by linarith
      rw [actualLen_succ_full hfull.head hoff, if_pos hlt, Nat.max_def, if_pos hw,
        Nat.add_sub_cancel_left, Nat.add_assoc, show 512 * (b + 4) + 512 = 512 * (b + 1 + 4) by ring,
        ih hfull.tail (by linarith) (by linarith)]
      congr 1
      ring

theorem copyBlocks_succ_full {buf : List UInt8} {k base off : Nat}
    (hhead : machReadFrom buf (base + 4) 2 = 512)
    (hoff : g.logGroupOffToLogBufOff (off + 12) = some g.writtenOffset) :
    copyBlocks buf (k + 1) base off g =
      copyBlocks buf k (base + 512) (off + 512)
        { g with
          logBuf := writeBytes g.logBuf g.writtenOffset ((buf.drop (base + 12)).take 496)
          writtenOffset := (g.writtenOffset + 496) % g.logBufSize } := by
  simp only [copyBlocks, LOG_BLOCK_HDR_DATA_LEN, hhead, blockDataLen_full, LOG_BLOCK_HDR_SIZE, hoff,
    Option.bind_eq_bind, Option.bind_some, max_self, Nat.add_sub_cancel_left, Nat.add_sub_cancel,
    LOG_BLOCK_SIZE, LOG_BLOCK_TRL_SIZE]
  rw [if_pos (by omega), if_pos le_rfl, if_neg (by decide)]

theorem copyBlocks_full {buf : List UInt8} {n b k base : Nat} (hfull : FullBlocks buf base k)
    (hF : 512 * (b + k + 4) ≤ g.perFileSize)
    (hw : g.writtenOffset = g.logBufSizePerFile * n + 496 * b)
    (hsize : g.writtenOffset + 496 * k ≤ g.logBufSize) (hlt : g.writtenOffset < g.logBufSize) :
    ∃ m, copyBlocks buf k base (n * g.perFileSize + 512 * (b + 4)) g =
      some { g with logBuf := m, writtenOffset := (g.writtenOffset + 496 * k) % g.logBufSize } := by
  induction k generalizing b base g with
  | zero =>
      refine ⟨g.logBuf, ?_⟩
      simp [copyBlocks, Nat.mod_eq_of_lt hlt]
  | succ k ih =>
      have hoff := logGroupOffToLogBufOff_block (g := g) (n := n) (b := b) (by linarith)
      rw [← hw] at hoff
      rw [copyBlocks_succ_full hfull.head hoff, Nat.add_assoc,
        show 512 * (b + 4) + 512 = 512 * (b + 1 + 4) by ring]
      cases k with
      | zero => exact ⟨_, rfl⟩
      | succ k =>
          have hnext : (g.writtenOffset + 496) % g.logBufSize = g.writtenOffset + 496 :=
            Nat.mod_eq_of_lt (by linarith)
          obtain ⟨m, hm⟩ := ih hfull.tail (b := b + 1)
            (g := { g with
              logBuf := writeBytes g.logBuf g.writtenOffset ((buf.drop (base + 12)).take 496)
              writtenOffset := (g.writtenOffset + 496) % g.logBufSize })
            (by simp only; linarith) (by simp only; rw [hnext, hw]; ring)
            (by simp only [hnext]; linarith) (by simp only [hnext]; linarith)
          refine ⟨m, ?_⟩
          rw [hm]
          simp only [hnext, Option.some.injEq, LogGroup.mk.injEq, true_and, and_true]
          ring_nf

theorem gather_single {data : List UInt8} (h : data.length ≤ copyBufSize) :
    gather [data] = some data := by
  simp [gather, h]

/-- A write of `k` full blocks at the data block `b` of file `n`: the first loop counts
all their payload, and what is left is the check against the ring, the wait for capacity
and the copy. -/
theorem copyLogToBuf_full_eq {data : List UInt8} {n b k : Nat}
    (hlen : data.length = 512 * k) (hk : 0 < k) (hcopy : 512 * k ≤ copyBufSize)
    (hfull : FullBlocks data 0 k) (hF : 512 * (b + k + 4) ≤ g.perFileSize)
    (hw : g.writtenOffset ≤ g.logBufSizePerFile * n + 496 * b) :
    g.copyLogToBuf n (512 * (b + 4)) [data] =
      if g.logBufSize < g.writtenOffset + 496 * k then none
      else if g.writtenCapacity < 496 * k then none
      else (copyBlocks data k 0 (n * g.perFileSize + 512 * (b + 4)) g).bind fun g' => some
        { g' with
          writtenCapacity := g'.writtenCapacity - 496 * k
          needToParse := g'.needToParse + 496 * k
          writtenIsn := g'.writtenIsn + 496 * k } := by
  have h1 : 512 * (b + 4) % LOG_BLOCK_SIZE = 0 := Nat.mul_mod_right _ _
  have h2 : data.length % LOG_BLOCK_SIZE = 0 := by
    rw [hlen]
    exact Nat.mul_mod_right _ _
  have h3 : ¬(512 * (b + 4) = 0 ∧ data.length > N_LOG_METADATA_BLOCK_BYTES) := by
    rintro ⟨h, -⟩
    omega
  have h4 : data.length / LOG_BLOCK_SIZE = k := by
    rw [hlen]
    exact Nat.mul_div_cancel_left _ (by decide)
  have h5 : 496 * k ≠ 0 := by positivity
  unfold copyLogToBuf
  simp only [gather_single (hlen ▸ hcopy), h1, h2, h3, h4, ne_eq, not_true_eq_false, if_false,
    Option.bind_eq_bind, Option.bind_some, actualLen_full hfull hF hw, Nat.zero_add, h5,
    gt_iff_lt]

theorem copyLogToBuf_full {data : List UInt8} {n b k : Nat}
    (hlen : data.length = 512 * k) (hk : 0 < k) (hcopy : 512 * k ≤ copyBufSize)
    (hfull : FullBlocks data 0 k) (hF : 512 * (b + k + 4) ≤ g.perFileSize)
    (hw : g.writtenOffset = g.logBufSizePerFile * n + 496 * b)
    (hsize : g.writtenOffset + 496 * k ≤ g.logBufSize) (hlt : g.writtenOffset < g.logBufSize)
    (hcap : 496 * k ≤ g.writtenCapacity) :
    ∃ m, g.copyLogToBuf n (512 * (b + 4)) [data] = some (g.append m (496 * k)) := by
  obtain ⟨m, hm⟩ := copyBlocks_full hfull hF hw hsize hlt
  refine ⟨m, ?_⟩
  rw [copyLogToBuf_full_eq hlen hk hcopy hfull hF hw.le, if_neg (by omega), if_neg (by omega),
    hm]
  rfl

/-- A write of full blocks that would run past `log_buf_size` fails the assert. -/
theorem copyLogToBuf_full_overflow {data : List UInt8} {n b k : Nat}
    (hlen : data.length = 512 * k) (hk : 0 < k) (hcopy : 512 * k ≤ copyBufSize)
    (hfull : FullBlocks data 0 k) (hF : 512 * (b + k + 4) ≤ g.perFileSize)
    (hw : g.writtenOffset = g.logBufSizePerFile * n + 496 * b)
    (hover : g.logBufSize < g.writtenOffset + 496 * k) :
    g.copyLogToBuf n (512 * (b + 4)) [data] = none := by
  rw [copyLogToBuf_full_eq hlen hk hcopy hfull hF hw.le, if_pos hover]

/-! ### Runs of the writer over full blocks -/

/-- A log block MySQL has filled: its `LOG_BLOCK_HDR_DATA_LEN` field is 512. -/
def fullBlock : List UInt8 := [0, 0, 0, 0, 2, 0] ++ List.replicate 506 0

def fullBlocks (k : Nat) : List UInt8 := (List.replicate k fullBlock).flatten

theorem fullBlock_length : fullBlock.length = 512 := by
  simp only [fullBlock, List.length_append, List.length_cons, List.length_nil, List.length_replicate]

theorem fullBlocks_length (k : Nat) : (fullBlocks k).length = 512 * k := by
  induction k with
  | zero => rfl
  | succ k ih =>
      rw [fullBlocks, List.replicate_succ, List.flatten_cons, List.length_append, fullBlock_length,
        ← fullBlocks, ih]
      ring

theorem fullBlocks_getD {k i r : Nat} (hi : i < k) (hr : r < 512) :
    (fullBlocks k).getD (512 * i + r) 0 = fullBlock.getD r 0 := by
  induction k generalizing i with
  | zero => omega
  | succ k ih =>
      rw [fullBlocks, List.replicate_succ, List.flatten_cons]
      cases i with
      | zero =>
          rw [Nat.mul_zero, Nat.zero_add]
          exact List.getD_append _ _ _ _ (by rw [fullBlock_length]; omega)
      | succ i =>
          rw [List.getD_append_right _ _ _ _ (by rw [fullBlock_length]; omega), fullBlock_length,
            show 512 * (i + 1) + r - 512 = 512 * i + r by omega]
          exact ih (by omega)

theorem fullBlocks_full (k : Nat) : FullBlocks (fullBlocks k) 0 k := by
  intro i hi
  simp only [machReadFrom, readBE, Nat.zero_add]
  rw [fullBlocks_getD hi (by decide), show 512 * i + 4 + 1 = 512 * i + 5 by omega,
    fullBlocks_getD hi (by decide)]
  rfl

/-- Writes of `ks` full blocks each to file `n`, one after the other from data block `b`. -/
def fileWrites (n : Nat) : Nat → List Nat → List LogAction
  | _, [] => []
  | b, k :: ks => .copyLogToBuf n (512 * (b + 4)) [fullBlocks k] :: fileWrites n (b + k) ks

theorem foldlM_fileWrites {n b : Nat} (ks : List Nat)
    (hks : ∀ k ∈ ks, 0 < k ∧ 512 * k ≤ copyBufSize) (hF : 512 * (b + ks.sum + 4) ≤ g.perFileSize)
    (hw : g.writtenOffset = g.logBufSizePerFile * n + 496 * b)
    (hsize : g.writtenOffset + 496 * ks.sum ≤ g.logBufSize) (hlt : g.writtenOffset < g.logBufSize)
    (hcap : 496 * ks.sum ≤ g.writtenCapacity) :
    ∃ m, (fileWrites n b ks).foldlM step g = some (g.append m (496 * ks.sum)) := by
  induction ks generalizing b g with
  | nil =>
      refine ⟨g.logBuf, ?_⟩
      simp [fileWrites, append, Nat.mod_eq_of_lt hlt]
  | cons k ks ih =>
      obtain ⟨hk, hcopy⟩ := hks k (by simp)
      simp only [List.sum_cons] at hF hsize hcap
      -- the first write takes `k` of the run's blocks, ring bytes and capacity
      have hkF : 512 * (b + k + 4) ≤ g.perFileSize :=
        le_trans (Nat.mul_le_mul_left 512 (by omega)) hF
      have hkS : 496 * k ≤ 496 * (k + ks.sum) := Nat.mul_le_mul_left 496 (Nat.le_add_right k _)
      obtain ⟨m, hm⟩ := copyLogToBuf_full (fullBlocks_length k) hk hcopy (fullBlocks_full k) hkF hw
        (le_trans (Nat.add_le_add_left hkS _) hsize) hlt (le_trans hkS hcap)
      rw [fileWrites, List.foldlM_cons, step, hm]
      simp only [Option.bind_eq_bind, Option.bind_some]
      cases ks with
      | nil => exact ⟨m, by simp [fileWrites]⟩
      | cons k' ks =>
          -- the ring offset wraps at most at the end of the last write
          have hk' : 0 < k' := (hks k' (by simp)).1
          have hlt' : g.writtenOffset + 496 * k < g.logBufSize :=
            lt_of_lt_of_le (Nat.add_lt_add_left
              (Nat.mul_lt_mul_of_pos_left (by simp; omega) (by norm_num)) _) hsize
          have hnext := Nat.mod_eq_of_lt hlt'
          obtain ⟨m', hm'⟩ := ih (b := b + k) (g := g.append m (496 * k))
            (fun x hx => hks x (List.mem_cons_of_mem k hx))
            (by simpa only [perFileSize_append, Nat.add_assoc] using hF)
            (by simp only [writtenOffset_append, logBufSizePerFile_append]; rw [hnext, hw]; ring)
            (by simpa only [writtenOffset_append, logBufSize_append, hnext, Nat.mul_add,
                  Nat.add_assoc] using hsize)
            (by simpa only [writtenOffset_append, logBufSize_append, hnext] using hlt')
            (by simp only [writtenCapacity_append]; omega)
          refine ⟨m', ?_⟩
          rw [hm', append_append]
          simp only [List.sum_cons, Nat.mul_add]

end LogGroup

/-! ### Initialisation at a fresh log -/

/-- The log group `init_applier_module` sets up for log files of `F` bytes when the
checkpoint is at the start of the first data block, as after `mysqld --initialize`. -/
def LogGroup.fresh (F : Nat) : LogGroup where
  perFileSize := F
  logBufSizePerFile := 496 * (F / 512 - 4) % 4294967296
  logBufSize := 496 * (F / 512 - 4) % 4294967296 * 2 % 4294967296
  logBuf := fun _ => 0
  parsedOffset := 0
  writtenOffset := 0
  writtenCapacity := 2 * F
  needToParse := 0
  writtenIsn := 0
  parsedIsn := 0
  appliedIsn := 0

theorem initApplierModule_fresh {F : Nat} (hF : 512 * 5 ≤ F) (hbatch : F % APPLY_BATCH_SIZE = 0) :
    initApplierModule F 2060 12 = some (LogGroup.fresh F) := by
  have hF0 : ¬(F = 0 ∨ F % APPLY_BATCH_SIZE ≠ 0) := by
    rintro (h | h) <;> omega
  have hck : 2060 % F % LOG_BLOCK_SIZE = 12 := by
    rw [Nat.mod_eq_of_lt (show 2060 < F by omega)]
    rfl
  unfold initApplierModule
  rw [if_neg hF0, hck, if_neg (by decide)]
  have hoff := LogGroup.logGroupOffToLogBufOff_block
    (g := { LogGroup.fresh F with writtenCapacity := 0 }) (n := 0) (b := 0) hF
  simp only [Nat.zero_mul, Nat.mul_zero, Nat.zero_add, Nat.add_zero] at hoff
  simp only [LogGroup.fresh] at hoff ⊢
  simp only [LOG_BLOCK_SIZE, LOG_BLOCK_HDR_SIZE, LOG_BLOCK_TRL_SIZE, N_LOG_METADATA_BLOCKS,
    LOG_FILE_NUMBER, hoff, Option.bind_eq_bind, Option.bind_some]

/-- With log files of 8 MiB, `written_capacity` starts at the size of the files, 16 MiB,
while the ring holds their payload, 496 bytes of every data block. Before the parser runs,
the writer fills both files and starts on the first one again. -/
theorem writer_overruns_parse_window :
    ∃ g₀ g, initApplierModule 8388608 2060 12 = some g₀ ∧ Reachable LogGroup.step g₀ g ∧
      g.logBufSize < g.writtenIsn - g.parsedIsn := by
  -- the first file, the second, and the first again
  obtain ⟨m₁, h₁⟩ := LogGroup.foldlM_fileWrites (g := LogGroup.fresh 8388608) (n := 0) (b := 0)
    [16380] (by simp [copyBufSize]) (by simp [LogGroup.fresh]) (by simp [LogGroup.fresh])
    (by simp [LogGroup.fresh]) (by simp [LogGroup.fresh]) (by simp [LogGroup.fresh])
  obtain ⟨m₂, h₂⟩ := LogGroup.foldlM_fileWrites
    (g := (LogGroup.fresh 8388608).append m₁ (496 * [16380].sum)) (n := 1) (b := 0) [16380]
    (by simp [copyBufSize]) (by simp [LogGroup.fresh]) (by simp [LogGroup.fresh]) (by simp [LogGroup.fresh])
    (by simp [LogGroup.fresh]) (by simp [LogGroup.fresh])
  obtain ⟨m₃, h₃⟩ := LogGroup.foldlM_fileWrites
    (g := ((LogGroup.fresh 8388608).append m₁ (496 * [16380].sum)).append m₂ (496 * [16380].sum))
    (n := 0) (b := 0) [1065]
    (by simp [copyBufSize]) (by simp [LogGroup.fresh]) (by simp [LogGroup.fresh]) (by simp [LogGroup.fresh])
    (by simp [LogGroup.fresh])
    (by simp only [LogGroup.writtenCapacity_append, LogGroup.fresh]; norm_num)
  exact ⟨_, _, initApplierModule_fresh (by norm_num) (by simp [APPLY_BATCH_SIZE]),
    reachable_of_foldlM (reachable_of_foldlM (reachable_of_foldlM Reachable.refl h₁) h₂) h₃,
    by simp [LogGroup.fresh]⟩

/-- With the configured log file size `PER_LOG_FILE_SIZE`, the ring of both files holds
4892127360 bytes, but `log_buf_size` is a `uint32_t` and keeps 597160064 of them. Once that
much of the first file is written, the next full block, still in the first file, fails the
assert of `copy_log_to_buf`. -/
theorem copy_fails_past_truncated_ring :
    ∃ g₀ g, initApplierModule PER_LOG_FILE_SIZE 2060 12 = some g₀ ∧
      g₀.logBufSize < LOG_FILE_NUMBER * g₀.logBufSizePerFile ∧
      Reachable LogGroup.step g₀ g ∧ g.writtenIsn = 496 * 1203951 ∧
      512 * (1203951 + 5) ≤ g.perFileSize ∧
      g.copyLogToBuf 0 (512 * (1203951 + 4)) [LogGroup.fullBlocks 1] = none := by
  -- 73 writes of 8 MiB and one of the rest bring `written_offset` up to 597159696
  have hsum : (List.replicate 73 16384 ++ [7919]).sum = 1203951 := by decide
  obtain ⟨m, h⟩ := LogGroup.foldlM_fileWrites (g := LogGroup.fresh PER_LOG_FILE_SIZE) (n := 0)
    (b := 0) (List.replicate 73 16384 ++ [7919]) (by simp [copyBufSize])
    (by rw [hsum]; decide) (by decide) (by rw [hsum]; decide) (by decide) (by rw [hsum]; decide)
  rw [hsum] at h
  refine ⟨_, _, initApplierModule_fresh (by decide) (by decide), by decide,
    reachable_of_foldlM Reachable.refl h, by simp [LogGroup.fresh],
    by simp only [LogGroup.perFileSize_append, LogGroup.fresh]; decide, ?_⟩
  apply LogGroup.copyLogToBuf_full_overflow (LogGroup.fullBlocks_length 1) Nat.one_pos
    (by decide) (LogGroup.fullBlocks_full 1)
  · simp only [LogGroup.perFileSize_append, LogGroup.fresh]
    decide
  · simp only [LogGroup.writtenOffset_append, LogGroup.logBufSizePerFile_append, LogGroup.fresh]
    decide
  · simp only [LogGroup.writtenOffset_append, LogGroup.logBufSize_append, LogGroup.fresh]
    decide

namespace LogGroup

variable {g : LogGroup}

/-! ### Writes to the metadata blocks -/

/-- An offset in the first four blocks of a file maps to no ring offset: the assert of
`log_group_off_to_log_buf_off` on the metadata blocks. -/
theorem logGroupOffToLogBufOff_metadata {n x : Nat} (hx : x < N_LOG_METADATA_BLOCK_BYTES) :
    g.logGroupOffToLogBufOff (n * g.perFileSize + x) = none := by
  have hmod : (n * g.perFileSize + x) % g.perFileSize ≤ x := by
    rw [Nat.mul_comm, Nat.mul_add_mod]
    exact Nat.mod_le _ _
  have hb : (n * g.perFileSize + x) % g.perFileSize / LOG_BLOCK_SIZE < N_LOG_METADATA_BLOCKS := by
    simp only [N_LOG_METADATA_BLOCK_BYTES, N_LOG_METADATA_BLOCKS, LOG_BLOCK_SIZE] at hx ⊢
    omega
  simp only [logGroupOffToLogBufOff]
  rw [if_pos hb]

/-- A write that lies in the four metadata blocks of its file is ignored when the length
field of its first block is zero, and stops the writer at an assert otherwise: the first
loop takes that block for a data block, and either the field fails the asserts on a data
length or its offset fails the one on metadata blocks. -/
theorem copyLogToBuf_metadata {i o : Nat} {iov : List (List UInt8)} {buf : List UInt8}
    (ho : o % LOG_BLOCK_SIZE = 0) (hbuf : gather iov = some buf)
    (hlen : buf.length % LOG_BLOCK_SIZE = 0) (hpos : 0 < buf.length)
    (hin : o + buf.length ≤ N_LOG_METADATA_BLOCK_BYTES) :
    g.copyLogToBuf i o iov =
      if machReadFrom buf LOG_BLOCK_HDR_DATA_LEN 2 = 0 then some g else none := by
  have hskip : ¬(o = 0 ∧ buf.length > N_LOG_METADATA_BLOCK_BYTES) := by omega
  obtain ⟨k, hk⟩ : ∃ k, buf.length / LOG_BLOCK_SIZE = k + 1 :=
    ⟨buf.length / LOG_BLOCK_SIZE - 1, by simp only [LOG_BLOCK_SIZE] at hlen ⊢; omega⟩
  have hoff : g.logGroupOffToLogBufOff (i * g.perFileSize + o + LOG_BLOCK_HDR_SIZE) = none := by
    rw [Nat.add_assoc]
    exact logGroupOffToLogBufOff_metadata (by
      simp only [N_LOG_METADATA_BLOCK_BYTES, N_LOG_METADATA_BLOCKS, LOG_BLOCK_SIZE,
        LOG_BLOCK_HDR_SIZE] at hlen hin ho ⊢
      omega)
  unfold copyLogToBuf
  simp only [ho, hbuf, hlen, hskip, hk, ne_eq, not_true_eq_false, if_false, Option.bind_eq_bind,
    Option.bind_some]
  by_cases hz : machReadFrom buf LOG_BLOCK_HDR_DATA_LEN 2 = 0
  · simp [actualLen, hz]
  · rw [if_neg hz]
    cases hd : blockDataLen (machReadFrom buf LOG_BLOCK_HDR_DATA_LEN 2) with
    | none => simp [actualLen, hd, hz]
    | some d => simp [actualLen, hd, hoff, hz]

/-- MySQL's checkpoint write, one block at `LOG_CHECKPOINT_1` or `LOG_CHECKPOINT_2` that
starts with the eight bytes of the checkpoint number: its `LOG_BLOCK_HDR_DATA_LEN` field is
bits 16 to 31 of that number, so the write is ignored only while they are zero. -/
theorem checkpoint_write_aborts_writer {i o : Nat} {blk : List UInt8}
    (ho : o = LOG_CHECKPOINT_1 ∨ o = LOG_CHECKPOINT_2) (hlen : blk.length = LOG_BLOCK_SIZE) :
    g.copyLogToBuf i o [blk] =
      if machReadFrom blk LOG_CHECKPOINT_NO 8 / 2 ^ 16 % 2 ^ 16 = 0 then some g else none := by
  -- read big-endian, bytes 4 and 5 of the number are its bits 16 to 31
  have hsplit : machReadFrom blk 0 8 =
      machReadFrom blk 0 4 * 2 ^ 32 + machReadFrom blk 4 2 * 2 ^ 16 + machReadFrom blk 6 2 := by
    simp only [machReadFrom, readBE]
    ring
  have h4 : machReadFrom blk 4 2 < 2 ^ 16 := readBE_lt _ _ _
  have h6 : machReadFrom blk 6 2 < 2 ^ 16 := readBE_lt _ _ _
  have hfield : machReadFrom blk LOG_BLOCK_HDR_DATA_LEN 2 =
      machReadFrom blk LOG_CHECKPOINT_NO 8 / 2 ^ 16 % 2 ^ 16 := by
    simp only [LOG_BLOCK_HDR_DATA_LEN, LOG_CHECKPOINT_NO, hsplit]
    omega
  have hin : o + blk.length ≤ N_LOG_METADATA_BLOCK_BYTES := by
    rcases ho with rfl | rfl <;> simp [hlen, LOG_CHECKPOINT_1, LOG_CHECKPOINT_2, LOG_BLOCK_SIZE,
      N_LOG_METADATA_BLOCK_BYTES, N_LOG_METADATA_BLOCKS]
  rw [copyLogToBuf_metadata (by rcases ho with rfl | rfl <;> rfl)
    (gather_single (by rw [hlen]; decide)) (by rw [hlen]; rfl) (by rw [hlen]; decide) hin, hfield]

end LogGroup

/-- Checkpoint number 65536 written at `LOG_CHECKPOINT_1` of the first file of a fresh log:
bytes 4 and 5 of the block read 1, below `LOG_BLOCK_HDR_SIZE`. -/
theorem checkpoint_write_aborts_writer_65536 :
    (LogGroup.fresh 8388608).copyLogToBuf 0 LOG_CHECKPOINT_1
      [[0, 0, 0, 0, 0, 1, 0, 0] ++ List.replicate 504 0] = none := by
  rw [LogGroup.checkpoint_write_aborts_writer (Or.inl rfl)
    (by rw [List.length_append, List.length_replicate]; rfl),
    if_neg (by decide)]

end LogDB
