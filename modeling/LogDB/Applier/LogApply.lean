import LogDB.Applier.BufferPool
import LogDB.Applier.Utility

/-!
Applying redo records to a page (`log_apply.cpp`, with the appliers of `log_parse.cpp`
it calls). `log_apply_apply_one_log` dispatches on the record type; the appliers of the
page-level types are modelled byte for byte. The appliers of the index-record types
(`ApplyCompRecInsert` and the eight others that edit the record list of an index page)
are a parameter, a `RecordApplier`: each of them decodes the record body first and
answers `false`, or fails an assert, before it writes to the page, and the structure
carries exactly that.

`log_apply_do_apply` reads the page LSN once, before its loop, skips every entry that
starts below it, and stamps `start LSN + log_len_` on the page after each entry the
dispatcher applied.
-/

namespace LogDB

open LogDB.Lib Decoder

/-- A page write through the frame pointer; past the 16 KB frame it is a heap overflow. -/
def writePageField (page : Option (Nat → UInt8)) (offset w v : Nat) :
    Decoder (Option (Nat → UInt8)) :=
  match page with
  | none => pure none
  | some data => do
      ensure (offset + w ≤ DATA_PAGE_SIZE) .abort
      pure (some (writeBE data offset w v))

def parseOrApplyNBytes (type : LogType) (buf : List UInt8) (stop : Nat)
    (page : Option (Nat → UInt8)) : Decoder (Option (Nat → UInt8)) := do
  ensure (type.toNat ≤ LogType.MLOG_8BYTES.toNat) .abort
  let ptr ← get
  ensure (ptr + 2 ≤ stop) .null
  let offset := machReadFrom buf ptr 2
  skip 2
  ensure (offset < DATA_PAGE_SIZE) .abort
  if type = .MLOG_8BYTES then
    let dval ← machU64ParseCompressed buf stop
    writePageField page offset 8 dval
  else
    let val ← machParseCompressed buf stop
    match type with
    | .MLOG_1BYTE => do
        ensure (val ≤ 0xFF) .abort
        writePageField page offset 1 val
    | .MLOG_2BYTES => do
        ensure (val ≤ 0xFFFF) .abort
        writePageField page offset 2 val
    | .MLOG_4BYTES => writePageField page offset 4 val
    | _ => pure page

/-- The bytes `ParseOrApplyNBytes` writes for a record of type `MLOG_1BYTE` to
`MLOG_8BYTES`. -/
def LogType.nBytesWidth : LogType → Nat
  | .MLOG_1BYTE => 1
  | .MLOG_2BYTES => 2
  | .MLOG_4BYTES => 4
  | .MLOG_8BYTES => 8
  | _ => 0

def parseOrApplyString (buf : List UInt8) (stop : Nat) (page : Option (Nat → UInt8)) :
    Decoder (Option (Nat → UInt8)) := do
  let ptr ← get
  ensure (ptr + 4 ≤ stop) .null
  let offset := machReadFrom buf ptr 2
  let len := machReadFrom buf (ptr + 2) 2
  skip 4
  ensure (offset < DATA_PAGE_SIZE) .abort
  ensure (len + offset ≤ DATA_PAGE_SIZE) .abort
  let ptr ← get
  ensure (ptr + len ≤ stop) .null
  skip len
  pure (page.map (writeBytes · offset ((buf.drop ptr).take len)))

def pageCreateLow (page : Nat → UInt8) : Nat → UInt8 :=
  let page := writeBE page FIL_PAGE_TYPE 2 FIL_PAGE_INDEX
  let page := fillBytes page PAGE_HEADER PAGE_HEADER_PRIV_END 0
  let page := Function.update page (PAGE_HEADER + PAGE_DIRECTION + 1) (.ofNat PAGE_NO_DIRECTION)
  let page := Function.update page (PAGE_HEADER + PAGE_N_DIR_SLOTS + 1) 2
  let page := Function.update page (PAGE_HEADER + PAGE_N_HEAP) 0x80
  let page := Function.update page (PAGE_HEADER + PAGE_N_HEAP + 1) (.ofNat PAGE_HEAP_NO_USER_LOW)
  let page := Function.update page (PAGE_HEADER + PAGE_HEAP_TOP + 1) (.ofNat PAGE_NEW_SUPREMUM_END)
  let page := writeBytes page PAGE_DATA infimum_supremum_compact
  let page := fillBytes page PAGE_NEW_SUPREMUM_END
    (DATA_PAGE_SIZE - PAGE_DIR - PAGE_NEW_SUPREMUM_END) 0
  let page := Function.update page (DATA_PAGE_SIZE - PAGE_DIR - PAGE_DIR_SLOT_SIZE * 2 + 1)
    (.ofNat PAGE_NEW_SUPREMUM)
  Function.update page (DATA_PAGE_SIZE - PAGE_DIR - PAGE_DIR_SLOT_SIZE + 1)
    (.ofNat PAGE_NEW_INFIMUM)

def applyInitFilePage2 (log : LogEntry) (page : Nat → UInt8) : Nat → UInt8 :=
  let page := fillBytes page 0 DATA_PAGE_SIZE 0
  let page := writeBE page FIL_PAGE_OFFSET 4 log.pageId
  writeBE page FIL_PAGE_ARCH_LOG_NO_OR_SPACE_ID 4 log.spaceId

def applyIBufBitmapInit (page : Nat → UInt8) : Nat → UInt8 :=
  let page := writeBE page FIL_PAGE_TYPE 2 FIL_PAGE_IBUF_BITMAP
  fillBytes page IBUF_BITMAP ((DATA_PAGE_SIZE * IBUF_BITS_PER_PAGE + 7) / 8) 0

/-- `rec_set_deleted_flag_new` on the record at `rec`: the info bits sit in the byte
`REC_NEW_INFO_BITS` before the record origin, and both reading and writing them assert
that no bit other than the deleted and the min-rec flag is set. -/
def recSetDeletedFlagNew (page : Nat → UInt8) (rec flag : Nat) : Option (Nat → UInt8) := do
  -- the info byte lies before the frame for a record origin below 5
  if rec < REC_NEW_INFO_BITS then none
  let infoAt := rec - REC_NEW_INFO_BITS
  let valid (bits : Nat) : Bool := bits &&& (255 - REC_INFO_DELETED_FLAG - REC_INFO_MIN_REC_FLAG) == 0
  let val := ((page infoAt).toNat &&& REC_INFO_BITS_MASK) >>> REC_INFO_BITS_SHIFT
  if !valid val then none
  let val := if flag ≠ 0 then val ||| REC_INFO_DELETED_FLAG else val &&& (255 - REC_INFO_DELETED_FLAG)
  if !valid val then none
  some (Function.update page infoAt
    (.ofNat (((page infoAt).toNat &&& (255 - REC_INFO_BITS_MASK)) ||| val <<< REC_INFO_BITS_SHIFT)))

def applyRecSecondDeleteMark (log : LogEntry) (page : Nat → UInt8) :
    Option (Bool × (Nat → UInt8)) := do
  let buf := log.body
  if buf.length < 3 then return (false, page)
  let val := machReadFrom buf 0 1
  let offset := machReadFrom buf 1 2
  if offset > DATA_PAGE_SIZE then none
  let page ← recSetDeletedFlagNew page offset val
  return (true, page)

/-- The appliers of the index-record types. Each decodes its record body before it touches
the page, so an answer of `false` leaves the page as it was. -/
structure RecordApplier where
  apply : LogType → LogEntry → (Nat → UInt8) → Option (Bool × (Nat → UInt8))
  unchanged_of_false : ∀ t log data data', apply t log data = some (false, data') → data' = data

/-- `assert(ret != nullptr)` after a parse-or-apply routine run on the whole body. -/
def applyBody (d : Decoder (Option (Nat → UInt8))) : Option (Bool × (Nat → UInt8)) :=
  match d 0 with
  | .ok (some data, _) => some (true, data)
  | _ => none

def logApplyApplyOneLog (rec : RecordApplier) (page : Nat → UInt8) (log : LogEntry) :
    Option (Bool × (Nat → UInt8)) :=
  match log.type with
  | .MLOG_1BYTE | .MLOG_2BYTES | .MLOG_4BYTES | .MLOG_8BYTES =>
      applyBody (parseOrApplyNBytes log.type log.body log.body.length (some page))
  | .MLOG_WRITE_STRING => applyBody (parseOrApplyString log.body log.body.length (some page))
  | .MLOG_COMP_PAGE_CREATE => some (true, pageCreateLow page)
  | .MLOG_INIT_FILE_PAGE2 => some (true, applyInitFilePage2 log page)
  | .MLOG_REC_SEC_DELETE_MARK => applyRecSecondDeleteMark log page
  | .MLOG_IBUF_BITMAP_INIT => some (true, applyIBufBitmapInit page)
  | .MLOG_COMP_REC_INSERT | .MLOG_COMP_REC_CLUST_DELETE_MARK | .MLOG_COMP_REC_SEC_DELETE_MARK
  | .MLOG_COMP_REC_UPDATE_IN_PLACE | .MLOG_COMP_REC_DELETE | .MLOG_COMP_LIST_END_COPY_CREATED
  | .MLOG_COMP_PAGE_REORGANIZE | .MLOG_COMP_LIST_START_DELETE | .MLOG_COMP_LIST_END_DELETE =>
      rec.apply log.type log page
  | _ => some (false, page)

/-- One turn of the loop of `log_apply_do_apply`, with the page LSN read before the loop. -/
def applyStep (rec : RecordApplier) (pageLsn : Nat) (page : Page) (log : LogEntry) :
    Option Page :=
  if pageLsn > log.logStartLsn then some page
  else do
    let (applied, data) ← logApplyApplyOneLog rec page.data log
    let page := { page with data := data }
    if applied then
      some ((page.writePageLSN (log.logStartLsn + log.logLen)).writeCheckSum BUF_NO_CHECKSUM_MAGIC)
    else some page

/-- The loop of `log_apply_do_apply` from a given guard. -/
def applyFrom (rec : RecordApplier) (pageLsn : Nat) (page : Page) (logs : List LogEntry) :
    Option Page :=
  logs.foldlM (applyStep rec pageLsn) page

/-- The loop of `log_apply_do_apply` on the page it got from the buffer pool. -/
def applyLogs (rec : RecordApplier) (page : Page) (logs : List LogEntry) : Option Page :=
  applyFrom rec page.getLSN page logs

/-- `log_apply_do_apply`: skip a tablespace outside `DataPageGroup`, get the page or
create it, apply, write it back and unlock it. -/
def logApplyDoApply (rec : RecordApplier) (dataPageGroup : Nat → Bool) (pool : BufferPool)
    (address : PageAddress) (logs : List LogEntry) : Option BufferPool := do
  if !dataPageGroup address.spaceId then return pool
  let (pool, frame) ← pool.getPage address.spaceId address.pageId
  let (pool, frame) ← if frame.isNone then pool.newPage address.spaceId address.pageId
    else pure (pool, frame)
  -- a null page is dereferenced
  let f ← frame
  let page ← applyLogs rec (pool.buffer f) logs
  let pool := { pool with buffer := Function.update pool.buffer f page }
  let (pool, _) ← pool.writeBackLock address.spaceId address.pageId
  pool.releasePage f

/-! ### The page write of `ParseOrApplyNBytes` -/

section NBytes

variable {type : LogType} {buf : List UInt8} {stop ptr : Nat}

/-- `ParseOrApplyNBytes` decodes the body the same way with a page and without one, and ends
in the write of the decoded value at the offset it read. -/
theorem parseOrApplyNBytes_write
    (htype : type = .MLOG_1BYTE ∨ type = .MLOG_2BYTES ∨ type = .MLOG_4BYTES ∨
      type = .MLOG_8BYTES) :
    ∃ pre : Decoder Nat, ∀ page, parseOrApplyNBytes type buf stop page ptr =
      (pre >>= fun v => writePageField page (machReadFrom buf ptr 2) type.nBytesWidth v) ptr := by
  rcases htype with rfl | rfl | rfl | rfl
  · refine ⟨ensure (ptr + 2 ≤ stop) .null >>= fun _ => skip 2 >>= fun _ =>
      ensure (machReadFrom buf ptr 2 < DATA_PAGE_SIZE) .abort >>= fun _ =>
      machParseCompressed buf stop >>= fun val => ensure (val ≤ 0xFF) .abort >>= fun _ => pure val,
      fun page => ?_⟩
    simp only [parseOrApplyNBytes, ensure_bind_of (show LogType.MLOG_1BYTE.toNat ≤
      LogType.MLOG_8BYTES.toNat by decide), get_bind_run, bind_assoc, pure_bind,
      LogType.nBytesWidth]
    rw [if_neg (by decide)]
  · refine ⟨ensure (ptr + 2 ≤ stop) .null >>= fun _ => skip 2 >>= fun _ =>
      ensure (machReadFrom buf ptr 2 < DATA_PAGE_SIZE) .abort >>= fun _ =>
      machParseCompressed buf stop >>= fun val => ensure (val ≤ 0xFFFF) .abort >>= fun _ => pure val,
      fun page => ?_⟩
    simp only [parseOrApplyNBytes, ensure_bind_of (show LogType.MLOG_2BYTES.toNat ≤
      LogType.MLOG_8BYTES.toNat by decide), get_bind_run, bind_assoc, pure_bind,
      LogType.nBytesWidth]
    rw [if_neg (by decide)]
  · refine ⟨ensure (ptr + 2 ≤ stop) .null >>= fun _ => skip 2 >>= fun _ =>
      ensure (machReadFrom buf ptr 2 < DATA_PAGE_SIZE) .abort >>= fun _ =>
      machParseCompressed buf stop, fun page => ?_⟩
    simp only [parseOrApplyNBytes, ensure_bind_of (show LogType.MLOG_4BYTES.toNat ≤
      LogType.MLOG_8BYTES.toNat by decide), get_bind_run, bind_assoc, LogType.nBytesWidth]
    rw [if_neg (by decide)]
  · refine ⟨ensure (ptr + 2 ≤ stop) .null >>= fun _ => skip 2 >>= fun _ =>
      ensure (machReadFrom buf ptr 2 < DATA_PAGE_SIZE) .abort >>= fun _ =>
      machU64ParseCompressed buf stop, fun page => ?_⟩
    simp only [parseOrApplyNBytes, ensure_bind_of (show LogType.MLOG_8BYTES.toNat ≤
      LogType.MLOG_8BYTES.toNat by decide), get_bind_run, bind_assoc, LogType.nBytesWidth]
    rw [if_pos trivial]

theorem parseOrApplyNBytes_apply {a : Option (Nat → UInt8)} {p : Nat} (data : Nat → UInt8)
    (htype : type = .MLOG_1BYTE ∨ type = .MLOG_2BYTES ∨ type = .MLOG_4BYTES ∨
      type = .MLOG_8BYTES)
    (h : parseOrApplyNBytes type buf stop none ptr = .ok (a, p)) :
    ∃ v, parseOrApplyNBytes type buf stop (some data) ptr =
      writePageField (some data) (machReadFrom buf ptr 2) type.nBytesWidth v p := by
  obtain ⟨pre, hpre⟩ := @parseOrApplyNBytes_write type buf stop ptr htype
  rw [hpre] at h
  obtain ⟨v, q, hv, hw⟩ := bind_ok h
  -- without a page the write is `pure none`, which reads nothing
  have hq : q = p := by
    simp only [writePageField, pure_run, Except.ok.injEq, Prod.mk.injEq] at hw
    exact hw.2
  exact ⟨v, by rw [hpre, bind_run_ok hv, hq]⟩

end NBytes

/-! ### What one entry does to the page -/

section Apply

variable {rec : RecordApplier}

theorem applyBody_applied {d : Decoder (Option (Nat → UInt8))} {b : Bool}
    {data : Nat → UInt8} (h : applyBody d = some (b, data)) : b = true := by
  unfold applyBody at h
  split at h
  · cases h
    rfl
  · cases h

theorem applyRecSecondDeleteMark_unchanged {log : LogEntry} {data data' : Nat → UInt8}
    (h : applyRecSecondDeleteMark log data = some (false, data')) : data' = data := by
  unfold applyRecSecondDeleteMark at h
  by_cases hshort : log.body.length < 3
  · simp only [hshort, if_true] at h
    cases h
    rfl
  · simp only [hshort, if_false, Option.bind_eq_bind] at h
    split at h
    · cases h
    · simp only [Option.bind_eq_some_iff] at h
      obtain ⟨_, -, h⟩ := h
      cases h

/-- The dispatcher answers `false` only where nothing was written: the default branch,
a short body of `MLOG_REC_SEC_DELETE_MARK`, and an index-record applier that gave up. -/
theorem logApplyApplyOneLog_unchanged {data data' : Nat → UInt8} {log : LogEntry}
    (h : logApplyApplyOneLog rec data log = some (false, data')) : data' = data := by
  unfold logApplyApplyOneLog at h
  split at h
  all_goals first
    | exact absurd (applyBody_applied h) Bool.false_ne_true
    | exact applyRecSecondDeleteMark_unchanged h
    | exact rec.unchanged_of_false _ _ _ _ h
    | (cases h <;> rfl)

theorem logApplyApplyOneLog_default {data : Nat → UInt8} {log : LogEntry}
    (h : log.type = .MLOG_COMP_REC_MIN_MARK) :
    logApplyApplyOneLog rec data log = some (false, data) := by
  simp [logApplyApplyOneLog, h]

/-- A page after the dispatcher applied an entry: the LSN and checksum stamps. -/
def stamp (page : Page) (data : Nat → UInt8) (log : LogEntry) : Page :=
  ({ page with data := data }.writePageLSN (log.logStartLsn + log.logLen)).writeCheckSum
    BUF_NO_CHECKSUM_MAGIC

@[simp] theorem getLSN_stamp (page : Page) (data : Nat → UInt8) (log : LogEntry) :
    (stamp page data log).getLSN = (log.logStartLsn + log.logLen) % 2 ^ 64 := by
  simp [stamp]

/-- The three things one turn of the loop can do. -/
theorem applyStep_eq {g : Nat} {page page' : Page} {log : LogEntry}
    (h : applyStep rec g page log = some page') :
    (log.logStartLsn < g ∧ page' = page) ∨
    (g ≤ log.logStartLsn ∧ logApplyApplyOneLog rec page.data log = some (false, page.data) ∧
      page' = page) ∨
    (g ≤ log.logStartLsn ∧ ∃ data, logApplyApplyOneLog rec page.data log = some (true, data) ∧
      page' = stamp page data log) := by
  unfold applyStep at h
  split at h
  · cases h
    exact .inl ⟨by omega, rfl⟩
  · rename_i hg
    simp only [Option.bind_eq_bind, Option.bind_eq_some_iff] at h
    obtain ⟨⟨applied, data⟩, hone, h⟩ := h
    cases applied
    · have hdata := logApplyApplyOneLog_unchanged hone
      subst hdata
      cases h
      exact .inr (.inl ⟨by omega, hone, rfl⟩)
    · cases h
      exact .inr (.inr ⟨by omega, data, hone, rfl⟩)

theorem applyStep_skip {g : Nat} {page : Page} {log : LogEntry} (h : log.logStartLsn < g) :
    applyStep rec g page log = some page := by
  simp [applyStep, h]

theorem applyStep_of_unchanged {g : Nat} {page : Page} {log : LogEntry}
    (hg : g ≤ log.logStartLsn)
    (hone : logApplyApplyOneLog rec page.data log = some (false, page.data)) :
    applyStep rec g page log = some page := by
  simp [applyStep, Nat.not_lt.mpr hg, hone]

theorem applyStep_of_applied {g : Nat} {page : Page} {log : LogEntry} {data : Nat → UInt8}
    (hg : g ≤ log.logStartLsn)
    (hone : logApplyApplyOneLog rec page.data log = some (true, data)) :
    applyStep rec g page log = some (stamp page data log) := by
  simp [applyStep, Nat.not_lt.mpr hg, hone, stamp]

theorem applyFrom_congr_guard {g g' : Nat} {page : Page} {logs : List LogEntry}
    (hgg : g ≤ g') (h : ∀ e ∈ logs, e.logStartLsn < g ∨ g' ≤ e.logStartLsn) :
    applyFrom rec g page logs = applyFrom rec g' page logs := by
  induction logs generalizing page with
  | nil => rfl
  | cons e logs ih =>
    have hstep : applyStep rec g page e = applyStep rec g' page e := by
      rcases h e List.mem_cons_self with hlt | hle
      · rw [applyStep_skip hlt, applyStep_skip (by omega)]
      · simp only [applyStep, Nat.not_lt.mpr hle, Nat.not_lt.mpr (Nat.le_trans hgg hle)]
    simp only [applyFrom, List.foldlM_cons, hstep]
    rcases applyStep rec g' page e with _ | page₁
    · rfl
    · exact ih (fun e' he' => h e' (List.mem_cons_of_mem _ he'))

end Apply

/-! ### Re-applying a list of entries -/

/-- Entries in the order the parser produces them: each starts at or after the end of the
one before. -/
def LsnOrdered (a b : LogEntry) : Prop := a.logStartLsn + a.logLen ≤ b.logStartLsn

instance : Trans LsnOrdered LsnOrdered LsnOrdered where
  trans hab hbc := by unfold LsnOrdered at *; omega

instance : DecidableRel LsnOrdered := fun a b =>
  inferInstanceAs (Decidable (a.logStartLsn + a.logLen ≤ b.logStartLsn))

/-- A list of entries for one page in increasing LSN order, each of positive length and with
every end LSN below `2 ^ 64`. -/
def WellOrdered (logs : List LogEntry) : Prop :=
  logs.Pairwise LsnOrdered ∧ ∀ e ∈ logs, 0 < e.logLen ∧ e.logStartLsn + e.logLen < 2 ^ 64

/-- `LsnOrdered` is transitive, so neighbours are enough to check. -/
theorem wellOrdered_iff_isChain {logs : List LogEntry} :
    WellOrdered logs ↔
      logs.IsChain LsnOrdered ∧ ∀ e ∈ logs, 0 < e.logLen ∧ e.logStartLsn + e.logLen < 2 ^ 64 := by
  rw [WellOrdered, List.isChain_iff_pairwise]

instance (logs : List LogEntry) : Decidable (WellOrdered logs) :=
  decidable_of_iff _ wellOrdered_iff_isChain.symm

/-- The guard is at most the page LSN, and the page LSN at most every remaining entry the
guard lets through. -/
def Guarded (g : Nat) (page : Page) (logs : List LogEntry) : Prop :=
  g ≤ page.getLSN ∧ ∀ e ∈ logs, g ≤ e.logStartLsn → page.getLSN ≤ e.logStartLsn

theorem WellOrdered.tail {e : LogEntry} {logs : List LogEntry} (h : WellOrdered (e :: logs)) :
    WellOrdered logs :=
  ⟨(List.pairwise_cons.mp h.1).2, fun e' he' => h.2 e' (List.mem_cons_of_mem _ he')⟩

theorem WellOrdered.head_le {e e' : LogEntry} {logs : List LogEntry}
    (h : WellOrdered (e :: logs)) (he' : e' ∈ logs) :
    e.logStartLsn + e.logLen ≤ e'.logStartLsn :=
  (List.pairwise_cons.mp h.1).1 e' he'

theorem WellOrdered.of_append {pre rest : List LogEntry} (h : WellOrdered (pre ++ rest)) :
    WellOrdered pre :=
  ⟨(List.pairwise_append.mp h.1).1, fun e he => h.2 e (List.mem_append_left _ he)⟩

theorem Guarded.of_append {g : Nat} {page : Page} {pre rest : List LogEntry}
    (h : Guarded g page (pre ++ rest)) : Guarded g page pre :=
  ⟨h.1, fun e he => h.2 e (List.mem_append_left _ he)⟩

theorem Guarded.tail {g : Nat} {page : Page} {e : LogEntry} {logs : List LogEntry}
    (h : Guarded g page (e :: logs)) : Guarded g page logs :=
  ⟨h.1, fun e' he' => h.2 e' (List.mem_cons_of_mem _ he')⟩

section Replay

variable {rec : RecordApplier}

theorem applyStep_guarded {g : Nat} {page page' : Page} {e : LogEntry} {logs : List LogEntry}
    (hg : Guarded g page (e :: logs)) (hw : WellOrdered (e :: logs))
    (h : applyStep rec g page e = some page') :
    Guarded g page' logs ∧ page.getLSN ≤ page'.getLSN := by
  rcases applyStep_eq h with ⟨-, rfl⟩ | ⟨-, -, rfl⟩ | ⟨hle, data, -, rfl⟩
  · exact ⟨hg.tail, Nat.le_refl _⟩
  · exact ⟨hg.tail, Nat.le_refl _⟩
  · -- the stamp is the end of `e`, which every later entry starts after
    have hend : (stamp page data e).getLSN = e.logStartLsn + e.logLen := by
      rw [getLSN_stamp, Nat.mod_eq_of_lt (hw.2 e List.mem_cons_self).2]
    have hpage := hg.2 e List.mem_cons_self hle
    refine ⟨⟨by omega, fun e' he' _ => ?_⟩, by omega⟩
    rw [hend]
    exact hw.head_le he'

theorem applyFrom_guarded {g : Nat} {page page' : Page} {pre rest : List LogEntry}
    (hg : Guarded g page (pre ++ rest)) (hw : WellOrdered (pre ++ rest))
    (h : applyFrom rec g page pre = some page') :
    Guarded g page' rest ∧ page.getLSN ≤ page'.getLSN := by
  induction pre generalizing page with
  | nil =>
    cases h
    exact ⟨hg, Nat.le_refl _⟩
  | cons e pre ih =>
    simp only [applyFrom, List.foldlM_cons, Option.bind_eq_bind, Option.bind_eq_some_iff] at h
    obtain ⟨page₁, h₁, h⟩ := h
    have ⟨hg₁, hle₁⟩ := applyStep_guarded hg hw h₁
    have ⟨hg', hle'⟩ := ih hg₁ hw.tail h
    exact ⟨hg', Nat.le_trans hle₁ hle'⟩

theorem applyFrom_getLSN_le {g : Nat} {page page' : Page} {logs : List LogEntry}
    (hg : Guarded g page logs) (hw : WellOrdered logs)
    (h : applyFrom rec g page logs = some page') : page.getLSN ≤ page'.getLSN := by
  have hg' : Guarded g page (logs ++ []) := by simpa using hg
  have hw' : WellOrdered (logs ++ []) := by simpa using hw
  exact (applyFrom_guarded hg' hw' h).2

theorem applyFrom_eq_of_getLSN_le {g c : Nat} {page page' : Page} {logs : List LogEntry}
    (hg : Guarded g page logs) (hw : WellOrdered logs)
    (h : applyFrom rec g page logs = some page')
    (hc : ∀ e ∈ logs, c < e.logStartLsn + e.logLen) (hle : page'.getLSN ≤ c) :
    page' = page := by
  induction logs generalizing page with
  | nil =>
    cases h
    rfl
  | cons e logs ih =>
    simp only [applyFrom, List.foldlM_cons, Option.bind_eq_bind, Option.bind_eq_some_iff] at h
    obtain ⟨page₁, h₁, h⟩ := h
    have hg₁ := (applyStep_guarded hg hw h₁).1
    have hrest := ih hg₁ hw.tail h (fun e' he' => hc e' (List.mem_cons_of_mem _ he'))
    rcases applyStep_eq h₁ with ⟨-, rfl⟩ | ⟨-, -, rfl⟩ | ⟨-, data, -, rfl⟩
    · exact hrest
    · exact hrest
    · -- an applied entry would have put the page LSN past `c`
      have hmono := applyFrom_getLSN_le hg₁ hw.tail h
      have hend : (stamp page data e).getLSN = e.logStartLsn + e.logLen := by
        rw [getLSN_stamp, Nat.mod_eq_of_lt (hw.2 e List.mem_cons_self).2]
      have := hc e List.mem_cons_self
      omega

/-- Running the list again from the page it produced, with that page's LSN as the guard,
changes nothing. -/
theorem applyFrom_fixpoint {g : Nat} {page page' : Page} {logs : List LogEntry}
    (hg : Guarded g page logs) (hw : WellOrdered logs)
    (h : applyFrom rec g page logs = some page') :
    applyFrom rec page'.getLSN page' logs = some page' := by
  induction logs generalizing page with
  | nil => rfl
  | cons e logs ih =>
    simp only [applyFrom, List.foldlM_cons, Option.bind_eq_bind, Option.bind_eq_some_iff] at h
    obtain ⟨page₁, h₁, h⟩ := h
    have ⟨hg₁, hle₁⟩ := applyStep_guarded hg hw h₁
    have hmono := applyFrom_getLSN_le hg₁ hw.tail h
    have hlen := (hw.2 e List.mem_cons_self).1
    -- the second pass skips `e`, or finds the page it left unchanged
    have hstep : applyStep rec page'.getLSN page' e = some page' := by
      rcases applyStep_eq h₁ with ⟨hlt, hp⟩ | ⟨hge, hone, hp⟩ | ⟨-, data, -, hp⟩
      · have hg0 := hg.1
        rw [← hp] at hg0
        exact applyStep_skip (by omega)
      · rw [← hp] at hone
        by_cases hlt : e.logStartLsn < page'.getLSN
        · exact applyStep_skip hlt
        · have hsame : page' = page₁ := applyFrom_eq_of_getLSN_le hg₁ hw.tail h
            (fun e' he' => by have := hw.head_le he'; omega) (Nat.le_of_not_lt hlt)
          rw [hsame] at hlt ⊢
          exact applyStep_of_unchanged (Nat.le_of_not_lt hlt) hone
      · have hend : page₁.getLSN = e.logStartLsn + e.logLen := by
          rw [hp, getLSN_stamp, Nat.mod_eq_of_lt (hw.2 e List.mem_cons_self).2]
        exact applyStep_skip (by omega)
    simp only [applyFrom, List.foldlM_cons, hstep, Option.bind_eq_bind, Option.bind_some]
    exact ih hg₁ hw.tail h

end Replay

section Replay

variable {rec : RecordApplier}

theorem guarded_start (page : Page) (logs : List LogEntry) : Guarded page.getLSN page logs :=
  ⟨Nat.le_refl _, fun _ _ h => h⟩

theorem applyLogs_getLSN_le {page page' : Page} {logs : List LogEntry} (hw : WellOrdered logs)
    (h : applyLogs rec page logs = some page') : page.getLSN ≤ page'.getLSN :=
  applyFrom_getLSN_le (guarded_start page logs) hw h

/-- Applying a prefix of the list and then the whole list gives the page the whole list
gives; the prefix may be the whole list. -/
theorem applyLogs_prefix_then_all {page : Page} {pre logs : List LogEntry}
    (hw : WellOrdered logs) (hpre : pre <+: logs) :
    (applyLogs rec page pre).bind (applyLogs rec · logs) = applyLogs rec page logs := by
  obtain ⟨rest, rfl⟩ := hpre
  have hg := guarded_start page (pre ++ rest)
  simp only [applyLogs, applyFrom, List.foldlM_append]
  cases hq : applyFrom rec page.getLSN page pre with
  | none =>
    simp only [applyFrom] at hq
    simp [hq]
  | some q =>
    obtain ⟨hgq, -⟩ := applyFrom_guarded hg hw hq
    have hfix := applyFrom_fixpoint hg.of_append hw.of_append hq
    simp only [applyFrom] at hq hfix
    -- the guards `page.getLSN` and `q.getLSN` let the same entries of `rest` through
    have hcongr : applyFrom rec page.getLSN q rest = applyFrom rec q.getLSN q rest :=
      applyFrom_congr_guard hgq.1
      (fun e he => by
        by_cases hle : page.getLSN ≤ e.logStartLsn
        · exact .inr (hgq.2 e he hle)
        · exact .inl (Nat.lt_of_not_le hle))
    simp only [applyFrom] at hcongr
    simp [hq, hfix, hcongr]

end Replay

theorem apply_twice_same_page (rec : RecordApplier) (page : Page) (logs : List LogEntry)
    (hsorted : logs.IsChain LsnOrdered) (hlen : ∀ e ∈ logs, 0 < e.logLen)
    (hbound : ∀ e ∈ logs, e.logStartLsn + e.logLen < 2 ^ 64) :
    (∀ pre, pre <+: logs →
      (applyLogs rec page pre).bind (applyLogs rec · logs) = applyLogs rec page logs) ∧
    ∀ page', applyLogs rec page logs = some page' → page.getLSN ≤ page'.getLSN := by
  have hw : WellOrdered logs := ⟨hsorted.pairwise, fun e he => ⟨hlen e he, hbound e he⟩⟩
  exact ⟨fun _ hpre => applyLogs_prefix_then_all hw hpre, fun _ h => applyLogs_getLSN_le hw h⟩

/-- An applier that declines every index record. -/
def RecordApplier.rejectAll : RecordApplier :=
  ⟨fun _ _ data => some (false, data), fun _ _ _ _ h => by cases h; rfl⟩

theorem apply_twice_same_page_two_writes :
    let page : Page := ⟨fun _ => 0, false, false, .FROM_DISK⟩
    let logs : List LogEntry :=
      [⟨.MLOG_1BYTE, 0, 3, 100, 5, [0, 100, 7]⟩, ⟨.MLOG_1BYTE, 0, 3, 105, 5, [0, 101, 9]⟩]
    logs.IsChain LsnOrdered ∧ (∀ e ∈ logs, 0 < e.logLen) ∧
      (∀ e ∈ logs, e.logStartLsn + e.logLen < 2 ^ 64) ∧
      ((∀ pre, pre <+: logs →
        (applyLogs .rejectAll page pre).bind (applyLogs .rejectAll · logs) =
          applyLogs .rejectAll page logs) ∧
      ∀ page', applyLogs .rejectAll page logs = some page' → page.getLSN ≤ page'.getLSN) := by
  intro page logs
  have hsorted : logs.IsChain LsnOrdered := by decide
  have hlen : ∀ e ∈ logs, 0 < e.logLen := by decide
  have hbound : ∀ e ∈ logs, e.logStartLsn + e.logLen < 2 ^ 64 := by decide
  exact ⟨hsorted, hlen, hbound, apply_twice_same_page .rejectAll page logs hsorted hlen hbound⟩

/-- An entry that ends past `2 ^ 64`: `WritePageLSN` stores the end modulo `2 ^ 64`, and the
page LSN falls from 5 to 2. -/
theorem apply_lowers_page_lsn_past_wrap :
    let page : Page := ⟨writeBE (fun _ => 0) FIL_PAGE_LSN 8 5, false, false, .FROM_DISK⟩
    let logs : List LogEntry := [⟨.MLOG_1BYTE, 0, 3, 2 ^ 64 - 1, 3, [0, 100, 7]⟩]
    logs.IsChain LsnOrdered ∧ (∀ e ∈ logs, 0 < e.logLen) ∧ page.getLSN = 5 ∧
      (applyLogs .rejectAll page logs).map Page.getLSN = some 2 := by
  intro page logs
  decide

end LogDB
