import LogDB.Applier.RecordParse
import LogDB.Applier.LogWriter

/-!
The parser thread of `log_parse.cpp`. `log_parse_acquire` waits for unparsed bytes and
`log_parse_init_parse_buf` makes them one contiguous batch; `log_parse_thread_routine`
frames the records of the batch one after the other and hands the records of data pages
to `ApplyIndex::InsertBack`. The records of a mini-transaction of several records wait in
the queue `m_q` until its `MLOG_MULTI_REC_END`. A record that runs past the batch ends it,
and the next batch starts again at that record.

A batch is the copy of the unparsed bytes taken when it starts: the writer appends past
them meanwhile. The parser moves `parsed_isn`, `parsed_offset` and `need_to_parse` by the
`parseRecord` action of the log group, one record at a time.
-/

namespace LogDB

open LogDB.Lib

/-- `parse_buf_back`: `PER_LOG_FILE_SIZE * LOG_FILE_NUMBER` bytes, a product in 32 bits. -/
def parseBufBackSize : Nat := PER_LOG_FILE_SIZE * LOG_FILE_NUMBER % 4294967296

/-- `log_parse_init_parse_buf`: the first `needToParse` unparsed bytes, read in place or,
where they wrap the ring, copied together into `parse_buf_back`. A copy past either buffer
is `none`. -/
def LogGroup.initParseBuf (g : LogGroup) (needToParse : Nat) : Option (List UInt8) :=
  let sizeRemain := g.logBufSize - g.parsedOffset
  let bytes (start n : Nat) := (List.range n).map fun i => g.logBuf (start + i)
  if sizeRemain ≥ needToParse then some (bytes g.parsedOffset needToParse)
  else if needToParse ≤ parseBufBackSize ∧ needToParse - sizeRemain ≤ g.logBufSize then
    some (bytes g.parsedOffset sizeRemain ++ bytes 0 (needToParse - sizeRemain))
  else none

namespace LogType

/-- The types `log_parse_thread_routine` keeps out of the index. -/
def notIndexed (type : LogType) : Bool :=
  [MLOG_FILE_NAME, MLOG_FILE_DELETE, MLOG_FILE_CREATE2, MLOG_FILE_RENAME2, MLOG_SINGLE_REC_FLAG,
    MLOG_MULTI_REC_END, MLOG_DUMMY_RECORD, MLOG_CHECKPOINT, MLOG_TRUNCATE,
    MLOG_INDEX_LOAD].contains type

/-- The types the assert after indexing the record of a single-record mini-transaction
admits. -/
def singleIndexed (type : LogType) : Bool :=
  [MLOG_1BYTE, MLOG_2BYTES, MLOG_4BYTES, MLOG_8BYTES, MLOG_WRITE_STRING, MLOG_COMP_PAGE_CREATE,
    MLOG_INIT_FILE_PAGE2, MLOG_COMP_REC_INSERT, MLOG_COMP_REC_CLUST_DELETE_MARK,
    MLOG_REC_SEC_DELETE_MARK, MLOG_COMP_REC_SEC_DELETE_MARK, MLOG_COMP_REC_UPDATE_IN_PLACE,
    MLOG_COMP_REC_DELETE, MLOG_COMP_LIST_END_COPY_CREATED, MLOG_COMP_PAGE_REORGANIZE,
    MLOG_COMP_LIST_START_DELETE, MLOG_COMP_LIST_END_DELETE, MLOG_IBUF_BITMAP_INIT].contains type

end LogType

/-- `log_parser`, with the queue `m_q` of `log_parse_thread_routine`. -/
structure LogParser where
  parsedLsn : Nat
  /-- the indexed records of the mini-transaction being parsed -/
  queue : List LogEntry
  /-- the batch and the position reached in it; `none` in `log_parse_acquire` -/
  batch : Option (List UInt8 × Nat)

namespace LogParser

variable (dataPageGroup : Nat → Bool)

/-- The loop body past the parse of a record: the entries for `InsertBack`, and the queue
after them. -/
def indexRecord (r : ParsedRecord) (entry : LogEntry) (queue : List LogEntry) :
    Option (List LogEntry × List LogEntry) :=
  if r.isMultiEnd then some (queue, [])
  else if dataPageGroup r.spaceId && !r.type.notIndexed then
    if r.isSingle then
      -- the assert that follows `InsertBack`
      if r.type.singleIndexed then some ([entry], queue) else none
    else some ([], queue ++ [entry])
  else some ([], queue)

/-- The `LogEntry` of a record of `len` bytes at `pos`: its body is copied out of the batch. -/
def entry (p : LogParser) (buf : List UInt8) (pos : Nat) (r : ParsedRecord) (len : Nat) :
    LogEntry :=
  ⟨r.type, r.spaceId, r.pageId, p.parsedLsn, len,
    match r.body with
    | none => []
    | some body => (buf.drop body).take (pos + len - body)⟩

/-- One turn of the loop of `log_parse_thread_routine` over the batch `buf` at `pos`: the log
group, the parser, and the entries handed to `InsertBack`, in order. -/
def parseNext (p : LogParser) (g : LogGroup) (buf : List UInt8) (pos : Nat) :
    Option (LogGroup × LogParser × List LogEntry) :=
  -- a length of 0 is a record that runs past the batch: back to `log_parse_acquire`
  match parseSingleLogRecord buf buf.length pos with
  | .error .abort => none
  | .error .null => some (g, { p with batch := none }, [])
  | .ok (r, next) =>
      let len := next - pos
      if len = 0 then some (g, { p with batch := none }, []) else do
      let (inserted, queue) ← indexRecord dataPageGroup r (p.entry buf pos r len) p.queue
      let g ← g.step (.parseRecord len)
      let parsedLsn ← recvCalcLsnOnDataAdd p.parsedLsn len
      some (g, ⟨parsedLsn, queue, if next < buf.length then some (buf, next) else none⟩,
        inserted)

end LogParser

/-- The writer and the parser over the log group, with every entry handed to
`InsertBack` so far. -/
structure ParseSystem where
  group : LogGroup
  parser : LogParser
  inserted : List LogEntry

inductive ParseAction where
  | write (logFileIndex offset : Nat) (iov : List (List UInt8))
  | acquire
  | parse

namespace ParseSystem

/-- The system as `log_parse_thread_start` leaves it: the parser at the checkpoint LSN. -/
def init (g : LogGroup) (checkpointLsn : Nat) : ParseSystem := ⟨g, ⟨checkpointLsn, [], none⟩, []⟩

section Step

variable (dataPageGroup : Nat → Bool)

def step (s : ParseSystem) : ParseAction → Option ParseSystem
  | .write i offset iov => do
      let g ← s.group.step (.copyLogToBuf i offset iov)
      some { s with group := g }
  | .acquire =>
      match s.parser.batch with
      | some _ => none
      | none =>
          if s.group.needToParse = 0 then none else do
          let buf ← s.group.initParseBuf s.group.needToParse
          some { s with parser := { s.parser with batch := some (buf, 0) } }
  | .parse =>
      match s.parser.batch with
      | none => none
      | some (buf, pos) => do
          let (g, p, inserted) ← s.parser.parseNext dataPageGroup s.group buf pos
          some ⟨g, p, s.inserted ++ inserted⟩

end Step

end ParseSystem

/-! ### A mini-transaction through the pipeline -/

/-- A data block of the log as MySQL writes it, filled with `payload` up to
`LOG_BLOCK_HDR_DATA_LEN`; the other fields of its header are zero. -/
def logBlock (payload : List UInt8) : List UInt8 :=
  [0, 0, 0, 0, ((12 + payload.length) / 256).toUInt8, ((12 + payload.length) % 256).toUInt8,
    0, 0, 0, 0, 0, 0] ++ payload ++ List.replicate (500 - payload.length) 0

/-- A mini-transaction of an `MLOG_COMP_REC_MIN_MARK` record for page 3 of tablespace 1,
closed by `MLOG_MULTI_REC_END`. -/
def minMarkMtr : List UInt8 := [36, 1, 3, 0, 125, 31]

/-- Written in one block, the mini-transaction is parsed in one batch of two records, and its
first record reaches the index when the second closes it. -/
theorem minMarkMtr_run :
    ∃ s, Reachable (ParseSystem.step (· == 1)) (ParseSystem.init (LogGroup.fresh 8388608) 8204) s ∧
      s.group.parsedIsn = 6 ∧ s.inserted = [⟨.MLOG_COMP_REC_MIN_MARK, 1, 3, 8204, 5, [0, 125]⟩] := by
  have hrun : (([.write 0 2048 [logBlock minMarkMtr], .acquire, .parse, .parse] :
      List ParseAction).foldlM (ParseSystem.step (· == 1))
      (ParseSystem.init (LogGroup.fresh 8388608) 8204)).map (fun s => (s.group.parsedIsn, s.inserted)) =
      some (6, [⟨.MLOG_COMP_REC_MIN_MARK, 1, 3, 8204, 5, [0, 125]⟩]) := by
    decide +kernel
  obtain ⟨s, hs, hs'⟩ := exists_reachable_of_foldlM Reachable.refl hrun
  simp only [Prod.mk.injEq] at hs'
  exact ⟨s, hs, hs'⟩

/-! ### What one step does -/

namespace LogParser

variable {dataPageGroup : Nat → Bool} {p p' : LogParser} {g g' : LogGroup} {buf : List UInt8}
  {pos : Nat} {ins : List LogEntry}

theorem parseNext_cases (h : p.parseNext dataPageGroup g buf pos = some (g', p', ins)) :
    (g' = g ∧ p' = { p with batch := none } ∧ ins = []) ∨
    ∃ r next q lsn, parseSingleLogRecord buf buf.length pos = .ok (r, next) ∧ next - pos ≠ 0 ∧
      indexRecord dataPageGroup r (p.entry buf pos r (next - pos)) p.queue = some (ins, q) ∧
      g.step (.parseRecord (next - pos)) = some g' ∧
      recvCalcLsnOnDataAdd p.parsedLsn (next - pos) = some lsn ∧
      p' = ⟨lsn, q, if next < buf.length then some (buf, next) else none⟩ := by
  unfold parseNext at h
  rcases hp : parseSingleLogRecord buf buf.length pos with e | ⟨r, next⟩
  · rw [hp] at h
    cases e with
    | null =>
        cases h
        exact .inl ⟨rfl, rfl, rfl⟩
    | abort => cases h
  · rw [hp] at h
    simp only at h
    by_cases hlen : next - pos = 0
    · rw [if_pos hlen] at h
      cases h
      exact .inl ⟨rfl, rfl, rfl⟩
    · rw [if_neg hlen] at h
      simp only [Option.bind_eq_bind, Option.bind_eq_some_iff] at h
      obtain ⟨⟨ins₀, q⟩, hix, g₁, hg₁, lsn, hlsn, h⟩ := h
      cases h
      exact .inr ⟨r, next, q, lsn, rfl, hlen, hix, hg₁, hlsn, rfl⟩

theorem parseNext_group (h : p.parseNext dataPageGroup g buf pos = some (g', p', ins)) :
    g' = g ∨ ∃ len, g.step (.parseRecord len) = some g' := by
  rcases parseNext_cases h with ⟨hg, -, -⟩ | ⟨r, next, q, lsn, -, -, -, hg, -, -⟩
  · exact .inl hg
  · exact .inr ⟨_, hg⟩

end LogParser

namespace ParseSystem

variable {dataPageGroup : Nat → Bool} {s t : ParseSystem} {a : ParseAction}

theorem step_cases (h : step dataPageGroup s a = some t) :
    (∃ i offset iov g, s.group.copyLogToBuf i offset iov = some g ∧ t = { s with group := g }) ∨
    (∃ buf, s.parser.batch = none ∧ s.group.needToParse ≠ 0 ∧
      s.group.initParseBuf s.group.needToParse = some buf ∧
      t = { s with parser := { s.parser with batch := some (buf, 0) } }) ∨
    (∃ buf pos g p ins, s.parser.batch = some (buf, pos) ∧
      s.parser.parseNext dataPageGroup s.group buf pos = some (g, p, ins) ∧
      t = ⟨g, p, s.inserted ++ ins⟩) := by
  cases a with
  | write i offset iov =>
      simp only [step, Option.bind_eq_bind, Option.bind_eq_some_iff] at h
      obtain ⟨g, hg, h⟩ := h
      cases h
      exact .inl ⟨i, offset, iov, g, hg, rfl⟩
  | acquire =>
      simp only [step] at h
      split at h
      · cases h
      · rename_i hb
        split at h
        · cases h
        · rename_i hn
          simp only [Option.bind_eq_bind, Option.bind_eq_some_iff] at h
          obtain ⟨buf, hbuf, h⟩ := h
          cases h
          exact .inr (.inl ⟨buf, hb, hn, hbuf, rfl⟩)
  | parse =>
      simp only [step] at h
      split at h
      · cases h
      · rename_i buf pos hb
        simp only [Option.bind_eq_bind, Option.bind_eq_some_iff] at h
        obtain ⟨⟨g, p, ins⟩, hn, h⟩ := h
        cases h
        exact .inr (.inr ⟨buf, pos, g, p, ins, hb, hn, rfl⟩)

theorem step_group (h : step dataPageGroup s a = some t) :
    t.group = s.group ∨ Steps LogGroup.step s.group t.group := by
  rcases step_cases h with ⟨i, offset, iov, g, hg, rfl⟩ | ⟨buf, -, -, -, rfl⟩ |
      ⟨buf, pos, g, p, ins, -, hn, rfl⟩
  · exact .inr ⟨.copyLogToBuf i offset iov, hg⟩
  · exact .inl rfl
  · rcases LogParser.parseNext_group hn with hg | ⟨len, hg⟩
    · exact .inl hg
    · exact .inr ⟨_, hg⟩

/-- The parser's `parsed_lsn` is the LSN of its first unparsed byte: the checkpoint LSN
advanced by `parsed_isn` bytes of data, however the writer cut the log into batches. -/
theorem reachable_parsedLsn {perFileSize checkpointOffset dataLen c : Nat} {g₀ : LogGroup}
    {s : ParseSystem} (hc : LsnInData c)
    (h₀ : initApplierModule perFileSize checkpointOffset dataLen = some g₀)
    (h : Reachable (step dataPageGroup) (init g₀ c) s) :
    recvCalcLsnOnDataAdd c s.group.parsedIsn = some s.parser.parsedLsn := by
  refine reachable_induction (P := fun s : ParseSystem =>
    recvCalcLsnOnDataAdd c s.group.parsedIsn = some s.parser.parsedLsn) ?_ ?_ h
  · have h0 := LogGroup.initApplierModule_counters h₀
    simp only [LogGroup.Counters, Prod.mk.injEq] at h0
    show recvCalcLsnOnDataAdd c g₀.parsedIsn = some c
    rw [h0.1, recvCalcLsnOnDataAdd_zero hc]
  · intro s a t hs ht
    rcases step_cases ht with ⟨i, offset, iov, g, hg, rfl⟩ | ⟨buf, -, -, -, rfl⟩ |
        ⟨buf, pos, g, p, ins, -, hn, rfl⟩
    · obtain ⟨len, hp, -, -⟩ := LogGroup.copyLogToBuf_counters hg
      show recvCalcLsnOnDataAdd c g.parsedIsn = some s.parser.parsedLsn
      rw [hp]
      exact hs
    · exact hs
    · rcases LogParser.parseNext_cases hn with ⟨rfl, rfl, -⟩ |
          ⟨r, next, q, lsn, -, -, -, hg, hlsn, rfl⟩
      · exact hs
      · -- the record moves `parsed_isn` and the LSN by its length alike
        obtain ⟨-, -, rfl⟩ := LogGroup.step_parseRecord hg
        show recvCalcLsnOnDataAdd c (s.group.parsedIsn + (next - pos)) = some lsn
        rw [← recvCalcLsnOnDataAdd_add hc hs, hlsn]

theorem reachable_parsedLsn_minMark :
    ∃ s, Reachable (step (· == 1)) (init (LogGroup.fresh 8388608) 8204) s ∧
      s.group.parsedIsn = 6 ∧ recvCalcLsnOnDataAdd 8204 s.group.parsedIsn = some s.parser.parsedLsn := by
  obtain ⟨s, hs, hisn, -⟩ := minMarkMtr_run
  exact ⟨s, hs, hisn, reachable_parsedLsn (by decide)
    (initApplierModule_fresh (by norm_num) (by simp [APPLY_BATCH_SIZE])) hs⟩

end ParseSystem

/-! ### Two records the pipeline mishandles -/

/-- The `MLOG_INDEX_LOAD` record of a single-record mini-transaction for page 0 of
tablespace 1: the flagged type, the two ids and an LSN of eight bytes. -/
def indexLoadRecord : List UInt8 := [189, 1, 0, 0, 0, 0, 0, 0, 0, 32, 12]

theorem split_index_load_aborts_parsing :
    ∃ g₀ s s', initApplierModule 8388608 2060 12 = some g₀ ∧
      Reachable (ParseSystem.step fun _ => true) (ParseSystem.init g₀ 8204) s ∧
      s.group.needToParse = 0 ∧ s.parser.batch = none ∧ s.inserted = [] ∧
      Reachable (ParseSystem.step fun _ => true) (ParseSystem.init g₀ 8204) s' ∧
      s'.parser.batch = some (indexLoadRecord.take 5, 0) ∧
      ParseSystem.step (fun _ => true) s' .parse = none ∧
      parseSingleLogRecord (indexLoadRecord.take 5) 5 0 = .error .abort := by
  -- written whole, the record is one batch and parsed to its end
  have hwhole : (([.write 0 2048 [logBlock indexLoadRecord], .acquire, .parse] :
      List ParseAction).foldlM (ParseSystem.step fun _ => true)
      (ParseSystem.init (LogGroup.fresh 8388608) 8204)).map
      (fun s => (s.group.needToParse, s.parser.batch, s.inserted)) = some (0, none, []) := by
    decide +kernel
  -- its first five bytes written alone are a batch that ends inside the body
  have hsplit : (([.write 0 2048 [logBlock (indexLoadRecord.take 5)], .acquire] :
      List ParseAction).foldlM (ParseSystem.step fun _ => true)
      (ParseSystem.init (LogGroup.fresh 8388608) 8204)).map
      (fun s => (s.parser.batch, (ParseSystem.step (fun _ => true) s .parse).isNone)) =
      some (some (indexLoadRecord.take 5, 0), true) := by
    decide +kernel
  obtain ⟨s, hs, hs'⟩ := exists_reachable_of_foldlM Reachable.refl hwhole
  obtain ⟨s', hr, hr'⟩ := exists_reachable_of_foldlM Reachable.refl hsplit
  simp only [Prod.mk.injEq] at hs' hr'
  have hheader : RecordHeader (indexLoadRecord.take 5) 5 0 189 1 0 3 :=
    ⟨by decide, by decide, by decide, by decide, by decide, by decide, 2, by decide, by decide⟩
  exact ⟨_, s, s', initApplierModule_fresh (by norm_num) (by simp [APPLY_BATCH_SIZE]), hs,
    hs'.1, hs'.2.1, hs'.2.2, hr, hr'.1, Option.isNone_iff_eq_none.mp hr'.2,
    parseSingleLogRecord_indexLoad_short hheader (by decide) (by decide)⟩

/-- `log_apply_apply_one_log` has no case for `MLOG_COMP_REC_MIN_MARK`: entries of that type
leave the page as it was, its LSN included. -/
theorem applyFrom_min_marks (rec : RecordApplier) {g : Nat} {page : Page} {logs : List LogEntry}
    (h : ∀ e ∈ logs, e.type = .MLOG_COMP_REC_MIN_MARK) : applyFrom rec g page logs = some page := by
  induction logs with
  | nil => rfl
  | cons e logs ih =>
      have hstep : applyStep rec g page e = some page := by
        by_cases hg : e.logStartLsn < g
        · exact applyStep_skip hg
        · exact applyStep_of_unchanged (Nat.not_lt.mp hg)
            (logApplyApplyOneLog_default (h e List.mem_cons_self))
      simp only [applyFrom, List.foldlM_cons, hstep, Option.bind_eq_bind, Option.bind_some]
      exact ih fun e' he' => h e' (List.mem_cons_of_mem e he')

theorem parser_indexes_unapplied_min_mark :
    ∃ g₀ s, initApplierModule 8388608 2060 12 = some g₀ ∧
      Reachable (ParseSystem.step (· == 1)) (ParseSystem.init g₀ 8204) s ∧
      ∃ e ∈ s.inserted, e.spaceId = 1 ∧ e.type = .MLOG_COMP_REC_MIN_MARK ∧ 0 < e.logLen ∧
        ∀ (rec : RecordApplier) (page : Page), page.getLSN ≤ e.logStartLsn →
          logApplyApplyOneLog rec page.data e = some (false, page.data) ∧
          applyLogs rec page [e] = some page := by
  obtain ⟨s, hs, -, hs'⟩ := minMarkMtr_run
  refine ⟨_, s, initApplierModule_fresh (by norm_num) (by simp [APPLY_BATCH_SIZE]), hs, _,
    by rw [hs']; exact List.mem_singleton_self _, rfl, rfl, by decide, fun rec page _ => ⟨?_, ?_⟩⟩
  · exact logApplyApplyOneLog_default rfl
  · exact applyFrom_min_marks rec (by simp)

end LogDB
