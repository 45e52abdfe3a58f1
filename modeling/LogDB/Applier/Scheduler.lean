import LogDB.Applier.ApplyIndex
import LogDB.Applier.LogApply
import LogDB.Lib.Run

/-!
The threads around `apply_index`: the parser's `InsertBack`, the apply scheduler of
`log_apply.cpp` and the data page readers of `wait_until_apply_done`.

`APPLIER_THREAD = 1`, so the scheduler thread is the only worker: it hands every hinted
page to `log_appliers[0]` and runs `log_apply_worker_work(0)` itself. Every method of
`ApplyIndex` and every `log_apply_do_apply` is one atomic step; between them the readers
and the parser may run. A reader's wait for `parsed_isn` only delays its `Search`, and the
runs below search after every insertion.
-/

namespace LogDB

open LogDB.Lib

/-- Where the apply scheduler stands in `log_apply_scheduler_routine`. -/
inductive ApplierPhase where
  /-- in `log_apply_scheduler_acquire` -/
  | acquire
  /-- in the loop of `log_apply_worker_work`, with the pages left and `need_to_apply` -/
  | work (logs : List PageAddress) (needToApply : Nat)
  /-- `ExtractFront` gave the list of `address`; `log_apply_do_apply` is next -/
  | apply (address : PageAddress) (list : List LogEntry) (logs : List PageAddress)
      (needToApply : Nat)
  deriving DecidableEq

structure ApplySystem where
  index : ApplyIndex
  pool : BufferPool
  phase : ApplierPhase
  /-- the lists a reader got from `Search` and has not applied yet -/
  readers : Nat → List (PageAddress × List LogEntry)
  appliedIsn : Nat
  writtenCapacity : Nat
  /-- every entry passed to `InsertBack` so far; no step reads it -/
  inserted : List LogEntry

inductive ApplyAction where
  | insertBack (log : LogEntry)
  | acquire
  | extractFront
  | doApply
  /-- the end of a round: `applied_isn` and `written_capacity` grow by `need_to_apply` -/
  | credit
  | search (reader : Nat) (address : PageAddress)
  | readerApply (reader : Nat)

/-- The pages the scheduler has still to take out of the front segment, and its
`need_to_apply`; none while it acquires. -/
def ApplierPhase.front : ApplierPhase → List PageAddress × Nat
  | .acquire => ([], 0)
  | .work logs n => (logs, n)
  | .apply _ _ logs n => (logs, n)

/-- `Search` and the apply of a data page reader. -/
def ApplyAction.byReader : ApplyAction → Bool
  | .search _ _ | .readerApply _ => true
  | _ => false

namespace ApplySystem

def init (files : Nat → Option DataFile) (writtenCapacity : Nat) : ApplySystem where
  index := {}
  pool := BufferPool.init files
  phase := .acquire
  readers := fun _ => []
  appliedIsn := 0
  writtenCapacity := writtenCapacity
  inserted := []

section Step

variable (rec : RecordApplier) (dataPageGroup : Nat → Bool)

def step (s : ApplySystem) : ApplyAction → Option ApplySystem
  | .insertBack log =>
      some { s with index := s.index.insertBack log, inserted := s.inserted ++ [log] }
  | .acquire =>
      match s.phase with
      | .acquire => do
          let (task, total) ← s.index.extractFrontHint
          some { s with phase := .work task total }
      | _ => none
  | .extractFront =>
      match s.phase with
      | .work (address :: logs) n => do
          let (res, index) ← s.index.extractFront address
          match res with
          -- the list may have been taken by a data page reader
          | none => some { s with index := index, phase := .work logs n }
          | some list => some { s with index := index, phase := .apply address list logs n }
      | _ => none
  | .doApply =>
      match s.phase with
      | .apply address list logs n => do
          let pool ← logApplyDoApply rec dataPageGroup s.pool address list
          some { s with pool := pool, phase := .work logs n }
      | _ => none
  | .credit =>
      match s.phase with
      | .work [] n =>
          some { s with phase := .acquire, appliedIsn := s.appliedIsn + n,
                        writtenCapacity := s.writtenCapacity + n }
      | _ => none
  | .search r address =>
      if s.readers r = [] then
        let (lists, index) := s.index.search address
        some { s with index := index,
                      readers := Function.update s.readers r (lists.map (address, ·)) }
      else none
  | .readerApply r =>
      match s.readers r with
      | [] => none
      | (address, list) :: rest => do
          let pool ← logApplyDoApply rec dataPageGroup s.pool address list
          some { s with pool := pool, readers := Function.update s.readers r rest }

theorem foldlM_insertBack (s : ApplySystem) (l : List LogEntry) :
    (l.map ApplyAction.insertBack).foldlM (step rec dataPageGroup) s =
      some { s with index := l.foldl ApplyIndex.insertBack s.index, inserted := s.inserted ++ l } := by
  induction l generalizing s with
  | nil => simp
  | cons x l ih =>
      simp only [List.map_cons, List.foldlM_cons, step, ih]
      simp [List.append_assoc]

/-- The parser and the apply scheduler alone: no data page is read. -/
def schedulerStep (s : ApplySystem) (a : ApplyAction) : Option ApplySystem :=
  if a.byReader then none else step rec dataPageGroup s a

theorem foldlM_schedulerStep {l : List ApplyAction} (hl : ∀ a ∈ l, a.byReader = false)
    (s : ApplySystem) :
    l.foldlM (schedulerStep rec dataPageGroup) s = l.foldlM (step rec dataPageGroup) s := by
  induction l generalizing s with
  | nil => rfl
  | cons a l ih =>
      have ha : schedulerStep rec dataPageGroup s a = step rec dataPageGroup s a := by
        simp [schedulerStep, hl a List.mem_cons_self]
      simp only [List.foldlM_cons, ha, ih fun a' ha' => hl a' (List.mem_cons_of_mem a ha')]

end Step

/-! ### What one step of the scheduler does -/

section Inversion

variable {rec : RecordApplier} {dataPageGroup : Nat → Bool} {s t : ApplySystem}

theorem step_insertBack {log : LogEntry} (h : step rec dataPageGroup s (.insertBack log) = some t) :
    t = { s with index := s.index.insertBack log, inserted := s.inserted ++ [log] } := by
  simp only [step, Option.some.injEq] at h
  exact h.symm

theorem step_acquire (h : step rec dataPageGroup s .acquire = some t) :
    ∃ task total, s.phase = .acquire ∧ s.index.extractFrontHint = some (task, total) ∧
      t = { s with phase := .work task total } := by
  simp only [step] at h
  split at h
  · rename_i hp
    simp only [Option.bind_eq_bind, Option.bind_eq_some_iff] at h
    obtain ⟨⟨task, total⟩, hh, h⟩ := h
    cases h
    exact ⟨task, total, hp, hh, rfl⟩
  · cases h

theorem step_extractFront (h : step rec dataPageGroup s .extractFront = some t) :
    ∃ address logs n res index, s.phase = .work (address :: logs) n ∧
      s.index.extractFront address = some (res, index) ∧
      t = { s with index := index,
                   phase := match res with
                     | none => .work logs n
                     | some list => .apply address list logs n } := by
  simp only [step] at h
  split at h
  · rename_i address logs n hp
    simp only [Option.bind_eq_bind, Option.bind_eq_some_iff] at h
    obtain ⟨⟨res, index⟩, he, h⟩ := h
    refine ⟨address, logs, n, res, index, hp, he, ?_⟩
    cases res <;> cases h <;> rfl
  · cases h

theorem step_doApply (h : step rec dataPageGroup s .doApply = some t) :
    ∃ address list logs n pool, s.phase = .apply address list logs n ∧
      logApplyDoApply rec dataPageGroup s.pool address list = some pool ∧
      t = { s with pool := pool, phase := .work logs n } := by
  simp only [step] at h
  split at h
  · rename_i address list logs n hp
    simp only [Option.bind_eq_bind, Option.bind_eq_some_iff] at h
    obtain ⟨pool, hpool, h⟩ := h
    cases h
    exact ⟨address, list, logs, n, pool, hp, hpool, rfl⟩
  · cases h

theorem step_credit (h : step rec dataPageGroup s .credit = some t) :
    ∃ n, s.phase = .work [] n ∧
      t = { s with phase := .acquire, appliedIsn := s.appliedIsn + n,
                   writtenCapacity := s.writtenCapacity + n } := by
  simp only [step] at h
  split at h
  · rename_i n hp
    cases h
    exact ⟨n, hp, rfl⟩
  · cases h

end Inversion

/-! ### Runs without data page readers

While no reader runs, the scheduler takes every page of the front segment out of it before the
segment goes, and credits `need_to_apply` once the segment is gone: `applied_isn`, what the
scheduler is about to credit and what the index still holds add up to what the parser
inserted. -/

/-- What the scheduler will credit and the index no longer holds: `need_to_apply` once the
front segment is gone. -/
def owed (phase : ApplierPhase) : Nat :=
  match phase.front with
  | ([], n) => n
  | _ => 0

/-- The index as the scheduler holds it: while pages are left, the front segment is the full
one it acquired, with those pages and its `total_log_len_` as `need_to_apply`; every other
full segment holds a page. -/
def FrontHeld (index : ApplyIndex) : List PageAddress × Nat → Prop
  | ([], _) => ∀ x ∈ index.index, x.Listed
  | (address :: logs, n) => ∃ seg rest, index.index = seg :: rest ∧ seg.full = true ∧
      seg.indexSegment.keys = address :: logs ∧ seg.totalLogLen = n ∧ ∀ x ∈ rest, x.Listed

structure Credited (s : ApplySystem) : Prop where
  balance : s.appliedIsn + owed s.phase + s.index.totalLogLen =
    (s.inserted.map LogEntry.logLen).sum
  held : FrontHeld s.index s.phase.front

theorem frontHeld_insertBack {index : ApplyIndex} {f : List PageAddress × Nat}
    (h : FrontHeld index f) (log : LogEntry) : FrontHeld (index.insertBack log) f := by
  obtain ⟨_ | ⟨address, logs⟩, n⟩ := f
  · exact ApplyIndex.listed_insertBack h log
  · obtain ⟨l⟩ := index
    obtain ⟨seg, rest, rfl, hfull, hkeys, htotal, hrest⟩ := h
    rw [ApplyIndex.insertBack_cons_of_full hfull]
    exact ⟨seg, _, rfl, hfull, hkeys, htotal, ApplyIndex.listed_insertBack hrest log⟩

theorem credited_init (files : Nat → Option DataFile) (writtenCapacity : Nat) :
    (init files writtenCapacity).Credited :=
  ⟨rfl, fun _ h => absurd h List.not_mem_nil⟩

section Step

variable {rec : RecordApplier} {dataPageGroup : Nat → Bool} {s t : ApplySystem}

theorem credited_insertBack {log : LogEntry} (hs : s.Credited)
    (h : step rec dataPageGroup s (.insertBack log) = some t) : t.Credited := by
  obtain rfl := step_insertBack h
  refine ⟨?_, frontHeld_insertBack hs.held log⟩
  have hb := hs.balance
  simp only [ApplyIndex.totalLogLen_insertBack, List.map_append, List.sum_append, List.map_cons,
    List.map_nil, List.sum_cons, List.sum_nil] at hb ⊢
  omega

theorem credited_acquire (hs : s.Credited) (h : step rec dataPageGroup s .acquire = some t) :
    t.Credited := by
  obtain ⟨task, total, hp, hh, rfl⟩ := step_acquire h
  obtain ⟨seg, rest, hi, hfull, rfl, rfl⟩ := ApplyIndex.extractFrontHint_eq_some hh
  have hlisted : ∀ x ∈ s.index.index, x.Listed := by
    simpa [hp, ApplierPhase.front, FrontHeld] using hs.held
  obtain ⟨address, logs, hkeys⟩ := List.exists_cons_of_ne_nil
    (hlisted seg (hi ▸ List.mem_cons_self) hfull)
  have hb := hs.balance
  refine ⟨?_, ?_⟩
  · simpa [hp, owed, ApplierPhase.front, hkeys] using hb
  · simp only [ApplierPhase.front, hkeys]
    exact ⟨seg, rest, hi, hfull, hkeys, rfl, fun x hx => hlisted x (hi ▸ List.mem_cons_of_mem _ hx)⟩

theorem credited_extractFront (hs : s.Credited)
    (h : step rec dataPageGroup s .extractFront = some t) : t.Credited := by
  obtain ⟨address, logs, n, res, index, hp, he, rfl⟩ := step_extractFront h
  obtain ⟨seg, rest, hi, -, rfl⟩ := ApplyIndex.extractFront_eq_some he
  have hheld := hs.held
  rw [hp] at hheld
  obtain ⟨seg', rest', hi', hfull, hkeys, htotal, hrest⟩ := hheld
  rw [hi] at hi'
  obtain ⟨rfl, rfl⟩ := List.cons.inj hi'
  have hb := hs.balance
  rw [hp] at hb
  have hfront : (match res with
      | none => ApplierPhase.work logs n
      | some list => .apply address list logs n).front = (logs, n) := by
    cases res <;> rfl
  have hkeys' : (seg.extractLog address).2.indexSegment.keys = logs := by
    rw [IndexSegment.keys_extractLog, hkeys, List.erase_cons_head]
  cases logs with
  | nil =>
      have hempty : (seg.extractLog address).2.empty = true := by
        simp [IndexSegment.empty, hkeys']
      rw [ApplyIndex.deleteFrontSegment_cons, if_pos hempty]
      refine ⟨?_, by simpa [hfront, FrontHeld] using hrest⟩
      simp only [owed, hfront, ApplyIndex.totalLogLen, hi, List.map_cons, List.sum_cons,
        htotal] at hb ⊢
      simp only [ApplierPhase.front] at hb
      omega
  | cons address' logs =>
      have hempty : (seg.extractLog address).2.empty = false := by
        simp [IndexSegment.empty, hkeys']
      rw [ApplyIndex.deleteFrontSegment_cons, if_neg (by simp [hempty])]
      refine ⟨?_, ?_⟩
      · simp only [owed, hfront] at hb ⊢
        simpa [ApplierPhase.front, ApplyIndex.totalLogLen, hi] using hb
      · rw [hfront]
        exact ⟨_, rest, rfl, hfull, hkeys', htotal, hrest⟩

theorem credited_doApply (hs : s.Credited) (h : step rec dataPageGroup s .doApply = some t) :
    t.Credited := by
  obtain ⟨address, list, logs, n, pool, hp, -, rfl⟩ := step_doApply h
  have hb := hs.balance
  have hheld := hs.held
  rw [hp] at hb hheld
  exact ⟨hb, hheld⟩

theorem credited_credit (hs : s.Credited) (h : step rec dataPageGroup s .credit = some t) :
    t.Credited := by
  obtain ⟨n, hp, rfl⟩ := step_credit h
  have hb := hs.balance
  have hheld := hs.held
  rw [hp] at hb hheld
  refine ⟨?_, hheld⟩
  simp only [owed, ApplierPhase.front] at hb ⊢
  omega

theorem step_of_schedulerStep {a : ApplyAction}
    (h : schedulerStep rec dataPageGroup s a = some t) :
    a.byReader = false ∧ step rec dataPageGroup s a = some t := by
  unfold schedulerStep at h
  split at h
  · cases h
  · rename_i ha
    exact ⟨by simpa using ha, h⟩

theorem schedulerStep_credited {a : ApplyAction} (hs : s.Credited)
    (h : schedulerStep rec dataPageGroup s a = some t) : t.Credited := by
  obtain ⟨ha, h⟩ := step_of_schedulerStep h
  cases a with
  | insertBack log => exact credited_insertBack hs h
  | acquire => exact credited_acquire hs h
  | extractFront => exact credited_extractFront hs h
  | doApply => exact credited_doApply hs h
  | credit => exact credited_credit hs h
  | search r address => simp [ApplyAction.byReader] at ha
  | readerApply r => simp [ApplyAction.byReader] at ha

theorem reachable_credited {files : Nat → Option DataFile} {writtenCapacity : Nat}
    (h : Reachable (schedulerStep rec dataPageGroup) (init files writtenCapacity) s) :
    s.Credited :=
  reachable_induction (credited_init files writtenCapacity)
    (fun _ _ _ hs ht => schedulerStep_credited hs ht) h

end Step

/-! ### A segment filled with the records of one page -/

/-- An `MLOG_1BYTE` record for page 0 of tablespace 1 as the parser indexes it: a
three-byte header and a body of the offset and the value. -/
def byteWrite (lsn : Nat) (body : List UInt8) : LogEntry := ⟨.MLOG_1BYTE, 1, 0, lsn, 6, body⟩

/-- An `MLOG_WRITE_STRING` record of `n` bytes at offset 38 of the same page. -/
def stringWrite (lsn n : Nat) : LogEntry :=
  ⟨.MLOG_WRITE_STRING, 1, 0, lsn, 7 + n, [0, 38, (n / 256).toUInt8, (n % 256).toUInt8] ++
    List.replicate n 0⟩

/-- 8 MiB of records, sorted by LSN: 513 string writes and a one-byte write of 7 at
offset 100, last. -/
def fullSegment : List LogEntry :=
  (List.range 512).map (fun i => stringWrite (8192 + 16353 * i) 16346) ++
    [stringWrite (8192 + 16353 * 512) 15859, byteWrite (8192 + 8388602) [0, 100, 7]]

/-- Tablespace 1 with its page flushed up to the last record of `fullSegment`: the page holds
the zeros the string writes before it wrote, and their LSNs are below its own. -/
def flushedSpace : Nat → Option DataFile :=
  fun s => if s = 1 then
    some ⟨DATA_PAGE_SIZE, fun p => if p = 0 then writeBE (fun _ => 0) FIL_PAGE_LSN 8 (8192 + 8388602)
      else fun _ => 0, false⟩
  else none

/-- After the full segment the parser opens a second one, and the scheduler applies the
first. -/
def schedulerRun : List ApplyAction :=
  [.insertBack (byteWrite (8192 + 8388608) [0, 200, 9]), .acquire, .extractFront, .doApply]

/-- Readers on page (1, 0): the first takes the first write and applies it, the second takes
the second write, and the third write stays in the index. -/
def readerRun : List ApplyAction :=
  [.insertBack (byteWrite 8192 [0, 100, 7]), .search 0 ⟨1, 0⟩, .readerApply 0,
    .insertBack (byteWrite 8198 [0, 101, 8]), .search 1 ⟨1, 0⟩,
    .insertBack (byteWrite 8204 [0, 102, 9])]

theorem fullSegment_index :
    fullSegment.foldl ApplyIndex.insertBack {} =
      ⟨[⟨APPLY_BATCH_SIZE, AList.singleton ⟨1, 0⟩ fullSegment⟩]⟩ := by
  have hsum : (fullSegment.map LogEntry.logLen).sum = APPLY_BATCH_SIZE := by decide +kernel
  rw [ApplyIndex.foldl_insertBack_one_page (a := ⟨1, 0⟩) fullSegment (by decide +kernel) (by decide +kernel)
    (by decide +kernel), hsum]

/-- The parser fills the first segment with the records of `fullSegment`. -/
theorem foldlM_fullSegment (rec : RecordApplier) (dataPageGroup : Nat → Bool)
    (files : Nat → Option DataFile) (writtenCapacity : Nat) :
    (fullSegment.map ApplyAction.insertBack).foldlM (step rec dataPageGroup)
      (init files writtenCapacity) =
      some { init files writtenCapacity with
        index := ⟨[⟨APPLY_BATCH_SIZE, AList.singleton ⟨1, 0⟩ fullSegment⟩]⟩
        inserted := fullSegment } := by
  rw [foldlM_insertBack, show (init files writtenCapacity).index = {} from rfl, fullSegment_index,
    show (init files writtenCapacity).inserted = [] from rfl, List.nil_append]

theorem reachable_fullSegment (rec : RecordApplier) (dataPageGroup : Nat → Bool)
    (files : Nat → Option DataFile) (writtenCapacity : Nat) :
    Reachable (step rec dataPageGroup) (init files writtenCapacity)
      { init files writtenCapacity with
        index := ⟨[⟨APPLY_BATCH_SIZE, AList.singleton ⟨1, 0⟩ fullSegment⟩]⟩
        inserted := fullSegment } :=
  reachable_of_foldlM Reachable.refl (foldlM_fullSegment rec dataPageGroup files writtenCapacity)

/-- Without data page readers, `applied_isn` grows by each segment once: with what the
scheduler is about to credit and what the index holds, it is what the parser inserted. -/
theorem appliedIsn_credited_once {rec : RecordApplier} {dataPageGroup : Nat → Bool}
    {files : Nat → Option DataFile} {writtenCapacity : Nat} {s : ApplySystem}
    (h : Reachable (schedulerStep rec dataPageGroup) (init files writtenCapacity) s) :
    s.appliedIsn + owed s.phase + s.index.totalLogLen = (s.inserted.map LogEntry.logLen).sum ∧
      s.appliedIsn ≤ (s.inserted.map LogEntry.logLen).sum := by
  have hb := (reachable_credited h).balance
  exact ⟨hb, by omega⟩

theorem appliedIsn_credited_once_fullSegment :
    ∃ s, Reachable (schedulerStep .rejectAll fun _ => false) (init (fun _ => none) 0) s ∧
      s.appliedIsn = APPLY_BATCH_SIZE ∧ s.phase = .acquire ∧
      (s.appliedIsn + owed s.phase + s.index.totalLogLen = (s.inserted.map LogEntry.logLen).sum ∧
        s.appliedIsn ≤ (s.inserted.map LogEntry.logLen).sum) := by
  -- the scheduler takes the full segment page by page and credits it once
  have hfull := reachable_of_foldlM Reachable.refl
    ((foldlM_schedulerStep .rejectAll (fun _ => false) (by simp [ApplyAction.byReader]) _).trans
      (foldlM_fullSegment .rejectAll (fun _ => false) (fun _ => none) 0))
  have hrun : (([.acquire, .extractFront, .doApply, .credit] : List ApplyAction).foldlM
      (schedulerStep .rejectAll fun _ => false)
      { init (fun _ => none) 0 with
        index := ⟨[⟨APPLY_BATCH_SIZE, AList.singleton ⟨1, 0⟩ fullSegment⟩]⟩
        inserted := fullSegment }).map
      (fun s => decide (s.appliedIsn = APPLY_BATCH_SIZE ∧ s.phase = .acquire)) = some true := by
    decide +kernel
  obtain ⟨s, hr, hs⟩ := exists_reachable_of_foldlM hfull hrun
  obtain ⟨happ, hphase⟩ := of_decide_eq_true hs
  exact ⟨s, hr, happ, hphase, appliedIsn_credited_once hr⟩

theorem credits_one_segment_twice :
    ∃ s, Reachable (step .rejectAll fun _ => true) (init (fun _ => none) 0) s ∧
      (s.inserted.map LogEntry.logLen).sum < s.appliedIsn := by
  -- a reader empties the full front segment; no `ExtractFront` then ever deletes it
  have hrun : (([.search 0 ⟨1, 0⟩, .acquire, .credit, .acquire, .credit] : List ApplyAction).foldlM
      (step .rejectAll fun _ => true)
      { init (fun _ => none) 0 with
        index := ⟨[⟨APPLY_BATCH_SIZE, AList.singleton ⟨1, 0⟩ fullSegment⟩]⟩
        inserted := fullSegment }).map
      (fun s => decide ((s.inserted.map LogEntry.logLen).sum < s.appliedIsn)) = some true := by
    decide +kernel
  obtain ⟨s, hr, hs⟩ := exists_reachable_of_foldlM (reachable_fullSegment _ _ _ _) hrun
  exact ⟨s, hr, of_decide_eq_true hs⟩

theorem reader_applies_newer_entry_first :
    ∃ s, Reachable (step .rejectAll fun _ => true) (init onePageSpace 0) s ∧
      byteWrite (8192 + 8388602) [0, 100, 7] ∈ s.inserted ∧
      byteWrite (8192 + 8388608) [0, 200, 9] ∈ s.inserted ∧
      s.phase = .acquire ∧ s.readers 0 = [] ∧
      (∀ seg ∈ s.index.index, seg.indexSegment.lookup ⟨1, 0⟩ = none) ∧
      (s.pool.files 1).map (fun f => (readBE (f.pages 0) FIL_PAGE_LSN 8, f.pages 0 100,
        f.pages 0 200)) = some (8192 + 8388614, 0, 9) := by
  -- the worker holds the first segment's list while a reader applies the newer entry
  have hrun : (([.insertBack (byteWrite (8192 + 8388608) [0, 200, 9]), .acquire, .extractFront,
        .search 0 ⟨1, 0⟩, .readerApply 0, .doApply, .credit] : List ApplyAction).foldlM
      (step .rejectAll fun _ => true)
      { init onePageSpace 0 with
        index := ⟨[⟨APPLY_BATCH_SIZE, AList.singleton ⟨1, 0⟩ fullSegment⟩]⟩
        inserted := fullSegment }).map
      (fun s => decide (byteWrite (8192 + 8388602) [0, 100, 7] ∈ s.inserted ∧
        byteWrite (8192 + 8388608) [0, 200, 9] ∈ s.inserted ∧
        s.phase = .acquire ∧ s.readers 0 = [] ∧
        (∀ seg ∈ s.index.index, seg.indexSegment.lookup ⟨1, 0⟩ = none) ∧
        (s.pool.files 1).map (fun f => (readBE (f.pages 0) FIL_PAGE_LSN 8, f.pages 0 100,
          f.pages 0 200)) = some (8192 + 8388614, 0, 9))) = some true := by
    decide +kernel
  obtain ⟨s, hr, hs⟩ := exists_reachable_of_foldlM (reachable_fullSegment _ _ _ _) hrun
  exact ⟨s, hr, of_decide_eq_true hs⟩

end ApplySystem

/-! ### Starting the applier threads -/

/-- The loop of `log_apply_thread_start` that starts the workers: `i` counts up from 0 while
the body also lowers `n_thread`. The slot of every worker it starts. -/
def startWorkers (i nThread : Nat) : List Nat :=
  if i < nThread then i :: startWorkers (i + 1) (nThread - 1) else []
termination_by nThread - i

/-- `log_apply_thread_start(n_thread)`: the slot each thread it starts runs
`log_apply_worker_work` for, the scheduler's first. -/
def logApplyThreadStart (nThread : Nat) : List Nat :=
  0 :: startWorkers 0 (nThread - 1)

/-- One turn of the loop of `log_apply_scheduler_routine` that deals the pages of a round:
`item` goes to `log_appliers[next_applier].logs`, and `next_applier` moves on modulo the
number of appliers. -/
def dealPage (n : Nat) (acc : (Nat → List PageAddress) × Nat) (item : PageAddress) :
    (Nat → List PageAddress) × Nat :=
  (Function.update acc.1 acc.2 (acc.1 acc.2 ++ [item]), (acc.2 + 1) % n)

/-- The `logs` of every applier after the scheduler dealt the pages of a round to `n`
appliers. -/
def dispatch (n : Nat) (task : List PageAddress) : Nat → List PageAddress :=
  (task.foldl (dealPage n) (fun _ => [], 0)).1

/-- The loop starts the workers `i`, `i + 1`, ... and stops half way: each turn both raises
`i` and lowers `n_thread`. -/
theorem startWorkers_eq (i nThread : Nat) :
    startWorkers i nThread = List.range' i ((nThread - i + 1) / 2) := by
  induction i, nThread using startWorkers.induct with
  | case1 i nThread h ih =>
      rw [startWorkers, if_pos h, ih]
      obtain ⟨k, hk⟩ : ∃ k, (nThread - i + 1) / 2 = k + 1 := ⟨(nThread - i + 1) / 2 - 1, by omega⟩
      rw [hk, List.range'_succ]
      congr 2
      omega
  | case2 i nThread h =>
      rw [startWorkers, if_neg h, show (nThread - i + 1) / 2 = 0 by omega, List.range'_zero]

theorem logApplyThreadStart_eq {n : Nat} (hn : 1 ≤ n) :
    logApplyThreadStart n = 0 :: List.range (n / 2) := by
  rw [logApplyThreadStart, startWorkers_eq, List.range_eq_range', show n - 1 - 0 + 1 = n by omega]

/-- A dealt page stays with its applier, and the page at position `j` of the round goes to
applier `(next + j) % n`. -/
theorem mem_foldl_dealPage {n : Nat} (hn : 0 < n) :
    ∀ (task : List PageAddress) (logs : Nat → List PageAddress) (next : Nat),
      (∀ k x, x ∈ logs k → x ∈ (task.foldl (dealPage n) (logs, next)).1 k) ∧
      ∀ j (hj : j < task.length), next < n →
        task[j] ∈ (task.foldl (dealPage n) (logs, next)).1 ((next + j) % n)
  | [], logs, next => ⟨fun _ _ hx => hx, fun _ hj => absurd hj (Nat.not_lt_zero _)⟩
  | x :: xs, logs, next => by
      obtain ⟨hmono, hpos⟩ := mem_foldl_dealPage hn xs
        (Function.update logs next (logs next ++ [x])) ((next + 1) % n)
      refine ⟨fun k y hy => hmono k y ?_, fun j hj hnext => ?_⟩
      · by_cases hk : k = next
        · subst hk
          simp [hy]
        · rwa [Function.update_of_ne hk]
      · cases j with
        | zero =>
            refine hmono _ _ ?_
            simp [Nat.mod_eq_of_lt hnext]
        | succ j =>
            have h := hpos j (by simpa using hj) (Nat.mod_lt _ hn)
            rwa [Nat.mod_add_mod, Nat.add_right_comm, Nat.add_assoc] at h

theorem mem_dispatch {n : Nat} (hn : 0 < n) {task : List PageAddress} {j : Nat}
    (hj : j < task.length) : task[j] ∈ dispatch n task (j % n) := by
  have h := (mem_foldl_dealPage hn task (fun _ => []) 0).2 j hj hn
  rwa [Nat.zero_add] at h

/-- With more than one applier, `log_apply_thread_start` starts its workers from slot 0,
which the scheduler serves already, and only half of them: slot 0 has two threads, slot
`n - 1` has none, and the page the scheduler deals to that slot in a round is never passed
to `ExtractFront`. -/
theorem last_applier_never_started {n : Nat} (hn : 2 ≤ n) (task : List PageAddress)
    (hlen : n ≤ task.length) :
    (logApplyThreadStart n).count 0 = 2 ∧ n - 1 ∉ logApplyThreadStart n ∧
      task[n - 1] ∈ dispatch n task (n - 1) := by
  have hstart := logApplyThreadStart_eq (by omega : 1 ≤ n)
  refine ⟨?_, ?_, ?_⟩
  · obtain ⟨k, hk⟩ : ∃ k, n / 2 = k + 1 := ⟨n / 2 - 1, by omega⟩
    rw [hstart, hk, List.range_succ_eq_map]
    simp [List.count_eq_zero]
  · rw [hstart]
    simp only [List.mem_cons, List.mem_range, not_or]
    omega
  · have h := mem_dispatch (by omega : 0 < n) (by omega : n - 1 < task.length)
    rwa [Nat.mod_eq_of_lt (by omega)] at h

theorem last_applier_never_started_two :
    2 ≤ 2 ∧ 2 ≤ [(⟨1, 0⟩ : PageAddress), ⟨1, 1⟩].length ∧
      ((logApplyThreadStart 2).count 0 = 2 ∧ 2 - 1 ∉ logApplyThreadStart 2 ∧
        (⟨1, 1⟩ : PageAddress) ∈ dispatch 2 [⟨1, 0⟩, ⟨1, 1⟩] (2 - 1)) :=
  ⟨le_rfl, le_rfl, last_applier_never_started le_rfl [⟨1, 0⟩, ⟨1, 1⟩] le_rfl⟩

end LogDB
