import LogDB.Applier.Delivery
import LogDB.Applier.PageStore

/-!
The data files over whole runs of the apply system. Each call of `log_apply_do_apply` in a
run's history applies its entries to the bytes the file has for the page, so the files replay
the history: a page of the data page group holds its first bytes with the calls' entries for it
applied call after call, and no other page changes.

Without data page readers the calls' entries for a page are the oldest entries the parser
inserted for it, in order, and for entries in LSN order applying them in batches gives what one
pass over all of them gives. The applier then leaves every page as one sequential replay of the
entries applied to it so far.
-/

namespace LogDB

open LogDB.Lib

/-- What the calls of a history do to the bytes of page `a`: each applies the entries it
carries for the page, call after call. -/
def replay (rec : RecordApplier) (a : PageAddress) (tr : List (PageAddress × List LogEntry))
    (data : Nat → UInt8) : Option (Nat → UInt8) :=
  tr.foldlM (fun d call => applyData rec d (listFor a call)) data

section Batches

variable {rec : RecordApplier}

theorem replay_append_call (a : PageAddress) (tr : List (PageAddress × List LogEntry))
    (call : PageAddress × List LogEntry) (data : Nat → UInt8) :
    replay rec a (tr ++ [call]) data = (replay rec a tr data).bind (applyData rec · (listFor a call)) := by
  simp [replay, List.foldlM_append]

theorem WellOrdered.right {pre rest : List LogEntry} (h : WellOrdered (pre ++ rest)) :
    WellOrdered rest :=
  ⟨(List.pairwise_append.mp h.1).2.1, fun e he => h.2 e (List.mem_append_right _ he)⟩

theorem applyFrom_getLSN {g : Nat} {page page' : Page} {logs : List LogEntry}
    (h : applyFrom rec g page logs = some page') :
    page'.getLSN = page.getLSN ∨ ∃ e ∈ logs, page'.getLSN = (e.logStartLsn + e.logLen) % 2 ^ 64 := by
  induction logs generalizing page with
  | nil =>
    cases h
    exact .inl rfl
  | cons e logs ih =>
    simp only [applyFrom, List.foldlM_cons, Option.bind_eq_bind, Option.bind_eq_some_iff] at h
    obtain ⟨page₁, h₁, h⟩ := h
    rcases ih h with hlsn | ⟨e', he', hlsn⟩
    · rcases applyStep_eq h₁ with ⟨-, rfl⟩ | ⟨-, -, rfl⟩ | ⟨-, data, -, rfl⟩
      · exact .inl hlsn
      · exact .inl hlsn
      · exact .inr ⟨e, List.mem_cons_self, by rw [hlsn, getLSN_stamp]⟩
    · exact .inr ⟨e', List.mem_cons_of_mem _ he', hlsn⟩

/-- For entries in LSN order, two calls of the loop, the second from the page the first left,
give what one call on both lists gives: the second call's guard, the page LSN the first left,
lets through the entries the first call's guard would have. -/
theorem applyLogs_append {page : Page} {l₁ l₂ : List LogEntry} (hw : WellOrdered (l₁ ++ l₂)) :
    applyLogs rec page (l₁ ++ l₂) = (applyLogs rec page l₁).bind (applyLogs rec · l₂) := by
  have hsplit : applyLogs rec page (l₁ ++ l₂) =
      (applyFrom rec page.getLSN page l₁).bind (applyFrom rec page.getLSN · l₂) := by
    simp only [applyLogs, applyFrom, List.foldlM_append]
    rfl
  rw [hsplit]
  cases h₁ : applyFrom rec page.getLSN page l₁ with
  | none => simp [applyLogs, h₁]
  | some page₁ =>
      have hle : page.getLSN ≤ page₁.getLSN := applyLogs_getLSN_le hw.of_append h₁
      simp only [Option.bind_some, applyLogs, h₁]
      apply applyFrom_congr_guard hle
      intro e he
      rcases applyFrom_getLSN h₁ with hlsn | ⟨e₁, he₁, hlsn⟩
      · rw [hlsn]
        omega
      · -- the first list's last stamp is the end of an entry before `e`
        have hend := (hw.2 e₁ (List.mem_append_left _ he₁)).2
        have hord : e₁.logStartLsn + e₁.logLen ≤ e.logStartLsn :=
          (List.pairwise_append.mp hw.1).2.2 e₁ he₁ e he
        rw [hlsn, Nat.mod_eq_of_lt hend]
        exact .inr hord

theorem applyData_append {data : Nat → UInt8} {l₁ l₂ : List LogEntry}
    (hw : WellOrdered (l₁ ++ l₂)) :
    applyData rec data (l₁ ++ l₂) = (applyData rec data l₁).bind (applyData rec · l₂) := by
  rw [applyData, applyLogs_append hw, applyData]
  cases applyLogs rec ⟨data, false, false, .INVALID⟩ l₁ with
  | none => rfl
  | some page₁ =>
      simp only [Option.bind_some, Option.map_some]
      exact applyLogs_data rec page₁ l₂

/-- For entries in LSN order, the calls of a history leave a page as one call on all their
entries for it would. -/
theorem replay_eq_applyData (a : PageAddress) :
    ∀ (tr : List (PageAddress × List LogEntry)) (data : Nat → UInt8),
      WellOrdered (tr.flatMap (listFor a)) →
      replay rec a tr data = applyData rec data (tr.flatMap (listFor a))
  | [], data, _ => rfl
  | call :: tr, data, hw => by
      rw [List.flatMap_cons] at hw ⊢
      rw [applyData_append hw, replay, List.foldlM_cons]
      congr 1
      funext d
      exact replay_eq_applyData a tr d hw.right

end Batches

namespace ApplySystem

section Runs

variable {rec : RecordApplier} {dataPageGroup : Nat → Bool} {s t : ApplySystem}

theorem pool_step {act : ApplyAction} (h : step rec dataPageGroup s act = some t) :
    (s.applyCall act = [] ∧ t.pool = s.pool) ∨ ∃ address list,
      s.applyCall act = [(address, list)] ∧
      logApplyDoApply rec dataPageGroup s.pool address list = some t.pool := by
  cases act with
  | insertBack log =>
      obtain rfl := step_insertBack h
      exact .inl ⟨rfl, rfl⟩
  | acquire =>
      obtain ⟨_, _, -, -, rfl⟩ := step_acquire h
      exact .inl ⟨rfl, rfl⟩
  | extractFront =>
      obtain ⟨_, _, _, _, _, -, -, rfl⟩ := step_extractFront h
      exact .inl ⟨rfl, rfl⟩
  | doApply =>
      obtain ⟨address, list, logs, n, pool, hp, hpool, rfl⟩ := step_doApply h
      exact .inr ⟨address, list, by simp [applyCall, ApplierPhase.call, hp], hpool⟩
  | credit =>
      obtain ⟨_, -, rfl⟩ := step_credit h
      exact .inl ⟨rfl, rfl⟩
  | search r address =>
      obtain ⟨-, rfl⟩ := step_search h
      exact .inl ⟨rfl, rfl⟩
  | readerApply r =>
      obtain ⟨address, list, rest, pool, hr, hpool, rfl⟩ := step_readerApply h
      exact .inr ⟨address, list, by simp [applyCall, hr], hpool⟩

variable (rec dataPageGroup) in
/-- The pool keeps its bookkeeping, its frames agree with the files, and each page holds the
replay of the history on its first bytes, or its first bytes outside the data page group. -/
structure Replayed (files : Nat → Option DataFile)
    (p : ApplySystem × List (PageAddress × List LogEntry)) : Prop where
  inv : p.1.pool.Inv
  coherent : p.1.pool.Coherent
  stored : ∀ a, p.1.pool.stored a =
    if dataPageGroup a.spaceId = true then
      ((files a.spaceId).map (·.pages a.pageId)).bind (replay rec a p.2)
    else (files a.spaceId).map (·.pages a.pageId)

theorem replayed_init {files : Nat → Option DataFile}
    (hwf : ∀ sp file, files sp = some file → file.WellFormed) (writtenCapacity : Nat) :
    Replayed rec dataPageGroup files (init files writtenCapacity, []) where
  inv := BufferPool.Inv.init files
  coherent := ⟨hwf, fun _ hf => absurd hf (by simp [init, BufferPool.init])⟩
  stored a := by
    show (files a.spaceId).map (·.pages a.pageId) = _
    split
    · cases files a.spaceId <;> rfl
    · rfl

theorem replayed_step {files : Nat → Option DataFile}
    {p q : ApplySystem × List (PageAddress × List LogEntry)} {act : ApplyAction}
    (hp : Replayed rec dataPageGroup files p)
    (h : traced (step rec dataPageGroup) applyCall p act = some q) :
    Replayed rec dataPageGroup files q := by
  obtain ⟨t, ht, rfl⟩ := traced_eq_some.mp h
  rcases pool_step ht with ⟨hcall, hpool⟩ | ⟨address, list, hcall, hd⟩
  · refine ⟨hpool ▸ hp.inv, hpool ▸ hp.coherent, fun a => ?_⟩
    rw [hcall, List.append_nil, hpool]
    exact hp.stored a
  · obtain ⟨h', hc', hstored⟩ := logApplyDoApply_stored hp.inv hp.coherent hd
    refine ⟨h', hc', fun b => ?_⟩
    rw [hcall, hstored b]
    by_cases hb : b = address
    · subst hb
      rw [hp.stored b]
      by_cases hg : dataPageGroup b.spaceId = true <;>
        simp [hg, replay_append_call, listFor, Option.bind_assoc]
    · rw [hp.stored b]
      by_cases hg : dataPageGroup b.spaceId = true <;>
        simp [hg, hb, replay_append_call, listFor]

theorem reachable_replayed {files : Nat → Option DataFile} {writtenCapacity : Nat}
    (hwf : ∀ sp file, files sp = some file → file.WellFormed)
    {p : ApplySystem × List (PageAddress × List LogEntry)}
    (h : Reachable (traced (step rec dataPageGroup) applyCall) (init files writtenCapacity, []) p) :
    Replayed rec dataPageGroup files p :=
  reachable_induction (replayed_init hwf writtenCapacity) (fun _ _ _ hp ht => replayed_step hp ht) h

/-- Over every run, data page readers included, the buffer pool keeps its bookkeeping and every
frame on the LRU list holds the bytes its data file has for its page, a page the file covers:
the eviction of a dirty frame writes back what the file already has. -/
theorem cached_pages_match_files {files : Nat → Option DataFile} {writtenCapacity : Nat}
    {s : ApplySystem} (hwf : ∀ sp file, files sp = some file → file.WellFormed)
    (h : Reachable (step rec dataPageGroup) (init files writtenCapacity) s) :
    s.pool.Inv ∧ ∀ x ∈ s.pool.lruList, ∃ file,
      s.pool.files (s.pool.frameId2PageAddress x.frame).spaceId = some file ∧
      (s.pool.frameId2PageAddress x.frame).pageId < file.size / DATA_PAGE_SIZE ∧
      file.pages (s.pool.frameId2PageAddress x.frame).pageId = (s.pool.buffer x.frame).data := by
  obtain ⟨tr, htr⟩ : ∃ tr, Reachable (traced (step rec dataPageGroup) applyCall)
      (init files writtenCapacity, []) (s, tr) := h.exists_traced []
  have hr := reachable_replayed hwf htr
  exact ⟨hr.inv, fun x hx => hr.coherent.cached x.frame (List.mem_map_of_mem hx)⟩

/-- Over every run, data page readers included, the data files replay the run's calls of
`log_apply_do_apply`: a page of the data page group holds its first bytes with the entries of
each call for it applied, call after call, and a page of any other tablespace is never
written. -/
theorem pages_replay_calls {files : Nat → Option DataFile} {writtenCapacity : Nat}
    {s : ApplySystem} {tr : List (PageAddress × List LogEntry)}
    (hwf : ∀ sp file, files sp = some file → file.WellFormed)
    (h : Reachable (traced (step rec dataPageGroup) applyCall) (init files writtenCapacity, [])
      (s, tr)) (a : PageAddress) :
    s.pool.stored a =
      if dataPageGroup a.spaceId = true then
        ((files a.spaceId).map (·.pages a.pageId)).bind (replay rec a tr)
      else (files a.spaceId).map (·.pages a.pageId) :=
  (reachable_replayed hwf h).stored a

/-- Without data page readers the applier leaves each page of the data page group as one
sequential replay would: the entries `log_apply_do_apply` has been given for the page are the
oldest the parser inserted for it, in insertion order, and when the page's entries follow one
another in LSN order the page holds its first bytes with all of those entries applied in one
pass of the loop, however the segments cut them into calls. -/
theorem pages_replay_inserted_entries {files : Nat → Option DataFile} {writtenCapacity : Nat}
    {s : ApplySystem} {tr : List (PageAddress × List LogEntry)}
    (hwf : ∀ sp file, files sp = some file → file.WellFormed)
    (h : Reachable (traced (schedulerStep rec dataPageGroup) applyCall)
      (init files writtenCapacity, []) (s, tr)) (a : PageAddress)
    (hdpg : dataPageGroup a.spaceId = true)
    (hw : WellOrdered (s.inserted.filter (·.address = a))) :
    tr.flatMap (listFor a) <+: s.inserted.filter (·.address = a) ∧
      s.pool.stored a = ((files a.spaceId).map (·.pages a.pageId)).bind
        (applyData rec · (tr.flatMap (listFor a))) := by
  have hrest : tr.flatMap (listFor a) ++ (s.phase.pending a ++ s.index.held a) =
      s.inserted.filter (·.address = a) := by
    rw [reachable_placed h a, placed, List.append_assoc]
  have hw' : WellOrdered (tr.flatMap (listFor a)) := by
    rw [← hrest] at hw
    exact hw.of_append
  -- a run of the parser and the scheduler is a run of the whole system
  have hstep : Reachable (traced (step rec dataPageGroup) applyCall)
      (init files writtenCapacity, []) (s, tr) :=
    h.mono fun _ _ _ ht => traced_mono (fun _ _ _ hs => (step_of_schedulerStep hs).2) ht
  have hstored := (reachable_replayed hwf hstep).stored a
  rw [if_pos hdpg] at hstored
  refine ⟨⟨_, hrest⟩, ?_⟩
  rw [hstored]
  congr 1
  funext d
  exact replay_eq_applyData a tr d hw'

end Runs

theorem onePageSpace_wellFormed :
    ∀ sp file, onePageSpace sp = some file → file.WellFormed := by
  intro sp file h
  unfold onePageSpace at h
  split at h
  · cases h
    exact ⟨le_rfl, rfl, fun _ _ => rfl⟩
  · cases h

theorem flushedSpace_wellFormed :
    ∀ sp file, flushedSpace sp = some file → file.WellFormed := by
  intro sp file h
  unfold flushedSpace at h
  split at h
  · cases h
    refine ⟨le_rfl, rfl, fun p hp => ?_⟩
    have hp0 : p ≠ 0 := by
      simp only [DATA_PAGE_SIZE] at hp
      omega
    simp [hp0]
  · cases h

theorem cached_pages_match_files_readerRun :
    ∃ s, Reachable (step .rejectAll fun _ => true) (init onePageSpace 0) s ∧
      0 < s.pool.lruList.length ∧ s.readers 1 ≠ [] ∧
      (s.pool.Inv ∧ ∀ x ∈ s.pool.lruList, ∃ file,
        s.pool.files (s.pool.frameId2PageAddress x.frame).spaceId = some file ∧
        (s.pool.frameId2PageAddress x.frame).pageId < file.size / DATA_PAGE_SIZE ∧
        file.pages (s.pool.frameId2PageAddress x.frame).pageId = (s.pool.buffer x.frame).data) := by
  -- the reader's call left page (1, 0) cached, and a second reader holds an entry
  have hrun : (readerRun.foldlM (step .rejectAll fun _ => true) (init onePageSpace 0)).map
      (fun s => decide (0 < s.pool.lruList.length ∧ s.readers 1 ≠ [])) = some true := by
    decide +kernel
  obtain ⟨s, hr, hs⟩ := exists_reachable_of_foldlM Reachable.refl hrun
  obtain ⟨hlru, hread⟩ := of_decide_eq_true hs
  have hcached := cached_pages_match_files onePageSpace_wellFormed hr
  exact ⟨s, hr, hlru, hread, hcached⟩

theorem pages_replay_calls_readerRun :
    ∃ p, Reachable (traced (step .rejectAll fun _ => true) applyCall) (init onePageSpace 0, []) p ∧
      p.2 ≠ [] ∧ (p.1.pool.stored ⟨1, 0⟩).map (· 100) = some 7 ∧
      p.1.pool.stored ⟨1, 0⟩ =
        if (fun _ => true : Nat → Bool) 1 = true then
          ((onePageSpace 1).map (·.pages 0)).bind (replay .rejectAll ⟨1, 0⟩ p.2)
        else (onePageSpace 1).map (·.pages 0) := by
  have hrun : (readerRun.foldlM (traced (step .rejectAll fun _ => true) applyCall)
      (init onePageSpace 0, [])).map
      (fun p => decide (p.2 ≠ [] ∧ (p.1.pool.stored ⟨1, 0⟩).map (· 100) = some 7)) =
        some true := by
    decide +kernel
  obtain ⟨⟨s, tr⟩, hr, hs⟩ := exists_reachable_of_foldlM Reachable.refl hrun
  obtain ⟨htr, hbyte⟩ := of_decide_eq_true hs
  have hreplay := pages_replay_calls onePageSpace_wellFormed hr ⟨1, 0⟩
  exact ⟨(s, tr), hr, htr, hbyte, hreplay⟩

theorem pages_replay_inserted_entries_schedulerRun :
    ∃ p, Reachable (traced (schedulerStep .rejectAll fun _ => true) applyCall)
        (init flushedSpace 0, []) p ∧
      p.2 ≠ [] ∧ (p.1.pool.stored ⟨1, 0⟩).map (· 100) = some 7 ∧
      WellOrdered (p.1.inserted.filter (·.address = ⟨1, 0⟩)) ∧
      (p.2.flatMap (listFor ⟨1, 0⟩) <+: p.1.inserted.filter (·.address = ⟨1, 0⟩) ∧
        p.1.pool.stored ⟨1, 0⟩ = ((flushedSpace 1).map (·.pages 0)).bind
          (applyData .rejectAll · (p.2.flatMap (listFor ⟨1, 0⟩)))) := by
  -- the string writes are on the flushed page already; the call applies the last write only
  have hrun : (schedulerRun.foldlM (traced (schedulerStep .rejectAll fun _ => true) applyCall)
      ({ init flushedSpace 0 with
        index := ⟨[⟨APPLY_BATCH_SIZE, AList.singleton ⟨1, 0⟩ fullSegment⟩]⟩
        inserted := fullSegment }, [])).map
      (fun p => decide (p.2 ≠ [] ∧ (p.1.pool.stored ⟨1, 0⟩).map (· 100) = some 7 ∧
        WellOrdered (p.1.inserted.filter (·.address = ⟨1, 0⟩)))) = some true := by
    decide +kernel
  obtain ⟨⟨s, tr⟩, hr, hs⟩ := exists_reachable_of_foldlM (reachable_fullSegment_traced _ _) hrun
  obtain ⟨htr, hbyte, hw⟩ := of_decide_eq_true hs
  have hreplay := pages_replay_inserted_entries flushedSpace_wellFormed hr ⟨1, 0⟩ rfl hw
  exact ⟨(s, tr), hr, htr, hbyte, hw, hreplay⟩

end ApplySystem

end LogDB
