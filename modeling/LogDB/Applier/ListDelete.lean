import LogDB.Applier.DeleteRec
import LogDB.Applier.PageCreate

/-!
The record deletes of the redo applier on a well-formed page. `page_delete_rec_list_start`
deletes the records before a given one by `page_cur_delete_rec`, one after the other: each turn
moves the first user record to the head of the free list, so the loop moves the records it
passes over onto the free list in reverse order (`deleteRecsBefore_wellFormed`). The appliers
of `MLOG_COMP_REC_DELETE` and `MLOG_COMP_LIST_START_DELETE` keep a well-formed page well formed
when their body names a user record of it, and so does a whole run of the loop of
`log_apply_do_apply` over record deletes, its LSN and checksum stamps included
(`applyFrom_recDeletes_wellFormed`). From the supremum, `page_delete_rec_list_start`
deletes every record by recreating the page, which leaves the empty page of
`LogDB.Applier.PageCreate` whatever the page held.
-/

namespace LogDB

open LogDB.Lib

section ListStart

variable {info : RecordInfo}

theorem head?_append_singleton (D rest : List Nat) (r : Nat) :
    (D ++ [r]).head? = some (D ++ r :: rest)[0] := by
  cases D <;> rfl

/-- The loop of `page_delete_rec_list_start` on a well-formed page whose list runs from `a`
through the records `D` to `r`: with a turn for each record of `D` and one more, it deletes
`D`, one record after the other, and leaves a well-formed page whose list goes from `a` straight
to `r`, with `D` in reverse at the head of the free list. -/
theorem deleteRecsBefore_wellFormed (hnb : info.NullableBound) {a r : Nat} {rest : List Nat}
    (D : List Nat) {page : Nat → UInt8} {ps frees : List Nat} {fuel : Nat}
    (hw : WellFormedPage page info (a :: (D ++ r :: rest)) ps frees)
    (hlay : RecordLayout page info (a :: (D ++ r :: rest)) frees ps.length)
    (hfuel : D.length < fuel) :
    ∃ page' ps', deleteRecsBefore info r fuel (D ++ [r]).head? page = some page' ∧
      WellFormedPage page' info (a :: r :: rest) ps' (D.reverse ++ frees) ∧
      RecordLayout page' info (a :: r :: rest) (D.reverse ++ frees) ps'.length := by
  -- one `page_cur_delete_rec` a turn, by induction on the records left to delete
  induction D generalizing page ps frees fuel with
  | nil =>
      obtain ⟨fuel, rfl⟩ : ∃ k, fuel = k + 1 := ⟨fuel - 1, by simp at hfuel; omega⟩
      exact ⟨page, ps, by simp [deleteRecsBefore], hw, hlay⟩
  | cons d D ih =>
      obtain ⟨fuel, rfl⟩ : ∃ k, fuel = k + 1 := ⟨fuel - 1, by simp at hfuel; omega⟩
      rw [List.cons_append] at hw hlay
      have hdr : d ≠ r := by
        have hnd := (List.nodup_cons.mp hw.records.nodup).2
        exact fun h => (List.nodup_cons.mp hnd).1 (h ▸ List.mem_append_right _ List.mem_cons_self)
      have hd : d ∈ userRecs (a :: d :: (D ++ r :: rest)) :=
        getElem_mem_userRecs (p := 1) (by omega) (by simp)
      obtain ⟨offsets, -, hoff, -⟩ := hlay.extra d hd
      obtain ⟨page1, ps1, hdel, hw1, hlay1, -⟩ :=
        pageCurDeleteRec_erase hw hlay hnb (p := 1) (by omega) (by simp) hoff
      obtain ⟨page', ps', hrun, hw', hlay'⟩ := ih hw1 hlay1 (by simp at hfuel; omega)
      refine ⟨page', ps', ?_, by simpa using hw', by simpa using hlay'⟩
      rw [head?_append_singleton D rest r] at hrun
      simp only [deleteRecsBefore, List.cons_append, List.head?_cons, Option.some.injEq, hdr,
        if_false, Option.bind_eq_bind, Option.bind_some, hoff]
      rw [show getElem (a :: d :: (D ++ r :: rest)) 1 (by simp) = d from rfl] at hdel
      simp only [hdel, Option.bind_some]
      exact hrun

variable {page : Nat → UInt8} {ps frees : List Nat}

theorem pageDeleteRecListStart_wellFormed (hnb : info.NullableBound) {a r : Nat}
    {D rest : List Nat} (hw : WellFormedPage page info (a :: (D ++ r :: rest)) ps frees)
    (hlay : RecordLayout page info (a :: (D ++ r :: rest)) frees ps.length) (hrest : rest ≠ []) :
    ∃ page' ps', pageDeleteRecListStart page info r = some page' ∧
      WellFormedPage page' info (a :: r :: rest) ps' (D.reverse ++ frees) ∧
      RecordLayout page' info (a :: r :: rest) (D.reverse ++ frees) ps'.length := by
  have hl := hw.records
  have hnd := hl.nodup
  have hmem : r ∈ D ++ r :: rest := List.mem_append_right _ List.mem_cons_self
  -- `r` is neither the infimum, which heads the list, nor the supremum, which ends it
  have hinf : r ≠ PAGE_NEW_INFIMUM := by
    obtain rfl : a = PAGE_NEW_INFIMUM := Option.some.inj hl.head
    exact fun h => (List.nodup_cons.mp hnd).1 (h ▸ hmem)
  have hsup : r ≠ PAGE_NEW_SUPREMUM := by
    have hlast := hl.last
    rw [List.getLast?_cons, List.getLast?_append, List.getLast?_cons,
      List.getLast?_eq_some_getLast hrest] at hlast
    simp only [Option.some_or, Option.getD_some, Option.some.injEq] at hlast
    have hr : r ∉ D ++ rest := (List.nodup_cons.mp (List.nodup_middle.mp (List.nodup_cons.mp hnd).2)).1
    exact fun h => hr (List.mem_append_right _ (h ▸ hlast ▸ List.getLast_mem hrest))
  have hfirst : pageRecGetNext page PAGE_NEW_INFIMUM = (D ++ [r]).head? := by
    rw [← Option.some.inj hl.head, head?_append_singleton D rest r]
    exact hl.linked_pageRecGetNext 0 (by simp)
  have hfuel : D.length < DATA_PAGE_SIZE := by
    have := hl.length_le
    simp only [List.length_cons, List.length_append] at this
    omega
  rw [pageDeleteRecListStart, if_neg hinf, if_neg hsup, hfirst]
  exact deleteRecsBefore_wellFormed hnb D hw hlay hfuel

end ListStart

/-! ### The appliers -/

section Appliers

open Decoder

variable {log : LogEntry} {page : Nat → UInt8} {info : RecordInfo} {ps frees : List Nat}
  {r q : Nat}

theorem recDeleteBody_nullableBound {buf : List UInt8} {stop ptr : Nat}
    (h : recDeleteBody buf stop ptr = .ok ((info, r), q)) : info.NullableBound := by
  obtain ⟨info', q', hinfo, hrest⟩ := bind_ok h
  obtain ⟨r', q'', -, hpure⟩ := bind_ok hrest
  obtain ⟨rfl, -⟩ := Prod.mk.inj (Prod.mk.inj (Except.ok.inj hpure)).1
  exact parseRecInfoFromLog_nullableBound _ hinfo

theorem listDeleteBody_nullableBound {buf : List UInt8} {stop ptr : Nat}
    (h : listDeleteBody buf stop ptr = .ok ((info, r), q)) : info.NullableBound := by
  obtain ⟨info', q', hinfo, hrest⟩ := bind_ok h
  obtain ⟨p1, q1, -, h1⟩ := bind_ok hrest
  obtain ⟨u, q2, -, h2⟩ := bind_ok h1
  obtain ⟨u', q3, -, hpure⟩ := bind_ok h2
  obtain ⟨rfl, -⟩ := Prod.mk.inj (Prod.mk.inj (Except.ok.inj hpure)).1
  exact parseRecInfoFromLog_nullableBound _ hinfo

theorem applyCompRecDelete_wellFormed {recs : List Nat}
    (hbody : recDeleteBody log.body log.body.length 0 = .ok ((info, r), q))
    (hw : WellFormedPage page info recs ps frees)
    (hlay : RecordLayout page info recs frees ps.length) {p : Nat} (hp : 0 < p)
    (hr : recs[p]? = some r) (hpl : p + 1 < recs.length) :
    ∃ page' ps', applyCompRecDelete log page = some (true, page') ∧
      WellFormedPage page' info (recs.eraseIdx p) ps' (r :: frees) ∧
      RecordLayout page' info (recs.eraseIdx p) (r :: frees) ps'.length := by
  obtain rfl : recs[p] = r := (List.getElem?_eq_some_iff.mp hr).2
  obtain ⟨offsets, -, hoff, -⟩ := hlay.extra _ (getElem_mem_userRecs hp hpl)
  obtain ⟨page', ps', hdel, hw', hlay', -⟩ :=
    pageCurDeleteRec_erase hw hlay (recDeleteBody_nullableBound hbody) hp hpl hoff
  refine ⟨page', ps', ?_, hw', hlay'⟩
  simp only [applyCompRecDelete, hbody, hoff, hdel, Option.bind_eq_bind, Option.bind_some]
  rfl

/-- A turn of the loop of `log_apply_do_apply`, with the dispatcher as modelled, on an
`MLOG_COMP_REC_DELETE` whose body names the user record `r` of a well-formed page: the record
goes to the free list, and the page stays well formed once its LSN and its checksum are stamped,
which lie outside what the invariant reads. -/
theorem applyStep_recDelete_wellFormed {pageLsn : Nat} {frame : Page} {recs : List Nat}
    (htype : log.type = .MLOG_COMP_REC_DELETE) (hlsn : pageLsn ≤ log.logStartLsn)
    (hbody : recDeleteBody log.body log.body.length 0 = .ok ((info, r), q))
    (hw : WellFormedPage frame.data info recs ps frees)
    (hlay : RecordLayout frame.data info recs frees ps.length) {p : Nat} (hp : 0 < p)
    (hr : recs[p]? = some r) (hpl : p + 1 < recs.length) :
    ∃ frame' ps', applyStep .ofSource pageLsn frame log = some frame' ∧
      WellFormedPage frame'.data info (recs.eraseIdx p) ps' (r :: frees) ∧
      RecordLayout frame'.data info (recs.eraseIdx p) (r :: frees) ps'.length := by
  obtain ⟨data, ps', happly, hw', hlay'⟩ := applyCompRecDelete_wellFormed hbody hw hlay hp hr hpl
  have hone : logApplyApplyOneLog .ofSource frame.data log = some (true, data) := by
    simp only [logApplyApplyOneLog, htype, RecordApplier.ofSource, RecordApplier.withInPlace,
      RecordApplier.withInserts, RecordApplier.withDeletes]
    exact happly
  -- the stamps of the turn lie outside what the invariant reads
  obtain ⟨hw'', hlay''⟩ := hw'.of_eqOn hlay' (fun _ => stamp_data_of_mem)
    (recDeleteBody_nullableBound hbody)
  exact ⟨_, ps', applyStep_of_applied hlsn hone, hw'', hlay''⟩

/-- A run of the loop of `log_apply_do_apply`, with the dispatcher as modelled, over
`MLOG_COMP_REC_DELETE` records at or past the page LSN, each naming a user record of a
well-formed page that no other names: every turn succeeds, the named records leave the list,
and the page stays well formed, its free list headed by the named records, the last deleted
first. -/
theorem applyFrom_recDeletes_wellFormed {pageLsn : Nat} {logs : List LogEntry} {rs : List Nat}
    (hlogs : List.Forall₂ (fun log r => log.type = .MLOG_COMP_REC_DELETE ∧
      pageLsn ≤ log.logStartLsn ∧ ∃ q, recDeleteBody log.body log.body.length 0 = .ok ((info, r), q))
      logs rs)
    (hnd : rs.Nodup) {frame : Page} {recs : List Nat}
    (hw : WellFormedPage frame.data info recs ps frees)
    (hlay : RecordLayout frame.data info recs frees ps.length)
    (hrs : ∀ r ∈ rs, r ∈ userRecs recs) :
    ∃ frame' recs' ps', applyFrom .ofSource pageLsn frame logs = some frame' ∧
      WellFormedPage frame'.data info recs' ps' (rs.reverse ++ frees) ∧
      RecordLayout frame'.data info recs' (rs.reverse ++ frees) ps'.length ∧
      ∀ x, x ∈ recs' ↔ x ∈ recs ∧ x ∉ rs := by
  -- induction on the run, the page and its lists carried from turn to turn
  induction hlogs generalizing frame recs ps frees with
  | nil => exact ⟨frame, recs, ps, rfl, hw, hlay, fun x => by simp⟩
  | @cons log r logs rs hhead htail ih =>
    obtain ⟨htype, hlsn, q, hbody⟩ := hhead
    obtain ⟨hnotin, hnd'⟩ := List.nodup_cons.mp hnd
    obtain ⟨p, hp, hpl, hr⟩ := exists_getElem?_of_mem_userRecs (hrs r List.mem_cons_self)
    have hnodup := hw.records.nodup
    obtain ⟨frame1, ps1, hstep, hw1, hlay1⟩ :=
      applyStep_recDelete_wellFormed htype hlsn hbody hw hlay hp hr hpl
    have hrs1 : ∀ x ∈ rs, x ∈ userRecs (recs.eraseIdx p) := fun x hx =>
      mem_userRecs_eraseIdx hnodup hp hpl hr (hrs x (List.mem_cons_of_mem _ hx))
        (fun h => hnotin (h ▸ hx))
    obtain ⟨frame', recs', ps', hrun, hw', hlay', hmem⟩ := ih hnd' hw1 hlay1 hrs1
    have hfrees : (r :: rs).reverse ++ frees = rs.reverse ++ r :: frees := by
      rw [List.reverse_cons, List.append_assoc, List.singleton_append]
    refine ⟨frame', recs', ps', ?_, hfrees ▸ hw', hfrees ▸ hlay', fun x => ?_⟩
    · simp only [applyFrom, List.foldlM_cons, hstep, Option.bind_eq_bind, Option.bind_some]
      exact hrun
    · rw [hmem, mem_eraseIdx_iff_of_nodup hnodup hr, List.mem_cons, not_or]
      tauto

set_option maxRecDepth 4000 in
/-- A run of two deletes, of the first two user records of `eightRecPage`, on a frame whose page
LSN is below theirs: the free list ends with the second at its head. -/
theorem applyFrom_recDeletes_wellFormed_eightRecPage :
    let log₁ : LogEntry := ⟨.MLOG_COMP_REC_DELETE, 0, 3, 100, 5, [0, 1, 0, 1, 0x80, 0x01, 0, 125]⟩
    let log₂ : LogEntry := ⟨.MLOG_COMP_REC_DELETE, 0, 3, 108, 5, [0, 1, 0, 1, 0x80, 0x01, 0, 131]⟩
    List.Forall₂ (fun log r => log.type = .MLOG_COMP_REC_DELETE ∧ 0 ≤ log.logStartLsn ∧
        ∃ q, recDeleteBody log.body log.body.length 0 = .ok ((byteIndex, r), q))
        [log₁, log₂] [125, 131] ∧
      ∃ frame' recs' ps',
        applyFrom .ofSource 0 ⟨eightRecPage, false, false, .FROM_DISK⟩ [log₁, log₂] =
          some frame' ∧
        WellFormedPage frame'.data byteIndex recs' ps' [131, 125] ∧
        RecordLayout frame'.data byteIndex recs' [131, 125] ps'.length ∧
        ∀ x, x ∈ recs' ↔ x ∈ [99, 125, 131, 137, 143, 149, 155, 161, 167, 112] ∧
          x ∉ [125, 131] := by
  intro log₁ log₂
  have hlogs : List.Forall₂ (fun log r => log.type = .MLOG_COMP_REC_DELETE ∧
      0 ≤ log.logStartLsn ∧ ∃ q, recDeleteBody log.body log.body.length 0 = .ok ((byteIndex, r), q))
      [log₁, log₂] [125, 131] :=
    .cons ⟨rfl, Nat.zero_le _, 8, by decide⟩ (.cons ⟨rfl, Nat.zero_le _, 8, by decide⟩ .nil)
  have hw : WellFormedPage (⟨eightRecPage, false, false, .FROM_DISK⟩ : Page).data byteIndex
      [99, 125, 131, 137, 143, 149, 155, 161, 167, 112] [0, 4, 9] [] := eightRecPage_wellFormed
  exact ⟨hlogs, applyFrom_recDeletes_wellFormed hlogs (by decide) hw eightRecPage_layout
    (by decide)⟩

/-- `ApplyCompListDelete` of an `MLOG_COMP_LIST_START_DELETE` whose body names the user record
`r` of a well-formed page laid out for the index the body carries: the records before `r` go to
the free list, and the page stays well formed. -/
theorem applyCompListDelete_start_wellFormed (htype : log.type = .MLOG_COMP_LIST_START_DELETE)
    (hbody : listDeleteBody log.body log.body.length 0 = .ok ((info, r), q)) {a : Nat}
    {D rest : List Nat} (hw : WellFormedPage page info (a :: (D ++ r :: rest)) ps frees)
    (hlay : RecordLayout page info (a :: (D ++ r :: rest)) frees ps.length) (hrest : rest ≠ []) :
    ∃ page' ps', applyCompListDelete log page = some (true, page') ∧
      WellFormedPage page' info (a :: r :: rest) ps' (D.reverse ++ frees) ∧
      RecordLayout page' info (a :: r :: rest) (D.reverse ++ frees) ps'.length := by
  obtain ⟨page', ps', hrun, hw', hlay'⟩ :=
    pageDeleteRecListStart_wellFormed (listDeleteBody_nullableBound hbody) hw hlay hrest
  refine ⟨page', ps', ?_, hw', hlay'⟩
  simp only [applyCompListDelete, hbody, htype, reduceCtorEq, if_false, hrun, Option.bind_eq_bind,
    Option.bind_some]
  rfl

set_option maxRecDepth 4000 in
/-- An `MLOG_COMP_LIST_START_DELETE` up to the third user record of `eightRecPage`, which
deletes the two before it. -/
theorem applyCompListDelete_start_wellFormed_eightRecPage :
    let log : LogEntry :=
      ⟨.MLOG_COMP_LIST_START_DELETE, 0, 3, 100, 5, [0, 1, 0, 1, 0x80, 0x01, 0, 137]⟩
    log.type = .MLOG_COMP_LIST_START_DELETE ∧
      listDeleteBody log.body log.body.length 0 = .ok ((byteIndex, 137), 8) ∧
      ∃ page' ps', applyCompListDelete log eightRecPage = some (true, page') ∧
        WellFormedPage page' byteIndex [99, 137, 143, 149, 155, 161, 167, 112] ps' [131, 125] ∧
        RecordLayout page' byteIndex [99, 137, 143, 149, 155, 161, 167, 112] [131, 125]
          ps'.length := by
  intro log
  have hbody : listDeleteBody log.body log.body.length 0 = .ok ((byteIndex, 137), 8) := by decide
  exact ⟨rfl, hbody, applyCompListDelete_start_wellFormed rfl hbody (D := [125, 131])
    eightRecPage_wellFormed eightRecPage_layout (by decide)⟩

end Appliers

end LogDB
