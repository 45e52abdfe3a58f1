import LogDB.Applier.Scheduler

/-!
Where the redo entries of a page are in every state of the apply system. The parser's
`InsertBack` puts each entry in the index; `ExtractFront` or a reader's `Search` takes a page's
list out; `log_apply_do_apply` gets it. A run's history is the list of calls to
`log_apply_do_apply`, each a page and the entries it is given, in the order they were made.

Without data page readers every entry of a page is, in the order the parser inserted it, either
applied, pending with the scheduler or still in the index, each exactly once. Readers lose the
order (`reader_applies_newer_entry_first`) but no entry: over every run the entries inserted for
a page are, counted with multiplicity, those applied, pending, held by a reader or in the index.
-/

namespace LogDB

open LogDB.Lib

/-- The entries for page `a` in a call of `log_apply_do_apply`. -/
def listFor (a : PageAddress) (call : PageAddress × List LogEntry) : List LogEntry :=
  if a = call.1 then call.2 else []

namespace IndexSegment

/-- The list of page `a` the segment holds. -/
def held (s : IndexSegment) (a : PageAddress) : List LogEntry :=
  (s.indexSegment.lookup a).getD []

variable {s : IndexSegment}

@[simp] theorem held_empty (a : PageAddress) : ({} : IndexSegment).held a = [] := rfl

theorem held_push (log : LogEntry) (a : PageAddress) :
    (s.push log).held a = s.held a ++ [log].filter (·.address = a) := by
  rw [held, lookup_push, List.filter_singleton]
  by_cases ha : a = log.address
  · simp [ha, held]
  · simp [ha, held, Ne.symm ha]

theorem held_extractLog_self (a : PageAddress) : (s.extractLog a).2.held a = [] := by
  simp [held, extractLog, AList.lookup_erase]

theorem held_extractLog_ne {a b : PageAddress} (h : b ≠ a) :
    (s.extractLog a).2.held b = s.held b := by
  simp [held, extractLog, AList.lookup_erase_ne h]

theorem held_of_empty (h : s.empty = true) (a : PageAddress) : s.held a = [] := by
  have hnone : s.indexSegment.lookup a = none := by
    rw [AList.lookup_eq_none, AList.mem_keys]
    simp_all [empty]
  simp [held, hnone]

end IndexSegment

namespace ApplyIndex

/-- The entries of page `a` in the index, segment after segment. -/
def held (index : ApplyIndex) (a : PageAddress) : List LogEntry :=
  index.index.flatMap (·.held a)

variable {index index' : ApplyIndex}

theorem held_insertBack (log : LogEntry) (a : PageAddress) :
    (index.insertBack log).held a = index.held a ++ [log].filter (·.address = a) := by
  rcases insertBack_cases index log with ⟨hi, h⟩ | ⟨pre, s, hi, ⟨-, h⟩ | ⟨-, h⟩⟩ <;>
    simp [held, h, hi, IndexSegment.held_push]

theorem held_deleteFrontSegment (a : PageAddress) :
    (deleteFrontSegment index).held a = index.held a := by
  obtain ⟨_ | ⟨s, rest⟩⟩ := index
  · rfl
  · rw [deleteFrontSegment_cons]
    split
    · rename_i hs
      simp [held, IndexSegment.held_of_empty hs]
    · rfl

theorem held_extractFront {address : PageAddress} {res : Option (List LogEntry)}
    (h : index.extractFront address = some (res, index')) (a : PageAddress) :
    index.held a = (if a = address then res.getD [] else []) ++ index'.held a := by
  obtain ⟨s, rest, hi, rfl, rfl⟩ := extractFront_eq_some h
  rw [held_deleteFrontSegment]
  simp only [held, hi, List.flatMap_cons]
  by_cases ha : a = address
  · subst ha
    rw [IndexSegment.held_extractLog_self, if_pos rfl]
    rfl
  · rw [IndexSegment.held_extractLog_ne ha, if_neg ha, List.nil_append]

theorem flatten_search (address : PageAddress) :
    (index.search address).1.flatten = index.held address := by
  obtain ⟨segments⟩ := index
  simp only [search, held, List.map_map]
  induction segments with
  | nil => rfl
  | cons s rest ih =>
      have hfound : (Prod.fst ∘ fun s : IndexSegment => s.extractLog address) s =
          s.indexSegment.lookup address := rfl
      simp only [List.map_cons, List.flatMap_cons, hfound]
      cases hs : s.indexSegment.lookup address with
      | none => rw [List.reduceOption_cons_of_none, ih, IndexSegment.held, hs]; rfl
      | some l => rw [List.reduceOption_cons_of_some, List.flatten_cons, ih, IndexSegment.held, hs]; rfl

theorem held_search (address a : PageAddress) :
    index.held a = (if a = address then (index.search address).1.flatten else []) ++
      (index.search address).2.held a := by
  have hrest : (index.search address).2.held a = if a = address then [] else index.held a := by
    simp only [search, held, List.flatMap_map]
    by_cases ha : a = address
    · subst ha
      simp [IndexSegment.held_extractLog_self]
    · simp [IndexSegment.held_extractLog_ne ha, ha]
  rw [hrest, flatten_search]
  split <;> simp_all

end ApplyIndex

/-- The call of `log_apply_do_apply` the scheduler is about to make. -/
def ApplierPhase.call : ApplierPhase → List (PageAddress × List LogEntry)
  | .apply address list _ _ => [(address, list)]
  | _ => []

/-- The entries of page `a` the scheduler took out of the index and has not applied. -/
def ApplierPhase.pending (phase : ApplierPhase) (a : PageAddress) : List LogEntry :=
  phase.call.flatMap (listFor a)

/-- The entries an action gives `InsertBack`. -/
def ApplyAction.inserts : ApplyAction → List LogEntry
  | .insertBack log => [log]
  | _ => []

namespace ApplySystem

/-- The call of `log_apply_do_apply` an action makes: the scheduler's pending list, or the first
list of a reader. -/
def applyCall (s : ApplySystem) : ApplyAction → List (PageAddress × List LogEntry)
  | .doApply => s.phase.call
  | .readerApply r => (s.readers r).take 1
  | _ => []

/-- The entries of page `a` on the scheduler's side of a run: applied in the calls of the
history, pending with the scheduler, and still in the index, in that order. -/
def placed (s : ApplySystem) (tr : List (PageAddress × List LogEntry)) (a : PageAddress) :
    List LogEntry :=
  tr.flatMap (listFor a) ++ s.phase.pending a ++ s.index.held a

section Step

variable {rec : RecordApplier} {dataPageGroup : Nat → Bool} {s t : ApplySystem}
  {tr : List (PageAddress × List LogEntry)}

theorem inserted_readers_step {act : ApplyAction} (h : step rec dataPageGroup s act = some t)
    (hact : act.byReader = false) :
    t.inserted = s.inserted ++ act.inserts ∧ t.readers = s.readers := by
  cases act with
  | insertBack log =>
      obtain rfl := step_insertBack h
      exact ⟨rfl, rfl⟩
  | acquire =>
      obtain ⟨task, total, -, -, rfl⟩ := step_acquire h
      simp [ApplyAction.inserts]
  | extractFront =>
      obtain ⟨address, logs, n, res, index, -, -, rfl⟩ := step_extractFront h
      simp [ApplyAction.inserts]
  | doApply =>
      obtain ⟨address, list, logs, n, pool, -, -, rfl⟩ := step_doApply h
      simp [ApplyAction.inserts]
  | credit =>
      obtain ⟨n, -, rfl⟩ := step_credit h
      simp [ApplyAction.inserts]
  | search r address => simp [ApplyAction.byReader] at hact
  | readerApply r => simp [ApplyAction.byReader] at hact

/-- What one action of the parser or the scheduler does to the entries of a page: the entry
`InsertBack` adds goes to the back of the index, and every other entry moves forward or
stays. -/
theorem placed_step {act : ApplyAction} (h : step rec dataPageGroup s act = some t)
    (hact : act.byReader = false) (a : PageAddress) :
    placed t (tr ++ s.applyCall act) a = placed s tr a ++ act.inserts.filter (·.address = a) := by
  cases act with
  | insertBack log =>
      obtain rfl := step_insertBack h
      simp [placed, applyCall, ApplyAction.inserts, ApplyIndex.held_insertBack]
  | acquire =>
      obtain ⟨task, total, hp, -, rfl⟩ := step_acquire h
      simp [placed, applyCall, ApplyAction.inserts, ApplierPhase.pending, ApplierPhase.call, hp]
  | extractFront =>
      obtain ⟨address, logs, n, res, index, hp, he, rfl⟩ := step_extractFront h
      have hheld := ApplyIndex.held_extractFront he a
      cases res with
      | none =>
          simp [placed, applyCall, ApplyAction.inserts, ApplierPhase.pending, ApplierPhase.call, hp,
            hheld]
      | some list =>
          by_cases ha : a = address
          · subst ha
            simp [placed, applyCall, ApplyAction.inserts, ApplierPhase.pending, ApplierPhase.call,
              hp, hheld, listFor]
          · simp [placed, applyCall, ApplyAction.inserts, ApplierPhase.pending, ApplierPhase.call,
              hp, hheld, listFor, ha]
  | doApply =>
      obtain ⟨address, list, logs, n, pool, hp, -, rfl⟩ := step_doApply h
      simp [placed, applyCall, ApplyAction.inserts, ApplierPhase.pending, ApplierPhase.call, hp]
  | credit =>
      obtain ⟨n, hp, rfl⟩ := step_credit h
      simp [placed, applyCall, ApplyAction.inserts, ApplierPhase.pending, ApplierPhase.call, hp]
  | search r address => simp [ApplyAction.byReader] at hact
  | readerApply r => simp [ApplyAction.byReader] at hact

theorem step_search {r : Nat} {address : PageAddress}
    (h : step rec dataPageGroup s (.search r address) = some t) :
    s.readers r = [] ∧ t = { s with
      index := (s.index.search address).2
      readers := Function.update s.readers r ((s.index.search address).1.map (address, ·)) } := by
  simp only [step] at h
  split at h
  · rename_i hr
    cases h
    exact ⟨hr, rfl⟩
  · cases h

theorem step_readerApply {r : Nat} (h : step rec dataPageGroup s (.readerApply r) = some t) :
    ∃ address list rest pool, s.readers r = (address, list) :: rest ∧
      logApplyDoApply rec dataPageGroup s.pool address list = some pool ∧
      t = { s with pool := pool, readers := Function.update s.readers r rest } := by
  simp only [step] at h
  split at h
  · cases h
  · rename_i address list rest hr
    simp only [Option.bind_eq_bind, Option.bind_eq_some_iff] at h
    obtain ⟨pool, hpool, h⟩ := h
    cases h
    exact ⟨address, list, rest, pool, hr, hpool, rfl⟩

end Step

/-! ### Runs without data page readers -/

/-- Every entry of every page is applied, pending or in the index, in the order it was
inserted. -/
def Placed (p : ApplySystem × List (PageAddress × List LogEntry)) : Prop :=
  ∀ a, p.1.inserted.filter (·.address = a) = placed p.1 p.2 a

section Scheduler

variable {rec : RecordApplier} {dataPageGroup : Nat → Bool}

theorem placed_init (files : Nat → Option DataFile) (writtenCapacity : Nat) :
    Placed (init files writtenCapacity, []) := fun _ => rfl

theorem placed_schedulerStep {p q : ApplySystem × List (PageAddress × List LogEntry)}
    {act : ApplyAction} (hp : Placed p)
    (h : traced (schedulerStep rec dataPageGroup) applyCall p act = some q) : Placed q := by
  obtain ⟨t, ht, rfl⟩ := traced_eq_some.mp h
  obtain ⟨hact, ht⟩ := step_of_schedulerStep ht
  intro a
  rw [(inserted_readers_step ht hact).1, List.filter_append, hp a, placed_step ht hact a]

theorem reachable_placed {files : Nat → Option DataFile} {writtenCapacity : Nat}
    {p : ApplySystem × List (PageAddress × List LogEntry)}
    (h : Reachable (traced (schedulerStep rec dataPageGroup) applyCall)
      (init files writtenCapacity, []) p) : Placed p :=
  reachable_induction (placed_init files writtenCapacity)
    (fun _ _ _ hp ht => placed_schedulerStep hp ht) h

/-- Without data page readers, the entries the parser inserted for a page are, in the order it
inserted them, those given to `log_apply_do_apply` call after call, then those of the list the
scheduler is about to apply, then those still in the index: none is lost, applied twice or
applied out of order. -/
theorem entries_applied_in_order {files : Nat → Option DataFile} {writtenCapacity : Nat}
    {s : ApplySystem} {tr : List (PageAddress × List LogEntry)}
    (h : Reachable (traced (schedulerStep rec dataPageGroup) applyCall)
      (init files writtenCapacity, []) (s, tr)) (a : PageAddress) :
    s.inserted.filter (·.address = a) =
      tr.flatMap (listFor a) ++ s.phase.pending a ++ s.index.held a :=
  reachable_placed h a

theorem reachable_fullSegment_traced (files : Nat → Option DataFile) (writtenCapacity : Nat) :
    Reachable (traced (schedulerStep rec dataPageGroup) applyCall) (init files writtenCapacity, [])
      ({ init files writtenCapacity with
        index := ⟨[⟨APPLY_BATCH_SIZE, AList.singleton ⟨1, 0⟩ fullSegment⟩]⟩
        inserted := fullSegment }, []) := by
  have hout : ∀ s, ∀ a ∈ fullSegment.map ApplyAction.insertBack, applyCall s a = [] := by
    intro s a ha
    obtain ⟨e, -, rfl⟩ := List.mem_map.mp ha
    rfl
  have hsched : ∀ a ∈ fullSegment.map ApplyAction.insertBack, a.byReader = false := by
    intro a ha
    obtain ⟨e, -, rfl⟩ := List.mem_map.mp ha
    rfl
  have hrun : (fullSegment.map ApplyAction.insertBack).foldlM
      (traced (schedulerStep rec dataPageGroup) applyCall) (init files writtenCapacity, []) =
      some ({ init files writtenCapacity with
        index := ⟨[⟨APPLY_BATCH_SIZE, AList.singleton ⟨1, 0⟩ fullSegment⟩]⟩
        inserted := fullSegment }, []) := by
    rw [foldlM_traced_of_out_nil hout, foldlM_schedulerStep rec dataPageGroup hsched,
      foldlM_fullSegment]
    rfl
  exact reachable_of_foldlM Reachable.refl hrun

theorem entries_applied_in_order_schedulerRun :
    ∃ p, Reachable (traced (schedulerStep .rejectAll fun _ => true) applyCall)
        (init flushedSpace 0, []) p ∧ p.2 ≠ [] ∧ p.1.index.held ⟨1, 0⟩ ≠ [] ∧
      p.1.inserted.filter (·.address = ⟨1, 0⟩) =
        p.2.flatMap (listFor ⟨1, 0⟩) ++ p.1.phase.pending ⟨1, 0⟩ ++ p.1.index.held ⟨1, 0⟩ := by
  -- one call applied the full segment, and the second segment holds the newer write
  have hrun : (schedulerRun.foldlM (traced (schedulerStep .rejectAll fun _ => true) applyCall)
      ({ init flushedSpace 0 with
        index := ⟨[⟨APPLY_BATCH_SIZE, AList.singleton ⟨1, 0⟩ fullSegment⟩]⟩
        inserted := fullSegment }, [])).map
      (fun p => decide (p.2 ≠ [] ∧ p.1.index.held ⟨1, 0⟩ ≠ [])) = some true := by
    decide +kernel
  obtain ⟨⟨s, tr⟩, hr, hs⟩ := exists_reachable_of_foldlM (reachable_fullSegment_traced _ _) hrun
  obtain ⟨htr, hheld⟩ := of_decide_eq_true hs
  have horder := entries_applied_in_order hr ⟨1, 0⟩
  exact ⟨(s, tr), hr, htr, hheld, horder⟩

end Scheduler

/-! ### Runs with data page readers -/

/-- The entries of page `a` the readers of `R` hold, counted with multiplicity. -/
def readerHeld (readers : Nat → List (PageAddress × List LogEntry)) (R : Finset Nat)
    (a : PageAddress) : Multiset LogEntry :=
  ∑ r ∈ R, ((readers r).flatMap (listFor a) : Multiset LogEntry)

/-- Every reader holding a list is in `R`. -/
def Covers (readers : Nat → List (PageAddress × List LogEntry)) (R : Finset Nat) : Prop :=
  ∀ r ∉ R, readers r = []

theorem readerHeld_update {readers : Nat → List (PageAddress × List LogEntry)} {R : Finset Nat}
    (hR : Covers readers R) (r : Nat) (l : List (PageAddress × List LogEntry)) (a : PageAddress) :
    readerHeld (Function.update readers r l) (insert r R) a + ↑((readers r).flatMap (listFor a)) =
      readerHeld readers R a + ↑(l.flatMap (listFor a)) := by
  have hR' : readerHeld readers R a = readerHeld readers (insert r R) a := by
    by_cases hr : r ∈ R
    · rw [Finset.insert_eq_of_mem hr]
    · simp [readerHeld, Finset.sum_insert hr, hR r hr]
  have hrest : ∑ x ∈ (insert r R).erase r,
      (((Function.update readers r l) x).flatMap (listFor a) : Multiset LogEntry) =
      ∑ x ∈ (insert r R).erase r, ((readers x).flatMap (listFor a) : Multiset LogEntry) :=
    Finset.sum_congr rfl fun x hx => by rw [Function.update_of_ne (Finset.ne_of_mem_erase hx)]
  rw [hR', readerHeld, readerHeld, ← Finset.add_sum_erase _ _ (Finset.mem_insert_self r R),
    ← Finset.add_sum_erase _ _ (Finset.mem_insert_self r R), hrest, Function.update_self]
  abel

theorem covers_update {readers : Nat → List (PageAddress × List LogEntry)} {R : Finset Nat}
    (hR : Covers readers R) (r : Nat) (l : List (PageAddress × List LogEntry)) :
    Covers (Function.update readers r l) (insert r R) := by
  intro x hx
  rw [Finset.mem_insert, not_or] at hx
  rw [Function.update_of_ne hx.1, hR x hx.2]

/-- No entry is lost or doubled: the entries inserted for a page are, counted with
multiplicity, those applied, pending with the scheduler, in the index or held by a reader. -/
def Conserved (p : ApplySystem × List (PageAddress × List LogEntry)) : Prop :=
  ∃ R, Covers p.1.readers R ∧ ∀ a,
    (p.1.inserted.filter (·.address = a) : Multiset LogEntry) =
      ↑(placed p.1 p.2 a) + readerHeld p.1.readers R a

theorem flatMap_listFor_map (address a : PageAddress) (lists : List (List LogEntry)) :
    (lists.map (address, ·)).flatMap (listFor a) = if a = address then lists.flatten else [] := by
  by_cases ha : a = address
  · simp [listFor, ha, List.flatMap_map]
  · simp [listFor, ha, List.flatMap_map]

section Readers

variable {rec : RecordApplier} {dataPageGroup : Nat → Bool}
  {p q : ApplySystem × List (PageAddress × List LogEntry)}

theorem conserved_search {r : Nat} {address : PageAddress} (hp : Conserved p)
    (h : traced (step rec dataPageGroup) applyCall p (.search r address) = some q) :
    Conserved q := by
  obtain ⟨t, ht, rfl⟩ := traced_eq_some.mp h
  obtain ⟨hr, rfl⟩ := step_search ht
  obtain ⟨R, hR, hcons⟩ := hp
  refine ⟨insert r R, covers_update hR r _, fun a => ?_⟩
  have hupd := readerHeld_update hR r ((p.1.index.search address).1.map (address, ·)) a
  rw [hr, List.flatMap_nil, Multiset.coe_nil, add_zero, flatMap_listFor_map] at hupd
  have hplaced : placed p.1 p.2 a = p.2.flatMap (listFor a) ++ p.1.phase.pending a ++
      ((if a = address then (p.1.index.search address).1.flatten else []) ++
        (p.1.index.search address).2.held a) := by
    rw [placed, ← ApplyIndex.held_search]
  simp only [applyCall, List.append_nil]
  rw [hcons a, hplaced, hupd, placed]
  simp only [← Multiset.coe_add]
  abel

theorem conserved_readerApply {r : Nat} (hp : Conserved p)
    (h : traced (step rec dataPageGroup) applyCall p (.readerApply r) = some q) :
    Conserved q := by
  obtain ⟨t, ht, rfl⟩ := traced_eq_some.mp h
  obtain ⟨address, list, rest, pool, hr, -, rfl⟩ := step_readerApply ht
  obtain ⟨R, hR, hcons⟩ := hp
  refine ⟨insert r R, covers_update hR r rest, fun a => ?_⟩
  have hupd := readerHeld_update hR r rest a
  rw [hr, List.flatMap_cons, ← Multiset.coe_add] at hupd
  have hheld : readerHeld p.1.readers R a =
      readerHeld (Function.update p.1.readers r rest) (insert r R) a +
        ↑(listFor a (address, list)) := by
    apply add_right_cancel (b := ↑(rest.flatMap (listFor a)))
    rw [← hupd]
    abel
  simp only [applyCall, hr, List.take_succ_cons, List.take_zero]
  rw [hcons a, hheld, placed, placed, List.flatMap_append, List.flatMap_cons, List.flatMap_nil,
    List.append_nil]
  simp only [← Multiset.coe_add]
  abel

theorem conserved_step {act : ApplyAction} (hp : Conserved p)
    (h : traced (step rec dataPageGroup) applyCall p act = some q) : Conserved q := by
  cases hact : act.byReader with
  | false =>
      obtain ⟨t, ht, rfl⟩ := traced_eq_some.mp h
      obtain ⟨R, hR, hcons⟩ := hp
      obtain ⟨hins, hreaders⟩ := inserted_readers_step ht hact
      refine ⟨R, hreaders ▸ hR, fun a => ?_⟩
      simp only
      rw [hins, hreaders, placed_step ht hact a, List.filter_append, ← Multiset.coe_add, hcons a,
        ← Multiset.coe_add]
      abel
  | true =>
      cases act with
      | search r address => exact conserved_search hp h
      | readerApply r => exact conserved_readerApply hp h
      | _ => simp [ApplyAction.byReader] at hact

/-- With data page readers the order is lost but no entry: the entries the parser inserted for
a page are, counted with multiplicity, those given to `log_apply_do_apply`, those of the list
the scheduler is about to apply, those still in the index and those the readers hold, and only
finitely many readers hold a list. -/
theorem entries_never_lost_or_doubled {files : Nat → Option DataFile} {writtenCapacity : Nat}
    {s : ApplySystem} {tr : List (PageAddress × List LogEntry)}
    (h : Reachable (traced (step rec dataPageGroup) applyCall)
      (init files writtenCapacity, []) (s, tr)) :
    ∃ R : Finset Nat, (∀ r ∉ R, s.readers r = []) ∧ ∀ a,
      (s.inserted.filter (·.address = a) : Multiset LogEntry) =
        ↑(tr.flatMap (listFor a)) + ↑(s.phase.pending a) + ↑(s.index.held a) +
          ∑ r ∈ R, ((s.readers r).flatMap (listFor a) : Multiset LogEntry) := by
  have hc : Conserved (s, tr) :=
    reachable_induction ⟨∅, fun _ _ => rfl, fun _ => rfl⟩ (fun _ _ _ hp ht => conserved_step hp ht) h
  obtain ⟨R, hR, hcons⟩ := hc
  refine ⟨R, hR, fun a => ?_⟩
  rw [hcons a, placed, readerHeld, ← Multiset.coe_add, ← Multiset.coe_add]

theorem entries_never_lost_or_doubled_readerRun :
    ∃ p, Reachable (traced (step .rejectAll fun _ => true) applyCall) (init onePageSpace 0, []) p ∧
      p.2 ≠ [] ∧ p.1.readers 1 ≠ [] ∧ p.1.index.held ⟨1, 0⟩ ≠ [] ∧
      ∃ R : Finset Nat, (∀ r ∉ R, p.1.readers r = []) ∧ ∀ a,
        (p.1.inserted.filter (·.address = a) : Multiset LogEntry) =
          ↑(p.2.flatMap (listFor a)) + ↑(p.1.phase.pending a) + ↑(p.1.index.held a) +
            ∑ r ∈ R, ((p.1.readers r).flatMap (listFor a) : Multiset LogEntry) := by
  -- one write applied by a reader, one held by another reader, one in the index
  have hrun : (readerRun.foldlM (traced (step .rejectAll fun _ => true) applyCall)
      (init onePageSpace 0, [])).map
      (fun p => decide (p.2 ≠ [] ∧ p.1.readers 1 ≠ [] ∧ p.1.index.held ⟨1, 0⟩ ≠ [])) =
        some true := by
    decide +kernel
  obtain ⟨⟨s, tr⟩, hr, hs⟩ := exists_reachable_of_foldlM Reachable.refl hrun
  obtain ⟨htr, hread, hheld⟩ := of_decide_eq_true hs
  have hcons := entries_never_lost_or_doubled hr
  exact ⟨(s, tr), hr, htr, hread, hheld, hcons⟩

end Readers

end ApplySystem

end LogDB
