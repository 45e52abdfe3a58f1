import LogDB.Applier.PageFrame
import LogDB.Applier.SlotDirectory

/-!
The invariant of a compact page across the writes of the deleting routines. `RecordLayout`
says where the records lie, which `WellFormedPage` leaves open: their header bytes apart,
between the page header and the directory, and the extra bytes of each user record, which
`CalculateOffsets` reads, clear of every other record's header bytes. Writes that keep to the
link bytes of `LogDB.Applier.PageFrame` then keep the sizes and the heap numbers of the
records, and the record list and the free list are read off the next fields alone: the list
without the record at `p` once the record before it links past it (`recordList_erase`), and the
free list with that record in front once it links to the old head (`freeList_push`). The
invariant reads no byte outside the page header, the records and the directory, so writes to the
file header or the trailer keep it (`WellFormedPage.of_eqOn`).
-/

namespace LogDB

open LogDB.Lib

/-- Where the records of the list `recs` and of the free list `frees` lie on a page whose
directory has `n` slots: their header bytes apart, past the page header and before the
directory, and the extra bytes of each user record clear of the page header and of the header
bytes of every other record. -/
structure RecordLayout (page : Nat → UInt8) (info : RecordInfo) (recs frees : List Nat) (n : Nat) :
    Prop where
  placed : Placed (recs ++ frees) n
  extra : ∀ r ∈ userRecs recs, ∃ offsets e, calculateOffsets page info r = some offsets ∧
    recOffsExtraSize offsets = some e ∧ PAGE_DATA + e ≤ r ∧
    ∀ r' ∈ recs ++ frees, r' ≠ r → r' ≤ r - e ∨ r + REC_N_NEW_EXTRA_BYTES ≤ r'

/-! ### Bytes the link writes leave alone -/

section Bytes

variable {S : List Nat} {n : Nat}

theorem Placed.not_mem_of_header (hP : Placed S n) {r k : Nat} (hr : r ∈ S)
    (hk1 : r - REC_N_NEW_EXTRA_BYTES < k) (hk2 : k < r - REC_NEXT) : k ∉ linkBytes S n := by
  obtain ⟨-, hD, -, -, hnx, hown, hex, -⟩ := layout_values
  have hb := hP.rec_bounds hr
  rintro (h | h | ⟨r', hr', h⟩)
  · omega
  · omega
  · by_cases hrr : r' = r
    · subst hrr
      omega
    · have := hP.apart r' hr' r hr hrr
      omega

variable {page page' : Nat → UInt8} (hrest : Set.EqOn page' page (linkBytes S n)ᶜ)
include hrest

theorem recGetHeapNoNew_eq (hP : Placed S n) {r : Nat} (hr : r ∈ S) :
    recGetHeapNoNew page' r = recGetHeapNoNew page r := by
  obtain ⟨-, -, -, -, hnx, -, hex, hh, -⟩ := layout_values
  have hb := hP.rec_bounds hr
  simp only [recGetHeapNoNew]
  rw [readBE_congr fun i h1 h2 => hrest (hP.not_mem_of_header hr (by omega) (by omega))]

theorem recGetStatus_eq (hP : Placed S n) {r : Nat} (hr : r ∈ S) :
    recGetBitField1 page' r REC_NEW_STATUS REC_NEW_STATUS_MASK REC_NEW_STATUS_SHIFT =
      recGetBitField1 page r REC_NEW_STATUS REC_NEW_STATUS_MASK REC_NEW_STATUS_SHIFT := by
  obtain ⟨-, -, -, -, hnx, -, hex, -, hst, -⟩ := layout_values
  have hb := hP.rec_bounds hr
  simp only [recGetBitField1]
  rw [hrest (hP.not_mem_of_header hr (by omega) (by omega))]

end Bytes

/-! ### The sizes of the records -/

section Sizes

variable {page page' : Nat → UInt8} {info : RecordInfo} {recs frees : List Nat} {n : Nat}
  (hlay : RecordLayout page info recs frees n)
  (hrest : Set.EqOn page' page (linkBytes (recs ++ frees) n)ᶜ)
include hlay hrest

/-- The extra bytes of a user record are no link bytes, so `CalculateOffsets` reads them
unchanged. -/
theorem RecordLayout.calculateOffsets_eq (hnb : info.NullableBound) {r : Nat}
    (hr : r ∈ userRecs recs) : calculateOffsets page' info r = calculateOffsets page info r := by
  obtain ⟨offsets, e, hoff, he, hpe, hclear⟩ := hlay.extra r hr
  have hP := hlay.placed
  have hrS : r ∈ recs ++ frees :=
    List.mem_append_left _ ((List.drop_sublist 1 recs).subset ((List.dropLast_sublist _).subset hr))
  have hb := hP.rec_bounds hrS
  obtain ⟨-, hD, -, -, hnx, hown, hex, -⟩ := layout_values
  rw [hoff]
  refine calculateOffsets_shift hnb hoff he (by omega) (by omega)
    (lt_of_le_of_lt hb.2 (by simp only [pageDirSlot_val, layout_values]; omega))
    (fun j hj1 hj2 => hrest ?_) (recGetStatus_eq hrest hP hrS)
  -- a byte of the extra window lies in no record's header but at most in its own
  rintro (h | h | ⟨r', hr', h⟩)
  · omega
  · omega
  · by_cases hrr : r' = r
    · subst hrr
      omega
    · rcases hclear r' hr' hrr with h' | h'
      · omega
      · omega

theorem RecordLayout.recSize_eq (hnb : info.NullableBound) {r : Nat} (hr : r ∈ userRecs recs) :
    recSize page' info r = recSize page info r := by
  simp only [recSize, hlay.calculateOffsets_eq hrest hnb hr]

end Sizes

/-! ### The lists once a record is erased -/

section Erase

variable {α : Type*} {l : List α} {p : Nat}

theorem head?_eraseIdx (hp : 0 < p) : (l.eraseIdx p).head? = l.head? := by
  rw [List.head?_eq_getElem?, List.getElem?_eraseIdx_of_lt hp, List.head?_eq_getElem?]

theorem getLast?_eraseIdx (hpl : p + 1 < l.length) : (l.eraseIdx p).getLast? = l.getLast? := by
  rw [List.getLast?_eq_getElem?, List.getLast?_eq_getElem?, List.length_eraseIdx,
    if_pos (by omega), List.getElem?_eraseIdx_of_ge (by omega)]
  congr 1
  omega

theorem tail_eraseIdx_sublist (hp : 0 < p) : (l.eraseIdx p).tail.Sublist l.tail := by
  cases l with
  | nil => exact List.Sublist.slnil
  | cons a t =>
      obtain ⟨q, rfl⟩ : ∃ q, p = q + 1 := ⟨p - 1, by omega⟩
      exact List.eraseIdx_sublist t q

theorem userRecs_eraseIdx {recs : List Nat} (hp : 0 < p) (hpl : p + 1 < recs.length) :
    userRecs (recs.eraseIdx p) = (userRecs recs).eraseIdx (p - 1) := by
  have hlen : (userRecs recs).length = recs.length - 2 := by
    simp only [userRecs, List.length_dropLast, List.length_drop]
    omega
  apply List.ext_getElem
  · simp only [userRecs, List.length_dropLast, List.length_drop, List.length_eraseIdx,
      if_pos (show p < recs.length by omega)]
    split <;> omega
  · intro k h1 h2
    simp only [userRecs, List.getElem_dropLast, List.getElem_drop, List.getElem_eraseIdx]
    by_cases hk : k < p - 1
    · rw [dif_pos (show 1 + k < p by omega), dif_pos hk]
    · rw [dif_neg (show ¬1 + k < p by omega), dif_neg hk]
      congr 1

theorem eraseIdx_append_perm {recs frees : List Nat} (hpl : p < recs.length) :
    (recs.eraseIdx p ++ recs[p] :: frees).Perm (recs ++ frees) :=
  List.perm_middle.trans ((List.getElem_cons_eraseIdx_perm hpl).append_right frees)

theorem getElem?_userRecs {recs : List Nat} {k : Nat} (hk : k + 2 < recs.length) :
    (userRecs recs)[k]? = recs[k + 1]? := by
  rw [userRecs, List.getElem?_dropLast, List.length_drop, if_pos (by omega), List.getElem?_drop,
    Nat.add_comm]

end Erase

theorem getElem_mem_userRecs {recs : List Nat} {p : Nat} (hp : 0 < p) (hpl : p + 1 < recs.length) :
    getElem recs p (Nat.lt_of_succ_lt hpl) ∈ userRecs recs :=
  List.mem_of_getElem? (by
    rw [getElem?_userRecs (k := p - 1) (by omega), show p - 1 + 1 = p by omega,
      List.getElem?_eq_getElem])

theorem exists_getElem?_of_mem_userRecs {recs : List Nat} {r : Nat} (hr : r ∈ userRecs recs) :
    ∃ p, 0 < p ∧ p + 1 < recs.length ∧ recs[p]? = some r := by
  obtain ⟨k, hk, hget⟩ := List.getElem_of_mem hr
  have hlen : (userRecs recs).length = recs.length - 2 := by
    simp only [userRecs, List.length_dropLast, List.length_drop]
    omega
  refine ⟨k + 1, by omega, by omega, ?_⟩
  rw [← getElem?_userRecs (by omega), List.getElem?_eq_getElem hk, hget]

theorem mem_eraseIdx_iff_of_nodup {recs : List Nat} (hnd : recs.Nodup) {p r : Nat}
    (hr : recs[p]? = some r) {x : Nat} : x ∈ recs.eraseIdx p ↔ x ∈ recs ∧ x ≠ r := by
  obtain ⟨hb, rfl⟩ := List.getElem?_eq_some_iff.mp hr
  rw [← hnd.erase_getElem p hb, hnd.mem_erase_iff, and_comm]

theorem mem_userRecs_eraseIdx {recs : List Nat} (hnd : recs.Nodup) {p r x : Nat} (hp : 0 < p)
    (hpl : p + 1 < recs.length) (hr : recs[p]? = some r) (hx : x ∈ userRecs recs)
    (hne : x ≠ r) : x ∈ userRecs (recs.eraseIdx p) := by
  have hsub : (userRecs recs).Sublist recs :=
    (List.dropLast_sublist _).trans (List.drop_sublist 1 recs)
  have hU : (userRecs recs)[p - 1]? = some r := by
    rw [getElem?_userRecs (by omega), Nat.sub_add_cancel hp, hr]
  rw [userRecs_eraseIdx hp hpl]
  exact (mem_eraseIdx_iff_of_nodup (hnd.sublist hsub) hU).mpr ⟨hx, hne⟩

namespace WellFormedPage

variable {page : Nat → UInt8} {info : RecordInfo} {recs ps frees : List Nat}
  (hw : WellFormedPage page info recs ps frees)
include hw

theorem recSize_some {r : Nat} (hr : r ∈ userRecs recs) : ∃ s, recSize page info r = some s := by
  obtain ⟨sizes, hmap, -⟩ := hw.data_size
  have hmem : recSize page info r ∈ sizes.map some := hmap ▸ List.mem_map_of_mem hr
  obtain ⟨s, -, hs⟩ := List.mem_map.mp hmem
  exact ⟨s, hs.symm⟩

theorem garbage_add_lt {r s : Nat} (hr : r ∈ userRecs recs) (hs : recSize page info r = some s) :
    pageHeaderGetField page PAGE_GARBAGE + s < 2 ^ 16 := by
  obtain ⟨sizes, hmap, htop⟩ := hw.data_size
  have hmem : some s ∈ sizes.map some := hmap ▸ hs ▸ List.mem_map_of_mem hr
  obtain ⟨s', hs', heq⟩ := List.mem_map.mp hmem
  have hle : s ≤ sizes.sum := Option.some.inj heq ▸ List.le_sum_of_mem hs'
  have := readBE_two_lt page (PAGE_HEADER + PAGE_HEAP_TOP)
  rw [show readBE page (PAGE_HEADER + PAGE_HEAP_TOP) 2 = pageHeaderGetField page PAGE_HEAP_TOP
    from rfl, htop] at this
  omega

end WellFormedPage

theorem FreeList.field_free {page : Nat → UInt8} {recs frees : List Nat}
    (hf : FreeList page recs frees) : pageHeaderGetField page PAGE_FREE = frees.head?.getD 0 := by
  have hh := hf.head
  simp only [pageHeaderGetPtr] at hh
  by_cases h0 : pageHeaderGetField page PAGE_FREE = 0
  · rw [if_pos h0] at hh
    rw [h0, ← hh]
    rfl
  · rw [if_neg h0] at hh
    rw [← hh]
    rfl

/-- The head of the free list, 0 for an empty one, is no record of the list past the infimum,
so `page_mem_free` never links a record to itself. -/
theorem FreeList.headD_ne {page : Nat → UInt8} {recs frees : List Nat}
    (hf : FreeList page recs frees) (hl : RecordList page recs) {p : Nat} (hp : 0 < p)
    (h : p < recs.length) : frees.head?.getD 0 ≠ recs[p] := by
  cases frees with
  | nil =>
      have hb := (hl.getElem_bounds hp h).1
      simp only [List.head?_nil, Option.getD_none]
      exact fun h0 => absurd (h0 ▸ hb) (by decide)
  | cons f fs =>
      simp only [List.head?_cons, Option.getD_some]
      exact fun he => hf.disjoint f List.mem_cons_self (he ▸ List.getElem_mem h)

theorem Placed.headD_lt {S L : List Nat} {n : Nat} (hP : Placed S n) (hL : ∀ r ∈ L, r ∈ S) :
    L.head?.getD 0 < DATA_PAGE_SIZE := by
  cases L with
  | nil => decide
  | cons f fs =>
      have hb := hP.below f (hL f List.mem_cons_self)
      rw [pageDirSlot_val] at hb
      simp only [List.head?_cons, Option.getD_some, layout_values]
      omega

/-! ### The record list and the free list after the unlink -/

section Unlink

variable {page page' : Nat → UInt8} {recs frees S : List Nat} {n p : Nat}
  {next owned slot field : Nat → Nat}

/-- The record list once the record at `p` is unlinked: the record before it links to the one
after it, every other record of the list keeps its next field, and the page counts one record
less. -/
theorem recordList_erase (hl : RecordList page recs) (hS : ∀ r ∈ recs, r ∈ S)
    (h : Holds page page' S n next owned slot field) (hp : 0 < p) (hpl : p + 1 < recs.length)
    (hprev : next (getElem recs (p - 1) (Nat.sub_lt_of_lt (Nat.lt_of_succ_lt hpl))) =
      nextFieldFor (getElem recs (p - 1) (Nat.sub_lt_of_lt (Nat.lt_of_succ_lt hpl))) recs[p + 1])
    (hnext : ∀ k (hk : k < recs.length), k ≠ p - 1 → k ≠ p → next recs[k] = recNextField page recs[k])
    (hn : field PAGE_N_RECS = pageGetNRecs page - 1) :
    RecordList page' (recs.eraseIdx p) := by
  have hlenE : (recs.eraseIdx p).length = recs.length - 1 := by
    rw [List.length_eraseIdx, if_pos (by omega)]
  have hmem : ∀ k (hk : k < recs.length), recs[k] ∈ S := fun k hk => hS _ (List.getElem_mem hk)
  have hsame : ∀ k (hk : k + 1 < recs.length), k ≠ p - 1 → k ≠ p →
      recGetNextOffs page' recs[k] = recs[k + 1] := fun k hk h1 h2 =>
    (h.recGetNextOffs_eq (hmem k (by omega)) (hnext k (by omega) h1 h2)).trans (hl.next k hk)
  refine ⟨by rw [head?_eraseIdx hp]; exact hl.head, by rw [getLast?_eraseIdx hpl]; exact hl.last,
    hl.nodup.sublist (List.eraseIdx_sublist _ _), fun k hk => ?_, ?_, ?_, fun r hr =>
    hl.in_page r ((tail_eraseIdx_sublist hp).subset hr)⟩
  · rw [hlenE] at hk
    rcases Nat.lt_trichotomy (k + 1) p with hk1 | hk1 | hk1
    · simp only [List.getElem_eraseIdx_of_lt _ hk1, List.getElem_eraseIdx_of_lt _ (show k < p by omega)]
      exact hsame k (by omega) (by omega) (by omega)
    · -- the record before `p` links past it
      have he1 : (recs.eraseIdx p)[k + 1] = recs[p + 1] := by
        rw [List.getElem_eraseIdx_of_ge _ (by omega)]
        simp only [hk1]
      have he0 : (recs.eraseIdx p)[k] = recs[p - 1] := by
        rw [List.getElem_eraseIdx_of_lt _ (by omega)]
        simp only [show k = p - 1 by omega]
      rw [he1, he0]
      have hb := hl.next_bounds (i := p) hpl
      have hlt := hl.getElem_lt (i := p - 1) (by omega)
      have hne : recs[p + 1] ≠ recs[p - 1] :=
        getElem_ne_of_ne hl.nodup _ _ (by omega)
      exact recGetNextOffs_of_field ((h.next _ (hmem _ (by omega))).trans hprev)
        (hl.rec_next_le _) hlt (by simp only [layout_values] at hb ⊢; omega) hne
    · simp only [List.getElem_eraseIdx_of_ge _ (show p ≤ k + 1 by omega),
        List.getElem_eraseIdx_of_ge _ (show p ≤ k by omega)]
      exact hsame (k + 1) (by omega) (by omega) (by omega)
  · -- the supremum's next field is untouched
    have hL : recs.length - 1 < recs.length := by omega
    have hsup := hl.getElem_last hL
    have hfield := (h.next _ (hmem _ hL)).trans (hnext _ hL (by omega) (by omega))
    rw [hsup] at hfield
    exact hfield.trans hl.supremum_next
  · have := hl.n_recs
    rw [hlenE, h.nRecs, hn]
    omega

/-- The free list once the record at `p` heads it: the record links to the old head, and the
records of the old free list keep their next fields. -/
theorem freeList_push (hl : RecordList page recs) (hf : FreeList page recs frees)
    (hP : Placed S n) (hS : ∀ r ∈ recs ++ frees, r ∈ S) (h : Holds page page' S n next owned slot field)
    (hp : 0 < p) (hpl : p < recs.length)
    (hfirst : next recs[p] = nextFieldFor recs[p] (frees.head?.getD 0))
    (hfrees : ∀ r ∈ frees, next r = recNextField page r) (hhead : field PAGE_FREE = recs[p]) :
    FreeList page' (recs.eraseIdx p) (recs[p] :: frees) := by
  have hb := hl.getElem_bounds hp hpl
  have hbp : recs[p] < DATA_PAGE_SIZE := hl.getElem_lt hpl
  have hsup : 0 < PAGE_NEW_SUPREMUM := by decide
  have hrS : recs[p] ∈ S := hS _ (List.mem_append_left _ (List.getElem_mem _))
  have hfS : ∀ r ∈ frees, r ∈ S := fun r hr => hS r (List.mem_append_right _ hr)
  have hnot : recs[p] ∉ frees := fun hm => hf.disjoint _ hm (List.getElem_mem _)
  obtain ⟨-, -, hinf, -, -, -, -, -, -, hdps, hdir⟩ := layout_values
  have hfree_lt : ∀ r ∈ frees, 0 < r ∧ r < DATA_PAGE_SIZE := fun r hr => by
    have h1 := hP.above r (hfS r hr)
    have h2 := hP.below r (hfS r hr)
    rw [pageDirSlot_val] at h2
    omega
  have hlink : recGetNextPtrConst page' recs[p] =
      if frees.head?.getD 0 = 0 then none else some (frees.head?.getD 0) := by
    refine recGetNextPtrConst_of_field ((h.next _ hrS).trans hfirst) (hl.rec_next_le hpl) hbp ?_ ?_
    · cases frees with
      | nil => exact lt_of_le_of_lt (Nat.zero_le _) hbp
      | cons r t => exact (hfree_lt r (List.mem_cons_self ..)).2
    · cases frees with
      | nil => exact fun he => by simp only [List.head?_nil, Option.getD_none] at he; omega
      | cons r t => exact fun he => hnot (he ▸ List.mem_cons_self ..)
  refine ⟨?_, fun k hk => ?_, fun r hr => ?_, List.nodup_cons.mpr ⟨hnot, hf.nodup⟩,
    fun r hr hmem => ?_⟩
  · rw [h.getPtr rfl (by decide), hhead, if_neg (by omega)]
    rfl
  · cases k with
    | zero =>
        cases frees with
        | nil => simp at hk
        | cons r t =>
            simp only [List.getElem_cons_zero, List.getElem_cons_succ, hlink, List.head?_cons,
              Option.getD_some]
            exact if_neg (hfree_lt r (List.mem_cons_self ..)).1.ne'
    | succ k =>
        simp only [List.length_cons] at hk
        simp only [List.getElem_cons_succ]
        rw [h.recGetNextPtrConst_eq (hfS _ (List.getElem_mem _)) (hfrees _ (List.getElem_mem _))]
        exact hf.linked k (by omega)
  · cases frees with
    | nil =>
        simp only [List.getLast?_singleton, Option.mem_def, Option.some.injEq] at hr
        subst hr
        rw [hlink]
        simp
    | cons f t =>
        rw [List.getLast?_cons_cons] at hr
        have hrm : r ∈ f :: t := List.mem_of_getLast? hr
        rw [h.recGetNextPtrConst_eq (hfS r hrm) (hfrees r hrm)]
        exact hf.last r hr
  · rcases List.mem_cons.mp hr with rfl | hr
    · obtain ⟨k, hk, hkp, hk'⟩ := List.mem_eraseIdx_iff_getElem.mp hmem
      exact hkp ((List.Nodup.getElem_inj_iff hl.nodup).mp hk')
    · exact hf.disjoint r hr ((List.eraseIdx_sublist _ _).subset hmem)

end Unlink

/-! ### The whole invariant once a record is freed -/

section Assemble

variable {page page' : Nat → UInt8} {info : RecordInfo} {recs ps frees ps' : List Nat} {p : Nat}
  {next owned slot field : Nat → Nat}

/-- Writes to the link bytes of a well-formed page that unlink the record at `p`, push it on the
free list, count it out of the page and its size into the garbage, and leave a directory well
formed for the shorter list, leave a well-formed page whose records keep their layout. -/
theorem wellFormedPage_erase (hw : WellFormedPage page info recs ps frees)
    (hlay : RecordLayout page info recs frees ps.length) (hnb : info.NullableBound)
    (h : Holds page page' (recs ++ frees) ps.length next owned slot field)
    (hp : 0 < p) (hpl : p + 1 < recs.length)
    (hprev : next (getElem recs (p - 1) (Nat.sub_lt_of_lt (Nat.lt_of_succ_lt hpl))) =
      nextFieldFor (getElem recs (p - 1) (Nat.sub_lt_of_lt (Nat.lt_of_succ_lt hpl))) recs[p + 1])
    (hnext : ∀ k (hk : k < recs.length), k ≠ p - 1 → k ≠ p → next recs[k] = recNextField page recs[k])
    (hfirst : next (getElem recs p (Nat.lt_of_succ_lt hpl)) =
      nextFieldFor (getElem recs p (Nat.lt_of_succ_lt hpl)) (frees.head?.getD 0))
    (hfrees : ∀ r ∈ frees, next r = recNextField page r)
    {s : Nat} (hsize : recSize page info (getElem recs p (Nat.lt_of_succ_lt hpl)) = some s)
    (hfree : field PAGE_FREE = getElem recs p (Nat.lt_of_succ_lt hpl))
    (hgarbage : field PAGE_GARBAGE = pageHeaderGetField page PAGE_GARBAGE + s)
    (hnrecs : field PAGE_N_RECS = pageGetNRecs page - 1)
    (htop : field PAGE_HEAP_TOP = pageHeaderGetField page PAGE_HEAP_TOP)
    (hheap : field PAGE_N_HEAP = pageHeaderGetField page PAGE_N_HEAP)
    (hdir : PageDirectory page' (recs.eraseIdx p) ps') (hlen : ps'.length ≤ ps.length) :
    WellFormedPage page' info (recs.eraseIdx p) ps' (getElem recs p (Nat.lt_of_succ_lt hpl) :: frees) ∧
      RecordLayout page' info (recs.eraseIdx p) (getElem recs p (Nat.lt_of_succ_lt hpl) :: frees)
        ps'.length := by
  have hl := hw.records
  have hP := hlay.placed
  have hperm : (recs.eraseIdx p ++ recs[p] :: frees).Perm (recs ++ frees) :=
    eraseIdx_append_perm (show p < recs.length by omega)
  have hmemS : ∀ r ∈ recs.eraseIdx p ++ recs[p] :: frees, r ∈ recs ++ frees :=
    fun r hr => hperm.subset hr
  have hsubU : ∀ r ∈ userRecs (recs.eraseIdx p), r ∈ userRecs recs := fun r hr => by
    rw [userRecs_eraseIdx hp hpl] at hr
    exact (List.eraseIdx_sublist _ _).subset hr
  -- heap numbers are read outside the link bytes
  have hheapNo : ∀ r ∈ recs ++ frees, recGetHeapNoNew page' r = recGetHeapNoNew page r :=
    fun r hr => recGetHeapNoNew_eq h.rest hP hr
  have hNHeap : pageDirGetNHeap page' = pageDirGetNHeap page := by
    simp only [pageDirGetNHeap, h.field PAGE_N_HEAP rfl (by decide), hheap]
  refine ⟨⟨recordList_erase hl (fun r hr => List.mem_append_left _ hr) h hp hpl hprev hnext hnrecs,
    hdir, freeList_push hl hw.free hP (fun r hr => hr) h hp (by omega) hfirst hfrees hfree, ?_,
    fun r hr => ?_, ?_⟩, ?_⟩
  · have hmap : (recs.eraseIdx p ++ recs[p] :: frees).map (recGetHeapNoNew page') =
        (recs.eraseIdx p ++ recs[p] :: frees).map (recGetHeapNoNew page) :=
      List.map_congr_left fun r hr => hheapNo r (hmemS r hr)
    rw [hmap, (hperm.map _).nodup_iff]
    exact hw.heap_nodup
  · rw [hheapNo r (hmemS r hr), hNHeap]
    exact hw.heap_lt r (hmemS r hr)
  · -- the sizes of the other user records stay, and the freed record's goes to the garbage
    obtain ⟨sizes, hmapS, htopS⟩ := hw.data_size
    have hsl : sizes.length = recs.length - 2 := by
      have := congrArg List.length hmapS
      simp only [List.length_map, userRecs, List.length_dropLast, List.length_drop] at this
      omega
    have hsp : sizes[p - 1] = s := by
      have h1 : ((userRecs recs).map (recSize page info))[p - 1]? = (sizes.map some)[p - 1]? := by
        rw [hmapS]
      rw [List.getElem?_map, List.getElem?_map, getElem?_userRecs (by omega),
        show p - 1 + 1 = p by omega, List.getElem?_eq_getElem (by omega), Option.map_some, hsize,
        List.getElem?_eq_getElem (by omega : p - 1 < sizes.length), Option.map_some] at h1
      exact (Option.some.inj (Option.some.inj h1)).symm
    refine ⟨sizes.eraseIdx (p - 1), ?_, ?_⟩
    · rw [userRecs_eraseIdx hp hpl, List.map_congr_left fun r hr =>
        hlay.recSize_eq h.rest hnb ((List.eraseIdx_sublist _ _).subset hr), ← List.eraseIdx_map,
        hmapS, List.eraseIdx_map]
    · have hsum := List.add_sum_eraseIdx (l := sizes) (i := p - 1) (by omega)
        (fun _ _ => AddCommute.all _ _)
      rw [h.field _ rfl (by decide), htop, htopS, h.field _ rfl (by decide), hgarbage, ← hsum, hsp]
      omega
  · refine ⟨hP.sub_mono (fun r hr => hmemS r hr) hlen, fun r hr => ?_⟩
    obtain ⟨offsets, e, hoff, he, hpe, hclear⟩ := hlay.extra r (hsubU r hr)
    refine ⟨offsets, e, ?_, he, hpe, fun r' hr' hne => hclear r' (hmemS r' hr') hne⟩
    rw [hlay.calculateOffsets_eq h.rest hnb (hsubU r hr), hoff]

end Assemble

/-! ### Bytes the invariant does not read -/

section Frame

variable {page page' : Nat → UInt8} {info : RecordInfo} {recs ps frees : List Nat}
  (hlay : RecordLayout page info recs frees ps.length)
  (he : ∀ i, PAGE_HEADER ≤ i → i < DATA_PAGE_SIZE - PAGE_DIR → page' i = page i)
include hlay he

theorem RecordLayout.eqOn_compl : Set.EqOn page' page (linkBytes (recs ++ frees) ps.length)ᶜ := by
  intro i hi
  have hdir := hlay.placed.dir
  simp only [Set.mem_compl_iff, linkBytes, Set.mem_ofPred_eq, not_or] at hi
  simp only [pageDirSlot_val, layout_values] at hi hdir
  exact he i (by simp only [layout_values]; omega) (by simp only [layout_values]; omega)

omit hlay in
theorem readBE_of_header_le {a n : Nat} (ha : PAGE_HEADER ≤ a)
    (hn : a + n ≤ DATA_PAGE_SIZE - PAGE_DIR) : readBE page' a n = readBE page a n :=
  readBE_congr fun i h1 h2 => he i (by omega) (by omega)

theorem RecordLayout.recNextField_eq {r : Nat} (hr : r ∈ recs ++ frees) :
    recNextField page' r = recNextField page r := by
  have hb := hlay.placed.rec_bounds hr
  simp only [pageDirSlot_val, layout_values] at hb
  exact readBE_of_header_le he (by simp only [layout_values, REC_NEXT]; omega)
    (by simp only [layout_values, REC_NEXT]; omega)

theorem RecordLayout.recGetNOwnedNew_eq {r : Nat} (hr : r ∈ recs ++ frees) :
    recGetNOwnedNew page' r = recGetNOwnedNew page r := by
  have hb := hlay.placed.rec_bounds hr
  simp only [pageDirSlot_val, layout_values] at hb
  simp only [recGetNOwnedNew, recGetBitField1]
  rw [he _ (by simp only [layout_values]; omega) (by simp only [layout_values]; omega)]

theorem RecordLayout.pageDirSlotGetRec_eq {j : Nat} (hj : j < ps.length) :
    pageDirSlotGetRec page' (pageDirSlot j) = pageDirSlotGetRec page (pageDirSlot j) := by
  have hb := hlay.placed.slot_bounds hj
  have hdir := hlay.placed.dir
  simp only [pageDirSlot_val, layout_values] at hb hdir
  exact readBE_of_header_le he (by simp only [pageDirSlot_val, layout_values]; omega)
    (by simp only [pageDirSlot_val, layout_values]; omega)

omit hlay in
theorem pageHeaderGetField_of_agree {f : Nat} (hf : f ≤ PAGE_N_RECS) :
    pageHeaderGetField page' f = pageHeaderGetField page f := by
  simp only [layout_values] at hf
  exact readBE_of_header_le he (by omega) (by simp only [layout_values]; omega)

/-- The page invariant reads no byte outside the page header, the records and the directory:
a page that agrees with a well-formed page there is well formed, its records laid out alike. -/
theorem WellFormedPage.of_eqOn (hw : WellFormedPage page info recs ps frees)
    (hnb : info.NullableBound) :
    WellFormedPage page' info recs ps frees ∧ RecordLayout page' info recs frees ps.length := by
  have hl := hw.records
  have hf := hw.free
  have hrest := hlay.eqOn_compl he
  have hS : ∀ r ∈ recs, r ∈ recs ++ frees := fun r hr => List.mem_append_left _ hr
  have hF : ∀ r ∈ frees, r ∈ recs ++ frees := fun r hr => List.mem_append_right _ hr
  have hfield : ∀ f, f ≤ PAGE_N_RECS → pageHeaderGetField page' f = pageHeaderGetField page f :=
    fun f hf => pageHeaderGetField_of_agree he hf
  have hl' : RecordList page' recs :=
    ⟨hl.head, hl.last, hl.nodup,
      fun i h => (recGetNextOffs_congr (hlay.recNextField_eq he (hS _ (List.getElem_mem _)))).trans
        (hl.next i h),
      (readBE_of_header_le he (by decide) (by decide)).trans hl.supremum_next,
      hl.n_recs.trans (by rw [pageGetNRecs, pageGetNRecs, hfield _ le_rfl]), hl.in_page⟩
  obtain ⟨hs, hc⟩ := (pageDirectory_iff hl.last).mp hw.directory
  have hnslots : pageDirGetNSlots page' = pageDirGetNSlots page := hfield 0 (by decide)
  have hs' := hs.congr (fun r hr => hlay.recGetNOwnedNew_eq he (hS r hr))
    (hlay.recGetNOwnedNew_eq he (hS _ (List.mem_of_mem_head? hl.head)))
    (fun j hj => hlay.pageDirSlotGetRec_eq he hj)
  rw [← hnslots] at hs'
  have hnext : ∀ r ∈ frees, recGetNextPtrConst page' r = recGetNextPtrConst page r :=
    fun r hr => recGetNextPtrConst_congr (hlay.recNextField_eq he (hF r hr))
  have hf' : FreeList page' recs frees :=
    ⟨by simp only [pageHeaderGetPtr, hfield PAGE_FREE (by decide)]; exact hf.head,
      fun i h => (hnext _ (List.getElem_mem _)).trans (hf.linked i h),
      fun r hr => (hnext r (List.mem_of_getLast? hr)).trans (hf.last r hr), hf.nodup, hf.disjoint⟩
  have hheap : ∀ r ∈ recs ++ frees, recGetHeapNoNew page' r = recGetHeapNoNew page r :=
    fun r hr => recGetHeapNoNew_eq hrest hlay.placed hr
  have hsize : ∀ r ∈ userRecs recs, recSize page' info r = recSize page info r :=
    fun r hr => hlay.recSize_eq hrest hnb hr
  obtain ⟨sizes, hmap, htop⟩ := hw.data_size
  refine ⟨⟨hl', (pageDirectory_iff hl'.last).mpr ⟨hs', hc⟩, hf', ?_, fun r hr => ?_,
    ⟨sizes, ?_, ?_⟩⟩, ⟨hlay.placed, fun r hr => ?_⟩⟩
  · rw [List.map_congr_left hheap]
    exact hw.heap_nodup
  · rw [hheap r hr, pageDirGetNHeap, hfield _ (by decide)]
    exact hw.heap_lt r hr
  · rw [List.map_congr_left hsize]
    exact hmap
  · rw [hfield _ (by decide), hfield _ (by decide)]
    exact htop
  · obtain ⟨offsets, e, hoff, hrestr⟩ := hlay.extra r hr
    exact ⟨offsets, e, (hlay.calculateOffsets_eq hrest hnb hr).trans hoff, hrestr⟩

end Frame

end LogDB
