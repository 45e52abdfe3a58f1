import LogDB.Applier.PageInvariant

/-!
`page_cur_delete_rec` on a well-formed page. The directory routines first: what
`page_dir_delete_slot` and the two branches of `page_dir_balance_slot` write, seen through the
views of `LogDB.Applier.PageFrame`. Then the delete itself: it unlinks the record, hands it to
the free list, counts it out of its owner's slot and balances that slot, and the page it leaves
is well formed again, with the record list short of the deleted record and the free list headed
by it (`pageCurDeleteRec_wellFormed`).
-/

namespace LogDB

open LogDB.Lib

/-! ### The directory writes -/

section Directory

variable {page0 page : Nat → UInt8} {S : List Nat} {n : Nat} {next owned slot field : Nat → Nat}

theorem pageDirShiftSlots_succ (page : Nat → UInt8) {i m : Nat} (him : i + 1 ≤ m) :
    pageDirShiftSlots page i (m + 1) = (pageDirShiftSlots page i m).bind fun page =>
      (pageDirGetNthSlot page m).bind fun src => (pageDirGetNthSlot page (m - 1)).bind fun dst =>
        some (pageDirSlotSetRec page dst (pageDirSlotGetRec page src)) := by
  simp only [pageDirShiftSlots, show m + 1 - (i + 1) = m - (i + 1) + 1 by omega,
    List.range'_concat, List.foldlM_append, show i + 1 + 1 * (m - (i + 1)) = m by omega,
    List.foldlM_cons, List.foldlM_nil, Option.bind_eq_bind, Option.pure_def, Option.bind_fun_some]

/-- The slots the shift has moved when it has run up to slot `m`: each slot from `i` on below
`m - 1` holds the record of the slot above it. -/
def shiftedSlots (slot : Nat → Nat) (i m : Nat) (j : Nat) : Nat :=
  if i ≤ j ∧ j + 1 < m then slot (j + 1) else slot j

namespace Holds

variable (h : Holds page0 page S n next owned slot field) (hP : Placed S n)
  (hn : field PAGE_N_DIR_SLOTS = n)
include h hP hn

theorem shiftSlots {i m : Nat} (him : i + 1 ≤ m) (hm : m ≤ n) :
    ∃ page', pageDirShiftSlots page i m = some page' ∧
      Holds page0 page' S n next owned (shiftedSlots slot i m) field := by
  induction m, him using Nat.le_induction with
  | base =>
      have hid : shiftedSlots slot i (i + 1) = slot := funext fun j => by
        rw [shiftedSlots, if_neg (by omega)]
      refine ⟨page, ?_, by rw [hid]; exact h⟩
      simp only [pageDirShiftSlots, Nat.sub_self, List.range'_zero, List.foldlM_nil]
      rfl
  | succ m him ih =>
      obtain ⟨page', hrun, h'⟩ := ih (by omega)
      -- the turn at slot `m` reads the record slot `m` still holds
      have hsrc : pageDirSlotGetRec page' (pageDirSlot m) = slot m := by
        rw [h'.slot m (by omega), shiftedSlots, if_neg (by omega)]
      have hstep := h'.setSlot hP (j := m - 1) (by omega) (pageDirSlotGetRec page' (pageDirSlot m))
      have hmod : pageDirSlotGetRec page' (pageDirSlot m) % 2 ^ 16 = slot m := by
        rw [Nat.mod_eq_of_lt (show pageDirSlotGetRec page' (pageDirSlot m) < 2 ^ 16 from
          readBE_two_lt _ _), hsrc]
      have hview : Function.update (shiftedSlots slot i m) (m - 1)
          (pageDirSlotGetRec page' (pageDirSlot m) % 2 ^ 16) = shiftedSlots slot i (m + 1) := by
        funext j
        rw [hmod]
        by_cases hj : j = m - 1
        · subst hj
          rw [Function.update_self, shiftedSlots, if_pos (by omega), show m - 1 + 1 = m by omega]
        · rw [Function.update_of_ne hj, shiftedSlots, shiftedSlots]
          by_cases hij : i ≤ j ∧ j + 1 < m
          · rw [if_pos hij, if_pos (by omega)]
          · rw [if_neg hij, if_neg (by omega)]
      rw [hview] at hstep
      refine ⟨_, ?_, hstep⟩
      rw [pageDirShiftSlots_succ page (by omega), hrun, Option.bind_some,
        h'.getNthSlot_of_lt hn (by omega), Option.bind_some, h'.getNthSlot_of_lt hn (by omega),
        Option.bind_some]

/-- `page_dir_delete_slot` of slot `i`: the slot above takes its records, the slots above it
move one place down, and the directory has one slot less. -/
theorem deleteSlot {i : Nat} (hi0 : 0 < i) (hi : i + 1 < n) (hsi : slot i ∈ S)
    (hsu : slot (i + 1) ∈ S) (hne : slot i ≠ slot (i + 1))
    (hcount : owned (slot i) + owned (slot (i + 1)) < 16) :
    ∃ page', pageDirDeleteSlot page i = some page' ∧
      Holds page0 page' S n next
        (Function.update (Function.update owned (slot i) 0) (slot (i + 1))
          (owned (slot i) + owned (slot (i + 1))))
        (Function.update (shiftedSlots slot i n) (n - 1) 0)
        (Function.update field PAGE_N_DIR_SLOTS ((n - 1) % 2 ^ 16)) := by
  have h1 := h.slotSetNOwned hP (j := i) (by omega) hsi (k := 0) (by decide)
  have hup : pageDirSlotGetNOwned (pageDirSlotSetNOwned page (pageDirSlot i) 0) (pageDirSlot (i + 1)) =
      owned (slot (i + 1)) := by
    rw [h1.slotGetNOwned hi hsu, Function.update_of_ne hne.symm]
  have h2 := h1.slotSetNOwned hP (j := i + 1) hi hsu
    (k := pageDirSlotGetNOwned page (pageDirSlot i) + owned (slot (i + 1)))
    (by rw [h.slotGetNOwned (by omega) hsi]; exact hcount)
  rw [h.slotGetNOwned (by omega) hsi] at h2
  obtain ⟨page3, hshift, h3⟩ := h2.shiftSlots hP hn (i := i) (m := n) (by omega) le_rfl
  have h4 := h3.setSlot hP (j := n - 1) (by omega) 0
  have h5 := h4.setField hP (f := PAGE_N_DIR_SLOTS) rfl (by decide) (n - 1)
  rw [Nat.zero_mod] at h5
  refine ⟨_, ?_, h5⟩
  simp only [pageDirDeleteSlot, if_neg hi0.ne', h.nSlots, hn, if_neg (show ¬¬i + 1 < n from not_not.mpr hi),
    h.getNthSlot_of_lt hn (show i < n by omega), Option.bind_eq_bind, Option.bind_some,
    h1.getNthSlot_of_lt hn hi, h.slotGetNOwned (by omega) hsi, hup, hshift,
    h3.getNthSlot_of_lt hn (show n - 1 < n by omega)]
  rfl

omit hP in
theorem balanceSlot_last {i : Nat} (hi0 : 0 < i) (hi : i + 1 = n) :
    pageDirBalanceSlot page i = some page := by
  simp only [pageDirBalanceSlot, if_neg hi0.ne', h.getNthSlot_of_lt hn (show i < n by omega),
    Option.bind_eq_bind, Option.bind_some, h.nSlots, hn, if_pos (show i = n - 1 by omega)]

/-- `page_dir_balance_slot` of slot `i`, one record short, when the slot above can spare one:
slot `i` takes the record `t` after its own. -/
theorem balanceSlot_transfer {i : Nat} (hi0 : 0 < i) (hi : i + 1 < n) (hsi : slot i ∈ S)
    (hsu : slot (i + 1) ∈ S) (hown : owned (slot i) = PAGE_DIR_SLOT_MIN_N_OWNED - 1)
    (hup : PAGE_DIR_SLOT_MIN_N_OWNED < owned (slot (i + 1))) {t : Nat}
    (ht : recGetNextPtr page (slot i) = some t) (htS : t ∈ S) :
    ∃ page', pageDirBalanceSlot page i = some page' ∧
      Holds page0 page' S n next
        (Function.update (Function.update (Function.update owned (slot i) 0) t
          PAGE_DIR_SLOT_MIN_N_OWNED) (slot (i + 1)) (owned (slot (i + 1)) - 1))
        (Function.update slot i t) field := by
  have ht' : t < 2 ^ 16 := by
    simp only [recGetNextPtr, recGetNextPtrConst] at ht
    split at ht
    · cases ht
    split at ht
    · cases ht
    · rw [← Option.some.inj ht]
      exact lt_of_lt_of_le (Nat.mod_lt _ (by decide)) (by decide)
  have h1 := h.setOwned hP hsi (k := 0) (by decide)
  have h2 := h1.setOwned hP htS (k := PAGE_DIR_SLOT_MIN_N_OWNED) (by decide)
  have h3 := h2.setSlot hP (j := i) (by omega) t
  rw [Nat.mod_eq_of_lt ht'] at h3
  have hsu' : Function.update slot i t (i + 1) = slot (i + 1) := Function.update_of_ne (by omega) _ _
  have h4 := h3.slotSetNOwned hP (j := i + 1) hi (hsu' ▸ hsu) (k := owned (slot (i + 1)) - 1)
    (by have := recGetNOwnedNew_lt page (slot (i + 1)); rw [h.owned _ hsu] at this; omega)
  rw [hsu'] at h4
  refine ⟨_, ?_, h4⟩
  simp only [pageDirBalanceSlot, if_neg hi0.ne', h.getNthSlot_of_lt hn (show i < n by omega),
    h.getNthSlot_of_lt hn hi, Option.bind_eq_bind, Option.bind_some, h.nSlots, hn,
    if_neg (show i ≠ n - 1 by omega), h.slotGetNOwned (by omega) hsi, h.slotGetNOwned hi hsu, hown,
    if_neg (show ¬(PAGE_DIR_SLOT_MIN_N_OWNED - 1 ≠ PAGE_DIR_SLOT_MIN_N_OWNED - 1) from not_not.mpr rfl),
    if_pos hup, h.slot i (by omega), ht]
  rfl

/-- `page_dir_balance_slot` of slot `i`, one record short, when the slot above has none to
spare: the two slots merge. -/
theorem balanceSlot_merge {i : Nat} (hi0 : 0 < i) (hi : i + 1 < n) (hsi : slot i ∈ S)
    (hsu : slot (i + 1) ∈ S) (hne : slot i ≠ slot (i + 1))
    (hown : owned (slot i) = PAGE_DIR_SLOT_MIN_N_OWNED - 1)
    (hup : owned (slot (i + 1)) ≤ PAGE_DIR_SLOT_MIN_N_OWNED) :
    ∃ page', pageDirBalanceSlot page i = some page' ∧
      Holds page0 page' S n next
        (Function.update (Function.update owned (slot i) 0) (slot (i + 1))
          (owned (slot i) + owned (slot (i + 1))))
        (Function.update (shiftedSlots slot i n) (n - 1) 0)
        (Function.update field PAGE_N_DIR_SLOTS ((n - 1) % 2 ^ 16)) := by
  obtain ⟨page', hdel, h'⟩ := h.deleteSlot hP hn hi0 hi hsi hsu hne
    (by rw [hown]; simp only [PAGE_DIR_SLOT_MIN_N_OWNED] at hup ⊢; omega)
  refine ⟨page', ?_, h'⟩
  simp only [pageDirBalanceSlot, if_neg hi0.ne', h.getNthSlot_of_lt hn (show i < n by omega),
    h.getNthSlot_of_lt hn hi, Option.bind_eq_bind, Option.bind_some, h.nSlots, hn,
    if_neg (show i ≠ n - 1 by omega), h.slotGetNOwned (by omega) hsi, h.slotGetNOwned hi hsu, hown,
    if_neg (show ¬(PAGE_DIR_SLOT_MIN_N_OWNED - 1 ≠ PAGE_DIR_SLOT_MIN_N_OWNED - 1) from not_not.mpr rfl),
    if_neg (show ¬PAGE_DIR_SLOT_MIN_N_OWNED < owned (slot (i + 1)) by omega), hdel]

end Holds

end Directory

/-! ### Unlinking the record -/

section Unlink

/-- The next fields `page_cur_delete_rec` leaves: `prev`, the record before the deleted `cur`,
links to `next`, the record after it, and `cur` to `free`, the old head of the free list. -/
def unlinkNext (page : Nat → UInt8) (prev cur next free : Nat) : Nat → Nat :=
  Function.update (Function.update (recNextField page) prev (nextFieldFor prev next)) cur
    (nextFieldFor cur free)

/-- The header fields `page_cur_delete_rec` leaves before the balance: no last insert, `cur`
heads the free list, its `size` bytes count as garbage and the page holds one record less, each
sum a `uint32_t` stored in two bytes. -/
def unlinkField (page : Nat → UInt8) (cur size : Nat) : Nat → Nat :=
  Function.update (Function.update (Function.update
    (Function.update (pageHeaderGetField page) PAGE_LAST_INSERT 0) PAGE_FREE cur)
    PAGE_GARBAGE ((pageHeaderGetField page PAGE_GARBAGE + size) % 2 ^ 32 % 2 ^ 16))
    PAGE_N_RECS ((pageGetNRecs page + 2 ^ 32 - 1) % 2 ^ 32 % 2 ^ 16)

section Views

variable {page : Nat → UInt8} {prev cur next free size r f : Nat}

theorem unlinkNext_prev (h : prev ≠ cur) :
    unlinkNext page prev cur next free prev = nextFieldFor prev next := by
  rw [unlinkNext, Function.update_of_ne h, Function.update_self]

theorem unlinkNext_cur : unlinkNext page prev cur next free cur = nextFieldFor cur free :=
  Function.update_self ..

theorem unlinkNext_of_ne (h1 : r ≠ prev) (h2 : r ≠ cur) :
    unlinkNext page prev cur next free r = recNextField page r := by
  rw [unlinkNext, Function.update_of_ne h2, Function.update_of_ne h1]

theorem unlinkField_free : unlinkField page cur size PAGE_FREE = cur := by
  rw [unlinkField, Function.update_of_ne (by decide), Function.update_of_ne (by decide),
    Function.update_self]

theorem unlinkField_garbage : unlinkField page cur size PAGE_GARBAGE =
    (pageHeaderGetField page PAGE_GARBAGE + size) % 2 ^ 32 % 2 ^ 16 := by
  rw [unlinkField, Function.update_of_ne (by decide), Function.update_self]

theorem unlinkField_nRecs :
    unlinkField page cur size PAGE_N_RECS = (pageGetNRecs page + 2 ^ 32 - 1) % 2 ^ 32 % 2 ^ 16 :=
  Function.update_self ..

theorem unlinkField_nRecs_of_pos (h : 0 < pageGetNRecs page) :
    unlinkField page cur size PAGE_N_RECS = pageGetNRecs page - 1 := by
  have hb := readBE_two_lt page (PAGE_HEADER + PAGE_N_RECS)
  rw [unlinkField_nRecs]
  simp only [pageGetNRecs, pageHeaderGetField] at h hb ⊢
  omega

theorem unlinkField_garbage_of_lt (h : pageHeaderGetField page PAGE_GARBAGE + size < 2 ^ 16) :
    unlinkField page cur size PAGE_GARBAGE = pageHeaderGetField page PAGE_GARBAGE + size := by
  rw [unlinkField_garbage]
  omega

theorem unlinkField_of_ne (h1 : f ≠ PAGE_LAST_INSERT) (h2 : f ≠ PAGE_FREE)
    (h3 : f ≠ PAGE_GARBAGE) (h4 : f ≠ PAGE_N_RECS) :
    unlinkField page cur size f = pageHeaderGetField page f := by
  rw [unlinkField, Function.update_of_ne h4, Function.update_of_ne h3, Function.update_of_ne h2,
    Function.update_of_ne h1]

end Views

variable {page : Nat → UInt8} {info : RecordInfo} {recs ps frees : List Nat} {p i : Nat}

/-- The owner of a user record owns two records at least: a middle slot owns four, and the last
slot owns the supremum besides. -/
theorem owner_two_le (hl : RecordList page recs) (hd : PageDirectory page recs ps)
    (hpl : p + 1 < recs.length) (hi : i < ps.length) (hi1 : 1 ≤ i) (hpi : p ≤ ps[i])
    (hbelow : ∀ j (hj : j < i), getElem ps j (hj.trans hi) < p) :
    2 ≤ ps[i] - getElem ps (i - 1) (Nat.sub_lt_of_lt hi) := by
  have hq := hd.getElem_lt hl hi
  have hb := hbelow (i - 1) (by omega)
  by_cases hmid : i + 1 < ps.length
  · -- a middle slot
    have hm := (hd.owned_middle i hi hq (by omega) hmid).1
    rw [← hd.slot i hi hq, ((pageDirectory_iff hl.last).mp hd).1.owned_slot (by omega) hi] at hm
    simp only [PAGE_DIR_SLOT_MIN_N_OWNED] at hm
    omega
  · -- the last slot holds the supremum, after `p`
    have hlast := hd.getElem_last (by omega)
    obtain rfl : i = ps.length - 1 := by omega
    omega

/-- Step 4 of `page_cur_delete_rec`: the owner slot `i` takes the record before `p` when `p` was
its record. Either way it then holds `t`, the record at its position in the list without `p`. -/
theorem ownerSlot_step {page2 : Nat → UInt8} {S : List Nat} {next owned field : Nat → Nat}
    (hl : RecordList page recs) (hd : PageDirectory page recs ps) (hP : Placed S ps.length)
    (h2 : Holds page page2 S ps.length next owned
      (fun j => pageDirSlotGetRec page (pageDirSlot j)) field)
    (hp : 0 < p) (hpl : p + 1 < recs.length) (hi : i < ps.length) (hpi : p ≤ ps[i]) {t : Nat}
    (ht : (recs.eraseIdx p)[ps[i] - 1]? = some t) :
    ∃ page3, (if getElem recs p (Nat.lt_of_succ_lt hpl) = pageDirSlotGetRec page2 (pageDirSlot i)
        then pageDirSlotSetRec page2 (pageDirSlot i)
          (getElem recs (p - 1) (Nat.sub_lt_of_lt (Nat.lt_of_succ_lt hpl)))
        else page2) = page3 ∧
      Holds page page3 S ps.length next owned
        (Function.update (fun j => pageDirSlotGetRec page (pageDirSlot j)) i t) field := by
  have hq := hd.getElem_lt hl hi
  rw [h2.slot i hi, hd.slot i hi hq]
  by_cases hpe : p = ps[i]
  · -- the deleted record was the slot's: the record before it takes its place
    have htp : t = recs[p - 1] := by
      rw [← hpe, List.getElem?_eraseIdx_of_lt (by omega), List.getElem?_eq_getElem (by omega)] at ht
      exact (Option.some.inj ht).symm
    have h3 := h2.setSlot hP hi recs[p - 1]
    have hv : Function.update (fun j => pageDirSlotGetRec page (pageDirSlot j)) i
        (recs[p - 1] % 2 ^ 16) = Function.update (fun j => pageDirSlotGetRec page (pageDirSlot j)) i t := by
      rw [Nat.mod_eq_of_lt (lt_of_lt_of_le (hl.getElem_lt (by omega)) (by decide)), htp]
    rw [hv] at h3
    exact ⟨_, if_pos (by simp only [hpe]), h3⟩
  · -- the slot keeps its record, now one place down
    have htq : t = recs[ps[i]] := by
      rw [List.getElem?_eraseIdx_of_ge (by omega), show ps[i] - 1 + 1 = ps[i] by omega,
        List.getElem?_eq_getElem hq] at ht
      exact (Option.some.inj ht).symm
    have hself : Function.update (fun j => pageDirSlotGetRec page (pageDirSlot j)) i t =
        fun j => pageDirSlotGetRec page (pageDirSlot j) :=
      Function.update_eq_iff.mpr ⟨by rw [htq, hd.slot i hi hq], fun _ _ => rfl⟩
    rw [hself]
    exact ⟨_, if_neg (getElem_ne_of_ne hl.nodup _ _ hpe), h2⟩

/-- `page_cur_delete_rec` of the record at `p`, whose owner is slot `i`, up to the balance of
that slot: the record before it links past it, it links to the old head of the free list, the
owner slot holds `t`, the record at its position in the shorter list, and owns one record less,
and the header counts the record into the free list and the garbage and out of the page. -/
theorem pageCurDeleteRec_unlink (hw : WellFormedPage page info recs ps frees)
    (hP : Placed (recs ++ frees) ps.length) (hp : 0 < p) (hpl : p + 1 < recs.length)
    (hi : i < ps.length) (hpi : p ≤ ps[i])
    (hbelow : ∀ j (hj : j < i), getElem ps j (hj.trans hi) < p) {t : Nat}
    (ht : (recs.eraseIdx p)[ps[i] - 1]? = some t) {offsets : List Nat} {extra data : Nat}
    (hextra : recOffsExtraSize offsets = some extra) (hdata : recOffsDataSize offsets = some data) :
    ∃ page', Holds page page' (recs ++ frees) ps.length
        (unlinkNext page (getElem recs (p - 1) (Nat.sub_lt_of_lt (Nat.lt_of_succ_lt hpl)))
          (getElem recs p (Nat.lt_of_succ_lt hpl)) recs[p + 1] (frees.head?.getD 0))
        (Function.update (recGetNOwnedNew page) t
          (ps[i] - getElem ps (i - 1) (Nat.sub_lt_of_lt hi) - 1))
        (Function.update (fun j => pageDirSlotGetRec page (pageDirSlot j)) i t)
        (unlinkField page (getElem recs p (Nat.lt_of_succ_lt hpl)) (extra + data)) ∧
      pageCurDeleteRec page (getElem recs p (Nat.lt_of_succ_lt hpl)) offsets =
        if ps[i] - getElem ps (i - 1) (Nat.sub_lt_of_lt hi) ≤ PAGE_DIR_SLOT_MIN_N_OWNED then
          (pageDirBalanceSlot page' i).bind fun page' => some (some recs[p + 1], page')
        else some (some recs[p + 1], page') := by
  have hl := hw.records
  have hd := hw.directory
  have hq := hd.getElem_lt hl hi
  have hi1 : 1 ≤ i := by
    by_contra h0
    have := hd.getElem_zero (by omega)
    simp only [show i = 0 by omega] at hpi
    omega
  have hS : ∀ k (hk : k < recs.length), recs[k] ∈ recs ++ frees :=
    fun k hk => List.mem_append_left _ (List.getElem_mem hk)
  have hlt : ∀ k (hk : k < recs.length), recs[k] < 2 ^ 16 :=
    fun k hk => lt_of_lt_of_le (hl.getElem_lt hk) (by decide)
  have hn0 : pageHeaderGetField page PAGE_N_DIR_SLOTS = ps.length := hd.n_slots.symm
  have hd2 := owner_two_le hl hd hpl hi hi1 hpi hbelow
  have hcur : pageDirSlotGetNOwned page (pageDirSlot i) = ps[i] - ps[i - 1] :=
    ((pageDirectory_iff hl.last).mp hd).1.owned_slot (by omega) hi
  have h1 : Holds page (pageHeaderSetPtr page PAGE_LAST_INSERT none) (recs ++ frees) ps.length
      (recNextField page) (recGetNOwnedNew page) (fun j => pageDirSlotGetRec page (pageDirSlot j))
      (Function.update (pageHeaderGetField page) PAGE_LAST_INSERT 0) :=
    (holds_self page _ _).setField hP (f := PAGE_LAST_INSERT) rfl (by decide) 0
  have hn1 : Function.update (pageHeaderGetField page) PAGE_LAST_INSERT 0 PAGE_N_DIR_SLOTS =
      ps.length := by
    rw [Function.update_of_ne (by decide), hn0]
  -- the walk from the previous slot's record ends at the record before `p`
  have hlinked : Linked (pageRecGetNext (pageHeaderSetPtr page PAGE_LAST_INSERT none)) recs :=
    fun k hk => (h1.pageRecGetNext_eq (hS k (by omega)) rfl).trans (hl.linked_pageRecGetNext k hk)
  have hprevSlot : pageDirSlotGetRec (pageHeaderSetPtr page PAGE_LAST_INSERT none)
      (pageDirSlot (i - 1)) = recs[ps[i - 1]] :=
    (h1.slot (i - 1) (by omega)).trans (hd.slot (i - 1) (by omega) (hd.getElem_lt hl (by omega)))
  have hwalk : walkPrev (pageRecGetNext (pageHeaderSetPtr page PAGE_LAST_INSERT none)) recs[p]
      DATA_PAGE_SIZE none recs[ps[i - 1]] = some (some recs[p - 1]) :=
    walkPrev_linked hlinked hl.nodup (hbelow (i - 1) (by omega)) (by omega)
      (by have := hl.length_le; omega)
  obtain ⟨page2, hset2⟩ := pageRecSetNext_some (pageHeaderSetPtr page PAGE_LAST_INSERT none)
    (r := recs[p - 1]) (q := some recs[p + 1]) (hl.rec_next_le (by omega)) (hl.getElem_lt hpl)
    (fun he => getElem_ne_of_ne hl.nodup hpl (show p - 1 < recs.length by omega) (by omega)
      (Option.some.inj he))
  have h2 := h1.setNext hP (hS _ (by omega)) hset2
  simp only [Option.getD_some] at h2
  obtain ⟨page3, hpage3, h3⟩ := ownerSlot_step hl hd hP h2 hp hpl hi hpi ht
  have htS : t ∈ recs ++ frees :=
    List.mem_append_left _ ((List.eraseIdx_sublist _ _).subset (List.mem_of_getElem? ht))
  have hk : ps[i] - ps[i - 1] - 1 < 16 := by
    have := recGetNOwnedNew_lt page (pageDirSlotGetRec page (pageDirSlot i))
    rw [← hcur]
    unfold pageDirSlotGetNOwned
    omega
  have h4 := h3.slotSetNOwned hP hi (by rw [Function.update_self]; exact htS) hk
  rw [Function.update_self] at h4
  have hfield : Function.update (pageHeaderGetField page) PAGE_LAST_INSERT 0 PAGE_FREE =
      frees.head?.getD 0 := by
    rw [Function.update_of_ne (by decide), hw.free.field_free]
  obtain ⟨page5, hfree5, h5⟩ := h4.memFree hP (hS p (by omega))
    (by rw [hfield]; exact hw.free.headD_ne hl hp (by omega))
    (by rw [hfield]; exact hP.headD_lt fun r hr => List.mem_append_right _ hr) hextra hdata
  have hv : Function.update (Function.update (Function.update
      (Function.update (pageHeaderGetField page) PAGE_LAST_INSERT 0) PAGE_FREE (recs[p] % 2 ^ 16))
      PAGE_GARBAGE ((Function.update (pageHeaderGetField page) PAGE_LAST_INSERT 0 PAGE_GARBAGE +
        extra + data) % 2 ^ 32 % 2 ^ 16))
      PAGE_N_RECS ((Function.update (pageHeaderGetField page) PAGE_LAST_INSERT 0 PAGE_N_RECS +
        2 ^ 32 - 1) % 2 ^ 32 % 2 ^ 16) = unlinkField page recs[p] (extra + data) := by
    rw [unlinkField, Nat.mod_eq_of_lt (hlt p (by omega)), Function.update_of_ne (by decide),
      Function.update_of_ne (show PAGE_N_RECS ≠ PAGE_LAST_INSERT by decide), Nat.add_assoc]
    rfl
  rw [hfield, hv] at h5
  refine ⟨page5, h5, ?_⟩
  simp only [pageCurDeleteRec, pageDirFindOwnerSlot_eq hl hd hi hq hpi hbelow,
    if_neg (show i ≠ 0 by omega), (holds_self page (recs ++ frees) ps.length).getNthSlot_of_lt hn0 hi,
    h1.getNthSlot_of_lt hn1 (show i - 1 < ps.length by omega), Option.bind_eq_bind,
    Option.bind_some, hprevSlot, hwalk, hlinked p hpl, hset2, hcur,
    if_neg (show ¬ps[i] - ps[i - 1] ≤ 1 by omega), hpage3, hfree5]

end Unlink

/-! ### Balancing the owner slot -/

section Balance

variable {page5 : Nat → UInt8} {recs qs S : List Nat} {i : Nat}

section Branches

variable (hl5 : RecordList page5 recs)
  (hs5 : DirShape (recGetNOwnedNew page5) (fun j => pageDirSlotGetRec page5 (pageDirSlot j))
    (pageDirGetNSlots page5) recs qs)
  (hP : Placed S qs.length) (hS : ∀ r ∈ recs, r ∈ S) (hi0 : 0 < i) (hi : i + 1 < qs.length)
  (hc : ∀ j, j + 1 ≠ i → SlotCount qs j)
  (hgap : getElem qs i (Nat.lt_of_succ_lt hi) -
    getElem qs (i - 1) (Nat.sub_lt_of_lt (Nat.lt_of_succ_lt hi)) = PAGE_DIR_SLOT_MIN_N_OWNED - 1)

include hl5 hs5 hP hS hi0 hc hgap

theorem balance_transfer
    (hup : PAGE_DIR_SLOT_MIN_N_OWNED < qs[i + 1] - getElem qs i (Nat.lt_of_succ_lt hi)) :
    ∃ page6, pageDirBalanceSlot page5 i = some page6 ∧
      PageDirectory page6 recs (qs.set i (getElem qs i (Nat.lt_of_succ_lt hi) + 1)) ∧
      ∃ owned slot, Holds page5 page6 S qs.length (recNextField page5) owned slot
        (pageHeaderGetField page5) := by
  have hn5 : pageHeaderGetField page5 PAGE_N_DIR_SLOTS = qs.length := hs5.n_slots.symm
  have hq := hs5.getElem_lt hi
  have hlt := hs5.getElem_lt_getElem (show i < qs.length by omega) hi (by omega)
  have hown := (hs5.owned_slot hi0 (show i < qs.length by omega)).trans hgap
  have hupc : recGetNOwnedNew page5 (pageDirSlotGetRec page5 (pageDirSlot (i + 1))) =
      qs[i + 1] - qs[i] := by
    simpa only [Nat.add_sub_cancel] using hs5.owned_slot (j := i + 1) (by omega) hi
  have hq1 : qs[i] + 1 < recs.length := by omega
  have hnext : recGetNextPtr page5 (pageDirSlotGetRec page5 (pageDirSlot i)) =
      some recs[qs[i] + 1] := by
    rw [hs5.slot i (by omega) (hs5.getElem_lt (by omega)), recGetNextPtr]
    exact recGetNextPtrConst_of_offs (hl5.next _ hq1) (hl5.next_bounds hq1).2.1
  obtain ⟨page6, hrun, h6⟩ := (holds_self page5 S qs.length).balanceSlot_transfer hP hn5 hi0 hi
    (hS _ (hs5.slot_mem (by omega))) (hS _ (hs5.slot_mem hi)) hown (by rw [hupc]; exact hup)
    hnext (hS _ (List.getElem_mem _))
  have hshape := hs5.transfer hl5.nodup hl5.head hi0 hi
    (by simp only [PAGE_DIR_SLOT_MIN_N_OWNED] at hup; omega) (List.getElem?_eq_getElem hq1)
  have hmin : PAGE_DIR_SLOT_MIN_N_OWNED = qs[i] + 1 - qs[i - 1] := by
    simp only [PAGE_DIR_SLOT_MIN_N_OWNED] at hgap ⊢
    omega
  rw [hupc, hmin] at h6
  have hn6 : pageDirGetNSlots page6 = pageDirGetNSlots page5 := h6.nSlots
  rw [← hn6] at hshape
  refine ⟨page6, hrun, (pageDirectory_iff hl5.last).mpr
    ⟨hshape.congr (fun r hr => h6.owned r (hS r hr))
      (h6.owned _ (hS _ (List.mem_of_mem_head? hl5.head)))
      (fun j hj => h6.slot j (by rw [List.length_set] at hj; exact hj)),
    slotCounts_transfer hc hi hgap hi0 hup⟩, _, _, h6⟩

theorem balance_merge
    (hup : qs[i + 1] - getElem qs i (Nat.lt_of_succ_lt hi) ≤ PAGE_DIR_SLOT_MIN_N_OWNED) :
    ∃ page6, pageDirBalanceSlot page5 i = some page6 ∧ PageDirectory page6 recs (qs.eraseIdx i) ∧
      ∃ owned slot, Holds page5 page6 S qs.length (recNextField page5) owned slot
        (Function.update (pageHeaderGetField page5) PAGE_N_DIR_SLOTS ((qs.length - 1) % 2 ^ 16)) := by
  have hn5 : pageHeaderGetField page5 PAGE_N_DIR_SLOTS = qs.length := hs5.n_slots.symm
  have hq := hs5.getElem_lt hi
  have hlt := hs5.getElem_lt_getElem (show i < qs.length by omega) hi (by omega)
  have hown := (hs5.owned_slot hi0 (show i < qs.length by omega)).trans hgap
  have hupc : recGetNOwnedNew page5 (pageDirSlotGetRec page5 (pageDirSlot (i + 1))) =
      qs[i + 1] - qs[i] := by
    simpa only [Nat.add_sub_cancel] using hs5.owned_slot (j := i + 1) (by omega) hi
  have hne : pageDirSlotGetRec page5 (pageDirSlot i) ≠
      pageDirSlotGetRec page5 (pageDirSlot (i + 1)) := by
    rw [hs5.slot i (by omega) (hs5.getElem_lt (by omega)), hs5.slot (i + 1) hi hq]
    exact getElem_ne_of_ne hl5.nodup _ _ (by omega)
  obtain ⟨page6, hrun, h6⟩ := (holds_self page5 S qs.length).balanceSlot_merge hP hn5 hi0 hi
    (hS _ (hs5.slot_mem (by omega))) (hS _ (hs5.slot_mem hi)) hne hown (by rw [hupc]; exact hup)
  have hshape := hs5.merge hl5.nodup hl5.head hi0 hi
  have hv : recGetNOwnedNew page5 (pageDirSlotGetRec page5 (pageDirSlot i)) +
      recGetNOwnedNew page5 (pageDirSlotGetRec page5 (pageDirSlot (i + 1))) =
      qs[i + 1] - qs[i - 1] := by
    rw [hown, hupc]
    simp only [PAGE_DIR_SLOT_MIN_N_OWNED] at hgap ⊢
    omega
  rw [hv] at h6
  have hlenE : (qs.eraseIdx i).length = qs.length - 1 := by
    rw [List.length_eraseIdx, if_pos (by omega)]
  have hn6 : pageDirGetNSlots page6 = pageDirGetNSlots page5 - 1 := by
    rw [h6.nSlots, Function.update_self, ← hs5.n_slots]
    exact Nat.mod_eq_of_lt (by have := hP.dir; simp only [pageDirSlot_val, layout_values] at this; omega)
  rw [← hn6] at hshape
  refine ⟨page6, hrun, (pageDirectory_iff hl5.last).mpr
    ⟨hshape.congr (fun r hr => h6.owned r (hS r hr))
      (h6.owned _ (hS _ (List.mem_of_mem_head? hl5.head))) (fun j hj => ?_),
    slotCounts_merge hc hi hgap (by omega) hup⟩, _, _, h6⟩
  rw [hlenE] at hj
  rw [h6.slot j (by omega), Function.update_of_ne (by omega), shiftedSlots]
  by_cases hji : j < i
  · rw [if_neg (by omega), if_pos hji]
  · rw [if_pos (by omega), if_neg hji]

end Branches

/-- `page_dir_balance_slot` after the unlink, on a directory of the shape the unlink leaves,
whose slot `i` owned `d` records before it lost one: a middle slot left with too few records
takes one from the slot above or merges with it, and the directory is well formed again. Only
the owned counts, the slots and `PAGE_N_DIR_SLOTS` change. -/
theorem balance_after_erase {d : Nat} (hl5 : RecordList page5 recs)
    (hs5 : DirShape (recGetNOwnedNew page5) (fun j => pageDirSlotGetRec page5 (pageDirSlot j))
      (pageDirGetNSlots page5) recs qs)
    (hP : Placed S qs.length) (hS : ∀ r ∈ recs, r ∈ S) (hi0 : 0 < i) (hi : i < qs.length)
    (hc : ∀ j, j + 1 ≠ i → SlotCount qs j)
    (hgap : qs[i] - getElem qs (i - 1) (Nat.sub_lt_of_lt hi) + 1 = d)
    (hmax : d ≤ PAGE_DIR_SLOT_MAX_N_OWNED)
    (hmin : i + 1 < qs.length → PAGE_DIR_SLOT_MIN_N_OWNED ≤ d) :
    ∃ page6 ps', (if d ≤ PAGE_DIR_SLOT_MIN_N_OWNED then pageDirBalanceSlot page5 i
        else some page5) = some page6 ∧
      PageDirectory page6 recs ps' ∧ ps'.length ≤ qs.length ∧
      ∃ owned slot field, Holds page5 page6 S qs.length (recNextField page5) owned slot field ∧
        ∀ f, f ≠ PAGE_N_DIR_SLOTS → field f = pageHeaderGetField page5 f := by
  by_cases hbal : d ≤ PAGE_DIR_SLOT_MIN_N_OWNED ∧ i + 1 < qs.length
  · -- a middle slot left one record short
    obtain ⟨hle, hi'⟩ := hbal
    rw [if_pos hle]
    have hgap' : qs[i] - qs[i - 1] = PAGE_DIR_SLOT_MIN_N_OWNED - 1 := by
      have := hmin hi'
      simp only [PAGE_DIR_SLOT_MIN_N_OWNED] at this hle ⊢
      omega
    by_cases hup : PAGE_DIR_SLOT_MIN_N_OWNED < qs[i + 1] - qs[i]
    · obtain ⟨page6, hrun, hdir, _, _, h6⟩ := balance_transfer hl5 hs5 hP hS hi0 hi' hc hgap' hup
      exact ⟨page6, _, hrun, hdir, (List.length_set ..).le, _, _, _, h6, fun _ _ => rfl⟩
    · obtain ⟨page6, hrun, hdir, _, _, h6⟩ :=
        balance_merge hl5 hs5 hP hS hi0 hi' hc hgap' (by omega)
      exact ⟨page6, _, hrun, hdir, List.length_eraseIdx_le .., _, _, _, h6,
        fun _ hf => Function.update_of_ne hf _ _⟩
  · -- the last slot is left as it is, and a slot with enough records is not balanced
    have hres : (if d ≤ PAGE_DIR_SLOT_MIN_N_OWNED then pageDirBalanceSlot page5 i
        else some page5) = some page5 := by
      split
      · exact (holds_self page5 S qs.length).balanceSlot_last hs5.n_slots.symm hi0
          (by have := fun h' => hbal ⟨by assumption, h'⟩; omega)
      · rfl
    refine ⟨page5, qs, hres, (pageDirectory_iff hl5.last).mpr
      ⟨hs5, slotCounts_of_but hc (fun h => ?_) hi0⟩, le_rfl, _, _, _, holds_self page5 S qs.length,
      fun _ _ => rfl⟩
    simp only [show i - 1 + 1 = i by omega] at h ⊢
    refine ⟨by omega, fun h2 => ?_⟩
    have := hmin (by omega)
    simp only [PAGE_DIR_SLOT_MIN_N_OWNED] at hbal this ⊢
    omega

end Balance

/-! ### The delete keeps the page well formed -/

section Delete

variable {page : Nat → UInt8} {info : RecordInfo} {recs ps frees : List Nat} {p : Nat}

/-- `page_cur_delete_rec` of the record at position `p` of the list, a user record, with the
offsets `CalculateOffsets` gives it, on a well-formed page: the delete returns the record after
it, and the page it leaves is well formed, the record moved from the record list to the head of
the free list and every record where it was. -/
theorem pageCurDeleteRec_erase (hw : WellFormedPage page info recs ps frees)
    (hlay : RecordLayout page info recs frees ps.length) (hnb : info.NullableBound)
    (hp : 0 < p) (hpl : p + 1 < recs.length) {offsets : List Nat}
    (hoff : calculateOffsets page info (getElem recs p (Nat.lt_of_succ_lt hpl)) = some offsets) :
    ∃ page' ps', pageCurDeleteRec page (getElem recs p (Nat.lt_of_succ_lt hpl)) offsets =
        some (some recs[p + 1], page') ∧
      WellFormedPage page' info (recs.eraseIdx p) ps'
        (getElem recs p (Nat.lt_of_succ_lt hpl) :: frees) ∧
      RecordLayout page' info (recs.eraseIdx p) (getElem recs p (Nat.lt_of_succ_lt hpl) :: frees)
        ps'.length ∧
      (∃ s, recSize page info (getElem recs p (Nat.lt_of_succ_lt hpl)) = some s ∧
        pageHeaderGetField page' PAGE_GARBAGE = pageHeaderGetField page PAGE_GARBAGE + s) ∧
      pageHeaderGetField page' PAGE_HEAP_TOP = pageHeaderGetField page PAGE_HEAP_TOP := by
  have hl := hw.records
  have hd := hw.directory
  have hP := hlay.placed
  obtain ⟨i, hi, hi1, hpi, hbelow⟩ := hd.exists_owner hp (by omega)
  have htwo := owner_two_le hl hd hpl hi hi1 hpi hbelow
  have hlenE : (recs.eraseIdx p).length = recs.length - 1 := by
    rw [List.length_eraseIdx, if_pos (by omega)]
  have hb : ps[i] - 1 < (recs.eraseIdx p).length := by
    have := hd.getElem_lt hl hi
    rw [hlenE]
    omega
  obtain ⟨t, ht⟩ : ∃ t, (recs.eraseIdx p)[ps[i] - 1]? = some t :=
    ⟨_, List.getElem?_eq_getElem hb⟩
  have hpU := getElem_mem_userRecs hp hpl
  obtain ⟨s, hsize⟩ := hw.recSize_some hpU
  obtain ⟨extra, hextra, data, hdata, rfl⟩ : ∃ extra, recOffsExtraSize offsets = some extra ∧
      ∃ data, recOffsDataSize offsets = some data ∧ extra + data = s := by
    simpa only [recSize, hoff, Option.bind_eq_bind, Option.bind_some, Option.bind_eq_some_iff,
      Option.some.injEq] using hsize
  obtain ⟨page5, h5, hrun⟩ := pageCurDeleteRec_unlink hw hP hp hpl hi hpi hbelow ht hextra hdata
  have hS : ∀ r ∈ recs, r ∈ recs ++ frees := fun r hr => List.mem_append_left _ hr
  have hprev : unlinkNext page recs[p - 1] recs[p] recs[p + 1] (frees.head?.getD 0) recs[p - 1] =
      nextFieldFor recs[p - 1] recs[p + 1] :=
    unlinkNext_prev (getElem_ne_of_ne hl.nodup (show p - 1 < recs.length by omega)
      (Nat.lt_of_succ_lt hpl) (by omega))
  have hnext : ∀ k (hk : k < recs.length), k ≠ p - 1 → k ≠ p →
      unlinkNext page recs[p - 1] recs[p] recs[p + 1] (frees.head?.getD 0) recs[k] =
        recNextField page recs[k] := fun k hk h1 h2 =>
    unlinkNext_of_ne (getElem_ne_of_ne hl.nodup hk _ h1) (getElem_ne_of_ne hl.nodup hk _ h2)
  have hfrees : ∀ r ∈ frees,
      unlinkNext page recs[p - 1] recs[p] recs[p + 1] (frees.head?.getD 0) r = recNextField page r :=
    fun r hr => unlinkNext_of_ne (fun he => hw.free.disjoint r hr (he ▸ List.getElem_mem _))
      (fun he => hw.free.disjoint r hr (he ▸ List.getElem_mem _))
  have hnrecs : 0 < pageGetNRecs page := by
    have := hl.n_recs
    omega
  have hl5 := recordList_erase hl hS h5 hp hpl hprev hnext (unlinkField_nRecs_of_pos hnrecs)
  obtain ⟨hs0, hc0⟩ := (pageDirectory_iff hl.last).mp hd
  have hsE := hs0.erase hi hpi hbelow hl.nodup hpl htwo hl.head hp ht
  have hslots5 : pageDirGetNSlots page5 = pageDirGetNSlots page :=
    h5.nSlots.trans (unlinkField_of_ne (by decide) (by decide) (by decide) (by decide))
  have hs5 : DirShape (recGetNOwnedNew page5) (fun j => pageDirSlotGetRec page5 (pageDirSlot j))
      (pageDirGetNSlots page5) (recs.eraseIdx p) (ps.map (shiftDown p)) := by
    rw [hslots5]
    exact hsE.congr (fun r hr => h5.owned r (hS r ((List.eraseIdx_sublist _ _).subset hr)))
      (h5.owned _ (hS _ (List.mem_of_mem_head? hl.head)))
      (fun j hj => h5.slot j (by rw [List.length_map] at hj; exact hj))
  -- balance the owner slot
  have hcount := hc0 (i - 1) (by omega)
  simp only [show i - 1 + 1 = i by omega] at hcount
  obtain ⟨page6, ps', hres, hdir6, hlen6, owned6, slot6, field6, h6, hfield6⟩ :=
    balance_after_erase (d := ps[i] - ps[i - 1]) hl5 hs5 (by rw [List.length_map]; exact hP)
      (fun r hr => hS r ((List.eraseIdx_sublist _ _).subset hr)) (by omega)
      (by rw [List.length_map]; exact hi)
      (fun j hj => hs0.erase_count hi hpi hbelow hp (hc0 j) hj)
      (by rw [hs0.erase_gap hi hpi hbelow hp (by rw [List.length_map]; exact hi)]; omega)
      hcount.1 (fun h => hcount.2 (by rw [List.length_map] at h; omega))
  rw [List.length_map] at h6 hlen6
  have hdel : pageCurDeleteRec page recs[p] offsets = some (some recs[p + 1], page6) := by
    rw [hrun]
    by_cases hle : ps[i] - ps[i - 1] ≤ PAGE_DIR_SLOT_MIN_N_OWNED
    · rw [if_pos hle] at hres ⊢
      rw [hres, Option.bind_some]
    · rw [if_neg hle] at hres ⊢
      rw [Option.some.inj hres]
  have hnext5 : ∀ r ∈ recs ++ frees, recNextField page5 r =
      unlinkNext page recs[p - 1] recs[p] recs[p + 1] (frees.head?.getD 0) r := h5.next
  have hf6 : ∀ f, f % 2 = 0 → f ≤ PAGE_N_RECS → f ≠ PAGE_N_DIR_SLOTS →
      field6 f = unlinkField page recs[p] (extra + data) f :=
    fun f h1 h2 hf => (hfield6 f hf).trans (h5.field f h1 h2)
  -- `page_mem_free` adds the record's size to the garbage and leaves the heap top
  have hgarbage : field6 PAGE_GARBAGE = pageHeaderGetField page PAGE_GARBAGE + (extra + data) := by
    rw [hf6 _ rfl (by decide) (by decide), unlinkField_garbage_of_lt (hw.garbage_add_lt hpU hsize)]
  have htop : field6 PAGE_HEAP_TOP = pageHeaderGetField page PAGE_HEAP_TOP := by
    rw [hf6 _ rfl (by decide) (by decide),
      unlinkField_of_ne (by decide) (by decide) (by decide) (by decide)]
  have h56 := h5.trans h6
  obtain ⟨hw6, hlay6⟩ := wellFormedPage_erase hw hlay hnb h56 hp hpl
    ((hnext5 _ (hS _ (List.getElem_mem _))).trans hprev)
    (fun k hk h1 h2 => (hnext5 _ (hS _ (List.getElem_mem _))).trans (hnext k hk h1 h2))
    ((hnext5 _ (hS _ (List.getElem_mem _))).trans unlinkNext_cur)
    (fun r hr => (hnext5 r (List.mem_append_right _ hr)).trans (hfrees r hr)) hsize
    (by rw [hf6 _ rfl (by decide) (by decide), unlinkField_free]) hgarbage
    (by rw [hf6 _ rfl le_rfl (by decide), unlinkField_nRecs_of_pos hnrecs]) htop
    (by rw [hf6 _ rfl (by decide) (by decide),
      unlinkField_of_ne (by decide) (by decide) (by decide) (by decide)]) hdir6 hlen6
  exact ⟨page6, ps', hdel, hw6, hlay6, ⟨extra + data, hsize,
    (h56.field PAGE_GARBAGE rfl (by decide)).trans hgarbage⟩,
    (h56.field PAGE_HEAP_TOP rfl (by decide)).trans htop⟩

/-- `page_cur_delete_rec` of a user record `r`, with the offsets `CalculateOffsets` gives it, on
a well-formed page: the delete returns the record after it, and the page it leaves is well
formed, its record list short of the record, its free list headed by it, and every record where
it was. `PAGE_GARBAGE` grows by the record's size, `PAGE_N_RECS` drops by one, and the heap top
stays. -/
theorem pageCurDeleteRec_wellFormed (hw : WellFormedPage page info recs ps frees)
    (hlay : RecordLayout page info recs frees ps.length) (hnb : info.NullableBound)
    (hp : 0 < p) {r r' : Nat} (hr : recs[p]? = some r) (hr' : recs[p + 1]? = some r')
    {offsets : List Nat} (hoff : calculateOffsets page info r = some offsets) :
    ∃ page' ps', pageCurDeleteRec page r offsets = some (some r', page') ∧
      WellFormedPage page' info (recs.eraseIdx p) ps' (r :: frees) ∧
      RecordLayout page' info (recs.eraseIdx p) (r :: frees) ps'.length ∧
      (∃ s, recSize page info r = some s ∧
        pageHeaderGetField page' PAGE_GARBAGE = pageHeaderGetField page PAGE_GARBAGE + s) ∧
      pageGetNRecs page' + 1 = pageGetNRecs page ∧
      pageHeaderGetField page' PAGE_HEAP_TOP = pageHeaderGetField page PAGE_HEAP_TOP := by
  obtain ⟨hpl, rfl⟩ := List.getElem?_eq_some_iff.mp hr'
  obtain rfl : recs[p] = r := (List.getElem?_eq_some_iff.mp hr).2
  obtain ⟨page', ps', hdel, hw', hlay', hgarbage, htop⟩ := pageCurDeleteRec_erase hw hlay hnb hp hpl hoff
  have hn := hw.records.n_recs
  have hn' := hw'.records.n_recs
  rw [List.length_eraseIdx, if_pos (by omega)] at hn'
  exact ⟨page', ps', hdel, hw', hlay', hgarbage, by omega, htop⟩

end Delete

/-! ### A page of eight records -/

section EightRecords

/-- The index of one NOT NULL field of one byte, as the body `[0, 1, 0, 1, 0x80, 0x01]` gives
it. -/
def byteIndex : RecordInfo :=
  ⟨1, 1, 0, 0, [⟨DATA_FIXBINARY, DATA_NOT_NULL, 1, 1⟩]⟩

/-- A page of eight user records of one byte under `byteIndex`, at 125 to 167, and three slots:
the infimum's, that of the record at 143, which owns the first four, and the supremum's, which
owns the last four and itself. -/
def eightRecPage : Nat → UInt8 :=
  let page := pageCreateLow fun _ => 0
  let page := pageHeaderSetField page PAGE_N_DIR_SLOTS 3
  let page := pageHeaderSetField page PAGE_HEAP_TOP 168
  let page := pageHeaderSetField page PAGE_N_HEAP 0x800A
  let page := pageHeaderSetField page PAGE_N_RECS 8
  let page := writeBE page (PAGE_NEW_INFIMUM - REC_NEXT) 2 26
  let page := Function.update page (PAGE_NEW_SUPREMUM - REC_NEW_N_OWNED) 5
  let page := writeBE page (pageDirSlot 1) 2 143
  let page := writeBE page (pageDirSlot 2) 2 PAGE_NEW_SUPREMUM
  -- five header bytes and one data byte a record, heap numbers 2 to 9, each linked six bytes on
  writeBytes page 120
    [0, 0, 0x10, 0, 6, 1, 0, 0, 0x18, 0, 6, 2, 0, 0, 0x20, 0, 6, 3, 4, 0, 0x28, 0, 6, 4,
      0, 0, 0x30, 0, 6, 5, 0, 0, 0x38, 0, 6, 6, 0, 0, 0x40, 0, 6, 7, 0, 0, 0x48, 0xFF, 0xC9, 8]

theorem eightRecPage_recordList :
    RecordList eightRecPage [99, 125, 131, 137, 143, 149, 155, 161, 167, 112] := by
  refine ⟨rfl, rfl, by decide, fun i h => ?_, by decide, by decide, by decide⟩
  have : i < 9 := by simp at h; omega
  interval_cases i <;> simp only [List.getElem_cons_zero, List.getElem_cons_succ] <;> decide

set_option maxRecDepth 8000 in
theorem eightRecPage_pageDirectory :
    PageDirectory eightRecPage [99, 125, 131, 137, 143, 149, 155, 161, 167, 112] [0, 4, 9] := by
  refine ⟨by decide, by decide, rfl, rfl, by decide, fun j h _ => ?_, by decide, fun j h _ => ?_,
    by decide, fun j h _ h0 h1 => ?_, fun i h hi => ?_⟩
  · have : j < 3 := by simpa using h
    interval_cases j <;> simp only [List.getElem_cons_zero, List.getElem_cons_succ] <;> decide
  · have : j < 2 := by simp at h; omega
    interval_cases j <;> simp only [List.getElem_cons_zero, List.getElem_cons_succ] <;> decide
  · obtain rfl : j = 1 := by simp at h h1; omega
    simp only [List.getElem_cons_zero, List.getElem_cons_succ]
    decide
  · have : i < 10 := by simpa using h
    interval_cases i <;> simp_all <;> decide

theorem eightRecPage_wellFormed :
    WellFormedPage eightRecPage byteIndex [99, 125, 131, 137, 143, 149, 155, 161, 167, 112]
      [0, 4, 9] [] :=
  ⟨eightRecPage_recordList, eightRecPage_pageDirectory,
    ⟨by decide, fun i h => absurd h (by simp), fun r hr => absurd hr (by simp),
      List.nodup_nil, fun r hr => absurd hr (by simp)⟩,
    by decide, by decide, ⟨List.replicate 8 6, by decide, by decide⟩⟩

theorem eightRecPage_offsets : ∀ r ∈ userRecs [99, 125, 131, 137, 143, 149, 155, 161, 167, 112],
    calculateOffsets eightRecPage byteIndex r = some [0, 1, 0, 0, 2147483653, 1] := by
  decide

theorem byteIndex_nullableBound : byteIndex.NullableBound := by
  simp only [RecordInfo.NullableBound, byteIndex]
  decide

theorem eightRecPage_layout :
    RecordLayout eightRecPage byteIndex [99, 125, 131, 137, 143, 149, 155, 161, 167, 112] [] 3 := by
  refine ⟨⟨by decide, by decide, by decide, by decide⟩, fun r hr => ?_⟩
  have hapart : ∀ r ∈ userRecs [99, 125, 131, 137, 143, 149, 155, 161, 167, 112],
      PAGE_DATA + 5 ≤ r ∧ ∀ r' ∈ [99, 125, 131, 137, 143, 149, 155, 161, 167, 112] ++ [],
        r' ≠ r → r' ≤ r - 5 ∨ r + REC_N_NEW_EXTRA_BYTES ≤ r' := by
    decide
  exact ⟨_, 5, eightRecPage_offsets r hr, rfl, (hapart r hr).1, (hapart r hr).2⟩

set_option maxRecDepth 4000 in
/-- Two deletes on `eightRecPage`: the first leaves the slot of the record at 143 three records
and `page_dir_balance_slot` moves one over from the supremum's five, so the slot ends at 149;
the second leaves it three again, and with four in the supremum's slot the two slots merge. -/
theorem pageCurDeleteRec_wellFormed_eightRecPage :
    ∃ page₁ ps₁ page₂ ps₂,
      (pageCurDeleteRec eightRecPage 125 [0, 1, 0, 0, 2147483653, 1] = some (some 131, page₁) ∧
        WellFormedPage page₁ byteIndex [99, 131, 137, 143, 149, 155, 161, 167, 112] ps₁ [125] ∧
        RecordLayout page₁ byteIndex [99, 131, 137, 143, 149, 155, 161, 167, 112] [125]
          ps₁.length ∧
        (∃ s, recSize eightRecPage byteIndex 125 = some s ∧
          pageHeaderGetField page₁ PAGE_GARBAGE = pageHeaderGetField eightRecPage PAGE_GARBAGE + s) ∧
        pageGetNRecs page₁ + 1 = pageGetNRecs eightRecPage ∧
        pageHeaderGetField page₁ PAGE_HEAP_TOP = pageHeaderGetField eightRecPage PAGE_HEAP_TOP) ∧
      ps₁.length = 3 ∧ pageDirSlotGetRec page₁ (pageDirSlot 1) = 149 ∧
      (pageCurDeleteRec page₁ 131 [0, 1, 0, 0, 2147483653, 1] = some (some 137, page₂) ∧
        WellFormedPage page₂ byteIndex [99, 137, 143, 149, 155, 161, 167, 112] ps₂ [131, 125] ∧
        RecordLayout page₂ byteIndex [99, 137, 143, 149, 155, 161, 167, 112] [131, 125]
          ps₂.length ∧
        (∃ s, recSize page₁ byteIndex 131 = some s ∧
          pageHeaderGetField page₂ PAGE_GARBAGE = pageHeaderGetField page₁ PAGE_GARBAGE + s) ∧
        pageGetNRecs page₂ + 1 = pageGetNRecs page₁ ∧
        pageHeaderGetField page₂ PAGE_HEAP_TOP = pageHeaderGetField page₁ PAGE_HEAP_TOP) ∧
      ps₂.length = 2 := by
  obtain ⟨page₁, ps₁, hdel₁, hw₁, hlay₁, hrest₁⟩ :=
    pageCurDeleteRec_wellFormed eightRecPage_wellFormed eightRecPage_layout byteIndex_nullableBound
      (p := 1) (by decide) rfl rfl (eightRecPage_offsets 125 (by decide))
  -- the directory after the first delete, and the offsets the second is given
  have hrun₁ : (pageCurDeleteRec eightRecPage 125 [0, 1, 0, 0, 2147483653, 1]).map
      (fun x => (pageDirGetNSlots x.2, pageDirSlotGetRec x.2 (pageDirSlot 1),
        calculateOffsets x.2 byteIndex 131)) = some (3, 149, some [0, 1, 0, 0, 2147483653, 1]) := by
    decide +kernel
  simp only [hdel₁, Option.map_some, Option.some.injEq, Prod.mk.injEq] at hrun₁
  obtain ⟨hn₁, hslot₁, hoff₁⟩ := hrun₁
  obtain ⟨page₂, ps₂, hdel₂, hw₂, hlay₂, hrest₂⟩ :=
    pageCurDeleteRec_wellFormed hw₁ hlay₁ byteIndex_nullableBound (p := 1) (by decide) rfl rfl hoff₁
  have hrun₂ : ((pageCurDeleteRec eightRecPage 125 [0, 1, 0, 0, 2147483653, 1]).bind fun x =>
      pageCurDeleteRec x.2 131 [0, 1, 0, 0, 2147483653, 1]).map (fun y => pageDirGetNSlots y.2) =
      some 2 := by
    decide +kernel
  simp only [hdel₁, hdel₂, Option.bind_some, Option.map_some, Option.some.injEq] at hrun₂
  exact ⟨page₁, ps₁, page₂, ps₂, ⟨hdel₁, hw₁, hlay₁, hrest₁⟩, hw₁.directory.n_slots.trans hn₁,
    hslot₁, ⟨hdel₂, hw₂, hlay₂, hrest₂⟩, hw₂.directory.n_slots.trans hrun₂⟩

end EightRecords

end LogDB
