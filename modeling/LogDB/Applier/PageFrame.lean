import LogDB.Applier.RecordDelete
import LogDB.Applier.RecordCopy

/-!
What the writes of the page code change. A page is seen through what the page invariant of
`LogDB.Applier.PageReorganize` reads of it: the next field and the owned count of each record,
the record of each directory slot, and the header fields. The writes of the deleting routines
each change one of these and leave the others as they were, provided the five header bytes in
front of the records lie apart, between the page header and the directory; every byte outside
the header, the directory, and the records' owned counts and next fields stays as it was.

`Holds page0 page` packs this: `page` is seen through four functions, and agrees with `page0`
outside those bytes. Each write of the code turns the functions into a `Function.update` of
them, so that what a run of writes leaves behind is read off the updates.
-/

namespace LogDB

open LogDB.Lib

/-- The next field of the record at `rec`, which `rec_get_next_offs` and
`rec_get_next_ptr_const` read. -/
def recNextField (page : Nat → UInt8) (rec : Nat) : Nat :=
  readBE page (rec - REC_NEXT) 2

/-- The next field `rec_set_next_offs_new` stores in `rec` for a link to `next`. -/
def nextFieldFor (rec next : Nat) : Nat :=
  if next = 0 then 0 else (next + 2 ^ 32 - rec) % 2 ^ 16

/-- The bytes the deleting routines may write, for the records `S` of a page whose directory
has `n` slots: the page header, the directory, and the owned count and the next field of each
record. -/
def linkBytes (S : List Nat) (n : Nat) : Set Nat :=
  {i | i < PAGE_DATA ∨ pageDirSlot (n - 1) ≤ i ∨
    ∃ r ∈ S, i = r - REC_NEW_N_OWNED ∨ i = r - REC_NEXT ∨ i = r - REC_NEXT + 1}

/-- Records whose five header bytes lie apart from each other, past the page header and before
the directory of `n` slots. -/
structure Placed (S : List Nat) (n : Nat) : Prop where
  above : ∀ r ∈ S, PAGE_NEW_INFIMUM ≤ r
  below : ∀ r ∈ S, r ≤ pageDirSlot (n - 1)
  apart : ∀ r ∈ S, ∀ r' ∈ S, r ≠ r' →
    r + REC_N_NEW_EXTRA_BYTES ≤ r' ∨ r' + REC_N_NEW_EXTRA_BYTES ≤ r
  dir : PAGE_DATA ≤ pageDirSlot (n - 1)

/-- `page` seen through the next fields `next` and the owned counts `owned` of the records `S`,
the records `slot` of the first `n` directory slots, and the even header fields `field` up to
`PAGE_N_RECS`; outside the bytes these are kept in, `page` is `page0`. -/
structure Holds (page0 page : Nat → UInt8) (S : List Nat) (n : Nat)
    (next owned slot field : Nat → Nat) : Prop where
  next : ∀ r ∈ S, recNextField page r = next r
  owned : ∀ r ∈ S, recGetNOwnedNew page r = owned r
  slot : ∀ j < n, pageDirSlotGetRec page (pageDirSlot j) = slot j
  field : ∀ f, f % 2 = 0 → f ≤ PAGE_N_RECS → pageHeaderGetField page f = field f
  rest : Set.EqOn page page0 (linkBytes S n)ᶜ

/-! ### The next field -/

section Next

variable {page page' : Nat → UInt8} {r : Nat}

theorem recGetNextOffs_congr (h : recNextField page' r = recNextField page r) :
    recGetNextOffs page' r = recGetNextOffs page r := by
  simp only [recNextField] at h
  simp only [recGetNextOffs, h]

theorem recGetNextPtrConst_congr (h : recNextField page' r = recNextField page r) :
    recGetNextPtrConst page' r = recGetNextPtrConst page r := by
  simp only [recNextField] at h
  simp only [recGetNextPtrConst, h]

theorem pageRecGetNext_congr (h : recNextField page' r = recNextField page r) :
    pageRecGetNext page' r = pageRecGetNext page r := by
  simp only [pageRecGetNext, recGetNextOffs_congr h]

theorem recGetNextPtrConst_of_field {q : Nat} (h : recNextField page r = nextFieldFor r q)
    (hr₀ : REC_NEXT ≤ r) (hr : r < DATA_PAGE_SIZE) (hq : q < DATA_PAGE_SIZE) (hne : q ≠ r) :
    recGetNextPtrConst page r = if q = 0 then none else some q := by
  have hdef : recGetNextPtrConst page r = if recNextField page r = 0 then none
      else some ((r + recNextField page r) % DATA_PAGE_SIZE) := by
    rw [recGetNextPtrConst, if_neg (not_lt.mpr hr₀)]
    rfl
  rw [hdef, h, nextFieldFor]
  by_cases h0 : q = 0
  · rw [if_pos h0, if_pos rfl, if_pos h0]
  · obtain ⟨hfield, hback⟩ := next_field_round_trip hr hq hne
    rw [if_neg h0, if_neg hfield, hback, if_neg h0]

theorem recGetNextOffs_of_field {q : Nat} (h : recNextField page r = nextFieldFor r q)
    (hr₀ : REC_NEXT ≤ r) (hr : r < DATA_PAGE_SIZE) (hq : q < DATA_PAGE_SIZE) (hne : q ≠ r) :
    recGetNextOffs page r = q := by
  have hdef : recGetNextOffs page r = if recNextField page r = 0 then 0
      else (r + recNextField page r) % DATA_PAGE_SIZE := by
    rw [recGetNextOffs, if_neg (not_lt.mpr hr₀)]
    rfl
  rw [hdef, h, nextFieldFor]
  by_cases h0 : q = 0
  · rw [if_pos h0, if_pos rfl, h0]
  · obtain ⟨hfield, hback⟩ := next_field_round_trip hr hq hne
    rw [if_neg h0, if_neg hfield, hback]

end Next

/-! ### Where the records and the slots lie -/

theorem layout_values : PAGE_HEADER = 38 ∧ PAGE_DATA = 94 ∧ PAGE_NEW_INFIMUM = 99 ∧
    PAGE_N_RECS = 16 ∧ REC_NEXT = 2 ∧ REC_NEW_N_OWNED = 5 ∧ REC_N_NEW_EXTRA_BYTES = 5 ∧
    REC_NEW_HEAP_NO = 4 ∧ REC_NEW_STATUS = 3 ∧ DATA_PAGE_SIZE = 16384 ∧ PAGE_DIR = 8 :=
  ⟨rfl, rfl, rfl, rfl, rfl, rfl, rfl, rfl, rfl, rfl, rfl⟩

theorem pageDirSlot_val (j : Nat) : pageDirSlot j = 16376 - (j + 1) * 2 := rfl

namespace Placed

variable {S : List Nat} {n : Nat} (hP : Placed S n)
include hP

theorem slot_bounds {j : Nat} (hj : j < n) :
    pageDirSlot (n - 1) ≤ pageDirSlot j ∧ pageDirSlot j + 2 ≤ DATA_PAGE_SIZE - PAGE_DIR := by
  have hd := hP.dir
  simp only [pageDirSlot_val, layout_values] at hd ⊢
  omega

theorem slot_apart {j j' : Nat} (hj : j < n) (hj' : j' < n) (hne : j ≠ j') :
    pageDirSlot j + 2 ≤ pageDirSlot j' ∨ pageDirSlot j' + 2 ≤ pageDirSlot j := by
  have hd := hP.dir
  simp only [pageDirSlot_val, layout_values] at hd ⊢
  omega

theorem rec_bounds {r : Nat} (hr : r ∈ S) :
    PAGE_DATA + REC_N_NEW_EXTRA_BYTES ≤ r ∧ r ≤ pageDirSlot (n - 1) := by
  have ha := hP.above r hr
  obtain ⟨-, -, hinf, -⟩ := layout_values
  exact ⟨by simp only [PAGE_NEW_INFIMUM] at ha; omega, hP.below r hr⟩

theorem sub_mono {T : List Nat} (hT : ∀ r ∈ T, r ∈ S) {m : Nat} (hm : m ≤ n) :
    Placed T m := by
  have hslot : pageDirSlot (n - 1) ≤ pageDirSlot (m - 1) := by
    simp only [pageDirSlot_val]
    omega
  exact ⟨fun r hr => hP.above r (hT r hr), fun r hr => (hP.below r (hT r hr)).trans hslot,
    fun r hr r' hr' => hP.apart r (hT r hr) r' (hT r' hr'), hP.dir.trans hslot⟩

end Placed

/-! ### The writes -/

section Writes

variable {page0 page : Nat → UInt8} {S : List Nat} {n : Nat} {next owned slot field : Nat → Nat}

theorem holds_self (page : Nat → UInt8) (S : List Nat) (n : Nat) :
    Holds page page S n (recNextField page) (recGetNOwnedNew page)
      (fun j => pageDirSlotGetRec page (pageDirSlot j)) (pageHeaderGetField page) :=
  ⟨fun _ _ => rfl, fun _ _ => rfl, fun _ _ => rfl, fun _ _ _ => rfl, fun _ _ => rfl⟩

theorem Holds.write_two (h : Holds page0 page S n next owned slot field) (hP : Placed S n)
    {a v : Nat} (hrec : ∀ r ∈ S, a + 2 ≤ r - REC_N_NEW_EXTRA_BYTES ∨ r ≤ a)
    (hlink : Set.Ico a (a + 2) ⊆ linkBytes S n) :
    (∀ r ∈ S, recGetNOwnedNew (writeBE page a 2 v) r = owned r) ∧
      Set.EqOn (writeBE page a 2 v) page0 (linkBytes S n)ᶜ := by
  refine ⟨fun r hr => ?_, ?_⟩
  · have hb := hrec r hr
    have hrb := (hP.rec_bounds hr).1
    obtain ⟨-, hD, -, -, -, hown, hex, -⟩ := layout_values
    rw [← h.owned r hr]
    simp only [recGetNOwnedNew, recGetBitField1]
    rw [writeBE_of_not_mem]
    omega
  · intro i hi
    have hout : i < a ∨ a + 2 ≤ i := by
      by_contra hin
      exact hi (hlink (by simp only [Set.mem_Ico]; omega))
    rw [writeBE_of_not_mem hout]
    exact h.rest hi

/-- `page_header_set_field` of an even field up to `PAGE_N_RECS`. -/
theorem Holds.setField (h : Holds page0 page S n next owned slot field) (hP : Placed S n)
    {f : Nat} (hf : f % 2 = 0) (hf' : f ≤ PAGE_N_RECS) (v : Nat) :
    Holds page0 (pageHeaderSetField page f v) S n next owned slot
      (Function.update field f (v % 2 ^ 16)) := by
  obtain ⟨hH, hD, -, hN, hnx, -, hex, -⟩ := layout_values
  have hfield : PAGE_HEADER + f + 2 ≤ PAGE_DATA := by omega
  have hrec : ∀ r ∈ S, PAGE_HEADER + f + 2 ≤ r - REC_N_NEW_EXTRA_BYTES ∨ r ≤ PAGE_HEADER + f :=
    fun r hr => .inl (by have := (hP.rec_bounds hr).1; omega)
  have hsd := hP.dir
  obtain ⟨howned, hrest⟩ := h.write_two hP (v := v) hrec fun i hi => by
    simp only [Set.mem_Ico] at hi
    exact .inl (by omega)
  refine ⟨fun r hr => ?_, howned, fun j hj => ?_, fun f' hf1 hf2 => ?_, hrest⟩
  · have := (hP.rec_bounds hr).1
    rw [← h.next r hr]
    exact readBE_writeBE_other (by omega)
  · have := hP.slot_bounds hj
    rw [← h.slot j hj]
    exact readBE_writeBE_other (by omega)
  · by_cases hff : f' = f
    · subst hff
      rw [Function.update_self]
      exact readBE_writeBE_self _ _ _ _
    · rw [Function.update_of_ne hff, ← h.field f' hf1 hf2]
      exact readBE_writeBE_other (by omega)

/-- `page_dir_slot_set_rec` of one of the first `n` slots. -/
theorem Holds.setSlot (h : Holds page0 page S n next owned slot field) (hP : Placed S n)
    {j : Nat} (hj : j < n) (v : Nat) :
    Holds page0 (pageDirSlotSetRec page (pageDirSlot j) v) S n next owned
      (Function.update slot j (v % 2 ^ 16)) field := by
  obtain ⟨hH, hD, -, hN, hnx, -, hex, -⟩ := layout_values
  have hsj := hP.slot_bounds hj
  have hrec : ∀ r ∈ S, pageDirSlot j + 2 ≤ r - REC_N_NEW_EXTRA_BYTES ∨ r ≤ pageDirSlot j :=
    fun r hr => .inr ((hP.rec_bounds hr).2.trans hsj.1)
  obtain ⟨howned, hrest⟩ := h.write_two hP (v := v) hrec fun i hi => by
    simp only [Set.mem_Ico] at hi
    exact .inr (.inl (by omega))
  refine ⟨fun r hr => ?_, howned, fun j' hj' => ?_, fun f hf1 hf2 => ?_, hrest⟩
  · have := hP.rec_bounds hr
    rw [← h.next r hr]
    exact readBE_writeBE_other (by omega)
  · by_cases hjj : j' = j
    · subst hjj
      rw [Function.update_self]
      exact readBE_writeBE_self _ _ _ _
    · rw [Function.update_of_ne hjj, ← h.slot j' hj']
      exact readBE_writeBE_other (hP.slot_apart hj' hj hjj)
  · have hD' := hP.dir
    rw [← h.field f hf1 hf2]
    exact readBE_writeBE_other (by omega)

theorem ownedByte_set (b : UInt8) {k : Nat} (hk : k < 16) :
    ((UInt8.ofNat ((b.toNat &&& (255 - REC_N_OWNED_MASK)) ||| k <<< REC_N_OWNED_SHIFT)).toNat &&&
      REC_N_OWNED_MASK) >>> REC_N_OWNED_SHIFT = k := by
  have hb : b.toNat &&& 240 < 2 ^ 8 := lt_of_le_of_lt Nat.and_le_right (by decide)
  have hv : (b.toNat &&& 240) ||| k < 2 ^ 8 := Nat.or_lt_two_pow hb (by omega)
  simp only [REC_N_OWNED_MASK, REC_N_OWNED_SHIFT, Nat.shiftLeft_zero, Nat.shiftRight_zero,
    show (255 : Nat) - 0xF = 240 from rfl, UInt8.toNat_ofNat', Nat.mod_eq_of_lt hv]
  rw [show (0xF : Nat) = 2 ^ 4 - 1 from rfl, Nat.and_two_pow_sub_one_eq_mod, Nat.or_mod_two_pow,
    Nat.and_mod_two_pow, show (240 : Nat) % 2 ^ 4 = 0 from rfl, Nat.and_zero, Nat.zero_or,
    Nat.mod_eq_of_lt hk]

theorem recGetNOwnedNew_lt (page : Nat → UInt8) (r : Nat) : recGetNOwnedNew page r < 16 := by
  simp only [recGetNOwnedNew, recGetBitField1, REC_N_OWNED_MASK, REC_N_OWNED_SHIFT,
    Nat.shiftRight_zero]
  exact lt_of_le_of_lt Nat.and_le_right (by decide)

theorem readBE_two_lt (page : Nat → UInt8) (a : Nat) : readBE page a 2 < 2 ^ 16 :=
  lt_of_lt_of_eq (readBE_lt page a 2) (by decide)

/-- `rec_set_n_owned_new` of a record of `S` to a count below 16. -/
theorem Holds.setOwned (h : Holds page0 page S n next owned slot field) (hP : Placed S n)
    {r : Nat} (hr : r ∈ S) {k : Nat} (hk : k < 16) :
    Holds page0 (recSetNOwnedNew page r k) S n next (Function.update owned r k) slot field := by
  obtain ⟨hH, hD, -, hN, hnx, hown, hex, -⟩ := layout_values
  have hb := hP.rec_bounds hr
  have hw : ∀ i, i ≠ r - REC_NEW_N_OWNED → recSetNOwnedNew page r k i = page i :=
    fun i hi => Function.update_of_ne hi _ _
  refine ⟨fun r' hr' => ?_, fun r' hr' => ?_, fun j hj => ?_, fun f hf1 hf2 => ?_,
    fun i hi => ?_⟩
  · rw [← h.next r' hr']
    refine readBE_congr fun i h1 h2 => hw i ?_
    by_cases hrr : r' = r
    · subst hrr
      omega
    · have := hP.apart r' hr' r hr hrr
      omega
  · by_cases hrr : r' = r
    · subst hrr
      rw [Function.update_self]
      simp only [recGetNOwnedNew, recGetBitField1, recSetNOwnedNew, recSetBitField1,
        Function.update_self]
      exact ownedByte_set _ hk
    · rw [Function.update_of_ne hrr, ← h.owned r' hr']
      have := hP.apart r' hr' r hr hrr
      simp only [recGetNOwnedNew, recGetBitField1]
      rw [hw _ (by omega)]
  · have := hP.slot_bounds hj
    rw [← h.slot j hj]
    exact readBE_congr fun i h1 h2 => hw i (by omega)
  · have := hP.dir
    rw [← h.field f hf1 hf2]
    exact readBE_congr fun i h1 h2 => hw i (by omega)
  · rw [hw i fun hir => hi (.inr (.inr ⟨r, hr, .inl hir⟩))]
    exact h.rest hi

/-- `page_rec_set_next` of a record of `S`. -/
theorem Holds.setNext (h : Holds page0 page S n next owned slot field) (hP : Placed S n)
    {r : Nat} (hr : r ∈ S) {q : Option Nat} {page' : Nat → UInt8}
    (hset : pageRecSetNext page r q = some page') :
    Holds page0 page' S n (Function.update next r (nextFieldFor r (q.getD 0))) owned slot field
      := by
  obtain ⟨hH, hD, -, hN, hnx, hown, hex, -⟩ := layout_values
  have hb := hP.rec_bounds hr
  have hsd := hP.dir
  have hpage : page' = writeBE page (r - REC_NEXT) 2 (nextFieldFor r (q.getD 0)) := by
    rw [pageRecSetNext] at hset
    split at hset
    · cases hset
    have hlt : q.getD 0 < DATA_PAGE_SIZE := by
      by_contra hge
      simp [recSetNextOffsNew, hge] at hset
    rw [recSetNextOffsNew_eq page (by simp only [layout_values] at hb ⊢; omega) hlt,
      Option.some.injEq] at hset
    exact hset.symm
  subst hpage
  have hrec : ∀ r' ∈ S, r - REC_NEXT + 2 ≤ r' - REC_N_NEW_EXTRA_BYTES ∨ r' ≤ r - REC_NEXT ∨
      r' = r := by
    intro r' hr'
    by_cases hrr : r' = r
    · exact .inr (.inr hrr)
    · have := hP.apart r' hr' r hr hrr
      omega
  refine ⟨fun r' hr' => ?_, fun r' hr' => ?_, fun j hj => ?_, fun f hf1 hf2 => ?_,
    fun i hi => ?_⟩
  · by_cases hrr : r' = r
    · subst hrr
      rw [Function.update_self, recNextField, readBE_writeBE_self]
      unfold nextFieldFor
      split <;> omega
    · rw [Function.update_of_ne hrr, ← h.next r' hr']
      have := hP.apart r' hr' r hr hrr
      exact readBE_writeBE_other (by omega)
  · rw [← h.owned r' hr']
    simp only [recGetNOwnedNew, recGetBitField1]
    rcases hrec r' hr' with h1 | h1 | rfl <;> rw [writeBE_of_not_mem (by omega)]
  · have := hP.slot_bounds hj
    rw [← h.slot j hj]
    exact readBE_writeBE_other (by omega)
  · rw [← h.field f hf1 hf2]
    exact readBE_writeBE_other (by omega)
  · have hout : i < r - REC_NEXT ∨ r - REC_NEXT + 2 ≤ i := by
      by_contra hin
      exact hi (.inr (.inr ⟨r, hr, by omega⟩))
    rw [writeBE_of_not_mem hout]
    exact h.rest hi

end Writes

/-! ### What the views give -/

/-- `page_rec_set_next` succeeds for a link to another record of the page, or to none. -/
theorem pageRecSetNext_some (page : Nat → UInt8) {r : Nat} {q : Option Nat} (hr : REC_NEXT ≤ r)
    (hq : q.getD 0 < DATA_PAGE_SIZE) (hne : q ≠ some r) :
    ∃ page', pageRecSetNext page r q = some page' :=
  ⟨_, by rw [pageRecSetNext, if_neg hne, recSetNextOffsNew_eq page hr hq]⟩

namespace Holds

variable {page0 page page' : Nat → UInt8} {S : List Nat} {n : Nat} {next owned slot field : Nat → Nat}
  (h : Holds page0 page S n next owned slot field)
include h

theorem trans {next' owned' slot' field' : Nat → Nat}
    (h' : Holds page page' S n next' owned' slot' field') :
    Holds page0 page' S n next' owned' slot' field' :=
  ⟨h'.next, h'.owned, h'.slot, h'.field, fun _ hi => (h'.rest hi).trans (h.rest hi)⟩

theorem nSlots : pageDirGetNSlots page = field PAGE_N_DIR_SLOTS :=
  h.field _ rfl (by decide)

theorem nRecs : pageGetNRecs page = field PAGE_N_RECS :=
  h.field _ rfl le_rfl

theorem getNthSlot (j : Nat) :
    pageDirGetNthSlot page j = if j < field PAGE_N_DIR_SLOTS then some (pageDirSlot j) else none := by
  rw [pageDirGetNthSlot, h.nSlots]

theorem getPtr {f : Nat} (hf : f % 2 = 0) (hf' : f ≤ PAGE_N_RECS) :
    pageHeaderGetPtr page f = if field f = 0 then none else some (field f) := by
  simp only [pageHeaderGetPtr, h.field f hf hf']

theorem getNthSlot_of_lt (hn : field PAGE_N_DIR_SLOTS = n) {j : Nat} (hj : j < n) :
    pageDirGetNthSlot page j = some (pageDirSlot j) := by
  rw [h.getNthSlot, hn, if_pos hj]

theorem slotGetNOwned {j : Nat} (hj : j < n) (hs : slot j ∈ S) :
    pageDirSlotGetNOwned page (pageDirSlot j) = owned (slot j) := by
  rw [pageDirSlotGetNOwned, h.slot j hj, h.owned _ hs]

/-- `page_dir_slot_set_n_owned` of one of the first `n` slots, whose record is one of `S`. -/
theorem slotSetNOwned (hP : Placed S n) {j : Nat} (hj : j < n) (hs : slot j ∈ S) {k : Nat}
    (hk : k < 16) :
    Holds page0 (pageDirSlotSetNOwned page (pageDirSlot j) k) S n next
      (Function.update owned (slot j) k) slot field := by
  have hdef : pageDirSlotSetNOwned page (pageDirSlot j) k = recSetNOwnedNew page (slot j) k := by
    rw [pageDirSlotSetNOwned, h.slot j hj]
  rw [hdef]
  exact h.setOwned hP hs hk

theorem recGetNextOffs_eq {r : Nat} (hr : r ∈ S) (hn : next r = recNextField page0 r) :
    recGetNextOffs page r = recGetNextOffs page0 r :=
  recGetNextOffs_congr ((h.next r hr).trans hn)

theorem pageRecGetNext_eq {r : Nat} (hr : r ∈ S) (hn : next r = recNextField page0 r) :
    pageRecGetNext page r = pageRecGetNext page0 r :=
  pageRecGetNext_congr ((h.next r hr).trans hn)

theorem recGetNextPtrConst_eq {r : Nat} (hr : r ∈ S) (hn : next r = recNextField page0 r) :
    recGetNextPtrConst page r = recGetNextPtrConst page0 r :=
  recGetNextPtrConst_congr ((h.next r hr).trans hn)

/-- `page_mem_free` of a record of `S`: it heads the free list, its size counts as garbage,
and the page has one record less. -/
theorem memFree (hP : Placed S n) {r : Nat} (hr : r ∈ S) (hfree : field PAGE_FREE ≠ r)
    (hfree' : field PAGE_FREE < DATA_PAGE_SIZE) {offsets : List Nat} {extra data : Nat}
    (hextra : recOffsExtraSize offsets = some extra) (hdata : recOffsDataSize offsets = some data) :
    ∃ page', pageMemFree page r offsets = some page' ∧
      Holds page0 page' S n (Function.update next r (nextFieldFor r (field PAGE_FREE))) owned slot
        (Function.update (Function.update (Function.update field PAGE_FREE (r % 2 ^ 16))
          PAGE_GARBAGE ((field PAGE_GARBAGE + extra + data) % 2 ^ 32 % 2 ^ 16))
          PAGE_N_RECS ((field PAGE_N_RECS + 2 ^ 32 - 1) % 2 ^ 32 % 2 ^ 16)) := by
  have hptr := h.getPtr (f := PAGE_FREE) rfl (by decide)
  -- the head of the free list, as `page_rec_set_next` takes it
  have hq : (pageHeaderGetPtr page PAGE_FREE).getD 0 = field PAGE_FREE := by
    rw [hptr]
    split <;> simp_all
  have hne : pageHeaderGetPtr page PAGE_FREE ≠ some r := by
    rw [hptr]
    split <;> simp_all
  obtain ⟨page1, hset⟩ := pageRecSetNext_some page
    (by have := (hP.rec_bounds hr).1; simp only [layout_values] at this ⊢; omega) (hq ▸ hfree') hne
  have h1 := h.setNext hP hr hset
  rw [hq] at h1
  have h2 : Holds page0 (pageHeaderSetPtr page1 PAGE_FREE (some r)) S n
      (Function.update next r (nextFieldFor r (field PAGE_FREE))) owned slot
      (Function.update field PAGE_FREE (r % 2 ^ 16)) :=
    h1.setField hP (f := PAGE_FREE) rfl (by decide) r
  have hg : pageHeaderGetField (pageHeaderSetPtr page1 PAGE_FREE (some r)) PAGE_GARBAGE =
      field PAGE_GARBAGE := by
    rw [h2.field PAGE_GARBAGE rfl (by decide), Function.update_of_ne (by decide)]
  have h3 := h2.setField hP (f := PAGE_GARBAGE) rfl (by decide)
    ((pageHeaderGetField (pageHeaderSetPtr page1 PAGE_FREE (some r)) PAGE_GARBAGE + extra + data) %
      2 ^ 32)
  have hn : pageGetNRecs (pageHeaderSetField (pageHeaderSetPtr page1 PAGE_FREE (some r)) PAGE_GARBAGE
      ((pageHeaderGetField (pageHeaderSetPtr page1 PAGE_FREE (some r)) PAGE_GARBAGE + extra + data) %
        2 ^ 32)) = field PAGE_N_RECS := by
    rw [h3.nRecs, Function.update_of_ne (by decide), Function.update_of_ne (by decide)]
  have h4 := h3.setField hP (f := PAGE_N_RECS) rfl le_rfl
    ((pageGetNRecs (pageHeaderSetField (pageHeaderSetPtr page1 PAGE_FREE (some r)) PAGE_GARBAGE
      ((pageHeaderGetField (pageHeaderSetPtr page1 PAGE_FREE (some r)) PAGE_GARBAGE + extra + data) %
        2 ^ 32)) + 2 ^ 32 - 1) % 2 ^ 32)
  rw [hn, hg] at h4
  refine ⟨_, ?_, h4⟩
  simp only [pageMemFree, hset, hextra, hdata, Option.bind_eq_bind, Option.bind_some]
  rw [hn, hg]

end Holds

end LogDB
