import LogDB.Applier.LogApply
import LogDB.Lib.Chain

/-!
The record list and the directory of a compact index page, and the lookups of
`log_parse.cpp` that walk them: `page_dir_find_owner_slot`, `page_rec_find_owner_rec` and
`page_rec_get_prev`. A record is its offset in the page. The loops of the code run here for
at most `DATA_PAGE_SIZE` turns: on a page whose record list is well formed they need fewer,
and on any other page a loop that the code would run for ever answers `none`, as do the
code's exits, its failed asserts and the null pointers it follows.
-/

namespace LogDB

open LogDB.Lib

/-! ### Accessors -/

section Accessors

variable (page : Nat → UInt8)

/-- `page_header_get_field`: every field read here passes its assert
`field <= PAGE_INDEX_ID`. -/
def pageHeaderGetField (field : Nat) : Nat :=
  readBE page (PAGE_HEADER + field) 2

def pageDirGetNSlots : Nat :=
  pageHeaderGetField page PAGE_N_DIR_SLOTS

def pageGetNRecs : Nat :=
  pageHeaderGetField page PAGE_N_RECS

def pageHeaderSetField (field val : Nat) : Nat → UInt8 :=
  writeBE page (PAGE_HEADER + field) 2 val

/-- Where `page_dir_get_nth_slot` places slot `n`: the directory grows down from the
trailer. -/
def pageDirSlot (n : Nat) : Nat :=
  DATA_PAGE_SIZE - PAGE_DIR - (n + 1) * PAGE_DIR_SLOT_SIZE

/-- `page_dir_get_nth_slot`, with its assert. -/
def pageDirGetNthSlot (n : Nat) : Option Nat :=
  if n < pageDirGetNSlots page then some (pageDirSlot n) else none

def pageDirSlotGetRec (slot : Nat) : Nat :=
  readBE page slot 2

/-- `rec_get_bit_field_1`: a bit field of the byte `offs` before the record origin. -/
def recGetBitField1 (rec offs mask shift : Nat) : Nat :=
  ((page (rec - offs)).toNat &&& mask) >>> shift

def recGetNOwnedNew (rec : Nat) : Nat :=
  recGetBitField1 page rec REC_NEW_N_OWNED REC_N_OWNED_MASK REC_N_OWNED_SHIFT

/-- `rec_get_next_offs`: the next field holds the distance to the next record, taken modulo
the page size, and 0 ends the list. The field of a record at offset 0 or 1 would lie before
the frame; no byte there is read, and the list ends. -/
def recGetNextOffs (rec : Nat) : Nat :=
  if rec < REC_NEXT then 0 else
  let fieldValue := readBE page (rec - REC_NEXT) 2
  if fieldValue = 0 then 0 else (rec + fieldValue) % DATA_PAGE_SIZE

/-- `rec_get_next_ptr_const`, with `none` for its null pointer and for a field before the
frame. -/
def recGetNextPtrConst (rec : Nat) : Option Nat :=
  if rec < REC_NEXT then none else
  let fieldValue := readBE page (rec - REC_NEXT) 2
  if fieldValue = 0 then none else some ((rec + fieldValue) % DATA_PAGE_SIZE)

/-- `page_rec_get_next`: an offset past the page is reported and followed all the same. -/
def pageRecGetNext (rec : Nat) : Option Nat :=
  let offs := recGetNextOffs page rec
  if DATA_PAGE_SIZE ≤ offs then some offs else if offs = 0 then none else some offs

/-- `page_rec_get_next_low`: an offset past the page exits. The null pointer it returns at
the end of the list is `none` too, since the one caller modelled here reads through it. -/
def pageRecGetNextLow (rec : Nat) : Option Nat :=
  let offs := recGetNextOffs page rec
  if DATA_PAGE_SIZE ≤ offs then none else if offs = 0 then none else some offs

end Accessors

/-! ### The lookups -/

section Lookups

variable (page : Nat → UInt8)

/-- A turn of the first loop of `page_dir_find_owner_slot`: the next record, with the
asserts that it lies between the supremum and the directory. -/
def ownerSlotNext (r : Nat) : Option Nat :=
  (recGetNextPtrConst page r).bind fun r =>
    if PAGE_NEW_SUPREMUM ≤ r ∧ r < DATA_PAGE_SIZE - PAGE_DIR then some r else none

/-- `rec_get_n_owned_new(r) != 0`, the test that ends the forward walks. -/
def ownsSlot (r : Nat) : Bool :=
  recGetNOwnedNew page r != 0

/-- `page_dir_find_owner_slot`: walk forward to the record that owns `rec`, then search the
slots from the last down to the first for the two bytes of its offset; a miss exits. -/
def pageDirFindOwnerSlot (rec : Nat) : Option Nat := do
  let nSlots := pageDirGetNSlots page
  -- with no slot, `n_slots - 1` wraps in C and fails the assert, as `0 - 1 = 0` does here
  let _ ← pageDirGetNthSlot page 0
  let _ ← pageDirGetNthSlot page (nSlots - 1)
  let r ← walkUntil (ownerSlotNext page) (ownsSlot page) DATA_PAGE_SIZE rec
  searchDown (fun j => pageDirSlotGetRec page (pageDirSlot j) == r % 2 ^ 16) (nSlots - 1)

def pageRecFindOwnerRec (rec : Nat) : Option Nat :=
  walkUntil (pageRecGetNext page) (ownsSlot page) DATA_PAGE_SIZE rec

/-- `page_rec_get_prev`: from the record of the slot before the owner slot, walk forward to
`rec` and answer the last record passed. -/
def pageRecGetPrev (rec : Nat) : Option Nat := do
  let slotNo ← pageDirFindOwnerSlot page rec
  if slotNo = 0 then none else do
    let slot ← pageDirGetNthSlot page (slotNo - 1)
    -- `prev_rec` stays null when the walk starts at `rec`, and its assert fails
    let prevRec ← walkPrev (pageRecGetNextLow page) rec DATA_PAGE_SIZE none
      (pageDirSlotGetRec page slot)
    prevRec

end Lookups

/-! ### The record list and the directory of a well-formed page -/

/-- Part (a) of a well-formed compact page: `recs` lists the records met along the next
pointers, from the infimum to the supremum, with no repetition and `PAGE_N_RECS` user
records between the two; the records after the infimum lie between the supremum and the
directory, and the supremum's next field is 0. -/
structure RecordList (page : Nat → UInt8) (recs : List Nat) : Prop where
  head : recs.head? = some PAGE_NEW_INFIMUM
  last : recs.getLast? = some PAGE_NEW_SUPREMUM
  nodup : recs.Nodup
  next : ∀ i (h : i + 1 < recs.length), recGetNextOffs page recs[i] = recs[i + 1]
  supremum_next : readBE page (PAGE_NEW_SUPREMUM - REC_NEXT) 2 = 0
  n_recs : recs.length = pageGetNRecs page + 2
  in_page : ∀ r ∈ recs.tail, PAGE_NEW_SUPREMUM ≤ r ∧ r < DATA_PAGE_SIZE - PAGE_DIR

/-- Parts (b) and (c): the `PAGE_N_DIR_SLOTS` slots hold, in order, the records at the
strictly increasing positions `ps` of the list, the first slot the infimum and the last the
supremum; each slot record owns the records after the previous slot record up to itself,
between 4 and 8 of them for a middle slot and up to 8 for the last, and no other record
owns any. -/
structure PageDirectory (page : Nat → UInt8) (recs ps : List Nat) : Prop where
  n_slots : ps.length = pageDirGetNSlots page
  two_le : 2 ≤ ps.length
  head : ps.head? = some 0
  last : ps.getLast? = some (recs.length - 1)
  sorted : ps.Pairwise (· < ·)
  slot : ∀ j (h : j < ps.length) (h' : ps[j] < recs.length),
    pageDirSlotGetRec page (pageDirSlot j) = recs[ps[j]]
  owned_infimum : recGetNOwnedNew page PAGE_NEW_INFIMUM = 1
  owned : ∀ j (h : j + 1 < ps.length) (h' : ps[j + 1] < recs.length),
    recGetNOwnedNew page recs[ps[j + 1]] = ps[j + 1] - ps[j]
  owned_last : 1 ≤ recGetNOwnedNew page PAGE_NEW_SUPREMUM ∧
    recGetNOwnedNew page PAGE_NEW_SUPREMUM ≤ PAGE_DIR_SLOT_MAX_N_OWNED
  owned_middle : ∀ j (h : j < ps.length) (h' : ps[j] < recs.length), 0 < j →
    j + 1 < ps.length → PAGE_DIR_SLOT_MIN_N_OWNED ≤ recGetNOwnedNew page recs[ps[j]] ∧
      recGetNOwnedNew page recs[ps[j]] ≤ PAGE_DIR_SLOT_MAX_N_OWNED
  not_owner : ∀ i (h : i < recs.length), i ∉ ps → recGetNOwnedNew page recs[i] = 0

section Invariant

variable {page : Nat → UInt8} {recs ps : List Nat}

theorem recGetNextPtrConst_of_offs {r s : Nat} (h : recGetNextOffs page r = s) (hs : 0 < s) :
    recGetNextPtrConst page r = some s := by
  simp only [recGetNextOffs, recGetNextPtrConst] at h ⊢
  by_cases hr : r < REC_NEXT
  · rw [if_pos hr] at h
    omega
  rw [if_neg hr] at h ⊢
  by_cases hf : readBE page (r - REC_NEXT) 2 = 0
  · rw [if_pos hf] at h
    omega
  · rw [if_neg hf] at h ⊢
    rw [h]

theorem pageRecGetNext_of_offs {r s : Nat} (h : recGetNextOffs page r = s) (hs : 0 < s) :
    pageRecGetNext page r = some s := by
  simp only [pageRecGetNext, h, if_neg (show s ≠ 0 by omega)]
  split <;> rfl

theorem pageRecGetNextLow_of_offs {r s : Nat} (h : recGetNextOffs page r = s) (hs : 0 < s)
    (hlt : s < DATA_PAGE_SIZE) : pageRecGetNextLow page r = some s := by
  simp only [pageRecGetNextLow, h, if_neg (show ¬DATA_PAGE_SIZE ≤ s by omega),
    if_neg (show s ≠ 0 by omega)]

namespace RecordList

variable (hl : RecordList page recs)
include hl

theorem length_pos : 0 < recs.length := by
  have h := hl.head
  cases recs with
  | nil => simp at h
  | cons r rs => simp

theorem getElem_zero (h : 0 < recs.length) : recs[0] = PAGE_NEW_INFIMUM := by
  have hh := hl.head
  rw [List.head?_eq_getElem?, List.getElem?_eq_getElem h] at hh
  exact Option.some.inj hh

theorem getElem_last (h : recs.length - 1 < recs.length) :
    recs[recs.length - 1] = PAGE_NEW_SUPREMUM := by
  have hh := hl.last
  rw [List.getLast?_eq_getElem?, List.getElem?_eq_getElem h] at hh
  exact Option.some.inj hh

theorem getElem_bounds {i : Nat} (hi : 0 < i) (h : i < recs.length) :
    PAGE_NEW_SUPREMUM ≤ recs[i] ∧ recs[i] < DATA_PAGE_SIZE - PAGE_DIR := by
  have hin := hl.in_page
  cases recs with
  | nil => simp at h
  | cons r rs =>
      obtain ⟨k, rfl⟩ : ∃ k, i = k + 1 := ⟨i - 1, by omega⟩
      exact hin _ (List.getElem_mem _)

theorem getElem_lt {i : Nat} (h : i < recs.length) : recs[i] < DATA_PAGE_SIZE := by
  cases i with
  | zero =>
      rw [hl.getElem_zero h]
      decide
  | succ i =>
      have hb := hl.getElem_bounds (by omega : 0 < i + 1) h
      simp only [DATA_PAGE_SIZE, PAGE_DIR, FIL_PAGE_DATA_END] at hb ⊢
      omega

theorem rec_next_le {i : Nat} (h : i < recs.length) : REC_NEXT ≤ recs[i] := by
  cases i with
  | zero =>
      rw [hl.getElem_zero h]
      decide
  | succ i =>
      have hb := (hl.getElem_bounds (by omega : 0 < i + 1) h).1
      have : REC_NEXT ≤ PAGE_NEW_SUPREMUM := by decide
      omega

/-- The records are distinct offsets in the page, so there are at most `DATA_PAGE_SIZE` of
them: the bound on every walk along the list. -/
theorem length_le : recs.length ≤ DATA_PAGE_SIZE :=
  length_le_of_nodup_lt hl.nodup fun x hx => by
    obtain ⟨i, h, rfl⟩ := List.getElem_of_mem hx
    exact hl.getElem_lt h

theorem next_bounds {i : Nat} (h : i + 1 < recs.length) :
    recGetNextOffs page recs[i] = recs[i + 1] ∧ 0 < recs[i + 1] ∧
      PAGE_NEW_SUPREMUM ≤ recs[i + 1] ∧ recs[i + 1] < DATA_PAGE_SIZE - PAGE_DIR := by
  have hb := hl.getElem_bounds (by omega : 0 < i + 1) h
  refine ⟨hl.next i h, ?_, hb⟩
  simp only [PAGE_NEW_SUPREMUM, PAGE_DATA, PAGE_HEADER, FSEG_PAGE_DATA, FIL_PAGE_DATA,
    FSEG_HEADER_SIZE, REC_N_NEW_EXTRA_BYTES] at hb
  omega

theorem linked_ownerSlotNext : Linked (ownerSlotNext page) recs := by
  intro i h
  obtain ⟨hn, hpos, hlo, hhi⟩ := hl.next_bounds h
  rw [ownerSlotNext, recGetNextPtrConst_of_offs hn hpos, Option.bind_some,
    if_pos ⟨hlo, hhi⟩]

theorem linked_pageRecGetNext : Linked (pageRecGetNext page) recs := by
  intro i h
  obtain ⟨hn, hpos, -⟩ := hl.next_bounds h
  exact pageRecGetNext_of_offs hn hpos

theorem linked_pageRecGetNextLow : Linked (pageRecGetNextLow page) recs := by
  intro i h
  obtain ⟨hn, hpos, -⟩ := hl.next_bounds h
  exact pageRecGetNextLow_of_offs hn hpos (hl.getElem_lt h)

end RecordList

namespace PageDirectory

variable (hd : PageDirectory page recs ps)
include hd

theorem getElem_lt_getElem {i j : Nat} (hi : i < ps.length) (hj : j < ps.length)
    (hij : i < j) : ps[i] < ps[j] :=
  List.pairwise_iff_getElem.mp hd.sorted i j hi hj hij

theorem getElem_zero (h : 0 < ps.length) : ps[0] = 0 := by
  have hh := hd.head
  rw [List.head?_eq_getElem?, List.getElem?_eq_getElem h] at hh
  exact Option.some.inj hh

theorem getElem_last (h : ps.length - 1 < ps.length) :
    ps[ps.length - 1] = recs.length - 1 := by
  have hh := hd.last
  rw [List.getLast?_eq_getElem?, List.getElem?_eq_getElem h] at hh
  exact Option.some.inj hh

theorem getElem_lt (hl : RecordList page recs) {j : Nat} (h : j < ps.length) :
    ps[j] < recs.length := by
  have hlast := hd.getElem_last (by omega)
  have hpos := hl.length_pos
  by_cases hj : j = ps.length - 1
  · subst hj
    omega
  · have := hd.getElem_lt_getElem h (by omega : ps.length - 1 < ps.length) (by omega)
    omega

theorem ownsSlot_getElem (hl : RecordList page recs) {j : Nat} (h : j < ps.length)
    (h' : ps[j] < recs.length) : ownsSlot page recs[ps[j]] = true := by
  cases j with
  | zero =>
      have h0 := hd.getElem_zero h
      simp only [h0, hl.getElem_zero hl.length_pos, ownsSlot, hd.owned_infimum]
      decide
  | succ j =>
      have hlt := hd.getElem_lt_getElem (by omega : j < ps.length) h (Nat.lt_succ_self j)
      simp only [ownsSlot, hd.owned j h h', bne_iff_ne, ne_eq]
      omega

/-- The slot that owns the record at position `p > 0`: the first slot whose record lies at
or after it. It is never slot 0, which holds the infimum. -/
theorem exists_owner {p : Nat} (hp : 0 < p) (hpl : p < recs.length) :
    ∃ i, ∃ hi : i < ps.length, 1 ≤ i ∧ p ≤ ps[i] ∧ ∀ j (hj : j < i), ps[j] < p := by
  classical
  have hex : ∃ i, ∃ hi : i < ps.length, p ≤ ps[i] :=
    ⟨ps.length - 1, by have := hd.two_le; omega, by rw [hd.getElem_last]; omega⟩
  obtain ⟨hi, hle⟩ := Nat.find_spec hex
  refine ⟨Nat.find hex, hi, ?_, hle, fun j hj => ?_⟩
  · by_contra h0
    have h0 : Nat.find hex = 0 := by omega
    simp only [h0, hd.getElem_zero] at hle
    omega
  · have hmin := Nat.find_min hex hj
    simp only [not_exists, not_le] at hmin
    exact hmin (by omega)

theorem not_mem_of_between {p i : Nat} (hi : i < ps.length)
    (hbelow : ∀ j (hj : j < i), ps[j] < p) {k : Nat} (hpk : p ≤ k) (hk : k < ps[i]) :
    k ∉ ps := by
  intro hmem
  obtain ⟨j, hj, rfl⟩ := List.getElem_of_mem hmem
  rcases Nat.lt_trichotomy j i with hji | rfl | hij
  · have := hbelow j hji
    omega
  · omega
  · have := hd.getElem_lt_getElem hi hj hij
    omega

end PageDirectory

end Invariant

/-! ### The empty page -/

section Create

variable (page : Nat → UInt8)

theorem pageCreateLow_bytes :
    pageCreateLow page 38 = 0 ∧ pageCreateLow page 39 = 2 ∧ pageCreateLow page 54 = 0 ∧
      pageCreateLow page 55 = 0 ∧ pageCreateLow page 94 = 1 ∧ pageCreateLow page 97 = 0 ∧
      pageCreateLow page 98 = 13 ∧ pageCreateLow page 107 = 1 ∧ pageCreateLow page 110 = 0 ∧
      pageCreateLow page 111 = 0 ∧ pageCreateLow page 16372 = 0 ∧
      pageCreateLow page 16373 = 112 ∧ pageCreateLow page 16374 = 0 ∧
      pageCreateLow page 16375 = 99 := by
  simp [pageCreateLow, fillBytes, writeBytes_of_mem, writeBytes_of_not_mem,
    infimum_supremum_compact, PAGE_HEADER, FSEG_PAGE_DATA, FIL_PAGE_DATA, PAGE_DATA,
    FSEG_HEADER_SIZE, PAGE_NEW_SUPREMUM_END, PAGE_NEW_SUPREMUM, PAGE_NEW_INFIMUM,
    REC_N_NEW_EXTRA_BYTES, DATA_PAGE_SIZE, PAGE_DIR, FIL_PAGE_DATA_END, PAGE_DIR_SLOT_SIZE,
    PAGE_N_DIR_SLOTS, PAGE_DIRECTION, PAGE_N_HEAP, PAGE_HEAP_TOP, PAGE_HEADER_PRIV_END,
    FIL_PAGE_TYPE]

theorem pageCreateLow_fields :
    pageDirGetNSlots (pageCreateLow page) = 2 ∧ pageGetNRecs (pageCreateLow page) = 0 ∧
      recGetNextOffs (pageCreateLow page) PAGE_NEW_INFIMUM = PAGE_NEW_SUPREMUM ∧
      readBE (pageCreateLow page) (PAGE_NEW_SUPREMUM - REC_NEXT) 2 = 0 ∧
      recGetNOwnedNew (pageCreateLow page) PAGE_NEW_INFIMUM = 1 ∧
      recGetNOwnedNew (pageCreateLow page) PAGE_NEW_SUPREMUM = 1 ∧
      pageDirSlotGetRec (pageCreateLow page) (pageDirSlot 0) = PAGE_NEW_INFIMUM ∧
      pageDirSlotGetRec (pageCreateLow page) (pageDirSlot 1) = PAGE_NEW_SUPREMUM := by
  obtain ⟨h38, h39, h54, h55, h94, h97, h98, h107, h110, h111, h16372, h16373, h16374, h16375⟩ :=
    pageCreateLow_bytes page
  refine ⟨?_, ?_, ?_, ?_, ?_, ?_, ?_, ?_⟩
  · show readBE (pageCreateLow page) 38 2 = 2
    simp [readBE, h38, h39]
  · show readBE (pageCreateLow page) 54 2 = 0
    simp [readBE, h54, h55]
  · show (if readBE (pageCreateLow page) 97 2 = 0 then 0
      else (99 + readBE (pageCreateLow page) 97 2) % 16384) = 112
    simp [readBE, h97, h98]
  · show readBE (pageCreateLow page) 110 2 = 0
    simp [readBE, h110, h111]
  · show ((pageCreateLow page 94).toNat &&& 15) >>> 0 = 1
    simp [h94]
  · show ((pageCreateLow page 107).toNat &&& 15) >>> 0 = 1
    simp [h107]
  · show readBE (pageCreateLow page) 16374 2 = 99
    simp [readBE, h16374, h16375]
  · show readBE (pageCreateLow page) 16372 2 = 112
    simp [readBE, h16372, h16373]

theorem pageCreateLow_recordList :
    RecordList (pageCreateLow page) [PAGE_NEW_INFIMUM, PAGE_NEW_SUPREMUM] := by
  obtain ⟨-, hrecs, hnext, hsup, -⟩ := pageCreateLow_fields page
  refine ⟨rfl, rfl, by decide, fun i h => ?_, hsup, by rw [hrecs]; rfl, by decide⟩
  obtain rfl : i = 0 := by simp at h; omega
  exact hnext

theorem pageCreateLow_pageDirectory :
    PageDirectory (pageCreateLow page) [PAGE_NEW_INFIMUM, PAGE_NEW_SUPREMUM] [0, 1] := by
  obtain ⟨hslots, -, -, -, hinf, hsup, hslot0, hslot1⟩ := pageCreateLow_fields page
  refine ⟨hslots.symm, le_refl _, rfl, rfl, by decide, fun j h _ => ?_, hinf, fun j h _ => ?_,
    ?_, fun j h _ hj hj' => ?_, fun i h hi => ?_⟩
  · -- slot 0 holds the infimum and slot 1 the supremum
    obtain rfl | rfl : j = 0 ∨ j = 1 := by simp at h; omega
    · exact hslot0
    · exact hslot1
  · obtain rfl : j = 0 := by simp at h; omega
    simpa using hsup
  · rw [hsup]
    decide
  · -- a directory of two slots has no middle slot
    simp at hj'
    omega
  · simp at h hi
    omega

end Create

/-! ### A page with one user record -/

section Full

/-- A page whose one user record, of 16252 bytes under the index `fullIndex`, fills the heap
from `PAGE_NEW_SUPREMUM_END` up to the two slots of the directory. -/
def fullPage : Nat → UInt8 :=
  let page := pageCreateLow fun _ => 0
  let page := pageHeaderSetField page PAGE_HEAP_TOP 16372
  let page := pageHeaderSetField page PAGE_N_HEAP 0x8003
  let page := pageHeaderSetField page PAGE_N_RECS 1
  -- the infimum links to the record at 127, and the supremum owns it
  let page := writeBE page (PAGE_NEW_INFIMUM - REC_NEXT) 2 28
  let page := Function.update page (PAGE_NEW_SUPREMUM - REC_NEW_N_OWNED) 2
  -- two length bytes for 16245 data bytes, heap number 2, and a link to the supremum
  writeBytes page 120 [0x75, 0xBF, 0x00, 0x00, 0x10, 0xFF, 0xF1]

theorem fullPage_recordList : RecordList fullPage [99, 127, 112] := by
  refine ⟨rfl, rfl, by decide, fun i h => ?_, by decide, by decide, by decide⟩
  obtain rfl | rfl : i = 0 ∨ i = 1 := by simp at h; omega
  all_goals simp only [List.getElem_cons_zero, List.getElem_cons_succ]; decide

theorem fullPage_pageDirectory : PageDirectory fullPage [99, 127, 112] [0, 2] := by
  refine ⟨by decide, by decide, rfl, rfl, by decide, fun j h _ => ?_, by decide, fun j h _ => ?_,
    by decide, fun j h _ h0 h1 => absurd h1 (by simp at h ⊢; omega), fun i h hi => ?_⟩
  · obtain rfl | rfl : j = 0 ∨ j = 1 := by simp at h; omega
    all_goals simp only [List.getElem_cons_zero, List.getElem_cons_succ]; decide
  · have hj : j = 0 := by simp at h; omega
    subst hj
    simp only [List.getElem_cons_zero, List.getElem_cons_succ]
    decide
  · obtain rfl : i = 1 := by simp at h hi; omega
    simp only [List.getElem_cons_zero, List.getElem_cons_succ]; decide

end Full

/-! ### The lookups on a well-formed page -/

section WellFormed

variable {page : Nat → UInt8} {recs ps : List Nat}

theorem walkUntil_owner {next : Nat → Option Nat} (hl : RecordList page recs)
    (hd : PageDirectory page recs ps) (hnext : Linked next recs) {p i : Nat}
    (hi : i < ps.length) (hq : ps[i] < recs.length) (hpi : p ≤ ps[i])
    (hbelow : ∀ j (hj : j < i), ps[j] < p) :
    walkUntil next (ownsSlot page) DATA_PAGE_SIZE recs[p] = some recs[ps[i]] := by
  refine walkUntil_linked hnext hpi hq (fun k hk hpk hki => ?_) (hd.ownsSlot_getElem hl hi hq)
    (by have := hl.length_le; omega)
  have hk0 := hd.not_owner k hk (hd.not_mem_of_between hi hbelow hpk hki)
  simp only [ownsSlot, hk0]
  decide

theorem searchDown_owner (hl : RecordList page recs) (hd : PageDirectory page recs ps) {i : Nat}
    (hi : i < ps.length) (hq : ps[i] < recs.length) :
    searchDown (fun j => pageDirSlotGetRec page (pageDirSlot j) == recs[ps[i]] % 2 ^ 16)
      (ps.length - 1) = some i := by
  have hmod : recs[ps[i]] % 2 ^ 16 = recs[ps[i]] :=
    Nat.mod_eq_of_lt (by have := hl.getElem_lt hq; simp only [DATA_PAGE_SIZE] at this; omega)
  refine searchDown_eq (by omega) (by rw [hmod, hd.slot i hi hq]; simp) fun j hij hj => ?_
  have hj' : j < ps.length := by omega
  have hqj := hd.getElem_lt hl hj'
  have hne : recs[ps[j]] ≠ recs[ps[i]] := fun h => by
    have := (List.Nodup.getElem_inj_iff hl.nodup).mp h
    have := hd.getElem_lt_getElem hi hj' hij
    omega
  rw [hmod, hd.slot j hj' hqj]
  simpa using hne

theorem pageDirFindOwnerSlot_eq (hl : RecordList page recs) (hd : PageDirectory page recs ps)
    {p i : Nat} (hi : i < ps.length) (hq : ps[i] < recs.length) (hpi : p ≤ ps[i])
    (hbelow : ∀ j (hj : j < i), ps[j] < p) :
    pageDirFindOwnerSlot page recs[p] = some i := by
  have h2 := hd.two_le
  have hslots : pageDirGetNSlots page = ps.length := hd.n_slots.symm
  have hwalk := walkUntil_owner hl hd hl.linked_ownerSlotNext hi hq hpi hbelow
  simp only [pageDirFindOwnerSlot, pageDirGetNthSlot, hslots, if_pos (show 0 < ps.length by omega),
    if_pos (show ps.length - 1 < ps.length by omega), Option.bind_eq_bind, Option.bind_some, hwalk]
  exact searchDown_owner hl hd hi hq

theorem pageRecGetPrev_eq (hl : RecordList page recs) (hd : PageDirectory page recs ps)
    {p i : Nat} (hi : i < ps.length) (hq : ps[i] < recs.length) (hpi : p ≤ ps[i])
    (hbelow : ∀ j (hj : j < i), ps[j] < p) (h1 : 1 ≤ i) (hpl : p < recs.length) :
    pageRecGetPrev page recs[p] = some recs[p - 1] := by
  have hi1 : i - 1 < ps.length := by omega
  have hq1 := hd.getElem_lt hl hi1
  -- the walk starts at the previous slot record, which lies before `rec`
  have hwalk : walkPrev (pageRecGetNextLow page) recs[p] DATA_PAGE_SIZE none recs[ps[i - 1]] =
      some (some recs[p - 1]) :=
    walkPrev_linked hl.linked_pageRecGetNextLow hl.nodup (hbelow (i - 1) (by omega)) hpl
      (by have := hl.length_le; omega)
  simp only [pageRecGetPrev, pageDirFindOwnerSlot_eq hl hd hi hq hpi hbelow, Option.bind_eq_bind,
    Option.bind_some, if_neg (show i ≠ 0 by omega), pageDirGetNthSlot, ← hd.n_slots, if_pos hi1,
    hd.slot (i - 1) hi1 hq1, hwalk]

/-- The record before the supremum is the last user record, or the infimum on an empty page:
the cursor of an insert at the end of the page. -/
theorem pageRecGetPrev_supremum (hl : RecordList page recs) (hd : PageDirectory page recs ps) :
    ∃ h : recs.length - 2 < recs.length,
      pageRecGetPrev page PAGE_NEW_SUPREMUM = some recs[recs.length - 2] := by
  have h2 := hd.two_le
  have hlast := hd.getElem_last (by omega)
  have hbelow : ∀ j (hj : j < ps.length - 1), ps[j] < recs.length - 1 := fun j hj => by
    have := hd.getElem_lt_getElem (by omega) (by omega : ps.length - 1 < ps.length) hj
    omega
  have hfirst : 0 < recs.length - 1 := by
    have := hbelow 0 (by omega)
    omega
  have hprev := pageRecGetPrev_eq hl hd (p := recs.length - 1) (i := ps.length - 1) (by omega)
    (by omega) (by omega) hbelow (by omega) (by omega)
  rw [hl.getElem_last (by omega)] at hprev
  exact ⟨by omega, by rw [hprev]; congr 2⟩

/-- On a page whose record list and directory are well formed, the three lookups end for
every record `recs[p]` but the infimum: the owner slot is the first slot at or after it,
never slot 0, the owner record is that slot's record, and the previous record is the one
before it in the list. -/
theorem owner_lookups_of_wellFormed (hl : RecordList page recs)
    (hd : PageDirectory page recs ps) {p : Nat} (hp : 0 < p) (hpl : p < recs.length) :
    ∃ i, ∃ hi : i < ps.length, ∃ hq : ps[i] < recs.length,
      1 ≤ i ∧ p ≤ ps[i] ∧ (∀ j (hj : j < i), ps[j] < p) ∧
      pageDirFindOwnerSlot page recs[p] = some i ∧
      pageRecFindOwnerRec page recs[p] = some recs[ps[i]] ∧
      pageRecGetPrev page recs[p] = some recs[p - 1] := by
  obtain ⟨i, hi, h1, hpi, hbelow⟩ := hd.exists_owner hp hpl
  have hq := hd.getElem_lt hl hi
  exact ⟨i, hi, hq, h1, hpi, hbelow, pageDirFindOwnerSlot_eq hl hd hi hq hpi hbelow,
    walkUntil_owner hl hd hl.linked_pageRecGetNext hi hq hpi hbelow,
    pageRecGetPrev_eq hl hd hi hq hpi hbelow h1 hpl⟩

/-- The user record of `fullPage` owns no slot, so the owner walk passes on to the
supremum. -/
theorem owner_lookups_of_wellFormed_fullPage :
    recGetNOwnedNew fullPage 127 = 0 ∧ pageDirFindOwnerSlot fullPage 127 = some 1 ∧
      pageRecFindOwnerRec fullPage 127 = some PAGE_NEW_SUPREMUM ∧
      pageRecGetPrev fullPage 127 = some PAGE_NEW_INFIMUM := by
  obtain ⟨i, hi, hq, h1, -, -, hslot, hrec, hprev⟩ :=
    owner_lookups_of_wellFormed fullPage_recordList fullPage_pageDirectory (p := 1) (by decide)
      (by decide)
  obtain rfl : i = 1 := by simp at hi; omega
  exact ⟨by decide, hslot, hrec, hprev⟩

end WellFormed


end LogDB
