import Mathlib
import LogDB.Applier.IndexPage

/-!
The directory of a compact index page as positions in its record list. `DirShape nOwned slotRec
nSlots recs ps` says that the slots hold the records at the positions `ps` of `recs`, each slot
record owning the records back to the previous slot record, as the functions `nOwned` and
`slotRec` and the count `nSlots` have them; `SlotCounts ps` adds the bounds on the counts. A page's
directory is well formed exactly when the page's own functions give both
(`pageDirectory_iff`).

The deleting routines change the directory in three ways, each a statement about positions
here: a record leaves the list and its slot (`DirShape.erase`), a slot left with too few records
takes the first record of the slot above it (`DirShape.transfer`), or merges with that slot
(`DirShape.merge`).
-/

namespace LogDB

/-- The directory of the record list `recs` as positions `ps`, without the bounds on the
counts: parts (b) and (c) of `PageDirectory` over functions. -/
structure DirShape (nOwned slotRec : Nat → Nat) (nSlots : Nat) (recs ps : List Nat) : Prop where
  n_slots : ps.length = nSlots
  two_le : 2 ≤ ps.length
  head : ps.head? = some 0
  last : ps.getLast? = some (recs.length - 1)
  sorted : ps.Pairwise (· < ·)
  slot : ∀ j (h : j < ps.length) (h' : ps[j] < recs.length), slotRec j = recs[ps[j]]
  owned_infimum : nOwned PAGE_NEW_INFIMUM = 1
  owned : ∀ j (h : j + 1 < ps.length) (h' : ps[j + 1] < recs.length),
    nOwned recs[ps[j + 1]] = ps[j + 1] - getElem ps j (Nat.lt_of_succ_lt h)
  not_owner : ∀ i (h : i < recs.length), i ∉ ps → nOwned recs[i] = 0

/-- The bounds on the count of slot `j + 1`, which owns the records after the position of slot
`j` up to its own: at most `PAGE_DIR_SLOT_MAX_N_OWNED`, and at least
`PAGE_DIR_SLOT_MIN_N_OWNED` unless it is the last slot. -/
def SlotCount (ps : List Nat) (j : Nat) : Prop :=
  ∀ h : j + 1 < ps.length,
    ps[j + 1] - getElem ps j (Nat.lt_of_succ_lt h) ≤ PAGE_DIR_SLOT_MAX_N_OWNED ∧
    (j + 2 < ps.length →
      PAGE_DIR_SLOT_MIN_N_OWNED ≤ ps[j + 1] - getElem ps j (Nat.lt_of_succ_lt h))

/-- The bounds `page_dir_balance_slot` keeps, on every slot after the first. -/
def SlotCounts (ps : List Nat) : Prop :=
  ∀ j, SlotCount ps j

/-- Where a position of the list lands once the record at `p` is erased. -/
def shiftDown (p q : Nat) : Nat :=
  if q < p then q else q - 1

/-! ### Positions -/

section Positions

variable {recs : List Nat}

theorem getElem?_eraseIdx_shiftDown {p q : Nat} (hqp : q ≠ p) :
    (recs.eraseIdx p)[shiftDown p q]? = recs[q]? := by
  rw [List.getElem?_eraseIdx, shiftDown]
  split_ifs with h1 h2
  · rfl
  · omega
  · congr 1
    omega

theorem getElem_ne_of_ne (hnd : recs.Nodup) {a b : Nat} (ha : a < recs.length)
    (hb : b < recs.length) (hab : a ≠ b) : recs[a] ≠ recs[b] :=
  fun h => hab ((List.Nodup.getElem_inj_iff hnd).mp h)

theorem getElem_ne_infimum (hnd : recs.Nodup) (hinf : recs.head? = some PAGE_NEW_INFIMUM) {q : Nat}
    (hq : q < recs.length) (hq0 : 0 < q) : recs[q] ≠ PAGE_NEW_INFIMUM := by
  have hinf0 : recs[0] = PAGE_NEW_INFIMUM := by
    rw [List.head?_eq_getElem?, List.getElem?_eq_getElem (by omega)] at hinf
    exact Option.some.inj hinf
  rw [← hinf0]
  exact getElem_ne_of_ne hnd hq (by omega) (by omega)

end Positions

namespace DirShape

variable {owned slot : Nat → Nat} {n : Nat} {recs ps : List Nat}

section Basic

variable (hd : DirShape owned slot n recs ps)
include hd

theorem getElem_lt_getElem {i j : Nat} (hi : i < ps.length) (hj : j < ps.length)
    (hij : i < j) : ps[i] < ps[j] :=
  List.pairwise_iff_getElem.mp hd.sorted i j hi hj hij

theorem getElem_le_getElem {i j : Nat} (hi : i < ps.length) (hj : j < ps.length)
    (hij : i ≤ j) : ps[i] ≤ ps[j] := by
  rcases Nat.lt_or_eq_of_le hij with h | rfl
  · exact (hd.getElem_lt_getElem hi hj h).le
  · exact le_rfl

theorem getElem_zero (h : 0 < ps.length) : ps[0] = 0 := by
  have hh := hd.head
  rw [List.head?_eq_getElem?, List.getElem?_eq_getElem h] at hh
  exact Option.some.inj hh

theorem getElem_last (h : ps.length - 1 < ps.length) :
    ps[ps.length - 1] = recs.length - 1 := by
  have hh := hd.last
  rw [List.getLast?_eq_getElem?, List.getElem?_eq_getElem h] at hh
  exact Option.some.inj hh

theorem two_le_length : 2 ≤ recs.length := by
  have h2 := hd.two_le
  have := hd.getElem_lt_getElem (i := 0) (j := ps.length - 1) (by omega) (by omega) (by omega)
  rw [hd.getElem_zero, hd.getElem_last] at this
  omega

theorem getElem_lt {j : Nat} (h : j < ps.length) : ps[j] < recs.length := by
  have hlast := hd.getElem_last (by omega)
  have := hd.getElem_le_getElem h (by omega : ps.length - 1 < ps.length) (by omega)
  have := hd.two_le_length
  omega

theorem slot_mem {j : Nat} (hj : j < ps.length) : slot j ∈ recs := by
  rw [hd.slot j hj (hd.getElem_lt hj)]
  exact List.getElem_mem _

theorem owned_slot {j : Nat} (hj0 : 0 < j) (hj : j < ps.length) :
    owned (slot j) = ps[j] - getElem ps (j - 1) (Nat.sub_lt_of_lt hj) := by
  have hq := hd.getElem_lt hj
  have ho := hd.owned (j - 1) (by omega) (by simp only [show j - 1 + 1 = j by omega]; exact hq)
  simp only [show j - 1 + 1 = j by omega] at ho
  rw [hd.slot j hj hq, ho]

theorem getElem_inj {i j : Nat} (hi : i < ps.length) (hj : j < ps.length) (h : ps[i] = ps[j]) :
    i = j := by
  by_contra hne
  rcases Nat.lt_or_gt_of_ne hne with hlt | hlt
  · have := hd.getElem_lt_getElem hi hj hlt
    omega
  · have := hd.getElem_lt_getElem hj hi hlt
    omega

theorem congr {owned' slot' : Nat → Nat} (ho : ∀ r ∈ recs, owned' r = owned r)
    (hinf : owned' PAGE_NEW_INFIMUM = owned PAGE_NEW_INFIMUM)
    (hs : ∀ j < ps.length, slot' j = slot j) : DirShape owned' slot' n recs ps :=
  ⟨hd.n_slots, hd.two_le, hd.head, hd.last, hd.sorted,
    fun j h h' => (hs j h).trans (hd.slot j h h'), hinf.trans hd.owned_infimum,
    fun j h h' => (ho _ (List.getElem_mem _)).trans (hd.owned j h h'),
    fun i h hi => (ho _ (List.getElem_mem _)).trans (hd.not_owner i h hi)⟩

end Basic

/-! ### A record leaves its slot -/

section Erase

theorem getElem?_eraseIdx_of_ne {recs : List Nat} {p q : Nat} (hq : q < recs.length)
    (hqp : q ≠ p) : (recs.eraseIdx p)[shiftDown p q]? = some recs[q] := by
  rw [getElem?_eraseIdx_shiftDown hqp, List.getElem?_eq_getElem hq]

variable {p i : Nat} (hd : DirShape owned slot n recs ps) (hi : i < ps.length)
  (hpi : p ≤ ps[i]) (hbelow : ∀ j (hj : j < i), getElem ps j (hj.trans hi) < p)

include hd hi hpi in
theorem owner_pos (hp : 0 < p) : 0 < i := by
  by_contra h0
  obtain rfl : i = 0 := by omega
  rw [hd.getElem_zero] at hpi
  omega

include hd hi hpi hbelow in
theorem owner_side {j : Nat} (hj : j < ps.length) :
    (j < i → ps[j] < p) ∧ (i ≤ j → p ≤ ps[j]) ∧ (j ≠ i → ps[j] ≠ p) := by
  refine ⟨hbelow j, fun hij => hpi.trans (hd.getElem_le_getElem hi hj hij), fun hji => ?_⟩
  rcases Nat.lt_or_gt_of_ne hji with h | h
  · exact (hbelow j h).ne
  · exact (lt_of_le_of_lt hpi (hd.getElem_lt_getElem hi hj h)).ne'

include hd hi hpi hbelow in
theorem shiftDown_getElem {j : Nat} (hj : j < ps.length) :
    shiftDown p ps[j] = if j < i then ps[j] else ps[j] - 1 := by
  have hs := hd.owner_side hi hpi hbelow hj
  by_cases hji : j < i
  · rw [if_pos hji, shiftDown, if_pos (hs.1 hji)]
  · rw [if_neg hji, shiftDown, if_neg (by have := hs.2.1 (by omega); omega)]

variable (hnd : recs.Nodup) (hpl : p + 1 < recs.length)
  (htwo : 2 ≤ ps[i] - getElem ps (i - 1) (Nat.sub_lt_of_lt hi))

include hd hi hpi hbelow htwo in
theorem erase_sorted (hp : 0 < p) : (ps.map (shiftDown p)).Pairwise (· < ·) := by
  rw [List.pairwise_iff_getElem]
  intro a b ha hb hab
  rw [List.length_map] at ha hb
  simp only [List.getElem_map, hd.shiftDown_getElem hi hpi hbelow ha,
    hd.shiftDown_getElem hi hpi hbelow hb]
  have hab' := hd.getElem_lt_getElem ha hb hab
  split_ifs with h1 h2 h2
  · exact hab'
  · -- `a` lies at or before the slot below the owner, `b` at or past the owner
    have hai := hd.getElem_le_getElem ha (by omega : i - 1 < ps.length) (by omega)
    have hib := hd.getElem_le_getElem hi hb (by omega)
    omega
  · omega
  · have := (hd.owner_side hi hpi hbelow ha).2.1 (by omega)
    omega

include hd hi hpi hbelow hpl htwo in
/-- The owner slot's record once the record at `p` is erased: the record before `p` when that
was the owner's own, the owner's record otherwise. Its old position `q` held no other slot. -/
theorem erase_owner_rec {t : Nat} (ht : (recs.eraseIdx p)[ps[i] - 1]? = some t) :
    ∃ q, ∃ hq : q < recs.length, t = recs[q] ∧ 0 < q ∧ q ≠ p ∧ shiftDown p q = ps[i] - 1 ∧
      ∀ j (hj : j < ps.length), ps[j] = q → j = i := by
  have hlt := hd.getElem_lt hi
  by_cases hpe : ps[i] = p
  · -- the record before `p`, which owns nothing: the owner owns two records
    have hi0 : 0 < i := by
      by_contra h0
      obtain rfl : i = 0 := by omega
      rw [hd.getElem_zero] at hpe
      have := hd.getElem_zero hi
      omega
    have hprev := hd.getElem_le_getElem (by omega : i - 1 < ps.length) hi (by omega)
    have hsq : shiftDown p (p - 1) = ps[i] - 1 := by
      rw [shiftDown, if_pos (by omega), hpe]
    have hmv : (recs.eraseIdx p)[shiftDown p (p - 1)]? = some recs[p - 1] :=
      getElem?_eraseIdx_of_ne (by omega) (by omega)
    rw [hsq, ht] at hmv
    refine ⟨p - 1, by omega, Option.some.inj hmv, by omega, by omega, hsq, fun j hj hjq => ?_⟩
    rcases Nat.lt_trichotomy j (i - 1) with h | h | h
    · have := hd.getElem_lt_getElem hj (by omega : i - 1 < ps.length) h
      omega
    · subst h
      omega
    · have := (hd.owner_side hi hpi hbelow hj).2.1 (by omega)
      omega
  · have hsq : shiftDown p ps[i] = ps[i] - 1 := by
      rw [shiftDown, if_neg (by omega)]
    have hmv := getElem?_eraseIdx_of_ne hlt hpe
    rw [hsq, ht] at hmv
    refine ⟨ps[i], hlt, Option.some.inj hmv, by omega, hpe, hsq,
      fun j hj hjq => hd.getElem_inj hj hi hjq⟩

include hd hi hpi hbelow hnd hpl htwo in
/-- The shape after `page_cur_delete_rec` has unlinked the record at `p`, pointed the owner
slot at the record before it if it was the slot's own, and counted it out of the owner: the
owner slot's record is the one at the owner's position less one. -/
theorem erase (hinf : recs.head? = some PAGE_NEW_INFIMUM) (hp : 0 < p) {t : Nat}
    (ht : (recs.eraseIdx p)[ps[i] - 1]? = some t) :
    DirShape (Function.update owned t (ps[i] - getElem ps (i - 1) (Nat.sub_lt_of_lt hi) - 1))
      (Function.update slot i t) n
      (recs.eraseIdx p) (ps.map (shiftDown p)) := by
  have hi0 := hd.owner_pos hi hpi hp
  have hlenE : (recs.eraseIdx p).length = recs.length - 1 := by
    rw [List.length_eraseIdx, if_pos (by omega)]
  have hside := fun j (hj : j < ps.length) => hd.owner_side hi hpi hbelow hj
  have hsd := fun j (hj : j < ps.length) => hd.shiftDown_getElem hi hpi hbelow hj
  obtain ⟨q, hq, rfl, hq0, hqp, hqs, hqslot⟩ := hd.erase_owner_rec hi hpi hbelow hpl htwo ht
  have hinf0 : recs[0] = PAGE_NEW_INFIMUM := by
    rw [List.head?_eq_getElem?, List.getElem?_eq_getElem (by omega)] at hinf
    exact Option.some.inj hinf
  -- a record of the new list other than the owner slot's, at the place of an old position
  have hmoved : ∀ q' (hq' : q' < recs.length) (hk : shiftDown p q' < (recs.eraseIdx p).length),
      q' ≠ p → (recs.eraseIdx p)[shiftDown p q'] = recs[q'] := fun q' hq' hk hq'p =>
    (List.getElem_eq_iff hk).mpr (getElem?_eraseIdx_of_ne hq' hq'p)
  refine ⟨by rw [List.length_map]; exact hd.n_slots, by rw [List.length_map]; exact hd.two_le,
    ?_, ?_, hd.erase_sorted hi hpi hbelow htwo hp, ?_, ?_, ?_, ?_⟩
  · rw [List.head?_map, hd.head, Option.map_some, shiftDown, if_pos hp]
  · rw [List.getLast?_map, hd.last, Option.map_some, shiftDown, if_neg (by omega), hlenE]
  · intro j hj hj'
    rw [List.length_map] at hj
    simp only [List.getElem_map] at hj' ⊢
    by_cases hji : j = i
    · subst hji
      rw [Function.update_self, eq_comm, List.getElem_eq_iff, hsd j hj, if_neg (by omega),
        ← hqs]
      exact getElem?_eraseIdx_of_ne hq hqp
    · rw [Function.update_of_ne hji, hd.slot j hj (hd.getElem_lt hj),
        hmoved _ (hd.getElem_lt hj) hj' ((hside j hj).2.2 hji)]
  · -- the owner slot's record is no infimum
    have hne : recs[q] ≠ PAGE_NEW_INFIMUM := by
      rw [← hinf0]
      exact getElem_ne_of_ne hnd hq (by omega) (by omega)
    rw [Function.update_of_ne hne.symm, hd.owned_infimum]
  · intro j hj hj'
    rw [List.length_map] at hj
    simp only [List.getElem_map] at hj' ⊢
    by_cases hji : j + 1 = i
    · -- the owner: one record less than before
      have hrec : (recs.eraseIdx p)[shiftDown p ps[j + 1]] = recs[q] := by
        rw [List.getElem_eq_iff, ← getElem?_eraseIdx_of_ne hq hqp, hqs]
        simp only [hji, hsd i hi, if_neg (lt_irrefl i)]
      rw [hrec, Function.update_self, hsd (j + 1) hj, hsd j (by omega),
        if_neg (by omega), if_pos (by omega)]
      obtain rfl : j = i - 1 := by omega
      simp only [hji]
      omega
    · have hlt1 := hd.getElem_lt hj
      have hne : recs[ps[j + 1]] ≠ recs[q] :=
        getElem_ne_of_ne hnd (hd.getElem_lt hj) hq fun h => hji (hqslot (j + 1) hj h)
      rw [hmoved _ (hd.getElem_lt hj) hj' ((hside (j + 1) hj).2.2 hji),
        Function.update_of_ne hne, hd.owned j hj (hd.getElem_lt hj), hsd (j + 1) hj,
        hsd j (by omega)]
      by_cases hj1 : j + 1 < i
      · rw [if_pos hj1, if_pos (by omega)]
      · -- both slots lie past `p`, and both positions moved down by one
        have := (hside j (by omega)).2.1 (by omega)
        rw [if_neg hj1, if_neg (by omega)]
        omega
  · intro k hk hkm
    rw [hlenE] at hk
    obtain ⟨q', hq', hq'p, rfl⟩ : ∃ q', ∃ hq' : q' < recs.length, q' ≠ p ∧ shiftDown p q' = k := by
      by_cases hkp : k < p
      · exact ⟨k, by omega, by omega, by rw [shiftDown, if_pos hkp]⟩
      · exact ⟨k + 1, by omega, by omega, by rw [shiftDown, if_neg (by omega)]; omega⟩
    have hnot : q' ∉ ps := fun hmem => hkm (List.mem_map.mpr ⟨q', hmem, rfl⟩)
    have hne : recs[q'] ≠ recs[q] := by
      refine getElem_ne_of_ne hnd hq' hq fun h => hkm (List.mem_map.mpr ⟨ps[i], List.getElem_mem _, ?_⟩)
      rw [h, hqs, hsd i hi, if_neg (lt_irrefl i)]
    rw [hmoved q' hq' (by rw [hlenE]; exact hk) hq'p, Function.update_of_ne hne,
      hd.not_owner q' hq' hnot]

include hd hi hpi hbelow in
theorem erase_count (hp : 0 < p) {j : Nat} (hc : SlotCount ps j) (hj : j + 1 ≠ i) :
    SlotCount (ps.map (shiftDown p)) j := by
  intro h
  rw [List.length_map] at h
  have hb := hc h
  simp only [List.getElem_map, hd.shiftDown_getElem hi hpi hbelow h,
    hd.shiftDown_getElem hi hpi hbelow (by omega : j < ps.length), List.length_map]
  by_cases hji : j + 1 < i
  · rw [if_pos hji, if_pos (by omega)]
    exact hb
  · -- both slots lie past `p`, and both positions moved down by one
    have := (hd.owner_side hi hpi hbelow (by omega : j < ps.length)).2.1 (by omega)
    rw [if_neg hji, if_neg (by omega), show ps[j + 1] - 1 - (ps[j] - 1) = ps[j + 1] - ps[j] by omega]
    exact hb

include hd hi hpi hbelow in
theorem erase_gap (hp : 0 < p) (h : i < (ps.map (shiftDown p)).length) :
    (ps.map (shiftDown p))[i] - getElem (ps.map (shiftDown p)) (i - 1) (Nat.sub_lt_of_lt h) =
      ps[i] - getElem ps (i - 1) (Nat.sub_lt_of_lt hi) - 1 := by
  have hi0 := hd.owner_pos hi hpi hp
  simp only [List.getElem_map, hd.shiftDown_getElem hi hpi hbelow hi,
    hd.shiftDown_getElem hi hpi hbelow (by omega : i - 1 < ps.length), if_neg (lt_irrefl i),
    if_pos (show i - 1 < i by omega)]
  omega

end Erase

/-! ### A slot takes a record from the slot above, or merges with it -/

section Balance

variable {i : Nat} (hd : DirShape owned slot n recs ps) (hnd : recs.Nodup)
  (hinf : recs.head? = some PAGE_NEW_INFIMUM) (hi0 : 0 < i) (hi : i + 1 < ps.length)

include hd in
theorem getElem_pos {j : Nat} (hj : j < ps.length) (hj0 : 0 < j) : 0 < ps[j] := by
  have := hd.getElem_lt_getElem (i := 0) (by omega) hj hj0
  rw [hd.getElem_zero] at this
  exact this

include hd hi in
theorem transfer_sorted (hup : 2 ≤ ps[i + 1] - getElem ps i (Nat.lt_of_succ_lt hi)) :
    (ps.set i (getElem ps i (Nat.lt_of_succ_lt hi) + 1)).Pairwise (· < ·) := by
  rw [List.pairwise_iff_getElem]
  intro a b ha hb hab
  rw [List.length_set] at ha hb
  have hab' := hd.getElem_lt_getElem ha hb hab
  by_cases ha' : i = a
  · -- `b` lies at or past the slot above
    subst ha'
    have := hd.getElem_le_getElem hi hb (by omega)
    rw [List.getElem_set_self, List.getElem_set_ne (by omega)]
    omega
  · rw [List.getElem_set_ne ha']
    by_cases hb' : i = b
    · subst hb'
      rw [List.getElem_set_self]
      omega
    · rw [List.getElem_set_ne hb']
      exact hab'

include hd hnd hinf hi0 hi in
/-- `page_dir_balance_slot` when the slot above the `i`-th can spare a record: the `i`-th slot
takes the record `t` after its own, which comes to own one record more, and the slot above
owns one less. -/
theorem transfer (hup : 2 ≤ ps[i + 1] - getElem ps i (Nat.lt_of_succ_lt hi)) {t : Nat}
    (ht : recs[getElem ps i (Nat.lt_of_succ_lt hi) + 1]? = some t) :
    DirShape (Function.update (Function.update (Function.update owned (slot i) 0) t
        (getElem ps i (Nat.lt_of_succ_lt hi) + 1 -
          getElem ps (i - 1) (Nat.sub_lt_of_lt (Nat.lt_of_succ_lt hi))))
        (slot (i + 1)) (ps[i + 1] - getElem ps i (Nat.lt_of_succ_lt hi) - 1))
      (Function.update slot i t) n recs (ps.set i (getElem ps i (Nat.lt_of_succ_lt hi) + 1)) := by
  have hq := hd.getElem_lt hi
  have hpos := hd.getElem_pos (by omega : i < ps.length) hi0
  obtain rfl : recs[ps[i] + 1] = t := (List.getElem_eq_iff (by omega)).mpr ht
  rw [hd.slot i (by omega) (by omega), hd.slot (i + 1) hi hq]
  have h01 : recs[ps[i]] ≠ recs[ps[i] + 1] := getElem_ne_of_ne hnd _ _ (by omega)
  have h02 : recs[ps[i]] ≠ recs[ps[i + 1]] := getElem_ne_of_ne hnd _ _ (by omega)
  have h12 : recs[ps[i] + 1] ≠ recs[ps[i + 1]] := getElem_ne_of_ne hnd _ _ (by omega)
  have hne : ∀ q (hq : q < recs.length), q ≠ ps[i] → q ≠ ps[i] + 1 → q ≠ ps[i + 1] →
      recs[q] ≠ recs[ps[i]] ∧ recs[q] ≠ recs[ps[i] + 1] ∧ recs[q] ≠ recs[ps[i + 1]] :=
    fun q hq h0 h1 h2 => ⟨getElem_ne_of_ne hnd hq _ h0, getElem_ne_of_ne hnd hq _ h1,
      getElem_ne_of_ne hnd hq _ h2⟩
  refine ⟨by rw [List.length_set]; exact hd.n_slots, by rw [List.length_set]; exact hd.two_le,
    ?_, ?_, hd.transfer_sorted hi hup, ?_, ?_, ?_, ?_⟩
  · rw [List.head?_eq_getElem?, List.getElem?_set_ne (by omega), ← List.head?_eq_getElem?,
      hd.head]
  · rw [List.getLast?_eq_getElem?, List.length_set, List.getElem?_set_ne (by omega),
      ← List.getLast?_eq_getElem?, hd.last]
  · intro j hj hj'
    rw [List.length_set] at hj
    by_cases hji : j = i
    · subst hji
      simp only [List.getElem_set_self, Function.update_self]
    · simp only [List.getElem_set_ne (Ne.symm hji), Function.update_of_ne hji]
      exact hd.slot j hj _
  · have hinf1 := getElem_ne_infimum hnd hinf (by omega : ps[i] < recs.length) hpos
    have hinf2 := getElem_ne_infimum hnd hinf (by omega : ps[i] + 1 < recs.length) (by omega)
    have hinf3 := getElem_ne_infimum hnd hinf hq (by omega)
    rw [Function.update_of_ne hinf3.symm, Function.update_of_ne hinf2.symm,
      Function.update_of_ne hinf1.symm, hd.owned_infimum]
  · intro j hj hj'
    rw [List.length_set] at hj
    have hlt := hd.getElem_lt_getElem (by omega : j < ps.length) hj (by omega)
    by_cases hji : j + 1 = i
    · -- the moved slot: its new record owns one more than the slot did
      obtain rfl : j = i - 1 := by omega
      simp only [hji, List.getElem_set_self, List.getElem_set_ne (show i ≠ i - 1 by omega),
        Function.update_of_ne h12, Function.update_self]
    by_cases hji' : j = i
    · -- the slot above: one record less
      subst hji'
      simp only [List.getElem_set_self, List.getElem_set_ne (show j ≠ j + 1 by omega),
        Function.update_self]
      omega
    · have hq' := hd.getElem_lt hj
      have hside : ps[j + 1] < ps[j] + 0 + ps[i] - ps[j] ∨ ps[i + 1] < ps[j + 1] := by
        rcases Nat.lt_or_gt_of_ne hji with h | h
        · exact .inl (by have := hd.getElem_lt_getElem hj (by omega : i < ps.length) h; omega)
        · exact .inr (hd.getElem_lt_getElem hi hj (by omega))
      obtain ⟨n0, n1, n2⟩ := hne (ps[j + 1]) hq' (by omega) (by omega) (by omega)
      simp only [List.getElem_set_ne (Ne.symm hji), List.getElem_set_ne (show i ≠ j by omega),
        Function.update_of_ne n0, Function.update_of_ne n1, Function.update_of_ne n2]
      exact hd.owned j hj hq'
  · intro k hk hkm
    have hmem : ∀ j (hj : j < ps.length), j ≠ i → ps[j] ∈ ps.set i (ps[i] + 1) := fun j hj hji =>
      List.mem_iff_getElem.mpr ⟨j, by rw [List.length_set]; exact hj,
        List.getElem_set_ne (Ne.symm hji) _⟩
    have hk1 : k ≠ ps[i] + 1 := fun h => hkm (h ▸ List.mem_set (by omega) _)
    have hk2 : k ≠ ps[i + 1] := fun h => hkm (h ▸ hmem (i + 1) hi (by omega))
    by_cases hk0 : k = ps[i]
    · -- the slot's old record owns nothing any more
      have hk : recs[k] = recs[ps[i]] := by simp only [hk0]
      rw [hk, Function.update_of_ne h02, Function.update_of_ne h01, Function.update_self]
    · have hnot : k ∉ ps := fun h => by
        obtain ⟨j, hj, rfl⟩ := List.getElem_of_mem h
        exact hkm (hmem j hj fun hji => hk0 (by subst hji; rfl))
      obtain ⟨n0, n1, n2⟩ := hne k hk hk0 hk1 hk2
      simp only [Function.update_of_ne n0, Function.update_of_ne n1, Function.update_of_ne n2]
      exact hd.not_owner k hk hnot

include hd hnd hinf hi0 hi in
/-- `page_dir_delete_slot` of the `i`-th slot: the slot above it takes its records, and the
slots above it move one place down. -/
theorem merge :
    DirShape (Function.update (Function.update owned (slot i) 0) (slot (i + 1))
        (ps[i + 1] - getElem ps (i - 1) (Nat.sub_lt_of_lt (Nat.lt_of_succ_lt hi))))
      (fun j => if j < i then slot j else slot (j + 1)) (n - 1) recs (ps.eraseIdx i) := by
  have hq := hd.getElem_lt hi
  have hpos := hd.getElem_pos (by omega : i < ps.length) hi0
  have hlt := hd.getElem_lt_getElem (by omega : i < ps.length) hi (by omega)
  have hlenE : (ps.eraseIdx i).length = ps.length - 1 := by
    rw [List.length_eraseIdx, if_pos (by omega)]
  rw [hd.slot i (by omega) (by omega), hd.slot (i + 1) hi hq]
  have h01 : recs[ps[i]] ≠ recs[ps[i + 1]] := getElem_ne_of_ne hnd _ _ (by omega)
  refine ⟨by rw [hlenE, hd.n_slots], by rw [hlenE]; omega, ?_, ?_,
    hd.sorted.sublist (List.eraseIdx_sublist _ _), ?_, ?_, ?_, ?_⟩
  · rw [List.head?_eq_getElem?, List.getElem?_eraseIdx_of_lt hi0, ← List.head?_eq_getElem?,
      hd.head]
  · rw [List.getLast?_eq_getElem?, hlenE, List.getElem?_eraseIdx_of_ge (by omega),
      show ps.length - 1 - 1 + 1 = ps.length - 1 by omega, ← List.getLast?_eq_getElem?, hd.last]
  · intro j hj hj'
    rw [hlenE] at hj
    by_cases hji : j < i
    · simp only [List.getElem_eraseIdx_of_lt _ hji, if_pos hji]
      exact hd.slot j (by omega) _
    · simp only [List.getElem_eraseIdx_of_ge _ (Nat.le_of_not_lt hji), if_neg hji]
      exact hd.slot (j + 1) (by omega) _
  · have hinf1 := getElem_ne_infimum hnd hinf (by omega : ps[i] < recs.length) hpos
    have hinf2 := getElem_ne_infimum hnd hinf hq (by omega)
    rw [Function.update_of_ne hinf2.symm, Function.update_of_ne hinf1.symm, hd.owned_infimum]
  · intro j hj hj'
    rw [hlenE] at hj
    rcases Nat.lt_trichotomy (j + 1) i with h | h | h
    · -- below the merged slot
      simp only [List.getElem_eraseIdx_of_lt _ h, List.getElem_eraseIdx_of_lt _ (by omega : j < i)]
      have hq' := hd.getElem_lt (by omega : j + 1 < ps.length)
      have hb := hd.getElem_lt_getElem (by omega : j + 1 < ps.length) (by omega : i < ps.length) h
      rw [Function.update_of_ne (getElem_ne_of_ne hnd hq' hq (by omega)),
        Function.update_of_ne (getElem_ne_of_ne hnd hq' (by omega) (by omega))]
      exact hd.owned j (by omega) hq'
    · -- the merged slot owns the records of both
      obtain rfl : j = i - 1 := by omega
      have he1 : (ps.eraseIdx i)[i - 1 + 1] = ps[i + 1] := by
        rw [List.getElem_eraseIdx_of_ge _ (by omega)]
        simp only [h]
      have he0 : (ps.eraseIdx i)[i - 1] = ps[i - 1] := List.getElem_eraseIdx_of_lt _ (by omega)
      simp only [he1, he0, Function.update_self]
    · -- above the merged slot: the slots moved down
      simp only [List.getElem_eraseIdx_of_ge _ (show i ≤ j + 1 by omega),
        List.getElem_eraseIdx_of_ge _ (show i ≤ j by omega)]
      have hq' := hd.getElem_lt (by omega : j + 2 < ps.length)
      have hb := hd.getElem_lt_getElem hi (by omega : j + 2 < ps.length) (by omega)
      rw [Function.update_of_ne (getElem_ne_of_ne hnd hq' hq (by omega)),
        Function.update_of_ne (getElem_ne_of_ne hnd hq' (by omega) (by omega))]
      exact hd.owned (j + 1) (by omega) hq'
  · intro k hk hkm
    have hmem : ∀ j (hj : j < ps.length), j ≠ i → ps[j] ∈ ps.eraseIdx i := fun j hj hji => by
      rcases Nat.lt_or_gt_of_ne hji with h | h
      · exact List.mem_iff_getElem.mpr ⟨j, by omega, List.getElem_eraseIdx_of_lt _ h⟩
      · refine List.mem_iff_getElem.mpr ⟨j - 1, by omega, ?_⟩
        rw [List.getElem_eraseIdx_of_ge _ (by omega)]
        congr 1
        omega
    have hk2 : k ≠ ps[i + 1] := fun h => hkm (h ▸ hmem (i + 1) hi (by omega))
    by_cases hk0 : k = ps[i]
    · have hk : recs[k] = recs[ps[i]] := by simp only [hk0]
      rw [hk, Function.update_of_ne h01, Function.update_self]
    · have hnot : k ∉ ps := fun h => by
        obtain ⟨j, hj, rfl⟩ := List.getElem_of_mem h
        exact hkm (hmem j hj fun hji => hk0 (by subst hji; rfl))
      rw [Function.update_of_ne (getElem_ne_of_ne hnd hk hq hk2),
        Function.update_of_ne (getElem_ne_of_ne hnd hk (by omega) hk0)]
      exact hd.not_owner k hk hnot

end Balance

end DirShape

/-! ### The bounds on the counts -/

section Counts

variable {qs : List Nat} {i : Nat}

theorem slotCounts_of_but (hc : ∀ j, j + 1 ≠ i → SlotCount qs j) (hi : SlotCount qs (i - 1))
    (hi0 : 0 < i) : SlotCounts qs := by
  intro j
  by_cases hj : j + 1 = i
  · obtain rfl : j = i - 1 := by omega
    exact hi
  · exact hc j hj

variable (hc : ∀ j, j + 1 ≠ i → SlotCount qs j) (hi : i + 1 < qs.length)
  (hgap : getElem qs i (Nat.lt_of_succ_lt hi) -
    getElem qs (i - 1) (Nat.sub_lt_of_lt (Nat.lt_of_succ_lt hi)) = PAGE_DIR_SLOT_MIN_N_OWNED - 1)

include hc hi hgap in
theorem slotCounts_transfer (hi0 : 0 < i)
    (hup : PAGE_DIR_SLOT_MIN_N_OWNED < qs[i + 1] - getElem qs i (Nat.lt_of_succ_lt hi)) :
    SlotCounts (qs.set i (getElem qs i (Nat.lt_of_succ_lt hi) + 1)) := by
  intro j h
  rw [List.length_set] at h ⊢
  obtain ⟨hup', -⟩ := hc i (by omega) hi
  rcases Nat.lt_trichotomy (j + 1) i with hj | hj | hj
  · obtain ⟨h1, h2⟩ := hc j (by omega) h
    simp only [List.getElem_set_ne (show i ≠ j + 1 by omega), List.getElem_set_ne (show i ≠ j by omega)]
    exact ⟨h1, h2⟩
  · -- the slot that took the record owns `PAGE_DIR_SLOT_MIN_N_OWNED`
    obtain rfl : j = i - 1 := by omega
    simp only [hj, List.getElem_set_self, List.getElem_set_ne (show i ≠ i - 1 by omega)]
    simp only [PAGE_DIR_SLOT_MIN_N_OWNED, PAGE_DIR_SLOT_MAX_N_OWNED] at hgap ⊢
    omega
  · by_cases hji : j = i
    · -- the slot above gave one
      subst hji
      simp only [List.getElem_set_ne (show j ≠ j + 1 by omega), List.getElem_set_self]
      simp only [PAGE_DIR_SLOT_MIN_N_OWNED, PAGE_DIR_SLOT_MAX_N_OWNED] at hup hup' ⊢
      omega
    · obtain ⟨h1, h2⟩ := hc j (by omega) h
      simp only [List.getElem_set_ne (show i ≠ j + 1 by omega),
        List.getElem_set_ne (show i ≠ j by omega)]
      exact ⟨h1, h2⟩

include hc hi hgap in
theorem slotCounts_merge (hlt : getElem qs i (Nat.lt_of_succ_lt hi) < qs[i + 1])
    (hup : qs[i + 1] - getElem qs i (Nat.lt_of_succ_lt hi) ≤ PAGE_DIR_SLOT_MIN_N_OWNED) :
    SlotCounts (qs.eraseIdx i) := by
  have hlenE : (qs.eraseIdx i).length = qs.length - 1 := by
    rw [List.length_eraseIdx, if_pos (by omega)]
  intro j h
  rw [hlenE] at h ⊢
  rcases Nat.lt_trichotomy (j + 1) i with hj | hj | hj
  · obtain ⟨h1, h2⟩ := hc j (by omega) (by omega)
    simp only [List.getElem_eraseIdx_of_lt _ hj, List.getElem_eraseIdx_of_lt _ (show j < i by omega)]
    exact ⟨h1, fun h3 => h2 (by omega)⟩
  · -- the merged slot owns the records of both
    have he1 : (qs.eraseIdx i)[j + 1] = qs[i + 1] := by
      rw [List.getElem_eraseIdx_of_ge _ (by omega)]
      simp only [hj]
    have he0 : (qs.eraseIdx i)[j] = qs[i - 1] := by
      rw [List.getElem_eraseIdx_of_lt _ (by omega)]
      simp only [show j = i - 1 by omega]
    rw [he1, he0]
    simp only [PAGE_DIR_SLOT_MIN_N_OWNED, PAGE_DIR_SLOT_MAX_N_OWNED] at hgap hup ⊢
    omega
  · obtain ⟨h1, h2⟩ := hc (j + 1) (by omega) (by omega)
    simp only [List.getElem_eraseIdx_of_ge _ (show i ≤ j + 1 by omega),
      List.getElem_eraseIdx_of_ge _ (show i ≤ j by omega)]
    exact ⟨h1, fun h3 => h2 (by omega)⟩

end Counts

/-! ### The page's directory -/

/-- A page's directory is well formed exactly when its slots and owned counts have the shape of
the positions `ps` and the counts keep their bounds. -/
theorem pageDirectory_iff {page : Nat → UInt8} {recs ps : List Nat}
    (hlast : recs.getLast? = some PAGE_NEW_SUPREMUM) :
    PageDirectory page recs ps ↔
      DirShape (recGetNOwnedNew page) (fun j => pageDirSlotGetRec page (pageDirSlot j))
        (pageDirGetNSlots page) recs ps ∧ SlotCounts ps := by
  have hsup : ∀ (hs : DirShape (recGetNOwnedNew page)
      (fun j => pageDirSlotGetRec page (pageDirSlot j)) (pageDirGetNSlots page) recs ps)
      (hL : ps.length - 1 < ps.length) (hq : ps[ps.length - 1] < recs.length),
      recs[ps[ps.length - 1]] = PAGE_NEW_SUPREMUM := fun hs hL hq => by
    rw [List.getLast?_eq_getElem?] at hlast
    simp only [hs.getElem_last hL]
    exact (List.getElem_eq_iff _).mpr hlast
  constructor
  · intro hd
    have hs : DirShape (recGetNOwnedNew page) (fun j => pageDirSlotGetRec page (pageDirSlot j))
        (pageDirGetNSlots page) recs ps :=
      ⟨hd.n_slots, hd.two_le, hd.head, hd.last, hd.sorted, hd.slot, hd.owned_infimum, hd.owned,
        hd.not_owner⟩
    refine ⟨hs, fun j h => ?_⟩
    have hq := hs.getElem_lt h
    rw [← hd.owned j h hq]
    by_cases hmid : j + 2 < ps.length
    · have hb := hd.owned_middle (j + 1) h hq (by omega) (by omega)
      exact ⟨hb.2, fun _ => hb.1⟩
    · -- the last slot: the supremum's count
      have hL : ps.length - 1 < ps.length := by omega
      have hqL := hs.getElem_lt hL
      have hj : j + 1 = ps.length - 1 := by omega
      have hrec : recs[ps[j + 1]] = recs[ps[ps.length - 1]] := by simp only [hj]
      rw [hrec, hsup hs hL hqL]
      exact ⟨hd.owned_last.2, fun h' => absurd h' hmid⟩
  · rintro ⟨hs, hc⟩
    have h2 := hs.two_le
    refine ⟨hs.n_slots, hs.two_le, hs.head, hs.last, hs.sorted, hs.slot, hs.owned_infimum,
      hs.owned, ?_, fun j h h' hj0 hj1 => ?_, hs.not_owner⟩
    · have hL : ps.length - 2 + 1 < ps.length := by omega
      have hqL := hs.getElem_lt hL
      have hlt := hs.getElem_lt_getElem (by omega : ps.length - 2 < ps.length) hL (by omega)
      have hrec : recs[ps[ps.length - 2 + 1]] = PAGE_NEW_SUPREMUM := by
        have hL' : ps.length - 1 < ps.length := by omega
        rw [← hsup hs hL' (hs.getElem_lt hL')]
        simp only [show ps.length - 2 + 1 = ps.length - 1 by omega]
      rw [← hrec, hs.owned (ps.length - 2) hL hqL]
      exact ⟨by omega, (hc (ps.length - 2) hL).1⟩
    · -- a middle slot: the count of slot `j`, from the position before it
      have hb := hc (j - 1) (by omega)
      have hq' : ps[j - 1 + 1] < recs.length := hs.getElem_lt (by omega)
      have hrec : recs[ps[j - 1 + 1]] = recs[ps[j]] := by simp only [show j - 1 + 1 = j by omega]
      rw [← hrec, hs.owned (j - 1) (by omega) hq']
      exact ⟨hb.2 (by omega), hb.1⟩

end LogDB
