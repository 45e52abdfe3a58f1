import LogDB.Applier.RecordInsert

/-!
A record decodes the same at any origin. `CalculateOffsets` reads the status bits, then the
null flags and the lengths at falling addresses below the origin, and keeps only distances, so
a record whose extra bytes are copied below another origin has the same offsets there. What
makes this hold is that every byte read lies within the extra bytes: the lengths by
definition of the extra size, the null flags because they stay within the null bitmap, whose
size the index fixes. For an ordinary record the assert on the count of nullable fields keeps
them there; for a node pointer record the index must count every field it may read as
nullable, as an index read from the log does.
-/

namespace LogDB

/-- Whether a field has a null flag. -/
def FieldInfo.nullable (f : FieldInfo) : Bool :=
  f.preciseType &&& DATA_NOT_NULL = 0

/-- The null bitmap of the index has a flag for each of its nullable fields. -/
def RecordInfo.NullableBound (info : RecordInfo) : Prop :=
  (info.fields.filter FieldInfo.nullable).length ≤ info.nNullable

/-- The null flags the loop may still read from field `i` on: the count the assert keeps for
an ordinary record, the nullable fields left for a node pointer record. -/
def nullsLeft (ordinary : Bool) (info : RecordInfo) (i : Nat) (s : OffsLoop) : Nat :=
  if ordinary then s.nNull else ((info.fields.drop i).filter FieldInfo.nullable).length

/-- Room for `need` more null flags at or above `lo`: the mask `2 ^ j` has used `j` bits of the
byte at `nulls`. -/
def OffsLoop.NullRoom (lo need : Nat) (s : OffsLoop) : Prop :=
  ∃ j ≤ 8, s.nullMask = 2 ^ j ∧ need ≤ (s.nulls + 1 - lo) * 8 - j

/-- The loop variables of a record at `r'` that match those of a record at `r`: the same field
ends and flags, the pointers at the same distance below the origin. -/
structure OffsLoop.Shifted (r r' : Nat) (s s' : OffsLoop) : Prop where
  offs : s'.offs = s.offs
  nullMask : s'.nullMask = s.nullMask
  anyExt : s'.anyExt = s.anyExt
  nNull : s'.nNull = s.nNull
  nulls : r' + s.nulls = r + s'.nulls
  lens : r' + s.lens = r + s'.lens

/-- `page'` holds below the origin `r'` a copy of the bytes of `page` from `lo` up to the
null bitmap of the record at `r`; both copies lie above the bytes 0 and 1, where a pointer
that moves down would stop. -/
structure CopiedBelow (page page' : Nat → UInt8) (r r' lo : Nat) : Prop where
  two_le : 2 ≤ lo
  two_le' : r + 2 ≤ r' + lo
  agree : ∀ x x', lo ≤ x → x + (REC_N_NEW_EXTRA_BYTES + 1) ≤ r → r' + x = r + x' →
    page' x' = page x

section Room

variable {page : Nat → UInt8} {lo need : Nat} {s : OffsLoop}

theorem OffsLoop.NullRoom.mono {need' : Nat} (h : s.NullRoom lo need) (hle : need' ≤ need) :
    s.NullRoom lo need' := by
  obtain ⟨j, hj, hmask, hroom⟩ := h
  exact ⟨j, hj, hmask, by omega⟩

theorem readNullFlag_room (page : Nat → UInt8) (h : s.NullRoom lo (need + 1)) :
    lo ≤ (readNullFlag page s).2.nulls ∧ (readNullFlag page s).2.NullRoom lo need := by
  obtain ⟨j, hj, hmask, hroom⟩ := h
  unfold readNullFlag
  rw [hmask]
  by_cases hc : 2 ^ j % 256 = 0
  · -- the mask has left the byte: the flag is the low bit of the byte below
    have hj8 : j = 8 := by
      interval_cases j <;> simp_all
    subst hj8
    simp only [hc, if_true]
    refine ⟨by omega, 1, by omega, rfl, ?_⟩
    dsimp only
    omega
  · have hj8 : j < 8 := by
      by_contra hj8
      obtain rfl : j = 8 := by omega
      simp at hc
    simp only [hc, if_false]
    refine ⟨by omega, j + 1, by omega, ?_, ?_⟩
    · show 2 ^ j <<< 1 = 2 ^ (j + 1)
      rw [Nat.shiftLeft_eq, pow_one, pow_succ]
    · dsimp only
      omega

end Room

/-! ### The flags and lengths of a copy -/

section Shift

variable {page page' : Nat → UInt8} {r r' lo : Nat} {s s' : OffsLoop}

theorem OffsLoop.Shifted.withOffs (h : s.Shifted r r' s') (x : Nat) :
    ({ s with offs := x } : OffsLoop).Shifted r r' { s' with offs := x } :=
  ⟨rfl, h.nullMask, h.anyExt, h.nNull, h.nulls, h.lens⟩

theorem readNullFlag_shift (hc : CopiedBelow page page' r r' lo) (hs : s.Shifted r r' s')
    (hread : lo ≤ (readNullFlag page s).2.nulls)
    (hn : s.nulls + (REC_N_NEW_EXTRA_BYTES + 1) ≤ r) :
    (readNullFlag page' s').1 = (readNullFlag page s).1 ∧
      (readNullFlag page s).2.Shifted r r' (readNullFlag page' s').2 := by
  obtain ⟨ho, hm, ha, hnn, hnu, hl⟩ := hs
  have h2 := hc.two_le
  have h2' := hc.two_le'
  unfold readNullFlag at hread ⊢
  rw [hm]
  by_cases hz : s.nullMask % 256 = 0
  · -- the flag comes from the byte below, on both sides
    simp only [hz, if_true] at hread ⊢
    rw [hc.agree (s.nulls - 1) (s'.nulls - 1) hread (by omega) (by omega)]
    exact ⟨rfl, ho, rfl, ha, hnn, by dsimp only; omega, hl⟩
  · simp only [hz, if_false] at hread ⊢
    rw [hc.agree s.nulls s'.nulls hread (by omega) hnu]
    exact ⟨rfl, ho, rfl, ha, hnn, hnu, hl⟩

theorem readLenBytes_shift (hc : CopiedBelow page page' r r' lo) (hs : s.Shifted r r' s')
    (big : Bool) (hread : lo ≤ (readLenBytes page big s).2.2.lens + 1)
    (hl : s.lens + (REC_N_NEW_EXTRA_BYTES + 1) ≤ r) :
    (readLenBytes page' big s').1 = (readLenBytes page big s).1 ∧
      (readLenBytes page' big s').2.1 = (readLenBytes page big s).2.1 ∧
      (readLenBytes page big s).2.2.Shifted r r' (readLenBytes page' big s').2.2 := by
  obtain ⟨ho, hm, ha, hnn, hnu, hls⟩ := hs
  have h2 := hc.two_le
  have h2' := hc.two_le'
  simp only [readLenBytes] at hread ⊢
  by_cases hb : big = true ∧ (page s.lens).toNat &&& 0x80 ≠ 0
  · -- a big column's second length byte, below the first
    rw [if_pos hb] at hread
    dsimp only at hread
    have hsame := hc.agree s.lens s'.lens (by omega) (by omega) hls
    rw [hsame, if_pos hb, if_pos hb,
      hc.agree (s.lens - 1) (s'.lens - 1) (by omega) (by omega) (by omega)]
    exact ⟨rfl, rfl, ho, hm, ha, hnn, hnu, by dsimp only; omega⟩
  · rw [if_neg hb] at hread
    dsimp only at hread
    have hsame := hc.agree s.lens s'.lens (by omega) (by omega) hls
    rw [hsame, if_neg hb, if_neg hb]
    exact ⟨rfl, rfl, ho, hm, ha, hnn, hnu, by dsimp only; omega⟩

theorem readLenBytes_keeps (page : Nat → UInt8) (s : OffsLoop) (big : Bool) :
    (readLenBytes page big s).2.2.offs = s.offs ∧ (readLenBytes page big s).2.2.nulls = s.nulls ∧
      (readLenBytes page big s).2.2.nullMask = s.nullMask ∧
      (readLenBytes page big s).2.2.anyExt = s.anyExt ∧ (readLenBytes page big s).2.2.nNull = s.nNull := by
  simp only [readLenBytes]
  split <;> exact ⟨rfl, rfl, rfl, rfl, rfl⟩

theorem fieldEnd_shift (hc : CopiedBelow page page' r r' lo) (hs : s.Shifted r r' s')
    {ordinary : Bool} {f : FieldInfo} {e : Nat} {t : OffsLoop}
    (h : fieldEnd page ordinary f s = some (e, t)) (hread : lo ≤ t.lens + 1)
    (hl : s.lens + (REC_N_NEW_EXTRA_BYTES + 1) ≤ r) :
    ∃ t', fieldEnd page' ordinary f s' = some (e, t') ∧ t.Shifted r r' t' ∧
      t.nulls = s.nulls ∧ t.nullMask = s.nullMask ∧ t.nNull = s.nNull := by
  unfold fieldEnd at h ⊢
  by_cases hfix : f.fixedLength = 0
  · rw [if_pos hfix] at h ⊢
    generalize hR : readLenBytes page (dataBigCol f) s = R at h
    obtain ⟨b, len, u⟩ := R
    dsimp only at h
    have hu : t.lens = u.lens := by
      split_ifs at h <;> cases h <;> rfl
    obtain ⟨hb, hlen, hsh⟩ := readLenBytes_shift hc hs (dataBigCol f) (by rw [hR]; dsimp only; omega) hl
    have hkeep := readLenBytes_keeps page s (dataBigCol f)
    rw [hR] at hb hlen hsh hkeep
    dsimp only at hb hlen hsh hkeep
    obtain ⟨-, hnu, hmk, -, hnn⟩ := hkeep
    have hR' : readLenBytes page' (dataBigCol f) s' =
        (b, len, (readLenBytes page' (dataBigCol f) s').2.2) := by
      rw [← hb, ← hlen]
    generalize (readLenBytes page' (dataBigCol f) s').2.2 = u' at hR' hsh
    rw [hR']
    dsimp only
    -- the same branch on both sides: the same length, flags and field end
    split_ifs at h with h1 h2 h3
    · rw [if_pos h1, if_pos h2]
      cases h
      refine ⟨{ u' with offs := u.offs + (len &&& 0x3fff) }, ?_, hsh.withOffs _, hnu, hmk, hnn⟩
      rw [hsh.offs]
    · rw [if_pos h1, if_neg h2, if_pos h3]
      cases h
      refine ⟨{ u' with offs := u.offs + (len &&& 0x3fff), anyExt := REC_OFFS_EXTERNAL }, ?_,
        ⟨rfl, hsh.nullMask, rfl, hsh.nNull, hsh.nulls, hsh.lens⟩, hnu, hmk, hnn⟩
      rw [hsh.offs]
    · rw [if_neg h1]
      cases h
      refine ⟨{ u' with offs := u.offs + len }, ?_, hsh.withOffs _, hnu, hmk, hnn⟩
      rw [hsh.offs]
  · rw [if_neg hfix] at h ⊢
    cases h
    exact ⟨_, by rw [hs.offs], hs.withOffs _, rfl, rfl, rfl⟩

theorem OffsLoop.NullRoom.of_keep {need : Nat} {t : OffsLoop} (h : s.NullRoom lo need)
    (hn : t.nulls = s.nulls) (hm : t.nullMask = s.nullMask) : t.NullRoom lo need := by
  obtain ⟨j, hj, hmask, hroom⟩ := h
  exact ⟨j, hj, hm.trans hmask, by rw [hn]; exact hroom⟩

theorem nullable_drop_succ_le (l : List FieldInfo) (i : Nat) :
    ((l.drop (i + 1)).filter FieldInfo.nullable).length ≤
      ((l.drop i).filter FieldInfo.nullable).length :=
  ((List.drop_sublist_drop_left l (Nat.le_succ i)).filter _).length_le

theorem nullable_drop_of_getElem? {l : List FieldInfo} {i : Nat} {f : FieldInfo}
    (hf : l[i]? = some f) :
    ((l.drop i).filter FieldInfo.nullable).length =
      ((l.drop (i + 1)).filter FieldInfo.nullable).length + if f.nullable then 1 else 0 := by
  obtain ⟨hi, rfl⟩ := List.getElem?_eq_some_iff.mp hf
  rw [List.drop_eq_getElem_cons hi, List.filter_cons]
  split <;> simp_all

theorem fieldNullFlag_shift (hc : CopiedBelow page page' r r' lo) (hs : s.Shifted r r' s')
    {f : FieldInfo} (hread : f.nullable = true → lo ≤ (readNullFlag page s).2.nulls)
    (hn : s.nulls + (REC_N_NEW_EXTRA_BYTES + 1) ≤ r) :
    (fieldNullFlag page' f s').1 = (fieldNullFlag page f s).1 ∧
      (fieldNullFlag page f s).2.Shifted r r' (fieldNullFlag page' f s').2 := by
  unfold fieldNullFlag
  by_cases hnl : f.preciseType &&& DATA_NOT_NULL = 0
  · rw [if_pos hnl, if_pos hnl]
    exact readNullFlag_shift hc hs (hread (by simp [FieldInfo.nullable, hnl])) hn
  · rw [if_neg hnl, if_neg hnl]
    exact ⟨rfl, hs⟩

theorem fieldNullFlag_room (page : Nat → UInt8) {f : FieldInfo} {need : Nat}
    (h : s.NullRoom lo (need + if f.nullable then 1 else 0)) :
    (f.nullable = true → lo ≤ (readNullFlag page s).2.nulls) ∧
      (fieldNullFlag page f s).2.NullRoom lo need ∧ (fieldNullFlag page f s).2.nNull = s.nNull := by
  unfold fieldNullFlag
  by_cases hnl : f.preciseType &&& DATA_NOT_NULL = 0
  · have hnb : f.nullable = true := by simp [FieldInfo.nullable, hnl]
    rw [hnb, if_pos rfl] at h
    rw [if_pos hnl]
    obtain ⟨hpos, hroom⟩ := readNullFlag_room page h
    exact ⟨fun _ => hpos, hroom, rfl⟩
  · have hnb : f.nullable = false := by simp [FieldInfo.nullable, hnl]
    rw [hnb, if_neg (by decide), Nat.add_zero] at h
    rw [if_neg hnl]
    exact ⟨fun h => absurd h (by simp [hnb]), h, rfl⟩

theorem nullsLeft_congr {ordinary : Bool} {info : RecordInfo} {i : Nat} {u v : OffsLoop}
    (h : u.nNull = v.nNull) : nullsLeft ordinary info i u = nullsLeft ordinary info i v := by
  simp only [nullsLeft, h]

theorem nullsLeft_succ {ordinary : Bool} {info : RecordInfo} {i : Nat} {f : FieldInfo}
    (hf : info.fields[i]? = some f) {s : OffsLoop}
    (ha : ¬(ordinary = true ∧ f.preciseType &&& DATA_NOT_NULL = 0 ∧ s.nNull = 0)) :
    nullsLeft ordinary info (i + 1) { s with nNull := if ordinary = true ∧
        f.preciseType &&& DATA_NOT_NULL = 0 then s.nNull - 1 else s.nNull } +
      (if f.nullable then 1 else 0) ≤ nullsLeft ordinary info i s := by
  unfold nullsLeft
  rw [nullable_drop_of_getElem? hf]
  by_cases hnl : f.preciseType &&& DATA_NOT_NULL = 0 <;> cases ordinary <;>
    simp [FieldInfo.nullable, hnl] at ha ⊢
  omega

theorem offsTurn_shift (hc : CopiedBelow page page' r r' lo) (hs : s.Shifted r r' s')
    {info : RecordInfo} {np i e L0 : Nat} {ordinary : Bool} {t : OffsLoop}
    (h : offsTurn page info np ordinary i s = some (e, t))
    (hroom : s.NullRoom L0 (nullsLeft ordinary info i s)) (hL0 : lo ≤ L0)
    (hread : lo ≤ t.lens + 1) (hn : s.nulls + (REC_N_NEW_EXTRA_BYTES + 1) ≤ r)
    (hl : s.lens + (REC_N_NEW_EXTRA_BYTES + 1) ≤ r) :
    ∃ t', offsTurn page' info np ordinary i s' = some (e, t') ∧ t.Shifted r r' t' ∧
      t.NullRoom L0 (nullsLeft ordinary info (i + 1) t) := by
  unfold offsTurn at h ⊢
  by_cases hnp : i = np
  · rw [if_pos hnp] at h ⊢
    cases h
    refine ⟨{ s' with offs := s.offs + REC_NODE_PTR_SIZE }, by rw [hs.offs], hs.withOffs _, ?_⟩
    -- the node pointer has no null flag
    refine (hroom.of_keep rfl rfl).mono ?_
    unfold nullsLeft
    split
    · exact le_rfl
    · exact nullable_drop_succ_le _ _
  · rw [if_neg hnp] at h ⊢
    cases hf : info.fields[i]? with
    | none => simp [hf] at h
    | some f =>
      simp only [hf, Option.bind_eq_bind, Option.bind_some] at h ⊢
      rw [hs.nNull]
      by_cases ha : ordinary = true ∧ f.preciseType &&& DATA_NOT_NULL = 0 ∧ s.nNull = 0
      · rw [if_pos ha] at h
        simp at h
      rw [if_neg ha] at h ⊢
      generalize hs1 : ({ s with nNull := if ordinary = true ∧ f.preciseType &&& DATA_NOT_NULL = 0
        then s.nNull - 1 else s.nNull } : OffsLoop) = s1 at h
      generalize hs1' : ({ s' with nNull := if ordinary = true ∧ f.preciseType &&& DATA_NOT_NULL = 0
        then s.nNull - 1 else s.nNull } : OffsLoop) = s1'
      have hsh1 : s1.Shifted r r' s1' := by
        subst hs1 hs1'
        exact ⟨hs.offs, hs.nullMask, hs.anyExt, rfl, hs.nulls, hs.lens⟩
      have hkeep1 : s1.nulls = s.nulls ∧ s1.nullMask = s.nullMask ∧ s1.lens = s.lens := by
        subst hs1
        exact ⟨rfl, rfl, rfl⟩
      -- a nullable field takes one flag of room: the assert's count, or one nullable field
      have hneed : nullsLeft ordinary info (i + 1) s1 + (if f.nullable then 1 else 0) ≤
          nullsLeft ordinary info i s := by
        rw [← hs1]
        exact nullsLeft_succ hf ha
      obtain ⟨hpos, hroom1, hnn1⟩ := fieldNullFlag_room page
        ((hroom.of_keep hkeep1.1 hkeep1.2.1).mono hneed)
      obtain ⟨hflag, hsh2⟩ := fieldNullFlag_shift hc hsh1 (fun hnl => le_trans hL0 (hpos hnl))
        (by rw [hkeep1.1]; exact hn)
      have hkeep2 := @fieldNullFlag_lens page f s1
      generalize fieldNullFlag page f s1 = F at h hroom1 hnn1 hflag hsh2 hkeep2
      generalize fieldNullFlag page' f s1' = F' at hflag hsh2 ⊢
      rw [hflag]
      by_cases hnull : F.1 = true
      · -- an SQL NULL: no length, the same end info
        rw [if_pos hnull] at h ⊢
        cases h
        refine ⟨F'.2, by rw [hsh2.offs], hsh2, ?_⟩
        rw [nullsLeft_congr hnn1]
        exact hroom1
      · rw [if_neg hnull] at h ⊢
        obtain ⟨t', hend, hsh3, hnu, hmk, hnn⟩ := fieldEnd_shift hc hsh2 h hread (by omega)
        refine ⟨t', hend, hsh3, ?_⟩
        rw [nullsLeft_congr (hnn.trans hnn1)]
        exact hroom1.of_keep hnu hmk

theorem offsTurns_le {info : RecordInfo} {np : Nat} {ordinary : Bool} :
    ∀ {k i : Nat} {s t : OffsLoop} {es : List Nat},
      offsTurns page info np ordinary k i s = some (es, t) → t.nulls ≤ s.nulls ∧ t.lens ≤ s.lens
  | 0, _, _, _, _, h => by
      cases h
      exact ⟨le_rfl, le_rfl⟩
  | k + 1, i, s, t, es, h => by
      simp only [offsTurns, Option.bind_eq_bind, Option.bind_eq_some_iff] at h
      obtain ⟨⟨e, s1⟩, hturn, ⟨es1, t1⟩, hrest, h⟩ := h
      dsimp only at h hrest
      cases h
      have h1 := offsTurn_le hturn
      have h2 := offsTurns_le hrest
      omega

/-- The loop over the fields, on a record and on its copy: the same end infos, with the
pointers at the same distances. Reads below the final length pointer are not needed, since
both pointers only move down. -/
theorem offsTurns_shift (hc : CopiedBelow page page' r r' lo) {info : RecordInfo} {np L0 : Nat}
    {ordinary : Bool} (hL0 : lo ≤ L0) :
    ∀ {k i : Nat} {s s' t : OffsLoop} {es : List Nat}, s.Shifted r r' s' →
      offsTurns page info np ordinary k i s = some (es, t) →
      s.NullRoom L0 (nullsLeft ordinary info i s) → lo ≤ t.lens + 1 →
      s.nulls + (REC_N_NEW_EXTRA_BYTES + 1) ≤ r → s.lens + (REC_N_NEW_EXTRA_BYTES + 1) ≤ r →
      ∃ t', offsTurns page' info np ordinary k i s' = some (es, t') ∧ t.Shifted r r' t'
  | 0, _, _, _, _, _, hs, h, _, _, _, _ => by
      cases h
      exact ⟨_, rfl, hs⟩
  | k + 1, i, s, s', t, es, hs, h, hroom, hread, hn, hl => by
      simp only [offsTurns, Option.bind_eq_bind, Option.bind_eq_some_iff] at h
      obtain ⟨⟨e, s1⟩, hturn, ⟨es1, t1⟩, hrest, h⟩ := h
      dsimp only at h hrest
      cases h
      have hle1 := offsTurn_le hturn
      have hle2 := offsTurns_le hrest
      obtain ⟨s1', hturn', hsh1, hroom1⟩ :=
        offsTurn_shift hc hs hturn hroom hL0 (by omega) hn hl
      obtain ⟨t', hrest', hsh⟩ :=
        offsTurns_shift hc hL0 hsh1 hrest hroom1 hread (by omega) (by omega)
      refine ⟨t', ?_, hsh⟩
      simp only [offsTurns, hturn', hrest', Option.bind_eq_bind, Option.bind_some]

theorem le_extra_of_header {x a : Nat} (h : x < 2 ^ 30) :
    x ≤ (x ||| REC_OFFS_COMPACT ||| a) &&& (0xFFFFFFFF - (REC_OFFS_COMPACT ||| REC_OFFS_EXTERNAL)) := by
  have hm : (0xFFFFFFFF : Nat) - (REC_OFFS_COMPACT ||| REC_OFFS_EXTERNAL) = 2 ^ 30 - 1 := by decide
  rw [hm, Nat.and_two_pow_sub_one_eq_mod, Nat.or_mod_two_pow, Nat.or_mod_two_pow, Nat.mod_eq_of_lt h]
  exact le_trans Nat.left_le_or Nat.left_le_or

/-- A record whose extra bytes below the header and whose status bits are copied below another
origin has the same offsets there. -/
theorem calculateOffsets_shift {info : RecordInfo} (hnb : info.NullableBound)
    {offsets : List Nat} {e : Nat} (h : calculateOffsets page info r = some offsets)
    (he : recOffsExtraSize offsets = some e) (hr : e + 2 ≤ r) (hr' : e + 2 ≤ r')
    (hlt : r < DATA_PAGE_SIZE)
    (hbytes : ∀ j, REC_N_NEW_EXTRA_BYTES < j → j ≤ e → page' (r' - j) = page (r - j))
    (hstatus : recGetBitField1 page' r' REC_NEW_STATUS REC_NEW_STATUS_MASK REC_NEW_STATUS_SHIFT =
      recGetBitField1 page r REC_NEW_STATUS REC_NEW_STATUS_MASK REC_NEW_STATUS_SHIFT) :
    calculateOffsets page' info r' = some offsets := by
  unfold calculateOffsets at h ⊢
  rw [hstatus]
  generalize recGetBitField1 page r REC_NEW_STATUS REC_NEW_STATUS_MASK REC_NEW_STATUS_SHIFT =
    status at h ⊢
  by_cases hsup : status = REC_STATUS_INFIMUM ∨ status = REC_STATUS_SUPREMUM
  · rw [if_pos hsup] at h ⊢
    exact h
  rw [if_neg hsup] at h ⊢
  by_cases hord : status = REC_STATUS_ORDINARY ∨ status = REC_STATUS_NODE_PTR
  swap
  · -- no record status: the empty offsets have no extra size
    rw [if_neg hord] at h
    cases h
    simp [recOffsExtraSize, getNOffset] at he
  rw [if_pos hord] at h ⊢
  simp only [Option.bind_eq_bind, Option.bind_eq_some_iff] at h ⊢
  obtain ⟨⟨ends, t⟩, hturns, h⟩ := h
  dsimp only at h
  cases h
  have hext : r - (t.lens + 1) ≤ e := by
    simp only [recOffsExtraSize, getNOffset, REC_OFFS_HEADER_SIZE, List.cons_append,
      List.getElem?_cons_succ, List.getElem?_cons_zero, Option.map_some, Option.some.injEq] at he
    rw [← he]
    exact le_extra_of_header (by simp only [DATA_PAGE_SIZE] at hlt; omega)
  generalize hnb8 : (info.nNullable + 7) / 8 = nb at hturns ⊢
  have hle := offsTurns_le hturns
  dsimp only at hle
  have hagree : ∀ x x', r - e ≤ x → x + (REC_N_NEW_EXTRA_BYTES + 1) ≤ r → r' + x = r + x' →
      page' x' = page x := by
    intro x x' h1 h2 h3
    have hb := hbytes (r - x) (by omega) (by omega)
    rwa [show r' - (r - x) = x' by omega, show r - (r - x) = x by omega] at hb
  have hc : CopiedBelow page page' r r' (r - e) := ⟨by omega, by omega, hagree⟩
  have hL0 : r - e ≤ r - (REC_N_NEW_EXTRA_BYTES + 1) - nb + 1 := by omega
  have hroom : OffsLoop.NullRoom (r - (REC_N_NEW_EXTRA_BYTES + 1) - nb + 1)
      (nullsLeft (decide (status = REC_STATUS_ORDINARY)) info 0
        ⟨0, r - (REC_N_NEW_EXTRA_BYTES + 1), 1, r - (REC_N_NEW_EXTRA_BYTES + 1) - nb, 0,
          info.nNullable⟩)
      ⟨0, r - (REC_N_NEW_EXTRA_BYTES + 1), 1, r - (REC_N_NEW_EXTRA_BYTES + 1) - nb, 0,
        info.nNullable⟩ := by
    refine ⟨0, by omega, rfl, ?_⟩
    unfold nullsLeft
    split
    · dsimp only
      omega
    · rw [List.drop_zero]
      dsimp only
      have := hnb
      unfold RecordInfo.NullableBound at this
      omega
  have hs0 : OffsLoop.Shifted r r'
      ⟨0, r - (REC_N_NEW_EXTRA_BYTES + 1), 1, r - (REC_N_NEW_EXTRA_BYTES + 1) - nb, 0,
        info.nNullable⟩
      ⟨0, r' - (REC_N_NEW_EXTRA_BYTES + 1), 1, r' - (REC_N_NEW_EXTRA_BYTES + 1) - nb, 0,
        info.nNullable⟩ :=
    ⟨rfl, rfl, rfl, rfl, by dsimp only; omega, by dsimp only; omega⟩
  obtain ⟨t', hturns', hsh⟩ := offsTurns_shift hc hL0 hs0 hturns hroom
    (by omega) (by dsimp only; omega) (by dsimp only; omega)
  refine ⟨(ends, t'), hturns', ?_⟩
  dsimp only
  have hlens := hsh.lens
  rw [hsh.anyExt, show r' - (t'.lens + 1) = r - (t.lens + 1) by omega]

end Shift

/-! ### The nullable fields of an index read from the log -/

section Index

open LogDB.Lib Decoder

/-- `RecordInfo::AddField` appends one field and counts it as nullable by its type in the log;
a system column it retypes is NOT NULL. -/
theorem RecordInfo.addField_eq {info info' : RecordInfo} {m p l : Nat}
    (h : info.addField m p l = some info') :
    ∃ f : FieldInfo, info' = { info with
        nNullable := if p &&& DATA_NOT_NULL = 0 then info.nNullable + 1 else info.nNullable
        fields := info.fields ++ [f] } ∧
      (f.preciseType = p ∨ f.preciseType &&& DATA_NOT_NULL ≠ 0) := by
  simp only [RecordInfo.addField, Option.bind_eq_bind] at h
  generalize (if p &&& DATA_NOT_NULL = 0 then info.nNullable + 1 else info.nNullable) = nn at h ⊢
  -- the fixed length does not matter here: a fixed or a variable length column, or no column
  by_cases c1 : m = DATA_FIXBINARY
  on_goal 1 =>
    rw [if_pos c1] at h
    simp only [Option.bind_some] at h
    generalize (if l > DICT_MAX_FIXED_COL_LEN then 0 else l) = fl at h
  on_goal 2 =>
    rw [if_neg c1] at h
    by_cases c2 : m = DATA_BINARY
    on_goal 2 =>
      rw [if_neg c2] at h
      simp at h
    rw [if_pos c2] at h
    simp only [Option.bind_some] at h
    generalize (if 0 > DICT_MAX_FIXED_COL_LEN then 0 else 0) = fl at h
  all_goals
    split_ifs at h <;>
      simp only [Option.bind_some, Option.bind_none, reduceCtorEq, Option.some.injEq] at h <;>
      subst h <;>
      first | exact ⟨_, rfl, Or.inl rfl⟩ | exact ⟨_, rfl, Or.inr (by dsimp only; decide)⟩

theorem RecordInfo.addField_nullableBound {info info' : RecordInfo} {m p l : Nat}
    (h : info.addField m p l = some info') (hb : info.NullableBound) : info'.NullableBound := by
  obtain ⟨f, rfl, hf⟩ := RecordInfo.addField_eq h
  unfold RecordInfo.NullableBound at hb ⊢
  simp only [List.filter_append, List.length_append]
  by_cases hp : p &&& DATA_NOT_NULL = 0
  · rw [if_pos hp]
    have : (List.filter FieldInfo.nullable [f]).length ≤ 1 := by
      simp only [List.filter_cons, List.filter_nil]
      split <;> simp
    omega
  · -- a field logged as NOT NULL stays NOT NULL
    have hnn : f.nullable = false := by
      rcases hf with hf | hf <;> simp [FieldInfo.nullable, hf, hp]
    rw [if_neg hp]
    simp [hnn, hb]

variable (buf : List UInt8)

theorem parseRecInfoFields_nullableBound {k : Nat} {info info' : RecordInfo} {ptr p : Nat}
    (h : parseRecInfoFields buf k info ptr = .ok (info', p)) (hb : info.NullableBound) :
    info'.NullableBound := by
  induction k generalizing info ptr with
  | zero =>
      cases h
      exact hb
  | succ k ih =>
      rw [parseRecInfoFields, get_bind_run, bind_run_ok (skip_run 2 ptr)] at h
      generalize hadd : RecordInfo.addField info _ _ _ = o at h
      cases o with
      | none => cases h
      | some info₁ => exact ih h (RecordInfo.addField_nullableBound hadd hb)

/-- An index read from the log counts every field it may read as nullable. -/
theorem parseRecInfoFromLog_nullableBound {stop ptr p : Nat} {info : RecordInfo}
    (h : parseRecInfoFromLog buf stop ptr = .ok (info, p)) : info.NullableBound := by
  rw [parseRecInfoFromLog_eq] at h
  dsimp only at h
  split_ifs at h <;>
    exact parseRecInfoFields_nullableBound buf h (by simp [RecordInfo.NullableBound])

end Index

end LogDB
