import LogDB.Applier.RecordParse

/-!
`ParseSingleLogRecord` on a batch cut short. The parser frames the unparsed bytes batch by
batch, and a record that runs past the end of a batch is framed again at the start of a later
batch that holds more. Every decoder of a record reads only bytes before `end_ptr` and asks for
more where they end, so on a buffer cut inside a record it returns `0`, and on a buffer that
holds the same bytes further on it frames the same record. The exception is
`MLOG_INDEX_LOAD`, whose body fails an assert where it is cut.

The decoders are compared by the rules of `LogDB.Lib.Decoder.Sim`, one lemma per decoder.
-/

namespace LogDB

open LogDB.Lib Decoder

/-- The bytes of `buf` before `stop` stand `k` places further on in `buf'`, which ends no
earlier than they do there. -/
structure Shifted (k : Nat) (buf : List UInt8) (stop : Nat) (buf' : List UInt8) (stop' : Nat) :
    Prop where
  stop_le : stop + k ≤ stop'
  getD_eq : ∀ i < stop, buf.getD i 0 = buf'.getD (i + k) 0

/-- A parsed record with its body `k` places further on. -/
def ParsedRecord.shift (k : Nat) (r : ParsedRecord) : ParsedRecord :=
  { r with body := r.body.map (· + k) }

/-! ### Where a decoder stops -/

theorem compressedForm_ok {buf : List UInt8} {ptr w mask low v p : Nat}
    (h : compressedForm buf ptr w mask low = .ok (v, p)) : p = ptr + w := by
  simp only [compressedForm] at h
  split_ifs at h
  cases h
  rfl

theorem machParseCompressed_le {buf : List UInt8} {stop ptr v p : Nat}
    (h : machParseCompressed buf stop ptr = .ok (v, p)) : p ≤ stop := by
  simp only [machParseCompressed] at h
  split_ifs at h <;> first
    | (cases h <;> omega)
    | (have hp := compressedForm_ok h; omega)

theorem mlogParseIndex_le {buf : List UInt8} {stop ptr p : Nat} {comp : Bool} {u : Unit}
    (hp : ptr ≤ stop) (h : mlogParseIndex buf stop comp ptr = .ok (u, p)) : p ≤ stop := by
  cases comp with
  | false =>
      cases h
      exact hp
  | true =>
      simp only [mlogParseIndex, if_true, bind_run, get_run, ensure_run, skip_run] at h
      split_ifs at h
      obtain ⟨hle, rfl⟩ := consume_ok h
      exact hle

section Shifted

variable {k stop stop' : Nat} {lax : Bool} {buf buf' : List UInt8}
  (hs : Shifted k buf stop buf' stop')
include hs

theorem machReadFrom_shifted {ptr n : Nat} (h : ptr + n ≤ stop) :
    machReadFrom buf' (ptr + k) n = machReadFrom buf ptr n :=
  (readBE_shift fun i _ h2 => hs.getD_eq i (by omega)).symm

theorem machReadFrom_shifted_add {ptr j n : Nat} (h : ptr + j + n ≤ stop) :
    machReadFrom buf' (ptr + k + j) n = machReadFrom buf (ptr + j) n := by
  rw [Nat.add_right_comm]
  exact machReadFrom_shifted hs h

theorem compressedForm_shifted {ptr w mask low : Nat} (h : ptr + w ≤ stop) :
    compressedForm buf' (ptr + k) w mask low =
      (compressedForm buf ptr w mask low).map fun r => (r.1, r.2 + k) := by
  simp only [compressedForm, machReadFrom_shifted hs h]
  split_ifs <;> simp [Except.map, Nat.add_right_comm]

/-- A compressed form of `w` bytes, read once `stop` leaves room for them. -/
theorem checkedForm_shifted {ptr w mask low : Nat} :
    (if stop ≥ ptr + w then compressedForm buf ptr w mask low else .error .null) = .error .null ∨
      (if stop' ≥ ptr + k + w then compressedForm buf' (ptr + k) w mask low else .error .null) =
        (if stop ≥ ptr + w then compressedForm buf ptr w mask low else .error .null).map
          fun r => (r.1, r.2 + k) := by
  by_cases h : stop ≥ ptr + w
  · have hle := hs.stop_le
    rw [if_pos h, if_pos (show stop' ≥ ptr + k + w by omega), compressedForm_shifted hs h]
    exact .inr rfl
  · exact .inl (if_neg h)

theorem machParseCompressed_sim (ptr : Nat) :
    Sim k lax Eq (machParseCompressed buf stop) (machParseCompressed buf' stop') ptr := by
  have hle := hs.stop_le
  refine Sim.of_shift ?_ fun _ => rfl
  by_cases hp : ptr ≥ stop
  · exact .inl (by simp [machParseCompressed, hp])
  simp only [machParseCompressed, if_neg hp, if_neg (show ¬ptr + k ≥ stop' by omega),
    machReadFrom_shifted hs (show ptr + 1 ≤ stop by omega)]
  -- the same first byte picks the same form on both sides
  by_cases h1 : machReadFrom buf ptr 1 < 0x80
  · rw [if_pos h1, if_pos h1]
    exact .inr (by rw [Nat.add_right_comm]; rfl)
  by_cases h2 : machReadFrom buf ptr 1 < 0xC0
  · rw [if_neg h1, if_neg h1, if_pos h2, if_pos h2]
    exact checkedForm_shifted hs
  by_cases h3 : machReadFrom buf ptr 1 < 0xE0
  · rw [if_neg h1, if_neg h1, if_neg h2, if_neg h2, if_pos h3, if_pos h3]
    exact checkedForm_shifted hs
  by_cases h4 : machReadFrom buf ptr 1 < 0xF0
  · rw [if_neg h1, if_neg h1, if_neg h2, if_neg h2, if_neg h3, if_neg h3, if_pos h4, if_pos h4]
    exact checkedForm_shifted hs
  rw [if_neg h1, if_neg h1, if_neg h2, if_neg h2, if_neg h3, if_neg h3, if_neg h4, if_neg h4]
  by_cases h5 : machReadFrom buf ptr 1 ≠ 0xF0
  · rw [if_pos h5, if_pos h5]
    exact .inr rfl
  rw [if_neg h5, if_neg h5]
  -- the five-byte form: a flag byte and four bytes of value
  by_cases hb : stop ≥ ptr + 5
  · rw [if_pos hb, if_pos (show stop' ≥ ptr + k + 5 by omega),
      machReadFrom_shifted_add hs (show ptr + 1 + 4 ≤ stop by omega)]
    refine .inr ?_
    split_ifs
    · rw [Nat.add_right_comm]
      rfl
    · rfl
  · exact .inl (if_neg hb)

theorem machReadNextCompressed_sim {ptr : Nat} (h : ptr + 5 ≤ stop) :
    Sim k lax Eq (machReadNextCompressed buf) (machReadNextCompressed buf') ptr := by
  refine Sim.of_shift (.inr ?_) fun _ => rfl
  simp only [machReadNextCompressed, machReadFrom_shifted hs (show ptr + 1 ≤ stop by omega),
    machReadFrom_shifted_add hs (show ptr + 1 + 4 ≤ stop by omega)]
  split_ifs <;> first
    | (rw [compressedForm_shifted hs (by omega)])
    | (simp only [Except.map]; rw [Nat.add_right_comm])
    | rfl

theorem machU64ParseCompressed_sim (ptr : Nat) :
    Sim k lax Eq (machU64ParseCompressed buf stop) (machU64ParseCompressed buf' stop') ptr := by
  have hle := hs.stop_le
  refine Sim.get_bind (Sim.ensure_null_bind (by omega) fun h5 => ?_)
  refine (machReadNextCompressed_sim hs h5).bind fun high _ p hp hh => ?_
  subst hh
  refine Sim.get_bind (Sim.ensure_null_bind (by omega) fun h4 => Sim.skip_bind 4 ?_)
  rw [machReadFrom_shifted hs h4]
  exact Sim.pure rfl

theorem lengthPrefixed_sim (w ptr : Nat) :
    Sim k lax Eq (lengthPrefixed buf stop w) (lengthPrefixed buf' stop' w) ptr := by
  have hle := hs.stop_le
  refine Sim.get_bind (Sim.ensure_null_bind (by omega) fun hw => Sim.skip_bind w ?_)
  rw [machReadFrom_shifted hs hw]
  exact Sim.consume_null _ hle

theorem recOffset_sim (ptr : Nat) : Sim k lax Eq (recOffset buf stop) (recOffset buf' stop') ptr := by
  have hle := hs.stop_le
  refine Sim.get_bind (Sim.ensure_null_bind (by omega) fun h2 => Sim.skip_bind 2 ?_)
  rw [machReadFrom_shifted hs h2]
  exact Sim.ensure _ Iff.rfl

theorem parseMlogFileX_sim (type : LogType) (ptr : Nat) :
    Sim k lax Eq (parseMlogFileX buf stop type) (parseMlogFileX buf' stop' type) ptr := by
  have hle := hs.stop_le
  dsimp only [parseMlogFileX]
  refine Sim.ite (fun _ => Sim.consume_null_bind 4 hle fun _ => ?_) fun _ => ?_
  all_goals
    exact (lengthPrefixed_sim hs 2 _).bind fun _ _ p _ _ =>
      Sim.ite (fun _ => lengthPrefixed_sim hs 2 p) fun _ => Sim.pure rfl

theorem mlogParseIndex_sim (comp : Bool) (ptr : Nat) :
    Sim k lax Eq (mlogParseIndex buf stop comp) (mlogParseIndex buf' stop' comp) ptr := by
  have hle := hs.stop_le
  refine Sim.ite (fun _ => ?_) fun _ => Sim.pure rfl
  refine Sim.get_bind (Sim.ensure_null_bind (by omega) fun h4 => Sim.skip_bind 4 ?_)
  rw [machReadFrom_shifted hs (show ptr + 2 ≤ stop by omega)]
  exact Sim.consume_null _ hle

theorem rowUpdParseSysVals_sim (ptr : Nat) :
    Sim k lax Eq (rowUpdParseSysVals buf stop) (rowUpdParseSysVals buf' stop') ptr :=
  (machParseCompressed_sim hs ptr).bind fun _ _ _ _ _ =>
    Sim.consume_null_bind _ hs.stop_le fun _ =>
      (machU64ParseCompressed_sim hs _).bind fun _ _ _ _ _ => Sim.pure rfl

theorem parseMlogRecSecDeleteMark_sim (ptr : Nat) :
    Sim k lax Eq (parseMlogRecSecDeleteMark buf stop) (parseMlogRecSecDeleteMark buf' stop') ptr := by
  have hle := hs.stop_le
  refine Sim.get_bind (Sim.ensure_null_bind (by omega) fun h3 => Sim.skip_bind 3 ?_)
  rw [machReadFrom_shifted_add hs (show ptr + 1 + 2 ≤ stop by omega)]
  exact Sim.ensure _ Iff.rfl

theorem rowUpdParseFields_sim (n ptr : Nat) :
    Sim k lax Eq (rowUpdParseFields buf stop n) (rowUpdParseFields buf' stop' n) ptr := by
  induction n generalizing ptr with
  | zero => exact Sim.pure rfl
  | succ n ih =>
      refine (machParseCompressed_sim hs ptr).bind fun _ _ p _ _ =>
        (machParseCompressed_sim hs p).bind fun len _ p _ hlen => ?_
      subst hlen
      exact Sim.ite (fun _ => Sim.consume_null_bind _ hs.stop_le fun _ => ih _) fun _ => ih p

theorem rowUpdIndexParse_sim (ptr : Nat) :
    Sim k lax Eq (rowUpdIndexParse buf stop) (rowUpdIndexParse buf' stop') ptr :=
  Sim.consume_null_bind _ hs.stop_le fun _ =>
    (machParseCompressed_sim hs _).bind fun n _ p _ hn => hn ▸ rowUpdParseFields_sim hs n p

theorem parseMlogRecUpdateInPlace_sim (ptr : Nat) :
    Sim k lax Eq (parseMlogRecUpdateInPlace buf stop) (parseMlogRecUpdateInPlace buf' stop') ptr :=
  Sim.consume_null_bind _ hs.stop_le fun _ =>
    (rowUpdParseSysVals_sim hs _).bind fun _ _ p _ _ =>
      (recOffset_sim hs p).bind fun _ _ p _ _ => rowUpdIndexParse_sim hs p

theorem parseMlogRecInsert_sim (isShort : Bool) (ptr : Nat) :
    Sim k lax Eq (parseMlogRecInsert buf stop isShort) (parseMlogRecInsert buf' stop' isShort) ptr := by
  have hle := hs.stop_le
  dsimp only [parseMlogRecInsert]
  refine Sim.ite (fun _ => Sim.get_bind (Sim.ensure_null_bind (by omega) fun h2 =>
    Sim.skip_bind 2 ?_)) fun _ => ?_
  on_goal 1 =>
    rw [machReadFrom_shifted hs h2]
    refine Sim.ensure_bind _ Iff.rfl fun _ => ?_
  all_goals
    refine (machParseCompressed_sim hs _).bind fun endSegLen _ p _ h => ?_
    subst h
    refine Sim.ensure_bind _ Iff.rfl fun _ =>
      Sim.ite (fun _ => ?_) fun _ => Sim.consume_null _ hle
    refine Sim.consume_null_bind _ hle fun _ =>
      (machParseCompressed_sim hs _).bind fun _ _ p _ h => ?_
    subst h
    refine Sim.ensure_bind _ Iff.rfl fun _ => (machParseCompressed_sim hs _).bind fun _ _ p _ h => ?_
    subst h
    exact Sim.ensure_bind _ Iff.rfl fun _ => Sim.consume_null _ hle

theorem parseMlogRecClustDeleteMark_sim (ptr : Nat) :
    Sim k lax Eq (parseMlogRecClustDeleteMark buf stop) (parseMlogRecClustDeleteMark buf' stop') ptr :=
  Sim.consume_null_bind _ hs.stop_le fun _ =>
    (rowUpdParseSysVals_sim hs _).bind fun _ _ p _ _ => recOffset_sim hs p

theorem parseDeleteRecList_sim (type : LogType) (ptr : Nat) :
    Sim k lax Eq (parseDeleteRecList stop type) (parseDeleteRecList stop' type) ptr :=
  Sim.ensure_bind _ Iff.rfl fun _ => Sim.consume_null _ hs.stop_le

/-- The level byte of a compressed page is read at `ptr` once `ptr ≠ stop`: the position
must not lie past the end. -/
theorem parsePageReorganize_sim (compressed : Bool) {ptr : Nat} (hp : ptr ≤ stop) :
    Sim k lax Eq (parsePageReorganize buf stop compressed) (parsePageReorganize buf' stop' compressed)
      ptr := by
  have hle := hs.stop_le
  refine Sim.ite (fun _ => Sim.get_bind (Sim.ensure_null_bind (by omega) fun hne => ?_))
    fun _ => Sim.pure rfl
  rw [machReadFrom_shifted hs (show ptr + 1 ≤ stop by omega)]
  exact Sim.ensure_bind _ Iff.rfl fun _ => Sim.skip 1

theorem parseOrApplyNBytes_sim (type : LogType) (ptr : Nat) :
    Sim k lax Eq (parseOrApplyNBytes type buf stop none) (parseOrApplyNBytes type buf' stop' none)
      ptr := by
  have hle := hs.stop_le
  refine Sim.ensure_bind _ Iff.rfl fun _ =>
    Sim.get_bind (Sim.ensure_null_bind (by omega) fun h2 => Sim.skip_bind 2 ?_)
  rw [machReadFrom_shifted hs h2]
  refine Sim.ensure_bind _ Iff.rfl fun _ =>
    Sim.ite (fun _ => (machU64ParseCompressed_sim hs _).bind fun _ _ _ _ h => ?_) fun _ =>
      (machParseCompressed_sim hs _).bind fun _ _ _ _ h => ?_
  · subst h
    exact Sim.pure rfl
  · subst h
    split
    all_goals first
      | exact Sim.ensure_bind _ Iff.rfl fun _ => Sim.pure rfl
      | exact Sim.pure rfl

theorem parseOrApplyString_sim (ptr : Nat) :
    Sim k lax Eq (parseOrApplyString buf stop none) (parseOrApplyString buf' stop' none) ptr := by
  have hle := hs.stop_le
  refine Sim.get_bind (Sim.ensure_null_bind (by omega) fun h4 => Sim.skip_bind 4 ?_)
  rw [machReadFrom_shifted hs (show ptr + 2 ≤ stop by omega),
    machReadFrom_shifted_add hs (show ptr + 2 + 2 ≤ stop by omega)]
  exact Sim.ensure_bind _ Iff.rfl fun _ => Sim.ensure_bind _ Iff.rfl fun _ =>
    Sim.get_bind (Sim.ensure_null_bind (by omega) fun _ => Sim.skip_bind _ (Sim.pure rfl))

/-- Every body parser asks for more input where the body is cut, but that of
`MLOG_INDEX_LOAD`, which fails an assert: only a lax comparison admits it. -/
theorem parseSingleLogRecordBody_sim {type : LogType} (ht : type = .MLOG_INDEX_LOAD → lax = true)
    {ptr : Nat}
    (hp : ptr ≤ stop) :
    Sim k lax Eq (parseSingleLogRecordBody buf stop type) (parseSingleLogRecordBody buf' stop' type)
      ptr := by
  have hle := hs.stop_le
  have hindex : ∀ comp (d d' : Decoder Unit), (∀ p, p ≤ stop → Sim k lax Eq d d' p) →
      Sim k lax Eq (mlogParseIndex buf stop comp >>= fun _ => d)
        (mlogParseIndex buf' stop' comp >>= fun _ => d') ptr :=
    fun comp _ _ h => (mlogParseIndex_sim hs comp ptr).bind fun _ _ p hp' _ =>
      h p (mlogParseIndex_le hp hp')
  -- the cases of the body's switch
  cases type <;> dsimp only [parseSingleLogRecordBody]
  case MLOG_FILE_NAME | MLOG_FILE_DELETE | MLOG_FILE_CREATE2 | MLOG_FILE_RENAME2 =>
    exact parseMlogFileX_sim hs _ _
  case MLOG_INDEX_LOAD => exact Sim.consume _ _ (fun _ => ht rfl) hle
  case MLOG_TRUNCATE => exact Sim.consume_null _ hle
  case MLOG_1BYTE | MLOG_2BYTES | MLOG_4BYTES | MLOG_8BYTES =>
    exact (parseOrApplyNBytes_sim hs _ _).bind fun _ _ _ _ _ => Sim.pure rfl
  case MLOG_REC_INSERT | MLOG_COMP_REC_INSERT =>
    exact hindex _ _ _ fun p _ => parseMlogRecInsert_sim hs _ p
  case MLOG_REC_CLUST_DELETE_MARK | MLOG_COMP_REC_CLUST_DELETE_MARK =>
    exact hindex _ _ _ fun p _ => parseMlogRecClustDeleteMark_sim hs p
  case MLOG_COMP_REC_SEC_DELETE_MARK =>
    exact hindex _ _ _ fun p _ => parseMlogRecSecDeleteMark_sim hs p
  case MLOG_REC_SEC_DELETE_MARK => exact parseMlogRecSecDeleteMark_sim hs _
  case MLOG_REC_UPDATE_IN_PLACE | MLOG_COMP_REC_UPDATE_IN_PLACE =>
    exact hindex _ _ _ fun p _ => parseMlogRecUpdateInPlace_sim hs p
  case MLOG_LIST_END_DELETE | MLOG_COMP_LIST_END_DELETE | MLOG_LIST_START_DELETE
      | MLOG_COMP_LIST_START_DELETE =>
    exact hindex _ _ _ fun p _ => parseDeleteRecList_sim hs _ p
  case MLOG_LIST_END_COPY_CREATED | MLOG_COMP_LIST_END_COPY_CREATED =>
    exact hindex _ _ _ fun p _ => lengthPrefixed_sim hs 4 p
  case MLOG_PAGE_REORGANIZE | MLOG_COMP_PAGE_REORGANIZE | MLOG_ZIP_PAGE_REORGANIZE =>
    exact hindex _ _ _ fun _ hp => parsePageReorganize_sim hs _ hp
  case MLOG_PAGE_CREATE | MLOG_COMP_PAGE_CREATE | MLOG_PAGE_CREATE_RTREE
      | MLOG_COMP_PAGE_CREATE_RTREE | MLOG_UNDO_ERASE_END | MLOG_UNDO_HDR_DISCARD
      | MLOG_IBUF_BITMAP_INIT | MLOG_INIT_FILE_PAGE | MLOG_INIT_FILE_PAGE2
      | MLOG_ZIP_WRITE_NODE_PTR | MLOG_ZIP_WRITE_BLOB_PTR | MLOG_ZIP_WRITE_HEADER
      | MLOG_ZIP_PAGE_COMPRESS | MLOG_ZIP_PAGE_COMPRESS_NO_DATA =>
    exact Sim.pure rfl
  case MLOG_UNDO_INSERT => exact lengthPrefixed_sim hs 2 _
  case MLOG_UNDO_INIT => exact (machParseCompressed_sim hs _).bind fun _ _ _ _ _ => Sim.pure rfl
  case MLOG_UNDO_HDR_CREATE | MLOG_UNDO_HDR_REUSE =>
    exact (machU64ParseCompressed_sim hs _).bind fun _ _ _ _ _ => Sim.pure rfl
  case MLOG_REC_MIN_MARK | MLOG_COMP_REC_MIN_MARK => exact Sim.consume_null _ hle
  case MLOG_REC_DELETE | MLOG_COMP_REC_DELETE =>
    exact hindex _ _ _ fun p _ => recOffset_sim hs p
  case MLOG_WRITE_STRING =>
    exact (parseOrApplyString_sim hs _).bind fun _ _ _ _ _ => Sim.pure rfl
  all_goals exact Sim.fail _

theorem parseSingleLogRecord_sim {ptr : Nat}
    (hload : machReadFrom buf ptr 1 &&& 0x7F = LogType.MLOG_INDEX_LOAD.toNat → lax = true) :
    Sim k lax (fun r r' => r' = r.shift k) (parseSingleLogRecord buf stop)
      (parseSingleLogRecord buf' stop') ptr := by
  have hle := hs.stop_le
  refine Sim.get_bind (Sim.ensure_null_bind (by omega) fun hlt => ?_)
  rw [machReadFrom_shifted hs (show ptr + 1 ≤ stop by omega)]
  refine Sim.ite (fun _ => Sim.skip_bind 1 (Sim.pure rfl)) fun _ => ?_
  refine Sim.ite (fun _ => Sim.skip_bind 1 (Sim.pure rfl)) fun _ => ?_
  refine Sim.ite (fun _ => Sim.consume_null_bind _ hle fun _ => Sim.pure rfl) fun _ => ?_
  refine Sim.ensure_bind _ Iff.rfl fun _ => Sim.skip_bind 1 (Sim.ensure_null_bind (by omega)
    fun _ => (machParseCompressed_sim hs _).bind fun spaceId _ p _ h => ?_)
  subst h
  refine (machParseCompressed_sim hs p).bind fun pageId _ body hbody h => ?_
  subst h
  refine Sim.get_bind ?_
  split
  · rename_i type htype
    have ht : type = .MLOG_INDEX_LOAD → lax = true := fun h =>
      hload (h ▸ LogType.toNat_ofNat? htype).symm
    exact (parseSingleLogRecordBody_sim hs ht (machParseCompressed_le hbody)).bind
      fun _ _ _ _ _ => Sim.pure rfl
  · exact Sim.fail _

end Shifted

/-- Unless the record at `pos` is an `MLOG_INDEX_LOAD`, `ParseSingleLogRecord` on a buffer
whose bytes before `end_ptr` stand `k` places further on in a second buffer, which ends no
earlier, asks for more input or frames the same record there, `k` places further on. -/
theorem parseSingleLogRecord_shifted {k stop stop' pos : Nat} {buf buf' : List UInt8}
    (hs : Shifted k buf stop buf' stop')
    (hload : machReadFrom buf pos 1 &&& 0x7F ≠ LogType.MLOG_INDEX_LOAD.toNat) :
    parseSingleLogRecord buf stop pos = .error .null ∨
      parseSingleLogRecord buf' stop' (pos + k) =
        (parseSingleLogRecord buf stop pos).map fun r => (r.1.shift k, r.2 + k) :=
  Sim.eq_map (parseSingleLogRecord_sim hs fun h => absurd h hload)

theorem parseSingleLogRecord_shifted_minMark :
    parseSingleLogRecord [36, 1, 3, 0, 125] 5 0 = .error .null ∨
      parseSingleLogRecord [0, 0, 36, 1, 3, 0, 125, 31] 8 (0 + 2) =
        (parseSingleLogRecord [36, 1, 3, 0, 125] 5 0).map fun r => (r.1.shift 2, r.2 + 2) :=
  parseSingleLogRecord_shifted ⟨by decide, by decide⟩ (by decide)

end LogDB
