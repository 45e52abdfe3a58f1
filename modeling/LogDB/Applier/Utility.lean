import Mathlib
import LogDB.Applier.Config
import LogDB.Lib.Bytes
import LogDB.Lib.Decoder

/-!
The byte-level helpers of `utility.h` and `utility.cpp`: big-endian reads, InnoDB's
compressed integers, and the LSN arithmetic of `recv_calc_lsn_on_data_add`.

A buffer is a list of bytes and a position in it; reads past the end of the list see
zeros. The decoders below never read past `end_ptr` unless the C code does.
-/

namespace LogDB

open LogDB.Lib Decoder

/-- `mach_read_from_n(buf + ptr)`. -/
def machReadFrom (buf : List UInt8) (ptr n : Nat) : Nat :=
  readBE (fun i => buf.getD i 0) ptr n

/-- The `w`-byte forms of a compressed integer: the value under `mask`, which the
encoder only uses for values above `low`. -/
def compressedForm (buf : List UInt8) (ptr w mask low : Nat) : Except Fail (Nat × Nat) :=
  let val := machReadFrom buf ptr w &&& mask
  if val > low then .ok (val, ptr + w) else .error .abort

def machParseCompressed (buf : List UInt8) (stop : Nat) : Decoder Nat := fun ptr =>
  if ptr ≥ stop then .error .null else
  let val := machReadFrom buf ptr 1
  if val < 0x80 then .ok (val, ptr + 1)
  else if val < 0xC0 then
    if stop ≥ ptr + 2 then compressedForm buf ptr 2 0x3FFF 0x7F else .error .null
  else if val < 0xE0 then
    if stop ≥ ptr + 3 then compressedForm buf ptr 3 0x1FFFFF 0x3FFF else .error .null
  else if val < 0xF0 then
    if stop ≥ ptr + 4 then compressedForm buf ptr 4 0xFFFFFFF 0x1FFFFF else .error .null
  else if val ≠ 0xF0 then .error .abort
  else if stop ≥ ptr + 5 then
    let val := machReadFrom buf (ptr + 1) 4
    if val > 0xFFFFFFF then .ok (val, ptr + 5) else .error .abort
  else .error .null

/-- `mach_read_next_compressed`: the same forms, with no bound to check. -/
def machReadNextCompressed (buf : List UInt8) : Decoder Nat := fun ptr =>
  let val := machReadFrom buf ptr 1
  if val < 0x80 then .ok (val, ptr + 1)
  else if val < 0xC0 then compressedForm buf ptr 2 0x3FFF 0x7F
  else if val < 0xE0 then compressedForm buf ptr 3 0x1FFFFF 0x3FFF
  else if val < 0xF0 then compressedForm buf ptr 4 0xFFFFFFF 0x1FFFFF
  else if val ≠ 0xF0 then .error .abort
  else
    let val := machReadFrom buf (ptr + 1) 4
    if val > 0xFFFFFFF then .ok (val, ptr + 5) else .error .abort

def machU64ParseCompressed (buf : List UInt8) (stop : Nat) : Decoder Nat := do
  let ptr ← get
  ensure (ptr + 5 ≤ stop) .null
  let high ← machReadNextCompressed buf
  let ptr ← get
  ensure (ptr + 4 ≤ stop) .null
  skip 4
  return high <<< 32 ||| machReadFrom buf ptr 4

/-- `recv_calc_lsn_on_data_add`: the LSN after `len` more bytes of log data, counting the
header and trailer of every block the data crosses. `frag_len` is a `uint32_t`, so an LSN
inside a block header fails the assert. -/
def recvCalcLsnOnDataAdd (lsn len : Nat) : Option Nat :=
  let dataPerBlock := OS_FILE_LOG_BLOCK_SIZE - LOG_BLOCK_HDR_SIZE - LOG_BLOCK_TRL_SIZE
  let fragLen := (lsn % OS_FILE_LOG_BLOCK_SIZE + 2 ^ 32 - LOG_BLOCK_HDR_SIZE) % 2 ^ 32
  if fragLen < dataPerBlock then
    let lsnLen := len + (len + fragLen) / dataPerBlock * (LOG_BLOCK_HDR_SIZE + LOG_BLOCK_TRL_SIZE)
    some ((lsn + lsnLen) % 2 ^ 64)
  else none

example : machParseCompressed [0x85, 0x10] 2 0 = .ok (0x510, 2) := by decide
example : machParseCompressed [0x85] 1 0 = .error .null := by decide

/-! ### LSNs of the data in log blocks -/

/-- An LSN below `2 ^ 64` that lies in the data part of a log block, past its header and
before its trailer. -/
def LsnInData (lsn : Nat) : Prop :=
  lsn < 2 ^ 64 ∧ LOG_BLOCK_HDR_SIZE ≤ lsn % OS_FILE_LOG_BLOCK_SIZE ∧
    lsn % OS_FILE_LOG_BLOCK_SIZE < OS_FILE_LOG_BLOCK_SIZE - LOG_BLOCK_TRL_SIZE

instance : DecidablePred LsnInData := fun _ => inferInstanceAs (Decidable (_ ∧ _ ∧ _))

section Lsn

variable {lsn len : Nat}

theorem recvCalcLsnOnDataAdd_eq (h : LsnInData lsn) :
    recvCalcLsnOnDataAdd lsn len =
      some ((lsn + len + (len + (lsn % 512 - 12)) / 496 * 16) % 2 ^ 64) := by
  obtain ⟨-, h12, h508⟩ := h
  simp only [OS_FILE_LOG_BLOCK_SIZE, LOG_BLOCK_HDR_SIZE, LOG_BLOCK_TRL_SIZE] at h12 h508
  -- `frag_len` is `uint32_t`, and past the header it does not wrap
  have hfrag : (lsn % 512 + 2 ^ 32 - 12) % 2 ^ 32 = lsn % 512 - 12 := by
    rw [show lsn % 512 + 2 ^ 32 - 12 = lsn % 512 - 12 + 2 ^ 32 by omega, Nat.add_mod_right,
      Nat.mod_eq_of_lt (by omega)]
  simp only [recvCalcLsnOnDataAdd, OS_FILE_LOG_BLOCK_SIZE, LOG_BLOCK_HDR_SIZE, LOG_BLOCK_TRL_SIZE]
  simp only [hfrag, show (512 - 12 - 4 : Nat) = 496 from rfl, show (12 + 4 : Nat) = 16 from rfl,
    if_pos (show lsn % 512 - 12 < 496 by omega), Nat.add_assoc]

theorem recvCalcLsnOnDataAdd_zero (h : LsnInData lsn) : recvCalcLsnOnDataAdd lsn 0 = some lsn := by
  have hf : lsn % 512 - 12 < 496 := by
    obtain ⟨-, h12, h508⟩ := h
    simp only [OS_FILE_LOG_BLOCK_SIZE, LOG_BLOCK_HDR_SIZE, LOG_BLOCK_TRL_SIZE] at h12 h508
    omega
  rw [recvCalcLsnOnDataAdd_eq h, Nat.zero_add, Nat.div_eq_of_lt hf, Nat.zero_mul, Nat.add_zero,
    Nat.mod_eq_of_lt h.1]

/-- The data part of a block is where the LSN lands again: a block's header and trailer are
skipped. -/
theorem lsnInData_of_recvCalc {lsn' : Nat} (h : LsnInData lsn)
    (h' : recvCalcLsnOnDataAdd lsn len = some lsn') : LsnInData lsn' := by
  rw [recvCalcLsnOnDataAdd_eq h] at h'
  cases h'
  obtain ⟨-, h12, h508⟩ := h
  simp only [LsnInData, OS_FILE_LOG_BLOCK_SIZE, LOG_BLOCK_HDR_SIZE, LOG_BLOCK_TRL_SIZE] at h12 h508 ⊢
  rw [Nat.mod_mod_of_dvd _ (by decide : 512 ∣ 2 ^ 64)]
  refine ⟨Nat.mod_lt _ (by decide), ?_, ?_⟩ <;> omega

theorem recvCalcLsnOnDataAdd_add {a b lsn' : Nat} (h : LsnInData lsn)
    (h' : recvCalcLsnOnDataAdd lsn a = some lsn') :
    recvCalcLsnOnDataAdd lsn' b = recvCalcLsnOnDataAdd lsn (a + b) := by
  have h₁ := lsnInData_of_recvCalc h h'
  rw [recvCalcLsnOnDataAdd_eq h] at h'
  cases h'
  rw [recvCalcLsnOnDataAdd_eq h₁, recvCalcLsnOnDataAdd_eq h]
  obtain ⟨-, h12, h508⟩ := h
  simp only [OS_FILE_LOG_BLOCK_SIZE, LOG_BLOCK_HDR_SIZE, LOG_BLOCK_TRL_SIZE] at h12 h508
  -- `2 ^ 64` is a multiple of the block size, so the offset in the block survives the wrap
  rw [Nat.mod_mod_of_dvd _ (by decide : 512 ∣ 2 ^ 64), Nat.add_assoc (_ % 2 ^ 64),
    Nat.mod_add_mod]
  congr 2
  omega

theorem recvCalcLsnOnDataAdd_some (h : LsnInData lsn) (len : Nat) :
    ∃ r, recvCalcLsnOnDataAdd lsn len = some r :=
  ⟨_, recvCalcLsnOnDataAdd_eq h⟩

theorem recvCalcLsnOnDataAdd_foldlM (h : LsnInData lsn) (lens : List Nat) :
    lens.foldlM recvCalcLsnOnDataAdd lsn = recvCalcLsnOnDataAdd lsn lens.sum := by
  induction lens generalizing lsn with
  | nil =>
      rw [List.foldlM_nil, List.sum_nil, recvCalcLsnOnDataAdd_zero h]
      rfl
  | cons a as ih =>
      obtain ⟨r, hr⟩ := recvCalcLsnOnDataAdd_some h a
      rw [List.foldlM_cons, hr, Option.bind_eq_bind, Option.bind_some,
        ih (lsnInData_of_recvCalc h hr), recvCalcLsnOnDataAdd_add h hr, List.sum_cons]

/-- From an LSN in the data part of a block, `recv_calc_lsn_on_data_add` lands in the data
part again and adds lengths, so the LSN the parser accumulates record by record does not
depend on where records and batches end. -/
theorem recvCalcLsnOnDataAdd_closed_additive (h : LsnInData lsn) :
    (∀ a, ∃ r, recvCalcLsnOnDataAdd lsn a = some r ∧ LsnInData r) ∧
    (∀ a b r, recvCalcLsnOnDataAdd lsn a = some r →
      recvCalcLsnOnDataAdd r b = recvCalcLsnOnDataAdd lsn (a + b)) ∧
    ∀ lens : List Nat, lens.foldlM recvCalcLsnOnDataAdd lsn = recvCalcLsnOnDataAdd lsn lens.sum := by
  refine ⟨fun a => ?_, fun a b r hr => recvCalcLsnOnDataAdd_add h hr, recvCalcLsnOnDataAdd_foldlM h⟩
  obtain ⟨r, hr⟩ := recvCalcLsnOnDataAdd_some h a
  exact ⟨r, hr, lsnInData_of_recvCalc h hr⟩

theorem recvCalcLsnOnDataAdd_closed_additive_checkpoint :
    LsnInData 8204 ∧ ((∀ a, ∃ r, recvCalcLsnOnDataAdd 8204 a = some r ∧ LsnInData r) ∧
    (∀ a b r, recvCalcLsnOnDataAdd 8204 a = some r →
      recvCalcLsnOnDataAdd r b = recvCalcLsnOnDataAdd 8204 (a + b)) ∧
    ∀ lens : List Nat, lens.foldlM recvCalcLsnOnDataAdd 8204 = recvCalcLsnOnDataAdd 8204 lens.sum) :=
  ⟨by decide, recvCalcLsnOnDataAdd_closed_additive (by decide)⟩

end Lsn

/-! ### The compressed forms -/

/-- `L(b0)`: the length of the compressed form whose first byte is `b0`. -/
def compressedLen (b0 : Nat) : Nat :=
  if b0 < 0x80 then 1 else if b0 < 0xC0 then 2 else if b0 < 0xE0 then 3
  else if b0 < 0xF0 then 4 else 5

/-- The value of the form at `ptr`: its bytes read big-endian with the length prefix masked
off; the five-byte form keeps its value in its last four bytes. -/
def compressedValue (buf : List UInt8) (ptr : Nat) : Nat :=
  let b0 := machReadFrom buf ptr 1
  if b0 < 0x80 then b0
  else if b0 < 0xC0 then machReadFrom buf ptr 2 &&& 0x3FFF
  else if b0 < 0xE0 then machReadFrom buf ptr 3 &&& 0x1FFFFF
  else if b0 < 0xF0 then machReadFrom buf ptr 4 &&& 0xFFFFFFF
  else machReadFrom buf (ptr + 1) 4

/-- The least value a form of `len` bytes holds when it is the shortest one for its value. -/
def compressedMin : Nat → Nat
  | 2 => 0x80
  | 3 => 0x4000
  | 4 => 0x200000
  | 5 => 0x10000000
  | _ => 0

/-- The form at `ptr` is one `mach_write_compressed` writes: a first byte of at most `0xF0`,
and a value no shorter form holds. -/
def Canonical (buf : List UInt8) (ptr : Nat) : Prop :=
  machReadFrom buf ptr 1 ≤ 0xF0 ∧
    compressedMin (compressedLen (machReadFrom buf ptr 1)) ≤ compressedValue buf ptr

instance (buf : List UInt8) (ptr : Nat) : Decidable (Canonical buf ptr) :=
  inferInstanceAs (Decidable (_ ∧ _))

theorem compressedLen_pos (b0 : Nat) : 0 < compressedLen b0 := by
  unfold compressedLen
  split_ifs <;> decide

theorem compressedLen_le (b0 : Nat) : compressedLen b0 ≤ 5 := by
  unfold compressedLen
  split_ifs <;> decide

theorem machReadFrom_congr {buf buf' : List UInt8} {a n : Nat}
    (h : ∀ i, a ≤ i → i < a + n → buf'.getD i 0 = buf.getD i 0) :
    machReadFrom buf' a n = machReadFrom buf a n :=
  readBE_congr h

section Compressed

variable {buf : List UInt8} {stop ptr : Nat}

/-- `mach_read_next_compressed` reads a canonical compressed form, or stops at an assert. -/
theorem machReadNextCompressed_eq :
    machReadNextCompressed buf ptr =
      if Canonical buf ptr then
        .ok (compressedValue buf ptr, ptr + compressedLen (machReadFrom buf ptr 1))
      else .error .abort := by
  obtain ⟨b0, hb⟩ : ∃ b0, machReadFrom buf ptr 1 = b0 := ⟨_, rfl⟩
  simp only [machReadNextCompressed, Canonical, compressedValue, compressedLen, compressedForm, hb]
  by_cases h1 : b0 < 0x80
  · simp [h1, compressedMin, show b0 ≤ 0xF0 by omega]
  by_cases h2 : b0 < 0xC0
  · by_cases hv : 0x7F < machReadFrom buf ptr 2 &&& 0x3FFF <;>
      simp [h1, h2, hv, compressedMin] <;> omega
  by_cases h3 : b0 < 0xE0
  · by_cases hv : 0x3FFF < machReadFrom buf ptr 3 &&& 0x1FFFFF <;>
      simp [h1, h2, h3, hv, compressedMin] <;> omega
  by_cases h4 : b0 < 0xF0
  · by_cases hv : 0x1FFFFF < machReadFrom buf ptr 4 &&& 0xFFFFFFF <;>
      simp [h1, h2, h3, h4, hv, compressedMin] <;> omega
  by_cases h5 : b0 = 0xF0
  · by_cases hv : 0xFFFFFFF < machReadFrom buf (ptr + 1) 4 <;>
      simp [h5, hv, compressedMin] <;> omega
  · have h6 : ¬ b0 ≤ 0xF0 := by omega
    simp [h1, h2, h3, h4, h5, h6]

/-- `mach_parse_compressed` is `mach_read_next_compressed` once the whole form lies before
`end_ptr`; before that it answers null, unless the first byte already fails the assert. -/
theorem machParseCompressed_eq :
    machParseCompressed buf stop ptr =
      if ptr + compressedLen (machReadFrom buf ptr 1) ≤ stop then machReadNextCompressed buf ptr
      else if ptr < stop ∧ 0xF0 < machReadFrom buf ptr 1 then .error .abort
      else .error .null := by
  obtain ⟨b0, hb⟩ : ∃ b0, machReadFrom buf ptr 1 = b0 := ⟨_, rfl⟩
  simp only [machParseCompressed, machReadNextCompressed, compressedLen, hb]
  by_cases hs : ptr ≥ stop
  · have hl : ¬ ptr + (if b0 < 0x80 then 1 else if b0 < 0xC0 then 2 else if b0 < 0xE0 then 3
        else if b0 < 0xF0 then 4 else 5) ≤ stop := by
      split_ifs <;> omega
    rw [if_pos hs, if_neg hl, if_neg (by omega)]
  rw [if_neg hs]
  by_cases h1 : b0 < 0x80
  · simp [h1, show ptr + 1 ≤ stop by omega]
  by_cases h2 : b0 < 0xC0
  · by_cases hw : ptr + 2 ≤ stop <;> simp [h1, h2, hw, show ¬ 0xF0 < b0 by omega]
  by_cases h3 : b0 < 0xE0
  · by_cases hw : ptr + 3 ≤ stop <;> simp [h1, h2, h3, hw, show ¬ 0xF0 < b0 by omega]
  by_cases h4 : b0 < 0xF0
  · by_cases hw : ptr + 4 ≤ stop <;> simp [h1, h2, h3, h4, hw, show ¬ 0xF0 < b0 by omega]
  by_cases h5 : b0 = 0xF0
  · by_cases hw : ptr + 5 ≤ stop <;> simp [h5, hw]
  · by_cases hw : ptr + 5 ≤ stop <;>
      simp [h1, h2, h3, h4, h5, hw, show 0xF0 < b0 by omega, show ptr < stop by omega]

theorem machParseCompressed_extend {stop' : Nat} {r : Nat × Nat}
    (h : machParseCompressed buf stop ptr = .ok r) (hs : stop ≤ stop') :
    machParseCompressed buf stop' ptr = .ok r := by
  rw [machParseCompressed_eq] at h ⊢
  by_cases hl : ptr + compressedLen (machReadFrom buf ptr 1) ≤ stop
  · rw [if_pos hl] at h
    rw [if_pos (by omega)]
    exact h
  · rw [if_neg hl] at h
    split_ifs at h

/-- `mach_u64_parse_compressed` asks for five bytes before it decodes the high part with
`mach_read_next_compressed`, and for four more after it. -/
theorem machU64ParseCompressed_eq :
    machU64ParseCompressed buf stop ptr =
      if ptr + 5 ≤ stop then
        match machReadNextCompressed buf ptr with
        | .ok (high, p) =>
            if p + 4 ≤ stop then .ok (high <<< 32 ||| machReadFrom buf p 4, p + 4) else .error .null
        | .error e => .error e
      else .error .null := by
  simp only [machU64ParseCompressed, bind_run, get_run, ensure_run]
  by_cases h5 : ptr + 5 ≤ stop
  · simp only [if_pos h5]
    rcases machReadNextCompressed buf ptr with e | ⟨high, p⟩
    · rfl
    · by_cases h4 : p + 4 ≤ stop <;> simp [h4]
  · simp only [if_neg h5]

theorem machU64ParseCompressed_of_canonical (hc : Canonical buf ptr) :
    machU64ParseCompressed buf stop ptr =
      if ptr + compressedLen (machReadFrom buf ptr 1) + 4 ≤ stop then
        .ok (compressedValue buf ptr <<< 32 |||
            machReadFrom buf (ptr + compressedLen (machReadFrom buf ptr 1)) 4,
          ptr + compressedLen (machReadFrom buf ptr 1) + 4)
      else .error .null := by
  have hl := compressedLen_pos (machReadFrom buf ptr 1)
  rw [machU64ParseCompressed_eq, machReadNextCompressed_eq, if_pos hc]
  dsimp only
  by_cases hw : ptr + compressedLen (machReadFrom buf ptr 1) + 4 ≤ stop
  · rw [if_pos (by omega), if_pos hw]
  · rw [if_neg hw]
    split_ifs <;> rfl

theorem machReadNextCompressed_congr {buf' : List UInt8}
    (h : ∀ i, ptr ≤ i → i < ptr + compressedLen (machReadFrom buf ptr 1) →
      buf'.getD i 0 = buf.getD i 0) :
    machReadNextCompressed buf' ptr = machReadNextCompressed buf ptr := by
  have hw : ∀ a w, ptr ≤ a → a + w ≤ ptr + compressedLen (machReadFrom buf ptr 1) →
      machReadFrom buf' a w = machReadFrom buf a w :=
    fun a w ha haw => machReadFrom_congr fun i hi hi' => h i (by omega) (by omega)
  have h1 := hw ptr 1 le_rfl (by have := compressedLen_pos (machReadFrom buf ptr 1); omega)
  obtain ⟨b0, hb⟩ : ∃ b0, machReadFrom buf ptr 1 = b0 := ⟨_, rfl⟩
  rw [hb] at hw h1
  simp only [machReadNextCompressed, compressedForm, h1, hb]
  by_cases h1 : b0 < 0x80
  · simp only [if_pos h1]
  by_cases h2 : b0 < 0xC0
  · simp only [if_neg h1, if_pos h2, hw ptr 2 le_rfl (by simp [compressedLen, h1, h2])]
  by_cases h3 : b0 < 0xE0
  · simp only [if_neg h1, if_neg h2, if_pos h3, hw ptr 3 le_rfl (by simp [compressedLen, h1, h2, h3])]
  by_cases h4 : b0 < 0xF0
  · simp only [if_neg h1, if_neg h2, if_neg h3, if_pos h4,
      hw ptr 4 le_rfl (by simp [compressedLen, h1, h2, h3, h4])]
  · simp only [if_neg h1, if_neg h2, if_neg h3, if_neg h4,
      hw (ptr + 1) 4 (by omega) (by simp [compressedLen, h1, h2, h3, h4])]

theorem machParseCompressed_congr {buf' : List UInt8}
    (h : ∀ i, ptr ≤ i → i < stop → buf'.getD i 0 = buf.getD i 0) :
    machParseCompressed buf' stop ptr = machParseCompressed buf stop ptr := by
  rw [machParseCompressed_eq, machParseCompressed_eq]
  by_cases hs : ptr < stop
  · have h1 : machReadFrom buf' ptr 1 = machReadFrom buf ptr 1 :=
      machReadFrom_congr fun i hi hi' => h i hi (by omega)
    rw [h1]
    split_ifs with hl
    · exact machReadNextCompressed_congr fun i hi hi' => h i hi (by omega)
    · rfl
    · rfl
  · have hl := compressedLen_pos (machReadFrom buf ptr 1)
    have hl' := compressedLen_pos (machReadFrom buf' ptr 1)
    rw [if_neg (by omega), if_neg (by omega), if_neg (by omega), if_neg (by omega)]

theorem machU64ParseCompressed_congr {buf' : List UInt8}
    (h : ∀ i, ptr ≤ i → i < stop → buf'.getD i 0 = buf.getD i 0) :
    machU64ParseCompressed buf' stop ptr = machU64ParseCompressed buf stop ptr := by
  rw [machU64ParseCompressed_eq, machU64ParseCompressed_eq]
  by_cases h5 : ptr + 5 ≤ stop
  · have hl := compressedLen_le (machReadFrom buf ptr 1)
    rw [if_pos h5, if_pos h5,
      machReadNextCompressed_congr fun i hi hi' => h i hi (by omega), machReadNextCompressed_eq]
    by_cases hc : Canonical buf ptr
    · rw [if_pos hc]
      dsimp only
      split_ifs
      · rw [machReadFrom_congr fun i hi hi' => h i (by omega) (by omega)]
      · rfl
    · rw [if_neg hc]
  · rw [if_neg h5, if_neg h5]

end Compressed

/-- The two bounded decoders read a compressed integer as the unbounded one does, once its
form lies before `end_ptr`, and answer null exactly when it does not; neither looks outside
`[ptr, end_ptr)`. This holds for the forms `mach_write_compressed` writes: on a longer form
than its value needs, or a first byte above `0xF0`, they stop at an assert. -/
theorem compressed_decoders_agree (buf : List UInt8) (stop ptr : Nat) :
    (Canonical buf ptr →
      (machParseCompressed buf stop ptr = .error .null ↔
        stop < ptr + compressedLen (machReadFrom buf ptr 1)) ∧
      (ptr + compressedLen (machReadFrom buf ptr 1) ≤ stop →
        machParseCompressed buf stop ptr =
            .ok (compressedValue buf ptr, ptr + compressedLen (machReadFrom buf ptr 1)) ∧
          machReadNextCompressed buf ptr = machParseCompressed buf stop ptr) ∧
      (machU64ParseCompressed buf stop ptr = .error .null ↔
        stop < ptr + compressedLen (machReadFrom buf ptr 1) + 4) ∧
      (ptr + compressedLen (machReadFrom buf ptr 1) + 4 ≤ stop →
        machU64ParseCompressed buf stop ptr =
          .ok (compressedValue buf ptr <<< 32 |||
              machReadFrom buf (ptr + compressedLen (machReadFrom buf ptr 1)) 4,
            ptr + compressedLen (machReadFrom buf ptr 1) + 4))) ∧
    (¬ Canonical buf ptr → ptr + compressedLen (machReadFrom buf ptr 1) ≤ stop →
      machParseCompressed buf stop ptr = .error .abort ∧
        machReadNextCompressed buf ptr = .error .abort) ∧
    ∀ buf' : List UInt8, (∀ i, ptr ≤ i → i < stop → buf'.getD i 0 = buf.getD i 0) →
      machParseCompressed buf' stop ptr = machParseCompressed buf stop ptr ∧
        machU64ParseCompressed buf' stop ptr = machU64ParseCompressed buf stop ptr := by
  refine ⟨fun hc => ⟨?_, fun hw => ?_, ?_, fun hw => ?_⟩, fun hc hw => ?_, fun buf' h =>
    ⟨machParseCompressed_congr h, machU64ParseCompressed_congr h⟩⟩
  · rw [machParseCompressed_eq]
    by_cases hw : ptr + compressedLen (machReadFrom buf ptr 1) ≤ stop
    · rw [if_pos hw, machReadNextCompressed_eq, if_pos hc]
      simp only [reduceCtorEq, false_iff]
      omega
    · -- a canonical first byte passes the assert on `0xF0`
      rw [if_neg hw, if_neg fun h => absurd hc.1 (by omega)]
      simp only [true_iff]
      omega
  · rw [machParseCompressed_eq, if_pos hw, machReadNextCompressed_eq, if_pos hc]
    exact ⟨rfl, rfl⟩
  · rw [machU64ParseCompressed_of_canonical hc]
    split_ifs with hw
    · simp only [false_iff]
      omega
    · simp only [true_iff]
      omega
  · rw [machU64ParseCompressed_of_canonical hc, if_pos hw]
  · rw [machParseCompressed_eq, if_pos hw, machReadNextCompressed_eq, if_neg hc]
    exact ⟨rfl, rfl⟩

/-- A two-byte form of a value that fits in one byte: both decoders stop at the assert
instead of returning it. -/
theorem machParseCompressed_long_form_aborts :
    compressedLen (machReadFrom [0x80, 0x05] 0 1) = 2 ∧ compressedValue [0x80, 0x05] 0 = 5 ∧
      machParseCompressed [0x80, 0x05] 2 0 = .error .abort ∧
      machReadNextCompressed [0x80, 0x05] 0 = .error .abort := by
  decide

end LogDB
