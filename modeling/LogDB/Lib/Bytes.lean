import Mathlib.Algebra.Order.Group.Nat
import Mathlib.Logic.Function.Basic
import Mathlib.Data.Set.Function
import Mathlib.Order.Interval.Set.Basic

/-!
Byte memories. A memory is a total map from addresses to bytes; `readBE m a n`
reads the `n` bytes at `a`, most significant first, and `writeBE m a n v` stores
the low `8 * n` bits of `v` there; `writeBytes`, `fillBytes` and `copyBytes` are
`memcpy` of a list of bytes, `memset` and `memmove`. The lemmas are the ones a store-then-load argument needs: what a write
leaves alone, what a read after a write sees, and that a read only looks at its
own bytes.
-/

namespace LogDB.Lib

/-- The `n` bytes at `a`, most significant first, as a number. -/
def readBE (m : Nat → UInt8) (a : Nat) : Nat → Nat
  | 0 => 0
  | n + 1 => (m a).toNat * 256 ^ n + readBE m (a + 1) n

/-- Store the low `8 * n` bits of `v` in the `n` bytes at `a`, most significant first. -/
def writeBE (m : Nat → UInt8) (a : Nat) : Nat → Nat → Nat → UInt8
  | 0, _ => m
  | n + 1, v => writeBE (Function.update m a (UInt8.ofNat (v / 256 ^ n))) (a + 1) n v

@[simp] theorem readBE_zero (m : Nat → UInt8) (a : Nat) : readBE m a 0 = 0 := rfl

@[simp] theorem writeBE_zero (m : Nat → UInt8) (a v : Nat) : writeBE m a 0 v = m := rfl

theorem readBE_lt (m : Nat → UInt8) (a n : Nat) : readBE m a n < 256 ^ n := by
  induction n generalizing a with
  | zero => simp
  | succ n ih =>
      have hb := (m a).toNat_lt
      have hr := ih (a + 1)
      have hb' : (m a).toNat + 1 ≤ 256 := hb
      calc (m a).toNat * 256 ^ n + readBE m (a + 1) n
          < (m a).toNat * 256 ^ n + 256 ^ n := by omega
        _ = ((m a).toNat + 1) * 256 ^ n := (Nat.succ_mul _ _).symm
        _ ≤ 256 * 256 ^ n := Nat.mul_le_mul_right _ hb'
        _ = 256 ^ (n + 1) := (Nat.pow_succ' ).symm

/-- A read sees only the bytes it covers: the same bytes `k` places further on give the same
value. -/
theorem readBE_shift {m m' : Nat → UInt8} {a n k : Nat}
    (h : ∀ i, a ≤ i → i < a + n → m i = m' (i + k)) : readBE m a n = readBE m' (a + k) n := by
  induction n generalizing a with
  | zero => rfl
  | succ n ih =>
      simp only [readBE]
      rw [h a le_rfl (by omega), ih (fun i h1 h2 => h i (by omega) (by omega)),
        Nat.add_right_comm]

theorem readBE_congr {m m' : Nat → UInt8} {a n : Nat}
    (h : ∀ i, a ≤ i → i < a + n → m i = m' i) : readBE m a n = readBE m' a n :=
  readBE_shift (k := 0) h

theorem writeBE_of_not_mem {m : Nat → UInt8} {a n v i : Nat} (h : i < a ∨ a + n ≤ i) :
    writeBE m a n v i = m i := by
  induction n generalizing m a with
  | zero => rfl
  | succ n ih =>
      simp only [writeBE]
      rw [ih (by omega), Function.update_of_ne (by omega)]

theorem readBE_writeBE_other {m : Nat → UInt8} {a n b k v : Nat}
    (h : b + k ≤ a ∨ a + n ≤ b) : readBE (writeBE m a n v) b k = readBE m b k :=
  readBE_congr fun _ h1 h2 => writeBE_of_not_mem (by omega)

theorem readBE_writeBE_self (m : Nat → UInt8) (a n v : Nat) :
    readBE (writeBE m a n v) a n = v % 256 ^ n := by
  induction n generalizing m a with
  | zero => simp [Nat.mod_one]
  | succ n ih =>
      simp only [writeBE, readBE]
      rw [ih, writeBE_of_not_mem (by omega), Function.update_self, UInt8.toNat_ofNat']
      rw [show (2 : Nat) ^ 8 = 256 from rfl, Nat.pow_succ, Nat.mod_mul, Nat.add_comm,
        Nat.mul_comm (256 ^ n)]

/-- Store `bs` at `a`, one byte after another. -/
def writeBytes (m : Nat → UInt8) (a : Nat) : List UInt8 → Nat → UInt8
  | [] => m
  | b :: bs => writeBytes (Function.update m a b) (a + 1) bs

/-- Set the `n` bytes at `a` to `b`. -/
def fillBytes (m : Nat → UInt8) (a n : Nat) (b : UInt8) : Nat → UInt8 :=
  fun i => if a ≤ i ∧ i < a + n then b else m i

/-- `memmove` of the `n` bytes of `src` at `b` to `a`: every byte is read before any is
written, so `src` may be `m` itself. -/
def copyBytes (m : Nat → UInt8) (a : Nat) (src : Nat → UInt8) (b n : Nat) : Nat → UInt8 :=
  fun i => if a ≤ i ∧ i < a + n then src (b + (i - a)) else m i

theorem writeBytes_of_not_mem (m : Nat → UInt8) (a : Nat) (bs : List UInt8) {i : Nat}
    (h : i < a ∨ a + bs.length ≤ i) : writeBytes m a bs i = m i := by
  induction bs generalizing m a with
  | nil => rfl
  | cons b bs ih =>
    simp only [List.length_cons] at h
    rw [writeBytes, ih _ _ (by omega), Function.update_of_ne (by omega)]

theorem writeBytes_of_mem (m : Nat → UInt8) (a : Nat) (bs : List UInt8) {i : Nat}
    (h1 : a ≤ i) (h2 : i < a + bs.length) : writeBytes m a bs i = bs[i - a] := by
  induction bs generalizing m a with
  | nil => simp at h2; omega
  | cons b bs ih =>
    simp only [List.length_cons] at h2
    rw [writeBytes]
    by_cases hi : i = a
    · subst hi
      rw [writeBytes_of_not_mem _ _ _ (by omega), Function.update_self]
      simp only [Nat.sub_self, List.getElem_cons_zero]
    · obtain ⟨k, rfl⟩ : ∃ k, i = a + 1 + k := ⟨i - (a + 1), by omega⟩
      rw [ih _ _ (by omega) (by omega)]
      simp only [show a + 1 + k - a = k + 1 by omega, show a + 1 + k - (a + 1) = k by omega,
        List.getElem_cons_succ]

/-! ### Frames

`Set.EqOn m' m sᶜ`: the memory `m'` differs from `m` at most at the addresses in `s`. -/

theorem writeBE_eqOn (m : Nat → UInt8) (a n v : Nat) :
    Set.EqOn (writeBE m a n v) m (Set.Ico a (a + n))ᶜ := fun _ hi => by
  simp only [Set.mem_compl_iff, Set.mem_Ico, not_and_or, not_le, not_lt] at hi
  exact writeBE_of_not_mem (by omega)

theorem writeBytes_eqOn (m : Nat → UInt8) (a : Nat) (bs : List UInt8) :
    Set.EqOn (writeBytes m a bs) m (Set.Ico a (a + bs.length))ᶜ := fun _ hi => by
  simp only [Set.mem_compl_iff, Set.mem_Ico, not_and_or, not_le, not_lt] at hi
  exact writeBytes_of_not_mem _ _ _ (by omega)

theorem update_eqOn (m : Nat → UInt8) (a : Nat) (b : UInt8) :
    Set.EqOn (Function.update m a b) m {a}ᶜ := fun _ hi =>
  Function.update_of_ne hi _ _

theorem eqOn_compl_union {m m₁ m₂ : Nat → UInt8} {s t : Set Nat} (h₂ : Set.EqOn m₂ m₁ tᶜ)
    (h₁ : Set.EqOn m₁ m sᶜ) : Set.EqOn m₂ m (s ∪ t)ᶜ :=
  (h₂.mono (Set.compl_subset_compl.mpr Set.subset_union_right)).trans
    (h₁.mono (Set.compl_subset_compl.mpr Set.subset_union_left))

end LogDB.Lib
