import Mathlib.Logic.Basic

/-!
Decoders over a byte buffer in the style of C parsing code: the state is the read
position, a decoder stops with `null` when the buffer ends before what it has to read
(the C routine returns `nullptr`), and with `abort` when an `assert` fails.
-/

namespace LogDB.Lib

inductive Fail where
  | null
  | abort
  deriving DecidableEq, Repr

abbrev Decoder (α : Type) := StateT Nat (Except Fail) α

namespace Decoder

variable {α β : Type}

def fail (e : Fail) : Decoder α := fun _ => .error e

/-- Stop with `e` unless `c` holds. -/
def ensure (c : Prop) [Decidable c] (e : Fail) : Decoder Unit := fun ptr =>
  if c then .ok ((), ptr) else .error e

def skip (k : Nat) : Decoder Unit := fun ptr => .ok ((), ptr + k)

/-- Move past `k` bytes, which must all lie before `stop`; stop with `e` otherwise. -/
def consume (stop k : Nat) (e : Fail) : Decoder Unit := fun ptr =>
  if ptr + k ≤ stop then .ok ((), ptr + k) else .error e

/-- A nested routine whose `nullptr` the caller tests for. -/
def orNull (d : Decoder α) : Decoder (Option α) := fun ptr =>
  match d ptr with
  | .ok (a, ptr') => .ok (some a, ptr')
  | .error .null => .ok (none, ptr)
  | .error .abort => .error .abort

/-- `d`, with the `nullptr` it returns taken for `e`: `assert(ptr != nullptr)` after it for
`e = abort`. -/
def onNull (e : Fail) (d : Decoder α) : Decoder α := fun ptr =>
  match d ptr with
  | .error .null => .error e
  | r => r

/-- A computation on other data than the buffer, whose `none` is a failed assert. -/
def ofOption (o : Option α) : Decoder α := fun ptr =>
  match o with
  | some a => .ok (a, ptr)
  | none => .error .abort

@[simp] theorem fail_run (e : Fail) (ptr : Nat) : (fail e : Decoder α) ptr = .error e := rfl

@[simp] theorem ensure_run (c : Prop) [Decidable c] (e : Fail) (ptr : Nat) :
    ensure c e ptr = if c then .ok ((), ptr) else .error e := rfl

@[simp] theorem skip_run (k ptr : Nat) : skip k ptr = .ok ((), ptr + k) := rfl

@[simp] theorem consume_run (stop k : Nat) (e : Fail) (ptr : Nat) :
    consume stop k e ptr = if ptr + k ≤ stop then .ok ((), ptr + k) else .error e := rfl

@[simp] theorem get_run (ptr : Nat) : (get : Decoder Nat) ptr = .ok (ptr, ptr) := rfl

@[simp] theorem pure_run (a : α) (ptr : Nat) : (pure a : Decoder α) ptr = .ok (a, ptr) := rfl

@[simp] theorem ofOption_some (a : α) (ptr : Nat) : ofOption (some a) ptr = .ok (a, ptr) := rfl

@[simp] theorem ofOption_none (ptr : Nat) : (ofOption none : Decoder α) ptr = .error .abort := rfl

theorem onNull_of_null {e : Fail} {d : Decoder α} {ptr : Nat} (h : d ptr = .error .null) :
    onNull e d ptr = .error e := by
  simp only [onNull, h]

theorem bind_run (d : Decoder α) (f : α → Decoder β) (ptr : Nat) :
    (d >>= f) ptr = match d ptr with
      | .ok (a, ptr') => f a ptr'
      | .error e => .error e := by
  show (StateT.bind d f) ptr = _
  simp only [StateT.bind, bind, Except.bind]
  rcases d ptr with e | ⟨a, ptr'⟩ <;> rfl

theorem bind_run_ok {d : Decoder α} {a : α} {ptr ptr' : Nat} (h : d ptr = .ok (a, ptr'))
    (f : α → Decoder β) : (d >>= f) ptr = f a ptr' := by
  rw [bind_run, h]

theorem bind_run_error {d : Decoder α} {e : Fail} {ptr : Nat} (h : d ptr = .error e)
    (f : α → Decoder β) : (d >>= f) ptr = .error e := by
  rw [bind_run, h]

theorem ensure_ok {c : Prop} [Decidable c] {e : Fail} {ptr p : Nat} {u : Unit}
    (h : ensure c e ptr = .ok (u, p)) : c ∧ p = ptr := by
  by_cases hc : c
  · simp only [ensure_run, if_pos hc, Except.ok.injEq, Prod.mk.injEq] at h
    exact ⟨hc, h.2.symm⟩
  · simp [hc] at h

theorem consume_ok {stop k : Nat} {e : Fail} {ptr p : Nat} {u : Unit}
    (h : consume stop k e ptr = .ok (u, p)) : ptr + k ≤ stop ∧ p = ptr + k := by
  by_cases hc : ptr + k ≤ stop
  · simp only [consume_run, if_pos hc, Except.ok.injEq, Prod.mk.injEq] at h
    exact ⟨hc, h.2.symm⟩
  · simp [hc] at h

theorem bind_ok {d : Decoder α} {f : α → Decoder β} {b : β} {ptr p : Nat}
    (h : (d >>= f) ptr = .ok (b, p)) : ∃ a q, d ptr = .ok (a, q) ∧ f a q = .ok (b, p) := by
  rw [bind_run] at h
  rcases hd : d ptr with e | ⟨a, q⟩
  · rw [hd] at h
    cases h
  · rw [hd] at h
    exact ⟨a, q, rfl, h⟩

theorem get_bind_run (f : Nat → Decoder α) (ptr : Nat) :
    (MonadState.get >>= f) ptr = f ptr ptr :=
  bind_run_ok (get_run ptr) f

theorem ensure_bind_of {c : Prop} [Decidable c] {e : Fail} (hc : c) (f : Unit → Decoder α) :
    (ensure c e >>= f) = f () := by
  funext ptr
  rw [bind_run_ok (by rw [ensure_run, if_pos hc])]

/-! ### A decoder on a longer input

`Sim k lax R d₁ d₂ ptr` compares `d₁` run at `ptr` with `d₂` run `k` bytes further on, where
the input of `d₂` holds that of `d₁` shifted by `k` and possibly more: `d₁` runs out of input,
or fails an assert that `d₂` fails too (or any assert, when `lax`), or both finish at the same
place, shifted, with values related by `R`. The rules below build it along the binds of a
decoder. -/

def Sim (k : Nat) (lax : Bool) (R : α → β → Prop) (d₁ : Decoder α) (d₂ : Decoder β)
    (ptr : Nat) : Prop :=
  d₁ ptr = .error .null ∨ (d₁ ptr = .error .abort ∧ (lax = true ∨ d₂ (ptr + k) = .error .abort)) ∨
    ∃ a b p, d₁ ptr = .ok (a, p) ∧ d₂ (ptr + k) = .ok (b, p + k) ∧ R a b

namespace Sim

variable {γ δ : Type} {k ptr : Nat} {lax : Bool} {R : α → β → Prop} {S : γ → δ → Prop}
  {d₁ d₁' : Decoder α} {d₂ d₂' : Decoder β}

theorem bind {f₁ : α → Decoder γ} {f₂ : β → Decoder δ} (hd : Sim k lax R d₁ d₂ ptr)
    (hf : ∀ a b p, d₁ ptr = .ok (a, p) → R a b → Sim k lax S (f₁ a) (f₂ b) p) :
    Sim k lax S (d₁ >>= f₁) (d₂ >>= f₂) ptr := by
  rcases hd with h | ⟨h, hl | h'⟩ | ⟨a, b, p, h, h', hab⟩
  · exact .inl (bind_run_error h _)
  · exact .inr (.inl ⟨bind_run_error h _, .inl hl⟩)
  · exact .inr (.inl ⟨bind_run_error h _, .inr (bind_run_error h' _)⟩)
  · unfold Sim
    rw [bind_run_ok h, bind_run_ok h']
    exact hf a b p h hab

theorem pure {a : α} {b : β} (h : R a b) : Sim k lax R (Pure.pure a) (Pure.pure b) ptr :=
  .inr (.inr ⟨a, b, ptr, rfl, rfl, h⟩)

theorem skip (n : Nat) : Sim k lax Eq (Decoder.skip n) (Decoder.skip n) ptr :=
  .inr (.inr ⟨(), (), ptr + n, rfl, by rw [skip_run, Nat.add_right_comm], rfl⟩)

theorem fail (e : Fail) : Sim k lax R (Decoder.fail e) (Decoder.fail e) ptr := by
  cases e with
  | null => exact .inl rfl
  | abort => exact .inr (.inl ⟨rfl, .inr rfl⟩)

theorem ensure {c c' : Prop} [Decidable c] [Decidable c'] (e : Fail) (h : c ↔ c') :
    Sim k lax Eq (Decoder.ensure c e) (Decoder.ensure c' e) ptr := by
  by_cases hc : c
  · exact .inr (.inr ⟨(), (), ptr, by simp [hc], by simp [h.mp hc], rfl⟩)
  · cases e with
    | null => exact .inl (by simp [hc])
    | abort => exact .inr (.inl ⟨by simp [hc], .inr (by simp [mt h.mpr hc])⟩)

theorem ensure_null {c c' : Prop} [Decidable c] [Decidable c'] (h : c → c') :
    Sim k lax Eq (Decoder.ensure c .null) (Decoder.ensure c' .null) ptr := by
  by_cases hc : c
  · exact .inr (.inr ⟨(), (), ptr, by simp [hc], by simp [h hc], rfl⟩)
  · exact .inl (by simp [hc])

/-- Bytes the shorter input holds lie in the longer one; an assert that they are there may
fail on the shorter input alone, which only a lax comparison admits. -/
theorem consume {stop stop' : Nat} (n : Nat) (e : Fail) (he : e = .abort → lax = true)
    (h : stop + k ≤ stop') : Sim k lax Eq (consume stop n e) (consume stop' n e) ptr := by
  by_cases hc : ptr + n ≤ stop
  · exact .inr (.inr ⟨(), (), ptr + n, by simp [hc],
      by rw [consume_run, if_pos (by omega), Nat.add_right_comm], rfl⟩)
  · cases e with
    | null => exact .inl (by simp [hc])
    | abort => exact .inr (.inl ⟨by simp [hc], .inl (he rfl)⟩)

theorem consume_null {stop stop' : Nat} (n : Nat) (h : stop + k ≤ stop') :
    Sim k lax Eq (Decoder.consume stop n .null) (Decoder.consume stop' n .null) ptr :=
  consume n .null (fun h => by cases h) h

theorem ite {c : Prop} {_ : Decidable c} (h : c → Sim k lax R d₁ d₂ ptr)
    (h' : ¬c → Sim k lax R d₁' d₂' ptr) :
    Sim k lax R (if c then d₁ else d₁') (if c then d₂ else d₂') ptr := by
  by_cases hc : c
  · rw [if_pos hc, if_pos hc]
    exact h hc
  · rw [if_neg hc, if_neg hc]
    exact h' hc

theorem of_shift {f : α → β}
    (h : d₁ ptr = .error .null ∨ d₂ (ptr + k) = (d₁ ptr).map fun r => (f r.1, r.2 + k))
    (hR : ∀ a, R a (f a)) : Sim k lax R d₁ d₂ ptr := by
  rcases h with h | h
  · exact .inl h
  · rcases h₁ : d₁ ptr with e | ⟨a, p⟩
    · rw [h₁] at h
      cases e with
      | null => exact .inl h₁
      | abort => exact .inr (.inl ⟨h₁, .inr h⟩)
    · rw [h₁] at h
      exact .inr (.inr ⟨a, f a, p, h₁, h, hR a⟩)

theorem eq_map {f : α → β} (h : Sim k false (fun a b => b = f a) d₁ d₂ ptr) :
    d₁ ptr = .error .null ∨ d₂ (ptr + k) = (d₁ ptr).map fun r => (f r.1, r.2 + k) := by
  rcases h with h | ⟨h, hl | h'⟩ | ⟨a, b, p, h, h', rfl⟩
  · exact .inl h
  · cases hl
  · exact .inr (by rw [h, h']; rfl)
  · exact .inr (by rw [h, h']; rfl)

/-! The rules for a decoder that starts with a primitive. -/

variable {f₁ : Decoder γ} {f₂ : Decoder δ}

theorem get_bind {g₁ : Nat → Decoder γ} {g₂ : Nat → Decoder δ}
    (h : Sim k lax S (g₁ ptr) (g₂ (ptr + k)) ptr) :
    Sim k lax S (MonadState.get >>= g₁) (MonadState.get >>= g₂) ptr := by
  unfold Sim at h ⊢
  rw [bind_run_ok (get_run ptr), bind_run_ok (get_run (ptr + k))]
  exact h

theorem skip_bind (n : Nat) (h : Sim k lax S f₁ f₂ (ptr + n)) :
    Sim k lax S (Decoder.skip n >>= fun _ => f₁) (Decoder.skip n >>= fun _ => f₂) ptr := by
  unfold Sim at h ⊢
  rw [bind_run_ok (skip_run n ptr), bind_run_ok (skip_run n (ptr + k)), Nat.add_right_comm]
  exact h

theorem ensure_bind {c c' : Prop} [Decidable c] [Decidable c'] (e : Fail) (hc : c ↔ c')
    (h : c → Sim k lax S f₁ f₂ ptr) :
    Sim k lax S (Decoder.ensure c e >>= fun _ => f₁) (Decoder.ensure c' e >>= fun _ => f₂) ptr :=
  (Sim.ensure e hc).bind fun _ _ _ hp _ => by
    obtain ⟨hc, rfl⟩ := ensure_ok hp
    exact h hc

theorem ensure_null_bind {c c' : Prop} [Decidable c] [Decidable c'] (hc : c → c')
    (h : c → Sim k lax S f₁ f₂ ptr) :
    Sim k lax S (Decoder.ensure c .null >>= fun _ => f₁)
      (Decoder.ensure c' .null >>= fun _ => f₂) ptr :=
  (Sim.ensure_null hc).bind fun _ _ _ hp _ => by
    obtain ⟨hc, rfl⟩ := ensure_ok hp
    exact h hc

theorem consume_null_bind {stop stop' : Nat} (n : Nat) (hstop : stop + k ≤ stop')
    (h : ptr + n ≤ stop → Sim k lax S f₁ f₂ (ptr + n)) :
    Sim k lax S (Decoder.consume stop n .null >>= fun _ => f₁)
      (Decoder.consume stop' n .null >>= fun _ => f₂) ptr :=
  (Sim.consume_null n hstop).bind fun _ _ _ hp _ => by
    obtain ⟨hn, rfl⟩ := consume_ok hp
    exact h hn

end Sim

end Decoder

end LogDB.Lib
