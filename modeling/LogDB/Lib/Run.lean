import Mathlib.Logic.Relation

/-!
Runs of a partial step function. A step answers `none` when its action cannot
finish from the state it is given: the caller blocks for ever, or the program
stops on a failed assertion. The states a program can be observed in are the
ends of finished runs; an invariant is proved once for a step function, by
`reachable_induction`, and then holds along every run.
-/

namespace LogDB.Lib

variable {σ α β : Type*}

/-- Some action takes `s` to `t` and finishes. -/
def Steps (step : σ → α → Option σ) (s t : σ) : Prop := ∃ a, step s a = some t

/-- The states reached from `init` by finished steps. -/
def Reachable (step : σ → α → Option σ) (init : σ) : σ → Prop :=
  Relation.ReflTransGen (Steps step) init

section
variable {step : σ → α → Option σ} {init s t : σ} {a : α}

theorem Reachable.refl : Reachable step init init := Relation.ReflTransGen.refl

theorem Reachable.tail (h : Reachable step init s) (hs : step s a = some t) :
    Reachable step init t :=
  Relation.ReflTransGen.tail h ⟨a, hs⟩

/-- An invariant of the initial state that every finished step keeps holds in every
reachable state. -/
theorem reachable_induction {P : σ → Prop} (h0 : P init)
    (hstep : ∀ s a t, P s → step s a = some t → P t) (h : Reachable step init s) : P s := by
  induction h with
  | refl => exact h0
  | tail _ hst ih =>
      obtain ⟨a, ha⟩ := hst
      exact hstep _ a _ ih ha

/-- A map under which every step of one system is a step of another or no step at all
carries the reachable states of the first into those of the second. -/
theorem Reachable.map {τ γ : Type*} {step' : τ → γ → Option τ} {f : σ → τ}
    (hf : ∀ s a t, step s a = some t → f t = f s ∨ Steps step' (f s) (f t))
    (h : Reachable step init s) : Reachable step' (f init) (f s) := by
  induction h with
  | refl => exact Relation.ReflTransGen.refl
  | tail _ hst ih =>
      obtain ⟨a, ha⟩ := hst
      rcases hf _ a _ ha with heq | hs
      · rw [heq]
        exact ih
      · exact Relation.ReflTransGen.tail ih hs

theorem Reachable.mono {step' : σ → α → Option σ}
    (hst : ∀ s a t, step s a = some t → step' s a = some t) (h : Reachable step init s) :
    Reachable step' init s :=
  Reachable.map (f := id) (fun s a t ht => .inr ⟨a, hst s a t ht⟩) h

/-- The end of a finished run is reachable from its start. -/
theorem reachable_of_foldlM :
    ∀ {as : List α} {s t : σ}, Reachable step init s → as.foldlM step s = some t →
      Reachable step init t
  | [], s, t, hs, h => by
      simp only [List.foldlM_nil] at h
      cases h
      exact hs
  | a :: as, s, t, hs, h => by
      rw [List.foldlM_cons] at h
      cases hsa : step s a with
      | none => simp [hsa] at h
      | some s' =>
          rw [hsa] at h
          exact reachable_of_foldlM (hs.tail hsa) h

/-- A run from a reachable state whose end is observed as `b` ends in a reachable state
observed as `b`. -/
theorem exists_reachable_of_foldlM {g : σ → β} {as : List α} {b : β}
    (hs : Reachable step init s) (h : (as.foldlM step s).map g = some b) :
    ∃ t, Reachable step init t ∧ g t = b := by
  cases hr : as.foldlM step s with
  | none => simp [hr] at h
  | some t =>
      rw [hr, Option.map_some] at h
      exact ⟨t, reachable_of_foldlM hs hr, Option.some.inj h⟩

end

theorem foldlM_map {τ : Type*} {f : σ → α → Option σ} {g : τ → α → Option τ} {π : σ → τ}
    (h : ∀ s a, (f s a).map π = g (π s) a) :
    ∀ (l : List α) (s : σ), (l.foldlM f s).map π = l.foldlM g (π s)
  | [], _ => rfl
  | a :: l, s => by
      rw [List.foldlM_cons, List.foldlM_cons, ← h s a]
      cases f s a with
      | none => rfl
      | some t => exact foldlM_map h l t

/-! ### Runs with a history -/

/-- A step that also appends to a history what `out` observes of the state and the action it
starts from: the calls a run makes to a component it does not model as a state. -/
def traced (step : σ → α → Option σ) (out : σ → α → List β) (p : σ × List β) (a : α) :
    Option (σ × List β) :=
  (step p.1 a).map fun t => (t, p.2 ++ out p.1 a)

section
variable {step : σ → α → Option σ} {out : σ → α → List β}

theorem traced_eq_some {p q : σ × List β} {a : α} :
    traced step out p a = some q ↔ ∃ t, step p.1 a = some t ∧ q = (t, p.2 ++ out p.1 a) := by
  simp only [traced, Option.map_eq_some_iff]
  constructor <;> rintro ⟨t, ht, rfl⟩ <;> exact ⟨t, ht, rfl⟩

theorem traced_mono {step' : σ → α → Option σ}
    (hst : ∀ s a t, step s a = some t → step' s a = some t) {p q : σ × List β} {a : α}
    (h : traced step out p a = some q) : traced step' out p a = some q := by
  obtain ⟨t, ht, rfl⟩ := traced_eq_some.mp h
  exact traced_eq_some.mpr ⟨t, hst _ _ _ ht, rfl⟩

theorem foldlM_traced_of_out_nil {as : List α} (hout : ∀ s, ∀ a ∈ as, out s a = [])
    (s : σ) (h₀ : List β) :
    as.foldlM (traced step out) (s, h₀) = (as.foldlM step s).map (·, h₀) := by
  induction as generalizing s with
  | nil => rfl
  | cons a as ih =>
      have hstep : traced step out (s, h₀) a = (step s a).map (·, h₀) := by
        simp [traced, hout s a List.mem_cons_self]
      rw [List.foldlM_cons, List.foldlM_cons, hstep]
      cases step s a with
      | none => rfl
      | some t => exact ih (fun s' a' ha' => hout s' a' (List.mem_cons_of_mem a ha')) t

/-- Every run has a history: recording what the steps hand out restricts no run. -/
theorem Reachable.exists_traced {init s : σ} (h : Reachable step init s) (h₀ : List β) :
    ∃ tr, Reachable (traced step out) (init, h₀) (s, tr) := by
  induction h with
  | refl => exact ⟨h₀, Reachable.refl⟩
  | tail _ hst ih =>
      obtain ⟨a, ha⟩ := hst
      obtain ⟨tr, htr⟩ := ih
      exact ⟨_, htr.tail (a := a) (traced_eq_some.mpr ⟨_, ha, rfl⟩)⟩

end

end LogDB.Lib
