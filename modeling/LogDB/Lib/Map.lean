import Mathlib.Data.List.AList
import Mathlib.Logic.Function.Basic

/-!
Finite maps as the C++ containers use them: a map of maps updated at one key
pair (`m[a][b] = v`, `m[a].erase(b)`), and association lists whose value at a present key is
replaced in place (`m[a]->push_back(v)`).
-/

namespace LogDB.Lib

variable {α β γ : Type*} [DecidableEq α] [DecidableEq β]

/-- Set the entry at `(a, b)` of a map of maps. -/
def update₂ (m : α → β → γ) (a : α) (b : β) (v : γ) : α → β → γ :=
  Function.update m a (Function.update (m a) b v)

@[simp] theorem update₂_apply (m : α → β → γ) (a : α) (b : β) (v : γ) (a' : α) (b' : β) :
    update₂ m a b v a' b' = if a' = a ∧ b' = b then v else m a' b' := by
  by_cases ha : a' = a
  · subst ha
    by_cases hb : b' = b <;> simp [update₂, hb]
  · simp [update₂, ha]

section Replace

variable {δ : Type*}

theorem dlookup_kreplace (a a' : α) (b : δ) (l : List (Sigma fun _ : α => δ)) :
    (l.kreplace a b).dlookup a' = if a' = a ∧ a ∈ l.keys then some b else l.dlookup a' := by
  induction l with
  | nil => simp [List.kreplace]
  | cons x l ih =>
    obtain ⟨k, v⟩ := x
    by_cases hk : a = k
    · subst hk
      have hr : List.kreplace a b (⟨a, v⟩ :: l) = ⟨a, b⟩ :: l := by
        simp [List.kreplace, List.lookmap_cons_some]
      by_cases ha : a' = a
      · subst ha
        simp [hr]
      · simp [hr, ha]
    · have hr : List.kreplace a b (⟨k, v⟩ :: l) = ⟨k, v⟩ :: l.kreplace a b := by
        simp [List.kreplace, List.lookmap_cons_none, hk]
      by_cases ha : a' = k
      · subst ha
        simp [hr, Ne.symm hk]
      · simp [hr, ha, ih, hk]

theorem lookup_replace (a a' : α) (b : δ) (s : AList fun _ : α => δ) :
    (s.replace a b).lookup a' = if a' = a ∧ a ∈ s then some b else s.lookup a' := by
  simp only [AList.mem_keys]
  exact dlookup_kreplace a a' b s.entries

end Replace

end LogDB.Lib
