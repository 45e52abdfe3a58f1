import Mathlib.Data.List.Nodup
import Mathlib.Data.List.Perm.Subperm

/-!
Linked lists laid out in memory. A node's successor is read through `next`, which answers
`none` where the program would follow a null pointer or stop at an assert; a list `l`
lists nodes that `next` links one after the other. The loops that walk such a list are
bounded by a fuel argument: the lemmas below show how far a walk along a linked list gets
within its fuel, so that a program whose walks take fewer steps than the fuel never runs
out of it.
-/

namespace LogDB.Lib

variable {α : Type*}

/-- Each node of `l` is linked by `next` to the one after it. -/
def Linked (next : α → Option α) (l : List α) : Prop :=
  ∀ i (h : i + 1 < l.length), next l[i] = some l[i + 1]

/-- `while (!p(x)) x = next(x);`, for at most `fuel` turns. -/
def walkUntil (next : α → Option α) (p : α → Bool) : Nat → α → Option α
  | 0, _ => none
  | fuel + 1, x => if p x then some x else (next x).bind (walkUntil next p fuel)

/-- `while (x != target) { prev = x; x = next(x); }`, for at most `fuel` turns: the last
`prev`. -/
def walkPrev [DecidableEq α] (next : α → Option α) (target : α) :
    Nat → Option α → α → Option (Option α)
  | 0, _, _ => none
  | fuel + 1, prev, x => if x = target then some prev else (next x).bind (walkPrev next target fuel (some x))

/-- `while (!p(x)) { n++; x = next(x); }`, for at most `fuel` turns: where the walk stops, and
`n`. -/
def walkCount (next : α → Option α) (p : α → Bool) : Nat → α → Nat → Option (α × Nat)
  | 0, _, _ => none
  | fuel + 1, x, n => if p x then some (x, n) else (next x).bind fun x => walkCount next p fuel x (n + 1)

/-- The first of `top`, `top - 1`, ..., `0` where `p` holds. -/
def searchDown (p : Nat → Bool) : Nat → Option Nat
  | 0 => if p 0 then some 0 else none
  | j + 1 => if p (j + 1) then some (j + 1) else searchDown p j

section Walk

variable {next : α → Option α} {l : List α}

/-- A walk from the `i`-th node stops at the first node from there on where `p` holds. -/
theorem walkUntil_linked (hl : Linked next l) {p : α → Bool} {i j fuel : Nat}
    (hij : i ≤ j) (hj : j < l.length) (hskip : ∀ k (hk : k < l.length), i ≤ k → k < j → p l[k] = false)
    (hp : p l[j] = true) (hfuel : j - i < fuel) :
    walkUntil next p fuel l[i] = some l[j] := by
  induction fuel generalizing i with
  | zero => omega
  | succ fuel ih =>
      rw [walkUntil]
      by_cases hi : i = j
      · subst hi
        rw [if_pos hp]
      · -- the `i`-th node is skipped, and the walk goes on from its successor
        rw [if_neg (by rw [hskip i (by omega) (Nat.le_refl _) (by omega)]; decide),
          hl i (by omega), Option.bind_some]
        exact ih (by omega) (fun k hk h1 h2 => hskip k hk (by omega) h2) (by omega)

/-- A walk from the `i`-th node to the `j`-th, on a list without repetition, ends with the
node before the `j`-th as its last `prev`. -/
theorem walkPrev_linked [DecidableEq α] (hl : Linked next l) (hnd : l.Nodup) {i j fuel : Nat}
    {prev : Option α} (hij : i < j) (hj : j < l.length) (hfuel : j - i < fuel) :
    walkPrev next l[j] fuel prev l[i] = some (some l[j - 1]) := by
  induction fuel generalizing i prev with
  | zero => omega
  | succ fuel ih =>
      have hne : l[i] ≠ l[j] := fun h => by
        have := (List.Nodup.getElem_inj_iff hnd).mp h
        omega
      rw [walkPrev, if_neg hne, hl i (by omega), Option.bind_some]
      by_cases hi : i + 1 = j
      · subst hi
        cases fuel with
        | zero => omega
        | succ fuel => rw [walkPrev, if_pos rfl]; rfl
      · exact ih (by omega) (by omega)

end Walk

/-- A search down from `top` finds the highest index where `p` holds. -/
theorem searchDown_eq {p : Nat → Bool} {i top : Nat} (hi : i ≤ top) (hp : p i = true)
    (habove : ∀ j, i < j → j ≤ top → p j = false) : searchDown p top = some i := by
  induction top with
  | zero =>
      obtain rfl : i = 0 := by omega
      rw [searchDown, if_pos hp]
  | succ top ih =>
      rw [searchDown]
      by_cases h : i = top + 1
      · subst h
        rw [if_pos hp]
      · rw [if_neg (by rw [habove (top + 1) (by omega) (Nat.le_refl _)]; decide)]
        exact ih (by omega) fun j h1 h2 => habove j h1 (by omega)

theorem length_le_of_nodup_lt {l : List Nat} {n : Nat} (hnd : l.Nodup) (hlt : ∀ x ∈ l, x < n) :
    l.length ≤ n := by
  have h := (hnd.subperm fun x hx => List.mem_range.mpr (hlt x hx)).length_le
  rwa [List.length_range] at h

end LogDB.Lib
