import Mathlib
import LogDB.Applier.Config
import LogDB.Lib.Map

/-!
`ApplyIndex` of `log_log.h`: the parser appends log entries to the back segment, the apply
scheduler takes the front segment once it is full, and data page readers take the lists of
one page out of every segment.

An `unordered_map` is an association list: a new key goes to the front, an existing key
keeps its place. The iteration order of the map is unspecified in C++, and no result below
depends on the one chosen here. Every method runs under `lock_`, so each is one atomic step;
a method that waits on a condition variable returns `none` while it would wait.
-/

namespace LogDB

open LogDB.Lib

/-- `ApplyIndex::IndexSegment`; `log_len_limit_` is never changed from `APPLY_BATCH_SIZE`. -/
structure IndexSegment where
  totalLogLen : Nat := 0
  indexSegment : AList (fun _ : PageAddress => List LogEntry) := ∅

namespace IndexSegment

def full (s : IndexSegment) : Bool := decide (s.totalLogLen ≥ APPLY_BATCH_SIZE)

/-- The body of `Insert` past its fullness check. -/
def push (s : IndexSegment) (log : LogEntry) : IndexSegment :=
  { totalLogLen := s.totalLogLen + log.logLen
    indexSegment :=
      match s.indexSegment.lookup log.address with
      | none => s.indexSegment.insert log.address [log]
      | some logs => s.indexSegment.replace log.address (logs ++ [log]) }

def insert (s : IndexSegment) (log : LogEntry) : Bool × IndexSegment :=
  if s.full then (false, s) else (true, s.push log)

/-- `ExtractLog`: the list of the page, taken out of the map. -/
def extractLog (s : IndexSegment) (address : PageAddress) :
    Option (List LogEntry) × IndexSegment :=
  (s.indexSegment.lookup address, { s with indexSegment := s.indexSegment.erase address })

def empty (s : IndexSegment) : Bool := s.indexSegment.keys.isEmpty

/-- `Hint`: the pages of the segment and its `total_log_len_`. -/
def hint (s : IndexSegment) : List PageAddress × Nat := (s.indexSegment.keys, s.totalLogLen)

variable {s : IndexSegment} {log : LogEntry}

@[simp] theorem totalLogLen_push : (s.push log).totalLogLen = s.totalLogLen + log.logLen := rfl

theorem lookup_push (a : PageAddress) : (s.push log).indexSegment.lookup a =
    if a = log.address then some ((s.indexSegment.lookup a).getD [] ++ [log])
    else s.indexSegment.lookup a := by
  unfold push
  cases h : s.indexSegment.lookup log.address with
  | none =>
      by_cases ha : a = log.address
      · subst ha
        simp [h]
      · simp [AList.lookup_insert_ne ha, ha]
  | some logs =>
      have hm : log.address ∈ s.indexSegment := AList.lookup_isSome.mp (by simp [h])
      by_cases ha : a = log.address
      · subst ha
        simp [lookup_replace, h, hm]
      · simp [lookup_replace, ha]

theorem push_empty : ({} : IndexSegment).push log = ⟨log.logLen, AList.singleton log.address [log]⟩ := by
  simp [push, AList.insert_empty]

theorem push_singleton {a : PageAddress} {t : Nat} {old : List LogEntry} (h : log.address = a) :
    (⟨t, AList.singleton a old⟩ : IndexSegment).push log =
      ⟨t + log.logLen, AList.singleton a (old ++ [log])⟩ := by
  subst h
  have hl : (AList.singleton log.address old : AList fun _ : PageAddress => List LogEntry).lookup
      log.address = some old := by
    simp [AList.lookup, AList.singleton]
  simp only [push, hl, mk.injEq, true_and]
  apply AList.ext
  simp [AList.replace, AList.singleton, List.kreplace, List.lookmap_cons_some]

/-- A full segment holds the list of some page. -/
def Listed (s : IndexSegment) : Prop := s.full = true → s.indexSegment.keys ≠ []

theorem listed_push : (s.push log).Listed := by
  intro _
  have hmem : log.address ∈ (s.push log).indexSegment := by
    rw [← AList.lookup_isSome, lookup_push, if_pos rfl]
    rfl
  exact List.ne_nil_of_mem (AList.mem_keys.mp hmem)

@[simp] theorem totalLogLen_extractLog (a : PageAddress) :
    (s.extractLog a).2.totalLogLen = s.totalLogLen := rfl

theorem keys_extractLog (a : PageAddress) :
    (s.extractLog a).2.indexSegment.keys = s.indexSegment.keys.erase a :=
  AList.keys_erase a _

end IndexSegment

structure ApplyIndex where
  index : List IndexSegment := []

namespace ApplyIndex

def insertBack (index : ApplyIndex) (log : LogEntry) : ApplyIndex :=
  let segments : List IndexSegment := if index.index.isEmpty then [{}] else index.index
  let segments := if segments.getLast?.any IndexSegment.full then segments ++ [({} : IndexSegment)] else segments
  ⟨segments.modifyLast fun s => (s.insert log).2⟩

def deleteFrontSegment (index : ApplyIndex) : ApplyIndex :=
  match index.index with
  | [] => index
  | s :: rest => if s.empty then ⟨rest⟩ else index

/-- `ExtractFront`: waits while the index is empty. -/
def extractFront (index : ApplyIndex) (address : PageAddress) :
    Option (Option (List LogEntry) × ApplyIndex) :=
  match index.index with
  | [] => none
  | s :: rest =>
      let (res, s) := s.extractLog address
      some (res, deleteFrontSegment ⟨s :: rest⟩)

/-- `ExtractFrontHint`: waits while the index is empty or its front segment is not full. -/
def extractFrontHint (index : ApplyIndex) : Option (List PageAddress × Nat) :=
  match index.index with
  | [] => none
  | s :: _ => if s.full then some s.hint else none

/-- `Search`: the lists of the page from every segment, front to back. No segment is
removed, however many are left empty. -/
def search (index : ApplyIndex) (address : PageAddress) : List (List LogEntry) × ApplyIndex :=
  let found := index.index.map fun s => s.extractLog address
  ((found.map Prod.fst).reduceOption, ⟨found.map Prod.snd⟩)

/-- What the segments of the index hold, by `total_log_len_`. -/
def totalLogLen (index : ApplyIndex) : Nat := (index.index.map IndexSegment.totalLogLen).sum

variable {s : IndexSegment} {log : LogEntry}

theorem full_empty : IndexSegment.full {} = false := by decide

theorem insertBack_nil : (⟨[]⟩ : ApplyIndex).insertBack log = ⟨[({} : IndexSegment).push log]⟩ := by
  simp only [insertBack, List.isEmpty_nil, if_true, List.getLast?_singleton, Option.any_some,
    full_empty, Bool.false_eq_true, if_false]
  rfl

theorem insertBack_of_not_full (pre : List IndexSegment) (hs : s.full = false) :
    (⟨pre ++ [s]⟩ : ApplyIndex).insertBack log = ⟨pre ++ [s.push log]⟩ := by
  simp [insertBack, IndexSegment.insert, hs, List.modifyLast_concat]

theorem insertBack_of_full (pre : List IndexSegment) (hs : s.full = true) :
    (⟨pre ++ [s]⟩ : ApplyIndex).insertBack log = ⟨pre ++ [s, ({} : IndexSegment).push log]⟩ := by
  simp [insertBack, IndexSegment.insert, hs, List.modifyLast_append_of_right_ne_nil]
  rfl

/-- `InsertBack` starts the first segment, pushes to the last one, or starts a new one past
a full last segment. -/
theorem insertBack_cases (index : ApplyIndex) (log : LogEntry) :
    (index.index = [] ∧ index.insertBack log = ⟨[({} : IndexSegment).push log]⟩) ∨
    ∃ pre s, index.index = pre ++ [s] ∧
      (s.full = false ∧ index.insertBack log = ⟨pre ++ [s.push log]⟩ ∨
        s.full = true ∧ index.insertBack log = ⟨pre ++ [s, ({} : IndexSegment).push log]⟩) := by
  obtain ⟨l⟩ := index
  rcases List.eq_nil_or_concat' l with rfl | ⟨pre, s, rfl⟩
  · exact .inl ⟨rfl, insertBack_nil⟩
  · refine .inr ⟨pre, s, rfl, ?_⟩
    cases hs : s.full with
    | false => exact .inl ⟨rfl, insertBack_of_not_full pre hs⟩
    | true => exact .inr ⟨rfl, insertBack_of_full pre hs⟩

theorem totalLogLen_insertBack (index : ApplyIndex) (log : LogEntry) :
    (index.insertBack log).totalLogLen = index.totalLogLen + log.logLen := by
  rcases insertBack_cases index log with ⟨hi, h⟩ | ⟨pre, s, hi, ⟨-, h⟩ | ⟨-, h⟩⟩ <;>
    simp [totalLogLen, h, hi, Nat.add_assoc]

theorem mem_insertBack {index : ApplyIndex} {x : IndexSegment}
    (hx : x ∈ (index.insertBack log).index) :
    x ∈ index.index ∨ ∃ s : IndexSegment, x = s.push log := by
  rcases insertBack_cases index log with ⟨hi, h⟩ | ⟨pre, s, hi, ⟨-, h⟩ | ⟨-, h⟩⟩ <;>
    rw [h] at hx <;> simp only [hi, List.mem_append, List.mem_cons, List.not_mem_nil] at hx ⊢
  · exact .inr ⟨_, hx.resolve_right id⟩
  · rcases hx with hx | hx | hx
    · exact .inl (.inl hx)
    · exact .inr ⟨s, hx⟩
    · exact hx.elim
  · rcases hx with hx | hx | hx | hx
    · exact .inl (.inl hx)
    · exact .inl (.inr (.inl hx))
    · exact .inr ⟨_, hx⟩
    · exact hx.elim

theorem listed_insertBack {index : ApplyIndex} (h : ∀ x ∈ index.index, x.Listed)
    (log : LogEntry) : ∀ x ∈ (index.insertBack log).index, x.Listed := by
  intro x hx
  rcases mem_insertBack hx with hx | ⟨s, rfl⟩
  · exact h x hx
  · exact IndexSegment.listed_push

theorem insertBack_cons_of_full {rest : List IndexSegment} (hs : s.full = true) :
    (⟨s :: rest⟩ : ApplyIndex).insertBack log =
      ⟨s :: ((⟨rest⟩ : ApplyIndex).insertBack log).index⟩ := by
  rcases List.eq_nil_or_concat' rest with rfl | ⟨pre, t, rfl⟩
  · have h : (⟨[] ++ [s]⟩ : ApplyIndex).insertBack log = _ := insertBack_of_full [] hs
    simp only [List.nil_append] at h
    rw [h, insertBack_nil]
  · rw [← List.cons_append]
    cases ht : t.full with
    | false => rw [insertBack_of_not_full _ ht, insertBack_of_not_full _ ht, List.cons_append]
    | true => rw [insertBack_of_full _ ht, insertBack_of_full _ ht, List.cons_append]

theorem extractFrontHint_eq_some {index : ApplyIndex} {task : List PageAddress} {total : Nat}
    (h : index.extractFrontHint = some (task, total)) :
    ∃ s rest, index.index = s :: rest ∧ s.full = true ∧ task = s.indexSegment.keys ∧
      total = s.totalLogLen := by
  unfold extractFrontHint at h
  split at h
  · cases h
  · rename_i s rest hi
    split at h
    · rename_i hs
      cases h
      exact ⟨s, rest, hi, hs, rfl, rfl⟩
    · cases h

theorem extractFront_eq_some {index index' : ApplyIndex} {a : PageAddress}
    {res : Option (List LogEntry)} (h : index.extractFront a = some (res, index')) :
    ∃ s rest, index.index = s :: rest ∧ res = s.indexSegment.lookup a ∧
      index' = deleteFrontSegment ⟨(s.extractLog a).2 :: rest⟩ := by
  unfold extractFront at h
  split at h
  · cases h
  · rename_i s rest hi
    cases h
    exact ⟨s, rest, hi, rfl, rfl⟩

theorem deleteFrontSegment_cons (s : IndexSegment) (rest : List IndexSegment) :
    deleteFrontSegment ⟨s :: rest⟩ = if s.empty then ⟨rest⟩ else ⟨s :: rest⟩ := rfl

theorem foldl_insertBack_singleton {a : PageAddress} {t : Nat} {old : List LogEntry}
    (l : List LogEntry) (ha : ∀ e ∈ l, e.address = a)
    (ht : t + (l.dropLast.map LogEntry.logLen).sum < APPLY_BATCH_SIZE) :
    l.foldl insertBack ⟨[⟨t, AList.singleton a old⟩]⟩ =
      ⟨[⟨t + (l.map LogEntry.logLen).sum, AList.singleton a (old ++ l)⟩]⟩ := by
  induction l generalizing t old with
  | nil => simp
  | cons x l ih =>
      have hx : (⟨[⟨t, AList.singleton a old⟩]⟩ : ApplyIndex).insertBack x =
          ⟨[⟨t + x.logLen, AList.singleton a (old ++ [x])⟩]⟩ := by
        have hs : IndexSegment.full ⟨t, AList.singleton a old⟩ = false := by
          have : t < APPLY_BATCH_SIZE := by
            cases l <;> simp at ht <;> omega
          simpa [IndexSegment.full] using this
        rw [← IndexSegment.push_singleton (ha x (by simp))]
        exact insertBack_of_not_full [] hs
      rw [List.foldl_cons, hx]
      cases l with
      | nil => simp
      | cons y l =>
          have := @ih (t + x.logLen) (old ++ [x]) (fun e he => ha e (List.mem_cons_of_mem x he))
            (by simp at ht ⊢; omega)
          rw [this]
          simp [Nat.add_assoc]

theorem foldl_insertBack_one_page {a : PageAddress} (l : List LogEntry) (hne : l ≠ [])
    (ha : ∀ e ∈ l, e.address = a)
    (ht : (l.dropLast.map LogEntry.logLen).sum < APPLY_BATCH_SIZE) :
    l.foldl insertBack {} = ⟨[⟨(l.map LogEntry.logLen).sum, AList.singleton a l⟩]⟩ := by
  obtain ⟨x, l, rfl⟩ := List.exists_cons_of_ne_nil hne
  have hx : ({} : ApplyIndex).insertBack x = ⟨[⟨x.logLen, AList.singleton a [x]⟩]⟩ := by
    rw [← ha x (by simp), ← IndexSegment.push_empty]
    exact insertBack_nil
  rw [List.foldl_cons, hx]
  cases l with
  | nil => simp
  | cons y l =>
      rw [foldl_insertBack_singleton _ (fun e he => ha e (List.mem_cons_of_mem x he))
        (by simpa using ht)]
      simp

end ApplyIndex

end LogDB
