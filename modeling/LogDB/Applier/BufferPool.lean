import LogDB.Applier.Page
import LogDB.Lib.Run
import LogDB.Lib.Map
import Mathlib.Data.List.Perm.Basic
import Mathlib.Data.List.Range
import Mathlib.Data.List.Nodup

/-!
The buffer pool of `buffer_pool.cpp`. Four structures describe which frame
holds which page: the LRU list of frame ids, the free list, the frame table
`frame_id_2_page_address_`, and `hash_map_` from `(space_id, page_id)` to a
position in the LRU list.

A `std::list` iterator is the identity of a list node, so every LRU node
carries a node number, fresh for each `emplace_front`, and the hash map stores
node numbers; following an iterator whose node is gone is undefined.
The data files are the pool's view of `space_id_2_file_name_`: the tablespaces
the constructor found, each with its size and its pages.

Every call answers `none` when it cannot return: it locks a page mutex that
is already held, it fails an `assert`, or it does something C++ leaves
undefined (an iterator to a removed node, `front()` of an empty list, the
stream of a tablespace the pool does not know).
-/

namespace LogDB

open LogDB.Lib

/-- One open data file behind its `std::fstream`: its size in bytes, the contents of its pages,
and whether a short read has failed the stream. -/
structure DataFile where
  size : Nat
  pages : Nat → Nat → UInt8
  failed : Bool

/-- Write one page at `page_id * DATA_PAGE_SIZE`; the file grows to cover it. -/
def DataFile.writePage (file : DataFile) (pageId : Nat) (data : Nat → UInt8) : DataFile :=
  { file with
    size := max file.size ((pageId + 1) * DATA_PAGE_SIZE)
    pages := Function.update file.pages pageId data }

/-- `seekp` then `write` of one page: a failed stream writes nothing. -/
def DataFile.writeStream (file : DataFile) (pageId : Nat) (data : Nat → UInt8) : DataFile :=
  if file.failed then file else file.writePage pageId data

/-- `max_page_id = tellg() / DATA_PAGE_SIZE - 1` in `size_t`: a failed stream tells -1, and below
one page the subtraction wraps. -/
def DataFile.maxPageId (file : DataFile) : Nat :=
  let pos := if file.failed then 2 ^ 64 - 1 else file.size
  if pos < DATA_PAGE_SIZE then 2 ^ 64 - 1 else pos / DATA_PAGE_SIZE - 1

/-- `seekg` then `read` of one page into a frame holding `old`: the file's bytes as far as the
file goes and the frame's own past them. A short read fails the stream, and a failed stream
reads nothing. -/
def DataFile.readPage (file : DataFile) (pageId : Nat) (old : Nat → UInt8) :
    (Nat → UInt8) × DataFile :=
  if file.failed then (old, file)
  else if (pageId + 1) * DATA_PAGE_SIZE ≤ file.size then (file.pages pageId, file)
  else (fun i => if pageId * DATA_PAGE_SIZE + i < file.size then file.pages pageId i else old i,
    { file with failed := true })

/-- Tablespace 1 with a data file of one zeroed page. -/
def onePageSpace : Nat → Option DataFile :=
  fun s => if s = 1 then some ⟨DATA_PAGE_SIZE, fun _ _ => 0, false⟩ else none

@[ext] structure PageAddressLru where
  inLru : Bool
  spaceId : Nat
  pageId : Nat
  deriving DecidableEq, Repr

structure LruNode where
  node : Nat
  frame : Nat
  deriving DecidableEq, Repr

structure BufferPool where
  /-- most recently used first -/
  lruList : List LruNode
  /-- `hash_map_`: the node of the LRU list for a cached address -/
  hashMap : Nat → Nat → Option Nat
  buffer : Nat → Page
  /-- `space_id_2_file_name_` -/
  files : Nat → Option DataFile
  freeList : List Nat
  frameId2PageAddress : Nat → PageAddressLru
  /-- the identity the next LRU node gets -/
  nextNode : Nat

namespace BufferPool

variable {pool pool' : BufferPool}

/-- The constructor, given the data files it found. Frame bytes are not read before a
frame is reset or filled from disk, so they start as zeros. -/
def init (files : Nat → Option DataFile) : BufferPool where
  lruList := []
  hashMap := fun _ _ => none
  buffer := fun _ => ⟨fun _ => 0, false, false, .INVALID⟩
  files := files
  freeList := List.range' 0 BUFFER_POOL_SIZE
  frameId2PageAddress := fun _ => ⟨false, 0, 0⟩
  nextNode := 0

/-- The frame an LRU node number holds: dereferencing an iterator. -/
def nodeFrame (pool : BufferPool) (n : Nat) : Option Nat :=
  (pool.lruList.find? (·.node == n)).map LruNode.frame

/-- `PageLock` on a frame; a frame already locked blocks the caller. -/
def lockPage (pool : BufferPool) (f : Nat) : Option BufferPool :=
  if (pool.buffer f).locked then none
  else some { pool with buffer := Function.update pool.buffer f { pool.buffer f with locked := true } }

/-- `WriteBack` and `WriteBackLock`: write a cached page to its file. -/
def writeBack (pool : BufferPool) (spaceId pageId : Nat) : Option (BufferPool × Bool) :=
  match pool.hashMap spaceId pageId with
  | none => some (pool, false)
  | some n => do
      let f ← pool.nodeFrame n
      let file ← pool.files spaceId
      let page := pool.buffer f
      -- assert(mach_read_from_4(page_data + FIL_PAGE_OFFSET) == page_id)
      if page.read FIL_PAGE_OFFSET 4 = pageId then
        let file := file.writeStream pageId page.data
        some ({ pool with files := Function.update pool.files spaceId (some file) }, true)
      else none

def writeBackLock (pool : BufferPool) (spaceId pageId : Nat) : Option (BufferPool × Bool) :=
  pool.writeBack spaceId pageId

/-- The end of one `Evict` round: pop the back of the LRU list, clear the frame table entry
and the hash entry of its address, and give the frame back to the free list. -/
def unlinkBack (pool : BufferPool) (f : Nat) : BufferPool :=
  let addr := pool.frameId2PageAddress f
  { pool with
    lruList := pool.lruList.dropLast
    frameId2PageAddress := Function.update pool.frameId2PageAddress f { addr with inLru := false }
    hashMap := update₂ pool.hashMap addr.spaceId addr.pageId none
    freeList := pool.freeList ++ [f]
    buffer := Function.update pool.buffer f { pool.buffer f with state := .INVALID } }

def evictOne (pool : BufferPool) (f : Nat) : Option BufferPool := do
  let addr := pool.frameId2PageAddress f
  if (pool.buffer f).locked then none else
  let pool ← if (pool.buffer f).dirty then (·.1) <$> pool.writeBack addr.spaceId addr.pageId
    else some pool
  -- assert(frame_id_2_page_address_[frame_id].in_lru_ == true)
  if (pool.frameId2PageAddress f).inLru then some (pool.unlinkBack f) else none

/-- `Evict(n)`: at most `n` rounds, fewer when the LRU list runs empty. -/
def evict (pool : BufferPool) : Nat → Option BufferPool
  | 0 => some pool
  | n + 1 =>
      match pool.lruList.getLast? with
      | none => some pool
      | some x => do evict (← pool.evictOne x.frame) n

/-- Evict 64 frames when the free list is empty, as `NewPage` and `ReadPageFromDisk` do. -/
def refill (pool : BufferPool) : Option BufferPool :=
  if pool.freeList.isEmpty then pool.evict 64 else some pool

/-- Put a frame at the front of the LRU list and point the hash entry of its address there:
lru_list_.emplace_front(frame_id); hash_map_[space_id][page_id] = lru_list_.begin(). -/
def pushFront (pool : BufferPool) (f spaceId pageId : Nat) : BufferPool :=
  { pool with
    lruList := ⟨pool.nextNode, f⟩ :: pool.lruList
    hashMap := update₂ pool.hashMap spaceId pageId (some pool.nextNode)
    nextNode := pool.nextNode + 1 }

/-- Take the head `f` of the free list for `(spaceId, pageId)`, as `NewPage` and
`ReadPageFromDisk` do after their checks. -/
def install (pool : BufferPool) (f : Nat) (rest : List Nat) (spaceId pageId : Nat)
    (page : Page) : BufferPool :=
  pushFront { pool with
    freeList := rest
    buffer := Function.update pool.buffer f page
    frameId2PageAddress := Function.update pool.frameId2PageAddress f ⟨true, spaceId, pageId⟩ }
    f spaceId pageId

/-- `NewPage`: a zeroed frame for a page that is not cached, or `nullptr` (`none` in the
second component) when it is. -/
def newPage (pool : BufferPool) (spaceId pageId : Nat) : Option (BufferPool × Option Nat) :=
  if (pool.hashMap spaceId pageId).isSome then some (pool, none) else do
  let pool ← pool.refill
  match pool.freeList with
  | [] => none
  | f :: rest =>
      -- assert(frame_id_2_page_address_[frame_id].in_lru_ == false)
      if (pool.frameId2PageAddress f).inLru then none else
      let page := { (pool.buffer f).reset with state := .FROM_BUFFER }
      let pool ← (pool.install f rest spaceId pageId page).lockPage f
      some (pool, some f)

/-- `ReadPageFromDisk`: `nullptr` when the page lies past `max_page_id`; the free list is then
left as it is. -/
def readPageFromDisk (pool : BufferPool) (spaceId pageId : Nat) :
    Option (BufferPool × Option Nat) := do
  let pool ← pool.refill
  match pool.freeList with
  | [] => none
  | f :: rest =>
      let file ← pool.files spaceId
      if pageId > file.maxPageId then some (pool, none) else
      let (data, file) := file.readPage pageId (pool.buffer f).data
      let page := { pool.buffer f with data := data, state := .FROM_DISK }
      if (pool.frameId2PageAddress f).inLru then none else
      let pool := { pool with files := Function.update pool.files spaceId (some file) }
      let pool ← (pool.install f rest spaceId pageId page).lockPage f
      some (pool, some f)

def touch (pool : BufferPool) (n f spaceId pageId : Nat) : BufferPool :=
  pushFront { pool with lruList := pool.lruList.eraseP (·.node == n) } f spaceId pageId

/-- `GetPage`: `nullptr` for a tablespace the constructor did not find, the cached frame
moved to the front, or a frame read from disk. -/
def getPage (pool : BufferPool) (spaceId pageId : Nat) : Option (BufferPool × Option Nat) :=
  if (pool.files spaceId).isNone then some (pool, none) else
  match pool.hashMap spaceId pageId with
  | some n => do
      let f ← pool.nodeFrame n
      let pool ← (pool.touch n f spaceId pageId).lockPage f
      some (pool, some f)
  | none => pool.readPageFromDisk spaceId pageId

/-- `ReleasePage`: unlock the frame; unlocking a mutex that is not held is undefined. -/
def releasePage (pool : BufferPool) (f : Nat) : Option BufferPool :=
  if f < BUFFER_POOL_SIZE ∧ (pool.buffer f).locked then
    some { pool with buffer := Function.update pool.buffer f { pool.buffer f with locked := false } }
  else none

inductive Call where
  | newPage (spaceId pageId : Nat)
  | getPage (spaceId pageId : Nat)
  | writeBack (spaceId pageId : Nat)
  | writeBackLock (spaceId pageId : Nat)
  | releasePage (frame : Nat)

def step (pool : BufferPool) : Call → Option BufferPool
  | .newPage s p => (·.1) <$> pool.newPage s p
  | .getPage s p => (·.1) <$> pool.getPage s p
  | .writeBack s p => (·.1) <$> pool.writeBack s p
  | .writeBackLock s p => (·.1) <$> pool.writeBackLock s p
  | .releasePage f => pool.releasePage f

/-! ### The operations on the bookkeeping structures -/

theorem writeBack_eq {s p : Nat} {b : Bool} (hw : pool.writeBack s p = some (pool', b)) :
    ∃ files, pool' = { pool with files := files } := by
  unfold BufferPool.writeBack at hw
  split at hw
  · cases hw
    exact ⟨pool.files, rfl⟩
  · simp only [Option.bind_eq_bind, Option.bind_eq_some_iff] at hw
    obtain ⟨_, -, _, -, hw⟩ := hw
    split at hw
    · cases hw
      exact ⟨_, rfl⟩
    · cases hw

theorem evictOne_eq {f : Nat} (he : pool.evictOne f = some pool') :
    ∃ files, (pool.frameId2PageAddress f).inLru = true ∧
      pool' = ({ pool with files := files } : BufferPool).unlinkBack f := by
  unfold BufferPool.evictOne at he
  by_cases hl : (pool.buffer f).locked = true
  · simp [hl] at he
  simp only [hl, Bool.false_eq_true, if_false] at he
  -- the write-back of a dirty page changes the files only
  obtain ⟨pool₁, ⟨files, rfl⟩, he⟩ : ∃ pool₁ : BufferPool,
      (∃ files : Nat → Option DataFile, pool₁ = { pool with files := files }) ∧
      (if (pool₁.frameId2PageAddress f).inLru = true then some (pool₁.unlinkBack f) else none) =
        some pool' := by
    by_cases hd : (pool.buffer f).dirty = true
    · rw [if_pos hd] at he
      simp only [Option.bind_eq_bind, Option.bind_eq_some_iff, Option.map_eq_map,
        Option.map_eq_some_iff] at he
      obtain ⟨pool₁, ⟨⟨pool₂, b⟩, hw, rfl⟩, he⟩ := he
      exact ⟨_, writeBack_eq hw, he⟩
    · exact ⟨pool, ⟨pool.files, rfl⟩, by simpa [hd] using he⟩
  split at he
  · cases he
    exact ⟨files, by assumption, rfl⟩
  · cases he

theorem evict_eq_cons {n : Nat} {x : LruNode} (hx : pool.lruList.getLast? = some x) :
    pool.evict (n + 1) = (pool.evictOne x.frame).bind (·.evict n) := by
  simp [BufferPool.evict, hx]

theorem evict_freeList {n : Nat} (he : pool.evict n = some pool') :
    ∃ l, pool'.freeList = pool.freeList ++ l := by
  induction n generalizing pool with
  | zero =>
    cases he
    exact ⟨[], by simp⟩
  | succ n ih =>
    simp only [BufferPool.evict] at he
    split at he
    · cases he
      exact ⟨[], by simp⟩
    · rename_i x _
      simp only [Option.bind_eq_bind, Option.bind_eq_some_iff] at he
      obtain ⟨pool₁, h₁, he⟩ := he
      obtain ⟨files, -, rfl⟩ := evictOne_eq h₁
      obtain ⟨l, hl⟩ := ih he
      exact ⟨x.frame :: l, by simp [hl, BufferPool.unlinkBack]⟩

theorem evict_hashMap_none {n s p : Nat} (he : pool.evict n = some pool')
    (hnone : pool.hashMap s p = none) : pool'.hashMap s p = none := by
  induction n generalizing pool with
  | zero =>
    cases he
    exact hnone
  | succ n ih =>
    simp only [BufferPool.evict] at he
    split at he
    · cases he
      exact hnone
    · simp only [Option.bind_eq_bind, Option.bind_eq_some_iff] at he
      obtain ⟨pool₁, h₁, he⟩ := he
      obtain ⟨files, -, rfl⟩ := evictOne_eq h₁
      exact ih he (by simp [BufferPool.unlinkBack, hnone])

theorem refill_hashMap_none {s p : Nat} (hr : pool.refill = some pool')
    (hnone : pool.hashMap s p = none) : pool'.hashMap s p = none := by
  unfold BufferPool.refill at hr
  split at hr
  · exact evict_hashMap_none hr hnone
  · cases hr
    exact hnone

/-! ### The bookkeeping invariant -/

/-- What the free list, the LRU list, the frame table and the hash map agree on. -/
structure Inv (pool : BufferPool) : Prop where
  /-- every frame is on exactly one of the two lists -/
  partition : (pool.freeList ++ pool.lruList.map LruNode.frame).Perm (List.range BUFFER_POOL_SIZE)
  inLru_iff : ∀ f, (pool.frameId2PageAddress f).inLru = true ↔ f ∈ pool.lruList.map LruNode.frame
  nodes_nodup : (pool.lruList.map LruNode.node).Nodup
  nodes_lt : ∀ x ∈ pool.lruList, x.node < pool.nextNode
  /-- a hash entry is a live node whose frame holds that address -/
  hash_sound : ∀ s p n, pool.hashMap s p = some n →
    ∃ f, ⟨n, f⟩ ∈ pool.lruList ∧ pool.frameId2PageAddress f = ⟨true, s, p⟩
  /-- every live node is the hash entry of its frame's address -/
  hash_complete : ∀ x ∈ pool.lruList, pool.hashMap (pool.frameId2PageAddress x.frame).spaceId
    (pool.frameId2PageAddress x.frame).pageId = some x.node

namespace Inv

theorem frames_nodup (h : Inv pool) : (pool.freeList ++ pool.lruList.map LruNode.frame).Nodup :=
  h.partition.nodup_iff.mpr List.nodup_range

theorem lru_frames_nodup (h : Inv pool) : (pool.lruList.map LruNode.frame).Nodup :=
  h.frames_nodup.of_append_right

theorem not_mem_lru_of_mem_free (h : Inv pool) {f : Nat} (hf : f ∈ pool.freeList) :
    f ∉ pool.lruList.map LruNode.frame :=
  fun hl => (List.nodup_append.mp h.frames_nodup).2.2 f hf f hl rfl

theorem eq_of_node_eq (h : Inv pool) {x y : LruNode} (hx : x ∈ pool.lruList)
    (hy : y ∈ pool.lruList) (hxy : x.node = y.node) : x = y :=
  List.inj_on_of_nodup_map h.nodes_nodup hx hy hxy

theorem inLru_of_mem (h : Inv pool) {x : LruNode} (hx : x ∈ pool.lruList) :
    (pool.frameId2PageAddress x.frame).inLru = true :=
  (h.inLru_iff x.frame).mpr (List.mem_map_of_mem hx)

theorem eq_of_addr_eq (h : Inv pool) {x y : LruNode} (hx : x ∈ pool.lruList)
    (hy : y ∈ pool.lruList)
    (hxy : pool.frameId2PageAddress x.frame = pool.frameId2PageAddress y.frame) : x = y := by
  have hnode : some x.node = some y.node := by
    rw [← h.hash_complete x hx, ← h.hash_complete y hy, hxy]
  exact h.eq_of_node_eq hx hy (Option.some.inj hnode)

theorem nodeFrame_eq (h : Inv pool) {n f : Nat} (hx : (⟨n, f⟩ : LruNode) ∈ pool.lruList) :
    pool.nodeFrame n = some f := by
  obtain ⟨y, hfind⟩ := Option.isSome_iff_exists.mp
    (List.find?_isSome.mpr ⟨_, hx, by simp⟩ : (pool.lruList.find? (·.node == n)).isSome)
  have hy : y = ⟨n, f⟩ := h.eq_of_node_eq (List.mem_of_find?_eq_some hfind) hx
    (by simpa using List.find?_some hfind)
  simp [nodeFrame, hfind, hy]

/-- The invariant reads only the four bookkeeping structures and the node counter. -/
theorem of_index (h : Inv pool) (hl : pool'.lruList = pool.lruList)
    (hh : pool'.hashMap = pool.hashMap) (hf : pool'.freeList = pool.freeList)
    (ht : pool'.frameId2PageAddress = pool.frameId2PageAddress)
    (hn : pool'.nextNode = pool.nextNode) : Inv pool' := by
  obtain ⟨h₁, h₂, h₃, h₄, h₅, h₆⟩ := h
  refine ⟨?_, ?_, ?_, ?_, ?_, ?_⟩ <;> simp only [hl, hh, hf, ht, hn] <;> assumption

/-! ### Each operation keeps the invariant -/

theorem withFiles (h : Inv pool) (files : Nat → Option DataFile) :
    Inv { pool with files := files } :=
  h.of_index rfl rfl rfl rfl rfl

theorem lockPage (h : Inv pool) {f : Nat} (hl : pool.lockPage f = some pool') : Inv pool' := by
  unfold BufferPool.lockPage at hl
  split at hl
  · cases hl
  · cases hl
    exact h.of_index rfl rfl rfl rfl rfl

theorem writeBack (h : Inv pool) {s p : Nat} {b : Bool}
    (hw : pool.writeBack s p = some (pool', b)) : Inv pool' := by
  obtain ⟨files, rfl⟩ := writeBack_eq hw
  exact h.withFiles files

theorem releasePage (h : Inv pool) {f : Nat} (hr : pool.releasePage f = some pool') :
    Inv pool' := by
  unfold BufferPool.releasePage at hr
  split at hr
  · cases hr
    exact h.of_index rfl rfl rfl rfl rfl
  · cases hr

theorem unlinkBack (h : Inv pool) {x : LruNode} (hx : pool.lruList.getLast? = some x) :
    Inv (pool.unlinkBack x.frame) := by
  obtain ⟨ys, hys⟩ := List.getLast?_eq_some_iff.mp hx
  have hxm : x ∈ pool.lruList := by simp [hys]
  have hmem : ∀ y ∈ ys, y ∈ pool.lruList := fun y hy => by simp [hys, hy]
  have hne : ∀ y ∈ ys, y.frame ≠ x.frame := by
    intro y hy heq
    have hnd := h.lru_frames_nodup
    rw [hys, List.map_append, List.nodup_append] at hnd
    exact hnd.2.2 _ (List.mem_map_of_mem hy) _ (by simp) heq
  have hin := h.inLru_of_mem hxm
  constructor
  · have hp := h.partition
    rw [hys, List.map_append, List.map_singleton] at hp
    simp only [BufferPool.unlinkBack, hys, List.dropLast_concat, List.append_assoc]
    exact ((List.perm_append_comm).append_left _).trans hp
  · intro g
    simp only [BufferPool.unlinkBack, hys, List.dropLast_concat, Function.update_apply]
    by_cases hg : g = x.frame
    · subst hg
      simp only [if_true, Bool.false_eq_true, false_iff, List.mem_map, not_exists, not_and]
      exact fun y hy heq => hne y hy heq
    · rw [if_neg hg, h.inLru_iff, hys]
      simp [hg]
  · have hnd := h.nodes_nodup
    rw [hys, List.map_append] at hnd
    simpa [BufferPool.unlinkBack, hys] using hnd.of_append_left
  · simp only [BufferPool.unlinkBack, hys, List.dropLast_concat]
    exact fun y hy => h.nodes_lt y (hmem y hy)
  · intro s p n hsn
    simp only [BufferPool.unlinkBack, update₂_apply] at hsn
    split at hsn
    · cases hsn
    rename_i hsp
    obtain ⟨g, hg, hga⟩ := h.hash_sound s p n hsn
    -- the frame found is not the unlinked one: that one carries the erased address
    have hgx : g ≠ x.frame := by
      rintro rfl
      exact hsp ⟨by rw [hga], by rw [hga]⟩
    have hgys : (⟨n, g⟩ : LruNode) ∈ ys := by
      rw [hys, List.mem_append, List.mem_singleton] at hg
      rcases hg with hg | rfl
      · exact hg
      · exact absurd rfl hgx
    refine ⟨g, ?_, ?_⟩
    · simpa [BufferPool.unlinkBack, hys] using hgys
    · simpa [BufferPool.unlinkBack, Function.update_of_ne hgx] using hga
  · intro y hy
    simp only [BufferPool.unlinkBack, hys, List.dropLast_concat] at hy
    have hyx := hne y hy
    simp only [BufferPool.unlinkBack, Function.update_of_ne hyx, update₂_apply]
    rw [if_neg, h.hash_complete y (hmem y hy)]
    rintro ⟨hs, hp⟩
    have heq : pool.frameId2PageAddress y.frame = pool.frameId2PageAddress x.frame :=
      PageAddressLru.ext (by rw [h.inLru_of_mem (hmem y hy), hin]) hs hp
    exact hyx (congrArg LruNode.frame (h.eq_of_addr_eq (hmem y hy) hxm heq))

/-- Pushing frame `f` for `(s, p)` at the front restores the invariant from a state where
`f` is on neither list and already carries the address, and no node carries that address. -/
theorem pushFront {f s p : Nat}
    (hperm : (pool.freeList ++ f :: pool.lruList.map LruNode.frame).Perm
      (List.range BUFFER_POOL_SIZE))
    (hin : ∀ g, (pool.frameId2PageAddress g).inLru = true ↔
      g = f ∨ g ∈ pool.lruList.map LruNode.frame)
    (hnodup : (pool.lruList.map LruNode.node).Nodup)
    (hlt : ∀ x ∈ pool.lruList, x.node < pool.nextNode)
    (haddr : pool.frameId2PageAddress f = ⟨true, s, p⟩)
    (hsound : ∀ s' p' n, (s', p') ≠ (s, p) → pool.hashMap s' p' = some n →
      ∃ g, ⟨n, g⟩ ∈ pool.lruList ∧ pool.frameId2PageAddress g = ⟨true, s', p'⟩)
    (hcomplete : ∀ x ∈ pool.lruList,
      ((pool.frameId2PageAddress x.frame).spaceId, (pool.frameId2PageAddress x.frame).pageId) ≠
        (s, p) ∧
      pool.hashMap (pool.frameId2PageAddress x.frame).spaceId
        (pool.frameId2PageAddress x.frame).pageId = some x.node) :
    Inv (pool.pushFront f s p) := by
  constructor
  · simpa [BufferPool.pushFront] using hperm
  · intro g
    simpa [BufferPool.pushFront] using hin g
  · simp only [BufferPool.pushFront, List.map_cons, List.nodup_cons, List.mem_map, not_exists,
      not_and]
    exact ⟨fun x hx heq => absurd (heq ▸ hlt x hx) (Nat.lt_irrefl _), hnodup⟩
  · simp only [BufferPool.pushFront, List.mem_cons, forall_eq_or_imp]
    exact ⟨Nat.lt_succ_self _, fun x hx => Nat.lt_succ_of_lt (hlt x hx)⟩
  · intro s' p' n hsn
    simp only [BufferPool.pushFront, update₂_apply] at hsn ⊢
    split at hsn
    · -- the pushed node
      rename_i hsp
      obtain ⟨rfl, rfl⟩ := hsp
      cases hsn
      exact ⟨f, List.mem_cons_self, haddr⟩
    · rename_i hsp
      obtain ⟨g, hg, hga⟩ := hsound s' p' n (fun heq => hsp (Prod.mk.inj heq)) hsn
      exact ⟨g, List.mem_cons_of_mem _ hg, hga⟩
  · simp only [BufferPool.pushFront, List.mem_cons, forall_eq_or_imp, update₂_apply]
    refine ⟨by simp [haddr], fun x hx => ?_⟩
    obtain ⟨hne, hx⟩ := hcomplete x hx
    rw [if_neg (fun heq => hne (Prod.ext heq.1 heq.2)), hx]

theorem install (h : Inv pool) {f s p : Nat} {rest : List Nat} {page : Page}
    (hfree : pool.freeList = f :: rest) (hnone : pool.hashMap s p = none) :
    Inv (pool.install f rest s p page) := by
  have hf : f ∉ pool.lruList.map LruNode.frame :=
    h.not_mem_lru_of_mem_free (by simp [hfree])
  have hfx : ∀ x ∈ pool.lruList, x.frame ≠ f := fun x hx heq => hf (heq ▸ List.mem_map_of_mem hx)
  apply pushFront
  · have hp := h.partition
    rw [hfree] at hp
    exact List.perm_middle.trans hp
  · intro g
    by_cases hg : g = f
    · simp [hg]
    · simp [h.inLru_iff, hg]
  · exact h.nodes_nodup
  · exact h.nodes_lt
  · simp
  · intro s' p' n _ hsn
    obtain ⟨g, hg, hga⟩ := h.hash_sound s' p' n hsn
    have hgf : g ≠ f := hfx _ hg
    exact ⟨g, hg, by simpa [Function.update_of_ne hgf] using hga⟩
  · intro x hx
    simp only [Function.update_of_ne (hfx x hx)]
    refine ⟨fun heq => ?_, h.hash_complete x hx⟩
    have hc := h.hash_complete x hx
    rw [Prod.mk.inj heq |>.1, Prod.mk.inj heq |>.2, hnone] at hc
    cases hc

theorem touch (h : Inv pool) {n f s p : Nat} (hn : pool.hashMap s p = some n)
    (hf : pool.nodeFrame n = some f) : Inv (pool.touch n f s p) := by
  obtain ⟨y, hfind, rfl⟩ := Option.map_eq_some_iff.mp hf
  obtain ⟨hyn, as, bs, hl, has⟩ := List.find?_eq_some_iff_append.mp hfind
  have hyn : y.node = n := by simpa using hyn
  have herase : pool.lruList.eraseP (·.node == n) = as ++ bs := by
    rw [hl, List.eraseP_append_right _ (fun b hb => by simpa using has b hb),
      List.eraseP_cons_of_pos (by simpa using hyn)]
  have hmem : ∀ x ∈ as ++ bs, x ∈ pool.lruList := fun x hx => by
    rw [hl]; simp only [List.mem_append, List.mem_cons] at hx ⊢; tauto
  have hnode : ∀ x ∈ as ++ bs, x.node ≠ n := by
    intro x hx heq
    have hnd := h.nodes_nodup
    rw [hl, List.map_append, List.map_cons, List.nodup_append] at hnd
    simp only [List.mem_append] at hx
    rcases hx with hx | hx
    · exact hnd.2.2 _ (List.mem_map_of_mem hx) _ List.mem_cons_self (heq.trans hyn.symm)
    · exact (List.nodup_cons.mp hnd.2.1).1 (hyn ▸ heq ▸ List.mem_map_of_mem hx)
  have hym : y ∈ pool.lruList := by simp [hl]
  obtain ⟨g, hg, hga⟩ := h.hash_sound s p n hn
  have hyg : y = ⟨n, g⟩ := h.eq_of_node_eq hym hg hyn
  apply pushFront
  · have hp := h.partition
    rw [hl] at hp
    simp only [herase, List.map_append, List.map_cons] at hp ⊢
    exact (List.perm_middle.symm.append_left _).trans hp
  · intro g'
    simp only [herase]
    rw [h.inLru_iff, hl]
    simp [or_left_comm]
  · have hnd := h.nodes_nodup
    rw [hl] at hnd
    rw [herase]
    exact ((List.sublist_cons_self y bs).append_left as).map _ |>.nodup hnd
  · rw [herase]
    exact fun x hx => h.nodes_lt x (hmem x hx)
  · rw [hyg]
    exact hga
  · intro s' p' n' hne hsn
    obtain ⟨g', hg', hga'⟩ := h.hash_sound s' p' n' hsn
    refine ⟨g', ?_, hga'⟩
    rw [herase]
    rw [hl] at hg'
    simp only [List.mem_append, List.mem_cons] at hg' ⊢
    rcases hg' with hg' | hg' | hg'
    · exact Or.inl hg'
    · -- the moved node carries `(s, p)`, not `(s', p')`
      rw [hyg] at hg'
      cases hg'
      rw [hga] at hga'
      cases hga'
      exact absurd rfl hne
    · exact Or.inr hg'
  · intro x hx
    rw [herase] at hx
    refine ⟨fun heq => hnode x hx ?_, h.hash_complete x (hmem x hx)⟩
    have hc := h.hash_complete x (hmem x hx)
    rw [Prod.mk.inj heq |>.1, Prod.mk.inj heq |>.2, hn] at hc
    exact (Option.some.inj hc).symm

theorem evictOne (h : Inv pool) {x : LruNode} (hx : pool.lruList.getLast? = some x)
    (he : pool.evictOne x.frame = some pool') : Inv pool' := by
  obtain ⟨files, -, rfl⟩ := evictOne_eq he
  exact (h.withFiles files).unlinkBack hx

theorem evict (h : Inv pool) {n : Nat} (he : pool.evict n = some pool') : Inv pool' := by
  induction n generalizing pool with
  | zero =>
    cases he
    exact h
  | succ n ih =>
    simp only [BufferPool.evict] at he
    split at he
    · cases he
      exact h
    · rename_i x hx
      simp only [Option.bind_eq_bind, Option.bind_eq_some_iff] at he
      obtain ⟨pool₁, h₁, he⟩ := he
      exact ih (h.evictOne hx h₁) he

theorem refill (h : Inv pool) (hr : pool.refill = some pool') : Inv pool' := by
  unfold BufferPool.refill at hr
  split at hr
  · exact h.evict hr
  · cases hr
    exact h

theorem newPage (h : Inv pool) {s p : Nat} {r : Option Nat}
    (hn : pool.newPage s p = some (pool', r)) : Inv pool' := by
  unfold BufferPool.newPage at hn
  split at hn
  · cases hn
    exact h
  rename_i hcached
  simp only [Option.bind_eq_bind, Option.bind_eq_some_iff] at hn
  obtain ⟨pool₁, hr, hn⟩ := hn
  have hnone : pool₁.hashMap s p = none :=
    refill_hashMap_none hr (Option.not_isSome_iff_eq_none.mp hcached)
  split at hn
  · cases hn
  rename_i f rest hfree
  split at hn
  · cases hn
  simp only [Option.bind_eq_some_iff] at hn
  obtain ⟨pool₂, hl, hn⟩ := hn
  cases hn
  exact ((h.refill hr).install hfree hnone).lockPage hl

theorem readPageFromDisk (h : Inv pool) {s p : Nat} {r : Option Nat}
    (hnone : pool.hashMap s p = none) (hrd : pool.readPageFromDisk s p = some (pool', r)) :
    Inv pool' := by
  unfold BufferPool.readPageFromDisk at hrd
  simp only [Option.bind_eq_bind, Option.bind_eq_some_iff] at hrd
  obtain ⟨pool₁, hr, hrd⟩ := hrd
  have h₁ := h.refill hr
  split at hrd
  · cases hrd
  rename_i f rest hfree
  simp only [Option.bind_eq_some_iff] at hrd
  obtain ⟨file, -, hrd⟩ := hrd
  split at hrd
  · cases hrd
    exact h₁
  split at hrd
  · cases hrd
  simp only [Option.bind_eq_some_iff] at hrd
  obtain ⟨pool₂, hl, hrd⟩ := hrd
  cases hrd
  -- a short read changes the stream of the file only
  have hn₁ : pool₁.hashMap s p = none := refill_hashMap_none hr hnone
  exact ((h₁.withFiles (Function.update pool₁.files s (some (file.readPage p
    (pool₁.buffer f).data).2))).install hfree hn₁).lockPage hl

theorem getPage (h : Inv pool) {s p : Nat} {r : Option Nat}
    (hg : pool.getPage s p = some (pool', r)) : Inv pool' := by
  unfold BufferPool.getPage at hg
  split at hg
  · cases hg
    exact h
  split at hg
  · rename_i n hn
    simp only [Option.bind_eq_bind, Option.bind_eq_some_iff] at hg
    obtain ⟨f, hf, pool₂, hl, hg⟩ := hg
    cases hg
    exact (h.touch hn hf).lockPage hl
  · rename_i hnone
    exact h.readPageFromDisk hnone hg

theorem step (h : Inv pool) {c : Call} (hs : pool.step c = some pool') : Inv pool' := by
  cases c with
  | newPage s p =>
    obtain ⟨⟨_, _⟩, hn, rfl⟩ := Option.map_eq_some_iff.mp hs
    exact h.newPage hn
  | getPage s p =>
    obtain ⟨⟨_, _⟩, hg, rfl⟩ := Option.map_eq_some_iff.mp hs
    exact h.getPage hg
  | writeBack s p =>
    obtain ⟨⟨_, _⟩, hw, rfl⟩ := Option.map_eq_some_iff.mp hs
    exact h.writeBack hw
  | writeBackLock s p =>
    obtain ⟨⟨_, _⟩, hw, rfl⟩ := Option.map_eq_some_iff.mp hs
    exact h.writeBack hw
  | releasePage f => exact h.releasePage hs

theorem init (files : Nat → Option DataFile) : Inv (BufferPool.init files) := by
  constructor
  · simp [BufferPool.init, List.range_eq_range']
  all_goals simp [BufferPool.init]

theorem reachable {files : Nat → Option DataFile}
    (hr : Reachable BufferPool.step (BufferPool.init files) pool) : Inv pool :=
  reachable_induction (init files) (fun _ _ _ h hs => h.step hs) hr

end Inv

/-! ### What the invariant gives the callers -/

/-- `NewPage` and `ReadPageFromDisk` never take a frame from an empty free list: once the
`Evict(64)` of an empty free list has returned, a frame is free. -/
theorem refill_freeList_ne_nil (h : Inv pool) (hr : pool.refill = some pool') :
    pool'.freeList ≠ [] := by
  unfold BufferPool.refill at hr
  split at hr
  · rename_i hempty
    have hfree : pool.freeList = [] := List.isEmpty_iff.mp hempty
    -- every frame is on the LRU list, so there is a back node to evict
    have hlen : (pool.lruList.map LruNode.frame).length = BUFFER_POOL_SIZE := by
      simpa [hfree] using h.partition.length_eq
    obtain ⟨x, hx⟩ : ∃ x, pool.lruList.getLast? = some x := by
      cases hl : pool.lruList.getLast? with
      | none => simp [List.getLast?_eq_none_iff.mp hl, BUFFER_POOL_SIZE] at hlen
      | some x => exact ⟨x, rfl⟩
    have he : pool.evict 64 = (pool.evictOne x.frame).bind (·.evict 63) := evict_eq_cons hx
    rw [he, Option.bind_eq_some_iff] at hr
    obtain ⟨pool₁, h₁, hr⟩ := hr
    obtain ⟨files, -, rfl⟩ := evictOne_eq h₁
    obtain ⟨l, hl⟩ := evict_freeList hr
    simp [hl, BufferPool.unlinkBack]
  · rename_i hne
    cases hr
    simpa using hne

/-- `GetPage` of a cached address on a tablespace the pool knows returns the frame that
holds it, unless a caller still holds that frame's lock. -/
theorem getPage_cached (h : Inv pool) {s p f : Nat} (hs : (pool.files s).isSome)
    (haddr : pool.frameId2PageAddress f = ⟨true, s, p⟩)
    (hunlocked : (pool.buffer f).locked = false) :
    ∃ pool', pool.getPage s p = some (pool', some f) := by
  obtain ⟨x, hx, rfl⟩ := List.mem_map.mp ((h.inLru_iff f).mp (by rw [haddr]))
  have hn : pool.hashMap s p = some x.node := by
    simpa [haddr] using h.hash_complete x hx
  have hf : pool.nodeFrame x.node = some x.frame := h.nodeFrame_eq hx
  obtain ⟨file, hfile⟩ := Option.isSome_iff_exists.mp hs
  simp [BufferPool.getPage, hfile, hn, hf, BufferPool.lockPage, BufferPool.touch,
    BufferPool.pushFront, hunlocked]

/-! ### Runs from the constructor -/

theorem pool_bookkeeping_holds {files : Nat → Option DataFile} {pool : BufferPool}
    (hr : Reachable step (init files) pool) :
    Inv pool ∧
      (∀ x ∈ pool.lruList, ∀ y ∈ pool.lruList,
        pool.frameId2PageAddress x.frame = pool.frameId2PageAddress y.frame → x = y) ∧
      (∀ pool', pool.refill = some pool' → pool'.freeList ≠ []) ∧
      ∀ s p f, (pool.files s).isSome → pool.frameId2PageAddress f = ⟨true, s, p⟩ →
        (pool.buffer f).locked = false → ∃ pool', pool.getPage s p = some (pool', some f) := by
  have h := Inv.reachable hr
  exact ⟨h, fun x hx y hy => h.eq_of_addr_eq hx hy, fun _ => refill_freeList_ne_nil h,
    fun _ _ _ hs haddr hunlocked => getPage_cached h hs haddr hunlocked⟩

theorem pool_bookkeeping_holds_twoPages :
    ∃ pool, Reachable step (init onePageSpace) pool ∧ pool.lruList.length = 2 ∧
      pool.frameId2PageAddress 0 = ⟨true, 1, 0⟩ ∧ (pool.buffer 0).locked = false ∧
      (Inv pool ∧
        (∀ x ∈ pool.lruList, ∀ y ∈ pool.lruList,
          pool.frameId2PageAddress x.frame = pool.frameId2PageAddress y.frame → x = y) ∧
        (∀ pool', pool.refill = some pool' → pool'.freeList ≠ []) ∧
        ∀ s p f, (pool.files s).isSome → pool.frameId2PageAddress f = ⟨true, s, p⟩ →
          (pool.buffer f).locked = false → ∃ pool', pool.getPage s p = some (pool', some f)) := by
  -- page (1, 0) read from its file into frame 0, page (1, 1) created in frame 1
  have hrun : (([.getPage 1 0, .releasePage 0, .newPage 1 1, .releasePage 1] : List Call).foldlM
      step (init onePageSpace)).map (fun pool => decide (pool.lruList.length = 2 ∧
        pool.frameId2PageAddress 0 = ⟨true, 1, 0⟩ ∧ (pool.buffer 0).locked = false)) =
      some true := by
    decide +kernel
  obtain ⟨pool, hr, hs⟩ := exists_reachable_of_foldlM Reachable.refl hrun
  obtain ⟨hlen, haddr, hunlocked⟩ := of_decide_eq_true hs
  have hbook := pool_bookkeeping_holds hr
  exact ⟨pool, hr, hlen, haddr, hunlocked, hbook⟩

/-- `GetPage` answers `nullptr` for a page that `NewPage` cached on a tablespace the
constructor did not find, though nothing evicted it. -/
theorem getPage_misses_page_of_unknown_space :
    ∃ pool, Reachable step (init fun _ => none) pool ∧
      pool.frameId2PageAddress 0 = ⟨true, 7, 0⟩ ∧ (pool.buffer 0).locked = false ∧
      pool.getPage 7 0 = some (pool, none) := by
  refine ⟨_, (Reachable.refl.tail (a := .newPage 7 0) rfl).tail (a := .releasePage 0) rfl,
    ?_, ?_, ?_⟩
  · rfl
  · rfl
  · rfl

end BufferPool

end LogDB
