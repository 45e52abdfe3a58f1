import LogDB.Applier.LogApply

/-!
The data files as `log_apply_do_apply` leaves them. Every page it applies to goes straight back
to its file (`WriteBackLock`), so a frame on the LRU list always holds the bytes its file has
for the page, and writing a dirty frame back on eviction changes no file. A page past the end of
its file is read as zeros, as the file system reads a hole.

Then a call of `log_apply_do_apply` changes the files in one page only, a page of the data page
group, to the bytes its loop computes from the bytes the file had.
-/

namespace LogDB

open LogDB.Lib

namespace DataFile

/-- A data file as the pool is built over it: the constructor reads the tablespace id from a
whole first page, no read has failed its stream, and nothing is stored past its last whole
page. -/
structure WellFormed (file : DataFile) : Prop where
  one_page : DATA_PAGE_SIZE ≤ file.size
  not_failed : file.failed = false
  zeros : ∀ p, file.size / DATA_PAGE_SIZE ≤ p → file.pages p = fun _ => 0

variable {file : DataFile}

@[simp] theorem pages_writePage_self (pageId : Nat) (data : Nat → UInt8) :
    (file.writePage pageId data).pages pageId = data :=
  Function.update_self _ _ _

theorem pages_writePage_of_ne {pageId p : Nat} (h : p ≠ pageId) (data : Nat → UInt8) :
    (file.writePage pageId data).pages p = file.pages p :=
  Function.update_of_ne h _ _

theorem lt_writePage_size (pageId : Nat) (data : Nat → UInt8) :
    pageId < (file.writePage pageId data).size / DATA_PAGE_SIZE := by
  have : (pageId + 1) * DATA_PAGE_SIZE ≤ (file.writePage pageId data).size := le_max_right _ _
  simp only [DATA_PAGE_SIZE] at this ⊢
  omega

theorem size_le_writePage_size (pageId : Nat) (data : Nat → UInt8) :
    file.size / DATA_PAGE_SIZE ≤ (file.writePage pageId data).size / DATA_PAGE_SIZE :=
  Nat.div_le_div_right (le_max_left _ _)

theorem succ_mul_le_size {pageId : Nat} (hp : pageId < file.size / DATA_PAGE_SIZE) :
    (pageId + 1) * DATA_PAGE_SIZE ≤ file.size :=
  (Nat.le_div_iff_mul_le (by decide)).mp hp

theorem WellFormed.writePage (h : file.WellFormed) (pageId : Nat) (data : Nat → UInt8) :
    (file.writePage pageId data).WellFormed where
  one_page := h.one_page.trans (le_max_left _ _)
  not_failed := h.not_failed
  zeros p hp := by
    have hne : p ≠ pageId := by
      have : pageId < (file.writePage pageId data).size / DATA_PAGE_SIZE :=
        lt_writePage_size pageId data
      omega
    rw [pages_writePage_of_ne hne]
    exact h.zeros p ((size_le_writePage_size pageId data).trans hp)

theorem WellFormed.writeStream (h : file.WellFormed) (pageId : Nat) (data : Nat → UInt8) :
    file.writeStream pageId data = file.writePage pageId data := by
  simp only [DataFile.writeStream, h.not_failed, Bool.false_eq_true, if_false]

/-- Below one page `max_page_id` wraps, so a well-formed file has a whole first page for
`max_page_id` to count down from. -/
theorem WellFormed.maxPageId_add_one (h : file.WellFormed) :
    file.maxPageId + 1 = file.size / DATA_PAGE_SIZE := by
  have hpos : 1 ≤ file.size / DATA_PAGE_SIZE :=
    (Nat.le_div_iff_mul_le (by decide)).mpr (by simpa using h.one_page)
  simp only [DataFile.maxPageId, h.not_failed, Bool.false_eq_true, if_false,
    if_neg (not_lt.mpr h.one_page)]
  omega

theorem WellFormed.readPage (h : file.WellFormed) {pageId : Nat}
    (hp : pageId < file.size / DATA_PAGE_SIZE) (old : Nat → UInt8) :
    file.readPage pageId old = (file.pages pageId, file) := by
  simp [DataFile.readPage, h.not_failed, succ_mul_le_size hp]

theorem writePage_self {pageId : Nat} (hp : pageId < file.size / DATA_PAGE_SIZE) :
    file.writePage pageId (file.pages pageId) = file := by
  simp [writePage, Function.update_eq_self, max_eq_left (succ_mul_le_size hp)]

theorem writeStream_self {pageId : Nat} (hp : pageId < file.size / DATA_PAGE_SIZE) :
    file.writeStream pageId (file.pages pageId) = file := by
  unfold writeStream
  split
  · rfl
  · exact writePage_self hp

end DataFile

namespace BufferPool

variable {pool pool' : BufferPool}

/-- The bytes the data file of page `a` holds for it. -/
def stored (pool : BufferPool) (a : PageAddress) : Option (Nat → UInt8) :=
  (pool.files a.spaceId).map (·.pages a.pageId)

/-- Frame `f` holds the bytes its data file has for the page the frame table gives it, and the
file covers that page. -/
def FrameStored (pool : BufferPool) (f : Nat) : Prop :=
  ∃ file, pool.files (pool.frameId2PageAddress f).spaceId = some file ∧
    (pool.frameId2PageAddress f).pageId < file.size / DATA_PAGE_SIZE ∧
    file.pages (pool.frameId2PageAddress f).pageId = (pool.buffer f).data

/-- Every frame on the LRU list but `f` holds its page. -/
def StoredBut (pool : BufferPool) (f : Nat) : Prop :=
  ∀ g ∈ pool.lruList.map LruNode.frame, g ≠ f → pool.FrameStored g

/-- The frames of the pool and its data files agree. -/
structure Coherent (pool : BufferPool) : Prop where
  wellFormed : ∀ s file, pool.files s = some file → file.WellFormed
  cached : ∀ f ∈ pool.lruList.map LruNode.frame, pool.FrameStored f

theorem Coherent.storedBut (hc : pool.Coherent) (f : Nat) : pool.StoredBut f :=
  fun g hg _ => hc.cached g hg

theorem FrameStored.of_eq {f : Nat} (hf : pool.FrameStored f) (hfiles : pool'.files = pool.files)
    (haddr : pool'.frameId2PageAddress f = pool.frameId2PageAddress f)
    (hdata : (pool'.buffer f).data = (pool.buffer f).data) : pool'.FrameStored f := by
  obtain ⟨file, h₁, h₂, h₃⟩ := hf
  exact ⟨file, by rw [hfiles, haddr, h₁], by rw [haddr]; exact h₂, by rw [haddr, hdata, h₃]⟩

theorem Coherent.of_frames (hc : pool.Coherent) (hfiles : pool'.files = pool.files)
    (hlru : ∀ f ∈ pool'.lruList.map LruNode.frame, f ∈ pool.lruList.map LruNode.frame ∧
      pool'.frameId2PageAddress f = pool.frameId2PageAddress f ∧
      (pool'.buffer f).data = (pool.buffer f).data) : pool'.Coherent := by
  refine ⟨fun s file hs => hc.wellFormed s file (hfiles ▸ hs), fun f hf => ?_⟩
  obtain ⟨hm, ha, hd⟩ := hlru f hf
  exact (hc.cached f hm).of_eq hfiles ha hd

/-! ### The calls on the pool, as far as the files and the frame bytes go -/

theorem lockPage_eq {f : Nat} (hl : pool.lockPage f = some pool') :
    pool' = { pool with buffer := Function.update pool.buffer f { pool.buffer f with locked := true } } := by
  unfold lockPage at hl
  split at hl
  · cases hl
  · cases hl
    rfl

theorem lockPage_frames {f : Nat} (hl : pool.lockPage f = some pool') :
    pool'.lruList = pool.lruList ∧ pool'.frameId2PageAddress = pool.frameId2PageAddress ∧
      pool'.files = pool.files ∧ ∀ g, (pool'.buffer g).data = (pool.buffer g).data := by
  obtain rfl := lockPage_eq hl
  refine ⟨rfl, rfl, rfl, fun g => ?_⟩
  by_cases hg : g = f
  · subst hg
    simp
  · simp [Function.update_of_ne hg]

theorem data_update_locked (buffer : Nat → Page) (f g : Nat) (b : Bool) :
    (Function.update buffer f { buffer f with locked := b } g).data = (buffer g).data := by
  by_cases hg : g = f
  · subst hg
    simp
  · rw [Function.update_of_ne hg]

theorem Coherent.lockPage (hc : pool.Coherent) {f : Nat} (hl : pool.lockPage f = some pool') :
    pool'.Coherent := by
  obtain rfl := lockPage_eq hl
  exact hc.of_frames rfl fun g hg => ⟨hg, rfl, data_update_locked _ _ _ _⟩

theorem Coherent.releasePage (hc : pool.Coherent) {f : Nat} (hr : pool.releasePage f = some pool') :
    pool'.Coherent := by
  unfold BufferPool.releasePage at hr
  split at hr
  · cases hr
    exact hc.of_frames rfl fun g hg => ⟨hg, rfl, data_update_locked _ _ _ _⟩
  · cases hr

/-- What `WriteBack` does: nothing for an address that is not cached, and otherwise the write
of the frame its hash entry leads to, after the check of the page number in the frame. -/
theorem writeBack_cases {s p : Nat} {b : Bool} (hw : pool.writeBack s p = some (pool', b)) :
    (pool.hashMap s p = none ∧ pool' = pool) ∨
    ∃ n f file, pool.hashMap s p = some n ∧ pool.nodeFrame n = some f ∧ pool.files s = some file ∧
      pool' = { pool with
        files := Function.update pool.files s (some (file.writeStream p (pool.buffer f).data)) } := by
  unfold BufferPool.writeBack at hw
  split at hw
  · rename_i hn
    cases hw
    exact .inl ⟨hn, rfl⟩
  · rename_i n hn
    simp only [Option.bind_eq_bind, Option.bind_eq_some_iff] at hw
    obtain ⟨f, hf, file, hfile, hw⟩ := hw
    split at hw
    · cases hw
      exact .inr ⟨n, f, file, hn, hf, hfile, rfl⟩
    · cases hw

theorem writeBack_of_frameStored (h : pool.Inv) {x : LruNode} (hx : x ∈ pool.lruList)
    (hs : pool.FrameStored x.frame) {b : Bool}
    (hw : pool.writeBack (pool.frameId2PageAddress x.frame).spaceId
      (pool.frameId2PageAddress x.frame).pageId = some (pool', b)) : pool' = pool := by
  rcases writeBack_cases hw with ⟨-, rfl⟩ | ⟨n, f, file, hn, hf, hfile, rfl⟩
  · rfl
  have hnode : n = x.node := Option.some.inj (hn.symm.trans (h.hash_complete x hx))
  have hfx : f = x.frame := Option.some.inj (hf.symm.trans (hnode ▸ h.nodeFrame_eq hx))
  subst hnode hfx
  obtain ⟨file', hfile', hlt, hdata⟩ := hs
  rw [hfile] at hfile'
  cases hfile'
  rw [← hdata, DataFile.writeStream_self hlt, ← hfile, Function.update_eq_self]

/-- A round of `Evict` on a coherent pool writes no file: it unlinks the back frame. -/
theorem evictOne_of_coherent (h : pool.Inv) (hc : pool.Coherent) {x : LruNode}
    (hx : pool.lruList.getLast? = some x) (he : pool.evictOne x.frame = some pool') :
    pool' = pool.unlinkBack x.frame := by
  have hxm : x ∈ pool.lruList := List.mem_of_getLast? hx
  unfold BufferPool.evictOne at he
  by_cases hl : (pool.buffer x.frame).locked = true
  · simp [hl] at he
  simp only [hl, Bool.false_eq_true, if_false] at he
  -- the write-back of a dirty frame that holds its page writes nothing new
  have hif : (if (pool.frameId2PageAddress x.frame).inLru = true then
      some (pool.unlinkBack x.frame) else none) = some pool' := by
    by_cases hd : (pool.buffer x.frame).dirty = true
    · rw [if_pos hd] at he
      simp only [Option.bind_eq_bind, Option.bind_eq_some_iff, Option.map_eq_map,
        Option.map_eq_some_iff] at he
      obtain ⟨pool₁, ⟨⟨pool₂, b⟩, hw, rfl⟩, he⟩ := he
      rwa [writeBack_of_frameStored h hxm (hc.cached _ (List.mem_map_of_mem hxm)) hw] at he
    · simpa [hd] using he
  split at hif
  · cases hif
    rfl
  · cases hif

theorem Coherent.unlinkBack (h : pool.Inv) (hc : pool.Coherent) {x : LruNode}
    (hx : pool.lruList.getLast? = some x) : (pool.unlinkBack x.frame).Coherent := by
  obtain ⟨ys, hys⟩ := List.getLast?_eq_some_iff.mp hx
  have hne : ∀ g ∈ ys.map LruNode.frame, g ≠ x.frame := by
    intro g hg heq
    have hnd := h.lru_frames_nodup
    rw [hys, List.map_append, List.nodup_append] at hnd
    exact hnd.2.2 _ hg _ (by simp) heq
  refine hc.of_frames rfl fun g hg => ?_
  simp only [BufferPool.unlinkBack, hys, List.dropLast_concat] at hg
  refine ⟨by rw [hys]; simp [hg], ?_, ?_⟩
  · simp [BufferPool.unlinkBack, Function.update_of_ne (hne g hg)]
  · by_cases hgx : g = x.frame
    · subst hgx
      simp [BufferPool.unlinkBack]
    · simp [BufferPool.unlinkBack, Function.update_of_ne hgx]

theorem Coherent.evict (h : pool.Inv) (hc : pool.Coherent) {n : Nat}
    (he : pool.evict n = some pool') : pool'.Coherent ∧ pool'.files = pool.files := by
  induction n generalizing pool with
  | zero =>
    cases he
    exact ⟨hc, rfl⟩
  | succ n ih =>
    simp only [BufferPool.evict] at he
    split at he
    · cases he
      exact ⟨hc, rfl⟩
    · rename_i x hx
      simp only [Option.bind_eq_bind, Option.bind_eq_some_iff] at he
      obtain ⟨pool₁, h₁, he⟩ := he
      rw [evictOne_of_coherent h hc hx h₁] at he
      obtain ⟨hc', hfiles⟩ := ih (h.unlinkBack hx) (hc.unlinkBack h hx) he
      exact ⟨hc', hfiles⟩

theorem Coherent.refill (h : pool.Inv) (hc : pool.Coherent) (hr : pool.refill = some pool') :
    pool'.Coherent ∧ pool'.files = pool.files := by
  unfold BufferPool.refill at hr
  split at hr
  · exact hc.evict h hr
  · cases hr
    exact ⟨hc, rfl⟩

theorem storedBut_install (h : pool.Inv) (hc : pool.Coherent) {f s p : Nat} {rest : List Nat}
    {page : Page} (hfree : pool.freeList = f :: rest) : (pool.install f rest s p page).StoredBut f := by
  have hf : f ∉ pool.lruList.map LruNode.frame := h.not_mem_lru_of_mem_free (by simp [hfree])
  intro g hg hgf
  have hg' : g ∈ pool.lruList.map LruNode.frame := by
    simpa [install, pushFront, hgf] using hg
  exact (hc.cached g hg').of_eq rfl (by simp [install, pushFront, Function.update_of_ne hgf])
    (by simp [install, pushFront, Function.update_of_ne hgf])

theorem mem_install (pool : BufferPool) (f s p : Nat) (rest : List Nat) (page : Page) :
    f ∈ (pool.install f rest s p page).lruList.map LruNode.frame ∧
      (pool.install f rest s p page).frameId2PageAddress f = ⟨true, s, p⟩ ∧
      (pool.install f rest s p page).buffer f = page := by
  simp [install, pushFront]

theorem Coherent.install (h : pool.Inv) (hc : pool.Coherent) {f s p : Nat} {rest : List Nat}
    {page : Page} (hfree : pool.freeList = f :: rest) {file : DataFile}
    (hfile : pool.files s = some file) (hp : p < file.size / DATA_PAGE_SIZE)
    (hdata : file.pages p = page.data) : (pool.install f rest s p page).Coherent := by
  obtain ⟨-, haddr, hbuf⟩ := mem_install pool f s p rest page
  refine ⟨fun s' file' hs' => hc.wellFormed s' file' hs', fun g hg => ?_⟩
  by_cases hgf : g = f
  · subst hgf
    exact ⟨file, by rw [haddr]; exact hfile, by rw [haddr]; exact hp, by rw [haddr, hbuf]; exact hdata⟩
  · exact storedBut_install h hc hfree g hg hgf

theorem Coherent.touch (hc : pool.Coherent) {n f s p : Nat} (hf : pool.nodeFrame n = some f) :
    (pool.touch n f s p).Coherent := by
  obtain ⟨y, hfind, rfl⟩ := Option.map_eq_some_iff.mp hf
  have hy : y.frame ∈ pool.lruList.map LruNode.frame :=
    List.mem_map_of_mem (List.mem_of_find?_eq_some hfind)
  refine hc.of_frames rfl fun g hg => ⟨?_, rfl, rfl⟩
  simp only [BufferPool.touch, pushFront, List.map_cons, List.mem_cons] at hg
  rcases hg with rfl | hg
  · exact hy
  · obtain ⟨x, hx, rfl⟩ := List.mem_map.mp hg
    exact List.mem_map_of_mem (List.mem_of_mem_eraseP hx)

/-- A cached address has a data file: no frame of a coherent pool holds a page of an unknown
tablespace. -/
theorem Coherent.files_of_hashMap (h : pool.Inv) (hc : pool.Coherent) {s p n : Nat}
    (hn : pool.hashMap s p = some n) : (pool.files s).isSome := by
  obtain ⟨g, hg, hga⟩ := h.hash_sound s p n hn
  obtain ⟨file, hfile, -⟩ := hc.cached g (List.mem_map_of_mem hg)
  rw [hga] at hfile
  simp [hfile]

/-- What `ReadPageFromDisk` does: after the refill, no frame past `max_page_id`, and otherwise
the head of the free list, filled by a read of the page's stream and locked. -/
theorem readPageFromDisk_cases {s p : Nat} {r : Option Nat}
    (hrd : pool.readPageFromDisk s p = some (pool', r)) :
    ∃ pool₁ f rest file, pool.refill = some pool₁ ∧ pool₁.freeList = f :: rest ∧
      pool₁.files s = some file ∧
      ((file.maxPageId < p ∧ pool' = pool₁ ∧ r = none) ∨
        (p ≤ file.maxPageId ∧
          (({ pool₁ with
              files := Function.update pool₁.files s (some (file.readPage p (pool₁.buffer f).data).2) } :
              BufferPool).install f rest s p
            { pool₁.buffer f with
              data := (file.readPage p (pool₁.buffer f).data).1
              state := .FROM_DISK }).lockPage f = some pool' ∧
          r = some f)) := by
  unfold BufferPool.readPageFromDisk at hrd
  simp only [Option.bind_eq_bind, Option.bind_eq_some_iff] at hrd
  obtain ⟨pool₁, hr, hrd⟩ := hrd
  split at hrd
  · cases hrd
  rename_i f rest hfree
  simp only [Option.bind_eq_some_iff] at hrd
  obtain ⟨file, hfile, hrd⟩ := hrd
  refine ⟨pool₁, f, rest, file, hr, hfree, hfile, ?_⟩
  split at hrd
  · rename_i hgt
    cases hrd
    exact .inl ⟨hgt, rfl, rfl⟩
  · rename_i hle
    split at hrd
    · cases hrd
    simp only [Option.bind_eq_some_iff] at hrd
    obtain ⟨pool₂, hl, hrd⟩ := hrd
    cases hrd
    exact .inr ⟨not_lt.mp hle, hl, rfl⟩

theorem files_update_readPage {s p : Nat} {file : DataFile} (hfile : pool.files s = some file)
    (hwf : file.WellFormed) (hp : p < file.size / DATA_PAGE_SIZE) (old : Nat → UInt8) :
    ({ pool with files := Function.update pool.files s (some (file.readPage p old).2) } :
      BufferPool) = pool := by
  simp only [hwf.readPage hp]
  rw [← hfile, Function.update_eq_self]

/-- What `GetPage` does: nothing for an unknown tablespace, the cached frame moved to the front
and locked, or `ReadPageFromDisk`. -/
theorem getPage_cases {s p : Nat} {r : Option Nat} (hg : pool.getPage s p = some (pool', r)) :
    (pool.files s = none ∧ pool' = pool ∧ r = none) ∨
    (∃ n f, pool.hashMap s p = some n ∧ pool.nodeFrame n = some f ∧
      (pool.touch n f s p).lockPage f = some pool' ∧ r = some f) ∨
    (pool.hashMap s p = none ∧ pool.readPageFromDisk s p = some (pool', r)) := by
  unfold BufferPool.getPage at hg
  split at hg
  · rename_i hs
    cases hg
    exact .inl ⟨by simpa using hs, rfl, rfl⟩
  split at hg
  · rename_i n hn
    simp only [Option.bind_eq_bind, Option.bind_eq_some_iff] at hg
    obtain ⟨f, hf, pool₂, hl, hg⟩ := hg
    cases hg
    exact .inr (.inl ⟨n, f, hn, hf, hl, rfl⟩)
  · rename_i hn
    exact .inr (.inr ⟨hn, hg⟩)

/-- What `NewPage` does for an address that is not cached: after the refill, the head of the
free list, zeroed and locked. -/
theorem newPage_cases {s p : Nat} {r : Option Nat} (hnone : pool.hashMap s p = none)
    (hn : pool.newPage s p = some (pool', r)) :
    ∃ pool₁ f rest, pool.refill = some pool₁ ∧ pool₁.freeList = f :: rest ∧
      (pool₁.install f rest s p { (pool₁.buffer f).reset with state := .FROM_BUFFER }).lockPage f =
        some pool' ∧ r = some f := by
  unfold BufferPool.newPage at hn
  rw [if_neg (by simp [hnone])] at hn
  simp only [Option.bind_eq_bind, Option.bind_eq_some_iff] at hn
  obtain ⟨pool₁, hr, hn⟩ := hn
  split at hn
  · cases hn
  rename_i f rest hfree
  split at hn
  · cases hn
  simp only [Option.bind_eq_some_iff] at hn
  obtain ⟨pool₂, hl, hn⟩ := hn
  cases hn
  exact ⟨pool₁, f, rest, hr, hfree, hl, rfl⟩

theorem getPage_frame (h : pool.Inv) (hc : pool.Coherent) {s p f : Nat}
    (hg : pool.getPage s p = some (pool', some f)) :
    pool'.Inv ∧ pool'.Coherent ∧ pool'.files = pool.files ∧
      f ∈ pool'.lruList.map LruNode.frame ∧ pool'.frameId2PageAddress f = ⟨true, s, p⟩ := by
  refine ⟨h.getPage hg, ?_⟩
  rcases getPage_cases hg with ⟨-, -, hr⟩ | ⟨n, g, hn, hg', hl, hr⟩ | ⟨hnone, hrd⟩
  · cases hr
  · -- a cached page: its node moves to the front
    cases hr
    obtain rfl := lockPage_eq hl
    obtain ⟨x, hx, hxa⟩ := h.hash_sound s p n hn
    have hxf : x = f := Option.some.inj ((h.nodeFrame_eq hx).symm.trans hg')
    subst hxf
    refine ⟨(hc.touch hg').lockPage hl, rfl, ?_, hxa⟩
    simp [BufferPool.touch, pushFront]
  · -- a page read from disk into a free frame
    obtain ⟨pool₁, g, rest, file, hr, hfree, hfile, ⟨-, -, hnone'⟩ | ⟨hp, hl, hgf⟩⟩ :=
      readPageFromDisk_cases hrd
    · cases hnone'
    obtain rfl : f = g := Option.some.inj hgf
    obtain ⟨hc₁, hfiles⟩ := hc.refill h hr
    -- the file is well formed, so the page is read whole and the stream stays good
    have hwf := hc₁.wellFormed s file hfile
    have hp : p < file.size / DATA_PAGE_SIZE := by
      have := hwf.maxPageId_add_one
      omega
    rw [files_update_readPage hfile hwf hp] at hl
    simp only [hwf.readPage hp] at hl
    obtain ⟨hmem, haddr, -⟩ := mem_install pool₁ f s p rest
      { pool₁.buffer f with data := file.pages p, state := .FROM_DISK }
    have hc' := (hc₁.install (h.refill hr) hfree hfile hp rfl).lockPage hl
    obtain rfl := lockPage_eq hl
    exact ⟨hc', hfiles, by simpa using hmem, by simpa using haddr⟩

/-- No frame from `GetPage` on a coherent pool: the page is not cached and its file does not
cover it. -/
theorem getPage_no_frame (h : pool.Inv) (hc : pool.Coherent) {s p : Nat}
    (hg : pool.getPage s p = some (pool', none)) :
    pool'.Inv ∧ pool'.Coherent ∧ pool'.files = pool.files ∧ pool'.hashMap s p = none ∧
      ∀ file, pool.files s = some file → file.size / DATA_PAGE_SIZE ≤ p := by
  rcases getPage_cases hg with ⟨hs, hpool, -⟩ | ⟨n, g, -, -, -, hr⟩ | ⟨hnone, hrd⟩
  · -- an unknown tablespace has no cached page
    rw [hpool]
    refine ⟨h, hc, rfl, ?_, fun file hfile => by simp [hs] at hfile⟩
    cases hn : pool.hashMap s p with
    | none => rfl
    | some n => simpa [hs] using hc.files_of_hashMap h hn
  · cases hr
  · obtain ⟨pool₁, g, rest, file, hr, -, hfile, ⟨hle, rfl, -⟩ | ⟨-, -, hgf⟩⟩ :=
      readPageFromDisk_cases hrd
    · obtain ⟨hc₁, hfiles⟩ := hc.refill h hr
      refine ⟨h.refill hr, hc₁, hfiles, refill_hashMap_none hr hnone, fun file' hfile' => ?_⟩
      rw [← hfiles, hfile] at hfile'
      cases hfile'
      have := (hc₁.wellFormed s file hfile).maxPageId_add_one
      omega
    · cases hgf

theorem StoredBut.lockPage {g : Nat} (hs : pool.StoredBut g) {f : Nat}
    (hl : pool.lockPage f = some pool') : pool'.StoredBut g := by
  obtain ⟨hlru, haddr, hfiles, hdata⟩ := lockPage_frames hl
  intro g' hg' hne
  rw [hlru] at hg'
  exact (hs g' hg' hne).of_eq hfiles (by rw [haddr]) (hdata g')

theorem newPage_frame (h : pool.Inv) (hc : pool.Coherent) {s p : Nat} {r : Option Nat}
    (hnone : pool.hashMap s p = none) (hn : pool.newPage s p = some (pool', r)) :
    ∃ f, r = some f ∧ pool'.Inv ∧ pool'.files = pool.files ∧ pool'.StoredBut f ∧
      f ∈ pool'.lruList.map LruNode.frame ∧ pool'.frameId2PageAddress f = ⟨true, s, p⟩ ∧
      (pool'.buffer f).data = fun _ => 0 := by
  obtain ⟨pool₁, f, rest, hr, hfree, hl, rfl⟩ := newPage_cases hnone hn
  obtain ⟨hc₁, hfiles⟩ := hc.refill h hr
  obtain ⟨hmem, haddr, hbuf⟩ := mem_install pool₁ f s p rest
    { (pool₁.buffer f).reset with state := .FROM_BUFFER }
  obtain ⟨hlru, haddr', hfiles', hdata⟩ := lockPage_frames hl
  refine ⟨f, rfl, ((h.refill hr).install hfree (refill_hashMap_none hr hnone)).lockPage hl,
    hfiles'.trans hfiles, (storedBut_install (h.refill hr) hc₁ hfree).lockPage hl,
    by rw [hlru]; exact hmem, by rw [haddr']; exact haddr, ?_⟩
  rw [hdata, hbuf]
  rfl

theorem Inv.frame_eq_of_addr_eq (h : pool.Inv) {f g : Nat} (hf : f ∈ pool.lruList.map LruNode.frame)
    (hg : g ∈ pool.lruList.map LruNode.frame)
    (hfg : pool.frameId2PageAddress f = pool.frameId2PageAddress g) : f = g := by
  obtain ⟨x, hx, rfl⟩ := List.mem_map.mp hf
  obtain ⟨y, hy, rfl⟩ := List.mem_map.mp hg
  rw [h.eq_of_addr_eq hx hy hfg]

/-- The frame `log_apply_do_apply` applies to, from `GetPage` or else `NewPage`: an LRU frame for
the page that holds the bytes the file has for it, with every other LRU frame still holding its
page. -/
theorem frame_for_apply (h : pool.Inv) (hc : pool.Coherent) {s p f : Nat}
    {pool₁ pool₂ : BufferPool} {r : Option Nat} (hg : pool.getPage s p = some (pool₁, r))
    (hn : r = some f ∧ pool₂ = pool₁ ∨ r = none ∧ pool₁.newPage s p = some (pool₂, some f)) :
    pool₂.Inv ∧ pool₂.files = pool.files ∧ pool₂.StoredBut f ∧
      f ∈ pool₂.lruList.map LruNode.frame ∧ pool₂.frameId2PageAddress f = ⟨true, s, p⟩ ∧
      ∀ file, pool.files s = some file → file.pages p = (pool₂.buffer f).data := by
  rcases hn with ⟨rfl, rfl⟩ | ⟨rfl, hn⟩
  · -- a cached page, or one read from disk
    obtain ⟨h₁, hc₁, hfiles, hmem, haddr⟩ := getPage_frame h hc hg
    refine ⟨h₁, hfiles, hc₁.storedBut f, hmem, haddr, fun file hfile => ?_⟩
    obtain ⟨file', hfile', -, hdata⟩ := hc₁.cached f hmem
    rw [haddr, hfiles, hfile] at hfile'
    cases hfile'
    rw [haddr] at hdata
    exact hdata
  · -- a page past the end of its file: `NewPage` zeroes a frame, as the file reads a hole
    obtain ⟨h₁, hc₁, hfiles, hnone, hle⟩ := getPage_no_frame h hc hg
    obtain ⟨g, hg', h₂, hfiles₂, hbut, hmem, haddr, hdata⟩ := newPage_frame h₁ hc₁ hnone hn
    cases hg'
    refine ⟨h₂, hfiles₂.trans hfiles, hbut, hmem, haddr, fun file hfile => ?_⟩
    rw [hdata]
    exact (hc.wellFormed s file hfile).zeros p (hle file hfile)

theorem releasePage_files {f : Nat} (hr : pool.releasePage f = some pool') :
    pool'.files = pool.files := by
  unfold BufferPool.releasePage at hr
  split at hr
  · cases hr
    rfl
  · cases hr

theorem FrameStored.writePage {g s p : Nat} (hs : pool.FrameStored g)
    (hne : ¬((pool.frameId2PageAddress g).spaceId = s ∧ (pool.frameId2PageAddress g).pageId = p))
    {file : DataFile} (hfile : pool.files s = some file) (data : Nat → UInt8) :
    ({ pool with files := Function.update pool.files s (some (file.writePage p data)) } :
      BufferPool).FrameStored g := by
  obtain ⟨file', hfile', hlt, hdata⟩ := hs
  by_cases hsg : (pool.frameId2PageAddress g).spaceId = s
  · -- the same file, which only grew
    have hpg : (pool.frameId2PageAddress g).pageId ≠ p := fun hp => hne ⟨hsg, hp⟩
    rw [hsg, hfile] at hfile'
    cases hfile'
    refine ⟨file.writePage p data, by simp [hsg], ?_, ?_⟩
    · exact lt_of_lt_of_le hlt (DataFile.size_le_writePage_size p data)
    · rw [DataFile.pages_writePage_of_ne hpg, hdata]
  · exact ⟨file', by simpa [Function.update_of_ne hsg] using hfile', hlt, hdata⟩

/-- `WriteBackLock` of the frame `log_apply_do_apply` applied to: the file of the page gets the
frame's bytes, and every LRU frame holds its page again. -/
theorem writeBack_frame (h : pool.Inv) (hwf : ∀ s file, pool.files s = some file → file.WellFormed)
    {f s p : Nat} (hbut : pool.StoredBut f) (hmem : f ∈ pool.lruList.map LruNode.frame)
    (haddr : pool.frameId2PageAddress f = ⟨true, s, p⟩) {b : Bool}
    (hw : pool.writeBack s p = some (pool', b)) :
    pool'.Coherent ∧ ∃ file, pool.files s = some file ∧
      pool' = { pool with
        files := Function.update pool.files s (some (file.writePage p (pool.buffer f).data)) } := by
  obtain ⟨x, hx, rfl⟩ := List.mem_map.mp hmem
  have hhash : pool.hashMap s p = some x.node := by
    simpa [haddr] using h.hash_complete x hx
  rcases writeBack_cases hw with ⟨hnone, -⟩ | ⟨n, g, file, hn, hg, hfile, rfl⟩
  · rw [hhash] at hnone
    cases hnone
  obtain rfl : n = x.node := Option.some.inj (hn.symm.trans hhash)
  obtain rfl : g = x.frame := Option.some.inj (hg.symm.trans (h.nodeFrame_eq hx))
  rw [(hwf s file hfile).writeStream]
  refine ⟨⟨fun s' file' hs' => ?_, fun g' hg' => ?_⟩, file, hfile, rfl⟩
  · dsimp only at hs'
    by_cases hs : s' = s
    · subst hs
      simp only [Function.update_self, Option.some.injEq] at hs'
      subst hs'
      exact (hwf _ file hfile).writePage p _
    · rw [Function.update_of_ne hs] at hs'
      exact hwf s' file' hs'
  by_cases hgf : g' = x.frame
  · -- the frame applied to now holds what its file has
    subst hgf
    refine ⟨file.writePage p (pool.buffer x.frame).data, ?_, ?_, ?_⟩ <;> simp only [haddr]
    · simp
    · exact DataFile.lt_writePage_size p _
    · exact DataFile.pages_writePage_self p _
  · -- another frame holds another page
    refine (hbut g' hg' hgf).writePage (fun heq => hgf ?_) hfile _
    refine h.frame_eq_of_addr_eq hg' hmem ?_
    rw [haddr]
    exact PageAddressLru.ext ((h.inLru_iff g').mpr hg') heq.1 heq.2

end BufferPool

/-! ### What `log_apply_do_apply` leaves in a page -/

section Apply

variable (rec : RecordApplier)

/-- The bytes the loop of `log_apply_do_apply` leaves in a page that held `data`; the flags of
the frame play no part. -/
def applyData (data : Nat → UInt8) (logs : List LogEntry) : Option (Nat → UInt8) :=
  (applyLogs rec ⟨data, false, false, .INVALID⟩ logs).map Page.data

theorem applyStep_data (g : Nat) (page : Page) (log : LogEntry) :
    (applyStep rec g page log).map Page.data =
      (applyStep rec g ⟨page.data, false, false, .INVALID⟩ log).map Page.data := by
  unfold applyStep
  split
  · rfl
  · cases logApplyApplyOneLog rec page.data log with
    | none => rfl
    | some r =>
        obtain ⟨_ | _, data⟩ := r <;> rfl

theorem applyLogs_data (page : Page) (logs : List LogEntry) :
    (applyLogs rec page logs).map Page.data = applyData rec page.data logs := by
  have hrun := foldlM_map (g := fun d e =>
    (applyStep rec page.getLSN ⟨d, false, false, .INVALID⟩ e).map Page.data)
    (applyStep_data rec page.getLSN)
  have hlsn : (⟨page.data, false, false, .INVALID⟩ : Page).getLSN = page.getLSN := rfl
  rw [applyData, applyLogs, applyLogs, hlsn, applyFrom, applyFrom, hrun, hrun]

@[simp] theorem applyData_nil (data : Nat → UInt8) : applyData rec data [] = some data := rfl

variable {rec}

/-- The end of `log_apply_do_apply` on the frame it got: the loop, the write-back of the frame
and its release. The file of the page gets the bytes the loop computed. -/
theorem stored_after_apply {pool₂ pool' : BufferPool} {f : Nat}
    {a : PageAddress} {logs : List LogEntry} (h₂ : pool₂.Inv)
    (hwf : ∀ s file, pool₂.files s = some file → file.WellFormed) (hbut : pool₂.StoredBut f)
    (hmem : f ∈ pool₂.lruList.map LruNode.frame)
    (haddr : pool₂.frameId2PageAddress f = ⟨true, a.spaceId, a.pageId⟩)
    (hk : (applyLogs rec (pool₂.buffer f) logs).bind (fun page =>
      ({ pool₂ with buffer := Function.update pool₂.buffer f page }.writeBackLock a.spaceId
        a.pageId).bind fun x => x.1.releasePage f) = some pool') :
    pool'.Inv ∧ pool'.Coherent ∧ ∃ file page, pool₂.files a.spaceId = some file ∧
      applyLogs rec (pool₂.buffer f) logs = some page ∧
      pool'.files = Function.update pool₂.files a.spaceId (some (file.writePage a.pageId page.data)) := by
  simp only [Option.bind_eq_some_iff] at hk
  obtain ⟨page, happly, ⟨pool₄, b⟩, hw, hrel⟩ := hk
  have h₃ : ({ pool₂ with buffer := Function.update pool₂.buffer f page } : BufferPool).Inv :=
    h₂.of_index rfl rfl rfl rfl rfl
  have hbut₃ : ({ pool₂ with buffer := Function.update pool₂.buffer f page } : BufferPool).StoredBut f :=
    fun g hg hne => (hbut g hg hne).of_eq rfl rfl (by simp [Function.update_of_ne hne])
  obtain ⟨hc₄, file, hfile, rfl⟩ := BufferPool.writeBack_frame h₃ hwf hbut₃ hmem haddr hw
  refine ⟨(h₃.writeBack hw).releasePage hrel, hc₄.releasePage hrel, file, page, hfile, happly, ?_⟩
  rw [BufferPool.releasePage_files hrel]
  simp

/-- A call of `log_apply_do_apply` on a coherent pool keeps it coherent and changes the files in
one page only, the page it is given when its tablespace is in the data page group: to the
bytes its loop computes from the bytes the file had. -/
theorem logApplyDoApply_stored {dataPageGroup : Nat → Bool} {pool pool' : BufferPool}
    {a : PageAddress} {logs : List LogEntry} (h : pool.Inv) (hc : pool.Coherent)
    (hd : logApplyDoApply rec dataPageGroup pool a logs = some pool') :
    pool'.Inv ∧ pool'.Coherent ∧ ∀ b, pool'.stored b =
      if dataPageGroup a.spaceId = true ∧ b = a then (pool.stored a).bind (applyData rec · logs)
      else pool.stored b := by
  unfold logApplyDoApply at hd
  by_cases hg : dataPageGroup a.spaceId = true
  swap
  · -- a tablespace outside the group is skipped
    simp [hg] at hd
    subst hd
    exact ⟨h, hc, fun b => by simp [hg]⟩
  simp only [hg, Bool.not_true, Bool.false_eq_true, if_false, Option.bind_eq_bind] at hd
  obtain ⟨⟨pool₁, r⟩, hget, hd⟩ := Option.bind_eq_some_iff.mp hd
  -- the frame: the one `GetPage` gives, or else one from `NewPage`
  obtain ⟨pool₂, f, hacq, hd⟩ : ∃ pool₂ f, (r = some f ∧ pool₂ = pool₁ ∨
      r = none ∧ pool₁.newPage a.spaceId a.pageId = some (pool₂, some f)) ∧
      (applyLogs rec (pool₂.buffer f) logs).bind (fun page =>
        ({ pool₂ with buffer := Function.update pool₂.buffer f page }.writeBackLock a.spaceId
          a.pageId).bind fun x => x.1.releasePage f) = some pool' := by
    cases r with
    | some g =>
        simp only [Option.isNone_some, Bool.false_eq_true, if_false, Option.pure_def,
          Option.bind_some] at hd
        exact ⟨pool₁, g, .inl ⟨rfl, rfl⟩, hd⟩
    | none =>
        simp only [Option.isNone_none, if_true] at hd
        obtain ⟨⟨pool₂, r₂⟩, hnew, hd⟩ := Option.bind_eq_some_iff.mp hd
        cases r₂ with
        | none => cases hd
        | some f => exact ⟨pool₂, f, .inr ⟨rfl, hnew⟩, hd⟩
  obtain ⟨h₂, hfiles₂, hbut, hmem, haddr, hdata⟩ := BufferPool.frame_for_apply h hc hget hacq
  obtain ⟨h', hc', file, page, hfile, happly, hfiles'⟩ :=
    stored_after_apply h₂ (hfiles₂ ▸ hc.wellFormed) hbut hmem haddr hd
  refine ⟨h', hc', fun b => ?_⟩
  rw [hfiles₂] at hfile hfiles'
  have hbefore : pool.stored a = some (pool₂.buffer f).data := by
    simp [BufferPool.stored, hfile, hdata file hfile]
  have happ : applyData rec (pool₂.buffer f).data logs = some page.data := by
    rw [← applyLogs_data, happly]
    rfl
  simp only [hg, true_and, hbefore, Option.bind_some, happ]
  simp only [BufferPool.stored, hfiles']
  by_cases hs : b.spaceId = a.spaceId
  · by_cases hp : b.pageId = a.pageId
    · have hb : b = a := by cases b; cases a; simp_all
      simp [hb]
    · have hb : b ≠ a := fun hb => hp (by rw [hb])
      simp [hs, hb, hfile, DataFile.pages_writePage_of_ne hp]
  · have hb : b ≠ a := fun hb => hs (by rw [hb])
    simp [Function.update_of_ne hs, hb]

end Apply

end LogDB
