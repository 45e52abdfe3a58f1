import Mathlib.Logic.Function.Basic
import Mathlib.Data.List.Basic

/-!
The client-side data-page store of `catcher_filter.cpp`. The library is
preloaded into the database process and interposes `open`, `pread`, `pwrite`
and `close`: writes to the files of `datafile_set` are kept in `local_buf`, one
heap map per descriptor from file offset to a `malloc`ed copy of the written
bytes, and reads at an offset that has such a copy are served from it.

The heap is explicit: maps and buffers are numbered objects, and a deleted map
or a freed buffer is `none`. Every access C++ leaves undefined (a deleted map
used through a stale pointer, a copy past the end of a buffer) ends the call
with a `Fault`. Descriptors are the numbers the system `open` returned, passed
in with the call; the system calls themselves (`orig_open`, `orig_pread`, ...)
are outside the program, so a forwarded call answers `Reply.system`.

`fd2space_id` and the first-page read that fills it are left out: no modelled
call reads them back.
-/

namespace LogDB.CatcherFilter

/-- `datafile_set` of the `SYSBENCH` build. -/
def datafileSet : List String :=
  ["./sbtest/sbtest1.ibd", "./sbtest/sbtest2.ibd", "./sbtest/sbtest3.ibd",
   "./sbtest/sbtest4.ibd", "./sbtest/sbtest5.ibd", "./sbtest/sbtest6.ibd",
   "./sbtest/sbtest7.ibd", "./sbtest/sbtest8.ibd", "./sbtest/sbtest9.ibd",
   "./sbtest/sbtest10.ibd", "./sbtest/sbtest11.ibd", "./sbtest/sbtest12.ibd",
   "./sbtest/sbtest13.ibd", "./sbtest/sbtest14.ibd", "./sbtest/sbtest15.ibd",
   "./sbtest/sbtest16.ibd", "./sbtest/sbtest17.ibd", "./sbtest/sbtest18.ibd",
   "./sbtest/sbtest19.ibd", "./sbtest/sbtest20.ibd", "./sbtest/sbtest21.ibd",
   "./sbtest/sbtest22.ibd", "./sbtest/sbtest23.ibd", "./sbtest/sbtest24.ibd",
   "./sbtest/sbtest25.ibd", "./sbtest/sbtest26.ibd", "./sbtest/sbtest27.ibd",
   "./sbtest/sbtest28.ibd", "./sbtest/sbtest29.ibd", "./sbtest/sbtest30.ibd",
   "./sbtest/sbtest31.ibd", "./sbtest/sbtest32.ibd", "./sbtest/sbtest33.ibd",
   "./sbtest/sbtest34.ibd", "./sbtest/sbtest35.ibd", "./sbtest/sbtest36.ibd",
   "./sbtest/sbtest37.ibd", "./sbtest/sbtest38.ibd", "./sbtest/sbtest39.ibd",
   "./sbtest/sbtest40.ibd"]

/-- `is_data_file(const std::string &)`. -/
def isDataFile (filename : String) : Bool := datafileSet.contains filename

/-- The globals the interposed calls share, and the heap objects they point to. -/
structure State where
  fd2filename : Int → Option String
  /-- `local_buf`: descriptor to the map it points to. -/
  localBuf : Int → Option Nat
  /-- The heap maps: offset to buffer; `none` once deleted. -/
  maps : Nat → Option (List (Int × Nat))
  /-- The `malloc`ed buffers with their bytes (as many as were allocated);
  `none` once freed. -/
  bufs : Nat → Option (List UInt8)
  nextMap : Nat
  nextBuf : Nat

/-- The process before any interposed call. -/
def State.init : State :=
  ⟨fun _ => none, fun _ => none, fun _ => none, fun _ => none, 0, 0⟩

/-- `is_data_file(int fd)`. -/
def State.isDataFile (s : State) (fd : Int) : Bool :=
  match s.fd2filename fd with
  | some filename => CatcherFilter.isDataFile filename
  | none => false

/-- An access that C++ leaves undefined. -/
inductive Fault where
  /-- a map used after `delete` -/
  | deletedMap (map : Nat)
  /-- a buffer used after `free` -/
  | freedBuffer (buf : Nat)
  /-- `memcpy` of `count` bytes into or out of a buffer of `size` bytes -/
  | outOfBounds (buf count size : Nat)
  deriving DecidableEq, Repr

/-- What an interposed call returns to the database. -/
inductive Reply where
  | fd (fd : Int)
  /-- a read served from `local_buf`, with the bytes copied out -/
  | served (bytes : List UInt8)
  /-- a data-page write kept in `local_buf`; the call returns `count` -/
  | stored (count : Nat)
  /-- the call was passed on to the system call and returns what it returns -/
  | system
  deriving DecidableEq, Repr

/-- The map behind a `local_buf` pointer. -/
def State.useMap (s : State) (m : Nat) : Except Fault (List (Int × Nat)) :=
  match s.maps m with
  | some entries => .ok entries
  | none => .error (.deletedMap m)

/-- The bytes of a buffer. -/
def State.useBuf (s : State) (b : Nat) : Except Fault (List UInt8) :=
  match s.bufs b with
  | some bytes => .ok bytes
  | none => .error (.freedBuffer b)

/-- `open` and `open64`: `fd` is what the system call returned. -/
def «open» (s : State) (pathname : String) (fd : Int) : State × Reply :=
  let s := { s with fd2filename := Function.update s.fd2filename fd (some pathname) }
  if isDataFile pathname then
    -- `local_buf.emplace(fd, tmp_map)` keeps an entry that is already there
    ({ s with
        maps := Function.update s.maps s.nextMap (some [])
        nextMap := s.nextMap + 1
        localBuf := if (s.localBuf fd).isSome then s.localBuf
          else Function.update s.localBuf fd (some s.nextMap) }, .fd fd)
  else (s, .fd fd)

def open64 (s : State) (pathname : String) (fd : Int) : State × Reply := «open» s pathname fd

/-- `pread` and `pread64`. -/
def pread (s : State) (fd : Int) (count : Nat) (offset : Int) : Except Fault (State × Reply) :=
  match s.localBuf fd with
  | none => .ok (s, .system)
  | some m => do
      let entries ← s.useMap m
      match entries.lookup offset with
      | none => .ok (s, .system)
      | some b => do
          let bytes ← s.useBuf b
          if count ≤ bytes.length then .ok (s, .served (bytes.take count))
          else .error (.outOfBounds b count bytes.length)

def pread64 (s : State) (fd : Int) (count : Nat) (offset : Int) :
    Except Fault (State × Reply) :=
  pread s fd count offset

/-- `pwrite` and `pwrite64`; `buf` holds the `count` bytes to write. -/
def pwrite (s : State) (fd : Int) (buf : List UInt8) (offset : Int) :
    Except Fault (State × Reply) :=
  if s.isDataFile fd then
    match s.localBuf fd with
    -- "hkc-test fd error!": nothing is stored and the count is returned
    | none => .ok (s, .stored buf.length)
    | some m => do
        let entries ← s.useMap m
        match entries.lookup offset with
        | some b => do
            -- update: the copy is as long as this write, the buffer as long as the first
            let bytes ← s.useBuf b
            if buf.length ≤ bytes.length then
              .ok ({ s with bufs := Function.update s.bufs b (some (buf ++ bytes.drop buf.length)) },
                .stored buf.length)
            else .error (.outOfBounds b buf.length bytes.length)
        | none =>
            .ok ({ s with
                bufs := Function.update s.bufs s.nextBuf (some buf)
                nextBuf := s.nextBuf + 1
                maps := Function.update s.maps m (some (entries ++ [(offset, s.nextBuf)])) },
              .stored buf.length)
  else .ok (s, .system)

def pwrite64 (s : State) (fd : Int) (buf : List UInt8) (offset : Int) :
    Except Fault (State × Reply) :=
  pwrite s fd buf offset

/-- Free the buffers of one map, in its order. -/
def freeBuffers (bufs : Nat → Option (List UInt8)) :
    List (Int × Nat) → Except Fault (Nat → Option (List UInt8))
  | [] => .ok bufs
  | (_, b) :: rest =>
      match bufs b with
      | some _ => freeBuffers (Function.update bufs b none) rest
      | none => .error (.freedBuffer b)

/-- `close`: the map and its buffers are released, but `local_buf[fd]` keeps
pointing at the deleted map. -/
def close (s : State) (fd : Int) : Except Fault (State × Reply) := do
  let s ← if s.isDataFile fd then
      match s.localBuf fd with
      | none => pure s
      | some m => do
          let entries ← s.useMap m
          let bufs ← freeBuffers s.bufs entries
          pure { s with bufs := bufs, maps := Function.update s.maps m none }
    else pure s
  pure ({ s with fd2filename := Function.update s.fd2filename fd none }, .system)

/-- One interposed call, with the descriptor the system chose for an `open`. -/
inductive Call where
  | «open» (pathname : String) (fd : Int)
  | open64 (pathname : String) (fd : Int)
  | pread (fd : Int) (count : Nat) (offset : Int)
  | pread64 (fd : Int) (count : Nat) (offset : Int)
  | pwrite (fd : Int) (buf : List UInt8) (offset : Int)
  | pwrite64 (fd : Int) (buf : List UInt8) (offset : Int)
  | close (fd : Int)

def step (s : State) : Call → Except Fault (State × Reply)
  | .open pathname fd => .ok («open» s pathname fd)
  | .open64 pathname fd => .ok (open64 s pathname fd)
  | .pread fd count offset => pread s fd count offset
  | .pread64 fd count offset => pread64 s fd count offset
  | .pwrite fd buf offset => pwrite s fd buf offset
  | .pwrite64 fd buf offset => pwrite64 s fd buf offset
  | .close fd => close s fd

/-- The calls in order, with the reply of the last one; a fault stops the run. -/
def run (s : State) : List Call → Except Fault (State × Reply)
  | [] => .ok (s, .system)
  | c :: cs => do
      let (s', r) ← step s c
      if cs.isEmpty then pure (s', r) else run s' cs

/-! ### Two runs that leave defined behaviour -/

section
variable {pathname : String} (hdata : isDataFile pathname = true) (fd offset : Int)
include hdata

/-- The first write at an offset fixes the size of its copy; a longer write at the same
offset copies past its end. -/
theorem pwrite_overruns_first_copy (first later : List UInt8)
    (hlonger : first.length < later.length) :
    run State.init [.open pathname fd, .pwrite fd first offset, .pwrite fd later offset] =
      .error (.outOfBounds 0 later.length first.length) := by
  simp [run, step, «open», pwrite, State.isDataFile, State.init, hdata, State.useMap,
    State.useBuf, bind, Except.bind, Nat.not_le.mpr hlonger]

/-- A read through the reused descriptor looks up the deleted map. -/
theorem reopen_pread_uses_deleted_map (buf : List UInt8) (count : Nat) :
    run State.init [.open pathname fd, .pwrite fd buf offset, .close fd, .open pathname fd,
      .pread fd count offset] = .error (.deletedMap 0) := by
  simp [run, step, «open», pwrite, close, pread, State.isDataFile, State.init, hdata,
    State.useMap, freeBuffers, bind, Except.bind, pure, Except.pure]

end

theorem local_buf_unsafe_runs :
    run State.init [.open "./sbtest/sbtest1.ibd" 3, .pwrite 3 (List.replicate 16384 0) 0,
        .pwrite 3 (List.replicate 32768 0) 0] = .error (.outOfBounds 0 32768 16384) ∧
      run State.init [.open "./sbtest/sbtest1.ibd" 3, .pwrite 3 (List.replicate 16384 0) 0,
        .close 3, .open "./sbtest/sbtest1.ibd" 3, .pread 3 16384 0] = .error (.deletedMap 0) := by
  have hdata : isDataFile "./sbtest/sbtest1.ibd" = true := by decide
  constructor
  · have h := pwrite_overruns_first_copy hdata 3 0 (List.replicate 16384 0)
      (List.replicate 32768 0) (by rw [List.length_replicate, List.length_replicate]; omega)
    rwa [List.length_replicate, List.length_replicate] at h
  · exact reopen_pread_uses_deleted_map hdata 3 0 _ 16384

end LogDB.CatcherFilter
