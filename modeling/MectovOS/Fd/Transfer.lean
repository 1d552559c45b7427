/-
This file models `do_sys_read` and `do_sys_write` of src/sys/fd.c on pipes and
pseudo-terminals, with `pty_read` and `pty_write` of src/sys/pty.c. A call on a
pipe is a series of stretches under `fd_lock`: it moves bytes one by one until
it is done or the ring is empty or full, and then drops the lock, halts and
fetches its descriptor again.
-/

import MectovOS.Fd.Table
import MectovOS.Lib.Ring

namespace MectovOS.Fd

open Function

/-! ### Rings -/

/-- The buffer of a pipe, or of one direction of a pseudo-terminal, with its two positions. -/
structure ByteRing where
  buffer : Nat → UInt8
  readPos : Nat
  writePos : Nat

def Pipe.ring (pipe : Pipe) : ByteRing := ⟨pipe.buffer, pipe.readPos, pipe.writePos⟩

def Pty.m2sRing (pty : Pty) : ByteRing := ⟨pty.m2s, pty.m2sR, pty.m2sW⟩

def Pty.s2mRing (pty : Pty) : ByteRing := ⟨pty.s2m, pty.s2mR, pty.s2mW⟩

/-- What bytes flow through: a pipe, or a direction of a pseudo-terminal. -/
inductive Channel where
  | pipe (pipe : Nat)
  | m2s (pty : Nat)
  | s2m (pty : Nat)
  deriving DecidableEq

def Channel.capacity : Channel → Nat
  | .pipe _ => pipeBufSize
  | _ => ptyBufSize

theorem Channel.capacity_eq (channel : Channel) : channel.capacity = 4096 := by
  cases channel <;> rfl

/-- The ring of a channel. -/
def Tables.ring (tables : Tables) : Channel → ByteRing
  | .pipe pipe => (tables.pipes pipe).ring
  | .m2s pty => (tables.ptys pty).m2sRing
  | .s2m pty => (tables.ptys pty).s2mRing

def Tables.setRing (tables : Tables) (channel : Channel) (ring : ByteRing) : Tables :=
  match channel with
  | .pipe pipe =>
    tables.setPipe pipe
      { tables.pipes pipe with
        buffer := ring.buffer, readPos := ring.readPos, writePos := ring.writePos }
  | .m2s pty =>
    tables.setPty pty
      { tables.ptys pty with m2s := ring.buffer, m2sR := ring.readPos, m2sW := ring.writePos }
  | .s2m pty =>
    tables.setPty pty
      { tables.ptys pty with s2m := ring.buffer, s2mR := ring.readPos, s2mW := ring.writePos }

theorem ring_setPipe (tables : Tables) (pipe : Nat) (value : Pipe) (index : Nat) :
    (tables.setPipe pipe value).ring (.pipe index) =
      if index = pipe then value.ring else tables.ring (.pipe index) := by
  show (update tables.pipes pipe value index).ring = _
  rw [update_apply]
  split <;> rfl

theorem ring_setPty_m2s (tables : Tables) (pty : Nat) (value : Pty) (index : Nat) :
    (tables.setPty pty value).ring (.m2s index) =
      if index = pty then value.m2sRing else tables.ring (.m2s index) := by
  show (update tables.ptys pty value index).m2sRing = _
  rw [update_apply]
  split <;> rfl

theorem ring_setPty_s2m (tables : Tables) (pty : Nat) (value : Pty) (index : Nat) :
    (tables.setPty pty value).ring (.s2m index) =
      if index = pty then value.s2mRing else tables.ring (.s2m index) := by
  show (update tables.ptys pty value index).s2mRing = _
  rw [update_apply]
  split <;> rfl

@[simp] theorem setRing_self (tables : Tables) (channel : Channel) (ring : ByteRing) :
    (tables.setRing channel ring).ring channel = ring := by
  cases channel with
  | pipe pipe => exact (ring_setPipe tables pipe _ pipe).trans (if_pos rfl)
  | m2s pty => exact (ring_setPty_m2s tables pty _ pty).trans (if_pos rfl)
  | s2m pty => exact (ring_setPty_s2m tables pty _ pty).trans (if_pos rfl)

/-- The rings of a pseudo-terminal do not depend on each other, nor on other slots. -/
theorem setRing_of_ne (tables : Tables) {channel other : Channel} (different : other ≠ channel)
    (ring : ByteRing) : (tables.setRing channel ring).ring other = tables.ring other := by
  cases channel with
  | pipe pipe =>
    cases other with
    | pipe index =>
      refine (ring_setPipe tables pipe _ index).trans (if_neg ?_)
      exact fun same => different (congrArg Channel.pipe same)
    | m2s index => rfl
    | s2m index => rfl
  | m2s pty =>
    cases other with
    | pipe index => rfl
    | m2s index =>
      refine (ring_setPty_m2s tables pty _ index).trans (if_neg ?_)
      exact fun same => different (congrArg Channel.m2s same)
    | s2m index =>
      refine (ring_setPty_s2m tables pty _ index).trans ?_
      split
      · rename_i same
        subst same
        rfl
      · rfl
  | s2m pty =>
    cases other with
    | pipe index => rfl
    | m2s index =>
      refine (ring_setPty_m2s tables pty _ index).trans ?_
      split
      · rename_i same
        subst same
        rfl
      · rfl
    | s2m index =>
      refine (ring_setPty_s2m tables pty _ index).trans (if_neg ?_)
      exact fun same => different (congrArg Channel.s2m same)

/-- The positions of a ring lie inside its buffer. -/
structure ByteRing.Valid (ring : ByteRing) (capacity : Nat) : Prop where
  reads : ring.readPos < capacity
  writes : ring.writePos < capacity

/-- The bytes in flight, oldest first. -/
def ByteRing.contents (ring : ByteRing) (capacity : Nat) : List UInt8 :=
  Ring.contents ring.buffer capacity ring.readPos (Ring.held capacity ring.readPos ring.writePos)

/-- A ring is never quite full. -/
theorem ByteRing.Valid.length_contents {ring : ByteRing} {capacity : Nat}
    (valid : ring.Valid capacity) : (ring.contents capacity).length < capacity := by
  unfold ByteRing.contents
  rw [Ring.length_contents]
  exact Ring.held_lt (Nat.lt_of_le_of_lt (Nat.zero_le _) valid.reads) _ _

/-- A ring whose positions meet is empty. -/
theorem ByteRing.contents_eq_nil {ring : ByteRing} (same : ring.readPos = ring.writePos)
    (capacity : Nat) : ring.contents capacity = [] := by
  unfold ByteRing.contents
  rw [same, Ring.held_self, Ring.contents_zero]

/-! ### Moving bytes -/

/-- The loop of `do_sys_read` and of `pty_read`, up to the point where it is done or the ring is
empty. -/
def takeBytes (capacity : Nat) : Nat → ByteRing → List UInt8 × ByteRing
  | 0, ring => ([], ring)
  | size + 1, ring =>
    if ring.readPos ≠ ring.writePos then
      let next := if capacity ≤ ring.readPos + 1 then 0 else ring.readPos + 1
      let later := takeBytes capacity size { ring with readPos := next }
      (ring.buffer ring.readPos :: later.1, later.2)
    else ([], ring)

/-- The loop of `do_sys_write` and of `pty_write`, up to the point where it is done or the ring
is full; the bytes it moved are a prefix of those it is given. -/
def putBytes (capacity : Nat) : List UInt8 → ByteRing → List UInt8 × ByteRing
  | [], ring => ([], ring)
  | byte :: rest, ring =>
    let next := (ring.writePos + 1) % capacity
    if next ≠ ring.readPos then
      let later := putBytes capacity rest
        { ring with buffer := update ring.buffer ring.writePos byte, writePos := next }
      (byte :: later.1, later.2)
    else ([], ring)

/-- A read takes the oldest bytes, and stops early only at an empty ring. -/
theorem takeBytes_spec {capacity : Nat} (size : Nat) {ring : ByteRing}
    (valid : ring.Valid capacity) :
    (takeBytes capacity size ring).2.Valid capacity ∧
      ring.contents capacity = (takeBytes capacity size ring).1 ++
        (takeBytes capacity size ring).2.contents capacity ∧
      (takeBytes capacity size ring).1.length ≤ size ∧
      ((takeBytes capacity size ring).1.length < size →
        (takeBytes capacity size ring).2.contents capacity = []) := by
  induction size generalizing ring with
  | zero => exact ⟨valid, rfl, Nat.le_refl 0, fun short => absurd short (Nat.lt_irrefl 0)⟩
  | succ size inductionHypothesis =>
    unfold takeBytes
    by_cases some' : ring.readPos ≠ ring.writePos
    · rw [if_pos some']
      have onward : (if capacity ≤ ring.readPos + 1 then 0 else ring.readPos + 1) =
          (ring.readPos + 1) % capacity := by
        have reads := valid.reads
        split
        · have wraps : ring.readPos + 1 = capacity := by omega
          rw [wraps, Nat.mod_self]
        · exact (Nat.mod_eq_of_lt (by omega)).symm
      have positive : 0 < capacity := Nat.lt_of_le_of_lt (Nat.zero_le _) valid.reads
      have valid' : ByteRing.Valid { ring with readPos := (ring.readPos + 1) % capacity }
          capacity := ⟨Nat.mod_lt _ positive, valid.writes⟩
      obtain ⟨still, contents, bounded, early⟩ := inductionHypothesis valid'
      simp only [onward]
      refine ⟨still, ?_, Nat.succ_le_succ bounded, fun short => early (Nat.lt_of_succ_lt_succ short)⟩
      rw [List.cons_append, ← contents]
      unfold ByteRing.contents
      have more := Ring.held_pop valid.reads valid.writes
        (Ring.held_pos valid.reads valid.writes some')
      rw [← more, Ring.contents_pop, Nat.mod_eq_of_lt valid.reads]
    · rw [if_neg some']
      rw [not_ne_iff] at some'
      exact ⟨valid, rfl, Nat.zero_le _, fun _ => ByteRing.contents_eq_nil some' capacity⟩

/-- A write appends the bytes it moved, which are the first of those it was given. -/
theorem putBytes_spec {capacity : Nat} (data : List UInt8) {ring : ByteRing}
    (valid : ring.Valid capacity) :
    (putBytes capacity data ring).2.Valid capacity ∧
      (putBytes capacity data ring).2.contents capacity =
        ring.contents capacity ++ (putBytes capacity data ring).1 ∧
      (putBytes capacity data ring).1 <+: data := by
  induction data generalizing ring with
  | nil => exact ⟨valid, (List.append_nil _).symm, List.prefix_refl []⟩
  | cons byte rest inductionHypothesis =>
    unfold putBytes
    by_cases room : (ring.writePos + 1) % capacity ≠ ring.readPos
    · simp only [if_pos room]
      have positive : 0 < capacity := Nat.lt_of_le_of_lt (Nat.zero_le _) valid.reads
      have valid' : ByteRing.Valid
          { ring with
            buffer := update ring.buffer ring.writePos byte
            writePos := (ring.writePos + 1) % capacity } capacity :=
        ⟨valid.reads, Nat.mod_lt _ positive⟩
      obtain ⟨still, contents, first⟩ := inductionHypothesis valid'
      refine ⟨still, ?_, List.cons_prefix_cons.mpr ⟨rfl, first⟩⟩
      have space := Ring.held_room valid.reads valid.writes room
      have pushed := @Ring.contents_push _ ring.buffer _ ring.readPos _ (Nat.lt_of_succ_lt space) byte
      rw [contents]
      unfold ByteRing.contents
      rw [Ring.readPos_add_held valid.reads valid.writes] at pushed
      show Ring.contents (update ring.buffer ring.writePos byte) capacity ring.readPos
        (Ring.held capacity ring.readPos ((ring.writePos + 1) % capacity)) ++ _ = _
      rw [Ring.held_push valid.reads valid.writes space, pushed, List.append_assoc]
      rfl
    · rw [if_neg room]
      exact ⟨valid, (List.append_nil _).symm, List.nil_prefix⟩

/-! ### Stretches -/

/-- What a call asks for; the size of a write is the length of its data. -/
inductive Request where
  | read (size : Int)
  | write (data : List UInt8)

/-- How many bytes a call asks to move; a negative size asks for none. -/
def Request.size : Request → Nat
  | .read size => size.toNat
  | .write data => data.length

/-- How a stretch ends: a call on no pipe or pseudo-terminal returns a value, and one that moves
bytes goes on to return or to halt. -/
inductive Stretch where
  | result (value : Int)
  | moved (channel : Channel) (bytes : List UInt8) (returns : Bool)

/-- Move bytes through a channel, from the point where a call has moved `done` of them. -/
def transfer (tables : Tables) (channel : Channel) (done : Nat) : Request → Tables × List UInt8
  | .read size =>
    let taken := takeBytes channel.capacity (size.toNat - done) (tables.ring channel)
    (tables.setRing channel taken.2, taken.1)
  | .write data =>
    let put := putBytes channel.capacity (data.drop done) (tables.ring channel)
    (tables.setRing channel put.2, put.1)

/-- The loop of `do_sys_read` or `do_sys_write` on a pipe, until it returns or drops the lock. -/
def pipeStretch (tables : Tables) (pipe done : Nat) (request : Request) : Tables × Stretch :=
  let moved := transfer tables (.pipe pipe) done request
  let finished := decide (done + moved.2.length = request.size)
  match request with
  | .read _ =>
    (moved.1, .moved (.pipe pipe) moved.2 (finished || (tables.pipes pipe).closedWrite))
  | .write _ => (moved.1, .moved (.pipe pipe) moved.2 finished)

/-- The channel a side of a pseudo-terminal reads from or writes to. -/
def ptyChannel (pty : Nat) (isMaster : Bool) : Request → Channel
  | .read _ => if isMaster then .s2m pty else .m2s pty
  | .write _ => if isMaster then .m2s pty else .s2m pty

/-- `pty_read` and `pty_write`. -/
def ptyStretch (tables : Tables) (gfd : Nat) (request : Request) : Tables × Stretch :=
  match ptySlotIsMaster tables gfd with
  | none => (tables, .result (-1))
  | some isMaster =>
    let channel := ptyChannel (tables.globalFds gfd).pipeId isMaster request
    let moved := transfer tables channel 0 request
    (moved.1, .moved channel moved.2 true)

/-- What the file system or the network answers, and where it leaves the descriptor's offset. -/
structure Backend where
  result : Int
  offset : Option Int

/-- The branches of a file, a device or a socket. -/
def backendStretch (tables : Tables) (gfd : Nat) (backend : Backend) : Tables × Stretch :=
  match (tables.globalFds gfd).type, backend.offset with
  | .socket, _ => (tables, .result backend.result)
  | _, some offset =>
    (tables.setGlobal gfd { tables.globalFds gfd with offset := offset }, .result backend.result)
  | _, none => (tables, .result backend.result)

/-- The end of a pipe a call works on. -/
def Request.endType : Request → FdType
  | .read _ => .pipeRead
  | .write _ => .pipeWrite

/-- The first stretch of `do_sys_read` or `do_sys_write`. -/
def firstStretch (tables : Tables) (tid : Nat) (fd : Int) (request : Request) (backend : Backend) :
    Tables × Stretch :=
  match taskGetFd tables tid fd with
  | none => (tables, .result (-1))
  | some gfd =>
    if (tables.globalFds gfd).inUse = false then (tables, .result (-1))
    else
      match (tables.globalFds gfd).type with
      | .file | .dev | .socket => backendStretch tables gfd backend
      | .pty => ptyStretch tables gfd request
      | type =>
        if type = request.endType then pipeStretch tables (tables.globalFds gfd).pipeId 0 request
        else (tables, .result (-1))

/-- A stretch after a halt: the descriptor is fetched again, and what it is now is not asked. -/
def nextStretch (tables : Tables) (tid : Nat) (fd : Int) (done : Nat) (request : Request) :
    Option (Tables × Stretch) :=
  match taskGetFd tables tid fd with
  | none => none
  | some gfd =>
    if (tables.globalFds gfd).inUse = false then none
    else some (pipeStretch tables (tables.globalFds gfd).pipeId done request)

end MectovOS.Fd
