/-
This file models src/drivers/virtio_blk.c on its devices: a read or a write under `vblk_lock`
goes through its chunks by steps, each request over the descriptors 0 to 2, the one header and
the one status byte of its device and the one bounce buffer of all of them, and a device takes
a chain, reads its descriptors, moves its sectors, writes its status and completes it by steps
of its own, after any delay. The content of a sector is a parameter.
-/

import MectovOS.Lib.Virtqueue
import MectovOS.Lib.Transition

namespace MectovOS.Virtio

open Virtqueue Function

variable {Data : Type}

/-! ### The memory that driver and device share -/

/-- `VIRTIO_BLK_MAX`, `VBLK_CHUNK` and the requests `VBLK_T_IN`, `VBLK_T_OUT`, `VBLK_T_FLUSH`. -/
def virtioBlkMax : Nat := 4
def vblkChunkSectors : Nat := 32
def vblkIn : Nat := 0
def vblkOut : Nat := 1
def vblkTFlush : Nat := 4

/-- `VBLK_S_OK` and the status byte that the driver leaves before a request. -/
def vblkOk : Nat := 0
def vblkPending : Nat := 0xFF

/-- `VIRTQ_DESC_F_NEXT` and `VIRTQ_DESC_F_WRITE`. -/
def descNext : Nat := 1
def descWrite : Nat := 2

/-- What a descriptor points to: `vblk_req`, `vblk_bounce` or `vblk_status`. -/
inductive Area where
  | header
  | bounce
  | status
  deriving DecidableEq

/-- `vq_desc_t`. -/
structure Desc where
  area : Area
  len : Nat
  flags : Nat
  next : Nat
  deriving DecidableEq

/-- `vblk_req_t`. -/
structure Req where
  type : Nat
  sector : Nat

/-- What a device makes of a chain: the request, the sectors of its data and whether the device
may write them. -/
structure Command where
  type : Nat
  sector : Nat
  sectors : Nat
  writable : Bool

/-- What a device has done of a chain: read it, moved some sectors, written the status. -/
structure Work where
  command : Option Command
  moved : Nat → Bool
  result : Option Nat

/-- A device with its queue, the descriptors, the header and the status byte, and its medium.
`gaveUp` says whether a poll on it has ever given up. -/
structure Blk (Data : Type) where
  inUse : Bool
  flushOk : Bool
  queue : Queue Work
  desc : Nat → Desc
  req : Req
  status : Nat
  medium : Nat → Data
  gaveUp : Bool

/-- The descriptors of a chain. -/
def chainFrom (desc : Nat → Desc) : Nat → Nat → List Desc
  | 0, _ => []
  | fuel + 1, head => desc head ::
    if (desc head).flags &&& descNext ≠ 0 then chainFrom desc fuel (desc head).next else []

/-- The descriptors of the data in a chain. -/
def dataOf (chain : List Desc) : List Desc := chain.filter fun desc => desc.area == Area.bounce

/-- What a device reads at a head. -/
def Blk.command (blk : Blk Data) (head : Nat) : Command :=
  let data := dataOf (chainFrom blk.desc blk.queue.size head)
  ⟨blk.req.type, blk.req.sector, (data.map Desc.len).sum / 512,
    data.all fun desc => desc.flags &&& descWrite != 0⟩

/-- What `vblk_chunk` writes in front of a request. -/
def Blk.vblkChunk (blk : Blk Data) (isWrite : Bool) (sector nsec : Nat) : Blk Data :=
  { blk with
    req := ⟨if isWrite then vblkOut else vblkIn, sector⟩
    status := vblkPending
    desc := fun index =>
      if index = 0 then ⟨.header, 16, descNext, 1⟩
      else if index = 1 then
        ⟨.bounce, nsec * 512, descNext ||| (if isWrite then 0 else descWrite), 2⟩
      else if index = 2 then ⟨.status, 1, descWrite, 0⟩
      else blk.desc index }

/-- What `vblk_flush` writes in front of a request. -/
def Blk.vblkFlush (blk : Blk Data) : Blk Data :=
  { blk with
    req := ⟨vblkTFlush, 0⟩
    status := vblkPending
    desc := fun index =>
      if index = 0 then ⟨.header, 16, descNext, 1⟩
      else if index = 1 then ⟨.status, 1, descWrite, 0⟩
      else blk.desc index }

/-! ### Reads and writes -/

/-- Where a call is: in front of a request, in front of making it available, polling, behind a
request that was answered, or in front of its return. -/
inductive Stage where
  | prepare
  | post
  | poll
  | advance
  | ret
  deriving DecidableEq

/-- `virtio_blk_read_sectors` or `virtio_blk_write_sectors`: the buffer of the caller, the sectors
that are done, whether it is at its flush, and the request of its poll. -/
structure Call (Data : Type) where
  device : Nat
  isWrite : Bool
  lba : Nat
  count : Nat
  buf : Nat → Option Data
  done : Nat
  flushing : Bool
  stage : Stage
  ok : Bool
  ticket : Nat

def Call.sec (call : Call Data) : Nat := call.lba + call.done

/-- The sectors of the next chunk. -/
def Call.nsec (call : Call Data) : Nat := min (call.count - call.done) vblkChunkSectors

/-- A sector of a call that has returned 0: what the caller's buffer held, and the medium. -/
structure Answer (Data : Type) where
  data : Option Data
  medium : Data
  deriving DecidableEq

/-- The devices, `vblk_bounce`, the call that holds `vblk_lock`, the number of requests made so
far, for each completion that a poll has taken the request it waited for and the request that was
completed, and the answers. -/
structure Bus (Data : Type) where
  devices : Nat → Blk Data
  bounce : Nat → Data
  call : Option (Call Data)
  tickets : Nat
  taken : List (Nat × Nat)
  answers : List (Answer Data)

def Bus.setDevice (bus : Bus Data) (device : Nat) (blk : Blk Data) : Bus Data :=
  { bus with devices := update bus.devices device blk }

def Bus.setCall (bus : Bus Data) (call : Call Data) : Bus Data := { bus with call := some call }

/-- The request is written down, and the data of a write are in the bounce buffer. -/
def Bus.prepare (bus : Bus Data) (call : Call Data) : Bus Data :=
  let blk := bus.devices call.device
  if call.flushing then
    (bus.setDevice call.device blk.vblkFlush).setCall { call with stage := .post }
  else
    { (bus.setDevice call.device (blk.vblkChunk call.isWrite call.sec call.nsec)).setCall
        { call with stage := .post } with
      bounce := fun sector =>
        if call.isWrite && sector < call.nsec then
          (call.buf (call.done + sector)).getD (bus.bounce sector)
        else bus.bounce sector }

/-- `vblk_avail_set` at head 0 and `vblk_avail_bump`. -/
def Bus.post (bus : Bus Data) (call : Call Data) : Bus Data :=
  let blk := bus.devices call.device
  { (bus.setDevice call.device { blk with queue := blk.queue.post ⟨0, bus.tickets⟩ }).setCall
      { call with stage := .poll, ticket := bus.tickets } with
    tickets := bus.tickets + 1 }

/-- `vblk_poll` returns -1 and leaves its cursor. -/
def Bus.giveUp (bus : Bus Data) (call : Call Data) : Bus Data :=
  (bus.setDevice call.device { bus.devices call.device with gaveUp := true }).setCall
    { call with stage := .ret, ok := false }

/-- `vblk_poll` sees that the used index has moved. -/
def Bus.poll (bus : Bus Data) (call : Call Data) : Option (Bus Data) :=
  let blk := bus.devices call.device
  if blk.queue.answered then
    if blk.queue.current.head ≠ 0 then some (bus.giveUp call)
    else
      some { (bus.setDevice call.device { blk with queue := blk.queue.consume }).setCall
          { call with
            stage := if blk.status = vblkOk && !call.flushing then .advance else .ret
            ok := blk.status = vblkOk } with
        taken := bus.taken ++ [(call.ticket, blk.queue.current.ticket)] }
  else none

/-- A chunk was answered: the data of a read go to the caller, and the call goes on. -/
def Bus.advance (bus : Bus Data) (call : Call Data) : Bus Data :=
  let done := call.done + call.nsec
  let next := { call with
    done := done
    buf := fun sector =>
      if !call.isWrite && decide (call.done ≤ sector) && sector < done then
        some (bus.bounce (sector - call.done))
      else call.buf sector }
  bus.setCall
    (if done < call.count then { next with stage := .prepare }
    else if call.isWrite && (bus.devices call.device).flushOk then
      { next with stage := .prepare, flushing := true }
    else { next with stage := .ret })

/-- The lock is free again. -/
def Bus.ret (bus : Bus Data) (call : Call Data) : Bus Data :=
  { bus with
    call := none
    answers := bus.answers ++
      if call.ok then (List.range call.count).map fun sector =>
        ⟨call.buf sector, (bus.devices call.device).medium (call.lba + sector)⟩
      else [] }

/-! ### Devices -/

/-- The device marks a sector of a chain as moved. -/
def Work.move (sector : Nat) (_ : Entry) (work : Work) : Option Work :=
  if work.result = none then
    some { work with moved := update work.moved sector true }
  else none

/-- The device reads the descriptors and the header of a chain. -/
def Blk.load (blk : Blk Data) (entry : Entry) (work : Work) : Option Work :=
  if work.command.isNone then some { work with command := some (blk.command entry.head) }
  else none

/-- The device has a result for a chain; it is `VBLK_S_OK` only behind all of its sectors. -/
def Work.settle (status : Nat) (_ : Entry) (work : Work) : Option Work :=
  if work.result = none ∧ (status = vblkOk → work.command.any fun command =>
      (List.range command.sectors).all work.moved) then
    some { work with result := some status }
  else none

/-- The device moves one sector of a chain: onto the bounce buffer for a read, from it for a
write. -/
def Bus.move (bus : Bus Data) (device index sector : Nat) : Option (Bus Data) :=
  let blk := bus.devices device
  ((blk.queue.taken[index]?).bind fun chain => chain.2.command).bind fun command =>
    (blk.queue.work index (Work.move sector)).bind fun queue =>
      if command.sectors ≤ sector then none
      else if command.type = vblkIn ∧ command.writable then
        some { bus.setDevice device { blk with queue := queue } with
          bounce := update bus.bounce sector (blk.medium (command.sector + sector)) }
      else if command.type = vblkOut then
        some (bus.setDevice device { blk with
          queue := queue
          medium := update blk.medium (command.sector + sector) (bus.bounce sector) })
      else none

/-! ### Steps -/

/-- A call that takes `vblk_lock`, the steps of the call that has it, and those of a device. -/
inductive Event (Data : Type) where
  | call (device : Nat) (isWrite : Bool) (lba count : Nat) (buf : Nat → Data)
  | prepare
  | post
  | poll
  | giveUp
  | advance
  | ret
  | take (device : Nat)
  | load (device index : Nat)
  | move (device index sector : Nat)
  | settle (device index status : Nat)
  | push (device : Nat)

/-- A call takes the lock. -/
def Bus.enter (bus : Bus Data) (device : Nat) (isWrite : Bool) (lba count : Nat)
    (buf : Nat → Data) : Option (Bus Data) :=
  if bus.call.isNone ∧ device < virtioBlkMax ∧ (bus.devices device).inUse ∧ 1 ≤ count then
    some (bus.setCall ⟨device, isWrite, lba, count,
      fun sector => if isWrite then some (buf sector) else none, 0, false, .prepare, true, 0⟩)
  else none

/-- The call that has the lock, when it is at a stage. -/
def Bus.callAt (bus : Bus Data) (stage : Stage) : Option (Call Data) :=
  bus.call.bind fun call => if call.stage = stage then some call else none

def Bus.step (bus : Bus Data) : Event Data → Option (Bus Data)
  | .call device isWrite lba count buf => bus.enter device isWrite lba count buf
  | .prepare => (bus.callAt .prepare).map bus.prepare
  | .post => (bus.callAt .post).map bus.post
  | .poll => (bus.callAt .poll).bind bus.poll
  | .giveUp => (bus.callAt .poll).map bus.giveUp
  | .advance => (bus.callAt .advance).map bus.advance
  | .ret => (bus.callAt .ret).map bus.ret
  | .take device =>
    let blk := bus.devices device
    (blk.queue.take ⟨none, fun _ => false, none⟩).map fun queue =>
      bus.setDevice device { blk with queue := queue }
  | .load device index =>
    let blk := bus.devices device
    (blk.queue.work index blk.load).map fun queue =>
      bus.setDevice device { blk with queue := queue }
  | .move device index sector => bus.move device index sector
  | .settle device index status =>
    let blk := bus.devices device
    (blk.queue.work index (Work.settle status)).map fun queue =>
      bus.setDevice device { blk with queue := queue, status := status }
  | .push device =>
    let blk := bus.devices device
    (blk.queue.push fun work => work.result.isSome).map fun queue =>
      bus.setDevice device { blk with queue := queue }

/-- The driver is up: `vblk_hw_init` accepts queues of 8 to 256 entries, and nothing was asked. -/
structure Bus.Fresh (bus : Bus Data) : Prop where
  queue : ∀ device, ∃ size, 8 ≤ size ∧ size ≤ 256 ∧
    (bus.devices device).queue = Queue.fresh size ∧ (bus.devices device).gaveUp = false
  call : bus.call = none
  taken : bus.taken = []
  answers : bus.answers = []

def blkSystem : Transition.System (Bus Data) (Event Data) :=
  Transition.System.ofStep Bus.Fresh Bus.step

/-- Every poll that took a completion took that of the very request it waited for, a read that
returned 0 gave the sectors of the medium, and after a write that returned 0 the medium has the
sectors of the caller. -/
def Bus.Matched (bus : Bus Data) : Prop :=
  (∀ pair ∈ bus.taken, pair.2 = pair.1) ∧
    ∀ answer ∈ bus.answers, answer.data = some answer.medium

/-- May the device of an outstanding chain still use the bounce buffer? -/
def Blk.usesBounce (blk : Blk Data) : Bool :=
  blk.queue.outstanding && (blk.command 0).type != vblkTFlush

/-- No poll on the device of a call has ever given up, and no chain that was given up on another
device may still use the bounce buffer. -/
def Event.inTime (bus : Bus Data) : Event Data → Bool
  | .call device _ _ _ _ => !(bus.devices device).gaveUp &&
    (List.range virtioBlkMax).all fun other =>
      !(bus.devices other).gaveUp || !(bus.devices other).usesBounce
  | _ => true

end MectovOS.Virtio
