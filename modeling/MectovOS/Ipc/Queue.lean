/-
This file models the message queues of src/sys/ipc.c. A queue is a slot of a
table, named by its index; a send or a receive that cannot proceed drops the
lock and sleeps, and takes the lock again for another turn of its loop. Each
stretch under `ipc_lock` is one function here.

The transition system runs any number of tasks. It also records, for the
statements only, how often each slot was taken by a create, which sends were
accepted, in the order of the lock, and what the receives returned.
-/

import MectovOS.Lib.Ring
import MectovOS.Lib.Transition

namespace MectovOS.Ipc

open Transition Function

/-! ### Messages and queues -/

/-- `IPC_MAX_QUEUES`, `IPC_MSG_SIZE` and `IPC_QUEUE_DEPTH`. -/
def ipcMaxQueues : Nat := 16
def ipcMsgSize : Nat := 128
def ipcQueueDepth : Nat := 256

/-- `ipc_message_t`. -/
structure IpcMessage where
  senderTid : Nat
  type : UInt32
  data : Vector UInt8 ipcMsgSize
  dataLen : Nat
  deriving DecidableEq

/-- `ipc_queue_t`; the value -1 of a waiting field is `none`. -/
structure IpcQueue where
  key : UInt32
  messages : Nat → IpcMessage
  head : Nat
  tail : Nat
  count : Nat
  waitingSend : Option Nat
  waitingRecv : Option Nat

/-- What a send is called with: the sender, the type and the bytes at `data`, if not null. -/
structure Request where
  tid : Nat
  type : UInt32
  data : Option (Nat → UInt8)
  len : Nat

/-- The length of the message: `len`, cut at the size of a payload. -/
def Request.dataLen (request : Request) : Nat :=
  if ipcMsgSize < request.len then ipcMsgSize else request.len

/-- One byte of the message: the zeroed payload with the data copied over it. -/
def Request.byteAt (request : Request) (index : Nat) : UInt8 :=
  match request.data with
  | some bytes => if index < request.dataLen then bytes index else 0
  | none => 0

/-- The message a send composes on its stack. -/
def Request.message (request : Request) : IpcMessage where
  senderTid := request.tid
  type := request.type
  data := Vector.ofFn fun index => request.byteAt index
  dataLen := request.dataLen

/-- What a receive stores through its out parameters. -/
structure Received where
  senderTid : Nat
  type : UInt32
  len : Nat
  data : List UInt8
  deriving DecidableEq

/-- The copy at the end of a receive. -/
def IpcMessage.received (message : IpcMessage) : Received where
  senderTid := message.senderTid
  type := message.type
  len := message.dataLen
  data := message.data.toList.take message.dataLen

/-- A zeroed message. -/
def noMessage : IpcMessage where
  senderTid := 0
  type := 0
  data := Vector.replicate ipcMsgSize 0
  dataLen := 0

/-- A slot of the zeroed table. -/
def noQueue : IpcQueue where
  key := 0
  messages _ := noMessage
  head := 0
  tail := 0
  count := 0
  waitingSend := some 0
  waitingRecv := some 0

/-! ### The functions of the source -/

/-- The first slot that holds the key; the key 0 marks a free slot. -/
def slotOfKey (queues : Nat → IpcQueue) (key : UInt32) : Option Nat :=
  (List.range ipcMaxQueues).find? fun slot => (queues slot).key == key

/-- `ipc_queue_create`. -/
def ipcQueueCreate (queues : Nat → IpcQueue) (key : UInt32) : (Nat → IpcQueue) × Nat :=
  if key = 0 then (queues, 0)
  else
    match slotOfKey queues key with
    | some slot => (queues, slot + 1)
    | none =>
      match slotOfKey queues 0 with
      | some slot =>
        (update queues slot
          { queues slot with
            key := key, head := 0, tail := 0, count := 0, waitingSend := none,
            waitingRecv := none }, slot + 1)
      | none => (queues, 0)

/-- The range check every function but create starts with. -/
def badQid (qid : Int) : Bool := qid < 1 || (ipcMaxQueues : Int) < qid

/-- `qid - 1`. -/
def slotOf (qid : Int) : Nat := (qid - 1).toNat

/-- `ipc_queue_destroy`. -/
def ipcQueueDestroy (queues : Nat → IpcQueue) (qid : Int) : Nat → IpcQueue :=
  if badQid qid then queues
  else
    update queues (slotOf qid)
      { queues (slotOf qid) with
        key := 0, count := 0, waitingSend := none, waitingRecv := none }

/-- `queue_push`. -/
def queuePush (queue : IpcQueue) (message : IpcMessage) : Option IpcQueue :=
  if ipcQueueDepth ≤ queue.count then none
  else
    some
      { queue with
        messages := update queue.messages queue.head message
        head := (queue.head + 1) % ipcQueueDepth
        count := queue.count + 1 }

/-- `queue_pop`. -/
def queuePop (queue : IpcQueue) : Option (IpcQueue × IpcMessage) :=
  if queue.count ≤ 0 then none
  else
    some
      ({ queue with tail := (queue.tail + 1) % ipcQueueDepth, count := queue.count - 1 },
        queue.messages queue.tail)

/-- How a stretch under the lock ends: the call returns, and wakes a task, or it sleeps. -/
inductive Outcome (Value : Type) where
  | returned (value : Value) (wake : Option Nat)
  | parked

/-- One turn of the loop of `ipc_send`. -/
def sendTurn (queues : Nat → IpcQueue) (slot tid : Nat) (message : IpcMessage) :
    (Nat → IpcQueue) × Outcome Int :=
  match queuePush (queues slot) message with
  | some queue =>
    (update queues slot { queue with waitingRecv := none },
      .returned 0 queue.waitingRecv)
  | none =>
    (update queues slot { queues slot with waitingSend := some tid }, .parked)

/-- `ipc_send` up to its return or its first sleep. -/
def ipcSend (queues : Nat → IpcQueue) (qid : Int) (request : Request) :
    (Nat → IpcQueue) × Outcome Int :=
  if badQid qid then (queues, .returned (-1) none)
  else if (queues (slotOf qid)).key = 0 then (queues, .returned (-1) none)
  else sendTurn queues (slotOf qid) request.tid request.message

/-- `ipc_send` from a sleep to its return or its next sleep. -/
def ipcSendResume (queues : Nat → IpcQueue) (slot : Nat) (request : Request) :
    (Nat → IpcQueue) × Outcome Int :=
  if (queues slot).key = 0 then (queues, .returned (-1) none)
  else sendTurn queues slot request.tid request.message

/-- `ipc_try_send`. -/
def ipcTrySend (queues : Nat → IpcQueue) (qid : Int) (request : Request) :
    (Nat → IpcQueue) × Outcome Int :=
  if badQid qid then (queues, .returned (-1) none)
  else if (queues (slotOf qid)).key = 0 then (queues, .returned (-1) none)
  else
    match queuePush (queues (slotOf qid)) request.message with
    | some queue =>
      (update queues (slotOf qid) { queue with waitingRecv := none },
        .returned 0 queue.waitingRecv)
    | none => (queues, .returned (-1) none)

/-- One turn of the loop of `ipc_receive`; `none` is the result -1. -/
def receiveTurn (queues : Nat → IpcQueue) (slot tid : Nat) :
    (Nat → IpcQueue) × Outcome (Option Received) :=
  match queuePop (queues slot) with
  | some (queue, message) =>
    (update queues slot { queue with waitingSend := none },
      .returned (some message.received) queue.waitingSend)
  | none =>
    (update queues slot { queues slot with waitingRecv := some tid }, .parked)

/-- `ipc_receive` up to its return or its first sleep. -/
def ipcReceive (queues : Nat → IpcQueue) (qid : Int) (tid : Nat) :
    (Nat → IpcQueue) × Outcome (Option Received) :=
  if badQid qid then (queues, .returned none none)
  else if (queues (slotOf qid)).key = 0 then (queues, .returned none none)
  else receiveTurn queues (slotOf qid) tid

/-- `ipc_receive` from a sleep to its return or its next sleep. -/
def ipcReceiveResume (queues : Nat → IpcQueue) (slot tid : Nat) :
    (Nat → IpcQueue) × Outcome (Option Received) :=
  if (queues slot).key = 0 then (queues, .returned none none)
  else receiveTurn queues slot tid

/-- `ipc_try_receive`. -/
def ipcTryReceive (queues : Nat → IpcQueue) (qid : Int) :
    (Nat → IpcQueue) × Outcome (Option Received) :=
  if badQid qid then (queues, .returned none none)
  else if (queues (slotOf qid)).key = 0 then (queues, .returned none none)
  else
    match queuePop (queues (slotOf qid)) with
    | some (queue, message) =>
      (update queues (slotOf qid) { queue with waitingSend := none },
        .returned (some message.received) queue.waitingSend)
    | none => (queues, .returned none none)

/-! ### Tasks that send and receive -/

/-- The queue a call names: the key its slot holds when the call starts, and how often the
slot had been taken by then. -/
structure Named where
  key : UInt32
  birth : Nat
  deriving DecidableEq

/-- A call asleep in its loop. -/
inductive ParkedCall where
  | send (slot : Nat) (request : Request) (named : Named)
  | receive (slot : Nat) (named : Named)

/-- The slot a sleeping call goes back to. -/
def ParkedCall.slot : ParkedCall → Nat
  | .send slot _ _ => slot
  | .receive slot _ => slot

/-- The queue a sleeping call named. -/
def ParkedCall.named : ParkedCall → Named
  | .send _ _ named => named
  | .receive _ named => named

/-- An accepted send, with the queue it named and the one its message went to. -/
structure Sent where
  named : Named
  landed : Named
  request : Request

/-- A receive that returned a message, with the queue it named. -/
structure Delivered where
  named : Named
  received : Received

/-- The table, the calls asleep, and the records of the statement. -/
structure IpcState where
  queues : Nat → IpcQueue
  parked : Nat → Option ParkedCall
  births : Nat → Nat
  sent : List Sent
  delivered : List Delivered

/-- The table after `ipc_init`. -/
def booted : IpcState where
  queues _ := noQueue
  parked _ := none
  births _ := 0
  sent := []
  delivered := []

/-- The queue that a slot holds. -/
def IpcState.queueAt (state : IpcState) (slot : Nat) : Named :=
  ⟨(state.queues slot).key, state.births slot⟩

/-- The end of a stretch of a send: a send that returns 0 is accepted. -/
def IpcState.afterSend (state : IpcState) (slot : Nat) (request : Request) (named : Named) :
    (Nat → IpcQueue) × Outcome Int → IpcState
  | (queues, .returned result _) =>
    { state with
      queues := queues
      parked := update state.parked request.tid none
      sent := if result = 0 then state.sent ++ [⟨named, state.queueAt slot, request⟩]
        else state.sent }
  | (queues, .parked) =>
    { state with
      queues := queues
      parked := update state.parked request.tid (some (.send slot request named)) }

/-- The end of a stretch of a receive. -/
def IpcState.afterReceive (state : IpcState) (slot tid : Nat) (named : Named) :
    (Nat → IpcQueue) × Outcome (Option Received) → IpcState
  | (queues, .returned result _) =>
    { state with
      queues := queues
      parked := update state.parked tid none
      delivered :=
        match result with
        | some received => state.delivered ++ [⟨named, received⟩]
        | none => state.delivered }
  | (queues, .parked) =>
    { state with
      queues := queues
      parked := update state.parked tid (some (.receive slot named)) }

/-- The steps of a run: calls of tasks that are not asleep in one, the next stretch of a call
that is, and the death of a task. -/
inductive Label where
  | create (key : UInt32)
  | destroy (qid : Int)
  | send (qid : Int) (request : Request)
  | trySend (qid : Int) (request : Request)
  | receive (qid : Int) (tid : Nat)
  | tryReceive (qid : Int) (tid : Nat)
  | resume (tid : Nat)
  | die (tid : Nat)

/-- A call of a task needs that the task is not asleep in another one. -/
def IpcState.idle (state : IpcState) (tid : Nat) (next : IpcState) : Option IpcState :=
  match state.parked tid with
  | none => some next
  | some _ => none

/-- One step. -/
def step (state : IpcState) : Label → Option IpcState
  | .create key =>
    let queues := (ipcQueueCreate state.queues key).1
    some
      { state with
        queues := queues
        births := fun slot =>
          if (state.queues slot).key = 0 ∧ (queues slot).key ≠ 0 then state.births slot + 1
          else state.births slot }
  | .destroy qid => some { state with queues := ipcQueueDestroy state.queues qid }
  | .send qid request =>
    state.idle request.tid (state.afterSend (slotOf qid) request (state.queueAt (slotOf qid))
      (ipcSend state.queues qid request))
  | .trySend qid request =>
    state.idle request.tid (state.afterSend (slotOf qid) request (state.queueAt (slotOf qid))
      (ipcTrySend state.queues qid request))
  | .receive qid tid =>
    state.idle tid (state.afterReceive (slotOf qid) tid (state.queueAt (slotOf qid))
      (ipcReceive state.queues qid tid))
  | .tryReceive qid tid =>
    state.idle tid (state.afterReceive (slotOf qid) tid (state.queueAt (slotOf qid))
      (ipcTryReceive state.queues qid))
  | .resume tid =>
    match state.parked tid with
    | some (.send slot request named) =>
      some (state.afterSend slot request named (ipcSendResume state.queues slot request))
    | some (.receive slot named) =>
      some (state.afterReceive slot tid named (ipcReceiveResume state.queues slot tid))
    | none => none
  | .die tid => some { state with parked := update state.parked tid none }

/-- The message queues as a transition system. -/
def ipcSystem : System IpcState Label := System.ofStep (· = booted) step

end MectovOS.Ipc
