/-
This file proves the law of the message queues: what the receivers of a key get
is, in order, part of what was sent to that key, and a send lands only in the
queue it named. The law rests on the calls asleep: a call takes up its slot
again when the slot holds any key at all, so a create that takes a slot with a
sleeping call on it can hand the call a queue it never named.
-/

import MectovOS.Ipc.Queue

namespace MectovOS.Ipc

open Transition Function

/-! ### The law -/

/-- What the receives that named the key returned, in the order of the lock. -/
def IpcState.deliveredTo (state : IpcState) (key : UInt32) : List Received :=
  (state.delivered.filter fun entry => entry.named.key == key).map Delivered.received

/-- What the accepted sends that named the key owe their receivers, in the order of the lock. -/
def IpcState.sentTo (state : IpcState) (key : UInt32) : List Received :=
  (state.sent.filter fun entry => entry.named.key == key).map
    fun entry => entry.request.message.received

/-- Each key's deliveries are, in order, messages sent to that key, none of them twice, and
every accepted send landed in the queue it named. -/
structure Faithful (state : IpcState) : Prop where
  /-- Delivered at most once, in order, unchanged, and to receivers of the key. -/
  fifo : ∀ key, (state.deliveredTo key).Sublist (state.sentTo key)
  /-- No send lands in a later queue of its slot. -/
  landed : ∀ entry ∈ state.sent, entry.landed = entry.named

/-- The bytes of a request: `data` cut at the size of a message, zeros for a null pointer. -/
def Request.payload (request : Request) : List UInt8 :=
  (List.range (min request.len ipcMsgSize)).map fun index =>
    match request.data with
    | some bytes => bytes index
    | none => 0

theorem dataLen_eq (request : Request) : request.dataLen = min request.len ipcMsgSize := by
  unfold Request.dataLen
  split <;> omega

theorem byteAt_of_lt {request : Request} {index : Nat} (within : index < request.dataLen) :
    request.byteAt index =
      match request.data with
      | some bytes => bytes index
      | none => 0 := by
  unfold Request.byteAt
  cases request.data with
  | none => rfl
  | some bytes => exact if_pos within

/-- A receiver gets the sender, the type, the length and the bytes the send was called with. -/
theorem received_message (request : Request) :
    request.message.received =
      ⟨request.tid, request.type, min request.len ipcMsgSize, request.payload⟩ := by
  have short : request.dataLen ≤ ipcMsgSize := by
    rw [dataLen_eq]
    exact Nat.min_le_right _ _
  have bytes : (Vector.ofFn fun index : Fin ipcMsgSize => request.byteAt index).toList.take
      request.dataLen = request.payload := by
    unfold Request.payload
    rw [← dataLen_eq, Vector.toList_ofFn]
    refine List.ext_getElem ?_ fun index first second => ?_
    · rw [List.length_take, List.length_ofFn, List.length_map, List.length_range,
        Nat.min_eq_left short]
    · rw [List.length_map, List.length_range] at second
      rw [List.getElem_take, List.getElem_ofFn, List.getElem_map, List.getElem_range]
      exact byteAt_of_lt second
  rw [← dataLen_eq]
  exact congrArg (Received.mk request.tid request.type request.dataLen) bytes

/-! ### Queues -/

/-- The messages in a queue, oldest first. -/
def IpcQueue.pending (queue : IpcQueue) : List IpcMessage :=
  Ring.contents queue.messages ipcQueueDepth queue.tail queue.count

/-- The positions of a queue that holds a key. -/
structure IpcQueue.Regular (queue : IpcQueue) : Prop where
  tail : queue.tail < ipcQueueDepth
  count : queue.count ≤ ipcQueueDepth
  head : queue.head = (queue.tail + queue.count) % ipcQueueDepth

theorem ipcQueueDepth_pos : 0 < ipcQueueDepth := by decide

/-- A push appends the message. -/
theorem queuePush_spec {queue next : IpcQueue} {message : IpcMessage} (regular : queue.Regular)
    (pushed : queuePush queue message = some next) :
    next.Regular ∧ next.key = queue.key ∧ next.pending = queue.pending ++ [message] := by
  unfold queuePush at pushed
  obtain ⟨room, same⟩ := Option.ite_none_left_eq_some.mp pushed
  obtain rfl := Option.some.inj same
  have room := Nat.lt_of_not_le room
  refine ⟨⟨regular.tail, room, ?_⟩, rfl, ?_⟩
  · show (queue.head + 1) % ipcQueueDepth = _
    rw [regular.head, Nat.mod_add_mod, Nat.add_assoc]
  · show Ring.contents (update queue.messages queue.head message) _ _ _ = _
    rw [regular.head]
    exact Ring.contents_push queue.messages room message

/-- A pop takes the oldest message. -/
theorem queuePop_spec {queue next : IpcQueue} {message : IpcMessage} (regular : queue.Regular)
    (popped : queuePop queue = some (next, message)) :
    next.Regular ∧ next.key = queue.key ∧ queue.pending = message :: next.pending := by
  unfold queuePop at popped
  obtain ⟨some', same⟩ := Option.ite_none_left_eq_some.mp popped
  obtain ⟨rfl, rfl⟩ := Prod.mk.inj (Option.some.inj same)
  have positive := Nat.pos_of_ne_zero fun zero => some' (Nat.le_of_eq zero)
  obtain ⟨count, holds⟩ := Nat.exists_eq_succ_of_ne_zero positive.ne'
  have bounded := regular.count
  refine ⟨⟨Nat.mod_lt _ ipcQueueDepth_pos, ?_, ?_⟩, rfl, ?_⟩
  · show queue.count - 1 ≤ _
    omega
  · show queue.head = _
    rw [regular.head, Nat.mod_add_mod, holds]
    congr 1
    show queue.tail + (count + 1) = queue.tail + 1 + (count + 1 - 1)
    omega
  · show Ring.contents queue.messages _ queue.tail queue.count =
      _ :: Ring.contents queue.messages _ ((queue.tail + 1) % ipcQueueDepth) (queue.count - 1)
    rw [holds, Nat.succ_sub_one, Nat.succ_eq_add_one, Ring.contents_pop,
      Nat.mod_eq_of_lt regular.tail]

/-- What a queue owes its receivers. -/
def IpcQueue.owed (queue : IpcQueue) : List Received :=
  queue.pending.map IpcMessage.received

/-! ### Tables -/

theorem slotOfKey_some {queues : Nat → IpcQueue} {key : UInt32} {slot : Nat}
    (found : slotOfKey queues key = some slot) : slot < ipcMaxQueues ∧ (queues slot).key = key := by
  unfold slotOfKey at found
  have holds := List.find?_some found
  have member := List.mem_of_find?_eq_some found
  exact ⟨List.mem_range.mp member, beq_iff_eq.mp holds⟩

theorem slotOfKey_none {queues : Nat → IpcQueue} {key : UInt32}
    (missing : slotOfKey queues key = none) {slot : Nat} (within : slot < ipcMaxQueues) :
    (queues slot).key ≠ key := by
  intro holds
  exact (List.find?_eq_none.mp missing) slot (List.mem_range.mpr within) (beq_iff_eq.mpr holds)

/-- A create changes nothing or takes a free slot, when no slot holds its key. -/
theorem ipcQueueCreate_cases (queues : Nat → IpcQueue) (key : UInt32) :
    (ipcQueueCreate queues key).1 = queues ∨
      ∃ slot, key ≠ 0 ∧ slotOfKey queues key = none ∧ slotOfKey queues 0 = some slot ∧
        (ipcQueueCreate queues key).1 = update queues slot
          { queues slot with
            key := key, head := 0, tail := 0, count := 0, waitingSend := none,
            waitingRecv := none } := by
  unfold ipcQueueCreate
  by_cases zero : key = 0
  · rw [if_pos zero]
    exact Or.inl rfl
  rw [if_neg zero]
  cases existing : slotOfKey queues key with
  | some slot => exact Or.inl rfl
  | none =>
    cases free : slotOfKey queues 0 with
    | some slot => exact Or.inr ⟨slot, zero, rfl, rfl, rfl⟩
    | none => exact Or.inl rfl

/-! ### The invariant -/

/-- A sleeping call finds the queue it named, if its slot holds a key: the queue itself for a
send, a queue of the same key for a receive. -/
def ParkedCall.Kept (call : ParkedCall) (state : IpcState) : Prop :=
  (state.queues call.slot).key ≠ 0 →
    match call with
    | .send slot _ named => state.queueAt slot = named
    | .receive slot named => (state.queues slot).key = named.key

/-- What a run keeps, as long as no create takes a slot under a sleeping call. -/
structure Sound (state : IpcState) : Prop where
  regular : ∀ slot, (state.queues slot).key ≠ 0 → (state.queues slot).Regular
  within : ∀ slot, (state.queues slot).key ≠ 0 → slot < ipcMaxQueues
  distinct : ∀ first second, (state.queues first).key ≠ 0 →
    (state.queues first).key = (state.queues second).key → first = second
  owed : ∀ slot, (state.queues slot).key ≠ 0 →
    (state.deliveredTo (state.queues slot).key ++ (state.queues slot).owed).Sublist
      (state.sentTo (state.queues slot).key)
  fifo : ∀ key, (state.deliveredTo key).Sublist (state.sentTo key)
  landed : ∀ entry ∈ state.sent, entry.landed = entry.named
  kept : ∀ tid call, state.parked tid = some call → call.Kept state

theorem Sound.faithful {state : IpcState} (sound : Sound state) : Faithful state :=
  ⟨sound.fifo, sound.landed⟩

/-! ### The records -/

theorem sentTo_append (state : IpcState) (queues : Nat → IpcQueue)
    (parked : Nat → Option ParkedCall) (entry : Sent) (key : UInt32) :
    ({ state with
        queues := queues, parked := parked, sent := state.sent ++ [entry] } : IpcState).sentTo key =
      state.sentTo key ++
        if entry.named.key = key then [entry.request.message.received] else [] := by
  unfold IpcState.sentTo
  rw [List.filter_append, List.map_append]
  congr 1
  by_cases same : entry.named.key = key
  · rw [if_pos same, List.filter_singleton, beq_iff_eq.mpr same]
    rfl
  · rw [if_neg same, List.filter_singleton, beq_false_of_ne same]
    rfl

theorem deliveredTo_append (state : IpcState) (queues : Nat → IpcQueue)
    (parked : Nat → Option ParkedCall) (entry : Delivered) (key : UInt32) :
    ({ state with
        queues := queues, parked := parked,
        delivered := state.delivered ++ [entry] } : IpcState).deliveredTo key =
      state.deliveredTo key ++ if entry.named.key = key then [entry.received] else [] := by
  unfold IpcState.deliveredTo
  rw [List.filter_append, List.map_append]
  congr 1
  by_cases same : entry.named.key = key
  · rw [if_pos same, List.filter_singleton, beq_iff_eq.mpr same]
    rfl
  · rw [if_neg same, List.filter_singleton, beq_false_of_ne same]
    rfl

/-! ### One stretch keeps the invariant -/

/-- Two tables that differ in the waiting fields only. -/
structure Alike (queues next : Nat → IpcQueue) : Prop where
  key : ∀ slot, (next slot).key = (queues slot).key
  regular : ∀ slot, (queues slot).Regular → (next slot).Regular
  owed : ∀ slot, (next slot).owed = (queues slot).owed

theorem Alike.refl (queues : Nat → IpcQueue) : Alike queues queues :=
  ⟨fun _ => rfl, fun _ regular => regular, fun _ => rfl⟩

theorem alike_update {queues : Nat → IpcQueue} {slot : Nat} {queue : IpcQueue}
    (key : queue.key = (queues slot).key) (regular : (queues slot).Regular → queue.Regular)
    (owed : queue.owed = (queues slot).owed) :
    Alike queues (update queues slot queue) := by
  refine ⟨fun other => ?_, fun other => ?_, fun other => ?_⟩ <;>
    rcases eq_or_ne other slot with rfl | different
  · rw [update_self, key]
  · rw [update_of_ne different]
  · rw [update_self]
    exact regular
  · rw [update_of_ne different]
    exact id
  · rw [update_self, owed]
  · rw [update_of_ne different]

/-- Whether a call is kept depends on the keys and the births of the slots. -/
theorem ParkedCall.Kept.congr {state next : IpcState} {call : ParkedCall} (kept : call.Kept state)
    (key : ∀ slot, (next.queues slot).key = (state.queues slot).key)
    (births : next.births = state.births) : call.Kept next := by
  intro alive
  rw [key] at alive
  have before := kept alive
  cases call with
  | send slot request named =>
    show Named.mk _ _ = named
    rw [key, births]
    exact before
  | receive slot named =>
    show (next.queues slot).key = _
    rw [key]
    exact before

/-- A stretch that ends without moving a message keeps the invariant. -/
theorem Sound.still {state : IpcState} (sound : Sound state) {queues : Nat → IpcQueue}
    (alike : Alike state.queues queues) {tid : Nat} {call : Option ParkedCall}
    (kept : ∀ parked, call = some parked → parked.Kept state) :
    Sound { state with
      queues := queues, parked := update state.parked tid call } where
  regular slot alive := by
    rw [alike.key] at alive
    exact alike.regular slot (sound.regular slot alive)
  within slot alive := by
    rw [alike.key] at alive
    exact sound.within slot alive
  distinct first second alive same := by
    rw [alike.key] at alive
    rw [alike.key, alike.key] at same
    exact sound.distinct first second alive same
  owed slot alive := by
    rw [alike.key] at alive
    show (state.deliveredTo (queues slot).key ++ (queues slot).owed).Sublist
      (state.sentTo (queues slot).key)
    rw [alike.key, alike.owed]
    exact sound.owed slot alive
  fifo := sound.fifo
  landed := sound.landed
  kept other parked asleep := by
    have before : parked.Kept state := by
      rcases eq_or_ne other tid with rfl | different
      · exact kept parked ((update_self other call state.parked).symm.trans asleep)
      · exact sound.kept other parked
          ((update_of_ne different call state.parked).symm.trans asleep)
    exact before.congr alike.key rfl

/-- An accepted send to the queue it named keeps the invariant. -/
theorem Sound.push {state : IpcState} (sound : Sound state) {slot tid : Nat} {request : Request}
    {queue : IpcQueue} {named : Named} (alive : (state.queues slot).key ≠ 0)
    (names : state.queueAt slot = named)
    (pushed : queuePush (state.queues slot) request.message = some queue) :
    Sound { state with
      queues := update state.queues slot { queue with waitingRecv := none }
      parked := update state.parked tid none
      sent := state.sent ++ [⟨named, state.queueAt slot, request⟩] } := by
  obtain ⟨regular, key, pending⟩ := queuePush_spec (sound.regular slot alive) pushed
  have keys : ∀ other, (update state.queues slot { queue with waitingRecv := none }
      other).key = (state.queues other).key := by
    intro other
    rcases eq_or_ne other slot with rfl | different
    · rw [update_self]
      exact key
    · rw [update_of_ne different]
  have grows : ∀ other, (state.sentTo other).Sublist (({ state with
      queues := update state.queues slot { queue with waitingRecv := none }
      parked := update state.parked tid none
      sent := state.sent ++ [⟨named, state.queueAt slot, request⟩] } : IpcState).sentTo other) := by
    intro other
    rw [sentTo_append]
    exact List.sublist_append_left _ _
  refine ⟨fun other alive' => ?_, fun other alive' => ?_, fun first second alive' same => ?_,
    fun other alive' => ?_, fun other => (sound.fifo other).trans (grows other),
    fun entry member => ?_, fun other parked asleep => ?_⟩
  · replace alive' : (state.queues other).key ≠ 0 := keys other ▸ alive'
    rcases eq_or_ne other slot with rfl | different
    · show (update state.queues other _ other).Regular
      rw [update_self]
      exact ⟨regular.tail, regular.count, regular.head⟩
    · show (update state.queues slot _ other).Regular
      rw [update_of_ne different]
      exact sound.regular other alive'
  · exact sound.within other (keys other ▸ alive')
  · exact sound.distinct first second (keys first ▸ alive')
      ((keys first).symm.trans (same.trans (keys second)))
  · replace alive' : (state.queues other).key ≠ 0 := keys other ▸ alive'
    show (state.deliveredTo (update state.queues slot _ other).key ++
      (update state.queues slot _ other).owed).Sublist _
    rcases eq_or_ne other slot with rfl | different
    · have owed : ({ queue with waitingRecv := none } : IpcQueue).owed =
          (state.queues other).owed ++ [request.message.received] := by
        show queue.pending.map _ = (state.queues other).pending.map _ ++ _
        rw [pending, List.map_append]
        rfl
      have here : named.key = (state.queues other).key := by rw [← names]; rfl
      rw [sentTo_append]
      show List.Sublist _ (_ ++ if named.key = _ then _ else _)
      rw [keys, if_pos here, update_self, owed, ← List.append_assoc]
      exact (sound.owed other alive).append (List.Sublist.refl _)
    · show List.Sublist _ (IpcState.sentTo _ (update state.queues slot _ other).key)
      rw [keys, update_of_ne different]
      exact (sound.owed other alive').trans (grows _)
  · rcases List.mem_append.mp member with earlier | last
    · exact sound.landed entry earlier
    · rw [List.mem_singleton.mp last]
      exact names
  · rcases eq_or_ne other tid with rfl | different
    · have asleep : update state.parked other none other = some parked := asleep
      rw [update_self] at asleep
      exact absurd asleep (by simp)
    · have asleep : update state.parked tid none other = some parked := asleep
      rw [update_of_ne different] at asleep
      exact (sound.kept other parked asleep).congr keys rfl

/-- A receive from a queue of the key it named keeps the invariant. -/
theorem Sound.pop {state : IpcState} (sound : Sound state) {slot tid : Nat}
    {message : IpcMessage} {queue : IpcQueue} {named : Named}
    (alive : (state.queues slot).key ≠ 0) (names : (state.queues slot).key = named.key)
    (popped : queuePop (state.queues slot) = some (queue, message)) :
    Sound { state with
      queues := update state.queues slot { queue with waitingSend := none }
      parked := update state.parked tid none
      delivered := state.delivered ++ [⟨named, message.received⟩] } := by
  obtain ⟨regular, key, pending⟩ := queuePop_spec (sound.regular slot alive) popped
  have owed : (state.queues slot).owed =
      message.received :: ({ queue with waitingSend := none } : IpcQueue).owed := by
    show (state.queues slot).pending.map _ = _ :: queue.pending.map _
    rw [pending, List.map_cons]
  have keys : ∀ other, (update state.queues slot { queue with waitingSend := none }
      other).key = (state.queues other).key := by
    intro other
    rcases eq_or_ne other slot with rfl | different
    · rw [update_self]
      exact key
    · rw [update_of_ne different]
  have taken : (state.deliveredTo named.key ++ [message.received]).Sublist
      (state.sentTo named.key) := by
    refine List.Sublist.trans ?_ (names ▸ sound.owed slot alive)
    rw [owed]
    exact (List.Sublist.refl _).append (List.singleton_sublist.mpr List.mem_cons_self)
  refine ⟨fun other alive' => ?_, fun other alive' => ?_, fun first second alive' same => ?_,
    fun other alive' => ?_, fun other => ?_, sound.landed, fun other parked asleep => ?_⟩
  · replace alive' : (state.queues other).key ≠ 0 := keys other ▸ alive'
    rcases eq_or_ne other slot with rfl | different
    · show (update state.queues other _ other).Regular
      rw [update_self]
      exact ⟨regular.tail, regular.count, regular.head⟩
    · show (update state.queues slot _ other).Regular
      rw [update_of_ne different]
      exact sound.regular other alive'
  · exact sound.within other (keys other ▸ alive')
  · exact sound.distinct first second (keys first ▸ alive')
      ((keys first).symm.trans (same.trans (keys second)))
  · replace alive' : (state.queues other).key ≠ 0 := keys other ▸ alive'
    show List.Sublist (IpcState.deliveredTo _ (update state.queues slot _ other).key ++
      (update state.queues slot _ other).owed)
      (state.sentTo (update state.queues slot _ other).key)
    rw [keys, deliveredTo_append]
    rcases eq_or_ne other slot with rfl | different
    · rw [if_pos names.symm, update_self, List.append_assoc, List.singleton_append,
        ← owed]
      exact sound.owed other alive
    · have elsewhere : named.key ≠ (state.queues other).key := by
        intro same
        exact different (sound.distinct slot other alive (names.trans same)).symm
      rw [if_neg elsewhere, List.append_nil, update_of_ne different]
      exact sound.owed other alive'
  · rw [deliveredTo_append]
    by_cases same : named.key = other
    · rw [if_pos same, ← same]
      exact taken
    · rw [if_neg same, List.append_nil]
      exact sound.fifo other
  · rcases eq_or_ne other tid with rfl | different
    · have asleep : update state.parked other none other = some parked := asleep
      rw [update_self] at asleep
      exact absurd asleep (by simp)
    · have asleep : update state.parked tid none other = some parked := asleep
      rw [update_of_ne different] at asleep
      exact (sound.kept other parked asleep).congr keys rfl

/-! ### The stretches of the source -/

/-- What a stretch of a send can do: refuse, go to sleep, or push its message. -/
inductive SendStretch (queues : Nat → IpcQueue) (slot : Nat) (message : IpcMessage) :
    (Nat → IpcQueue) × Outcome Int → Prop
  | refused : SendStretch queues slot message (queues, .returned (-1) none)
  | parked (tid : Nat) : (queues slot).key ≠ 0 →
      SendStretch queues slot message
        (update queues slot { queues slot with waitingSend := some tid }, .parked)
  | pushed {queue : IpcQueue} : (queues slot).key ≠ 0 →
      queuePush (queues slot) message = some queue →
      SendStretch queues slot message
        (update queues slot { queue with waitingRecv := none },
          .returned 0 queue.waitingRecv)

theorem sendTurn_stretch {queues : Nat → IpcQueue} {slot : Nat} (alive : (queues slot).key ≠ 0)
    (tid : Nat) (message : IpcMessage) :
    SendStretch queues slot message (sendTurn queues slot tid message) := by
  unfold sendTurn
  cases pushed : queuePush (queues slot) message with
  | some queue => exact .pushed alive pushed
  | none => exact .parked tid alive

theorem ipcSendResume_stretch (queues : Nat → IpcQueue) (slot : Nat) (request : Request) :
    SendStretch queues slot request.message (ipcSendResume queues slot request) := by
  unfold ipcSendResume
  by_cases free : (queues slot).key = 0
  · rw [if_pos free]
    exact .refused
  · rw [if_neg free]
    exact sendTurn_stretch free _ _

theorem ipcSend_stretch (queues : Nat → IpcQueue) (qid : Int) (request : Request) :
    SendStretch queues (slotOf qid) request.message (ipcSend queues qid request) := by
  unfold ipcSend
  split
  · exact .refused
  · exact ipcSendResume_stretch queues (slotOf qid) request

theorem ipcTrySend_stretch (queues : Nat → IpcQueue) (qid : Int) (request : Request) :
    SendStretch queues (slotOf qid) request.message (ipcTrySend queues qid request) := by
  unfold ipcTrySend
  split
  · exact .refused
  split
  · exact .refused
  · rename_i alive
    cases pushed : queuePush (queues (slotOf qid)) request.message with
    | some queue => exact .pushed alive pushed
    | none => exact .refused

/-- A stretch of a send whose slot still holds the queue it named keeps the invariant. -/
theorem Sound.afterSend {state : IpcState} (sound : Sound state) {slot : Nat} {request : Request}
    {named : Named} (names : (state.queues slot).key ≠ 0 → state.queueAt slot = named)
    {result : (Nat → IpcQueue) × Outcome Int}
    (stretch : SendStretch state.queues slot request.message result) :
    Sound (state.afterSend slot request named result) := by
  cases stretch with
  | refused => exact sound.still (Alike.refl _) fun _ none' => absurd none' (by simp)
  | parked tid alive =>
    have alike : Alike state.queues (update state.queues slot
        { state.queues slot with waitingSend := some tid }) :=
      alike_update rfl (fun regular => ⟨regular.tail, regular.count, regular.head⟩) rfl
    refine sound.still alike fun call same => ?_
    obtain rfl := Option.some.inj same
    exact names
  | pushed alive pushed => exact sound.push alive (names alive) pushed

/-- What a stretch of a receive can do: refuse, go to sleep, or pop a message. -/
inductive ReceiveStretch (queues : Nat → IpcQueue) (slot : Nat) :
    (Nat → IpcQueue) × Outcome (Option Received) → Prop
  | refused : ReceiveStretch queues slot (queues, .returned none none)
  | parked (tid : Nat) : (queues slot).key ≠ 0 →
      ReceiveStretch queues slot
        (update queues slot { queues slot with waitingRecv := some tid }, .parked)
  | popped {queue : IpcQueue} {message : IpcMessage} : (queues slot).key ≠ 0 →
      queuePop (queues slot) = some (queue, message) →
      ReceiveStretch queues slot
        (update queues slot { queue with waitingSend := none },
          .returned (some message.received) queue.waitingSend)

theorem receiveTurn_stretch {queues : Nat → IpcQueue} {slot : Nat}
    (alive : (queues slot).key ≠ 0) (tid : Nat) :
    ReceiveStretch queues slot (receiveTurn queues slot tid) := by
  unfold receiveTurn
  cases popped : queuePop (queues slot) with
  | some pair => exact .popped alive popped
  | none => exact .parked tid alive

theorem ipcReceiveResume_stretch (queues : Nat → IpcQueue) (slot tid : Nat) :
    ReceiveStretch queues slot (ipcReceiveResume queues slot tid) := by
  unfold ipcReceiveResume
  by_cases free : (queues slot).key = 0
  · rw [if_pos free]
    exact .refused
  · rw [if_neg free]
    exact receiveTurn_stretch free _

theorem ipcReceive_stretch (queues : Nat → IpcQueue) (qid : Int) (tid : Nat) :
    ReceiveStretch queues (slotOf qid) (ipcReceive queues qid tid) := by
  unfold ipcReceive
  split
  · exact .refused
  · exact ipcReceiveResume_stretch queues (slotOf qid) tid

theorem ipcTryReceive_stretch (queues : Nat → IpcQueue) (qid : Int) :
    ReceiveStretch queues (slotOf qid) (ipcTryReceive queues qid) := by
  unfold ipcTryReceive
  split
  · exact .refused
  split
  · exact .refused
  · rename_i alive
    cases popped : queuePop (queues (slotOf qid)) with
    | some pair => exact .popped alive popped
    | none => exact .refused

/-- A stretch of a receive whose slot still holds the key it named keeps the invariant. -/
theorem Sound.afterReceive {state : IpcState} (sound : Sound state) {slot tid : Nat}
    {named : Named} (names : (state.queues slot).key ≠ 0 → (state.queues slot).key = named.key)
    {result : (Nat → IpcQueue) × Outcome (Option Received)}
    (stretch : ReceiveStretch state.queues slot result) :
    Sound (state.afterReceive slot tid named result) := by
  cases stretch with
  | refused => exact sound.still (Alike.refl _) fun _ none' => absurd none' (by simp)
  | parked sleeper alive =>
    have alike : Alike state.queues (update state.queues slot
        { state.queues slot with waitingRecv := some sleeper }) :=
      alike_update rfl (fun regular => ⟨regular.tail, regular.count, regular.head⟩) rfl
    refine sound.still alike fun call same => ?_
    obtain rfl := Option.some.inj same
    exact names
  | popped alive popped => exact sound.pop alive (names alive) popped

/-! ### Create and destroy -/

/-- A destroy keeps the invariant: a free slot owes nothing and names no queue. -/
theorem Sound.destroy {state : IpcState} (sound : Sound state) (qid : Int) :
    Sound { state with queues := ipcQueueDestroy state.queues qid } := by
  have slots : ∀ slot, (ipcQueueDestroy state.queues qid slot).key ≠ 0 →
      ipcQueueDestroy state.queues qid slot = state.queues slot := by
    intro slot alive
    unfold ipcQueueDestroy at alive ⊢
    by_cases bad : badQid qid = true
    · rw [if_pos bad]
    · rw [if_neg bad] at alive ⊢
      rcases eq_or_ne slot (slotOf qid) with rfl | different
      · rw [update_self] at alive
        exact absurd rfl alive
      · exact update_of_ne different _ _
  refine ⟨fun slot alive => ?_, fun slot alive => ?_, fun first second alive same => ?_,
    fun slot alive => ?_, sound.fifo, sound.landed, fun tid call asleep alive => ?_⟩
  · have same := slots slot alive
    show (ipcQueueDestroy state.queues qid slot).Regular
    rw [same]
    exact sound.regular slot (same ▸ alive)
  · exact sound.within slot (slots slot alive ▸ alive)
  · have alive' : (ipcQueueDestroy state.queues qid second).key ≠ 0 := same ▸ alive
    exact sound.distinct first second (slots first alive ▸ alive)
      (slots first alive ▸ slots second alive' ▸ same)
  · have same := slots slot alive
    show (state.deliveredTo (ipcQueueDestroy state.queues qid slot).key ++
      (ipcQueueDestroy state.queues qid slot).owed).Sublist
      (state.sentTo (ipcQueueDestroy state.queues qid slot).key)
    rw [same]
    exact sound.owed slot (same ▸ alive)
  · have same := slots call.slot alive
    have before := sound.kept tid call asleep (same ▸ alive)
    cases call with
    | send slot request named =>
      show Named.mk (ipcQueueDestroy state.queues qid slot).key _ = named
      rw [slots slot alive]
      exact before
    | receive slot named =>
      show (ipcQueueDestroy state.queues qid slot).key = _
      rw [slots slot alive]
      exact before

/-- A create is undisturbed when no call sleeps on the slot it takes, except receives that
named the key it makes. -/
def Undisturbed (state : IpcState) : Label → Prop
  | .create key =>
    key ≠ 0 → slotOfKey state.queues key = none → ∀ slot, slotOfKey state.queues 0 = some slot →
      ∀ tid call, state.parked tid = some call → call.slot = slot →
        ∃ named : Named, call = .receive slot named ∧ named.key = key
  | _ => True

/-- An undisturbed create keeps the invariant. -/
theorem Sound.create {state next : IpcState} (sound : Sound state) {key : UInt32}
    (undisturbed : Undisturbed state (.create key)) (taken : step state (.create key) = some next) :
    Sound next := by
  obtain rfl := Option.some.inj taken
  rcases ipcQueueCreate_cases state.queues key with same | ⟨slot, named, missing, free, same⟩
  · have births : (fun slot => if (state.queues slot).key = 0 ∧
        ((ipcQueueCreate state.queues key).1 slot).key ≠ 0 then state.births slot + 1
        else state.births slot) = state.births := by
      funext slot
      rw [same]
      exact if_neg fun both => both.2 both.1
    show Sound { state with queues := _, births := _ }
    rw [births, same]
    exact sound
  obtain ⟨within, zero⟩ := slotOfKey_some free
  have here : ((ipcQueueCreate state.queues key).1 slot) = { state.queues slot with
      key := key, head := 0, tail := 0, count := 0, waitingSend := none,
      waitingRecv := none } := by
    rw [same, update_self]
  have elsewhere : ∀ other, other ≠ slot →
      (ipcQueueCreate state.queues key).1 other = state.queues other := by
    intro other different
    rw [same, update_of_ne different]
  have unique : ∀ other, other ≠ slot → (state.queues other).key ≠ key := by
    intro other different holds
    have alive : (state.queues other).key ≠ 0 := holds ▸ named
    exact slotOfKey_none missing (sound.within other alive) holds
  refine ⟨fun other alive => ?_, fun other alive => ?_, fun first second alive same' => ?_,
    fun other alive => ?_, sound.fifo, sound.landed, fun tid call asleep alive => ?_⟩
  · show ((ipcQueueCreate state.queues key).1 other).Regular
    rcases eq_or_ne other slot with rfl | different
    · rw [here]
      exact ⟨ipcQueueDepth_pos, Nat.zero_le _, rfl⟩
    · rw [elsewhere other different]
      exact sound.regular other (elsewhere other different ▸ alive)
  · rcases eq_or_ne other slot with rfl | different
    · exact within
    · exact sound.within other (elsewhere other different ▸ alive)
  · replace alive : ((ipcQueueCreate state.queues key).1 first).key ≠ 0 := alive
    replace same' : ((ipcQueueCreate state.queues key).1 first).key =
      ((ipcQueueCreate state.queues key).1 second).key := same'
    rcases eq_or_ne first slot with firstIs | different <;>
      rcases eq_or_ne second slot with secondIs | different'
    · exact firstIs.trans secondIs.symm
    · rw [firstIs, here, elsewhere second different'] at same'
      exact absurd same'.symm (unique second different')
    · rw [secondIs, here, elsewhere first different] at same'
      exact absurd same' (unique first different)
    · rw [elsewhere first different] at alive same'
      rw [elsewhere second different'] at same'
      exact sound.distinct first second alive same'
  · show (state.deliveredTo ((ipcQueueCreate state.queues key).1 other).key ++
      ((ipcQueueCreate state.queues key).1 other).owed).Sublist
      (state.sentTo ((ipcQueueCreate state.queues key).1 other).key)
    rcases eq_or_ne other slot with rfl | different
    · rw [here]
      show (state.deliveredTo key ++ []).Sublist _
      rw [List.append_nil]
      exact sound.fifo key
    · rw [elsewhere other different]
      exact sound.owed other (elsewhere other different ▸ alive)
  · replace alive : ((ipcQueueCreate state.queues key).1 call.slot).key ≠ 0 := alive
    rcases eq_or_ne call.slot slot with taken' | different
    · obtain ⟨name, rfl, same'⟩ := undisturbed named missing slot free tid call asleep taken'
      show ((ipcQueueCreate state.queues key).1 slot).key = _
      rw [here]
      exact same'.symm
    · have before := sound.kept tid call asleep (elsewhere call.slot different ▸ alive)
      cases call with
      | send other request name =>
        have births : (if (state.queues other).key = 0 ∧
            ((ipcQueueCreate state.queues key).1 other).key ≠ 0 then state.births other + 1
            else state.births other) = state.births other := by
          rw [elsewhere other different]
          exact if_neg fun both => both.2 both.1
        show Named.mk ((ipcQueueCreate state.queues key).1 other).key (if _ then _ else _) = name
        rw [births, elsewhere other different]
        exact before
      | receive other name =>
        show ((ipcQueueCreate state.queues key).1 other).key = _
        rw [elsewhere other different]
        exact before

/-! ### Runs -/

theorem idle_some {state next after : IpcState} {tid : Nat}
    (taken : state.idle tid next = some after) : after = next := by
  unfold IpcState.idle at taken
  split at taken
  · exact (Option.some.inj taken).symm
  · exact absurd taken (by simp)

/-- Every step keeps the invariant, a create when it is undisturbed. -/
theorem Sound.step {state next : IpcState} {label : Label} (sound : Sound state)
    (undisturbed : Undisturbed state label) (taken : step state label = some next) :
    Sound next := by
  cases label with
  | create key => exact sound.create undisturbed taken
  | destroy qid =>
    obtain rfl := Option.some.inj taken
    exact sound.destroy qid
  | send qid request =>
    rw [idle_some taken]
    exact sound.afterSend (fun _ => rfl) (ipcSend_stretch _ _ _)
  | trySend qid request =>
    rw [idle_some taken]
    exact sound.afterSend (fun _ => rfl) (ipcTrySend_stretch _ _ _)
  | receive qid tid =>
    rw [idle_some taken]
    exact sound.afterReceive (fun _ => rfl) (ipcReceive_stretch _ _ _)
  | tryReceive qid tid =>
    rw [idle_some taken]
    exact sound.afterReceive (fun _ => rfl) (ipcTryReceive_stretch _ _)
  | resume tid =>
    cases asleep : state.parked tid with
    | none =>
      have stuck : Ipc.step state (.resume tid) = none := by simp only [Ipc.step, asleep]
      exact absurd (stuck.symm.trans taken) (by simp)
    | some call =>
      have kept := sound.kept tid call asleep
      cases call with
      | send slot request named =>
        have taken : some (state.afterSend slot request named
            (ipcSendResume state.queues slot request)) = some next := by
          rw [← taken]
          simp only [Ipc.step, asleep]
        obtain rfl := Option.some.inj taken
        exact sound.afterSend kept (ipcSendResume_stretch _ _ _)
      | receive slot named =>
        have taken : some (state.afterReceive slot tid named
            (ipcReceiveResume state.queues slot tid)) = some next := by
          rw [← taken]
          simp only [Ipc.step, asleep]
        obtain rfl := Option.some.inj taken
        exact sound.afterReceive kept (ipcReceiveResume_stretch _ _ _)
  | die tid =>
    obtain rfl := Option.some.inj taken
    exact sound.still (Alike.refl _) fun _ none' => absurd none' (by simp)

theorem sound_booted : Sound booted where
  regular _ alive := absurd rfl alive
  within _ alive := absurd rfl alive
  distinct _ _ alive := absurd rfl alive
  owed _ alive := absurd rfl alive
  fifo _ := List.Sublist.refl _
  landed _ member := absurd member (by simp [booted])
  kept _ _ asleep := absurd asleep (by simp [booted])

/-- In every run whose creates never take a slot under a sleeping call, apart from receives
that named the key being made, the queues are faithful. -/
theorem ipc_faithful {state : IpcState} (reachable : ipcSystem.Reachable Undisturbed state) :
    Faithful state := by
  have initially : ∀ start, ipcSystem.init start → Sound start := by
    intro start initial
    obtain rfl : start = booted := initial
    exact sound_booted
  have sound : Sound state := reachable.invariant Sound initially
    fun _ _ _ sound undisturbed taken => sound.step undisturbed taken
  exact sound.faithful

/-- A request of task 3: four bytes of type 9. -/
def greeting : Request := ⟨3, 9, some fun index => UInt8.ofNat (65 + index), 4⟩

/-- One message through one queue. -/
theorem ipc_faithful_greeting : ∃ state : IpcState,
    state.deliveredTo 5 = [⟨3, 9, 4, [65, 66, 67, 68]⟩] ∧ Faithful state := by
  have undisturbed : Undisturbed booted (.create 5) := by
    intro _ _ _ _ _ _ asleep
    exact absurd asleep (by simp [booted])
  have initial : ipcSystem.Reachable Undisturbed booted := .init rfl
  have created := initial.step undisturbed (show step booted (.create 5) = some _ from rfl)
  have sent := created.step (show Undisturbed _ (.send 1 greeting) from trivial)
    (show step _ (.send 1 greeting) = some _ from rfl)
  have received := sent.step (show Undisturbed _ (.receive 1 2) from trivial)
    (show step _ (.receive 1 2) = some _ from rfl)
  exact ⟨_, by decide +kernel, ipc_faithful received⟩

/-- A receive of task 2 sleeps on the queue of key 5, which is destroyed; key 7 takes the slot,
and the receive returns what task 3 sends to key 7. -/
def crossed : List Label :=
  [.create 5, .receive 1 2, .destroy 1, .create 7, .send 1 greeting, .resume 2]

theorem ipc_crossed :
    ¬ ∀ state : IpcState, ipcSystem.Reachable anyStep state → Faithful state := by
  intro faithful
  have run : (execute step booted crossed).map
      (fun state => ((state.deliveredTo 5).length, (state.sentTo 5).length)) = some (1, 0) := by
    decide
  obtain ⟨final, ran, lengths⟩ := Option.map_eq_some_iff.mp run
  obtain ⟨got, sent⟩ := Prod.mk.inj lengths
  have fifo := (faithful final (reachable_execute (.init rfl) ran)).fifo 5
  have := fifo.length_le
  omega

end MectovOS.Ipc
