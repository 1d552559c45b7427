/-
This file models `sock_accept` of src/sys/fd.c as a whole: the connection of the
listener, the child that the network layer hands out, and the descriptor it gets.
The child is taken before the descriptor is known to exist, so accept undoes
itself only when it does not come to that.
-/

import MectovOS.Fd.Stretches
import MectovOS.Net.TcpTable

namespace MectovOS.Fd

open Sched (maxTasks)
open Net (TcpTable TcpConn tcpAccept tcpMaxConns setConn_self setConn_other)

variable {tables next : Tables}

/-! ### Accept -/

/-- `sock_get_conn`. -/
def sockGetConn (tables : Tables) (tid : Nat) (lfd : Int) : Int :=
  match taskGetFd tables tid lfd with
  | none => -2
  | some gfd =>
    if (tables.globalFds gfd).inUse = true ∧ (tables.globalFds gfd).type = .socket then
      (tables.globalFds gfd).sockConn
    else -2

/-- `sock_accept`; `seen` are the tables when the listener is looked up, `tables` those when the
descriptor is allocated, since the lock is not held in between. -/
def sockAcceptListener (seen tables : Tables) (table : TcpTable) (tid : Nat)
    (credentials : Credentials) (lfd : Int) : (Tables × TcpTable) × Int :=
  if sockGetConn seen tid lfd < 0 then ((tables, table), -1)
  else
    match tcpAccept table (sockGetConn seen tid lfd).toNat with
    | (none, table') => ((tables, table'), -1)
    | (some child, table') =>
      let opened := sockAccept tables tid credentials child
      ((opened.1, table'), opened.2)

/-- The completed children that the listener of a descriptor has to hand out. -/
def hasPending (seen : Tables) (table : TcpTable) (tid : Nat) (lfd : Int) : Prop :=
  0 ≤ sockGetConn seen tid lfd ∧ (sockGetConn seen tid lfd).toNat < tcpMaxConns ∧
    ∃ id < tcpMaxConns, (table.conns id).pendingChild (sockGetConn seen tid lfd).toNat = true

/-- Is there room for one more descriptor: a global slot, a local number and the limit? -/
structure Room (tables : Tables) (tid : Nat) (credentials : Credentials) : Prop where
  globalSlot : ∃ gfd < maxGlobalFds, (tables.globalFds gfd).inUse = false
  limit : taskRlimitNofileOk tables tid credentials = true
  localNumber : ∃ fd < maxFdsPerTask, tables.fdTable (tid, fd) = none

/-- A child is attached to a new descriptor: its connection is handed out, and a number of the
task that was free names a global descriptor that was free, with the child behind it. -/
structure Attached (tables : Tables) (table : TcpTable) (tid : Nat)
    (result : (Tables × TcpTable) × Int) (child gfd fd : Nat) : Prop where
  returned : result.2 = fd
  completed : ∃ listener, (table.conns child).pendingChild listener = true
  handedOut : result.1.2 = table.setConn child { table.conns child with accepted := true }
  vacant : tables.fdTable (tid, fd) = none
  idle : (tables.globalFds gfd).inUse = false
  names : result.1.1.fdTable (tid, fd) = some gfd
  live : (result.1.1.globalFds gfd).inUse = true
  counted : (result.1.1.globalFds gfd).refCount = 1
  behind : (result.1.1.globalFds gfd).type = .socket ∧
    (result.1.1.globalFds gfd).sockConn = child

/-- Accept is atomic: it attaches a child to a new descriptor, or fails and leaves every completed
child to be handed out, or gives its slot back. -/
def AcceptAtomic (tables : Tables) (table : TcpTable) (tid : Nat)
    (result : (Tables × TcpTable) × Int) : Prop :=
  (∃ child gfd fd, Attached tables table tid result child gfd fd) ∨
    (result.2 = -1 ∧ ∀ id listener, (table.conns id).pendingChild listener = true →
      (result.1.2.conns id).pendingChild listener = true ∨
        (result.1.2.conns id).inUse = false)

/-! ### Room for a descriptor -/

theorem allocGlobalFd_none (allocated : allocGlobalFd tables = none) {gfd : Nat}
    (range : gfd < maxGlobalFds) : (tables.globalFds gfd).inUse = true := by
  unfold allocGlobalFd at allocated
  split at allocated
  · exact absurd allocated (by simp)
  · rename_i missing
    simpa using List.find?_eq_none.mp missing gfd (List.mem_range.mpr range)

theorem taskMapFd_refused {tid gfd : Nat} {credentials : Credentials} (within : tid < maxTasks)
    (mapped : taskMapFd tables tid credentials gfd = none)
    (limit : taskRlimitNofileOk tables tid credentials = true) {fd : Nat}
    (range : fd < maxFdsPerTask) : tables.fdTable (tid, fd) ≠ none := by
  unfold taskMapFd at mapped
  rw [if_pos limit] at mapped
  split at mapped
  · exact absurd mapped (by simp)
  · rename_i missing
    have taken := List.find?_eq_none.mp missing fd (List.mem_range.mpr range)
    have place : entryOf tid (fd : Int) = some (tid, fd) :=
      entryOf_of_range within (by omega)
    unfold taskGetFd at taken
    rw [place] at taken
    simpa using taken

/-- With room, the descriptor is opened. -/
theorem openDescriptor_room {tid : Nat} {credentials : Credentials} (within : tid < maxTasks)
    (room : Room tables tid credentials) (fill : GlobalFd → GlobalFd) :
    ∃ gfd fd : Nat, (tables.globalFds gfd).inUse = false ∧ tables.fdTable (tid, fd) = none ∧
      (openDescriptor tables tid credentials fill).2 = fd ∧
      (openDescriptor tables tid credentials fill).1.fdTable (tid, fd) = some gfd ∧
      (openDescriptor tables tid credentials fill).1.globalFds gfd =
        fill { tables.globalFds gfd with inUse := true, refCount := 1, offset := 0 } := by
  unfold openDescriptor
  cases allocated : allocGlobalFd tables with
  | none =>
    obtain ⟨gfd, range, idle⟩ := room.globalSlot
    rw [allocGlobalFd_none allocated range] at idle
    exact absurd idle (by simp)
  | some pair =>
    obtain ⟨gfd, fresh⟩ := pair
    obtain ⟨_, idle, rfl⟩ := allocGlobalFd_some allocated
    dsimp only
    rw [setGlobal_self]
    generalize filledIs : Tables.setGlobal _ gfd (fill _) = filled
    have table : filled.fdTable = tables.fdTable := by
      rw [← filledIs]
      rfl
    have content : filled.globalFds gfd =
        fill { tables.globalFds gfd with inUse := true, refCount := 1, offset := 0 } := by
      rw [← filledIs, setGlobal_self]
    have limit : taskRlimitNofileOk filled tid credentials = true := by
      unfold taskRlimitNofileOk
      rw [table]
      exact room.limit
    cases mapped : taskMapFd filled tid credentials gfd with
    | none =>
      obtain ⟨fd, range, vacant⟩ := room.localNumber
      rw [← table] at vacant
      exact absurd vacant (taskMapFd_refused within mapped limit range)
    | some pair =>
      obtain ⟨fd, after⟩ := pair
      obtain ⟨_, vacant, rfl⟩ := taskMapFd_some within mapped
      rw [table] at vacant
      exact ⟨gfd, fd, idle, vacant, rfl, Function.update_self _ _ _, content⟩

/-- Without room, it is not. -/
theorem openDescriptor_full {tid : Nat} {credentials : Credentials} (within : tid < maxTasks)
    (full : ¬ Room tables tid credentials) (fill : GlobalFd → GlobalFd) :
    (openDescriptor tables tid credentials fill).2 = -1 := by
  unfold openDescriptor
  cases allocated : allocGlobalFd tables with
  | none => rfl
  | some pair =>
    obtain ⟨gfd, fresh⟩ := pair
    obtain ⟨range, idle, rfl⟩ := allocGlobalFd_some allocated
    dsimp only
    generalize filledIs : Tables.setGlobal _ gfd (fill _) = filled
    have table : filled.fdTable = tables.fdTable := by
      rw [← filledIs]
      rfl
    cases mapped : taskMapFd filled tid credentials gfd with
    | none => rfl
    | some pair =>
      obtain ⟨fd, after⟩ := pair
      obtain ⟨member, vacant, _⟩ := taskMapFd_some within mapped
      refine absurd ⟨⟨gfd, range, idle⟩, ?_, fd, (mem_entries.mp member).2, table ▸ vacant⟩ full
      have limit := (Option.ite_none_right_eq_some.mp mapped).1
      unfold taskRlimitNofileOk at limit ⊢
      rwa [table] at limit

/-! ### Atomicity -/

/-- A socket's connection is found only for a task of the table. -/
theorem sockGetConn_within {tid : Nat} {lfd : Int} (found : 0 ≤ sockGetConn tables tid lfd) :
    tid < maxTasks := by
  unfold sockGetConn at found
  cases named : taskGetFd tables tid lfd with
  | none =>
    rw [named] at found
    exact absurd found (by simp)
  | some gfd =>
    obtain ⟨entry, place, _⟩ := taskGetFd_some named
    obtain ⟨member, rfl⟩ := entryOf_spec place
    exact (mem_entries.mp member).1

/-- What `net_tcp_accept` hands out is the first completed child of the listener. -/
theorem tcpAccept_cases (table : TcpTable) (listener : Nat) :
    (tcpAccept table listener = (none, table) ∧
      ¬ (listener < tcpMaxConns ∧
        ∃ id < tcpMaxConns, (table.conns id).pendingChild listener = true)) ∨
      ∃ child, (table.conns child).pendingChild listener = true ∧ child < tcpMaxConns ∧
        listener < tcpMaxConns ∧ tcpAccept table listener =
          (some child, table.setConn child { table.conns child with accepted := true }) := by
  unfold tcpAccept
  split
  · exact Or.inl ⟨rfl, fun both => absurd both.1 (by omega)⟩
  · rename_i range
    split
    · rename_i missing
      refine Or.inl ⟨rfl, fun ⟨_, id, inside, pending⟩ => ?_⟩
      exact absurd pending (List.find?_eq_none.mp missing id (List.mem_range.mpr inside))
    · rename_i child found
      have pending : (table.conns child).pendingChild listener = true := by
        simpa using List.find?_some found
      exact Or.inr ⟨child, pending, List.mem_range.mp (List.mem_of_find?_eq_some found), by omega,
        rfl⟩

/-- Accept is atomic exactly when there is nothing to hand out or room for the descriptor. -/
theorem sockAccept_atomic_iff (seen tables : Tables) (table : TcpTable) (tid : Nat)
    (credentials : Credentials) (lfd : Int) :
    AcceptAtomic tables table tid (sockAcceptListener seen tables table tid credentials lfd) ↔
      (hasPending seen table tid lfd → Room tables tid credentials) := by
  unfold sockAcceptListener
  by_cases absent : sockGetConn seen tid lfd < 0
  · rw [if_pos absent]
    refine ⟨fun _ pending => absurd pending.1 (by omega), fun _ => Or.inr ⟨rfl, ?_⟩⟩
    exact fun _ _ pending => Or.inl pending
  rw [if_neg absent]
  have found : 0 ≤ sockGetConn seen tid lfd := by omega
  have within := sockGetConn_within found
  rcases tcpAccept_cases table (sockGetConn seen tid lfd).toNat with
    ⟨same, nobody⟩ | ⟨child, pending, inside, range, same⟩
  · rw [same]
    refine ⟨fun _ pending => absurd ⟨pending.2.1, pending.2.2⟩ nobody, fun _ => Or.inr ⟨rfl, ?_⟩⟩
    exact fun _ _ pending => Or.inl pending
  · rw [same]
    dsimp only
    have due : hasPending seen table tid lfd := ⟨found, range, child, inside, pending⟩
    have opens : sockAccept tables tid credentials child = openDescriptor tables tid credentials
        fun descriptor => { descriptor with
          type := .socket, flags := 1, sockConn := child, vfsNode := -1, offset := 0 } :=
      if_neg (by omega)
    rw [opens]
    refine ⟨fun atomic _ => ?_, fun room => Or.inl ?_⟩
    · by_contra full
      have failed := openDescriptor_full within full fun descriptor => { descriptor with
        type := .socket, flags := 1, sockConn := child, vfsNode := -1, offset := 0 }
      rcases atomic with ⟨_, _, fd, attached⟩ | ⟨_, kept⟩
      · have returned := attached.returned
        dsimp only at returned
        rw [failed] at returned
        omega
      · have lost := kept child _ pending
        dsimp only at lost
        rw [setConn_self] at lost
        unfold TcpConn.pendingChild at lost pending
        simp only [Bool.and_eq_true, decide_eq_true_eq, Bool.not_eq_true'] at lost pending
        rcases lost with ⟨⟨⟨_, unhanded⟩, _⟩, _⟩ | idle
        · exact absurd unhanded (by simp)
        · rw [pending.1.1.1] at idle
          exact absurd idle (by simp)
    · obtain ⟨gfd, fd, idle, vacant, returned, named, content⟩ :=
        openDescriptor_room within (room due) fun descriptor => { descriptor with
          type := .socket, flags := 1, sockConn := child, vfsNode := -1, offset := 0 }
      refine ⟨child, gfd, fd, returned, ⟨_, pending⟩, rfl, vacant, idle, named, ?_, ?_, ?_⟩
      · rw [content]
      · rw [content]
      · rw [content]
        exact ⟨rfl, rfl⟩

/-! ### A full table -/

/-- Task 1 listens with its descriptor 0; the limit allows no second one. -/
def listening : Tables where
  globalFds gfd := ⟨decide (gfd = 0), .socket, -1, 0, 0, 0, 1, 1⟩
  pipes _ := ⟨false, fun _ => 0, 0, 0, false⟩
  ptys _ := ⟨false, fun _ => 0, 0, 0, fun _ => 0, 0, 0, 0, 0⟩
  fdTable entry := if entry = (1, 0) then some 0 else none

/-- Slot 0 listens and slot 1 is its completed child. -/
def oneChild : TcpTable :=
  { TcpTable.boot with
    conns := fun id => { TcpConn.zero with
      inUse := decide (id < 2), state := if id = 0 then .listen else .established,
      listenParent := if id = 0 then none else some 0 } }

/-- The child that is handed out when the limit is reached belongs to nobody. -/
theorem sockAccept_atomic_limit : ¬ ∀ (seen tables : Tables) (table : TcpTable) (tid : Nat)
    (credentials : Credentials) (lfd : Int),
    AcceptAtomic tables table tid (sockAcceptListener seen tables table tid credentials lfd) := by
  intro always
  rcases always listening listening oneChild 1 ⟨5, 1⟩ 0 with ⟨_, _, fd, attached⟩ | ⟨_, kept⟩
  · have returned := attached.returned
    have failed : (sockAcceptListener listening listening oneChild 1 ⟨5, 1⟩ 0).2 = -1 := by
      decide +kernel
    rw [failed] at returned
    omega
  · have lost := kept 1 0 (by decide)
    revert lost
    decide +kernel

end MectovOS.Fd
