import WalletCore.Events.Event
import WalletCore.Lib.Transition

/-! # The event queue

Every operation takes the queue's lock, changes the events in memory and writes the whole
queue to its file. `next` hands out the front event and leaves it there; `ack` pops
whatever is at the front by then. Operations of several callers therefore interleave
whole, and a run is a list of them.
-/

namespace WalletCore.Events

open Lib

structure QueueFile where
  bytes : Option Bytes
  /-- The error of the n-th write, if it fails. -/
  failure : Nat → Option String
  writes : Nat

inductive ReadError where
  | notFound
  | other (detail : String)
deriving DecidableEq

def QueueFile.read (file : QueueFile) (readError : Option String) : Except ReadError Bytes :=
  match readError with
  | some detail => .error (.other detail)
  | none =>
    match file.bytes with
    | some bytes => .ok bytes
    | none => .error .notFound

structure EventQueue where
  queue : List Event
  kvStore : QueueFile

namespace EventQueue

/-- A queue that is missing, corrupt or cannot be read starts empty. -/
def load : Except ReadError Bytes → List Event
  | .ok bytes => (decodeQueue bytes).getD []
  | .error .notFound => []
  | .error (.other _) => []

def new (kvStore : QueueFile) (readError : Option String) : EventQueue where
  queue := load (kvStore.read readError)
  kvStore := kvStore

/-- A failed write is logged, and the queue goes on in memory. -/
def persist (q : EventQueue) : EventQueue :=
  match q.kvStore.failure q.kvStore.writes with
  | some _ => { q with kvStore := { q.kvStore with writes := q.kvStore.writes + 1 } }
  | none =>
    { q with kvStore := { q.kvStore with
        bytes := some (encodeQueue q.queue)
        writes := q.kvStore.writes + 1 } }

def push (q : EventQueue) (event : Event) : EventQueue := { q with queue := q.queue ++ [event] }.persist

def emit (q : EventQueue) (event : CoreEvent) : EventQueue := q.push event.toEvent

def peek (q : EventQueue) : Option Event := q.queue.head?

def retain (q : EventQueue) (predicate : Event → Bool) : EventQueue :=
  let kept := { q with queue := q.queue.filter predicate }
  if kept.queue.length ≠ q.queue.length then kept.persist else kept

def ack (q : EventQueue) : EventQueue × Option Event :=
  match q.queue with
  | [] => (q, none)
  | event :: rest => ({ q with queue := rest }.persist, some event)

/-- What a start of the node drops. -/
def purge (q : EventQueue) : EventQueue := q.retain fun event => event ≠ .nodeStopped

end EventQueue

/-! ## Operations and runs -/

inductive QueueOp where
  | push (event : Event)
  | next
  | ack
  | purge
  | reload (readError : Option String)

/-- The queue's part of a start, and of a stop. -/
def startOps (chainSynced : Bool) : List QueueOp :=
  [.purge, .push .nodeStarted] ++ if chainSynced then [] else [.push .syncFailed]

def stopOps : List QueueOp := [.push .nodeStopped]

/-- The queue with its history. An event is named by its position in the order of pushes. -/
structure Ledger where
  queue : EventQueue
  pushed : List Event
  waiting : List Nat
  /-- What `next` returned, the latest first. -/
  returned : List Nat
  acked : List Nat
  purged : List Nat
  /-- A `next` has returned since the front last changed. -/
  handed : Bool

def Ledger.start (kvStore : QueueFile) : Ledger where
  queue := .new kvStore none
  pushed := (EventQueue.new kvStore none).queue
  waiting := List.range (EventQueue.new kvStore none).queue.length
  returned := []
  acked := []
  purged := []
  handed := false

def Ledger.isStopped (l : Ledger) (i : Nat) : Bool := l.pushed[i]? == some .nodeStopped

/-- A `next` on an empty queue keeps waiting. -/
def Ledger.step (l : Ledger) : QueueOp → Option Ledger
  | .push event =>
    some { l with
      queue := l.queue.push event
      pushed := l.pushed ++ [event]
      waiting := l.waiting ++ [l.pushed.length] }
  | .next => l.queue.peek.map fun _ => { l with returned := l.waiting.take 1 ++ l.returned, handed := true }
  | .ack =>
    some { l with
      queue := l.queue.ack.1
      waiting := l.waiting.tail
      acked := l.waiting.take 1 ++ l.acked
      handed := false }
  | .purge =>
    some { l with
      queue := l.queue.purge
      waiting := l.waiting.filter fun i => !l.isStopped i
      purged := l.waiting.filter l.isStopped ++ l.purged
      handed := l.handed && l.queue.peek ≠ some .nodeStopped }
  | .reload readError =>
    some { l with
      queue := .new l.queue.kvStore readError
      waiting := if readError.isSome then [] else l.waiting }

def Ledger.oldest (l : Ledger) : Option Nat :=
  (List.range l.pushed.length).find? fun i => i ∉ l.acked ∧ i ∉ l.purged

/-- What the queue owes its consumers. -/
structure Ledger.Delivers (l : Ledger) : Prop where
  holds : l.queue.queue.map some = l.waiting.map (l.pushed[·]?)
  inOrder : l.returned.Pairwise (· ≥ ·)
  acked_returned : ∀ i ∈ l.acked, i ∈ l.returned
  purged_stopped : ∀ i ∈ l.purged, l.pushed[i]? = some .nodeStopped
  kept : ∀ i < l.pushed.length, i ∈ l.acked ∨ i ∈ l.purged ∨ i ∈ l.waiting
  persisted : (EventQueue.new l.queue.kvStore none).queue = l.queue.queue
  reloaded : (EventQueue.new l.queue.kvStore none).peek = l.oldest.bind (l.pushed[·]?)

/-- Each acknowledgement follows a `next` of its own, with no purge of the front in between, and no
waiting queue is dropped by a failed read. -/
def Orderly (l : Ledger) : QueueOp → Prop
  | .ack => l.queue.queue ≠ [] → l.handed = true
  | .reload readError => readError = none ∨ l.queue.queue = []
  | _ => True

instance (l : Ledger) (op : QueueOp) : Decidable (Orderly l op) :=
  match op with
  | .ack => inferInstanceAs (Decidable (l.queue.queue ≠ [] → l.handed = true))
  | .reload readError => inferInstanceAs (Decidable (readError = none ∨ l.queue.queue = []))
  | .push _ | .next | .purge => isTrue trivial

/-! ## The operations on memory and file -/

namespace EventQueue

variable {q : EventQueue}

def Writes (q : EventQueue) : Prop := ∀ n, q.kvStore.failure n = none

/-- The file reads back as the queue. -/
def Stored (q : EventQueue) : Prop := (new q.kvStore none).queue = q.queue

@[simp] theorem queue_persist (q : EventQueue) : q.persist.queue = q.queue := by
  rw [persist]
  split <;> rfl

theorem failure_persist (q : EventQueue) : q.persist.kvStore.failure = q.kvStore.failure := by
  rw [persist]
  split <;> rfl

theorem Writes.persist (h : q.Writes) : q.persist.Writes ∧ q.persist.Stored := by
  constructor
  · intro n
    rw [failure_persist]
    exact h n
  · rw [Stored, EventQueue.persist, h]
    simp [EventQueue.new, load, QueueFile.read, decodeQueue_encodeQueue]

theorem queue_push (q : EventQueue) (event : Event) : (q.push event).queue = q.queue ++ [event] := queue_persist _

theorem queue_ack (q : EventQueue) : q.ack.1.queue = q.queue.tail := by
  rw [ack]
  split <;> simp_all

theorem queue_purge (q : EventQueue) : q.purge.queue = q.queue.filter fun event => event ≠ .nodeStopped := by
  rw [purge, retain]
  split <;> simp

theorem Writes.ack (h : q.Writes) (hStored : q.Stored) : q.ack.1.Writes ∧ q.ack.1.Stored := by
  rw [EventQueue.ack]
  split
  · exact ⟨h, hStored⟩
  · exact Writes.persist h

theorem Writes.purge (h : q.Writes) (hStored : q.Stored) : q.purge.Writes ∧ q.purge.Stored := by
  rw [EventQueue.purge, retain]
  split
  · exact Writes.persist h
  · -- Nothing was dropped, so the file is that of the whole queue.
    rename_i hSame
    have hAll : q.queue.filter (fun event => event ≠ .nodeStopped) = q.queue :=
      List.Sublist.eq_of_length List.filter_sublist (not_not.mp hSame)
    refine ⟨h, ?_⟩
    rw [Stored, hAll]
    exact hStored

end EventQueue

/-! ## What a run keeps -/

namespace Ledger

variable {l t : Ledger} {op : QueueOp}

structure Inv (l : Ledger) : Prop where
  writes : l.queue.Writes
  stored : l.queue.Stored
  holds : l.queue.queue.map some = l.waiting.map (l.pushed[·]?)
  sorted : l.waiting.Pairwise (· < ·)
  waiting_lt : ∀ i ∈ l.waiting, i < l.pushed.length
  gone_lt : ∀ i ∈ l.acked ++ l.purged, i < l.pushed.length
  apart : ∀ i ∈ l.acked ++ l.purged, i ∉ l.waiting
  kept : ∀ i < l.pushed.length, i ∈ l.acked ∨ i ∈ l.purged ∨ i ∈ l.waiting
  inOrder : l.returned.Pairwise (· ≥ ·)
  returned_lt : ∀ i ∈ l.returned, i < l.pushed.length
  returned_le : ∀ i ∈ l.returned, ∀ j ∈ l.waiting, i ≤ j
  acked_returned : ∀ i ∈ l.acked, i ∈ l.returned
  purged_stopped : ∀ i ∈ l.purged, l.pushed[i]? = some .nodeStopped
  handed_iff : ∀ i, l.waiting.head? = some i → (i ∈ l.returned ↔ l.handed = true)
  handed_front : l.handed = true → l.waiting ≠ []

theorem Inv.front_stopped (h : l.Inv) {i : Nat} {rest : List Nat} (hWaiting : l.waiting = i :: rest) :
    l.isStopped i = true ↔ l.queue.peek = some .nodeStopped := by
  have hFirst := congrArg List.head? h.holds
  simp only [hWaiting, List.head?_map, List.map_cons, List.head?_cons] at hFirst
  rw [isStopped, beq_iff_eq, EventQueue.peek]
  cases hQueue : l.queue.queue.head? with
  | none => simp [hQueue] at hFirst
  | some event =>
    rw [hQueue, Option.map_some, Option.some.injEq] at hFirst
    rw [← hFirst]

theorem Inv.empty_iff (h : l.Inv) : l.queue.queue = [] ↔ l.waiting = [] := by
  have hLength := congrArg List.length h.holds
  simp only [List.length_map] at hLength
  rw [← List.length_eq_zero_iff, hLength, List.length_eq_zero_iff]

theorem Inv.not_handed (h : l.Inv) (hWaiting : l.waiting = []) : l.handed = false := by
  by_contra hNot
  exact h.handed_front (by simpa using hNot) hWaiting

theorem Inv.push (h : l.Inv) (event : Event) (hStep : l.step (.push event) = some t) : t.Inv := by
  cases hStep
  have hStored := EventQueue.Writes.persist (q := { l.queue with queue := l.queue.queue ++ [event] }) h.writes
  have hOld : ∀ i < l.pushed.length, (l.pushed ++ [event])[i]? = l.pushed[i]? := fun i hi =>
    List.getElem?_append_left hi
  constructor <;> simp only [List.length_append, List.length_singleton, List.mem_append, List.mem_singleton]
  case writes => exact hStored.1
  case stored => exact hStored.2
  case holds =>
    rw [EventQueue.queue_push, List.map_append, List.map_append, h.holds]
    congr 1
    · apply List.map_congr_left
      intro i hi
      exact (hOld i (h.waiting_lt i hi)).symm
    · simp
  case sorted =>
    rw [List.pairwise_append]
    refine ⟨h.sorted, List.pairwise_singleton _ _, ?_⟩
    intro i hi j hj
    rw [List.mem_singleton.mp hj]
    exact h.waiting_lt i hi
  case waiting_lt =>
    rintro i (hi | rfl)
    · have := h.waiting_lt i hi
      omega
    · omega
  case gone_lt =>
    intro i hi
    have := h.gone_lt i (List.mem_append.mpr hi)
    omega
  case apart =>
    rintro i hi (hWaiting | rfl)
    · exact h.apart i (List.mem_append.mpr hi) hWaiting
    · exact lt_irrefl _ (h.gone_lt _ (List.mem_append.mpr hi))
  case kept =>
    intro i hi
    obtain hLt | rfl : i < l.pushed.length ∨ i = l.pushed.length := by omega
    · obtain hAcked | hPurged | hWaiting := h.kept i hLt
      · exact .inl hAcked
      · exact .inr (.inl hPurged)
      · exact .inr (.inr (.inl hWaiting))
    · exact .inr (.inr (.inr rfl))
  case inOrder => exact h.inOrder
  case returned_lt =>
    intro i hi
    have := h.returned_lt i hi
    omega
  case returned_le =>
    rintro i hi j (hj | rfl)
    · exact h.returned_le i hi j hj
    · exact (h.returned_lt i hi).le
  case acked_returned => exact h.acked_returned
  case purged_stopped =>
    intro i hi
    rw [hOld i (h.gone_lt i (List.mem_append_right _ hi))]
    exact h.purged_stopped i hi
  case handed_iff =>
    intro i hi
    cases hWaiting : l.waiting with
    | nil =>
      -- The new event is the front, and nothing was handed out.
      rw [hWaiting] at hi
      cases hi
      have hFresh : l.pushed.length ∉ l.returned := fun hMem => lt_irrefl _ (h.returned_lt _ hMem)
      simp [h.not_handed hWaiting, hFresh]
    | cons j rest =>
      rw [hWaiting] at hi
      cases hi
      exact h.handed_iff _ (by rw [hWaiting]; rfl)
  case handed_front => simp

theorem Inv.front_lt (h : l.Inv) {front : Nat} {rest : List Nat} (hWaiting : l.waiting = front :: rest) :
    ∀ j ∈ rest, front < j := by
  have hSorted := h.sorted
  rw [hWaiting, List.pairwise_cons] at hSorted
  exact hSorted.1

theorem Inv.rest_fresh (h : l.Inv) {front : Nat} {rest : List Nat} (hWaiting : l.waiting = front :: rest) :
    ∀ j ∈ rest, j ∉ l.returned := by
  intro j hj hReturned
  have hLe := h.returned_le j hReturned front (by simp [hWaiting])
  have hLt := h.front_lt hWaiting j hj
  omega

theorem Inv.next (h : l.Inv) (hStep : l.step .next = some t) : t.Inv := by
  obtain ⟨event, hPeek, rfl⟩ := Option.map_eq_some_iff.mp hStep
  have hNonempty : l.waiting ≠ [] := by
    intro hEmpty
    rw [EventQueue.peek, h.empty_iff.mpr hEmpty] at hPeek
    cases hPeek
  obtain ⟨front, rest, hWaiting⟩ := List.exists_cons_of_ne_nil hNonempty
  have hFront : front ∈ l.waiting := by simp [hWaiting]
  have hTake : l.waiting.take 1 = [front] := by
    rw [hWaiting]
    rfl
  constructor <;> simp only [hTake, List.singleton_append, List.mem_cons]
  case writes => exact h.writes
  case stored => exact h.stored
  case holds => exact h.holds
  case sorted => exact h.sorted
  case waiting_lt => exact h.waiting_lt
  case gone_lt => exact h.gone_lt
  case apart => exact h.apart
  case kept => exact h.kept
  case inOrder =>
    rw [List.pairwise_cons]
    exact ⟨fun i hi => h.returned_le i hi front hFront, h.inOrder⟩
  case returned_lt =>
    rintro i (rfl | hi)
    · exact h.waiting_lt i hFront
    · exact h.returned_lt i hi
  case returned_le =>
    rintro i (rfl | hi) j hj
    · rw [hWaiting] at hj
      obtain rfl | hj := List.mem_cons.mp hj
      · exact le_refl _
      · exact (h.front_lt hWaiting j hj).le
    · exact h.returned_le i hi j hj
  case acked_returned => exact fun i hi => .inr (h.acked_returned i hi)
  case purged_stopped => exact h.purged_stopped
  case handed_iff =>
    intro i hi
    rw [hWaiting] at hi
    cases hi
    simp
  case handed_front => exact fun _ => hNonempty

theorem Inv.ack_empty (h : l.Inv) (hWaiting : l.waiting = []) : l.step .ack = some l := by
  have hQueue : l.queue.ack.1 = l.queue := by rw [EventQueue.ack, h.empty_iff.mpr hWaiting]
  have hHanded := h.not_handed hWaiting
  obtain ⟨queue, pushed, waiting, returned, acked, purged, handed⟩ := l
  cases hWaiting
  cases hHanded
  simp only [step, hQueue, List.tail_nil, List.take_nil, List.nil_append]

theorem Inv.shrink (h : l.Inv) {waiting : List Nat} (hSublist : waiting.Sublist l.waiting) :
    waiting.Pairwise (· < ·) ∧ (∀ i ∈ waiting, i < l.pushed.length) ∧ ∀ i ∈ l.returned, ∀ j ∈ waiting, i ≤ j :=
  ⟨h.sorted.sublist hSublist, fun i hi => h.waiting_lt i (hSublist.subset hi),
    fun i hi j hj => h.returned_le i hi j (hSublist.subset hj)⟩

theorem Inv.ack (h : l.Inv) (hOrderly : Orderly l .ack) (hStep : l.step .ack = some t) : t.Inv := by
  obtain hWaiting | hNonempty := eq_or_ne l.waiting []
  · rw [h.ack_empty hWaiting] at hStep
    cases hStep
    exact h
  obtain ⟨front, rest, hWaiting⟩ := List.exists_cons_of_ne_nil hNonempty
  cases hStep
  have hQueue := h.writes.ack h.stored
  have hFront : front ∈ l.returned := by
    rw [h.handed_iff front (by rw [hWaiting]; rfl)]
    exact hOrderly fun hEmpty => hNonempty (h.empty_iff.mp hEmpty)
  have hTake : l.waiting.take 1 = [front] := by
    rw [hWaiting]
    rfl
  have hTail : l.waiting.tail = rest := by rw [hWaiting, List.tail_cons]
  have hSublist : rest.Sublist l.waiting := by
    rw [hWaiting]
    exact List.sublist_cons_self _ _
  obtain ⟨hSorted, hLt, hLe⟩ := h.shrink hSublist
  constructor <;> simp only [hTake, hTail, List.cons_append, List.mem_cons]
  case writes => exact hQueue.1
  case stored => exact hQueue.2
  case holds =>
    have hHolds := congrArg List.tail h.holds
    rw [hWaiting] at hHolds
    rw [EventQueue.queue_ack, List.map_tail, hHolds]
    rfl
  case sorted => exact hSorted
  case waiting_lt => exact hLt
  case gone_lt =>
    rintro i (rfl | hi)
    · exact h.returned_lt i hFront
    · exact h.gone_lt i hi
  case apart =>
    rintro i (rfl | hi) hRest
    · exact lt_irrefl _ (h.front_lt hWaiting i hRest)
    · exact h.apart i hi (hSublist.subset hRest)
  case kept =>
    intro i hi
    obtain hAcked | hPurged | hRest := h.kept i hi
    · exact .inl (.inr hAcked)
    · exact .inr (.inl hPurged)
    · rw [hWaiting] at hRest
      obtain rfl | hRest := List.mem_cons.mp hRest
      · exact .inl (.inl rfl)
      · exact .inr (.inr hRest)
  case inOrder => exact h.inOrder
  case returned_lt => exact h.returned_lt
  case returned_le => exact hLe
  case acked_returned =>
    rintro i (rfl | hi)
    · exact hFront
    · exact h.acked_returned i hi
  case purged_stopped => exact h.purged_stopped
  case handed_iff =>
    intro i hi
    have hFresh := h.rest_fresh hWaiting i (List.mem_of_mem_head? hi)
    simp [hFresh]
  case handed_front => nofun

theorem Inv.purge (h : l.Inv) (hStep : l.step .purge = some t) : t.Inv := by
  cases hStep
  have hQueue := h.writes.purge h.stored
  have hSublist : (l.waiting.filter fun i => !l.isStopped i).Sublist l.waiting := List.filter_sublist
  obtain ⟨hSorted, hLt, hLe⟩ := h.shrink hSublist
  constructor <;> simp only [List.mem_append, List.mem_filter]
  case writes => exact hQueue.1
  case stored => exact hQueue.2
  case holds =>
    have hFilter := congrArg (List.filter fun event => event ≠ some .nodeStopped) h.holds
    rw [List.filter_map, List.filter_map] at hFilter
    rw [EventQueue.queue_purge]
    convert hFilter using 3
    · funext event
      simp
    · funext i
      simp [isStopped, beq_eq_decide]
  case sorted => exact hSorted
  case waiting_lt => simpa using hLt
  case gone_lt =>
    rintro i (hi | hi | hi)
    · exact h.gone_lt i (List.mem_append_left _ hi)
    · exact h.waiting_lt i hi.1
    · exact h.gone_lt i (List.mem_append_right _ hi)
  case apart =>
    rintro i (hi | hi | hi) ⟨hWaiting, hKept⟩
    · exact h.apart i (List.mem_append_left _ hi) hWaiting
    · simp [hi.2] at hKept
    · exact h.apart i (List.mem_append_right _ hi) hWaiting
  case kept =>
    intro i hi
    obtain hAcked | hPurged | hWaiting := h.kept i hi
    · exact .inl hAcked
    · exact .inr (.inl (.inr hPurged))
    · cases hStopped : l.isStopped i with
      | true => exact .inr (.inl (.inl ⟨hWaiting, rfl⟩))
      | false => exact .inr (.inr ⟨hWaiting, rfl⟩)
  case inOrder => exact h.inOrder
  case returned_lt => exact h.returned_lt
  case returned_le => simpa using hLe
  case acked_returned => exact h.acked_returned
  case purged_stopped =>
    rintro i (hi | hi)
    · simpa [isStopped] using hi.2
    · exact h.purged_stopped i hi
  case handed_iff =>
    intro i hi
    cases hWaiting : l.waiting with
    | nil => simp [hWaiting] at hi
    | cons front rest =>
      rw [hWaiting, List.filter_cons] at hi
      cases hStopped : l.isStopped front with
      | true =>
        -- The front is gone, and what follows it was never handed out.
        simp only [hStopped, Bool.not_true, Bool.false_eq_true, if_false] at hi
        have hFresh := h.rest_fresh hWaiting i (List.mem_filter.mp (List.mem_of_mem_head? hi)).1
        simp [hFresh, (h.front_stopped hWaiting).mp hStopped]
      | false =>
        simp only [hStopped, Bool.not_false, if_true, List.head?_cons, Option.some.injEq] at hi
        subst hi
        have hPeek : l.queue.peek ≠ some .nodeStopped := fun hPeek => by
          simp [(h.front_stopped hWaiting).mpr hPeek] at hStopped
        rw [h.handed_iff front (by rw [hWaiting]; rfl)]
        simp [hPeek]
  case handed_front =>
    rw [Bool.and_eq_true, decide_eq_true_eq]
    rintro ⟨hHanded, hPeek⟩ hEmpty
    obtain ⟨front, rest, hWaiting⟩ := List.exists_cons_of_ne_nil (h.handed_front hHanded)
    rw [List.filter_eq_nil_iff] at hEmpty
    have hStopped := hEmpty front (by simp [hWaiting])
    exact hPeek ((h.front_stopped hWaiting).mp (by simpa using hStopped))

theorem Inv.reload (h : l.Inv) {readError : Option String} (hOrderly : Orderly l (.reload readError))
    (hStep : l.step (.reload readError) = some t) : t.Inv := by
  have hSame : t = l := by
    cases hStep
    have hStored := h.stored
    have hEmpty := h.empty_iff
    obtain ⟨⟨queue, kvStore⟩, pushed, waiting, returned, acked, purged, handed⟩ := l
    obtain rfl | hNil := hOrderly
    · simp only [EventQueue.Stored] at hStored
      simp only [Option.isSome_none, Bool.false_eq_true, if_false, EventQueue.new] at hStored ⊢
      rw [hStored]
    · cases hNil
      cases hEmpty.mp rfl
      cases readError with
      | none =>
        simp only [EventQueue.Stored] at hStored
        simp only [Option.isSome_none, Bool.false_eq_true, if_false, EventQueue.new] at hStored ⊢
        rw [hStored]
      | some detail => rfl
  rw [hSame]
  exact h

theorem Inv.step (h : l.Inv) (hOrderly : Orderly l op) (hStep : l.step op = some t) : t.Inv := by
  cases op with
  | push event => exact h.push event hStep
  | next => exact h.next hStep
  | ack => exact h.ack hOrderly hStep
  | purge => exact h.purge hStep
  | reload readError => exact h.reload hOrderly hStep

theorem start_inv {kvStore : QueueFile} (hWrites : ∀ n, kvStore.failure n = none) : (start kvStore).Inv := by
  constructor <;> simp only [start, List.nil_append, List.not_mem_nil, List.mem_range, false_or]
  case writes => exact hWrites
  case stored => rfl
  case holds =>
    apply List.ext_getElem?
    intro i
    by_cases hi : i < (EventQueue.new kvStore none).queue.length
    · simp [hi]
    · simp [hi]
  case sorted => exact List.pairwise_lt_range
  all_goals simp

theorem Inv.oldest (h : l.Inv) : l.oldest = l.waiting.head? := by
  cases hWaiting : l.waiting with
  | nil =>
    rw [List.head?_nil, Ledger.oldest, List.find?_eq_none]
    intro i hi
    have hGone := h.kept i (List.mem_range.mp hi)
    simp only [hWaiting, List.not_mem_nil, or_false] at hGone
    simpa [← or_iff_not_imp_left] using hGone
  | cons front rest =>
    have hFront : front ∈ l.waiting := by simp [hWaiting]
    rw [List.head?_cons, Ledger.oldest, List.find?_range_eq_some]
    refine ⟨?_, List.mem_range.mpr (h.waiting_lt front hFront), ?_⟩
    · rw [decide_eq_true_eq]
      exact ⟨fun hAcked => h.apart front (List.mem_append_left _ hAcked) hFront,
        fun hPurged => h.apart front (List.mem_append_right _ hPurged) hFront⟩
    · intro i hi
      obtain hAcked | hPurged | hRest := h.kept i (hi.trans (h.waiting_lt front hFront))
      · simp [hAcked]
      · simp [hPurged]
      · rw [hWaiting] at hRest
        obtain rfl | hRest := List.mem_cons.mp hRest
        · exact absurd hi (lt_irrefl _)
        · exact absurd (h.front_lt hWaiting i hRest) (by omega)

theorem Inv.delivers (h : l.Inv) : l.Delivers where
  holds := h.holds
  inOrder := h.inOrder
  acked_returned := h.acked_returned
  purged_stopped := h.purged_stopped
  kept := h.kept
  persisted := h.stored
  reloaded := by
    have hFirst := congrArg List.head? h.holds
    rw [List.head?_map, List.head?_map] at hFirst
    rw [h.oldest, EventQueue.peek, h.stored]
    cases hQueue : l.queue.queue.head? <;> cases hFront : l.waiting.head? <;> simp_all

theorem Inv.delivers_iff (h : l.Inv) (op : QueueOp) :
    (∀ t, l.step op = some t → t.Delivers) ↔ Orderly l op := by
  constructor
  · intro hDelivers
    cases op with
    | ack =>
      intro hNonempty
      obtain ⟨front, rest, hWaiting⟩ := List.exists_cons_of_ne_nil (fun hEmpty => hNonempty (h.empty_iff.mpr hEmpty))
      have hFront := (hDelivers _ rfl).acked_returned front (by simp [hWaiting])
      exact (h.handed_iff front (by rw [hWaiting]; rfl)).mp hFront
    | reload readError =>
      cases readError with
      | none => exact .inl rfl
      | some detail =>
        have hStored := (hDelivers _ rfl).persisted
        exact .inr (h.stored.symm.trans hStored)
    | _ => trivial
  · intro hOrderly t hStep
    exact (h.step hOrderly hStep).delivers

end Ledger

/-- With every write succeeding, a run from any file keeps what the queue owes after each of its
operations exactly as long as they are orderly. -/
theorem delivered_iff_orderly (kvStore : QueueFile) (hWrites : ∀ n, kvStore.failure n = none) (ops : List QueueOp) :
    Along Ledger.step (fun l op => ∀ t, l.step op = some t → t.Delivers) (.start kvStore) ops ↔
      Along Ledger.step Orderly (.start kvStore) ops := by
  apply along_congr (P := Ledger.Inv)
  · intro l op t h hOrderly hStep
    exact h.step hOrderly hStep
  · intro l op h
    exact h.delivers_iff op
  · exact Ledger.start_inv hWrites

def emptyFile : QueueFile := ⟨none, fun _ => none, 0⟩

/-- A stop is purged before it is handed out; the start behind it is delivered across a reload. -/
theorem delivered_iff_orderly_restart :
    Along Ledger.step (fun l op => ∀ t, l.step op = some t → t.Delivers) (.start emptyFile)
      (stopOps ++ startOps false ++ [.next, .reload none, .ack]) := by
  refine (delivered_iff_orderly emptyFile (fun _ => rfl) _).mpr ?_
  decide +kernel

/-- A stop is handed out, a start purges it, and the acknowledgement pops the start. -/
theorem purged_stop_acks_start :
    ¬ Along Ledger.step (fun l op => ∀ t, l.step op = some t → t.Delivers) (.start emptyFile)
      (stopOps ++ [.next] ++ startOps true ++ [.ack]) := by
  rintro ⟨-, hStop⟩
  obtain ⟨-, hNext⟩ := hStop _ rfl
  obtain ⟨-, hPurge⟩ := hNext _ rfl
  obtain ⟨-, hStart⟩ := hPurge _ rfl
  obtain ⟨hAck, -⟩ := hStart _ rfl
  have hReturned := (hAck _ rfl).acked_returned 1 (by decide +kernel)
  exact absurd hReturned (by decide +kernel)

end WalletCore.Events
