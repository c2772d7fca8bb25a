import Mathlib.Data.Finset.Basic
import WalletCore.Lib.StringMap
import WalletCore.Lib.Transition
import WalletCore.Sweep.Broadcast

/-! # Pending broadcasts

A transaction is written under its id before it is offered to the backend, and the entry is removed once an
answer is taken to say that the network knows it. A drain at startup offers again what an earlier run has
left. The queue's pump, the drain and the sweeps broadcast side by side.
-/

namespace WalletCore.Broadcast

open Lib Sweep

universe u

/-! ## Entries -/

/-- The low bytes of a number, the lowest first. -/
def leBytes : Nat → Nat → List UInt8
  | 0, _ => []
  | width + 1, n => UInt8.ofNat n :: leBytes width (n / 256)

def leValue : List UInt8 → Nat
  | [] => 0
  | byte :: rest => byte.toNat + 256 * leValue rest

@[simp] theorem length_leBytes (width n : Nat) : (leBytes width n).length = width := by
  induction width generalizing n with
  | zero => rfl
  | succ width ih => rw [leBytes, List.length_cons, ih]

theorem leValue_leBytes (width n : Nat) (h : n < 256 ^ width) : leValue (leBytes width n) = n := by
  induction width generalizing n with
  | zero =>
    have hZero : n = 0 := by simpa using h
    rw [hZero]
    rfl
  | succ width ih =>
    have hRest : n / 256 < 256 ^ width := by
      rw [Nat.pow_succ] at h
      exact Nat.div_lt_of_lt_mul (by rwa [Nat.mul_comm])
    rw [leBytes, leValue, ih _ hRest, UInt8.toNat_ofNat']
    exact Nat.mod_add_div n 256

/-- What the Bitcoin library does with transactions: it reads back what it serialized. -/
structure TxCodec (Tx : Type u) where
  serialize : Tx → List UInt8
  deserialize : List UInt8 → Option Tx
  computeTxid : Tx → String
  deserialize_serialize : ∀ tx, deserialize (serialize tx) = some tx

variable {Tx : Type u} (codec : TxCodec Tx)

def encodePendingBroadcast (createdAtSecs : UInt64) (tx : Tx) : List UInt8 :=
  leBytes 8 createdAtSecs.toNat ++ codec.serialize tx

def decodePendingBroadcast (bytes : List UInt8) : Option (UInt64 × Tx) :=
  if bytes.length < 8 then none
  else (codec.deserialize (bytes.drop 8)).map fun tx => (UInt64.ofNat (leValue (bytes.take 8)), tx)

@[simp] theorem decodePendingBroadcast_encode (createdAtSecs : UInt64) (tx : Tx) :
    decodePendingBroadcast codec (encodePendingBroadcast codec createdAtSecs tx) = some (createdAtSecs, tx) := by
  have hLength : ¬ (encodePendingBroadcast codec createdAtSecs tx).length < 8 := by
    rw [encodePendingBroadcast, List.length_append, length_leBytes]
    omega
  have hTime : leValue (leBytes 8 createdAtSecs.toNat) = createdAtSecs.toNat :=
    leValue_leBytes 8 _ createdAtSecs.toNat_lt
  rw [decodePendingBroadcast, if_neg hLength, encodePendingBroadcast, List.drop_left' (length_leBytes 8 _),
    List.take_left' (length_leBytes 8 _), codec.deserialize_serialize, hTime, Option.map_some, UInt64.ofNat_toNat]

/-! ## The store -/

/-- In seconds. -/
def pendingBroadcastTtl : Nat := 48 * 60 * 60

/-- The entries, by transaction id. -/
abbrev PendingBroadcasts := StringMap (List UInt8)

namespace PendingBroadcasts

/-- A failed write is logged. -/
def persist (pending : PendingBroadcasts) (tx : Tx) (createdAtSecs : UInt64) (fails : Bool) : PendingBroadcasts :=
  if fails then pending else pending.insert (codec.computeTxid tx) (encodePendingBroadcast codec createdAtSecs tx)

def remove (pending : PendingBroadcasts) (key : String) (fails : Bool) : PendingBroadcasts :=
  if fails then pending else pending.erase key

end PendingBroadcasts

/-- What a drain makes of one listed key. -/
inductive Visit (Tx : Type u) where
  | failed
  | missing
  | corrupt
  | stale (createdAtSecs : UInt64)
  | fresh (tx : Tx)

/-- A time in the future counts as now. -/
def PendingBroadcasts.visit (pending : PendingBroadcasts) (nowSecs : UInt64) (key : String) (fails : Bool) : Visit Tx :=
  if fails then .failed
  else
    match pending.lookup key with
    | none => .missing
    | some bytes =>
      match decodePendingBroadcast codec bytes with
      | none => .corrupt
      | some (createdAtSecs, tx) =>
        if nowSecs.toNat - createdAtSecs.toNat ≤ pendingBroadcastTtl then .fresh tx else .stale createdAtSecs

/-! ## The node -/

/-- A sweep broadcasts without the queue. -/
inductive Worker where
  | pump
  | drain
  | direct (i : Nat)
deriving DecidableEq

/-- What a worker does next. The answer that decides on a removal and the removal are two steps, and so are
the reading of a stale entry and its removal. -/
inductive Task (Tx : Type u) where
  | idle
  | sending (tx : Tx) (rest : List Tx)
  | removing (key : String) (rest : List Tx)
  | reading (nowSecs : UInt64) (key : String) (keys : List String) (fresh : List Tx)
  | discarding (key : String) (nowSecs : UInt64) (keys : List String) (fresh : List Tx)

def Task.sendAll : List Tx → Task Tx
  | [] => .idle
  | tx :: rest => .sending tx rest

def Task.readAll (nowSecs : UInt64) (keys : List String) (fresh : List Tx) : Task Tx :=
  match keys with
  | [] => .sendAll fresh
  | key :: keys => .reading nowSecs key keys fresh

def Task.afterVisit (nowSecs : UInt64) (key : String) (keys : List String) (fresh : List Tx) : Visit Tx → Task Tx
  | .failed | .missing => .readAll nowSecs keys fresh
  | .fresh tx => .readAll nowSecs keys (fresh ++ [tx])
  | .corrupt | .stale _ => .discarding key nowSecs keys fresh

def bcastPackageQueueSize : Nat := 50

structure Node (Tx : Type u) where
  pending : PendingBroadcasts
  queue : List (List Tx)
  task : Worker → Task Tx

/-- A listing gives the keys in any order, or fails. -/
inductive Event (Tx : Type u) where
  | persist (tx : Tx) (nowSecs : UInt64) (fails : Bool)
  | trySend (package : List Tx)
  | receive
  | broadcast (i : Nat) (tx : Tx)
  | drain (nowSecs : UInt64) (listing : Option (List String))
  | read (fails : Bool)
  | discard (fails : Bool)
  | answer (worker : Worker) (answer : BroadcastAnswer)
  | remove (worker : Worker) (fails : Bool)
  | restart

/-- Every transaction is persisted, then the package is queued. -/
def broadcastTransactions (package : List Tx) (nowSecs : UInt64) (fails : Tx → Bool) : List (Event Tx) :=
  package.map (fun tx => .persist tx nowSecs (fails tx)) ++ [.trySend package]

namespace Node

def start : Node Tx := ⟨∅, [], fun _ => .idle⟩

def setTask (node : Node Tx) (worker : Worker) (task : Task Tx) : Node Tx :=
  { node with task := fun w => if w = worker then task else node.task w }

def answered (tx : Tx) (rest : List Tx) (answer : BroadcastAnswer) : Task Tx :=
  match broadcastTransaction answer with
  | .accepted | .alreadyKnown => .removing (codec.computeTxid tx) rest
  | .failed _ => .sendAll rest

def step (node : Node Tx) : Event Tx → Option (Node Tx)
  | .persist tx nowSecs fails => some { node with pending := node.pending.persist codec tx nowSecs fails }
  -- a full queue drops the package
  | .trySend package =>
    some (if node.queue.length < bcastPackageQueueSize then { node with queue := node.queue ++ [package] } else node)
  | .receive =>
    match node.task .pump, node.queue with
    | .idle, package :: rest => some (({ node with queue := rest } : Node Tx).setTask .pump (.sendAll package))
    | _, _ => none
  | .broadcast i tx =>
    match node.task (.direct i) with
    | .idle => some (node.setTask (.direct i) (.sending tx []))
    | _ => none
  | .drain nowSecs listing =>
    match node.task .drain, listing with
    | .idle, none => some node
    | .idle, some keys =>
      if keys.toFinset = node.pending.keys then some (node.setTask .drain (.readAll nowSecs keys [])) else none
    | _, _ => none
  | .read fails =>
    match node.task .drain with
    | .reading nowSecs key keys fresh =>
      some (node.setTask .drain (.afterVisit nowSecs key keys fresh (node.pending.visit codec nowSecs key fails)))
    | _ => none
  | .discard fails =>
    match node.task .drain with
    | .discarding key nowSecs keys fresh =>
      some (({ node with pending := node.pending.remove key fails } : Node Tx).setTask .drain (.readAll nowSecs keys fresh))
    | _ => none
  | .answer worker answer =>
    match node.task worker with
    | .sending tx rest => some (node.setTask worker (answered codec tx rest answer))
    | _ => none
  | .remove worker fails =>
    match node.task worker with
    | .removing key rest =>
      some (({ node with pending := node.pending.remove key fails } : Node Tx).setTask worker (.sendAll rest))
    | _ => none
  | .restart => some { start with pending := node.pending }

end Node

/-! ## What an error reports -/

/-- The error spells the code as the node's RPC does, in its JSON or in words, and no further digit follows. -/
def reportsCode (code : String) (raw : List Char) : Bool :=
  raw.tails.any fun rest =>
    ["\"code\":" ++ code, "rpc error " ++ code].any fun spelled =>
      spelled.toList.isPrefixOf rest && !(rest.drop spelled.length).head?.any Char.isDigit

/-- One of the listed texts, or one of the two codes. -/
def listedError (message : String) : Bool :=
  let raw := toLowercase message
  let words := raw.map fun c => if c = '-' then ' ' else c
  benignTexts.any (fun benign => benign.toList <:+: words) || reportsCode "-25" raw || reportsCode "-27" raw

def listed : BroadcastAnswer → Bool
  | .httpResponse message _ => listedError message
  | _ => false

/-- The characters of a code are in the text of an answer only when it reports the code. The matcher looks for
the characters, which may also be those of a date. -/
def codesReported : BroadcastAnswer → Bool
  | .httpResponse message _ =>
    let raw := toLowercase message
    ["-25", "-27"].all fun code => !decide (code.toList <:+: raw) || reportsCode code raw
  | _ => true

theorem listed_of_benign {answer : BroadcastAnswer} (hCodes : codesReported answer = true) (h : answer.benign = true) :
    listed answer = true := by
  cases answer with
  | httpResponse message display =>
    have hReported : ∀ code ∈ ["-25", "-27"], code.toList <:+: toLowercase message →
        reportsCode code (toLowercase message) = true := by
      intro code hCode hStands
      have hEither := List.all_eq_true.mp hCodes code hCode
      rw [decide_eq_true hStands] at hEither
      exact hEither
    rw [BroadcastAnswer.benign, broadcastErrorIsBenign, Bool.or_eq_true, Bool.or_eq_true, decide_eq_true_eq,
      decide_eq_true_eq] at h
    rw [listed, listedError, Bool.or_eq_true, Bool.or_eq_true]
    rcases h with (hText | hMissing) | hInSet
    · exact .inl (.inl hText)
    · exact .inl (.inr (hReported "-25" List.mem_cons_self hMissing))
    · exact .inr (hReported "-27" (List.mem_cons_of_mem _ List.mem_cons_self) hInSet)
  | ok | otherError | timeout => cases h

/-! ## What is owed -/

/-- Why an entry is removed: an answer to a broadcast, or its age. -/
inductive Reason (Tx : Type u) where
  | known (tx : Tx) (answer : BroadcastAnswer)
  | stale (key : String) (createdAtSecs nowSecs : UInt64)

def Reason.key : Reason Tx → String
  | .known tx _ => codec.computeTxid tx
  | .stale key _ _ => key

/-- What the code has found, whatever the answer was meant to say. -/
def Reason.Found : Reason Tx → Prop
  | .known _ answer => answer = .ok ∨ answer.benign = true
  | .stale _ createdAtSecs nowSecs => pendingBroadcastTtl < nowSecs.toNat - createdAtSecs.toNat

def Reason.Holds : Reason Tx → Prop
  | .known _ answer => answer = .ok ∨ listed answer = true
  | .stale _ createdAtSecs nowSecs => pendingBroadcastTtl < nowSecs.toNat - createdAtSecs.toNat

/-- The answer, where it is one, reports the codes that are in it. -/
def Reason.Plain : Reason Tx → Prop
  | .known _ answer => codesReported answer = true
  | .stale .. => True

theorem Reason.Found.holds {reason : Reason Tx} (h : reason.Found) (hPlain : reason.Plain) : reason.Holds := by
  cases reason with
  | known tx answer => exact Or.imp_right (listed_of_benign hPlain) h
  | stale key createdAtSecs nowSecs => exact h

def answerReasons (tx : Tx) (answer : BroadcastAnswer) (reasons : List (Reason Tx)) : List (Reason Tx) :=
  match broadcastTransaction answer with
  | .failed _ => reasons
  | _ => .known tx answer :: reasons

/-- The transactions persisted and not removed since, by their ids, with the times; the reasons found to remove
entries; and of the last drain what was owed when it listed, what it found and what it offered. -/
structure Ledger (Tx : Type u) where
  owed : StringMap (Tx × UInt64)
  reasons : List (Reason Tx)
  due : StringMap (Tx × UInt64)
  visits : List (String × UInt64 × Visit Tx)
  offered : List Tx

namespace Ledger

def empty : Ledger Tx := ⟨∅, [], ∅, [], []⟩

def after (ledger : Ledger Tx) (node : Node Tx) : Event Tx → Ledger Tx
  | .persist tx nowSecs fails =>
    if fails then ledger else { ledger with owed := ledger.owed.insert (codec.computeTxid tx) (tx, nowSecs) }
  | .drain _ listing =>
    { ledger with due := if listing.isSome then ledger.owed else ∅, visits := [], offered := [] }
  | .read fails =>
    match node.task .drain with
    | .reading nowSecs key _ _ =>
      let visit := node.pending.visit codec nowSecs key fails
      { ledger with
        visits := ledger.visits ++ [(key, nowSecs, visit)]
        reasons := match visit with
          | .stale createdAtSecs => .stale key createdAtSecs nowSecs :: ledger.reasons
          | _ => ledger.reasons }
    | _ => ledger
  | .answer worker answer =>
    match node.task worker with
    | .sending tx _ =>
      { ledger with
        reasons := answerReasons tx answer ledger.reasons
        offered := if worker = .drain then ledger.offered ++ [tx] else ledger.offered }
    | _ => ledger
  | .discard fails =>
    match node.task .drain with
    | .discarding key _ _ _ => if fails then ledger else { ledger with owed := ledger.owed.erase key }
    | _ => ledger
  | .remove worker fails =>
    match node.task worker with
    | .removing key _ => if fails then ledger else { ledger with owed := ledger.owed.erase key }
    | _ => ledger
  | .restart => { ledger with due := ∅, visits := [], offered := [] }
  | _ => ledger

end Ledger

structure Run (Tx : Type u) where
  node : Node Tx
  ledger : Ledger Tx

namespace Run

def start : Run Tx := ⟨.start, .empty⟩

def step (run : Run Tx) (event : Event Tx) : Option (Run Tx) :=
  (run.node.step codec event).map (⟨·, run.ledger.after codec run.node event⟩)

end Run

/-! ## Tasks -/

namespace Task

def removes : Task Tx → Option String
  | .removing key _ | .discarding key _ _ _ => some key
  | _ => none

def keysLeft : Task Tx → List String
  | .reading _ key keys _ => key :: keys
  | .discarding _ _ keys _ => keys
  | _ => []

def txsLeft : Task Tx → List Tx
  | .idle => []
  | .sending tx rest => tx :: rest
  | .removing _ rest => rest
  | .reading _ _ _ fresh | .discarding _ _ _ fresh => fresh

variable (txs fresh : List Tx) (nowSecs : UInt64) (keys : List String)

@[simp] theorem removes_sendAll : (sendAll txs).removes = none := by
  cases txs <;> rfl

@[simp] theorem keysLeft_sendAll : (sendAll txs).keysLeft = [] := by
  cases txs <;> rfl

@[simp] theorem txsLeft_sendAll : (sendAll txs).txsLeft = txs := by
  cases txs <;> rfl

@[simp] theorem removes_readAll : (readAll nowSecs keys fresh).removes = none := by
  cases keys with
  | nil => exact removes_sendAll fresh
  | cons key keys => rfl

@[simp] theorem keysLeft_readAll : (readAll nowSecs keys fresh).keysLeft = keys := by
  cases keys with
  | nil => exact keysLeft_sendAll fresh
  | cons key keys => rfl

@[simp] theorem txsLeft_readAll : (readAll nowSecs keys fresh).txsLeft = fresh := by
  cases keys with
  | nil => exact txsLeft_sendAll fresh
  | cons key keys => rfl

@[simp] theorem keysLeft_afterVisit (key : String) (visit : Visit Tx) :
    (afterVisit nowSecs key keys fresh visit).keysLeft = keys := by
  cases visit with
  | failed | missing | fresh => exact keysLeft_readAll _ _ _
  | corrupt | stale => rfl

end Task

@[simp] theorem Node.setTask_task (node : Node Tx) (worker w : Worker) (task : Task Tx) :
    (node.setTask worker task).task w = if w = worker then task else node.task w := rfl

@[simp] theorem Node.txsLeft_answered (tx : Tx) (rest : List Tx) (answer : BroadcastAnswer) :
    (answered codec tx rest answer).txsLeft = rest := by
  rw [answered]
  split
  · rfl
  · rfl
  · exact Task.txsLeft_sendAll rest

/-! ## Entries stay -/

/-- No entry is corrupt, one found stale is, and one found fresh is kept under its transaction's id. -/
def Visit.Sound (nowSecs : UInt64) (key : String) : Visit Tx → Prop
  | .failed | .missing => True
  | .corrupt => False
  | .stale createdAtSecs => pendingBroadcastTtl < nowSecs.toNat - createdAtSecs.toNat
  | .fresh tx => codec.computeTxid tx = key

/-- What is owed is on disk, every entry was persisted, and whoever is about to remove one has a reason. -/
structure Kept (pending : PendingBroadcasts) (task : Worker → Task Tx) (owed : StringMap (Tx × UInt64))
    (reasons : List (Reason Tx)) : Prop where
  owed : ∀ key tx createdAtSecs, owed.lookup key = some (tx, createdAtSecs) →
    pending.lookup key = some (encodePendingBroadcast codec createdAtSecs tx)
  entries : ∀ key bytes, pending.lookup key = some bytes →
    ∃ tx createdAtSecs, codec.computeTxid tx = key ∧ bytes = encodePendingBroadcast codec createdAtSecs tx
  justified : ∀ reason ∈ reasons, reason.Found
  removing : ∀ worker key, (task worker).removes = some key → ∃ reason ∈ reasons, reason.key codec = key

namespace Kept

variable {codec} {pending : PendingBroadcasts} {task : Worker → Task Tx} {owed : StringMap (Tx × UInt64)}
  {reasons : List (Reason Tx)}

theorem persist (h : Kept codec pending task owed reasons) (tx : Tx) (nowSecs : UInt64) :
    Kept codec (pending.persist codec tx nowSecs false) task (owed.insert (codec.computeTxid tx) (tx, nowSecs)) reasons := by
  have hPending : pending.persist codec tx nowSecs false =
      pending.insert (codec.computeTxid tx) (encodePendingBroadcast codec nowSecs tx) := rfl
  rw [hPending]
  refine ⟨?_, ?_, h.justified, h.removing⟩
  · intro key tx' createdAtSecs hOwed
    rw [StringMap.lookup_insert_eq] at hOwed ⊢
    split at hOwed
    · rename_i hKey
      cases hOwed
      rw [if_pos hKey]
    · rename_i hKey
      rw [if_neg hKey]
      exact h.owed key tx' createdAtSecs hOwed
  · intro key bytes hBytes
    rw [StringMap.lookup_insert_eq] at hBytes
    split at hBytes
    · rename_i hKey
      cases hBytes
      exact ⟨tx, nowSecs, hKey.symm, rfl⟩
    · exact h.entries key bytes hBytes

theorem erase (h : Kept codec pending task owed reasons) (key : String) :
    Kept codec (pending.erase key) task (owed.erase key) reasons := by
  refine ⟨?_, ?_, h.justified, h.removing⟩
  · intro key' tx createdAtSecs hOwed
    rw [StringMap.lookup_erase_eq] at hOwed ⊢
    split at hOwed
    · cases hOwed
    · rename_i hKey
      rw [if_neg hKey]
      exact h.owed key' tx createdAtSecs hOwed
  · intro key' bytes hBytes
    rw [StringMap.lookup_erase_eq] at hBytes
    split at hBytes
    · cases hBytes
    · exact h.entries key' bytes hBytes

theorem setTask {node : Node Tx} (h : Kept codec pending node.task owed reasons) {worker : Worker} {next : Task Tx}
    (hNext : ∀ key, next.removes = some key → ∃ reason ∈ reasons, reason.key codec = key) :
    Kept codec pending (node.setTask worker next).task owed reasons := by
  refine ⟨h.owed, h.entries, h.justified, ?_⟩
  intro w key hRemoves
  rw [Node.setTask_task] at hRemoves
  split at hRemoves
  · exact hNext key hRemoves
  · exact h.removing w key hRemoves

theorem calm {node : Node Tx} (h : Kept codec pending node.task owed reasons) {worker : Worker} {next : Task Tx}
    (hNext : next.removes = none) : Kept codec pending (node.setTask worker next).task owed reasons := by
  refine h.setTask ?_
  intro key hRemoves
  rw [hNext] at hRemoves
  cases hRemoves

theorem reason (h : Kept codec pending task owed reasons) {reason : Reason Tx} (hFound : reason.Found) :
    Kept codec pending task owed (reason :: reasons) := by
  refine ⟨h.owed, h.entries, List.forall_mem_cons.mpr ⟨hFound, h.justified⟩, ?_⟩
  intro worker key hRemoves
  obtain ⟨reason', hMem, hKey⟩ := h.removing worker key hRemoves
  exact ⟨reason', List.mem_cons_of_mem _ hMem, hKey⟩

theorem answer {node : Node Tx} (h : Kept codec pending node.task owed reasons) (worker : Worker) (tx : Tx)
    (rest : List Tx) (answer : BroadcastAnswer) :
    Kept codec pending (node.setTask worker (Node.answered codec tx rest answer)).task owed
      (answerReasons tx answer reasons) := by
  have hRemoving : (Reason.known tx answer : Reason Tx).Found →
      Kept codec pending (node.setTask worker (.removing (codec.computeTxid tx) rest)).task owed
        (.known tx answer :: reasons) := by
    intro hFound
    refine (h.reason hFound).setTask ?_
    rintro key ⟨⟩
    exact ⟨.known tx answer, List.mem_cons_self, rfl⟩
  rw [Node.answered, answerReasons]
  cases hOutcome : broadcastTransaction answer with
  | accepted => exact hRemoving (.inl (broadcastTransaction_accepted hOutcome))
  | alreadyKnown => exact hRemoving (.inr (broadcastTransaction_alreadyKnown.mp hOutcome))
  | failed detail => exact h.calm (Task.removes_sendAll rest)

theorem visit_sound (h : Kept codec pending task owed reasons) (nowSecs : UInt64) (key : String) (fails : Bool) :
    (pending.visit codec nowSecs key fails).Sound codec nowSecs key := by
  rw [PendingBroadcasts.visit]
  cases fails with
  | true => trivial
  | false =>
    cases hLookup : pending.lookup key with
    | none => trivial
    | some bytes =>
      obtain ⟨tx, createdAtSecs, hKey, rfl⟩ := h.entries key bytes hLookup
      simp only [decodePendingBroadcast_encode, Bool.false_eq_true, if_false]
      by_cases hAge : nowSecs.toNat - createdAtSecs.toNat ≤ pendingBroadcastTtl
      · rw [if_pos hAge]
        exact hKey
      · rw [if_neg hAge]
        exact Nat.lt_of_not_le hAge

end Kept

/-! ## Drains offer what they find -/

/-- Every listed key that was owed is visited or still to be read, and every transaction found fresh is offered
or still to be sent. -/
structure Drained (due : StringMap (Tx × UInt64)) (visits : List (String × UInt64 × Visit Tx)) (offered : List Tx)
    (task : Task Tx) : Prop where
  listed : ∀ key ∈ due.keys, (∃ visit, (key, visit) ∈ visits) ∨ key ∈ task.keysLeft
  gathered : ∀ key nowSecs tx, (key, nowSecs, Visit.fresh tx) ∈ visits → tx ∈ offered ∨ tx ∈ task.txsLeft
  sound : ∀ key nowSecs visit, (key, nowSecs, visit) ∈ visits → visit.Sound codec nowSecs key

namespace Drained

variable {codec} {due : StringMap (Tx × UInt64)} {visits : List (String × UInt64 × Visit Tx)} {offered : List Tx}
  {task next : Task Tx}

theorem none (task : Task Tx) : Drained codec ∅ [] [] task := by
  refine ⟨?_, ?_, ?_⟩
  · intro key hKey
    simp at hKey
  · intro key nowSecs tx hMem
    cases hMem
  · intro key nowSecs visit hMem
    cases hMem

theorem goOn (h : Drained codec due visits offered task) (hKeys : next.keysLeft = task.keysLeft)
    (hTxs : next.txsLeft = task.txsLeft) : Drained codec due visits offered next := by
  refine ⟨?_, ?_, h.sound⟩
  · rw [hKeys]
    exact h.listed
  · rw [hTxs]
    exact h.gathered

theorem list {owed : StringMap (Tx × UInt64)} {keys : List String} (h : ∀ key ∈ owed.keys, key ∈ keys)
    (nowSecs : UInt64) : Drained codec owed [] [] (.readAll nowSecs keys []) := by
  refine ⟨?_, ?_, ?_⟩
  · intro key hKey
    rw [Task.keysLeft_readAll]
    exact .inr (h key hKey)
  · intro key nowSecs tx hMem
    cases hMem
  · intro key nowSecs visit hMem
    cases hMem

theorem read {nowSecs : UInt64} {key : String} {keys : List String} {fresh : List Tx}
    (h : Drained codec due visits offered (.reading nowSecs key keys fresh)) {visit : Visit Tx}
    (hSound : visit.Sound codec nowSecs key) :
    Drained codec due (visits ++ [(key, nowSecs, visit)]) offered (.afterVisit nowSecs key keys fresh visit) := by
  refine ⟨?_, ?_, ?_⟩
  · intro key' hKey
    rw [Task.keysLeft_afterVisit]
    rcases h.listed key' hKey with ⟨visit', hMem⟩ | hLeft
    · exact .inl ⟨visit', List.mem_append_left _ hMem⟩
    · rcases List.mem_cons.mp hLeft with rfl | hLeft
      · exact .inl ⟨_, List.mem_append_right _ (List.mem_singleton_self _)⟩
      · exact .inr hLeft
  · intro key' nowSecs' tx hMem
    -- what was gathered before stays, and a fresh entry joins it
    have hFresh : ∀ tx ∈ fresh, tx ∈ (Task.afterVisit nowSecs key keys fresh visit).txsLeft := by
      intro tx hTx
      cases visit with
      | failed | missing =>
        rw [Task.afterVisit, Task.txsLeft_readAll]
        exact hTx
      | fresh found =>
        rw [Task.afterVisit, Task.txsLeft_readAll]
        exact List.mem_append_left _ hTx
      | corrupt | stale => exact hTx
    rcases List.mem_append.mp hMem with hMem | hMem
    · exact (h.gathered key' nowSecs' tx hMem).imp_right (hFresh tx)
    · cases List.mem_singleton.mp hMem
      rw [Task.afterVisit, Task.txsLeft_readAll]
      exact .inr (List.mem_append_right _ (List.mem_singleton_self tx))
  · intro key' nowSecs' visit' hMem
    rcases List.mem_append.mp hMem with hMem | hMem
    · exact h.sound key' nowSecs' visit' hMem
    · cases List.mem_singleton.mp hMem
      exact hSound

theorem offer {tx : Tx} {rest : List Tx} (h : Drained codec due visits offered (.sending tx rest))
    (hTxs : next.txsLeft = rest) :
    Drained codec due visits (offered ++ [tx]) next := by
  refine ⟨?_, ?_, h.sound⟩
  · intro key hKey
    rcases h.listed key hKey with hVisit | hLeft
    · exact .inl hVisit
    · cases hLeft
  · intro key nowSecs found hMem
    rw [hTxs]
    rcases h.gathered key nowSecs found hMem with hOffered | hLeft
    · exact .inl (List.mem_append_left _ hOffered)
    · rcases List.mem_cons.mp hLeft with rfl | hLeft
      · exact .inl (List.mem_append_right _ (List.mem_singleton_self _))
      · exact .inr hLeft

end Drained

/-! ## Runs -/

namespace Run

structure Inv (run : Run Tx) : Prop where
  kept : Kept codec run.node.pending run.node.task run.ledger.owed run.ledger.reasons
  drained : Drained codec run.ledger.due run.ledger.visits run.ledger.offered (run.node.task .drain)

theorem inv_start : (start : Run Tx).Inv codec := by
  refine ⟨⟨?_, ?_, ?_, ?_⟩, Drained.none _⟩
  · intro key tx createdAtSecs hOwed
    cases hOwed
  · intro key bytes hBytes
    cases hBytes
  · intro reason hReason
    cases hReason
  · intro worker key hRemoves
    cases hRemoves

theorem Inv.owed_listed {codec} {run : Run Tx} (h : run.Inv codec) {keys : List String}
    (hKeys : keys.toFinset = run.node.pending.keys) : ∀ key ∈ run.ledger.owed.keys, key ∈ keys := by
  intro key hKey
  obtain ⟨⟨tx, createdAtSecs⟩, hOwed⟩ := Finmap.mem_iff.mp (Finmap.mem_keys.mp hKey)
  have hPending := h.kept.owed key tx createdAtSecs hOwed
  rw [← List.mem_toFinset, hKeys]
  exact Finmap.mem_keys.mpr (Finmap.mem_of_lookup_eq_some hPending)

theorem inv_step {run next : Run Tx} {event : Event Tx} (h : run.Inv codec) (hStep : run.step codec event = some next) :
    next.Inv codec := by
  obtain ⟨node, ledger⟩ := run
  obtain ⟨hKept, hDrained⟩ := h
  obtain ⟨node', hNode, rfl⟩ := Option.map_eq_some_iff.mp hStep
  cases event with
  | persist tx nowSecs fails =>
    cases hNode
    cases fails with
    | true => exact ⟨hKept, hDrained⟩
    | false => exact ⟨hKept.persist tx nowSecs, hDrained⟩
  | trySend package =>
    cases hNode
    refine ⟨?_, ?_⟩ <;> split
    · exact hKept
    · exact hKept
    · exact hDrained
    · exact hDrained
  | receive =>
    simp only [Node.step] at hNode
    split at hNode
    · cases hNode
      exact ⟨hKept.calm (Task.removes_sendAll _), hDrained⟩
    · cases hNode
  | broadcast i tx =>
    simp only [Node.step] at hNode
    split at hNode
    · cases hNode
      exact ⟨hKept.calm rfl, hDrained⟩
    · cases hNode
  | drain nowSecs listing =>
    simp only [Node.step] at hNode
    split at hNode
    · cases hNode
      exact ⟨hKept, Drained.none _⟩
    · rename_i keys hIdle
      split at hNode
      · rename_i hKeys
        cases hNode
        refine ⟨hKept.calm (Task.removes_readAll _ _ _), ?_⟩
        have hListed : ∀ key ∈ ledger.owed.keys, key ∈ keys := Inv.owed_listed ⟨hKept, hDrained⟩ hKeys
        exact Drained.list hListed nowSecs
      · cases hNode
    · cases hNode
  | read fails =>
    simp only [Node.step] at hNode
    split at hNode
    · rename_i nowSecs key keys fresh hTask
      cases hNode
      have hSound := hKept.visit_sound nowSecs key fails
      rw [hTask] at hDrained
      simp only [Ledger.after, hTask]
      refine ⟨?_, hDrained.read hSound⟩
      cases hVisit : node.pending.visit codec nowSecs key fails with
      | failed => exact hKept.calm (Task.removes_readAll _ _ _)
      | missing => exact hKept.calm (Task.removes_readAll _ _ _)
      | fresh tx => exact hKept.calm (Task.removes_readAll _ _ _)
      | corrupt =>
        rw [hVisit] at hSound
        exact hSound.elim
      | stale createdAtSecs =>
        rw [hVisit] at hSound
        have hFound : (Reason.stale key createdAtSecs nowSecs : Reason Tx).Found := hSound
        refine (hKept.reason hFound).setTask ?_
        rintro key' ⟨⟩
        exact ⟨.stale key createdAtSecs nowSecs, List.mem_cons_self, rfl⟩
    · cases hNode
  | discard fails =>
    simp only [Node.step] at hNode
    split at hNode
    · rename_i key nowSecs keys fresh hTask
      cases hNode
      rw [hTask] at hDrained
      simp only [Ledger.after, hTask]
      have hNext := hDrained.goOn (Task.keysLeft_readAll fresh nowSecs keys) (Task.txsLeft_readAll fresh nowSecs keys)
      cases fails with
      | true => exact ⟨hKept.calm (Task.removes_readAll _ _ _), hNext⟩
      | false => exact ⟨(hKept.erase key).calm (Task.removes_readAll _ _ _), hNext⟩
    · cases hNode
  | answer worker answer =>
    simp only [Node.step] at hNode
    split at hNode
    · rename_i tx rest hTask
      cases hNode
      simp only [Ledger.after, hTask]
      refine ⟨hKept.answer worker tx rest answer, ?_⟩
      rw [Node.setTask_task]
      by_cases hWorker : worker = .drain
      · subst hWorker
        rw [hTask] at hDrained
        rw [if_pos rfl, if_pos rfl]
        exact hDrained.offer (Node.txsLeft_answered codec tx rest answer)
      · rw [if_neg hWorker, if_neg (Ne.symm hWorker)]
        exact hDrained
    · cases hNode
  | remove worker fails =>
    simp only [Node.step] at hNode
    split at hNode
    · rename_i key rest hTask
      cases hNode
      simp only [Ledger.after, hTask]
      have hNext : Drained codec ledger.due ledger.visits ledger.offered
          ((node.setTask worker (.sendAll rest)).task .drain) := by
        rw [Node.setTask_task]
        split
        · rename_i hWorker
          subst hWorker
          rw [hTask] at hDrained
          exact hDrained.goOn (Task.keysLeft_sendAll rest) (Task.txsLeft_sendAll rest)
        · exact hDrained
      cases fails with
      | true => exact ⟨hKept.calm (Task.removes_sendAll _), hNext⟩
      | false => exact ⟨(hKept.erase key).calm (Task.removes_sendAll _), hNext⟩
    · cases hNode
  | restart =>
    cases hNode
    refine ⟨⟨hKept.owed, hKept.entries, hKept.justified, ?_⟩, Drained.none _⟩
    intro worker key hRemoves
    cases hRemoves

theorem inv_exec {events : List (Event Tx)} {run : Run Tx} (hRun : exec (step codec) start events = some run) :
    run.Inv codec :=
  exec_inv_all (fun _ _ _ h hStep => inv_step codec h hStep) (inv_start codec) hRun

variable {codec} {run next : Run Tx} {event : Event Tx}

/-- An entry that is owed at one moment and not at the next was removed, for a reason. -/
theorem Inv.unowed (h : run.Inv codec) (hStep : run.step codec event = some next) {key : String}
    (hOwed : key ∈ run.ledger.owed) (hGone : key ∉ next.ledger.owed) :
    ∃ reason ∈ run.ledger.reasons, reason.key codec = key ∧ reason.Found := by
  obtain ⟨node, ledger⟩ := run
  obtain ⟨hKept, -⟩ := h
  obtain ⟨node', -, rfl⟩ := Option.map_eq_some_iff.mp hStep
  have hErased : ∀ worker key', (node.task worker).removes = some key' → key ∉ ledger.owed.erase key' →
      ∃ reason ∈ ledger.reasons, reason.key codec = key ∧ reason.Found := by
    intro worker key' hRemoves hNot
    obtain ⟨reason, hMem, hKey⟩ := hKept.removing worker key' hRemoves
    have hSame : key = key' := by
      by_contra hOther
      exact hNot (Finmap.mem_erase.mpr ⟨hOther, hOwed⟩)
    exact ⟨reason, hMem, hKey.trans hSame.symm, hKept.justified reason hMem⟩
  cases event with
  | persist tx nowSecs fails =>
    cases fails with
    | true => exact absurd hOwed hGone
    | false => exact absurd (Finmap.mem_insert.mpr (.inr hOwed)) hGone
  | trySend | receive | broadcast | drain | restart => exact absurd hOwed hGone
  | read fails =>
    simp only [Ledger.after] at hGone
    split at hGone <;> exact absurd hOwed hGone
  | answer worker answer =>
    simp only [Ledger.after] at hGone
    split at hGone <;> exact absurd hOwed hGone
  | discard fails =>
    simp only [Ledger.after] at hGone
    split at hGone
    · rename_i hTask
      split at hGone
      · exact absurd hOwed hGone
      · exact hErased .drain _ (by rw [hTask]; rfl) hGone
    · exact absurd hOwed hGone
  | remove worker fails =>
    simp only [Ledger.after] at hGone
    split at hGone
    · rename_i hTask
      split at hGone
      · exact absurd hOwed hGone
      · exact hErased worker _ (by rw [hTask]; rfl) hGone
    · exact absurd hOwed hGone

theorem Inv.visit_owed (h : run.Inv codec) {key : String} {tx : Tx} {createdAtSecs : UInt64}
    (hOwed : run.ledger.owed.lookup key = some (tx, createdAtSecs)) {nowSecs : UInt64}
    (hAge : nowSecs.toNat - createdAtSecs.toNat ≤ pendingBroadcastTtl) :
    run.node.pending.visit codec nowSecs key false = .fresh tx := by
  have hPending := h.kept.owed key tx createdAtSecs hOwed
  simp [PendingBroadcasts.visit, hPending, hAge]

/-- The answers that gave reasons came in the run. -/
theorem plain_step (hPlain : ∀ reason ∈ run.ledger.reasons, reason.Plain)
    (hEvent : ∀ worker answer, event = .answer worker answer → codesReported answer = true)
    (hStep : run.step codec event = some next) : ∀ reason ∈ next.ledger.reasons, reason.Plain := by
  obtain ⟨node, ledger⟩ := run
  obtain ⟨node', -, rfl⟩ := Option.map_eq_some_iff.mp hStep
  cases event with
  | persist tx nowSecs fails => cases fails <;> exact hPlain
  | read fails =>
    simp only [Ledger.after]
    split
    · dsimp only
      split
      · exact List.forall_mem_cons.mpr ⟨trivial, hPlain⟩
      · exact hPlain
    · exact hPlain
  | answer worker answer =>
    simp only [Ledger.after]
    split
    · rw [answerReasons]
      split
      · exact hPlain
      · exact List.forall_mem_cons.mpr ⟨hEvent worker answer rfl, hPlain⟩
    · exact hPlain
  | discard fails | remove worker fails =>
    simp only [Ledger.after]
    split
    · cases fails <;> exact hPlain
    · exact hPlain
  | trySend | receive | broadcast | drain | restart => exact hPlain

theorem plain_exec {events : List (Event Tx)}
    (hEvents : ∀ worker answer, .answer worker answer ∈ events → codesReported answer = true)
    (hRun : exec (step codec) start events = some run) : ∀ reason ∈ run.ledger.reasons, reason.Plain := by
  have hAlong : Along (step codec)
      (fun _ event => ∀ worker answer, event = .answer worker answer → codesReported answer = true) start events := by
    apply along_of_forall
    rintro event hMem worker answer rfl
    exact hEvents worker answer hMem
  exact exec_inv (P := fun run : Run Tx => ∀ reason ∈ run.ledger.reasons, reason.Plain)
    (fun _ _ _ hPlain hEvent hStep => plain_step hPlain hEvent hStep) (fun _ hMem => by cases hMem) hAlong hRun

/-- A drain that is through has visited every entry owed when it listed, and offered what it found in time. -/
theorem Inv.drained_idle (h : run.Inv codec) (hIdle : run.node.task .drain = .idle) {key : String}
    (hDue : key ∈ run.ledger.due) : ∃ nowSecs visit, (key, nowSecs, visit) ∈ run.ledger.visits ∧
      visit.Sound codec nowSecs key ∧ ∀ tx, visit = .fresh tx → tx ∈ run.ledger.offered := by
  obtain ⟨-, hDrained⟩ := h
  rw [hIdle] at hDrained
  rcases hDrained.listed key (Finmap.mem_keys.mpr hDue) with ⟨⟨nowSecs, visit⟩, hMem⟩ | hLeft
  · refine ⟨nowSecs, visit, hMem, hDrained.sound key nowSecs visit hMem, ?_⟩
    rintro tx rfl
    rcases hDrained.gathered key nowSecs tx hMem with hOffered | hLeft
    · exact hOffered
    · cases hLeft
  · cases hLeft

end Run

/-- Encoding is undone by decoding. In every run an entry stays as it was last persisted until a removal is
carried out that an answer or the entry's age gave reason for, where the codes in the answers are reported; and a
drain that no crash cuts off offers what it can read in time. -/
theorem pending_kept (codec : TxCodec Tx) :
    (∀ createdAtSecs tx, decodePendingBroadcast codec (encodePendingBroadcast codec createdAtSecs tx) =
      some (createdAtSecs, tx)) ∧
    ∀ events run, exec (Run.step codec) .start events = some run →
      (∀ key tx createdAtSecs, run.ledger.owed.lookup key = some (tx, createdAtSecs) →
        run.node.pending.lookup key = some (encodePendingBroadcast codec createdAtSecs tx) ∧
        ∀ nowSecs : UInt64, nowSecs.toNat - createdAtSecs.toNat ≤ pendingBroadcastTtl →
          run.node.pending.visit codec nowSecs key false = .fresh tx) ∧
      ((∀ worker answer, .answer worker answer ∈ events → codesReported answer = true) →
        ∀ event next key, run.step codec event = some next → key ∈ run.ledger.owed → key ∉ next.ledger.owed →
          ∃ reason ∈ run.ledger.reasons, reason.key codec = key ∧ reason.Holds) ∧
      (run.node.task .drain = .idle → ∀ key ∈ run.ledger.due, ∃ nowSecs visit,
        (key, nowSecs, visit) ∈ run.ledger.visits ∧ visit.Sound codec nowSecs key ∧
          ∀ tx, visit = .fresh tx → tx ∈ run.ledger.offered) := by
  refine ⟨decodePendingBroadcast_encode codec, fun events run hRun => ?_⟩
  have hInv := Run.inv_exec codec hRun
  refine ⟨?_, ?_, ?_⟩
  · intro key tx createdAtSecs hOwed
    exact ⟨hInv.kept.owed key tx createdAtSecs hOwed, fun nowSecs => hInv.visit_owed hOwed⟩
  · intro hEvents event next key hStep hOwed hGone
    obtain ⟨reason, hMem, hKey, hFound⟩ := hInv.unowed hStep hOwed hGone
    exact ⟨reason, hMem, hKey, hFound.holds (Run.plain_exec hEvents hRun reason hMem)⟩
  · intro hIdle key hDue
    exact hInv.drained_idle hIdle hDue

/-! ## Two answers -/

def emptyTxCodec : TxCodec UInt32 where
  serialize lockTime := [2, 0, 0, 0, 0, 1, 0, 0] ++ leBytes 4 lockTime.toNat
  deserialize bytes :=
    if bytes.take 8 = [2, 0, 0, 0, 0, 1, 0, 0] ∧ bytes.length = 12 then some (UInt32.ofNat (leValue (bytes.drop 8)))
    else none
  computeTxid lockTime :=
    if lockTime = 7 then "8ca6c3fd6c4582d5e5f8b90a957b90f11cee718c0c9c4a2d695446dda323d7f7" else Nat.repr lockTime.toNat
  deserialize_serialize := by
    intro lockTime
    have hTime : leValue (leBytes 4 lockTime.toNat) = lockTime.toNat := leValue_leBytes 4 _ lockTime.toNat_lt
    simp [hTime]

/-- The answer of a server whose node misses the inputs. -/
def missingInputs : BroadcastAnswer :=
  .httpResponse "sendrawtransaction RPC error: \x7b\"code\":-25,\"message\":\"bad-txns-inputs-missingorspent\"\x7d" "HTTP 400"

/-- A transaction is persisted and offered, and the code of the answer lets its entry go. -/
theorem pending_kept_missingInputs :
    ∃ run next, exec (Run.step emptyTxCodec) .start
        [.persist 7 1700000000 false, .broadcast 0 7, .answer (.direct 0) missingInputs] = some run ∧
      run.step emptyTxCodec (.remove (.direct 0) false) = some next ∧
      emptyTxCodec.computeTxid 7 ∈ run.ledger.owed ∧ emptyTxCodec.computeTxid 7 ∉ next.ledger.owed ∧
      ∃ reason ∈ run.ledger.reasons, reason.key emptyTxCodec = emptyTxCodec.computeTxid 7 ∧ reason.Holds := by
  have hAnswer : broadcastTransaction missingInputs = .alreadyKnown := by decide +kernel
  have hReports : codesReported missingInputs = true := by decide +kernel
  have hEvents : ∀ worker answer, Event.answer worker answer ∈
      ([.persist 7 1700000000 false, .broadcast 0 7, .answer (.direct 0) missingInputs] : List (Event UInt32)) →
        codesReported answer = true := by
    intro worker answer hMem
    simp only [List.mem_cons, Event.answer.injEq, List.not_mem_nil, reduceCtorEq, or_false, false_or] at hMem
    rw [hMem.2]
    exact hReports
  have hRun : ∃ run next, exec (Run.step emptyTxCodec) .start
        [.persist 7 1700000000 false, .broadcast 0 7, .answer (.direct 0) missingInputs] = some run ∧
      run.step emptyTxCodec (.remove (.direct 0) false) = some next ∧
      emptyTxCodec.computeTxid 7 ∈ run.ledger.owed ∧ emptyTxCodec.computeTxid 7 ∉ next.ledger.owed := by
    simp only [exec, Run.step, Node.step, Run.start, Node.start, Node.setTask, Node.answered, if_true,
      Option.map_some, Option.bind_some, hAnswer]
    exact ⟨_, _, rfl, rfl, by decide, by decide⟩
  obtain ⟨run, next, hExec, hStep, hOwed, hGone⟩ := hRun
  obtain ⟨-, hRuns⟩ := pending_kept emptyTxCodec
  obtain ⟨-, hReason, -⟩ := hRuns _ run hExec
  exact ⟨run, next, hExec, hStep, hOwed, hGone, hReason hEvents _ next _ hStep hOwed hGone⟩

/-- Neither a date nor a longer number is a code. -/
example : reportsCode "-25" (toLowercase "502 Bad Gateway, Thu 2025-12-25") = false ∧
    reportsCode "-25" (toLowercase "RPC error -2503") = false := by
  decide +kernel

/-- The texts that name the transaction itself. -/
def knownTexts : List String := [
  "already in mempool",
  "already in the mempool",
  "already in block chain",
  "already known",
  "already confirmed"]

/-- An acceptance, or an error that says the transaction is known. -/
def saysKnown : BroadcastAnswer → Bool
  | .ok => true
  | .httpResponse message _ =>
    let words := (toLowercase message).map fun c => if c = '-' then ' ' else c
    knownTexts.any fun known => known.toList <:+: words
  | _ => false

/-- The backend turns a replacement down for its fee, and the entry goes. -/
theorem rejected_replacement_dropped :
    ¬ ∀ (events : List (Event UInt32)) (run : Run UInt32), exec (Run.step emptyTxCodec) .start events = some run →
      ∀ tx nowSecs, .persist tx nowSecs false ∈ events →
        (∀ worker answer, .answer worker answer ∈ events → saysKnown answer = false) →
        (∀ now listing, .drain now listing ∉ events) → emptyTxCodec.computeTxid tx ∈ run.node.pending := by
  intro h
  let answer : BroadcastAnswer :=
    .httpResponse "insufficient fee, rejecting replacement" "HTTP 400: insufficient fee, rejecting replacement"
  let events : List (Event UInt32) := [
    .persist 7 1700000000 false,
    .broadcast 0 7,
    .answer (.direct 0) answer,
    .remove (.direct 0) false]
  have hAnswer : broadcastTransaction answer = .alreadyKnown := by decide +kernel
  have hQuiet : ∀ worker answer', Event.answer worker answer' ∈ events → saysKnown answer' = false := by
    intro worker answer' hMem
    have hSame : answer' = answer := by
      simp only [events, List.mem_cons, Event.answer.injEq, List.not_mem_nil, reduceCtorEq, or_false, false_or] at hMem
      exact hMem.2
    rw [hSame]
    decide +kernel
  have hRun : ∃ run, exec (Run.step emptyTxCodec) .start events = some run ∧ run.node.pending.lookup
      "8ca6c3fd6c4582d5e5f8b90a957b90f11cee718c0c9c4a2d695446dda323d7f7" = none := by
    simp only [events, exec, Run.step, Node.step, Run.start, Node.start, Node.setTask, Node.answered, if_true,
      Option.map_some, Option.bind_some, hAnswer]
    exact ⟨_, rfl, by decide⟩
  obtain ⟨run, hExec, hLookup⟩ := hRun
  have hMem := h events run hExec 7 1700000000 List.mem_cons_self hQuiet (by simp [events])
  exact Finmap.lookup_eq_none.mp hLookup hMem

end WalletCore.Broadcast
