import WalletCore.Lib.Crash

/-! # Programs that share a disk

A program under way is known by the disk it began on and the fates of its changes so far. As long as the
disk is the one it left behind it goes on as it would alone; a program that was disturbed may do anything.
-/

namespace Lib

structure Session (D ε α : Type) where
  program : Prog D ε α
  began : D
  fates : List Fate

namespace Session

variable {D ε α : Type}

/-- A crash at this moment, or the end of the program. -/
def outcome (s : Session D ε α) : Outcome D ε α := s.program s.began (s.fates ++ [.dies])

def left (s : Session D ε α) : D := s.outcome.disk

/-- The program waits for the fate of a change. -/
def atWork (s : Session D ε α) : Bool :=
  match s.outcome with
  | .ok _ _ _ | .error _ _ _ => false
  | .crashed _ => true

def goOn (s : Session D ε α) (fate : Fate) : Session D ε α := { s with fates := s.fates ++ [fate] }

variable [DecidableEq D]

/-- The disk after the next change, when it was the given one before. -/
def move (s : Session D ε α) (disk : D) (fate : Fate) (elsewhere : D) : D :=
  if disk = s.left then (s.goOn fate).left else elsewhere

theorem move_undisturbed {s : Session D ε α} {disk : D} (h : disk = s.left) (fate : Fate) (elsewhere : D) :
    s.move disk fate elsewhere = (s.goOn fate).left :=
  if_pos h

end Session

namespace Prog

variable {D ε α β : Type} {p : Prog D ε α} {disk : D}

/-! ## Every change takes a fate -/

/-- A program whose first change does not come has left the disk alone. -/
def Still (p : Prog D ε α) : Prop :=
  ∀ disk, match p disk [.dies] with
    | .ok _ disk' rest => disk' = disk ∧ rest = [.dies]
    | .error _ disk' rest => disk' = disk ∧ rest = [.dies]
    | .crashed disk' => disk' = disk

theorem Still.left (h : p.Still) (disk : D) : (p disk [.dies]).disk = disk := by
  have hStill := h disk
  cases hRun : p disk [.dies] with
  | ok value disk' rest =>
    rw [hRun] at hStill
    exact hStill.1
  | error e disk' rest =>
    rw [hRun] at hStill
    exact hStill.1
  | crashed disk' =>
    rw [hRun] at hStill
    exact hStill

theorem still_pure (value : α) : (pure value : Prog D ε α).Still := fun _ => ⟨rfl, rfl⟩

theorem still_fail (e : ε) : (Prog.fail e : Prog D ε α).Still := fun _ => ⟨rfl, rfl⟩

theorem still_read (f : D → α) : (read f : Prog D ε α).Still := fun _ => ⟨rfl, rfl⟩

theorem still_change (f : D → D) (e : ε) : (change f e).Still := fun _ => rfl

theorem still_tryChange (f : D → D) : (tryChange f : Prog D ε Unit).Still := fun _ => rfl

theorem still_send (f : D → D) : (send f : Prog D ε Unit).Still := fun _ => rfl

theorem still_bind {next : α → Prog D ε β} (h : p.Still) (hNext : ∀ value, (next value).Still) :
    (p >>= next).Still := by
  intro disk
  have hFirst := h disk
  cases hRun : p disk [.dies] with
  | ok value disk' rest =>
    rw [hRun] at hFirst
    obtain ⟨rfl, rfl⟩ := hFirst
    rw [bind_ok hRun]
    exact hNext value disk'
  | error e disk' rest =>
    rw [hRun] at hFirst
    rw [bind_error hRun]
    exact hFirst
  | crashed disk' =>
    rw [hRun] at hFirst
    rw [bind_crashed hRun]
    exact hFirst

theorem still_attempt {ε' : Type} (h : p.Still) : (attempt p : Prog D ε' (Except ε α)).Still := by
  intro disk
  have hFirst := h disk
  rw [attempt]
  cases hRun : p disk [.dies] with
  | ok value disk' rest =>
    rw [hRun] at hFirst
    exact hFirst
  | error e disk' rest =>
    rw [hRun] at hFirst
    exact hFirst
  | crashed disk' =>
    rw [hRun] at hFirst
    exact hFirst

theorem still_when {p : Prog D ε Unit} (h : p.Still) (condition : Bool) : (p.when condition).Still := by
  cases condition with
  | false => exact still_pure ()
  | true => exact h

theorem still_each {γ : Type} {body : γ → Prog D ε Unit} (h : ∀ item, (body item).Still) (items : List γ) :
    (each body items).Still := by
  induction items with
  | nil => exact still_pure ()
  | cons item rest ih => exact still_bind (h item) fun _ => ih

end Prog

/-- A program that has just begun has not touched the disk. -/
theorem Session.begin_left {D ε α : Type} {p : Prog D ε α} (h : p.Still) (disk : D) :
    (⟨p, disk, []⟩ : Session D ε α).left = disk :=
  h.left disk

end Lib
