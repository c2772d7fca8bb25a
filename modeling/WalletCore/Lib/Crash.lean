/-! # Programs over a disk that may die

A program reads a durable state and changes it one atomic change at a time. The surroundings decide
the fate of each change: it is made, it is refused, or the process dies before it. What a crash leaves
behind is the state at that moment, so a specification says three things: what holds at a crash, what
holds with an error, and what holds with a result.
-/

namespace Lib

inductive Fate where
  | made
  | refused
  | dies
deriving DecidableEq

inductive Outcome (D ε α : Type) where
  | ok (value : α) (disk : D) (fates : List Fate)
  | error (error : ε) (disk : D) (fates : List Fate)
  | crashed (disk : D)
deriving DecidableEq

namespace Outcome

variable {D ε α : Type}

def disk : Outcome D ε α → D
  | .ok _ disk _ | .error _ disk _ | .crashed disk => disk

def Meets (outcome : Outcome D ε α) (crash : D → Prop) (fail : ε → D → Prop) (post : α → D → Prop) : Prop :=
  match outcome with
  | .ok value disk _ => post value disk
  | .error e disk _ => fail e disk
  | .crashed disk => crash disk

variable {outcome : Outcome D ε α} {crash crash' : D → Prop} {fail fail' : ε → D → Prop} {post post' : α → D → Prop}

theorem Meets.mono (h : outcome.Meets crash fail post) (hCrash : ∀ disk, crash disk → crash' disk)
    (hFail : ∀ e disk, fail e disk → fail' e disk) (hPost : ∀ value disk, post value disk → post' value disk) :
    outcome.Meets crash' fail' post' := by
  cases outcome with
  | ok value disk fates => exact hPost value disk h
  | error e disk fates => exact hFail e disk h
  | crashed disk => exact hCrash disk h

theorem Meets.and (h : outcome.Meets crash fail post) (h' : outcome.Meets crash' fail' post') :
    outcome.Meets (fun disk => crash disk ∧ crash' disk) (fun e disk => fail e disk ∧ fail' e disk)
      (fun value disk => post value disk ∧ post' value disk) := by
  cases outcome with
  | ok value disk fates => exact ⟨h, h'⟩
  | error e disk fates => exact ⟨h, h'⟩
  | crashed disk => exact ⟨h, h'⟩

theorem Meets.disk {inv : D → Prop} (h : outcome.Meets inv (fun _ => inv) (fun _ => inv)) : inv outcome.disk := by
  cases outcome with
  | ok value disk fates => exact h
  | error e disk fates => exact h
  | crashed disk => exact h

end Outcome

/-- Changes beyond the listed fates are made. -/
def Prog (D ε α : Type) := D → List Fate → Outcome D ε α

namespace Prog

variable {D ε α β : Type}

protected def pure (value : α) : Prog D ε α := fun disk fates => .ok value disk fates

protected def bind (p : Prog D ε α) (next : α → Prog D ε β) : Prog D ε β := fun disk fates =>
  match p disk fates with
  | .ok value disk fates => next value disk fates
  | .error e disk fates => .error e disk fates
  | .crashed disk => .crashed disk

instance : Monad (Prog D ε) where
  pure := Prog.pure
  bind := Prog.bind

def fail (e : ε) : Prog D ε α := fun disk fates => .error e disk fates

def read (f : D → α) : Prog D ε α := fun disk fates => .ok (f disk) disk fates

/-- One atomic change; refused, it fails with the error. -/
def change (f : D → D) (e : ε) : Prog D ε Unit := fun disk fates =>
  match fates with
  | [] => .ok () (f disk) []
  | .made :: rest => .ok () (f disk) rest
  | .refused :: rest => .error e disk rest
  | .dies :: _ => .crashed disk

/-- One atomic change whose refusal goes unnoticed. -/
def tryChange (f : D → D) : Prog D ε Unit := fun disk fates =>
  match fates with
  | [] => .ok () (f disk) []
  | .made :: rest => .ok () (f disk) rest
  | .refused :: rest => .ok () disk rest
  | .dies :: _ => .crashed disk

/-- A change that nothing refuses, such as a request sent off: only a crash can forestall it. -/
def send (f : D → D) : Prog D ε Unit := fun disk fates =>
  match fates with
  | [] => .ok () (f disk) []
  | .dies :: _ => .crashed disk
  | _ :: rest => .ok () (f disk) rest

def attempt {ε' : Type} (p : Prog D ε α) : Prog D ε' (Except ε α) := fun disk fates =>
  match p disk fates with
  | .ok value disk fates => .ok (.ok value) disk fates
  | .error e disk fates => .ok (.error e) disk fates
  | .crashed disk => .crashed disk

def when (p : Prog D ε Unit) (condition : Bool) : Prog D ε Unit := if condition then p else Prog.pure ()

def each {γ : Type} (body : γ → Prog D ε Unit) : List γ → Prog D ε Unit
  | [] => Prog.pure ()
  | item :: rest => Prog.bind (body item) fun _ => each body rest

/-! ## Weakest preconditions -/

/-- Whatever the fates: a crash leaves `crash`, an error `fail`, a result `post`. -/
def wp (p : Prog D ε α) (crash : D → Prop) (fail : ε → D → Prop) (post : α → D → Prop) (disk : D) : Prop :=
  ∀ fates, (p disk fates).Meets crash fail post

variable {p : Prog D ε α} {crash crash' : D → Prop} {fail fail' : ε → D → Prop} {post post' : α → D → Prop} {disk : D}

theorem wp_mono (h : p.wp crash fail post disk) (hCrash : ∀ disk, crash disk → crash' disk)
    (hFail : ∀ e disk, fail e disk → fail' e disk) (hPost : ∀ value disk, post value disk → post' value disk) :
    p.wp crash' fail' post' disk :=
  fun fates => (h fates).mono hCrash hFail hPost

theorem wp_post (h : p.wp crash fail post disk) (hPost : ∀ value disk, post value disk → post' value disk) :
    p.wp crash fail post' disk :=
  wp_mono h (fun _ => id) (fun _ _ => id) hPost

theorem wp_and (h : p.wp crash fail post disk) (h' : p.wp crash' fail' post' disk) :
    p.wp (fun disk => crash disk ∧ crash' disk) (fun e disk => fail e disk ∧ fail' e disk)
      (fun value disk => post value disk ∧ post' value disk) disk :=
  fun fates => (h fates).and (h' fates)

theorem wp_true (p : Prog D ε α) (disk : D) : p.wp (fun _ => True) (fun _ _ => True) (fun _ _ => True) disk := by
  intro fates
  cases p disk fates <;> trivial

theorem wp_pure {value : α} (h : post value disk) : (pure value : Prog D ε α).wp crash fail post disk :=
  fun _ => h

theorem bind_ok {next : α → Prog D ε β} {fates rest : List Fate} {value : α} {disk' : D}
    (h : p disk fates = .ok value disk' rest) : (p >>= next) disk fates = next value disk' rest := by
  change Prog.bind p next disk fates = _
  rw [Prog.bind, h]

theorem bind_error {next : α → Prog D ε β} {fates rest : List Fate} {e : ε} {disk' : D}
    (h : p disk fates = .error e disk' rest) : (p >>= next) disk fates = .error e disk' rest := by
  change Prog.bind p next disk fates = _
  rw [Prog.bind, h]

theorem bind_crashed {next : α → Prog D ε β} {fates : List Fate} {disk' : D} (h : p disk fates = .crashed disk') :
    (p >>= next) disk fates = .crashed disk' := by
  change Prog.bind p next disk fates = _
  rw [Prog.bind, h]

theorem bind_meets {post : β → D → Prop} {next : α → Prog D ε β} {fates : List Fate}
    (h : (p disk fates).Meets crash fail fun value disk => (next value).wp crash fail post disk) :
    ((p >>= next) disk fates).Meets crash fail post := by
  change Outcome.Meets (Prog.bind p next disk fates) crash fail post
  rw [Prog.bind]
  split
  · rename_i hOk
    rw [hOk] at h
    exact h _
  · rename_i hError
    rw [hError] at h
    exact h
  · rename_i hCrashed
    rw [hCrashed] at h
    exact h

theorem wp_bind {post : β → D → Prop} {next : α → Prog D ε β}
    (h : p.wp crash fail (fun value disk => (next value).wp crash fail post disk) disk) :
    (p >>= next).wp crash fail post disk :=
  fun fates => bind_meets (h fates)

theorem wp_fail {e : ε} (h : fail e disk) : (Prog.fail e : Prog D ε α).wp crash fail post disk := fun _ => h

theorem wp_read {f : D → α} (h : post (f disk) disk) : (read f : Prog D ε α).wp crash fail post disk := fun _ => h

theorem wp_change {f : D → D} {e : ε} {post : Unit → D → Prop} (hCrash : crash disk) (hFail : fail e disk)
    (hPost : post () (f disk)) : (change f e).wp crash fail post disk := by
  rintro (_ | ⟨_ | _ | _, rest⟩)
  · exact hPost
  · exact hPost
  · exact hFail
  · exact hCrash

theorem wp_tryChange {f : D → D} {post : Unit → D → Prop} (hCrash : crash disk) (hRefused : post () disk)
    (hPost : post () (f disk)) : (tryChange f : Prog D ε Unit).wp crash fail post disk := by
  rintro (_ | ⟨_ | _ | _, rest⟩)
  · exact hPost
  · exact hPost
  · exact hRefused
  · exact hCrash

theorem wp_send {f : D → D} {post : Unit → D → Prop} (hCrash : crash disk) (hPost : post () (f disk)) :
    (send f : Prog D ε Unit).wp crash fail post disk := by
  rintro (_ | ⟨_ | _ | _, rest⟩)
  · exact hPost
  · exact hPost
  · exact hPost
  · exact hCrash

theorem wp_attempt {ε' : Type} {fail : ε' → D → Prop} {post : Except ε α → D → Prop}
    (h : p.wp crash (fun e disk => post (.error e) disk) (fun value disk => post (.ok value) disk) disk) :
    (attempt p : Prog D ε' (Except ε α)).wp crash fail post disk := by
  intro fates
  have hRun := h fates
  rw [attempt]
  cases hOutcome : p disk fates with
  | ok value disk fates =>
    rw [hOutcome] at hRun
    exact hRun
  | error e disk fates =>
    rw [hOutcome] at hRun
    exact hRun
  | crashed disk =>
    rw [hOutcome] at hRun
    exact hRun

theorem wp_when {condition : Bool} {p : Prog D ε Unit} {post : Unit → D → Prop}
    (h : condition = true → p.wp crash fail post disk) (hNot : condition = false → post () disk) :
    (p.when condition).wp crash fail post disk := by
  cases condition with
  | false => exact wp_pure (hNot rfl)
  | true => exact h rfl

/-- What each round of a loop keeps, the whole loop keeps. -/
theorem wp_each {γ : Type} {body : γ → Prog D ε Unit} {items : List γ} {inv : D → Prop}
    (hBody : ∀ item ∈ items, ∀ disk, inv disk → (body item).wp crash fail (fun _ => inv) disk) (h : inv disk) :
    (each body items).wp crash fail (fun _ => inv) disk := by
  induction items generalizing disk with
  | nil => exact wp_pure h
  | cons item rest ih =>
    refine wp_bind (wp_post (hBody item List.mem_cons_self disk h) ?_)
    intro _ disk hInv
    exact ih (fun item hItem => hBody item (List.mem_cons_of_mem _ hItem)) hInv

/-! ## Invariants of the disk -/

def Keeps (inv : D → Prop) (p : Prog D ε α) : Prop := ∀ disk, inv disk → p.wp inv (fun _ => inv) (fun _ => inv) disk

variable {inv : D → Prop}

theorem keeps_pure (value : α) : Keeps inv (pure value : Prog D ε α) := fun _ h => wp_pure h

theorem keeps_fail (e : ε) : Keeps inv (Prog.fail e : Prog D ε α) := fun _ h => wp_fail h

theorem keeps_read (f : D → α) : Keeps inv (read f : Prog D ε α) := fun _ h => wp_read h

theorem keeps_bind {next : α → Prog D ε β} (h : Keeps inv p) (hNext : ∀ value, Keeps inv (next value)) :
    Keeps inv (p >>= next) :=
  fun disk hInv => wp_bind (wp_post (h disk hInv) fun value disk hInv => hNext value disk hInv)

theorem keeps_change {f : D → D} (e : ε) (h : ∀ disk, inv disk → inv (f disk)) : Keeps inv (change f e) :=
  fun disk hInv => wp_change hInv hInv (h disk hInv)

theorem keeps_tryChange {f : D → D} (h : ∀ disk, inv disk → inv (f disk)) :
    Keeps inv (tryChange f : Prog D ε Unit) :=
  fun disk hInv => wp_tryChange hInv hInv (h disk hInv)

theorem keeps_send {f : D → D} (h : ∀ disk, inv disk → inv (f disk)) : Keeps inv (send f : Prog D ε Unit) :=
  fun disk hInv => wp_send hInv (h disk hInv)

theorem keeps_attempt {ε' : Type} (h : Keeps inv p) : Keeps inv (attempt p : Prog D ε' (Except ε α)) :=
  fun disk hInv => wp_attempt (h disk hInv)

theorem keeps_when {p : Prog D ε Unit} (condition : Bool) (h : Keeps inv p) : Keeps inv (p.when condition) :=
  fun disk hInv => wp_when (fun _ => h disk hInv) fun _ => hInv

theorem keeps_each {γ : Type} {body : γ → Prog D ε Unit} {items : List γ}
    (h : ∀ item ∈ items, Keeps inv (body item)) : Keeps inv (each body items) :=
  fun _ hInv => wp_each (fun item hItem disk hInv => h item hItem disk hInv) hInv

theorem wp_keeps (hKeeps : Keeps inv p) (hInv : inv disk) (h : p.wp (fun _ => True) (fun _ _ => True) post disk) :
    p.wp inv (fun _ => inv) (fun value disk => inv disk ∧ post value disk) disk :=
  wp_mono (wp_and (hKeeps disk hInv) h) (fun _ => And.left) (fun _ _ => And.left) fun _ _ => id

/-! ## Runs whose first changes are made -/

def Made (count : Nat) (fates : List Fate) : Prop := ∀ fate ∈ fates.take count, fate = .made

theorem Made.first {count more : Nat} {fates : List Fate} (h : Made (count + more) fates) : Made count fates :=
  fun fate hFate => h fate ((List.take_sublist_take_left (Nat.le_add_right count more)).mem hFate)

theorem Made.later {count more : Nat} {fates : List Fate} (h : Made (count + more) fates) :
    Made more (fates.drop count) := by
  intro fate hFate
  rw [List.take_drop] at hFate
  exact h fate (List.mem_of_mem_drop hFate)

theorem change_made {f : D → D} {e : ε} {fates : List Fate} (h : Made 1 fates) (disk : D) :
    change f e disk fates = .ok () (f disk) (fates.drop 1) := by
  cases fates with
  | nil => rfl
  | cons fate rest =>
    cases h fate List.mem_cons_self
    rfl

theorem each_change_made {γ : Type} {f : γ → D → D} {e : ε} {items : List γ} {fates : List Fate}
    (h : Made items.length fates) (disk : D) :
    each (fun item => change (f item) e) items disk fates =
      .ok () (items.foldl (fun disk item => f item disk) disk) (fates.drop items.length) := by
  induction items generalizing fates disk with
  | nil => rfl
  | cons item rest ih =>
    rw [List.length_cons, Nat.add_comm] at h
    refine (bind_ok (change_made h.first disk)).trans ((ih h.later (f item disk)).trans ?_)
    rw [List.drop_drop, List.length_cons, Nat.add_comm]
    rfl

/-! ## Runs in which nothing is refused -/

/-- With no refusal ahead, the program ends with a result or dies, and then there is still none ahead. -/
def Unrefused (p : Prog D ε α) (post : α → D → Prop) (disk : D) : Prop :=
  ∀ fates, .refused ∉ fates →
    match p disk fates with
    | .ok value disk rest => .refused ∉ rest ∧ post value disk
    | .error _ _ _ => False
    | .crashed _ => True

theorem unrefused_pure {value : α} (h : post value disk) : (pure value : Prog D ε α).Unrefused post disk :=
  fun _ hFates => ⟨hFates, h⟩

theorem unrefused_bind {post : β → D → Prop} {next : α → Prog D ε β}
    (h : p.Unrefused (fun value disk => (next value).Unrefused post disk) disk) : (p >>= next).Unrefused post disk := by
  intro fates hFates
  have hFirst := h fates hFates
  cases hRun : p disk fates with
  | ok value disk' rest =>
    rw [hRun] at hFirst
    rw [bind_ok hRun]
    exact hFirst.2 rest hFirst.1
  | error e disk' rest =>
    rw [hRun] at hFirst
    exact hFirst.elim
  | crashed disk' =>
    rw [bind_crashed hRun]
    trivial

theorem unrefused_read {f : D → α} (h : post (f disk) disk) : (read f : Prog D ε α).Unrefused post disk :=
  fun _ hFates => ⟨hFates, h⟩

theorem unrefused_change {f : D → D} {e : ε} {post : Unit → D → Prop} (h : post () (f disk)) :
    (change f e).Unrefused post disk := by
  rintro (_ | ⟨_ | _ | _, rest⟩) hFates
  · exact ⟨hFates, h⟩
  · exact ⟨fun hRest => hFates (List.mem_cons_of_mem _ hRest), h⟩
  · exact absurd List.mem_cons_self hFates
  · trivial

theorem unrefused_send {f : D → D} {post : Unit → D → Prop} (h : post () (f disk)) :
    (send f : Prog D ε Unit).Unrefused post disk := by
  rintro (_ | ⟨_ | _ | _, rest⟩) hFates
  · exact ⟨hFates, h⟩
  · exact ⟨fun hRest => hFates (List.mem_cons_of_mem _ hRest), h⟩
  · exact absurd List.mem_cons_self hFates
  · trivial

theorem unrefused_attempt {ε' : Type} {post : Except ε α → D → Prop}
    (h : p.Unrefused (fun value disk => post (.ok value) disk) disk) :
    (attempt p : Prog D ε' (Except ε α)).Unrefused post disk := by
  intro fates hFates
  have hFirst := h fates hFates
  rw [attempt]
  cases hRun : p disk fates with
  | ok value disk' rest =>
    rw [hRun] at hFirst
    exact hFirst
  | error e disk' rest =>
    rw [hRun] at hFirst
    exact hFirst.elim
  | crashed disk' => trivial

theorem unrefused_post (h : p.Unrefused post disk) (hPost : ∀ value disk, post value disk → post' value disk) :
    p.Unrefused post' disk := by
  intro fates hFates
  have hRuns := h fates hFates
  cases hRun : p disk fates with
  | ok value disk' rest =>
    rw [hRun] at hRuns
    exact ⟨hRuns.1, hPost value disk' hRuns.2⟩
  | error e disk' rest =>
    rw [hRun] at hRuns
    exact hRuns
  | crashed disk' => trivial

theorem unrefused_each {γ : Type} {body : γ → Prog D ε Unit} {items : List γ} {inv : D → Prop}
    (hBody : ∀ item ∈ items, ∀ disk, inv disk → (body item).Unrefused (fun _ => inv) disk) (h : inv disk) :
    (each body items).Unrefused (fun _ => inv) disk := by
  induction items generalizing disk with
  | nil => exact unrefused_pure h
  | cons item rest ih =>
    refine unrefused_bind (unrefused_post (hBody item List.mem_cons_self disk h) ?_)
    intro _ disk hInv
    exact ih (fun item hItem => hBody item (List.mem_cons_of_mem _ hItem)) hInv

/-! ## Runs without faults -/

/-- When every change is made, the program ends with a result. -/
def Clean (p : Prog D ε α) (post : α → D → Prop) (disk : D) : Prop :=
  ∃ value disk', p disk [] = .ok value disk' [] ∧ post value disk'

theorem clean_post (h : p.Clean post disk) (hPost : ∀ value disk, post value disk → post' value disk) :
    p.Clean post' disk := by
  obtain ⟨value, disk', hRun, h⟩ := h
  exact ⟨value, disk', hRun, hPost value disk' h⟩

/-- What every run of a program achieves, its run without faults achieves when it ends. -/
theorem clean_of_wp (h : p.wp crash fail post disk) (hEnds : p.Clean (fun _ _ => True) disk) : p.Clean post disk := by
  obtain ⟨value, disk', hRun, -⟩ := hEnds
  have hPost := h []
  rw [hRun] at hPost
  exact ⟨value, disk', hRun, hPost⟩

theorem clean_pure {value : α} (h : post value disk) : (pure value : Prog D ε α).Clean post disk :=
  ⟨value, disk, rfl, h⟩

theorem clean_bind {post : β → D → Prop} {next : α → Prog D ε β}
    (h : p.Clean (fun value disk => (next value).Clean post disk) disk) : (p >>= next).Clean post disk := by
  obtain ⟨value, disk', hRun, value', disk'', hNext, hPost⟩ := h
  exact ⟨value', disk'', (bind_ok hRun).trans hNext, hPost⟩

theorem clean_read {f : D → α} (h : post (f disk) disk) : (read f : Prog D ε α).Clean post disk := ⟨_, disk, rfl, h⟩

theorem clean_change {f : D → D} {e : ε} {post : Unit → D → Prop} (h : post () (f disk)) :
    (change f e).Clean post disk :=
  ⟨(), f disk, rfl, h⟩

theorem clean_tryChange {f : D → D} {post : Unit → D → Prop} (h : post () (f disk)) :
    (tryChange f : Prog D ε Unit).Clean post disk :=
  ⟨(), f disk, rfl, h⟩

theorem clean_send {f : D → D} {post : Unit → D → Prop} (h : post () (f disk)) :
    (send f : Prog D ε Unit).Clean post disk :=
  ⟨(), f disk, rfl, h⟩

theorem clean_when {condition : Bool} {p : Prog D ε Unit} {post : Unit → D → Prop}
    (h : condition = true → p.Clean post disk) (hNot : condition = false → post () disk) :
    (p.when condition).Clean post disk := by
  cases condition with
  | false => exact clean_pure (hNot rfl)
  | true => exact h rfl

theorem clean_each {γ : Type} {body : γ → Prog D ε Unit} {items : List γ} {inv : D → Prop}
    (hBody : ∀ item ∈ items, ∀ disk, inv disk → (body item).Clean (fun _ => inv) disk) (h : inv disk) :
    (each body items).Clean (fun _ => inv) disk := by
  induction items generalizing disk with
  | nil => exact clean_pure h
  | cons item rest ih =>
    refine clean_bind (clean_post (hBody item List.mem_cons_self disk h) ?_)
    intro _ disk hInv
    exact ih (fun item hItem => hBody item (List.mem_cons_of_mem _ hItem)) hInv

end Prog

theorem Prog.Keeps.disk {D ε α : Type} {p : Prog D ε α} {inv : D → Prop} (h : p.Keeps inv) {disk : D} (hInv : inv disk)
    (fates : List Fate) : inv (p disk fates).disk :=
  (h disk hInv fates).disk

theorem Prog.wp_ok {D ε α : Type} {p : Prog D ε α} {crash : D → Prop} {fail : ε → D → Prop} {post : α → D → Prop}
    {disk disk' : D} {value : α} {fates rest : List Fate} (h : p.wp crash fail post disk)
    (hRun : p disk fates = .ok value disk' rest) : post value disk' := by
  have hPost := h fates
  rw [hRun] at hPost
  exact hPost

end Lib
