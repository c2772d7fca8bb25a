import WalletCore.Lib.Transition

/-! # A value mirrored to a file

Concurrent calls change a value in memory and mirror it to a file. Each call goes through
three atomic steps: it updates the value, it encodes the value it then finds, and it writes
those bytes. Encoded snapshots are numbered in the order they were taken. As long as no
write replaces a snapshot by an older one, the file has caught up when all calls are done.
-/

namespace Lib.Mirror

universe u

variable {σ β κ : Type u}

structure Codec (σ β : Type u) where
  encode : σ → β
  load : Option β → σ
  load_encode : ∀ value, load (some (encode value)) = value

/-- What a call still has to do after its update. -/
inductive Stage (β : Type u) where
  | updated
  | encoded (snapshot : Nat) (bytes : β)

structure World (σ β : Type u) where
  memory : σ
  file : Option β
  calls : List (Stage β)
  /-- The number of the last snapshot taken, and of the one on file. -/
  taken : Nat
  onFile : Nat

inductive Act (κ : Type u) where
  | update (call : κ)
  | encode (index : Nat)
  | write (index : Nat)

/-- A call whose update changes nothing it would mirror (`none`) returns at once. -/
def step (codec : Codec σ β) (update : κ → σ → Option σ) (w : World σ β) : Act κ → Option (World σ β)
  | .update call =>
    match update call w.memory with
    | some value => some { w with memory := value, calls := w.calls ++ [.updated] }
    | none => some w
  | .encode index =>
    match w.calls[index]? with
    | some .updated => some { w with
        calls := w.calls.set index (.encoded (w.taken + 1) (codec.encode w.memory))
        taken := w.taken + 1 }
    | _ => none
  | .write index =>
    match w.calls[index]? with
    | some (.encoded snapshot bytes) => some { w with
        file := some bytes
        calls := w.calls.eraseIdx index
        onFile := snapshot }
    | _ => none

/-- A write does not replace the snapshot on file by an older one. -/
def InOrder (w : World σ β) : Act κ → Prop
  | .write index => ∀ snapshot bytes, w.calls[index]? = some (.encoded snapshot bytes) → w.onFile ≤ snapshot
  | _ => True

instance (w : World σ β) : (a : Act κ) → Decidable (InOrder w a)
  | .update _ | .encode _ => isTrue trivial
  | .write index =>
    match hCall : w.calls[index]? with
    | some (.encoded snapshot _) => decidable_of_iff (w.onFile ≤ snapshot) (by simp +contextual [InOrder, hCall])
    | some .updated | none => isTrue (by simp [InOrder, hCall])

/-- Before the first call the file is what the value was loaded from. -/
def Loaded (codec : Codec σ β) (w : World σ β) : Prop :=
  codec.load w.file = w.memory ∧ w.calls = [] ∧ w.taken = 0 ∧ w.onFile = 0

/-- Either some call has yet to encode, or the newest snapshot is of the value in memory, and it is on
file or about to be written. -/
structure Inv (codec : Codec σ β) (w : World σ β) : Prop where
  settled : Stage.updated ∈ w.calls ∨
    ((∀ bytes, Stage.encoded w.taken bytes ∈ w.calls → bytes = codec.encode w.memory) ∧
      ((w.onFile = w.taken ∧ codec.load w.file = w.memory) ∨ ∃ bytes, Stage.encoded w.taken bytes ∈ w.calls))
  numbered : ∀ snapshot bytes, Stage.encoded snapshot bytes ∈ w.calls → snapshot ≤ w.taken

theorem Loaded.inv {codec : Codec σ β} {w : World σ β} (h : Loaded codec w) : Inv codec w := by
  obtain ⟨hFile, hCalls, hTaken, hOnFile⟩ := h
  refine ⟨.inr ⟨?_, .inl ⟨hOnFile.trans hTaken.symm, hFile⟩⟩, ?_⟩
  · rw [hCalls]
    exact fun _ hMem => absurd hMem List.not_mem_nil
  · rw [hCalls]
    exact fun _ _ hMem => absurd hMem List.not_mem_nil

theorem mem_eraseIdx_of_ne {stages : List (Stage β)} {index : Nat} {removed stage : Stage β}
    (hAt : stages[index]? = some removed) (hMem : stage ∈ stages) (hNe : stage ≠ removed) :
    stage ∈ stages.eraseIdx index := by
  rw [List.mem_eraseIdx_iff_getElem?]
  obtain ⟨i, hi⟩ := List.mem_iff_getElem?.mp hMem
  refine ⟨i, ?_, hi⟩
  rintro rfl
  rw [hAt] at hi
  exact hNe (Option.some.inj hi).symm

section Steps

variable {codec : Codec σ β} {w : World σ β}

theorem Inv.update (h : Inv codec w) (value : σ) :
    Inv codec { w with memory := value, calls := w.calls ++ [.updated] } := by
  refine ⟨.inl (List.mem_append_right _ List.mem_cons_self), ?_⟩
  intro snapshot bytes hMem
  rcases List.mem_append.mp hMem with hMem | hMem
  · exact h.numbered snapshot bytes hMem
  · cases List.mem_singleton.mp hMem

theorem Inv.encode (h : Inv codec w) {index : Nat} (hAt : w.calls[index]? = some .updated) :
    Inv codec { w with
      calls := w.calls.set index (.encoded (w.taken + 1) (codec.encode w.memory))
      taken := w.taken + 1 } := by
  obtain ⟨hIndex, _⟩ := List.getElem?_eq_some_iff.mp hAt
  refine ⟨.inr ⟨?_, .inr ⟨codec.encode w.memory, List.mem_set hIndex _⟩⟩, ?_⟩
  · -- The number is new, so the only snapshot that carries it is this one.
    intro bytes hMem
    rcases List.mem_or_eq_of_mem_set hMem with hOld | hNew
    · exact absurd (h.numbered _ bytes hOld) (Nat.not_succ_le_self _)
    · exact (Stage.encoded.inj hNew).2
  · intro snapshot bytes hMem
    rcases List.mem_or_eq_of_mem_set hMem with hOld | hNew
    · exact Nat.le_succ_of_le (h.numbered snapshot bytes hOld)
    · exact Nat.le_of_eq (Stage.encoded.inj hNew).1

theorem Inv.write (h : Inv codec w) {index snapshot : Nat} {bytes : β}
    (hAt : w.calls[index]? = some (.encoded snapshot bytes)) (hOrder : w.onFile ≤ snapshot) :
    Inv codec { w with file := some bytes, calls := w.calls.eraseIdx index, onFile := snapshot } := by
  have hMem : Stage.encoded snapshot bytes ∈ w.calls := List.mem_of_getElem? hAt
  have hNumber := h.numbered snapshot bytes hMem
  refine ⟨?_, fun s b hStage => h.numbered s b (List.mem_of_mem_eraseIdx hStage)⟩
  rcases h.settled with hUpdated | ⟨hNewest, hWhere⟩
  · exact .inl (mem_eraseIdx_of_ne hAt hUpdated fun hEq => by cases hEq)
  · refine .inr ⟨fun b hStage => hNewest b (List.mem_of_mem_eraseIdx hStage), ?_⟩
    by_cases hTaken : snapshot = w.taken
    · subst hTaken
      refine .inl ⟨rfl, ?_⟩
      rw [hNewest bytes hMem]
      exact codec.load_encode w.memory
    · rcases hWhere with ⟨hOnFile, _⟩ | ⟨newest, hStage⟩
      · -- The newest snapshot is on file, so an older one would be out of order.
        omega
      · refine .inr ⟨newest, mem_eraseIdx_of_ne hAt hStage fun hEq => ?_⟩
        exact hTaken (Stage.encoded.inj hEq).1.symm

end Steps

theorem step_inv {codec : Codec σ β} {update : κ → σ → Option σ} (w : World σ β) (act : Act κ) (w' : World σ β)
    (h : Inv codec w) (hOrder : InOrder w act) (hStep : step codec update w act = some w') : Inv codec w' := by
  cases act with
  | update call =>
    rw [step] at hStep
    split at hStep
    · cases hStep
      exact h.update _
    · cases hStep
      exact h
  | encode index =>
    rw [step] at hStep
    split at hStep
    · rename_i hAt
      cases hStep
      exact h.encode hAt
    · cases hStep
  | write index =>
    rw [step] at hStep
    split at hStep
    · rename_i hAt
      cases hStep
      exact h.write hAt (hOrder _ _ hAt)
    · cases hStep

/-- If every write is in order, the file holds the value in memory whenever no call is under way. -/
theorem load_file_eq_memory {codec : Codec σ β} {update : κ → σ → Option σ} {w w' : World σ β}
    {acts : List (Act κ)} (hLoaded : Loaded codec w) (hOrder : Along (step codec update) InOrder w acts)
    (hRun : exec (step codec update) w acts = some w') (hDone : w'.calls = []) : codec.load w'.file = w'.memory := by
  have hInv := exec_inv step_inv hLoaded.inv hOrder hRun
  rcases hInv.settled with hUpdated | ⟨_, ⟨_, hFile⟩ | ⟨_, hStage⟩⟩
  · rw [hDone] at hUpdated
    cases hUpdated
  · exact hFile
  · rw [hDone] at hStage
    cases hStage

end Lib.Mirror
