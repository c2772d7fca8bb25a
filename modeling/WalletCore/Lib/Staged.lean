import Mathlib.Order.BoundedOrder.Lattice

/-! # Staged growth

A value that only grows is kept live in memory, in a file, and in the writer's own merged copy of what
it was handed. Growth is staged until the owner persists it. A failed write keeps the stage; the owner
may also throw the stage away, and then the live value stays ahead of the file with nothing staged.
-/

namespace Lib

universe u

structure Staged (σ : Type u) where
  live : σ
  stage : σ
  aggregate : σ
  disk : σ

namespace Staged

variable {σ : Type u} [SemilatticeSup σ] [OrderBot σ]

def load (disk : σ) : Staged σ := ⟨disk, ⊥, disk, disk⟩

def grow (s : Staged σ) (news : σ) : Staged σ := { s with live := s.live ⊔ news, stage := s.stage ⊔ news }

def discard (s : Staged σ) : Staged σ := { s with stage := ⊥ }

section Writes

variable [DecidableEq σ]

def persisted (s : Staged σ) (fails : Bool) : Bool := s.stage = ⊥ || !fails

/-- The writer merges before it writes, so its own copy keeps what a failed write was about. -/
def persist (s : Staged σ) (fails : Bool) : Staged σ :=
  if s.stage = ⊥ then s
  else if fails then { s with aggregate := s.aggregate ⊔ s.stage }
  else { s with stage := ⊥, aggregate := s.aggregate ⊔ s.stage, disk := s.aggregate ⊔ s.stage }

end Writes

/-- The file holds it, or the next write that goes through puts it there. -/
def Covered (s : Staged σ) (x : σ) : Prop := x ≤ s.disk ∨ s.stage ≠ ⊥ ∧ x ≤ s.aggregate ⊔ s.stage

structure Sound (s : Staged σ) : Prop where
  disk_le : s.disk ≤ s.aggregate
  aggregate_le : s.aggregate ≤ s.live
  stage_le : s.stage ≤ s.live

/-- Nothing of the live value is lost: it is in the file or staged. -/
def Tight (s : Staged σ) : Prop := s.live ≤ s.disk ⊔ s.stage

variable {s : Staged σ}

@[simp] theorem grow_bot (s : Staged σ) : s.grow ⊥ = s := by
  rw [grow, sup_bot_eq, sup_bot_eq]

theorem Sound.load (disk : σ) : (load disk).Sound := ⟨le_rfl, le_rfl, bot_le⟩

omit [OrderBot σ] in
theorem Sound.grow (h : s.Sound) (news : σ) : (s.grow news).Sound where
  disk_le := h.disk_le
  aggregate_le := h.aggregate_le.trans le_sup_left
  stage_le := sup_le_sup_right h.stage_le news

theorem Sound.discard (h : s.Sound) : s.discard.Sound := ⟨h.disk_le, h.aggregate_le, bot_le⟩

theorem Tight.load (disk : σ) : (load disk).Tight := le_sup_left

omit [OrderBot σ] in
theorem Tight.grow (h : s.Tight) (news : σ) : (s.grow news).Tight := by
  rw [Tight, Staged.grow, ← sup_assoc]
  exact sup_le_sup_right h news

theorem Covered.grow {x : σ} (h : s.Covered x) (news : σ) : (s.grow news).Covered x := by
  obtain hDisk | ⟨hStage, hMerged⟩ := h
  · exact .inl hDisk
  · refine .inr ⟨?_, hMerged.trans (sup_le_sup_left le_sup_left _)⟩
    intro hNone
    exact hStage (le_bot_iff.mp (le_sup_left.trans hNone.le))

theorem covered_grow {x news : σ} (hSome : news ≠ ⊥) (hNews : x ≤ news) : (s.grow news).Covered x := by
  refine .inr ⟨?_, hNews.trans (le_sup_right.trans le_sup_right)⟩
  intro hNone
  exact hSome (le_bot_iff.mp (le_sup_right.trans hNone.le))

section Writes

variable [DecidableEq σ] {fails : Bool}

@[simp] theorem persist_live (s : Staged σ) (fails : Bool) : (s.persist fails).live = s.live := by
  unfold persist
  split
  · rfl
  · split <;> rfl

theorem persist_disk_of_not_persisted (h : s.persisted fails = false) : (s.persist fails).disk = s.disk := by
  unfold persisted at h
  unfold persist
  split
  · rfl
  · next hStage =>
    have hFails : fails = true := by simpa [hStage] using h
    rw [if_pos hFails]

theorem Sound.persist (h : s.Sound) (fails : Bool) : (s.persist fails).Sound := by
  unfold Staged.persist
  have hMerged : s.aggregate ⊔ s.stage ≤ s.live := sup_le h.aggregate_le h.stage_le
  split
  · exact h
  · split
    · exact ⟨h.disk_le.trans le_sup_left, hMerged, h.stage_le⟩
    · exact ⟨le_rfl, hMerged, bot_le⟩

theorem Tight.persist (h : s.Tight) (hSound : s.Sound) (fails : Bool) : (s.persist fails).Tight := by
  unfold Staged.persist
  split
  · exact h
  · split
    · exact h
    · exact (h.trans (sup_le_sup_right hSound.disk_le _)).trans le_sup_left

theorem disk_le_persist (hSound : s.Sound) (fails : Bool) : s.disk ≤ (s.persist fails).disk := by
  unfold Staged.persist
  split
  · exact le_rfl
  · split
    · exact le_rfl
    · exact hSound.disk_le.trans le_sup_left

/-- A persist that succeeds leaves in the file exactly what was covered before. -/
theorem le_persist_disk_iff (hSound : s.Sound) (hOk : s.persisted fails = true) {x : σ} :
    x ≤ (s.persist fails).disk ↔ s.Covered x := by
  unfold Covered Staged.persist
  by_cases hStage : s.stage = ⊥
  · rw [if_pos hStage]
    constructor
    · exact .inl
    · rintro (hDisk | ⟨hSome, -⟩)
      · exact hDisk
      · exact absurd hStage hSome
  · have hWrites : fails = false := by simpa [persisted, hStage] using hOk
    rw [if_neg hStage, hWrites, if_neg Bool.false_ne_true]
    constructor
    · intro hMerged
      exact .inr ⟨hStage, hMerged⟩
    · rintro (hDisk | ⟨-, hMerged⟩)
      · exact hDisk.trans (hSound.disk_le.trans le_sup_left)
      · exact hMerged

/-- While nothing is lost, a persist that succeeds brings the file up to the live value. -/
theorem Tight.live_le_disk (h : s.Tight) (hSound : s.Sound) (hOk : s.persisted fails = true) :
    s.live ≤ (s.persist fails).disk := by
  rw [le_persist_disk_iff hSound hOk]
  by_cases hStage : s.stage = ⊥
  · rw [Tight, hStage, sup_bot_eq] at h
    exact .inl h
  · exact .inr ⟨hStage, h.trans (sup_le_sup_right hSound.disk_le _)⟩

end Writes

end Staged

end Lib
