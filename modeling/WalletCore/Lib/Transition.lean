/-! # Runs of labelled steps

A system is a partial step function: an action that is not enabled has no successor. A run
is a list of actions from a start state; a guard is a condition on the steps it takes.
-/

namespace Lib

universe u v

variable {σ : Type u} {α : Type v} (step : σ → α → Option σ)

def exec : σ → List α → Option σ
  | s, [] => some s
  | s, a :: rest => (step s a).bind fun t => exec t rest

/-- Every step the run takes meets the guard. -/
def Along (guard : σ → α → Prop) : σ → List α → Prop
  | _, [] => True
  | s, a :: rest => guard s a ∧ ∀ t, step s a = some t → Along guard t rest

variable {step}

instance decidableAlong {guard : σ → α → Prop} [∀ s a, Decidable (guard s a)] :
    (s : σ) → (acts : List α) → Decidable (Along step guard s acts)
  | _, [] => isTrue trivial
  | s, a :: rest =>
    match hStep : step s a with
    | none => decidable_of_iff (guard s a) (by simp [Along, hStep])
    | some t =>
      have : Decidable (Along step guard t rest) := decidableAlong t rest
      decidable_of_iff (guard s a ∧ Along step guard t rest) (by simp [Along, hStep])

theorem along_congr {P : σ → Prop} {first second : σ → α → Prop}
    (hStep : ∀ s a t, P s → second s a → step s a = some t → P t)
    (hGuard : ∀ s a, P s → (first s a ↔ second s a)) {s : σ} (hStart : P s) (acts : List α) :
    Along step first s acts ↔ Along step second s acts := by
  induction acts generalizing s with
  | nil => exact Iff.rfl
  | cons a rest ih =>
    rw [Along, Along, hGuard s a hStart]
    constructor
    · rintro ⟨hHere, hRest⟩
      exact ⟨hHere, fun t hNext => (ih (hStep s a t hStart hHere hNext)).mp (hRest t hNext)⟩
    · rintro ⟨hHere, hRest⟩
      exact ⟨hHere, fun t hNext => (ih (hStep s a t hStart hHere hNext)).mpr (hRest t hNext)⟩

theorem exec_append (s : σ) (before after : List α) :
    exec step s (before ++ after) = (exec step s before).bind fun t => exec step t after := by
  induction before generalizing s with
  | nil => rfl
  | cons a rest ih =>
    rw [List.cons_append, exec, exec]
    cases step s a with
    | none => rfl
    | some t => exact ih t

theorem along_append {guard : σ → α → Prop} {s : σ} {before after : List α}
    (h : Along step guard s (before ++ after)) :
    Along step guard s before ∧ ∀ t, exec step s before = some t → Along step guard t after := by
  induction before generalizing s with
  | nil =>
    refine ⟨trivial, ?_⟩
    rintro _ ⟨⟩
    exact h
  | cons a rest ih =>
    refine ⟨⟨h.1, fun next hNext => (ih (h.2 next hNext)).1⟩, ?_⟩
    intro t hRun
    obtain ⟨next, hNext, hRest⟩ := Option.bind_eq_some_iff.mp hRun
    exact (ih (h.2 next hNext)).2 t hRest

theorem along_and {first second : σ → α → Prop} {s : σ} {acts : List α} (hFirst : Along step first s acts)
    (hSecond : Along step second s acts) : Along step (fun s a => first s a ∧ second s a) s acts := by
  induction acts generalizing s with
  | nil => trivial
  | cons a rest ih =>
    exact ⟨⟨hFirst.1, hSecond.1⟩, fun t hNext => ih (hFirst.2 t hNext) (hSecond.2 t hNext)⟩

theorem along_of_forall {guard : α → Prop} {acts : List α} (h : ∀ a ∈ acts, guard a) (s : σ) :
    Along step (fun _ a => guard a) s acts := by
  induction acts generalizing s with
  | nil => trivial
  | cons a rest ih =>
    obtain ⟨hHere, hRest⟩ := List.forall_mem_cons.mp h
    exact ⟨hHere, fun t _ => ih hRest t⟩

/-- What holds at the start and survives every guarded step holds at the end of a guarded run. -/
theorem exec_inv {P : σ → Prop} {guard : σ → α → Prop}
    (hStep : ∀ s a t, P s → guard s a → step s a = some t → P t) {s t : σ} {acts : List α} (hStart : P s)
    (hGuard : Along step guard s acts) (hRun : exec step s acts = some t) : P t := by
  induction acts generalizing s with
  | nil =>
    cases hRun
    exact hStart
  | cons a rest ih =>
    rw [exec, Option.bind_eq_some_iff] at hRun
    obtain ⟨next, hNext, hRest⟩ := hRun
    exact ih (hStep s a next hStart hGuard.1 hNext) (hGuard.2 next hNext) hRest

/-- What every guarded step shows wherever the invariant holds, a guarded run shows all along. -/
theorem along_of_inv {P : σ → Prop} {guard shown : σ → α → Prop}
    (hStep : ∀ s a t, P s → guard s a → step s a = some t → P t)
    (hShown : ∀ s a, P s → guard s a → shown s a) {s : σ} {acts : List α} (hStart : P s)
    (hGuard : Along step guard s acts) : Along step shown s acts := by
  induction acts generalizing s with
  | nil => trivial
  | cons a rest ih =>
    refine ⟨hShown s a hStart hGuard.1, fun next hNext => ?_⟩
    exact ih (hStep s a next hStart hGuard.1 hNext) (hGuard.2 next hNext)

theorem exec_inv_all {P : σ → Prop} (hStep : ∀ s a t, P s → step s a = some t → P t) {s t : σ} {acts : List α}
    (hStart : P s) (hRun : exec step s acts = some t) : P t := by
  have hGuard : Along step (fun _ _ => True) s acts := along_of_forall (fun _ _ => trivial) s
  exact exec_inv (fun s a t hHere _ hNext => hStep s a t hHere hNext) hStart hGuard hRun

/-- When a property goes on exactly over the steps that meet the guard, it holds in every state of a
run exactly when all its steps meet the guard. -/
theorem along_iff_prefixes {I P : σ → Prop} {own guard : σ → α → Prop}
    (hStep : ∀ s a t, I s → own s a → step s a = some t → I t ∧ (P s → (P t ↔ guard s a))) {s t : σ} {acts : List α}
    (hInv : I s) (hStart : P s) (hOwn : Along step own s acts) (hRun : exec step s acts = some t) :
    Along step guard s acts ↔ ∀ before after u, acts = before ++ after → exec step s before = some u → P u := by
  induction acts generalizing s with
  | nil =>
    refine iff_of_true trivial fun before after u hSplit hBefore => ?_
    obtain ⟨rfl, -⟩ := List.append_eq_nil_iff.mp hSplit.symm
    cases hBefore
    exact hStart
  | cons a rest ih =>
    obtain ⟨next, hNext, hRest⟩ := Option.bind_eq_some_iff.mp hRun
    obtain ⟨hInvNext, hGoesOn⟩ := hStep s a next hInv hOwn.1 hNext
    have hTail := fun hHere : P next => ih hInvNext hHere (hOwn.2 next hNext) hRest
    constructor
    · rintro ⟨hGuard, hGuards⟩ before after u hSplit hBefore
      cases before with
      | nil =>
        cases hBefore
        exact hStart
      | cons first before =>
        obtain ⟨rfl, rfl⟩ := List.cons.inj hSplit
        rw [exec, hNext, Option.bind_some] at hBefore
        exact (hTail ((hGoesOn hStart).mpr hGuard)).mp (hGuards next hNext) before after u rfl hBefore
    · intro hAll
      have hHere : P next := hAll [a] rest next rfl (by rw [exec, hNext, Option.bind_some, exec])
      refine ⟨(hGoesOn hStart).mp hHere, fun other hOther => ?_⟩
      cases hNext.symm.trans hOther
      refine (hTail hHere).mpr fun before after u hSplit hBefore => ?_
      exact hAll (a :: before) after u (by rw [hSplit, List.cons_append]) (by rw [exec, hNext, Option.bind_some, hBefore])

/-- The guard is exact for what shows when a step that meets it keeps what is behind it, and after one that does
not it no longer shows. -/
theorem along_iff_shown {P Q : σ → Prop} {guard : σ → α → Prop} (hShown : ∀ s, P s → Q s)
    (hStep : ∀ s a t, P s → step s a = some t → (guard s a → P t) ∧ (Q t → guard s a)) {s t : σ} {acts : List α}
    (hStart : P s) (hRun : exec step s acts = some t) :
    Along step guard s acts ↔ ∀ before after u, acts = before ++ after → exec step s before = some u → Q u := by
  constructor
  · intro hGuard before after u hSplit hBefore
    rw [hSplit] at hGuard
    refine hShown u (exec_inv (fun s a t hHere hMet hNext => ?_) hStart (along_append hGuard).1 hBefore)
    exact (hStep s a t hHere hNext).1 hMet
  · induction acts generalizing s with
    | nil => exact fun _ => trivial
    | cons a rest ih =>
      intro hAll
      obtain ⟨next, hNext, hRest⟩ := Option.bind_eq_some_iff.mp hRun
      obtain ⟨hKept, hMet⟩ := hStep s a next hStart hNext
      have hGuard : guard s a := hMet (hAll [a] rest next rfl (by rw [exec, hNext, Option.bind_some, exec]))
      refine ⟨hGuard, fun other hOther => ?_⟩
      cases hNext.symm.trans hOther
      refine ih (hKept hGuard) hRest fun before after u hSplit hBefore => ?_
      exact hAll (a :: before) after u (by rw [hSplit, List.cons_append]) (by rw [exec, hNext, Option.bind_some, hBefore])

end Lib
