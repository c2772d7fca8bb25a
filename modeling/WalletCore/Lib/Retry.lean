import Mathlib.Data.List.Basic

/-! # Requests that are sent again

Over a link that loses messages a request goes out again while nobody can tell what became of it, and
others change the state meanwhile. When the operation, once it has taken effect, only answers from then
on, all its transmissions together are worth a single one.
-/

namespace Lib

universe u v w

/-! ## The loop -/

section Loop

variable {σ : Type u} {ρ : Type v} {attempt : σ → ρ × σ} {again : ρ → Bool}

/-- One attempt, and at most so many more while the answer asks for one. -/
def retry (attempt : σ → ρ × σ) (again : ρ → Bool) : Nat → σ → ρ × σ
  | 0, s => attempt s
  | more + 1, s =>
    let (answer, s) := attempt s
    if again answer then retry attempt again more s else (answer, s)

/-- An invariant over the number of attempts made, and what the last one leaves. -/
theorem retry_rule {I : Nat → σ → Prop} {Q : Nat → ρ → σ → Prop}
    (hAttempt : ∀ made s, I made s → Q (made + 1) (attempt s).1 (attempt s).2 ∧
      (again (attempt s).1 = true → I (made + 1) (attempt s).2))
    (more made : Nat) (s : σ) (h : I made s) :
    ∃ total, made < total ∧ total ≤ made + more + 1 ∧
      Q total (retry attempt again more s).1 (retry attempt again more s).2 := by
  induction more generalizing made s with
  | zero => exact ⟨made + 1, Nat.lt_succ_self _, Nat.le_refl _, (hAttempt made s h).1⟩
  | succ more ih =>
    obtain ⟨hLast, hGoesOn⟩ := hAttempt made s h
    rw [retry]
    dsimp only
    split
    · next hAgain =>
      obtain ⟨total, hLow, hHigh, hEnd⟩ := ih (made + 1) (attempt s).2 (hGoesOn hAgain)
      exact ⟨total, by omega, by omega, hEnd⟩
    · exact ⟨made + 1, Nat.lt_succ_self _, by omega, hLast⟩

end Loop

/-! ## Operations that take effect once -/

section Once

variable {σ : Type u} {ρ : Type v} {ι : Type w} (op : σ → σ × ρ) (change : σ → ι → σ) (allowed : ι → Prop)

/-- Whatever the others may still do, the operation changes nothing here and has one answer. -/
def Settled (s : σ) (later : ρ) : Prop :=
  ∀ changes : List ι, (∀ c ∈ changes, allowed c) → op (changes.foldl change s) = (changes.foldl change s, later)

/-- Where the operation changes anything, it is settled. -/
def OneShot : Prop := ∀ s, (op s).1 = s ∨ ∃ later, Settled op change allowed (op s).1 later

/-- What becomes of a single operation. -/
inductive Handled (s : σ) : σ → Option ρ → Prop
  | unheard : Handled s s none
  | lost : Handled s (op s).1 none
  | answered : Handled s (op s).1 (some (op s).2)
  | repeated : Handled s (op (op s).1).1 (some (op (op s).1).2)

/-- The changes in their order, with the operation at one place among them. -/
def Placed (start : σ) (changes : List ι) (s : σ) (answer : Option ρ) : Prop :=
  ∃ before after mid, changes = before ++ after ∧ Handled op (before.foldl change start) mid answer ∧
    s = after.foldl change mid

/-- The changes so far, with the operation in effect at one place among them or not at all. -/
def Progress (start : σ) (changes : List ι) (s : σ) : Prop :=
  s = changes.foldl change start ∨
    ∃ before after later, changes = before ++ after ∧
      Settled op change allowed (op (before.foldl change start)).1 later ∧
      s = after.foldl change (op (before.foldl change start)).1

variable {op change allowed}

theorem settled_of_inv {P : σ → Prop} {later : ρ} (hOp : ∀ s, P s → op s = (s, later))
    (hChange : ∀ s c, P s → allowed c → P (change s c)) {s : σ} (h : P s) : Settled op change allowed s later := by
  intro changes hAllowed
  refine hOp _ ?_
  induction changes generalizing s with
  | nil => exact h
  | cons c rest ih =>
    obtain ⟨hHere, hRest⟩ := List.forall_mem_cons.mp hAllowed
    exact ih (hChange s c h hHere) hRest

theorem Settled.now {s : σ} {later : ρ} (h : Settled op change allowed s later) : op s = (s, later) :=
  h [] (by simp)

namespace Progress

variable {start s : σ} {changes : List ι}

theorem start_self (start : σ) : Progress op change allowed start [] start := .inl rfl

theorem others (h : Progress op change allowed start changes s) (more : List ι) :
    Progress op change allowed start (changes ++ more) (more.foldl change s) := by
  rcases h with rfl | ⟨before, after, later, rfl, hSettled, rfl⟩
  · exact .inl (List.foldl_append ..).symm
  · exact .inr ⟨before, after ++ more, later, List.append_assoc .., hSettled, (List.foldl_append ..).symm⟩

theorem reach (h : Progress op change allowed start changes s) (hOnce : OneShot op change allowed)
    (hAllowed : ∀ c ∈ changes, allowed c) : Progress op change allowed start changes (op s).1 := by
  rcases h with rfl | ⟨before, after, later, rfl, hSettled, rfl⟩
  · rcases hOnce (changes.foldl change start) with hSame | ⟨later, hSettled⟩
    · exact .inl hSame
    · exact .inr ⟨changes, [], later, (List.append_nil _).symm, hSettled, rfl⟩
  · refine .inr ⟨before, after, later, rfl, hSettled, ?_⟩
    rw [hSettled after fun c hAfter => hAllowed c (List.mem_append_right _ hAfter)]

theorem unanswered (h : Progress op change allowed start changes s) : Placed op change start changes s none := by
  rcases h with rfl | ⟨before, after, later, rfl, -, rfl⟩
  · exact ⟨changes, [], _, (List.append_nil _).symm, .unheard, rfl⟩
  · exact ⟨before, after, _, rfl, .lost, rfl⟩

theorem answered (h : Progress op change allowed start changes s) (hAllowed : ∀ c ∈ changes, allowed c) :
    Placed op change start changes (op s).1 (some (op s).2) := by
  rcases h with rfl | ⟨before, after, later, rfl, hSettled, rfl⟩
  · exact ⟨changes, [], _, (List.append_nil _).symm, .answered, rfl⟩
  · have hRepeated : Handled op (before.foldl change start) (op (op (before.foldl change start)).1).1
        (some (op (op (before.foldl change start)).1).2) := .repeated
    rw [hSettled.now] at hRepeated
    rw [hSettled after fun c hAfter => hAllowed c (List.mem_append_right _ hAfter)]
    exact ⟨before, after, _, rfl, hRepeated, rfl⟩

end Progress

end Once

end Lib
