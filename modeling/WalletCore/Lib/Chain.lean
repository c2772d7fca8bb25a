import Mathlib.Logic.Function.Basic
import Mathlib.Order.Nat

/-! # Queues kept as predecessor links

Jobs under many keys, each of which waits for the job queued before it under the same key and
remembers only that one's number. The queue of a key is nowhere stored; what the links guarantee is
that a job whose predecessor is gone is the oldest one left under its key.
-/

namespace Lib

universe u

structure Link (κ : Type u) where
  key : κ
  prev : Option Nat

/-- The jobs that are left, the last one queued under each key, and the next number. -/
structure Chains (κ : Type u) where
  live : Nat → Option (Link κ)
  last : κ → Option Nat
  next : Nat

namespace Chains

variable {κ : Type u}

def Ready (c : Chains κ) (link : Link κ) : Prop := ∀ id, link.prev = some id → c.live id = none

def push [DecidableEq κ] (c : Chains κ) (key : κ) : Chains κ where
  live := Function.update c.live c.next (some ⟨key, c.last key⟩)
  last := Function.update c.last key (some c.next)
  next := c.next + 1

/-- A number is used up for something that is in no queue. -/
def skip (c : Chains κ) : Chains κ := { c with next := c.next + 1 }

def drop (c : Chains κ) (id : Nat) : Chains κ := { c with live := Function.update c.live id none }

structure WellFormed (c : Chains κ) : Prop where
  fresh : ∀ id link, c.live id = some link → id < c.next
  prevFresh : ∀ id link prev, c.live id = some link → link.prev = some prev → prev < c.next
  lastFresh : ∀ key id, c.last key = some id → id < c.next
  order : ∀ i j first second, c.live i = some first → c.live j = some second → first.key = second.key → i < j →
    ∃ p link, second.prev = some p ∧ i ≤ p ∧ c.live p = some link ∧ link.key = second.key
  tail : ∀ i link, c.live i = some link →
    ∃ t final, c.last link.key = some t ∧ i ≤ t ∧ c.live t = some final ∧ final.key = link.key

theorem wellFormed_empty (next : Nat) : WellFormed (⟨fun _ => none, fun _ => none, next⟩ : Chains κ) := by
  constructor <;> simp

/-- A job that is ready is the oldest under its key. -/
theorem WellFormed.oldest {c : Chains κ} (h : WellFormed c) {i j : Nat} {first second : Link κ}
    (hFirst : c.live i = some first) (hSecond : c.live j = some second) (hKey : first.key = second.key)
    (hReady : c.Ready second) : j ≤ i := by
  by_contra hLt
  obtain ⟨p, link, hPrev, -, hLive, -⟩ := h.order i j first second hFirst hSecond hKey (by omega)
  simp [hReady p hPrev] at hLive

theorem WellFormed.skip {c : Chains κ} (h : WellFormed c) : WellFormed c.skip := by
  refine ⟨?_, ?_, ?_, h.order, h.tail⟩
  · intro id link hLive
    exact (h.fresh id link hLive).trans (Nat.lt_succ_self _)
  · intro id link prev hLive hPrev
    exact (h.prevFresh id link prev hLive hPrev).trans (Nat.lt_succ_self _)
  · intro key id hLast
    exact (h.lastFresh key id hLast).trans (Nat.lt_succ_self _)

theorem WellFormed.push [DecidableEq κ] {c : Chains κ} (h : WellFormed c) (key : κ) : WellFormed (c.push key) := by
  have hOld : ∀ {id link}, c.live id = some link → (c.push key).live id = some link := by
    intro id link hLive
    exact (Function.update_of_ne (h.fresh id link hLive).ne ..).trans hLive
  have hLive : ∀ {id link}, (c.push key).live id = some link →
      id = c.next ∧ link = ⟨key, c.last key⟩ ∨ c.live id = some link := by
    intro id link hLive
    simp only [Chains.push, Function.update_apply] at hLive
    split at hLive
    · exact .inl ⟨by assumption, (Option.some.inj hLive).symm⟩
    · exact .inr hLive
  refine ⟨?_, ?_, ?_, ?_, ?_⟩
  · intro id link hId
    rcases hLive hId with ⟨rfl, -⟩ | hId
    · exact Nat.lt_succ_self _
    · exact (h.fresh id link hId).trans (Nat.lt_succ_self _)
  · intro id link prev hId hPrev
    rcases hLive hId with ⟨-, rfl⟩ | hId
    · exact (h.lastFresh key prev hPrev).trans (Nat.lt_succ_self _)
    · exact (h.prevFresh id link prev hId hPrev).trans (Nat.lt_succ_self _)
  · intro key' id hLast
    simp only [Chains.push, Function.update_apply] at hLast
    split at hLast
    · exact (Option.some.inj hLast) ▸ Nat.lt_succ_self _
    · exact (h.lastFresh key' id hLast).trans (Nat.lt_succ_self _)
  · intro i j first second hFirst hSecond hKey hLt
    rcases hLive hFirst with ⟨rfl, -⟩ | hFirst
    · rcases hLive hSecond with ⟨rfl, -⟩ | hSecond
      · omega
      · have := h.fresh j second hSecond
        omega
    · rcases hLive hSecond with ⟨rfl, rfl⟩ | hSecond
      · obtain ⟨t, final, hLast, hLe, hFinal, hSame⟩ := h.tail i first hFirst
        rw [hKey] at hLast
        exact ⟨t, final, hLast, hLe, hOld hFinal, hSame.trans hKey⟩
      · obtain ⟨p, link, hPrev, hLe, hLink, hSame⟩ := h.order i j first second hFirst hSecond hKey hLt
        exact ⟨p, link, hPrev, hLe, hOld hLink, hSame⟩
  · intro i link hId
    by_cases hKey : link.key = key
    · refine ⟨c.next, ⟨key, c.last key⟩, ?_, ?_, Function.update_self .., hKey.symm⟩
      · simp [Chains.push, hKey]
      · rcases hLive hId with ⟨rfl, -⟩ | hId
        · exact le_rfl
        · exact (h.fresh i link hId).le
    · rcases hLive hId with ⟨-, rfl⟩ | hId
      · exact absurd rfl hKey
      · obtain ⟨t, final, hLast, hLe, hFinal, hSame⟩ := h.tail i link hId
        exact ⟨t, final, (Function.update_of_ne hKey ..).trans hLast, hLe, hOld hFinal, hSame⟩

/-- Only a ready job may go: no later job of its key can have been waiting on it in vain. -/
theorem WellFormed.drop {c : Chains κ} (h : WellFormed c) {id : Nat} {link : Link κ} (hId : c.live id = some link)
    (hReady : c.Ready link) : WellFormed (c.drop id) := by
  have hLive : ∀ {i other}, (c.drop id).live i = some other → i ≠ id ∧ c.live i = some other := by
    intro i other hLive
    simp only [Chains.drop, Function.update_apply] at hLive
    split at hLive
    · cases hLive
    · exact ⟨by assumption, hLive⟩
  have hKept : ∀ {i other}, c.live i = some other → i ≠ id → (c.drop id).live i = some other :=
    fun hOther hNe => (Function.update_of_ne hNe ..).trans hOther
  refine ⟨?_, ?_, h.lastFresh, ?_, ?_⟩
  · intro i other hOther
    exact h.fresh i other (hLive hOther).2
  · intro i other prev hOther
    exact h.prevFresh i other prev (hLive hOther).2
  · intro i j first second hFirst hSecond hKey hLt
    obtain ⟨hNe, hFirst'⟩ := hLive hFirst
    obtain ⟨p, before, hPrev, hLe, hBefore, hSame⟩ := h.order i j first second hFirst' (hLive hSecond).2 hKey hLt
    refine ⟨p, before, hPrev, hLe, hKept hBefore ?_, hSame⟩
    intro hSelf
    rw [hSelf] at hBefore hLe
    cases hBefore.symm.trans hId
    have hOldest := h.oldest hFirst' hId (hKey.trans hSame.symm) hReady
    omega
  · intro i other hOther
    obtain ⟨hNe, hOther'⟩ := hLive hOther
    obtain ⟨t, final, hLast, hLe, hFinal, hSame⟩ := h.tail i other hOther'
    refine ⟨t, final, hLast, hLe, hKept hFinal ?_, hSame⟩
    intro hSelf
    rw [hSelf] at hFinal hLe
    cases hFinal.symm.trans hId
    have hOldest := h.oldest hOther' hId hSame.symm hReady
    omega

end Chains

end Lib
