import Mathlib.Data.List.Basic

/-! # Listings by pages

A source gives a page of items and, when there is more, a token for the next page. The source may answer
as it likes, by a state of its own. A reader that takes a bounded number of pages either has all of them
or says so.
-/

namespace Lib

universe u v w x

structure Page (τ : Type v) (α : Type w) where
  items : List α
  next : Option τ

/-- The source's answer to a token, the first page being asked for without one. -/
abbrev Fetch (σ : Type u) (τ : Type v) (α : Type w) (ε : Type x) := σ → Option τ → Except ε (Page τ α) × σ

section

variable {σ : Type u} {τ : Type v} {α : Type w} {ε : Type x} (fetch : Fetch σ τ α ε)

/-- The pages come one after the other, each asked for with the token of the one before it. -/
inductive Follows : σ → Option τ → List (Page τ α) → σ → Option τ → Prop where
  | none (s : σ) (token : Option τ) : Follows s token [] s token
  | page {s mid last : σ} {token lastToken : Option τ} {next : τ} {page : Page τ α} {pages : List (Page τ α)}
    (hFetch : fetch s token = (.ok page, mid)) (hNext : page.next = some next)
    (h : Follows mid (some next) pages last lastToken) : Follows s token (page :: pages) last lastToken

/-- The pages from a token on up to the first that names no next one. -/
def Listing (s : σ) (token : Option τ) (pages : List (Page τ α)) (last : σ) : Prop :=
  ∃ front page mid midToken, pages = front ++ [page] ∧ Follows fetch s token front mid midToken ∧
    fetch mid midToken = (.ok page, last) ∧ page.next = none

def readPages (capped : ε) : Nat → List α → Option τ → σ → Except ε (List α) × σ
  | 0, _, _, s => (.error capped, s)
  | n + 1, items, token, s =>
    match fetch s token with
    | (.error e, s) => (.error e, s)
    | (.ok page, s) =>
      match page.next with
      | none => (.ok (items ++ page.items), s)
      | some next => readPages capped n (items ++ page.items) (some next) s

/-- How a reading of at most so many pages ends. -/
inductive Ends (capped : ε) (bound : Nat) (s : σ) (token : Option τ) : Except ε (List α) × σ → Prop where
  | all {pages : List (Page τ α)} {last : σ} (hPages : Listing fetch s token pages last) (hBound : pages.length ≤ bound) :
    Ends capped bound s token (.ok (pages.flatMap Page.items), last)
  | failed {pages : List (Page τ α)} {mid last : σ} {midToken : Option τ} {e : ε}
    (hPages : Follows fetch s token pages mid midToken) (hBound : pages.length < bound)
    (hFetch : fetch mid midToken = (.error e, last)) : Ends capped bound s token (.error e, last)
  | capped {pages : List (Page τ α)} {last : σ} {lastToken : Option τ}
    (hPages : Follows fetch s token pages last lastToken) (hBound : pages.length = bound) :
    Ends capped bound s token (.error capped, last)

variable {fetch} {capped : ε} {bound : Nat} {s mid last : σ} {token : Option τ} {next : τ} {page : Page τ α}
  {pages : List (Page τ α)}

theorem Listing.single (hFetch : fetch s token = (.ok page, last)) (hNext : page.next = none) :
    Listing fetch s token [page] last :=
  ⟨[], page, s, token, rfl, .none s token, hFetch, hNext⟩

theorem Listing.cons (hFetch : fetch s token = (.ok page, mid)) (hNext : page.next = some next)
    (h : Listing fetch mid (some next) pages last) : Listing fetch s token (page :: pages) last := by
  obtain ⟨front, final, before, beforeToken, rfl, hFollows, hFinal, hEnd⟩ := h
  exact ⟨page :: front, final, before, beforeToken, rfl, .page hFetch hNext hFollows, hFinal, hEnd⟩

theorem Listing.cases (h : Listing fetch s token pages last) :
    (∃ page, pages = [page] ∧ fetch s token = (.ok page, last) ∧ page.next = none) ∨
    ∃ page rest mid next, pages = page :: rest ∧ fetch s token = (.ok page, mid) ∧ page.next = some next ∧
      Listing fetch mid (some next) rest last := by
  obtain ⟨front, final, before, beforeToken, rfl, hFollows, hFinal, hEnd⟩ := h
  cases hFollows with
  | none => exact .inl ⟨final, rfl, hFinal, hEnd⟩
  | page hFetch hNext hRest =>
    exact .inr ⟨_, _, _, _, rfl, hFetch, hNext, _, final, before, beforeToken, rfl, hRest, hFinal, hEnd⟩

theorem Ends.cons {result : Except ε (List α) × σ} (hFetch : fetch s token = (.ok page, mid))
    (hNext : page.next = some next) (h : Ends fetch capped bound mid (some next) result) :
    Ends fetch capped (bound + 1) s token (result.1.map (page.items ++ ·), result.2) := by
  cases h with
  | all hPages hBound => exact .all (hPages.cons hFetch hNext) (Nat.succ_le_succ hBound)
  | failed hPages hBound hError => exact .failed (.page hFetch hNext hPages) (Nat.succ_lt_succ hBound) hError
  | capped hPages hBound => exact .capped (.page hFetch hNext hPages) (congrArg Nat.succ hBound)

theorem readPages_items (items : List α) (n : Nat) (token : Option τ) (s : σ) :
    readPages fetch capped n items token s =
      ((readPages fetch capped n [] token s).1.map (items ++ ·), (readPages fetch capped n [] token s).2) := by
  induction n generalizing items token s with
  | zero => rfl
  | succ n ih =>
    rw [readPages, readPages]
    rcases fetch s token with ⟨e | page, mid⟩
    · rfl
    · dsimp only
      cases page.next with
      | none => rfl
      | some next =>
        dsimp only
        rw [ih (items ++ page.items), ih ([] ++ page.items)]
        cases (readPages fetch capped n [] (some next) mid).1 with
        | error e => rfl
        | ok others => simp [Except.map]

theorem readPages_ends (capped : ε) (n : Nat) (token : Option τ) (s : σ) :
    Ends fetch capped n s token (readPages fetch capped n [] token s) := by
  induction n generalizing token s with
  | zero => exact .capped (.none s token) rfl
  | succ n ih =>
    rw [readPages]
    rcases hFetch : fetch s token with ⟨e | page, mid⟩
    · exact .failed (.none s token) (Nat.succ_pos n) hFetch
    · dsimp only
      rw [List.nil_append]
      cases hNext : page.next with
      | none =>
        have hAll : Ends fetch capped (n + 1) s token _ :=
          .all (Listing.single hFetch hNext) (Nat.succ_le_succ (Nat.zero_le n))
        simpa using hAll
      | some next =>
        dsimp only
        rw [readPages_items]
        exact (ih (some next) mid).cons hFetch hNext

theorem readPages_of_listing (h : Listing fetch s token pages last) (n : Nat) (hBound : pages.length ≤ n) :
    readPages fetch capped n [] token s = (.ok (pages.flatMap Page.items), last) := by
  induction n generalizing s token pages with
  | zero =>
    obtain ⟨front, page, -, -, rfl, -⟩ := h
    simp at hBound
  | succ n ih =>
    obtain ⟨page, rfl, hFetch, hNext⟩ | ⟨page, rest, mid, next, rfl, hFetch, hNext, hRest⟩ := h.cases
    · simp [readPages, hFetch, hNext]
    · rw [readPages, hFetch]
      dsimp only
      rw [hNext]
      dsimp only
      rw [readPages_items, ih hRest (Nat.le_of_succ_le_succ hBound)]
      rfl

theorem readPages_eq_ok_iff {items : List α} (n : Nat) :
    readPages fetch capped n [] token s = (.ok items, last) ↔
      ∃ pages, Listing fetch s token pages last ∧ pages.length ≤ n ∧ items = pages.flatMap Page.items := by
  constructor
  · intro h
    have hEnds : Ends fetch capped n s token _ := readPages_ends capped n token s
    rw [h] at hEnds
    cases hEnds with
    | all hPages hBound => exact ⟨_, hPages, hBound, rfl⟩
  · rintro ⟨pages, hPages, hBound, rfl⟩
    exact readPages_of_listing hPages n hBound

/-- What one page costs at most, a reading costs at most as often as it may take pages. -/
theorem readPages_cost {cost : σ → Nat} {price : Nat} (hPrice : ∀ s token, cost (fetch s token).2 ≤ cost s + price)
    (items : List α) (n : Nat) (token : Option τ) (s : σ) :
    cost (readPages fetch capped n items token s).2 ≤ cost s + n * price := by
  induction n generalizing items token s with
  | zero => exact Nat.le_add_right _ _
  | succ n ih =>
    have hOne := hPrice s token
    have hMul : (n + 1) * price = n * price + price := Nat.succ_mul n price
    rw [readPages]
    rcases hFetch : fetch s token with ⟨e | page, mid⟩
    · rw [hFetch] at hOne
      dsimp only at hOne ⊢
      omega
    · rw [hFetch] at hOne
      dsimp only at hOne ⊢
      cases page.next with
      | none =>
        dsimp only
        omega
      | some next =>
        have hRest := ih (items ++ page.items) (some next) mid
        dsimp only
        omega

end

end Lib
