import Mathlib.Data.List.Sort
import Mathlib.Logic.Function.Basic

/-! # Numbered jobs that write one value in turn

Jobs are numbered as they are submitted. The oldest one still queued may write the value or end,
with a signal or without one; a job may be refused at its submission, and the value may be taken
away. Whatever the run, the values seen and the signals sent follow the order of submission.
-/

namespace Lib

universe u v

/-! ## A subsequence with repeats -/

/-- The values are read off the source at places that never go back. -/
def Stutters {β : Type v} (values source : List β) : Prop :=
  ∃ places : List Nat, places.Pairwise (· ≤ ·) ∧ values.map some = places.map (source[·]?)

namespace Stutters

variable {β : Type v} {values source : List β} {value : β}

theorem refl_toList (value : Option β) : Stutters value.toList value.toList := by
  cases value with
  | none => exact ⟨[], .nil, rfl⟩
  | some value => exact ⟨[0], List.pairwise_singleton .., rfl⟩

theorem place_lt {places : List Nat} (h : values.map some = places.map (source[·]?)) {place : Nat}
    (hPlace : place ∈ places) : place < source.length := by
  have hMem : source[place]? ∈ values.map some := by
    rw [h]
    exact List.mem_map_of_mem hPlace
  obtain ⟨value, -, hValue⟩ := List.mem_map.mp hMem
  exact (List.getElem?_eq_some_iff.mp hValue.symm).1

theorem append_right (h : Stutters values source) (more : List β) : Stutters values (source ++ more) := by
  obtain ⟨places, hOrder, hRead⟩ := h
  refine ⟨places, hOrder, hRead.trans (List.map_congr_left ?_)⟩
  intro place hPlace
  exact (List.getElem?_append_left (place_lt hRead hPlace)).symm

theorem newest (h : Stutters values (source ++ [value])) : Stutters (values ++ [value]) (source ++ [value]) := by
  obtain ⟨places, hOrder, hRead⟩ := h
  refine ⟨places ++ [source.length], ?_, ?_⟩
  · rw [List.pairwise_append]
    refine ⟨hOrder, List.pairwise_singleton .., ?_⟩
    intro place hPlace last hLast
    have hLt := place_lt hRead hPlace
    simp only [List.length_append, List.length_singleton] at hLt
    simp only [List.mem_singleton] at hLast
    omega
  · simp [hRead]

theorem again (h : Stutters values source) (hLast : values.getLast? = some value) :
    Stutters (values ++ [value]) source := by
  obtain ⟨places, hOrder, hRead⟩ := h
  obtain ⟨before, rfl⟩ := List.getLast?_eq_some_iff.mp hLast
  rw [List.map_append] at hRead
  obtain ⟨first, last, rfl, hFirst, hPlace⟩ := List.append_eq_map_iff.mp hRead
  rw [List.map_singleton] at hPlace
  obtain ⟨place, rfl, hValue⟩ := List.map_eq_singleton_iff.mp hPlace
  refine ⟨(first ++ [place]) ++ [place], ?_, ?_⟩
  · rw [List.pairwise_append]
    refine ⟨hOrder, List.pairwise_singleton .., ?_⟩
    intro earlier hEarlier again hAgain
    simp only [List.mem_singleton] at hAgain
    subst hAgain
    rcases List.mem_append.mp hEarlier with hEarlier | hEarlier
    · exact (List.pairwise_append.mp hOrder).2.2 earlier hEarlier again (List.mem_singleton_self _)
    · exact (List.mem_singleton.mp hEarlier).le
  · simp [hFirst, hValue]

theorem still {value : Option β} (h : Stutters values source)
    (hShown : ∀ shown, value = some shown → values.getLast? = some shown) :
    Stutters (values ++ value.toList) source := by
  cases value with
  | none => simpa using h
  | some shown => exact h.again (hShown shown rfl)

end Stutters

/-! ## The jobs -/

/-- The jobs still queued, by their numbers, the next number, the value, and the signals sent,
oldest first. -/
structure Serial (α : Type u) (β : Type v) where
  jobs : Nat → Option α
  next : Nat
  value : Option β
  signals : List (Nat × α)

namespace Serial

variable {α : Type u} {β : Type v}

def Oldest (s : Serial α β) (id : Nat) (job : α) : Prop :=
  s.jobs id = some job ∧ ∀ other job', s.jobs other = some job' → id ≤ other

/-- One move, with the jobs submitted in it. -/
inductive Move (result : α → β) (s : Serial α β) : List (Nat × α) → Serial α β → Prop
  | rest (next : Nat) (hNext : s.next ≤ next) : Move result s [] { s with next := next }
  | refuse (job : α) : Move result s [(s.next, job)] { s with next := s.next + 1 }
  | queue (job : α) :
    Move result s [(s.next, job)] { s with jobs := Function.update s.jobs s.next (some job), next := s.next + 1 }
  | write (id : Nat) (job : α) (hOldest : s.Oldest id job) :
    Move result s [] { s with value := some (result job) }
  | clear : Move result s [] { s with value := none }
  | finish (id : Nat) (job : α) (hOldest : s.Oldest id job) (signalled : Bool) :
    Move result s [] { s with
      jobs := Function.update s.jobs id none
      signals := s.signals ++ if signalled then [(id, job)] else [] }

/-- What was submitted up to a number. -/
def upTo (submitted : List (Nat × α)) (id : Nat) : List (Nat × α) := submitted.filter (·.1 ≤ id)

/-- What was submitted and seen, against the jobs that are left: each of these can still put its
own result behind all that was seen, and its signal behind all that were sent. -/
structure Ledger (result : α → β) (first : List β) (submitted : List (Nat × α)) (seen : List β)
    (s : Serial α β) : Prop where
  numbered : submitted.Pairwise (·.1 < ·.1)
  fresh : ∀ entry ∈ submitted, entry.1 < s.next
  jobs : ∀ id job, s.jobs id = some job → (id, job) ∈ submitted
  shown : ∀ value, s.value = some value → seen.getLast? = some value
  follows : Stutters seen (first ++ submitted.map (result ·.2))
  pending : ∀ id job, s.jobs id = some job → Stutters seen (first ++ (upTo submitted id).map (result ·.2))
  known : s.signals ⊆ submitted
  inTurn : s.signals.Pairwise (·.1 < ·.1)
  behind : ∀ signal ∈ s.signals, ∀ id job, s.jobs id = some job → signal.1 < id

section Submitted

variable {submitted : List (Nat × α)} {id : Nat}

/-- In the order of their numbers, the entries up to one come before the others. -/
theorem upTo_append (hNumbered : submitted.Pairwise (·.1 < ·.1)) (id : Nat) :
    upTo submitted id ++ submitted.filter (id < ·.1) = submitted := by
  induction submitted with
  | nil => rfl
  | cons entry rest ih =>
    obtain ⟨hEntry, hRest⟩ := List.pairwise_cons.mp hNumbered
    by_cases hLe : entry.1 ≤ id
    · have hNot : ¬ id < entry.1 := by omega
      simpa [upTo, hLe, hNot] using ih hRest
    · have hLt : id < entry.1 := by omega
      have hNone : upTo rest id = [] := by
        rw [upTo, List.filter_eq_nil_iff]
        intro other hOther
        have := hEntry other hOther
        simp only [decide_eq_true_eq]
        omega
      have hAll : rest.filter (id < ·.1) = rest := by
        have hSplit := ih hRest
        rwa [hNone, List.nil_append] at hSplit
      rw [upTo, List.filter_cons_of_neg (by simpa using hLt), List.filter_cons_of_pos (by simpa using hLt), hAll]
      exact congrArg (· ++ entry :: rest) hNone

theorem upTo_le (hNumbered : submitted.Pairwise (·.1 < ·.1)) {later : Nat} (hLe : id ≤ later) :
    ∃ more, upTo submitted later = upTo submitted id ++ more := by
  have hSame : upTo (upTo submitted later) id = upTo submitted id := by
    rw [upTo, upTo, upTo, List.filter_filter]
    apply List.filter_congr
    intro entry _
    have hIff : entry.1 ≤ id ∧ entry.1 ≤ later ↔ entry.1 ≤ id := by omega
    simp only [← Bool.decide_and, hIff]
  have hSplit := upTo_append (hNumbered.sublist List.filter_sublist : (upTo submitted later).Pairwise _) id
  rw [hSame] at hSplit
  exact ⟨_, hSplit.symm⟩

/-- An entry is the last one up to its own number. -/
theorem upTo_own (hNumbered : submitted.Pairwise (·.1 < ·.1)) {job : α} (hMem : (id, job) ∈ submitted) :
    ∃ before, upTo submitted id = before ++ [(id, job)] := by
  obtain ⟨before, after, rfl⟩ := List.append_of_mem hMem
  obtain ⟨-, hAfter, hBefore⟩ := List.pairwise_append.mp hNumbered
  have hKept : upTo before id = before := by
    rw [upTo, List.filter_eq_self]
    intro entry hEntry
    have := hBefore entry hEntry (id, job) List.mem_cons_self
    simp only [decide_eq_true_eq]
    omega
  have hGone : upTo after id = [] := by
    rw [upTo, List.filter_eq_nil_iff]
    intro entry hEntry
    have := (List.pairwise_cons.mp hAfter).1 entry hEntry
    simp only [decide_eq_true_eq]
    omega
  refine ⟨before, ?_⟩
  rw [upTo] at hKept hGone ⊢
  rw [List.filter_append, List.filter_cons_of_pos (by simp), hKept, hGone]

theorem upTo_new (submitted : List (Nat × α)) (job : α) {number : Nat} (hLt : number < id) :
    upTo (submitted ++ [(id, job)]) number = upTo submitted number := by
  have hNot : ¬ id ≤ number := by omega
  simp [upTo, hNot]

theorem upTo_all (hFresh : ∀ entry ∈ submitted, entry.1 < id) (job : α) :
    upTo (submitted ++ [(id, job)]) id = submitted ++ [(id, job)] := by
  rw [upTo, List.filter_eq_self]
  intro entry hEntry
  simp only [decide_eq_true_eq]
  rcases List.mem_append.mp hEntry with hEntry | hEntry
  · exact (hFresh entry hEntry).le
  · rw [List.mem_singleton.mp hEntry]

end Submitted

namespace Ledger

variable {result : α → β} {first seen : List β} {submitted : List (Nat × α)} {s s' : Serial α β}

theorem keep (h : Ledger result first submitted seen s)
    (hJobs : ∀ id job, s'.jobs id = some job → s.jobs id = some job) (hNext : s.next ≤ s'.next)
    (hValue : s'.value = s.value ∨ s'.value = none) (hSignals : s'.signals = s.signals) :
    Ledger result first submitted (seen ++ s'.value.toList) s' := by
  have hShown : ∀ value, s'.value = some value → seen.getLast? = some value := by
    intro value hSome
    rcases hValue with hSame | hNone
    · exact h.shown value (hSame ▸ hSome)
    · simp [hNone] at hSome
  constructor
  · exact h.numbered
  · intro entry hEntry
    exact (h.fresh entry hEntry).trans_le hNext
  · intro id job hJob
    exact h.jobs id job (hJobs id job hJob)
  · intro value hSome
    simp [hSome]
  · exact h.follows.still hShown
  · intro id job hJob
    exact (h.pending id job (hJobs id job hJob)).still hShown
  · rw [hSignals]
    exact h.known
  · rw [hSignals]
    exact h.inTurn
  · intro signal hSignal id job hJob
    rw [hSignals] at hSignal
    exact h.behind signal hSignal id job (hJobs id job hJob)

theorem submit (h : Ledger result first submitted seen s) (job : α) {jobs : Nat → Option α}
    (hJobs : ∀ id job', jobs id = some job' → id = s.next ∧ job' = job ∨ s.jobs id = some job') :
    Ledger result first (submitted ++ [(s.next, job)]) (seen ++ s.value.toList)
      { s with jobs := jobs, next := s.next + 1 } := by
  have hFollows : Stutters (seen ++ s.value.toList)
      (first ++ (submitted ++ [(s.next, job)]).map (result ·.2)) := by
    rw [List.map_append, ← List.append_assoc]
    exact (h.follows.still h.shown).append_right _
  constructor
  · rw [List.pairwise_append]
    refine ⟨h.numbered, List.pairwise_singleton .., ?_⟩
    intro entry hEntry new hNew
    rw [List.mem_singleton.mp hNew]
    exact h.fresh entry hEntry
  · intro entry hEntry
    rcases List.mem_append.mp hEntry with hEntry | hEntry
    · exact (h.fresh entry hEntry).trans (Nat.lt_succ_self _)
    · rw [List.mem_singleton.mp hEntry]
      exact Nat.lt_succ_self _
  · intro id job' hJob
    rw [List.mem_append]
    rcases hJobs id job' hJob with ⟨rfl, rfl⟩ | hJob
    · exact .inr (List.mem_singleton_self _)
    · exact .inl (h.jobs id job' hJob)
  · intro value hSome
    simp [show s.value = some value from hSome]
  · exact hFollows
  · intro id job' hJob
    rcases hJobs id job' hJob with ⟨rfl, -⟩ | hJob
    · rw [upTo_all h.fresh job]
      exact hFollows
    · rw [upTo_new submitted job (h.fresh _ (h.jobs id job' hJob))]
      exact (h.pending id job' hJob).still h.shown
  · exact fun signal hSignal => List.mem_append_left _ (h.known hSignal)
  · exact h.inTurn
  · intro signal hSignal id job' hJob
    rcases hJobs id job' hJob with ⟨rfl, -⟩ | hJob
    · exact h.fresh signal (h.known hSignal)
    · exact h.behind signal hSignal id job' hJob

/-- The oldest job's result comes after all that was seen, and before that of every other job. -/
theorem write (h : Ledger result first submitted seen s) {id : Nat} {job : α} (hOldest : s.Oldest id job) :
    Ledger result first submitted (seen ++ [result job]) { s with value := some (result job) } := by
  have hMem := h.jobs id job hOldest.1
  obtain ⟨before, hOwn⟩ := upTo_own h.numbered hMem
  have hWritten : Stutters (seen ++ [result job]) (first ++ (upTo submitted id).map (result ·.2)) := by
    have hOpen := h.pending id job hOldest.1
    rw [hOwn, List.map_append, ← List.append_assoc] at hOpen ⊢
    exact hOpen.newest
  refine { h with shown := ?_, follows := ?_, pending := ?_ }
  · intro value hSome
    obtain rfl : result job = value := Option.some.inj hSome
    simp
  · have hAll := upTo_append h.numbered id
    rw [← hAll, List.map_append, ← List.append_assoc]
    exact hWritten.append_right _
  · intro other job' hJob
    obtain ⟨more, hMore⟩ := upTo_le h.numbered (hOldest.2 other job' hJob)
    rw [hMore, List.map_append, ← List.append_assoc]
    exact hWritten.append_right _

/-- The oldest job's signal comes after all that were sent, and before that of every other job. -/
theorem signal (h : Ledger result first submitted seen s) {id : Nat} {job : α} (hOldest : s.Oldest id job) :
    Ledger result first submitted seen
      { s with jobs := Function.update s.jobs id none, signals := s.signals ++ [(id, job)] } := by
  have hOther : ∀ other job', Function.update s.jobs id none other = some job' →
      other ≠ id ∧ s.jobs other = some job' := by
    intro other job' hJob
    rw [Function.update_apply] at hJob
    split at hJob
    · cases hJob
    · exact ⟨by assumption, hJob⟩
  refine { h with jobs := ?_, pending := ?_, known := ?_, inTurn := ?_, behind := ?_ }
  · intro other job' hJob
    exact h.jobs other job' (hOther other job' hJob).2
  · intro other job' hJob
    exact h.pending other job' (hOther other job' hJob).2
  · rw [List.append_subset]
    refine ⟨h.known, ?_⟩
    rw [List.cons_subset]
    exact ⟨h.jobs id job hOldest.1, List.nil_subset _⟩
  · rw [List.pairwise_append]
    refine ⟨h.inTurn, List.pairwise_singleton .., ?_⟩
    intro earlier hEarlier new hNew
    rw [List.mem_singleton.mp hNew]
    exact h.behind earlier hEarlier id job hOldest.1
  · intro earlier hEarlier other job' hJob
    obtain ⟨hNe, hJob⟩ := hOther other job' hJob
    rcases List.mem_append.mp hEarlier with hEarlier | hEarlier
    · exact h.behind earlier hEarlier other job' hJob
    · have hLe := hOldest.2 other job' hJob
      rw [List.mem_singleton.mp hEarlier]
      show id < other
      omega

theorem move (h : Ledger result first submitted seen s) {new : List (Nat × α)} (hMove : Move result s new s') :
    Ledger result first (submitted ++ new) (seen ++ s'.value.toList) s' := by
  cases hMove with
  | rest next hNext =>
    rw [List.append_nil]
    exact h.keep (fun _ _ hJob => hJob) hNext (.inl rfl) rfl
  | refuse job => exact h.submit job fun _ _ hJob => .inr hJob
  | queue job =>
    apply h.submit job
    intro id job' hJob
    rw [Function.update_apply] at hJob
    split at hJob
    · exact .inl ⟨by assumption, (Option.some.inj hJob).symm⟩
    · exact .inr hJob
  | write id job hOldest =>
    rw [List.append_nil]
    exact h.write hOldest
  | clear =>
    rw [List.append_nil]
    exact h.keep (fun _ _ hJob => hJob) le_rfl (.inr rfl) rfl
  | finish id job hOldest signalled =>
    have hStill : Ledger result first submitted (seen ++ s.value.toList) s :=
      h.keep (fun _ _ hJob => hJob) le_rfl (.inl rfl) rfl
    rw [List.append_nil]
    cases signalled with
    | true => exact hStill.signal hOldest
    | false =>
      refine h.keep ?_ le_rfl (.inl rfl) (List.append_nil _)
      intro other job' hJob
      simp only [Function.update_apply] at hJob
      split at hJob
      · cases hJob
      · exact hJob

/-- The signals are those of some submissions, in the order of submission, each at most once. -/
theorem signals_sublist (h : Ledger result first submitted seen s) : s.signals.Sublist submitted := by
  have hSubperm : s.signals.Subperm submitted := List.subperm_of_subset
    (h.inTurn.imp fun hLt hEq => hLt.ne (congrArg Prod.fst hEq)) h.known
  have hAntisymm : Std.Antisymm fun first second : Nat × α => first.1 < second.1 :=
    ⟨fun _ _ hLt hGt => absurd hLt hGt.asymm⟩
  exact List.sublist_of_subperm_of_pairwise hSubperm h.inTurn h.numbered

end Ledger

end Serial

end Lib
