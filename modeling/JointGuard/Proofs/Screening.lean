import Mathlib.Data.List.Basic

/-! # Screening

A computation that looks at one thing after the other and fails at the first that is not in order.
It succeeds if all are in order (`Screened.exists_ok_iff`), and otherwise reports the first that is
not (`Screened.eq_error_iff`). -/

namespace JointGuard

/-- A computation that succeeds has succeeded in its first part. -/
theorem exists_ok_of_bind {ε α β : Type} {first : Except ε α}
    {rest : α → Except ε β} {result : β} (h : first >>= rest = .ok result) :
    ∃ a, first = .ok a ∧ rest a = .ok result := by
  cases first with
  | error fault => cases h
  | ok a => exact ⟨a, rfl, h⟩

theorem map_eq_ok_iff {ε α β : Type} {f : α → β} {result : Except ε α} {b : β} :
    result.map f = .ok b ↔ ∃ a, result = .ok a ∧ f a = b := by
  cases result <;> simp [Except.map]

/-- The first member of a list that has a property. -/
def IsFirst {α : Type} (property : α → Prop) (list : List α) (a : α) : Prop :=
  ∃ before after, list = before ++ a :: after ∧ (∀ b ∈ before, ¬property b) ∧ property a

theorem isFirst_cons_iff {α : Type} {property : α → Prop} {a b : α} {list : List α} :
    IsFirst property (a :: list) b ↔
      property a ∧ b = a ∨ ¬property a ∧ IsFirst property list b := by
  constructor
  · rintro ⟨before, after, hlist, hbefore, hb⟩
    cases before with
    | nil =>
      obtain ⟨rfl, rfl⟩ := List.cons_eq_cons.1 hlist
      exact .inl ⟨hb, rfl⟩
    | cons c before =>
      obtain ⟨rfl, rfl⟩ := List.cons_eq_cons.1 hlist
      obtain ⟨ha, hbefore⟩ := List.forall_mem_cons.1 hbefore
      exact .inr ⟨ha, before, after, rfl, hbefore, hb⟩
  · rintro (⟨ha, rfl⟩ | ⟨ha, before, after, rfl, hbefore, hb⟩)
    · exact ⟨[], list, rfl, by simp, ha⟩
    · exact ⟨a :: before, after, rfl, List.forall_mem_cons.2 ⟨ha, hbefore⟩, hb⟩

section
variable {ν ε α β : Type} {met : ν → Prop} {fault : ν → ε}

/-- A computation that looks at its needs one after the other and fails at the first that is not
met. -/
inductive Screened (met : ν → Prop) (fault : ν → ε) : List ν → Except ε α → Prop
  | done (a : α) : Screened met fault [] (.ok a)
  | pass {need : ν} {needs : List ν} {result : Except ε α} (hmet : met need)
      (hrest : Screened met fault needs result) : Screened met fault (need :: needs) result
  | fail {need : ν} (needs : List ν) (hunmet : ¬met need) :
      Screened met fault (need :: needs) (.error (fault need))

namespace Screened

variable {needs : List ν} {need : ν} {result first : Except ε α}

theorem bind (h : Screened met fault needs first) (more : List ν) {rest : α → Except ε β}
    (hrest : ∀ a, first = .ok a → Screened met fault more (rest a)) :
    Screened met fault (needs ++ more) (first >>= rest) := by
  induction h with
  | done a => exact hrest a rfl
  | pass hmet _ ih => exact .pass hmet (ih hrest)
  | fail needs hunmet => exact .fail _ hunmet

theorem map (f : α → β) (h : Screened met fault needs result) :
    Screened met fault needs (result.map f) := by
  induction h with
  | done a => exact .done (f a)
  | pass hmet _ ih => exact .pass hmet ih
  | fail needs hunmet => exact .fail _ hunmet

/-- A pass through a list looks at what the step from each item looks at. -/
theorem foldlM {ι σ : Type} {step : σ → ι → Except ε σ} {looksAt : ι → List ν} {items : List ι}
    (hstep : ∀ item ∈ items, ∀ state, Screened met fault (looksAt item) (step state item))
    (state : σ) : Screened met fault (items.flatMap looksAt) (items.foldlM step state) := by
  induction items generalizing state with
  | nil => exact .done state
  | cons item items ih =>
    obtain ⟨hitem, hitems⟩ := List.forall_mem_cons.1 hstep
    rw [List.flatMap_cons, List.foldlM_cons]
    exact (hitem state).bind _ fun next _ => ih hitems next

theorem single (hok : met need → ∃ a, result = .ok a)
    (herror : ¬met need → result = .error (fault need)) : Screened met fault [need] result := by
  by_cases hmet : met need
  · obtain ⟨a, rfl⟩ := hok hmet
    exact .pass hmet (.done a)
  · rw [herror hmet]
    exact .fail _ hmet

theorem exists_ok_iff (h : Screened met fault needs result) :
    (∃ a, result = .ok a) ↔ ∀ need ∈ needs, met need := by
  induction h with
  | done a => simp
  | pass hmet _ ih => simp [ih, hmet]
  | fail needs hunmet => simp [hunmet]

theorem eq_error_iff (h : Screened met fault needs result) {e : ε} :
    result = .error e ↔ ∃ need, IsFirst (fun need => ¬met need) needs need ∧ e = fault need := by
  induction h with
  | done a => simp [IsFirst]
  | pass hmet _ ih => simp [ih, isFirst_cons_iff, hmet]
  | fail needs hunmet => simp [isFirst_cons_iff, hunmet, eq_comm]

end Screened

end

end JointGuard
