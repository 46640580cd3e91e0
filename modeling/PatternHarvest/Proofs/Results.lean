import Mathlib.Logic.Basic

/-!
# Results that may be errors

What a computation in steps comes from: if there is a result at the end, there was one after each
step (`bind_eq_ok_iff`). Two such computations agree, in the direction from the second to the first,
if each step makes related results of related ones (`Follows`).
-/

namespace PatternHarvest

section

variable {α β γ δ : Type}

theorem bind_eq_ok_iff {x : Except γ α} {f : α → Except γ β} {r : β} :
    x >>= f = .ok r ↔ ∃ m, x = .ok m ∧ f m = .ok r := by
  constructor
  · intro h
    cases x with
    | error e => cases h
    | ok m => exact ⟨m, rfl, h⟩
  · rintro ⟨m, rfl, h⟩
    exact h

/-- Whatever `f` makes of the second of two states in the relation `R`, it makes something of the
first, and the two results are in the relation `R'`. -/
def Follows (R : α → α → Prop) (R' : β → β → Prop) (f : α → Except γ β) : Prop :=
  ∀ ⦃s' s r⦄, R s' s → f s = .ok r → ∃ r', f s' = .ok r' ∧ R' r' r

variable {R : α → α → Prop} {R' : β → β → Prop} {R'' : δ → δ → Prop}

theorem Follows.bind {f : α → Except γ β} {g : β → Except γ δ} (hf : Follows R R' f)
    (hg : Follows R' R'' g) : Follows R R'' fun s => f s >>= g := by
  intro s' s r hs hr
  obtain ⟨m, hm, hr⟩ := bind_eq_ok_iff.1 hr
  obtain ⟨m', hm', hmm⟩ := hf hs hm
  obtain ⟨r', hr', hrr⟩ := hg hmm hr
  exact ⟨r', bind_eq_ok_iff.2 ⟨m', hm', hr'⟩, hrr⟩

theorem follows_pure {u : α → β} (hu : ∀ s' s, R s' s → R' (u s') (u s)) :
    Follows R R' fun s => (pure (u s) : Except γ β) := by
  intro s' s r hs hr
  cases hr
  exact ⟨u s', rfl, hu s' s hs⟩

theorem follows_error (e : γ) : Follows R R' fun _ => (.error e : Except γ β) := by
  intro s' s r _ hr
  cases hr

end

end PatternHarvest
