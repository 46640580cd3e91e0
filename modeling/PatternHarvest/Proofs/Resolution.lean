import PatternHarvest.Expr
import Mathlib.Logic.Basic

/-!
# Resolving against other constants

`Expr.resolve` reads a table of constants and nothing else, and of that table only the names at the
leaves of a sum (`Expr.resolve_congr`). What it makes of an expression is kept when names are added
to the table (`Expr.resolve_mono`), since a name that it has looked up is still there with the same
text.
-/

namespace PatternHarvest

/-- A table of constants has all that another one has, and perhaps more. -/
def Extends (table' table : String → Option String) : Prop :=
  ∀ name text, table name = some text → table' name = some text

namespace Expr

variable {constant? constant'? : String → Option String}

/-- The names at the leaves of a sum, from left to right. -/
def leafNames : Expr → List String
  | name n => [n]
  | concat left right => left.leafNames ++ right.leafNames
  | literal _ | call _ _ _ | other _ => []

/-- Tables that agree on the leaves of an expression resolve it alike, down to the reason why it has
no text. -/
theorem resolve_congr {e : Expr} (h : ∀ n ∈ e.leafNames, constant? n = constant'? n)
    (depth : Nat) : e.resolve constant? depth = e.resolve constant'? depth := by
  induction depth generalizing e with
  | zero => simp only [resolve]
  | succ depth ih =>
    cases e with
    | literal text => rfl
    | name n =>
      have hn : constant? n = constant'? n := h n List.mem_cons_self
      simp only [resolve, hn]
    | concat left right =>
      have hleft : left.resolve constant? depth = left.resolve constant'? depth :=
        ih fun n hn => h n (List.mem_append_left _ hn)
      have hright : right.resolve constant? depth = right.resolve constant'? depth :=
        ih fun n hn => h n (List.mem_append_right _ hn)
      simp only [resolve, hleft, hright]
    | call receiver method args => rfl
    | other kind => rfl

/-- A sum has a text exactly if both operands have one, and then it is theirs, the left one
first. -/
theorem resolve_concat_eq_ok_iff (depth : Nat) (left right : Expr) (text : String) :
    (concat left right).resolve constant? (depth + 1) = .ok text ↔
      ∃ l r, left.resolve constant? depth = .ok l ∧ right.resolve constant? depth = .ok r ∧
        text = l ++ r := by
  rw [resolve]
  cases hleft : left.resolve constant? depth with
  | error reason => simp
  | ok l =>
    cases hright : right.resolve constant? depth with
    | error reason => simp
    | ok r => simp [eq_comm]

/-- An expression that has a text keeps it when names are added to the constants. -/
theorem resolve_mono (hext : Extends constant'? constant?) {depth : Nat} {e : Expr}
    {text : String} (h : e.resolve constant? depth = .ok text) :
    e.resolve constant'? depth = .ok text := by
  induction depth generalizing e text with
  | zero => simp [resolve] at h
  | succ depth ih =>
    cases e with
    | literal t => exact h
    | name n =>
      cases hn : constant? n with
      | none => simp [resolve, hn] at h
      | some t =>
        simp only [resolve, hn] at h
        simp only [resolve, hext n t hn]
        exact h
    | concat left right =>
      obtain ⟨l, r, hl, hr, htext⟩ := (resolve_concat_eq_ok_iff depth left right text).1 h
      exact (resolve_concat_eq_ok_iff depth left right text).2 ⟨l, r, ih hl, ih hr, htext⟩
    | call receiver method args => simp [resolve] at h
    | other kind => simp [resolve] at h

end Expr

end PatternHarvest
