import PatternHarvest.Proofs.NestingLimit

/-!
# A sum is read from left to right

Resolving goes down a sum and stops at the first operand without a text. What it comes to can be
read off the sum as a whole (`Expr.resolve_leaves`). Cut the sum at the limit on depth, and go
through the places where it ends, from left to right: each has a text, or a reason why it has none
(`Expr.readings`). If all have texts, these put together are the text of the sum; otherwise the
leftmost reason is what the sum fails with (`Expr.outcome`). So only the order of the leaves counts,
and not how the operators are nested, as long as no operand lies too deep.
-/

namespace PatternHarvest.Expr

/-! ## Readings in a row -/

/-- The reason in a reading that has no text. -/
def reason? : Except Reason String → Option Reason
  | .ok _ => none
  | .error reason => some reason

/-- What a row of readings comes to: the leftmost reason in it, or all its texts put together. -/
def outcome (row : List (Except Reason String)) : Except Reason String :=
  match row.findSome? reason? with
  | some reason => .error reason
  | none => .ok (String.join (row.filterMap Except.toOption))

/-- Of two rows the second one counts only if there is no reason in the first. -/
theorem outcome_append (row row' : List (Except Reason String)) :
    outcome (row ++ row') =
      match outcome row with
      | .error reason => .error reason
      | .ok left =>
        match outcome row' with
        | .error reason => .error reason
        | .ok right => .ok (left ++ right) := by
  unfold outcome
  rw [List.findSome?_append, List.filterMap_append, String.join_append]
  cases row.findSome? reason? with
  | some reason => rfl
  | none => cases row'.findSome? reason? <;> rfl

/-! ## The places where a sum ends -/

variable {constant? : String → Option String}

/-- The leaves of a sum, from left to right. -/
def leaves : Expr → List Expr
  | concat left right => left.leaves ++ right.leaves
  | e => [e]

/-- What stands where a sum ends that is cut at depth `limit`, from left to right: the text of a
literal or of a name that has a constant, and otherwise a reason. The sum itself lies at depth
`depth`, and its operands lie one deeper. -/
def readings (constant? : String → Option String) (limit : ℕ) (depth : ℕ) (e : Expr) :
    List (Except Reason String) :=
  if depth = limit then [.error .depthExceeded]
  else
    match e with
    | literal text => [.ok text]
    | name n => [(constant? n).elim (.error .identifierNotFound) .ok]
    | concat left right =>
      readings constant? limit (depth + 1) left ++ readings constant? limit (depth + 1) right
    | call _ _ _ => [.error .unsupportedCall]
    | other _ => [.error .unsupportedExpression]

theorem readings_limit (limit : ℕ) (e : Expr) :
    e.readings constant? limit limit = [.error .depthExceeded] := by
  cases e <;> simp [readings]

/-- Resolving an operand at some depth comes to what its own places come to. The induction is on
what is left of the limit. -/
theorem resolve_eq_outcome (e : Expr) (depth left : ℕ) :
    e.resolve constant? left = outcome (e.readings constant? (depth + left) depth) := by
  induction left generalizing e depth with
  | zero =>
    rw [resolve, Nat.add_zero, readings_limit]
    rfl
  | succ left ih =>
    have hdepth : depth ≠ depth + (left + 1) := by omega
    have hdeeper : depth + (left + 1) = depth + 1 + left := by omega
    cases e with
    | literal text => simp [resolve, readings, outcome, reason?, Except.toOption]
    | name n =>
      cases hn : constant? n <;>
        simp [resolve, readings, hn, outcome, reason?, Except.toOption]
    | concat l r =>
      rw [readings, if_neg hdepth, outcome_append, hdeeper, ← ih, ← ih]
      cases hl : l.resolve constant? left with
      | error reason => simp [resolve, hl]
      | ok text => cases hr : r.resolve constant? left <;> simp [resolve, hl, hr]
    | call receiver method args => simp [resolve, readings, outcome, reason?]
    | other kind => simp [resolve, readings, outcome, reason?]

/-- A sum that ends above the limit ends at its leaves, whatever their depth. -/
theorem readings_of_height_le {limit depth : ℕ} {e : Expr} (h : depth + e.height ≤ limit) :
    e.readings constant? limit depth = e.leaves.flatMap (readings constant? 1 0) := by
  induction e using leaves.induct generalizing depth with
  | case1 l r ihl ihr =>
    rw [height] at h
    rw [readings, if_neg (by omega), leaves, List.flatMap_append, ihl (by omega), ihr (by omega)]
  | case2 e hleaf =>
    have hpos := e.height_pos
    have hlimit : depth ≠ limit := by omega
    cases e with
    | concat l r => exact absurd rfl (hleaf l r)
    | literal text => simp [readings, leaves, hlimit]
    | name n => simp [readings, leaves, hlimit]
    | call receiver method args => simp [readings, leaves, hlimit]
    | other kind => simp [readings, leaves, hlimit]

/-- **A sum is read from left to right.** Cut at the limit, it resolves to the texts at its places
put together, or fails with the leftmost reason. Two sums with the same leaves in the same order,
none of which lies too deep, resolve alike however they are nested. -/
theorem resolve_leaves (constant? : String → Option String) (limit : ℕ) (e : Expr) :
    e.resolve constant? limit = outcome (e.readings constant? limit 0) ∧
      ∀ e' : Expr, e.leaves = e'.leaves → e.height ≤ limit → e'.height ≤ limit →
        e.resolve constant? limit = e'.resolve constant? limit := by
  have houtcome (e : Expr) :
      e.resolve constant? limit = outcome (e.readings constant? limit 0) := by
    have hroot : e.resolve constant? limit = outcome (e.readings constant? (0 + limit) 0) :=
      e.resolve_eq_outcome 0 limit
    rwa [Nat.zero_add] at hroot
  refine ⟨houtcome e, fun e' hleaves h h' => ?_⟩
  have hread {e : Expr} (he : e.height ≤ limit) :
      e.readings constant? limit 0 = e.leaves.flatMap (readings constant? 1 0) :=
    readings_of_height_le (by rwa [Nat.zero_add])
  rw [houtcome, houtcome, hread h, hread h', hleaves]

/-- Three leaves nested to the left and to the right, as deep as the limit allows. -/
theorem resolve_leaves_nested :
    let constant? : String → Option String := fun n => if n = "SEP" then some "-" else none
    let toLeft : Expr := .concat (.concat (.literal "a") (.name "SEP")) (.literal "b")
    let toRight : Expr := .concat (.literal "a") (.concat (.name "SEP") (.literal "b"))
    toLeft.leaves = toRight.leaves ∧ toLeft.height ≤ 3 ∧ toRight.height ≤ 3 ∧
      toLeft.resolve constant? 3 = toRight.resolve constant? 3 ∧
      toLeft.resolve constant? 3 = .ok "a-b" := by
  intro constant? toLeft toRight
  have hleaves : toLeft.leaves = toRight.leaves := rfl
  have hleft : toLeft.height ≤ 3 := by decide
  have hright : toRight.height ≤ 3 := by decide
  obtain ⟨htext, hsame⟩ := resolve_leaves constant? 3 toLeft
  exact ⟨hleaves, hleft, hright, hsame toRight hleaves hleft hright, htext.trans rfl⟩

end PatternHarvest.Expr
