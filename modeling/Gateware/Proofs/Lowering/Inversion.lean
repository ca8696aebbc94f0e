import Gateware.Compile.Lowering
import Gateware.Proofs.Results

/-!
# What lowering accepts, and what it makes of it

`lower` runs its checks, prices the operation and lowers the operands, and stops at the first thing
that is wrong.  For every kind of expression there is one lemma here that says exactly when it
succeeds and with which result (`lower_input`, `lower_constant`, `lower_unary`, `lower_binary`).
Whatever is to be shown about lowered expressions follows by `Program.Expr.induction`, which gives
a hypothesis for every operand of a list, and one of these lemmas per case.

`chainExpr_cons` describes the expression of an associative operation as a fold: its operands are
joined by `link`, which is the operation itself, and for products the operation cut back at once.
-/

namespace Gateware

/-- Induction over expressions.  The operands of a binary operation are a list, and the hypothesis
holds for each of them. -/
theorem Program.Expr.induction {motive : Program.Expr → Prop}
    (input : ∀ name, motive (.input name))
    (constant : ∀ value type, motive (.constant value type))
    (binary : ∀ op operands type, (∀ e ∈ operands, motive e) → motive (.binary op operands type))
    (unary : ∀ op operand type, motive operand → motive (.unary op operand type)) :
    ∀ e, motive e := by
  intro e
  refine @Program.Expr.rec motive (fun es => ∀ e ∈ es, motive e)
    input constant (fun op es type ih => binary op es type ih)
    (fun op e type ih => unary op e type ih) ?nil ?cons e
  case nil => simp
  case cons =>
    intro head tail hhead htail e he
    rcases List.mem_cons.mp he with rfl | he
    · exact hhead
    · exact htail e he

/-! ## Operators and inputs -/

section

variable {op : BinaryOp}

lemma isShift_of_associative (h : op.isAssociative = true) : op.isShift = false := by
  cases op <;> simp_all [BinaryOp.isAssociative, BinaryOp.isShift]

lemma isComparison_of_associative (h : op.isAssociative = true) : op.isComparison = false := by
  cases op <;> simp_all [BinaryOp.isAssociative, BinaryOp.isComparison]

lemma isComparison_of_shift (h : op.isShift = true) : op.isComparison = false := by
  cases op <;> simp_all [BinaryOp.isShift, BinaryOp.isComparison]

lemma isShift_of_comparison (h : op.isComparison = true) : op.isShift = false := by
  cases op <;> simp_all [BinaryOp.isShift, BinaryOp.isComparison]

lemma ne_mul_of_not_associative (h : op.isAssociative = false) : op ≠ .mul := by
  rintro rfl
  simp [BinaryOp.isAssociative] at h

end

lemma Program.Member.input?_eq_some {m : Program.Member} {name : String} {input : Program.Input}
    (h : m.input? name = some input) : input ∈ m.inputs ∧ input.name = name :=
  ⟨List.mem_of_find?_eq_some h, by simpa using List.find?_some h⟩

/-! ## Checks -/

section

variable {member : String} {type : BitType} {u : Unit}

lemma checkWidth_eq_ok : checkWidth member type = .ok u ↔ 0 < type.width := by
  unfold checkWidth
  split_ifs with h
  · simp only [beq_iff_eq] at h
    simp [h]
  · simp only [beq_iff_eq] at h
    simp [Nat.pos_of_ne_zero h]

lemma checkNegation_eq_ok {op : UnaryOp} :
    checkNegation member op type = .ok u ↔ (op = .neg → type.signed = true) := by
  unfold checkNegation
  cases op <;> cases h : type.signed <;> simp

lemma checkOperands_eq_ok {top : Bool} {op : BinaryOp} {count : Nat} :
    checkOperands member top op count = .ok u ↔
      (op.isComparison = true → top = true) ∧ 0 < count ∧
        (op.isAssociative = false → count = 2) := by
  unfold checkOperands
  split_ifs with hnested hempty hcount
  · simp only [Bool.and_eq_true, Bool.not_eq_true'] at hnested
    simp [hnested.1, hnested.2]
  · simp only [beq_iff_eq] at hempty
    simp [hempty]
  · simp only [Bool.and_eq_true, Bool.not_eq_true', bne_iff_ne, ne_eq] at hcount
    simp [hcount.1, hcount.2]
  · simp only [Bool.and_eq_true, Bool.not_eq_true', bne_iff_ne, ne_eq, beq_iff_eq, not_and,
      Decidable.not_not, Bool.not_eq_false] at hnested hempty hcount
    simp only [true_iff]
    exact ⟨hnested, Nat.pos_of_ne_zero hempty, hcount⟩

end

/-! ## Lowering -/

section

variable {κ : Type} {model : CostModel κ} {m : Program.Member} {top : Bool} {x : Lowered κ}

/-- A list of operands is lowered operand by operand, none of them as a whole body. -/
lemma lowerAll_eq_ok : ∀ (es : List Program.Expr) (xs : List (Lowered κ)),
    (lowerAll model m es).result = .ok xs ↔
      List.Forall₂ (fun e x => (lower model m false e).result = .ok x) es xs
  | [], xs => by
      simp [lowerAll, eq_comm]
  | e :: es, xs => by
      simp only [lowerAll, Traced.result_bind, Traced.result_pure, bind_eq_ok, Except.ok.injEq,
        lowerAll_eq_ok es]
      constructor
      · rintro ⟨x, hx, rest, hrest, rfl⟩
        exact .cons hx hrest
      · intro h
        cases h with
        | cons hx hrest => exact ⟨_, hx, _, hrest, rfl⟩

lemma lower_input {name : String} :
    (lower model m top (.input name)).result = .ok x ↔
      ∃ input, m.input? name = some input ∧ 0 < input.type.width ∧
        x = { expr := .identifier (portName name), type := input.type, path := model.zero } := by
  rw [lower]
  cases m.input? name with
  | none => simp
  | some input => simp [bind_eq_ok, checkWidth_eq_ok, eq_comm (b := x)]

lemma lower_constant {value : Int} {type : BitType} :
    (lower model m top (.constant value type)).result = .ok x ↔
      0 < type.width ∧ x =
        { expr := .literal value type.width type.signed, type := type, path := model.zero } := by
  simp [lower, bind_eq_ok, checkWidth_eq_ok, eq_comm (b := x)]

lemma lower_unary {op : UnaryOp} {e : Program.Expr} {type : BitType} :
    (lower model m top (.unary op e type)).result = .ok x ↔
      0 < type.width ∧ (op = .neg → type.signed = true) ∧
        ∃ cost, (model.price ⟨.unary op, type.width, type.signed⟩).result = .ok cost ∧
          ∃ y, (lower model m false e).result = .ok y ∧ x = .unary model op type cost y := by
  simp [lower, bind_eq_ok, checkWidth_eq_ok, checkNegation_eq_ok, mapError_eq_ok,
    eq_comm (b := x)]

/-- What becomes of the lowered operands of a binary operation. -/
inductive Joins (model : CostModel κ) (op : BinaryOp) (type : BitType) (cost : κ) :
    List (Lowered κ) → Lowered κ → Prop
  | associative {xs : List (Lowered κ)} (h : op.isAssociative = true) :
      Joins model op type cost xs (.associative model op type cost xs)
  | binary {left right : Lowered κ} (h : op.isAssociative = false) :
      Joins model op type cost [left, right] (.binary model op type cost left right)

lemma lower_binary {op : BinaryOp} {es : List Program.Expr} {type : BitType} :
    (lower model m top (.binary op es type)).result = .ok x ↔
      0 < type.width ∧ (op.isComparison = true → top = true) ∧ 0 < es.length ∧
        (op.isAssociative = false → es.length = 2) ∧
        ∃ cost, (model.price ⟨.binary op, type.width, type.signed⟩).result = .ok cost ∧
          ∃ xs, List.Forall₂ (fun e x => (lower model m false e).result = .ok x) es xs ∧
            Joins model op type cost xs x := by
  simp only [lower, Traced.result_bind, Traced.result_ofExcept, Traced.result_mapError,
    bind_eq_ok, checkWidth_eq_ok, checkOperands_eq_ok, mapError_eq_ok, lowerAll_eq_ok]
  constructor
  · rintro ⟨-, hwidth, -, ⟨htop, hpos, htwo⟩, cost, hcost, xs, hxs, hx⟩
    refine ⟨hwidth, htop, hpos, htwo, cost, hcost, xs, hxs, ?_⟩
    split_ifs at hx with hassoc
    · simp only [Traced.result_pure, Except.ok.injEq] at hx
      rw [← hx]
      exact .associative hassoc
    · split at hx
      · simp only [Traced.result_pure, Except.ok.injEq] at hx
        rw [← hx]
        exact .binary (by simpa using hassoc)
      · simp at hx
  · rintro ⟨hwidth, htop, hpos, htwo, cost, hcost, xs, hxs, hx⟩
    refine ⟨(), hwidth, (), ⟨htop, hpos, htwo⟩, cost, hcost, xs, hxs, ?_⟩
    cases hx with
    | associative hassoc => simp [hassoc]
    | binary hassoc => simp [hassoc]

end

/-! ## Chains -/

open Hardware (Expr)

/-- Joins an operand to what is already joined.  A product is cut back to the width of its
factors. -/
def link (op : BinaryOp) (width : Nat) (left right : Expr) : Expr :=
  if op = .mul then .resize (.binary op left right) width else .binary op left right

/-- Cutting back as many operations as operands were nested leaves the innermost operand alone,
even if it is an operation itself. -/
lemma cutProducts_nest (op : BinaryOp) (width : Nat) (inner : Expr) : ∀ operands : List Expr,
    Lowered.cutProducts width operands.length (Expr.nest op inner operands)
      = operands.foldr (fun left right => .resize (.binary op left right) width) inner
  | [] => by
      simp only [Expr.nest, List.foldr_nil, List.length_nil]
      cases inner <;> rfl
  | e :: es => by
      have ih := cutProducts_nest op width inner es
      simp only [Expr.nest] at ih
      simp [Expr.nest, Lowered.cutProducts, ih]

/-- **The shape of a chain.**  The first operand is innermost, and the others are linked to it from
the last to the second. -/
theorem chainExpr_cons (op : BinaryOp) (e : Expr) (es : List Expr) (width : Nat) :
    Lowered.chainExpr op (e :: es) width = es.foldr (link op width) e := by
  by_cases h : op = .mul
  · have hlink : link op width = fun left right => .resize (.binary op left right) width := by
      funext left right
      simp [link, h]
    have hcut := cutProducts_nest op width e es
    simp [Lowered.chainExpr, Expr.chain, h] at hcut ⊢
    rw [hcut, ← h, hlink]
  · have hlink : link op width = Expr.binary op := by
      funext left right
      simp [link, h]
    simp [Lowered.chainExpr, Expr.chain, Expr.nest, h, hlink]

end Gateware
