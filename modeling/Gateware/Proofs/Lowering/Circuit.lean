import Gateware.Proofs.Lowering.Inversion
import Mathlib.Algebra.Field.Rat
import Mathlib.Algebra.Order.Ring.NNRat
import Mathlib.Order.Bounds.Basic

/-!
# Circuits and the routes through them

A hardware expression does not say at which type its operations were priced.  A *circuit* is a
hardware expression that does: every operation in it carries the type of the operation of the
program that it stands for.

* `Circuit.expr` forgets the types, and gives the expression that is printed.
* `Circuit.Realizes` says that a circuit stands for an expression of a program.  At most one circuit
  with a given expression does (`Realizes.unique`), so an emitted expression has its types back.
* `Circuit.routes` are the operations on each way from the result to an input or constant.
* `Circuit.delay` goes through the circuit from its leaves to the result.  With exact costs it is
  the greatest total of a route (`delay_isGreatest`).

Since `delay` makes sense for every cost model, it can be compared with the delay that lowering
reports also where costs are rounded.
-/

namespace Gateware

/-! ## Exact costs -/

namespace CostModel

variable {κ : Type}

/-- The cost of an operation, or nothing if it has no price. -/
def cost (model : CostModel κ) (op : Operation) : κ :=
  match (model.price op).result with
  | .ok c => c
  | .error _ => model.zero

lemma cost_of_ok {model : CostModel κ} {op : Operation} {c : κ}
    (h : (model.price op).result = .ok c) : model.cost op = c := by
  rw [cost, h]

/-- Costs that are not rounded. -/
def exact (price : Operation → Traced TimingError ℚ≥0) : CostModel ℚ≥0 where
  zero := 0
  add := (· + ·)
  later := max
  price := price

end CostModel

namespace Hardware

/-- A hardware expression whose operations carry the type that they were priced at. -/
inductive Circuit where
  | identifier (name : String)
  | literal (value : Int) (width : Nat) (signed : Bool)
  | unary (op : UnaryOp) (type : BitType) (operand : Circuit)
  | binary (op : BinaryOp) (type : BitType) (left right : Circuit)
  | resize (operand : Circuit) (width : Nat)
  | cast (signed : Bool) (operand : Circuit)

namespace Circuit

/-- The expression of a circuit. -/
def expr : Circuit → Expr
  | identifier name => .identifier name
  | literal value width signed => .literal value width signed
  | unary op _ c => .unary op c.expr
  | binary op _ l r => .binary op l.expr r.expr
  | resize c width => .resize c.expr width
  | cast signed c => .cast signed c.expr

/-- The operations on every way from the result to a leaf, outermost first. -/
def routes : Circuit → List (List Operation)
  | identifier _ => [[]]
  | literal _ _ _ => [[]]
  | unary op type c => c.routes.map (⟨.unary op, type.width, type.signed⟩ :: ·)
  | binary op type l r => (l.routes ++ r.routes).map (⟨.binary op, type.width, type.signed⟩ :: ·)
  | resize c _ => c.routes
  | cast _ c => c.routes

/-- When the result is there, if every operation starts once its operands are.  An associative
operation has the operands that are already joined on its right. -/
def delay {κ : Type} (model : CostModel κ) : Circuit → κ
  | identifier _ => model.zero
  | literal _ _ _ => model.zero
  | unary op type c =>
    model.add (c.delay model) (model.cost ⟨.unary op, type.width, type.signed⟩)
  | binary op type l r =>
    model.add
      (if op.isAssociative then model.later (r.delay model) (l.delay model)
        else model.later (l.delay model) (r.delay model))
      (model.cost ⟨.binary op, type.width, type.signed⟩)
  | resize c _ => c.delay model
  | cast _ c => c.delay model

/-- All operations on the routes of a circuit have a price. -/
def Priced {κ : Type} (model : CostModel κ) (c : Circuit) : Prop :=
  ∀ route ∈ c.routes, ∀ op ∈ route, ∃ cost, (model.price op).result = .ok cost

/-! ## The longest route -/

/-- What the operations on routes cost altogether. -/
def totals (cost : Operation → ℚ≥0) (routes : List (List Operation)) : Set ℚ≥0 :=
  {total | ∃ route ∈ routes, (route.map cost).sum = total}

section

variable {cost : Operation → ℚ≥0} {first second : List (List Operation)} {a b : ℚ≥0}

lemma isGreatest_totals_leaf (cost : Operation → ℚ≥0) : IsGreatest (totals cost [[]]) 0 := by
  simp [totals]

/-- An operation in front of all routes is paid once on each of them. -/
lemma isGreatest_totals_cons (h : IsGreatest (totals cost first) a) (op : Operation) :
    IsGreatest (totals cost (first.map (op :: ·))) (a + cost op) := by
  obtain ⟨⟨longest, hlongest, htotal⟩, hbound⟩ := h
  refine ⟨⟨op :: longest, List.mem_map_of_mem hlongest, ?_⟩, ?_⟩
  · rw [List.map_cons, List.sum_cons, htotal, add_comm]
  · rintro total ⟨_, hroute, rfl⟩
    obtain ⟨route, hmem, rfl⟩ := List.mem_map.mp hroute
    have hle : (route.map cost).sum ≤ a := hbound ⟨route, hmem, rfl⟩
    rw [List.map_cons, List.sum_cons, add_comm]
    gcongr

/-- The longest of more routes is the longer of the longest ones. -/
lemma isGreatest_totals_append (ha : IsGreatest (totals cost first) a)
    (hb : IsGreatest (totals cost second) b) :
    IsGreatest (totals cost (first ++ second)) (max a b) := by
  have hunion : totals cost (first ++ second) = totals cost first ∪ totals cost second := by
    ext total
    simp only [totals, List.mem_append, or_and_right, exists_or, Set.mem_union, Set.mem_ofPred_eq]
  rw [hunion]
  exact ha.union hb

/-- **With exact costs, the delay of a circuit is that of its longest route.** -/
theorem delay_isGreatest (price : Operation → Traced TimingError ℚ≥0) (c : Circuit) :
    IsGreatest (totals (CostModel.exact price).cost c.routes) (c.delay (.exact price)) := by
  induction c with
  | identifier name => exact isGreatest_totals_leaf _
  | literal value width signed => exact isGreatest_totals_leaf _
  | unary op type c ih => exact isGreatest_totals_cons ih _
  | binary op type l r ihl ihr =>
      have hlater : (if op.isAssociative
          then max (r.delay (.exact price)) (l.delay (.exact price))
          else max (l.delay (.exact price)) (r.delay (.exact price))) =
            max (l.delay (.exact price)) (r.delay (.exact price)) := by
        split_ifs
        · exact max_comm _ _
        · rfl
      have hboth := isGreatest_totals_cons (isGreatest_totals_append ihl ihr)
        ⟨.binary op, type.width, type.signed⟩
      rw [← hlater] at hboth
      exact hboth
  | resize c width ih => exact ih
  | cast signed c ih => exact ih

end

/-! ## Circuits of programs -/

/-- Which circuits stand for an expression of a program.  Operations have the operator and the type
of the program, and in between anything may be resized or cast.  Associative operations with more
than two operands are taken apart: the second operand is joined to a circuit of the others. -/
inductive Realizes : Circuit → Program.Expr → Prop
  | input (name : String) : Realizes (.identifier (portName name)) (.input name)
  | constant (value : Int) (type : BitType) :
      Realizes (.literal value type.width type.signed) (.constant value type)
  | resize {c : Circuit} {e : Program.Expr} (h : Realizes c e) (width : Nat) :
      Realizes (.resize c width) e
  | cast {c : Circuit} {e : Program.Expr} (h : Realizes c e) (signed : Bool) :
      Realizes (.cast signed c) e
  | unary {c : Circuit} {e : Program.Expr} (op : UnaryOp) (type : BitType) (h : Realizes c e) :
      Realizes (.unary op type c) (.unary op e type)
  | pair {l r : Circuit} {e f : Program.Expr} {op : BinaryOp} (type : BitType)
      (hop : op.isAssociative = false) (hl : Realizes l e) (hr : Realizes r f) :
      Realizes (.binary op type l r) (.binary op [e, f] type)
  | single {c : Circuit} {e : Program.Expr} {op : BinaryOp} (type : BitType)
      (hop : op.isAssociative = true) (h : Realizes c e) : Realizes c (.binary op [e] type)
  | join {l r : Circuit} {first e : Program.Expr} {rest : List Program.Expr} {op : BinaryOp}
      {type : BitType} (hop : op.isAssociative = true) (hl : Realizes l e)
      (hr : Realizes r (.binary op (first :: rest) type)) :
      Realizes (.binary op type l r) (.binary op (first :: e :: rest) type)

namespace Realizes

variable {c d : Circuit} {e : Program.Expr}

lemma of_resize {width : Nat} (h : Realizes (.resize c width) e) : Realizes c e := by
  generalize hd : Circuit.resize c width = d at h
  induction h with
  | resize h width => cases hd; exact h
  | single type hop _ ih => exact .single type hop (ih hd)
  | input | constant | cast | unary | pair | join => cases hd

lemma of_cast {signed : Bool} (h : Realizes (.cast signed c) e) : Realizes c e := by
  generalize hd : Circuit.cast signed c = d at h
  induction h with
  | cast h signed => cases hd; exact h
  | single type hop _ ih => exact .single type hop (ih hd)
  | input | constant | resize | unary | pair | join => cases hd

/-- An operation with one operand leaves no trace. -/
lemma of_single {op : BinaryOp} {type : BitType} (h : Realizes c (.binary op [e] type)) :
    Realizes c e := by
  generalize hs : Program.Expr.binary op [e] type = s at h
  induction h with
  | resize _ width ih => exact .resize (ih hs) width
  | cast _ signed ih => exact .cast (ih hs) signed
  | single type hop h _ => cases hs; exact h
  | input | constant | unary | pair | join => cases hs

/-- **An expression has at most one circuit for a given source.** -/
theorem unique (hc : Realizes c e) (hd : Realizes d e) (h : c.expr = d.expr) : c = d := by
  -- The expression says of which kind `d` is, and its source says which type it carries.
  induction hc generalizing d with
  | input name => cases d <;> simp_all [expr]
  | constant value type => cases d <;> simp_all [expr]
  | resize _ width ih =>
      cases d <;> simp only [expr, reduceCtorEq, Expr.resize.injEq] at h
      rw [ih hd.of_resize h.1, h.2]
  | cast _ signed ih =>
      cases d <;> simp only [expr, reduceCtorEq, Expr.cast.injEq] at h
      rw [ih hd.of_cast h.2, h.1]
  | unary op type _ ih =>
      cases d <;> simp only [expr, reduceCtorEq, Expr.unary.injEq] at h
      cases hd with
      | unary _ _ hd => rw [ih hd h.2]
  | pair type hop _ _ ihl ihr =>
      cases d <;> simp only [expr, reduceCtorEq, Expr.binary.injEq] at h
      cases hd with
      | pair _ _ hl hr => rw [ihl hl h.2.1, ihr hr h.2.2]
      | join hassoc => simp [hop] at hassoc
  | single type hop _ ih => exact ih hd.of_single h
  | join hop _ _ ihl ihr =>
      cases d <;> simp only [expr, reduceCtorEq, Expr.binary.injEq] at h
      cases hd with
      | pair _ hnot => simp [hop] at hnot
      | join _ hl hr => rw [ihl hl h.2.1, ihr hr h.2.2]

end Realizes

end Circuit

end Hardware

end Gateware
