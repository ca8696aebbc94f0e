import Gateware.Proofs.Lowering.Inversion

/-!
# Lowered expressions are well typed

Vectors of a hardware description have a width and a signedness, and its operators are strict about
both.  `Hardware.HasType` states their rules: no operand is converted silently, only the amount of a
shift may have a type of its own, only numbers with a sign can be negated, and a product, which is
twice as wide as its factors, stands nowhere but directly inside the `resize` that cuts it back.

`lower_typed` shows that lowering keeps to these rules for every body that it accepts.  The
conversions that it puts around operands are what makes the types meet (`HasType.convert`), and the
chain of an associative operation is typed link by link (`HasType.chain`).
-/

namespace Gateware.Hardware

/-- The ports that an expression may name, with their types. -/
abbrev Ports := List (String × BitType)

/-- The types of expressions. -/
inductive HasType (ports : Ports) : Expr → BitType → Prop
  | identifier {name : String} {t : BitType} (hport : (name, t) ∈ ports) (hwidth : 0 < t.width) :
      HasType ports (.identifier name) t
  | literal (value : Int) {width : Nat} (signed : Bool) (hwidth : 0 < width) :
      HasType ports (.literal value width signed) ⟨width, signed⟩
  | not {e : Expr} {t : BitType} (he : HasType ports e t) : HasType ports (.unary .not e) t
  | neg {e : Expr} {t : BitType} (he : HasType ports e t) (hsigned : t.signed = true) :
      HasType ports (.unary .neg e) t
  | operation {op : BinaryOp} {l r : Expr} {t : BitType} (hshift : op.isShift = false)
      (hcompare : op.isComparison = false) (hmul : op ≠ .mul)
      (hl : HasType ports l t) (hr : HasType ports r t) : HasType ports (.binary op l r) t
  /-- A product has twice the width of its factors, and is cut back at once. -/
  | product {l r : Expr} {t : BitType} (hl : HasType ports l t) (hr : HasType ports r t) :
      HasType ports (.resize (.binary .mul l r) t.width) t
  | shift {op : BinaryOp} {l r : Expr} {t amount : BitType} (hshift : op.isShift = true)
      (hl : HasType ports l t) (hr : HasType ports r amount) : HasType ports (.binary op l r) t
  | resize {e : Expr} {t : BitType} (width : Nat) (hwidth : 0 < width) (he : HasType ports e t) :
      HasType ports (.resize e width) ⟨width, t.signed⟩
  | cast {e : Expr} {t : BitType} (signed : Bool) (he : HasType ports e t) :
      HasType ports (.cast signed e) ⟨t.width, signed⟩

/-- The expressions that are conditions: comparisons of operands of one type. -/
inductive IsCondition (ports : Ports) : Expr → Prop
  | comparison {op : BinaryOp} {l r : Expr} {t : BitType} (hcompare : op.isComparison = true)
      (hl : HasType ports l t) (hr : HasType ports r t) : IsCondition ports (.binary op l r)

namespace HasType

variable {ports : Ports} {e : Expr} {s t : BitType}

/-- A converted expression has the type that it was converted to. -/
lemma convert (h : HasType ports e s) (ht : 0 < t.width) :
    HasType ports (Gateware.convert s t e) t := by
  have hresized : HasType ports (if s.width == t.width then e else .resize e t.width)
      ⟨t.width, s.signed⟩ := by
    split_ifs with hw
    · rw [← beq_iff_eq.mp hw]
      exact h
    · exact .resize t.width ht h
  unfold Gateware.convert
  dsimp only
  generalize (if s.width == t.width then e else .resize e t.width) = resized at hresized ⊢
  split_ifs with hs
  · rw [beq_iff_eq.mp hs] at hresized
    exact hresized
  · exact .cast (t := ⟨t.width, s.signed⟩) t.signed hresized

/-- One link of a chain. -/
lemma link {op : BinaryOp} {l r : Expr} (hop : op.isAssociative = true) (hl : HasType ports l t)
    (hr : HasType ports r t) : HasType ports (Gateware.link op t.width l r) t := by
  unfold Gateware.link
  split_ifs with hmul
  · subst hmul
    exact .product hl hr
  · exact .operation (isShift_of_associative hop) (isComparison_of_associative hop) hmul hl hr

/-- A whole chain of operands of one type. -/
lemma chain {op : BinaryOp} (hop : op.isAssociative = true) (he : HasType ports e t) :
    ∀ {es : List Expr}, (∀ x ∈ es, HasType ports x t) →
      HasType ports (es.foldr (Gateware.link op t.width) e) t
  | [], _ => he
  | x :: es, h => by
      have hrest : HasType ports (es.foldr (Gateware.link op t.width) e) t :=
        chain hop he fun y hy => h y (List.mem_cons_of_mem x hy)
      exact link hop (h x List.mem_cons_self) hrest

end HasType

end Gateware.Hardware

namespace Gateware

open Hardware (HasType IsCondition)

/-- The ports of the inputs of a member, with their types. -/
def Program.Member.portTypes (m : Program.Member) : Hardware.Ports :=
  m.inputs.map fun input => (portName input.name, input.type)

/-- What holds of a lowered expression: it is a condition or a number of its type. -/
def Lowered.WellTyped {κ : Type} (ports : Hardware.Ports) (x : Lowered κ) : Prop :=
  if x.comparison then IsCondition ports x.expr else HasType ports x.expr x.type

section

variable {κ : Type} {model : CostModel κ} {m : Program.Member}

lemma Program.Member.mem_portTypes {name : String} {input : Program.Input}
    (h : m.input? name = some input) : (portName name, input.type) ∈ m.portTypes := by
  obtain ⟨hmem, rfl⟩ := Program.Member.input?_eq_some h
  exact List.mem_map_of_mem hmem

/-- A number brought to a type has it. -/
lemma Lowered.WellTyped.toType {ports : Hardware.Ports} {x : Lowered κ} {t : BitType}
    (h : x.WellTyped ports) (hx : x.comparison = false) (ht : 0 < t.width) :
    HasType ports (x.toType t) t := by
  simp only [Lowered.WellTyped, hx] at h
  exact h.convert ht

/-- An associative operation on numbers of any types. -/
lemma Lowered.WellTyped.associative {ports : Hardware.Ports} {op : BinaryOp} {t : BitType}
    {cost : κ} {xs : List (Lowered κ)} (hop : op.isAssociative = true) (ht : 0 < t.width)
    (hne : 0 < xs.length) (hxs : ∀ x ∈ xs, x.comparison = false ∧ x.WellTyped ports) :
    (Lowered.associative model op t cost xs).WellTyped ports := by
  cases xs with
  | nil => simp at hne
  | cons x xs =>
      have htyped : ∀ y ∈ x :: xs, HasType ports (y.toType t) t :=
        fun y hy => (hxs y hy).2.toType (hxs y hy).1 ht
      simp only [Lowered.WellTyped, Lowered.associative, List.map_cons, chainExpr_cons]
      refine HasType.chain hop (htyped x List.mem_cons_self) fun e he => ?_
      obtain ⟨y, hy, rfl⟩ := List.mem_map.mp he
      exact htyped y (List.mem_cons_of_mem x hy)

/-- An operation on two numbers of any types. -/
lemma Lowered.WellTyped.binary {ports : Hardware.Ports} {op : BinaryOp} {t : BitType} {cost : κ}
    {l r : Lowered κ} (hop : op.isAssociative = false) (ht : 0 < t.width)
    (hl : l.comparison = false ∧ l.WellTyped ports)
    (hr : r.comparison = false ∧ r.WellTyped ports) :
    (Lowered.binary model op t cost l r).WellTyped ports := by
  have hleft := hl.2.toType hl.1 ht
  have hright := hr.2.toType hr.1 ht
  cases hc : op.isComparison with
  | true =>
      simp only [Lowered.WellTyped, Lowered.binary, hc, isShift_of_comparison hc]
      exact .comparison hc hleft hright
  | false =>
      simp only [Lowered.WellTyped, Lowered.binary, hc, Bool.false_eq_true, if_false]
      cases hs : op.isShift with
      | true =>
          have hown := hr.2
          simp only [Lowered.WellTyped, hr.1] at hown
          exact .shift hs hleft hown
      | false => exact .operation hs hc (ne_mul_of_not_associative hop) hleft hright

/-- **Lowering yields well-typed expressions.**  Comparisons come out only of a whole body. -/
theorem lower_typed (e : Program.Expr) : ∀ {top : Bool} {x : Lowered κ},
    (lower model m top e).result = .ok x →
      (x.comparison = true → top = true) ∧ x.WellTyped m.portTypes := by
  induction e using Program.Expr.induction with
  | input name =>
      intro top x h
      obtain ⟨input, hinput, hwidth, rfl⟩ := lower_input.mp h
      exact ⟨nofun, .identifier (Program.Member.mem_portTypes hinput) hwidth⟩
  | constant value type =>
      intro top x h
      obtain ⟨hwidth, rfl⟩ := lower_constant.mp h
      exact ⟨nofun, .literal value type.signed hwidth⟩
  | unary op operand type ih =>
      intro top x h
      obtain ⟨hwidth, hneg, cost, -, y, hy, rfl⟩ := lower_unary.mp h
      obtain ⟨htop, htyped⟩ := ih hy
      have hnumber : y.comparison = false := by simpa using htop
      have hoperand := htyped.toType hnumber hwidth
      refine ⟨nofun, ?_⟩
      cases op with
      | not => exact .not hoperand
      | neg => exact .neg hoperand (hneg rfl)
  | binary op operands type ih =>
      intro top x h
      obtain ⟨hwidth, htop, hpos, -, cost, -, xs, hxs, hjoin⟩ := lower_binary.mp h
      have hlowered : ∀ y ∈ xs, y.comparison = false ∧ y.WellTyped m.portTypes := by
        intro y hy
        obtain ⟨e, he, hey⟩ := exists_of_mem_right hxs hy
        obtain ⟨hnotTop, htyped⟩ := ih e he hey
        exact ⟨by simpa using hnotTop, htyped⟩
      cases hjoin with
      | associative hop =>
          refine ⟨nofun, ?_⟩
          exact .associative hop hwidth (hxs.length_eq ▸ hpos) hlowered
      | binary hop =>
          refine ⟨htop, ?_⟩
          exact .binary hop hwidth (hlowered _ (by simp)) (hlowered _ (by simp))

end

end Gateware
