import Gateware.Proofs.Lowering.Inversion
import Gateware.Proofs.Timing.Resolution

/-!
# Which bodies can be lowered

Lowering checks every expression that it meets on its way through a body.  What it checks of one
expression by itself is `Program.Expr.Allowed`; besides, a comparison must not stand inside another
expression.  `lower_body_accepts` shows that a body is lowered exactly if everything in it is
allowed and nothing inside it is a comparison.

The proof has one step, `lower_accepts_step`: an expression is lowered exactly if it is allowed, is
no comparison unless it is a whole body, and all its operands are lowered.
-/

namespace Gateware

namespace Program.Expr

/-- The operands of an expression. -/
def operands : Expr → List Expr
  | .input _ => []
  | .constant _ _ => []
  | .binary _ es _ => es
  | .unary _ e _ => [e]

/-- The expressions in an expression, itself among them. -/
inductive Contains : Expr → Expr → Prop
  | self (e : Expr) : Contains e e
  | operand {whole x e : Expr} (hx : x ∈ whole.operands) (h : Contains x e) : Contains whole e

/-- Whether the expression itself is a comparison. -/
def isComparison : Expr → Bool
  | .binary op _ _ => op.isComparison
  | _ => false

/-- What has to hold of an expression of a member, whatever its operands are: it has at least one
bit, an input is one of the member, only numbers with a sign are negated, operators have as many
operands as they take, and were measured. -/
def Allowed (table : TimingTable) (m : Member) : Expr → Prop
  | .input name => ∃ i ∈ m.inputs, i.name = name
  | .constant _ type => 0 < type.width
  | .binary op es type => 0 < type.width ∧ 0 < es.length ∧
      (op.isAssociative = false → es.length = 2) ∧ table.Measures (.binary op)
  | .unary op _ type => 0 < type.width ∧ (op = .neg → type.signed = true) ∧
      table.Measures (.unary op)

/-- What holds of everything in an expression holds of the expression itself and of everything in
its operands. -/
lemma forall_contains {P : Expr → Prop} {whole : Expr} :
    (∀ e, whole.Contains e → P e) ↔ P whole ∧ ∀ x ∈ whole.operands, ∀ e, x.Contains e → P e := by
  constructor
  · intro h
    exact ⟨h whole (.self whole), fun x hx e he => h e (.operand hx he)⟩
  · rintro ⟨hself, hinside⟩ e he
    cases he with
    | self => exact hself
    | operand hx he => exact hinside _ hx e he

/-- Induction over expressions, whatever kind they are of. -/
lemma operands_induction {P : Expr → Prop} (step : ∀ e : Expr, (∀ x ∈ e.operands, P x) → P e) :
    ∀ e, P e := by
  intro e
  induction e using Program.Expr.induction with
  | input name => exact step _ (by simp [operands])
  | constant value type => exact step _ (by simp [operands])
  | binary op es type ih => exact step _ ih
  | unary op e type ih => exact step _ (by simpa [operands] using ih)

end Program.Expr

section

variable {κ : Type} {model : CostModel κ} {m : Program.Member}

/-- Only comparisons become truth values. -/
lemma lower_comparison {e : Program.Expr} {top : Bool} {x : Lowered κ}
    (h : (lower model m top e).result = .ok x) : x.comparison = e.isComparison := by
  cases e with
  | input name =>
      obtain ⟨_, -, -, rfl⟩ := lower_input.mp h
      rfl
  | constant value type =>
      obtain ⟨-, rfl⟩ := lower_constant.mp h
      rfl
  | binary op es type =>
      obtain ⟨-, -, -, -, cost, -, xs, -, hjoin⟩ := lower_binary.mp h
      cases hjoin with
      | associative hop => exact (isComparison_of_associative hop).symm
      | binary hop => rfl
  | unary op e type =>
      obtain ⟨-, -, cost, -, y, -, rfl⟩ := lower_unary.mp h
      rfl

end

section

variable {manifest : Manifest} {table : TimingTable} {m : Program.Member}

/-- The operands of a binary operation can be joined if there are as many as it takes. -/
lemma exists_joins {model : CostModel Cycles} {op : BinaryOp} {type : BitType} {cost : Cycles}
    {xs : List (Lowered Cycles)} (h : op.isAssociative = false → xs.length = 2) :
    ∃ x, Joins model op type cost xs x := by
  cases hop : op.isAssociative with
  | true => exact ⟨_, .associative hop⟩
  | false =>
      obtain ⟨l, r, rfl⟩ := List.length_eq_two.mp (h hop)
      exact ⟨_, .binary hop⟩

/-- **One step of lowering.** -/
theorem lower_accepts_step (hinputs : ∀ i ∈ m.inputs, 0 < i.type.width) (top : Bool)
    (e : Program.Expr) :
    (∃ x, (lower (.ofTable manifest table) m top e).result = .ok x) ↔
      e.Allowed table m ∧ (e.isComparison = true → top = true) ∧
        ∀ y ∈ e.operands, ∃ x, (lower (.ofTable manifest table) m false y).result = .ok x := by
  cases e with
  | input name =>
      simp only [lower_input, Program.Expr.Allowed, Program.Expr.isComparison,
        Program.Expr.operands, Bool.false_eq_true, false_implies, List.not_mem_nil,
        implies_true, and_true]
      constructor
      · rintro ⟨x, input, hinput, -, -⟩
        exact ⟨input, Program.Member.input?_eq_some hinput⟩
      · rintro ⟨i, hi, hname⟩
        have hfound : (m.input? name).isSome := by
          rw [Program.Member.input?, List.find?_isSome]
          exact ⟨i, hi, by simpa using hname⟩
        obtain ⟨input, hinput⟩ := Option.isSome_iff_exists.mp hfound
        exact ⟨_, input, hinput, hinputs input (Program.Member.input?_eq_some hinput).1, rfl⟩
  | constant value type =>
      simp [lower_constant, Program.Expr.Allowed, Program.Expr.isComparison,
        Program.Expr.operands]
  | binary op es type =>
      have hprice := price_accepts manifest table ⟨.binary op, type.width, type.signed⟩
      simp only [lower_binary, Program.Expr.Allowed, Program.Expr.isComparison,
        Program.Expr.operands, ← exists_forall₂]
      constructor
      · rintro ⟨x, hwidth, htop, hpos, htwo, cost, hcost, xs, hxs, -⟩
        have hmeasured := (hprice.mp ⟨cost, hcost⟩).2
        exact ⟨⟨hwidth, hpos, htwo, hmeasured⟩, htop, xs, hxs⟩
      · rintro ⟨⟨hwidth, hpos, htwo, hmeasured⟩, htop, xs, hxs⟩
        obtain ⟨cost, hcost⟩ := hprice.mpr ⟨hwidth, hmeasured⟩
        have hcount : op.isAssociative = false → xs.length = 2 := fun hop =>
          hxs.length_eq ▸ htwo hop
        obtain ⟨x, hx⟩ := exists_joins hcount
        exact ⟨x, hwidth, htop, hpos, htwo, cost, hcost, xs, hxs, hx⟩
  | unary op e type =>
      have hprice := price_accepts manifest table ⟨.unary op, type.width, type.signed⟩
      simp only [lower_unary, Program.Expr.Allowed, Program.Expr.isComparison,
        Program.Expr.operands, List.mem_singleton, forall_eq]
      constructor
      · rintro ⟨x, hwidth, hneg, cost, hcost, y, hy, -⟩
        have hmeasured := (hprice.mp ⟨cost, hcost⟩).2
        exact ⟨⟨hwidth, hneg, hmeasured⟩, nofun, y, hy⟩
      · rintro ⟨⟨hwidth, hneg, hmeasured⟩, -, y, hy⟩
        obtain ⟨cost, hcost⟩ := hprice.mpr ⟨hwidth, hmeasured⟩
        exact ⟨_, hwidth, hneg, cost, hcost, y, hy, rfl⟩

/-- An operand is lowered exactly if everything in it is allowed and is no comparison. -/
lemma lower_operand_accepts (hinputs : ∀ i ∈ m.inputs, 0 < i.type.width) (e : Program.Expr) :
    (∃ x, (lower (.ofTable manifest table) m false e).result = .ok x) ↔
      ∀ p, e.Contains p → p.Allowed table m ∧ p.isComparison = false := by
  induction e using Program.Expr.operands_induction with
  | step e ih =>
      rw [lower_accepts_step hinputs, Program.Expr.forall_contains]
      constructor
      · rintro ⟨hallowed, htop, hall⟩
        have hnone : e.isComparison = false := by simpa using htop
        exact ⟨⟨hallowed, hnone⟩, fun x hx => (ih x hx).mp (hall x hx)⟩
      · rintro ⟨⟨hallowed, hnone⟩, hall⟩
        have htop : e.isComparison = true → false = true := by simp [hnone]
        exact ⟨hallowed, htop, fun x hx => (ih x hx).mpr (hall x hx)⟩

/-- **Which bodies are lowered.** -/
theorem lower_body_accepts (hinputs : ∀ i ∈ m.inputs, 0 < i.type.width) (e : Program.Expr) :
    (∃ x, (lower (.ofTable manifest table) m true e).result = .ok x) ↔
      (∀ p, e.Contains p → p.Allowed table m) ∧
        ∀ x ∈ e.operands, ∀ p, x.Contains p → p.isComparison = false := by
  rw [lower_accepts_step hinputs, Program.Expr.forall_contains]
  constructor
  · rintro ⟨hallowed, -, hall⟩
    have hoperands := fun x hx => (lower_operand_accepts hinputs x).mp (hall x hx)
    exact ⟨⟨hallowed, fun x hx p hp => (hoperands x hx p hp).1⟩,
      fun x hx p hp => (hoperands x hx p hp).2⟩
  · rintro ⟨⟨hallowed, hinside⟩, hnone⟩
    refine ⟨hallowed, fun _ => rfl, fun x hx => (lower_operand_accepts hinputs x).mpr ?_⟩
    exact fun p hp => ⟨hinside x hx p hp, hnone x hx p hp⟩

end

end Gateware
