import Gateware.Proofs.Generation.Inversion
import Gateware.Proofs.Lowering.Circuit

/-!
# The reported cost is the longest route

Lowering builds an expression with one fold over the operands, and adds up a delay with another.
This file shows that the two belong together: the delay is that of the emitted expression.

The emitted expression is looked at as the circuit of its source (`Drawn`).  Every construction of
lowering adds the same operation to the circuit and to the delay, so that they agree by induction
over the source (`lower_drawn`), whatever costs are.  With exact costs the delay of a circuit is the
total of its longest route.  For a single associative operation this says how many of its operations
each operand passes (`chainPath_isGreatest`).

The expression does not depend on the costs (`lower_reprice`), so a member whose cost was reported
in rounded numbers has the same circuit with exact ones.
-/

namespace Gateware

open Hardware (Circuit Expr)

variable {κ : Type} {model : CostModel κ}

/-! ## Circuits of lowered expressions -/

/-- A source has a circuit with the given expression and delay, and everything in it has a price. -/
def Drawn (model : CostModel κ) (e : Program.Expr) (x : Expr) (path : κ) : Prop :=
  ∃ c : Circuit, c.expr = x ∧ c.Realizes e ∧ c.delay model = path ∧ c.Priced model

section

variable {e f : Program.Expr} {x y : Expr} {path inner cost : κ} {type : BitType} {op : BinaryOp}

lemma priced_cons {routes : List (List Operation)} {op : Operation}
    (hop : (model.price op).result = .ok cost)
    (h : ∀ route ∈ routes, ∀ o ∈ route, ∃ cost, (model.price o).result = .ok cost) :
    ∀ route ∈ routes.map (op :: ·), ∀ o ∈ route, ∃ cost, (model.price o).result = .ok cost := by
  intro route hroute o ho
  obtain ⟨rest, hrest, rfl⟩ := List.mem_map.mp hroute
  rcases List.mem_cons.mp ho with rfl | ho
  · exact ⟨cost, hop⟩
  · exact h rest hrest o ho

lemma Drawn.resize (h : Drawn model e x path) (width : Nat) :
    Drawn model e (.resize x width) path := by
  obtain ⟨c, rfl, hc, hpath, hpriced⟩ := h
  exact ⟨.resize c width, rfl, .resize hc width, hpath, hpriced⟩

lemma Drawn.cast (h : Drawn model e x path) (signed : Bool) :
    Drawn model e (.cast signed x) path := by
  obtain ⟨c, rfl, hc, hpath, hpriced⟩ := h
  exact ⟨.cast signed c, rfl, .cast hc signed, hpath, hpriced⟩

/-- Conversions cost nothing. -/
lemma Drawn.convert (h : Drawn model e x path) (source target : BitType) :
    Drawn model e (convert source target x) path := by
  unfold Gateware.convert
  split_ifs
  · exact h
  · exact h.cast _
  · exact h.resize _
  · exact (h.resize _).cast _

lemma Drawn.unary {op : UnaryOp} (h : Drawn model e x path)
    (hcost : (model.price ⟨.unary op, type.width, type.signed⟩).result = .ok cost) :
    Drawn model (.unary op e type) (.unary op x) (model.add path cost) := by
  obtain ⟨c, rfl, hc, rfl, hpriced⟩ := h
  refine ⟨.unary op type c, rfl, .unary op type hc, ?_, priced_cons hcost hpriced⟩
  rw [Circuit.delay, CostModel.cost_of_ok hcost]

/-- Both circuits of a binary operation have prices, and so has the operation. -/
lemma priced_binary {l r : Circuit} (hl : l.Priced model) (hr : r.Priced model)
    (hcost : (model.price ⟨.binary op, type.width, type.signed⟩).result = .ok cost) :
    (Circuit.binary op type l r).Priced model := by
  refine priced_cons hcost fun route hroute => ?_
  rcases List.mem_append.mp hroute with hroute | hroute
  · exact hl route hroute
  · exact hr route hroute

lemma Drawn.pair (hop : op.isAssociative = false) (hx : Drawn model e x path)
    (hy : Drawn model f y inner)
    (hcost : (model.price ⟨.binary op, type.width, type.signed⟩).result = .ok cost) :
    Drawn model (.binary op [e, f] type) (.binary op x y)
      (model.add (model.later path inner) cost) := by
  obtain ⟨l, rfl, hl, rfl, hlpriced⟩ := hx
  obtain ⟨r, rfl, hr, rfl, hrpriced⟩ := hy
  refine ⟨.binary op type l r, rfl, .pair type hop hl hr, ?_, priced_binary hlpriced hrpriced hcost⟩
  rw [Circuit.delay, CostModel.cost_of_ok hcost]
  simp [hop]

/-- The second operand of an associative operation is linked to the others. -/
lemma Drawn.link {first : Program.Expr} {rest : List Program.Expr} (hop : op.isAssociative = true)
    (hx : Drawn model e x path) (hy : Drawn model (.binary op (first :: rest) type) y inner)
    (hcost : (model.price ⟨.binary op, type.width, type.signed⟩).result = .ok cost) :
    Drawn model (.binary op (first :: e :: rest) type) (link op type.width x y)
      (model.add (model.later inner path) cost) := by
  have hjoin : Drawn model (.binary op (first :: e :: rest) type) (.binary op x y)
      (model.add (model.later inner path) cost) := by
    obtain ⟨l, rfl, hl, rfl, hlpriced⟩ := hx
    obtain ⟨r, rfl, hr, rfl, hrpriced⟩ := hy
    refine ⟨.binary op type l r, rfl, .join hop hl hr, ?_, priced_binary hlpriced hrpriced hcost⟩
    rw [Circuit.delay, CostModel.cost_of_ok hcost]
    simp [hop]
  unfold Gateware.link
  split_ifs
  · exact hjoin.resize _
  · exact hjoin

/-- The expression and the delay of a chain grow together, operand by operand. -/
lemma drawn_chain {first : Lowered κ} (hop : op.isAssociative = true)
    (hcost : (model.price ⟨.binary op, type.width, type.signed⟩).result = .ok cost)
    (he : Drawn model e (first.toType type) first.path) {es : List Program.Expr}
    {rest : List (Lowered κ)}
    (hes : List.Forall₂ (fun e x => Drawn model e (x.toType type) x.path) es rest) :
    Drawn model (.binary op (e :: es) type)
      ((rest.map fun x => x.toType type).foldr (Gateware.link op type.width) (first.toType type))
      (Lowered.chainPath model cost ((first :: rest).map (·.path))) := by
  induction hes with
  | nil =>
      obtain ⟨c, hexpr, hc, hpath, hpriced⟩ := he
      exact ⟨c, hexpr, .single type hop hc, hpath, hpriced⟩
  | cons hx _ ih => exact hx.link hop ih hcost

end

/-- **The delay of a lowered expression is that of the emitted circuit**, for all costs. -/
theorem lower_drawn {m : Program.Member} (e : Program.Expr) : ∀ {top : Bool} {x : Lowered κ},
    (lower model m top e).result = .ok x → Drawn model e x.expr x.path := by
  induction e using Program.Expr.induction with
  | input name =>
      intro top x hx
      obtain ⟨input, -, -, rfl⟩ := lower_input.mp hx
      exact ⟨_, rfl, .input name, rfl, by simp [Circuit.Priced, Circuit.routes]⟩
  | constant value type =>
      intro top x hx
      obtain ⟨-, rfl⟩ := lower_constant.mp hx
      exact ⟨_, rfl, .constant value type, rfl, by simp [Circuit.Priced, Circuit.routes]⟩
  | unary op e type ih =>
      intro top x hx
      obtain ⟨-, -, cost, hcost, y, hy, rfl⟩ := lower_unary.mp hx
      exact ((ih hy).convert y.type type).unary hcost
  | binary op es type ih =>
      intro top x hx
      obtain ⟨-, -, hpos, -, cost, hcost, xs, hxs, hjoin⟩ := lower_binary.mp hx
      have hdrawn : List.Forall₂ (fun e x => Drawn model e x.expr x.path) es xs :=
        ((List.forall₂_and_left es xs).mpr ⟨ih, hxs⟩).imp fun e x h => h.1 h.2
      cases hjoin with
      | associative hop =>
          cases hdrawn with
          | nil => simp at hpos
          | cons hfirst hrest =>
              have hconverted := hrest.imp fun e x h => h.convert x.type type
              have hchain := drawn_chain hop hcost (hfirst.convert _ type) hconverted
              simpa only [Lowered.associative, List.map_cons, chainExpr_cons] using hchain
      | binary hop =>
          cases hdrawn with
          | cons hl hrest =>
              cases hrest with
              | cons hr hnil =>
                  cases hnil
                  refine (hl.convert _ type).pair hop ?_ hcost
                  split_ifs
                  · exact hr
                  · exact hr.convert _ type

/-! ## Chains -/

/-- How many operations of a chain the operand at a position passes: the first passes all of them,
and the others as many as their position says. -/
def operationsPassed (count : Nat) : (position : Nat) → Nat
  | 0 => count - 1
  | position + 1 => position + 1

/-- What the ways through a chain cost, one for each operand. -/
def chainTotals (cost : ℚ≥0) (paths : List ℚ≥0) : Set ℚ≥0 :=
  {total | ∃ position path, paths[position]? = some path ∧
    path + operationsPassed paths.length position • cost = total}

lemma chainTotals_singleton (cost first : ℚ≥0) : chainTotals cost [first] = {first} := by
  ext total
  simp only [chainTotals, List.getElem?_singleton, Set.mem_ofPred_eq, Set.mem_singleton_iff]
  constructor
  · rintro ⟨position, path, hpath, rfl⟩
    split_ifs at hpath with hzero
    simp_all [operationsPassed]
  · rintro rfl
    exact ⟨0, total, rfl, by simp [operationsPassed]⟩

/-- Another operand after the first enters at the last operation, which all others pass as well. -/
lemma chainTotals_cons_cons (cost first path : ℚ≥0) (rest : List ℚ≥0) :
    chainTotals cost (first :: path :: rest) =
      insert (path + cost) ((· + cost) '' chainTotals cost (first :: rest)) := by
  ext total
  simp only [chainTotals, Set.mem_insert_iff, Set.mem_image, Set.mem_ofPred_eq]
  constructor
  · rintro ⟨position, entry, hentry, rfl⟩
    obtain _ | _ | position := position
    · refine .inr ⟨_, ⟨0, entry, hentry, rfl⟩, ?_⟩
      rw [add_assoc, ← succ_nsmul]
      rfl
    · obtain rfl : path = entry := by simpa using hentry
      exact .inl (by simp [operationsPassed])
    · refine .inr ⟨_, ⟨position + 1, entry, hentry, rfl⟩, ?_⟩
      rw [add_assoc, ← succ_nsmul]
      rfl
  · rintro (rfl | ⟨_, ⟨position, entry, hentry, rfl⟩, rfl⟩)
    · exact ⟨1, path, rfl, by simp [operationsPassed]⟩
    · obtain _ | position := position
      · refine ⟨0, entry, hentry, ?_⟩
        rw [add_assoc, ← succ_nsmul]
        rfl
      · refine ⟨position + 2, entry, hentry, ?_⟩
        rw [add_assoc, ← succ_nsmul]
        rfl

/-- **The delay of a chain** is that of the operand for which it is greatest. -/
theorem chainPath_isGreatest (price : Operation → Traced TimingError ℚ≥0) (cost first : ℚ≥0)
    (rest : List ℚ≥0) :
    IsGreatest (chainTotals cost (first :: rest))
      (Lowered.chainPath (.exact price) cost (first :: rest)) := by
  induction rest with
  | nil =>
      rw [chainTotals_singleton]
      exact isGreatest_singleton
  | cons path rest ih =>
      have hstep : Lowered.chainPath (.exact price) cost (first :: path :: rest) =
          max (Lowered.chainPath (.exact price) cost (first :: rest)) path + cost := rfl
      have hlater : Monotone fun total : ℚ≥0 => total + cost := monotone_id.add_const cost
      rw [chainTotals_cons_cons, hstep, max_comm, ← max_add_add_right]
      exact (hlater.map_isGreatest ih).insert _

/-! ## Costs of other kinds -/

/-- Lowered expressions that differ in their delay only. -/
def Lowered.Alike {κ' : Type} (x : Lowered κ) (y : Lowered κ') : Prop :=
  x.expr = y.expr ∧ x.type = y.type

section

variable {κ' : Type} {model' : CostModel κ'}

lemma Lowered.Alike.toType {x : Lowered κ} {y : Lowered κ'} (h : x.Alike y) (t : BitType) :
    x.toType t = y.toType t := by
  rw [Lowered.toType, Lowered.toType, h.1, h.2]

lemma map_toType_alike {xs : List (Lowered κ)} {ys : List (Lowered κ')}
    (h : List.Forall₂ Lowered.Alike xs ys) (t : BitType) :
    (xs.map fun x => x.toType t) = ys.map fun y => y.toType t := by
  induction h with
  | nil => rfl
  | cons hxy _ ih => rw [List.map_cons, List.map_cons, ih, hxy.toType]

/-- Operands that differ in their delay only can be joined alike. -/
lemma Joins.alike {op : BinaryOp} {type : BitType} {cost : κ} {xs : List (Lowered κ)}
    {x : Lowered κ} (h : Joins model op type cost xs x) {ys : List (Lowered κ')}
    (hys : List.Forall₂ Lowered.Alike xs ys) (model' : CostModel κ') (cost' : κ') :
    ∃ y, Joins model' op type cost' ys y ∧ x.Alike y := by
  cases h with
  | associative hop =>
      refine ⟨_, .associative hop, ?_, rfl⟩
      rw [Lowered.associative, Lowered.associative, map_toType_alike hys]
  | binary hop =>
      cases hys with
      | cons hl hrest =>
          cases hrest with
          | cons hr hnil =>
              cases hnil
              refine ⟨_, .binary hop, ?_, rfl⟩
              rw [Lowered.binary, Lowered.binary, hl.toType, hr.toType, hr.1]

lemma alike_operands {m : Program.Member} {es : List Program.Expr} {xs : List (Lowered κ)}
    (h : List.Forall₂
      (fun e x => ∃ y, (lower model' m false e).result = .ok y ∧ x.Alike y) es xs) :
    ∃ ys, List.Forall₂ (fun e y => (lower model' m false e).result = .ok y) es ys ∧
      List.Forall₂ Lowered.Alike xs ys := by
  induction h with
  | nil => exact ⟨[], .nil, .nil⟩
  | cons hx _ ih =>
      obtain ⟨y, hy, halike⟩ := hx
      obtain ⟨ys, hys, hrest⟩ := ih
      exact ⟨y :: ys, .cons hy hys, .cons halike hrest⟩

/-- **The emitted expression does not depend on the costs**, if everything keeps having a price. -/
theorem lower_reprice {m : Program.Member}
    (hprice : ∀ op cost, (model.price op).result = .ok cost →
      ∃ cost', (model'.price op).result = .ok cost') (e : Program.Expr) :
    ∀ {top : Bool} {x : Lowered κ}, (lower model m top e).result = .ok x →
      ∃ y, (lower model' m top e).result = .ok y ∧ x.Alike y := by
  induction e using Program.Expr.induction with
  | input name =>
      intro top x hx
      obtain ⟨input, hinput, hwidth, rfl⟩ := lower_input.mp hx
      exact ⟨_, lower_input.mpr ⟨input, hinput, hwidth, rfl⟩, rfl, rfl⟩
  | constant value type =>
      intro top x hx
      obtain ⟨hwidth, rfl⟩ := lower_constant.mp hx
      exact ⟨_, lower_constant.mpr ⟨hwidth, rfl⟩, rfl, rfl⟩
  | unary op e type ih =>
      intro top x hx
      obtain ⟨hwidth, hneg, cost, hcost, y, hy, rfl⟩ := lower_unary.mp hx
      obtain ⟨cost', hcost'⟩ := hprice _ _ hcost
      obtain ⟨y', hy', halike⟩ := ih hy
      refine ⟨_, lower_unary.mpr ⟨hwidth, hneg, cost', hcost', y', hy', rfl⟩, ?_, rfl⟩
      rw [Lowered.unary, Lowered.unary, halike.toType]
  | binary op es type ih =>
      intro top x hx
      obtain ⟨hwidth, htop, hpos, htwo, cost, hcost, xs, hxs, hjoin⟩ := lower_binary.mp hx
      obtain ⟨cost', hcost'⟩ := hprice _ _ hcost
      obtain ⟨ys, hys, halike⟩ := alike_operands
        (((List.forall₂_and_left es xs).mpr ⟨ih, hxs⟩).imp fun e x h => h.1 h.2)
      obtain ⟨y, hy, hxy⟩ := hjoin.alike halike model' cost'
      exact ⟨y, lower_binary.mpr ⟨hwidth, htop, hpos, htwo, cost', hcost', ys, hys, hy⟩, hxy⟩

end

/-- The costs of a model taken for exact numbers. -/
def CostModel.reading (read : κ → ℚ≥0) (model : CostModel κ) : CostModel ℚ≥0 :=
  .exact fun op => read <$> model.price op

lemma CostModel.reading_price {read : κ → ℚ≥0} {op : Operation} {cost : κ}
    (h : (model.price op).result = .ok cost) :
    ((model.reading read).price op).result = .ok (read cost) := by
  show (model.price op >>= fun c => pure (read c)).result = _
  rw [Traced.result_bind, h]
  rfl

/-! ## The longest route -/

/-- An expression has one circuit, whether it is lowered with given costs or with the same costs
taken for exact numbers. -/
lemma lower_reading {m : Program.Member} {top : Bool} {e : Program.Expr} {body : Lowered κ}
    (hbody : (lower model m top e).result = .ok body) :
    ∃ c : Circuit, c.expr = body.expr ∧ c.Realizes e ∧ c.delay model = body.path ∧
      ∀ read : κ → ℚ≥0, ∃ x, (lower (model.reading read) m top e).result = .ok x ∧
        x.expr = body.expr ∧ c.delay (model.reading read) = x.path := by
  obtain ⟨c, hexpr, hc, hpath, -⟩ := lower_drawn e hbody
  refine ⟨c, hexpr, hc, hpath, fun read => ?_⟩
  have hprice : ∀ op cost, (model.price op).result = .ok cost →
      ∃ cost', ((model.reading read).price op).result = .ok cost' :=
    fun op cost hcost => ⟨read cost, CostModel.reading_price hcost⟩
  obtain ⟨x, hx, halike⟩ := lower_reprice hprice e hbody
  obtain ⟨d, hdexpr, hd, hdpath, -⟩ := lower_drawn e hx
  obtain rfl : d = c := hd.unique hc (by rw [hdexpr, hexpr, halike.1])
  exact ⟨x, hx, halike.1.symm, hdpath⟩

/-- **The reported cost is the longest route through what is emitted.**

With exact costs, the delay of a lowered expression is the greatest total of a route through the one
circuit that has the emitted expression and stands for the source, and all operations of that
circuit have a price.  For an associative operation it is the greatest of the delays of its
operands, each with one cost of the operation for every link of the chain that the operand passes:
all of them for the first operand, and none if there is only one.

Of every generated member the delay of its circuit is reported, with the whole cycles that cover it.
If the costs are taken for exact numbers, whatever the reading, then the same circuit is emitted,
and the delay is that of its longest route. -/
theorem cost_is_longest_route :
    (∀ (m : Program.Member) (price : Operation → Traced TimingError ℚ≥0) (top : Bool)
        (e : Program.Expr) (x : Lowered ℚ≥0), (lower (.exact price) m top e).result = .ok x →
      ∃ c : Circuit, (c.expr = x.expr ∧ c.Realizes e) ∧
        (∀ d : Circuit, d.expr = x.expr ∧ d.Realizes e → d = c) ∧ c.Priced (.exact price) ∧
        IsGreatest (Circuit.totals (CostModel.exact price).cost c.routes) x.path) ∧
    (∀ (m : Program.Member) (price : Operation → Traced TimingError ℚ≥0) (top : Bool)
        (op : BinaryOp) (es : List Program.Expr) (type : BitType) (x : Lowered ℚ≥0),
      op.isAssociative = true → (lower (.exact price) m top (.binary op es type)).result = .ok x →
      ∃ cost xs, (price ⟨.binary op, type.width, type.signed⟩).result = .ok cost ∧
        List.Forall₂ (fun e x => (lower (.exact price) m false e).result = .ok x) es xs ∧
        IsGreatest (chainTotals cost (xs.map (·.path))) x.path) ∧
    (∀ (memory : MemorySettings) (c c' : Context), (c.generate memory).result = .ok c' →
      ∃ table, TimingTable.parse c.device.report = .ok table ∧
        List.Forall₂
          (fun m cost => ∃ (body : Lowered Cycles) (circuit : Circuit),
            (lower (c.costModel table) m true m.body).result = .ok body ∧
            cost.member = m.name ∧ cost.cycles = body.path ∧ cost.wait = body.path.whole ∧
            circuit.expr = body.expr ∧ circuit.Realizes m.body ∧
            circuit.delay (c.costModel table) = cost.cycles ∧
            ∀ read : Cycles → ℚ≥0, ∃ x,
              (lower ((c.costModel table).reading read) m true m.body).result = .ok x ∧
              x.expr = body.expr ∧
              IsGreatest
                (Circuit.totals ((c.costModel table).reading read).cost circuit.routes) x.path)
          c.program.members c'.costs) := by
  refine ⟨?_, ?_, ?_⟩
  · intro m price top e x hx
    obtain ⟨c, hexpr, hc, hpath, hpriced⟩ := lower_drawn e hx
    refine ⟨c, ⟨hexpr, hc⟩, ?_, hpriced, hpath ▸ Circuit.delay_isGreatest price c⟩
    rintro d ⟨hd, hrealizes⟩
    exact hrealizes.unique hc (hd.trans hexpr.symm)
  · intro m price top op es type x hop hx
    obtain ⟨-, -, hpos, -, cost, hcost, xs, hxs, hjoin⟩ := lower_binary.mp hx
    refine ⟨cost, xs, hcost, hxs, ?_⟩
    obtain ⟨first, rest, rfl⟩ := List.exists_cons_of_length_pos (hxs.length_eq ▸ hpos)
    cases hjoin with
    | associative _ => exact chainPath_isGreatest price cost first.path _
    | binary hnot => simp [hop] at hnot
  · intro memory c c' h
    obtain ⟨-, table, htable, -, gs, hgs, layout, -, rfl⟩ := generate_eq_ok.mp h
    refine ⟨table, htable, List.forall₂_map_right_iff.mpr (hgs.imp fun m g hg => ?_)⟩
    obtain ⟨-, body, hbody, entity, -, rfl⟩ := generateMember_eq_ok.mp hg
    obtain ⟨circuit, hexpr, hrealizes, hdelay, hreading⟩ := lower_reading hbody
    refine ⟨body, circuit, hbody, rfl, rfl, rfl, hexpr, hrealizes, hdelay, fun read => ?_⟩
    obtain ⟨x, hx, hsame, hpath⟩ := hreading read
    exact ⟨x, hx, hsame, hpath ▸ Circuit.delay_isGreatest _ circuit⟩

/-- A sum of three operands of which the first and the last are operations. -/
def Program.Member.weighted : Program.Member where
  name := "Weighted"
  inputs := [⟨"a", ⟨8, false⟩⟩, ⟨"b", ⟨16, true⟩⟩]
  result := ⟨8, false⟩
  body := .binary .add
    [.unary .not (.input "a") ⟨4, false⟩, .input "b",
      .binary .mul [.input "a", .input "b"] ⟨16, true⟩] ⟨8, false⟩

/-- If operations cost their width, the last operand decides: a product at 16 bits, and two
additions at 8 bits. -/
theorem cost_is_longest_route_weighted :
    (∃ x, (lower (.exact fun op => pure op.width) .weighted true
        Program.Member.weighted.body).result = .ok x ∧ x.path = 32 ∧
      (∃ c : Circuit, c.expr = x.expr ∧ c.Realizes Program.Member.weighted.body ∧
        IsGreatest
          (Circuit.totals (CostModel.exact fun op => pure op.width).cost c.routes) 32) ∧
      IsGreatest (chainTotals 8 [4, 0, 16]) 32) ∧
    ∃ c', (Context.sample.generate {}).result = .ok c' ∧
      ∃ table, TimingTable.parse Context.sample.device.report = .ok table ∧
        List.Forall₂
          (fun m cost => cost.member = m.name ∧ ∃ circuit : Circuit, circuit.Realizes m.body ∧
            cost.wait = (circuit.delay (Context.sample.costModel table)).whole)
          Context.sample.program.members c'.costs := by
  constructor
  · obtain ⟨x, hx, hpath⟩ : ∃ x, (lower (.exact fun op => pure op.width) .weighted true
        Program.Member.weighted.body).result = .ok x ∧ x.path = 32 := ⟨_, rfl, by decide +kernel⟩
    obtain ⟨c, ⟨hexpr, hc⟩, -, -, hlongest⟩ := cost_is_longest_route.1 _ _ _ _ _ hx
    obtain ⟨cost, xs, hcost, hxs, hchain⟩ := cost_is_longest_route.2.1 _ _ _ _ _ _ _ rfl hx
    rw [hpath] at hlongest hchain
    refine ⟨x, hx, hpath, ⟨c, hexpr, hc, hlongest⟩, ?_⟩
    rcases hxs with _ | ⟨hfirst, _ | ⟨hmiddle, _ | ⟨hlast, _ | _⟩⟩⟩
    obtain rfl := Except.ok.inj hcost
    obtain rfl := Except.ok.inj hfirst
    obtain rfl := Except.ok.inj hmiddle
    obtain rfl := Except.ok.inj hlast
    simpa [Lowered.associative, Lowered.unary, Lowered.chainPath, CostModel.exact] using hchain
  · obtain ⟨c', hc'⟩ := exists_generate_sample
    obtain ⟨table, htable, hcosts⟩ := cost_is_longest_route.2.2 {} Context.sample c' hc'
    refine ⟨c', hc', table, htable, hcosts.imp fun m cost h => ?_⟩
    obtain ⟨body, circuit, -, hname, hcycles, hwait, -, hrealizes, hdelay, -⟩ := h
    exact ⟨hname, circuit, hrealizes, by rw [hdelay, hcycles, hwait]⟩

end Gateware
