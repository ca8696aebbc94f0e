import Gateware.Hardware.Expr
import Mathlib.Algebra.Ring.Nat
import Mathlib.Order.Bounds.Image
import Mathlib.Data.Set.Function
import Mathlib.Data.Fin.Basic
import Mathlib.Tactic.Common

/-!
# The shape of a chain

A chain of operands `e0, e1, …, en` is one operator node for each operand but the first, with the
operand on its left and the chain of the first operand and the later ones on its right
(`chain_cons_cons`).  The operands may be expressions of any kind, also ones with the same operator,
so that nothing in the finished tree marks where the chain ends.  Everything below therefore follows
the list of operands and not the tree.

* `parts_chain` — walking through a chain meets a node and an operand in turn, and `e0` at last.
* `binaryCount_chain` and `depth_chain` — its size, and its depth by the place of each operand.
* `chain_injOn` — the operands can be told from the chain if their number is known.
-/

namespace Gateware.Hardware.Expr

section

variable (op : BinaryOp) (l r : Expr)

lemma parts_binary : (binary op l r).parts = binary op l r :: (l.parts ++ r.parts) := rfl

lemma binaryCount_binary :
    (binary op l r).binaryCount = l.binaryCount + r.binaryCount + 1 := by
  have hnode : isBinary (binary op l r) = true := rfl
  rw [binaryCount, parts_binary, List.countP_cons_of_pos hnode, List.countP_append]
  rfl

lemma depth_binary : (binary op l r).depth = max l.depth r.depth + 1 := by
  rw [depth, Nat.add_comm]

end

variable (op : BinaryOp) (first : Expr)

/-- The second operand is the outermost one, and the rest of the chain is nested in it. -/
lemma chain_cons_cons (second : Expr) (rest : List Expr) :
    chain op (first :: second :: rest) = binary op second (chain op (first :: rest)) := rfl

/-- Every operand but the first follows a node of its own, with the later operands below it. -/
lemma parts_chain (rest : List Expr) :
    (chain op (first :: rest)).parts =
      (rest.mapIdx fun i e =>
        binary op e (chain op (first :: rest.drop (i + 1))) :: e.parts).flatten ++ first.parts := by
  induction rest with
  | nil => rfl
  | cons e rest ih =>
      rw [chain_cons_cons, parts_binary, ih, List.mapIdx_cons, List.flatten_cons]
      simp only [Nat.zero_add, List.drop_succ_cons, List.drop_zero, List.cons_append,
        List.append_assoc]

lemma binaryCount_chain_cons (rest : List Expr) :
    (chain op (first :: rest)).binaryCount =
      rest.length + (first.binaryCount + (rest.map binaryCount).sum) := by
  induction rest with
  | nil => exact (Nat.zero_add _).symm
  | cons e rest ih =>
      rw [chain_cons_cons, binaryCount_binary, ih, List.length_cons, List.map_cons, List.sum_cons]
      omega

lemma binaryCount_chain (es : List Expr) :
    (chain op es).binaryCount = (es.length - 1) + (es.map binaryCount).sum := by
  cases es with
  | nil => rfl
  | cons first rest =>
      rw [binaryCount_chain_cons, List.length_cons, Nat.add_sub_cancel, List.map_cons,
        List.sum_cons]

/-- How deep a chain reaches through each of its operands: the first one is below all nodes, and
every other one below its own node and those before it. -/
def reaches (rest : List Expr) : Set ℕ :=
  insert (first.depth + rest.length)
    (Set.range fun i : Fin rest.length => (rest.get i).depth + (i + 1))

/-- One more operand is put around a chain, so that all others are one node deeper. -/
lemma reaches_cons (e : Expr) (rest : List Expr) :
    reaches first (e :: rest) = insert (e.depth + 1) ((· + 1) '' reaches first rest) := by
  ext d
  simp only [reaches, Set.mem_insert_iff, Set.mem_range, Set.mem_image, List.length_cons,
    Fin.exists_fin_succ]
  constructor
  · rintro (rfl | rfl | ⟨i, rfl⟩)
    · exact .inr ⟨_, .inl rfl, rfl⟩
    · exact .inl rfl
    · exact .inr ⟨_, .inr ⟨i, rfl⟩, rfl⟩
  · rintro (rfl | ⟨_, rfl | ⟨i, rfl⟩, rfl⟩)
    · exact .inr (.inl rfl)
    · exact .inl rfl
    · exact .inr (.inr ⟨i, rfl⟩)

lemma depth_chain (rest : List Expr) :
    IsGreatest (reaches first rest) (chain op (first :: rest)).depth := by
  induction rest with
  | nil =>
      refine ⟨.inl rfl, ?_⟩
      rintro d (rfl | ⟨i, -⟩)
      · exact le_rfl
      · exact i.elim0
  | cons e rest ih =>
      have hdeeper : Monotone fun d : ℕ => d + 1 := fun _ _ h => Nat.succ_le_succ h
      rw [reaches_cons, chain_cons_cons, depth_binary, ← Nat.add_max_add_right]
      exact (hdeeper.map_isGreatest ih).insert _

/-- Equal chains have the same innermost operand after equally many nodes. -/
lemma eq_of_chain_eq {first first' : Expr} {rest rest' : List Expr}
    (hlength : rest.length = rest'.length)
    (heq : chain op (first :: rest) = chain op (first' :: rest')) :
    first = first' ∧ rest = rest' := by
  induction rest generalizing rest' with
  | nil =>
      obtain rfl := List.length_eq_zero_iff.mp hlength.symm
      exact ⟨heq, rfl⟩
  | cons e rest ih =>
      cases rest' with
      | nil => cases hlength
      | cons e' rest' =>
          obtain ⟨-, rfl, hinner⟩ := binary.inj heq
          obtain ⟨rfl, rfl⟩ := ih (Nat.succ.inj hlength) hinner
          exact ⟨rfl, rfl⟩

lemma chain_injOn (n : ℕ) : Set.InjOn (chain op) {es | es.length = n} := by
  intro es hes es' hes' heq
  have hlength : es.length = es'.length := hes.trans hes'.symm
  cases es with
  | nil => exact (List.length_eq_zero_iff.mp hlength.symm).symm
  | cons first rest =>
      cases es' with
      | nil => cases hlength
      | cons first' rest' =>
          obtain ⟨rfl, rfl⟩ := eq_of_chain_eq op (Nat.succ.inj hlength) heq
          rfl

/-- **The shape of a chain**, for operands of any form.  It is nothing without operands, the operand
itself if there is one, and otherwise the second operand beside the chain of all others.  Its parts,
its size and its depth are given by its operands, and with their number they can be told from it. -/
theorem chain_nests_operands :
    chain op [] = empty ∧
      (∀ e, chain op [e] = e) ∧
      (∀ first second rest,
        chain op (first :: second :: rest) = binary op second (chain op (first :: rest))) ∧
      (∀ first rest, (chain op (first :: rest)).parts =
        (rest.mapIdx fun i e =>
          binary op e (chain op (first :: rest.drop (i + 1))) :: e.parts).flatten ++ first.parts) ∧
      (∀ es, (chain op es).binaryCount = (es.length - 1) + (es.map binaryCount).sum) ∧
      (∀ first rest, IsGreatest (reaches first rest) (chain op (first :: rest)).depth) ∧
      ∀ n, Set.InjOn (chain op) {es | es.length = n} :=
  ⟨rfl, fun _ => rfl, fun _ _ _ => rfl, parts_chain op, binaryCount_chain op, depth_chain op,
    chain_injOn op⟩

end Gateware.Hardware.Expr
