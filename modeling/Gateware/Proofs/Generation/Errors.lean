import Gateware.Proofs.Generation.Inversion

/-!
# Where generation fails

An error is *local* if it is about a value or an operation inside a member.  Lowering a body and
putting an entity together fail with local errors only (`lower_failsLocally`,
`memberEntity_failsLocally`), so a member that cannot be generated has ports that clash, or a local
error (`generateMember_eq_error`).  Two kinds of errors are left to the program as a whole: entities
that clash, and a memory plan that fails after everything else went well (`generate_eq_device`).
-/

namespace Gateware

/-- Whether an error is about a value or an operation inside a member. -/
def GenerationError.isLocal : GenerationError → Bool
  | .noMembers => false
  | .nameCollision _ _ _ => false
  | .portCollision _ _ _ _ => false
  | .device _ => false
  | _ => true

/-- A computation that reports local errors only. -/
def FailsLocally {α : Type} (x : Except GenerationError α) : Prop :=
  ∀ e, x = .error e → e.isLocal = true

section

variable {α β : Type}

lemma failsLocally_ok (a : α) : FailsLocally (.ok a) := by
  intro e h
  cases h

lemma failsLocally_error {e : GenerationError} (he : e.isLocal = true) :
    FailsLocally (.error e : Except GenerationError α) := by
  intro e' h
  cases h
  exact he

lemma FailsLocally.bind {x : Except GenerationError α} {f : α → Except GenerationError β}
    (hx : FailsLocally x) (hf : ∀ a, FailsLocally (f a)) : FailsLocally (x.bind f) := by
  intro e h
  rcases bind_eq_error.mp h with h | ⟨a, -, h⟩
  · exact hx e h
  · exact hf a e h

lemma failsLocally_timing (x : Except TimingError α) : FailsLocally (x.mapError .timing) := by
  intro e h
  obtain ⟨e', -, rfl⟩ := mapError_eq_error.mp h
  rfl

end

/-! ## Bodies and entities -/

section

variable {κ : Type} {model : CostModel κ} {m : Program.Member}

lemma checkWidth_failsLocally (member : String) (type : BitType) :
    FailsLocally (checkWidth member type) := by
  unfold checkWidth
  split_ifs
  · exact failsLocally_error rfl
  · exact failsLocally_ok _

lemma checkNegation_failsLocally (member : String) (op : UnaryOp) (type : BitType) :
    FailsLocally (checkNegation member op type) := by
  unfold checkNegation
  split_ifs
  · exact failsLocally_error rfl
  · exact failsLocally_ok _

lemma checkOperands_failsLocally (member : String) (top : Bool) (op : BinaryOp) (count : Nat) :
    FailsLocally (checkOperands member top op count) := by
  unfold checkOperands
  split_ifs
  · exact failsLocally_error rfl
  · exact failsLocally_error rfl
  · exact failsLocally_error rfl
  · exact failsLocally_ok _

lemma lowerAll_failsLocally : ∀ {es : List Program.Expr},
    (∀ e ∈ es, FailsLocally (lower model m false e).result) →
      FailsLocally (lowerAll model m es).result
  | [], _ => failsLocally_ok _
  | e :: es, h => by
      rw [lowerAll, Traced.result_bind]
      refine (h e List.mem_cons_self).bind fun x => ?_
      rw [Traced.result_bind]
      refine (lowerAll_failsLocally fun y hy => h y (List.mem_cons_of_mem e hy)).bind fun xs => ?_
      exact failsLocally_ok _

lemma lower_failsLocally (e : Program.Expr) : ∀ top : Bool,
    FailsLocally (lower model m top e).result := by
  induction e using Program.Expr.induction with
  | input name =>
      intro top
      rw [lower]
      cases m.input? name with
      | none => exact failsLocally_error rfl
      | some input =>
          rw [Traced.result_bind]
          exact (checkWidth_failsLocally _ _).bind fun _ => failsLocally_ok _
  | constant value type =>
      intro top
      rw [lower, Traced.result_bind]
      exact (checkWidth_failsLocally _ _).bind fun _ => failsLocally_ok _
  | unary op operand type ih =>
      intro top
      simp only [lower, Traced.result_bind, Traced.result_ofExcept, Traced.result_mapError]
      refine (checkWidth_failsLocally _ _).bind fun _ => ?_
      refine (checkNegation_failsLocally _ _ _).bind fun _ => ?_
      refine (failsLocally_timing _).bind fun cost => ?_
      exact (ih false).bind fun _ => failsLocally_ok _
  | binary op operands type ih =>
      intro top
      simp only [lower, Traced.result_bind, Traced.result_ofExcept, Traced.result_mapError]
      refine (checkWidth_failsLocally _ _).bind fun _ => ?_
      refine (checkOperands_failsLocally _ _ _ _).bind fun _ => ?_
      refine (failsLocally_timing _).bind fun cost => ?_
      refine (lowerAll_failsLocally fun e he => ih e he false).bind fun xs => ?_
      split_ifs
      · exact failsLocally_ok _
      · split
        · exact failsLocally_ok _
        · exact failsLocally_error rfl

lemma inputPorts_failsLocally (member : String) : ∀ inputs : List Program.Input,
    FailsLocally (inputPorts member inputs)
  | [] => failsLocally_ok _
  | input :: rest => by
      simp only [inputPorts, inputPort, except_bind]
      refine ((checkWidth_failsLocally _ _).bind fun _ => failsLocally_ok _).bind fun _ => ?_
      exact (inputPorts_failsLocally member rest).bind fun _ => failsLocally_ok _

lemma resultStatement_failsLocally (body : Lowered κ) :
    FailsLocally (resultStatement m body) := by
  unfold resultStatement
  split_ifs
  · exact failsLocally_error rfl
  · exact failsLocally_ok _
  · exact failsLocally_ok _

lemma memberEntity_failsLocally (name : String) (body : Lowered κ) (wait : Nat) :
    FailsLocally (memberEntity name m body wait) := by
  simp only [memberEntity, except_bind]
  refine (inputPorts_failsLocally _ _).bind fun _ => ?_
  refine (checkWidth_failsLocally _ _).bind fun _ => ?_
  exact (resultStatement_failsLocally body).bind fun _ => failsLocally_ok _

end

/-! ## Members and programs -/

section

variable {model : CostModel Cycles} {top : String} {e : GenerationError}

/-- A member whose ports do not clash fails locally. -/
lemma generateMember_eq_error {m : Program.Member} {name : String}
    (h : (generateMember model name m).result = .error e) :
    checkPorts m = .error e ∨ e.isLocal = true := by
  simp only [generateMember, Traced.result_bind, Traced.result_ofExcept, Traced.result_note,
    Traced.result_pure] at h
  rcases bind_eq_error.mp h with hports | ⟨-, -, h⟩
  · exact .inl hports
  · refine .inr (FailsLocally.bind (lower_failsLocally m.body true) (fun body => ?_) e h)
    exact (failsLocally_ok ()).bind fun _ =>
      (memberEntity_failsLocally name body _).bind fun _ => failsLocally_ok _

/-- No member has to do with the device. -/
lemma generateMembers_ne_device {error : DeviceError} : ∀ (members : List Program.Member)
    (owners : List (String × String)),
    (generateMembers model top owners members).result ≠ .error (.device error)
  | [], owners => by simp [generateMembers]
  | m :: rest, owners => by
      intro h
      rw [generateMembers_cons] at h
      split at h
      · cases h
      · rcases bind_eq_error.mp h with hm | ⟨g, -, hothers⟩
        · rcases generateMember_eq_error hm with hports | hlocal
          · obtain ⟨a, b, heq, -, -⟩ := checkPorts_eq_error hports
            cases heq
          · cases hlocal
        · rcases bind_eq_error.mp hothers with hrest | ⟨gs, -, hok⟩
          · exact generateMembers_ne_device rest _ hrest
          · cases hok

end

/-- An error about the device is one of planning its memory for the largest member, after all
members were generated. -/
lemma generate_eq_device {memory : MemorySettings} {c : Context} {error : DeviceError}
    (h : (c.generate memory).result = .error (.device error)) :
    c.program.members ≠ [] ∧ ∃ table gs, List.Forall₂
        (fun m g => (generateMember (c.costModel table) (entityName c.request.top m.name)
          m).result = .ok g) c.program.members gs ∧
      memory.plan (largestCells gs) c.device.manifest = .error error := by
  rw [generate_result] at h
  split_ifs at h with hempty
  · cases h
  · rcases bind_eq_error.mp h with htable | ⟨table, -, h⟩
    · obtain ⟨_, -, heq⟩ := mapError_eq_error.mp htable
      cases heq
    · rcases bind_eq_error.mp h with hmembers | ⟨gs, hgs, h⟩
      · exact absurd hmembers (generateMembers_ne_device _ _)
      · rcases bind_eq_error.mp h with hlayout | ⟨layout, -, h⟩
        · obtain ⟨e, hplan, heq⟩ := mapError_eq_error.mp hlayout
          cases heq
          refine ⟨by simpa using hempty, table, gs, ?_, hplan⟩
          exact ((generateMembers_eq_ok _ _ _).mp hgs).2
        · cases h

end Gateware
