import Gateware.Pipeline.Run
import Gateware.Proofs.Number.Comparison
import Mathlib.Data.List.Sort

/-!
# The order in which steps run

Steps are registered one at a time, and the pipeline is put in order again after each of them.  What
comes out does not depend on how often that happens: there is exactly one list of the accepted steps
in which priorities descend and steps of equal priority are in the order of registration
(`Prioritized`, `prioritized_iff`), and putting steps in order always ends there.

`Prioritized` speaks about ties through filters: the items of one priority, picked out of the
ordered list, are those items in the order in which they came.  That determines the list even where
items are equal.
-/

namespace Gateware

variable {α : Type} {priority : α → Float} {items ordered : List α}

/-- A list has the given items in descending order of priority, and items of equal priority in the
order in which they came. -/
structure Prioritized (priority : α → Float) (items ordered : List α) : Prop where
  perm : ordered.Perm items
  descending : ordered.Pairwise fun a b => priority b ≤ priority a
  ties (x : Float) : ordered.filter (priority · == x) = items.filter (priority · == x)

/-! ## Putting items in order -/

/-- Whether one item may come before another. -/
def Precedes (priority : α → Float) (a b : α) : Prop := place (priority b) ≤ place (priority a)

instance : DecidableRel (Precedes priority) := fun a b =>
  inferInstanceAs (Decidable (place (priority b) ≤ place (priority a)))

instance : Std.Total (Precedes priority) := ⟨fun _ b => le_total (place (priority b)) _⟩

instance : IsTrans α (Precedes priority) := ⟨fun _ _ _ hab hbc => le_trans hbc hab⟩

lemma insertByPriority_eq {item : α} (hitem : (priority item).isNaN = false) :
    ∀ {rest : List α}, (∀ a ∈ rest, (priority a).isNaN = false) →
      insertByPriority priority item rest = rest.orderedInsert (Precedes priority) item
  | [], _ => rfl
  | other :: rest, hrest => by
      have hother := hrest other List.mem_cons_self
      have ih := insertByPriority_eq hitem fun a ha => hrest a (List.mem_cons_of_mem other ha)
      have hprecedes : Precedes priority item other ↔ ¬ priority item < priority other := by
        rw [lt_iff_place hitem hother, not_lt, Precedes]
      rw [insertByPriority, List.orderedInsert, ih]
      by_cases hlt : priority item < priority other
      · rw [if_pos hlt, if_neg (by simpa [hprecedes] using hlt)]
      · rw [if_neg hlt, if_pos (hprecedes.mpr hlt)]

/-- Items with numbers as priorities are sorted by them. -/
lemma orderByPriority_eq (h : ∀ a ∈ items, (priority a).isNaN = false) :
    orderByPriority priority items = items.insertionSort (Precedes priority) := by
  induction items with
  | nil => rfl
  | cons item rest ih =>
      have hrest : ∀ a ∈ rest, (priority a).isNaN = false := fun a ha =>
        h a (List.mem_cons_of_mem item ha)
      have hsorted : ∀ a ∈ rest.insertionSort (Precedes priority), (priority a).isNaN = false :=
        fun a ha => hrest a ((List.mem_insertionSort _).mp ha)
      rw [orderByPriority, ih hrest, insertByPriority_eq (h item List.mem_cons_self) hsorted]
      rfl

/-- An item that is passed over by one of lower priority is not equal to it in priority. -/
lemma beq_eq_false_of_lt {x y z : Float} (hx : x.isNaN = false) (hy : y.isNaN = false)
    (hlt : x < y) (heq : (x == z) = true) : (y == z) = false := by
  have hz := isNaN_of_beq heq
  have hplace : place x = place z := (beq_iff_place hx hz).mp heq
  have hne : ¬ place y = place z := hplace ▸ ((lt_iff_place hx hy).mp hlt).ne'
  rw [← beq_iff_place hy hz] at hne
  simpa using hne

/-- An item is put in front of all others of its priority. -/
lemma filter_insertByPriority (x : Float) {item : α} (hitem : (priority item).isNaN = false) :
    ∀ {rest : List α}, (∀ a ∈ rest, (priority a).isNaN = false) →
      (insertByPriority priority item rest).filter (priority · == x) =
        (item :: rest).filter (priority · == x)
  | [], _ => rfl
  | other :: rest, hrest => by
      have hother := hrest other List.mem_cons_self
      have ih := filter_insertByPriority x hitem fun a ha =>
        hrest a (List.mem_cons_of_mem other ha)
      unfold insertByPriority
      split_ifs with hlt
      · rw [List.filter_cons, ih]
        by_cases heq : (priority item == x) = true
        · -- The items passed over are of higher priority, so none of them is picked out as well.
          have hne := beq_eq_false_of_lt hitem hother hlt heq
          simp [heq, hne]
        · simp [List.filter_cons, heq]
      · rfl

lemma orderByPriority_perm (h : ∀ a ∈ items, (priority a).isNaN = false) :
    (orderByPriority priority items).Perm items := by
  rw [orderByPriority_eq h]
  exact List.perm_insertionSort _ _

lemma filter_orderByPriority (x : Float) (h : ∀ a ∈ items, (priority a).isNaN = false) :
    (orderByPriority priority items).filter (priority · == x) =
      items.filter (priority · == x) := by
  induction items with
  | nil => rfl
  | cons item rest ih =>
      have hrest : ∀ a ∈ rest, (priority a).isNaN = false := fun a ha =>
        h a (List.mem_cons_of_mem item ha)
      have hordered : ∀ a ∈ orderByPriority priority rest, (priority a).isNaN = false :=
        fun a ha => hrest a ((orderByPriority_perm hrest).mem_iff.mp ha)
      rw [orderByPriority, filter_insertByPriority x (h item List.mem_cons_self) hordered,
        List.filter_cons, List.filter_cons, ih hrest]

lemma orderByPriority_prioritized (h : ∀ a ∈ items, (priority a).isNaN = false) :
    Prioritized priority items (orderByPriority priority items) := by
  have hperm := orderByPriority_perm h
  refine ⟨hperm, ?_, fun x => filter_orderByPriority x h⟩
  have hsorted : (orderByPriority priority items).Pairwise (Precedes priority) := by
    rw [orderByPriority_eq h]
    exact List.pairwise_insertionSort _ _
  refine hsorted.imp_of_mem fun ha hb hab => ?_
  exact (le_iff_place (h _ (hperm.mem_iff.mp hb)) (h _ (hperm.mem_iff.mp ha))).mpr hab

/-! ## There is only one order -/

/-- The first of items in descending order is at the place of every other order's first. -/
lemma place_le_of_mem {a b : α} {rest : List α}
    (hnumbers : ∀ c ∈ a :: rest, (priority c).isNaN = false)
    (hdescending : (a :: rest).Pairwise fun c d => priority d ≤ priority c) (hb : b ∈ a :: rest) :
    place (priority b) ≤ place (priority a) := by
  rcases List.mem_cons.mp hb with rfl | hrest
  · exact le_rfl
  · have hle := (List.pairwise_cons.mp hdescending).1 b hrest
    exact (le_iff_place (hnumbers b hb) (hnumbers a List.mem_cons_self)).mp hle

/-- Two lists of the same items in descending order, with ties in the same order, are equal. -/
lemma Prioritized.eq_of_descending : ∀ {items ordered : List α},
    (∀ a ∈ items, (priority a).isNaN = false) → Prioritized priority items ordered →
      (items.Pairwise fun a b => priority b ≤ priority a) → ordered = items
  | [], ordered, _, hordered, _ => List.perm_nil.mp hordered.perm
  | a :: as, [], _, hordered, _ => (List.nil_perm.mp hordered.perm).symm
  | a :: as, b :: bs, hnumbers, hordered, hdescending => by
      have hnumbers' : ∀ c ∈ b :: bs, (priority c).isNaN = false := fun c hc =>
        hnumbers c (hordered.perm.mem_iff.mp hc)
      have ha := hnumbers a List.mem_cons_self
      have hb := hnumbers' b List.mem_cons_self
      -- Each of the first items is in the other list, so they have the same place.
      have hplace : place (priority b) = place (priority a) := by
        apply le_antisymm
        · exact place_le_of_mem hnumbers hdescending (hordered.perm.mem_iff.mp List.mem_cons_self)
        · exact place_le_of_mem hnumbers' hordered.descending
            (hordered.perm.mem_iff.mpr List.mem_cons_self)
      have hself : (priority a == priority a) = true := (beq_iff_place ha ha).mpr rfl
      have hsame : (priority b == priority a) = true := (beq_iff_place hb ha).mpr hplace
      -- So both are the first item of that priority.
      have hfirst := hordered.ties (priority a)
      simp only [List.filter_cons, hsame, hself, if_true] at hfirst
      obtain rfl : b = a := (List.cons.inj hfirst).1
      have hrest : Prioritized priority as bs := by
        refine ⟨hordered.perm.cons_inv, hordered.descending.of_cons, fun x => ?_⟩
        have hties := hordered.ties x
        by_cases hx : (priority b == x) = true
        · simp only [List.filter_cons, hx, if_true] at hties
          exact (List.cons.inj hties).2
        · simpa [hx] using hties
      rw [hrest.eq_of_descending (fun c hc => hnumbers c (List.mem_cons_of_mem b hc))
        hdescending.of_cons]

/-- **There is exactly one order by priority**, and items are put into it. -/
theorem prioritized_iff (h : ∀ a ∈ items, (priority a).isNaN = false) :
    Prioritized priority items ordered ↔ ordered = orderByPriority priority items := by
  have hput := orderByPriority_prioritized h
  constructor
  · intro hordered
    have hagain : Prioritized priority (orderByPriority priority items) ordered :=
      ⟨hordered.perm.trans hput.perm.symm, hordered.descending, fun x => by
        rw [hordered.ties x, hput.ties x]⟩
    exact hagain.eq_of_descending (fun a ha => h a (hput.perm.mem_iff.mp ha)) hput.descending
  · rintro rfl
    exact hput

/-- Items that are put in order before others are added end up where they would have anyway. -/
lemma orderByPriority_append {more : List α}
    (h : ∀ a ∈ items ++ more, (priority a).isNaN = false) :
    orderByPriority priority (orderByPriority priority items ++ more) =
      orderByPriority priority (items ++ more) := by
  have hput : Prioritized priority items _ := orderByPriority_prioritized fun a ha =>
    h a (List.mem_append_left more ha)
  have hperm : (orderByPriority priority items ++ more).Perm (items ++ more) :=
    hput.perm.append_right more
  have hboth : Prioritized priority (orderByPriority priority items ++ more) _ :=
    orderByPriority_prioritized fun a ha => h a (hperm.mem_iff.mp ha)
  apply (prioritized_iff h).mp
  refine ⟨hboth.perm.trans hperm, hboth.descending, fun x => ?_⟩
  rw [hboth.ties x, List.filter_append, List.filter_append, hput.ties x]

/-! ## Registering steps -/

namespace Pipeline

variable {ρ σ ε : Type}

/-- Registers a step: the pipeline that is there afterwards, and the answer. -/
def offer (p : Pipeline ρ σ ε) (step : Step ρ σ ε) :
    Pipeline ρ σ ε × Except (PipelineError ε) Unit :=
  match p.register step with
  | .ok changed => (changed, .ok ())
  | .error e => (p, .error e)

/-- Registers steps one after the other, whatever the answers. -/
def offerAll (p : Pipeline ρ σ ε) : List (Step ρ σ ε) →
    Pipeline ρ σ ε × List (Except (PipelineError ε) Unit)
  | [] => (p, [])
  | step :: rest =>
    let (p, answer) := p.offer step
    let (p, answers) := p.offerAll rest
    (p, answer :: answers)

/-- The steps among some that can be put in order. -/
def orderable (steps : List (Step ρ σ ε)) : List (Step ρ σ ε) :=
  steps.filter fun step => !step.priority.isNaN

/-- The answer to the registration of a step. -/
def answer (step : Step ρ σ ε) : Except (PipelineError ε) Unit :=
  if step.priority.isNaN then .error (.invalidPriority step.name step.priority) else .ok ()

lemma offer_eq (p : Pipeline ρ σ ε) (step : Step ρ σ ε) :
    p.offer step =
      if step.priority.isNaN then (p, answer step)
      else
        ({ p with steps := orderByPriority Step.priority (p.steps ++ [step]) }, answer step) := by
  unfold offer register answer
  split_ifs with h
  · rfl
  · rfl

/-- What a pipeline is after registrations, if it was in order before. -/
lemma offerAll_eq : ∀ (steps settled : List (Step ρ σ ε)) {p : Pipeline ρ σ ε},
    (∀ step ∈ settled, step.priority.isNaN = false) →
      p.steps = orderByPriority Step.priority settled →
        p.offerAll steps =
          ({ p with steps := orderByPriority Step.priority (settled ++ orderable steps) },
            steps.map answer)
  | [], settled, p, _, hp => by
      simp [offerAll, orderable, ← hp]
  | step :: rest, settled, p, hsettled, hp => by
      rw [offerAll, offer_eq]
      by_cases hnan : step.priority.isNaN = true
      · have horderable : orderable (step :: rest) = orderable rest := by
          simp only [orderable, List.filter_cons, hnan, Bool.not_true, Bool.false_eq_true, if_false]
        rw [if_pos hnan, horderable, List.map_cons]
        simp only [offerAll_eq rest settled hsettled hp]
      · have hnumber : step.priority.isNaN = false := by simpa using hnan
        have horderable : orderable (step :: rest) = step :: orderable rest := by
          simp only [orderable, List.filter_cons, hnumber, Bool.not_false, if_true]
        have hmore : ∀ s ∈ settled ++ [step], s.priority.isNaN = false :=
          List.forall_mem_append.mpr ⟨hsettled, List.forall_mem_singleton.mpr hnumber⟩
        have hsteps : orderByPriority Step.priority (p.steps ++ [step]) =
            orderByPriority Step.priority (settled ++ [step]) := by
          rw [hp, orderByPriority_append hmore]
        have ih := offerAll_eq rest (settled ++ [step]) (p := ⟨_, p.policy⟩) hmore hsteps
        rw [if_neg hnan, horderable, List.map_cons]
        simp only [ih, List.append_assoc, List.singleton_append]

lemma isNaN_of_mem_orderable {steps : List (Step ρ σ ε)} {step : Step ρ σ ε}
    (h : step ∈ orderable steps) : step.priority.isNaN = false := by
  simpa using (List.mem_filter.mp h).2

/-- **The order of steps is settled by their registrations.**  After any registrations at a new
pipeline, the accepted steps are in the one order in which priorities descend and ties are in the
order of registration, and that is what ordering them once gives.  A step is refused exactly if
its priority is no number, and then the pipeline stays as it was. -/
theorem registration_order (policy : FailurePolicy) (steps : List (Step ρ σ ε)) :
    let reached : Pipeline ρ σ ε × _ := offerAll { policy } steps
    (∀ ordered, Prioritized Step.priority (orderable steps) ordered ↔ ordered = reached.1.steps) ∧
      reached.1.steps = orderByPriority Step.priority (orderable steps) ∧
      reached.1.order = (orderByPriority Step.priority (orderable steps)).map (·.name) ∧
      reached.1.policy = policy ∧
      reached.2 = steps.map answer ∧
      ∀ step, reached.1.offer step =
        if step.priority.isNaN then
          (reached.1, .error (.invalidPriority step.name step.priority))
        else
          ({ steps := orderByPriority Step.priority (orderable steps ++ [step]), policy },
            .ok ()) := by
  intro reached
  have hnumbers : ∀ s ∈ orderable steps, s.priority.isNaN = false := fun s hs =>
    isNaN_of_mem_orderable hs
  have hreached : reached = _ := offerAll_eq steps [] (by simp) rfl
  rw [List.nil_append] at hreached
  refine ⟨fun ordered => ?_, by rw [hreached], by rw [hreached]; rfl, by rw [hreached],
    by rw [hreached], fun step => ?_⟩
  · rw [hreached]
    exact prioritized_iff hnumbers
  · rw [offer_eq, hreached]
    unfold answer
    split_ifs with hnan
    · rfl
    · have hmore : ∀ s ∈ orderable steps ++ [step], s.priority.isNaN = false :=
        List.forall_mem_append.mpr ⟨hnumbers, by simpa using hnan⟩
      rw [orderByPriority_append hmore]

end Pipeline

end Gateware
