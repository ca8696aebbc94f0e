import Gateware.Manifest
import Mathlib.Data.List.Induction
import Mathlib.Data.List.Nodup
import Mathlib.Data.List.Sort
import Mathlib.Tactic.Common

/-!
# Filling in drafts

A manifest is filled in step by step (`Draft.Step`), or it is read from JSON.  Filling in keeps the
lists tidy as it goes, while JSON has them as somebody wrote them down.  `Draft.listed` is what was
said in the steps, all of it and in order, as JSON would have it.  Both come to the same manifest,
or to the same error, because tidying up a second time changes nothing (`Draft.build_filled`).
-/

namespace Gateware

/-! ## Tidy lists -/

section

variable {items : List String} {x y : String}

lemma mem_appendNew : y ∈ appendNew items x ↔ y ∈ items ∨ y = x := by
  unfold appendNew
  split_ifs with h
  · simp only [List.contains_eq_mem, decide_eq_true_eq] at h
    constructor
    · exact .inl
    · rintro (hy | rfl)
      · exact hy
      · exact h
  · simp

lemma appendNew_of_notMem (h : x ∉ items) : appendNew items x = items ++ [x] := by
  simp [appendNew, h]

lemma appendNew_of_mem (h : x ∈ items) : appendNew items x = items := by
  simp [appendNew, h]

lemma firstOccurrences_concat (items : List String) (x : String) :
    firstOccurrences (items ++ [x]) = appendNew (firstOccurrences items) x :=
  List.foldl_concat ..

lemma mem_firstOccurrences : y ∈ firstOccurrences items ↔ y ∈ items := by
  induction items using List.reverseRecOn with
  | nil => rfl
  | append_singleton items x ih =>
      rw [firstOccurrences_concat, mem_appendNew, ih, List.mem_append, List.mem_singleton]

/-- First occurrences stand in the order in which items first occur. -/
lemma firstOccurrences_pairwise (items : List String) :
    (firstOccurrences items).Pairwise fun a b => items.idxOf a < items.idxOf b := by
  induction items using List.reverseRecOn with
  | nil => exact .nil
  | append_singleton items x ih =>
      have hkept : ∀ a ∈ firstOccurrences items, (items ++ [x]).idxOf a = items.idxOf a :=
        fun a ha => List.idxOf_append_of_mem (mem_firstOccurrences.mp ha)
      have hpairwise : (firstOccurrences items).Pairwise
          fun a b => (items ++ [x]).idxOf a < (items ++ [x]).idxOf b := by
        refine ih.imp_of_mem fun {a b} ha hb hlt => ?_
        rwa [hkept a ha, hkept b hb]
      rw [firstOccurrences_concat]
      by_cases hx : x ∈ items
      · rwa [appendNew_of_mem (mem_firstOccurrences.mpr hx)]
      · rw [appendNew_of_notMem (mt mem_firstOccurrences.mp hx), List.pairwise_append]
        refine ⟨hpairwise, List.pairwise_singleton _ _, ?_⟩
        intro a ha b hb
        rw [List.mem_singleton.mp hb, hkept a ha, List.idxOf_append_of_notMem hx]
        have hlt := List.idxOf_lt_length_iff.mpr (mem_firstOccurrences.mp ha)
        omega

lemma firstOccurrences_nodup (items : List String) : (firstOccurrences items).Nodup := by
  refine (firstOccurrences_pairwise items).imp fun {a b} hlt heq => ?_
  rw [heq] at hlt
  exact Nat.lt_irrefl _ hlt

lemma firstOccurrences_of_nodup (h : items.Nodup) : firstOccurrences items = items := by
  induction items using List.reverseRecOn with
  | nil => rfl
  | append_singleton items x ih =>
      obtain ⟨hitems, -, hdisjoint⟩ := List.nodup_append.mp h
      have hx : x ∉ items := fun hx => hdisjoint x hx x (List.mem_singleton_self x) rfl
      rw [firstOccurrences_concat, ih hitems, appendNew_of_notMem hx]

/-- The first item stays the first. -/
lemma head?_firstOccurrences (items : List String) :
    (firstOccurrences items).head? = items.head? := by
  induction items using List.reverseRecOn with
  | nil => rfl
  | append_singleton items x ih =>
      rw [firstOccurrences_concat]
      by_cases hx : x ∈ items
      · rw [appendNew_of_mem (mem_firstOccurrences.mpr hx), ih, List.head?_append,
          Option.or_of_isSome]
        simpa using List.ne_nil_of_mem hx
      · rw [appendNew_of_notMem (mt mem_firstOccurrences.mp hx), List.head?_append, ih,
          List.head?_append]

lemma mem_insertSorted : y ∈ insertSorted x items ↔ y ∈ items ∨ y = x := by
  induction items with
  | nil => simp [insertSorted]
  | cons z items ih =>
      rw [insertSorted]
      split_ifs with hbefore hsame
      · rw [List.mem_cons, or_comm]
      · rw [beq_iff_eq] at hsame
        rw [hsame, List.mem_cons]
        tauto
      · rw [List.mem_cons, ih, List.mem_cons, or_assoc]

lemma insertSorted_pairwise (h : items.Pairwise (· < ·)) :
    (insertSorted x items).Pairwise (· < ·) := by
  induction items with
  | nil => exact List.pairwise_singleton _ _
  | cons z items ih =>
      obtain ⟨hfirst, hrest⟩ := List.pairwise_cons.mp h
      rw [insertSorted]
      split_ifs with hbefore hsame
      · refine List.pairwise_cons.mpr ⟨?_, h⟩
        intro y hy
        rcases List.mem_cons.mp hy with rfl | hy
        · exact hbefore
        · exact String.lt_trans hbefore (hfirst y hy)
      · exact h
      · rw [beq_iff_eq] at hsame
        refine List.pairwise_cons.mpr ⟨?_, ih hrest⟩
        intro y hy
        rcases mem_insertSorted.mp hy with hy | rfl
        · exact hfirst y hy
        · by_contra hnot
          exact hsame (String.le_antisymm (String.not_lt.mp hnot) (String.not_lt.mp hbefore))

lemma insertSorted_of_forall_lt (h : ∀ y ∈ items, y < x) : insertSorted x items = items ++ [x] := by
  induction items with
  | nil => rfl
  | cons z items ih =>
      obtain ⟨hfirst, hrest⟩ := List.forall_mem_cons.mp h
      have hnot : ¬ x < z := fun hlt => String.lt_irrefl x (String.lt_trans hlt hfirst)
      have hne : ¬ (x == z) = true := by
        rw [beq_iff_eq]
        rintro rfl
        exact String.lt_irrefl x hfirst
      rw [insertSorted, if_neg hnot, if_neg hne, ih hrest, List.cons_append]

lemma sortedSet_concat (items : List String) (x : String) :
    sortedSet (items ++ [x]) = insertSorted x (sortedSet items) :=
  List.foldl_concat ..

lemma mem_sortedSet : y ∈ sortedSet items ↔ y ∈ items := by
  induction items using List.reverseRecOn with
  | nil => rfl
  | append_singleton items x ih =>
      rw [sortedSet_concat, mem_insertSorted, ih, List.mem_append, List.mem_singleton]

lemma sortedSet_pairwise (items : List String) : (sortedSet items).Pairwise (· < ·) := by
  induction items using List.reverseRecOn with
  | nil => exact .nil
  | append_singleton items x ih =>
      rw [sortedSet_concat]
      exact insertSorted_pairwise ih

/-- Sorted sets depend on nothing but what is in them. -/
lemma sortedSet_congr {others : List String} (h : ∀ y, y ∈ items ↔ y ∈ others) :
    sortedSet items = sortedSet others := by
  have hnodup : ∀ items : List String, (sortedSet items).Nodup := fun items =>
    (sortedSet_pairwise items).imp fun {a b} hlt heq => by
      rw [heq] at hlt
      exact String.lt_irrefl b hlt
  have hperm : (sortedSet items).Perm (sortedSet others) := by
    rw [List.perm_ext_iff_of_nodup (hnodup items) (hnodup others)]
    intro y
    rw [mem_sortedSet, mem_sortedSet, h]
  refine hperm.eq_of_pairwise ?_ (sortedSet_pairwise items) (sortedSet_pairwise others)
  intro a b _ _ hab hba
  exact absurd (String.lt_trans hab hba) (String.lt_irrefl a)

lemma sortedSet_of_pairwise (h : items.Pairwise (· < ·)) : sortedSet items = items := by
  induction items using List.reverseRecOn with
  | nil => rfl
  | append_singleton items x ih =>
      obtain ⟨hitems, -, hlast⟩ := List.pairwise_append.mp h
      rw [sortedSet_concat, ih hitems, insertSorted_of_forall_lt]
      exact fun y hy => hlast y hy x (List.mem_singleton_self x)

end

/-! ## Steps -/

namespace Draft

/-- One step in filling in a draft. -/
inductive Step where
  | family (text : String)
  | toolChain (text : String)
  | clock (hz : UInt64)
  | memory (bytes : UInt64)
  | channel (name : String)
  | platform (name : String)

/-- Takes a step. -/
def fill (d : Draft) : Step → Draft
  | .family text => { d with family := text }
  | .toolChain text => { d with toolChain := text }
  | .clock hz => { d with clock := ⟨hz.toNat⟩ }
  | .memory bytes => { d with memory := bytes.toNat }
  | .channel name => d.addChannel name
  | .platform name => d.addPlatform name

/-- The draft of a device after any number of steps. -/
def filled (name : String) (steps : List Step) : Draft := steps.foldl fill { name := name }

namespace Step

/-- The family that a step gives. -/
def family? : Step → Option String
  | family text => some text
  | _ => none

/-- The tool chain that a step gives. -/
def toolChain? : Step → Option String
  | toolChain text => some text
  | _ => none

/-- The clock that a step gives. -/
def clock? : Step → Option Nat
  | clock hz => some hz.toNat
  | _ => none

/-- The memory that a step gives. -/
def memory? : Step → Option Nat
  | memory bytes => some bytes.toNat
  | _ => none

/-- The channel that a step adds. -/
def channel? : Step → Option String
  | channel name => some name
  | _ => none

/-- The platform that a step adds. -/
def platform? : Step → Option String
  | platform name => some name
  | _ => none

end Step

/-- The last of the values that are given in steps, or another if there is none. -/
def last {α : Type} (given : Step → Option α) (otherwise : α) (steps : List Step) : α :=
  (steps.filterMap given).getLast?.getD otherwise

/-- What has been said in steps: the last word on everything that there is one of, and all channels
and platforms in order, however often. -/
def listed (name : String) (steps : List Step) : Draft where
  name := name
  family := last Step.family? "" steps
  toolChain := last Step.toolChain? "" steps
  clock := ⟨last Step.clock? 0 steps⟩
  memory := last Step.memory? 0 steps
  channels := steps.filterMap Step.channel?
  platforms := steps.filterMap Step.platform?

lemma last_cons {α : Type} (given : Step → Option α) (otherwise : α) (step : Step)
    (steps : List Step) :
    last given otherwise (step :: steps) = last given ((given step).getD otherwise) steps := by
  unfold last
  rw [List.filterMap_cons]
  cases given step with
  | none => rfl
  | some value => rw [List.getLast?_cons, Option.getD_some, Option.getD_some]

lemma foldl_fill (steps : List Step) (d : Draft) :
    steps.foldl fill d =
      { name := d.name
        family := last Step.family? d.family steps
        toolChain := last Step.toolChain? d.toolChain steps
        clock := ⟨last Step.clock? d.clock.hz steps⟩
        memory := last Step.memory? d.memory steps
        channels := (steps.filterMap Step.channel?).foldl appendNew d.channels
        platforms := (steps.filterMap Step.platform?).foldl
          (fun sorted item => insertSorted item sorted) d.platforms } := by
  induction steps generalizing d with
  | nil => rfl
  | cons step steps ih =>
      rw [List.foldl_cons, ih]
      simp only [last_cons]
      cases step with
      | family | toolChain | clock | memory | channel | platform => rfl

/-- Filling in a draft is tidying up what has been said. -/
lemma filled_eq (name : String) (steps : List Step) :
    filled name steps =
      { listed name steps with
        channels := firstOccurrences (listed name steps).channels
        platforms := sortedSet (listed name steps).platforms } :=
  foldl_fill steps { name := name }

/-! ## Building -/

/-- What a draft comes to, if it passes the checks. -/
def manifest (d : Draft) : Manifest where
  name := d.name
  family := d.family
  toolChain := d.toolChain
  clock := d.clock
  memory := d.memory
  channels := firstOccurrences d.channels
  platforms := sortedSet d.platforms

/-- What a draft has to have: a name that is not blank, a clock and memory. -/
structure Complete (d : Draft) : Prop where
  name : ∃ c ∈ d.name.toList, Text.isBlank c = false
  clock : 0 < d.clock.hz
  memory : 0 < d.memory

lemma isBlankText_eq_false {s : String} :
    Text.isBlankText s = false ↔ ∃ c ∈ s.toList, Text.isBlank c = false := by
  simp [Text.isBlankText]

lemma build_eq_ok {d : Draft} {m : Manifest} : d.build = .ok m ↔ d.Complete ∧ m = d.manifest := by
  unfold build
  split_ifs with hname hclock hmemory
  · refine ⟨fun h => (by cases h), fun h => ?_⟩
    rw [isBlankText_eq_false.mpr h.1.name] at hname
    cases hname
  · refine ⟨fun h => (by cases h), fun h => ?_⟩
    exact absurd (beq_iff_eq.mp hclock) h.1.clock.ne'
  · refine ⟨fun h => (by cases h), fun h => ?_⟩
    exact absurd (beq_iff_eq.mp hmemory) h.1.memory.ne'
  · rw [beq_iff_eq] at hclock hmemory
    rw [Bool.not_eq_true, isBlankText_eq_false] at hname
    rw [Except.ok.injEq]
    exact ⟨fun h => ⟨⟨hname, by omega, by omega⟩, h.symm⟩, fun h => h.2.symm⟩

lemma toOption_build_of_not_complete {d : Draft} (h : ¬ d.Complete) : d.build.toOption = none := by
  cases hbuild : d.build with
  | ok m => exact absurd (build_eq_ok.mp hbuild).1 h
  | error e => rfl

/-- **Filling in and listing come to the same.** -/
lemma build_filled (name : String) (steps : List Step) :
    (filled name steps).build = (listed name steps).build := by
  rw [filled_eq]
  simp only [build, firstOccurrences_of_nodup (firstOccurrences_nodup _),
    sortedSet_of_pairwise (sortedSet_pairwise _)]

/-- Nothing but the order and the repetitions of platforms may differ. -/
lemma build_congr {d : Draft} {texts : List String} (h : ∀ p, p ∈ texts ↔ p ∈ d.platforms) :
    ({ d with platforms := texts } : Draft).build = d.build := by
  simp only [build, sortedSet_congr h]

/-! ## Bounds -/

lemma last_of_forall {α : Type} {given : Step → Option α} {otherwise : α} {P : α → Prop}
    (hotherwise : P otherwise) (hgiven : ∀ step x, given step = some x → P x) (steps : List Step) :
    P (last given otherwise steps) := by
  induction steps generalizing otherwise with
  | nil => exact hotherwise
  | cons step steps ih =>
      rw [last_cons]
      apply ih
      cases hstep : given step with
      | none => exact hotherwise
      | some x => exact hgiven step x hstep

/-- Whatever the steps, clock and memory have 64 bits. -/
lemma listed_le_maxLong (name : String) (steps : List Step) :
    (listed name steps).clock.hz ≤ maxLong ∧ (listed name steps).memory ≤ maxLong := by
  constructor
  · refine last_of_forall (P := (· ≤ maxLong)) (Nat.zero_le _) ?_ steps
    rintro (_ | _ | hz | _ | _ | _) x h <;> cases h
    exact Nat.le_of_lt_succ hz.toNat_lt
  · refine last_of_forall (P := (· ≤ maxLong)) (Nat.zero_le _) ?_ steps
    rintro (_ | _ | _ | bytes | _ | _) x h <;> cases h
    exact Nat.le_of_lt_succ bytes.toNat_lt

end Draft

end Gateware
