import Gateware.Json.Record
import Mathlib.Data.List.Perm.Basic
import Mathlib.Data.List.Forall2
import Mathlib.Tactic.Common

/-!
# Reading what writes a record

In an object the fields of a record stand in any order, with unknown ones among them, and some may
be left out.  `Json.record` finds the values and shows which are left out (`record_object`).  A
record with all of its fields can be written in more ways (`Writes`), also as the array of its
values, and `Json.record` finds the same values in all of them (`Writes.record`).

A value in which containers are nested within a limit has its parts nested within a limit smaller by
one, so that a reader that counts down never stops too early.
-/

namespace Gateware.Json

/-! ## Nesting -/

lemma readableWithin_iff {depth : Nat} {j : Json} :
    j.readableWithin depth = true ↔ ∃ n, j.nesting = some n ∧ n ≤ depth := by
  rw [readableWithin]
  cases j.nesting with
  | none => simp
  | some n => simp

lemma readableWithin_mono {d depth : Nat} (hle : d ≤ depth) {j : Json}
    (h : j.readableWithin d = true) : j.readableWithin depth = true := by
  obtain ⟨n, hn, hnd⟩ := readableWithin_iff.mp h
  exact readableWithin_iff.mpr ⟨n, hn, Nat.le_trans hnd hle⟩

lemma nestingItems_iff {depth : Nat} {js : List Json} :
    (∃ n, nestingItems js = some n ∧ n ≤ depth) ↔ ∀ j ∈ js, j.readableWithin depth = true := by
  induction js with
  | nil => simp [nestingItems]
  | cons j js ih =>
      rw [List.forall_mem_cons, ← ih, readableWithin_iff, nestingItems]
      cases j.nesting with
      | none => simp
      | some n =>
          cases nestingItems js with
          | none => simp
          | some m =>
              simp only [Option.bind_eq_bind, Option.bind_some, Option.some.injEq, exists_eq_left',
                Nat.max_le]

lemma nestingFields_eq (fs : List (String × Json)) :
    nestingFields fs = nestingItems (fs.map Prod.snd) := by
  induction fs with
  | nil => rfl
  | cons f fs ih => rw [nestingFields, ih, List.map_cons, nestingItems]

lemma readableWithin_array {depth : Nat} {js : List Json} :
    (array js).readableWithin depth = true ↔
      ∃ d, depth = d + 1 ∧ ∀ j ∈ js, j.readableWithin d = true := by
  rw [readableWithin_iff]
  simp only [← nestingItems_iff, nesting, Option.map_eq_some_iff]
  constructor
  · rintro ⟨_, ⟨n, hn, rfl⟩, hle⟩
    exact ⟨depth - 1, by omega, n, hn, by omega⟩
  · rintro ⟨d, rfl, n, hn, hle⟩
    exact ⟨n + 1, ⟨n, hn, rfl⟩, by omega⟩

lemma readableWithin_object {depth : Nat} {fs : List (String × Json)} :
    (object fs).readableWithin depth = true ↔
      ∃ d, depth = d + 1 ∧ ∀ f ∈ fs, f.2.readableWithin d = true := by
  have harray : (object fs).nesting = (array (fs.map Prod.snd)).nesting := by
    rw [nesting, nesting, nestingFields_eq]
  rw [readableWithin_iff, harray, ← readableWithin_iff, readableWithin_array]
  simp only [List.forall_mem_map]

/-! ## Fields -/

/-- The fields that are there, where some may be left out. -/
def present (fields : List (String × Option Json)) : List (String × Json) :=
  fields.filterMap fun f => f.2.map fun j => (f.1, j)

section

variable {fields : List (String × Option Json)} {all extra : List (String × Json)}

lemma key_of_mem_present {g : String × Json} (hg : g ∈ present fields) :
    g.1 ∈ fields.map Prod.fst := by
  obtain ⟨f, hf, heq⟩ := List.mem_filterMap.mp hg
  obtain ⟨j, -, rfl⟩ := Option.map_eq_some_iff.mp heq
  exact List.mem_map_of_mem hf

lemma present_cons (f : String × Option Json) (fields : List (String × Option Json)) :
    present (f :: fields) = (f.2.map fun j => (f.1, j)).toList ++ present fields := by
  obtain ⟨key, field⟩ := f
  cases field with
  | none => simp [present]
  | some j => simp [present]

lemma present_map_some (fields : List (String × Json)) :
    present (fields.map fun f => (f.1, some f.2)) = fields := by
  induction fields with
  | nil => rfl
  | cons f fields ih =>
      rw [List.map_cons, present_cons, ih]
      rfl

lemma filter_present (hnodup : (fields.map Prod.fst).Nodup) {f : String × Option Json}
    (hf : f ∈ fields) :
    (present fields).filter (·.1 == f.1) = (f.2.map fun j => (f.1, j)).toList := by
  induction fields with
  | nil => cases hf
  | cons g fields ih =>
      rw [List.map_cons, List.nodup_cons] at hnodup
      rw [present_cons, List.filter_append]
      rcases List.mem_cons.mp hf with rfl | hf
      · have hnone : (present fields).filter (·.1 == f.1) = [] := by
          rw [List.filter_eq_nil_iff]
          intro h hh heq
          rw [beq_iff_eq] at heq
          exact hnodup.1 (heq ▸ key_of_mem_present hh)
        rw [hnone, List.append_nil]
        cases f.2 with
        | none => rfl
        | some j => simp
      · have hne : g.1 ≠ f.1 := fun heq => hnodup.1 (heq ▸ List.mem_map_of_mem hf)
        rw [ih hnodup.2 hf]
        cases g.2 with
        | none => rfl
        | some j => simp [hne]

/-- A known field stands in an object once, or not at all if it is left out. -/
lemma filter_of_perm (hnodup : (fields.map Prod.fst).Nodup)
    (hperm : all.Perm (present fields ++ extra))
    (hextra : ∀ f ∈ extra, f.1 ∉ fields.map Prod.fst) {f : String × Option Json} (hf : f ∈ fields) :
    all.filter (·.1 == f.1) = (f.2.map fun j => (f.1, j)).toList := by
  have hnone : extra.filter (·.1 == f.1) = [] := by
    rw [List.filter_eq_nil_iff]
    intro g hg heq
    rw [beq_iff_eq] at heq
    exact hextra g hg (heq ▸ List.mem_map_of_mem hf)
  have hfilter := hperm.filter (·.1 == f.1)
  rw [List.filter_append, hnone, List.append_nil, filter_present hnodup hf] at hfilter
  generalize f.2 = field at hfilter ⊢
  cases field with
  | none => exact List.perm_nil.mp hfilter
  | some j => exact List.perm_singleton.mp hfilter

lemma lookup_of_filter {key : String} {field : Option Json}
    (h : all.filter (·.1 == key) = (field.map fun j => (key, j)).toList) :
    all.lookup key = field := by
  induction all with
  | nil =>
      cases field with
      | none => rfl
      | some j => cases h
  | cons f all ih =>
      rw [List.filter_cons] at h
      rw [List.lookup_cons]
      by_cases hkey : f.1 = key
      · rw [if_pos (by simpa using hkey)] at h
        cases field with
        | none => cases h
        | some j => rw [(List.cons.inj h).1, beq_self_eq_true]
      · rw [if_neg (by simpa using hkey)] at h
        rw [beq_false_of_ne (Ne.symm hkey)]
        exact ih h

/-- The fields of a record are found in an object, and it shows which of them are left out. -/
lemma record_object (hnodup : (fields.map Prod.fst).Nodup)
    (hperm : all.Perm (present fields ++ extra))
    (hextra : ∀ f ∈ extra, f.1 ∉ fields.map Prod.fst) (depth : Nat) :
    (object all).record (fields.map Prod.fst) (depth + 1) =
      some (depth, fields.map Prod.snd) := by
  have hfound := fun f (hf : f ∈ fields) => filter_of_perm hnodup hperm hextra hf
  rw [record, if_pos, List.map_map]
  · congr 2
    exact List.map_congr_left fun f hf => lookup_of_filter (hfound f hf)
  · rw [List.all_map, List.all_eq_true]
    intro f hf
    show decide ((all.filter (·.1 == f.1)).length ≤ 1) = true
    rw [hfound f hf]
    cases f.2 with
    | none => rfl
    | some j => rfl

end

/-! ## Records -/

/-- A value writes the record with the given fields. -/
inductive Writes (fields : List (String × Json)) : Json → Prop
  | object {all extra : List (String × Json)} (hperm : all.Perm (fields ++ extra))
      (hextra : ∀ f ∈ extra, f.1 ∉ fields.map Prod.fst) : Writes fields (object all)
  | array : Writes fields (array (fields.map Prod.snd))

section

variable {fields all extra : List (String × Json)}

lemma map_fst_map_some (fields : List (String × Json)) :
    (fields.map fun f => (f.1, some f.2)).map Prod.fst = fields.map Prod.fst := by
  rw [List.map_map]
  rfl

/-- A known field stands in an object exactly once. -/
lemma filter_key_of_perm (hnodup : (fields.map Prod.fst).Nodup) (hperm : all.Perm (fields ++ extra))
    (hextra : ∀ f ∈ extra, f.1 ∉ fields.map Prod.fst) {f : String × Json} (hf : f ∈ fields) :
    all.filter (·.1 == f.1) = [f] := by
  rw [← map_fst_map_some] at hnodup hextra
  rw [← present_map_some fields] at hperm
  exact filter_of_perm hnodup hperm hextra (List.mem_map_of_mem hf)

/-- The values of a record are found however it is written. -/
lemma Writes.record {j : Json} (h : Writes fields j) (hnodup : (fields.map Prod.fst).Nodup)
    (depth : Nat) :
    j.record (fields.map Prod.fst) (depth + 1) = some (depth, fields.map fun f => some f.2) := by
  cases h with
  | object hperm hextra =>
      rw [← map_fst_map_some] at hnodup hextra ⊢
      rw [← present_map_some fields] at hperm
      rw [record_object hnodup hperm hextra depth, List.map_map]
      rfl
  | array =>
      rw [Json.record, if_pos (by simp)]
      congr 2
      refine List.ext_getElem (by simp) fun i _ hi => ?_
      have hlt : i < fields.length := by simpa using hi
      simp [hlt]

lemma Writes.readableWithin {j : Json} (h : Writes fields j) {depth : Nat}
    (hreadable : j.readableWithin depth = true) :
    ∃ d, depth = d + 1 ∧ ∀ f ∈ fields, f.2.readableWithin d = true := by
  cases h with
  | object hperm hextra =>
      obtain ⟨d, rfl, hall⟩ := readableWithin_object.mp hreadable
      exact ⟨d, rfl, fun f hf => hall f (hperm.mem_iff.mpr (List.mem_append_left _ hf))⟩
  | array =>
      obtain ⟨d, rfl, hall⟩ := readableWithin_array.mp hreadable
      exact ⟨d, rfl, fun f hf => hall f.2 (List.mem_map_of_mem hf)⟩

end

/-- A record may be written as the object of its fields. -/
lemma writes_object (fields : List (String × Json)) : Writes fields (object fields) :=
  .object (.of_eq (List.append_nil fields).symm) (List.forall_mem_nil _)

/-! ## Lists -/

lemma mapM_of_forall₂ {α : Type} {spells : α → Json → Prop} {read : Json → Option α} {xs : List α}
    {js : List Json} (h : List.Forall₂ spells xs js)
    (hread : ∀ x ∈ xs, ∀ j ∈ js, spells x j → read j = some x) : js.mapM read = some xs := by
  induction h with
  | nil => rfl
  | cons hx _ ih =>
      have hhead := hread _ List.mem_cons_self _ List.mem_cons_self hx
      have htail := ih fun x hx j hj =>
        hread x (List.mem_cons_of_mem _ hx) j (List.mem_cons_of_mem _ hj)
      simp [hhead, htail]

lemma items_of_forall₂ {α : Type} {spells : α → Json → Prop} {read : Nat → Json → Option α}
    {xs : List α} {js : List Json} {depth : Nat} (hreadable : (array js).readableWithin depth = true)
    (h : List.Forall₂ spells xs js)
    (hread : ∀ x ∈ xs, ∀ d j, spells x j → j.readableWithin d = true → read d j = some x) :
    items read depth (array js) = some xs := by
  obtain ⟨d, rfl, hitems⟩ := readableWithin_array.mp hreadable
  exact mapM_of_forall₂ h fun x hx j hj hspells => hread x hx d j hspells (hitems j hj)

end Gateware.Json
