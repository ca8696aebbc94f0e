import Gateware.Proofs.Generation.Acceptance
import Mathlib.Data.List.Perm.Basic

/-!
# Members are generated apart

Generation carries a good deal along while it works through the members of a program: the names that
are taken, the texts and costs so far, the largest number of cells.  Still each member becomes what
it becomes by itself (`Program.Member.hardware`), as a function of the member, the top name and the
device.  By `generate_eq_described` a program has a description exactly if its entities have
different names, all its members become hardware, and the largest fits.

Each of these conditions can be checked on two parts of a program, apart from names that both parts
use, and does not depend on the order of the members.
-/

namespace Gateware

/-! ## One member at a time -/

/-- What a member becomes on a device. -/
def Program.Member.hardware (device : Device) (top : String) (m : Program.Member) :
    Except GenerationError GeneratedMember :=
  ((TimingTable.parse device.report).mapError .timing).bind fun table =>
    (generateMember (.ofTable device.manifest table) (entityName top m.name) m).result

/-- The context with other members. -/
def Context.withMembers (c : Context) (members : List Program.Member) : Context :=
  { c with program := { c.program with members } }

section

variable (c : Context) (members : List Program.Member)

@[simp]
lemma withMembers_members : (c.withMembers members).program.members = members := rfl

@[simp]
lemma withMembers_request : (c.withMembers members).request = c.request := rfl

@[simp]
lemma withMembers_device : (c.withMembers members).device = c.device := rfl

end

section

variable {device : Device} {top : String} {m : Program.Member} {g : GeneratedMember}

lemma hardware_eq_ok : m.hardware device top = .ok g ↔
    ∃ table, TimingTable.parse device.report = .ok table ∧
      (generateMember (.ofTable device.manifest table) (entityName top m.name) m).result =
        .ok g := by
  simp only [Program.Member.hardware, bind_eq_ok, mapError_eq_ok]

lemma hardware_of_table {table : TimingTable} (h : TimingTable.parse device.report = .ok table) :
    m.hardware device top =
      (generateMember (.ofTable device.manifest table) (entityName top m.name) m).result := by
  rw [Program.Member.hardware, h]
  rfl

end

lemma forall₂_ok_iff {ε α β : Type} {f : α → Except ε β} {xs : List α} {ys : List β} :
    List.Forall₂ (fun x y => f x = .ok y) xs ys ↔ xs.map f = ys.map .ok := by
  rw [← List.forall₂_eq_eq_eq, List.forall₂_map_left_iff, List.forall₂_map_right_iff]

/-- A program has a description exactly if its entities have different names, each of its members
becomes hardware, and the largest fits. -/
lemma generate_eq_described {memory : MemorySettings} {c c' : Context} :
    (c.generate memory).result = .ok c' ↔
      c.program.members ≠ [] ∧
        (c.program.members.map (Program.Member.key c.request.top)).Nodup ∧
        ∃ gs, c.program.members.map (Program.Member.hardware c.device c.request.top) =
            gs.map .ok ∧
          ∃ layout, memory.plan (largestCells gs) c.device.manifest = .ok layout ∧
            c' = c.described layout gs := by
  rw [generate_eq_ok]
  refine and_congr_right fun hne => ?_
  constructor
  · rintro ⟨table, htable, hnodup, gs, hgs, hrest⟩
    refine ⟨hnodup, gs, forall₂_ok_iff.mp (hgs.imp fun m g hg => ?_), hrest⟩
    rw [hardware_of_table htable]
    exact hg
  · rintro ⟨hnodup, gs, hgs, hrest⟩
    -- Any member shows that the report can be read.
    obtain ⟨m, hm⟩ := List.exists_mem_of_ne_nil _ hne
    obtain ⟨g, -, hg⟩ := exists_of_mem_left (forall₂_ok_iff.mpr hgs) hm
    obtain ⟨table, htable, -⟩ := hardware_eq_ok.mp hg
    refine ⟨table, htable, hnodup, gs, (forall₂_ok_iff.mpr hgs).imp fun m g hg => ?_, hrest⟩
    rw [hardware_of_table htable] at hg
    exact hg

/-! ## The largest member -/

lemma foldl_cells (gs : List GeneratedMember) (n : Nat) :
    gs.foldl (fun n g => max n g.cells) n = max n (largestCells gs) := by
  induction gs generalizing n with
  | nil => simp [largestCells]
  | cons g gs ih =>
      rw [largestCells, List.foldl_cons, List.foldl_cons, ih, ih]
      omega

lemma largestCells_append (gs hs : List GeneratedMember) :
    largestCells (gs ++ hs) = max (largestCells gs) (largestCells hs) := by
  rw [largestCells, List.foldl_append, foldl_cells]
  rfl

lemma largestCells_perm {gs hs : List GeneratedMember} (h : gs.Perm hs) :
    largestCells gs = largestCells hs := by
  refine h.foldl_eq' (fun g _ h _ n => ?_) 0
  omega

/-- A layout is one of two, and in every respect the larger one. -/
structure MemoryLayout.Larger (a b whole : MemoryLayout) : Prop where
  choice : whole = a ∨ whole = b
  header : whole.headerBytes = a.headerBytes ∧ whole.headerBytes = b.headerBytes
  payload : whole.payloadBytes = max a.payloadBytes b.payloadBytes
  total : whole.totalBytes = max a.totalBytes b.totalBytes

lemma MemoryLayout.Larger.symm {a b whole : MemoryLayout} (h : a.Larger b whole) :
    b.Larger a whole where
  choice := h.choice.symm
  header := h.header.symm
  payload := h.payload.trans (Nat.max_comm ..)
  total := h.total.trans (Nat.max_comm ..)

section

variable {memory : MemorySettings} {n k : Nat} {manifest : Manifest} {a b : MemoryLayout}

lemma larger_of_le (ha : memory.plan n manifest = .ok a) (hb : memory.plan k manifest = .ok b)
    (hle : n ≤ k) : a.Larger b b := by
  obtain ⟨-, rfl⟩ := MemorySettings.plan_eq_ok.mp ha
  obtain ⟨-, rfl⟩ := MemorySettings.plan_eq_ok.mp hb
  exact ⟨.inr rfl, ⟨rfl, rfl⟩, (Nat.max_eq_right (MemorySettings.payloadBytes_mono hle)).symm,
    (Nat.max_eq_right (MemorySettings.totalBytes_mono hle)).symm⟩

/-- A buffer for the larger of two numbers of cells is the larger of their buffers. -/
lemma plan_max (ha : memory.plan n manifest = .ok a) (hb : memory.plan k manifest = .ok b) :
    ∃ whole, memory.plan (max n k) manifest = .ok whole ∧ a.Larger b whole := by
  rcases Nat.le_total n k with hle | hle
  · rw [Nat.max_eq_right hle]
    exact ⟨b, hb, larger_of_le ha hb hle⟩
  · rw [Nat.max_eq_left hle]
    exact ⟨a, ha, (larger_of_le hb ha hle).symm⟩

/-- What fits for some number of cells fits for fewer. -/
lemma exists_plan_of_le {whole : MemoryLayout} (h : memory.plan k manifest = .ok whole)
    (hle : n ≤ k) : ∃ a, memory.plan n manifest = .ok a := by
  obtain ⟨hfits, -⟩ := MemorySettings.plan_eq_ok.mp h
  exact ⟨_, MemorySettings.plan_eq_ok.mpr
    ⟨Nat.le_trans (MemorySettings.totalBytes_mono hle) hfits, rfl⟩⟩

end

/-! ## Two parts of a program -/

/-- What was generated for a whole consists of what was generated for its two parts. -/
structure Context.Joins (first second whole : Context) : Prop where
  source : ∃ a b, first.description = some ⟨a, .vhdl⟩ ∧ second.description = some ⟨b, .vhdl⟩ ∧
    whole.description = some ⟨a ++ "\n" ++ b, .vhdl⟩
  costs : whole.costs = first.costs ++ second.costs
  layout : ∃ a b l, first.layout = some a ∧ second.layout = some b ∧ whole.layout = some l ∧
    a.Larger b l

section

variable {memory : MemorySettings} {c : Context} {as bs : List Program.Member}

lemma ne_nil_of_map_eq {ε α β : Type} {f : α → Except ε β} {xs : List α} {ys : List β}
    (h : xs.map f = ys.map .ok) (hne : xs ≠ []) : ys ≠ [] := by
  rintro rfl
  exact hne (List.map_eq_nil_iff.mp h)

lemma described_joins {la lb l : MemoryLayout} {gs hs : List GeneratedMember} (hgs : gs ≠ [])
    (hhs : hs ≠ []) (hl : la.Larger lb l) :
    ((c.withMembers as).described la gs).Joins ((c.withMembers bs).described lb hs)
      ((c.withMembers (as ++ bs)).described l (gs ++ hs)) where
  source := by
    refine ⟨_, _, rfl, rfl, ?_⟩
    simp only [Context.described, List.map_append]
    rw [String.intercalate_append_of_ne_nil (by simpa using hgs) (by simpa using hhs)]
  costs := List.map_append
  layout := ⟨la, lb, l, rfl, rfl, rfl, hl⟩

/-- Two parts that share no entity name can be put together. -/
lemma generate_append {a b : Context} (ha : ((c.withMembers as).generate memory).result = .ok a)
    (hb : ((c.withMembers bs).generate memory).result = .ok b)
    (hkeys : ∀ x ∈ as, ∀ y ∈ bs, x.key c.request.top ≠ y.key c.request.top) :
    ∃ whole, ((c.withMembers (as ++ bs)).generate memory).result = .ok whole ∧
      a.Joins b whole := by
  obtain ⟨hane, hanodup, gs, hgs, la, hla, rfl⟩ := generate_eq_described.mp ha
  obtain ⟨hbne, hbnodup, hs, hhs, lb, hlb, rfl⟩ := generate_eq_described.mp hb
  obtain ⟨l, hl, hlarger⟩ := plan_max hla hlb
  refine ⟨_, generate_eq_described.mpr ⟨?_, ?_, gs ++ hs, ?_, l, ?_, rfl⟩,
    described_joins (ne_nil_of_map_eq hgs hane) (ne_nil_of_map_eq hhs hbne) hlarger⟩
  · exact List.append_ne_nil_of_left_ne_nil hane bs
  · simp only [withMembers_members, withMembers_request, List.map_append] at hanodup hbnodup ⊢
    exact List.nodup_append.mpr ⟨hanodup, hbnodup, by simpa using hkeys⟩
  · simp only [withMembers_members, withMembers_request, withMembers_device] at hgs hhs ⊢
    rw [List.map_append, List.map_append, hgs, hhs]
  · rw [largestCells_append]
    exact hl

/-- A program that has a description can be taken apart. -/
lemma exists_generate_parts {whole : Context} (ha : as ≠ []) (hb : bs ≠ [])
    (h : ((c.withMembers (as ++ bs)).generate memory).result = .ok whole) :
    (∃ a, ((c.withMembers as).generate memory).result = .ok a) ∧
      (∃ b, ((c.withMembers bs).generate memory).result = .ok b) ∧
      ∀ x ∈ as, ∀ y ∈ bs, x.key c.request.top ≠ y.key c.request.top := by
  obtain ⟨-, hnodup, gs, hgs, l, hl, -⟩ := generate_eq_described.mp h
  simp only [withMembers_members, withMembers_request, withMembers_device, List.map_append]
    at hnodup hgs
  obtain ⟨hanodup, hbnodup, hkeys⟩ := List.nodup_append.mp hnodup
  obtain ⟨gsa, gsb, rfl, hgsa, hgsb⟩ := List.map_eq_append_iff.mp hgs.symm
  rw [largestCells_append] at hl
  obtain ⟨la, hla⟩ := exists_plan_of_le hl (Nat.le_max_left ..)
  obtain ⟨lb, hlb⟩ := exists_plan_of_le hl (Nat.le_max_right ..)
  refine ⟨⟨_, generate_eq_described.mpr ⟨ha, hanodup, gsa, hgsa.symm, la, hla, rfl⟩⟩,
    ⟨_, generate_eq_described.mpr ⟨hb, hbnodup, gsb, hgsb.symm, lb, hlb, rfl⟩⟩, ?_⟩
  simpa using hkeys

/-! ## Members in another order -/

/-- Members in another order become the same hardware, in that order. -/
lemma exists_perm_of_map_eq {ε α β : Type} {f : α → Except ε β} {xs xs' : List α} {ys : List β}
    (hperm : xs.Perm xs') (h : xs.map f = ys.map .ok) :
    ∃ ys', ys.Perm ys' ∧ xs'.map f = ys'.map .ok := by
  obtain ⟨ys', hys', hall⟩ := List.perm_comp_forall₂ hperm.symm (forall₂_ok_iff.mpr h)
  exact ⟨ys', hall.symm, forall₂_ok_iff.mp hys'⟩

/-- A program whose members are reordered has a description that is reordered likewise. -/
lemma generate_perm {c' : Context} (hperm : as.Perm bs)
    (h : ((c.withMembers as).generate memory).result = .ok c') :
    ∃ gs hs layout, gs.Perm hs ∧
      as.map (Program.Member.hardware c.device c.request.top) = gs.map .ok ∧
      bs.map (Program.Member.hardware c.device c.request.top) = hs.map .ok ∧
      c' = (c.withMembers as).described layout gs ∧
      ((c.withMembers bs).generate memory).result =
        .ok ((c.withMembers bs).described layout hs) := by
  obtain ⟨hne, hnodup, gs, hgs, layout, hlayout, rfl⟩ := generate_eq_described.mp h
  obtain ⟨hs, hgsperm, hhs⟩ := exists_perm_of_map_eq hperm hgs
  refine ⟨gs, hs, layout, hgsperm, hgs, hhs, rfl,
    generate_eq_described.mpr ⟨?_, ?_, hs, hhs, layout, ?_, rfl⟩⟩
  · rintro rfl
    exact hne hperm.eq_nil
  · exact (hperm.map _).nodup_iff.mp hnodup
  · rw [← largestCells_perm hgsperm]
    exact hlayout

end

/-- **Members are generated apart.**  What a description holds for a member depends only on the
member, the top name and the device.  Two parts of a program have descriptions and share no entity
name exactly if the whole has a description, which then consists of those of the parts.  Another
order of the members only reorders their entities. -/
theorem generation_separable (memory : MemorySettings) (c : Context) :
    (∀ c', (c.generate memory).result = .ok c' →
      ∃ gs layout,
        c.program.members.map (Program.Member.hardware c.device c.request.top) = gs.map .ok ∧
        c' = c.described layout gs) ∧
    (∀ as bs : List Program.Member, as ≠ [] → bs ≠ [] →
      ((∃ c', ((c.withMembers (as ++ bs)).generate memory).result = .ok c') ↔
        (∃ a, ((c.withMembers as).generate memory).result = .ok a) ∧
          (∃ b, ((c.withMembers bs).generate memory).result = .ok b) ∧
          ∀ x ∈ as, ∀ y ∈ bs, x.key c.request.top ≠ y.key c.request.top) ∧
      ∀ c' a b, ((c.withMembers (as ++ bs)).generate memory).result = .ok c' →
        ((c.withMembers as).generate memory).result = .ok a →
        ((c.withMembers bs).generate memory).result = .ok b → a.Joins b c') ∧
    ∀ (as bs : List Program.Member) (c' : Context), as.Perm bs →
      ((c.withMembers as).generate memory).result = .ok c' →
      ∃ gs hs layout, gs.Perm hs ∧
        as.map (Program.Member.hardware c.device c.request.top) = gs.map .ok ∧
        bs.map (Program.Member.hardware c.device c.request.top) = hs.map .ok ∧
        c' = (c.withMembers as).described layout gs ∧
        ((c.withMembers bs).generate memory).result =
          .ok ((c.withMembers bs).described layout hs) := by
  refine ⟨fun c' h => ?_, fun as bs ha hb => ⟨⟨?_, ?_⟩, ?_⟩, fun as bs c' => generate_perm⟩
  · obtain ⟨-, -, gs, hgs, layout, -, rfl⟩ := generate_eq_described.mp h
    exact ⟨gs, layout, hgs, rfl⟩
  · rintro ⟨whole, h⟩
    exact exists_generate_parts ha hb h
  · rintro ⟨⟨a, hagen⟩, ⟨b, hbgen⟩, hkeys⟩
    obtain ⟨whole, h, -⟩ := generate_append hagen hbgen hkeys
    exact ⟨whole, h⟩
  · intro c' a b h hagen hbgen
    -- The whole is unique, so it is the one that the parts make.
    obtain ⟨-, -, hkeys⟩ := exists_generate_parts ha hb h
    obtain ⟨whole, hwhole, hjoins⟩ := generate_append hagen hbgen hkeys
    obtain rfl := Except.ok.inj (h.symm.trans hwhole)
    exact hjoins

theorem generation_separable_sample :
    ∃ m n, Context.sample.program.members = [m, n] ∧
      (∃ a b c', ((Context.sample.withMembers [m]).generate {}).result = .ok a ∧
        ((Context.sample.withMembers [n]).generate {}).result = .ok b ∧
        (Context.sample.generate {}).result = .ok c' ∧ a.Joins b c') ∧
      ∃ c', ((Context.sample.withMembers [n, m]).generate {}).result = .ok c' := by
  obtain ⟨c', h⟩ := exists_generate_sample
  obtain ⟨-, hparts, horder⟩ := generation_separable {} Context.sample
  refine ⟨_, _, rfl, ?_, ?_⟩
  · obtain ⟨hiff, hjoins⟩ := hparts [_] [_] (List.cons_ne_nil _ _) (List.cons_ne_nil _ _)
    obtain ⟨⟨a, ha⟩, ⟨b, hb⟩, -⟩ := hiff.mp ⟨c', h⟩
    exact ⟨a, b, c', ha, hb, h, hjoins c' a b h ha hb⟩
  · obtain ⟨_, _, _, -, -, -, -, hreversed⟩ := horder [_, _] _ c' (List.Perm.swap ..) h
    exact ⟨_, hreversed⟩

end Gateware
