import Gateware.Proofs.Vhdl.Identifier
import Mathlib.Data.List.Induction

/-!
# Sanitizing is a projection

What makes a name a usable identifier is said once more by `IsIdentifier`, condition by condition,
and the check decides it (`isValid_iff`).  Sanitizing maps every name to an identifier and keeps
those that are one already, so that doing it twice is doing it once.

What is kept of other names is said by `underscored`: the runs of letters and digits of a name, in
order, with one underscore between two of them.  The loop that condenses a name comes to the same
(`condensed_eq`), although it writes an underscore before it knows whether anything follows.
Nothing is added to it but `k_` in front, and that only if it is no identifier without it; a name
without any letter or digit becomes `unnamed` (`sanitize_eq`).
-/

namespace Gateware.Vhdl

/-! ## Identifiers -/

/-- A usable identifier: ASCII letters, digits and single underscores with a letter first and no
underscore last, and no reserved word in whatever letter case. -/
structure IsIdentifier (name : String) : Prop where
  letter : ∃ c ∈ name.toList.head?, c.isAlpha = true
  allowed : ∀ c ∈ name.toList, c.isAlphanum = true ∨ c = '_'
  last : name.toList.getLast? ≠ some '_'
  single : ¬ ['_', '_'] <:+: name.toList
  free : ∀ word ∈ reservedWords, identifierKey word ≠ identifierKey name

lemma hasDoubleUnderscore_iff (cs : List Char) :
    hasDoubleUnderscore cs = true ↔ ['_', '_'] <:+: cs := by
  fun_induction hasDoubleUnderscore cs with
  | case1 cs => exact iff_of_true rfl ⟨[], cs, rfl⟩
  | case2 c cs hne ih =>
      have hfirst : ¬ ['_', '_'] <+: c :: cs := by
        rintro ⟨rest, heq⟩
        obtain ⟨rfl, rfl⟩ := List.cons.inj heq
        exact hne rest rfl rfl
      rw [ih, List.infix_cons_iff, or_iff_right hfirst]
  | case3 => simp

lemma isBasicName_iff (name : String) :
    isBasicName name = true ↔ (∃ c ∈ name.toList.head?, c.isAlpha = true) ∧
      (∀ c ∈ name.toList, c.isAlphanum = true ∨ c = '_') ∧ name.toList.getLast? ≠ some '_' ∧
      ¬ ['_', '_'] <:+: name.toList := by
  unfold isBasicName
  cases name.toList with
  | nil => simp
  | cons c cs =>
      rw [← hasDoubleUnderscore_iff]
      simp only [Bool.and_eq_true, List.all_eq_true, Bool.or_eq_true, beq_iff_eq, bne_iff_ne,
        Bool.not_eq_true', Bool.not_eq_true, List.head?_cons, Option.mem_some_iff, exists_eq_left',
        and_assoc]

/-- Reserved words are listed in small letters. -/
lemma identifierKey_reservedWords : ∀ word ∈ reservedWords, identifierKey word = word := by
  decide +kernel

lemma isReserved_iff (name : String) :
    isReserved name = true ↔ ∃ word ∈ reservedWords, identifierKey word = identifierKey name := by
  rw [isReserved, List.contains_iff_mem]
  constructor
  · intro hmem
    exact ⟨_, hmem, identifierKey_reservedWords _ hmem⟩
  · rintro ⟨word, hword, heq⟩
    rwa [← heq, identifierKey_reservedWords word hword]

theorem isValid_iff {name : String} : isValid name = true ↔ IsIdentifier name := by
  have hfree : (!isReserved name) = true ↔
      ∀ word ∈ reservedWords, identifierKey word ≠ identifierKey name := by
    rw [Bool.not_eq_true', ← Bool.not_eq_true, isReserved_iff]
    push Not
    rfl
  rw [isValid, Bool.and_eq_true, isBasicName_iff, hfree]
  constructor
  · rintro ⟨⟨hletter, hallowed, hlast, hsingle⟩, hfree⟩
    exact ⟨hletter, hallowed, hlast, hsingle, hfree⟩
  · rintro ⟨hletter, hallowed, hlast, hsingle, hfree⟩
    exact ⟨⟨hletter, hallowed, hlast, hsingle⟩, hfree⟩

instance : DecidablePred IsIdentifier := fun _ => decidable_of_iff _ isValid_iff

/-! ## Segments -/

/-- Without two underscores side by side, every underscore stands between letters and digits. -/
lemma segmented_of_single {c : Char} {cs : List Char} (hc : c.isAlphanum = true)
    (hallowed : ∀ d ∈ cs, d.isAlphanum = true ∨ d = '_') (hsingle : ¬ ['_', '_'] <:+: cs)
    (hlast : (c :: cs).getLast? ≠ some '_') : Segmented (c :: cs) := by
  -- An underscore is taken together with the character after it, hence two steps at once.
  induction cs using List.twoStepInduction generalizing c with
  | nil => exact .single hc
  | singleton d =>
      have hd : d ≠ '_' := by simpa using hlast
      exact .cons hc (.single ((hallowed d List.mem_cons_self).resolve_right hd))
  | cons_cons d e cs ih ih' =>
      have hsingle' : ¬ ['_', '_'] <:+: e :: cs := fun h => hsingle (List.infix_cons h)
      rw [List.getLast?_cons_cons] at hlast
      have hallowed' : ∀ x ∈ e :: cs, x.isAlphanum = true ∨ x = '_' :=
        fun x hx => hallowed x (List.mem_cons_of_mem d hx)
      rcases hallowed d List.mem_cons_self with hd | rfl
      · exact .cons hc (ih' e hd hallowed' hsingle' hlast)
      · have he : e ≠ '_' := by
          rintro rfl
          exact hsingle ⟨[], cs, rfl⟩
        rw [List.getLast?_cons_cons] at hlast
        have he' : e.isAlphanum = true := (hallowed' e List.mem_cons_self).resolve_right he
        exact .underscore hc (ih he' (fun x hx => hallowed' x (List.mem_cons_of_mem e hx))
          (fun h => hsingle' (List.infix_cons h)) hlast)

lemma IsIdentifier.segmented {name : String} (h : IsIdentifier name) : Segmented name.toList := by
  obtain ⟨⟨c, hhead, hc⟩, hallowed, hlast, hsingle, -⟩ := h
  obtain ⟨cs, hname⟩ := List.head?_eq_some_iff.mp hhead
  rw [hname] at hallowed hlast hsingle ⊢
  have hc' : c.isAlphanum = true := by
    rw [Char.isAlphanum, hc]
    rfl
  exact segmented_of_single hc' (fun d hd => hallowed d (List.mem_cons_of_mem c hd))
    (fun h => hsingle (List.infix_cons h)) hlast

section

variable {cs : List Char}

lemma Segmented.exists_cons (h : Segmented cs) :
    ∃ c rest, c.isAlphanum = true ∧ cs = c :: rest := by
  cases h with
  | single hc => exact ⟨_, _, hc, rfl⟩
  | cons hc _ => exact ⟨_, _, hc, rfl⟩
  | underscore hc _ => exact ⟨_, _, hc, rfl⟩

lemma Segmented.filter_ne_nil (h : Segmented cs) : cs.filter Char.isAlphanum ≠ [] := by
  obtain ⟨c, rest, hc, rfl⟩ := h.exists_cons
  rw [List.filter_cons_of_pos hc]
  exact List.cons_ne_nil _ _

/-- Segments are an identifier if they start with a letter and are not reserved. -/
lemma Segmented.isIdentifier_iff (h : Segmented cs) :
    IsIdentifier (String.ofList cs) ↔
      startsWithLetter cs = true ∧ isReserved (String.ofList cs) = false := by
  have hbasic : Vhdl.isBasicName (String.ofList cs) = startsWithLetter cs := by
    cases hletter : startsWithLetter cs with
    | true => exact h.isBasicName hletter
    | false =>
        rw [← Bool.not_eq_true, isBasicName_iff, String.toList_ofList]
        rintro ⟨⟨c, hhead, hc⟩, -⟩
        obtain ⟨rest, rfl⟩ := List.head?_eq_some_iff.mp hhead
        exact absurd (hc.symm.trans hletter) (by decide)
  rw [← isValid_iff, isValid, hbasic, Bool.and_eq_true, Bool.not_eq_true']

end

/-! ## What is kept of a name -/

/-- The runs of letters and digits in a text. -/
def runs (cs : List Char) : List (List Char) :=
  (cs.splitOnP fun c => !c.isAlphanum).filter fun run => !run.isEmpty

/-- The runs of letters and digits in a text, with one underscore between two of them. -/
def underscored (cs : List Char) : List Char := ['_'].intercalate (runs cs)

lemma intercalate_eq_append_flatMap (run : List Char) (others : List (List Char)) :
    ['_'].intercalate (run :: others) = run ++ others.flatMap ('_' :: ·) := by
  induction others generalizing run with
  | nil => simp
  | cons next others ih =>
      rw [List.intercalate_cons_cons, ih, List.flatMap_cons, List.append_assoc]
      rfl

/-- What is joined to a text that ends inside a run is the rest of the run, and then the other runs
after an underscore each; after a run has ended, an underscore comes before every one. -/
lemma joined_eq {cs run : List Char} {others : List (List Char)}
    (hsplit : (cs.splitOnP fun c => !c.isAlphanum) = run :: others) :
    joined false cs = run ++ (others.filter fun r => !r.isEmpty).flatMap ('_' :: ·) ∧
      joined true cs = ((run :: others).filter fun r => !r.isEmpty).flatMap ('_' :: ·) := by
  induction cs generalizing run others with
  | nil =>
      obtain ⟨rfl, rfl⟩ := List.cons.inj hsplit
      exact ⟨rfl, rfl⟩
  | cons c cs ih =>
      obtain ⟨run', others', hsplit'⟩ :=
        List.exists_cons_of_ne_nil (List.splitOnP_ne_nil (fun c => !c.isAlphanum) cs)
      obtain ⟨hfalse, htrue⟩ := ih hsplit'
      rw [List.splitOnP_cons_eq_if_modifyHead, hsplit'] at hsplit
      cases hc : c.isAlphanum with
      | true =>
          simp only [hc, Bool.not_true, Bool.false_eq_true, if_false, List.modifyHead_cons,
            List.cons.injEq] at hsplit
          obtain ⟨rfl, rfl⟩ := hsplit
          simp [joined, hc, hfalse]
      | false =>
          simp only [hc, Bool.not_false, if_true, List.cons.injEq] at hsplit
          obtain ⟨rfl, rfl⟩ := hsplit
          simp [joined, hc, htrue]

theorem condensed_eq (cs : List Char) : condensed cs = underscored cs := by
  induction cs with
  | nil => rfl
  | cons c cs ih =>
      obtain ⟨run, others, hsplit⟩ :=
        List.exists_cons_of_ne_nil (List.splitOnP_ne_nil (fun c => !c.isAlphanum) cs)
      rw [condensed_cons]
      unfold underscored runs at ih ⊢
      rw [List.splitOnP_cons_eq_if_modifyHead]
      cases hc : c.isAlphanum with
      | true =>
          rw [(joined_eq hsplit).1, hsplit]
          simp [intercalate_eq_append_flatMap]
      | false => simpa using ih

/-- Letters and digits are kept, and nothing but underscores is joined to them. -/
lemma filter_joined (pending : Bool) (cs : List Char) :
    (joined pending cs).filter Char.isAlphanum = cs.filter Char.isAlphanum := by
  have hunderscore : Char.isAlphanum '_' = false := by decide
  induction cs generalizing pending with
  | nil => rfl
  | cons c cs ih =>
      rw [joined]
      split_ifs with hc hpending
      · simp [hc, hunderscore, ih]
      · simp [hc, ih]
      · rw [ih, List.filter_cons_of_neg hc]

lemma filter_condensed (cs : List Char) :
    (condensed cs).filter Char.isAlphanum = cs.filter Char.isAlphanum := by
  induction cs with
  | nil => rfl
  | cons c cs ih =>
      rw [condensed_cons]
      split_ifs with hc
      · rw [List.filter_cons_of_pos hc, List.filter_cons_of_pos hc, filter_joined]
      · rw [ih, List.filter_cons_of_neg hc]

/-- Segments have nothing that could be condensed. -/
lemma Segmented.joined_eq_self {cs : List Char} (h : Segmented cs) :
    joined false cs = cs ∧ joined true cs = '_' :: cs := by
  have hunderscore : Char.isAlphanum '_' = false := by decide
  induction h with
  | single hc => simp [joined, hc]
  | cons hc _ ih => simp [joined, hc, ih.1]
  | underscore hc _ ih => simp [joined, hc, hunderscore, ih.2]

lemma Segmented.condensed_eq_self {cs : List Char} (h : Segmented cs) : condensed cs = cs := by
  obtain ⟨c, rest, hc, rfl⟩ := h.exists_cons
  rw [condensed_eq_joined, List.dropWhile_cons_of_neg (by simp [hc])]
  exact h.joined_eq_self.1

/-! ## Sanitizing -/

lemma sanitize_of_isIdentifier {name : String} (h : IsIdentifier name) : sanitize name = name := by
  rw [sanitize, if_pos (isValid_iff.mpr h)]

/-- What a name becomes, whether it is an identifier or not. -/
theorem sanitize_eq (name : String) :
    sanitize name =
      if name.toList.filter Char.isAlphanum = [] then "unnamed"
      else if IsIdentifier (String.ofList (underscored name.toList)) then
        String.ofList (underscored name.toList)
      else "k_" ++ String.ofList (underscored name.toList) := by
  rw [← condensed_eq]
  by_cases hname : IsIdentifier name
  · have hsegmented := hname.segmented
    rw [hsegmented.condensed_eq_self, String.ofList_toList, if_neg hsegmented.filter_ne_nil,
      if_pos hname, sanitize_of_isIdentifier hname]
  · rw [sanitize, if_neg (isValid_iff.not.mpr hname), ← filter_condensed]
    rcases condensed_segmented name.toList with hnil | hsegmented
    · rw [hnil]
      rfl
    · have hempty : (condensed name.toList).isEmpty = false := by simpa using hsegmented.ne_nil
      rw [if_neg hsegmented.filter_ne_nil]
      simp only [hempty, Bool.false_eq_true, if_false, hsegmented.isIdentifier_iff]
      cases startsWithLetter (condensed name.toList) <;>
        cases isReserved (String.ofList (condensed name.toList)) <;> rfl

example : sanitize "System.Int32 Calc::Add(Int32,Int32)" = "System_Int32_Calc_Add_Int32_Int32" := by
  decide +kernel

/-- **Sanitizing is a projection onto the identifiers.**  Every name becomes an identifier, exactly
the identifiers stay as they are, and doing it once more changes nothing.  The letters and digits of
a name are kept in order, with single underscores between them; before them `k_` is put if they are
no identifier, and a name without any of them becomes `unnamed`. -/
theorem sanitize_projects (name : String) :
    (isValid name = true ↔ IsIdentifier name) ∧ IsIdentifier (sanitize name) ∧
      (sanitize name = name ↔ IsIdentifier name) ∧
      sanitize (sanitize name) = sanitize name ∧
      (underscored name.toList).filter Char.isAlphanum = name.toList.filter Char.isAlphanum ∧
      (underscored name.toList = [] ∨ Segmented (underscored name.toList)) ∧
      sanitize name =
        if name.toList.filter Char.isAlphanum = [] then "unnamed"
        else if IsIdentifier (String.ofList (underscored name.toList)) then
          String.ofList (underscored name.toList)
        else "k_" ++ String.ofList (underscored name.toList) := by
  have hvalid : IsIdentifier (sanitize name) := isValid_iff.mp (sanitize_valid name)
  refine ⟨isValid_iff, hvalid, ⟨fun heq => heq ▸ hvalid, sanitize_of_isIdentifier⟩,
    sanitize_of_isIdentifier hvalid, ?_, ?_, sanitize_eq name⟩
  · rw [← condensed_eq, filter_condensed]
  · rw [← condensed_eq]
    exact condensed_segmented name.toList

end Gateware.Vhdl
