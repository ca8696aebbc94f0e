import Gateware.Vhdl.Identifier
import Mathlib.Tactic.Common

/-!
# Sanitized names are identifiers

Every name is made into a valid identifier (`sanitize_valid`), whatever characters it has.  What
remains of a name after its other characters are condensed consists of letters and digits with
single underscores between them, or of nothing (`condensed_segmented`).  Such a text lacks at most a
letter at its beginning to be an identifier, and it may be a reserved word; `k_` in front mends
both, for no reserved word starts that way.
-/

namespace Gateware.Vhdl

/-- Texts of letters and digits with single underscores between them. -/
inductive Segmented : List Char → Prop
  | single {c : Char} (hc : c.isAlphanum = true) : Segmented [c]
  | cons {c : Char} {cs : List Char} (hc : c.isAlphanum = true) (h : Segmented cs) :
      Segmented (c :: cs)
  | underscore {c : Char} {cs : List Char} (hc : c.isAlphanum = true) (h : Segmented cs) :
      Segmented (c :: '_' :: cs)

lemma ne_underscore {c : Char} (hc : c.isAlphanum = true) : c ≠ '_' := by
  rintro rfl
  exact absurd hc (by decide)

namespace Segmented

variable {cs : List Char}

lemma ne_nil (h : Segmented cs) : cs ≠ [] := by
  cases h <;> exact List.cons_ne_nil _ _

lemma all_allowed (h : Segmented cs) : cs.all (fun c => c.isAlphanum || c == '_') = true := by
  induction h with
  | single hc => simp [hc]
  | cons hc _ ih => simp [hc, ih]
  | underscore hc _ ih => simp [hc, ih]

lemma getLast?_ne (h : Segmented cs) : cs.getLast? ≠ some '_' := by
  induction h with
  | single hc => simpa using ne_underscore hc
  | cons hc h ih => rwa [List.getLast?_cons_of_ne_nil h.ne_nil]
  | underscore hc h ih =>
      rwa [List.getLast?_cons_of_ne_nil (List.cons_ne_nil _ _),
        List.getLast?_cons_of_ne_nil h.ne_nil]

end Segmented

lemma hasDoubleUnderscore_cons {c : Char} (hc : c ≠ '_') (cs : List Char) :
    hasDoubleUnderscore (c :: cs) = hasDoubleUnderscore cs := by
  rw [hasDoubleUnderscore.eq_2]
  intro tail h
  exact absurd h hc

/-- An underscore before a letter or a digit is no double one. -/
lemma hasDoubleUnderscore_underscore {c : Char} (hc : c ≠ '_') (cs : List Char) :
    hasDoubleUnderscore ('_' :: c :: cs) = hasDoubleUnderscore (c :: cs) := by
  rw [hasDoubleUnderscore.eq_2]
  intro tail _ h
  exact absurd (List.cons.inj h).1 hc

lemma Segmented.no_double {cs : List Char} (h : Segmented cs) : hasDoubleUnderscore cs = false := by
  induction h with
  | single hc =>
      rw [hasDoubleUnderscore_cons (ne_underscore hc)]
      rfl
  | cons hc _ ih => rwa [hasDoubleUnderscore_cons (ne_underscore hc)]
  | underscore hc h ih =>
      rw [hasDoubleUnderscore_cons (ne_underscore hc)]
      cases h with
      | single hd => rwa [hasDoubleUnderscore_underscore (ne_underscore hd)]
      | cons hd _ => rwa [hasDoubleUnderscore_underscore (ne_underscore hd)]
      | underscore hd _ => rwa [hasDoubleUnderscore_underscore (ne_underscore hd)]

/-- A text of segments that starts with a letter has the form of an identifier. -/
lemma Segmented.isBasicName {cs : List Char} (h : Segmented cs)
    (hletter : startsWithLetter cs = true) : isBasicName (String.ofList cs) = true := by
  unfold Vhdl.isBasicName
  rw [String.toList_ofList]
  cases cs with
  | nil => exact absurd rfl h.ne_nil
  | cons c cs =>
      simp only [startsWithLetter] at hletter
      have hlast := h.getLast?_ne
      simp [hletter, h.all_allowed, h.no_double, hlast]

/-- Valid names consist of letters, digits and underscores. -/
lemma all_allowed_of_isValid {name : String} (h : isValid name = true) :
    name.toList.all (fun c => c.isAlphanum || c == '_') = true := by
  have hbasic : isBasicName name = true := (Bool.and_eq_true_iff.mp h).1
  unfold isBasicName at hbasic
  cases hname : name.toList with
  | nil => rfl
  | cons c cs =>
      rw [hname] at hbasic
      simp only [Bool.and_eq_true] at hbasic
      exact hbasic.1.1.2

/-! ## Condensing -/

/-- The letters and digits of a text, with one underscore in place of every run of other characters
between them.  `pending` says that such a run has been passed. -/
def joined (pending : Bool) : List Char → List Char
  | [] => []
  | c :: cs =>
    if c.isAlphanum then
      if pending then '_' :: c :: joined false cs else c :: joined false cs
    else joined true cs

section

variable {c d : Char} {written : List Char}

@[simp] lemma writeNext_of_isAlphanum (hc : c.isAlphanum = true) :
    writeNext written c = c :: written := if_pos hc

@[simp] lemma writeNext_nil (hc : c.isAlphanum = false) : writeNext [] c = ['_'] := by
  simp [writeNext, hc]

@[simp] lemma writeNext_underscore (hc : c.isAlphanum = false) :
    writeNext ('_' :: written) c = '_' :: written := by
  simp [writeNext, hc]

@[simp] lemma writeNext_cons (hc : c.isAlphanum = false) (hd : d ≠ '_') :
    writeNext (d :: written) c = '_' :: d :: written := by
  simp [writeNext, hc, hd]

end

/-- What is written after a letter or digit is what is joined to it, up to an underscore at the end.
Once an underscore stands there, it belongs to what is joined if anything is. -/
lemma dropWhile_foldl_writeNext (cs written : List Char) {d : Char} (hd : d.isAlphanum = true) :
    (cs.foldl writeNext (d :: written)).dropWhile (· == '_')
        = (joined false cs).reverse ++ d :: written ∧
      (cs.foldl writeNext ('_' :: d :: written)).dropWhile (· == '_')
        = (joined true cs).reverse ++ d :: written := by
  have hne : d ≠ '_' := ne_underscore hd
  induction cs generalizing written d with
  | nil => simp [joined, hne]
  | cons c cs ih =>
      cases hc : c.isAlphanum with
      | true => simp [joined, hc, (ih _ hc (ne_underscore hc)).1]
      | false => simp [joined, hc, hne, (ih written hd hne).2]

lemma condensed_eq_dropWhile (cs : List Char) :
    condensed cs = ((cs.foldl writeNext []).dropWhile (· == '_')).reverse.dropWhile (· == '_') := by
  rw [condensed, trimUnderscores, List.reverse_reverse]

lemma condensed_cons_of_isAlphanum {c : Char} (hc : c.isAlphanum = true) (cs : List Char) :
    condensed (c :: cs) = c :: joined false cs := by
  rw [condensed_eq_dropWhile, List.foldl_cons, writeNext_of_isAlphanum hc,
    (dropWhile_foldl_writeNext cs [] hc).1]
  simp [ne_underscore hc]

/-- Other characters leave no trace at the beginning: the underscore for them is cut off. -/
lemma condensed_cons_of_not_isAlphanum {c : Char} (hc : c.isAlphanum = false) (cs : List Char) :
    condensed (c :: cs) = condensed cs := by
  rw [condensed_eq_dropWhile, List.foldl_cons, writeNext_nil hc]
  cases cs with
  | nil => rfl
  | cons d ds =>
      rw [List.foldl_cons]
      cases hd : d.isAlphanum with
      | true =>
          rw [condensed_cons_of_isAlphanum hd, writeNext_of_isAlphanum hd,
            (dropWhile_foldl_writeNext ds ['_'] hd).1]
          simp [ne_underscore hd]
      | false =>
          rw [condensed_eq_dropWhile, List.foldl_cons, writeNext_underscore hd, writeNext_nil hd]

lemma condensed_cons (c : Char) (cs : List Char) :
    condensed (c :: cs) = if c.isAlphanum then c :: joined false cs else condensed cs := by
  cases hc : c.isAlphanum with
  | true => exact condensed_cons_of_isAlphanum hc cs
  | false => exact condensed_cons_of_not_isAlphanum hc cs

/-- The loop writes an underscore as soon as a run of other characters begins, and what it has
written too much is cut off in the end.  The text is the same if an underscore waits for the letter
or digit after it. -/
theorem condensed_eq_joined (cs : List Char) :
    condensed cs = joined false (cs.dropWhile fun c => !c.isAlphanum) := by
  induction cs with
  | nil => rfl
  | cons c cs ih =>
      rw [condensed_cons, List.dropWhile_cons]
      cases hc : c.isAlphanum with
      | true => simp [joined, hc]
      | false => simpa using ih

/-- A letter or digit with what is joined after it. -/
lemma joined_segmented (cs : List Char) (pending : Bool) {c : Char} (hc : c.isAlphanum = true) :
    Segmented (c :: joined pending cs) := by
  -- the last letter or digit that was kept goes along, for an underscore may follow it only once
  induction cs generalizing pending c with
  | nil => exact .single hc
  | cons d cs ih =>
      rw [joined]
      split_ifs with hd hpending
      · exact .underscore hc (ih false hd)
      · exact .cons hc (ih false hd)
      · exact ih true hc

lemma condensed_segmented (cs : List Char) : condensed cs = [] ∨ Segmented (condensed cs) := by
  induction cs with
  | nil => exact Or.inl rfl
  | cons c cs ih =>
      rw [condensed_cons]
      split_ifs with hc
      · exact Or.inr (joined_segmented cs false hc)
      · exact ih

/-! ## Reserved words -/

@[simp] lemma toList_identifierKey (name : String) :
    (identifierKey name).toList = name.toList.map Char.toLower := by
  rw [identifierKey, String.toList_ofList]

lemma isReserved_eq_false {name : String} (beginning : List Char)
    (hname : beginning <+: name.toList.map Char.toLower)
    (hwords : reservedWords.all (fun w => !beginning.isPrefixOf w.toList) = true) :
    isReserved name = false := by
  rw [isReserved, Bool.eq_false_iff]
  intro hmem
  have hword := List.all_eq_true.mp hwords (identifierKey name) (by simpa using hmem)
  rw [toList_identifierKey, Bool.not_eq_true', ← Bool.not_eq_true, List.isPrefixOf_iff_prefix]
    at hword
  exact hword hname

/-- With `k_` in front, segments are a valid identifier. -/
lemma Segmented.isValid_mended {cs : List Char} (h : Segmented cs) :
    isValid ("k_" ++ String.ofList cs) = true := by
  have heq : "k_" ++ String.ofList cs = String.ofList ('k' :: '_' :: cs) := by
    apply String.toList_injective
    simp
  have hsegmented : Segmented ('k' :: '_' :: cs) := .underscore (by decide) h
  have hfree : isReserved (String.ofList ('k' :: '_' :: cs)) = false := by
    refine isReserved_eq_false ['k', '_'] ?_ (by decide)
    rw [String.toList_ofList]
    exact ⟨cs.map Char.toLower, rfl⟩
  rw [heq, isValid, hsegmented.isBasicName rfl, hfree]
  rfl

/-- **Sanitized names are valid.** -/
theorem sanitize_valid (name : String) : isValid (sanitize name) = true := by
  unfold sanitize
  dsimp only
  split_ifs with hvalid hempty hmend
  · exact hvalid
  · decide
  · rcases condensed_segmented name.toList with hnil | hsegmented
    · exact absurd hnil (by simpa using hempty)
    · exact hsegmented.isValid_mended
  · rcases condensed_segmented name.toList with hnil | hsegmented
    · exact absurd hnil (by simpa using hempty)
    · simp only [Bool.or_eq_true, Bool.not_eq_true', not_or, Bool.not_eq_false,
        Bool.not_eq_true] at hmend
      rw [isValid, hsegmented.isBasicName hmend.1, hmend.2]
      rfl

end Gateware.Vhdl
