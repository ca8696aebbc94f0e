import Gateware.Text.Blank
import Mathlib.Data.List.DropRight
import Mathlib.Tactic.Common

/-!
# What words and lines are

`Spaced` says that a text consists of given words with blanks between and around them, and `Lined`
that it consists of given lines with a line end after each.  A text is spaced and lined in exactly
one way, the way in which `words` and `lines` take it apart (`words_eq_iff`, `lines_eq_iff`).
-/

namespace Gateware.Text

/-! ## Words -/

def AllBlank (cs : List Char) : Prop := ∀ c ∈ cs, isBlank c = true

/-- At least one character, and none of them blank. -/
def IsWord (w : List Char) : Prop := w ≠ [] ∧ ∀ c ∈ w, isBlank c = false

/-- No word goes on at the start of the text. -/
def AtGap (cs : List Char) : Prop := ∀ c rest, cs = c :: rest → isBlank c = true

/-- The text consists of the words, in this order, and of blanks. -/
inductive Spaced : List Char → List (List Char) → Prop
  | nil : Spaced [] []
  | blank {b : Char} {cs : List Char} {ws : List (List Char)} :
      isBlank b = true → Spaced cs ws → Spaced (b :: cs) ws
  | word {w cs : List Char} {ws : List (List Char)} :
      IsWord w → AtGap cs → Spaced cs ws → Spaced (w ++ cs) (w :: ws)

lemma atGap_nil : AtGap [] := by
  intro c rest h
  cases h

lemma atGap_cons {c : Char} {cs : List Char} (hc : isBlank c = true) : AtGap (c :: cs) := by
  intro d rest h
  cases h
  exact hc

section

variable {c d : Char} {cs : List Char}

lemma words_blank (hc : isBlank c = true) : words (c :: cs) = words cs := by
  rw [words.eq_def]
  exact if_pos hc

lemma words_singleton (hc : isBlank c = false) : words [c] = [[c]] := by
  rw [words.eq_def]
  simp [hc]

lemma words_before_blank (hc : isBlank c = false) (hd : isBlank d = true) :
    words (c :: d :: cs) = [c] :: words (d :: cs) := by
  rw [words.eq_def]
  simp [hc, hd]

lemma words_within {w : List Char} {ws : List (List Char)} (hc : isBlank c = false)
    (hd : isBlank d = false) (h : words (d :: cs) = w :: ws) :
    words (c :: d :: cs) = (c :: w) :: ws := by
  rw [words.eq_def]
  simp [hc, hd, h]

end

/-- A text that starts within a word has that word as its first one. -/
lemma Spaced.exists_word {c : Char} {cs : List Char} {ws : List (List Char)}
    (hc : isBlank c = false) (h : Spaced (c :: cs) ws) :
    ∃ w rest ws', c :: cs = w ++ rest ∧ ws = w :: ws' ∧ IsWord w ∧ AtGap rest ∧
      Spaced rest ws' := by
  generalize hcs : c :: cs = text at h
  cases h with
  | nil => cases hcs
  | blank hb =>
      cases hcs
      rw [hc] at hb
      cases hb
  | word hw hgap hrest => exact ⟨_, _, _, rfl, rfl, hw, hgap, hrest⟩

lemma isWord_cons {c : Char} {w : List Char} (hc : isBlank c = false)
    (hw : ∀ d ∈ w, isBlank d = false) : IsWord (c :: w) :=
  ⟨List.cons_ne_nil _ _, List.forall_mem_cons.mpr ⟨hc, hw⟩⟩

lemma spaced_words : ∀ cs : List Char, Spaced cs (words cs)
  | [] => .nil
  | c :: cs => by
      have ih := spaced_words cs
      by_cases hc : isBlank c = true
      · rw [words_blank hc]
        exact .blank hc ih
      rw [Bool.not_eq_true] at hc
      have hone := isWord_cons hc (List.forall_mem_nil _)
      cases cs with
      | nil =>
          rw [words_singleton hc]
          exact .word hone atGap_nil .nil
      | cons d ds =>
          by_cases hd : isBlank d = true
          · rw [words_before_blank hc hd]
            exact .word hone (atGap_cons hd) ih
          · rw [Bool.not_eq_true] at hd
            -- The word that the rest starts with is continued to the left.
            obtain ⟨w, rest, ws, htext, hwords, hw, hgap, hrest⟩ := ih.exists_word hd
            rw [words_within hc hd hwords, htext]
            exact .word (isWord_cons hc hw.2) hgap hrest

lemma words_append : ∀ {w cs : List Char}, IsWord w → AtGap cs → words (w ++ cs) = w :: words cs
  | [], cs, hw, hgap => absurd rfl hw.1
  | [c], cs, hw, hgap => by
      have hc : isBlank c = false := hw.2 c List.mem_cons_self
      cases cs with
      | nil => exact words_singleton hc
      | cons d ds => exact words_before_blank hc (hgap d ds rfl)
  | c :: d :: w, cs, hw, hgap => by
      have hc : isBlank c = false := hw.2 c List.mem_cons_self
      have hrest : ∀ x ∈ d :: w, isBlank x = false := fun x hx => hw.2 x (List.mem_cons_of_mem _ hx)
      have hd : isBlank d = false := hrest d List.mem_cons_self
      have ih : words (d :: w ++ cs) = (d :: w) :: words cs :=
        words_append ⟨List.cons_ne_nil _ _, hrest⟩ hgap
      exact words_within hc hd ih

lemma Spaced.words_eq {cs : List Char} {ws : List (List Char)} (h : Spaced cs ws) :
    words cs = ws := by
  induction h with
  | nil => rfl
  | blank hb _ ih => rw [words_blank hb, ih]
  | word hw hgap _ ih => rw [words_append hw hgap, ih]

theorem words_eq_iff {cs : List Char} {ws : List (List Char)} : words cs = ws ↔ Spaced cs ws :=
  ⟨fun h => h ▸ spaced_words cs, Spaced.words_eq⟩

lemma Spaced.isWord {cs w : List Char} {ws : List (List Char)} (h : Spaced cs ws) (hw : w ∈ ws) :
    IsWord w := by
  induction h with
  | nil => cases hw
  | blank _ _ ih => exact ih hw
  | word hword _ _ ih =>
      rcases List.mem_cons.mp hw with rfl | hw
      · exact hword
      · exact ih hw

lemma words_eq_nil_iff {cs : List Char} : words cs = [] ↔ AllBlank cs := by
  rw [words_eq_iff]
  constructor
  · intro h
    generalize hws : ([] : List (List Char)) = ws at h
    induction h with
    | nil => exact List.forall_mem_nil _
    | blank hb _ ih => exact List.forall_mem_cons.mpr ⟨hb, ih hws⟩
    | word => cases hws
  · intro h
    induction cs with
    | nil => exact .nil
    | cons c cs ih =>
        obtain ⟨hc, hcs⟩ := List.forall_mem_cons.mp h
        exact .blank hc (ih hcs)

/-! ## Blanks at the ends -/

lemma words_trimStart (cs : List Char) : words (trimStart cs) = words cs := by
  induction cs with
  | nil => rfl
  | cons c cs ih =>
      by_cases hc : isBlank c = true
      · rw [trimStart, List.dropWhile_cons_of_pos hc, words_blank hc]
        exact ih
      · rw [trimStart, List.dropWhile_cons_of_neg hc]

lemma Spaced.append_blanks {cs bs : List Char} {ws : List (List Char)} (h : Spaced cs ws)
    (hb : AllBlank bs) : Spaced (cs ++ bs) ws := by
  induction h with
  | nil => exact words_eq_iff.mp (words_eq_nil_iff.mpr hb)
  | blank hc _ ih => exact .blank hc ih
  | @word w cs ws hw hgap _ ih =>
      rw [List.append_assoc]
      refine .word hw ?_ ih
      intro c rest heq
      rcases List.append_eq_cons_iff.mp heq with ⟨-, hbs⟩ | ⟨cs', hcs, -⟩
      · exact hb c (hbs ▸ List.mem_cons_self)
      · exact hgap c cs' hcs

lemma words_trimEnd (cs : List Char) : words (trimEnd cs) = words cs := by
  have hsplit : trimEnd cs ++ cs.rtakeWhile isBlank = cs := List.rdropWhile_append_rtakeWhile
  have hblank : AllBlank (cs.rtakeWhile isBlank) := fun c hc => List.mem_rtakeWhile_imp hc
  conv_rhs => rw [← hsplit]
  exact ((spaced_words (trimEnd cs)).append_blanks hblank).words_eq.symm

lemma words_trim (cs : List Char) : words (trim cs) = words cs := by
  rw [trim, words_trimEnd, words_trimStart]

lemma trim_eq_nil_iff {cs : List Char} : trim cs = [] ↔ words cs = [] := by
  constructor
  · intro h
    rw [← words_trim, h]
    rfl
  · intro h
    rw [← words_trimStart, words_eq_nil_iff] at h
    exact List.rdropWhile_eq_nil_iff.mpr h

lemma IsWord.trim_eq {w : List Char} (h : IsWord w) : trim w = w := by
  have hstart : trimStart w = w := by
    obtain ⟨c, cs, rfl⟩ := List.exists_cons_of_ne_nil h.1
    refine List.dropWhile_cons_of_neg ?_
    rw [h.2 c List.mem_cons_self]
    exact Bool.false_ne_true
  rw [trim, hstart]
  refine List.rdropWhile_eq_self_iff.mpr ?_
  intro hne
  rw [h.2 _ (List.getLast_mem hne)]
  exact Bool.false_ne_true

/-- Blanks around a text that does not start or end with one are what is trimmed off. -/
lemma trim_append {before cs after : List Char} (hbefore : AllBlank before)
    (hafter : AllBlank after) (hfirst : ∀ c ∈ cs.head?, isBlank c = false)
    (hlast : ∀ c ∈ cs.getLast?, isBlank c = false) : trim (before ++ cs ++ after) = cs := by
  have hstart : trimStart (before ++ cs ++ after) = trimStart (cs ++ after) := by
    rw [List.append_assoc]
    exact List.dropWhile_append_of_pos hbefore
  have hend : trimEnd (cs ++ after) = trimEnd cs := by
    have hafter' : ∀ c ∈ after.reverse, isBlank c = true := fun c hc =>
      hafter c (List.mem_reverse.mp hc)
    rw [trimEnd, trimEnd, List.reverse_append, List.dropWhile_append_of_pos hafter']
  rw [trim, hstart]
  cases cs with
  | nil =>
      rw [List.nil_append, ← trim, trim_eq_nil_iff, words_eq_nil_iff]
      exact hafter
  | cons c cs =>
      have hc : ¬ isBlank c = true := Bool.eq_false_iff.mp (hfirst c rfl)
      rw [List.cons_append, trimStart, List.dropWhile_cons_of_neg hc, ← List.cons_append, hend]
      refine List.rdropWhile_eq_self_iff.mpr ?_
      intro hne
      exact Bool.eq_false_iff.mp (hlast _ (List.getLast_mem_getLast? hne))

lemma IsWord.trim_append {before w after : List Char} (h : IsWord w) (hbefore : AllBlank before)
    (hafter : AllBlank after) : trim (before ++ w ++ after) = w :=
  Text.trim_append hbefore hafter (fun c hc => h.2 c (List.mem_of_mem_head? hc))
    fun c hc => h.2 c (List.mem_of_mem_getLast? hc)

/-! ## Lines -/

/-- The text consists of the lines, in this order, with a line end after each; after the last line
it may be missing.  A carriage return before a line feed belongs to the line end. -/
inductive Lined : List Char → List (List Char) → Prop
  | nil : Lined [] []
  | last {l : List Char} : l ≠ [] → '\n' ∉ l → Lined l [l]
  | feed {l rest : List Char} {ls : List (List Char)} :
      '\n' ∉ l → l.getLast? ≠ some '\r' → Lined rest ls → Lined (l ++ '\n' :: rest) (l :: ls)
  | returnFeed {l rest : List Char} {ls : List (List Char)} :
      '\n' ∉ l → Lined rest ls → Lined (l ++ '\r' :: '\n' :: rest) (l :: ls)

/-- A character that is not part of a line end, with what follows it. -/
def InLine (c : Char) (cs : List Char) : Prop := c ≠ '\n' ∧ (c = '\r' → cs.head? ≠ some '\n')

section

variable {c : Char} {cs l : List Char} {ls : List (List Char)}

lemma lines_inLine (h : InLine c cs) :
    lines (c :: cs) = match lines cs with
      | [] => [[c]]
      | l :: ls => (c :: l) :: ls := by
  rw [lines.eq_def]
  split
  · next heq => cases heq
  · next heq =>
      cases heq
      exact absurd rfl h.1
  · next heq =>
      cases heq
      exact absurd rfl (h.2 rfl)
  · next heq =>
      cases heq
      rfl

lemma lines_within (h : InLine c cs) (hrest : lines cs = l :: ls) :
    lines (c :: cs) = (c :: l) :: ls := by
  rw [lines_inLine h, hrest]

lemma Lined.cons (hc : InLine c cs) (h : Lined cs (l :: ls)) :
    Lined (c :: cs) ((c :: l) :: ls) := by
  have hmem : '\n' ∉ l → '\n' ∉ c :: l := by
    intro hl hmem
    rcases List.mem_cons.mp hmem with heq | hmem
    · exact hc.1 heq.symm
    · exact hl hmem
  cases h with
  | last hne hl => exact .last (List.cons_ne_nil _ _) (hmem hl)
  | @feed _ rest _ hl hreturn hrest =>
      refine .feed (l := c :: l) (hmem hl) ?_ hrest
      cases l with
      | nil =>
          intro hlast
          exact hc.2 (Option.some.inj hlast) rfl
      | cons d l => exact hreturn
  | returnFeed hl hrest => exact .returnFeed (l := c :: l) (hmem hl) hrest

lemma inLine_of (hfeed : c ≠ '\n') (hreturn : ∀ rest, c = '\r' → cs = '\n' :: rest → False) :
    InLine c cs := by
  refine ⟨hfeed, ?_⟩
  intro hc hhead
  obtain ⟨rest, hrest⟩ := List.head?_eq_some_iff.mp hhead
  exact hreturn rest hc hrest

lemma lined_lines (cs : List Char) : Lined cs (lines cs) := by
  fun_induction lines cs with
  | case1 => exact .nil
  | case2 cs ih => exact .feed (l := []) List.not_mem_nil (by simp) ih
  | case3 cs ih => exact .returnFeed (l := []) List.not_mem_nil ih
  | case4 c cs hfeed hreturn hnone ih =>
      rw [hnone] at ih
      cases ih
      refine .last (List.cons_ne_nil _ _) ?_
      intro hmem
      exact hfeed (List.mem_singleton.mp hmem).symm
  | case5 c cs hfeed hreturn l ls hsome ih =>
      rw [hsome] at ih
      exact ih.cons (inLine_of hfeed hreturn)

lemma lines_of_not_mem : ∀ {l : List Char}, l ≠ [] → '\n' ∉ l → lines l = [l]
  | [], hne, hl => absurd rfl hne
  | [c], hne, hl => by
      have hc : InLine c [] := by
        refine ⟨?_, by simp⟩
        intro heq
        exact hl (List.mem_singleton.mpr heq.symm)
      rw [lines_inLine hc]
      rfl
  | c :: d :: l, hne, hl => by
      have hc : c ≠ '\n' := fun heq => hl (List.mem_cons.mpr (.inl heq.symm))
      have hrest : '\n' ∉ d :: l := fun hmem => hl (List.mem_cons_of_mem _ hmem)
      refine lines_within (inLine_of hc ?_) (lines_of_not_mem (List.cons_ne_nil _ _) hrest)
      intro rest _ heq
      exact hrest (heq ▸ List.mem_cons_self)

/-- A line up to its end, with what follows it. -/
lemma lines_append {tail : List Char} (htail : lines tail = [] :: ls) :
    ∀ {l : List Char}, '\n' ∉ l → (l.getLast? = some '\r' → tail.head? ≠ some '\n') →
      lines (l ++ tail) = l :: ls
  | [], hl, hreturn => htail
  | c :: l, hl, hreturn => by
      have hc : c ≠ '\n' := fun heq => hl (List.mem_cons.mpr (.inl heq.symm))
      have hrest : '\n' ∉ l := fun hmem => hl (List.mem_cons_of_mem _ hmem)
      cases l with
      | nil =>
          refine lines_within ⟨hc, ?_⟩ htail
          intro heq
          exact hreturn (congrArg some heq)
      | cons d l =>
          refine lines_within (inLine_of hc ?_) (lines_append htail hrest hreturn)
          intro rest _ heq
          exact hrest ((List.cons.inj heq).1 ▸ List.mem_cons_self)

lemma Lined.lines_eq (h : Lined cs ls) : lines cs = ls := by
  induction h with
  | nil => rfl
  | last hne hl => exact lines_of_not_mem hne hl
  | @feed l rest ls hl hreturn _ ih =>
      have htail : lines ('\n' :: rest) = [] :: ls := by rw [lines, ih]
      exact lines_append htail hl fun hlast => absurd hlast hreturn
  | @returnFeed l rest ls hl _ ih =>
      have htail : lines ('\r' :: '\n' :: rest) = [] :: ls := by rw [lines, ih]
      exact lines_append htail hl fun _ => by simp

theorem lines_eq_iff : lines cs = ls ↔ Lined cs ls :=
  ⟨fun h => h ▸ lined_lines cs, Lined.lines_eq⟩

/-- What stands in a line stands in the text. -/
lemma Lined.mem (h : Lined cs ls) (hl : l ∈ ls) (hc : c ∈ l) : c ∈ cs := by
  induction h with
  | nil => simp at hl
  | last _ _ =>
      rw [List.mem_singleton.mp hl] at hc
      exact hc
  | feed _ _ _ ih =>
      rcases List.mem_cons.mp hl with rfl | hl
      · simp [hc]
      · simp [ih hl]
  | returnFeed _ _ ih =>
      rcases List.mem_cons.mp hl with rfl | hl
      · simp [hc]
      · simp [ih hl]

end

end Gateware.Text
