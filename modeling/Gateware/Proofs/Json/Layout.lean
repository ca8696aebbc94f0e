import Gateware.Proofs.Json.Scalars

/-!
# The text of a value is read as the value

A value is written with blanks between its parts, or with none.  `Layout` says which, with the two
ways to write text as its cases, and `Layout.chars` is the text.  What is read from it is the value
(`Layout.read_chars`), as long as all of its numbers are within the range of floating point
(`isWritable`).

The reader recurses on a bound for the values to come.  Twice the length of what is left is enough,
since an item of a container is shorter than the container by at least a bracket.
-/

namespace Gateware.Json

/-! ## Layouts -/

/-- All characters may stand between the parts of a value. -/
def Blank (cs : List Char) : Prop := ∀ c ∈ cs, isSpace c = true

/-- What stands between the parts of a value. -/
structure Layout where
  /-- Stands before every item of a container, and before its end if it has items. -/
  gap : (level : Nat) → List Char
  afterColon : List Char
  blank_gap : ∀ level, Blank (gap level)
  blank_afterColon : Blank afterColon

namespace Layout

variable (l : Layout)

/-- What stands before the end of a container. -/
def closing (level : Nat) (isEmpty : Bool) : List Char := if isEmpty then [] else l.gap level

mutual

/-- The text of a value. -/
def chars (level : Nat) : Json → List Char
  | null => "null".toList
  | bool b => (if b then "true" else "false").toList
  | int n => (toString n).toList
  | real m e => (realText m e).toList
  | text s => '"' :: quoteEnd s
  | array js => '[' :: (items (level + 1) js ++ (l.closing level js.isEmpty ++ [']']))
  | object fs => '\x7b' :: (fields (level + 1) fs ++ (l.closing level fs.isEmpty ++ ['\x7d']))
  | unreadable => "null".toList

/-- The items of an array. -/
def items (level : Nat) : List Json → List Char
  | [] => []
  | j :: js =>
    l.gap level ++ (chars level j ++ if js.isEmpty then [] else ',' :: items level js)

/-- The fields of an object. -/
def fields (level : Nat) : List (String × Json) → List Char
  | [] => []
  | (k, j) :: fs =>
    l.gap level ++ '"' :: (quoteEnd k ++ ':' :: (l.afterColon ++
      (chars level j ++ if fs.isEmpty then [] else ',' :: fields level fs)))

end

/-- No blanks at all. -/
def dense : Layout where
  gap _ := []
  afterColon := []
  blank_gap _ := by simp [Blank]
  blank_afterColon := by simp [Blank]

/-- One item a line. -/
def lined : Layout where
  gap level := (newline level).toList
  afterColon := [' ']
  blank_gap level := by simp [Blank, newline, isSpace]
  blank_afterColon := by simp [Blank, isSpace]

lemma compactItems_cons (j : Json) (js : List Json) :
    compactItems (j :: js) = compact j ++ if js.isEmpty then "" else "," ++ compactItems js := by
  cases js with
  | nil => simp [compactItems]
  | cons => simp [compactItems, String.append_assoc]

lemma compactFields_cons (k : String) (j : Json) (fs : List (String × Json)) :
    compactFields ((k, j) :: fs) =
      quote k ++ ":" ++ compact j ++ if fs.isEmpty then "" else "," ++ compactFields fs := by
  cases fs with
  | nil => simp [compactFields]
  | cons => simp [compactFields, String.append_assoc]

mutual

lemma dense_chars : ∀ (j : Json) (level : Nat), dense.chars level j = j.compact.toList
  | null, _ => rfl
  | bool _, _ => rfl
  | int _, _ => rfl
  | real _ _, _ => rfl
  | text s, _ => (toList_quote s).symm
  | array js, level => by
      rw [chars, compact, dense_items js (level + 1)]
      simp [closing, dense]
  | object fs, level => by
      rw [chars, compact, dense_fields fs (level + 1)]
      simp [closing, dense]
  | unreadable, _ => rfl

lemma dense_items : ∀ (js : List Json) (level : Nat),
    dense.items level js = (compactItems js).toList
  | [], _ => rfl
  | j :: js, level => by
      rw [items, compactItems_cons, dense_chars j level, dense_items js level]
      split_ifs <;> simp [dense]

lemma dense_fields : ∀ (fs : List (String × Json)) (level : Nat),
    dense.fields level fs = (compactFields fs).toList
  | [], _ => rfl
  | (k, j) :: fs, level => by
      rw [fields, compactFields_cons, dense_chars j level, dense_fields fs level]
      split_ifs <;> simp [dense, toList_quote]

end

mutual

lemma lined_chars : ∀ (j : Json) (level : Nat), lined.chars level j = (prettyAt level j).toList
  | null, _ => rfl
  | bool _, _ => rfl
  | int _, _ => rfl
  | real _ _, _ => rfl
  | text s, _ => (toList_quote s).symm
  | array [], _ => by
      rw [chars, prettyAt]
      rfl
  | array (j :: js), level => by
      rw [chars, items, prettyAt, lined_chars j (level + 1), lined_items js (level + 1)]
      simp [closing, lined]
  | object [], _ => by
      rw [chars, prettyAt]
      rfl
  | object ((k, j) :: fs), level => by
      rw [chars, fields, prettyAt, lined_chars j (level + 1), lined_fields fs (level + 1)]
      simp [closing, lined, toList_quote]
  | unreadable, _ => rfl

lemma lined_items : ∀ (js : List Json) (level : Nat),
    (if js.isEmpty then [] else ',' :: lined.items level js) = (prettyItems level js).toList
  | [], _ => rfl
  | j :: js, level => by
      rw [items, prettyItems, lined_chars j level, lined_items js level]
      simp [lined]

lemma lined_fields : ∀ (fs : List (String × Json)) (level : Nat),
    (if fs.isEmpty then [] else ',' :: lined.fields level fs) = (prettyFields level fs).toList
  | [], _ => rfl
  | (k, j) :: fs, level => by
      rw [fields, prettyFields, lined_chars j level, lined_fields fs level]
      simp [lined, toList_quote]

end

end Layout

/-! ## Numbers that can be read -/

mutual

/-- Whether all numbers are within the range of floating point, and all parts denote something. -/
def isWritable : Json → Bool
  | null => true
  | bool _ => true
  | int n => isInRange (Nat.toDigits 10 n.natAbs) [] 0
  | real m e => isInRange (Nat.toDigits 10 m.natAbs) [] e
  | text _ => true
  | array items => areWritable items
  | object fields => haveWritable fields
  | unreadable => false

/-- Whether the items can be written. -/
def areWritable : List Json → Bool
  | [] => true
  | j :: js => isWritable j && areWritable js

/-- Whether the values of fields can be written. -/
def haveWritable : List (String × Json) → Bool
  | [] => true
  | (_, j) :: fs => isWritable j && haveWritable fs

end

lemma areWritable_iff {js : List Json} : areWritable js = true ↔ ∀ j ∈ js, j.isWritable = true := by
  induction js with
  | nil => simp [areWritable]
  | cons j js ih => rw [areWritable, Bool.and_eq_true, ih, List.forall_mem_cons]

lemma haveWritable_iff {fs : List (String × Json)} :
    haveWritable fs = true ↔ ∀ f ∈ fs, f.2.isWritable = true := by
  induction fs with
  | nil => simp [haveWritable]
  | cons f fs ih => rw [haveWritable, Bool.and_eq_true, ih, List.forall_mem_cons]

/-- The whole numbers of 64 bits can be written. -/
lemma isWritable_int {n : Int} (hle : n.natAbs ≤ maxLong) : (int n).isWritable = true :=
  isInRange_of_le hle

/-! ## How texts start -/

section

variable {c : Char} (hc : c.isDigit = true ∨ c = '-')

include hc

lemma ne_of_number {d : Char} (hd : d.isDigit = false) (hminus : d ≠ '-') : c ≠ d := by
  rintro rfl
  rcases hc with hc | hc
  · simp [hd] at hc
  · exact hminus hc

lemma isSpace_of_number : isSpace c = false := by
  simp [isSpace, ne_of_number hc (d := ' ') rfl (by decide),
    ne_of_number hc (d := '\t') rfl (by decide), ne_of_number hc (d := '\n') rfl (by decide),
    ne_of_number hc (d := '\r') rfl (by decide)]

end

lemma exists_cons_int (n : Int) :
    ∃ c cs, (toString n).toList = c :: cs ∧ (c.isDigit = true ∨ c = '-') := by
  rw [toList_int]
  split_ifs
  · exact ⟨'-', _, rfl, .inr rfl⟩
  · obtain ⟨c, cs, hcs, hc⟩ := exists_digit_toDigits n.natAbs
    exact ⟨c, cs, hcs, .inl hc⟩

lemma exists_cons_real (m e : Int) :
    ∃ c cs, (realText m e).toList = c :: cs ∧ (c.isDigit = true ∨ c = '-') := by
  obtain ⟨c, cs, hcs, hc⟩ := exists_cons_int m
  refine ⟨c, cs ++ 'e' :: (toString e).toList, ?_, hc⟩
  rw [realText, String.toList_append, String.toList_append, hcs]
  simp

/-- No text of a value starts with a blank or with the end of an array. -/
lemma Layout.exists_cons_chars (l : Layout) (level : Nat) (j : Json) :
    ∃ c cs, l.chars level j = c :: cs ∧ isSpace c = false ∧ c ≠ ']' := by
  cases j with
  | null => exact ⟨_, _, rfl, rfl, by decide⟩
  | bool b => cases b <;> exact ⟨_, _, rfl, rfl, by decide⟩
  | int n =>
      obtain ⟨c, cs, hcs, hc⟩ := exists_cons_int n
      exact ⟨c, cs, hcs, isSpace_of_number hc, ne_of_number hc rfl (by decide)⟩
  | real m e =>
      obtain ⟨c, cs, hcs, hc⟩ := exists_cons_real m e
      exact ⟨c, cs, hcs, isSpace_of_number hc, ne_of_number hc rfl (by decide)⟩
  | text s => exact ⟨_, _, rfl, rfl, by decide⟩
  | array js => exact ⟨'[', _, by rw [chars], rfl, by decide⟩
  | object fs => exact ⟨'\x7b', _, by rw [chars], rfl, by decide⟩
  | unreadable => exact ⟨_, _, rfl, rfl, by decide⟩

lemma ends_blanks {blanks rest : List Char} (hblanks : Blank blanks) (hrest : Ends rest) :
    Ends (blanks ++ rest) := by
  cases blanks with
  | nil => exact hrest
  | cons c cs =>
      have hc : isSpace c = true := hblanks c List.mem_cons_self
      simp only [isSpace, Bool.or_eq_true, beq_iff_eq] at hc
      intro d hd
      cases hd
      rcases hc with ((rfl | rfl) | rfl) | rfl <;> decide

lemma ends_separator {c : Char} (hc : c ∈ [',', ']', '\x7d']) (rest : List Char) :
    Ends (c :: rest) := by
  intro d hd
  cases hd
  simp only [List.mem_cons, List.not_mem_nil, or_false] at hc
  rcases hc with rfl | rfl | rfl <;> decide

/-! ## Reading -/

section

variable {blanks cs rest : List Char} {fuel : Nat}

lemma skipSpace_blanks (h : Blank blanks) : skipSpace (blanks ++ cs) = skipSpace cs :=
  List.dropWhile_append_of_pos h

lemma skipSpace_cons {c : Char} (h : isSpace c = false) : skipSpace (c :: cs) = c :: cs :=
  List.dropWhile_cons_of_neg (by simp [h])

lemma readValue_blanks (h : Blank blanks) : readValue fuel (blanks ++ cs) = readValue fuel cs := by
  cases fuel with
  | zero => rfl
  | succ fuel => rw [readValue, readValue, skipSpace_blanks h]

lemma readItems_blanks (h : Blank blanks) : readItems fuel (blanks ++ cs) = readItems fuel cs := by
  cases fuel with
  | zero => rfl
  | succ fuel => rw [readItems, readItems, readValue_blanks h]

lemma readFields_blanks (h : Blank blanks) :
    readFields fuel (blanks ++ cs) = readFields fuel cs := by
  cases fuel with
  | zero => rfl
  | succ fuel => rw [readFields, readFields, skipSpace_blanks h]

/-- What starts like a number is read as one. -/
lemma readValue_number {c : Char} (hc : c.isDigit = true ∨ c = '-') :
    readValue (fuel + 1) (c :: cs) = readNumber (c :: cs) := by
  rw [readValue, skipSpace_cons (isSpace_of_number hc)]
  split
  · next h => cases h
  · next h => exact absurd (List.cons.inj h).1 (ne_of_number hc rfl (by decide))
  · next h => exact absurd (List.cons.inj h).1 (ne_of_number hc rfl (by decide))
  · next h => exact absurd (List.cons.inj h).1 (ne_of_number hc rfl (by decide))
  · next h =>
    cases h
    simp [ne_of_number hc (d := 't') rfl (by decide), ne_of_number hc (d := 'f') rfl (by decide),
      ne_of_number hc (d := 'n') rfl (by decide)]

lemma readValue_array {c : Char} (hspace : isSpace c = false) (hc : c ≠ ']')
    (h : Blank blanks) :
    readValue (fuel + 1) ('[' :: (blanks ++ c :: cs)) =
      (readItems fuel (blanks ++ c :: cs)).map fun r => (array r.1, r.2) := by
  rw [readItems_blanks h, readValue, skipSpace_cons rfl]
  simp only [skipSpace_blanks h, skipSpace_cons hspace]
  split
  · next heq => exact absurd (List.cons.inj heq).1 hc
  · exact Option.map_eq_bind.symm

lemma readValue_object {c : Char} (hspace : isSpace c = false) (hc : c ≠ '\x7d')
    (h : Blank blanks) {fields : List (String × Json)}
    (hread : readFields fuel (blanks ++ c :: cs) = some (some fields, rest)) :
    readValue (fuel + 1) ('\x7b' :: (blanks ++ c :: cs)) = some (object fields, rest) := by
  rw [readFields_blanks h] at hread
  rw [readValue, skipSpace_cons rfl]
  simp only [skipSpace_blanks h, skipSpace_cons hspace]
  split
  · next heq => exact absurd (List.cons.inj heq).1 hc
  · rw [hread]
    rfl

lemma readItems_last {j : Json} {after : List Char} (hread : readValue fuel cs = some (j, after))
    (hafter : skipSpace after = ']' :: rest) : readItems (fuel + 1) cs = some ([j], rest) := by
  rw [readItems, hread]
  simp [hafter]

lemma readItems_more {j : Json} {js : List Json} {after : List Char}
    (hread : readValue fuel cs = some (j, ',' :: after))
    (hmore : readItems fuel after = some (js, rest)) :
    readItems (fuel + 1) cs = some (j :: js, rest) := by
  rw [readItems, hread]
  simp [skipSpace_cons, isSpace, hmore]

lemma readFields_last {k : String} {j : Json} {after : List Char}
    (hread : readValue fuel cs = some (j, after)) (hafter : skipSpace after = '\x7d' :: rest) :
    readFields (fuel + 1) ('"' :: (quoteEnd k ++ ':' :: cs)) = some (some [(k, j)], rest) := by
  rw [readFields, skipSpace_cons rfl]
  simp [readString_quoteEnd, skipSpace_cons, isSpace, hread, hafter]

lemma readFields_more {k : String} {j : Json} {fs : List (String × Json)} {after : List Char}
    (hread : readValue fuel cs = some (j, ',' :: after))
    (hmore : readFields fuel after = some (some fs, rest)) :
    readFields (fuel + 1) ('"' :: (quoteEnd k ++ ':' :: cs)) =
      some (some ((k, j) :: fs), rest) := by
  rw [readFields, skipSpace_cons rfl]
  simp [readString_quoteEnd, skipSpace_cons, isSpace, hread, hmore]

end

/-! ## The text of a value is read as the value -/

namespace Layout

variable (l : Layout)

lemma blank_closing (level : Nat) (isEmpty : Bool) : Blank (l.closing level isEmpty) := by
  rw [closing]
  split_ifs
  · simp [Blank]
  · exact l.blank_gap level

mutual

lemma readValue_chars : ∀ (j : Json) {level fuel : Nat} {rest : List Char}, j.isWritable = true →
    2 * (l.chars level j).length ≤ fuel + 1 → Ends rest →
      readValue (fuel + 1) (l.chars level j ++ rest) = some (j, rest)
  | null, _, _, _, _, _, _ => rfl
  | bool true, _, _, _, _, _, _ => rfl
  | bool false, _, _, _, _, _, _ => rfl
  | int n, level, fuel, rest, hwritable, _, hrest => by
      obtain ⟨c, cs, hcs, hc⟩ := exists_cons_int n
      have hread := readNumber_whole hwritable hrest
      rw [hcs] at hread
      rw [chars, hcs, List.cons_append, readValue_number hc]
      exact hread
  | real m e, level, fuel, rest, hwritable, _, hrest => by
      obtain ⟨c, cs, hcs, hc⟩ := exists_cons_real m e
      have hread := readNumber_real hwritable hrest
      rw [hcs] at hread
      rw [chars, hcs, List.cons_append, readValue_number hc]
      exact hread
  | text s, level, fuel, rest, _, _, _ => by
      rw [chars, List.cons_append, readValue, skipSpace_cons rfl]
      simp [readString_quoteEnd]
  | array [], level, fuel, rest, _, _, _ => by
      rw [chars, items, readValue, List.cons_append, skipSpace_cons rfl]
      rfl
  | array (j :: js), level, fuel, rest, hwritable, hfuel, _ => by
      obtain ⟨c, cs, hcs, hspace, hc⟩ := l.exists_cons_chars (level + 1) j
      rw [chars, List.length_cons, List.length_append, List.length_append] at hfuel
      obtain ⟨fuel, rfl⟩ : ∃ n, fuel = n + 1 := ⟨fuel - 1, by omega⟩
      have hread : readItems (fuel + 1) (l.items (level + 1) (j :: js) ++
          (l.closing level (j :: js).isEmpty ++ ']' :: rest)) = some (j :: js, rest) :=
        readItems_items (j :: js) (List.cons_ne_nil j js) hwritable (by omega)
          (l.blank_closing level _)
      rw [items, hcs] at hread
      rw [chars, items, hcs]
      simp only [List.cons_append, List.append_assoc, List.nil_append] at hread ⊢
      rw [readValue_array hspace hc (l.blank_gap (level + 1)), hread]
      rfl
  | object [], level, fuel, rest, _, _, _ => by
      rw [chars, fields, readValue, List.cons_append, skipSpace_cons rfl]
      rfl
  | object (f :: fs), level, fuel, rest, hwritable, hfuel, _ => by
      rw [chars, List.length_cons, List.length_append, List.length_append] at hfuel
      obtain ⟨fuel, rfl⟩ : ∃ n, fuel = n + 1 := ⟨fuel - 1, by omega⟩
      have hread : readFields (fuel + 1) (l.fields (level + 1) (f :: fs) ++
          (l.closing level (f :: fs).isEmpty ++ '\x7d' :: rest)) = some (some (f :: fs), rest) :=
        readFields_fields (f :: fs) (List.cons_ne_nil f fs) hwritable (by omega)
          (l.blank_closing level _)
      rw [fields] at hread
      rw [chars, fields]
      simp only [List.cons_append, List.append_assoc, List.nil_append] at hread ⊢
      exact readValue_object rfl (by decide) (l.blank_gap (level + 1)) hread
  | unreadable, _, _, _, hwritable, _, _ => by
      cases hwritable

lemma readItems_items : ∀ (js : List Json) {level fuel : Nat} {blanks rest : List Char}, js ≠ [] →
    areWritable js = true → 2 * (l.items level js).length ≤ fuel → Blank blanks →
      readItems (fuel + 1) (l.items level js ++ (blanks ++ ']' :: rest)) = some (js, rest)
  | [], _, _, _, _, hne, _, _, _ => absurd rfl hne
  | j :: js, level, fuel, blanks, rest, _, hwritable, hfuel, hblanks => by
      obtain ⟨c, cs, hcs, -⟩ := l.exists_cons_chars level j
      have hpos : 0 < (l.chars level j).length := by
        rw [hcs]
        exact Nat.succ_pos _
      rw [areWritable, Bool.and_eq_true] at hwritable
      rw [items, List.length_append, List.length_append] at hfuel
      obtain ⟨fuel, rfl⟩ : ∃ n, fuel = n + 1 := ⟨fuel - 1, by omega⟩
      rw [items, List.append_assoc, List.append_assoc, readItems_blanks (l.blank_gap level)]
      cases js with
      | nil =>
          rw [if_pos List.isEmpty_nil, List.nil_append]
          refine readItems_last (readValue_chars j hwritable.1 (by omega) ?_) ?_
          · exact ends_blanks hblanks (ends_separator (by simp) rest)
          · exact (skipSpace_blanks hblanks).trans (skipSpace_cons rfl)
      | cons i js =>
          rw [if_neg (by simp), List.length_cons] at hfuel
          rw [if_neg (by simp), List.cons_append]
          refine readItems_more (readValue_chars j hwritable.1 (by omega) ?_)
            (readItems_items (i :: js) (List.cons_ne_nil i js) hwritable.2 (by omega) hblanks)
          exact ends_separator (by simp) _

lemma readFields_fields : ∀ (fs : List (String × Json)) {level fuel : Nat}
    {blanks rest : List Char}, fs ≠ [] → haveWritable fs = true →
      2 * (l.fields level fs).length ≤ fuel → Blank blanks →
      readFields (fuel + 1) (l.fields level fs ++ (blanks ++ '\x7d' :: rest)) = some (some fs, rest)
  | [], _, _, _, _, hne, _, _, _ => absurd rfl hne
  | (k, j) :: fs, level, fuel, blanks, rest, _, hwritable, hfuel, hblanks => by
      rw [haveWritable, Bool.and_eq_true] at hwritable
      rw [fields] at hfuel ⊢
      simp only [List.length_append, List.length_cons] at hfuel
      obtain ⟨fuel, rfl⟩ : ∃ n, fuel = n + 1 := ⟨fuel - 1, by omega⟩
      simp only [List.append_assoc, List.cons_append]
      rw [readFields_blanks (l.blank_gap level)]
      have hvalue : ∀ {rest}, Ends rest →
          readValue (fuel + 1) (l.afterColon ++ (l.chars level j ++ rest)) = some (j, rest) := by
        intro rest hrest
        rw [readValue_blanks l.blank_afterColon]
        exact readValue_chars j hwritable.1 (by omega) hrest
      cases fs with
      | nil =>
          rw [if_pos List.isEmpty_nil, List.nil_append]
          refine readFields_last (hvalue ?_) ?_
          · exact ends_blanks hblanks (ends_separator (by simp) rest)
          · exact (skipSpace_blanks hblanks).trans (skipSpace_cons rfl)
      | cons f fs =>
          rw [if_neg (by simp), List.length_cons] at hfuel
          rw [if_neg (by simp), List.cons_append]
          refine readFields_more (hvalue ?_)
            (readFields_fields (f :: fs) (List.cons_ne_nil f fs) hwritable.2 (by omega) hblanks)
          exact ends_separator (by simp) _

end

/-- What is written in a layout is read as the value. -/
lemma read_chars {j : Json} (hwritable : j.isWritable = true) {source : String}
    (hsource : source.toList = l.chars 0 j) : read source = some j := by
  have hvalue : readValue (2 * (l.chars 0 j).length + 1 + 1) (l.chars 0 j ++ []) = some (j, []) :=
    l.readValue_chars j hwritable (by omega) (by simp [Ends])
  rw [List.append_nil, add_assoc] at hvalue
  rw [read, hsource, hvalue]
  rfl

end Layout

/-- The text without blanks is read as the value. -/
lemma read_compact {j : Json} (hwritable : j.isWritable = true) : read j.compact = some j :=
  Layout.dense.read_chars hwritable (Layout.dense_chars j 0).symm

/-- The text with one item a line is read as the value. -/
lemma read_pretty {j : Json} (hwritable : j.isWritable = true) : read j.pretty = some j :=
  Layout.lined.read_chars hwritable (Layout.lined_chars j 0).symm

end Gateware.Json
