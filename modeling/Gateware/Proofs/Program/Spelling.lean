import Gateware.Program.Json
import Gateware.Proofs.Json.Layout
import Gateware.Proofs.Json.Record
import Gateware.Proofs.Lowering.Inversion

/-!
# Every spelling of a program is read as the program

A program has many spellings in JSON: the fields of its records may stand in any order and among
unknown ones, or a record may be the array of its values.  `Program.Spelled` says which values spell
a program.  Reading does not tell them apart.

Widths are numbers of 32 bits and constants those of 64 bits with a sign; `Program.fits` says that a
program has no others.
-/

namespace Gateware

lemma BinaryOp.ofMnemonic_mnemonic (op : BinaryOp) : BinaryOp.ofMnemonic op.mnemonic = some op := by
  cases op <;> rfl

lemma UnaryOp.ofMnemonic_mnemonic (op : UnaryOp) : UnaryOp.ofMnemonic op.mnemonic = some op := by
  cases op <;> rfl

namespace Program

/-! ## Spellings -/

mutual

/-- A value spells an expression. -/
def Expr.Spelled : Expr → Json → Prop
  | .input name, j => Json.Writes [("kind", .text "variable"), ("name", .text name)] j
  | .constant value type, j =>
    Json.Writes ([("kind", .text "constant"), ("value", .int value)] ++ typeFields type) j
  | .binary op operands type, j =>
    ∃ js, exprsSpelled operands js ∧ Json.Writes ([("kind", .text "binary"),
      ("op", .text op.mnemonic), ("operands", .array js)] ++ typeFields type) j
  | .unary op operand type, j =>
    ∃ k, operand.Spelled k ∧ Json.Writes ([("kind", .text "unary"), ("op", .text op.mnemonic),
      ("operand", k)] ++ typeFields type) j

/-- Values spell expressions. -/
def exprsSpelled : List Expr → List Json → Prop
  | [], js => js = []
  | e :: es, js => ∃ k ks, js = k :: ks ∧ e.Spelled k ∧ exprsSpelled es ks

end

/-- A value spells an input. -/
def Input.Spelled (i : Input) (j : Json) : Prop :=
  Json.Writes (("name", .text i.name) :: typeFields i.type) j

/-- A value spells a member. -/
def Member.Spelled (m : Member) (j : Json) : Prop :=
  ∃ inputs result body, List.Forall₂ Input.Spelled m.inputs inputs ∧
    Json.Writes (typeFields m.result) result ∧ m.body.Spelled body ∧
    Json.Writes [("name", .text m.name), ("inputs", .array inputs), ("result", result),
      ("body", body)] j

/-- A value spells a program. -/
def Spelled (p : Program) (j : Json) : Prop :=
  ∃ members, List.Forall₂ Member.Spelled p.members members ∧
    Json.Writes [("assemblies", .array (p.assemblies.map Assembly.toJson)),
      ("members", .array members)] j

lemma exprsSpelled_iff {es : List Expr} {js : List Json} :
    exprsSpelled es js ↔ List.Forall₂ Expr.Spelled es js := by
  induction es generalizing js with
  | nil => rw [exprsSpelled, List.forall₂_nil_left_iff]
  | cons e es ih =>
      rw [exprsSpelled, List.forall₂_cons_left_iff]
      simp only [ih]
      constructor
      · rintro ⟨k, ks, hjs, hk, hks⟩
        exact ⟨k, ks, hk, hks, hjs⟩
      · rintro ⟨k, ks, hk, hks, hjs⟩
        exact ⟨k, ks, hjs, hk, hks⟩

/-! ## What is written is a spelling -/

lemma exprsToJson_eq (es : List Expr) : exprsToJson es = es.map Expr.toJson := by
  induction es with
  | nil => rfl
  | cons e es ih => rw [exprsToJson, ih, List.map_cons]

lemma Expr.spelled_toJson (e : Expr) : e.Spelled e.toJson := by
  induction e using Expr.induction with
  | input name => exact Json.writes_object _
  | constant value type => exact Json.writes_object _
  | binary op operands type ih =>
      refine ⟨exprsToJson operands, exprsSpelled_iff.mpr ?_, Json.writes_object _⟩
      rw [exprsToJson_eq, List.forall₂_map_right_iff]
      exact List.forall₂_same.mpr ih
  | unary op operand type ih => exact ⟨operand.toJson, ih, Json.writes_object _⟩

lemma Member.spelled_toJson (m : Member) : m.Spelled m.toJson := by
  refine ⟨m.inputs.map Input.toJson, .object (typeFields m.result), m.body.toJson, ?_,
    Json.writes_object _, m.body.spelled_toJson, Json.writes_object _⟩
  rw [List.forall₂_map_right_iff, List.forall₂_same]
  exact fun i _ => Json.writes_object _

lemma spelled_toJson (p : Program) : p.Spelled p.toJson := by
  refine ⟨p.members.map Member.toJson, ?_, Json.writes_object _⟩
  rw [List.forall₂_map_right_iff, List.forall₂_same]
  exact fun m _ => m.spelled_toJson

/-! ## Numbers -/

/-- The width of a type is a number of 32 bits. -/
def typeFits (t : BitType) : Bool := t.width ≤ maxWord

mutual

/-- Widths are numbers of 32 bits, and constants are numbers of 64 bits. -/
def Expr.fits : Expr → Bool
  | .input _ => true
  | .constant value type =>
    (Int64.minValue.toInt ≤ value && value ≤ Int64.maxValue.toInt) && typeFits type
  | .binary _ operands type => exprsFit operands && typeFits type
  | .unary _ operand type => operand.fits && typeFits type

/-- The numbers in expressions fit. -/
def exprsFit : List Expr → Bool
  | [] => true
  | e :: es => e.fits && exprsFit es

end

/-- The numbers in a member fit. -/
def Member.fits (m : Member) : Bool :=
  (m.inputs.all fun i => typeFits i.type) && typeFits m.result && m.body.fits

/-- The numbers in a program fit. -/
def fits (p : Program) : Bool := p.members.all Member.fits

lemma exprsFit_iff {es : List Expr} : exprsFit es = true ↔ ∀ e ∈ es, e.fits = true := by
  induction es with
  | nil => simp [exprsFit]
  | cons e es ih => rw [exprsFit, Bool.and_eq_true, ih, List.forall_mem_cons]

/-! ## Reading expressions -/

section

variable {fields all extra : List (String × Json)}

lemma single_of_perm (hnodup : (fields.map Prod.fst).Nodup) (hperm : all.Perm (fields ++ extra))
    (hextra : ∀ f ∈ extra, f.1 ∉ fields.map Prod.fst) {f : String × Json} (hf : f ∈ fields) :
    single f.1 all = some f.2 := by
  rw [single, Json.filter_key_of_perm hnodup hperm hextra hf]

lemma mapM_single (h : ∀ f ∈ fields, single f.1 all = some f.2) :
    (fields.map Prod.fst).mapM (fun name => single name all) = some (fields.map Prod.snd) := by
  induction fields with
  | nil => rfl
  | cons f fields ih =>
      rw [List.forall_mem_cons] at h
      simp [h.1, ih h.2]

end

/-- The kind and the values of an expression are found however it is written. -/
lemma openExpr_of_writes (kind : ExprKind) {fields : List (String × Json)} {j : Json}
    (h : Json.Writes (("kind", .text kind.name) :: fields) j)
    (hfields : fields.map Prod.fst = kind.fields) (inside : Bool) :
    openExpr inside j = some (kind, fields.map Prod.snd) := by
  have hkind : ExprKind.ofJson inside (.text kind.name) = some kind := by
    cases kind <;> rfl
  cases h with
  | object hperm hextra =>
      have hnodup : ((("kind", Json.text kind.name) :: fields).map Prod.fst).Nodup := by
        rw [List.map_cons, hfields]
        cases kind <;> decide
      have hsingle := fun f hf => single_of_perm hnodup hperm hextra (f := f) hf
      rw [List.forall_mem_cons] at hsingle
      have hvalues := mapM_single hsingle.2
      rw [hfields] at hvalues
      simp [openExpr, hsingle.1, hkind, hvalues]
  | array =>
      have hlength : fields.length = kind.fields.length := by
        rw [← hfields, List.length_map]
      simp [openExpr, hkind, hlength]

lemma operatorName_text (name : String) : operatorName (.text name) = some name := rfl

lemma typeOf_fits {t : BitType} (h : typeFits t = true) :
    typeOf (.int t.width) (.bool t.signed) = some t := by
  rw [typeFits, decide_eq_true_eq] at h
  have hle : (t.width : Int) ≤ maxWord := by omega
  simp [typeOf, Json.asNat, Json.asBool, hle]

/-- Every spelling of an expression is read as the expression.  The number of containers that may
be opened is bound enough, since every expression is one. -/
lemma exprOfJson_spelled (e : Expr) : ∀ {inside : Bool} {depth : Nat} {j : Json}, e.fits = true →
    e.Spelled j → j.readableWithin depth = true → exprOfJson inside depth j = some e := by
  induction e using Expr.induction with
  | input name =>
      intro inside depth j _ hspelled hreadable
      obtain ⟨d, rfl, -⟩ := Json.Writes.readableWithin hspelled hreadable
      rw [exprOfJson, openExpr_of_writes .input hspelled rfl]
      rfl
  | constant value type =>
      intro inside depth j hfits hspelled hreadable
      rw [Expr.fits, Bool.and_eq_true] at hfits
      obtain ⟨d, rfl, -⟩ := Json.Writes.readableWithin hspelled hreadable
      rw [exprOfJson, openExpr_of_writes .constant hspelled rfl]
      have hvalue : (Json.int value).asLong = some value := if_pos hfits.1
      simp [hvalue, typeFields, typeOf_fits hfits.2]
  | binary op operands type ih =>
      intro inside depth j hfits hspelled hreadable
      rw [Expr.fits, Bool.and_eq_true, exprsFit_iff] at hfits
      obtain ⟨js, hjs, hwrites⟩ := hspelled
      obtain ⟨d, rfl, hparts⟩ := hwrites.readableWithin hreadable
      obtain ⟨d, rfl, hitems⟩ :=
        Json.readableWithin_array.mp (hparts ("operands", .array js) (by simp))
      have hoperands : (js.mapM fun j => exprOfJson true (d + 1) j) = some operands := by
        refine Json.mapM_of_forall₂ (exprsSpelled_iff.mp hjs) fun e he k hk hspelled => ?_
        exact ih e he (hfits.1 e he) hspelled (Json.readableWithin_mono d.le_succ (hitems k hk))
      rw [exprOfJson, openExpr_of_writes .binary hwrites rfl]
      simp [operatorName_text, BinaryOp.ofMnemonic_mnemonic, hoperands, typeFields,
        typeOf_fits hfits.2]
  | unary op operand type ih =>
      intro inside depth j hfits hspelled hreadable
      rw [Expr.fits, Bool.and_eq_true] at hfits
      obtain ⟨k, hk, hwrites⟩ := hspelled
      obtain ⟨d, rfl, hparts⟩ := hwrites.readableWithin hreadable
      have hoperand : exprOfJson true d k = some operand :=
        ih hfits.1 hk (hparts ("operand", k) (by simp))
      rw [exprOfJson, openExpr_of_writes .unary hwrites rfl]
      simp [operatorName_text, UnaryOp.ofMnemonic_mnemonic, hoperand, typeFields,
        typeOf_fits hfits.2]

/-! ## Reading programs -/

section

variable {depth : Nat} {j : Json} (hreadable : j.readableWithin depth = true)

include hreadable

lemma Expr.ofJson_spelled {e : Expr} (hfits : e.fits = true) (hspelled : e.Spelled j) :
    Expr.ofJson depth j = some e := by
  rw [Expr.ofJson, if_pos hreadable]
  exact exprOfJson_spelled e hfits hspelled hreadable

lemma typeOfJson_writes {t : BitType} (hfits : typeFits t = true)
    (hwrites : Json.Writes (typeFields t) j) : typeOfJson depth j = some t := by
  obtain ⟨d, rfl, -⟩ := hwrites.readableWithin hreadable
  have hrecord : j.record ["width", "signed"] (d + 1) =
      some (d, [some (.int t.width), some (.bool t.signed)]) :=
    hwrites.record (by simp [typeFields]) d
  rw [typeOfJson, hrecord]
  exact typeOf_fits hfits

lemma Input.ofJson_spelled {i : Input} (hfits : typeFits i.type = true) (hspelled : i.Spelled j) :
    Input.ofJson depth j = some i := by
  obtain ⟨d, rfl, -⟩ := Json.Writes.readableWithin hspelled hreadable
  have hrecord : j.record ["name", "width", "signed"] (d + 1) =
      some (d, [some (.text i.name), some (.int i.type.width), some (.bool i.type.signed)]) :=
    Json.Writes.record hspelled (by simp [typeFields]) d
  rw [Input.ofJson, hrecord]
  simp [Json.asText, typeOf_fits hfits]

lemma Member.ofJson_spelled {m : Member} (hfits : m.fits = true) (hspelled : m.Spelled j) :
    Member.ofJson depth j = some m := by
  rw [Member.fits, Bool.and_eq_true, Bool.and_eq_true, List.all_eq_true] at hfits
  obtain ⟨⟨hfitInputs, hfitResult⟩, hfitBody⟩ := hfits
  obtain ⟨inputs, result, body, hinputs, hresult, hbody, hwrites⟩ := hspelled
  obtain ⟨d, rfl, hparts⟩ := hwrites.readableWithin hreadable
  have hrecord : j.record ["name", "inputs", "result", "body"] (d + 1) =
      some (d, [some (.text m.name), some (.array inputs), some result, some body]) :=
    hwrites.record (by simp) d
  have hreadInputs : Json.items Input.ofJson d (.array inputs) = some m.inputs :=
    Json.items_of_forall₂ (hparts ("inputs", .array inputs) (by simp)) hinputs
      fun i hi _ _ hspelled hk => Input.ofJson_spelled hk (hfitInputs i hi) hspelled
  have hreadResult := typeOfJson_writes (hparts ("result", result) (by simp)) hfitResult hresult
  have hreadBody := Expr.ofJson_spelled (hparts ("body", body) (by simp)) hfitBody hbody
  rw [Member.ofJson, hrecord]
  simp [Json.asText, hreadInputs, hreadResult, hreadBody]

lemma Assembly.ofJson_toJson {a : Assembly} (ha : j = a.toJson) :
    Assembly.ofJson depth j = some a := by
  rw [ha] at hreadable ⊢
  cases a with
  | file path =>
      obtain ⟨d, rfl, -⟩ := Json.readableWithin_object.mp hreadable
      rfl
  | inMemory name =>
      obtain ⟨d, rfl, -⟩ := Json.readableWithin_object.mp hreadable
      rfl

/-- Every spelling of a program is read as the program. -/
lemma ofJson_spelled {p : Program} (hfits : p.fits = true) (hspelled : p.Spelled j) :
    ofJson depth j = some p := by
  rw [fits, List.all_eq_true] at hfits
  obtain ⟨members, hmembers, hwrites⟩ := hspelled
  obtain ⟨d, rfl, hparts⟩ := hwrites.readableWithin hreadable
  have hrecord : j.record ["assemblies", "members"] (d + 1) =
      some (d, [some (.array (p.assemblies.map Assembly.toJson)), some (.array members)]) :=
    hwrites.record (by simp) d
  have hassemblies : List.Forall₂ (fun a k => k = Assembly.toJson a) p.assemblies
      (p.assemblies.map Assembly.toJson) := by
    rw [List.forall₂_map_right_iff, List.forall₂_same]
    exact fun _ _ => rfl
  have hreadAssemblies : Json.items Assembly.ofJson d (.array (p.assemblies.map Assembly.toJson)) =
      some p.assemblies :=
    Json.items_of_forall₂ (hparts ("assemblies", _) (by simp)) hassemblies
      fun _ _ _ _ ha hk => Assembly.ofJson_toJson hk ha
  have hreadMembers : Json.items Member.ofJson d (.array members) = some p.members :=
    Json.items_of_forall₂ (hparts ("members", .array members) (by simp)) hmembers
      fun m hm _ _ hspelled hk => Member.ofJson_spelled hk (hfits m hm) hspelled
  rw [ofJson, hrecord]
  simp [hreadAssemblies, hreadMembers]

end

/-! ## Writing programs -/

lemma isWritable_typeFields {t : BitType} (hfits : typeFits t = true) :
    ∀ f ∈ typeFields t, f.2.isWritable = true := by
  have hword : maxWord ≤ maxLong := by decide
  rw [typeFits, decide_eq_true_eq] at hfits
  rw [typeFields, List.forall_mem_cons, List.forall_mem_singleton]
  exact ⟨Json.isWritable_int (by omega), rfl⟩

lemma Expr.isWritable_toJson (e : Expr) : e.fits = true → e.toJson.isWritable = true := by
  induction e using Expr.induction with
  | input name => exact fun _ => rfl
  | constant value type =>
      intro hfits
      rw [Expr.fits, Bool.and_eq_true, Bool.and_eq_true, decide_eq_true_eq, decide_eq_true_eq] at hfits
      have hmin : Int64.minValue.toInt = -2 ^ 63 := rfl
      have hmax : Int64.maxValue.toInt = 2 ^ 63 - 1 := rfl
      have hlong : maxLong = 2 ^ 64 - 1 := rfl
      rw [Expr.toJson, Json.isWritable, Json.haveWritable_iff, List.forall_mem_append,
        List.forall_mem_cons, List.forall_mem_singleton]
      exact ⟨⟨rfl, Json.isWritable_int (by omega)⟩, isWritable_typeFields hfits.2⟩
  | binary op operands type ih =>
      intro hfits
      rw [Expr.fits, Bool.and_eq_true, exprsFit_iff] at hfits
      rw [Expr.toJson, Json.isWritable, Json.haveWritable_iff, List.forall_mem_append,
        List.forall_mem_cons, List.forall_mem_cons, List.forall_mem_singleton]
      refine ⟨⟨rfl, rfl, ?_⟩, isWritable_typeFields hfits.2⟩
      rw [Json.isWritable, Json.areWritable_iff, exprsToJson_eq, List.forall_mem_map]
      exact fun e he => ih e he (hfits.1 e he)
  | unary op operand type ih =>
      intro hfits
      rw [Expr.fits, Bool.and_eq_true] at hfits
      rw [Expr.toJson, Json.isWritable, Json.haveWritable_iff, List.forall_mem_append,
        List.forall_mem_cons, List.forall_mem_cons, List.forall_mem_singleton]
      exact ⟨⟨rfl, rfl, ih hfits.1⟩, isWritable_typeFields hfits.2⟩

lemma Member.isWritable_toJson {m : Member} (hfits : m.fits = true) :
    m.toJson.isWritable = true := by
  rw [Member.fits, Bool.and_eq_true, Bool.and_eq_true, List.all_eq_true] at hfits
  obtain ⟨⟨hinputs, hresult⟩, hbody⟩ := hfits
  rw [Member.toJson, Json.isWritable, Json.haveWritable_iff, List.forall_mem_cons,
    List.forall_mem_cons, List.forall_mem_cons, List.forall_mem_singleton]
  refine ⟨rfl, ?_, Json.haveWritable_iff.mpr (isWritable_typeFields hresult),
    m.body.isWritable_toJson hbody⟩
  rw [Json.isWritable, Json.areWritable_iff, List.forall_mem_map]
  intro i hi
  rw [Input.toJson, Json.isWritable, Json.haveWritable_iff, List.forall_mem_cons]
  exact ⟨rfl, isWritable_typeFields (hinputs i hi)⟩

/-- A program has a text in JSON. -/
lemma isWritable_toJson {p : Program} (hfits : p.fits = true) : p.toJson.isWritable = true := by
  rw [fits, List.all_eq_true] at hfits
  rw [toJson, Json.isWritable, Json.haveWritable_iff, List.forall_mem_cons,
    List.forall_mem_singleton, Json.isWritable, Json.areWritable_iff, Json.isWritable,
    Json.areWritable_iff, List.forall_mem_map, List.forall_mem_map]
  refine ⟨fun a _ => ?_, fun m hm => Member.isWritable_toJson (hfits m hm)⟩
  cases a <;> rfl

/-! ## Reading text -/

lemma read_of_spelled {p : Program} (hfits : p.fits = true) {j : Json} (hspelled : p.Spelled j)
    (hreadable : j.readableWithin Json.nestingLimit = true) {source : String}
    (hsource : Json.read source = some j) : read source = some p := by
  rw [read, hsource, Option.bind_some]
  exact ofJson_spelled hreadable hfits hspelled

/-- Reading undoes writing, in every spelling that nests containers within the limit.  It does not
matter how the text is laid out, in which order the fields of a record stand, whether there are
unknown ones among them, and which records are arrays. -/
theorem read_every_spelling (p : Program) (hfits : p.fits = true) :
    p.Spelled p.toJson ∧
    (p.toJson.readableWithin Json.nestingLimit = true →
      read p.toJson.compact = some p ∧ read p.toJson.pretty = some p) ∧
    ∀ j, p.Spelled j → j.readableWithin Json.nestingLimit = true →
      (∀ source, Json.read source = some j → read source = some p) ∧
      (j.isWritable = true → read j.compact = some p ∧ read j.pretty = some p) := by
  have htext : ∀ {j}, p.Spelled j → j.readableWithin Json.nestingLimit = true →
      j.isWritable = true → read j.compact = some p ∧ read j.pretty = some p :=
    fun hspelled hreadable hwritable =>
      ⟨read_of_spelled hfits hspelled hreadable (Json.read_compact hwritable),
        read_of_spelled hfits hspelled hreadable (Json.read_pretty hwritable)⟩
  refine ⟨p.spelled_toJson, fun hreadable => ?_, fun j hspelled hreadable => ⟨?_, ?_⟩⟩
  · exact htext p.spelled_toJson hreadable (isWritable_toJson hfits)
  · exact fun source hsource => read_of_spelled hfits hspelled hreadable hsource
  · exact htext hspelled hreadable

/-- An object with the fields of a record and unknown ones, the last one first. -/
def backwards (fields extra : List (String × Json)) : Json := .object (fields ++ extra).reverse

lemma writes_backwards {fields extra : List (String × Json)}
    (hextra : ∀ f ∈ extra, f.1 ∉ fields.map Prod.fst) :
    Json.Writes fields (backwards fields extra) :=
  .object (List.reverse_perm _) hextra

/-- Adds an input to the negative of the least constant. -/
def knotty : Program where
  assemblies := [.file "bin/a.dll", .inMemory "b"]
  members := [{
    name := "A::f"
    inputs := [⟨"x", ⟨64, true⟩⟩, ⟨"y\n", ⟨1, false⟩⟩]
    result := ⟨64, true⟩
    body := .binary .add [.input "x", .unary .neg (.constant (-2 ^ 63) ⟨64, true⟩) ⟨64, true⟩]
      ⟨64, true⟩ }]

/-- The least constant, with an unknown field that holds an expression. -/
def knottyConstant : Json :=
  backwards [("kind", .text "constant"), ("value", .int (-2 ^ 63)), ("width", .int 64),
    ("signed", .bool true)] [("operand", .array [.text "variable", .text "z"])]

/-- The sum, with its operands as arrays. -/
def knottyBody : Json :=
  backwards [("kind", .text "binary"), ("op", .text "add"), ("operands", .array [
    .array [.text "variable", .text "x"],
    .array [.text "unary", .text "neg", knottyConstant, .int 64, .bool true]]),
    ("width", .int 64), ("signed", .bool true)] [("name", .real 15 (-1)), ("name", .null)]

/-- The program in a spelling in which hardly anything stands where it is written. -/
def knottyJson : Json :=
  backwards [("assemblies", .array [.object [("file", .text "bin/a.dll")],
      .object [("in_memory", .text "b")]]),
    ("members", .array [.array [.text "A::f",
      .array [.array [.text "x", .int 64, .bool true],
        backwards [("name", .text "y\n"), ("width", .int 1), ("signed", .bool false)]
          [("kind", .object [])]],
      .array [.int 64, .bool true], knottyBody]])] [("version", .int 2)]

lemma knotty_spelled : knotty.Spelled knottyJson := by
  refine ⟨_, .cons ⟨_, _, _, .cons .array (.cons (writes_backwards ?_) .nil), .array,
    ⟨_, exprsSpelled_iff.mpr (.cons .array (.cons ⟨_, writes_backwards ?_, .array⟩ .nil)),
      writes_backwards ?_⟩, .array⟩ .nil, writes_backwards ?_⟩
  all_goals decide

theorem read_every_spelling_knotty :
    knotty.fits = true ∧ knotty.Spelled knottyJson ∧
    knottyJson.readableWithin Json.nestingLimit = true ∧ knottyJson.isWritable = true ∧
    read knottyJson.compact = some knotty ∧ read knotty.toJson.compact = some knotty := by
  have hfits : knotty.fits = true := by decide
  have hreadable : knottyJson.readableWithin Json.nestingLimit = true := by decide
  have hwritable : knottyJson.isWritable = true := by decide +kernel
  have ⟨_, hown, hall⟩ := read_every_spelling knotty hfits
  exact ⟨hfits, knotty_spelled, hreadable, hwritable,
    ((hall knottyJson knotty_spelled hreadable).2 hwritable).1, (hown (by decide)).1⟩

end Program

end Gateware
