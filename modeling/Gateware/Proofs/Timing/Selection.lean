import Gateware.Proofs.Timing.Resolution
import Gateware.Proofs.Timing.Runs

/-!
# Which measurement an operation is scaled from

An operation that was not measured itself is scaled from another measurement of its operator.
`Serves` says which one: of its own signedness if there is one, nearest in width, and the wider one
of two that are equally near.  At most one measurement serves an operation (`Serves.unique`), and it
is the one that is found (`reference_serves`).

The search runs through the table in its order and compares by `nearness`, twice if need be.
`Serves` knows nothing of that, only which measurements of the operator there are.  So any two
tables that have the same ones agree on the delay (`resolve_congr`).
-/

namespace Gateware

/-! ## Nearness -/

lemma widthDistance_eq (a b : Nat) : (widthDistance a b : ℤ) = |(a : ℤ) - b| := by
  unfold widthDistance
  rcases Nat.le_total a b with h | h
  · rw [abs_of_nonpos (by omega)]
    omega
  · rw [abs_of_nonneg (by omega)]
    omega

/-- How near a measurement is to a width: the nearest come first, and of two equally near ones the
wider. -/
def Measurement.nearness (width : Nat) (m : Measurement) : ℤ ×ₗ ℕᵒᵈ :=
  toLex (|(m.operation.width : ℤ) - width|, OrderDual.toDual m.operation.width)

lemma closerWidth_iff {width : Nat} {m n : Measurement} :
    closerWidth width m.operation.width n.operation.width = true ↔
      m.nearness width < n.nearness width := by
  simp [closerWidth, Measurement.nearness, Prod.Lex.toLex_lt_toLex, ← widthDistance_eq]

namespace TimingTable

lemma nearest_isLeast {width : Nat} {ms : List Measurement} {m : Measurement}
    (h : nearest width ms = some m) :
    m ∈ ms ∧ ∀ n ∈ ms, m.nearness width ≤ n.nearness width := by
  induction ms generalizing m with
  | nil => cases h
  | cons x xs ih =>
      rw [nearest] at h
      cases hrest : nearest width xs with
      | none =>
          obtain rfl := nearest_eq_none.mp hrest
          cases h
          simp
      | some n =>
          obtain ⟨hmem, hleast⟩ := ih hrest
          simp only [hrest] at h
          split_ifs at h with hcloser
          · cases h
            exact ⟨List.mem_cons_of_mem x hmem,
              List.forall_mem_cons.mpr ⟨(closerWidth_iff.mp hcloser).le, hleast⟩⟩
          · cases h
            rw [closerWidth_iff, not_lt] at hcloser
            exact ⟨List.mem_cons_self,
              List.forall_mem_cons.mpr ⟨le_rfl, fun y hy => hcloser.trans (hleast y hy)⟩⟩

/-! ## The measurement that serves -/

/-- The table has a measurement of an operator with a signedness. -/
def MeasuresAs (t : TimingTable) (operator : Operator) (signed : Bool) : Prop :=
  ∃ m ∈ t.entries, m.operation.operator = operator ∧ m.operation.signed = signed

/-- The measurement in a table that an operation is scaled from. -/
structure Serves (t : TimingTable) (op : Operation) (m : Measurement) : Prop where
  mem : m ∈ t.entries
  operator : m.operation.operator = op.operator
  own : t.MeasuresAs op.operator op.signed → m.operation.signed = op.signed
  other : ¬ t.MeasuresAs op.operator op.signed → m.operation.signed = !op.signed
  /-- None of the same signedness is nearer. -/
  nearest : ∀ n ∈ t.entries, n.operation.operator = op.operator →
    n.operation.signed = m.operation.signed →
      |(m.operation.width : ℤ) - op.width| ≤ |(n.operation.width : ℤ) - op.width|
  /-- All others of the same signedness that are as near are narrower. -/
  widest : ∀ n ∈ t.entries, n.operation.operator = op.operator →
    n.operation.signed = m.operation.signed → n ≠ m →
      |(n.operation.width : ℤ) - op.width| = |(m.operation.width : ℤ) - op.width| →
        n.operation.width < m.operation.width

section

variable {t t' : TimingTable} {op : Operation} {m n : Measurement}

lemma Serves.signed_eq (hm : t.Serves op m) (hn : t.Serves op n) :
    m.operation.signed = n.operation.signed := by
  by_cases hown : t.MeasuresAs op.operator op.signed
  · rw [hm.own hown, hn.own hown]
  · rw [hm.other hown, hn.other hown]

/-- At most one measurement serves an operation. -/
lemma Serves.unique (hm : t.Serves op m) (hn : t.Serves op n) : m = n := by
  have hsigned := hm.signed_eq hn
  have hnear := le_antisymm (hm.nearest n hn.mem hn.operator hsigned.symm)
    (hn.nearest m hm.mem hm.operator hsigned)
  by_contra hne
  have hlt := hm.widest n hn.mem hn.operator hsigned.symm (Ne.symm hne) hnear.symm
  have hgt := hn.widest m hm.mem hm.operator hsigned hne hnear
  exact Nat.lt_asymm hlt hgt

/-- Nothing but the measurements of the operator counts. -/
lemma Serves.congr
    (hsame : ∀ m, m.operation.operator = op.operator → (m ∈ t.entries ↔ m ∈ t'.entries))
    (h : t.Serves op m) : t'.Serves op m := by
  have hmeasures : t'.MeasuresAs op.operator op.signed ↔ t.MeasuresAs op.operator op.signed := by
    refine exists_congr fun m => and_congr_left ?_
    rintro ⟨hoperator, -⟩
    exact (hsame m hoperator).symm
  exact
    { mem := (hsame m h.operator).mp h.mem
      operator := h.operator
      own := fun hown => h.own (hmeasures.mp hown)
      other := fun hother => h.other (mt hmeasures.mpr hother)
      nearest := fun n hn hoperator => h.nearest n ((hsame n hoperator).mpr hn) hoperator
      widest := fun n hn hoperator => h.widest n ((hsame n hoperator).mpr hn) hoperator }

/-! ## What the search finds -/

lemma mem_measurements {operator : Operator} :
    m ∈ t.measurements operator ↔ m ∈ t.entries ∧ m.operation.operator = operator := by
  rw [measurements, List.mem_filter, beq_iff_eq]

/-- The least by nearness of one signedness is the nearest, and the widest of these. -/
lemma serves_of_isLeast (h : Ascending t.entries) (hmem : m ∈ t.entries)
    (hoperator : m.operation.operator = op.operator)
    (hown : t.MeasuresAs op.operator op.signed → m.operation.signed = op.signed)
    (hother : ¬ t.MeasuresAs op.operator op.signed → m.operation.signed = !op.signed)
    (hleast : ∀ n ∈ t.entries, n.operation.operator = op.operator →
      n.operation.signed = m.operation.signed → m.nearness op.width ≤ n.nearness op.width) :
    t.Serves op m where
  mem := hmem
  operator := hoperator
  own := hown
  other := hother
  nearest := by
    intro n hn hno hns
    rcases Prod.Lex.toLex_le_toLex.mp (hleast n hn hno hns) with hlt | ⟨heq, -⟩
    · exact hlt.le
    · exact heq.le
  widest := by
    intro n hn hno hns hne heq
    rcases Prod.Lex.toLex_le_toLex.mp (hleast n hn hno hns) with hlt | ⟨-, hwide⟩
    · exact absurd heq hlt.ne'
    · -- at the same width it would be a second measurement of the operation
      refine lt_of_le_of_ne (OrderDual.toDual_le_toDual.mp hwide) fun hwidth => hne ?_
      refine List.inj_on_of_nodup_map h.nodup hn hmem ?_
      rw [Operation.mk.injEq]
      exact ⟨hno.trans hoperator.symm, hwidth, hns⟩

/-- **The search finds the measurement that serves.** -/
theorem reference_serves (h : Ascending t.entries) (href : t.reference op = some m) :
    t.Serves op m := by
  have hfilter : ∀ n, n ∈ (t.measurements op.operator).filter (·.operation.signed == op.signed) ↔
      (n ∈ t.entries ∧ n.operation.operator = op.operator) ∧ n.operation.signed = op.signed := by
    intro n
    rw [List.mem_filter, mem_measurements, beq_iff_eq]
  rcases Option.or_eq_some_iff.mp href with hfound | ⟨hnone, hfound⟩
  · obtain ⟨hm, hleast⟩ := nearest_isLeast hfound
    obtain ⟨⟨hmem, hoperator⟩, hsigned⟩ := (hfilter m).mp hm
    refine serves_of_isLeast h hmem hoperator (fun _ => hsigned)
      (fun hnot => absurd ⟨m, hmem, hoperator, hsigned⟩ hnot) fun n hn hno hns => ?_
    exact hleast n ((hfilter n).mpr ⟨⟨hn, hno⟩, hns.trans hsigned⟩)
  · obtain ⟨hm, hleast⟩ := nearest_isLeast hfound
    obtain ⟨hmem, hoperator⟩ := mem_measurements.mp hm
    have hnot : ¬ t.MeasuresAs op.operator op.signed := by
      rintro ⟨n, hn, hno, hns⟩
      have hmemFilter := (hfilter n).mpr ⟨⟨hn, hno⟩, hns⟩
      rw [nearest_eq_none.mp hnone] at hmemFilter
      cases hmemFilter
    refine serves_of_isLeast h hmem hoperator (fun hown => absurd hown hnot) (fun _ => ?_)
      fun n hn hno _ => hleast n (mem_measurements.mpr ⟨hn, hno⟩)
    rw [Bool.eq_not_iff]
    exact fun hsigned => hnot ⟨m, hmem, hoperator, hsigned⟩

/-! ## Delays -/

/-- A delay grows as the weight of the width does. -/
lemma scale_eq (rule : ScalingRule) (delay : Float) (source target : Nat) :
    rule.scale delay source target = delay * rule.weight target / rule.weight source := rfl

lemma resolve_of_delay {delay : Float} (hwidth : 0 < op.width) (h : t.delay? op = some delay) :
    t.resolve op = some ⟨delay, .exact⟩ := by
  rw [resolve, if_neg (by simpa using hwidth.ne'), h]

lemma resolve_of_reference (hwidth : 0 < op.width) (hdelay : t.delay? op = none)
    (href : t.reference op = some m) :
    t.resolve op = some ⟨op.operator.rule.scale m.delay m.operation.width op.width,
      .scaled m.operation.width m.operation.signed⟩ := by
  rw [resolve, if_neg (by simpa using hwidth.ne'), hdelay, href]
  rfl

lemma reference_congr (h : Ascending t.entries) (h' : Ascending t'.entries)
    (hsame : ∀ m, m.operation.operator = op.operator → (m ∈ t.entries ↔ m ∈ t'.entries)) :
    t.reference op = t'.reference op := by
  have hmeasures : t.Measures op.operator ↔ t'.Measures op.operator :=
    exists_congr fun m => and_congr_left (hsame m)
  cases href : t.reference op with
  | none =>
      rw [reference_eq_none, hmeasures, ← reference_eq_none] at href
      exact href.symm
  | some m =>
      cases href' : t'.reference op with
      | none =>
          rw [reference_eq_none, ← hmeasures, ← reference_eq_none, href] at href'
          cases href'
      | some n =>
          have hserves := (reference_serves h href).congr hsame
          rw [hserves.unique (reference_serves h' href')]

/-- Tables with the same measurements of an operator agree on its delays. -/
lemma resolve_congr (h : Ascending t.entries) (h' : Ascending t'.entries)
    (hsame : ∀ m, m.operation.operator = op.operator → (m ∈ t.entries ↔ m ∈ t'.entries)) :
    t.resolve op = t'.resolve op := by
  have hdelay : t.delay? op = t'.delay? op := by
    refine Option.ext fun delay => ?_
    rw [delay?_eq_some_iff h, delay?_eq_some_iff h']
    exact hsame ⟨op, delay⟩ rfl
  rw [resolve, resolve, hdelay, reference_congr h h' hsame]

end

/-- **A delay comes from the right measurement.**  An operation of an operator that was never
measured has no delay.  One that was measured itself has the measured delay, and any other the delay
of the one measurement that serves it, times the weight of its own width and divided by the weight
of the width that was measured.  Only the measurements of its operator count for this, and not the
order in which they were entered. -/
theorem resolve_picks_measurement (t : TimingTable) (ht : t.Reached) (op : Operation)
    (hwidth : 0 < op.width) :
    (t.resolve op = none ↔ ∀ m ∈ t.entries, m.operation.operator ≠ op.operator) ∧
    (∀ delay, ⟨op, delay⟩ ∈ t.entries → t.resolve op = some ⟨delay, .exact⟩) ∧
    ((∃ m ∈ t.entries, m.operation.operator = op.operator) →
      (∀ delay, ⟨op, delay⟩ ∉ t.entries) →
        ∃ m, t.Serves op m ∧
          t.resolve op = some ⟨op.operator.rule.scale m.delay m.operation.width op.width,
            .scaled m.operation.width m.operation.signed⟩ ∧
          op.operator.rule.scale m.delay m.operation.width op.width =
            m.delay * op.operator.rule.weight op.width /
              op.operator.rule.weight m.operation.width) ∧
    ∀ t' : TimingTable, t'.Reached →
      (∀ m, m.operation.operator = op.operator → (m ∈ t'.entries ↔ m ∈ t.entries)) →
        t'.resolve op = t.resolve op := by
  refine ⟨?_, ?_, ?_, ?_⟩
  · rw [resolve_eq_none hwidth, Measures]
    simp only [not_exists, not_and, ne_eq]
  · intro delay hmem
    exact resolve_of_delay hwidth ((delay?_eq_some_iff ht.ascending).mpr hmem)
  · intro hmeasures hnot
    have hdelay : t.delay? op = none := by
      refine Option.eq_none_iff_forall_ne_some.mpr fun delay hdelay => ?_
      exact hnot delay ((delay?_eq_some_iff ht.ascending).mp hdelay)
    cases href : t.reference op with
    | none => exact absurd hmeasures (reference_eq_none.mp href)
    | some m =>
        exact ⟨m, reference_serves ht.ascending href, resolve_of_reference hwidth hdelay href,
          scale_eq _ _ _ _⟩
  · intro t' ht' hsame
    exact resolve_congr ht'.ascending ht.ascending hsame

/-- Delays of adders at three widths. -/
def adders : TimingTable :=
  ⟨[⟨⟨.binary .add, 8, true⟩, 0.5⟩, ⟨⟨.binary .add, 16, false⟩, 1.25⟩,
    ⟨⟨.binary .add, 32, true⟩, 2.0⟩]⟩

lemma adders_reached : adders.Reached := by
  have hwide : empty.insert ⟨.binary .add, 32, true⟩ 2.0 =
      .ok ⟨[⟨⟨.binary .add, 32, true⟩, 2.0⟩]⟩ := rfl
  have hnarrow : TimingTable.insert
      ⟨[⟨⟨.binary .add, 32, true⟩, 2.0⟩]⟩ ⟨.binary .add, 8, true⟩ 0.5 =
      .ok ⟨[⟨⟨.binary .add, 8, true⟩, 0.5⟩, ⟨⟨.binary .add, 32, true⟩, 2.0⟩]⟩ := rfl
  have hunsigned : TimingTable.insert
      ⟨[⟨⟨.binary .add, 8, true⟩, 0.5⟩, ⟨⟨.binary .add, 32, true⟩, 2.0⟩]⟩
      ⟨.binary .add, 16, false⟩ 1.25 = .ok adders := rfl
  exact .insert (.insert (.insert .empty (by decide) hwide) (by decide) hnarrow) (by decide)
    hunsigned

/-- A signed adder of 20 bits is halfway between those of 8 and of 32 bits.  It is scaled from the
wider one, although the unsigned one of 16 bits is nearer than both. -/
theorem resolve_picks_measurement_halfway :
    adders.Reached ∧ ∃ m, adders.Serves ⟨.binary .add, 20, true⟩ m ∧ m.operation.width = 32 ∧
      adders.resolve ⟨.binary .add, 20, true⟩ =
        some ⟨ScalingRule.linear.scale m.delay 32 20, .scaled 32 true⟩ := by
  have hsource : (adders.resolve ⟨.binary .add, 20, true⟩).map (·.source) =
      some (.scaled 32 true) := rfl
  obtain ⟨-, -, hscaled, -⟩ := resolve_picks_measurement adders adders_reached
    ⟨.binary .add, 20, true⟩ (by decide)
  obtain ⟨m, hserves, hresolve, -⟩ := hscaled ⟨_, List.mem_cons_self, rfl⟩ (by simp [adders])
  rw [hresolve, Option.map_some, Option.some.injEq, DelaySource.scaled.injEq] at hsource
  obtain ⟨hwidth, hsigned⟩ := hsource
  refine ⟨adders_reached, m, hserves, hwidth, ?_⟩
  rw [hresolve, hwidth, hsigned]
  rfl

end TimingTable

end Gateware
