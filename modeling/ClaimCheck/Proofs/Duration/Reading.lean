import ClaimCheck.Proofs.Duration.Quantity
import ClaimCheck.Proofs.Failure
import ClaimCheck.Proofs.Number.Sign
/-!
Reading a duration in two attempts: as a bare number of seconds, and after a fault as quantities
that are searched for in the text and then put together to see whether anything was left out.
Whatever the text, both attempts together end in a duration.
-/
namespace ClaimCheck.Duration

/-- The sum of quantities from left to right: each figure is read as a number and multiplied by
its unit in double precision. -/
inductive Adds : Binary64 → List Quantity → Binary64 → Prop
  | nil (sum : Binary64) : Adds sum [] sum
  | cons {sum x total : Binary64} {q : Quantity} {parts : List Quantity}
      (hx : Numeral.ofHeader? q.figure.text = some x)
      (h : Adds (sum + x * q.unit.seconds) parts total) : Adds sum (q :: parts) total

/-- A text is a number of seconds in the range of durations. -/
def WritesSeconds (cs : List Char) (d : Duration) : Prop :=
  ∃ x, Numeral.ofHeader? cs = some x ∧ ofSeconds? x = some d

/-- A text is made up of quantities whose sum is in the range of durations. -/
def WritesQuantities (cs : List Char) (d : Duration) : Prop :=
  ∃ parts total, MadeUpOf cs parts ∧ Adds .zero parts total ∧ ofSeconds? total = some d

/-- The duration of a text: seconds before quantities, and no time where it writes neither. -/
inductive Reads (cs : List Char) : Duration → Prop
  | seconds {d : Duration} (h : WritesSeconds cs d) : Reads cs d
  | quantities {d : Duration} (hseconds : ∀ e, ¬ WritesSeconds cs e) (h : WritesQuantities cs d) :
      Reads cs d
  | nothing (hseconds : ∀ e, ¬ WritesSeconds cs e) (h : ∀ e, ¬ WritesQuantities cs e) :
      Reads cs zero

section Findings
variable {q : Quantity} {parts : List Quantity} {cs rest : List Char}

theorem findings_skip (skip : Nat) (cs : List Char) :
    findings skip cs = findings 0 (cs.drop skip) := by
  induction skip generalizing cs with
  | zero => rfl
  | succ skip ih =>
      cases cs with
      | nil => rfl
      | cons c cs => exact ih cs

theorem findings_append (hq : q.WellFormed) (hrest : ∀ c ∈ rest.head?, c ≠ 's') :
    findings 0 (q.text ++ rest) = q :: findings 0 rest := by
  have htake := Quantity.take?_append hq hrest
  obtain ⟨d, ds, htext, _⟩ := Quantity.exists_cons hq
  rw [htext, List.cons_append] at htake ⊢
  simp only [findings, htake]
  rw [findings_skip, htext, List.length_cons, Nat.add_sub_cancel, List.drop_left]

theorem findings_wellFormed (skip : Nat) (cs : List Char) :
    ∀ q ∈ findings skip cs, q.WellFormed := by
  induction cs generalizing skip with
  | nil => cases skip <;> nofun
  | cons c cs ih =>
      cases skip with
      | succ skip => exact ih skip
      | zero =>
          unfold findings
          split
          next htake =>
            exact List.forall_mem_cons.mpr ⟨(Quantity.eq_append_of_take? htake).1, ih _⟩
          next => exact ih 0

/-- A text of quantities has no others in it. -/
theorem findings_quantitiesText (h : ∀ q ∈ parts, q.WellFormed) :
    findings 0 (quantitiesText parts) = parts := by
  induction parts with
  | nil => rfl
  | cons q parts ih =>
      obtain ⟨hq, hparts⟩ := List.forall_mem_cons.mp h
      rw [quantitiesText_cons, findings_append hq (head?_quantitiesText hparts), ih hparts]

theorem MadeUpOf.findings_eq (h : MadeUpOf cs parts) : findings 0 cs = parts := by
  rw [← h.text, findings_quantitiesText h.wellFormed]

/-- Comparing the text with what was found in it tells whether it is made up of quantities. -/
theorem madeUpOf_findings (hne : findings 0 cs ≠ []) (h : quantitiesText (findings 0 cs) = cs) :
    MadeUpOf cs (findings 0 cs) :=
  ⟨hne, findings_wellFormed 0 cs, h⟩

end Findings

section Attempts
variable {parts : List Quantity} {cs : List Char} {sum total x : Binary64} {d : Duration}

theorem numberOf_eq_ok_iff : numberOf cs = .ok x ↔ Numeral.ofHeader? cs = some x := by
  unfold numberOf
  cases Numeral.ofHeader? cs <;> simp

theorem lasting_eq_ok_iff : lasting x = .ok d ↔ ofSeconds? x = some d := by
  cases x with
  | nan => exact ⟨nofun, nofun⟩
  | infinite s => exact ⟨nofun, nofun⟩
  | finite s m e =>
      unfold lasting
      cases ofSeconds? (.finite s m e) <;> simp

/-- A number that is zero or above is at most out of range. -/
theorem lasting_of_isNonNegative (h : x.isNonNegative = true) (hd : ofSeconds? x = none) :
    lasting x = .error .outOfRange := by
  cases x with
  | nan => cases h
  | infinite s => rfl
  | finite s m e => simp only [lasting, hd]

theorem writesSeconds_iff : WritesSeconds cs d ↔ ofNumeral? cs = some d := by
  rw [ofNumeral?, Option.bind_eq_some_iff]
  rfl

theorem numberOf_bind_lasting_eq_ok_iff :
    (numberOf cs >>= lasting) = .ok d ↔ ofNumeral? cs = some d := by
  simp only [bind_eq_ok_iff, numberOf_eq_ok_iff, lasting_eq_ok_iff, ofNumeral?,
    Option.bind_eq_some_iff]

theorem addSeconds_eq (h : ∀ q ∈ parts, q.WellFormed) (sum : Binary64) :
    addSeconds sum parts = .ok ((parts.map Quantity.amount).foldl
      (fun total amount => total + amount.seconds) sum) := by
  induction parts generalizing sum with
  | nil => rfl
  | cons q parts ih =>
      obtain ⟨hq, hparts⟩ := List.forall_mem_cons.mp h
      have hnumber := numberOf_eq_ok_iff.mpr (Numeral.Figure.WellFormed.ofHeader?_text hq)
      rw [addSeconds, hnumber]
      exact ih hparts _

theorem adds_iff : Adds sum parts total ↔ addSeconds sum parts = .ok total := by
  constructor
  · intro h
    induction h with
    | nil sum => rfl
    | cons hx _ ih =>
        rw [addSeconds, numberOf_eq_ok_iff.mpr hx]
        exact ih
  · intro h
    induction parts generalizing sum with
    | nil =>
        cases h
        exact .nil _
    | cons q parts ih =>
        obtain ⟨x, hx, hrest⟩ := bind_eq_ok_iff.mp h
        exact .cons (numberOf_eq_ok_iff.mp hx) (ih hrest)

theorem TimeUnit.seconds_eq_finite (u : TimeUnit) :
    ∃ n f, n ≠ 0 ∧ u.seconds = .finite false n f := by
  cases u with
  | hour => exact ⟨_, _, by decide, rfl⟩
  | minute => exact ⟨_, _, by decide, rfl⟩
  | second => exact ⟨_, _, by decide, rfl⟩
  | millisecond => exact ⟨_, _, by decide, rfl⟩

theorem Amount.seconds_isNonNegative (a : Amount) : a.seconds.isNonNegative = true := by
  obtain ⟨n, f, hn, hunit⟩ := a.unit.seconds_eq_finite
  rw [Amount.seconds, hunit]
  exact Binary64.isNonNegative_mul f (Decimal.toBinary64_isNonNegative a.count) hn

theorem totalSeconds_isNonNegative (amounts : List Amount) :
    (totalSeconds amounts).isNonNegative = true := by
  have hfold : ∀ sum : Binary64, sum.isNonNegative = true →
      (amounts.foldl (fun total amount => total + amount.seconds) sum).isNonNegative = true := by
    induction amounts with
    | nil => exact fun _ h => h
    | cons a amounts ih =>
        exact fun sum h => ih _ (Binary64.isNonNegative_add h a.seconds_isNonNegative)
  exact hfold .zero (by decide)

/-- A sum of quantities is a number, whatever it is: it is a duration or out of range. -/
theorem attemptQuantities_eq (text : List Char) :
    attemptQuantities text = .ok ((ofAmounts? text).getD zero) := by
  unfold attemptQuantities
  dsimp only
  split
  next hnone =>
    have hamounts : amounts? text = none := by
      rw [Option.eq_none_iff_forall_ne_some]
      intro amounts hsome
      obtain ⟨parts, hparts, _⟩ := amounts?_eq_some_iff.mp hsome
      rw [hparts.findings_eq] at hnone
      exact hnone.elim hparts.ne_nil fun hne => hne hparts.text
    rw [ofAmounts?, hamounts]
    rfl
  next hsome =>
    obtain ⟨hne, htext⟩ := not_or.mp hsome
    have hmade := madeUpOf_findings hne (not_not.mp htext)
    have hamounts := amounts?_eq_some_iff.mpr ⟨_, hmade, rfl⟩
    have hsum : addSeconds .zero (findings 0 text) =
        .ok (totalSeconds ((findings 0 text).map Quantity.amount)) :=
      addSeconds_eq hmade.wellFormed .zero
    have hnumber := totalSeconds_isNonNegative ((findings 0 text).map Quantity.amount)
    have hbind : (addSeconds .zero (findings 0 text) >>= lasting) =
        lasting (totalSeconds ((findings 0 text).map Quantity.amount)) := by
      rw [hsum]
      rfl
    rw [ofAmounts?, hamounts, Option.bind_some, hbind]
    cases hd : ofSeconds? (totalSeconds ((findings 0 text).map Quantity.amount)) with
    | some d => rw [lasting_eq_ok_iff.mpr hd, Option.getD_some]
    | none => rw [lasting_of_isNonNegative hnumber hd, Option.getD_none]

/-- Both attempts together end in the duration that the text stands for. -/
theorem attempt_eq (s : String) : attempt s = .ok (ofText s) := by
  unfold attempt ofText
  dsimp only
  cases hnumeral : ofNumeral? (Text.trim Text.isBlank s.toList) with
  | some d => rw [numberOf_bind_lasting_eq_ok_iff.mpr hnumeral]
  | none =>
      split
      next d hd =>
        rw [numberOf_bind_lasting_eq_ok_iff, hnumeral] at hd
        cases hd
      next => exact attemptQuantities_eq _

theorem writesQuantities_iff : WritesQuantities cs d ↔ ofAmounts? cs = some d := by
  rw [ofAmounts?, Option.bind_eq_some_iff]
  constructor
  · rintro ⟨parts, total, hparts, htotal, hd⟩
    rw [adds_iff, addSeconds_eq hparts.wellFormed, Except.ok.injEq] at htotal
    refine ⟨_, amounts?_eq_some_iff.mpr ⟨parts, hparts, rfl⟩, ?_⟩
    rw [totalSeconds, htotal, hd]
  · rintro ⟨amounts, hamounts, hd⟩
    obtain ⟨parts, hparts, rfl⟩ := amounts?_eq_some_iff.mp hamounts
    exact ⟨parts, _, hparts, adds_iff.mpr (addSeconds_eq hparts.wellFormed _), hd⟩

theorem writesNoSeconds_iff : (∀ d, ¬ WritesSeconds cs d) ↔ ofNumeral? cs = none := by
  simp only [writesSeconds_iff, Option.eq_none_iff_forall_ne_some, ne_eq]

theorem writesNoQuantities_iff : (∀ d, ¬ WritesQuantities cs d) ↔ ofAmounts? cs = none := by
  simp only [writesQuantities_iff, Option.eq_none_iff_forall_ne_some, ne_eq]

theorem reads_iff (s : String) (d : Duration) :
    Reads (Text.trim Text.isBlank s.toList) d ↔ ofText s = d := by
  unfold ofText
  dsimp only
  generalize Text.trim Text.isBlank s.toList = cs
  constructor
  · intro h
    cases h with
    | seconds h => rw [writesSeconds_iff.mp h]
    | quantities hseconds h =>
        rw [writesNoSeconds_iff.mp hseconds, writesQuantities_iff.mp h]
        rfl
    | nothing hseconds h =>
        rw [writesNoSeconds_iff.mp hseconds, writesNoQuantities_iff.mp h]
        rfl
  · rintro rfl
    cases hnumeral : ofNumeral? cs with
    | some d => exact .seconds (writesSeconds_iff.mpr hnumeral)
    | none =>
        have hseconds := writesNoSeconds_iff.mpr hnumeral
        cases hamounts : ofAmounts? cs with
        | some d => exact .quantities hseconds (writesQuantities_iff.mpr hamounts)
        | none => exact .nothing hseconds (writesNoQuantities_iff.mpr hamounts)

end Attempts

/-- Every text is read, and as what it writes: a number of seconds in the range of durations, or
else quantities whose sum is in that range, or else no time at all. A text is made up of quantities
in one way only. -/
theorem duration_read_in_two_formats (s : String) :
    attempt s = .ok (ofText s) ∧
      (∀ d, Reads (Text.trim Text.isBlank s.toList) d ↔ ofText s = d) ∧
      {parts | MadeUpOf (Text.trim Text.isBlank s.toList) parts}.Subsingleton :=
  ⟨attempt_eq s, reads_iff s, fun _ hparts _ hothers => hparts.unique hothers⟩

example : attempt " 2m0.5ms" = .ok ⟨120000500⟩ := by decide +kernel

end ClaimCheck.Duration
