import ClaimCheck.Number.Numeral
import Mathlib.Data.List.DropRight
import ClaimCheck.Proofs.Number.Whole

namespace ClaimCheck

theorem Text.trim_eq_self {skip : Char → Bool} {cs : List Char} (h : ∀ c ∈ cs, skip c = false) :
    Text.trim skip cs = cs := by
  have hkeep : ∀ l : List Char, (∀ c ∈ l, skip c = false) → l.dropWhile skip = l := by
    intro l hl
    cases l with
    | nil => rfl
    | cons c l => rw [List.dropWhile_cons_of_neg (by simp [hl c List.mem_cons_self])]
  rw [Text.trim, hkeep cs h, hkeep cs.reverse (fun c hc => h c (List.mem_reverse.mp hc)),
    List.reverse_reverse]

theorem Text.trim_trim (skip : Char → Bool) (cs : List Char) :
    Text.trim skip (Text.trim skip cs) = Text.trim skip cs := by
  obtain ⟨back, hback⟩ : Text.trim skip cs <+: cs.dropWhile skip := List.rdropWhile_prefix skip _
  -- cutting off at the end does not lay bare what is passed over at the front
  have hfront : (Text.trim skip cs).dropWhile skip = Text.trim skip cs := by
    cases htrim : Text.trim skip cs with
    | nil => rfl
    | cons c rest =>
        have hhead := List.head?_dropWhile_not skip cs
        rw [← hback, htrim, List.cons_append, List.head?_cons] at hhead
        exact List.dropWhile_cons_of_neg (Bool.eq_false_iff.mp hhead)
  rw [Text.trim, hfront]
  exact List.rdropWhile_idempotent skip (cs.dropWhile skip)

theorem Text.trim_append_left {skip : Char → Bool} {front : List Char} (cs : List Char)
    (h : ∀ c ∈ front, skip c = true) : Text.trim skip (front ++ cs) = Text.trim skip cs := by
  rw [Text.trim, List.dropWhile_append_of_pos h, Text.trim]

theorem Text.trim_append_right {skip : Char → Bool} {back : List Char} (cs : List Char)
    (h : ∀ c ∈ back, skip c = true) : Text.trim skip (cs ++ back) = Text.trim skip cs := by
  have hback : ∀ c ∈ back.reverse, skip c = true := fun c hc => h c (List.mem_reverse.mp hc)
  rw [Text.trim, List.dropWhile_append, Text.trim]
  split
  next hempty =>
    rw [List.isEmpty_iff.mp hempty, List.dropWhile_eq_nil_iff.mpr h]
  next => rw [List.reverse_append, List.dropWhile_append_of_pos hback]

theorem Text.decimalDigit?_of_isDigit {c : Char} (h : c.isDigit = true) :
    Text.decimalDigit? c = some (c.toNat - 48) := by
  have hrange : 48 ≤ c.toNat ∧ c.toNat ≤ 57 := Char.isDigit_iff_toNat.mp h
  rw [Text.decimalDigit?, Text.decimalZeros, List.find?_cons_of_pos (by simp; omega)]
  rfl

namespace Numeral

/-- A row of at least one digit. -/
structure IsRow (digit? : Char → Option Nat) (cs : List Char) : Prop where
  ne_nil : cs ≠ []
  digits : ∀ c ∈ cs, (digit? c).isSome = true

/-- The number that a row of digits stands for. -/
def rowValue (digit? : Char → Option Nat) (cs : List Char) : Nat :=
  valueOf 0 (cs.filterMap digit?)

section Rows
variable {digit? : Char → Option Nat} {cs rest : List Char}

/-- A row of digits is taken as a whole where no digit follows it. -/
theorem spanDigits_append (h : ∀ c ∈ cs, (digit? c).isSome = true)
    (hrest : ∀ c ∈ rest.head?, digit? c = none) :
    spanDigits digit? (cs ++ rest) = (cs.filterMap digit?, rest) := by
  induction cs with
  | nil =>
      cases rest with
      | nil => rfl
      | cons c rest => simp only [List.nil_append, spanDigits, hrest c rfl, List.filterMap_nil]
  | cons c cs ih =>
      obtain ⟨hc, hcs⟩ := List.forall_mem_cons.mp h
      obtain ⟨d, hd⟩ := Option.isSome_iff_exists.mp hc
      simp only [List.cons_append, spanDigits, hd, ih hcs, List.filterMap_cons]

theorem IsRow.values_ne_nil (h : IsRow digit? cs) : cs.filterMap digit? ≠ [] := by
  obtain ⟨c, hc⟩ := List.exists_mem_of_ne_nil cs h.ne_nil
  obtain ⟨d, hd⟩ := Option.isSome_iff_exists.mp (h.digits c hc)
  exact List.ne_nil_of_mem (List.mem_filterMap.mpr ⟨c, hc, hd⟩)

theorem IsRow.exists_cons (h : IsRow digit? cs) :
    ∃ c ds, cs = c :: ds ∧ (digit? c).isSome = true := by
  obtain ⟨c, ds, rfl⟩ := List.exists_cons_of_ne_nil h.ne_nil
  exact ⟨c, ds, rfl, h.digits c List.mem_cons_self⟩

theorem decimal?_row (h : IsRow digit? cs) : decimal? digit? cs = some ⟨rowValue digit? cs, 0⟩ := by
  have hspan : spanDigits digit? (cs ++ []) = (cs.filterMap digit?, []) :=
    spanDigits_append h.digits nofun
  rw [List.append_nil] at hspan
  have hne : (cs.filterMap digit?).isEmpty = false :=
    List.isEmpty_eq_false_iff.mpr h.values_ne_nil
  simp only [decimal?, hspan, hne, Bool.false_and, Bool.false_eq_true, if_false]
  rfl

/-- A row of digits with a letter behind it is no number, unless the letter is the mark of a
power of ten. -/
theorem decimal?_row_append {c : Char} (h : IsRow digit? cs) (hdigit : digit? c = none)
    (hpoint : c ≠ '.') (hmark : c ≠ 'e' ∧ c ≠ 'E') : decimal? digit? (cs ++ c :: rest) = none := by
  have hspan : spanDigits digit? (cs ++ c :: rest) = (cs.filterMap digit?, c :: rest) :=
    spanDigits_append h.digits fun d hd => Option.some.inj hd ▸ hdigit
  have hne : (cs.filterMap digit?).isEmpty = false :=
    List.isEmpty_eq_false_iff.mpr h.values_ne_nil
  have hno : ¬ (c = 'e' ∨ c = 'E') := not_or.mpr hmark
  simp only [decimal?, hspan]
  split
  next after heq => exact absurd (List.cons.inj heq).1 hpoint
  next => simp only [hne, Bool.false_and, Bool.false_eq_true, if_false, hno]

end Rows

section Headers
open Text (decimalDigit? isBlank)

/-- What a reader of header text does not take for anything else than the digit it is. -/
structure IsPlain (c : Char) : Prop where
  blank : isBlank c = false
  joint : c ≠ '_'
  sign : c ≠ '-' ∧ c ≠ '+'
  word : c.toLower ≠ 'i' ∧ c.toLower ≠ 'n'

/-- Digits of every script are plain; the table of scripts is gone through once. -/
theorem isPlain_of_digit {c : Char} (h : (decimalDigit? c).isSome = true) : IsPlain c := by
  have htable : ∀ start ∈ Text.decimalZeros, ∀ k < 10,
      isBlank (Char.ofNat (start + k)) = false ∧ Char.ofNat (start + k) ≠ '_' ∧
        (Char.ofNat (start + k) ≠ '-' ∧ Char.ofNat (start + k) ≠ '+') ∧
        (Char.ofNat (start + k)).toLower ≠ 'i' ∧ (Char.ofNat (start + k)).toLower ≠ 'n' := by
    decide +kernel
  rw [decimalDigit?, Option.isSome_map, List.find?_isSome] at h
  obtain ⟨start, hstart, hrange⟩ := h
  have hrange : start ≤ c.toNat ∧ c.toNat < start + 10 := by simpa using hrange
  have hfacts := htable start hstart (c.toNat - start) (by omega)
  rw [Nat.add_sub_cancel' hrange.1, Char.ofNat_toNat] at hfacts
  obtain ⟨hblank, hjoint, hsign, hword⟩ := hfacts
  exact ⟨hblank, hjoint, hsign, hword⟩

theorem dropUnderscores?_eq_some (joins : Char → Bool) (joinable : Bool) {cs : List Char}
    (h : ∀ c ∈ cs, c ≠ '_') : dropUnderscores? joins joinable cs = some cs := by
  induction cs generalizing joinable with
  | nil => rfl
  | cons c cs ih =>
      obtain ⟨hc, hcs⟩ := List.forall_mem_cons.mp h
      unfold dropUnderscores?
      split
      next heq => cases heq
      next heq => exact absurd (List.cons.inj heq).1 hc
      next heq =>
        cases heq
        rw [if_neg hc, ih _ hcs]
        rfl

theorem ofHeader?_eq_binary64? {cs : List Char} (h : ∀ c ∈ cs, isBlank c = false ∧ c ≠ '_') :
    ofHeader? cs = binary64? decimalDigit? cs := by
  rw [ofHeader?, Text.trim_eq_self fun c hc => (h c hc).1,
    dropUnderscores?_eq_some _ _ fun c hc => (h c hc).2]
  rfl

theorem sameWord_cons {c w : Char} {ws : List Char} (cs : List Char) (word : String)
    (hword : word.toList = w :: ws) (h : c.toLower ≠ w) : sameWord (c :: cs) word = false := by
  rw [sameWord, hword, List.map_cons]
  exact beq_eq_false_iff_ne.mpr fun heq => h (List.cons.inj heq).1

/-- Behind its sign a text that begins with a digit is a decimal, or no number at all. -/
theorem binary64?_of_takeSign {negative : Bool} {text cs : List Char} {c : Char}
    (hsign : takeSign text = (negative, c :: cs)) (h : IsPlain c) :
    binary64? decimalDigit? text =
      (decimal? decimalDigit? (c :: cs)).map (·.toBinary64 negative) := by
  rw [binary64?, hsign]
  dsimp only
  rw [sameWord_cons cs "inf" rfl h.word.1, sameWord_cons cs "infinity" rfl h.word.1,
    sameWord_cons cs "nan" rfl h.word.2]
  rfl

theorem takeSign_of_plain {c : Char} (h : IsPlain c) (cs : List Char) :
    takeSign (c :: cs) = (false, c :: cs) := by
  unfold takeSign
  split
  next heq => exact absurd (List.cons.inj heq).1 h.sign.1
  next heq => exact absurd (List.cons.inj heq).1 h.sign.2
  next => rfl

theorem binary64?_of_digit {c : Char} {cs : List Char} (h : IsPlain c) :
    binary64? decimalDigit? (c :: cs) =
      (decimal? decimalDigit? (c :: cs)).map (·.toBinary64 false) :=
  binary64?_of_takeSign (takeSign_of_plain h cs) h

def minus (negative : Bool) : List Char :=
  if negative then ['-'] else []

theorem takeSign_minus (negative : Bool) {c : Char} (h : IsPlain c) (cs : List Char) :
    takeSign (minus negative ++ c :: cs) = (negative, c :: cs) := by
  cases negative with
  | true => rfl
  | false => exact takeSign_of_plain h cs

theorem ofHeader?_minus_row (negative : Bool) {cs : List Char} (h : IsRow decimalDigit? cs) :
    ofHeader? (minus negative ++ cs) =
      some (Decimal.toBinary64 negative ⟨rowValue decimalDigit? cs, 0⟩) := by
  have hplain : ∀ c ∈ cs, IsPlain c := fun c hc => isPlain_of_digit (h.digits c hc)
  have hminus : ∀ c ∈ minus negative, isBlank c = false ∧ c ≠ '_' := by
    intro c hc
    cases negative with
    | true =>
        rw [List.mem_singleton.mp hc]
        exact ⟨rfl, by decide⟩
    | false => cases hc
  rw [ofHeader?_eq_binary64? (List.forall_mem_append.mpr
    ⟨hminus, fun c hc => ⟨(hplain c hc).blank, (hplain c hc).joint⟩⟩)]
  obtain ⟨c, rest, rfl⟩ := List.exists_cons_of_ne_nil h.ne_nil
  have hc := hplain c List.mem_cons_self
  rw [binary64?_of_takeSign (takeSign_minus negative hc rest) hc, decimal?_row h]
  rfl

end Headers

/-- In ASCII digits a row stands for what the library reads from it as well. -/
theorem valueOf_filterMap {cs : List Char} (h : ∀ c ∈ cs, c.isDigit = true) (acc : Nat) :
    valueOf acc (cs.filterMap Text.decimalDigit?) = Nat.ofDigitChars 10 cs acc := by
  induction cs generalizing acc with
  | nil => rfl
  | cons c cs ih =>
      obtain ⟨hc, hcs⟩ := List.forall_mem_cons.mp h
      rw [List.filterMap_cons_some (Text.decimalDigit?_of_isDigit hc), Nat.ofDigitChars_cons,
        ← ih hcs, mul_comm]
      rfl

theorem isDigit_of_mem_toDigits {n : Nat} {c : Char} (h : c ∈ Nat.toDigits 10 n) :
    c.isDigit = true :=
  Nat.isDigit_of_mem_toDigits (by omega) (by omega) h

theorem isRow_toDigits (n : Nat) : IsRow Text.decimalDigit? (Nat.toDigits 10 n) where
  ne_nil := Nat.toDigits_ne_nil
  digits c hc := by rw [Text.decimalDigit?_of_isDigit (isDigit_of_mem_toDigits hc)]; rfl

theorem rowValue_toDigits (n : Nat) : rowValue Text.decimalDigit? (Nat.toDigits 10 n) = n := by
  rw [rowValue, valueOf_filterMap fun c hc => isDigit_of_mem_toDigits hc,
    Nat.ofDigitChars_ten_toDigits]

end Numeral

theorem Decimal.toBinary64_isWhole (s : Bool) {n : Nat} (hn : n ≤ 2 ^ 53) :
    (Decimal.toBinary64 s ⟨n, 0⟩).IsWhole (Binary64.signed s n) := by
  unfold Decimal.toBinary64
  split
  next hzero =>
    have hzero : n = 0 := hzero
    subst hzero
    exact Binary64.ofRatio_isWhole s one_pos (by norm_num) hn
  next =>
    rw [if_neg (by dsimp only; omega), if_neg (by dsimp only; omega), if_pos le_rfl]
    exact Binary64.ofRatio_isWhole s one_pos (by simp [powerOf]) hn

theorem Numeral.toList_toString (n : Int) :
    (toString n).toList = minus (decide (n < 0)) ++ Nat.toDigits 10 n.natAbs := by
  change (Int.repr n).toList = _
  rw [Int.repr_eq_if]
  split
  next h =>
    have hnat : n.toNat = n.natAbs := by omega
    rw [decide_eq_false (not_lt.mpr h), Nat.toList_repr, hnat]
    rfl
  next h =>
    have hnat : (-n).toNat = n.natAbs := by omega
    rw [decide_eq_true (not_le.mp h), String.toList_append, Nat.toList_repr, hnat]
    rfl

/-- An integer of a size of up to `2 ^ 53` is read back from its decimal text. -/
theorem Numeral.ofHeader?_toString {n : Int} (hn : n.natAbs ≤ 2 ^ 53) :
    ∃ x, ofHeader? (toString n).toList = some x ∧ x.IsWhole n := by
  refine ⟨_, by rw [toList_toString, ofHeader?_minus_row _ (isRow_toDigits _)], ?_⟩
  rw [rowValue_toDigits]
  have hwhole := Decimal.toBinary64_isWhole (decide (n < 0)) hn
  have hsigned : Binary64.signed (decide (n < 0)) n.natAbs = n := by
    rw [Binary64.signed]
    split
    next h => rw [Int.ofNat_natAbs_of_nonpos (of_decide_eq_true h).le, neg_neg]
    next h => exact Int.natAbs_of_nonneg (not_lt.mp (mt decide_eq_true h))
  rwa [hsigned] at hwhole

end ClaimCheck
