import ClaimCheck.Text.Lowercase
import Mathlib.Data.List.Forall2
import Mathlib.Tactic.Common

namespace ClaimCheck.Text

theorem lowerChar_of_ascii {c : Char} (h : c.toNat < 128) : lowerChar c = [c.toLower] := by
  have htable : ∀ n < 128, lowerChar (Char.ofNat n) = [(Char.ofNat n).toLower] := by
    decide +kernel
  have hc := htable c.toNat h
  rwa [Char.ofNat_toNat] at hc

theorem ascii_of_toLower {c : Char} (h : c.toLower.toNat < 128) : c.toNat < 128 := by
  by_contra hlarge
  have hsame : c.toLower = c := by
    refine dif_neg fun hrange => hlarge ?_
    have hle : c.toNat ≤ 90 := hrange.2
    omega
  rw [hsame] at h
  exact hlarge h

/-- A text that is an ASCII text but for the case of its letters has that as its small letters. -/
theorem lower_of_map_toLower {cs small : List Char} (h : cs.map Char.toLower = small)
    (hascii : ∀ c ∈ small, c.toNat < 128) : lower cs = small := by
  subst h
  induction cs with
  | nil => rfl
  | cons c cs ih =>
      obtain ⟨hc, hcs⟩ := List.forall_mem_cons.mp hascii
      rw [lower, List.flatMap_cons, lowerChar_of_ascii (ascii_of_toLower hc), ← lower, ih hcs]
      rfl

/-- The table goes over once: the capitals above ASCII keep above it, all but the Kelvin sign, and
none of them is sent to the code points that are no characters. -/
theorem capitalRuns_above {run : CapitalRun} (hrun : run ∈ capitalRuns) {code : ℕ}
    (hcode : run.covers code = true) :
    Char.ofNat (code + run.shift).toNat = 'k' ∨
      128 ≤ (Char.ofNat (code + run.shift).toNat).toNat := by
  have htable : ∀ run ∈ capitalRuns, (run.first = 0x212a ∧ run.last = 0x212a ∧ run.shift = -8383) ∨
      (128 ≤ run.first + run.shift ∧ (run.last + run.shift < 0xd800 ∨
        (0xdfff < run.first + run.shift ∧ run.last + run.shift < 0x110000))) := by
    decide +kernel
  have hrange : run.first ≤ code ∧ code ≤ run.last := by
    simp only [CapitalRun.covers, Bool.and_eq_true, decide_eq_true_eq] at hcode
    exact hcode.1
  rcases htable run hrun with ⟨hfirst, hlast, hshift⟩ | ⟨habove, hvalid⟩
  · left
    have hkelvin : code = 0x212a := by omega
    rw [hkelvin, hshift]
    rfl
  · right
    have hchar : ((code + run.shift).toNat).isValidChar := by
      unfold Nat.isValidChar
      omega
    have hcast : (Char.ofNat (code + run.shift).toNat).toNat = (code + run.shift).toNat := by
      rw [Char.ofNat, dif_pos hchar]
      rfl
    rw [hcast]
    omega

/-- Only ASCII letters have small letters that are all ASCII and no k. -/
theorem ascii_of_lowerChar {c : Char} (h : ∀ d ∈ lowerChar c, d.toNat < 128 ∧ d ≠ 'k') :
    c.toNat < 128 := by
  by_contra hc
  unfold lowerChar at h
  rw [if_neg hc] at h
  split at h
  next => exact absurd (h (Char.ofNat 0x307) (by simp)).1 (by decide)
  next =>
    split at h
    next run hfind =>
      obtain ⟨hlarge, hk⟩ := h _ List.mem_cons_self
      have hcovers := List.find?_some hfind
      rcases capitalRuns_above (List.mem_of_find?_eq_some hfind) hcovers with habove | habove
      · exact hk habove
      · omega
    next => exact hc (h c List.mem_cons_self).1

theorem range_of_isLower {d : Char} (h : d.isLower = true) :
    'a'.val ≤ d.val ∧ d.val ≤ 'z'.val := by
  obtain ⟨hlow, hhigh⟩ := Bool.and_eq_true_iff.mp h
  exact ⟨of_decide_eq_true hlow, of_decide_eq_true hhigh⟩

theorem ascii_of_isLower {d : Char} (h : d.isLower = true) : d.toNat < 128 := by
  have hle : d.toNat ≤ 122 := (range_of_isLower h).2
  omega

/-- A small ASCII letter is the small form of two ASCII letters. -/
theorem toLower_eq_iff {c d : Char} (hd : d.isLower = true) :
    c.toLower = d ↔ c ∈ [d.toUpper, d] := by
  have hrange := range_of_isLower hd
  have hsmall : 97 ≤ d.val.toNat ∧ d.val.toNat ≤ 122 := hrange
  have hup : ('A'.val - 'a'.val).toNat = 2 ^ 32 - 32 := rfl
  have hdown : ('a'.val - 'A'.val).toNat = 32 := rfl
  obtain ⟨_, hupper⟩ : ∃ h, d.toUpper = ⟨d.val + ('A'.val - 'a'.val), h⟩ := ⟨_, dif_pos hrange⟩
  rw [List.mem_pair, hupper, Char.ext_iff, Char.ext_iff, Char.ext_iff]
  by_cases hc : c.val ≥ 'A'.val ∧ c.val ≤ 'Z'.val
  · have hcapital : 65 ≤ c.val.toNat ∧ c.val.toNat ≤ 90 := hc
    obtain ⟨_, hlower⟩ : ∃ h, c.toLower = ⟨c.val + ('a'.val - 'A'.val), h⟩ := ⟨_, dif_pos hc⟩
    rw [hlower]
    simp only [← UInt32.toNat_inj, UInt32.toNat_add, hdown, hup]
    omega
  · have hother : ¬ (65 ≤ c.val.toNat ∧ c.val.toNat ≤ 90) := hc
    have hlower : c.toLower = c := dif_neg hc
    rw [hlower]
    simp only [← UInt32.toNat_inj, UInt32.toNat_add, hup]
    omega

/-- A text that is a word of small letters but for the case of its own letters. -/
def IsCasing (cs word : List Char) : Prop :=
  List.Forall₂ (fun c d => c ∈ [d.toUpper, d]) cs word

theorem map_toLower_eq_iff {cs word : List Char} (hword : ∀ d ∈ word, d.isLower = true) :
    cs.map Char.toLower = word ↔ IsCasing cs word := by
  induction cs generalizing word with
  | nil => rw [IsCasing, List.forall₂_nil_left_iff, List.map_nil, eq_comm]
  | cons c cs ih =>
      cases word with
      | nil => simp only [IsCasing, List.forall₂_nil_right_iff, List.map_eq_nil_iff]
      | cons d word =>
          obtain ⟨hd, hword⟩ := List.forall_mem_cons.mp hword
          rw [List.map_cons, List.cons.injEq, toLower_eq_iff hd, ih hword, IsCasing, IsCasing,
            List.forall₂_cons]

theorem lower_eq_map_toLower {cs : List Char} (h : ∀ d ∈ lower cs, d.toNat < 128 ∧ d ≠ 'k') :
    lower cs = cs.map Char.toLower := by
  induction cs with
  | nil => rfl
  | cons c cs ih =>
      rw [lower, List.flatMap_cons, ← lower, List.forall_mem_append] at h
      obtain ⟨hc, hcs⟩ := h
      rw [lower, List.flatMap_cons, ← lower, List.map_cons, ih hcs,
        lowerChar_of_ascii (ascii_of_lowerChar hc)]
      rfl

/-- A word without a k is the small form of just the texts that spell it in ASCII letters. -/
theorem lower_eq_iff_isCasing {cs word : List Char}
    (hword : ∀ d ∈ word, d.isLower = true ∧ d ≠ 'k') : lower cs = word ↔ IsCasing cs word := by
  have hascii : ∀ d ∈ word, d.toNat < 128 := fun d hd => ascii_of_isLower (hword d hd).1
  rw [← map_toLower_eq_iff fun d hd => (hword d hd).1]
  constructor
  · rintro rfl
    exact (lower_eq_map_toLower fun d hd => ⟨hascii d hd, (hword d hd).2⟩).symm
  · exact fun h => lower_of_map_toLower h hascii

end ClaimCheck.Text
