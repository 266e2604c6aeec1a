/-!
Blank characters and trimming. Two classes are in use: the separators that a reader of
header text skips, and the narrower class of white space that a reader of fields skips.
-/
namespace ClaimCheck.Text

/-- White space of any script, without the four information separators. -/
def isWhite (c : Char) : Bool :=
  let n := c.toNat
  (9 ≤ n && n ≤ 13) || n == 0x20 || n == 0x85 || n == 0xa0 || n == 0x1680
    || (0x2000 ≤ n && n ≤ 0x200a) || n == 0x2028 || n == 0x2029 || n == 0x202f
    || n == 0x205f || n == 0x3000

def isBlank (c : Char) : Bool :=
  isWhite c || (0x1c ≤ c.toNat && c.toNat ≤ 0x1f)

def trim (skip : Char → Bool) (cs : List Char) : List Char :=
  ((cs.dropWhile skip).reverse.dropWhile skip).reverse

def dropOpening? : List Char → List Char → Option (List Char)
  | [], cs => some cs
  | o :: os, c :: cs => if o = c then dropOpening? os cs else none
  | _ :: _, [] => none

theorem dropOpening?_append (opening cs : List Char) :
    dropOpening? opening (opening ++ cs) = some cs := by
  induction opening with
  | nil => rfl
  | cons o os ih => simp [dropOpening?, ih]

theorem eq_append_of_dropOpening? {opening cs rest : List Char}
    (h : dropOpening? opening cs = some rest) : cs = opening ++ rest := by
  induction opening generalizing cs with
  | nil => simpa [dropOpening?] using h
  | cons o os ih =>
    cases cs with
    | nil => simp [dropOpening?] at h
    | cons c cs =>
      by_cases same : o = c
      · subst same
        simp only [dropOpening?, if_true] at h
        rw [ih h]
        rfl
      · simp [dropOpening?, same] at h

end ClaimCheck.Text
