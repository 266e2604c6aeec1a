import ClaimCheck.Clock
import ClaimCheck.Proofs.Number.Rounding

namespace ClaimCheck.Clock
open Binary64 (Within)

/-- All readings still to come are finite and at most `2 ^ 64` seconds. -/
def Bounded (clock : Clock) : Prop :=
  ∀ x ∈ clock, ∃ q, Binary64.value? x = some q ∧ |q| ≤ 2 ^ 64

theorem within_zero : Within 64 .zero :=
  ⟨false, 0, Binary64.minExponent, rfl, by rw [Nat.cast_zero, zero_mul]; positivity⟩

theorem Bounded.read {clock : Clock} (h : clock.Bounded) :
    Within 64 clock.read.1 ∧ clock.read.2.Bounded := by
  have hwithin : ∀ x ∈ clock, Within 64 x := by
    intro x hx
    obtain ⟨q, hvalue, hq⟩ := h x hx
    exact Binary64.within_of_value? hvalue (by exact_mod_cast hq)
  match clock with
  | [] => exact ⟨within_zero, h⟩
  | [last] => exact ⟨hwithin last List.mem_cons_self, h⟩
  | first :: next :: rest =>
      exact ⟨hwithin first List.mem_cons_self, fun x hx => h x (List.mem_cons_of_mem first hx)⟩

/-- A span of two readings has a whole number of milliseconds. -/
theorem milliseconds_of_within {start stop : Binary64} (hstart : Within 64 start)
    (hstop : Within 64 stop) : ∃ n, milliseconds start stop = .ok n := by
  have hthousand : Within 11 (Binary64.ofInt 1000) :=
    Binary64.ofScaled_within false (k := 10) (by omega) (by omega) (by norm_num)
  have hspan := (hstop.sub hstart (by omega) (by omega)).mul hthousand (by omega) (by omega)
  obtain ⟨n, hn⟩ := hspan.trunc?
  exact ⟨n, by rw [milliseconds]; simp only [hn]⟩

end ClaimCheck.Clock
