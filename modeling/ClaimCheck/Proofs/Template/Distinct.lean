import ClaimCheck.Proofs.Template.Render
/-!
Texts that are rendered from different values. As soon as a template mentions a name, the text
tells the value of that name from all others, however often the name stands in the template: what
a longer value adds to the text cannot be made up for by any other piece.
-/
namespace ClaimCheck.Template

theorem length_flatMap_le {α : Type} {f g : α → List Char} {xs : List α}
    (h : ∀ x ∈ xs, (f x).length ≤ (g x).length) :
    (xs.flatMap f).length ≤ (xs.flatMap g).length := by
  induction xs with
  | nil => exact Nat.le_refl _
  | cons x xs ih =>
      obtain ⟨hx, hxs⟩ := List.forall_mem_cons.mp h
      simp only [List.flatMap_cons, List.length_append]
      exact Nat.add_le_add hx (ih hxs)

/-- Where no piece becomes shorter and the whole stays the same, every piece stays the same. -/
theorem eq_of_flatMap_eq {α : Type} {f g : α → List Char} {xs : List α}
    (hle : ∀ x ∈ xs, (f x).length ≤ (g x).length) (h : xs.flatMap f = xs.flatMap g) :
    ∀ x ∈ xs, f x = g x := by
  induction xs with
  | nil => nofun
  | cons x xs ih =>
      obtain ⟨hx, hxs⟩ := List.forall_mem_cons.mp hle
      simp only [List.flatMap_cons] at h
      have htotal := congrArg List.length h
      simp only [List.length_append] at htotal
      have hrest := length_flatMap_le hxs
      obtain ⟨hhead, htail⟩ := List.append_inj h (by omega)
      exact List.forall_mem_cons.mpr ⟨hhead, ih hxs htail⟩

theorem toList_of_render {template s : String} {params : Bindings}
    (h : render template params = .ok s) :
    s.toList = (segments template).flatMap (·.fill params) := by
  unfold render at h
  split at h
  · cases h
    exact String.toList_ofList
  · cases h

/-- Bindings that differ at most in the value of one name. -/
structure DifferAt (name value value' : String) (params other : Bindings) : Prop where
  here : params.get? name = some value
  there : other.get? name = some value'
  elsewhere : ∀ n, n ≠ name → params.get? n = other.get? n

namespace DifferAt
variable {template name value value' : String} {params other : Bindings}

theorem symm (h : DifferAt name value value' params other) :
    DifferAt name value' value other params :=
  ⟨h.there, h.here, fun n hn => (h.elsewhere n hn).symm⟩

theorem length_fill_le (h : DifferAt name value value' params other)
    (hle : value.toList.length ≤ value'.toList.length) (segment : Segment) :
    (segment.fill params).length ≤ (segment.fill other).length := by
  cases segment with
  | literal c => exact Nat.le_refl _
  | placeholder n =>
      by_cases hname : String.ofList n = name
      · simp only [Segment.fill, hname, h.here, h.there, Option.getD_some]
        exact hle
      · apply Nat.le_of_eq
        rw [Segment.fill, Segment.fill, h.elsewhere _ hname]

theorem value_eq_of_le (h : DifferAt name value value' params other)
    (hle : value.toList.length ≤ value'.toList.length) (hmentions : Mentions template name)
    {s : String} (hs : render template params = .ok s) (hs' : render template other = .ok s) :
    value = value' := by
  have hwhole : (segments template).flatMap (·.fill params) =
      (segments template).flatMap (·.fill other) := by
    rw [← toList_of_render hs, ← toList_of_render hs']
  have hmem : Segment.placeholder name.toList ∈ segments template := by
    rw [placeholder_mem_iff, String.ofList_toList]
    exact hmentions
  have hpiece := eq_of_flatMap_eq (fun segment _ => h.length_fill_le hle segment) hwhole _ hmem
  simp only [Segment.fill, String.ofList_toList, h.here, h.there, Option.getD_some] at hpiece
  exact String.toList_inj.mp hpiece

/-- Where a template that mentions the name renders, it does so to the same text for the same value
only. -/
theorem value_eq (h : DifferAt name value value' params other)
    (hmentions : Mentions template name) (hrenders : ∃ s, render template params = .ok s)
    (hsame : render template params = render template other) : value = value' := by
  obtain ⟨s, hs⟩ := hrenders
  have hs' : render template other = .ok s := hsame.symm.trans hs
  rcases Nat.le_total value.toList.length value'.toList.length with hle | hle
  · exact h.value_eq_of_le hle hmentions hs hs'
  · exact (h.symm.value_eq_of_le hle hmentions hs' hs).symm

end DifferAt
end ClaimCheck.Template
