import ClaimCheck.Proofs.Failure
import ClaimCheck.Proofs.Template.Occurrence
import ClaimCheck.Proofs.Template.Render
import Mathlib.Data.List.Basic
/-!
Rendering as one substitution. What a position of a template gives does not depend on what the
others give: a value where a placeholder starts, nothing within one, and the character itself
elsewhere. Main statement: the text that is rendered is what the positions give, in their order,
and it is refused exactly for the names without a value.
-/
namespace ClaimCheck.Template
open Text (isIdentifier)

/-- What a position of a template gives. -/
inductive Gives (bindings : Bindings) (cs : List Char) (i : Nat) : List Char → Prop
  | value (name : List Char) (value : String) (h : OccursAt cs i name)
      (hvalue : bindings.get? (String.ofList name) = some value) :
      Gives bindings cs i value.toList
  | inside (h : Inside cs i) : Gives bindings cs i []
  | kept (c : Char) (hc : cs[i]? = some c) (hstart : ∀ name, ¬ OccursAt cs i name)
      (hinside : ¬ Inside cs i) : Gives bindings cs i [c]

/-- What all positions of a template give, one after another. -/
def Substituted (bindings : Bindings) (cs out : List Char) : Prop :=
  ∃ part : Nat → List Char, (∀ i < cs.length, Gives bindings cs i (part i)) ∧
    out = (List.range cs.length).flatMap part

section Substitution
variable {bindings : Bindings} {cs front rest out other first part more : List Char} {i : Nat}

theorem Gives.of_occursAt {name : List Char} (h : Gives bindings cs i part)
    (hoccurs : OccursAt cs i name) :
    ∃ value, bindings.get? (String.ofList name) = some value ∧ part = value.toList := by
  cases h with
  | value other value hother hvalue =>
      cases hother.unique hoccurs
      exact ⟨value, hvalue, rfl⟩
  | inside hinside => exact absurd hinside hoccurs.not_inside
  | kept c hc hstart hinside => exact absurd hoccurs (hstart name)

theorem Gives.unique (h : Gives bindings cs i part) (hmore : Gives bindings cs i more) :
    part = more := by
  cases h with
  | value name value hname hvalue =>
      obtain ⟨value', hvalue', rfl⟩ := hmore.of_occursAt hname
      cases hvalue.symm.trans hvalue'
      rfl
  | inside hinside =>
      cases hmore with
      | value name value hname hvalue => exact absurd hinside hname.not_inside
      | inside _ => rfl
      | kept c hc hstart hout => exact absurd hinside hout
  | kept c hc hstart hout =>
      cases hmore with
      | value name value hname hvalue => exact absurd hname (hstart name)
      | inside hinside => exact absurd hinside hout
      | kept c' hc' _ _ =>
          cases hc.symm.trans hc'
          rfl

theorem Substituted.unique (h : Substituted bindings cs out)
    (hother : Substituted bindings cs other) : out = other := by
  obtain ⟨part, hpart, rfl⟩ := h
  obtain ⟨part', hpart', rfl⟩ := hother
  apply List.flatMap_congr
  intro i hi
  have hlt : i < cs.length := List.mem_range.mp hi
  exact (hpart i hlt).unique (hpart' i hlt)

/-- A place in a text that no placeholder runs across. -/
def Divides (front rest : List Char) : Prop :=
  ∀ i name, i < front.length → OccursAt (front ++ rest) i name →
    i + (written name).length ≤ front.length

theorem Divides.inside_iff (h : Divides front rest) :
    Inside (front ++ rest) (front.length + i) ↔ Inside rest i := by
  constructor
  · rintro ⟨j, name, hname, hlt, hbound⟩
    rcases Nat.lt_or_ge j front.length with hfront | hrest
    · have hends := h j name hfront hname
      omega
    · obtain ⟨k, rfl⟩ := Nat.exists_eq_add_of_le hrest
      exact ⟨k, name, occursAt_append_iff.mp hname, by omega, by omega⟩
  · rintro ⟨j, name, hname, hlt, hbound⟩
    exact ⟨front.length + j, name, occursAt_append_iff.mpr hname, by omega, by omega⟩

theorem Gives.append (hdivides : Divides front rest) (h : Gives bindings rest i part) :
    Gives bindings (front ++ rest) (front.length + i) part := by
  cases h with
  | value name value hname hvalue =>
      exact .value name value (occursAt_append_iff.mpr hname) hvalue
  | inside hinside => exact .inside (hdivides.inside_iff.mpr hinside)
  | kept c hc hstart hinside =>
      refine .kept c ?_ ?_ (mt hdivides.inside_iff.mp hinside)
      · rw [List.getElem?_append_right (Nat.le_add_right _ _), Nat.add_sub_cancel_left]
        exact hc
      · intro name hname
        exact hstart name (occursAt_append_iff.mp hname)

/-- Where no placeholder runs across, the parts on both sides can be put together. -/
theorem Substituted.append (hdivides : Divides front rest) (part : Nat → List Char)
    (hfront : ∀ i < front.length, Gives bindings (front ++ rest) i (part i))
    (hrest : Substituted bindings rest out) :
    Substituted bindings (front ++ rest) ((List.range front.length).flatMap part ++ out) := by
  obtain ⟨later, hlater, rfl⟩ := hrest
  refine ⟨fun i => if i < front.length then part i else later (i - front.length), ?_, ?_⟩
  · intro i hi
    rw [List.length_append] at hi
    by_cases hlt : i < front.length
    · simp only [hlt, if_true]
      exact hfront i hlt
    · obtain ⟨k, rfl⟩ := Nat.exists_eq_add_of_le (Nat.le_of_not_lt hlt)
      simp only [hlt, if_false, Nat.add_sub_cancel_left]
      exact (hlater k (by omega)).append hdivides
  · rw [List.length_append, List.range_add, List.flatMap_append, List.flatMap_map]
    congr 1
    · apply List.flatMap_congr
      intro i hi
      rw [if_pos (List.mem_range.mp hi)]
    · apply List.flatMap_congr
      intro i _
      rw [if_neg (Nat.not_lt.mpr (Nat.le_add_right _ _)), Nat.add_sub_cancel_left]

theorem Substituted.nil : Substituted bindings [] [] :=
  ⟨fun _ => [], nofun, rfl⟩

/-- The positions of a placeholder give its value at the first of them. -/
def placedFirst (value : List Char) : Nat → List Char
  | 0 => value
  | _ + 1 => []

theorem flatMap_placedFirst (value : List Char) (n : Nat) :
    (List.range (n + 1)).flatMap (placedFirst value) = value := by
  have hrest : (List.range n).flatMap (fun i => placedFirst value i.succ) = [] :=
    List.flatMap_eq_nil_iff.mpr fun i _ => rfl
  rw [List.range_succ_eq_map, List.flatMap_cons, List.flatMap_map, hrest]
  exact List.append_nil value

theorem Substituted.value {name : List Char} {value : String} (hname : isIdentifier name = true)
    (hvalue : bindings.get? (String.ofList name) = some value)
    (hrest : Substituted bindings rest out) :
    Substituted bindings (written name ++ rest) (value.toList ++ out) := by
  have hstarts : OccursAt (written name ++ rest) 0 name := ⟨hname, List.prefix_append _ _⟩
  have hdivides : Divides (written name) rest := by
    intro i other hi hother
    rcases Nat.eq_zero_or_pos i with rfl | hpos
    · cases hother.unique hstarts
      exact Nat.le_of_eq (Nat.zero_add _)
    · have hends := hstarts.disjoint hother hpos
      omega
  have hfront : ∀ i < (written name).length,
      Gives bindings (written name ++ rest) i (placedFirst value.toList i) := by
    intro i hi
    cases i with
    | zero => exact .value name value hstarts hvalue
    | succ i => exact .inside ⟨0, name, hstarts, Nat.succ_pos i, by omega⟩
  have hput := Substituted.append hdivides (placedFirst value.toList) hfront hrest
  rwa [written_length, flatMap_placedFirst] at hput

theorem Substituted.kept {c : Char} (hnot : ¬ StartsPlaceholder (c :: rest))
    (hrest : Substituted bindings rest out) :
    Substituted bindings (c :: rest) (c :: out) := by
  have hstart : ∀ name, ¬ OccursAt (c :: rest) 0 name := fun name h =>
    hnot (startsPlaceholder_iff.mpr ⟨name, h⟩)
  have hdivides : Divides [c] rest := by
    intro i name hi hname
    cases Nat.lt_one_iff.mp hi
    exact absurd hname (hstart name)
  refine Substituted.append hdivides (fun _ => [c]) (fun i hi => ?_) hrest
  cases Nat.lt_one_iff.mp hi
  refine .kept c rfl hstart ?_
  rintro ⟨j, name, _, hlt, _⟩
  exact absurd hlt (Nat.not_lt_zero j)

/-- A scan from the start gives what the positions give. -/
theorem Filled.substituted (h : Filled bindings cs out) : Substituted bindings cs out := by
  induction h with
  | nil => exact .nil
  | value name value hname hvalue hrest ih => exact .value hname hvalue ih
  | kept c hnot hrest ih => exact .kept hnot ih

theorem Substituted.value_of_occursAt {name : List Char} (h : Substituted bindings cs out)
    (hname : OccursAt cs i name) : (bindings.get? (String.ofList name)).isSome = true := by
  obtain ⟨part, hpart, _⟩ := h
  obtain ⟨value, hvalue, _⟩ := (hpart i hname.lt_length).of_occursAt hname
  rw [hvalue]
  rfl

end Substitution

section Render
variable {params other : Bindings} {template s : String}

theorem render_eq_ok_iff_substituted :
    render template params = .ok s ↔ Substituted params template.toList s.toList := by
  constructor
  · intro h
    exact (render_eq_ok_iff.mp h).2.substituted
  · intro h
    have hvalues : ∀ name, Mentions template name → (params.get? name).isSome = true := by
      intro name hname
      obtain ⟨i, hoccurs⟩ := mentions_iff_occursAt.mp hname
      have hvalue := h.value_of_occursAt hoccurs
      rwa [String.ofList_toList] at hvalue
    obtain ⟨t, ht, hfilled⟩ := render_of_mentions params hvalues
    rw [ht, String.toList_inj.mp (hfilled.substituted.unique h)]

theorem exists_render_error_iff :
    (∃ names, render template params = .error names) ↔
      ∃ name, Mentions template name ∧ params.get? name = none := by
  constructor
  · rintro ⟨names, h⟩
    obtain ⟨rfl, hsome⟩ := render_eq_error_iff.mp h
    obtain ⟨name, hname⟩ := List.exists_mem_of_ne_nil _ hsome
    exact ⟨name, mem_missing_iff.mp hname⟩
  · rintro ⟨name, hname⟩
    exact ⟨_, render_eq_error_iff.mpr ⟨rfl, List.ne_nil_of_mem (mem_missing_iff.mpr hname)⟩⟩

theorem Segment.fill_congr {segment : Segment} (h : segment ∈ segments template)
    (hsame : ∀ name, Mentions template name → params.get? name = other.get? name) :
    segment.fill params = segment.fill other := by
  cases segment with
  | literal c => rfl
  | placeholder name => rw [fill, fill, hsame _ (placeholder_mem_iff.mp h)]

theorem missing_congr
    (hsame : ∀ name, Mentions template name → params.get? name = other.get? name) :
    missing template params = missing template other := by
  apply List.filter_congr
  intro name hname
  rw [hsame name (mem_placeholders_iff.mp hname)]

theorem render_congr
    (hsame : ∀ name, Mentions template name → params.get? name = other.get? name) :
    render template params = render template other := by
  rw [render, render, missing_congr hsame,
    List.flatMap_congr fun segment h => Segment.fill_congr h hsame]

end Render

section Call
variable {params : Bindings} {template s : String}

theorem call_eq (h : params.get? templateName = none) :
    call template params = (render template params).mapError .missing := by
  rw [call, h]
  rfl

theorem call_eq_ok_iff (h : params.get? templateName = none) :
    call template params = .ok s ↔ Substituted params template.toList s.toList := by
  rw [call_eq h, mapError_eq_ok_iff, render_eq_ok_iff_substituted]

theorem call_eq_missing_iff (h : params.get? templateName = none) {names : List String} :
    call template params = .error (.missing names) ↔ render template params = .error names := by
  rw [call_eq h, mapError_eq_error_iff]
  constructor
  · rintro ⟨_, hnames, heq⟩
    cases heq
    exact hnames
  · intro hnames
    exact ⟨names, hnames, rfl⟩

theorem call_eq_givenTwice_iff :
    call template params = .error .givenTwice ↔ ∃ value, params.get? templateName = some value := by
  cases h : params.get? templateName with
  | some value => exact ⟨fun _ => ⟨value, rfl⟩, fun _ => by rw [call, h]; rfl⟩
  | none =>
      rw [call_eq h, mapError_eq_error_iff]
      exact ⟨nofun, nofun⟩

end Call

/-- A call is refused if a value comes under the name that the template itself has there. Otherwise a
template that mentions a name without a value is refused for exactly the names of that kind, in
ascending order, and any other template renders, to what its positions give: placeholders share no
character, and each one gives its value as it is, whatever the value and its neighbours look like.
A value that the template does not mention is without effect. -/
theorem rendered_by_one_substitution (template : String) (params : Bindings) :
    (call template params = .error .givenTwice ↔
        ∃ value, params.get? templateName = some value) ∧
      (∀ i j name other, OccursAt template.toList i name → OccursAt template.toList j other →
        i < j → i + (written name).length ≤ j) ∧
      (params.get? templateName = none →
        ((∃ names, call template params = .error (.missing names)) ↔
          ∃ name, Mentions template name ∧ params.get? name = none) ∧
        (∀ names, call template params = .error (.missing names) → names.Pairwise (· < ·) ∧
          ∀ name, name ∈ names ↔ Mentions template name ∧ params.get? name = none) ∧
        (∀ s, call template params = .ok s ↔ Substituted params template.toList s.toList) ∧
        ∀ other : Bindings, other.get? templateName = none →
          (∀ name, Mentions template name → params.get? name = other.get? name) →
          call template params = call template other) := by
  refine ⟨call_eq_givenTwice_iff, ?_, fun hname => ⟨?_, ?_, fun s => call_eq_ok_iff hname, ?_⟩⟩
  · intro i j name other h hother hlt
    exact h.disjoint hother hlt
  · simp only [call_eq_missing_iff hname]
    exact exists_render_error_iff
  · intro names h
    obtain ⟨rfl, _⟩ := render_eq_error_iff.mp ((call_eq_missing_iff hname).mp h)
    exact ⟨missing_pairwise template params, fun name => mem_missing_iff⟩
  · intro other hother hsame
    rw [call_eq hname, call_eq hother, render_congr hsame]

/-- Braces around a placeholder, one right behind another, and one that is never closed. -/
def crowdedTemplate : String := "\x7b\x7ba\x7d\x7d\x7bb\x7d\x7b"

/-- A value that looks like a placeholder of another one. -/
def crowdedValues : Bindings := [("a", "\x7bb\x7d"), ("b", "")]

theorem values_are_not_read_again :
    (1 + (written ['a']).length ≤ 5) ∧
      Substituted crowdedValues crowdedTemplate.toList "\x7b\x7bb\x7d\x7d\x7b".toList ∧
      call crowdedTemplate crowdedValues =
        call crowdedTemplate (("c", "x") :: crowdedValues) ∧
      ["a", "b"].Pairwise (· < ·) ∧ Mentions crowdedTemplate "b" := by
  obtain ⟨_, hdisjoint, hcall⟩ := rendered_by_one_substitution crowdedTemplate crowdedValues
  obtain ⟨_, _, hrendered, hsame⟩ := hcall (by decide +kernel)
  have hnames : placeholders crowdedTemplate = ["a", "b"] := by decide +kernel
  have hfirst : OccursAt crowdedTemplate.toList 1 ['a'] := ⟨by decide, by decide +kernel⟩
  have hsecond : OccursAt crowdedTemplate.toList 5 ['b'] := ⟨by decide, by decide +kernel⟩
  have hrender : call crowdedTemplate crowdedValues = .ok "\x7b\x7bb\x7d\x7d\x7b" :=
    by decide +kernel
  have hrefused : call crowdedTemplate [] = .error (.missing ["a", "b"]) := by decide +kernel
  obtain ⟨_, _, hempty⟩ := rendered_by_one_substitution crowdedTemplate []
  obtain ⟨hordered, hmissing⟩ := (hempty (by decide +kernel)).2.1 _ hrefused
  refine ⟨hdisjoint 1 5 _ _ hfirst hsecond (by decide), (hrendered _).mp hrender,
    hsame _ (by decide +kernel) ?_, hordered, ((hmissing "b").mp (by decide)).1⟩
  intro name hname
  rw [← mem_placeholders_iff, hnames] at hname
  simp only [List.mem_cons, List.not_mem_nil, or_false] at hname
  rcases hname with rfl | rfl <;> rfl

/-- All that the template mentions has a value, and one more value has the name of the template. -/
theorem refused_for_the_name_of_the_template :
    (∀ name, Mentions "\x7bclaim\x7d" name →
        Bindings.get? [("template", "x"), ("claim", "c")] name ≠ none) ∧
      call "\x7bclaim\x7d" [("template", "x"), ("claim", "c")] = .error .givenTwice := by
  refine ⟨fun name hname => ?_, by decide +kernel⟩
  have hnames : placeholders "\x7bclaim\x7d" = ["claim"] := by decide +kernel
  rw [← mem_placeholders_iff, hnames] at hname
  obtain rfl := List.mem_singleton.mp hname
  decide

end ClaimCheck.Template
