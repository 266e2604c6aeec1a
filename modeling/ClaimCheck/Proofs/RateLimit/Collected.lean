import ClaimCheck.Proofs.RateLimit.RoundTrip
import ClaimCheck.Proofs.Validation
/-!
Rate limits as a walk over the headers collects them: the first header of each field gives its
value, and the rate limit is made of the fields that were found. The check of these fields never
refuses what headers say, whatever their names and values are.
-/
namespace ClaimCheck.RateLimit

namespace Field

theorem name_inj {f g : Field} (h : f.name = g.name) : f = g := by
  have hnames : (all.map name).Nodup := by decide
  exact List.inj_on_of_nodup_map hnames f.mem_all g.mem_all h

theorem ofHeader?_eq_some_iff {f : Field} {small : List Char} :
    ofHeader? small = some f ↔ small = f.header.toList := by
  have hbears : ∀ {g : Field}, ofHeader? small = some g → g.header.toList = small := by
    intro g h
    have hg := List.find?_some (show all.find? (fun f => f.header.toList == small) = some g from h)
    exact beq_iff_eq.mp hg
  constructor
  · intro h
    exact (hbears h).symm
  · intro hsmall
    cases h : ofHeader? small with
    | none => exact absurd (beq_iff_eq.mpr hsmall.symm) (List.find?_eq_none.mp h f f.mem_all)
    | some g => rw [header_inj ((hbears h).trans hsmall)]

end Field

/-- A field comes from what was found of it, and otherwise from the first header of its name. -/
theorem get?_collect (f : Field) (headers : List (Value × Value)) (found : Fields) :
    (collect found headers).get? f.name = (found.get? f.name).or
      ((headers.find? fun header => headerName header.1 == f.header.toList).map
        fun header => f.told header.2) := by
  induction headers generalizing found with
  | nil => exact (Option.or_none).symm
  | cons header rest ih =>
      obtain ⟨name, value⟩ := header
      by_cases hname : headerName name = f.header.toList
      -- the header tells of the field: it counts unless an earlier one did
      · have hfield := Field.ofHeader?_eq_some_iff.mpr hname
        have hfirst : ((name, value) :: rest).find? (fun header =>
            headerName header.1 == f.header.toList) = some (name, value) :=
          List.find?_cons_of_pos (beq_iff_eq.mpr hname)
        rw [hfirst, collect, hfield]
        dsimp only [Option.map_some]
        cases hfound : found.get? f.name with
        | some earlier =>
            simp only [Option.isSome_some, if_true, ih, hfound, Option.some_or]
        | none =>
            simp only [Option.isSome_none, Bool.false_eq_true, if_false, ih, Fields.get?_append,
              hfound, Fields.get?_cons, if_true, Option.none_or, Option.some_or]
      -- it tells of another field or of none, and what it adds is not looked up
      · have hother : ((name, value) :: rest).find? (fun header =>
            headerName header.1 == f.header.toList) =
            rest.find? fun header => headerName header.1 == f.header.toList :=
          List.find?_cons_of_neg fun hbears => hname (beq_iff_eq.mp hbears)
        rw [hother, collect]
        split
        next => exact ih found
        next g hg =>
          have hne : g.name ≠ f.name := by
            intro hsame
            rw [Field.name_inj hsame] at hg
            exact hname (Field.ofHeader?_eq_some_iff.mp hg)
          split
          next => exact ih found
          next => rw [ih, Fields.get?_append, Fields.get?_cons, if_neg hne, Fields.get?_nil,
            Option.or_none]

theorem check_eq_ok_iff {fields : Fields} {limit : RateLimit} :
    check fields = .ok limit ↔
      Reader.Takes Reader.integer 0 (fields.get? "requests_limit") limit.requestsLimit ∧
      Reader.Takes Reader.integer 0 (fields.get? "requests_remaining") limit.requestsRemaining ∧
      Reader.Takes Reader.duration .zero (fields.get? "requests_reset") limit.requestsReset ∧
      Reader.Takes Reader.integer 0 (fields.get? "tokens_limit") limit.tokensLimit ∧
      Reader.Takes Reader.integer 0 (fields.get? "tokens_remaining") limit.tokensRemaining ∧
      Reader.Takes Reader.duration .zero (fields.get? "tokens_reset") limit.tokensReset := by
  simp only [check, Checked.and_eq_ok_iff, map_eq_ok_iff, Fields.optional_eq_ok_iff]
  constructor
  · rintro ⟨_, _, ⟨_, _, ⟨_, _, ⟨_, _, ⟨_, _, ⟨_, h₁, rfl⟩, h₂, rfl⟩, h₃, rfl⟩, h₄, rfl⟩, h₅,
      rfl⟩, h₆, rfl⟩
    exact ⟨h₁, h₂, h₃, h₄, h₅, h₆⟩
  · rintro ⟨h₁, h₂, h₃, h₄, h₅, h₆⟩
    exact ⟨_, _, ⟨_, _, ⟨_, _, ⟨_, _, ⟨_, _, ⟨_, h₁, rfl⟩, h₂, rfl⟩, h₃, rfl⟩, h₄, rfl⟩, h₅,
      rfl⟩, h₆, rfl⟩

/-- A field that was found is taken for what its first header says, by any reader that reads that
back, and otherwise for the default. -/
theorem takes_collected {α : Type} {read : Reader α} {default : α} {ofText : String → α} (f : Field)
    (hread : ∀ value, read (f.told value) = .ok (ofText (Value.display value)))
    (headers : List (Value × Value)) :
    Reader.Takes read default ((collect [] headers).get? f.name)
      (((firstHeader? f.header headers).map ofText).getD default) := by
  rw [get?_collect, Fields.get?_nil, Option.none_or, firstHeader?]
  cases headers.find? fun header => headerName header.1 == f.header.toList with
  | none => rfl
  | some header => exact hread header.2

/-- Whatever headers say, the fields collected from them are accepted. -/
theorem ofFields_collect (headers : List (Value × Value)) :
    ofFields (collect [] headers) = .ok (ofHeaders headers) := by
  rw [ofFields, Checked.named_eq_ok_iff, check_eq_ok_iff]
  exact ⟨takes_collected .requestsLimit (fun _ => rfl) headers,
    takes_collected .requestsRemaining (fun _ => rfl) headers,
    takes_collected .requestsReset (fun _ => rfl) headers,
    takes_collected .tokensLimit (fun _ => rfl) headers,
    takes_collected .tokensRemaining (fun _ => rfl) headers,
    takes_collected .tokensReset (fun _ => rfl) headers⟩

end ClaimCheck.RateLimit
