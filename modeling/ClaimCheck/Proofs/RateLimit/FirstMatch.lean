import ClaimCheck.Proofs.RateLimit.Collected
import ClaimCheck.Proofs.Duration.Reading
import ClaimCheck.Proofs.Text.FinalSigma
/-!
Each field of a rate limit on its own. Headers are gone through once, with whatever can go wrong
on the way, but the outcome is six searches that know nothing of each other: the first header that
names a field gives its value, and no header of another name has a part in it.
-/
namespace ClaimCheck.RateLimit
open Duration (Fault numberOf attempt)

namespace Field

/-- What a field holds in a rate limit. -/
def held (r : RateLimit) : Field → Value
  | requestsLimit => .int r.requestsLimit
  | requestsRemaining => .int r.requestsRemaining
  | requestsReset => .duration r.requestsReset
  | tokensLimit => .int r.tokensLimit
  | tokensRemaining => .int r.tokensRemaining
  | tokensReset => .duration r.tokensReset

/-- What a field holds that nothing is told of. -/
def zero (f : Field) : Value :=
  if f.isReset then .duration .zero else .int 0

/-- A header names a field. -/
def NamedIn (f : Field) (header : Value × Value) : Prop :=
  plainName header.1 = f.header.toList

instance (f : Field) (header : Value × Value) : Decidable (f.NamedIn header) :=
  inferInstanceAs (Decidable (plainName header.1 = f.header.toList))

/-- What headers say of a field: what the first header that names it tells, or zero if there is
none. -/
inductive Says (f : Field) (headers : List (Value × Value)) : Value → Prop
  | first {before after : List (Value × Value)} {header : Value × Value}
      (hheaders : headers = before ++ header :: after) (hname : f.NamedIn header)
      (hbefore : ∀ other ∈ before, ¬ f.NamedIn other) : Says f headers (f.told header.2)
  | none (h : ∀ header ∈ headers, ¬ f.NamedIn header) : Says f headers f.zero

/-- Two lists of headers have the same headers of a field, in the same order. -/
def SameIn (f : Field) (headers others : List (Value × Value)) : Prop :=
  headers.filter f.NamedIn = others.filter f.NamedIn

end Field

section Names
variable {opening small target : List Char}

theorem getD_dropOpening?_eq_iff (h : Text.dropOpening? opening target = none) :
    (Text.dropOpening? opening small).getD small = target ↔
      small = target ∨ small = opening ++ target := by
  constructor
  · intro heq
    cases hdrop : Text.dropOpening? opening small with
    | none => exact .inl (by rwa [hdrop] at heq)
    | some rest =>
        rw [hdrop, Option.getD_some] at heq
        exact .inr (heq ▸ Text.eq_append_of_dropOpening? hdrop)
  · rintro (rfl | rfl)
    · rw [h, Option.getD_none]
    · rw [Text.dropOpening?_append, Option.getD_some]

/-- Whether the place of a letter is looked at does not matter to the names of the fields. -/
theorem plainName_eq_iff (f : Field) (name : Value) :
    plainName name = f.header.toList ↔ headerName name = f.header.toList := by
  have hopening : ∀ c ∈ relayOpening ++ f.header.toList, c.toNat < 128 := by
    have hrelay : relayOpening.all (fun c => c.toNat < 128) = true := by decide +kernel
    intro c hc
    rcases List.mem_append.mp hc with hc | hc
    · exact of_decide_eq_true (List.all_eq_true.mp hrelay c hc)
    · exact f.header_ascii c hc
  rw [plainName, headerName, getD_dropOpening?_eq_iff f.dropOpening?_header,
    getD_dropOpening?_eq_iff f.dropOpening?_header,
    Text.lowerInContext_eq_iff_of_ascii f.header_ascii, Text.lowerInContext_eq_iff_of_ascii hopening]

theorem Field.ofHeader?_plainName (name : Value) :
    Field.ofHeader? (plainName name) = Field.ofHeader? (headerName name) := by
  ext f
  rw [Field.ofHeader?_eq_some_iff, Field.ofHeader?_eq_some_iff, plainName_eq_iff]

end Names

theorem attemptCount_eq (s : String) : attemptCount s = .ok (countOfText s) := by
  have hread :
      Numeral.ofHeader? (Text.trim Text.isBlank s.toList) = Numeral.ofHeader? s.toList := by
    rw [Numeral.ofHeader?, Text.trim_trim, ← Numeral.ofHeader?]
  unfold attemptCount countOfText numberOf
  rw [hread]
  cases Numeral.ofHeader? s.toList with
  | none => rfl
  | some x => cases x <;> rfl

theorem Field.readFrom_eq (f : Field) (value : Value) : f.readFrom value = .ok (f.told value) := by
  unfold Field.readFrom Field.told
  split
  · rw [Duration.attempt_eq]; rfl
  · rw [attemptCount_eq]; rfl

theorem walk_eq (headers : List (Value × Value)) (found : Fields) :
    walk found headers = .ok (collect found headers) := by
  induction headers generalizing found with
  | nil => rfl
  | cons header rest ih =>
      obtain ⟨name, value⟩ := header
      rw [walk, collect, Field.ofHeader?_plainName]
      cases Field.ofHeader? (headerName name) with
      | none => exact ih found
      | some f =>
          dsimp only
          rw [f.readFrom_eq]
          cases (found.get? f.name).isSome with
          | true => exact ih found
          | false => exact ih (found ++ [(f.name, f.told value)])

/-- Nothing goes wrong, whatever the headers are. -/
theorem extract_eq (headers : List (Value × Value)) :
    extract headers = .ok (ofHeaders headers) := by
  have hlimit := ofFields_collect headers
  unfold extract
  split
  next hempty => rw [List.isEmpty_iff.mp hempty]; rfl
  next =>
    rw [walk_eq]
    dsimp only
    split
    next hempty =>
      rw [List.isEmpty_iff.mp hempty] at hlimit
      have hsame := (ofFields_collect []).symm.trans hlimit
      exact congrArg Except.ok (Except.ok.inj hsame)
    next => rw [hlimit]; rfl

section Searches
variable {f : Field} {headers others : List (Value × Value)}

/-- What the first header of a name tells may be wrapped up before or after it is looked for. -/
theorem getD_firstHeader? {α β : Type} (wrap : α → β) (read : String → α) (default : α)
    (name : String) (headers : List (Value × Value)) :
    wrap (((firstHeader? name headers).map read).getD default) =
      ((headers.find? fun header => headerName header.1 == name.toList).map fun header =>
        wrap (read (Value.display header.2))).getD (wrap default) := by
  rw [firstHeader?, ← Option.getD_map wrap, Option.map_map, Option.map_map]
  rfl

/-- What a field holds is told by the first header that names it. -/
theorem held_ofHeaders (f : Field) (headers : List (Value × Value)) :
    f.held (ofHeaders headers) =
      ((headers.find? f.NamedIn).map fun header => f.told header.2).getD f.zero := by
  have hname : (fun header => decide (f.NamedIn header)) =
      fun header : Value × Value => headerName header.1 == f.header.toList := by
    funext header
    rw [Bool.eq_iff_iff, decide_eq_true_iff, beq_iff_eq]
    exact plainName_eq_iff f header.1
  rw [hname]
  cases f with
  | requestsLimit => exact getD_firstHeader? Value.int countOfText 0 _ headers
  | requestsRemaining => exact getD_firstHeader? Value.int countOfText 0 _ headers
  | requestsReset => exact getD_firstHeader? Value.duration Duration.ofText .zero _ headers
  | tokensLimit => exact getD_firstHeader? Value.int countOfText 0 _ headers
  | tokensRemaining => exact getD_firstHeader? Value.int countOfText 0 _ headers
  | tokensReset => exact getD_firstHeader? Value.duration Duration.ofText .zero _ headers

theorem Field.says_iff {v : Value} : f.Says headers v ↔ f.held (ofHeaders headers) = v := by
  rw [held_ofHeaders]
  constructor
  · intro h
    cases h with
    | first hheaders hname hbefore =>
        have hfind : headers.find? f.NamedIn = some _ :=
          List.find?_eq_some_iff_append.mpr ⟨decide_eq_true hname, _, _, hheaders,
            fun other hother => by simpa using hbefore other hother⟩
        rw [hfind]
        rfl
    | none h =>
        have hfind : headers.find? f.NamedIn = none :=
          List.find?_eq_none.mpr fun header hmem => by simpa using h header hmem
        rw [hfind]
        rfl
  · rintro rfl
    cases hfind : headers.find? f.NamedIn with
    | none =>
        exact .none fun header hmem => by simpa using List.find?_eq_none.mp hfind header hmem
    | some header =>
        obtain ⟨hname, before, after, hheaders, hbefore⟩ := List.find?_eq_some_iff_append.mp hfind
        exact .first hheaders (of_decide_eq_true hname) fun other hother => by
          simpa using hbefore other hother

theorem Field.SameIn.held_eq (h : f.SameIn headers others) :
    f.held (ofHeaders headers) = f.held (ofHeaders others) := by
  have hfilter : headers.filter f.NamedIn = others.filter f.NamedIn := h
  rw [held_ofHeaders, held_ofHeaders, ← List.head?_filter, ← List.head?_filter, hfilter]

theorem eq_of_held_eq {r t : RateLimit} (h : ∀ f : Field, f.held r = f.held t) : r = t := by
  cases r
  cases t
  rw [mk.injEq]
  exact ⟨Value.int.inj (h .requestsLimit), Value.int.inj (h .requestsRemaining),
    Value.duration.inj (h .requestsReset), Value.int.inj (h .tokensLimit),
    Value.int.inj (h .tokensRemaining), Value.duration.inj (h .tokensReset)⟩

end Searches

/-- Headers always give a rate limit. Each of its fields is told by the first header that names
it, and is zero where none does; headers that do not name the field have no part in it. So other
headers give the same rate limit if they have those of each field in the same order. -/
theorem first_header_decides_each_field (headers : List (Value × Value)) :
    extract headers = .ok (ofHeaders headers) ∧
      ofHeaderValue? (.map headers) = some (ofHeaders headers) ∧
      (∀ (f : Field) (v : Value), f.Says headers v ↔ f.held (ofHeaders headers) = v) ∧
      (∀ (f : Field) (others : List (Value × Value)), f.SameIn headers others →
        f.held (ofHeaders others) = f.held (ofHeaders headers)) ∧
      ∀ others : List (Value × Value), (∀ f : Field, f.SameIn headers others) →
        extract others = extract headers := by
  refine ⟨extract_eq headers, rfl, fun f v => Field.says_iff, fun f others h => h.held_eq.symm, ?_⟩
  intro others h
  have hlimit : ofHeaders others = ofHeaders headers := eq_of_held_eq fun f => (h f).held_eq.symm
  rw [extract_eq, extract_eq, hlimit]

/-- A count that cannot be read hides the one after it, also where headers of other names come
between them and come in another order. -/
theorem unread_count_hides_the_next :
    let unread := (Value.text "X-RateLimit-Limit-Requests", Value.text "many")
    let next := (Value.text "llm_provider-x-ratelimit-limit-requests", Value.int 5)
    let reset := (Value.text "x-ratelimit-reset-tokens", Value.text "1m0.5s")
    let headers := [unread, next, reset]
    let others := [reset, unread, (.null, .null), next]
    extract headers = .ok ⟨0, 0, .zero, 0, 0, ⟨60500000⟩⟩ ∧
      (∀ f : Field, f.SameIn headers others) ∧ extract others = extract headers := by
  intro unread next reset headers others
  have hnames : ∀ f : Field, decide (f.NamedIn unread) = (f == .requestsLimit) ∧
      decide (f.NamedIn next) = (f == .requestsLimit) ∧
      decide (f.NamedIn reset) = (f == .tokensReset) ∧
      decide (f.NamedIn (.null, .null)) = false := by
    intro f
    cases f <;> decide +kernel
  have hsame : ∀ f : Field, f.SameIn headers others := by
    intro f
    obtain ⟨hunread, hnext, hreset, hnull⟩ := hnames f
    simp only [Field.SameIn, headers, others, List.filter, hunread, hnext, hreset, hnull]
    cases f <;> rfl
  refine ⟨?_, hsame, (first_header_decides_each_field headers).2.2.2.2 others hsame⟩
  rw [extract_eq]
  decide +kernel

end ClaimCheck.RateLimit
