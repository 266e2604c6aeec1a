import ClaimCheck.RateLimit.Headers
import ClaimCheck.Proofs.Duration.Whole
import ClaimCheck.Proofs.Text.Lowercase
/-!
Rate limits through headers and back. Each field has one header name, no two fields have the
same, and so a header that names a field decides it alone. What was written into six headers is
read back from them in any order and among any others.
-/
namespace ClaimCheck.RateLimit

/-- A time of whole seconds that is not longer than a duration can be. -/
def WholeTime (d : Duration) : Prop :=
  ∃ seconds : Nat, seconds ≤ Duration.maxSeconds ∧
    d = ⟨(seconds : Int) * Duration.microsPerSecond⟩

/-- Hours, minutes and seconds that add up to a time. -/
def SpellsTime (d : Duration) (text : String) : Prop :=
  ∃ hours minutes seconds : Nat, text = Duration.clockText hours minutes seconds ∧
    d = ⟨((3600 * hours + 60 * minutes + seconds : Nat) : Int) * Duration.microsPerSecond⟩

namespace Field

/-- A name of the field's header with letters of any case, with or without the opening of a
relay. -/
def NamedBy (f : Field) (name : String) : Prop :=
  name.toList.map Char.toLower = f.header.toList ∨
    name.toList.map Char.toLower = relayOpening ++ f.header.toList

/-- A count is spelt in decimal, and a time in hours, minutes and seconds. -/
def Spelt (r : RateLimit) : Field → String → Prop
  | requestsLimit, text => text = toString r.requestsLimit
  | requestsRemaining, text => text = toString r.requestsRemaining
  | requestsReset, text => SpellsTime r.requestsReset text
  | tokensLimit, text => text = toString r.tokensLimit
  | tokensRemaining, text => text = toString r.tokensRemaining
  | tokensReset, text => SpellsTime r.tokensReset text

def WrittenBy (f : Field) (r : RateLimit) (header : Value × Value) : Prop :=
  ∃ name text, header = (.text name, .text text) ∧ f.NamedBy name ∧ f.Spelt r text

theorem mem_all (f : Field) : f ∈ all := by
  cases f <;> decide

theorem header_inj {f g : Field} (h : f.header.toList = g.header.toList) : f = g := by
  have hheaders : (all.map header).Nodup := by decide +kernel
  exact List.inj_on_of_nodup_map hheaders f.mem_all g.mem_all (String.toList_inj.mp h)

theorem header_ascii (f : Field) : ∀ c ∈ f.header.toList, c.toNat < 128 := by
  have h : f.header.toList.all (fun c => c.toNat < 128) = true := by
    cases f <;> decide +kernel
  exact fun c hc => of_decide_eq_true (List.all_eq_true.mp h c hc)

theorem dropOpening?_header (f : Field) :
    Text.dropOpening? relayOpening f.header.toList = none := by
  cases f <;> decide +kernel

end Field

/-- A rate limit whose counts are numbers of their own in double precision, and whose times are
whole seconds and not longer than a duration can be. -/
structure Writable (r : RateLimit) : Prop where
  counts : ∀ n ∈ [r.requestsLimit, r.requestsRemaining, r.tokensLimit, r.tokensRemaining],
    n.natAbs ≤ 2 ^ 53
  resets : ∀ d ∈ [r.requestsReset, r.tokensReset], WholeTime d

def OfNoField (header : Value × Value) : Prop :=
  ∀ f : Field, headerName header.1 ≠ f.header.toList

theorem headerName_of_namedBy {f : Field} {name : String} (h : f.NamedBy name) :
    headerName (.text name) = f.header.toList := by
  rw [headerName, Value.display]
  rcases h with h | h
  · rw [Text.lower_of_map_toLower h f.header_ascii, f.dropOpening?_header]
    rfl
  · have hopening : relayOpening.all (fun c => c.toNat < 128) = true := by decide +kernel
    rw [Text.lower_of_map_toLower h fun c hc => (List.mem_append.mp hc).elim
      (fun hc => of_decide_eq_true (List.all_eq_true.mp hopening c hc)) (f.header_ascii c),
      Text.dropOpening?_append]
    rfl

theorem countOfText_toString {n : Int} (hn : n.natAbs ≤ 2 ^ 53) : countOfText (toString n) = n := by
  obtain ⟨x, hread, hx⟩ := Numeral.ofHeader?_toString hn
  rw [countOfText, hread, Option.bind_some, hx.trunc?, Option.getD_some]

theorem ofText_of_spellsTime {d : Duration} {text : String} (h : SpellsTime d text)
    (hd : WholeTime d) : Duration.ofText text = d := by
  obtain ⟨hours, minutes, seconds, rfl, rfl⟩ := h
  obtain ⟨total, hmax, htotal⟩ := hd
  have hmicros := congrArg Duration.micros htotal
  dsimp only [Duration.microsPerSecond] at hmicros
  exact Duration.ofText_clockText (by omega)

section Written
variable {r : RateLimit} {written : Field → Value × Value} {others headers : List (Value × Value)}

/-- Among headers that name each field once, the one that names a field is the first to do so. -/
theorem find?_written (hwritten : ∀ f : Field, f.WrittenBy r (written f))
    (hothers : ∀ header ∈ others, OfNoField header)
    (hperm : headers.Perm (Field.all.map written ++ others)) (f : Field) :
    headers.find? (fun header => headerName header.1 == f.header.toList) = some (written f) := by
  have hname : ∀ g, headerName (written g).1 = g.header.toList := by
    intro g
    obtain ⟨name, text, hheader, hnamed, _⟩ := hwritten g
    rw [hheader]
    exact headerName_of_namedBy hnamed
  -- a header of the field's name is the one written for it, so none other can come first
  have honly : ∀ header ∈ headers, headerName header.1 = f.header.toList → header = written f := by
    intro header hmem hf
    rcases List.mem_append.mp (hperm.mem_iff.mp hmem) with hmem | hmem
    · obtain ⟨g, _, rfl⟩ := List.mem_map.mp hmem
      rw [Field.header_inj ((hname g).symm.trans hf)]
    · exact absurd hf (hothers header hmem f)
  have hmem : written f ∈ headers :=
    hperm.mem_iff.mpr (List.mem_append_left _ (List.mem_map_of_mem f.mem_all))
  cases hfind : headers.find? fun header => headerName header.1 == f.header.toList with
  | none => exact absurd (beq_iff_eq.mpr (hname f)) (List.find?_eq_none.mp hfind _ hmem)
  | some header =>
      have hf := (List.find?_eq_some_iff_append.mp hfind).1
      rw [honly header (List.mem_of_find?_eq_some hfind) (beq_iff_eq.mp hf)]

theorem firstHeader?_written (hwritten : ∀ f : Field, f.WrittenBy r (written f))
    (hothers : ∀ header ∈ others, OfNoField header)
    (hperm : headers.Perm (Field.all.map written ++ others)) (f : Field) :
    ∃ text, firstHeader? f.header headers = some text ∧ f.Spelt r text := by
  obtain ⟨name, text, hheader, _, hspelt⟩ := hwritten f
  refine ⟨text, ?_, hspelt⟩
  rw [firstHeader?, find?_written hwritten hothers hperm f, hheader]
  rfl

theorem headerCount_eq {name : String} {n : Int} (hn : n.natAbs ≤ 2 ^ 53)
    (h : ∃ text, firstHeader? name headers = some text ∧ text = toString n) :
    headerCount name headers = n := by
  obtain ⟨text, hfirst, rfl⟩ := h
  rw [headerCount, hfirst, Option.map_some, Option.getD_some, countOfText_toString hn]

theorem headerDuration_eq {name : String} {d : Duration} (hd : WholeTime d)
    (h : ∃ text, firstHeader? name headers = some text ∧ SpellsTime d text) :
    headerDuration name headers = d := by
  obtain ⟨text, hfirst, hspelt⟩ := h
  rw [headerDuration, hfirst, Option.map_some, Option.getD_some, ofText_of_spellsTime hspelt hd]

/-- A rate limit is read back from the six headers it is written into, in whatever order they
come and whatever other headers are among them. -/
theorem ofHeaders_of_written (hr : r.Writable) (hwritten : ∀ f : Field, f.WrittenBy r (written f))
    (hothers : ∀ header ∈ others, OfNoField header)
    (hperm : headers.Perm (Field.all.map written ++ others)) :
    ofHeaderValue? (.map headers) = some r := by
  have hfirst := firstHeader?_written hwritten hothers hperm
  obtain ⟨hcounts, hresets⟩ := hr
  simp only [List.forall_mem_cons, List.not_mem_nil, false_implies, implies_true, and_true]
    at hcounts hresets
  obtain ⟨hlimit, hremaining, htokens, htokensLeft⟩ := hcounts
  obtain ⟨hreset, htokensReset⟩ := hresets
  cases r
  rw [ofHeaderValue?, Option.some.injEq, ofHeaders, mk.injEq]
  exact ⟨headerCount_eq hlimit (hfirst .requestsLimit),
    headerCount_eq hremaining (hfirst .requestsRemaining),
    headerDuration_eq hreset (hfirst .requestsReset),
    headerCount_eq htokens (hfirst .tokensLimit),
    headerCount_eq htokensLeft (hfirst .tokensRemaining),
    headerDuration_eq htokensReset (hfirst .tokensReset)⟩

end Written

/-- A rate limit at the ends of what can be written. -/
def farthest : RateLimit :=
  ⟨-9007199254740992, 7, ⟨86399999999999000000⟩, 9007199254740992, 0, ⟨0⟩⟩

/-- One header for each field of the rate limit, in names of all forms. -/
def farthestWritten : Field → Value × Value
  | .requestsLimit => (.text "X-RateLimit-Limit-Requests", .text "-9007199254740992")
  | .requestsRemaining => (.text "LLM_Provider-X-RATELIMIT-Remaining-requests", .text "7")
  | .requestsReset =>
    (.text "llm_provider-x-ratelimit-reset-requests", .text "23999999999h0m3599s")
  | .tokensLimit => (.text "x-ratelimit-limit-TOKENS", .text "9007199254740992")
  | .tokensRemaining => (.text "x-ratelimit-remaining-tokens", .text "0")
  | .tokensReset => (.text "X-ratelimit-Reset-tokens", .text "0h0m0s")

/-- The six headers are read in another order, with a header between them that has no field's
name and one that has the opening of a relay twice. -/
theorem ofHeaders_of_farthestWritten :
    let others := [(.text "x-ratelimit-limit", .text "1"),
      (.text "llm_provider-llm_provider-x-ratelimit-limit-tokens", .text "2")]
    let headers := (Field.all.map farthestWritten ++ others).rotate 4
    farthest.Writable ∧ (∀ f : Field, f.WrittenBy farthest (farthestWritten f)) ∧
      (∀ header ∈ others, OfNoField header) ∧
      headers.Perm (Field.all.map farthestWritten ++ others) ∧
      ofHeaderValue? (.map headers) = some farthest := by
  intro others headers
  have hwritable : farthest.Writable := by
    constructor
    · decide
    · simp only [List.forall_mem_cons, List.not_mem_nil, false_implies, implies_true, and_true]
      exact ⟨⟨86399999999999, by decide, by decide⟩, ⟨0, by decide, by decide⟩⟩
  have hwritten : ∀ f : Field, f.WrittenBy farthest (farthestWritten f) := by
    intro f
    cases f with
    | requestsLimit =>
        have hspelt : "-9007199254740992" = toString (-9007199254740992 : Int) := by decide +kernel
        exact ⟨_, _, rfl, .inl (by decide +kernel), hspelt⟩
    | requestsRemaining =>
        have hspelt : "7" = toString (7 : Int) := by decide +kernel
        exact ⟨_, _, rfl, .inr (by decide +kernel), hspelt⟩
    | requestsReset =>
        exact ⟨_, _, rfl, .inr (by decide +kernel), 23999999999, 0, 3599, by decide +kernel,
          by decide +kernel⟩
    | tokensLimit =>
        have hspelt : "9007199254740992" = toString (9007199254740992 : Int) := by decide +kernel
        exact ⟨_, _, rfl, .inl (by decide +kernel), hspelt⟩
    | tokensRemaining =>
        have hspelt : "0" = toString (0 : Int) := by decide +kernel
        exact ⟨_, _, rfl, .inl (by decide +kernel), hspelt⟩
    | tokensReset =>
        exact ⟨_, _, rfl, .inl (by decide +kernel), 0, 0, 0, by decide +kernel,
          by decide +kernel⟩
  have hothers : ∀ header ∈ others, OfNoField header := by
    have hnames : ∀ header ∈ others, ∀ f ∈ Field.all, headerName header.1 ≠ f.header.toList := by
      decide +kernel
    exact fun header hmem f => hnames header hmem f f.mem_all
  have hperm : headers.Perm (Field.all.map farthestWritten ++ others) := List.rotate_perm _ 4
  exact ⟨hwritable, hwritten, hothers, hperm,
    ofHeaders_of_written hwritable hwritten hothers hperm⟩

end ClaimCheck.RateLimit
