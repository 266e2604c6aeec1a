import Mathlib.Data.List.Forall2
import ClaimCheck.Proofs.Environment.Substitution
/-!
References that interpolation leaves behind. Where the values of the variables hold none of the
characters that references are written with, no reference comes out of a value, of a fallback or of
what stands between two references. One that is left has been put together out of several of them:
its closing brace is one of the text itself, and it opens in front of a reference that has been
replaced, or within the fallback of one.
-/
namespace ClaimCheck.Environment
open Text (Rune runes)

/-- Somewhere in a text a reference is written. -/
def HoldsReference (cs : List Rune) : Prop :=
  ∃ r : Reference, r.WellFormed ∧ r.source <:+: cs

/-- No value holds a character that references are told by. -/
def Plain (env : Environment) : Prop :=
  ∀ name value, env.get? name = some value → ∀ c ∈ ['$', '{', '}'], c ∉ value.toList

/-- The piece in which a reference that is left behind opens, and the part of what the piece gives
that belongs to the reference. After a dollar sign of the text itself a replaced reference has to
follow; otherwise the text would have been a reference as it stands. -/
inductive Opens (env : Environment) (middle : List Segment) : Segment → List Rune → Prop
  | literal (r : Reference) (hr : .reference r ∈ middle) :
      Opens env middle (.literal (.char '$')) [.char '$']
  | fallback (r : Reference) (before after : List Rune)
      (hunset : env.get? (String.ofList r.name) = none)
      (h : r.fallback = some (before ++ .char '$' :: after)) :
      Opens env middle (.reference r) (.char '$' :: after)

/-- Pieces out of which a reference is put together: it opens in one of them, runs over what the
next ones give, and ends with a brace of the text itself. -/
inductive LeavesReference (env : Environment) : List Segment → Prop
  | intro (front back : List Segment) {opening : Segment} {middle : List Segment}
      {start inserted : List Rune} {r : Reference} (hopens : Opens env middle opening start)
      (hmiddle : Replaced env middle inserted) (hr : r.WellFormed)
      (hsource : r.source = start ++ inserted ++ [.char '}']) :
      LeavesReference env (front ++ opening :: (middle ++ .literal (.char '}') :: back))

section Sources

/-- The only closing brace of a reference is its last character. -/
theorem Reference.WellFormed.source_eq {r : Reference} (h : r.WellFormed) :
    ∃ inside, r.source = .char '$' :: (inside ++ [.char '}']) ∧ .char '}' ∉ inside := by
  have hname : '}' ∉ r.name := by
    intro hmem
    have hcontinues := Text.continues_of_mem h.name hmem
    rw [brace_ends_identifier] at hcontinues
    cases hcontinues
  obtain ⟨name, fallback⟩ := r
  cases fallback with
  | none =>
      exact ⟨.char '{' :: name.map .char, by simp [Reference.source], by simpa using hname⟩
  | some text =>
      have htext : .char '}' ∉ text := h.fallback text rfl
      exact ⟨.char '{' :: (name.map .char ++ .char ':' :: .char '-' :: text),
        by simp [Reference.source],
        by simpa using ⟨hname, htext⟩⟩

variable {cs : List Rune} {pieces front back : List Segment}

theorem Pieces.wellFormed_of_mem (h : Pieces cs pieces) {r : Reference}
    (hr : .reference r ∈ pieces) : r.WellFormed := by
  induction h with
  | nil => cases hr
  | reference other hother hrest ih =>
      rcases List.mem_cons.mp hr with heq | hmem
      · cases heq
        exact hother
      · exact ih hmem
  | literal c hnot hrest ih =>
      rcases List.mem_cons.mp hr with heq | hmem
      · cases heq
      · exact ih hmem

theorem Pieces.not_startsReference {c : Rune} (h : Pieces cs (front ++ .literal c :: back)) :
    ¬ StartsReference (c :: back.flatMap Segment.source) := by
  induction front generalizing cs with
  | nil =>
      cases h with
      | literal _ hnot hrest =>
          rw [hrest.source_eq]
          exact hnot
  | cons piece front ih =>
      cases h with
      | reference r hr hrest => exact ih hrest
      | literal c hnot hrest => exact ih hrest

end Sources

section Replaced
variable {env : Environment} {piece : Segment} {pieces front back : List Segment}
  {out first second before after : List Rune} {c : Rune}

theorem Replaced.split (h : Replaced env (front ++ back) out) :
    ∃ first second, out = first ++ second ∧ Replaced env front first ∧
      Replaced env back second := by
  induction front generalizing out with
  | nil => exact ⟨[], out, rfl, .nil, h⟩
  | cons piece front ih =>
      cases h with
      | @cons _ _ part _ hpart hrest =>
          obtain ⟨first, second, rfl, hfirst, hsecond⟩ := ih hrest
          exact ⟨part ++ first, second, (List.append_assoc ..).symm, .cons hpart hfirst, hsecond⟩

/-- The piece that gives the character at a place of what comes out. -/
theorem Replaced.locate (h : Replaced env pieces (before ++ c :: after)) :
    ∃ front piece back given u v rest, pieces = front ++ piece :: back ∧
      Replaced env front given ∧ Gives env piece (u ++ c :: v) ∧ Replaced env back rest ∧
      before = given ++ u ∧ after = v ++ rest := by
  generalize hout : before ++ c :: after = out at h
  induction h generalizing before with
  | nil => exact absurd hout (List.append_ne_nil_of_right_ne_nil _ (List.cons_ne_nil _ _))
  | @cons piece pieces part out hpart hrest ih =>
      rcases List.append_eq_append_iff.mp hout with ⟨u, rfl, hcut⟩ | ⟨u, rfl, hcut⟩
      · cases u with
        | nil =>
            have hstart : [] ++ c :: after = out := hcut
            obtain ⟨front, found, back, given, u, v, rest, rfl, hfront, hgives, hback, hu, rfl⟩ :=
              ih hstart
            refine ⟨piece :: front, found, back, before ++ given, u, v, rest, rfl, ?_, hgives,
              hback, ?_, rfl⟩
            · rw [List.append_nil] at hpart
              exact .cons hpart hfront
            · rw [List.append_assoc, ← hu, List.append_nil]
        | cons d u =>
            cases hcut
            exact ⟨[], piece, pieces, [], before, u, out, rfl, .nil, hpart, hrest, rfl, rfl⟩
      · obtain ⟨front, found, back, given, v, w, rest, rfl, hfront, hgives, hback, rfl, rfl⟩ :=
          ih hcut.symm
        exact ⟨piece :: front, found, back, part ++ given, v, w, rest, rfl, .cons hpart hfront,
          hgives, hback, (List.append_assoc ..).symm, rfl⟩

theorem Gives.of_dollar (henv : Plain env) (h : Gives env piece (before ++ .char '$' :: after)) :
    (piece = .literal (.char '$') ∧ after = []) ∨
      ∃ r, piece = .reference r ∧ env.get? (String.ofList r.name) = none ∧
        r.fallback = some (before ++ .char '$' :: after) := by
  generalize hpart : before ++ .char '$' :: after = part at h
  cases h with
  | literal c =>
      cases before with
      | nil =>
          cases hpart
          exact .inl ⟨rfl, rfl⟩
      | cons d before => cases before <;> cases hpart
  | value r value hvalue =>
      have hmem : .char '$' ∈ runes value := hpart ▸ List.mem_append_right _ List.mem_cons_self
      exact absurd (mem_runes_iff.mp hmem) (henv _ _ hvalue _ (by decide))
  | fallback r text hunset hfallback => exact .inr ⟨r, rfl, hunset, hfallback⟩

/-- A closing brace comes from the text itself. -/
theorem Gives.of_brace (henv : Plain env) (hformed : ∀ r, piece = .reference r → r.WellFormed)
    (h : Gives env piece (before ++ .char '}' :: after)) :
    piece = .literal (.char '}') ∧ before = [] := by
  generalize hpart : before ++ .char '}' :: after = part at h
  cases h with
  | literal c =>
      cases before with
      | nil =>
          cases hpart
          exact ⟨rfl, rfl⟩
      | cons d before => cases before <;> cases hpart
  | value r value hvalue =>
      have hmem : .char '}' ∈ runes value := hpart ▸ List.mem_append_right _ List.mem_cons_self
      exact absurd (mem_runes_iff.mp hmem) (henv _ _ hvalue _ (by decide))
  | fallback r text hunset hfallback =>
      have hmem : .char '}' ∈ part := hpart ▸ List.mem_append_right _ List.mem_cons_self
      exact absurd hmem ((hformed r rfl).fallback _ hfallback)

/-- Pieces among which there is no reference give what they are. -/
theorem Replaced.eq_source (h : Replaced env pieces out) (hnone : ∀ r, .reference r ∉ pieces) :
    out = pieces.flatMap Segment.source := by
  induction h with
  | nil => rfl
  | cons hpart hrest ih =>
      have hrest' := ih fun r hr => hnone r (List.mem_cons_of_mem _ hr)
      cases hpart with
      | literal c => rw [List.flatMap_cons, ← hrest', Segment.source]
      | value r => exact absurd List.mem_cons_self (hnone r)
      | fallback r => exact absurd List.mem_cons_self (hnone r)

end Replaced

section Leftover
variable {env : Environment} {cs out : List Rune} {pieces : List Segment}

theorem Opens.of_gives {middle : List Segment} {opening : Segment} {start part : List Rune}
    (h : Opens env middle opening start) (hgives : Gives env opening part) :
    ∃ before, part = before ++ start := by
  cases h with
  | literal _ _ =>
      cases hgives
      exact ⟨[], rfl⟩
  | fallback _ before after hunset hfallback =>
      cases hgives with
      | value _ _ hvalue => cases hunset.symm.trans hvalue
      | fallback _ _ _ hother =>
          cases hfallback.symm.trans hother
          exact ⟨before, rfl⟩

theorem LeavesReference.holdsReference (h : LeavesReference env pieces)
    (hout : Replaced env pieces out) : HoldsReference out := by
  cases h with
  | @intro front back opening middle start inserted r hopens hmiddle hr hsource =>
      obtain ⟨given, _, rfl, _, htail⟩ := hout.split
      cases htail with
      | cons hopening hrest =>
          obtain ⟨before, rfl⟩ := hopens.of_gives hopening
          obtain ⟨_, _, rfl, hmiddle', hclose⟩ := hrest.split
          cases hmiddle'.unique hmiddle
          cases hclose with
          | @cons _ _ _ rest hbrace hback =>
              cases hbrace
              refine ⟨r, hr, given ++ before, rest, ?_⟩
              rw [hsource]
              simp only [List.append_assoc]

/-- Behind a part without closing braces the rest of the text up to the first one goes on. -/
theorem exists_of_brace_append {inside after start rest : List Rune} (hstart : .char '}' ∉ start)
    (h : inside ++ .char '}' :: after = start ++ rest) :
    ∃ inserted, inside = start ++ inserted ∧ rest = inserted ++ .char '}' :: after := by
  rcases List.append_eq_append_iff.mp h with ⟨more, hmore, hcut⟩ | ⟨inserted, hinside, hrest⟩
  · cases more with
    | nil => exact ⟨[], by rw [hmore, List.append_nil, List.append_nil], hcut.symm⟩
    | cons c more =>
        cases hcut
        exact absurd (hmore ▸ List.mem_append_right _ List.mem_cons_self) hstart
  · exact ⟨inserted, hinside, hrest⟩

theorem leavesReference_of_holdsReference (henv : Plain env) (hpieces : Pieces cs pieces)
    (hout : Replaced env pieces out) (h : HoldsReference out) : LeavesReference env pieces := by
  obtain ⟨r, hr, before, after, hsplit⟩ := h
  obtain ⟨inside, hsource, hinside⟩ := hr.source_eq
  have hsplit : out = before ++ .char '$' :: (inside ++ .char '}' :: after) := by
    rw [← hsplit, hsource]
    simp only [List.append_assoc, List.cons_append, List.nil_append]
  subst hsplit
  obtain ⟨front, opening, back, given, u, v, rest, rfl, _, hopening, hrest, _, hafter⟩ :=
    hout.locate
  have hformed : ∀ other, .reference other ∈ front ++ opening :: back → other.WellFormed :=
    fun _ hmem => hpieces.wellFormed_of_mem hmem
  have hdollar := hopening.of_dollar henv
  have hv : .char '}' ∉ v := by
    rcases hdollar with ⟨_, rfl⟩ | ⟨other, rfl, _, hfallback⟩
    · exact List.not_mem_nil
    · have hother : other.WellFormed := hformed other (List.mem_append_right _ List.mem_cons_self)
      have hbrace := hother.fallback _ hfallback
      exact fun hmem => hbrace (List.mem_append_right _ (List.mem_cons_of_mem _ hmem))
  obtain ⟨inserted, rfl, rfl⟩ := exists_of_brace_append hv hafter
  obtain ⟨middle, closing, back, given, u, _, _, rfl, hmiddle, hclosing, _, rfl, _⟩ :=
    hrest.locate
  obtain ⟨rfl, rfl⟩ := hclosing.of_brace henv fun other hother => hformed other (by simp [hother])
  have hsource : r.source = .char '$' :: v ++ given ++ [.char '}'] := by
    rw [hsource, List.append_nil]
    rfl
  refine .intro front back ?_ hmiddle hr hsource
  rcases hdollar with ⟨rfl, rfl⟩ | ⟨other, rfl, hunset, hfallback⟩
  · by_cases hnone : ∃ other, Segment.reference other ∈ middle
    · obtain ⟨other, hother⟩ := hnone
      exact .literal other hother
    -- without a reference in between, the text itself would read the same from the dollar sign on
    · refine absurd ⟨r, back.flatMap Segment.source, hr, ?_⟩ hpieces.not_startsReference
      rw [hsource, hmiddle.eq_source (not_exists.mp hnone)]
      simp [Segment.source]
  · exact .fallback other u v hunset hfallback

theorem holdsReference_iff (henv : Plain env) (hpieces : Pieces cs pieces)
    (hout : Replaced env pieces out) : HoldsReference out ↔ LeavesReference env pieces :=
  ⟨leavesReference_of_holdsReference henv hpieces hout, fun h => h.holdsReference hout⟩

/-- What pieces gave, in which a reference stands just where they leave one. -/
structure LeafReplaced (env : Environment) (text leaf : List Rune) (pieces : List Segment) :
    Prop where
  source : Pieces text pieces
  replaced : Replaced env pieces leaf
  leftover : HoldsReference leaf ↔ LeavesReference env pieces

/-- The texts of an interpolated value are those of the data one for one. A reference stands in one
of them exactly where the pieces of its source leave one, put together across a reference that has
been replaced; all references among the pieces have been. -/
theorem leftover_references_are_put_together {data result : Value} (henv : Plain env)
    (h : interpolate env data = .ok result) :
    List.Forall₂ (fun text leaf => ∃ pieces, LeafReplaced env text leaf pieces)
      (texts data) (texts result) := by
  rw [interpolate_eq_ok_iff] at h
  induction h with
  | text hpieces hout =>
      exact .cons ⟨_, hpieces, hout, holdsReference_iff henv hpieces hout⟩ .nil
  | torn hpieces hout =>
      rw [texts_ofRunes]
      exact .cons ⟨_, hpieces, hout, holdsReference_iff henv hpieces hout⟩ .nil
  | listNil => exact .nil
  | listCons _ _ ihx ihxs => exact List.rel_append ihx ihxs
  | mapNil => exact .nil
  | mapCons key _ _ ihx ihentries => exact List.rel_append ihx ihentries
  | @other data htext htorn hlist hmap =>
      cases data with
      | text s => exact absurd rfl (htext s)
      | torn t => exact absurd rfl (htorn t)
      | list xs => exact absurd rfl (hlist xs)
      | map entries => exact absurd rfl (hmap entries)
      | _ => exact .nil

end Leftover

/-- A bound variable without any of the characters that references are written with. -/
def plainBinding : Environment := [("B", "x")]

theorem plain_plainBinding : Plain plainBinding := by
  intro name value h
  rw [plainBinding, get?, List.find?_singleton] at h
  split at h
  next =>
    cases h
    simp
  next => cases h

/-- A reference within the fallback of another one ends that fallback with its brace. What is left
of it comes together with the brace behind, although its variable is bound. -/
theorem reference_in_fallback_is_left :
    Plain plainBinding ∧ missing plainBinding (.text "$\x7bA:-$\x7bB\x7d\x7d") = [] ∧
      interpolate plainBinding (.text "$\x7bA:-$\x7bB\x7d\x7d") = .ok (.text "$\x7bB\x7d") ∧
      HoldsReference (runes "$\x7bB\x7d") :=
  ⟨plain_plainBinding, rfl, rfl, ⟨['B'], none⟩, ⟨rfl, nofun⟩, [], [], rfl⟩

/-- In the first text a value completes the name of a reference; in the second one a brace before
a value and a dollar sign behind it come to nothing. -/
theorem value_completes_one_reference :
    Plain plainBinding ∧
      interpolate plainBinding
          (.list [.text "$\x7b$\x7bB\x7d\x7d", .text "\x7b$\x7bB\x7d\x7d$"]) =
        .ok (.list [.text "$\x7bx\x7d", .text "\x7bx\x7d$"]) ∧
      List.Forall₂ (fun text leaf => ∃ pieces, LeafReplaced plainBinding text leaf pieces)
        [runes "$\x7b$\x7bB\x7d\x7d", runes "\x7b$\x7bB\x7d\x7d$"]
        [runes "$\x7bx\x7d", runes "\x7bx\x7d$"] := by
  have hrun : interpolate plainBinding
      (.list [.text "$\x7b$\x7bB\x7d\x7d", .text "\x7b$\x7bB\x7d\x7d$"]) =
        .ok (.list [.text "$\x7bx\x7d", .text "\x7bx\x7d$"]) := rfl
  exact ⟨plain_plainBinding, hrun, leftover_references_are_put_together plain_plainBinding hrun⟩

end ClaimCheck.Environment
