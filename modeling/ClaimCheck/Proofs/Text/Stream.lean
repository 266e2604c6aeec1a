import ClaimCheck.Proofs.Failure
import ClaimCheck.Proofs.Text.Utf8
import ClaimCheck.Yaml.Cursor
/-!
Reading a file in portions loses nothing. At every step what a stream has given out and what it
still holds make up the text of the bytes, so the portions of a text are the whole of it, and those
that break off are the beginning of no text.
-/
namespace ClaimCheck.Text

namespace Decoder

theorem feed_cons_eq_ok_iff {d : Decoder} {b : UInt8} {bs : List UInt8}
    {fed : List Char × Decoder} :
    d.feed (b :: bs) = .ok fed ↔ ∃ stepped, d.step b = .ok stepped ∧
      ∃ more, stepped.2.feed bs = .ok more ∧ fed = (stepped.1.toList ++ more.1, more.2) := by
  simp only [feed, bind_eq_ok_iff]
  refine exists_congr fun stepped => and_congr_right fun _ => exists_congr fun more =>
    and_congr_right fun _ => ?_
  constructor
  · intro h; exact (Except.ok.inj h).symm
  · rintro rfl; rfl

theorem feed_length {d : Decoder} {bs : List UInt8} {fed : List Char × Decoder}
    (h : d.feed bs = .ok fed) : fed.1.length ≤ bs.length := by
  induction bs generalizing d fed with
  | nil => cases h; exact Nat.le_refl 0
  | cons b bs ih =>
      obtain ⟨⟨c, next⟩, _, more, hmore, rfl⟩ := feed_cons_eq_ok_iff.mp h
      have hlength := ih hmore
      cases c with
      | none => exact Nat.le_succ_of_le hlength
      | some c => exact Nat.succ_le_succ hlength

/-- Where a character begins matters only to what is told of a fault. -/
theorem step_moved {p : Nat} {pending : Pending} {b : UInt8} {c : Option Char} {d : Decoder}
    (h : Decoder.step ⟨p, pending⟩ b = .ok (c, d)) (q : Nat) :
    ∃ q', Decoder.step ⟨q, pending⟩ b = .ok (c, ⟨q', d.pending⟩) := by
  unfold step at h ⊢
  grind

end Decoder

theorem decodeFrom_moved {p : Nat} {pending : Pending} {bs : List UInt8} {cs : List Char}
    (h : decodeFrom p pending bs = .ok cs) (q : Nat) : decodeFrom q pending bs = .ok cs := by
  induction bs generalizing p q pending cs with
  | nil =>
      cases pending with
      | none => exact h
      | some => cases h
  | cons b bs ih =>
      rw [decodeFrom_cons] at h ⊢
      obtain ⟨⟨c, d⟩, hstep, h⟩ := bind_eq_ok_iff.mp h
      obtain ⟨ds, hds, rfl⟩ := map_eq_ok_iff.mp h
      obtain ⟨q', hmoved⟩ := Decoder.step_moved hstep q
      rw [hmoved]
      exact map_eq_ok_iff.mpr ⟨ds, ih hds q', rfl⟩

/-- The bytes that are decoded first give the first characters. -/
theorem decodeFrom_append_eq_ok_iff {p : Nat} {pending : Pending} {xs ys : List UInt8}
    {cs : List Char} :
    decodeFrom p pending (xs ++ ys) = .ok cs ↔ ∃ fed, Decoder.feed ⟨p, pending⟩ xs = .ok fed ∧
      ∃ ds, decodeFrom 0 fed.2.pending ys = .ok ds ∧ cs = fed.1 ++ ds := by
  induction xs generalizing p pending cs with
  | nil =>
      constructor
      · intro h
        exact ⟨_, rfl, cs, decodeFrom_moved h 0, rfl⟩
      · rintro ⟨fed, hfed, ds, hds, rfl⟩
        cases hfed
        exact decodeFrom_moved hds p
  | cons b bs ih =>
      rw [List.cons_append, decodeFrom_cons]
      constructor
      · intro h
        obtain ⟨stepped, hstep, h⟩ := bind_eq_ok_iff.mp h
        obtain ⟨es, hes, rfl⟩ := map_eq_ok_iff.mp h
        obtain ⟨fed, hfed, ds, hds, rfl⟩ := ih.mp hes
        refine ⟨_, Decoder.feed_cons_eq_ok_iff.mpr ⟨stepped, hstep, fed, hfed, rfl⟩, ds, hds, ?_⟩
        rw [List.append_assoc]
      · rintro ⟨_, hfed, ds, hds, rfl⟩
        obtain ⟨stepped, hstep, more, hmore, rfl⟩ := Decoder.feed_cons_eq_ok_iff.mp hfed
        refine bind_eq_ok_iff.mpr ⟨stepped, hstep, map_eq_ok_iff.mpr ⟨more.1 ++ ds, ?_, ?_⟩⟩
        · exact ih.mpr ⟨more, hmore, ds, hds, rfl⟩
        · rw [List.append_assoc]

theorem unifyLines_length (cs : List Char) : (unifyLines cs).length ≤ cs.length := by
  fun_induction unifyLines cs with
  | case1 cs ih => simp only [List.length_cons]; omega
  | case2 cs _ ih => simp only [List.length_cons]; omega
  | case3 c cs _ _ ih => simp only [List.length_cons]; omega
  | case4 => exact Nat.le_refl 0

theorem unifyLines_return {cs : List Char} (h : cs.head? ≠ some '\n') :
    unifyLines ('\r' :: cs) = '\n' :: unifyLines cs := by
  rw [unifyLines]
  rintro rest rfl
  exact h rfl

theorem unifyLines_other {c : Char} (h : c ≠ '\r') (cs : List Char) :
    unifyLines (c :: cs) = c :: unifyLines cs :=
  unifyLines.eq_3 c cs (fun _ hc _ => h hc) h

/-- Two parts are read one after the other unless a line end is cut in two. -/
theorem unifyLines_append {xs ys : List Char}
    (h : xs.getLast? ≠ some '\r' ∨ ys.head? ≠ some '\n') :
    unifyLines (xs ++ ys) = unifyLines xs ++ unifyLines ys := by
  fun_induction unifyLines xs with
  | case1 cs ih =>
      rw [List.cons_append, List.cons_append, unifyLines, ih, List.cons_append]
      refine h.imp_left fun h hlast => h ?_
      rw [List.getLast?_cons, List.getLast?_cons, hlast]
      rfl
  | case2 cs hnext ih =>
      cases cs with
      | nil =>
          have hys : ys.head? ≠ some '\n' := h.resolve_left fun h => h rfl
          exact unifyLines_return hys
      | cons c cs =>
          have hc : c ≠ '\n' := fun hc => hnext cs (hc ▸ rfl)
          have hhead : (c :: cs ++ ys).head? ≠ some '\n' := fun hc' => hc (Option.some.inj hc')
          rw [List.cons_append, unifyLines_return hhead, ih, List.cons_append]
          exact h
  | case3 c cs _ hc ih =>
      rw [List.cons_append, unifyLines_other hc, ih, List.cons_append]
      refine h.imp_left fun h hlast => h ?_
      rw [List.getLast?_cons, hlast]
      rfl
  | case4 => rfl

theorem unifyPart_cases (held : Bool) (part : List Char) :
    part = [] ∧ unifyPart held part = ([], held) ∨
      (∃ front, heldBack held ++ part = front ++ ['\r'] ∧
        unifyPart held part = (unifyLines front, true)) ∨
      (heldBack held ++ part).getLast? ≠ some '\r' ∧
        unifyPart held part = (unifyLines (heldBack held ++ part), false) := by
  unfold unifyPart
  simp only
  split
  next hpart => exact .inl ⟨List.isEmpty_iff.mp hpart, rfl⟩
  next =>
    split
    next hlast =>
      have hcs := List.dropLast_append_getLast? _ hlast
      exact .inr (.inl ⟨_, hcs.symm, rfl⟩)
    next hlast => exact .inr (.inr ⟨hlast, rfl⟩)

/-- A part is read as it would be in one piece with what comes before and after it. -/
theorem unifyPart_append (held : Bool) (part later : List Char) :
    unifyLines (heldBack held ++ (part ++ later)) =
      (unifyPart held part).1 ++ unifyLines (heldBack (unifyPart held part).2 ++ later) := by
  rw [← List.append_assoc]
  rcases unifyPart_cases held part with ⟨rfl, hpart⟩ | ⟨front, hfront, hpart⟩ | ⟨hlast, hpart⟩
  · rw [hpart, List.append_nil]
    rfl
  · rw [hpart, hfront, List.append_assoc, unifyLines_append (.inr (by simp))]
    rfl
  · rw [hpart, unifyLines_append (.inl hlast)]
    rfl

theorem unifyPart_length (held : Bool) (part : List Char) :
    (unifyPart held part).1.length + (heldBack (unifyPart held part).2).length ≤
      (heldBack held).length + part.length := by
  rcases unifyPart_cases held part with ⟨rfl, hpart⟩ | ⟨front, hfront, hpart⟩ | ⟨_, hpart⟩
  · rw [hpart]
    simp
  · have hlength := congrArg List.length hfront
    rw [List.length_append, List.length_append] at hlength
    rw [hpart, hlength]
    exact Nat.add_le_add_right (unifyLines_length front) 1
  · have hlength := unifyLines_length (heldBack held ++ part)
    rw [List.length_append] at hlength
    rw [hpart]
    exact hlength

namespace Stream

/-- The characters that are still to come, those that are ready among them. -/
def Holds (s : Stream) (cs : List Char) : Prop :=
  ∃ ds, decodeFrom 0 s.pending s.bytes = .ok ds ∧ cs = s.ready ++ unifyLines (heldBack s.held ++ ds)

/-- A bound on how many characters are still to come. -/
def size (s : Stream) : Nat :=
  s.ready.length + s.bytes.length + (heldBack s.held).length

/-- Some characters have been given out, and the stream that is left holds the others. -/
structure Gives (s : Stream) (given : List Char) (next : Stream) : Prop where
  holds : ∀ cs, s.Holds cs ↔ ∃ rest, next.Holds rest ∧ cs = given ++ rest
  size : given.length + next.size ≤ s.size

theorem Gives.trans {s next last : Stream} {given more : List Char} (h : Gives s given next)
    (h' : Gives next more last) : Gives s (given ++ more) last := by
  constructor
  · intro cs
    rw [h.holds]
    constructor
    · rintro ⟨rest, hrest, rfl⟩
      obtain ⟨final, hfinal, rfl⟩ := (h'.holds rest).mp hrest
      exact ⟨final, hfinal, (List.append_assoc _ _ _).symm⟩
    · rintro ⟨final, hfinal, rfl⟩
      exact ⟨more ++ final, (h'.holds _).mpr ⟨final, hfinal, rfl⟩, List.append_assoc _ _ _⟩
  · have hsize := h.size
    have hsize' := h'.size
    rw [List.length_append]
    omega

/-- The first characters of those that are ready. -/
theorem gives_take (s : Stream) (wanted : Nat) :
    Gives s (s.ready.take wanted) { s with ready := s.ready.drop wanted } := by
  constructor
  · intro cs
    constructor
    · rintro ⟨ds, hds, rfl⟩
      refine ⟨_, ⟨ds, hds, rfl⟩, ?_⟩
      rw [← List.append_assoc, List.take_append_drop]
    · rintro ⟨_, ⟨ds, hds, rfl⟩, rfl⟩
      refine ⟨ds, hds, ?_⟩
      rw [← List.append_assoc, List.take_append_drop]
  · have hlength := congrArg List.length (List.take_append_drop wanted s.ready)
    rw [List.length_append] at hlength
    simp only [size]
    omega

/-- What a stream holds, by the chunk that it decodes next. -/
theorem holds_iff_of_chunk (s : Stream) (n : Nat) (cs : List Char) :
    s.Holds cs ↔ ∃ fed, Decoder.feed ⟨0, s.pending⟩ (s.bytes.take n) = .ok fed ∧
      ∃ ds, decodeFrom 0 fed.2.pending (s.bytes.drop n) = .ok ds ∧
        cs = s.ready ++ unifyLines (heldBack s.held ++ (fed.1 ++ ds)) := by
  have hbytes : decodeFrom 0 s.pending s.bytes =
      decodeFrom 0 s.pending (s.bytes.take n ++ s.bytes.drop n) := by
    rw [List.take_append_drop]
  simp only [Holds, hbytes, decodeFrom_append_eq_ok_iff]
  constructor
  · rintro ⟨_, ⟨fed, hfed, ds, hds, rfl⟩, rfl⟩
    exact ⟨fed, hfed, ds, hds, rfl⟩
  · rintro ⟨fed, hfed, ds, hds, rfl⟩
    exact ⟨_, ⟨fed, hfed, ds, hds, rfl⟩, rfl⟩

theorem refill_eq_ok {s next : Stream} {wanted : Nat} (h : s.refill wanted = .ok next) :
    ∃ fed, Decoder.feed ⟨0, s.pending⟩ (s.bytes.take (s.chunkSize wanted)) = .ok fed ∧
      next = ⟨s.bytes.drop (s.chunkSize wanted), fed.2.pending, (unifyPart s.held fed.1).2,
        (unifyPart s.held fed.1).1, (s.bytes.take (s.chunkSize wanted)).length,
        (unifyPart s.held fed.1).1.length⟩ := by
  obtain ⟨fed, hfed, h⟩ := bind_eq_ok_iff.mp h
  exact ⟨fed, hfed, (Except.ok.inj h).symm⟩

/-- One more chunk, once all that was ready has been given out. -/
theorem gives_refill {s next : Stream} {wanted : Nat} (h : s.refill wanted = .ok next) :
    Gives s s.ready next := by
  obtain ⟨fed, hfed, rfl⟩ := refill_eq_ok h
  constructor
  · intro cs
    rw [holds_iff_of_chunk s (s.chunkSize wanted)]
    constructor
    · rintro ⟨_, hfed', ds, hds, rfl⟩
      cases hfed.symm.trans hfed'
      exact ⟨_, ⟨ds, hds, rfl⟩, by rw [unifyPart_append]⟩
    · rintro ⟨_, ⟨ds, hds, rfl⟩, rfl⟩
      exact ⟨fed, hfed, ds, hds, by rw [unifyPart_append]⟩
  · have hfed := Decoder.feed_length hfed
    have hpart := unifyPart_length s.held fed.1
    rw [List.length_take] at hfed
    simp only [size, List.length_drop]
    omega

theorem not_holds_of_refill {s : Stream} {wanted : Nat} {e : Utf8Error}
    (h : s.refill wanted = .error e) (cs : List Char) : ¬ s.Holds cs := by
  rw [holds_iff_of_chunk s (s.chunkSize wanted)]
  rintro ⟨fed, hfed, _⟩
  rcases bind_eq_error_iff.mp h with hfault | ⟨_, _, hnext⟩
  · cases hfed.symm.trans hfault
  · cases hnext

theorem holds_ofBytes_nil (cs : List Char) : (ofBytes []).Holds cs ↔ cs = [] := by
  constructor
  · rintro ⟨ds, hds, rfl⟩
    cases hds
    rfl
  · rintro rfl
    exact ⟨[], rfl, rfl⟩

/-- At the end nothing may be begun, and what is held back comes out. -/
theorem gives_close {s : Stream} {tail : List Char} (hbytes : s.bytes = [])
    (h : s.close = .ok tail) : Gives s (s.ready ++ tail) (ofBytes []) := by
  obtain ⟨done, hfinish, h⟩ := bind_eq_ok_iff.mp h
  obtain rfl : unifyLines (heldBack s.held) = tail := Except.ok.inj h
  have hdecode : decodeFrom 0 s.pending s.bytes = .ok [] := by
    rw [hbytes]
    exact bind_eq_ok_iff.mpr ⟨([], ⟨0, s.pending⟩), rfl, bind_eq_ok_iff.mpr ⟨done, hfinish, rfl⟩⟩
  constructor
  · intro cs
    simp only [holds_ofBytes_nil]
    constructor
    · rintro ⟨ds, hds, rfl⟩
      cases hdecode.symm.trans hds
      exact ⟨[], rfl, by rw [List.append_nil, List.append_nil]⟩
    · rintro ⟨_, rfl, rfl⟩
      exact ⟨[], hdecode, by rw [List.append_nil, List.append_nil]⟩
  · have hlength := unifyLines_length (heldBack s.held)
    have hnothing : (ofBytes []).size = 0 := rfl
    rw [List.length_append, hnothing, size]
    omega

theorem not_holds_of_close {s : Stream} {e : Utf8Error} (hbytes : s.bytes = [])
    (h : s.close = .error e) (cs : List Char) : ¬ s.Holds cs := by
  rintro ⟨ds, hds, _⟩
  rw [hbytes] at hds
  obtain ⟨_, hfed, hds⟩ := bind_eq_ok_iff.mp hds
  cases hfed
  obtain ⟨_, hfinish, _⟩ := bind_eq_ok_iff.mp hds
  rcases bind_eq_error_iff.mp h with hfault | ⟨_, _, hnext⟩
  · cases hfinish.symm.trans hfault
  · cases hnext

theorem chunkSize_pos (s : Stream) (wanted : Nat) : 0 < s.chunkSize wanted := by
  have hleast : 0 < leastChunk := by decide
  unfold chunkSize
  split
  · exact Nat.lt_of_lt_of_le hleast (Nat.le_max_left _ _)
  · exact Nat.lt_of_lt_of_le hleast (Nat.le_max_left _ _)

/-- The first of the characters to come, fewer than were wanted only at the end; or a fault, where
the bytes are no text. -/
def Reads (s : Stream) (wanted : Nat) : Except Utf8Error (List Char × Stream) → Prop
  | .ok (given, next) => Gives s given next ∧ (given.length < wanted → next = ofBytes [])
  | .error _ => ∀ cs, ¬ s.Holds cs

theorem Gives.reads {s next : Stream} {given : List Char} (h : Gives s given next) {wanted : Nat}
    {r : Except Utf8Error (List Char × Stream)} (hread : Reads next (wanted - given.length) r) :
    Reads s wanted (r.map fun more => (given ++ more.1, more.2)) := by
  cases r with
  | error e =>
      intro cs hcs
      obtain ⟨rest, hrest, _⟩ := (h.holds cs).mp hcs
      exact hread rest hrest
  | ok more =>
      refine ⟨h.trans hread.1, fun hshort => hread.2 ?_⟩
      rw [List.length_append] at hshort
      omega

theorem read_reads (bound : Nat) {s : Stream} (hbound : s.bytes.length < bound) (wanted : Nat) :
    Reads s wanted (s.read bound wanted) := by
  induction bound generalizing s wanted with
  | zero => exact absurd hbound (Nat.not_lt_zero _)
  | succ bound ih =>
      rw [read]
      by_cases hready : wanted ≤ s.ready.length
      · rw [if_pos hready]
        refine ⟨gives_take s wanted, fun hshort => ?_⟩
        rw [List.length_take, Nat.min_eq_left hready] at hshort
        exact absurd hshort (Nat.lt_irrefl _)
      rw [if_neg hready]
      by_cases hbytes : s.bytes.isEmpty = true
      · rw [if_pos hbytes]
        have hbytes := List.isEmpty_iff.mp hbytes
        cases hclose : s.close with
        | ok tail => exact ⟨gives_close hbytes hclose, fun _ => rfl⟩
        | error e => exact not_holds_of_close hbytes hclose
      rw [if_neg hbytes]
      cases hrefill : s.refill (wanted - s.ready.length) with
      | error e => exact not_holds_of_refill hrefill
      | ok next =>
          have hnext : next.bytes.length < bound := by
            obtain ⟨fed, _, rfl⟩ := refill_eq_ok hrefill
            have hpos := s.chunkSize_pos (wanted - s.ready.length)
            have hsome := List.length_pos_iff.mpr (mt List.isEmpty_iff.mpr hbytes)
            rw [List.length_drop]
            omega
          have hreads := (gives_refill hrefill).reads (ih hnext (wanted - s.ready.length))
          simp only [bind, Except.bind]
          cases hmore : next.read bound (wanted - s.ready.length) with
          | error e => rw [hmore] at hreads; exact hreads
          | ok more => rw [hmore] at hreads; exact hreads

/-- The portions are what a stream holds, and an error says that it holds no text. -/
theorem portions_holds (bound : Nat) {s : Stream} (hbound : s.size < bound) :
    ((s.portions bound).2 = none → s.Holds (s.portions bound).1.flatten) ∧
      ((s.portions bound).2 ≠ none → ∀ cs, ¬ s.Holds cs) := by
  induction bound generalizing s with
  | zero => exact absurd hbound (Nat.not_lt_zero _)
  | succ bound ih =>
      have hreads := read_reads (s.bytes.length + 1) (Nat.lt_succ_self _) portionSize
      rw [portions]
      cases hread : s.read (s.bytes.length + 1) portionSize with
      | error e =>
          rw [hread] at hreads
          exact ⟨nofun, fun _ => hreads⟩
      | ok r =>
          obtain ⟨given, next⟩ := r
          rw [hread] at hreads
          obtain ⟨hgives, hlast⟩ := hreads
          cases given with
          | nil =>
              obtain rfl := hlast (by decide)
              exact ⟨fun _ => (hgives.holds []).mpr ⟨[], (holds_ofBytes_nil []).mpr rfl, rfl⟩,
                fun h => absurd rfl h⟩
          | cons c cs =>
              have hsize := hgives.size
              rw [List.length_cons] at hsize
              obtain ⟨hok, herror⟩ := ih (s := next) (by omega)
              refine ⟨fun h => (hgives.holds _).mpr ⟨_, hok h, rfl⟩, fun h all hall => ?_⟩
              obtain ⟨rest, hrest, _⟩ := (hgives.holds all).mp hall
              exact herror h rest hrest

end Stream

theorem holds_ofBytes_iff (bytes : List UInt8) (cs : List Char) :
    (Stream.ofBytes bytes).Holds cs ↔
      ∃ text : String, encodeUtf8 text = bytes ∧ cs = unifyLines text.toList := by
  simp only [← decodeUtf8_eq_ok_iff, decodeUtf8, map_eq_ok_iff]
  constructor
  · rintro ⟨ds, hds, rfl⟩
    exact ⟨_, ⟨ds, hds, rfl⟩, by rw [String.toList_ofList]; rfl⟩
  · rintro ⟨_, ⟨ds, hds, rfl⟩, rfl⟩
    exact ⟨ds, hds, by rw [String.toList_ofList]; rfl⟩

/-- The portions of a text make it up, its line ends read as line feeds, and portions that break
off are those of no text. -/
theorem portionsOf_cases (bytes : List UInt8) :
    (∃ text, encodeUtf8 text = bytes ∧ (portionsOf bytes).2 = none ∧
        (portionsOf bytes).1.flatten = unifyLines text.toList) ∨
      ((portionsOf bytes).2 ≠ none ∧ ∀ text, encodeUtf8 text ≠ bytes) := by
  have hsize : (Stream.ofBytes bytes).size < bytes.length + 2 := by
    simp only [Stream.size, Stream.ofBytes, heldBack, List.length_nil]
    omega
  obtain ⟨hok, herror⟩ := Stream.portions_holds (bytes.length + 2) hsize
  by_cases hnone : (portionsOf bytes).2 = none
  · obtain ⟨text, htext, hflatten⟩ := (holds_ofBytes_iff bytes _).mp (hok hnone)
    exact .inl ⟨text, htext, hnone, hflatten⟩
  · refine .inr ⟨hnone, fun text htext => ?_⟩
    exact herror hnone _ ((holds_ofBytes_iff bytes _).mpr ⟨text, htext, rfl⟩)

end ClaimCheck.Text

namespace ClaimCheck.Yaml.Source

theorem ofPortions_cases (portions : List (List Char)) (gap : Option Gap) :
    (portions.flatten.all isAllowed = true ∧ ofPortions portions gap = ⟨portions.flatten, gap⟩) ∨
      portions.flatten.all isAllowed = false ∧
        (ofPortions portions gap).gap = some .notAllowed := by
  induction portions with
  | nil => exact .inl ⟨rfl, rfl⟩
  | cons portion rest ih =>
      rw [ofPortions, List.flatten_cons, List.all_append]
      cases portion.all isAllowed with
      | false => exact .inr ⟨rfl, rfl⟩
      | true =>
          rw [Bool.true_and]
          refine ih.imp (fun h => ⟨h.1, ?_⟩) fun h => ⟨h.1, h.2⟩
          rw [h.2]
          rfl

theorem ofDelivery_none (portions : List (List Char)) :
    ∃ parts : List (List Char), parts.flatten = portions.flatten ∧
      ofDelivery portions none = ofPortions parts none := by
  rcases portions with _ | ⟨first, _ | ⟨second, rest⟩⟩
  · exact ⟨[], rfl, rfl⟩
  · exact ⟨[first], rfl, rfl⟩
  · refine ⟨(first ++ second) :: rest, ?_, rfl⟩
    rw [List.flatten_cons, List.flatten_cons, List.flatten_cons, List.append_assoc]

/-- The source in the bytes of a text is the whole text, or one with a character that no document may
hold. -/
theorem ofBytes_encode (text : String) :
    ((Text.unifyLines text.toList).all isAllowed = true ∧
        ofBytes (Text.encodeUtf8 text) = ⟨Text.unifyLines text.toList, none⟩) ∨
      (Text.unifyLines text.toList).all isAllowed = false ∧
        (ofBytes (Text.encodeUtf8 text)).gap = some .notAllowed := by
  rcases Text.portionsOf_cases (Text.encodeUtf8 text) with ⟨other, hother, hnone, hflatten⟩ | ⟨_, h⟩
  · have htext : other = text := Except.ok.inj
      (((Text.decodeUtf8_eq_ok_iff _ other).mpr hother).symm.trans
        ((Text.decodeUtf8_eq_ok_iff _ text).mpr rfl))
    subst htext
    obtain ⟨parts, hparts, hdelivery⟩ := ofDelivery_none (Text.portionsOf (Text.encodeUtf8 other)).1
    have hsource : ofBytes (Text.encodeUtf8 other) = ofPortions parts none := by
      rw [← hdelivery]
      simp only [ofBytes, hnone]
      rfl
    rw [hsource, ← hflatten, ← hparts]
    exact ofPortions_cases parts none
  · exact absurd rfl (h text)

/-- Only bytes that are no text break off where they cannot be decoded. -/
theorem not_utf8_of_gap {bytes : List UInt8} {e : Text.Utf8Error}
    (h : (ofBytes bytes).gap = some (.undecodable e)) (text : String) :
    Text.encodeUtf8 text ≠ bytes := by
  rintro rfl
  rcases ofBytes_encode text with ⟨_, hsource⟩ | ⟨_, hgap⟩
  · rw [hsource] at h
    cases h
  · cases hgap.symm.trans h

end ClaimCheck.Yaml.Source
