import ClaimCheck.Text.Utf8
import Mathlib.Data.List.Basic
import Mathlib.Tactic.SplitIfs
/-!
Decoding against encoding. The bytes that decode to a text are the bytes of the text and no
others: an overlong form, a half of a surrogate pair, a number beyond the last plane and a
character that is cut off encode nothing, and nothing that encodes a text is refused.
-/
namespace ClaimCheck.Text

/-- The bytes of a text. -/
def encodeUtf8 (s : String) : List UInt8 :=
  s.toList.flatMap String.utf8EncodeChar

/-- A number with the bits of the later bytes of a character. -/
def continued (value : Nat) (bytes : List UInt8) : Nat :=
  bytes.foldl withBits value

theorem continued_cons (value : Nat) (b : UInt8) (bs : List UInt8) :
    continued value (b :: bs) = continued (withBits value b) bs := by
  rw [continued, List.foldl_cons, continued]

theorem continued_singleton (value : Nat) (b : UInt8) : continued value [b] = withBits value b := by
  rw [continued, List.foldl_cons, List.foldl_nil]

/-- Bytes that may follow a lead byte: the first one in a range that the lead byte sets, the
others in the full range. -/
def Follows (low high : Nat) : List UInt8 → Prop
  | [] => True
  | b :: bs => low ≤ b.toNat ∧ b.toNat ≤ high ∧ ∀ c ∈ bs, 0x80 ≤ c.toNat ∧ c.toNat ≤ 0xbf

theorem follows_cons {low high : Nat} {b : UInt8} {bs : List UInt8} :
    Follows low high (b :: bs) ↔ (low ≤ b.toNat ∧ b.toNat ≤ high) ∧ Follows 0x80 0xbf bs := by
  cases bs with
  | nil => simp [Follows]
  | cons c cs => simp [Follows, and_assoc]

/-- One byte, and then what the decoder makes of the others. -/
theorem decodeFrom_cons (position : Nat) (pending : Pending) (b : UInt8) (bs : List UInt8) :
    decodeFrom position pending (b :: bs) =
      (Decoder.step ⟨position, pending⟩ b).bind fun next =>
        (decodeFrom next.2.position next.2.pending bs).map (next.1.toList ++ ·) := by
  simp only [decodeFrom, Decoder.feed]
  cases Decoder.step ⟨position, pending⟩ b with
  | error e => rfl
  | ok next =>
      obtain ⟨c, d⟩ := next
      simp only [Except.bind, bind, pure, Except.pure]
      cases d.feed bs with
      | error e => rfl
      | ok fed =>
          obtain ⟨cs, final⟩ := fed
          cases hfinish : final.finish with
          | error e => simp only [hfinish, Except.map]
          | ok _ => simp only [hfinish, Except.map]

/-- A byte that a character asks for. -/
theorem decodeFrom_within {low high : Nat} {b : UInt8} (hb : low ≤ b.toNat ∧ b.toNat ≤ high)
    (position : Nat) (lead : UInt8) (value taken remaining : Nat) (bs : List UInt8) :
    decodeFrom position (.some lead value taken low high remaining) (b :: bs) =
      if remaining ≤ 1 then
        (decodeFrom (position + taken + 1) .none bs).map (Char.ofNat (withBits value b) :: ·)
      else
        decodeFrom position
          (.some lead (withBits value b) (taken + 1) 0x80 0xbf (remaining - 1)) bs := by
  rw [decodeFrom_cons]
  simp only [Decoder.step, hb, and_self, if_true]
  split
  · rfl
  · simp only [Except.bind, Option.toList_none, List.nil_append]
    exact congrFun Except.map_id _

/-- A byte that a character begins with. -/
theorem decodeFrom_lead {lead : LeadByte} {b : UInt8} (hlead : LeadByte.of? b.toNat = some lead)
    (position : Nat) (bs : List UInt8) :
    decodeFrom position .none (b :: bs) =
      if lead.following = 0 then
        (decodeFrom (position + 1) .none bs).map (Char.ofNat lead.payload :: ·)
      else
        decodeFrom position (.some b lead.payload 1 lead.low lead.high lead.following) bs := by
  rw [decodeFrom_cons]
  simp only [Decoder.step, hlead]
  split
  · rfl
  · simp only [Except.bind, Option.toList_none, List.nil_append]
    exact congrFun Except.map_id _

theorem decodeFrom_pending {low high : Nat} (bytes : List UInt8) (hne : bytes ≠ [])
    (hf : Follows low high bytes) (position : Nat) (lead : UInt8) (value taken : Nat)
    (rest : List UInt8) :
    ∃ after, decodeFrom position (.some lead value taken low high bytes.length) (bytes ++ rest) =
      (decodeFrom after .none rest).map (Char.ofNat (continued value bytes) :: ·) := by
  induction bytes generalizing low high value taken with
  | nil => exact absurd rfl hne
  | cons b bs ih =>
      obtain ⟨hb, hbs⟩ := follows_cons.mp hf
      rw [List.cons_append, decodeFrom_within hb]
      cases bs with
      | nil =>
          refine ⟨position + taken + 1, ?_⟩
          simp only [List.length_singleton, Nat.le_refl, if_true, List.nil_append,
            continued_singleton]
      | cons c cs =>
          have hmore : ¬ (b :: c :: cs).length ≤ 1 := by simp
          simp only [hmore, if_false]
          rw [continued_cons]
          exact ih (List.cons_ne_nil c cs) hbs (withBits value b) (taken + 1)

theorem decodeFrom_pending_ok {position : Nat} {lead : UInt8}
    {value taken low high remaining : Nat} {bs : List UInt8} {cs : List Char} (hpos : 0 < remaining)
    (h : decodeFrom position (.some lead value taken low high remaining) bs = .ok cs) :
    ∃ bytes rest after ds, bs = bytes ++ rest ∧ bytes.length = remaining ∧ Follows low high bytes ∧
      decodeFrom after .none rest = .ok ds ∧ cs = Char.ofNat (continued value bytes) :: ds := by
  induction bs generalizing value taken low high remaining with
  | nil => cases h
  | cons b bs ih =>
      by_cases hb : low ≤ b.toNat ∧ b.toNat ≤ high
      · rw [decodeFrom_within hb] at h
        split at h
        next hlast =>
          cases hd : decodeFrom (position + taken + 1) .none bs with
          | error e => rw [hd] at h; cases h
          | ok ds =>
              rw [hd] at h
              refine ⟨[b], bs, position + taken + 1, ds, rfl, ?_,
                follows_cons.mpr ⟨hb, trivial⟩, hd, ?_⟩
              · simp only [List.length_singleton]; omega
              · rw [continued_singleton]
                exact (Except.ok.inj h).symm
        next hmore =>
          obtain ⟨bytes, rest, after, ds, hbs, hlen, hf, hd, hcs⟩ := ih (by omega) h
          rw [← continued_cons] at hcs
          refine ⟨b :: bytes, rest, after, ds, ?_, ?_, follows_cons.mpr ⟨hb, hf⟩, hd, hcs⟩
          · rw [hbs, List.cons_append]
          · rw [List.length_cons, hlen]; omega
      · simp only [decodeFrom_cons, Decoder.step, hb, if_false] at h
        cases h

theorem LeadByte.of?_cases {n : Nat} {lead : LeadByte} (h : LeadByte.of? n = some lead) :
    (n < 0x80 ∧ lead = ⟨n, 0x80, 0xbf, 0⟩) ∨
      (0xc2 ≤ n ∧ n < 0xe0 ∧ lead = ⟨n - 0xc0, 0x80, 0xbf, 1⟩) ∨
      (0xe0 ≤ n ∧ n < 0xf0 ∧
        lead = ⟨n - 0xe0, if n = 0xe0 then 0xa0 else 0x80, if n = 0xed then 0x9f else 0xbf, 2⟩) ∨
      (0xf0 ≤ n ∧ n ≤ 0xf4 ∧
        lead =
          ⟨n - 0xf0, if n = 0xf0 then 0x90 else 0x80, if n = 0xf4 then 0x8f else 0xbf, 3⟩) := by
  unfold LeadByte.of? at h
  grind

theorem LeadByte.of?_one {n : Nat} (h : n < 0x80) : LeadByte.of? n = some ⟨n, 0x80, 0xbf, 0⟩ :=
  if_pos h

theorem LeadByte.of?_two {n : Nat} (h : 0xc2 ≤ n) (h' : n < 0xe0) :
    LeadByte.of? n = some ⟨n - 0xc0, 0x80, 0xbf, 1⟩ := by
  unfold LeadByte.of?
  grind

theorem LeadByte.of?_three {n : Nat} (h : 0xe0 ≤ n) (h' : n < 0xf0) :
    LeadByte.of? n = some ⟨n - 0xe0, if n = 0xe0 then 0xa0 else 0x80,
      if n = 0xed then 0x9f else 0xbf, 2⟩ := by
  unfold LeadByte.of?
  grind

theorem LeadByte.of?_four {n : Nat} (h : 0xf0 ≤ n) (h' : n ≤ 0xf4) :
    LeadByte.of? n = some ⟨n - 0xf0, if n = 0xf0 then 0x90 else 0x80,
      if n = 0xf4 then 0x8f else 0xbf, 3⟩ := by
  unfold LeadByte.of?
  grind

/-- What a whole character looks like: its lead byte, and the bytes that the lead byte asks for. -/
structure Spells (lead : LeadByte) (b : UInt8) (bytes : List UInt8) : Prop where
  lead_byte : LeadByte.of? b.toNat = some lead
  length : bytes.length = lead.following
  follows : Follows lead.low lead.high bytes

theorem ofNat_eq_of_toNat {b : UInt8} {n : Nat} (h : n = b.toNat) : UInt8.ofNat n = b := by
  rw [h, UInt8.ofNat_toNat]

theorem toNat_charOfNat {n : Nat} (h : n < 0xd800 ∨ 0xdfff < n ∧ n < 0x110000) :
    (Char.ofNat n).val.toNat = n := by
  rw [Char.ofNat, dif_pos h]
  rfl

theorem encodeChar_one {v : Nat} {b : UInt8} (h : v < 0x80) (hb : v = b.toNat) :
    String.utf8EncodeChar (Char.ofNat v) = [b] := by
  rw [String.utf8EncodeChar, toNat_charOfNat (by omega), if_pos (by omega), ofNat_eq_of_toNat hb]

theorem encodeChar_two {v : Nat} {b c : UInt8} (h : 0x80 ≤ v ∧ v < 0x800)
    (hb : v / 64 + 0xc0 = b.toNat) (hc : v % 64 + 0x80 = c.toNat) :
    String.utf8EncodeChar (Char.ofNat v) = [b, c] := by
  rw [String.utf8EncodeChar, toNat_charOfNat (by omega), if_neg (by omega), if_pos (by omega),
    ofNat_eq_of_toNat (b := b) (by omega), ofNat_eq_of_toNat (b := c) hc]

theorem encodeChar_three {v : Nat} {b c d : UInt8} (h : 0x800 ≤ v ∧ v < 0x10000)
    (hhalf : v < 0xd800 ∨ 0xdfff < v) (hb : v / 4096 + 0xe0 = b.toNat)
    (hc : v / 64 % 64 + 0x80 = c.toNat) (hd : v % 64 + 0x80 = d.toNat) :
    String.utf8EncodeChar (Char.ofNat v) = [b, c, d] := by
  rw [String.utf8EncodeChar, toNat_charOfNat (by omega), if_neg (by omega), if_neg (by omega),
    if_pos (by omega), ofNat_eq_of_toNat (b := b) (by omega), ofNat_eq_of_toNat (b := c) hc,
    ofNat_eq_of_toNat (b := d) hd]

theorem encodeChar_four {v : Nat} {b c d e : UInt8} (h : 0x10000 ≤ v ∧ v < 0x110000)
    (hb : v / 262144 + 0xf0 = b.toNat) (hc : v / 4096 % 64 + 0x80 = c.toNat)
    (hd : v / 64 % 64 + 0x80 = d.toNat) (he : v % 64 + 0x80 = e.toNat) :
    String.utf8EncodeChar (Char.ofNat v) = [b, c, d, e] := by
  rw [String.utf8EncodeChar, toNat_charOfNat (by omega), if_neg (by omega), if_neg (by omega),
    if_neg (by omega), ofNat_eq_of_toNat (b := b) (by omega), ofNat_eq_of_toNat (b := c) hc,
    ofNat_eq_of_toNat (b := d) hd, ofNat_eq_of_toNat (b := e) he]

theorem Spells.encodeChar {lead : LeadByte} {b : UInt8} {bytes : List UInt8}
    (h : Spells lead b bytes) :
    String.utf8EncodeChar (Char.ofNat (continued lead.payload bytes)) = b :: bytes := by
  obtain ⟨hlead, hlength, hfollows⟩ := h
  rcases LeadByte.of?_cases hlead with ⟨hn, rfl⟩ | ⟨hn, hn', rfl⟩ | ⟨hn, hn', rfl⟩ | ⟨hn, hn', rfl⟩
  · obtain rfl : bytes = [] := List.eq_nil_of_length_eq_zero hlength
    exact encodeChar_one hn rfl
  · obtain ⟨c, rfl⟩ := List.length_eq_one_iff.mp hlength
    simp only [follows_cons] at hfollows
    simp only [continued, List.foldl_cons, List.foldl_nil, withBits]
    exact encodeChar_two (by omega) (by omega) (by omega)
  · obtain ⟨c, d, rfl⟩ := List.length_eq_two.mp hlength
    simp only [follows_cons] at hfollows
    simp only [continued, List.foldl_cons, List.foldl_nil, withBits]
    split_ifs at hfollows <;>
      exact encodeChar_three (by omega) (by omega) (by omega) (by omega) (by omega)
  · obtain ⟨c, d, e, rfl⟩ := List.length_eq_three.mp hlength
    simp only [follows_cons] at hfollows
    simp only [continued, List.foldl_cons, List.foldl_nil, withBits]
    split_ifs at hfollows <;>
      exact encodeChar_four (by omega) (by omega) (by omega) (by omega) (by omega)

theorem exists_byte {n : Nat} (h : n < 256) : ∃ b : UInt8, b.toNat = n :=
  ⟨UInt8.ofNat n, by rw [UInt8.toNat_ofNat', Nat.mod_eq_of_lt h]⟩

theorem exists_spells (c : Char) :
    ∃ lead b bytes, Spells lead b bytes ∧ continued lead.payload bytes = c.toNat := by
  have hvalid : c.toNat < 0xd800 ∨ 0xdfff < c.toNat ∧ c.toNat < 0x110000 := c.valid
  generalize c.toNat = v at hvalid ⊢
  obtain ⟨last, hlast⟩ := exists_byte (n := v % 64 + 0x80) (by omega)
  obtain ⟨third, hthird⟩ := exists_byte (n := v / 64 % 64 + 0x80) (by omega)
  obtain ⟨second, hsecond⟩ := exists_byte (n := v / 4096 % 64 + 0x80) (by omega)
  by_cases h1 : v < 0x80
  · obtain ⟨b, rfl⟩ := exists_byte (n := v) (by omega)
    exact ⟨_, b, [], ⟨LeadByte.of?_one h1, rfl, trivial⟩, rfl⟩
  by_cases h2 : v < 0x800
  · obtain ⟨b, hb⟩ := exists_byte (n := v / 64 + 0xc0) (by omega)
    refine ⟨_, b, [last], ⟨LeadByte.of?_two (by omega) (by omega), rfl, ?_⟩, ?_⟩
    · simp only [follows_cons]
      exact ⟨by omega, trivial⟩
    · simp only [continued, List.foldl_cons, List.foldl_nil, withBits]
      omega
  by_cases h3 : v < 0x10000
  · obtain ⟨b, hb⟩ := exists_byte (n := v / 4096 + 0xe0) (by omega)
    refine ⟨_, b, [third, last], ⟨LeadByte.of?_three (by omega) (by omega), rfl, ?_⟩, ?_⟩
    · simp only [follows_cons]
      refine ⟨?_, by omega, trivial⟩
      split_ifs <;> omega
    · simp only [continued, List.foldl_cons, List.foldl_nil, withBits]
      omega
  · obtain ⟨b, hb⟩ := exists_byte (n := v / 262144 + 0xf0) (by omega)
    refine ⟨_, b, [second, third, last], ⟨LeadByte.of?_four (by omega) (by omega), rfl, ?_⟩, ?_⟩
    · simp only [follows_cons]
      refine ⟨?_, by omega, by omega, trivial⟩
      split_ifs <;> omega
    · simp only [continued, List.foldl_cons, List.foldl_nil, withBits]
      omega

theorem Spells.decodeFrom {lead : LeadByte} {b : UInt8} {bytes : List UInt8}
    (h : Spells lead b bytes) (position : Nat) (rest : List UInt8) :
    ∃ after, Text.decodeFrom position .none (b :: bytes ++ rest) =
      (Text.decodeFrom after .none rest).map (Char.ofNat (continued lead.payload bytes) :: ·) := by
  obtain ⟨hlead, hlength, hfollows⟩ := h
  rw [List.cons_append, decodeFrom_lead hlead]
  cases bytes with
  | nil =>
      have hzero : lead.following = 0 := hlength.symm
      rw [if_pos hzero]
      exact ⟨position + 1, rfl⟩
  | cons c cs =>
      have hpos : lead.following ≠ 0 := by
        intro hzero
        rw [hzero] at hlength
        cases hlength
      rw [if_neg hpos, ← hlength]
      exact decodeFrom_pending (c :: cs) (List.cons_ne_nil c cs) hfollows position b lead.payload 1
        rest

theorem decodeFrom_encodeChar (c : Char) (position : Nat) (rest : List UInt8) :
    ∃ after, decodeFrom position .none (String.utf8EncodeChar c ++ rest) =
      (decodeFrom after .none rest).map (c :: ·) := by
  obtain ⟨lead, b, bytes, hspells, hvalue⟩ := exists_spells c
  have hc : Char.ofNat (continued lead.payload bytes) = c := by rw [hvalue, Char.ofNat_toNat]
  have hbytes := hspells.encodeChar
  have hdecode := hspells.decodeFrom position rest
  rw [hc] at hbytes hdecode
  rw [hbytes]
  exact hdecode

/-- Bytes that decode begin with a whole character, and the rest decodes too. -/
theorem decodeFrom_ok_cons {position : Nat} {b : UInt8} {bs : List UInt8} {cs : List Char}
    (h : decodeFrom position .none (b :: bs) = .ok cs) :
    ∃ lead bytes rest after ds, bs = bytes ++ rest ∧ Spells lead b bytes ∧
      decodeFrom after .none rest = .ok ds ∧
      cs = Char.ofNat (continued lead.payload bytes) :: ds := by
  cases hlead : LeadByte.of? b.toNat with
  | none =>
      simp only [decodeFrom_cons, Decoder.step, hlead] at h
      cases h
  | some lead =>
      rw [decodeFrom_lead hlead] at h
      split at h
      next hzero =>
        cases hd : decodeFrom (position + 1) .none bs with
        | error e => rw [hd] at h; cases h
        | ok ds =>
            rw [hd] at h
            exact ⟨lead, [], bs, position + 1, ds, rfl, ⟨hlead, hzero.symm, trivial⟩, hd,
              (Except.ok.inj h).symm⟩
      next hpos =>
        obtain ⟨bytes, rest, after, ds, hbs, hlength, hfollows, hd, hcs⟩ :=
          decodeFrom_pending_ok (Nat.pos_of_ne_zero hpos) h
        exact ⟨lead, bytes, rest, after, ds, hbs, ⟨hlead, hlength, hfollows⟩, hd, hcs⟩

theorem decodeFrom_encode (cs : List Char) (position : Nat) :
    decodeFrom position .none (cs.flatMap String.utf8EncodeChar) = .ok cs := by
  induction cs generalizing position with
  | nil => rfl
  | cons c cs ih =>
      obtain ⟨after, h⟩ := decodeFrom_encodeChar c position (cs.flatMap String.utf8EncodeChar)
      rw [List.flatMap_cons, h, ih]
      rfl

theorem encode_of_decodeFrom {position : Nat} {bs : List UInt8} {cs : List Char}
    (h : decodeFrom position .none bs = .ok cs) : cs.flatMap String.utf8EncodeChar = bs := by
  -- A character takes several bytes at once, so the induction is on how many there are.
  induction hn : bs.length using Nat.strongRecOn generalizing position bs cs with
  | _ n ih =>
      cases bs with
      | nil => cases h; rfl
      | cons b bs =>
          obtain ⟨lead, bytes, rest, after, ds, rfl, hspells, hd, rfl⟩ := decodeFrom_ok_cons h
          have hlength : rest.length < n := by
            simp only [List.length_cons, List.length_append] at hn
            omega
          have hrest := ih rest.length hlength hd rfl
          rw [List.flatMap_cons, hspells.encodeChar, hrest, List.cons_append]

/-- The decoder reads exactly the encodings of texts. -/
theorem decodeUtf8_eq_ok_iff (bytes : List UInt8) (s : String) :
    decodeUtf8 bytes = .ok s ↔ encodeUtf8 s = bytes := by
  unfold decodeUtf8 encodeUtf8
  constructor
  · intro h
    cases hd : decodeFrom 0 .none bytes with
    | error e => rw [hd] at h; cases h
    | ok cs =>
        rw [hd] at h
        rw [← Except.ok.inj h, String.toList_ofList]
        exact encode_of_decodeFrom hd
  · intro h
    rw [← h, decodeFrom_encode, Except.map, String.ofList_toList]

end ClaimCheck.Text
