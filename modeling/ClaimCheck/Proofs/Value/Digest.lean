import ClaimCheck.Value.Digest
import ClaimCheck.Proofs.Value.Frozen
import Mathlib.Algebra.Ring.Parity
/-!
Equal payloads have the same digest, frozen or not. What is left of the members of a set once
those with one digest have cancelled each other out is told by how often each digest occurs
among them, whatever their order; so it is the same for members that can be paired off.
-/
namespace ClaimCheck
namespace Digest

abbrev Same (d e : Digest) : Prop :=
  d.same e = true

/-- Whether a digest has no parts and is the same as itself. -/
def isAtom : Digest → Bool
  | .undefined | .row _ | .pool .. => false
  | _ => true

/-- Digests on which sameness is an equivalence: nothing undefined is in them, and the members
of a pool are told apart. -/
inductive IsSettled : Digest → Prop where
  | atom {d : Digest} (hatom : d.isAtom = true) : IsSettled d
  | row {parts : List Digest} (hparts : ∀ d ∈ parts, IsSettled d) : IsSettled (.row parts)
  | pool {size : Nat} {members : List Digest} (hmembers : ∀ d ∈ members, IsSettled d)
      (hapart : members.Pairwise fun d e => ¬ Same d e) : IsSettled (.pool size members)

theorem IsSettled.of_row {parts : List Digest} (h : IsSettled (.row parts)) :
    ∀ d ∈ parts, IsSettled d := by
  cases h with
  | atom hatom => cases hatom
  | row hparts => exact hparts

theorem IsSettled.of_pool {size : Nat} {members : List Digest}
    (h : IsSettled (.pool size members)) : ∀ d ∈ members, IsSettled d := by
  cases h with
  | atom hatom => cases hatom
  | pool hmembers => exact hmembers

section Same
variable {d e : Digest} {xs ys : List Digest}

theorem same_iff_of_isAtom (h : d.isAtom = true) : Same d e ↔ d = e := by
  cases d <;> cases e <;> simp_all [Same, same, isAtom]

theorem sameAll_cons (d e : Digest) (xs ys : List Digest) :
    sameAll (d :: xs) (e :: ys) = (same d e && sameAll xs ys) := rfl

theorem sameAll_iff : sameAll xs ys = true ↔ List.Forall₂ Same xs ys := by
  induction xs generalizing ys with
  | nil =>
      cases ys with
      | nil => exact iff_of_true rfl .nil
      | cons y ys => exact iff_of_false Bool.false_ne_true nofun
  | cons x xs ih =>
      cases ys with
      | nil => exact iff_of_false Bool.false_ne_true nofun
      | cons y ys => rw [sameAll_cons, Bool.and_eq_true, ih, List.forall₂_cons]

theorem within_cons (d : Digest) (xs ys : List Digest) :
    within (d :: xs) ys = (ys.any (same d ·) && within xs ys) := rfl

theorem within_iff : within xs ys = true ↔ ∀ x ∈ xs, ∃ y ∈ ys, Same x y := by
  induction xs with
  | nil => exact iff_of_true rfl nofun
  | cons x xs ih =>
      rw [within_cons, Bool.and_eq_true, ih, List.any_eq_true, List.forall_mem_cons]

theorem same_row_iff : Same (.row xs) e ↔ ∃ ys, e = .row ys ∧ List.Forall₂ Same xs ys := by
  cases e with
  | row ys =>
      have hsame : same (.row xs) (.row ys) = sameAll xs ys := rfl
      rw [Same, hsame, sameAll_iff]
      simp only [Digest.row.injEq, exists_eq_left']
  | _ => exact iff_of_false Bool.false_ne_true nofun

theorem same_pool_iff {size : Nat} :
    Same (.pool size xs) e ↔ ∃ ys, e = .pool size ys ∧ xs.length = ys.length ∧
      ∀ x ∈ xs, ∃ y ∈ ys, Same x y := by
  cases e with
  | pool size' ys =>
      have hsame : same (.pool size xs) (.pool size' ys) =
          (size == size' && xs.length == ys.length && within xs ys) := rfl
      rw [Same, hsame, Bool.and_eq_true, Bool.and_eq_true, within_iff]
      simp only [beq_iff_eq, Digest.pool.injEq, and_assoc, @eq_comm _ size, exists_and_left,
        exists_eq_left']
  | _ => exact iff_of_false Bool.false_ne_true nofun

end Same

namespace IsSettled
variable {d e f : Digest}

theorem refl (hd : IsSettled d) : Same d d := by
  induction hd with
  | atom hatom => exact (same_iff_of_isAtom hatom).mpr rfl
  | row _ ih => exact same_row_iff.mpr ⟨_, rfl, List.forall₂_same.mpr ih⟩
  | pool _ _ ih => exact same_pool_iff.mpr ⟨_, rfl, rfl, fun x hx => ⟨x, hx, ih x hx⟩⟩

theorem trans (hd : IsSettled d) (hde : Same d e) (hef : Same e f) : Same d f := by
  induction hd generalizing e f with
  | atom hatom =>
      cases (same_iff_of_isAtom hatom).mp hde
      exact hef
  | row _ ih =>
      obtain ⟨ys, rfl, hxy⟩ := same_row_iff.mp hde
      obtain ⟨zs, rfl, hyz⟩ := same_row_iff.mp hef
      refine same_row_iff.mpr ⟨zs, rfl, ?_⟩
      exact forall₂_trans_of_mem (fun x hx y z => ih x hx) hxy hyz
  | pool _ _ ih =>
      obtain ⟨ys, rfl, hlength, hxy⟩ := same_pool_iff.mp hde
      obtain ⟨zs, rfl, hlength', hyz⟩ := same_pool_iff.mp hef
      refine same_pool_iff.mpr ⟨zs, rfl, hlength.trans hlength', ?_⟩
      exact find_trans_of_mem (fun x hx y z => ih x hx) hxy hyz

theorem symm (hd : IsSettled d) (he : IsSettled e) (hde : Same d e) : Same e d := by
  induction hd generalizing e with
  | atom hatom =>
      cases (same_iff_of_isAtom hatom).mp hde
      exact hde
  | row _ ih =>
      obtain ⟨ys, rfl, hxy⟩ := same_row_iff.mp hde
      have hback := forall₂_of_mem (fun x hx y hy => ih x hx (he.of_row y hy)) hxy
      exact same_row_iff.mpr ⟨_, rfl, hback.flip⟩
  | pool hmembers hapart ih =>
      obtain ⟨ys, rfl, hlength, hfind⟩ := same_pool_iff.mp hde
      have hback := fun x hx y hy => ih x hx (he.of_pool y hy)
      have hpaired := Paired.of_find hlength hfind hapart hback fun x hx _ _ =>
        (hmembers x hx).trans
      exact same_pool_iff.mpr ⟨_, rfl, hlength.symm, hpaired.find_back hback⟩

end IsSettled

section Toggle
variable {d e : Digest} {members : List Digest}

theorem mem_of_mem_toggle (h : d ∈ toggle e members) : d = e ∨ d ∈ members := by
  rw [toggle] at h
  split at h
  next => exact .inr (List.mem_of_mem_filter h)
  next => exact List.mem_cons.mp h

theorem toggle_pairwise (h : members.Pairwise fun d e => ¬ Same d e) :
    (toggle d members).Pairwise fun d e => ¬ Same d e := by
  rw [toggle]
  split
  next => exact h.filter _
  next hnew =>
    refine List.pairwise_cons.mpr ⟨fun e he hsame => ?_, h⟩
    exact hnew (List.any_eq_true.mpr ⟨e, he, hsame⟩)

/-- A digest is among toggled members either as the one put to them or as one of them, but not
as both. -/
theorem among_toggle (hd : IsSettled d) (he : IsSettled e)
    (hmembers : ∀ x ∈ members, IsSettled x) :
    (∃ x ∈ toggle e members, Same d x) ↔ (Same d e ↔ ¬ ∃ x ∈ members, Same d x) := by
  have hleft {x : Digest} (hde : Same d e) (hdx : Same d x) : Same e x :=
    he.trans (hd.symm he hde) hdx
  have hjoin {x : Digest} (hx : x ∈ members) (hdx : Same d x) (hex : Same e x) : Same d e :=
    hd.trans hdx (he.symm (hmembers x hx) hex)
  rw [toggle]
  split
  next hin =>
    -- the same members are taken out: none of them is left for a digest that is the same
    obtain ⟨y, hy, hey⟩ := List.any_eq_true.mp hin
    simp only [List.mem_filter, Bool.not_eq_true']
    by_cases hde : Same d e
    · refine iff_of_false ?_ fun h => h.mp hde ⟨y, hy, hd.trans hde hey⟩
      rintro ⟨x, ⟨_, hne⟩, hdx⟩
      exact Bool.eq_false_iff.mp hne (hleft hde hdx)
    · rw [iff_false_left hde, not_not]
      constructor
      · rintro ⟨x, ⟨hx, _⟩, hdx⟩
        exact ⟨x, hx, hdx⟩
      · rintro ⟨x, hx, hdx⟩
        exact ⟨x, ⟨hx, Bool.eq_false_iff.mpr fun hex => hde (hjoin hx hdx hex)⟩, hdx⟩
  next hnew =>
    rw [List.exists_mem_cons_iff]
    by_cases hde : Same d e
    · refine iff_of_true (.inl hde) (iff_of_true hde ?_)
      rintro ⟨x, hx, hdx⟩
      exact hnew (List.any_eq_true.mpr ⟨x, hx, hleft hde hdx⟩)
    · rw [or_iff_right hde, iff_false_left hde, not_not]

end Toggle

/-- What is left of members once those with one digest have cancelled each other out. -/
def remaining (members : List Digest) : List Digest :=
  members.foldr toggle []

section Remaining
variable {d : Digest} {xs ys : List Digest}

theorem remaining_settled (hxs : ∀ x ∈ xs, IsSettled x) : ∀ x ∈ remaining xs, IsSettled x := by
  induction xs with
  | nil => nofun
  | cons y xs ih =>
      obtain ⟨hy, hxs⟩ := List.forall_mem_cons.mp hxs
      intro x hx
      rcases mem_of_mem_toggle hx with rfl | hx
      · exact hy
      · exact ih hxs x hx

theorem remaining_pairwise (xs : List Digest) :
    (remaining xs).Pairwise fun d e => ¬ Same d e := by
  induction xs with
  | nil => exact .nil
  | cons y xs ih => exact toggle_pairwise ih

theorem among_remaining_iff (hd : IsSettled d) (hxs : ∀ x ∈ xs, IsSettled x) :
    (∃ x ∈ remaining xs, Same d x) ↔ Odd (xs.countP d.same) := by
  induction xs with
  | nil => simp [remaining]
  | cons y xs ih =>
      obtain ⟨hy, hxs⟩ := List.forall_mem_cons.mp hxs
      refine (among_toggle hd hy (remaining_settled hxs)).trans ?_
      rw [ih hxs, List.countP_cons]
      by_cases hdy : Same d y
      · rw [if_pos hdy, Nat.odd_add_one, iff_true_left hdy]
      · rw [if_neg hdy, Nat.add_zero, iff_false_left hdy, not_not]

theorem countP_of_paired (hd : IsSettled d) (hxs : ∀ x ∈ xs, IsSettled x)
    (hys : ∀ y ∈ ys, IsSettled y) (h : Paired Same xs ys) :
    xs.countP d.same = ys.countP d.same := by
  obtain ⟨zs, hzs, hperm⟩ := h
  have hiff : List.Forall₂ (fun x z => Same d x ↔ Same d z) xs zs := by
    refine forall₂_of_mem (fun x hx z hz hxz => ?_) hzs
    have hz : IsSettled z := hys z (hperm.mem_iff.mp hz)
    exact ⟨fun h => hd.trans h hxz, fun h => hd.trans h ((hxs x hx).symm hz hxz)⟩
  rw [← hperm.countP_eq]
  clear hxs hzs hperm
  induction hiff with
  | nil => rfl
  | cons hxz _ ih => rw [List.countP_cons, List.countP_cons, ih, if_congr hxz rfl rfl]

theorem settled_ofMembers (hxs : ∀ x ∈ xs, IsSettled x) : IsSettled (ofMembers xs) :=
  .pool (remaining_settled hxs) (remaining_pairwise xs)

theorem length_remaining_le (hxs : ∀ x ∈ xs, IsSettled x) (hys : ∀ y ∈ ys, IsSettled y)
    (h : ∀ x ∈ remaining xs, ∃ y ∈ remaining ys, Same x y) :
    (remaining xs).length ≤ (remaining ys).length := by
  have hapart : (remaining xs).Pairwise fun x x' => ∀ y ∈ remaining ys, Same x y → ¬ Same x' y := by
    refine (remaining_pairwise xs).imp_of_mem fun hx hx' hne y hy hxy hxy' => ?_
    have hback := (remaining_settled hxs _ hx').symm (remaining_settled hys y hy) hxy'
    exact hne ((remaining_settled hxs _ hx).trans hxy hback)
  obtain ⟨zs, hzs, hsub⟩ := exists_subperm h hapart
  exact Nat.le_trans (Nat.le_of_eq hzs.length_eq) hsub.length_le

/-- The digest of a set depends neither on the order of its members nor on which of the same
digests they have. -/
theorem same_ofMembers (hxs : ∀ x ∈ xs, IsSettled x) (hys : ∀ y ∈ ys, IsSettled y)
    (h : Paired Same xs ys) : Same (ofMembers xs) (ofMembers ys) := by
  have hamong {d : Digest} (hd : IsSettled d) :
      (∃ x ∈ remaining xs, Same d x) ↔ ∃ y ∈ remaining ys, Same d y := by
    rw [among_remaining_iff hd hxs, among_remaining_iff hd hys, countP_of_paired hd hxs hys h]
  have hfind : ∀ x ∈ remaining xs, ∃ y ∈ remaining ys, Same x y := fun x hx =>
    have hsettled := remaining_settled hxs x hx
    (hamong hsettled).mp ⟨x, hx, hsettled.refl⟩
  have hfind' : ∀ y ∈ remaining ys, ∃ x ∈ remaining xs, Same y x := fun y hy =>
    have hsettled := remaining_settled hys y hy
    (hamong hsettled).mpr ⟨y, hy, hsettled.refl⟩
  have hlength := Nat.le_antisymm (length_remaining_le hxs hys hfind)
    (length_remaining_le hys hxs hfind')
  rw [ofMembers, ofMembers, h.length_eq]
  exact same_pool_iff.mpr ⟨remaining ys, rfl, hlength, hfind⟩

end Remaining

end Digest

namespace Value

/-- The digest of the scalars with a key. -/
def Key.digest : Key → Digest
  | .number (.finite q) => Digest.ofRat q
  | .number (.infinite negative) => Digest.ofInfinity negative
  | .null => .absent
  | .mark n => .unique n
  | .text s => Digest.ofRunes (Text.runes s)
  | .torn t => Digest.ofRunes t.runes
  | .bytes bs => Digest.ofBytes bs
  | .duration d => Digest.ofDuration d
  | .moment (.inl micros) => Digest.ofDuration ⟨micros⟩
  | .moment (.inr m) => Digest.ofMoment m

theorem digest_of_key {v : Value} {k : Key} (h : v.key? = some k) : v.digest = k.digest := by
  have hscalar : v.digest = scalarDigest v := by
    cases v with
    | list | tuple | set | map | record => cases h
    | _ => rfl
  rw [hscalar]
  unfold key? at h
  unfold scalarDigest
  split at h
  next x hx =>
    cases h
    rw [hx]
    cases x <;> rfl
  next hx =>
    rw [hx]
    cases v with
    | moment m =>
        cases h
        cases hm : m.instant? <;> simp only [Key.digest, Moment.point, hm]
    | _ => cases h <;> rfl

theorem settled_ofDuration (d : Duration) : (Digest.ofDuration d).IsSettled := by
  refine .row fun part hpart => .atom ?_
  simp only [List.mem_cons, List.not_mem_nil, or_false] at hpart
  rcases hpart with rfl | rfl | rfl <;> rfl

theorem settled_ofBytes (bs : List UInt8) : (Digest.ofBytes bs).IsSettled :=
  .atom (by unfold Digest.ofBytes; split <;> rfl)

theorem Key.settled_digest (k : Key) : k.digest.IsSettled := by
  cases k with
  | number x => cases x <;> exact .atom rfl
  | text s => exact settled_ofBytes _
  | torn t => exact settled_ofBytes _
  | bytes bs => exact settled_ofBytes bs
  | duration d => exact settled_ofDuration d
  | moment point =>
      cases point with
      | inl micros => exact settled_ofDuration _
      | inr m => rw [Key.digest, Digest.ofMoment]; exact settled_ofBytes _
  | _ => exact .atom rfl

theorem digestAll_eq_map (xs : List Value) : digestAll xs = xs.map digest := by
  induction xs with
  | nil => rfl
  | cons x xs ih => exact congrArg (x.digest :: ·) ih

def entryDigest (e : Value × Value) : Digest :=
  .row [e.1.digest, e.2.digest]

theorem digestEntries_eq_map (es : List (Value × Value)) :
    digestEntries es = es.map entryDigest := by
  induction es with
  | nil => rfl
  | cons e es ih => exact congrArg (entryDigest e :: ·) ih

theorem digest_list (xs : List Value) : digest (.list xs) = .row (xs.map digest) :=
  congrArg Digest.row (digestAll_eq_map xs)

theorem digest_tuple (xs : List Value) : digest (.tuple xs) = .row (xs.map digest) :=
  congrArg Digest.row (digestAll_eq_map xs)

theorem digest_set (xs : List Value) : digest (.set xs) = Digest.ofMembers (xs.map digest) :=
  congrArg Digest.ofMembers (digestAll_eq_map xs)

theorem digest_map (es : List (Value × Value)) :
    digest (.map es) = Digest.ofMembers (es.map entryDigest) :=
  congrArg Digest.ofMembers (digestEntries_eq_map es)

theorem settled_entryDigest {e : Value × Value} (hkey : e.1.digest.IsSettled)
    (hvalue : e.2.digest.IsSettled) : (entryDigest e).IsSettled := by
  refine .row ?_
  rintro d (_ | ⟨_, _ | ⟨_, ⟨⟩⟩⟩)
  · exact hkey
  · exact hvalue

theorem same_rows {xs ys : List Value}
    (h : List.Forall₂ (fun x y => x.digest.Same y.digest) xs ys) :
    Digest.Same (.row (digestAll xs)) (.row (digestAll ys)) := by
  rw [digestAll_eq_map, digestAll_eq_map]
  refine Digest.same_row_iff.mpr ⟨_, rfl, ?_⟩
  rw [List.forall₂_map_left_iff, List.forall₂_map_right_iff]
  exact h

theorem unhashableAmong?_eq_none {frozen : Bool} {xs : List Value}
    (h : ∀ x ∈ xs, unhashable? frozen x = none) : unhashableAmong? frozen xs = none := by
  induction xs with
  | nil => rfl
  | cons x xs ih =>
      obtain ⟨hx, hxs⟩ := List.forall_mem_cons.mp h
      rw [unhashableAmong?, hx, ih hxs]

theorem unhashableEntry?_eq_none {es : List (Value × Value)}
    (h : ∀ e ∈ es, unhashable? true e.2 = none) : unhashableEntry? es = none := by
  induction es with
  | nil => rfl
  | cons e es ih =>
      obtain ⟨he, hes⟩ := List.forall_mem_cons.mp h
      obtain ⟨key, value⟩ := e
      unfold unhashableEntry?
      rw [he, ih hes]

theorem unhashableField?_eq_none {frozen : Bool} {fields : Fields}
    (h : ∀ field ∈ fields, unhashable? frozen field.2 = none) :
    unhashableField? frozen fields = none := by
  induction fields with
  | nil => rfl
  | cons field fields ih =>
      obtain ⟨hfield, hfields⟩ := List.forall_mem_cons.mp h
      obtain ⟨name, value⟩ := field
      rw [unhashableField?, hfield, ih hfields]

namespace IsPayload
variable {a b v : Value}

/-- A frozen payload has the digest of the payload. -/
theorem digest_freeze (h : IsPayload v) : v.freeze.digest = v.digest := by
  induction h with
  | scalar hkey => rw [freeze_of_key hkey]
  | @list xs _ ih | @tuple xs _ ih | @set xs _ _ ih =>
      have hmembers : xs.map (digest ∘ freeze) = xs.map digest := List.map_congr_left ih
      simp only [freeze_list, freeze_tuple, freeze_set, digest_list, digest_tuple, digest_set,
        List.map_map, hmembers]
  | @map es _ _ _ _ ih =>
      have hentries : es.map (digest ∘ frozenEntry) = es.map entryDigest :=
        List.map_congr_left fun e he => by
          simp only [Function.comp_apply, frozenEntry, digest_tuple, List.map_cons, List.map_nil,
            ih e he, entryDigest]
      rw [freeze_map, digest_set, digest_map, List.map_map, hentries]

theorem settled_digest (h : IsPayload v) : v.digest.IsSettled := by
  induction h with
  | scalar hkey =>
      obtain ⟨k, hk⟩ := Option.isSome_iff_exists.mp hkey
      rw [digest_of_key hk]
      exact k.settled_digest
  | list _ ih =>
      rw [digest_list]
      exact .row (List.forall_mem_map.mpr ih)
  | tuple _ ih =>
      rw [digest_tuple]
      exact .row (List.forall_mem_map.mpr ih)
  | set _ _ ih =>
      rw [digest_set]
      exact Digest.settled_ofMembers (List.forall_mem_map.mpr ih)
  | map _ _ _ ihkey ihvalue =>
      rw [digest_map]
      refine Digest.settled_ofMembers (List.forall_mem_map.mpr fun e he => ?_)
      exact settled_entryDigest (ihkey e he) (ihvalue e he)

theorem settled_digests {xs : List Value} (h : ∀ x ∈ xs, IsPayload x) :
    ∀ d ∈ xs.map digest, d.IsSettled :=
  List.forall_mem_map.mpr fun x hx => (h x hx).settled_digest

theorem settled_entryDigests {es : List (Value × Value)} (hkeys : ∀ e ∈ es, IsPayload e.1)
    (hvalues : ∀ e ∈ es, IsPayload e.2) : ∀ d ∈ es.map entryDigest, d.IsSettled :=
  List.forall_mem_map.mpr fun e he =>
    settled_entryDigest (hkeys e he).settled_digest (hvalues e he).settled_digest

/-- Equal payloads have the same digest. -/
theorem same_digest (ha : IsPayload a) (hb : IsPayload b) (hab : Equals a b) :
    a.digest.Same b.digest := by
  induction ha generalizing b with
  | scalar hkey =>
      obtain ⟨k, hk⟩ := Option.isSome_iff_exists.mp hkey
      have hk' := ((equals_iff_of_key hkey).mp hab).symm.trans hk
      rw [digest_of_key hk, digest_of_key hk']
      exact k.settled_digest.refl
  | list _ ih =>
      obtain ⟨ys, rfl, hxy⟩ := equals_list_iff.mp hab
      exact same_rows (forall₂_of_mem (fun x hx y hy => ih x hx (hb.of_list y hy)) hxy)
  | tuple _ ih =>
      obtain ⟨ys, rfl, hxy⟩ := equals_tuple_iff.mp hab
      exact same_rows (forall₂_of_mem (fun x hx y hy => ih x hx (hb.of_tuple y hy)) hxy)
  | @set xs hxs hapart ih =>
      obtain ⟨ys, rfl, hpaired⟩ := (equals_set_iff_paired (.set hxs hapart) hb).mp hab
      have hys := hb.of_set.1
      rw [digest_set, digest_set]
      refine Digest.same_ofMembers (settled_digests hxs) (settled_digests hys) ?_
      exact (hpaired.imp_of_mem fun x hx y hy => ih x hx (hys y hy)).map
  | @map es hkeys hvalues hapart ihkey ihvalue =>
      have hes : IsPayload (.map es) := .map hkeys hvalues hapart
      obtain ⟨fs, rfl, hpaired⟩ := (equals_map_iff_paired hes hb).mp hab
      obtain ⟨hkeys', hvalues', _⟩ := hb.of_map
      rw [digest_map, digest_map]
      refine Digest.same_ofMembers (settled_entryDigests hkeys hvalues)
        (settled_entryDigests hkeys' hvalues') (Paired.map ?_)
      refine hpaired.imp_of_mem fun e he f hf hef => ?_
      refine Digest.same_row_iff.mpr ⟨_, rfl, .cons ?_ (.cons ?_ .nil)⟩
      · exact ihkey e he (hkeys' f hf) hef.1
      · exact ihvalue e he (hvalues' f hf) hef.2

/-- Nothing in a frozen payload keeps it from being hashed. -/
theorem unhashable?_eq_none (h : IsPayload v) : unhashable? true v = none := by
  induction h with
  | @scalar v hkey =>
      cases v with
      | list | tuple | set | map | record => cases hkey
      | _ => rfl
  | list _ ih | tuple _ ih | set _ _ ih => exact unhashableAmong?_eq_none ih
  | map _ _ _ _ ih => exact unhashableEntry?_eq_none ih

end IsPayload

theorem digestFields_eq_map (fields : Fields) :
    digestFields fields = fields.map fun field => field.2.digest := by
  induction fields with
  | nil => rfl
  | cons field fields ih => exact congrArg (field.2.digest :: ·) ih

theorem settled_digest_record {name text : String} {fields : Fields}
    (h : ∀ field ∈ fields, field.2.IsPayload) : (record name text fields).digest.IsSettled := by
  have hparts : ∀ d ∈ digestFields fields, d.IsSettled := by
    rw [digestFields_eq_map]
    exact List.forall_mem_map.mpr fun field hfield => (h field hfield).settled_digest
  change (Digest.ofFields (digestFields fields)).IsSettled
  unfold Digest.ofFields
  split
  next only honly => exact hparts only (by rw [honly]; exact List.mem_singleton_self only)
  next => exact .row hparts

end Value
end ClaimCheck
