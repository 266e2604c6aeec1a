import ClaimCheck.Value.Frozen
import ClaimCheck.Proofs.Value.Equality
/-!
What is kept of a value when it is frozen. Of payloads as they are written in JSON nothing is
lost: a frozen scalar is the scalar, a tuple comes from a list only and a set from a mapping only,
and no two entries of a mapping become one. So two of them are equal frozen exactly if they are
equal.
-/
namespace ClaimCheck.Value

/-- Whether a value can be the name of an entry. -/
def isName : Value → Bool
  | .text _ | .torn _ => true
  | _ => false

/-- Scalars, and what lists and mappings under different names are nested above them. What is
not a number and has no mark has no key, so it is not among the scalars. -/
inductive IsJson : Value → Prop where
  | scalar {v : Value} (hkey : v.key?.isSome) : IsJson v
  | list {xs : List Value} (hmembers : ∀ x ∈ xs, IsJson x) : IsJson (.list xs)
  | map {es : List (Value × Value)} (hnames : ∀ e ∈ es, e.1.isName = true)
      (hvalues : ∀ e ∈ es, IsJson e.2) (hapart : es.Pairwise fun e f => e.1 ≠ f.1) :
      IsJson (.map es)

section Frozen
variable {a b k l v : Value} {xs : List Value} {es : List (Value × Value)}

theorem freeze_of_key (h : v.key?.isSome) : v.freeze = v := by
  cases v with
  | list | tuple | set | map => cases h
  | _ => rfl

theorem key?_freeze (v : Value) : v.freeze.key? = v.key? := by
  cases v <;> rfl

def frozenEntry (e : Value × Value) : Value :=
  .tuple [e.1, e.2.freeze]

theorem freezeEntries_eq_map (es : List (Value × Value)) :
    freezeEntries es = es.map frozenEntry := by
  induction es with
  | nil => rfl
  | cons e es ih => exact congrArg (frozenEntry e :: ·) ih

theorem freeze_list (xs : List Value) : freeze (.list xs) = .tuple (xs.map freeze) :=
  congrArg Value.tuple (freezeAll_eq_map xs)

theorem freeze_tuple (xs : List Value) : freeze (.tuple xs) = .tuple (xs.map freeze) :=
  congrArg Value.tuple (freezeAll_eq_map xs)

theorem freeze_set (xs : List Value) : freeze (.set xs) = .set (xs.map freeze) :=
  congrArg Value.set (freezeAll_eq_map xs)

theorem freeze_map (es : List (Value × Value)) : freeze (.map es) = .set (es.map frozenEntry) :=
  congrArg Value.set (freezeEntries_eq_map es)

theorem foldl_addMember {kept : List Value} (h : xs.Pairwise fun x y => ¬ Equals x y)
    (hkept : ∀ k ∈ kept, ∀ x ∈ xs, ¬ Equals k x) :
    xs.foldl (fun kept x => if kept.any (equal · x) then kept else kept ++ [x]) kept =
      kept ++ xs := by
  induction xs generalizing kept with
  | nil => exact (List.append_nil kept).symm
  | cons x xs ih =>
      obtain ⟨hx, hxs⟩ := List.pairwise_cons.mp h
      have hnew : ¬ kept.any (equal · x) = true := by
        intro hin
        obtain ⟨k, hk, hkx⟩ := List.any_eq_true.mp hin
        exact hkept k hk x List.mem_cons_self hkx
      -- the new member is among those that the rest differs from
      have hkept' : ∀ k ∈ kept ++ [x], ∀ y ∈ xs, ¬ Equals k y := by
        rw [List.forall_mem_append, List.forall_mem_singleton]
        exact ⟨fun k hk y hy => hkept k hk y (List.mem_cons_of_mem x hy), hx⟩
      rw [List.foldl_cons, if_neg hnew, ih hxs hkept', List.append_assoc, List.singleton_append]

/-- Members of which no two are equal are all kept when they are added to a set. -/
theorem setOf_of_pairwise (h : xs.Pairwise fun x y => ¬ Equals x y) : setOf xs = .set xs := by
  have hnone : ∀ k ∈ ([] : List Value), ∀ x ∈ xs, ¬ Equals k x := nofun
  rw [setOf, foldl_addMember h hnone, List.nil_append]

theorem equals_pair_iff {c d : Value} :
    Equals (.tuple [a, b]) (.tuple [c, d]) ↔ Equals a c ∧ Equals b d := by
  simp only [equals_tuple_iff, Value.tuple.injEq, exists_eq_left', List.forall₂_cons,
    List.forall₂_nil_left_iff, and_true]

theorem key?_isSome_of_isName (h : k.isName = true) : k.key?.isSome := by
  cases k with
  | text s => rfl
  | torn s => rfl
  | _ => cases h

theorem equals_name_iff (hk : k.isName = true) (hl : l.isName = true) :
    Equals k l ↔ k = l := by
  constructor
  · intro h
    cases k with
    | text s =>
        cases l with
        | text t => rw [equals_text_iff.mp h]
        | torn t => cases (equals_iff_of_key rfl).mp h
        | _ => cases hl
    | torn s =>
        cases l with
        | text t => cases (equals_iff_of_key rfl).mp h
        | torn t => rw [equals_torn_iff.mp h]
        | _ => cases hl
    | _ => cases hk
  · rintro rfl
    exact (IsPayload.scalar (key?_isSome_of_isName hk)).refl

end Frozen

namespace IsJson
variable {a b v : Value} {xs : List Value} {es : List (Value × Value)}

theorem isPayload (h : IsJson v) : IsPayload v := by
  induction h with
  | scalar hkey => exact .scalar hkey
  | list _ ih => exact .list ih
  | map hnames _ hapart ih =>
      refine .map (fun e he => .scalar (key?_isSome_of_isName (hnames e he))) ih ?_
      refine hapart.imp_of_mem fun he hf hne => ?_
      rwa [equals_name_iff (hnames _ he) (hnames _ hf)]

theorem pairwise_frozenEntry (h : IsJson (.map es)) :
    (es.map frozenEntry).Pairwise fun x y => ¬ Equals x y := by
  cases h with
  | scalar hkey => cases hkey
  | map hnames _ hapart =>
      refine List.pairwise_map.mpr (hapart.imp_of_mem fun he hf hne hequal => hne ?_)
      exact (equals_name_iff (hnames _ he) (hnames _ hf)).mp (equals_pair_iff.mp hequal).1

/-- The frozen entries of a mapping are added to a set one after another, and none of them is
there already. -/
theorem freeze_map_eq_setOf (h : IsJson (.map es)) :
    freeze (.map es) = setOf (es.map frozenEntry) := by
  rw [freeze_map, setOf_of_pairwise h.pairwise_frozenEntry]

theorem equals_frozenList_iff (hb : IsJson b) :
    Equals (.tuple (xs.map freeze)) b.freeze ↔
      ∃ ys, b = .list ys ∧ List.Forall₂ (fun x y => Equals x.freeze y.freeze) xs ys := by
  rw [equals_tuple_iff]
  cases hb with
  | scalar hkey =>
      rw [freeze_of_key hkey]
      constructor <;> rintro ⟨_, rfl, _⟩ <;> cases hkey
  | list _ =>
      simp only [freeze_list, Value.tuple.injEq, Value.list.injEq, exists_eq_left',
        List.forall₂_map_left_iff, List.forall₂_map_right_iff]
  | map => simp only [freeze_map, reduceCtorEq, false_and, exists_false]

theorem equals_frozenMap_iff (hb : IsJson b) :
    Equals (.set (es.map frozenEntry)) b.freeze ↔
      ∃ fs, b = .map fs ∧ es.length = fs.length ∧
        ∀ e ∈ es, ∃ f ∈ fs, Equals (frozenEntry e) (frozenEntry f) := by
  rw [equals_set_iff]
  cases hb with
  | scalar hkey =>
      rw [freeze_of_key hkey]
      constructor <;> rintro ⟨_, rfl, _⟩ <;> cases hkey
  | list _ => simp only [freeze_list, reduceCtorEq, false_and, exists_false]
  | map =>
      simp only [freeze_map, Value.set.injEq, Value.map.injEq, exists_eq_left', List.length_map,
        List.mem_map, forall_exists_index, and_imp, forall_apply_eq_imp_iff₂,
        exists_exists_and_eq_and]

theorem of_list (h : IsJson (.list xs)) : ∀ x ∈ xs, IsJson x := by
  cases h with
  | scalar hkey => cases hkey
  | list hmembers => exact hmembers

theorem of_map (h : IsJson (.map es)) : ∀ e ∈ es, IsJson e.2 := by
  cases h with
  | scalar hkey => cases hkey
  | map _ hvalues => exact hvalues

/-- Freezing keeps apart what is not equal, and nothing else. -/
theorem equals_freeze_iff (ha : IsJson a) (hb : IsJson b) :
    Equals a.freeze b.freeze ↔ Equals a b := by
  induction ha generalizing b with
  | scalar hkey =>
      rw [freeze_of_key hkey, equals_iff_of_key hkey, equals_iff_of_key hkey, key?_freeze]
  | list _ ih =>
      rw [freeze_list, equals_frozenList_iff hb, equals_list_iff]
      refine exists_congr fun ys => and_congr_right ?_
      rintro rfl
      exact forall₂_congr_of_mem fun x hx y hy => ih x hx (hb.of_list y hy)
  | map _ _ _ ih =>
      rw [freeze_map, equals_frozenMap_iff hb, equals_map_iff]
      refine exists_congr fun fs => and_congr_right ?_
      rintro rfl
      refine and_congr_right fun _ => forall₂_congr fun e he => ?_
      refine exists_congr fun f => and_congr_right fun hf => ?_
      rw [frozenEntry, frozenEntry, equals_pair_iff, ih e he (hb.of_map f hf), EqualEntries]

end IsJson
end ClaimCheck.Value
