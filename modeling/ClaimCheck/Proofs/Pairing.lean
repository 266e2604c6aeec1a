import Mathlib.Data.List.Perm.Basic

namespace ClaimCheck

variable {α β γ δ : Type}

/-- Some order of the second list relates to the first one, member by member. -/
def Paired (R : α → β → Prop) (xs : List α) (ys : List β) : Prop :=
  ∃ zs, List.Forall₂ R xs zs ∧ zs.Perm ys

theorem forall₂_of_mem {R S : α → β → Prop} {xs : List α} {ys : List β}
    (himp : ∀ x ∈ xs, ∀ y ∈ ys, R x y → S x y) (h : List.Forall₂ R xs ys) :
    List.Forall₂ S xs ys := by
  rw [List.forall₂_iff_zip] at h ⊢
  refine ⟨h.1, fun hpair => ?_⟩
  obtain ⟨hx, hy⟩ := List.of_mem_zip hpair
  exact himp _ hx _ hy (h.2 hpair)

theorem forall₂_congr_of_mem {R S : α → β → Prop} {xs : List α} {ys : List β}
    (hiff : ∀ x ∈ xs, ∀ y ∈ ys, (R x y ↔ S x y)) :
    List.Forall₂ R xs ys ↔ List.Forall₂ S xs ys :=
  ⟨forall₂_of_mem fun x hx y hy => (hiff x hx y hy).mp,
    forall₂_of_mem fun x hx y hy => (hiff x hx y hy).mpr⟩

theorem exists_of_forall₂ {R : α → β → Prop} {xs : List α} {ys : List β}
    (h : List.Forall₂ R xs ys) {x : α} (hx : x ∈ xs) : ∃ y ∈ ys, R x y := by
  induction h with
  | nil => cases hx
  | cons hxy hrest ih =>
      rcases List.mem_cons.mp hx with rfl | hx
      · exact ⟨_, List.mem_cons_self, hxy⟩
      · obtain ⟨y, hy, hxy⟩ := ih hx
        exact ⟨y, List.mem_cons_of_mem _ hy, hxy⟩

theorem forall_mem_iff_of_forall₂ {p : α → Prop} {q : β → Prop} {xs : List α} {ys : List β}
    (h : List.Forall₂ (fun x y => q y ↔ p x) xs ys) : (∀ y ∈ ys, q y) ↔ ∀ x ∈ xs, p x := by
  induction h with
  | nil => simp only [List.not_mem_nil, false_implies, implies_true]
  | cons h _ ih => rw [List.forall_mem_cons, List.forall_mem_cons, h, ih]

theorem forall₂_trans_of_mem {R : α → α → Prop} {xs ys zs : List α}
    (htrans : ∀ x ∈ xs, ∀ y z, R x y → R y z → R x z) (hxy : List.Forall₂ R xs ys)
    (hyz : List.Forall₂ R ys zs) : List.Forall₂ R xs zs := by
  induction hxy generalizing zs with
  | nil => exact hyz
  | @cons x y xs ys hxy hrest ih =>
      cases hyz with
      | cons hyz hrest' =>
          refine .cons (htrans x List.mem_cons_self _ _ hxy hyz) (ih ?_ hrest')
          exact fun x' hx' => htrans x' (List.mem_cons_of_mem x hx')

theorem find_trans_of_mem {R : α → α → Prop} {xs ys zs : List α}
    (htrans : ∀ x ∈ xs, ∀ y z, R x y → R y z → R x z) (hxy : ∀ x ∈ xs, ∃ y ∈ ys, R x y)
    (hyz : ∀ y ∈ ys, ∃ z ∈ zs, R y z) : ∀ x ∈ xs, ∃ z ∈ zs, R x z := by
  intro x hx
  obtain ⟨y, hy, hxy⟩ := hxy x hx
  obtain ⟨z, hz, hyz⟩ := hyz y hy
  exact ⟨z, hz, htrans x hx y z hxy hyz⟩

/-- Members that find partners, no two of them the same one, are paired with part of the other
list. -/
theorem exists_subperm {R : α → β → Prop} {xs : List α} {ys : List β}
    (hfind : ∀ x ∈ xs, ∃ y ∈ ys, R x y)
    (hapart : xs.Pairwise fun x x' => ∀ y ∈ ys, R x y → ¬ R x' y) :
    ∃ zs, List.Forall₂ R xs zs ∧ zs.Subperm ys := by
  induction xs generalizing ys with
  | nil => exact ⟨[], .nil, List.nil_subperm⟩
  | cons x xs ih =>
      obtain ⟨hx, hxs⟩ := List.pairwise_cons.mp hapart
      obtain ⟨y, hy, hxy⟩ := hfind x List.mem_cons_self
      obtain ⟨before, after, rfl⟩ := List.append_of_mem hy
      -- the partner is taken out of the other list, where no later member looks for it
      have hleft : ∀ z, z ∈ before ++ after → z ∈ before ++ y :: after := fun z hz =>
        (List.perm_middle.mem_iff).mpr (List.mem_cons_of_mem y hz)
      have hfind' : ∀ x' ∈ xs, ∃ z ∈ before ++ after, R x' z := by
        intro x' hx'
        obtain ⟨z, hz, hxz⟩ := hfind x' (List.mem_cons_of_mem x hx')
        rcases List.mem_cons.mp ((List.perm_middle.mem_iff).mp hz) with rfl | hz
        · exact absurd hxz (hx x' hx' z hy hxy)
        · exact ⟨z, hz, hxz⟩
      obtain ⟨zs, hzs, hsub⟩ := ih hfind' (hxs.imp fun h z hz => h z (hleft z hz))
      refine ⟨y :: zs, .cons hxy hzs, ?_⟩
      exact ((List.subperm_cons y).mpr hsub).trans List.perm_middle.symm.subperm

namespace Paired

theorem length_eq {R : α → β → Prop} {xs : List α} {ys : List β} (h : Paired R xs ys) :
    xs.length = ys.length := by
  obtain ⟨zs, hzs, hperm⟩ := h
  exact hzs.length_eq.trans hperm.length_eq

theorem exists_right {R : α → β → Prop} {xs : List α} {ys : List β} (h : Paired R xs ys)
    {x : α} (hx : x ∈ xs) : ∃ y ∈ ys, R x y := by
  obtain ⟨zs, hzs, hperm⟩ := h
  obtain ⟨y, hy, hxy⟩ := exists_of_forall₂ hzs hx
  exact ⟨y, hperm.mem_iff.mp hy, hxy⟩

theorem exists_left {R : α → β → Prop} {xs : List α} {ys : List β} (h : Paired R xs ys)
    {y : β} (hy : y ∈ ys) : ∃ x ∈ xs, R x y := by
  obtain ⟨zs, hzs, hperm⟩ := h
  exact exists_of_forall₂ hzs.flip (hperm.mem_iff.mpr hy)

theorem imp_of_mem {R S : α → β → Prop} {xs : List α} {ys : List β} (h : Paired R xs ys)
    (himp : ∀ x ∈ xs, ∀ y ∈ ys, R x y → S x y) : Paired S xs ys := by
  obtain ⟨zs, hzs, hperm⟩ := h
  exact ⟨zs, forall₂_of_mem (fun x hx y hy => himp x hx y (hperm.mem_iff.mp hy)) hzs, hperm⟩

theorem congr_of_mem {R S : α → β → Prop} {xs : List α} {ys : List β}
    (hiff : ∀ x ∈ xs, ∀ y ∈ ys, (R x y ↔ S x y)) : Paired R xs ys ↔ Paired S xs ys :=
  ⟨fun h => h.imp_of_mem fun x hx y hy => (hiff x hx y hy).mp,
    fun h => h.imp_of_mem fun x hx y hy => (hiff x hx y hy).mpr⟩

theorem map {S : γ → δ → Prop} {f : α → γ} {g : β → δ} {xs : List α} {ys : List β}
    (h : Paired (fun x y => S (f x) (g y)) xs ys) : Paired S (xs.map f) (ys.map g) := by
  obtain ⟨zs, hzs, hperm⟩ := h
  refine ⟨zs.map g, ?_, hperm.map g⟩
  rw [List.forall₂_map_left_iff, List.forall₂_map_right_iff]
  exact hzs

/-- A list without related members is paired with every list of its length in which its members
find partners: two members with a common partner would be related. -/
theorem of_find {R : α → α → Prop} {xs ys : List α} (hlength : xs.length = ys.length)
    (hfind : ∀ x ∈ xs, ∃ y ∈ ys, R x y) (hapart : xs.Pairwise fun x x' => ¬ R x x')
    (hback : ∀ x ∈ xs, ∀ y ∈ ys, R x y → R y x)
    (htrans : ∀ x ∈ xs, ∀ y z, R x y → R y z → R x z) : Paired R xs ys := by
  have hapart' : xs.Pairwise fun x x' => ∀ y ∈ ys, R x y → ¬ R x' y := by
    refine hapart.imp_of_mem fun {x x'} hx hx' hne y hy hxy hxy' => ?_
    exact hne (htrans x hx y x' hxy (hback x' hx' y hy hxy'))
  obtain ⟨zs, hzs, hsub⟩ := exists_subperm hfind hapart'
  exact ⟨zs, hzs, hsub.perm_of_length_le (Nat.le_of_eq (hlength.symm.trans hzs.length_eq))⟩

theorem find_back {R : α → α → Prop} {xs ys : List α} (h : Paired R xs ys)
    (hback : ∀ x ∈ xs, ∀ y ∈ ys, R x y → R y x) : ∀ y ∈ ys, ∃ x ∈ xs, R y x := by
  intro y hy
  obtain ⟨x, hx, hxy⟩ := h.exists_left hy
  exact ⟨x, hx, hback x hx y hy hxy⟩

end Paired
end ClaimCheck
