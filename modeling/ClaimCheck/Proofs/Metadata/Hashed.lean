import ClaimCheck.Proofs.Value.Frozen
import ClaimCheck.Proofs.Metadata.Equality
/-!
What the hash of metadata looks at. Where the filters report what can be written in JSON, the
hashed parts of two metadata are equal exactly if the metadata are.
-/
namespace ClaimCheck

theorem RateLimit.equals_toValue_iff {r s : RateLimit} : r.toValue.Equals s.toValue ↔ r = s := by
  rw [toValue, toValue, Value.equals_record_iff]
  cases r
  cases s
  simp only [List.forall₂_cons, List.forall₂_nil_left_iff, Value.equals_int_iff,
    Value.equals_duration_iff, true_and, and_true, RateLimit.mk.injEq]

theorem Usage.equals_toValue_iff {u v : Usage} : u.toValue.Equals v.toValue ↔ u = v := by
  rw [toValue, toValue, Value.equals_record_iff]
  cases u
  cases v
  simp only [List.forall₂_cons, List.forall₂_nil_left_iff, Value.equals_int_iff, true_and,
    and_true, Usage.mk.injEq]

theorem PromptFilter.equals_hashed_iff {f g : PromptFilter} (hf : f.outcome.IsJson)
    (hg : g.outcome.IsJson) : f.hashed.Equals g.hashed ↔ SameFilter f g := by
  rw [hashed, hashed, Value.equals_pair_iff, Value.equals_int_iff, hf.equals_freeze_iff hg,
    SameFilter]

theorem PromptMetadata.equals_hashed_iff {p q : PromptMetadata}
    (hp : ∀ f ∈ p.filters, f.outcome.IsJson) (hq : ∀ g ∈ q.filters, g.outcome.IsJson) :
    p.hashed.Equals q.hashed ↔ List.Forall₂ SameFilter p.filters q.filters := by
  simp only [hashed, Value.equals_tuple_iff, Value.tuple.injEq, exists_eq_left',
    List.forall₂_map_left_iff, List.forall₂_map_right_iff]
  exact forall₂_congr_of_mem fun f hf g hg => PromptFilter.equals_hashed_iff (hp f hf) (hq g hg)

namespace Metadata

/-- Whether every filter of the metadata reports what can be written in JSON. -/
def HasJson (m : Metadata) : Prop :=
  ∀ f ∈ m.promptMetadata.filters, f.outcome.IsJson

theorem equals_hashed_iff {m n : Metadata} (hm : m.HasJson) (hn : n.HasJson) :
    m.hashed.Equals n.hashed ↔ SameParts m n := by
  simp only [hashed, Value.equals_tuple_iff, Value.tuple.injEq, exists_eq_left',
    List.forall₂_cons, List.forall₂_nil_left_iff, and_true, Value.equals_text_iff,
    RateLimit.equals_toValue_iff, Usage.equals_toValue_iff,
    PromptMetadata.equals_hashed_iff hm hn]
  constructor
  · rintro ⟨hid, hmodel, hrate, husage, hfilters⟩
    exact ⟨hid, hmodel, hrate, husage, hfilters⟩
  · rintro ⟨hid, hmodel, hrate, husage, hfilters⟩
    exact ⟨hid, hmodel, hrate, husage, hfilters⟩

/-- Freezing loses nothing of what can be written in JSON. No two entries of a mapping become one,
frozen payloads are equal exactly if the payloads are, that is if they are alike, and the hashed
parts of metadata are equal exactly if the metadata are. -/
theorem hashed_parts_lose_nothing :
    (∀ es : List (Value × Value), Value.IsJson (.map es) →
      Value.freeze (.map es) = Value.setOf (es.map Value.frozenEntry)) ∧
    (∀ p q : Value, p.IsJson → q.IsJson →
      (p.freeze.Equals q.freeze ↔ p.Equals q) ∧ (p.Equals q ↔ Value.Alike p q)) ∧
    ∀ m n : Metadata, m.HasJson → n.HasJson → (m.hashed.Equals n.hashed ↔ m.equal n = true) := by
  refine ⟨fun es => Value.IsJson.freeze_map_eq_setOf, fun p q hp hq => ⟨?_, ?_⟩, fun m n hm hn => ?_⟩
  · exact hp.equals_freeze_iff hq
  · exact hp.isPayload.equals_iff_alike hq.isPayload
  · rw [equals_hashed_iff hm hn, equal_iff]

/-- What a filter says of hatred, next to some details, in this order or in the other one. -/
def detailed (swapped : Bool) (filtered details : Value) : Value :=
  let entries := [(.text "hate", .map [(.text "filtered", filtered)]),
    (.text "details", .list [details, .null])]
  .map (if swapped then entries.reverse else entries)

theorem isJson_entries {name other : String} {value value' : Value} (hne : name ≠ other)
    (h : value.IsJson) (h' : value'.IsJson) :
    Value.IsJson (.map [(.text name, value), (.text other, value')]) := by
  refine .map ?_ ?_ ?_
  · exact List.forall_mem_cons.mpr ⟨rfl, List.forall_mem_singleton.mpr rfl⟩
  · exact List.forall_mem_cons.mpr ⟨h, List.forall_mem_singleton.mpr h'⟩
  · rw [List.pairwise_pair]
    exact fun heq => hne (Value.text.inj heq)

theorem isJson_detailed (swapped : Bool) {filtered details : Value} (hfiltered : filtered.IsJson)
    (hdetails : details.IsJson) : (detailed swapped filtered details).IsJson := by
  have hhate : Value.IsJson (.map [(.text "filtered", filtered)]) :=
    .map (List.forall_mem_singleton.mpr rfl) (List.forall_mem_singleton.mpr hfiltered)
      (List.pairwise_singleton _ _)
  have hlist : Value.IsJson (.list [details, .null]) := by
    refine .list (List.forall_mem_cons.mpr ⟨hdetails, List.forall_mem_singleton.mpr ?_⟩)
    exact .scalar rfl
  cases swapped with
  | false => exact isJson_entries (by decide) hhate hlist
  | true => exact isJson_entries (by decide) hlist hhate

/-- Frozen, a report is still equal to one with its entries in the other order and a truth value in
the place of a number, and still differs from one with an empty list in the place of an empty
mapping. -/
theorem empty_list_is_not_empty_mapping :
    let counted := detailed false (.int 1) (.map [])
    let marked := detailed true (.bool true) (.map [])
    let listed := detailed false (.int 1) (.list [])
    let told (outcome : Value) : Metadata := { empty with promptMetadata := ⟨[⟨0, outcome⟩]⟩ }
    counted.IsJson ∧ marked.IsJson ∧ listed.IsJson ∧ counted.freeze.Equals marked.freeze ∧
      ¬ counted.freeze.Equals listed.freeze ∧ (told counted).hashed.Equals (told marked).hashed ∧
      ¬ (told counted).hashed.Equals (told listed).hashed ∧
      counted.freeze = Value.setOf
        [.tuple [.text "hate", .set [.tuple [.text "filtered", .int 1]]],
          .tuple [.text "details", .tuple [.set [], .null]]] := by
  intro counted marked listed told
  have hmap : Value.IsJson (.map []) := .map nofun nofun .nil
  have hcounted : counted.IsJson := isJson_detailed _ (.scalar rfl) hmap
  have hmarked : marked.IsJson := isJson_detailed _ (.scalar rfl) hmap
  have hlisted : listed.IsJson := isJson_detailed _ (.scalar rfl) (.list nofun)
  have htold {outcome : Value} (h : outcome.IsJson) : (told outcome).HasJson :=
    List.forall_mem_singleton.mpr h
  obtain ⟨hset, hfreeze, hhashed⟩ := hashed_parts_lose_nothing
  refine ⟨hcounted, hmarked, hlisted, ?_, ?_, ?_, ?_, hset _ hcounted⟩
  · exact (hfreeze _ _ hcounted hmarked).1.mpr (by decide +kernel)
  · exact (hfreeze _ _ hcounted hlisted).1.not.mpr (by decide +kernel)
  · exact (hhashed _ _ (htold hcounted) (htold hmarked)).mpr (by decide +kernel)
  · exact (hhashed _ _ (htold hcounted) (htold hlisted)).not.mpr (by decide +kernel)

end Metadata
end ClaimCheck
