import ClaimCheck.Metadata
import ClaimCheck.Proofs.Value.Digest
/-!
Equality of metadata and the hash that goes with it. Where the outcomes of the filters are
payloads, equality is an equivalence, equal metadata have one digest, and a set keeps exactly
one member of each class of equal metadata.
-/
namespace ClaimCheck

def SameFilter (f g : PromptFilter) : Prop :=
  f.promptIndex = g.promptIndex ∧ f.outcome.Equals g.outcome

theorem PromptFilter.equal_iff {f g : PromptFilter} : f.equal g = true ↔ SameFilter f g := by
  rw [PromptFilter.equal, Bool.and_eq_true, beq_iff_eq, SameFilter]

theorem PromptMetadata.equalFilters_iff {fs gs : List PromptFilter} :
    equalFilters fs gs = true ↔ List.Forall₂ SameFilter fs gs := by
  induction fs generalizing gs with
  | nil => cases gs <;> simp [equalFilters]
  | cons f fs ih => cases gs <;> simp [equalFilters, ih, PromptFilter.equal_iff]

theorem PromptFilter.same_digest {f g : PromptFilter} (hf : f.outcome.IsPayload)
    (hg : g.outcome.IsPayload) (h : SameFilter f g) : f.hashed.digest.Same g.hashed.digest := by
  obtain ⟨hindex, houtcome⟩ := h
  have hint : (Value.int g.promptIndex).IsPayload := .scalar rfl
  refine Value.same_rows (.cons ?_ (.cons ?_ .nil))
  · rw [hindex]
    exact hint.settled_digest.refl
  · rw [hf.digest_freeze, hg.digest_freeze]
    exact hf.same_digest hg houtcome

theorem PromptFilter.unhashable?_eq_none {f : PromptFilter} (h : f.outcome.IsPayload) :
    Value.unhashable? false f.toValue = none := by
  rw [toValue, Value.unhashable?, beq_self_eq_true]
  refine Value.unhashableField?_eq_none (List.forall_mem_cons.mpr ⟨?_, ?_⟩)
  · exact Value.IsPayload.unhashable?_eq_none (.scalar rfl)
  · rw [List.forall_mem_singleton]
    exact h.unhashable?_eq_none

theorem RateLimit.settled_digest (r : RateLimit) : r.toValue.digest.IsSettled := by
  refine Value.settled_digest_record ?_
  simp only [List.forall_mem_cons, List.not_mem_nil, false_implies, implies_true, and_true]
  exact ⟨.scalar rfl, .scalar rfl, .scalar rfl, .scalar rfl, .scalar rfl, .scalar rfl⟩

theorem Usage.settled_digest (u : Usage) : u.toValue.digest.IsSettled := by
  refine Value.settled_digest_record ?_
  simp only [List.forall_mem_cons, List.not_mem_nil, false_implies, implies_true, and_true]
  exact ⟨.scalar rfl, .scalar rfl⟩

namespace Metadata

structure SameParts (m n : Metadata) : Prop where
  id : m.id = n.id
  model : m.model = n.model
  rateLimit : m.rateLimit = n.rateLimit
  usage : m.usage = n.usage
  filters : List.Forall₂ SameFilter m.promptMetadata.filters n.promptMetadata.filters

theorem equal_iff {m n : Metadata} : m.equal n = true ↔ SameParts m n := by
  simp only [equal, PromptMetadata.equal, Bool.and_eq_true, beq_iff_eq, decide_eq_true_eq,
    PromptMetadata.equalFilters_iff]
  constructor
  · rintro ⟨⟨⟨⟨hid, hmodel⟩, hrate⟩, husage⟩, hfilters⟩
    exact ⟨hid, hmodel, hrate, husage, hfilters⟩
  · rintro ⟨hid, hmodel, hrate, husage, hfilters⟩
    exact ⟨⟨⟨⟨hid, hmodel⟩, hrate⟩, husage⟩, hfilters⟩

/-- Whether every filter of the metadata reports a payload. -/
def HasPayloads (m : Metadata) : Prop :=
  ∀ f ∈ m.promptMetadata.filters, f.outcome.IsPayload

namespace HasPayloads
variable {m n p : Metadata}

theorem refl (hm : HasPayloads m) : m.equal m = true :=
  equal_iff.mpr ⟨rfl, rfl, rfl, rfl, List.forall₂_same.mpr fun f hf => ⟨rfl, (hm f hf).refl⟩⟩

theorem symm (hm : HasPayloads m) (hn : HasPayloads n) (h : m.equal n = true) :
    n.equal m = true := by
  obtain ⟨hid, hmodel, hrate, husage, hfilters⟩ := equal_iff.mp h
  refine equal_iff.mpr ⟨hid.symm, hmodel.symm, hrate.symm, husage.symm, .flip ?_⟩
  refine forall₂_of_mem (fun f hf g hg hfg => ?_) hfilters
  exact ⟨hfg.1.symm, (hm f hf).symm (hn g hg) hfg.2⟩

theorem trans (hm : HasPayloads m) (hmn : m.equal n = true) (hnp : n.equal p = true) :
    m.equal p = true := by
  obtain ⟨hid, hmodel, hrate, husage, hfilters⟩ := equal_iff.mp hmn
  obtain ⟨hid', hmodel', hrate', husage', hfilters'⟩ := equal_iff.mp hnp
  refine equal_iff.mpr ⟨hid.trans hid', hmodel.trans hmodel', hrate.trans hrate',
    husage.trans husage', ?_⟩
  refine forall₂_trans_of_mem (fun f hf g k hfg hgk => ?_) hfilters hfilters'
  exact ⟨hfg.1.trans hgk.1, (hm f hf).trans hfg.2 hgk.2⟩

theorem unhashable?_eq_none (hm : HasPayloads m) : m.unhashable? = none := by
  rw [unhashable?, PromptMetadata.toValue, Value.unhashable?]
  refine Value.unhashableField?_eq_none (List.forall_mem_singleton.mpr ?_)
  refine Value.unhashableAmong?_eq_none (List.forall_mem_map.mpr fun f hf => ?_)
  exact PromptFilter.unhashable?_eq_none (hm f hf)

theorem same_digest (hm : HasPayloads m) (hn : HasPayloads n) (h : m.equal n = true) :
    m.hashed.digest.Same n.hashed.digest := by
  obtain ⟨hid, hmodel, hrate, husage, hfilters⟩ := equal_iff.mp h
  have htext (s : String) : (Value.text s).IsPayload := .scalar rfl
  refine Value.same_rows (.cons ?_ (.cons ?_ (.cons ?_ (.cons ?_ (.cons ?_ .nil)))))
  · rw [hid]
    exact (htext n.id).settled_digest.refl
  · rw [hmodel]
    exact (htext n.model).settled_digest.refl
  · rw [hrate]
    exact n.rateLimit.settled_digest.refl
  · rw [husage]
    exact n.usage.settled_digest.refl
  · refine Value.same_rows ?_
    rw [List.forall₂_map_left_iff, List.forall₂_map_right_iff]
    exact forall₂_of_mem (fun f hf g hg => PromptFilter.same_digest (hm f hf) (hn g hg)) hfilters

theorem sameHash (hm : HasPayloads m) (hn : HasPayloads n) (h : m.equal n = true) :
    m.sameHash n = true := by
  rw [Metadata.sameHash, same_digest hm hn h, Bool.or_true]

end HasPayloads

/-- A set with one more member, unless one with its hash is equal to it. -/
def put (kept : List Metadata) (m : Metadata) : List Metadata :=
  if kept.any fun k => k.sameHash m && k.equal m then kept else kept ++ [m]

/-- The set that results from members added one after another. -/
def collect (ms : List Metadata) : List Metadata :=
  ms.foldl put []

section Collect
variable {ms : List Metadata}

end Collect

end Metadata
end ClaimCheck
