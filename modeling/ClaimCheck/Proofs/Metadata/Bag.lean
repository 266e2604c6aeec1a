import Mathlib.Data.List.Basic
import Mathlib.Data.List.Induction
import ClaimCheck.Metadata
import ClaimCheck.Proofs.Metadata.Builder
import ClaimCheck.Proofs.Value.Equality

namespace ClaimCheck

/-- The members of a list in the order in which they first stand there, none of them twice. -/
structure FirstOrder (all once : List String) : Prop where
  mem : ∀ name, name ∈ once ↔ name ∈ all
  ordered : once.Pairwise fun a b => all.idxOf a < all.idxOf b

theorem FirstOrder.nil : FirstOrder [] [] :=
  ⟨fun _ => .rfl, .nil⟩

theorem FirstOrder.append {all once : List String} (h : FirstOrder all once) (name : String) :
    FirstOrder (all ++ [name]) (if name ∈ once then once else once ++ [name]) := by
  -- a name that stood there before stands at the same place afterwards
  have hordered : once.Pairwise fun a b => (all ++ [name]).idxOf a < (all ++ [name]).idxOf b := by
    refine h.ordered.imp_of_mem fun ha hb hlt => ?_
    rwa [List.idxOf_append_of_mem ((h.mem _).mp ha), List.idxOf_append_of_mem ((h.mem _).mp hb)]
  split
  next hname =>
    refine ⟨fun other => ?_, hordered⟩
    rw [List.mem_append, List.mem_singleton, h.mem]
    constructor
    · exact .inl
    · rintro (hother | rfl)
      · exact hother
      · exact (h.mem other).mp hname
  next hname =>
    have hnew : name ∉ all := fun hold => hname ((h.mem name).mpr hold)
    refine ⟨fun other => by rw [List.mem_append, List.mem_append, h.mem], ?_⟩
    rw [List.pairwise_append]
    refine ⟨hordered, List.pairwise_singleton .., fun a ha b hb => ?_⟩
    rw [List.mem_singleton] at hb
    subst hb
    have hold : a ∈ all := (h.mem a).mp ha
    rw [List.idxOf_append_of_mem hold, List.idxOf_append_of_notMem hnew]
    exact Nat.lt_add_right _ (List.idxOf_lt_length_of_mem hold)

namespace Fields

/-- Fields with one more write. A name that is there keeps its place and takes the new value. -/
def put (fields : Fields) (name : String) (value : Value) : Fields :=
  match fields with
  | [] => [(name, value)]
  | (n, v) :: rest => if n = name then (n, value) :: rest else (n, v) :: put rest name value

/-- What is left of fields that are written one after another. -/
def lastWrites (writes : Fields) : Fields :=
  writes.foldl (fun fields write => put fields write.1 write.2) []

theorem get?_put (fields : Fields) (name other : String) (value : Value) :
    (put fields name value).get? other = if name = other then some value else fields.get? other := by
  induction fields with
  | nil => rw [put, get?_cons]
  | cons field rest ih =>
      obtain ⟨n, v⟩ := field
      rw [put]
      split
      next hn =>
        subst hn
        rw [get?_cons, get?_cons]
        split <;> rfl
      next hn =>
        rw [get?_cons, get?_cons, ih]
        by_cases hother : n = other
        · subst hother
          rw [if_pos rfl, if_neg (Ne.symm hn), if_pos rfl]
        · rw [if_neg hother, if_neg hother]

theorem names_put (fields : Fields) (name : String) (value : Value) :
    (put fields name value).map (·.1) =
      if name ∈ fields.map (·.1) then fields.map (·.1) else fields.map (·.1) ++ [name] := by
  induction fields with
  | nil => rfl
  | cons field rest ih =>
      obtain ⟨n, v⟩ := field
      rw [put]
      split
      next hn =>
        subst hn
        exact (if_pos List.mem_cons_self).symm
      next hn =>
        simp only [List.map_cons, List.mem_cons, or_iff_right (Ne.symm hn), ih]
        split <;> rfl

theorem lastWrites_concat (writes : Fields) (name : String) (value : Value) :
    lastWrites (writes ++ [(name, value)]) = put (lastWrites writes) name value :=
  List.foldl_concat ..

theorem get?_lastWrites (writes : Fields) (name : String) :
    (lastWrites writes).get? name = Fields.get? writes.reverse name := by
  induction writes using List.reverseRecOn with
  | nil => rfl
  | append_singleton writes write ih =>
      rw [lastWrites_concat, get?_put, ih, List.reverse_concat, get?_cons]

theorem firstOrder_lastWrites (writes : Fields) :
    FirstOrder (writes.map (·.1)) ((lastWrites writes).map (·.1)) := by
  induction writes using List.reverseRecOn with
  | nil => exact .nil
  | append_singleton writes write ih =>
      rw [lastWrites_concat, names_put, List.map_append]
      exact ih.append write.1

theorem get?_eq_none_iff {fields : Fields} {name : String} :
    fields.get? name = none ↔ name ∉ fields.map (·.1) := by
  induction fields with
  | nil => exact ⟨fun _ => List.not_mem_nil, fun _ => rfl⟩
  | cons field rest ih =>
      rw [get?_cons, List.map_cons, List.mem_cons, not_or, ← ih]
      split
      next h => exact ⟨nofun, fun hne => absurd h.symm hne.1⟩
      next h => exact ⟨fun hrest => ⟨Ne.symm h, hrest⟩, And.right⟩

/-- Fields as the entries of a mapping. -/
def entries (fields : Fields) : List (Value × Value) :=
  fields.map fun field => (.text field.1, field.2)

theorem insertEntry_entries (fields : Fields) (name : String) (value : Value) :
    Value.insertEntry (entries fields) (.text name) value = entries (put fields name value) := by
  induction fields with
  | nil => rfl
  | cons field rest ih =>
      obtain ⟨n, v⟩ := field
      simp only [entries, List.map_cons, Value.insertEntry, put, Value.equals_text_iff] at ih ⊢
      split
      · rfl
      · rw [ih, List.map_cons]

theorem lastEntries_entries (writes : Fields) :
    Value.lastEntries (entries writes) = entries (lastWrites writes) := by
  induction writes using List.reverseRecOn with
  | nil => rfl
  | append_singleton writes write ih =>
      rw [lastWrites_concat, ← insertEntry_entries, ← ih, entries, List.map_append]
      exact List.foldl_concat ..

theorem mapping_entries (fields : Fields) : Reader.mapping (.map (entries fields)) = .ok fields :=
  Reader.mapping_ofFields fields

end Fields

/-- Entries whose keys are all texts. -/
theorem Value.entries_textEntries {entries : List (Value × Value)}
    (h : ∀ entry ∈ entries, ∃ key, entry.1 = .text key) :
    Fields.entries (textEntries entries) = entries := by
  induction entries with
  | nil => rfl
  | cons entry rest ih =>
      obtain ⟨⟨key, hkey⟩, hrest⟩ := List.forall_mem_cons.mp h
      obtain ⟨k, v⟩ := entry
      cases hkey
      exact congrArg ((.text key, v) :: ·) (ih hrest)

end ClaimCheck
