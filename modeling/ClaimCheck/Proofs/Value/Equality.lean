import ClaimCheck.Value.Equality
import ClaimCheck.Proofs.Pairing
/-!
Equality of payloads: what a provider nests of mappings, sequences and sets above scalars. On
these it is an equivalence. Scalars are equal if they stand for the same thing, sequences member
by member, and mappings and sets if their entries can be paired off.
-/
namespace ClaimCheck

/-- The point in time that a moment names, or the moment itself. -/
def Moment.point (m : Moment) : Int ⊕ Moment :=
  match m.instant? with
  | some micros => .inl micros
  | none => .inr m

namespace Value

/-- What equality looks at in a scalar. A number that was not one when it was handed over is
told by its mark, any other has no key. -/
inductive Key where
  | number (x : Magnitude)
  | null
  | mark (n : Nat)
  | text (s : String)
  | torn (t : Text.Torn)
  | bytes (bs : List UInt8)
  | duration (d : Duration)
  | moment (point : Int ⊕ Moment)
  deriving DecidableEq

def key? (value : Value) : Option Key :=
  match value.magnitude? with
  | some x => some (.number x)
  | none =>
    match value with
    | .null => some .null
    | .nan n => some (.mark n)
    | .text s => some (.text s)
    | .torn t => some (.torn t)
    | .bytes bs => some (.bytes bs)
    | .duration d => some (.duration d)
    | .moment m => some (.moment m.point)
    | _ => none

theorem momentEqual_iff (m n : Moment) : momentEqual m n = true ↔ m.point = n.point := by
  unfold momentEqual Moment.point
  cases m.instant? <;> cases n.instant? <;> simp

theorem scalarEqual_iff {a b : Value} :
    scalarEqual a b = true ↔ a.key? = b.key? ∧ a.key?.isSome := by
  unfold scalarEqual key?
  cases ha : a.magnitude? <;> cases hb : b.magnitude?
  · cases a <;> cases b <;> simp [momentEqual_iff]
  · cases a <;> simp
  · cases b <;> simp
  · simp

abbrev Equals (a b : Value) : Prop :=
  equal a b = true

def EqualEntries (e f : Value × Value) : Prop :=
  Equals e.1 f.1 ∧ Equals e.2 f.2

/-- Scalars and what is nested above them. Members of a set and keys of a mapping are told
apart by equality. -/
inductive IsPayload : Value → Prop where
  | scalar {v : Value} (hkey : v.key?.isSome) : IsPayload v
  | list {xs : List Value} (hmembers : ∀ x ∈ xs, IsPayload x) : IsPayload (.list xs)
  | tuple {xs : List Value} (hmembers : ∀ x ∈ xs, IsPayload x) : IsPayload (.tuple xs)
  | set {xs : List Value} (hmembers : ∀ x ∈ xs, IsPayload x)
      (hapart : xs.Pairwise fun x y => ¬ Equals x y) : IsPayload (.set xs)
  | map {es : List (Value × Value)} (hkeys : ∀ e ∈ es, IsPayload e.1)
      (hvalues : ∀ e ∈ es, IsPayload e.2)
      (hapart : es.Pairwise fun e f => ¬ Equals e.1 f.1) : IsPayload (.map es)

theorem IsPayload.of_list {xs : List Value} (h : IsPayload (.list xs)) :
    ∀ x ∈ xs, IsPayload x := by
  cases h with
  | scalar hkey => cases hkey
  | list hmembers => exact hmembers

theorem IsPayload.of_tuple {xs : List Value} (h : IsPayload (.tuple xs)) :
    ∀ x ∈ xs, IsPayload x := by
  cases h with
  | scalar hkey => cases hkey
  | tuple hmembers => exact hmembers

theorem IsPayload.of_set {xs : List Value} (h : IsPayload (.set xs)) :
    (∀ x ∈ xs, IsPayload x) ∧ xs.Pairwise fun x y => ¬ Equals x y := by
  cases h with
  | scalar hkey => cases hkey
  | set hmembers hapart => exact ⟨hmembers, hapart⟩

theorem IsPayload.of_map {es : List (Value × Value)} (h : IsPayload (.map es)) :
    (∀ e ∈ es, IsPayload e.1) ∧ (∀ e ∈ es, IsPayload e.2) ∧
      es.Pairwise fun e f => ¬ Equals e.1 f.1 := by
  cases h with
  | scalar hkey => cases hkey
  | map hkeys hvalues hapart => exact ⟨hkeys, hvalues, hapart⟩

section Equal
variable {a b c : Value} {xs ys : List Value} {es fs : List (Value × Value)}

theorem equals_iff_of_key (h : a.key?.isSome) : Equals a b ↔ a.key? = b.key? := by
  have hequal : equal a b = scalarEqual a b := by
    cases a with
    | list | tuple | set | map | record => cases h
    | _ => simp only [equal]
  rw [Equals, hequal, scalarEqual_iff, and_iff_left h]

theorem equals_int_iff {m n : Int} : Equals (.int m) (.int n) ↔ m = n := by
  rw [equals_iff_of_key rfl]
  simp only [key?, magnitude?, Option.some.injEq, Key.number.injEq, Magnitude.finite.injEq,
    Rat.intCast_inj]

theorem equals_text_iff {s t : String} : Equals (.text s) (.text t) ↔ s = t := by
  rw [equals_iff_of_key rfl]
  simp only [key?, magnitude?, Option.some.injEq, Key.text.injEq]

theorem equals_torn_iff {t u : Text.Torn} : Equals (.torn t) (.torn u) ↔ t = u := by
  rw [equals_iff_of_key rfl]
  simp only [key?, magnitude?, Option.some.injEq, Key.torn.injEq]

theorem equals_duration_iff {d e : Duration} : Equals (.duration d) (.duration e) ↔ d = e := by
  rw [equals_iff_of_key rfl]
  simp only [key?, magnitude?, Option.some.injEq, Key.duration.injEq]

theorem equalAll_iff : equalAll xs ys = true ↔ List.Forall₂ Equals xs ys := by
  induction xs generalizing ys with
  | nil => cases ys <;> simp [equalAll]
  | cons x xs ih => cases ys <;> simp [equalAll, ih]

theorem subset_iff : subset xs ys = true ↔ ∀ x ∈ xs, ∃ y ∈ ys, Equals x y := by
  induction xs with
  | nil => simp [subset]
  | cons x xs ih => simp [subset, ih]

theorem entriesIn_iff :
    entriesIn es fs = true ↔ ∀ e ∈ es, ∃ f ∈ fs, EqualEntries e f := by
  induction es with
  | nil => simp [entriesIn]
  | cons e es ih =>
      obtain ⟨key, value⟩ := e
      simp only [entriesIn, Bool.and_eq_true, ih, List.any_eq_true, List.forall_mem_cons,
        EqualEntries]

theorem equals_list_iff :
    Equals (.list xs) b ↔ ∃ ys, b = .list ys ∧ List.Forall₂ Equals xs ys := by
  cases b <;> simp [Equals, equal, equalAll_iff]

theorem equals_tuple_iff :
    Equals (.tuple xs) b ↔ ∃ ys, b = .tuple ys ∧ List.Forall₂ Equals xs ys := by
  cases b <;> simp [Equals, equal, equalAll_iff]

theorem equals_set_iff :
    Equals (.set xs) b ↔ ∃ ys, b = .set ys ∧ xs.length = ys.length ∧
      ∀ x ∈ xs, ∃ y ∈ ys, Equals x y := by
  cases b <;> simp [Equals, equal, subset_iff]

theorem equals_map_iff :
    Equals (.map es) b ↔ ∃ fs, b = .map fs ∧ es.length = fs.length ∧
      ∀ e ∈ es, ∃ f ∈ fs, EqualEntries e f := by
  cases b <;> simp [Equals, equal, entriesIn_iff]

theorem equalFields_iff {fields others : Fields} :
    equalFields fields others = true ↔
      List.Forall₂ (fun f g => f.1 = g.1 ∧ Equals f.2 g.2) fields others := by
  induction fields generalizing others with
  | nil => cases others <;> simp [equalFields]
  | cons field fields ih =>
      obtain ⟨name, value⟩ := field
      cases others <;> simp [equalFields, ih, and_assoc]

theorem equals_record_iff {name text text' : String} {fields others : Fields} :
    Equals (.record name text fields) (.record name text' others) ↔
      List.Forall₂ (fun f g => f.1 = g.1 ∧ Equals f.2 g.2) fields others := by
  rw [Equals, equal, beq_self_eq_true, Bool.true_and, equalFields_iff]

end Equal

namespace IsPayload
variable {a b c : Value}

theorem refl (ha : IsPayload a) : Equals a a := by
  induction ha with
  | scalar hkey => exact (equals_iff_of_key hkey).mpr rfl
  | list _ ih => exact equals_list_iff.mpr ⟨_, rfl, List.forall₂_same.mpr ih⟩
  | tuple _ ih => exact equals_tuple_iff.mpr ⟨_, rfl, List.forall₂_same.mpr ih⟩
  | set _ _ ih => exact equals_set_iff.mpr ⟨_, rfl, rfl, fun x hx => ⟨x, hx, ih x hx⟩⟩
  | map _ _ _ ihkey ihvalue =>
      exact equals_map_iff.mpr ⟨_, rfl, rfl, fun e he => ⟨e, he, ihkey e he, ihvalue e he⟩⟩

theorem trans (ha : IsPayload a) (hab : Equals a b) (hbc : Equals b c) : Equals a c := by
  induction ha generalizing b c with
  | scalar hkey =>
      rw [equals_iff_of_key hkey] at hab ⊢
      rw [hab] at hkey ⊢
      exact (equals_iff_of_key hkey).mp hbc
  | list _ ih =>
      obtain ⟨ys, rfl, hxy⟩ := equals_list_iff.mp hab
      obtain ⟨zs, rfl, hyz⟩ := equals_list_iff.mp hbc
      refine equals_list_iff.mpr ⟨zs, rfl, ?_⟩
      exact forall₂_trans_of_mem (fun x hx y z => ih x hx) hxy hyz
  | tuple _ ih =>
      obtain ⟨ys, rfl, hxy⟩ := equals_tuple_iff.mp hab
      obtain ⟨zs, rfl, hyz⟩ := equals_tuple_iff.mp hbc
      refine equals_tuple_iff.mpr ⟨zs, rfl, ?_⟩
      exact forall₂_trans_of_mem (fun x hx y z => ih x hx) hxy hyz
  | set _ _ ih =>
      obtain ⟨ys, rfl, hlength, hxy⟩ := equals_set_iff.mp hab
      obtain ⟨zs, rfl, hlength', hyz⟩ := equals_set_iff.mp hbc
      refine equals_set_iff.mpr ⟨zs, rfl, hlength.trans hlength', ?_⟩
      exact find_trans_of_mem (fun x hx y z => ih x hx) hxy hyz
  | map _ _ _ ihkey ihvalue =>
      obtain ⟨fs, rfl, hlength, hef⟩ := equals_map_iff.mp hab
      obtain ⟨gs, rfl, hlength', hfg⟩ := equals_map_iff.mp hbc
      refine equals_map_iff.mpr ⟨gs, rfl, hlength.trans hlength', ?_⟩
      refine find_trans_of_mem (fun e he f g hef hfg => ?_) hef hfg
      exact ⟨ihkey e he hef.1 hfg.1, ihvalue e he hef.2 hfg.2⟩

theorem trans_entries {es : List (Value × Value)} (hkeys : ∀ e ∈ es, IsPayload e.1)
    (hvalues : ∀ e ∈ es, IsPayload e.2) :
    ∀ e ∈ es, ∀ f g, EqualEntries e f → EqualEntries f g → EqualEntries e g :=
  fun e he _ _ hef hfg =>
    ⟨(hkeys e he).trans hef.1 hfg.1, (hvalues e he).trans hef.2 hfg.2⟩

theorem symm (ha : IsPayload a) (hb : IsPayload b) (hab : Equals a b) : Equals b a := by
  induction ha generalizing b with
  | scalar hkey =>
      rw [equals_iff_of_key hkey] at hab
      rw [hab] at hkey
      exact (equals_iff_of_key hkey).mpr hab.symm
  | list _ ih =>
      obtain ⟨ys, rfl, hxy⟩ := equals_list_iff.mp hab
      have hback := forall₂_of_mem (fun x hx y hy => ih x hx (hb.of_list y hy)) hxy
      exact equals_list_iff.mpr ⟨_, rfl, hback.flip⟩
  | tuple _ ih =>
      obtain ⟨ys, rfl, hxy⟩ := equals_tuple_iff.mp hab
      have hback := forall₂_of_mem (fun x hx y hy => ih x hx (hb.of_tuple y hy)) hxy
      exact equals_tuple_iff.mpr ⟨_, rfl, hback.flip⟩
  | set hxs hapart ih =>
      obtain ⟨ys, rfl, hlength, hfind⟩ := equals_set_iff.mp hab
      have hback := fun x hx y hy => ih x hx (hb.of_set.1 y hy)
      have hpaired := Paired.of_find hlength hfind hapart hback fun x hx _ _ => (hxs x hx).trans
      exact equals_set_iff.mpr ⟨_, rfl, hlength.symm, hpaired.find_back hback⟩
  | @map es hkeys hvalues hapart ihkey ihvalue =>
      obtain ⟨fs, rfl, hlength, hfind⟩ := equals_map_iff.mp hab
      obtain ⟨hkeys', hvalues', _⟩ := hb.of_map
      have hback : ∀ e ∈ es, ∀ f ∈ fs, EqualEntries e f → EqualEntries f e := fun e he f hf h =>
        ⟨ihkey e he (hkeys' f hf) h.1, ihvalue e he (hvalues' f hf) h.2⟩
      have hpaired := Paired.of_find hlength hfind (hapart.imp fun hne h => hne h.1) hback
        (trans_entries hkeys hvalues)
      exact equals_map_iff.mpr ⟨_, rfl, hlength.symm, hpaired.find_back hback⟩

theorem equals_set_iff_paired {xs : List Value} (hxs : IsPayload (.set xs))
    (hb : IsPayload b) : Equals (.set xs) b ↔ ∃ ys, b = .set ys ∧ Paired Equals xs ys := by
  obtain ⟨hmembers, hapart⟩ := hxs.of_set
  rw [equals_set_iff]
  constructor
  · rintro ⟨ys, rfl, hlength, hfind⟩
    have hback := fun x hx y hy => (hmembers x hx).symm (hb.of_set.1 y hy)
    have htrans := fun x hx y z => (hmembers x hx).trans (b := y) (c := z)
    exact ⟨ys, rfl, .of_find hlength hfind hapart hback htrans⟩
  · rintro ⟨ys, rfl, hpaired⟩
    exact ⟨ys, rfl, hpaired.length_eq, fun x hx => hpaired.exists_right hx⟩

theorem equals_map_iff_paired {es : List (Value × Value)} (hes : IsPayload (.map es))
    (hb : IsPayload b) : Equals (.map es) b ↔ ∃ fs, b = .map fs ∧ Paired EqualEntries es fs := by
  obtain ⟨hkeys, hvalues, hapart⟩ := hes.of_map
  rw [equals_map_iff]
  constructor
  · rintro ⟨fs, rfl, hlength, hfind⟩
    obtain ⟨hkeys', hvalues', _⟩ := hb.of_map
    have hback : ∀ e ∈ es, ∀ f ∈ fs, EqualEntries e f → EqualEntries f e := fun e he f hf h =>
      ⟨(hkeys e he).symm (hkeys' f hf) h.1, (hvalues e he).symm (hvalues' f hf) h.2⟩
    exact ⟨fs, rfl, .of_find hlength hfind (hapart.imp fun hne h => hne h.1) hback
      (trans_entries hkeys hvalues)⟩
  · rintro ⟨fs, rfl, hpaired⟩
    exact ⟨fs, rfl, hpaired.length_eq, fun e he => hpaired.exists_right he⟩

end IsPayload

/-- Equality of payloads, told without the program: scalars by what they stand for, sequences
of one kind member by member, sets and mappings in whatever order they are given. -/
inductive Alike : Value → Value → Prop where
  | scalar {a b : Value} {k : Key} (hleft : a.key? = some k) (hright : b.key? = some k) :
      Alike a b
  | list {xs ys : List Value} (hmembers : List.Forall₂ Alike xs ys) : Alike (.list xs) (.list ys)
  | tuple {xs ys : List Value} (hmembers : List.Forall₂ Alike xs ys) :
      Alike (.tuple xs) (.tuple ys)
  | set {xs ys zs : List Value} (hmembers : List.Forall₂ Alike xs zs) (horder : zs.Perm ys) :
      Alike (.set xs) (.set ys)
  | map {es fs gs : List (Value × Value)}
      (hkeys : List.Forall₂ Alike (es.map Prod.fst) (gs.map Prod.fst))
      (hvalues : List.Forall₂ Alike (es.map Prod.snd) (gs.map Prod.snd)) (horder : gs.Perm fs) :
      Alike (.map es) (.map fs)

section Alike
variable {a b : Value} {xs : List Value} {es : List (Value × Value)}

def AlikeEntries (e f : Value × Value) : Prop :=
  Alike e.1 f.1 ∧ Alike e.2 f.2

theorem alike_iff_of_key (h : a.key?.isSome) : Alike a b ↔ a.key? = b.key? := by
  constructor
  · intro halike
    cases halike with
    | scalar hleft hright => exact hleft.trans hright.symm
    | _ => cases h
  · intro hkeys
    obtain ⟨k, hk⟩ := Option.isSome_iff_exists.mp h
    exact .scalar hk (hkeys.symm.trans hk)

theorem alike_list_iff : Alike (.list xs) b ↔ ∃ ys, b = .list ys ∧ List.Forall₂ Alike xs ys := by
  constructor
  · intro h
    cases h with
    | scalar hleft => cases hleft
    | list hmembers => exact ⟨_, rfl, hmembers⟩
  · rintro ⟨ys, rfl, hmembers⟩
    exact .list hmembers

theorem alike_tuple_iff :
    Alike (.tuple xs) b ↔ ∃ ys, b = .tuple ys ∧ List.Forall₂ Alike xs ys := by
  constructor
  · intro h
    cases h with
    | scalar hleft => cases hleft
    | tuple hmembers => exact ⟨_, rfl, hmembers⟩
  · rintro ⟨ys, rfl, hmembers⟩
    exact .tuple hmembers

theorem alike_set_iff : Alike (.set xs) b ↔ ∃ ys, b = .set ys ∧ Paired Alike xs ys := by
  constructor
  · intro h
    cases h with
    | scalar hleft => cases hleft
    | set hmembers horder => exact ⟨_, rfl, _, hmembers, horder⟩
  · rintro ⟨ys, rfl, zs, hmembers, horder⟩
    exact .set hmembers horder

theorem alike_map_iff : Alike (.map es) b ↔ ∃ fs, b = .map fs ∧ Paired AlikeEntries es fs := by
  constructor
  · intro h
    cases h with
    | scalar hleft => cases hleft
    | map hkeys hvalues horder =>
        rw [List.forall₂_map_left_iff, List.forall₂_map_right_iff] at hkeys hvalues
        exact ⟨_, rfl, _, .mp (fun e f => And.intro) hkeys hvalues, horder⟩
  · rintro ⟨fs, rfl, gs, hentries, horder⟩
    refine .map ?_ ?_ horder <;> rw [List.forall₂_map_left_iff, List.forall₂_map_right_iff]
    · exact hentries.imp fun e f h => h.1
    · exact hentries.imp fun e f h => h.2

theorem IsPayload.equals_iff_alike (ha : IsPayload a) (hb : IsPayload b) :
    Equals a b ↔ Alike a b := by
  induction ha generalizing b with
  | scalar hkey => rw [equals_iff_of_key hkey, alike_iff_of_key hkey]
  | list _ ih =>
      rw [equals_list_iff, alike_list_iff]
      refine exists_congr fun ys => and_congr_right ?_
      rintro rfl
      exact forall₂_congr_of_mem fun x hx y hy => ih x hx (hb.of_list y hy)
  | tuple _ ih =>
      rw [equals_tuple_iff, alike_tuple_iff]
      refine exists_congr fun ys => and_congr_right ?_
      rintro rfl
      exact forall₂_congr_of_mem fun x hx y hy => ih x hx (hb.of_tuple y hy)
  | set hxs hapart ih =>
      rw [equals_set_iff_paired (.set hxs hapart) hb, alike_set_iff]
      refine exists_congr fun ys => and_congr_right ?_
      rintro rfl
      exact Paired.congr_of_mem fun x hx y hy => ih x hx (hb.of_set.1 y hy)
  | map hkeys hvalues hapart ihkey ihvalue =>
      rw [equals_map_iff_paired (.map hkeys hvalues hapart) hb, alike_map_iff]
      refine exists_congr fun fs => and_congr_right ?_
      rintro rfl
      obtain ⟨hkeys', hvalues', _⟩ := hb.of_map
      exact Paired.congr_of_mem fun e he f hf =>
        and_congr (ihkey e he (hkeys' f hf)) (ihvalue e he (hvalues' f hf))

end Alike

section Build
variable {es : List (Value × Value)} {key value : Value}

theorem mem_insertEntry {e : Value × Value} (he : e ∈ insertEntry es key value) :
    (e.1 = key ∨ ∃ old, (e.1, old) ∈ es) ∧ (e.2 = value ∨ e ∈ es) := by
  induction es with
  | nil =>
      cases List.mem_singleton.mp he
      exact ⟨.inl rfl, .inl rfl⟩
  | cons first rest ih =>
      rw [insertEntry] at he
      split at he
      next =>
        rcases List.mem_cons.mp he with rfl | he
        · exact ⟨.inr ⟨first.2, List.mem_cons_self⟩, .inl rfl⟩
        · have hes := List.mem_cons_of_mem first he
          exact ⟨.inr ⟨e.2, hes⟩, .inr hes⟩
      next =>
        rcases List.mem_cons.mp he with rfl | he
        · exact ⟨.inr ⟨_, List.mem_cons_self⟩, .inr List.mem_cons_self⟩
        · obtain ⟨hkey, hvalue⟩ := ih he
          refine ⟨hkey.imp_right ?_, hvalue.imp_right (List.mem_cons_of_mem first)⟩
          rintro ⟨old, hold⟩
          exact ⟨old, List.mem_cons_of_mem first hold⟩

theorem insertEntry_pairwise (h : es.Pairwise fun e f => ¬ Equals e.1 f.1) :
    (insertEntry es key value).Pairwise fun e f => ¬ Equals e.1 f.1 := by
  induction es with
  | nil => exact List.pairwise_singleton _ _
  | cons first rest ih =>
      obtain ⟨hfirst, hrest⟩ := List.pairwise_cons.mp h
      rw [insertEntry]
      split
      next => exact List.pairwise_cons.mpr ⟨hfirst, hrest⟩
      next hne =>
        refine List.pairwise_cons.mpr ⟨fun e he => ?_, ih hrest⟩
        rcases (mem_insertEntry he).1 with hkey | ⟨old, hold⟩
        · rw [hkey]
          exact hne
        · exact hfirst (e.1, old) hold

theorem IsPayload.insertEntry (h : IsPayload (.map es)) (hkey : IsPayload key)
    (hvalue : IsPayload value) : IsPayload (.map (insertEntry es key value)) := by
  obtain ⟨hkeys, hvalues, hapart⟩ := h.of_map
  refine .map (fun e he => ?_) (fun e he => ?_) (insertEntry_pairwise hapart)
  · rcases (mem_insertEntry he).1 with h | ⟨old, hold⟩
    · rwa [h]
    · exact hkeys (e.1, old) hold
  · rcases (mem_insertEntry he).2 with h | hold
    · rwa [h]
    · exact hvalues e hold

theorem IsPayload.addMember {kept : List Value} {x : Value} (h : IsPayload (.set kept))
    (hx : IsPayload x) :
    IsPayload (.set (if kept.any (equal · x) then kept else kept ++ [x])) := by
  split
  next => exact h
  next hnew =>
    obtain ⟨hmembers, hapart⟩ := h.of_set
    refine .set (fun y hy => ?_) (List.pairwise_append.mpr ⟨hapart, ?_, ?_⟩)
    · rcases List.mem_append.mp hy with hy | hy
      · exact hmembers y hy
      · cases List.mem_singleton.mp hy
        exact hx
    · exact List.pairwise_singleton _ _
    · intro y hy z hz hequal
      cases List.mem_singleton.mp hz
      exact hnew (List.any_eq_true.mpr ⟨y, hy, hequal⟩)

/-- Entries written one after another make a payload. -/
theorem IsPayload.mapOf {pairs : List (Value × Value)}
    (h : ∀ p ∈ pairs, IsPayload p.1 ∧ IsPayload p.2) : IsPayload (mapOf pairs) :=
  List.foldlRecOn (motive := fun entries => IsPayload (.map entries)) pairs _
    (.map nofun nofun .nil) fun _ hentries p hp => hentries.insertEntry (h p hp).1 (h p hp).2

/-- Members added one after another make a payload. -/
theorem IsPayload.setOf {members : List Value} (h : ∀ x ∈ members, IsPayload x) :
    IsPayload (setOf members) :=
  List.foldlRecOn (motive := fun kept => IsPayload (.set kept)) members _
    (.set nofun .nil) fun _ hkept x hx => hkept.addMember (h x hx)

end Build

end Value
end ClaimCheck
