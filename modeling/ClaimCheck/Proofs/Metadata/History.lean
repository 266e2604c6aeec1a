import ClaimCheck.Proofs.Metadata.Bag
import ClaimCheck.Proofs.Metadata.Builder
import ClaimCheck.Proofs.Metadata.Issues
/-!
What a history of builders builds. Each build sees the last value of every field of its own
builder and what is left of the keys written there; nothing else in the history matters to it, and
nothing that follows changes what it gave.
-/
namespace ClaimCheck.Metadata

namespace Builder

theorem field?_withField (b : Builder) (field other : Field) (value : Value) :
    (b.withField field value).field? other =
      if field = other then some value else b.field? other := by
  cases field <;> cases other <;> rfl

theorem field?_withKeyValue (b : Builder) (key value : Value) (field : Field) :
    (b.withKeyValue key value).field? field = b.field? field := by
  cases field <;> rfl

theorem extra_withField (b : Builder) (field : Field) (value : Value) :
    (b.withField field value).extra = b.extra := by
  cases field <;> rfl

theorem get?_fields_name (b : Builder) (field : Field) :
    Fields.get? b.fields field.name = b.field? field := by
  obtain ⟨hid, hmodel, hlimit, husage, hprompts, _⟩ := b.get?_fields
  cases field with
  | id => exact hid
  | model => exact hmodel
  | rateLimit => exact hlimit
  | usage => exact husage
  | promptMetadata => exact hprompts

theorem get?_fields_extra (b : Builder) : Fields.get? b.fields "extra" = some (.map b.extra) :=
  b.get?_fields.2.2.2.2.2

theorem field_of_unwritten {b : Builder} {m : Metadata} (h : b.build = .ok m) {field : Field}
    (hnone : b.field? field = none) : m.field field = empty.field field := by
  obtain ⟨hid, hmodel, hlimit, husage, hprompts, _⟩ := build_eq_ok_iff.mp h
  cases field with
  | id =>
      rw [show b.id = none from hnone] at hid
      exact congrArg Value.text hid
  | model =>
      rw [show b.model = none from hnone] at hmodel
      exact congrArg Value.text hmodel
  | rateLimit =>
      rw [show b.rateLimit = none from hnone] at hlimit
      exact congrArg RateLimit.toValue hlimit
  | usage =>
      rw [show b.usage = none from hnone] at husage
      exact congrArg Usage.toValue husage
  | promptMetadata =>
      rw [show b.promptMetadata = none from hnone] at hprompts
      exact congrArg PromptMetadata.toValue hprompts

end Builder

/-- What a call writes to a field. -/
def Call.written? (field : Field) : Call → Option Value
  | .write f value => if f = field then some value else none
  | _ => none

/-- What a call writes under a key. -/
def Call.pair? : Call → Option (Value × Value)
  | .put key value => if Value.unhashable? false key = none then some (key, value) else none
  | _ => none

/-- Whether a call writes anything. -/
def Call.writes : Call → Bool
  | .write _ _ => true
  | .put key _ => (Value.unhashable? false key).isNone
  | .build => false

namespace Builder

theorem field?_after (b : Builder) (call : Call) (field : Field) :
    (b.after call).field? field = (call.written? field).or (b.field? field) := by
  cases call with
  | write f value =>
      rw [after, field?_withField, Call.written?]
      split <;> rfl
  | put key value =>
      simp only [after, Call.written?, Option.none_or]
      split
      · exact b.field?_withKeyValue key value field
      · rfl
  | build => rfl

theorem extra_after (b : Builder) (call : Call) :
    (b.after call).extra =
      call.pair?.toList.foldl (fun es e => Value.insertEntry es e.1 e.2) b.extra := by
  cases call with
  | write f value => exact b.extra_withField f value
  | put key value =>
      simp only [after, Call.pair?, Option.isNone_iff_eq_none]
      split <;> rfl
  | build => rfl

theorem after_of_not_writes {call : Call} (h : call.writes = false) (b : Builder) :
    b.after call = b := by
  cases call with
  | write f value => cases h
  | put key value =>
      rw [Call.writes] at h
      rw [after, h]
      rfl
  | build => rfl

/-- After a whole list of calls a builder holds the last value of each field. -/
theorem field?_foldl (calls : List Call) (field : Field) :
    (calls.foldl after new).field? field = (calls.filterMap (·.written? field)).getLast? := by
  induction calls using List.reverseRecOn with
  | nil => cases field <;> rfl
  | append_singleton calls call ih =>
      rw [List.foldl_concat, field?_after, ih, List.filterMap_append, List.getLast?_append]
      cases hwritten : call.written? field with
      | none => rw [List.filterMap_cons_none hwritten]; rfl
      | some value => rw [List.filterMap_cons_some hwritten]; rfl

theorem extra_foldl (calls : List Call) :
    (calls.foldl after new).extra = Value.lastEntries (calls.filterMap Call.pair?) := by
  induction calls using List.reverseRecOn with
  | nil => rfl
  | append_singleton calls call ih =>
      rw [List.foldl_concat, extra_after, ih, List.filterMap_append, Value.lastEntries,
        Value.lastEntries, List.foldl_append]
      cases hpair : call.pair? with
      | none => rw [List.filterMap_cons_none hpair]; rfl
      | some pair => rw [List.filterMap_cons_some hpair]; rfl

/-- A builder is made by the calls that write to it. -/
theorem foldl_filter_writes (b : Builder) (calls : List Call) :
    (calls.filter Call.writes).foldl after b = calls.foldl after b := by
  induction calls generalizing b with
  | nil => rfl
  | cons call calls ih =>
      rw [List.foldl_cons]
      cases hwrites : call.writes with
      | true => rw [List.filter_cons_of_pos hwrites, List.foldl_cons, ih]
      | false =>
          rw [List.filter_cons_of_neg (by rw [hwrites]; exact nofun), ih,
            after_of_not_writes hwrites]

end Builder

/-- The calls on the builder of a name. -/
def callsOn (name : String) (calls : List NamedCall) : List Call :=
  calls.filterMap fun c => if c.builder = name then some c.call else none

/-- Those of them that write something. -/
def writesOn (name : String) (calls : List NamedCall) : List Call :=
  (callsOn name calls).filter Call.writes

def lastWritten (calls : List NamedCall) (name : String) (field : Field) : Option Value :=
  ((callsOn name calls).filterMap (·.written? field)).getLast?

def entriesWritten (calls : List NamedCall) (name : String) : List (Value × Value) :=
  (callsOn name calls).filterMap Call.pair?

/-- The fields that a build is given after some calls: the last value of each field, or the empty
one where there is none, and the bag of what was written under keys. -/
structure GivenBy (calls : List NamedCall) (name : String) (fields : Fields) : Prop where
  field : ∀ field : Field, fields.get? field.name = lastWritten calls name field ∨
    lastWritten calls name field = none ∧ fields.get? field.name = some (empty.field field)
  extra : fields.get? "extra" = some (.map (Value.lastEntries (entriesWritten calls name)))

namespace Workshop

theorem run_concat (calls : List NamedCall) (c : NamedCall) :
    run (calls ++ [c]) = (run calls).step c :=
  List.foldl_concat ..

/-- Nothing reaches a builder but the calls on it. -/
theorem builder_run (calls : List NamedCall) (name : String) :
    (run calls).builder name = (callsOn name calls).foldl Builder.after .new := by
  induction calls using List.reverseRecOn with
  | nil => rfl
  | append_singleton calls c ih =>
      rw [run_concat, callsOn, List.filterMap_append, List.foldl_append, ← callsOn, ← ih]
      by_cases hname : c.builder = name
      · subst hname
        simp [step]
      · simp [step, hname, Ne.symm hname]

theorem builder_run_writes (calls : List NamedCall) (name : String) :
    (run calls).builder name = (writesOn name calls).foldl Builder.after .new := by
  rw [builder_run, writesOn, Builder.foldl_filter_writes]

theorem field?_run (calls : List NamedCall) (name : String) (field : Field) :
    ((run calls).builder name).field? field = lastWritten calls name field := by
  rw [builder_run, Builder.field?_foldl, lastWritten]

theorem extra_run (calls : List NamedCall) (name : String) :
    ((run calls).builder name).extra = Value.lastEntries (entriesWritten calls name) := by
  rw [builder_run, Builder.extra_foldl, entriesWritten]

theorem built_step (s : Workshop) (c : NamedCall) : s.built <+: (s.step c).built :=
  List.prefix_append ..

theorem built_foldl (s : Workshop) (calls : List NamedCall) :
    s.built <+: (calls.foldl step s).built := by
  induction calls generalizing s with
  | nil => exact List.prefix_rfl
  | cons c calls ih => exact (s.built_step c).trans (ih (s.step c))

theorem built_run (before after : List NamedCall) :
    (run before).built <+: (run (before ++ after)).built := by
  rw [run, run, List.foldl_append]
  exact built_foldl ..

end Workshop
open Workshop (run)

/-- The build from the builder of a name that follows some calls gives a result, and this remains
so whatever calls come later. -/
def Gives (before : List NamedCall) (name : String) (result : Except Rejection Metadata) : Prop :=
  ∀ after, (run (before ++ ⟨name, .build⟩ :: after)).built[(run before).built.length]? = some result

theorem gives_build (before : List NamedCall) (name : String) :
    Gives before name ((run before).builder name).build := by
  intro after
  have hbuilt : (run (before ++ [⟨name, .build⟩])).built =
      (run before).built ++ [((run before).builder name).build] := by
    rw [Workshop.run_concat]
    rfl
  have hprefix := Workshop.built_run (before ++ [⟨name, .build⟩]) after
  rw [List.append_assoc, hbuilt] at hprefix
  obtain ⟨more, hmore⟩ := hprefix
  rw [List.singleton_append] at hmore
  rw [← hmore, List.append_assoc, List.getElem?_append_right (Nat.le_refl _), Nat.sub_self]
  rfl

theorem gives_iff {before : List NamedCall} {name : String} {result : Except Rejection Metadata} :
    Gives before name result ↔ ((run before).builder name).build = result := by
  constructor
  · intro h
    exact Option.some.inj ((gives_build before name []).symm.trans (h []))
  · rintro rfl
    exact gives_build before name

theorem givenBy_fields (before : List NamedCall) (name : String) :
    GivenBy before name ((run before).builder name).fields where
  field field := .inl (((run before).builder name).get?_fields_name field |>.trans
    (Workshop.field?_run before name field))
  extra := by rw [Builder.get?_fields_extra, Workshop.extra_run]

/-- Giving a field its empty value is as good as not giving it. -/
theorem optional_of_given {α : Type} (read : Reader α) (default : α) {blank : Value}
    {value : Option Value} {key : String} {fields others : Fields}
    (hblank : read blank = .ok default)
    (h : fields.get? key = value ∨ value = none ∧ fields.get? key = some blank)
    (hothers : others.get? key = value) :
    fields.optional key read default = others.optional key read default := by
  unfold Fields.optional
  rcases h with h | ⟨hvalue, h⟩
  · rw [h, hothers]
  · rw [h, hothers, hvalue]
    exact Checked.under_eq_ok_iff.mpr hblank

theorem GivenBy.build_eq {before : List NamedCall} {name : String} {fields : Fields}
    (h : GivenBy before name fields) :
    ((run before).builder name).build = ofFields fields := by
  have hbuilder := ((run before).builder name).get?_fields_name
  simp only [Workshop.field?_run] at hbuilder
  have hid := optional_of_given Reader.text "" rfl (h.field .id) (hbuilder .id)
  have hmodel := optional_of_given Reader.text "" rfl (h.field .model) (hbuilder .model)
  have hlimit := optional_of_given RateLimit.reader .empty RateLimit.empty.reader_toValue
    (h.field .rateLimit) (hbuilder .rateLimit)
  have husage := optional_of_given Usage.reader .empty Usage.empty.reader_toValue
    (h.field .usage) (hbuilder .usage)
  have hprompts := optional_of_given PromptMetadata.reader .empty
    PromptMetadata.empty.reader_toValue (h.field .promptMetadata) (hbuilder .promptMetadata)
  have hextra : fields.optional "extra" Reader.mapping [] =
      ((run before).builder name).fields.optional "extra" Reader.mapping [] := by
    unfold Fields.optional
    rw [h.extra, (givenBy_fields before name).extra]
  simp only [Field.name] at hid hmodel hlimit husage hprompts
  simp only [Builder.build, ofFields, check, hid, hmodel, hlimit, husage, hprompts, hextra]

theorem gives_of_givenBy {before : List NamedCall} {name : String} {fields : Fields}
    (h : GivenBy before name fields) : Gives before name (ofFields fields) :=
  gives_iff.mpr h.build_eq

/-- A field that was never written is empty. -/
theorem Gives.field_eq_empty {before : List NamedCall} {name : String} {m : Metadata}
    (h : Gives before name (.ok m)) {field : Field} (hnone : lastWritten before name field = none) :
    m.field field = empty.field field := by
  rw [← Workshop.field?_run] at hnone
  exact Builder.field_of_unwritten (gives_iff.mp h) hnone

/-- What was written under the keys that are texts. -/
def textsWritten (calls : List NamedCall) (name : String) : Fields :=
  Value.textEntries (entriesWritten calls name)

def OnlyTextKeys (calls : List NamedCall) (name : String) : Prop :=
  ∀ entry ∈ entriesWritten calls name, ∃ key, entry.1 = .text key

theorem Gives.extra_eq {before : List NamedCall} {name : String} {m : Metadata}
    (h : Gives before name (.ok m)) (hkeys : OnlyTextKeys before name) :
    m.extra = Fields.lastWrites (textsWritten before name) := by
  obtain ⟨_, _, _, _, _, hextra⟩ := Builder.build_eq_ok_iff.mp (gives_iff.mp h)
  rw [Workshop.extra_run, ← Value.entries_textEntries hkeys, Fields.lastEntries_entries,
    Fields.mapping_entries] at hextra
  exact (Except.ok.inj hextra).symm

/-- How metadata answer for texts that were written one after another. -/
structure Answers (m : Metadata) (writes : Fields) : Prop where
  keys : FirstOrder (writes.map (·.1)) m.keys
  contains : ∀ key, m.contains (.text key) = true ↔ key ∈ writes.map (·.1)
  required : ∀ key, (∃ value, m.required (.text key) = .ok value) ↔ key ∈ writes.map (·.1)
  last : ∀ key value, Fields.get? writes.reverse key = some value →
    (∀ default, m.get (.text key) default = value) ∧ m.required (.text key) = .ok value
  absent : ∀ key, key ∉ writes.map (·.1) →
    (∀ default, m.get (.text key) default = default) ∧
      m.required (.text key) = .error (.metadataKeyNotSet (.text key))

theorem answers_of_extra_eq {m : Metadata} {writes : Fields}
    (h : m.extra = Fields.lastWrites writes) : m.Answers writes := by
  have hget : ∀ key, m.get? (.text key) = Fields.get? writes.reverse key := by
    intro key
    rw [get?, h, Fields.get?_lastWrites]
  have hnone : ∀ key, m.get? (.text key) = none ↔ key ∉ writes.map (·.1) := by
    intro key
    rw [hget, Fields.get?_eq_none_iff, List.map_reverse, List.mem_reverse]
  have hsome : ∀ key, (∃ value, m.get? (.text key) = some value) ↔ key ∈ writes.map (·.1) := by
    intro key
    rw [← not_iff_not, ← hnone, ← Option.ne_none_iff_exists', not_not]
  have hfound : ∀ key value, m.get? (.text key) = some value →
      m.required (.text key) = .ok value := by
    intro key value hvalue
    rw [Metadata.required, hvalue]
  have habsent : ∀ key, m.get? (.text key) = none →
      m.required (.text key) = .error (.metadataKeyNotSet (.text key)) := by
    intro key hvalue
    rw [Metadata.required, hvalue]
  constructor
  · rw [Metadata.keys, h]
    exact Fields.firstOrder_lastWrites writes
  · intro key
    rw [Metadata.contains, Option.isSome_iff_exists, hsome]
  · intro key
    rw [← hsome]
    constructor
    · rintro ⟨value, hvalue⟩
      cases hkey : m.get? (.text key) with
      | some other => exact ⟨other, rfl⟩
      | none => cases hvalue.symm.trans (habsent key hkey)
    · rintro ⟨value, hvalue⟩
      exact ⟨value, hfound key value hvalue⟩
  · intro key value hlast
    rw [← hget] at hlast
    refine ⟨fun default => ?_, hfound key value hlast⟩
    rw [Metadata.get, hlast, Option.getD_some]
  · intro key hkey
    rw [← hnone] at hkey
    refine ⟨fun default => ?_, habsent key hkey⟩
    rw [Metadata.get, hkey, Option.getD_none]

theorem gives_congr {before other : List NamedCall} {name : String}
    (h : writesOn name before = writesOn name other) (result : Except Rejection Metadata) :
    Gives before name result ↔ Gives other name result := by
  rw [gives_iff, gives_iff, Workshop.builder_run_writes, Workshop.builder_run_writes, h]

theorem writesOn_append (name : String) (before after : List NamedCall) :
    writesOn name (before ++ after) = writesOn name before ++ writesOn name after := by
  rw [writesOn, callsOn, List.filterMap_append, List.filter_append]
  rfl

theorem builder_run_write {before between later : List NamedCall} {name : String}
    (hbetween : writesOn name between = []) (hlater : writesOn name later = []) (field : Field)
    (value : Value) :
    (run (before ++ between ++ ⟨name, .write field value⟩ :: later)).builder name =
      ((run before).builder name).withField field value := by
  have hwrite : writesOn name (⟨name, .write field value⟩ :: later) = [.write field value] := by
    rw [← List.singleton_append, writesOn_append, hlater, List.append_nil]
    simp [writesOn, callsOn, Call.writes]
  rw [Workshop.builder_run_writes, Workshop.builder_run_writes, writesOn_append, writesOn_append,
    hbetween, hwrite, List.append_nil]
  exact List.foldl_concat ..

/-- Where only one field was at fault, an accepted value for it mends the build. -/
theorem gives_of_repaired {before between later : List NamedCall} {name : String} {field : Field}
    {rejection : Rejection} {value : Value} (h : Gives before name (.error rejection))
    (hwhole : rejection.breakingFlaw? = none)
    (honly : ∀ issue ∈ rejection.issues, issue.path.head? = some (.name field.name))
    (hvalue : field.Accepts value) (hbetween : writesOn name between = [])
    (hlater : writesOn name later = []) :
    ∃ m, Gives (before ++ between ++ ⟨name, .write field value⟩ :: later) name (.ok m) := by
  simp only [gives_iff, builder_run_write hbetween hlater] at h ⊢
  refine exists_ofFields_of_overwritten h hwhole honly hvalue ?_ (fun other hother => ?_) ?_
  · rw [Builder.get?_fields_name, Builder.field?_withField, if_pos rfl]
  · rw [Builder.get?_fields_name, Builder.get?_fields_name, Builder.field?_withField,
      if_neg (Ne.symm hother)]
  · rw [Builder.get?_fields_extra, Builder.get?_fields_extra, Builder.extra_withField]

/-- Whatever calls come on whatever builders, a build gives what the last values of its builder's
fields and the bag of its keys give, and goes on to have given it. Only what was written to that
builder matters. A build that was refused on account of one field is mended by a value for this
field. Metadata that were built are empty where nothing was written, and answer for each key with
the last value that was written under it. -/
theorem builds_from_last_writes :
    (∀ before name fields, GivenBy before name fields → Gives before name (ofFields fields)) ∧
    (∀ before name, ∃ fields, GivenBy before name fields) ∧
    (∀ before after, (run before).built <+: (run (before ++ after)).built) ∧
    (∀ before other name, writesOn name before = writesOn name other → ∀ result,
      Gives before name result ↔ Gives other name result) ∧
    (∀ before between later name (field : Field) rejection value,
      Gives before name (.error rejection) → rejection.breakingFlaw? = none →
      (∀ issue ∈ rejection.issues, issue.path.head? = some (.name field.name)) →
      field.Accepts value → writesOn name between = [] → writesOn name later = [] →
      ∃ m, Gives (before ++ between ++ ⟨name, .write field value⟩ :: later) name (.ok m)) ∧
    ∀ before name m, Gives before name (.ok m) →
      (∀ field, lastWritten before name field = none → m.field field = empty.field field) ∧
      (OnlyTextKeys before name → m.Answers (textsWritten before name)) := by
  refine ⟨?_, ?_, ?_, ?_, ?_, ?_⟩
  · intro before name fields h
    exact gives_of_givenBy h
  · intro before name
    exact ⟨_, givenBy_fields before name⟩
  · intro before after
    exact Workshop.built_run before after
  · intro before other name h result
    exact gives_congr h result
  · intro before between later name field rejection value h hwhole honly hvalue hbetween hlater
    exact gives_of_repaired h hwhole honly hvalue hbetween hlater
  · intro before name m h
    exact ⟨fun field hnone => h.field_eq_empty hnone,
      fun hkeys => answers_of_extra_eq (h.extra_eq hkeys)⟩

/-- Two builders in turns; on one of them a key is written twice and the id is no text. -/
def interleaved : List NamedCall :=
  [⟨"a", .put (.text "k") .null⟩, ⟨"b", .write .id (.text "other")⟩,
    ⟨"a", .put (.text "l") (.int 1)⟩, ⟨"a", .write .id (.int 5)⟩,
    ⟨"a", .put (.list []) .null⟩, ⟨"b", .put (.text "k") (.int 7)⟩,
    ⟨"a", .put (.text "k") (.int 2)⟩]

/-- What is left of the writes on one of them. -/
def interleavedFields : Fields :=
  [("id", .int 5), ("extra", Value.ofFields [("k", .int 2), ("l", .int 1)])]

theorem refused_build_is_mended :
    Gives interleaved "a" (ofFields interleavedFields) ∧
      ofFields interleavedFields = .error ⟨recordName, [⟨[.name "id"], .notText⟩]⟩ ∧
      ∃ m, Gives (interleaved ++ [⟨"a", .build⟩] ++ [⟨"a", .write .id (.text "i")⟩]) "a" (.ok m) ∧
        m.field .model = .text "" ∧ m.required (.text "k") = .ok (.int 2) ∧
        m.required (.text "m") = .error (.metadataKeyNotSet (.text "m")) := by
  obtain ⟨hgives, _, _, _, hmended, hbuilt⟩ := builds_from_last_writes
  have hentries : entriesWritten interleaved "a" =
      Fields.entries [("k", .null), ("l", .int 1), ("k", .int 2)] := rfl
  have hfields : GivenBy interleaved "a" interleavedFields := by
    refine ⟨fun field => ?_, ?_⟩
    · cases field <;> exact .inl rfl
    · rw [hentries, Fields.lastEntries_entries]
      rfl
  have hrefused : ofFields interleavedFields =
      .error ⟨recordName, [⟨[.name "id"], .notText⟩]⟩ := rfl
  have hgiven := hgives _ _ _ hfields
  obtain ⟨m, hm⟩ := hmended interleaved [⟨"a", .build⟩] [] "a" .id _ (.text "i")
    (hrefused ▸ hgiven) rfl (by simp [Field.name]) ⟨_, rfl⟩ rfl rfl
  obtain ⟨hempty, hanswers⟩ := hbuilt _ _ m hm
  have hkeys := hanswers (show ∀ entry ∈ Fields.entries [("k", .null), ("l", .int 1),
    ("k", .int 2)], ∃ key, entry.1 = .text key from
      List.forall_mem_map.mpr fun write _ => ⟨write.1, rfl⟩)
  exact ⟨hgiven, hrefused, m, hm, hempty .model rfl, (hkeys.last "k" (.int 2) rfl).2,
    (hkeys.absent "m" (by decide)).2⟩

end ClaimCheck.Metadata
