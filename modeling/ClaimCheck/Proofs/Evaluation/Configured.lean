import ClaimCheck.Proofs.Chat.Call
import ClaimCheck.Proofs.Config.Prompt
import ClaimCheck.Proofs.Evaluation
import ClaimCheck.Proofs.Text.Utf8

namespace ClaimCheck.Evaluation

/-- Names that a template mentions beside those that an evaluation gives a value. -/
def IsOther (template name : String) : Prop :=
  Template.Mentions template name ∧ name ≠ "document" ∧ name ≠ "claim"

/-- An evaluation that ends for the sake of names without a value, before there is a client. -/
structure Refused (r : Run) (names : List String) : Prop where
  outcome : r.outcome = .error (.failure (.promptNotRendered names))
  clients : r.clients = 0
  prompts : r.prompts = []
  sent : r.sent = []

/-- An evaluation that asks one client once, with a prompt in which two texts stand whole. -/
structure AsksAbout (r : Run) (document claim : String) : Prop where
  clients : r.clients = 1
  prompts : ∃ prompt, r.prompts = [prompt] ∧ document.toList <:+: prompt.toList ∧
    claim.toList <:+: prompt.toList

/-- The client of a configuration, to which one reply comes back. -/
def chatClient (model : ChatModel) (reply : Reply) : Client := fun prompt clock =>
  Chat.call model prompt reply clock

section Names
variable {template : String}

/-- The other names do not depend on what is put into the template. -/
def otherNames (template : String) : List String :=
  Template.missing template (bindings "" "")

theorem mem_missing_bindings_iff {document claim name : String} :
    name ∈ Template.missing template (bindings document claim) ↔ IsOther template name := by
  rw [Template.mem_missing_iff, IsOther, ← not_or, ← get?_bindings_isSome document claim name,
    Bool.not_eq_true, Option.isSome_eq_false_iff, Option.isNone_iff_eq_none]

theorem isNone_bindings (document claim name : String) :
    ((bindings document claim).get? name).isNone = ((bindings "" "").get? name).isNone := by
  rw [Bool.eq_iff_iff, ← Option.not_isSome, ← Option.not_isSome, Bool.not_eq_true',
    Bool.not_eq_true', ← Bool.not_eq_true, ← Bool.not_eq_true, get?_bindings_isSome,
    get?_bindings_isSome]

theorem missing_bindings (document claim : String) :
    Template.missing template (bindings document claim) = otherNames template := by
  simp only [otherNames, Template.missing, isNone_bindings document claim]

end Names

section Run
variable {template : String} {client : Client} {request : EvaluationRequest} {clock : Clock}

theorem render_eq_error_iff_otherNames {names : List String} (document claim : String) :
    Template.render template (bindings document claim) = .error names ↔
      otherNames template = names ∧ names ≠ [] := by
  rw [Template.render_eq_error_iff, missing_bindings]

theorem refused_of_otherNames (h : otherNames template ≠ []) :
    Refused (run template client request clock) (otherNames template) := by
  have hrender := (render_eq_error_iff_otherNames request.support request.claim).mpr ⟨rfl, h⟩
  rw [run_notRendered hrender]
  exact ⟨rfl, rfl, rfl, rfl⟩

theorem mentioned_infix {document claim prompt name value : String}
    (hrender : Template.render template (bindings document claim) = .ok prompt)
    (hname : Template.Mentions template name)
    (hvalue : (bindings document claim).get? name = some value) :
    value.toList <:+: prompt.toList := by
  obtain ⟨_, hfilled⟩ := Template.render_eq_ok_iff.mp hrender
  refine hfilled.value_infix hname.1 ?_ hname.2
  rw [String.ofList_toList]
  exact hvalue

theorem asksAbout_of_no_otherNames (h : otherNames template = [])
    (hdocument : Template.Mentions template "document")
    (hclaim : Template.Mentions template "claim") :
    AsksAbout (run template client request clock) request.support request.claim := by
  cases hrender : Template.render template (bindings request.support request.claim) with
  | error names =>
      obtain ⟨hnames, hsome⟩ := (render_eq_error_iff_otherNames _ _).mp hrender
      exact absurd (hnames.symm.trans h) hsome
  | ok prompt =>
      obtain ⟨hclients, hprompts, _⟩ := run_asked client clock hrender
      exact ⟨hclients, prompt, hprompts, mentioned_infix hrender hdocument rfl,
        mentioned_infix hrender hclaim rfl⟩

/-- A chat model is sent what it is asked. -/
theorem run_chatClient_sent (model : ChatModel) (reply : Reply) :
    (run template (chatClient model reply) request clock).sent =
      (run template (chatClient model reply) request clock).prompts.map fun prompt =>
        ⟨prompt, model⟩ := by
  cases hrender : Template.render template (bindings request.support request.claim) with
  | error names =>
      rw [run_notRendered hrender]
      rfl
  | ok prompt =>
      obtain ⟨_, hprompts, hsent⟩ := run_asked (chatClient model reply) clock hrender
      rw [hprompts, hsent, List.map_singleton]
      exact Chat.call_sent model prompt reply clock.read.2

end Run

/-- With the prompt of a loaded configuration there are two ways. Either the prompt mentions other
names beside the document and the claim: then every evaluation is refused for the sake of exactly
these, in ascending order, and nothing is sent. Or it mentions none: then every evaluation sends a
prompt in which the whole document and the whole claim stand. -/
theorem refused_iff_otherNames {depths : Yaml.Depths} {env : Environment} {files : Files}
    {path : String} {config : Config}
    (h : (Config.load depths env files path).outcome = .ok config) :
    ∃ others : List String, others.Pairwise (· < ·) ∧
      (∀ name, name ∈ others ↔ IsOther config.evaluator.resolved name) ∧
      ∀ (request : EvaluationRequest) (clock : Clock),
        (∀ client,
          others ≠ [] ∧ Refused (run config.evaluator.resolved client request clock) others ∨
          others = [] ∧ AsksAbout (run config.evaluator.resolved client request clock)
            request.support request.claim) ∧
        ∀ (model : ChatModel) (reply : Reply),
          (∀ names, (run config.evaluator.resolved (chatClient model reply) request
              clock).outcome = .error (.failure (.promptNotRendered names)) ↔
            names = others ∧ others ≠ []) ∧
          (run config.evaluator.resolved (chatClient model reply) request clock).sent =
            (run config.evaluator.resolved (chatClient model reply) request
              clock).prompts.map fun prompt => ⟨prompt, model⟩ := by
  have hgrounded := Config.load_grounded h
  refine ⟨otherNames config.evaluator.resolved, Template.missing_pairwise _ _,
    fun name => mem_missing_bindings_iff, fun request clock => ⟨fun client => ?_, ?_⟩⟩
  · by_cases hothers : otherNames config.evaluator.resolved = []
    · exact .inr ⟨hothers, asksAbout_of_no_otherNames hothers hgrounded.document hgrounded.claim⟩
    · exact .inl ⟨hothers, refused_of_otherNames hothers⟩
  · intro model reply
    refine ⟨fun names => ?_, run_chatClient_sent model reply⟩
    have hclient : ∀ prompt clock, (chatClient model reply prompt clock).outcome ≠
        .error (.failure (.promptNotRendered names)) :=
      fun prompt clock => Chat.call_ne_notRendered model prompt reply clock names
    rw [run_eq_notRendered_iff hclient, render_eq_error_iff_otherNames]
    constructor
    · rintro ⟨rfl, hsome⟩
      exact ⟨rfl, hsome⟩
    · rintro ⟨rfl, hsome⟩
      exact ⟨rfl, hsome⟩

/-- A prompt of the library's own, and a custom one that mentions two other names, one of them
put in by a variable. -/
def promptFiles : Files :=
  .ofListing [("plain.yaml", .file (Text.encodeUtf8 "name: n\nchat:\n  model: m\n")),
    ("custom.yaml", .file (Text.encodeUtf8 ("name: n\nchat:\n  model: m\nevaluator:\n" ++
      "  custom_prompt: $\x7bTONE\x7d \x7bdocument\x7d \x7bclaim\x7d \x7bstyle\x7d\n")))]

/-- A request whose document looks like a placeholder. -/
def claimInDocument : EvaluationRequest :=
  ⟨"", [⟨some "\x7bclaim\x7d", []⟩], "c"⟩

def silentClient : Client :=
  chatClient ⟨"m", .zero, none, none⟩ (.fault ⟨.timeout, ""⟩)

theorem two_ways_of_prompts :
    (∃ config, (Config.load ⟨480, 482⟩ [] promptFiles "plain.yaml").outcome = .ok config ∧
      AsksAbout (run config.evaluator.resolved silentClient claimInDocument [])
        "\x7bclaim\x7d" "c") ∧
    ∃ config, (Config.load ⟨480, 482⟩ [("TONE", "\x7btone\x7d")] promptFiles
        "custom.yaml").outcome = .ok config ∧
      Refused (run config.evaluator.resolved silentClient claimInDocument [])
        ["style", "tone"] := by
  constructor
  · have hload : (Config.load ⟨480, 482⟩ [] promptFiles "plain.yaml").outcome =
        .ok ⟨"n", ⟨"m", .zero, none, none⟩, .default⟩ := ok_of_toOption (by decide +kernel)
    obtain ⟨others, _, _, hways⟩ := refused_iff_otherNames hload
    refine ⟨_, hload, ?_⟩
    rcases (hways claimInDocument []).1 silentClient with ⟨_, hrefused⟩ | ⟨_, hasks⟩
    · exact absurd hrefused.clients (by decide +kernel)
    · exact hasks
  · have hload : (Config.load ⟨480, 482⟩ [("TONE", "\x7btone\x7d")] promptFiles
        "custom.yaml").outcome = .ok ⟨"n", ⟨"m", .zero, none, none⟩,
          ⟨.plain, "\x7btone\x7d \x7bdocument\x7d \x7bclaim\x7d \x7bstyle\x7d"⟩⟩ :=
      ok_of_toOption (by decide +kernel)
    obtain ⟨others, _, _, hways⟩ := refused_iff_otherNames hload
    refine ⟨_, hload, ?_⟩
    rcases (hways claimInDocument []).1 silentClient with ⟨_, hrefused⟩ | ⟨_, hasks⟩
    · have hclient : ∀ prompt clock, (silentClient prompt clock).outcome ≠
          .error (.failure (.promptNotRendered others)) :=
        fun prompt clock => Chat.call_ne_notRendered _ prompt _ clock others
      obtain ⟨hothers, _⟩ := (render_eq_error_iff_otherNames _ _).mp
        ((run_eq_notRendered_iff hclient).mp hrefused.outcome)
      have hnames : otherNames "\x7btone\x7d \x7bdocument\x7d \x7bclaim\x7d \x7bstyle\x7d" =
          ["style", "tone"] := by decide +kernel
      rw [← hnames.symm.trans hothers] at hrefused
      exact hrefused
    · exact absurd hasks.clients (by decide +kernel)

end ClaimCheck.Evaluation
