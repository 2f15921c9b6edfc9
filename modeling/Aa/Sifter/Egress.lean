import Aa.Library.PyCase
import Aa.Sifter.Parts
import Aa.Sifter.Trace

/-!
# What leaves the machine

Whether a call is guarded is decided by its tier and the name of its model; where it goes is
decided by the name of its provider and by what the registry falls back to. The two agree for
every call of a sifter unless its configuration sends the local tier to the endpoint of the
expert.
-/

namespace Aa.Sifter

open Aa.Library

/-! ## Configurations -/

/-- Whether an optional setting says something. -/
def given (setting : Option String) : Prop := ∃ text, setting = some text ∧ text ≠ ""

namespace SifterConfig

variable (config : SifterConfig)

/-- A request to the provider goes to another endpoint than the local one, or has a local Ollama
pass it on. -/
def Remote (provider : Provider) (model : String) : Prop :=
  match provider with
  | .ollama _ => Py.endsWith model ":cloud" = true
  | .deepSeek _ _ => True
  | .openAICompatible _ _ => given config.expertEndpoint
  | .injected _ => False

/-- The provider of the name is built on the endpoint of the expert. -/
def Leaves (name : String) : Prop :=
  name = "deepseek" ∨ name = "openai-compatible" ∧ given config.expertEndpoint

/-- No provider is built for the name. -/
def Unbuilt (name : String) : Prop :=
  name ≠ "ollama" ∧ name ≠ "deepseek" ∧
    (name = "openai-compatible" → ¬ given config.expertEndpoint ∧ ¬ given config.localEndpoint)

/-- The calls of the local tier leave without being guarded: the local provider is built on the
endpoint of the expert, or it is none and the provider of the expert stands in for it. -/
structure Escapes : Prop where
  notMarked : Py.endsWith config.localModel ":cloud" = false
  leaves : config.Leaves config.localProvider ∨
    config.Unbuilt config.localProvider ∧ config.Leaves config.expertProvider

end SifterConfig

variable {config : SifterConfig} {name model : String} {provider : Provider}

theorem orElse_none {setting : Option String} : orElse setting none = none ↔ ¬ given setting := by
  rcases setting with _ | text
  · simp [orElse, given]
  · by_cases isEmpty : text = ""
    · simp [orElse, given, isEmpty]
    · simp [orElse, given, isEmpty]

theorem orElse_of_given {setting other : Option String} (isGiven : given setting) :
    orElse setting other = setting := by
  rcases isGiven with ⟨text, rfl, notEmpty⟩
  rw [orElse, if_neg notEmpty]

theorem orElse_of_not_given {setting other : Option String} (notGiven : ¬ given setting) :
    orElse setting other = other := by
  rcases setting with _ | text
  · rfl
  · have isEmpty : text = "" := by
      by_contra notEmpty
      exact notGiven ⟨text, rfl, notEmpty⟩
    rw [orElse, if_pos isEmpty]

/-- A provider is built unless its name is unknown or it has no endpoint. -/
theorem buildProvider_isError_iff :
    (∃ message, buildProvider name config = .error message) ↔ config.Unbuilt name := by
  by_cases isOllama : name = "ollama"
  · simp [buildProvider, SifterConfig.Unbuilt, isOllama]
  by_cases isDeepSeek : name = "deepseek"
  · simp [buildProvider, SifterConfig.Unbuilt, isDeepSeek]
  by_cases isCompatible : name = "openai-compatible"
  · have noEndpoint : orElse (orElse config.expertEndpoint config.localEndpoint) none = none ↔
        ¬ given config.expertEndpoint ∧ ¬ given config.localEndpoint := by
      rw [orElse_none]
      by_cases isGiven : given config.expertEndpoint
      · simp [orElse_of_given isGiven, isGiven]
      · simp [orElse_of_not_given isGiven, isGiven]
    have isThird : config.Unbuilt name ↔ orElse (orElse config.expertEndpoint config.localEndpoint)
        none = none := by
      rw [noEndpoint]
      simp [SifterConfig.Unbuilt, isCompatible]
    rw [isThird, buildProvider, if_neg isOllama, if_neg isDeepSeek, if_pos isCompatible]
    split
    · rename_i isNone
      simp [isNone]
    · rename_i endpoint isSome
      simp [isSome]
  · simp [buildProvider, SifterConfig.Unbuilt, isOllama, isDeepSeek, isCompatible]

/-- A provider leaves for the endpoint of the expert exactly if its name does. -/
theorem remote_iff_leaves (isBuilt : buildProvider name config = .ok provider)
    (notMarked : Py.endsWith model ":cloud" = false) :
    config.Remote provider model ↔ config.Leaves name := by
  unfold buildProvider at isBuilt
  split at isBuilt
  · rename_i isOllama
    cases isBuilt
    simp [SifterConfig.Remote, SifterConfig.Leaves, isOllama, notMarked]
  split at isBuilt
  · rename_i isDeepSeek
    cases isBuilt
    simp [SifterConfig.Remote, SifterConfig.Leaves, isDeepSeek]
  split at isBuilt
  · rename_i notDeepSeek isCompatible
    split at isBuilt
    · cases isBuilt
    · cases isBuilt
      simp [SifterConfig.Remote, SifterConfig.Leaves, isCompatible]
  · cases isBuilt

/-! ## The registry -/

/-- What is found under a name where the provider of the name is known. -/
theorem lookup_addBuilt {registry : ModelRegistry} (isBuilt : buildProvider name config = .ok provider)
    (isFresh : name ∉ registry.providers) :
    registry.addBuilt config name = { providers := registry.providers.insert name provider } := by
  have notEmpty : name ≠ "" := by
    rintro rfl
    cases isBuilt
  simp [ModelRegistry.addBuilt, notEmpty, isFresh, isBuilt]

theorem addBuilt_of_error {registry : ModelRegistry} {message : String}
    (isError : buildProvider name config = .error message) :
    registry.addBuilt config name = registry := by
  unfold ModelRegistry.addBuilt
  split
  · rfl
  · rw [isError]

/-- The registry sends a model on to Ollama only if its name is marked. -/
theorem endsWith_of_afterColon (hasColon : model.toList.contains ':' = true)
    (isCloud : (model.toList.dropWhile (· != ':')).tail = "cloud".toList) :
    Py.endsWith model ":cloud" = true := by
  have isThere : ':' ∈ model.toList := by simpa using hasColon
  have notEmpty : model.toList.dropWhile (· != ':') ≠ [] := by
    intro isEmpty
    have isOther := List.dropWhile_eq_nil_iff.mp isEmpty ':' isThere
    simp at isOther
  have isFirst : (model.toList.dropWhile (· != ':')).head notEmpty = ':' := by
    simpa using List.head_dropWhile_not (· != ':') notEmpty
  have isEnd : model.toList.dropWhile (· != ':') = ":cloud".toList := by
    rw [← List.cons_head_tail notEmpty, isFirst, isCloud]
    rfl
  rw [Py.endsWith, List.isSuffixOf_iff_suffix, ← isEnd]
  exact List.dropWhile_suffix _

theorem providerFor_of_not_marked {registry : ModelRegistry} {default : String}
    (notMarked : Py.endsWith model ":cloud" = false) :
    registry.providerFor model default =
      match (if default = "" then none else registry.providers.lookup default) with
      | some provider => .ok provider
      | none =>
          match registry.providers.entries with
          | [entry] => .ok entry.2
          | _ => .error s!"No provider registered for model '{model}'" := by
  unfold ModelRegistry.providerFor
  dsimp only
  have notSpecial : (model.toList.contains ':' &&
      decide ((model.toList.dropWhile (· != ':')).tail = "cloud".toList)) = false := by
    by_contra isSpecial
    rw [Bool.not_eq_false, Bool.and_eq_true, decide_eq_true_eq] at isSpecial
    rw [endsWith_of_afterColon isSpecial.1 isSpecial.2] at notMarked
    cases notMarked
  rw [notSpecial]
  exact if_neg Bool.false_ne_true

/-- A model that is not marked is sent to the provider of its name if that was built, and
otherwise to the other one if there is one. -/
theorem providerFor_local (notMarked : Py.endsWith model ":cloud" = false) :
    (buildRegistry config).providerFor model config.localProvider = .ok provider ↔
      buildProvider config.localProvider config = .ok provider ∨
      config.Unbuilt config.localProvider ∧
        buildProvider config.expertProvider config = .ok provider := by
  rw [providerFor_of_not_marked notMarked, buildRegistry]
  rcases isLocal : buildProvider config.localProvider config with message | built
  · have isUnbuilt := buildProvider_isError_iff.mp ⟨message, isLocal⟩
    rw [addBuilt_of_error isLocal]
    rcases isExpert : buildProvider config.expertProvider config with refusal | other
    · rw [addBuilt_of_error isExpert]
      simp
    · have isOther : config.localProvider ≠ config.expertProvider := by
        rintro isSame
        rw [isSame, isExpert] at isLocal
        cases isLocal
      have isNone : (if config.localProvider = "" then none
          else ((∅ : AList fun _ : String => Provider).insert config.expertProvider other).lookup
            config.localProvider) = none := by
        rw [AList.lookup_insert_ne isOther, AList.lookup_empty, ite_self]
      rw [lookup_addBuilt isExpert (AList.notMem_empty _), isNone]
      simp [isUnbuilt]
  · have notEmpty : config.localProvider ≠ "" := by
      intro isEmpty
      rw [isEmpty] at isLocal
      cases isLocal
    have isBuilt : ¬ config.Unbuilt config.localProvider := by
      rintro isUnbuilt
      rcases buildProvider_isError_iff.mpr isUnbuilt with ⟨message, isError⟩
      rw [isError] at isLocal
      cases isLocal
    rw [lookup_addBuilt isLocal (AList.notMem_empty _), if_neg notEmpty]
    have isFound : AList.lookup config.localProvider
        (ModelRegistry.addBuilt config ⟨AList.insert config.localProvider built ∅⟩
          config.expertProvider).providers = some built := by
      unfold ModelRegistry.addBuilt
      split
      · exact AList.lookup_insert _
      · rename_i isNew
        split
        · have isOther : config.localProvider ≠ config.expertProvider := by
            intro isSame
            rw [Bool.or_eq_true, not_or, decide_eq_true_eq, decide_eq_true_eq, isSame] at isNew
            exact isNew.2 (AList.mem_insert _ |>.mpr (.inl rfl))
          rw [AList.lookup_insert_ne isOther]
          exact AList.lookup_insert _
        · exact AList.lookup_insert _
    rw [isFound]
    simp [isBuilt]

/-! ## Calls -/

/-- The sifter of a configuration, with the registry that is built for it. -/
def ComputeSifter.ofConfig (config : SifterConfig) (rules : StandingRuleEngine)
    (hasHistory : Bool) : ComputeSifter where
  config := config
  registry := buildRegistry config
  rules := rules
  hasHistory := hasHistory

namespace ComputeSifter

variable {sifter : ComputeSifter} {call : Call}

/-- The call is made in a run, or by the entry point below the runs. -/
inductive Makes (sifter : ComputeSifter) (call : Call) : Prop
  | run {task : Task} {before after : Session} {events : List (Event Op Op.Answer)}
      {outcome : Except Raised SifterResult} {reply : Except Raised GenerationResult}
      (does : (sifter.run task).Does before events outcome after)
      (isThere : ⟨.generate call, reply⟩ ∈ events)
  | generate {tierName : String} {messages : List (Message Char)} {before after : Session}
      {events : List (Event Op Op.Answer)} {outcome : Except Raised GenerationResult}
      {reply : Except Raised GenerationResult}
      (does : (sifter.generate tierName messages).Does before events outcome after)
      (isThere : ⟨.generate call, reply⟩ ∈ events)

/-- The call is treated as one that leaves the machine. -/
structure GuardedCall (sifter : ComputeSifter) (call : Call) : Prop where
  isBound : isCloudBound call.tier (sifter.modelConfig call.tier) = true
  allowed : sifter.config.cloudAllowed = true
  redacted : ∃ messages, call.messages = (sifter.redactor.redactModelMessages messages).1

/-- Who a call is for, and that it is guarded if it is bound for the cloud. -/
structure Addressed (sifter : ComputeSifter) (call : Call) : Prop where
  model : call.model = (sifter.modelConfig call.tier).name
  provider : sifter.registry.providerFor (sifter.modelConfig call.tier).name
    (sifter.modelConfig call.tier).provider = .ok call.provider
  guarded : isCloudBound call.tier (sifter.modelConfig call.tier) = true → sifter.GuardedCall call

theorem Sends.addressed {tier : Tier} {messages : List (Message Char)} {purpose : Purpose}
    (sends : sifter.Sends tier messages purpose call) : sifter.Addressed call := by
  have onTier := sends.onTier
  refine ⟨onTier ▸ sends.model, onTier ▸ sends.provider, fun isBound => ⟨isBound, ?_, ?_⟩⟩
  · rw [onTier] at isBound
    exact sends.allowed isBound
  · rw [onTier] at isBound
    refine ⟨fitToContext messages (sifter.modelConfig tier) (sifter.maxOutput tier), ?_⟩
    rw [sends.messages, prepared, if_pos isBound]

/-- The event is no call but one that is addressed. -/
def Addresses (sifter : ComputeSifter) (event : Event Op Op.Answer) : Prop :=
  ∀ call reply, event = ⟨.generate call, reply⟩ → sifter.Addressed call

theorem callTier_addressed (tier : Tier) (messages : List (Message Char)) (purpose : Purpose) :
    (sifter.callTier tier messages purpose).Only sifter.Addresses := by
  rintro before events outcome after does event isThere call reply rfl
  have silence {checks : List (Event Op Op.Answer)} (silent : Silent checks)
      (isCheck : ⟨.generate call, reply⟩ ∈ checks) : sifter.Addressed call := by
    have noMoment := (silent _ isCheck).1
    cases noMoment
  rcases callTier_events does with ⟨sent, answer, checks, sends, silent, rfl⟩ | ⟨_, _, silent⟩
  · rcases List.mem_append.mp isThere with isCheck | isCall
    · exact silence silent isCheck
    · cases List.mem_singleton.mp isCall
      exact sends.addressed
  · exact silence silent isThere

theorem run_addressed (task : Task) : (sifter.run task).Only sifter.Addresses := by
  refine only_follows.run callTier_addressed ?_ ?_
  · refine fun answer => .perform fun reply => ?_
    rintro call _ ⟨⟩
  · refine fun request => requireApproval_only (fun reply => ?_) fun decision reply => ?_
    · rintro call _ ⟨⟩
    · rintro call _ ⟨⟩

theorem generate_addressed (tierName : String) (messages : List (Message Char)) :
    (sifter.generate tierName messages).Only sifter.Addresses := by
  unfold generate
  dsimp only
  generalize (if (decide (sifter.unicode.lowered tierName = "expert") ||
    decide (sifter.unicode.lowered tierName = "cloud")) = true then Tier.expert else .local) = tier
  split
  · exact .raise _
  · rename_i provider isProvider
    split
    · exact .raise _
    · rename_i notRefused
      refine .perform fun reply => ?_
      rintro call _ ⟨⟩
      refine ⟨rfl, isProvider, fun isBound => ⟨isBound, ?_, messages, if_pos isBound⟩⟩
      simpa [isBound] using notRefused

/-- Every call is addressed by the configuration. -/
theorem Makes.addressed (makes : sifter.Makes call) : sifter.Addressed call := by
  cases makes with
  | run does isThere => exact run_addressed _ _ _ _ _ does _ isThere call _ rfl
  | generate does isThere => exact generate_addressed _ _ _ _ _ _ does _ isThere call _ rfl

variable {rules : StandingRuleEngine} {hasHistory : Bool}

/-- A configuration that escapes has the local tier served by a provider that leaves. -/
theorem remote_of_escapes (escapes : config.Escapes) :
    ∃ provider, (buildRegistry config).providerFor config.localModel config.localProvider =
      .ok provider ∧ config.Remote provider config.localModel := by
  have built {name : String} (leaves : config.Leaves name) :
      ∃ provider, buildProvider name config = .ok provider := by
    rcases isBuilt : buildProvider name config with message | provider
    · rcases buildProvider_isError_iff.mp ⟨message, isBuilt⟩ with ⟨-, notDeepSeek, noEndpoint⟩
      rcases leaves with isDeepSeek | ⟨isCompatible, isGiven⟩
      · exact absurd isDeepSeek notDeepSeek
      · exact absurd isGiven (noEndpoint isCompatible).1
    · exact ⟨provider, rfl⟩
  rcases escapes.leaves with leaves | ⟨isUnbuilt, leaves⟩
  · rcases built leaves with ⟨provider, isBuilt⟩
    exact ⟨provider, (providerFor_local escapes.notMarked).mpr (.inl isBuilt),
      (remote_iff_leaves isBuilt escapes.notMarked).mpr leaves⟩
  · rcases built leaves with ⟨provider, isBuilt⟩
    exact ⟨provider, (providerFor_local escapes.notMarked).mpr (.inr ⟨isUnbuilt, isBuilt⟩),
      (remote_iff_leaves isBuilt escapes.notMarked).mpr leaves⟩

/-- Whatever the configuration says of the cloud, an escaping one sends messages as they are. -/
theorem sends_of_escapes (rules : StandingRuleEngine) (hasHistory : Bool)
    (escapes : config.Escapes) (messages : List (Message Char)) :
    ∃ call, (ofConfig config rules hasHistory).Makes call ∧
      config.Remote call.provider call.model ∧ call.messages = messages ∧ call.tier = .local := by
  rcases remote_of_escapes escapes with ⟨provider, isProvider, isRemote⟩
  let sifter := ofConfig config rules hasHistory
  let call : Call :=
    { tier := .local
      purpose := .inference
      provider := provider
      model := config.localModel
      messages := messages
      temperature := 2 / 10
      maxTokens := none
      timeout := config.localModelConfig.timeoutSeconds }
  have isLocal : sifter.unicode.lowered "local" = "local" :=
    PyUnicode.lowered_of_ascii _ (by decide) (by decide)
  have onTier : (if (decide (sifter.unicode.lowered "local" = "expert") ||
      decide (sifter.unicode.lowered "local" = "cloud")) = true then Tier.expert else .local) =
      .local := by
    rw [isLocal]
    rfl
  have notBound : isCloudBound .local (sifter.modelConfig .local) = false := escapes.notMarked
  have registered : sifter.registry.providerFor (sifter.modelConfig .local).name
      (sifter.modelConfig .local).provider = .ok provider := isProvider
  have isGenerate : sifter.generate "local" messages = Coroutine.perform (Op.generate call) id := by
    unfold generate
    dsimp only
    rw [onTier, registered]
    dsimp only
    rw [notBound, Bool.false_and, if_neg Bool.false_ne_true, if_neg Bool.false_ne_true]
    rfl
  let refused : Except Raised GenerationResult := .error (.providerError "")
  have does : (sifter.generate "local" messages).Does (sifter.newSession { prompt := "" })
      [⟨.generate call, refused⟩] refused (sifter.newSession { prompt := "" }) := by
    rw [isGenerate]
    exact Coroutine.does_perform_answer rfl
  exact ⟨call, .generate does (List.mem_singleton.mpr rfl), isRemote, rfl, rfl⟩

/-- Every call that leaves the machine is guarded exactly if the configuration does not escape; if
it does, any messages leave as they are. -/
theorem remote_guarded_iff (config : SifterConfig) (rules : StandingRuleEngine)
    (hasHistory : Bool) :
    ((∀ call, (ofConfig config rules hasHistory).Makes call →
        config.Remote call.provider call.model →
        (ofConfig config rules hasHistory).GuardedCall call) ↔ ¬ config.Escapes) ∧
      (config.Escapes → ∀ messages, ∃ call, (ofConfig config rules hasHistory).Makes call ∧
        config.Remote call.provider call.model ∧ call.messages = messages) := by
  refine ⟨⟨?_, ?_⟩, ?_⟩
  · intro guarded escapes
    rcases sends_of_escapes rules hasHistory escapes [] with ⟨call, makes, isRemote, -, isLocal⟩
    have isBound := (guarded call makes isRemote).isBound
    rw [isLocal] at isBound
    have notBound : isCloudBound .local ((ofConfig config rules hasHistory).modelConfig .local) =
        false := escapes.notMarked
    rw [notBound] at isBound
    cases isBound
  · intro notEscapes call makes isRemote
    have addressed := makes.addressed
    refine addressed.guarded ?_
    rcases onTier : call.tier with _ | _
    · by_contra notBound
      have notMarked : Py.endsWith config.localModel ":cloud" = false := by
        rw [Bool.not_eq_true] at notBound
        exact notBound
      have isModel : call.model = config.localModel := by
        rw [addressed.model, onTier]
        rfl
      have isProvider : (buildRegistry config).providerFor config.localModel config.localProvider =
          .ok call.provider := by
        have found := addressed.provider
        rw [onTier] at found
        exact found
      rw [isModel] at isRemote
      refine notEscapes ⟨notMarked, ?_⟩
      rcases (providerFor_local notMarked).mp isProvider with isBuilt | ⟨isUnbuilt, isBuilt⟩
      · exact .inl ((remote_iff_leaves isBuilt notMarked).mp isRemote)
      · exact .inr ⟨isUnbuilt, (remote_iff_leaves isBuilt notMarked).mp isRemote⟩
    · rfl
  · intro escapes messages
    rcases sends_of_escapes rules hasHistory escapes messages with
      ⟨call, makes, isRemote, areMessages, -⟩
    exact ⟨call, makes, isRemote, areMessages⟩

/-- The local endpoint of an OpenAI-compatible provider is not used if the expert has one. -/
example : SifterConfig.Escapes
    { localProvider := "openai-compatible"
      localEndpoint := some "http://localhost:11434"
      expertEndpoint := some "https://api.deepseek.com/v1" } :=
  ⟨by decide +kernel, .inl (.inr ⟨rfl, _, rfl, by decide⟩)⟩

end ComputeSifter

end Aa.Sifter
