import Aa.Library.PyValue
import Aa.Sifter.Config.Schema
import Aa.Sifter.Config.Toml

/-!
# The configuration file

`aa_sifter.config.store`: the application configuration is kept in one file, and a profile can
be written to a file of its own. What was saved is loaded again with a default profile beside
it, and a profile that was exported is imported as it was, unless it has a key that looks like a
secret.
-/

namespace Aa.Sifter.Config

open Library Library.Toml

/-! ## Models -/

/-- What `model_dump` and `model_validate` make of profiles; `None` is not dumped. -/
structure Models where
  dumpProfile : ComputeProfile → List (String × PyValue)
  validateProfile : PyValue → Option ComputeProfile
  dumpHardware : HardwareProfile → List (String × PyValue)
  validateHardware : PyValue → Option HardwareProfile

def defaultLocalTier : ModelTierConfig where
  provider := "ollama"
  model := "qwen3.5:9b"
  contextLimit := some 64000
  maxOutputTokens := some 4096
  temperature := some (1 / 5)

def defaultExpertTier : ModelTierConfig where
  provider := "deepseek"
  model := "deepseek-chat"
  endpoint := some "https://api.deepseek.com/v1"
  apiKeyEnv := some "DEEPSEEK_API_KEY"
  contextLimit := some 64000
  maxOutputTokens := some 8192
  temperature := some (1 / 5)
  inputCostPerMtok := some (7 / 50)
  outputCostPerMtok := some (7 / 25)

def defaultProfile : ComputeProfile where
  name := "default"
  «local» := some defaultLocalTier
  expert := some defaultExpertTier

def defaultApplicationConfig : ApplicationConfig where
  activeProfile := "default"
  profiles := [("default", defaultProfile)]

/-- Named models as they are dumped. -/
def dumpNamed {α : Type} (dump : α → List (String × PyValue)) (entries : List (String × α)) :
    List (String × PyValue) := entries.map fun entry => (entry.1, .obj (dump entry.2))

/-- The fields of a configuration that are not tables. -/
def dumpSettings (config : ApplicationConfig) : List (String × PyValue) :=
  ("version", .num (.int config.version)) :: ("active_profile", .str config.activeProfile) ::
    (config.activeHardware.map fun name => ("active_hardware", .str name)).toList

/-- `config.model_dump(exclude_none=True)`. -/
def dumpApplication (models : Models) (config : ApplicationConfig) : List (String × PyValue) :=
  dumpSettings config ++ [("profiles", .obj (dumpNamed models.dumpProfile config.profiles)),
    ("hardware", .obj (dumpNamed models.dumpHardware config.hardware))]

def validateMembers {α : Type} (validate : PyValue → Option α) :
    List (String × PyValue) → Option (List (String × α))
  | [] => some []
  | (key, value) :: members => do
      let model ← validate value
      let rest ← validateMembers validate members
      pure ((key, model) :: rest)

/-- A field with named models, none if it is absent. -/
def validateNamed {α : Type} (validate : PyValue → Option α) :
    Option PyValue → Option (List (String × α))
  | none => some []
  | some (.obj members) => validateMembers validate members
  | some _ => none

def validateVersion : Option PyValue → Option ℤ
  | none => some configVersion
  | some (.num (.int version)) => some version
  | some _ => none

def validateActiveProfile : Option PyValue → Option String
  | none => some "default"
  | some (.str name) => some name
  | some _ => none

def validateActiveHardware : Option PyValue → Option (Option String)
  | none => some none
  | some .null => some none
  | some (.str name) => some (some name)
  | some _ => none

/-- `ApplicationConfig.model_validate(data)` of data whose version is an integer. -/
def validateApplication (models : Models) (data : List (String × PyValue)) :
    Option ApplicationConfig := do
  let version ← validateVersion (data.lookup "version")
  let activeProfile ← validateActiveProfile (data.lookup "active_profile")
  let activeHardware ← validateActiveHardware (data.lookup "active_hardware")
  let profiles ← validateNamed models.validateProfile (data.lookup "profiles")
  let hardware ← validateNamed models.validateHardware (data.lookup "hardware")
  pure { version, activeProfile, activeHardware, profiles, hardware }

/-! ## Loading -/

inductive StoreError where
  | toml
  | conversion (error : PyError)
  | validation
  | noProfile (name : String)
  | secret (path : String)

/-- `data[key] = value`. -/
def assign {α : Type} (key : String) (value : α) : List (String × α) → List (String × α)
  | [] => [(key, value)]
  | member :: members =>
      if member.1 = key then (key, value) :: members else member :: assign key value members

/-- The default profile with the models of an older configuration, and what is said of them. -/
def legacyProfile (interpreter : PyInterpreter) (localModel expertModel : PyValue) :
    Except PyError (ComputeProfile × List String) := do
  let (profile, warnings) ←
    match defaultProfile.local with
    | some tier =>
        if localModel.truthy then do
          let text ← localModel.formatted interpreter
          pure ({ defaultProfile with «local» := some { tier with model := text } },
            ["migrated legacy local_model='" ++ text ++ "' into the default profile"])
        else pure (defaultProfile, [])
    | none => pure (defaultProfile, [])
  match profile.expert with
  | some tier =>
      if expertModel.truthy then do
        let text ← expertModel.formatted interpreter
        pure ({ profile with expert := some { tier with model := text } },
          warnings ++ ["migrated legacy expert_model='" ++ text ++ "' into the default profile"])
      else pure (profile, warnings)
  | none => pure (profile, warnings)

/-- Upgrades the shape of an older configuration. -/
def migrate (interpreter : PyInterpreter) (models : Models) (data : List (String × PyValue)) :
    Except PyError (List (String × PyValue) × List String) := do
  let given := PyValue.get data "version"
  let version ← if given.truthy then given.int interpreter else pure 0
  let newer ← if configVersion < version then do
      let written ← PyValue.formatted interpreter (.num (.int version))
      pure ["config version " ++ written ++ " is newer than supported 1; unknown fields are ignored"]
    else pure []
  if (PyValue.get data "profiles").truthy then
    pure (assign "version" (.num (.int configVersion)) data, newer)
  else do
    let localModel := PyValue.get data "local_model"
    let expertModel := (data.lookup "expert_model").getD (PyValue.get data "cloud_model")
    let rest := data.filter fun member =>
      member.1 ≠ "local_model" ∧ member.1 ≠ "cloud_model" ∧ member.1 ≠ "expert_model"
    let (profile, warnings) ← legacyProfile interpreter localModel expertModel
    let profiles : PyValue := .obj [("default", .obj (models.dumpProfile profile))]
    let migrated ← if version ≠ 0 then do
        let written ← PyValue.formatted interpreter (.num (.int version))
        pure ["migrated config from version " ++ written ++ " to 1"]
      else pure []
    pure (assign "version" (.num (.int configVersion)) (assign "profiles" profiles rest),
      newer ++ warnings ++ migrated)

/-- The default profile is always there, and the active profile is one of them. -/
def withDefault (config : ApplicationConfig) : ApplicationConfig :=
  let profiles := if "default" ∈ config.profiles.map Prod.fst then config.profiles
    else config.profiles ++ [("default", defaultProfile)]
  let active := if config.activeProfile ∈ profiles.map Prod.fst then config.activeProfile
    else "default"
  { config with profiles, activeProfile := active }

def parseApplicationConfig (interpreter : PyInterpreter) (models : Models) (raw : List Char) :
    Except StoreError ApplicationConfig :=
  match loads PyNumber.read raw with
  | none => .error .toml
  | some data =>
      match migrate interpreter models data with
      | .error error => .error (.conversion error)
      | .ok (data, _) =>
          match validateApplication models data with
          | none => .error .validation
          | some config => .ok (withDefault config)

def loadApplicationConfig (interpreter : PyInterpreter) (models : Models) :
    Option (List Char) → Except StoreError ApplicationConfig
  | none => .ok defaultApplicationConfig
  | some raw => parseApplicationConfig interpreter models raw

/-- What is written to the file. -/
def saveApplicationConfig (models : Models) (config : ApplicationConfig) : List Char :=
  Toml.dumps (dumpApplication models config)

/-! ## Secrets -/

def secretKeys : List String := ["api_key", "apikey", "token", "password", "secret", "credentials"]

mutual

/-- Raises with the path of the first key that looks like a secret. -/
def assertNoSecrets (unicode : PyUnicode) (path : String) : PyValue → Except StoreError Unit
  | .obj members => assertNoSecretMembers unicode path members
  | .arr items => assertNoSecretItems unicode path items
  | _ => .ok ()

def assertNoSecretMembers (unicode : PyUnicode) (path : String) :
    List (String × PyValue) → Except StoreError Unit
  | [] => .ok ()
  | (key, value) :: members =>
      if unicode.lowered key ∈ secretKeys then .error (.secret (path ++ key))
      else do
        assertNoSecrets unicode (path ++ key ++ ".") value
        assertNoSecretMembers unicode path members

def assertNoSecretItems (unicode : PyUnicode) (path : String) :
    List PyValue → Except StoreError Unit
  | [] => .ok ()
  | item :: items => do
      assertNoSecrets unicode path item
      assertNoSecretItems unicode path items

end

def exportProfile (unicode : PyUnicode) (models : Models) (config : ApplicationConfig)
    (name : String) : Except StoreError (List Char) :=
  match config.profiles.lookup name with
  | none => .error (.noProfile name)
  | some profile => do
      let payload : PyValue := .obj (models.dumpProfile profile)
      assertNoSecrets unicode "" payload
      pure (Toml.dumps [("profile", payload)])

def importProfile (unicode : PyUnicode) (models : Models) (text : List Char) :
    Except StoreError ComputeProfile :=
  match loads PyNumber.read text with
  | none => .error .toml
  | some data => do
      let payload := (data.lookup "profile").getD (.obj data)
      assertNoSecrets unicode "" payload
      match models.validateProfile payload with
      | none => .error .validation
      | some profile => pure profile

/-! ## What was saved is loaded -/

section Saved

variable {interpreter : PyInterpreter} {models : Models}

/-- A model whose dump can be written, and is validated as it was in any order of its members. -/
def Kept {α : Type} (dump : α → List (String × PyValue)) (validate : PyValue → Option α)
    (model : α) : Prop :=
  Toml.writable (.obj (dump model)) = true ∧
    ∀ payload, Reordered payload (.obj (dump model)) → validate payload = some model

/-- Named models that can be written: bare names, none twice. -/
structure KeptNamed {α : Type} (dump : α → List (String × PyValue))
    (validate : PyValue → Option α) (entries : List (String × α)) : Prop where
  bare : ∀ entry ∈ entries, isBare entry.1 = true
  distinct : (entries.map Prod.fst).Nodup
  kept : ∀ entry ∈ entries, Kept dump validate entry.2

/-- A configuration that the file can hold. -/
structure Savable (models : Models) (config : ApplicationConfig) : Prop where
  version : config.version = configVersion
  active : config.activeProfile.toList.all Toml.isPlain = true
  activeHardware : ∀ name ∈ config.activeHardware, name.toList.all Toml.isPlain = true
  profiles : KeptNamed models.dumpProfile models.validateProfile config.profiles
  notEmpty : config.profiles ≠ []
  hardware : KeptNamed models.dumpHardware models.validateHardware config.hardware

section Named

variable {α : Type} {dump : α → List (String × PyValue)} {validate : PyValue → Option α}
  {entries : List (String × α)}

/-- Named models as they are read. -/
def readNamed (dump : α → List (String × PyValue)) (entries : List (String × α)) :
    List (String × PyValue) :=
  entries.map fun entry => (entry.1, (Toml.node (.obj (dump entry.2))).read)

theorem KeptNamed.writable (kept : KeptNamed dump validate entries) :
    Toml.writable (.obj (dumpNamed dump entries)) = true := by
  refine Toml.writable_obj.mpr ⟨fun member isIn => ?_, ?_⟩
  · rcases List.mem_map.mp isIn with ⟨entry, isEntry, rfl⟩
    exact ⟨kept.bare entry isEntry, (kept.kept entry isEntry).1⟩
  · rw [dumpNamed, List.map_map]
    exact kept.distinct

/-- Dumped models are tables, and stay in order. -/
theorem read_dumpNamed (dump : α → List (String × PyValue)) (entries : List (String × α)) :
    (Toml.node (.obj (dumpNamed dump entries))).read = .obj (readNamed dump entries) := by
  have isTable : ∀ member ∈ Toml.nodes (dumpNamed dump entries),
      Toml.isTableNode member.2 = true := by
    intro member isIn
    rw [Toml.nodes_eq, dumpNamed, List.map_map] at isIn
    rcases List.mem_map.mp isIn with ⟨entry, isEntry, rfl⟩
    rfl
  have isArranged : Toml.arrange ([] ++ Toml.nodes (dumpNamed dump entries)) = _ :=
    Toml.arrange_append (fun _ isIn => nomatch isIn) isTable
  rw [List.nil_append] at isArranged
  rw [Toml.node, isArranged, Node.read, readMembers_eq, Toml.nodes_eq, dumpNamed, List.map_map,
    List.map_map]
  rfl

theorem validateMembers_readNamed
    (kept : ∀ entry ∈ entries, Kept dump validate entry.2) :
    validateMembers validate (readNamed dump entries) = some entries := by
  induction entries with
  | nil => rfl
  | cons entry entries ih =>
      have isKept := kept entry List.mem_cons_self
      have isRead := isKept.2 _ (Toml.reordered_node _ isKept.1)
      rw [readNamed, List.map_cons, validateMembers, isRead]
      have isRest := ih fun next isIn => kept next (List.mem_cons_of_mem _ isIn)
      rw [readNamed] at isRest
      rw [isRest]
      rfl

end Named

variable {config : ApplicationConfig}

theorem mem_dumpSettings {member : String × PyValue} (isIn : member ∈ dumpSettings config) :
    member = ("version", .num (.int config.version)) ∨
      member = ("active_profile", .str config.activeProfile) ∨
      ∃ name ∈ config.activeHardware, member = ("active_hardware", .str name) := by
  rw [dumpSettings, List.mem_cons, List.mem_cons, Option.mem_toList, Option.map_eq_some_iff] at isIn
  rcases isIn with isVersion | isActive | ⟨name, isName, rfl⟩
  · exact .inl isVersion
  · exact .inr (.inl isActive)
  · exact .inr (.inr ⟨name, isName, rfl⟩)

theorem isBare_fields : ∀ field ∈
    ["version", "active_profile", "active_hardware", "profiles", "hardware"],
    isBare field = true := by
  decide +kernel

theorem Savable.writable (savable : Savable models config) :
    Toml.writable (.obj (dumpApplication models config)) = true := by
  have names : ((dumpApplication models config).map Prod.fst).Nodup := by
    rw [dumpApplication, dumpSettings]
    rcases config.activeHardware with _ | name
    · simp
    · simp
  refine Toml.writable_obj.mpr ⟨fun member isIn => ?_, names⟩
  rw [dumpApplication, List.mem_append, List.mem_cons, List.mem_singleton] at isIn
  rcases isIn with isIn | rfl | rfl
  · rcases mem_dumpSettings isIn with rfl | rfl | ⟨name, isName, rfl⟩
    · exact ⟨isBare_fields _ (by simp), rfl⟩
    · exact ⟨isBare_fields _ (by simp), savable.active⟩
    · exact ⟨isBare_fields _ (by simp), savable.activeHardware name isName⟩
  · exact ⟨isBare_fields _ (by simp), savable.profiles.writable⟩
  · exact ⟨isBare_fields _ (by simp), savable.hardware.writable⟩

/-- The data that is read from the file. -/
def readApplication (models : Models) (config : ApplicationConfig) : List (String × PyValue) :=
  dumpSettings config ++ [("profiles", .obj (readNamed models.dumpProfile config.profiles)),
    ("hardware", .obj (readNamed models.dumpHardware config.hardware))]

theorem isScalar_dumpSettings {member : String × PyValue} (isIn : member ∈ dumpSettings config) :
    Toml.isScalar member.2 = true := by
  rcases mem_dumpSettings isIn with rfl | rfl | ⟨name, isName, rfl⟩
  · rfl
  · rfl
  · rfl

theorem loads_save (savable : Savable models config) :
    loads PyNumber.read (saveApplicationConfig models config) =
      some (readApplication models config) := by
  have areValues : ∀ member ∈ Toml.nodes (dumpSettings config),
      Toml.isValueNode member.2 = true := by
    intro member isIn
    rw [Toml.nodes_eq] at isIn
    rcases List.mem_map.mp isIn with ⟨setting, isSetting, rfl⟩
    exact (Toml.isScalar_iff _).symm.trans (isScalar_dumpSettings isSetting)
  have isRead : readMembers (Toml.nodes (dumpSettings config)) = dumpSettings config := by
    rw [readMembers_eq, Toml.nodes_eq, List.map_map]
    refine (List.map_congr_left fun member isIn => ?_).trans (List.map_id _)
    exact congrArg (Prod.mk member.1)
      (congrArg Node.read (Toml.node_of_isScalar (isScalar_dumpSettings isIn)))
  rw [saveApplicationConfig, Toml.loads_dumps_eq savable.writable, dumpApplication, Toml.nodes_eq,
    List.map_append, ← Toml.nodes_eq, Toml.arrange_append areValues (by simp [Toml.node, Toml.isTableNode]),
    readMembers_eq, List.map_append, ← readMembers_eq, isRead]
  refine congrArg (fun tables => some (dumpSettings config ++ tables)) ?_
  simp [read_dumpNamed]

theorem lookup_readApplication (models : Models) (config : ApplicationConfig) :
    (readApplication models config).lookup "version" = some (.num (.int config.version)) ∧
      (readApplication models config).lookup "active_profile" =
        some (.str config.activeProfile) ∧
      (readApplication models config).lookup "active_hardware" =
        config.activeHardware.map JsonTree.str ∧
      (readApplication models config).lookup "profiles" =
        some (.obj (readNamed models.dumpProfile config.profiles)) ∧
      (readApplication models config).lookup "hardware" =
        some (.obj (readNamed models.dumpHardware config.hardware)) := by
  rw [readApplication, dumpSettings]
  rcases config.activeHardware with _ | name
  · simp [List.lookup]
  · simp [List.lookup]

/-- Nothing of a saved configuration is migrated. -/
theorem migrate_saved (savable : Savable models config) :
    migrate interpreter models (readApplication models config) =
      .ok (readApplication models config, []) := by
  rcases lookup_readApplication models config with ⟨isVersion, -, -, areProfiles, -⟩
  have isTruthy : PyValue.truthy (.obj (readNamed models.dumpProfile config.profiles)) = true := by
    rcases areAny : config.profiles with _ | ⟨entry, entries⟩
    · exact absurd areAny savable.notEmpty
    · rfl
  rw [savable.version] at isVersion
  have isOne : PyValue.truthy (.num (.int configVersion)) = true := rfl
  have isSame : assign "version" (.num (.int configVersion)) (readApplication models config) =
      readApplication models config := by
    rw [readApplication, dumpSettings, List.cons_append, assign, if_pos rfl, savable.version]
  rw [migrate, PyValue.get, PyValue.get, isVersion, areProfiles]
  simp [isOne, isTruthy, PyValue.int, isSame, Except.bind, pure, Except.pure, bind]

theorem validate_saved (savable : Savable models config) :
    validateApplication models (readApplication models config) = some config := by
  rcases lookup_readApplication models config with
    ⟨isVersion, isActive, isHardware, areProfiles, areHardware⟩
  have isName : validateActiveHardware (config.activeHardware.map JsonTree.str) =
      some config.activeHardware := by
    rcases config.activeHardware with _ | name
    · rfl
    · rfl
  rw [validateApplication, isVersion, isActive, isHardware, areProfiles, areHardware, isName,
    validateNamed, validateNamed, validateMembers_readNamed savable.profiles.kept,
    validateMembers_readNamed savable.hardware.kept]
  rfl

theorem parse_save (savable : Savable models config) :
    parseApplicationConfig interpreter models (saveApplicationConfig models config) =
      .ok (withDefault config) := by
  rw [parseApplicationConfig, loads_save savable]
  dsimp only
  rw [migrate_saved savable]
  dsimp only
  rw [validate_saved savable]

end Saved

/-! ## What was exported is imported -/

mutual

/-- The keys of a value, at any depth. -/
def keysOf : PyValue → List String
  | .obj members => keysOfMembers members
  | .arr items => keysOfItems items
  | _ => []

def keysOfMembers : List (String × PyValue) → List String
  | [] => []
  | (key, value) :: members => key :: (keysOf value ++ keysOfMembers members)

def keysOfItems : List PyValue → List String
  | [] => []
  | item :: items => keysOf item ++ keysOfItems items

end

section Exported

variable {unicode : PyUnicode} {models : Models} {config : ApplicationConfig} {name key : String}
  {members : List (String × PyValue)} {items : List PyValue}

theorem mem_keysOf_obj : key ∈ keysOf (.obj members) ↔
    ∃ member ∈ members, key = member.1 ∨ key ∈ keysOf member.2 := by
  rw [keysOf]
  induction members with
  | nil => simp [keysOfMembers]
  | cons member members ih =>
      rw [keysOfMembers, List.mem_cons, List.mem_append, ih]
      simp [or_assoc]

theorem mem_keysOf_arr : key ∈ keysOf (.arr items) ↔ ∃ item ∈ items, key ∈ keysOf item := by
  rw [keysOf]
  induction items with
  | nil => simp [keysOfItems]
  | cons item items ih =>
      rw [keysOfItems, List.mem_append, ih]
      simp

/-- A value is accepted if none of its keys looks like a secret, at any depth. -/
theorem assertNoSecrets_iff (value : PyValue) (path : String) :
    assertNoSecrets unicode path value = .ok () ↔
      ∀ key ∈ keysOf value, unicode.lowered key ∉ secretKeys := by
  induction value using JsonTree.induct generalizing path with
  | null => simp [assertNoSecrets, keysOf]
  | bool value => simp [assertNoSecrets, keysOf]
  | num value => simp [assertNoSecrets, keysOf]
  | str text => simp [assertNoSecrets, keysOf]
  | arr items ih =>
      rw [assertNoSecrets, keysOf]
      induction items with
      | nil => simp [assertNoSecretItems, keysOfItems]
      | cons item items ihItems =>
          have isFirst := ih item List.mem_cons_self path
          have areOthers := ihItems fun next isIn => ih next (List.mem_cons_of_mem _ isIn)
          rw [assertNoSecretItems, keysOfItems, List.forall_mem_append, ← isFirst, ← areOthers]
          rcases assertNoSecrets unicode path item with error | done
          · exact iff_of_false (fun isOk => nomatch isOk) (fun areOk => nomatch areOk.1)
          · exact ⟨fun isOk => ⟨rfl, isOk⟩, fun areOk => areOk.2⟩
  | obj members ih =>
      rw [assertNoSecrets, keysOf]
      induction members with
      | nil => simp [assertNoSecretMembers, keysOfMembers]
      | cons member members ihMembers =>
          obtain ⟨key, value⟩ := member
          have isFirst := ih (key, value) List.mem_cons_self (path ++ key ++ ".")
          have areOthers := ihMembers fun next isIn => ih next (List.mem_cons_of_mem _ isIn)
          rw [assertNoSecretMembers, keysOfMembers, List.forall_mem_cons, List.forall_mem_append,
            ← isFirst, ← areOthers]
          split_ifs with isSecret
          · simp [isSecret]
          · rcases assertNoSecrets unicode (path ++ key ++ ".") value with error | done
            · exact iff_of_false (fun isOk => nomatch isOk) (fun areOk => nomatch areOk.2.1)
            · exact ⟨fun isOk => ⟨isSecret, rfl, isOk⟩, fun areOk => areOk.2.2⟩

/-- Reading a value back gives it the keys it had. -/
theorem mem_keysOf_read (value : PyValue) :
    key ∈ keysOf (Toml.node value).read ↔ key ∈ keysOf value := by
  induction value using JsonTree.induct with
  | null => exact Iff.rfl
  | bool value => exact Iff.rfl
  | num value => exact Iff.rfl
  | str text => exact Iff.rfl
  | arr items ih =>
      rw [Toml.node]
      split_ifs with areTables
      · rw [Node.read, readItems_eq, Toml.itemNodes_eq, List.map_map, mem_keysOf_arr,
          mem_keysOf_arr]
        rw [Toml.isTables, Bool.and_eq_true, List.all_eq_true] at areTables
        have isItem (item : PyValue) (isIn : item ∈ items) :
            key ∈ keysOf (.obj (readMembers (Toml.itemNode item))) ↔ key ∈ keysOf item := by
          have isRead := ih item isIn
          cases item with
          | obj entries => exact isRead
          | null => cases areTables.2 _ isIn
          | bool value => cases areTables.2 _ isIn
          | num value => cases areTables.2 _ isIn
          | str text => cases areTables.2 _ isIn
          | arr items => cases areTables.2 _ isIn
        simp only [List.mem_map, exists_exists_and_eq_and, Function.comp_apply]
        exact exists_congr fun item => and_congr_right (isItem item)
      · exact Iff.rfl
  | obj members ih =>
      rw [Toml.node, Node.read, readMembers_eq, mem_keysOf_obj, mem_keysOf_obj]
      simp only [((Toml.arrange_perm _).map _).mem_iff, Toml.nodes_eq, List.map_map, List.mem_map,
        exists_exists_and_eq_and, Function.comp_apply]
      exact exists_congr fun member => and_congr_right fun isIn => or_congr_right (ih member isIn)

theorem isBare_profile : isBare "profile" = true := by
  decide +kernel

theorem exportProfile_iff {text : List Char} :
    exportProfile unicode models config name = .ok text ↔
      ∃ profile, config.profiles.lookup name = some profile ∧
        (∀ key ∈ keysOf (.obj (models.dumpProfile profile)), unicode.lowered key ∉ secretKeys) ∧
        text = Toml.dumps [("profile", .obj (models.dumpProfile profile))] := by
  rw [exportProfile]
  rcases config.profiles.lookup name with _ | profile
  · exact iff_of_false (fun isOk => nomatch isOk) (fun ⟨_, isProfile, _⟩ => nomatch isProfile)
  · have isAccepted : assertNoSecrets unicode "" (.obj (models.dumpProfile profile)) = .ok () ↔
        ∀ key ∈ keysOf (.obj (models.dumpProfile profile)), unicode.lowered key ∉ secretKeys :=
      assertNoSecrets_iff _ _
    constructor
    · intro isOk
      dsimp only at isOk
      rcases isDone : assertNoSecrets unicode "" (.obj (models.dumpProfile profile)) with error | done
      · rw [isDone] at isOk
        cases isOk
      · rw [isDone] at isOk
        exact ⟨profile, rfl, isAccepted.mp isDone, (Except.ok.inj isOk).symm⟩
    · rintro ⟨other, isProfile, noSecrets, rfl⟩
      rcases isProfile with ⟨⟩
      dsimp only
      rw [isAccepted.mpr noSecrets]
      rfl

/-- Exactly the profiles without secret-like keys are exported, and each is imported again. -/
theorem import_export (kept : ∀ profile, config.profiles.lookup name = some profile →
      Kept models.dumpProfile models.validateProfile profile) :
    ((∃ text, exportProfile unicode models config name = .ok text) ↔
      ∃ profile, config.profiles.lookup name = some profile ∧
        ∀ key ∈ keysOf (.obj (models.dumpProfile profile)), unicode.lowered key ∉ secretKeys) ∧
    ∀ text, exportProfile unicode models config name = .ok text →
      ∃ profile, config.profiles.lookup name = some profile ∧
        importProfile unicode models text = .ok profile := by
  refine ⟨⟨fun isExported => ?_, fun isThere => ?_⟩, fun text isExported => ?_⟩
  · rcases isExported with ⟨text, isExported⟩
    rcases exportProfile_iff.mp isExported with ⟨profile, isProfile, noSecrets, -⟩
    exact ⟨profile, isProfile, noSecrets⟩
  · rcases isThere with ⟨profile, isProfile, noSecrets⟩
    exact ⟨_, exportProfile_iff.mpr ⟨profile, isProfile, noSecrets, rfl⟩⟩
  · rcases exportProfile_iff.mp isExported with ⟨profile, isProfile, noSecrets, rfl⟩
    rcases kept profile isProfile with ⟨isWritable, isValidated⟩
    refine ⟨profile, isProfile, ?_⟩
    have isFile : Toml.writable (.obj [("profile", .obj (models.dumpProfile profile))]) = true :=
      Toml.writable_obj.mpr ⟨by simp [isWritable, isBare_profile], by simp⟩
    have isAccepted : assertNoSecrets unicode ""
        (Toml.node (.obj (models.dumpProfile profile))).read = .ok () :=
      (assertNoSecrets_iff _ _).mpr fun key isKey => noSecrets key ((mem_keysOf_read _).mp isKey)
    have isValid := isValidated _ (Toml.reordered_node _ isWritable)
    have isData : readMembers (Toml.arrange (Toml.nodes
        [("profile", .obj (models.dumpProfile profile))])) =
        [("profile", (Toml.node (.obj (models.dumpProfile profile))).read)] := rfl
    rw [importProfile, Toml.loads_dumps_eq isFile, isData]
    dsimp only
    rw [List.lookup_cons_self, Option.getD_some, isAccepted, isValid]
    rfl

end Exported

/-- What is dumped of the default profile, and no other. -/
def shippedModels : Models where
  dumpProfile profile :=
    let temperature := ((PyNumber.read ['0', '.', '2']).getD (.int 0))
    [("name", .str profile.name),
      ("local", .obj [("provider", .str "ollama"), ("model", .str "qwen3.5:9b"),
        ("context_limit", .num (.int 64000)), ("max_output_tokens", .num (.int 4096)),
        ("temperature", .num temperature), ("enabled", .bool true), ("options", .obj [])]),
      ("expert", .obj [("provider", .str "deepseek"), ("model", .str "deepseek-chat"),
        ("endpoint", .str "https://api.deepseek.com/v1"),
        ("api_key_env", .str "DEEPSEEK_API_KEY"), ("context_limit", .num (.int 64000)),
        ("max_output_tokens", .num (.int 8192)), ("temperature", .num temperature),
        ("input_cost_per_mtok", .num ((PyNumber.read ['0', '.', '1', '4']).getD (.int 0))),
        ("output_cost_per_mtok", .num ((PyNumber.read ['0', '.', '2', '8']).getD (.int 0))),
        ("enabled", .bool true), ("options", .obj [])]),
      ("local_fallbacks", .arr []), ("routing_policy", .str "adaptive"),
      ("budget", .obj [("max_cloud_calls_per_task", .num (.int 5)),
        ("max_cloud_tokens_per_task", .num (.int 200000)),
        ("max_cloud_cost_per_task", .num ((PyNumber.read ['2', '.', '0']).getD (.int 0))),
        ("max_parallel_cloud_calls", .num (.int 2)),
        ("max_parallel_local_calls", .num (.int 1))]),
      ("approval", .obj [("major", .bool true), ("critical", .bool true),
        ("significant", .bool false), ("non_interactive", .bool false)]),
      ("preferences", .obj [("local_first", .bool true), ("cost_sensitive", .bool true),
        ("privacy_sensitive", .bool true), ("cloud_allowed", .bool true)])]
  validateProfile
    | .obj _ => some defaultProfile
    | _ => none
  dumpHardware _ := []
  validateHardware
    | .obj _ => some {}
    | _ => none

theorem kept_defaultProfile :
    Kept shippedModels.dumpProfile shippedModels.validateProfile defaultProfile := by
  refine ⟨by decide +kernel, fun payload isReordered => ?_⟩
  cases isReordered with
  | refl value => rfl
  | obj perm keys same => rfl

theorem import_export_default :
    ((∃ text, exportProfile .ascii shippedModels defaultApplicationConfig "default" = .ok text) ↔
      ∃ profile, defaultApplicationConfig.profiles.lookup "default" = some profile ∧
        ∀ key ∈ keysOf (.obj (shippedModels.dumpProfile profile)),
          PyUnicode.lowered .ascii key ∉ secretKeys) ∧
    ∀ text, exportProfile .ascii shippedModels defaultApplicationConfig "default" = .ok text →
      ∃ profile, defaultApplicationConfig.profiles.lookup "default" = some profile ∧
        importProfile .ascii shippedModels text = .ok profile := by
  refine import_export fun profile isProfile => ?_
  rw [defaultApplicationConfig, List.lookup_cons_self] at isProfile
  rw [← Option.some.inj isProfile]
  exact kept_defaultProfile

end Aa.Sifter.Config
