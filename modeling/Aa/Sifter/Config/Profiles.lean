import Aa.Sifter.Config.Resolve
import Aa.Sifter.Config.Store

/-!
# Profiles

`aa_sifter.config.profiles`: operations on the profiles of a configuration, each of which saves
it. In every run of them the active profile is one of the profiles, and what the file holds is
the configuration, with the default profile put back if it was deleted.
-/

namespace Aa.Sifter.Config

open Library

/-! ## Operations -/

inductive ProfileError where
  | profile (message : String)
  | key (name : String)

def getProfile (app : ApplicationConfig) (name : Option String) :
    Except ProfileError ComputeProfile :=
  match app.profiles.lookup (profileOf app name) with
  | none => .error (.profile ("profile '" ++ profileOf app name ++ "' does not exist"))
  | some profile => .ok profile

/-- A profile that was changed in place. -/
def ApplicationConfig.setProfile (app : ApplicationConfig) (name : String)
    (profile : ComputeProfile) : ApplicationConfig :=
  { app with profiles := assign name profile app.profiles }

def activateProfile (app : ApplicationConfig) (name : String) :
    Except ProfileError ApplicationConfig := do
  let _ ← getProfile app (some name)
  pure { app with activeProfile := name }

def createProfile (app : ApplicationConfig) (name : String) (source : Option String)
    (force : Bool) : Except ProfileError ApplicationConfig :=
  if name ∈ app.profiles.map Prod.fst ∧ force = false then
    .error (.profile ("profile '" ++ name ++ "' already exists"))
  else do
    let base ← getProfile app (some (profileOf app source))
    pure (app.setProfile name { base with name })

def copyProfile (app : ApplicationConfig) (source target : String) (force : Bool) :
    Except ProfileError ApplicationConfig :=
  createProfile app target (some source) force

def deleteProfile (app : ApplicationConfig) (name : String) :
    Except ProfileError ApplicationConfig := do
  let _ ← getProfile app (some name)
  if app.profiles.length = 1 then .error (.profile "cannot delete the last profile")
  else if name ∉ app.profiles.map Prod.fst then .error (.key name)
  else
    let profiles := app.profiles.filter fun entry => entry.1 ≠ name
    let active := if app.activeProfile = name then (profiles.map Prod.fst).head?.getD name
      else app.activeProfile
    pure { app with profiles, activeProfile := active }

/-- What is said of a tier. -/
structure TierChange where
  provider : String
  model : String
  contextLimit : Option ℤ := none
  maxOutputTokens : Option ℤ := none
  endpoint : Option String := none
  apiKeyEnv : Option String := none

/-- A tier, a new one if there was none, with what is said of it. -/
def TierChange.apply (change : TierChange) (tier : Option ModelTierConfig) : ModelTierConfig :=
  let target : ModelTierConfig := match tier with
    | none => { provider := change.provider, model := change.model }
    | some tier => { tier with provider := change.provider, model := change.model }
  { target with
    contextLimit := change.contextLimit.or target.contextLimit
    maxOutputTokens := change.maxOutputTokens.or target.maxOutputTokens
    endpoint := orElse change.endpoint target.endpoint
    apiKeyEnv := orElse change.apiKeyEnv target.apiKeyEnv }

def setTier (app : ApplicationConfig) (tier : String) (change : TierChange)
    (profileName : Option String) : Except ProfileError ApplicationConfig := do
  let profile ← getProfile app profileName
  if tier = "local" then
    pure (app.setProfile (profileOf app profileName)
      { profile with «local» := some (change.apply profile.local) })
  else if tier = "expert" then
    pure (app.setProfile (profileOf app profileName)
      { profile with expert := some (change.apply profile.expert) })
  else .error (.profile ("unknown tier '" ++ tier ++ "'"))

/-- What is said of a profile. -/
structure ProfileChange where
  localModel : Option String := none
  expertModel : Option String := none
  routing : Option String := none
  cloud : Option Bool := none
  localFirst : Option Bool := none
  contextLimit : Option ℤ := none

def setModel (provider model : String) : Option ModelTierConfig → ModelTierConfig
  | none => { provider, model }
  | some tier => { tier with model }

/-- A profile with what is said of it, in the order of the fields. -/
def ProfileChange.apply (change : ProfileChange) (profile : ComputeProfile) : ComputeProfile :=
  let profile := match orElse change.localModel none with
    | some model => { profile with «local» := some (setModel "ollama" model profile.local) }
    | none => profile
  let profile := match orElse change.expertModel none with
    | some model => { profile with expert := some (setModel "deepseek" model profile.expert) }
    | none => profile
  let profile := match orElse change.routing none with
    | some routing => { profile with routingPolicy := routing }
    | none => profile
  let profile := match change.cloud with
    | some cloud => { profile with
        preferences := { profile.preferences with cloudAllowed := cloud }
        expert := profile.expert.map fun tier => { tier with enabled := cloud } }
    | none => profile
  let profile := match change.localFirst with
    | some localFirst => { profile with
        preferences := { profile.preferences with localFirst } }
    | none => profile
  match change.contextLimit with
  | some limit => { profile with
      «local» := profile.local.map fun tier => { tier with contextLimit := some limit } }
  | none => profile

/-- The file is written if something was said that applies. -/
def ProfileChange.changes (change : ProfileChange) (profile : ComputeProfile) : Bool :=
  (orElse change.localModel none).isSome || (orElse change.expertModel none).isSome ||
    (orElse change.routing none).isSome || change.cloud.isSome || change.localFirst.isSome ||
    (change.contextLimit.isSome && (change.apply profile).local.isSome)

def updateProfile (app : ApplicationConfig) (change : ProfileChange)
    (profileName : Option String) : Except ProfileError (ApplicationConfig × Bool) := do
  let profile ← getProfile app profileName
  pure (app.setProfile (profileOf app profileName) (change.apply profile),
    change.changes profile)

/-! ## Runs -/

inductive Operation where
  | activate (name : String)
  | create (name : String) (source : Option String) (force : Bool)
  | copy (source target : String) (force : Bool)
  | delete (name : String)
  | setTier (tier : String) (change : TierChange) (profileName : Option String)
  | update (change : ProfileChange) (profileName : Option String)

/-- A configuration and the file it is saved to. -/
structure Store where
  app : ApplicationConfig
  file : List Char

/-- The configuration after an operation, and whether it is saved. -/
def Operation.result (app : ApplicationConfig) :
    Operation → Except ProfileError (ApplicationConfig × Bool)
  | .activate name => (activateProfile app name).map fun app => (app, true)
  | .create name source force => (createProfile app name source force).map fun app => (app, true)
  | .copy source target force => (copyProfile app source target force).map fun app => (app, true)
  | .delete name => (deleteProfile app name).map fun app => (app, true)
  | .setTier tier change profileName =>
      (Config.setTier app tier change profileName).map fun app => (app, true)
  | .update change profileName => updateProfile app change profileName

/-- An operation that raises leaves everything as it was. -/
def step (models : Models) (store : Store) (operation : Operation) : Store :=
  match operation.result store.app with
  | .error _ => store
  | .ok (app, saves) => ⟨app, if saves then saveApplicationConfig models app else store.file⟩

def run (models : Models) (store : Store) (operations : List Operation) : Store :=
  operations.foldl (step models) store

/-- An operation that gives names that can be keys of the file. -/
def Operation.Named : Operation → Prop
  | .activate name => name ≠ ""
  | .create name _ _ => Library.Toml.isBare name = true
  | .copy _ target _ => Library.Toml.isBare target = true
  | _ => True

/-- The active profile is one of the profiles, and all names can be keys of the file. -/
structure Sound (models : Models) (app : ApplicationConfig) : Prop where
  version : app.version = configVersion
  distinct : (app.profiles.map Prod.fst).Nodup
  active : app.activeProfile ∈ app.profiles.map Prod.fst
  bare : ∀ name ∈ app.profiles.map Prod.fst, Library.Toml.isBare name = true
  activeHardware : ∀ name ∈ app.activeHardware, name.toList.all Toml.isPlain = true
  hardware : KeptNamed models.dumpHardware models.validateHardware app.hardware

section Assign

variable {α : Type} {key : String} {value : α} {members : List (String × α)}

theorem map_fst_assign (key : String) (value : α) (members : List (String × α)) :
    (assign key value members).map Prod.fst =
      if key ∈ members.map Prod.fst then members.map Prod.fst
      else members.map Prod.fst ++ [key] := by
  induction members with
  | nil => rfl
  | cons member members ih =>
      rw [assign]
      split_ifs with isKey isIn isIn
      · rw [List.map_cons, List.map_cons, isKey]
      · exact absurd (by simp [isKey]) isIn
      · rw [List.map_cons, ih, if_pos]
        · rfl
        · exact (List.mem_cons.mp isIn).resolve_left (Ne.symm isKey)
      · rw [List.map_cons, ih, if_neg]
        · rfl
        · exact fun isRest => isIn (List.mem_cons_of_mem _ isRest)

theorem assign_lookup (isThere : members.lookup key = some value) :
    assign key value members = members := by
  induction members with
  | nil => cases isThere
  | cons member members ih =>
      obtain ⟨name, current⟩ := member
      rw [List.lookup_cons] at isThere
      rw [assign]
      split_ifs with isKey
      · rw [← isKey, beq_self_eq_true] at isThere
        rw [← isKey, Option.some.inj isThere]
      · rw [beq_false_of_ne (Ne.symm isKey)] at isThere
        rw [ih isThere]

end Assign

section Steps

variable {models : Models} {app changed : ApplicationConfig} {name : String}
  {profile : ComputeProfile}

theorem lookup_of_getProfile {given : Option String} (isFound : getProfile app given = .ok profile) :
    app.profiles.lookup (profileOf app given) = some profile := by
  rw [getProfile] at isFound
  split at isFound
  · cases isFound
  · rename_i isThere
    rw [isThere, Except.ok.inj isFound]

theorem mem_of_getProfile {given : Option String} (isFound : getProfile app given = .ok profile) :
    profileOf app given ∈ app.profiles.map Prod.fst := by
  have isThere : (app.profiles.lookup (profileOf app given)).isSome = true := by
    rw [lookup_of_getProfile isFound, Option.isSome_some]
  rcases List.lookup_isSome_iff.mp isThere with ⟨entry, isIn, isName⟩
  rw [beq_iff_eq.mp isName]
  exact List.mem_map_of_mem isIn

theorem profileOf_of_ne (named : name ≠ "") : profileOf app (some name) = name := by
  rw [profileOf, orElse, if_neg named, Option.getD_some]

theorem Sound.setProfile (sound : Sound models app) (isBare : Library.Toml.isBare name = true) :
    Sound models (app.setProfile name profile) := by
  have names := map_fst_assign name profile app.profiles
  refine ⟨sound.version, ?_, ?_, ?_, sound.activeHardware, sound.hardware⟩
  · rw [ApplicationConfig.setProfile, names]
    split_ifs with isIn
    · exact sound.distinct
    · exact List.nodup_append.mpr ⟨sound.distinct, List.nodup_singleton _, fun other isOther key isKey =>
        fun isSame => isIn (List.mem_singleton.mp isKey ▸ isSame ▸ isOther)⟩
  · rw [ApplicationConfig.setProfile, names]
    split_ifs
    · exact sound.active
    · exact List.mem_append_left _ sound.active
  · rw [ApplicationConfig.setProfile, names]
    split_ifs
    · exact sound.bare
    · intro other isOther
      rcases List.mem_append.mp isOther with isOther | isOther
      · exact sound.bare other isOther
      · rw [List.mem_singleton.mp isOther]
        exact isBare

theorem Sound.activate (sound : Sound models app) (named : name ≠ "")
    (isOk : activateProfile app name = .ok changed) : Sound models changed := by
  rw [activateProfile] at isOk
  rcases isFound : getProfile app (some name) with error | profile
  · rw [isFound] at isOk
    cases isOk
  · rw [isFound] at isOk
    rcases isOk with ⟨⟩
    have isThere := mem_of_getProfile isFound
    rw [profileOf_of_ne named] at isThere
    exact { sound with active := isThere }

theorem Sound.create {source : Option String} {force : Bool} (sound : Sound models app)
    (named : Library.Toml.isBare name = true)
    (isOk : createProfile app name source force = .ok changed) : Sound models changed := by
  rw [createProfile] at isOk
  split_ifs at isOk
  rcases isFound : getProfile app (some (profileOf app source)) with error | profile
  · rw [isFound] at isOk
    cases isOk
  · rw [isFound] at isOk
    rcases isOk with ⟨⟩
    exact sound.setProfile named

theorem exists_other {profiles : List (String × ComputeProfile)}
    (distinct : (profiles.map Prod.fst).Nodup) (isThere : name ∈ profiles.map Prod.fst)
    (notLast : profiles.length ≠ 1) : ∃ entry ∈ profiles, entry.1 ≠ name := by
  by_contra areSame
  push Not at areSame
  have isRepeated : profiles.map Prod.fst = List.replicate profiles.length name := by
    refine List.eq_replicate_iff.mpr ⟨List.length_map _, fun other isOther => ?_⟩
    rcases List.mem_map.mp isOther with ⟨entry, isIn, rfl⟩
    exact areSame entry isIn
  rw [isRepeated] at distinct isThere
  have isShort := List.nodup_replicate.mp distinct
  have isLong := (List.mem_replicate.mp isThere).1
  omega

theorem Sound.delete (sound : Sound models app) (isOk : deleteProfile app name = .ok changed) :
    Sound models changed := by
  rw [deleteProfile] at isOk
  rcases isFound : getProfile app (some name) with error | profile
  · rw [isFound] at isOk
    cases isOk
  rw [isFound] at isOk
  change (if _ then _ else if _ then _ else _) = _ at isOk
  split_ifs at isOk with isLast isThere
  all_goals
    rcases isOk with ⟨⟩
    have isSublist : ((app.profiles.filter fun entry => entry.1 ≠ name).map Prod.fst).Sublist
        (app.profiles.map Prod.fst) := List.filter_sublist.map _
    refine ⟨sound.version, isSublist.nodup sound.distinct, ?_,
      fun other isIn => sound.bare other (isSublist.subset isIn), sound.activeHardware,
      sound.hardware⟩
  · rcases exists_other sound.distinct isThere isLast with ⟨entry, isIn, isOther⟩
    have isLeft : entry ∈ app.profiles.filter fun entry => entry.1 ≠ name :=
      List.mem_filter.mpr ⟨isIn, decide_eq_true isOther⟩
    rcases List.exists_cons_of_ne_nil (List.ne_nil_of_mem isLeft) with ⟨first, others, areLeft⟩
    dsimp only
    rw [areLeft]
    exact List.mem_cons_self
  · rename_i isActive
    rcases List.mem_map.mp sound.active with ⟨entry, isIn, isName⟩
    refine List.mem_map.mpr ⟨entry, List.mem_filter.mpr ⟨isIn, decide_eq_true ?_⟩, isName⟩
    rw [isName]
    exact isActive

theorem Sound.setTier {tier : String} {change : TierChange} {given : Option String}
    (sound : Sound models app) (isOk : Config.setTier app tier change given = .ok changed) :
    Sound models changed := by
  rw [Config.setTier] at isOk
  rcases isFound : getProfile app given with error | profile
  · rw [isFound] at isOk
    cases isOk
  rw [isFound] at isOk
  have isBare := sound.bare _ (mem_of_getProfile isFound)
  change (if _ then _ else if _ then _ else _) = _ at isOk
  split_ifs at isOk
  · rcases isOk with ⟨⟩
    exact sound.setProfile isBare
  · rcases isOk with ⟨⟩
    exact sound.setProfile isBare

theorem updateProfile_ok {change : ProfileChange} {given : Option String} {saves : Bool}
    (isOk : updateProfile app change given = .ok (changed, saves)) :
    ∃ profile, getProfile app given = .ok profile ∧
      changed = app.setProfile (profileOf app given) (change.apply profile) ∧
      saves = change.changes profile := by
  rw [updateProfile] at isOk
  rcases isFound : getProfile app given with error | profile
  · rw [isFound] at isOk
    cases isOk
  · rw [isFound] at isOk
    rcases isOk with ⟨⟩
    exact ⟨profile, rfl, rfl, rfl⟩

theorem Sound.update {change : ProfileChange} {given : Option String} {saves : Bool}
    (sound : Sound models app) (isOk : updateProfile app change given = .ok (changed, saves)) :
    Sound models changed := by
  rcases updateProfile_ok isOk with ⟨profile, isFound, rfl, -⟩
  exact sound.setProfile (sound.bare _ (mem_of_getProfile isFound))

theorem map_ok {result : Except ProfileError ApplicationConfig} {saves : Bool}
    (isOk : (result.map fun app => (app, true)) = .ok (changed, saves)) :
    result = .ok changed ∧ saves = true := by
  rcases result with error | app
  · cases isOk
  · rcases isOk with ⟨⟩
    exact ⟨rfl, rfl⟩

/-- No operation takes the active profile away, or gives a name that cannot be a key. -/
theorem Sound.result {operation : Operation} {saves : Bool} (sound : Sound models app)
    (named : operation.Named) (isOk : operation.result app = .ok (changed, saves)) :
    Sound models changed := by
  cases operation with
  | activate name => exact sound.activate named (map_ok isOk).1
  | create name source force => exact sound.create named (map_ok isOk).1
  | copy source target force => exact sound.create named (map_ok isOk).1
  | delete name => exact sound.delete (map_ok isOk).1
  | setTier tier change given => exact sound.setTier (map_ok isOk).1
  | update change given => exact sound.update isOk

/-- What is not saved changes nothing. -/
theorem apply_of_not_changes {change : ProfileChange} (notChanges : change.changes profile = false) :
    change.apply profile = profile := by
  simp only [ProfileChange.changes, Bool.or_eq_false_iff, Option.isSome_eq_false_iff,
    Option.isNone_iff_eq_none, Bool.and_eq_false_iff] at notChanges
  rcases notChanges with ⟨⟨⟨⟨⟨isLocal, isExpert⟩, isRouting⟩, isCloud⟩, isFirst⟩, isLimit⟩
  simp only [ProfileChange.apply, isLocal, isExpert, isRouting, isCloud, isFirst] at isLimit ⊢
  rcases isGiven : change.contextLimit with _ | limit
  · rfl
  · rw [isGiven] at isLimit
    have isNone : profile.local = none := by simpa using isLimit
    cases profile
    dsimp only at isNone ⊢
    rw [isNone]
    rfl

theorem result_of_not_saves {operation : Operation}
    (isOk : operation.result app = .ok (changed, false)) : changed = app := by
  cases operation with
  | activate name => cases (map_ok isOk).2
  | create name source force => cases (map_ok isOk).2
  | copy source target force => cases (map_ok isOk).2
  | delete name => cases (map_ok isOk).2
  | setTier tier change given => cases (map_ok isOk).2
  | update change given =>
      rcases updateProfile_ok isOk with ⟨profile, isFound, rfl, notSaved⟩
      rw [apply_of_not_changes notSaved.symm, ApplicationConfig.setProfile,
        assign_lookup (lookup_of_getProfile isFound)]

/-- The file holds what was saved last, which is the configuration. -/
structure Held (models : Models) (store : Store) : Prop where
  sound : Sound models store.app
  saved : store.file = saveApplicationConfig models store.app

theorem Held.step {store : Store} {operation : Operation} (held : Held models store)
    (named : operation.Named) : Held models (Config.step models store operation) := by
  rw [Config.step]
  split
  · exact held
  · rename_i app saves isOk
    refine ⟨held.sound.result named isOk, ?_⟩
    dsimp only
    split_ifs with isSaved
    · rfl
    · rw [Bool.not_eq_true] at isSaved
      rw [isSaved] at isOk
      rw [held.saved, result_of_not_saves isOk]

theorem Held.run {store : Store} {operations : List Operation} (held : Held models store)
    (named : ∀ operation ∈ operations, operation.Named) :
    Held models (Config.run models store operations) := by
  induction operations generalizing store with
  | nil => exact held
  | cons operation operations ih =>
      exact ih (held.step (named operation List.mem_cons_self))
        fun next isIn => named next (List.mem_cons_of_mem _ isIn)

/-- Characters of keys can be in strings. -/
theorem isPlain_of_isBare (isBare : Library.Toml.isBare name = true) :
    name.toList.all Toml.isPlain = true := by
  refine List.all_eq_true.mpr fun c isIn => ?_
  have isKey := Library.Toml.isKeyChar_of_isBare isBare c isIn
  have isWord : Library.Toml.isWordChar c = true := by
    rw [Library.Toml.isWordChar, isKey]
    rfl
  rcases Library.Toml.toNat_of_isWordChar isWord with ⟨low, high⟩
  have notBackslash : c ≠ '\\' := by
    rintro rfl
    cases isKey
  have notQuote : c ≠ '"' := by
    rintro rfl
    cases isKey
  have isText : Library.Toml.isTextChar c = true := by
    simp only [Library.Toml.isTextChar, Bool.and_eq_true, Bool.or_eq_true, decide_eq_true_eq,
      bne_iff_ne]
    exact ⟨⟨⟨.inl (by omega), by omega⟩, notBackslash⟩, notQuote⟩
  rw [Toml.isPlain, isText]
  rfl

theorem Sound.savable (sound : Sound models app)
    (kept : ∀ entry ∈ app.profiles, Kept models.dumpProfile models.validateProfile entry.2) :
    Savable models app := by
  refine ⟨sound.version, isPlain_of_isBare (sound.bare _ sound.active), sound.activeHardware,
    ⟨fun entry isIn => sound.bare _ (List.mem_map_of_mem isIn), sound.distinct, kept⟩, ?_,
    sound.hardware⟩
  intro isEmpty
  have isActive := sound.active
  rw [isEmpty] at isActive
  cases isActive

/-- In every run the active profile is one of the profiles, and what is loaded is the
configuration, with the default profile beside the others. -/
theorem load_run {interpreter : PyInterpreter} {store : Store} {operations : List Operation}
    (held : Held models store) (named : ∀ operation ∈ operations, operation.Named)
    (kept : ∀ entry ∈ (run models store operations).app.profiles,
      Kept models.dumpProfile models.validateProfile entry.2) :
    let final := run models store operations
    final.app.activeProfile ∈ final.app.profiles.map Prod.fst ∧
      loadApplicationConfig interpreter models (some final.file) = .ok { final.app with
        profiles := if "default" ∈ final.app.profiles.map Prod.fst then final.app.profiles
          else final.app.profiles ++ [("default", defaultProfile)] } := by
  have isHeld := held.run named
  refine ⟨isHeld.sound.active, ?_⟩
  rw [loadApplicationConfig, isHeld.saved, parse_save (isHeld.sound.savable kept), withDefault]
  have isActive := isHeld.sound.active
  split_ifs with isThere isStill
  · rfl
  · rfl
  · rw [List.map_append] at isStill
    exact absurd (List.mem_append_left _ isActive) isStill

end Steps

/-- The default configuration as it is saved. -/
def shippedStore : Store :=
  ⟨defaultApplicationConfig, saveApplicationConfig shippedModels defaultApplicationConfig⟩

theorem held_shippedStore : Held shippedModels shippedStore := by
  refine ⟨⟨rfl, List.nodup_singleton _, List.mem_cons_self, fun name isIn => ?_,
    (fun _ isIn => nomatch isIn), ⟨(fun _ isIn => nomatch isIn), List.nodup_nil,
      (fun _ isIn => nomatch isIn)⟩⟩, rfl⟩
  rw [List.mem_singleton.mp isIn]
  decide +kernel

/-- A profile that was created, activated and deleted again. -/
def passing : List Operation :=
  [.create "work" none false, .activate "work", .delete "work"]

theorem run_passing : (run shippedModels shippedStore passing).app = defaultApplicationConfig := by
  rfl

/-- An interpreter with room for the values of a configuration. -/
def plainInterpreter : PyInterpreter where
  int := String.toInt?
  float _ := none
  quoted text := "'" ++ text ++ "'"
  floatText value := String.ofList value.repr
  depth := 1000

theorem load_run_passing :
    let final := run shippedModels shippedStore passing
    final.app.activeProfile ∈ final.app.profiles.map Prod.fst ∧
      loadApplicationConfig plainInterpreter shippedModels (some final.file) = .ok { final.app with
        profiles := if "default" ∈ final.app.profiles.map Prod.fst then final.app.profiles
          else final.app.profiles ++ [("default", defaultProfile)] } := by
  refine load_run held_shippedStore ?_ ?_
  · intro operation isIn
    simp only [passing, List.mem_cons, List.not_mem_nil, or_false] at isIn
    rcases isIn with rfl | rfl | rfl
    · exact show Library.Toml.isBare "work" = true by decide +kernel
    · exact show "work" ≠ "" by decide
    · trivial
  · rw [run_passing]
    intro entry isIn
    rw [List.mem_singleton.mp isIn]
    exact kept_defaultProfile

end Aa.Sifter.Config
