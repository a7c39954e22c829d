import RoleStack.Config.Variables

/-!
# Overriding settings

Variables override settings in turn, up to the first one that cannot be read. If all can be read and
the outcome is valid, each setting is what the last variable for it says, in whatever order variables
of different names come. A failure keeps the overrides in front of it.
-/

namespace RoleStack.Config

/-! ### Variables for a setting -/

/-- The number that the text holds between blanks. -/
def wordOf? (text : String) : Option UInt64 := (readWord (trimBlanks text.toList)).toOption

def flagOf? (text : String) : Option Bool := (readFlag (trimBlanks text.toList)).toOption

namespace Setting

/-- The text can be read as a value of the setting. -/
def accepts : Setting → String → Bool
  | .instanceId, text | .defaultLockTimeout, text => (wordOf? text).isSome
  | .strictRemoveUntil, text => (flagOf? text).isSome

/-- The texts of the variables for the setting, in order. -/
def texts (setting : Setting) (overrides : List (String × String)) : List String :=
  (overrides.filter fun entry => entry.1 = setting.variableName).map Prod.snd

def lastText? (setting : Setting) (overrides : List (String × String)) : Option String :=
  (setting.texts overrides).getLast?

variable {setting other : Setting} {name text : String} {overrides rest : List (String × String)}

theorem ofVariable?_variableName (setting : Setting) :
    ofVariable? setting.variableName = some setting := by
  cases setting <;> decide

theorem ofVariable?_eq_some_iff : ofVariable? name = some setting ↔ name = setting.variableName := by
  constructor
  · intro h
    have hname : setting.variableName = name := by simpa using List.find?_some h
    exact hname.symm
  · rintro rfl
    exact ofVariable?_variableName setting

theorem variableName_inj : setting.variableName = other.variableName ↔ setting = other := by
  rw [← ofVariable?_eq_some_iff, ofVariable?_variableName, Option.some.injEq]

theorem mem_texts_iff : text ∈ setting.texts overrides ↔ (setting.variableName, text) ∈ overrides := by
  simp [texts]

theorem mem_of_lastText? (h : setting.lastText? overrides = some text) :
    (setting.variableName, text) ∈ overrides :=
  mem_texts_iff.mp (List.mem_of_getLast? h)

@[simp]
theorem lastText?_nil (setting : Setting) : setting.lastText? [] = none := rfl

theorem lastText?_cons_of_ne (h : name ≠ setting.variableName) :
    setting.lastText? ((name, text) :: rest) = setting.lastText? rest := by
  rw [lastText?, texts, List.filter_cons_of_neg (by simpa using h)]
  rfl

theorem lastText?_cons_self :
    setting.lastText? ((setting.variableName, text) :: rest) =
      some ((setting.lastText? rest).getD text) := by
  rw [lastText?, texts, List.filter_cons_of_pos (by simp), List.map_cons, List.getLast?_cons]
  rfl

@[simp]
theorem lastText?_cons (setting other : Setting) (text : String) (rest : List (String × String)) :
    setting.lastText? ((other.variableName, text) :: rest) =
      if other = setting then some ((setting.lastText? rest).getD text)
      else setting.lastText? rest := by
  split
  · rename_i hsame
    rw [hsame, lastText?_cons_self]
  · rename_i hother
    exact lastText?_cons_of_ne fun hname => hother (variableName_inj.mp hname)

theorem lastText?_append (setting : Setting) (overrides rest : List (String × String)) :
    setting.lastText? (overrides ++ rest) =
      (setting.lastText? rest).or (setting.lastText? overrides) := by
  simp only [lastText?, texts, List.filter_append, List.map_append, List.getLast?_append]

theorem exists_lastText?_of_mem (h : (setting.variableName, text) ∈ overrides) :
    ∃ last, setting.lastText? overrides = some last := by
  rw [← Option.isSome_iff_exists, lastText?, List.getLast?_isSome]
  exact List.ne_nil_of_mem (mem_texts_iff.mpr h)

end Setting

/-- Every variable for a setting can be read. -/
def AllAccepted (overrides : List (String × String)) : Prop :=
  ∀ setting text, (Setting.variableName setting, text) ∈ overrides → setting.accepts text = true

/-- Each setting is what the last variable for it says, or as before if there is none. -/
def overridden (config : Config) (overrides : List (String × String)) : Config where
  engine :=
    { instanceId :=
        match Setting.instanceId.lastText? overrides with
        | some text => wordOf? text
        | none => config.engine.instanceId
      strictRemoveUntil :=
        ((Setting.strictRemoveUntil.lastText? overrides).bind flagOf?).getD
          config.engine.strictRemoveUntil }
  coordinator :=
    { defaultLockTimeout :=
        ((Setting.defaultLockTimeout.lastText? overrides).bind wordOf?).getD
          config.coordinator.defaultLockTimeout }

/-! ### One variable -/

section Step

variable {config : Config} {setting : Setting} {name text : String}
  {overrides front rest : List (String × String)}

theorem apply_of_accepts (h : setting.accepts text = true) :
    config.apply setting text = .ok (config.overridden [(setting.variableName, text)]) := by
  cases setting with
  | instanceId | defaultLockTimeout =>
      cases hread : readWord (trimBlanks text.toList) with
      | error error => simp [Setting.accepts, wordOf?, hread, Except.toOption] at h
      | ok word =>
          simp [apply, overridden, wordOf?, hread, Except.toOption]
  | strictRemoveUntil =>
      cases hread : readFlag (trimBlanks text.toList) with
      | error message => simp [Setting.accepts, flagOf?, hread, Except.toOption] at h
      | ok flag =>
          simp [apply, overridden, flagOf?, hread, Except.toOption]

theorem exists_apply_eq_error (config : Config) (h : setting.accepts text = false) :
    ∃ message, config.apply setting text = .error (.invalid setting.key message) := by
  cases setting with
  | instanceId | defaultLockTimeout =>
      cases hread : readWord (trimBlanks text.toList) with
      | error error => exact ⟨error.message, by simp only [apply, hread]⟩
      | ok word => simp [Setting.accepts, wordOf?, hread, Except.toOption] at h
  | strictRemoveUntil =>
      cases hread : readFlag (trimBlanks text.toList) with
      | error message => exact ⟨message, by simp only [apply, hread]⟩
      | ok flag => simp [Setting.accepts, flagOf?, hread, Except.toOption] at h

theorem overridden_cons_of_none (h : Setting.ofVariable? name = none) :
    config.overridden ((name, text) :: rest) = config.overridden rest := by
  have hother : ∀ setting : Setting, name ≠ setting.variableName := by
    rintro setting rfl
    rw [Setting.ofVariable?_variableName] at h
    cases h
  simp only [overridden, Setting.lastText?_cons_of_ne (hother _)]

/-- A later variable for the same setting replaces the first, and settings do not touch each other. -/
theorem overridden_cons (hrest : AllAccepted rest) :
    (config.overridden [(setting.variableName, text)]).overridden rest =
      config.overridden ((setting.variableName, text) :: rest) := by
  have haccepted : ∀ setting later, Setting.lastText? setting rest = some later →
      setting.accepts later = true :=
    fun setting later hlater => hrest setting later (Setting.mem_of_lastText? hlater)
  cases setting with
  | instanceId =>
      cases hlater : Setting.instanceId.lastText? rest <;>
        simp [overridden, hlater]
  | strictRemoveUntil =>
      cases hlater : Setting.strictRemoveUntil.lastText? rest with
      | none => simp [overridden, hlater]
      | some later =>
          obtain ⟨flag, hflag⟩ := Option.isSome_iff_exists.mp (haccepted _ _ hlater)
          simp [overridden, hlater, hflag]
  | defaultLockTimeout =>
      cases hlater : Setting.defaultLockTimeout.lastText? rest with
      | none => simp [overridden, hlater]
      | some later =>
          obtain ⟨word, hword⟩ := Option.isSome_iff_exists.mp (haccepted _ _ hlater)
          simp [overridden, hlater, hword]

end Step

/-! ### The whole list -/

section Whole

variable {config : Config} {entry : String × String}
  {overrides reordered front rest : List (String × String)}

theorem allAccepted_nil : AllAccepted [] := fun _ _ hmem => nomatch hmem

theorem allAccepted_cons_iff :
    AllAccepted (entry :: rest) ↔
      (∀ setting : Setting, entry.1 = setting.variableName → setting.accepts entry.2 = true) ∧
        AllAccepted rest := by
  obtain ⟨name, text⟩ := entry
  constructor
  · intro h
    refine ⟨?_, fun setting later hmem => h setting later (List.mem_cons_of_mem _ hmem)⟩
    rintro setting rfl
    exact h setting text List.mem_cons_self
  · rintro ⟨hentry, hrest⟩ setting later hmem
    rcases List.mem_cons.mp hmem with hhead | htail
    · obtain ⟨rfl, rfl⟩ := Prod.mk.inj hhead
      exact hentry setting rfl
    · exact hrest setting later htail

theorem allAccepted_append_iff :
    AllAccepted (front ++ rest) ↔ AllAccepted front ∧ AllAccepted rest := by
  induction front with
  | nil => simp [allAccepted_nil]
  | cons entry front ih =>
      rw [List.cons_append, allAccepted_cons_iff, allAccepted_cons_iff, ih, and_assoc]

theorem merge_append (hfront : AllAccepted front) (config : Config) (rest : List (String × String)) :
    config.merge (front ++ rest) = (config.overridden front).merge rest := by
  induction front generalizing config with
  | nil => rfl
  | cons entry front ih =>
      obtain ⟨name, text⟩ := entry
      obtain ⟨hentry, hlater⟩ := allAccepted_cons_iff.mp hfront
      rw [List.cons_append, merge]
      cases hsetting : Setting.ofVariable? name with
      | none =>
          rw [overridden_cons_of_none hsetting]
          exact ih hlater config
      | some setting =>
          obtain rfl := Setting.ofVariable?_eq_some_iff.mp hsetting
          simp only [apply_of_accepts (hentry setting rfl)]
          rw [ih hlater, overridden_cons hlater]

theorem merge_of_allAccepted (h : AllAccepted overrides) (config : Config) :
    config.merge overrides =
      ((config.overridden overrides).validate, config.overridden overrides) := by
  have hmerge := merge_append h config []
  rwa [List.append_nil] at hmerge

theorem exists_first_refused (h : ¬AllAccepted overrides) :
    ∃ front setting text rest, overrides = front ++ (Setting.variableName setting, text) :: rest ∧
      AllAccepted front ∧ setting.accepts text = false := by
  induction overrides with
  | nil => exact absurd allAccepted_nil h
  | cons entry rest ih =>
      by_cases hentry : ∀ setting : Setting,
          entry.1 = setting.variableName → setting.accepts entry.2 = true
      · obtain ⟨front, setting, text, later, rfl, hfront, htext⟩ :=
          ih fun hrest => h (allAccepted_cons_iff.mpr ⟨hentry, hrest⟩)
        exact ⟨entry :: front, setting, text, later, rfl,
          allAccepted_cons_iff.mpr ⟨hentry, hfront⟩, htext⟩
      · obtain ⟨setting, hsetting⟩ := Classical.not_forall.mp hentry
        obtain ⟨hname, htext⟩ := Classical.not_imp.mp hsetting
        refine ⟨[], setting, entry.2, rest, ?_, allAccepted_nil, by simpa using htext⟩
        rw [← hname]
        rfl

/-- A variable that cannot be read ends the run, with what came in front of it applied. -/
theorem exists_merge_of_not_allAccepted (h : ¬AllAccepted overrides) (config : Config) :
    ∃ front setting text rest message,
      overrides = front ++ (Setting.variableName setting, text) :: rest ∧ AllAccepted front ∧
        setting.accepts text = false ∧
        config.merge overrides = (.error (.invalid setting.key message), config.overridden front) := by
  obtain ⟨front, setting, text, rest, rfl, hfront, htext⟩ := exists_first_refused h
  obtain ⟨message, happly⟩ := exists_apply_eq_error (config.overridden front) htext
  refine ⟨front, setting, text, rest, message, rfl, hfront, htext, ?_⟩
  rw [merge_append hfront, merge, Setting.ofVariable?_variableName]
  simp only [happly]

theorem validate_eq_ok_iff : config.validate = .ok () ↔ config.engine.instanceId ≠ some 0 := by
  rw [validate]
  split <;> simp_all

theorem merge_eq_ok_iff (config : Config) :
    (config.merge overrides).1 = .ok () ↔
      AllAccepted overrides ∧ (config.overridden overrides).validate = .ok () := by
  by_cases haccepted : AllAccepted overrides
  · simp [merge_of_allAccepted haccepted, haccepted]
  · obtain ⟨front, setting, text, rest, message, -, -, -, hmerge⟩ :=
      exists_merge_of_not_allAccepted haccepted config
    simp [hmerge, haccepted]

theorem settings_of_merge (h : (config.merge overrides).1 = .ok ()) :
    (config.merge overrides).2 = config.overridden overrides := by
  rw [merge_of_allAccepted ((merge_eq_ok_iff config).mp h).1]

/-! ### What does not matter -/

theorem merge_filter (config : Config) (overrides : List (String × String)) :
    config.merge (overrides.filter fun entry => (Setting.ofVariable? entry.1).isSome) =
      config.merge overrides := by
  induction overrides generalizing config with
  | nil => rfl
  | cons entry rest ih =>
      obtain ⟨name, text⟩ := entry
      cases hsetting : Setting.ofVariable? name with
      | none =>
          rw [List.filter_cons_of_neg (by simp [hsetting]), ih, merge, hsetting]
      | some setting =>
          rw [List.filter_cons_of_pos (by simp [hsetting]), merge, merge, hsetting]
          cases happly : config.apply setting text with
          | error error => simp only [happly]
          | ok next => simp only [happly, ih]

/-- Only the last text for each setting counts, if all can be read. -/
theorem merge_congr (haccepted : AllAccepted reordered ↔ AllAccepted overrides)
    (hlast : ∀ setting, Setting.lastText? setting reordered = setting.lastText? overrides)
    (config : Config) :
    ((config.merge reordered).1 = .ok () ↔ (config.merge overrides).1 = .ok ()) ∧
      ((config.merge overrides).1 = .ok () →
        (config.merge reordered).2 = (config.merge overrides).2) := by
  have hsame : config.overridden reordered = config.overridden overrides := by
    simp only [overridden, hlast]
  have hverdict : (config.merge reordered).1 = .ok () ↔ (config.merge overrides).1 = .ok () := by
    rw [merge_eq_ok_iff, merge_eq_ok_iff, haccepted, hsame]
  refine ⟨hverdict, fun hmerge => ?_⟩
  rw [settings_of_merge hmerge, settings_of_merge (hverdict.mpr hmerge), hsame]

theorem allAccepted_iff_texts :
    AllAccepted overrides ↔
      ∀ setting, ∀ text ∈ Setting.texts setting overrides, setting.accepts text = true := by
  simp only [Setting.mem_texts_iff]
  rfl

/-- A merge succeeds exactly if every variable for a setting can be read and the settings are valid
in the end, and then the last variable for each setting has its way. So variables for nothing, the
order of different names, and readable texts that are overridden later, such as an instance id of
zero, all make no difference. -/
theorem merge_last_wins (config : Config) (overrides : List (String × String)) :
    ((config.merge overrides).1 = .ok () ↔
      (∀ setting text, (Setting.variableName setting, text) ∈ overrides →
        setting.accepts text = true) ∧
      (config.overridden overrides).validate = .ok ()) ∧
    ((config.merge overrides).1 = .ok () →
      (config.merge overrides).2 = config.overridden overrides) ∧
    config.merge (overrides.filter fun entry => (Setting.ofVariable? entry.1).isSome) =
      config.merge overrides ∧
    (∀ reordered : List (String × String),
      (∀ name, reordered.filter (fun entry => entry.1 = name) =
        overrides.filter fun entry => entry.1 = name) →
      ((config.merge reordered).1 = .ok () ↔ (config.merge overrides).1 = .ok ()) ∧
        ((config.merge overrides).1 = .ok () →
          (config.merge reordered).2 = (config.merge overrides).2)) ∧
    (∀ front rest setting text later,
      overrides = front ++ (Setting.variableName setting, text) :: rest →
      setting.accepts text = true → (setting.variableName, later) ∈ rest →
      ((config.merge (front ++ rest)).1 = .ok () ↔ (config.merge overrides).1 = .ok ()) ∧
        ((config.merge overrides).1 = .ok () →
          (config.merge (front ++ rest)).2 = (config.merge overrides).2)) := by
  refine ⟨merge_eq_ok_iff config, settings_of_merge, merge_filter config overrides, ?_, ?_⟩
  · intro reordered hfilter
    have htexts : ∀ setting : Setting, setting.texts reordered = setting.texts overrides := by
      intro setting
      rw [Setting.texts, hfilter, Setting.texts]
    apply merge_congr
    · simp only [allAccepted_iff_texts, htexts]
    · intro setting
      rw [Setting.lastText?, htexts, Setting.lastText?]
  · rintro front rest setting text later rfl htext hlater
    obtain ⟨last, hlast⟩ := Setting.exists_lastText?_of_mem hlater
    have hentry : ∀ other : Setting,
        setting.variableName = other.variableName → other.accepts text = true := by
      intro other hname
      rwa [← Setting.variableName_inj.mp hname]
    apply merge_congr
    · simp only [allAccepted_append_iff, allAccepted_cons_iff, and_iff_right hentry]
    · intro other
      rw [Setting.lastText?_append, Setting.lastText?_append, Setting.lastText?_cons]
      split
      · rename_i hsame
        rw [← hsame, hlast]
        rfl
      · rfl

section Repaired

/-- The settings start out invalid, and so does the first instance id. -/
def repairing : List (String × String) :=
  [("PERSONA_ENGINE_INSTANCE_ID", "0"), ("HOME", "/root"),
    ("PERSONA_COORDINATOR_DEFAULT_LOCK_TIMEOUT_MS", " 250 "), ("PERSONA_ENGINE_INSTANCE_ID", "4")]

def repairingLast : List (String × String) :=
  [("PERSONA_COORDINATOR_DEFAULT_LOCK_TIMEOUT_MS", " 250 "), ("PERSONA_ENGINE_INSTANCE_ID", "0"),
    ("PERSONA_ENGINE_INSTANCE_ID", "4"), ("HOME", "/root")]

theorem merge_last_wins_repaired :
    let config : Config := ⟨⟨some 0, true⟩, ⟨0⟩⟩
    (config.merge repairing).1 = .ok () ∧
      (config.merge repairing).2 = ⟨⟨some 4, true⟩, ⟨250⟩⟩ ∧
      (config.merge repairingLast).2 = (config.merge repairing).2 ∧
      (config.merge repairing.tail).2 = (config.merge repairing).2 := by
  intro config
  obtain ⟨hverdict, hsettings, -, hreordered, hoverridden⟩ := merge_last_wins config repairing
  have hok : (config.merge repairing).1 = .ok () := rfl
  have hfilter : ∀ name, repairingLast.filter (fun entry => entry.1 = name) =
      repairing.filter fun entry => entry.1 = name := by
    intro name
    by_cases hid : "PERSONA_ENGINE_INSTANCE_ID" = name
    · subst hid
      decide
    · by_cases htimeout : "PERSONA_COORDINATOR_DEFAULT_LOCK_TIMEOUT_MS" = name
      · subst htimeout
        decide
      · simp [repairing, repairingLast, List.filter_cons, hid, htimeout]
  refine ⟨hok, ?_, (hreordered _ hfilter).2 hok, ?_⟩
  · rw [hsettings hok]
    decide +kernel
  · exact (hoverridden [] repairing.tail .instanceId "0" "4" rfl (by decide +kernel)
      (by decide +kernel)).2 hok

end Repaired

/-! ### What a failure leaves -/

/-- The setting is what the text says. -/
def Setting.Holds (config : Config) : Setting → String → Prop
  | .instanceId, text => config.engine.instanceId = wordOf? text
  | .strictRemoveUntil, text => some config.engine.strictRemoveUntil = flagOf? text
  | .defaultLockTimeout, text => some config.coordinator.defaultLockTimeout = wordOf? text

theorem getD_bind_eq_self_iff {Value : Type} {read? : String → Option Value} {last : Option String}
    (start : Value) (hread : ∀ text, last = some text → (read? text).isSome = true) :
    (last.bind read?).getD start = start ↔ ∀ text, last = some text → some start = read? text := by
  cases last with
  | none => simp
  | some text =>
      obtain ⟨value, hvalue⟩ := Option.isSome_iff_exists.mp (hread text rfl)
      simp [hvalue, eq_comm]

theorem overridden_eq_self_iff (haccepted : AllAccepted overrides) :
    config.overridden overrides = config ↔
      ∀ setting text, Setting.lastText? setting overrides = some text →
        setting.Holds config text := by
  have hread : ∀ setting text, Setting.lastText? setting overrides = some text →
      setting.accepts text = true :=
    fun setting text hlast => haccepted setting text (Setting.mem_of_lastText? hlast)
  have hid : (config.overridden overrides).engine.instanceId = config.engine.instanceId ↔
      ∀ text, Setting.instanceId.lastText? overrides = some text →
        Setting.instanceId.Holds config text := by
    rw [overridden]
    cases Setting.instanceId.lastText? overrides <;> simp [Setting.Holds, eq_comm]
  have hstrict := getD_bind_eq_self_iff config.engine.strictRemoveUntil
    (hread .strictRemoveUntil)
  have htimeout := getD_bind_eq_self_iff config.coordinator.defaultLockTimeout
    (hread .defaultLockTimeout)
  constructor
  · intro hsame setting
    cases setting with
    | instanceId => exact hid.mp (congrArg (fun config => config.engine.instanceId) hsame)
    | strictRemoveUntil =>
        exact hstrict.mp (congrArg (fun config => config.engine.strictRemoveUntil) hsame)
    | defaultLockTimeout =>
        exact htimeout.mp (congrArg (fun config => config.coordinator.defaultLockTimeout) hsame)
  · intro hholds
    have hid := hid.mpr (hholds .instanceId)
    have hstrict := hstrict.mpr (hholds .strictRemoveUntil)
    have htimeout := htimeout.mpr (hholds .defaultLockTimeout)
    obtain ⟨⟨instanceId, strict⟩, ⟨timeout⟩⟩ := config
    simp only [overridden, Config.mk.injEq, EngineConfig.mk.injEq, CoordinatorConfig.mk.injEq]
    exact ⟨⟨hid, hstrict⟩, htimeout⟩

theorem validate_overridden_eq_ok_iff (hvalid : config.validate = .ok ()) :
    (config.overridden overrides).validate = .ok () ↔
      ∀ text, Setting.instanceId.lastText? overrides = some text → wordOf? text ≠ some 0 := by
  rw [validate_eq_ok_iff] at hvalid ⊢
  rw [overridden]
  cases Setting.instanceId.lastText? overrides <;> simp [hvalid]

/-- A failed merge has applied the variables in front of the first one that cannot be read, or all of
them where only the outcome is invalid. So the settings are as before exactly if they were already as
these variables have them last, and valid settings are left invalid exactly if the last instance id
among these is zero. -/
theorem overridden_up_to_failure {config : Config} {overrides : List (String × String)}
    {error : ConfigError} (h : (config.merge overrides).1 = .error error) :
    ∃ applied, AllAccepted applied ∧ (config.merge overrides).2 = config.overridden applied ∧
      ((∃ setting text rest message,
          overrides = applied ++ (Setting.variableName setting, text) :: rest ∧
            setting.accepts text = false ∧ error = .invalid setting.key message) ∨
        (applied = overrides ∧ (config.merge overrides).2.engine.instanceId = some 0 ∧
          error = .invalid "engine.instance_id" "engine ids start at 1")) ∧
      ((config.merge overrides).2 = config ↔
        ∀ setting text, Setting.lastText? setting applied = some text →
          setting.Holds config text) ∧
      (config.validate = .ok () → ((config.merge overrides).2.validate = .ok () ↔
        ∀ text, Setting.instanceId.lastText? applied = some text → wordOf? text ≠ some 0)) := by
  by_cases haccepted : AllAccepted overrides
  · rw [merge_of_allAccepted haccepted] at h ⊢
    refine ⟨overrides, haccepted, rfl, .inr ⟨rfl, ?_⟩, overridden_eq_self_iff haccepted,
      validate_overridden_eq_ok_iff⟩
    simp only [validate] at h
    split at h
    · rename_i hzero
      exact ⟨hzero, (Except.error.inj h).symm⟩
    · cases h
  · obtain ⟨front, setting, text, rest, message, hparts, hfront, htext, hmerge⟩ :=
      exists_merge_of_not_allAccepted haccepted config
    rw [hmerge] at h ⊢
    obtain rfl := Except.error.inj h
    exact ⟨front, hfront, rfl, .inl ⟨setting, text, rest, message, hparts, htext, rfl⟩,
      overridden_eq_self_iff hfront, validate_overridden_eq_ok_iff⟩

section Failed

/-- The first instance id is no valid one, and the flag cannot be read. -/
def failing : List (String × String) :=
  [("PERSONA_COORDINATOR_DEFAULT_LOCK_TIMEOUT_MS", "250"), ("PERSONA_ENGINE_INSTANCE_ID", "0"),
    ("PERSONA_ENGINE_STRICT_REMOVE_UNTIL", "maybe"), ("PERSONA_ENGINE_INSTANCE_ID", "4")]

theorem overridden_up_to_failure_unread :
    ∃ message applied,
      (default.merge failing).1 = .error (.invalid "engine.strict_remove_until" message) ∧
      AllAccepted applied ∧ (default.merge failing).2 = default.overridden applied ∧
      ¬∀ setting text, Setting.lastText? setting applied = some text →
        setting.Holds default text := by
  obtain ⟨message, herror⟩ : ∃ message, (default.merge failing).1 =
      .error (.invalid "engine.strict_remove_until" message) := ⟨_, rfl⟩
  obtain ⟨applied, haccepted, hsettings, -, hsame, -⟩ := overridden_up_to_failure herror
  exact ⟨message, applied, herror, haccepted, hsettings, fun hholds =>
    absurd (hsame.mpr hholds) (by decide +kernel)⟩

/-- Valid settings are changed and left invalid by a merge that fails. -/
theorem failed_merge_leaves_invalid_settings :
    default.validate = .ok () ∧ (default.merge failing).1 ≠ .ok () ∧
      (default.merge failing).2 = ⟨⟨some 0, false⟩, ⟨250⟩⟩ ∧
      (default.merge failing).2 ≠ default ∧ (default.merge failing).2.validate ≠ .ok () := by
  have hsettings : (default.merge failing).2 = ⟨⟨some 0, false⟩, ⟨250⟩⟩ := by decide +kernel
  refine ⟨rfl, nofun, hsettings, ?_, ?_⟩
  · rw [hsettings]
    decide
  · rw [hsettings]
    nofun

end Failed

end Whole

end RoleStack.Config
