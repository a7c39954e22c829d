import RoleStack.Config.Basic
import RoleStack.Schema.Contract
import RoleStack.Schema.Event
import RoleStack.Proofs.AgentText

/-!
# Serialized forms

What is written for a value is read as this value, in every component. A reader takes more than what
is written: objects with other members or without those that have defaults, arrays, objects in place
of names, and every spelling of an agent. So writing what was read brings all that can be read to a
normal form, of which each value has one.
-/

namespace RoleStack

namespace Schema

variable {Value : Type} {encode : Value → Json} {decode : Json → Option Value}

/-! ### Normal forms -/

/-- The JSON value that is written for what this one is read as. -/
def normalize (encode : Value → Json) (decode : Json → Option Value) (json : Json) : Option Json :=
  (decode json).map encode

/-- Values are read back, so that the written forms are normal forms. -/
structure Canonical (encode : Value → Json) (decode : Json → Option Value) : Prop where
  read_back : ∀ value, decode (encode value) = some value
  /-- The normal form is read as the same value. -/
  same_value : ∀ {json form}, normalize encode decode json = some form → decode form = decode json
  /-- A normal form is its own normal form. -/
  settled : ∀ {json form},
    normalize encode decode json = some form → normalize encode decode form = some form
  /-- Whatever is read alike has one normal form. -/
  shared : ∀ {json other},
    normalize encode decode json = normalize encode decode other ↔ decode json = decode other

theorem Canonical.of_read_back (h : ∀ value, decode (encode value) = some value) :
    Canonical encode decode := by
  have same_value {json form : Json} (hform : normalize encode decode json = some form) :
      decode form = decode json := by
    obtain ⟨value, hvalue, rfl⟩ := Option.map_eq_some_iff.mp hform
    rw [h, hvalue]
  have hinjective : Function.Injective encode := fun value other hsame =>
    Option.some.inj ((h value).symm.trans ((congrArg decode hsame).trans (h other)))
  refine ⟨h, same_value, fun hform => ?_, ?_⟩
  · rw [normalize, same_value hform]
    exact hform
  · exact fun {json other} => (Option.map_injective hinjective).eq_iff

@[simp]
theorem listOf_ofList (h : ∀ value, decode (encode value) = some value) (values : List Value) :
    listOf decode (.ofList encode values) = some values := by
  rw [Json.ofList, listOf]
  induction values with
  | nil => rfl
  | cons value rest ih => simp [List.mapM_cons, h value, ih]

theorem nullable_ofOption (h : ∀ value, decode (encode value) = some value)
    (hnull : decode .null = none) (value : Option Value) :
    Field.nullable decode (.ofOption encode value) = some value := by
  cases value with
  | none => rfl
  | some value =>
      have hencode : encode value ≠ .null := by
        intro hsame
        have hread := h value
        rw [hsame, hnull] at hread
        cases hread
      rw [Json.ofOption, Field.nullable, h, Option.map_some]
      exact hencode

/-! ### Fields -/

/-- A structure is read from its fields. -/
structure ReadsFields (names : List String) (defaults : List (String × Json))
    (decode : Json → Option Value) : Prop where
  /-- Other members of an object do not count, and the order of its members neither. -/
  of_members : ∀ {members others : List (String × Json)},
    (∀ name ∈ names, members.lookup name = others.lookup name) →
      decode (.object members) = decode (.object others)
  /-- An array of the fields in order is as good as an object. -/
  of_elements : ∀ {elements : List Json}, elements.length = names.length →
    decode (.array elements) = decode (.object (names.zip elements))
  /-- An object may leave a field out that has a default. -/
  of_missing : ∀ {members : List (String × Json)} {field : String × Json}, field ∈ defaults →
    members.lookup field.1 = none → decode (.object members) = decode (.object (field :: members))

variable {surplus : Surplus} {names : List String} {defaults : List (String × Json)}

theorem elementFields_eq (hnames : names.Nodup) {elements : List Json}
    (hlength : elements.length = names.length) :
    elementFields names elements = names.map (memberField (names.zip elements)) := by
  induction names generalizing elements with
  | nil => rfl
  | cons name names ih =>
      obtain ⟨element, elements, rfl⟩ := List.exists_cons_of_length_eq_add_one hlength
      obtain ⟨hname, hnames⟩ := List.nodup_cons.mp hnames
      rw [elementFields, ih hnames (Nat.succ_inj.mp hlength), List.map_cons, List.zip_cons_cons]
      congr 1
      · rw [memberField_cons, if_pos rfl]
      · refine List.map_congr_left fun other hother => ?_
        have hne : other ≠ name := fun hsame => hname (hsame ▸ hother)
        rw [memberField_cons, if_neg hne]

theorem ReadsFields.of_fieldsOf {read : List Field → Option Value}
    (hread : ∀ json, decode json = fieldsOf surplus names json >>= read) (hnames : names.Nodup)
    (hmissing : ∀ {members : List (String × Json)} {field : String × Json}, field ∈ defaults →
      members.lookup field.1 = none → decode (.object members) = decode (.object (field :: members))) :
    ReadsFields names defaults decode := by
  refine ⟨fun {members others} hsame => ?_, fun {elements} hlength => ?_, hmissing⟩
  · have hfields : ∀ name ∈ names, memberField members name = memberField others name :=
      fun name hname => by simp only [memberField, hsame name hname]
    rw [hread, hread, fieldsOf, fieldsOf, List.map_congr_left hfields]
  · have hfits : ¬(surplus = .refused ∧ names.length < elements.length) := by
      rw [hlength]
      exact fun h => lt_irrefl _ h.2
    rw [hread, hread, fieldsOf, fieldsOf, if_neg hfits, elementFields_eq hnames hlength]

end Schema

open Schema

/-! ### Contracts and roles -/

@[simp]
theorem ValueKind.ofJson?_toJson (kind : ValueKind) : ofJson? kind.toJson = some kind := by
  cases kind <;> rfl

@[simp]
theorem Parameter.ofJson?_toJson (parameter : Parameter) :
    ofJson? parameter.toJson = some parameter := by
  simp [ofJson?, toJson]

theorem Parameter.readsFields : ReadsFields ["name", "kind"] [] Parameter.ofJson? :=
  .of_fieldsOf (fun _ => rfl) (by decide) nofun

@[simp]
theorem Signature.ofJson?_toJson (signature : Signature) :
    ofJson? signature.toJson = some signature := by
  simp [ofJson?, toJson]

theorem Signature.readsFields :
    ReadsFields ["name", "parameters", "returns"] [] Signature.ofJson? :=
  .of_fieldsOf (fun _ => rfl) (by decide) nofun

theorem Contract.ofJson?_toJson (contract : Contract) :
    ofJson? contract.toJson = some contract := by
  simp [ofJson?, toJson]

theorem Contract.readsFields : ReadsFields ["name", "operations"] [] Contract.ofJson? :=
  .of_fieldsOf (fun _ => rfl) (by decide) nofun

theorem Marker.ofJson?_toJson (marker : Marker) : ofJson? marker.toJson = some marker := rfl

@[simp]
theorem Task.ofJson?_toJson (task : Task) : ofJson? task.toJson = some task := by
  simp [ofJson?, toJson]

theorem Task.readsFields : ReadsFields ["name", "parameters", "returns"] [] Task.ofJson? :=
  .of_fieldsOf (fun _ => rfl) (by decide) nofun

theorem RoleDescriptor.ofJson?_toJson (descriptor : RoleDescriptor) :
    ofJson? descriptor.toJson = some descriptor := by
  simp [ofJson?, toJson, nullable_ofOption Json.string?_string rfl,
    listOf_ofList Json.string?_string]

theorem RoleDescriptor.readsFields :
    ReadsFields ["role", "contract", "marker", "operations", "tasks"]
      [("contract", .null), ("marker", .null)] RoleDescriptor.ofJson? := by
  refine .of_fieldsOf (fun _ => rfl) (by decide) fun {members field} hfield hmissing => ?_
  rcases List.mem_pair.mp hfield with rfl | rfl <;>
    simp [ofJson?, memberField_eq_missing hmissing]

/-! ### Identities and events -/

@[simp]
theorem Identity.ofJson?_toJson (identity : Identity) :
    ofJson? identity.toJson = some identity := by
  rw [ofJson?, toJson, Json.word?_ofWord, Option.map_some]

theorem EngineId.ofJson?_toJson (engine : EngineId) : ofJson? engine.toJson = some engine := by
  rw [ofJson?, toJson, Json.word?_ofWord, Option.map_some]

theorem AgentId.ofJson?_string [AgentFormat] (text : String) :
    ofJson? (.string text) = AgentFormat.parse? text := by
  rw [ofJson?, Json.string?_string, Option.bind_some]

theorem AgentId.ofJson?_toJson [AgentFormat] {agent : AgentId}
    (h : AgentFormat.parse? (AgentFormat.text agent) = some agent) :
    ofJson? agent.toJson = some agent := by
  rw [toJson, ofJson?_string, h]

/-- The texts that are read as an agent, where it is written in hexadecimal digits. -/
theorem AgentId.ofJson?_string_eq_some_iff {agent : AgentId} {text : String} :
    ofJson? (.string text) = some agent ↔ agent.Spelling text.toList := by
  rw [ofJson?_string]
  exact parse?_eq_some_iff

@[simp]
theorem Injection.ofJson?_toJson (injection : Injection) :
    ofJson? injection.toJson = some injection := by
  cases injection <;> rfl

@[simp]
theorem Outcome.ofJson?_toJson (outcome : Outcome) : ofJson? outcome.toJson = some outcome := by
  cases outcome with
  | success => rfl
  | failure reason => simp [ofJson?, toJson]

theorem Outcome.ofJson?_member (name : String) :
    ofJson? (.object [(name, .null)]) = ofJson? (.string name) := by
  by_cases hname : name = "Success"
  · rw [hname]
    rfl
  · simp [ofJson?, hname]

theorem Outcome.ofJson?_failure_iff {members : List (String × Json)} {reason : String} :
    ofJson? (.object [("Failure", .object members)]) = some (.failure reason) ↔
      members.lookup "reason" = some (.string reason) := by
  rw [ofJson?, memberField]
  cases members.lookup "reason" with
  | none => simp [Field.required]
  | some value => cases value <;> simp [Json.string?]

theorem RoleEvent.ofJson?_toJson [AgentFormat] {event : RoleEvent}
    (h : AgentFormat.parse? (AgentFormat.text event.agent) = some event.agent) :
    ofJson? event.toJson = some event := by
  simp [ofJson?, toJson, fieldNames, nullable_ofOption Json.string?_string rfl,
    AgentId.ofJson?_toJson h]

theorem RoleEvent.readsFields [AgentFormat] :
    ReadsFields RoleEvent.fieldNames [("class_name", .null)] RoleEvent.ofJson? := by
  refine .of_fieldsOf (fun _ => rfl) (by decide) fun {members field} hfield hmissing => ?_
  obtain rfl := List.mem_singleton.mp hfield
  simp [ofJson?, fieldNames, memberField_eq_missing hmissing]

/-! ### Settings -/

section Settings

variable (surplus : Surplus)

@[simp]
theorem EngineConfig.read_toJson (config : EngineConfig) :
    read surplus config.toJson = some config := by
  simp [read, toJson, nullable_ofOption Json.word?_ofWord rfl]

theorem EngineConfig.readsFields :
    ReadsFields ["instance_id", "strict_remove_until"]
      [("instance_id", .null), ("strict_remove_until", .bool false)] (EngineConfig.read surplus) := by
  refine .of_fieldsOf (fun _ => rfl) (by decide) fun {members field} hfield hmissing => ?_
  rcases List.mem_pair.mp hfield with rfl | rfl <;> simp [read, memberField_eq_missing hmissing]

@[simp]
theorem CoordinatorConfig.read_toJson (config : CoordinatorConfig) :
    read surplus config.toJson = some config := by
  simp [read, toJson]

theorem CoordinatorConfig.readsFields :
    ReadsFields ["default_lock_timeout_ms"] [("default_lock_timeout_ms", .ofWord 0)]
      (CoordinatorConfig.read surplus) := by
  refine .of_fieldsOf (fun _ => rfl) (by decide) fun {members field} hfield hmissing => ?_
  obtain rfl := List.mem_singleton.mp hfield
  simp [read, memberField_eq_missing hmissing]

theorem Config.read_toJson (config : Config) : read surplus config.toJson = some config := by
  simp [read, toJson]

theorem Config.readsFields :
    ReadsFields ["engine", "coordinator"]
      [("engine", EngineConfig.default.toJson), ("coordinator", CoordinatorConfig.default.toJson)]
      (Config.read surplus) := by
  refine .of_fieldsOf (fun _ => rfl) (by decide) fun {members field} hfield hmissing => ?_
  rcases List.mem_pair.mp hfield with rfl | rfl <;> simp [read, memberField_eq_missing hmissing]

end Settings

/-! ### All forms -/

/-- What is written for a value is read as this value, so that each value has one normal form, to
which everything that is read as the value is brought by writing it again. What may be read besides
the normal forms: objects with further members in any order and without those that have defaults,
arrays of the fields in order, objects in place of the names of values, and agents in every
spelling. Any format of agents will do that reads what it writes. -/
theorem serialized_forms_canonical [AgentFormat]
    (hformat : ∀ agent, AgentFormat.parse? (AgentFormat.text agent) = some agent)
    (surplus : Surplus) :
    (Canonical Contract.toJson Contract.ofJson? ∧ Canonical Signature.toJson Signature.ofJson? ∧
      Canonical Parameter.toJson Parameter.ofJson? ∧ Canonical Task.toJson Task.ofJson? ∧
      Canonical RoleDescriptor.toJson RoleDescriptor.ofJson? ∧
      Canonical EngineConfig.toJson (EngineConfig.read surplus) ∧
      Canonical CoordinatorConfig.toJson (CoordinatorConfig.read surplus) ∧
      Canonical Config.toJson (Config.read surplus) ∧
      Canonical RoleEvent.toJson RoleEvent.ofJson? ∧ Canonical Outcome.toJson Outcome.ofJson? ∧
      Canonical Identity.toJson Identity.ofJson? ∧ Canonical EngineId.toJson EngineId.ofJson? ∧
      Canonical AgentId.toJson AgentId.ofJson? ∧ Canonical Marker.toJson Marker.ofJson?) ∧
    (ReadsFields ["name", "operations"] [] Contract.ofJson? ∧
      ReadsFields ["name", "parameters", "returns"] [] Signature.ofJson? ∧
      ReadsFields ["name", "kind"] [] Parameter.ofJson? ∧
      ReadsFields ["name", "parameters", "returns"] [] Task.ofJson? ∧
      ReadsFields ["role", "contract", "marker", "operations", "tasks"]
        [("contract", .null), ("marker", .null)] RoleDescriptor.ofJson? ∧
      ReadsFields ["instance_id", "strict_remove_until"]
        [("instance_id", .null), ("strict_remove_until", .bool false)]
        (EngineConfig.read surplus) ∧
      ReadsFields ["default_lock_timeout_ms"] [("default_lock_timeout_ms", .ofWord 0)]
        (CoordinatorConfig.read surplus) ∧
      ReadsFields ["engine", "coordinator"]
        [("engine", EngineConfig.default.toJson),
          ("coordinator", CoordinatorConfig.default.toJson)] (Config.read surplus) ∧
      ReadsFields ["identity", "agent", "injection", "role", "outcome", "class_name"]
        [("class_name", .null)] RoleEvent.ofJson?) ∧
    (∀ name, ValueKind.ofJson? (.object [(name, .null)]) = ValueKind.ofJson? (.string name) ∧
      Injection.ofJson? (.object [(name, .null)]) = Injection.ofJson? (.string name) ∧
      Outcome.ofJson? (.object [(name, .null)]) = Outcome.ofJson? (.string name)) ∧
    (∀ members reason,
      Outcome.ofJson? (.object [("Failure", .object members)]) = some (.failure reason) ↔
        members.lookup "reason" = some (.string reason)) ∧
    (∀ text, AgentId.ofJson? (.string text) = AgentFormat.parse? text) ∧
    ∀ agent text,
      @AgentId.ofJson? .hexadecimal (.string text) = some agent ↔
        AgentId.Spelling agent text.toList := by
  refine ⟨⟨.of_read_back Contract.ofJson?_toJson, .of_read_back Signature.ofJson?_toJson,
    .of_read_back Parameter.ofJson?_toJson, .of_read_back Task.ofJson?_toJson,
    .of_read_back RoleDescriptor.ofJson?_toJson, .of_read_back (EngineConfig.read_toJson surplus),
    .of_read_back (CoordinatorConfig.read_toJson surplus),
    .of_read_back (Config.read_toJson surplus),
    .of_read_back fun event => RoleEvent.ofJson?_toJson (hformat event.agent),
    .of_read_back Outcome.ofJson?_toJson, .of_read_back Identity.ofJson?_toJson,
    .of_read_back EngineId.ofJson?_toJson,
    .of_read_back fun agent => AgentId.ofJson?_toJson (hformat agent),
    .of_read_back Marker.ofJson?_toJson⟩, ?_, ?_, ?_, AgentId.ofJson?_string, ?_⟩
  · exact ⟨Contract.readsFields, Signature.readsFields, Parameter.readsFields, Task.readsFields,
      RoleDescriptor.readsFields, EngineConfig.readsFields surplus,
      CoordinatorConfig.readsFields surplus, Config.readsFields surplus, RoleEvent.readsFields⟩
  · exact fun name => ⟨rfl, rfl, Outcome.ofJson?_member name⟩
  · exact fun members reason => Outcome.ofJson?_failure_iff
  · exact fun agent text => AgentId.ofJson?_string_eq_some_iff

def spelledAgent : String := "URN:UUID:00000000-0000-0000-0000-0000000000AB"

def writtenAgent : String := "00000000-0000-0000-0000-0000000000ab"

/-- An agent that is spelled in capitals, after its name space, comes to the form that is written. -/
theorem serialized_forms_canonical_hexadecimal :
    (∀ agent, AgentId.parse? agent.text = some agent) ∧
      Schema.normalize AgentId.toJson AgentId.ofJson? (.string spelledAgent) =
        some (.string writtenAgent) ∧
      Schema.normalize AgentId.toJson AgentId.ofJson? (.string writtenAgent) =
        some (.string writtenAgent) := by
  have hparsed : AgentFormat.parse? spelledAgent = some ⟨0xAB⟩ := by decide +kernel
  have hwritten : AgentFormat.text ⟨0xAB⟩ = writtenAgent := by decide +kernel
  have hspelled : Schema.normalize AgentId.toJson AgentId.ofJson? (.string spelledAgent) =
      some (.string writtenAgent) := by
    rw [Schema.normalize, AgentId.ofJson?_string, hparsed, Option.map_some, AgentId.toJson, hwritten]
  have hformat (agent : AgentId) : AgentFormat.parse? (AgentFormat.text agent) = some agent :=
    AgentId.parse?_text agent
  obtain ⟨⟨-, -, -, -, -, -, -, -, -, -, -, -, hagent, -⟩, -⟩ :=
    serialized_forms_canonical hformat .refused
  exact ⟨AgentId.parse?_text, hspelled, hagent.settled hspelled⟩

end RoleStack
