import Mathlib.Data.List.Destutter
import Refract.Gateway.Fault
import Refract.Gateway.GeminiPath
import Refract.Gateway.Isolation
import Refract.Machine.Numbering
import Refract.Router.Preference

open refract.core refract.json refract.machine refract.router

namespace refract.upstream

/-- A model that an upstream lists. -/
structure ModelProbe where
  id : String
  display_name : Option String := none
  deriving DecidableEq, Repr

def ModelProbe.bare (id : String) : ModelProbe := { id }

/-- Its name can be asked for. -/
def ModelProbe.is_usable (self : ModelProbe) : Bool := trim self.id ≠ ""

/-- A listed object that has an id. -/
def identified (item : Value) : Option ModelProbe :=
  (item.get_str "id").map fun id => { id, display_name := item.get_str "display_name" }

/-- Some relays answer with the array alone, and some list names alone. -/
def from_openai (body : Value) : List ModelProbe :=
  let items := (((body.get "data").bind Value.as_array).or body.as_array).getD []
  (items.filterMap fun item =>
    match item.as_str with
    | some id => some (.bare id)
    | none => identified item).filter (·.is_usable)

def from_anthropic (body : Value) : List ModelProbe :=
  let items := ((body.get "data").bind Value.as_array).getD []
  (items.filterMap identified).filter (·.is_usable)

/-- Models are asked for without the collection's name. -/
def from_gemini (body : Value) : List ModelProbe :=
  let items := ((body.get "models").bind Value.as_array).getD []
  (items.filterMap fun item => (item.get_str "name").map fun raw =>
    { id := ( gateway.strip_prefix raw "models/").getD raw, display_name := item.get_str "displayName" : ModelProbe }).filter (·.is_usable)

/-- The first model of every name, in the order of the upstream. -/
def dedup_preserving_order (models : List ModelProbe) : List ModelProbe :=
  (models.foldl (fun kept model =>
    if kept.1.contains model.id then kept else (kept.1 ++ [model.id], kept.2 ++ [model])) (([] : List String), ([] : List ModelProbe))).2

/-- The error for a list without models. -/
def no_models (protocol : Protocol) : GatewayError :=
  (GatewayError.new .upstreamError "upstream returned no models; check the base URL and API key").with_protocol protocol

/-- The models of a list in the form of a protocol. -/
def listed_models (protocol : Protocol) (body : Value) : List ModelProbe :=
  match protocol with
  | .chat | .responses => from_openai body
  | .messages => from_anthropic body
  | .gemini => from_gemini body

/-- A list without models is taken for a wrong address or key. -/
def parse_model_list (protocol : Protocol) (body : Value) : Except GatewayError (List ModelProbe) :=
  let models := listed_models protocol body
  if models.isEmpty then .error (no_models protocol) else .ok (dedup_preserving_order models)

/-- Models of different names are all kept. -/
theorem dedup_preserving_order_eq {models : List ModelProbe} (hnodup : (models.map ModelProbe.id).Nodup) :
    dedup_preserving_order models = models := by
  have hkept : ∀ (rest : List ModelProbe) (names : List String) (out : List ModelProbe),
      (names ++ rest.map ModelProbe.id).Nodup →
      (rest.foldl (fun kept model =>
        if kept.1.contains model.id then kept else (kept.1 ++ [model.id], kept.2 ++ [model])) (names, out)).2 = out ++ rest := by
    intro rest
    induction rest with
    | nil =>
      intro names out _
      exact (List.append_nil out).symm
    | cons model rest ih =>
      intro names out hnames
      have hnew : names.contains model.id = false := by
        rw [List.contains_eq_mem]
        refine decide_eq_false fun hmem => ?_
        exact (List.nodup_append.mp hnames).2.2 _ hmem _ (.head _) rfl
      have hrest : ((names ++ [model.id]) ++ rest.map ModelProbe.id).Nodup := by
        rw [List.append_assoc]
        exact hnames
      rw [List.foldl_cons]
      dsimp only
      rw [hnew, if_neg Bool.false_ne_true, ih _ _ hrest, List.append_assoc]
      rfl
  exact hkept models [] [] (by simpa using hnodup)

end refract.upstream

namespace refract.gateway

open refract.upstream

/-- The names of the models in service, as the management pages list them. -/
def collect_enabled_model_names (channels : List Channel) : List String :=
  (sort_by_key id (((((channels.filter (·.enabled)).flatMap (·.endpoints)).filter (·.enabled)).flatMap (·.models)).map (·.name))).destutter (· ≠ ·)

def model_object (now : Int) (id : String) : Value :=
  .object [("id", .string id), ("object", .string "model"), ("created", .number (.int now)), ("owned_by", .string "refract")]

def gemini_model_object (name : String) : Value :=
  .object [("name", .string ("models/" ++ name)), ("displayName", .string name),
    ("supportedGenerationMethods", .array [.string "generateContent", .string "streamGenerateContent"])]

/-- The rejection of a request for a model that is not listed. -/
def no_such_model (model : String) (protocol : Protocol) : ProtocolRejection where
  error := .not_found ("model `" ++ model ++ "` does not exist")
  protocol := protocol

section Listing

variable (channels : List Channel) (principal : Principal) (now : Int)

def list_models : Value :=
  .object [("object", .string "list"), ("data", .array ((visible_model_names channels principal).map (model_object now)))]

def get_model (model : String) : Except ProtocolRejection Value :=
  if model = "" ∨ model ∉ visible_model_names channels principal then .error (no_such_model model .chat)
  else .ok (model_object now model)

def list_models_gemini : Value := .object [("models", .array ((visible_model_names channels principal).map gemini_model_object))]

/-- A model of the rest of a path, which may name the collection again. -/
def get_model_gemini (rest : String) : Except ProtocolRejection Value :=
  let model := gemini_spec rest
  if model = "" ∨ model ∉ visible_model_names channels principal then .error (no_such_model model .gemini)
  else .ok (gemini_model_object model)

/-- The list under the address that a probe in a protocol asks. -/
def listing (protocol : Protocol) : Value :=
  match protocol with
  | .gemini => list_models_gemini channels principal
  | .chat | .responses | .messages => list_models channels principal now

end Listing

/-- A listed model, as a probe in a protocol finds it. -/
def probed (protocol : Protocol) (name : String) : ModelProbe where
  id := name
  display_name := if protocol = .gemini then some name else none

section Names

variable {channels : List Channel} {principal : Principal} {name : String}

/-- Names in order, each once. -/
theorem destutter_names (names : List String) :
    ((sort_by_key id names).destutter (· ≠ ·)).Pairwise (· < ·) ∧ ∀ name, name ∈ (sort_by_key id names).destutter (· ≠ ·) ↔ name ∈ names := by
  have hsorted : (sort_by_key id names).Pairwise (· ≤ ·) := sort_by_key_sorted id names
  have hdedup : (sort_by_key id names).destutter (· ≠ ·) = (sort_by_key id names).dedup := hsorted.destutter_eq_dedup
  rw [hdedup]
  constructor
  · have hle := hsorted.sublist (List.dedup_sublist _)
    exact (hle.and (List.nodup_dedup _)).imp fun h => lt_of_le_of_ne h.1 h.2
  · intro name
    rw [List.mem_dedup]
    exact (sort_by_key_perm id names).mem_iff

/-- Two lists of names in order, each once, are told by their members. -/
theorem ordered_names_eq {names others : List String} (hnames : names.Pairwise (· < ·)) (hothers : others.Pairwise (· < ·))
    (hmem : ∀ name, name ∈ names ↔ name ∈ others) : names = others := by
  have hperm : names.Perm others := by
    refine (List.perm_ext_iff_of_nodup ?_ ?_).mpr hmem
    · exact hnames.imp fun h => ne_of_lt h
    · exact hothers.imp fun h => ne_of_lt h
  exact hperm.eq_of_pairwise (fun _ _ _ _ hlt hgt => absurd hgt (lt_asymm hlt)) hnames hothers

theorem mem_note_all {names noted : List String} :
    name ∈ names.foldl (fun names name => if names.contains name then names else names ++ [name]) noted ↔ name ∈ noted ∨ name ∈ names := by
  induction names generalizing noted with
  | nil => simp
  | cons first names ih =>
    have hnote : (if noted.contains first then noted else noted ++ [first]) = note noted first := by
      rw [note, List.contains_eq_mem]
      simp only [decide_eq_true_eq]
    rw [List.foldl_cons, ih, hnote, mem_note, List.mem_cons, or_assoc]

/-- The models that the planner sees are those that an endpoint in service has. -/
theorem mem_visible_models : name ∈ RoutePlanner.visible_models channels ↔ ∃ endpoint, RoutePlanner.Provides channels name endpoint := by
  rw [RoutePlanner.visible_models, (sort_by_key_perm _ _).mem_iff, mem_note_all]
  simp only [List.not_mem_nil, false_or, List.mem_flatMap, List.mem_map, RoutePlanner.Provides]

theorem mem_enabled_names : name ∈ collect_enabled_model_names channels ↔ ∃ endpoint, RoutePlanner.Provides channels name endpoint := by
  rw [collect_enabled_model_names, (destutter_names _).2]
  simp only [RoutePlanner.Provides, RoutePlanner.mem_serving_endpoints, List.mem_map, List.mem_flatMap, List.mem_filter]
  constructor
  · rintro ⟨entry, ⟨endpoint, ⟨⟨channel, ⟨hchannel, henabled⟩, hendpoint⟩, hserving⟩, hentry⟩, hname⟩
    exact ⟨endpoint, ⟨channel, hchannel, henabled, hendpoint, hserving⟩, entry, hentry, hname⟩
  · rintro ⟨endpoint, ⟨channel, hchannel, henabled, hendpoint, hserving⟩, entry, hentry, hname⟩
    exact ⟨entry, ⟨endpoint, ⟨⟨channel, ⟨hchannel, henabled⟩, hendpoint⟩, hserving⟩, hentry⟩, hname⟩

theorem mem_visible_model_names :
    name ∈ visible_model_names channels principal ↔
      principal.allows_model name = true ∧ ∃ endpoint, RoutePlanner.Provides (allowed_channels channels principal) name endpoint := by
  rw [visible_model_names, (destutter_names _).2, List.mem_filter, mem_visible_models]
  exact and_comm

/-- A model is provided if a request for it can be planned in some protocol. -/
theorem provided_iff_planned {ρ : Type} (self : RoutePlanner) (rng : Rng ρ) (source : ρ) :
    (∃ endpoint, RoutePlanner.Provides channels name endpoint) ↔ ∃ inbound, (self.plan rng channels name inbound source).1.attempts ≠ [] := by
  simp only [RoutePlanner.attempts_ne_nil, RoutePlanner.collect_ne_nil]
  constructor
  · rintro ⟨endpoint, hprovides⟩
    -- an endpoint takes its own protocol
    exact ⟨endpoint.protocol, endpoint, hprovides, by simp [TranscodePolicy.can_serve]⟩
  · rintro ⟨inbound, endpoint, hprovides, -⟩
    exact ⟨endpoint, hprovides⟩

theorem named_of_validate_models {protocol : Protocol} {models : List ModelEntry} (h : Channel.validate_models protocol models = .ok ()) :
    ∀ entry ∈ models, trim entry.name ≠ "" := by
  induction models with
  | nil => simp
  | cons entry models ih =>
    rw [Channel.validate_models] at h
    split at h
    · cases h
    next hname =>
      split at h
      · cases h
      · exact List.forall_mem_cons.mpr ⟨hname, ih h⟩

/-- Valid channels have no model without a name. -/
theorem named_of_provided (hvalid : ∀ channel ∈ channels, channel.validate = .ok ()) {endpoint : ChannelEndpoint}
    (h : RoutePlanner.Provides channels name endpoint) : trim name ≠ "" := by
  obtain ⟨hserving, entry, hentry, rfl⟩ := h
  obtain ⟨channel, hchannel, -, hendpoint, -⟩ := RoutePlanner.mem_serving_endpoints.mp hserving
  have hchannel := Channel.validate_ok_iff.mp (hvalid channel hchannel)
  exact named_of_validate_models (hchannel.each endpoint hendpoint).models entry hentry

end Names

section Probing

variable {names : List String}

theorem filter_probed (protocol : Protocol) (hnamed : ∀ name ∈ names, trim name ≠ "") :
    (names.map (probed protocol)).filter (·.is_usable) = names.map (probed protocol) := by
  refine List.filter_eq_self.mpr fun model hmodel => ?_
  obtain ⟨name, hname, rfl⟩ := List.mem_map.mp hmodel
  exact decide_eq_true (hnamed name hname)

theorem strip_collection (name : String) : ( strip_prefix ("models/" ++ name) "models/").getD ("models/" ++ name) = name := by
  have hname : String.ofList ("models/".toList ++ name.toList) = "models/" ++ name := by
    rw [String.ofList_append, String.ofList_toList, String.ofList_toList]
  have hstrip := strip_prefix_of_prefix "models/" name.toList
  rw [hname, String.ofList_toList] at hstrip
  rw [hstrip, Option.getD_some]

theorem listed_models_gemini (hnamed : ∀ name ∈ names, trim name ≠ "") :
    listed_models .gemini (.object [("models", .array (names.map gemini_model_object))]) = names.map (probed .gemini) := by
  rw [← filter_probed .gemini hnamed]
  refine congrArg (List.filter _) ?_
  change (names.map gemini_model_object).filterMap _ = _
  rw [List.filterMap_map, ← List.filterMap_eq_map]
  refine List.filterMap_congr fun name _ => ?_
  exact congrArg (fun id => some { id, display_name := some name : ModelProbe }) (strip_collection name)

theorem listed_models_openai {protocol : Protocol} (hprotocol : protocol ≠ .gemini) (now : Int) (hnamed : ∀ name ∈ names, trim name ≠ "") :
    listed_models protocol (.object [("object", .string "list"), ("data", .array (names.map (model_object now)))]) =
      names.map (probed protocol) := by
  rw [← filter_probed protocol hnamed]
  cases protocol with
  | gemini => exact absurd rfl hprotocol
  | chat | responses | messages =>
    refine congrArg (List.filter _) ?_
    change (names.map (model_object now)).filterMap _ = _
    rw [List.filterMap_map, ← List.filterMap_eq_map]
    rfl

/-- A list in which every name is found as it stands is read as these names. -/
theorem parse_listed {protocol : Protocol} {body : Value} (hnodup : names.Nodup)
    (hlisted : listed_models protocol body = names.map (probed protocol)) :
    parse_model_list protocol body = if names = [] then .error (no_models protocol) else .ok (names.map (probed protocol)) := by
  have hids : ((names.map (probed protocol)).map ModelProbe.id).Nodup := by
    rw [List.map_map]
    exact (List.map_id' names).symm ▸ hnodup
  rw [parse_model_list]
  rw [hlisted, dedup_preserving_order_eq hids]
  cases names <;> rfl

end Probing

section Listed

variable {ρ : Type} (self : RoutePlanner) (rng : Rng ρ) (source : ρ) {channels : List Channel} (principal : Principal) (now : Int)

theorem isOk_ite {α ε : Type} {refused : Prop} [Decidable refused] {error : ε} {value : α} :
    (if refused then Except.error error else .ok value : Except ε α).isOk = true ↔ ¬refused := by
  split <;> simp [*, Except.isOk, Except.toBool]

/-- What a gateway lists are the models that a request can be planned for, each once, in
    alphabetical order: those of the management pages that the key allows. Another gateway
    that probes it, in any protocol, finds just these. -/
theorem probed_listing (hvalid : ∀ channel ∈ channels, channel.validate = .ok ()) (protocol : Protocol) :
    ∃ names : List String, names.Pairwise (· < ·) ∧
      (∀ model, model ∈ names ↔ principal.allows_model model = true ∧
        ∃ inbound, (self.plan rng (allowed_channels channels principal) model inbound source).1.attempts ≠ []) ∧
      names = (collect_enabled_model_names (allowed_channels channels principal)).filter principal.allows_model ∧
      (∀ model, (get_model channels principal now model).isOk = true ↔ model ∈ names) ∧
      (∀ rest, (get_model_gemini channels principal rest).isOk = true ↔ gemini_spec rest ∈ names) ∧
      parse_model_list protocol (listing channels principal now protocol) =
        if names = [] then .error (no_models protocol) else .ok (names.map (probed protocol)) := by
  have hordered : (visible_model_names channels principal).Pairwise (· < ·) := (destutter_names _).1
  have hnamed : ∀ name ∈ visible_model_names channels principal, trim name ≠ "" := by
    intro name hname
    obtain ⟨-, endpoint, hprovides⟩ := mem_visible_model_names.mp hname
    refine named_of_provided (fun channel hchannel => hvalid channel ?_) hprovides
    exact (List.mem_filter.mp (List.mem_filter.mp hchannel).1).1
  have hserved : ∀ model, ¬(model = "" ∨ model ∉ visible_model_names channels principal) ↔ model ∈ visible_model_names channels principal := by
    intro model
    constructor
    · intro h
      exact not_not.mp fun hnone => h (.inr hnone)
    · rintro hmem (rfl | hnone)
      · exact hnamed "" hmem (by decide)
      · exact hnone hmem
  refine ⟨visible_model_names channels principal, hordered, fun model => ?_, ?_, fun model => ?_, fun rest => ?_, ?_⟩
  · rw [mem_visible_model_names, provided_iff_planned self rng source]
  · apply ordered_names_eq hordered
    · exact (destutter_names _).1.filter _
    · intro name
      rw [mem_visible_model_names, List.mem_filter, mem_enabled_names]
      exact and_comm
  · rw [get_model, isOk_ite]
    exact hserved model
  · rw [get_model_gemini, isOk_ite]
    exact hserved (gemini_spec rest)
  · apply parse_listed
    · exact hordered.imp fun h => ne_of_lt h
    · by_cases hgemini : protocol = .gemini
      · rw [hgemini]
        exact listed_models_gemini hnamed
      · have hlisting : listing channels principal now protocol = list_models channels principal now := by
          cases protocol with
          | gemini => exact absurd rfl hgemini
          | chat | responses | messages => rfl
        rw [hlisting]
        exact listed_models_openai hgemini now hnamed

/-- A channel that offers two models. -/
def two_models : Channel where
  id := 1
  owner_id := 1
  tags := []
  visibility := .shared
  user_id := none
  name := "relay"
  credential := ⟨"sk"⟩
  endpoints := [{ protocol := .chat, models := [⟨"o3", none⟩, ⟨"gpt-5", none⟩] }]

theorem probed_listing_two_models :
    ∃ names : List String, names.Pairwise (· < ·) ∧
      (∀ model, model ∈ names ↔ (Principal.local_user 1 7).allows_model model = true ∧
        ∃ inbound, (RoutePlanner.in_turn.plan RoutePlanner.lowest_number (allowed_channels [two_models] (.local_user 1 7)) model inbound ()).1.attempts ≠ []) ∧
      names = (collect_enabled_model_names (allowed_channels [two_models] (.local_user 1 7))).filter (Principal.local_user 1 7).allows_model ∧
      (∀ model, (get_model [two_models] (.local_user 1 7) 0 model).isOk = true ↔ model ∈ names) ∧
      (∀ rest, (get_model_gemini [two_models] (.local_user 1 7) rest).isOk = true ↔ gemini_spec rest ∈ names) ∧
      parse_model_list .gemini (listing [two_models] (.local_user 1 7) 0 .gemini) =
        if names = [] then .error (no_models .gemini) else .ok (names.map (probed .gemini)) := by
  apply probed_listing
  intro channel hchannel
  obtain rfl := List.mem_singleton.mp hchannel
  decide

end Listed

end refract.gateway
