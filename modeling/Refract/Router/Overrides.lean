import Refract.Core.Override
import Refract.Router.Calls
import Refract.Router.StreamUsage

open refract.core refract.json refract.stream refract.upstream

namespace refract.router

/-- What the overrides of a channel have for a field: the protocol's group has it
    before the fields of every protocol. -/
def override_for (overrides : ParamOverride) (protocol : Protocol) (key : String) : Option Value :=
  ((overrides.protocols protocol).bind (List.lookup key)).or (overrides.common.lookup key)

/-- A field under the overrides of a channel, whatever their order. A `null` removes
    the field. -/
def composed (param_override : Option ParamOverride) (protocol : Protocol) (key : String) (own : Option Value) : Option Value :=
  match param_override.bind (override_for · protocol key) with
  | some value => if value.is_null then none else some value
  | none => own

section Composition

variable {fields : Map} {key : String}

/-- Where no field is named twice, their order does not matter. -/
theorem merged_eq_lookup (hkeys : (fields.map Prod.fst).Nodup) (own : Option Value) :
    merged key own fields =
      match fields.lookup key with
      | some value => if value.is_null then none else some value
      | none => own := by
  induction fields generalizing own with
  | nil => rfl
  | cons field fields ih =>
    obtain ⟨name, value⟩ := field
    rw [List.map_cons, List.nodup_cons] at hkeys
    rw [merged, List.foldl_cons]
    by_cases hname : name = key
    · subst hname
      rw [if_pos rfl, List.lookup_cons, beq_self_eq_true]
      exact merged_eq_of_not_mem hkeys.1 _
    · rw [if_neg hname, List.lookup_cons, beq_false_of_ne (Ne.symm hname)]
      exact ih hkeys.2 own

/-- The overrides of a channel compose. -/
theorem overridden_eq_composed {param_override : Option ParamOverride}
    (h : ∀ overrides, param_override = some overrides → overrides.WellFormed) (protocol : Protocol) (own : Option Value) :
    overridden param_override protocol key own = composed param_override protocol key own := by
  cases param_override with
  | none => rfl
  | some overrides =>
    have hcommon := ((Value.wellFormed_object _).mp (h overrides rfl).common).1
    rw [overridden, composed, Option.bind_some, override_for]
    cases hgroup : overrides.protocols protocol with
    | none => exact merged_eq_lookup hcommon own
    | some group =>
      have hkeys := ((Value.wellFormed_object _).mp ((h overrides rfl).groups protocol group hgroup)).1
      rw [Option.getD_some, Option.bind_some, merged_eq_lookup hkeys, merged_eq_lookup hcommon]
      cases group.lookup key <;> rfl

/-- Overrides with an effect name a field. -/
theorem exists_names_of_touches {param_override : Option ParamOverride} {protocol : Protocol}
    (h : param_override_touches param_override protocol = true) : ∃ key, Names param_override protocol key := by
  obtain ⟨overrides, rfl, h⟩ := (Option.any_eq_true _ _).mp h
  rcases Bool.or_eq_true _ _ |>.mp h with h | h
  · cases hcommon : overrides.common with
    | nil => simp [hcommon] at h
    | cons entry entries => exact ⟨entry.1, overrides, rfl, .inl (by simp [hcommon])⟩
  · obtain ⟨group, hgroup, h⟩ := (Option.any_eq_true _ _).mp h
    cases group with
    | nil => cases h
    | cons entry entries => exact ⟨entry.1, overrides, rfl, .inr (by simp [hgroup])⟩

theorem touches_iff {param_override : Option ParamOverride} {protocol : Protocol} :
    param_override_touches param_override protocol = true ↔ ∃ key, Names param_override protocol key := by
  refine ⟨exists_names_of_touches, fun ⟨key, hnames⟩ => ?_⟩
  by_contra htouches
  exact not_names_of_not_touches htouches key hnames

end Composition

/-- The client's name of the model is not the upstream's. -/
def NeedsAlias (candidate : Candidate) (route : Route) : Prop :=
  candidate.protocol ≠ .gemini ∧ candidate.upstream_model ≠ route.model

instance NeedsAlias.decidable (candidate : Candidate) (route : Route) : Decidable (NeedsAlias candidate route) :=
  inferInstanceAs (Decidable (_ ∧ _))

/-- A client's body under the upstream's name of the model. -/
def aliased (candidate : Candidate) (route : Route) (client : Value) : Value :=
  if NeedsAlias candidate route then rewrite_model client candidate.protocol candidate.upstream_model else client

/-- The bytes of a client are passed on exactly where nothing is to be changed. -/
theorem prepare_native_body_raw_iff {serde : Serde} {texts : Texts} {candidate : Candidate} {route : Route} {raw_body bytes : Bytes} :
    prepare_native_body serde texts candidate route raw_body = .ok (.raw bytes) ↔
      bytes = raw_body ∧ ¬NeedsAlias candidate route ∧
        ¬∃ key, Names candidate.channel.param_override candidate.protocol key := by
  rw [← touches_iff, prepare_native_body]
  dsimp only
  split
  next h => exact ⟨fun heq => ⟨by cases heq; rfl, h⟩, fun heq => by rw [heq.1]⟩
  next h =>
    refine iff_of_false (fun heq => ?_) fun heq => h heq.2
    split at heq
    · cases heq
    · cases heq

/-- A native body is the client's, up to the overrides. -/
theorem prepare_native_body_spec {serde : Serde} {texts : Texts} {candidate : Candidate} {route : Route} {raw_body : Bytes}
    {client : Value} (hclient : from_slice serde raw_body = some client) {prepared : PreparedBody}
    (hprepared : prepare_native_body serde texts candidate route raw_body = .ok prepared) (credential : Credential) (action : Action) :
    ∃ body, sent_document serde (prepared.to_request candidate credential action) = some body ∧
      (body = apply_param_override (aliased candidate route client) candidate.channel.param_override candidate.protocol ∨
        body = aliased candidate route client ∧ ∀ key, ¬Names candidate.channel.param_override candidate.protocol key) := by
  unfold prepare_native_body at hprepared
  dsimp only at hprepared
  split at hprepared
  next huntouched =>
    obtain rfl := Except.ok.inj hprepared
    refine ⟨client, hclient, .inr ⟨?_, not_names_of_not_touches huntouched.2⟩⟩
    exact (if_neg huntouched.1).symm
  · rw [hclient] at hprepared
    obtain rfl := Except.ok.inj hprepared
    exact ⟨_, rfl, .inl rfl⟩

namespace RouteExecutor

variable {Request : Type} (executor : RouteExecutor Request) (route : Route)

/-- What is written for a candidate, under the upstream's name of the model. -/
def written (idx : route.Place) (ir : Request) : Option Value :=
  let candidate := route.candidate idx
  (executor.codec.encode_request candidate.protocol ir).toOption.map fun body =>
    rewrite_model body candidate.protocol candidate.upstream_model

/-- The body for a candidate before the overrides of its channel: the client's for
    one of its own protocol, and else the one that is written for it. -/
def own_body (idx : route.Place) : InboundPayload Request → Option Value
  | .normalized ir => executor.written route idx ir
  | .raw protocol raw_body model stream _ =>
    if (route.candidate idx).needs_transcode route.inbound then
      (executor.decoded protocol raw_body model stream).toOption.bind (executor.written route idx)
    else (from_slice executor.serde raw_body).map (aliased (route.candidate idx) route)

/-- A document with the fields of another up to the overrides of a channel. -/
def Overrides (candidate : Candidate) (own : Map) (document : Option Value) : Prop :=
  ∃ sent : Map, document = some (.object sent) ∧
    ∀ key, sent.lookup key = composed candidate.channel.param_override candidate.protocol key (own.lookup key)

variable {executor route} {own : Map}

theorem overrides_apply {candidate : Candidate}
    (hoverrides : ∀ overrides, candidate.channel.param_override = some overrides → overrides.WellFormed)
    (hkeys : (own.map Prod.fst).Nodup) :
    Overrides candidate own (some (apply_param_override (.object own) candidate.channel.param_override candidate.protocol)) := by
  have hget := get_apply_param_override hkeys candidate.channel.param_override candidate.protocol
  obtain ⟨sent, hsent⟩ : ∃ sent, apply_param_override (.object own) candidate.channel.param_override candidate.protocol =
      .object sent := by
    unfold apply_param_override
    split
    next overrides map hoverrides' hmap =>
      cases overrides.protocols candidate.protocol with
      | none => exact ⟨_, rfl⟩
      | some group => exact ⟨_, rfl⟩
    · exact ⟨own, rfl⟩
  refine ⟨sent, congrArg some hsent, fun key => ?_⟩
  rw [← overridden_eq_composed hoverrides, ← hget key, hsent]
  rfl

/-- A body that is written for a candidate. -/
theorem overrides_encode_for {idx : route.Place} {ir : Request} {body : Value}
    (hoverrides : ∀ overrides, (route.candidate idx).channel.param_override = some overrides → overrides.WellFormed)
    (hown : executor.written route idx ir = some (.object own)) (hkeys : (own.map Prod.fst).Nodup)
    (hbody : encode_for executor.codec (route.candidate idx) ir = .ok body) :
    Overrides (route.candidate idx) own (some body) := by
  obtain ⟨encoded, hencoded, hbody⟩ := machine.bind_eq_ok.mp hbody
  rw [written, hencoded] at hown
  have hrewritten : rewrite_model encoded (route.candidate idx).protocol (route.candidate idx).upstream_model = .object own :=
    Option.some.inj hown
  obtain rfl := Except.ok.inj hbody
  rw [hrewritten]
  exact overrides_apply hoverrides hkeys

/-- A body that is the client's. -/
theorem overrides_native {idx : route.Place} {raw_body : Bytes} {prepared : PreparedBody}
    (hoverrides : ∀ overrides, (route.candidate idx).channel.param_override = some overrides → overrides.WellFormed)
    (hown : (from_slice executor.serde raw_body).map (aliased (route.candidate idx) route) = some (.object own))
    (hkeys : (own.map Prod.fst).Nodup)
    (hprepared : prepare_native_body executor.serde executor.texts (route.candidate idx) route raw_body = .ok prepared)
    (credential : Credential) (action : Action) :
    Overrides (route.candidate idx) own
      (sent_document executor.serde (prepared.to_request (route.candidate idx) credential action)) := by
  obtain ⟨client, hclient, haliased⟩ := Option.map_eq_some_iff.mp hown
  obtain ⟨body, hsent, hbody⟩ := prepare_native_body_spec hclient hprepared credential action
  rw [hsent]
  rcases hbody with rfl | ⟨rfl, hnames⟩
  · rw [haliased]
    exact overrides_apply hoverrides hkeys
  · refine ⟨own, congrArg some haliased, fun key => ?_⟩
    rw [← overridden_eq_composed hoverrides, overridden_eq_of_not_names (hnames key)]

section Runs

variable {first_index : route.Place → Nat} {payload : InboundPayload Request} {idx : route.Place} {attempts : Nat}
  {make : Credential → UpstreamRequest}

/-- What is prepared for a candidate. -/
theorem overrides_execute
    (hoverrides : ∀ overrides, (route.candidate idx).channel.param_override = some overrides → overrides.WellFormed)
    (hown : executor.own_body route idx payload = some (.object own)) (hkeys : (own.map Prod.fst).Nodup)
    (hprepare : (executor.execute route first_index payload).prepare idx attempts = .ready make) (credential : Credential) :
    Overrides (route.candidate idx) own (sent_document executor.serde (make credential)) := by
  cases payload with
  | normalized ir =>
    dsimp only [execute, execute_normalized] at hprepare
    split at hprepare
    · cases hprepare
    next body hbody =>
      obtain rfl := Preparation.ready.inj hprepare
      exact overrides_encode_for hoverrides hown hkeys hbody
  | raw protocol raw_body model stream headers =>
    dsimp only [execute, execute_raw] at hprepare
    rw [own_body] at hown
    split at hprepare
    next hneeds =>
      rw [if_pos hneeds, decoded] at hown
      split at hprepare
      · cases hprepare
      next ir hir =>
        rw [hir] at hown
        split at hprepare
        · cases hprepare
        next body hbody =>
          obtain rfl := Preparation.ready.inj hprepare
          exact overrides_encode_for hoverrides hown hkeys hbody
    next hneeds =>
      rw [if_neg hneeds] at hown
      split at hprepare
      · cases hprepare
      next prepared hprepared =>
        obtain rfl := Preparation.ready.inj hprepare
        exact overrides_native hoverrides hown hkeys hprepared credential .generate

theorem overrides_execute_stream
    (hoverrides : ∀ overrides, (route.candidate idx).channel.param_override = some overrides → overrides.WellFormed)
    (hown : executor.own_body route idx payload = some (.object own)) (hkeys : (own.map Prod.fst).Nodup)
    (hprepare : (executor.execute_stream route first_index payload).prepare idx attempts = .ready make) (credential : Credential) :
    Overrides (route.candidate idx) own (sent_document executor.serde (make credential)) := by
  cases payload with
  | normalized ir =>
    dsimp only [execute_stream, execute_stream_normalized] at hprepare
    split at hprepare
    · cases hprepare
    next body hbody =>
      obtain rfl := Preparation.ready.inj hprepare
      exact overrides_encode_for hoverrides hown hkeys hbody
  | raw protocol raw_body model stream headers =>
    dsimp only [execute_stream, execute_stream_raw] at hprepare
    rw [own_body] at hown
    split at hprepare
    next hneeds =>
      rw [if_pos hneeds, decoded] at hown
      split at hprepare
      · cases hprepare
      next ir hir =>
        rw [hir] at hown
        split at hprepare
        · cases hprepare
        next body hbody =>
          obtain rfl := Preparation.ready.inj hprepare
          exact overrides_encode_for hoverrides hown hkeys hbody
    next hneeds =>
      rw [if_neg hneeds] at hown
      split at hprepare
      · cases hprepare
      next prepared hprepared =>
        obtain rfl := Preparation.ready.inj hprepare
        exact overrides_native hoverrides hown hkeys hprepared credential .stream

end Runs

end RouteExecutor

/-- In every run, what is sent has each field as the overrides of the channel have
    it: the protocol's group before the fields of every protocol, and else as the
    client or the codec wrote it. A client's bytes are passed on exactly where
    neither an override nor the name of the model changes them, and stored overrides
    are read back, whatever the shape of the document they were first read from. -/
theorem overrides_compose {Request : Type} (executor : RouteExecutor Request) (route : Route) (first_index : route.Place → Nat) :
    (∀ (payload : InboundPayload Request) (idx : route.Place) (own : Map) (request : UpstreamRequest),
      (∀ overrides, (route.candidate idx).channel.param_override = some overrides → overrides.WellFormed) →
      executor.own_body route idx payload = some (.object own) → (own.map Prod.fst).Nodup →
      (∃ order replies, .sent idx request ∈ ((executor.execute route first_index payload).run order replies).effects) ∨
        (∃ order replies, .sent idx request ∈ ((executor.execute_stream route first_index payload).run order replies).effects) →
      RouteExecutor.Overrides (route.candidate idx) own (sent_document executor.serde request)) ∧
    (∀ (candidate : Candidate) (raw_body bytes : Bytes),
      prepare_native_body executor.serde executor.texts candidate route raw_body = .ok (.raw bytes) ↔
        bytes = raw_body ∧ ¬NeedsAlias candidate route ∧
          ¬∃ key, Names candidate.channel.param_override candidate.protocol key) ∧
    (∀ overrides : ParamOverride, ParamOverride.deserialize overrides.serialize = .ok overrides) ∧
    (executor.serde.Lawful → ∀ (document : Value) (overrides : ParamOverride), document.WellFormed →
      ParamOverride.deserialize document = .ok overrides →
        (executor.serde.from_str (executor.serde.to_string overrides.serialize)).map ParamOverride.deserialize =
          some (.ok overrides)) := by
  refine ⟨?_, ?_, ParamOverride.deserialize_serialize, ?_⟩
  · intro payload idx own request hoverrides hown hkeys hsent
    rcases hsent with ⟨order, replies, hsent⟩ | ⟨order, replies, hsent⟩
    · obtain ⟨attempts, make, credential, hprepare, rfl⟩ := Loop.run_prepared hsent
      exact RouteExecutor.overrides_execute hoverrides hown hkeys hprepare credential
    · obtain ⟨attempts, make, credential, hprepare, rfl⟩ := Loop.run_prepared hsent
      exact RouteExecutor.overrides_execute_stream hoverrides hown hkeys hprepare credential
  · exact fun candidate raw_body bytes => prepare_native_body_raw_iff
  · exact fun hserde document overrides hdocument hread =>
      ParamOverride.deserialize_to_string hserde (ParamOverride.deserialize_wellFormed hdocument hread)

/-- A Chat upstream of a channel that takes two fields out and gives another. -/
def adjusted : Route where
  inbound := .chat
  model := "m"
  attempts := [{
    channel := {
      id := 1, owner_id := 1, tags := [], visibility := .shared, user_id := none
      param_override := some
        { common := [("user", .null), ("seed", .nat 1)]
          protocols := fun protocol => if protocol = .chat then some [("seed", .null), ("n", .nat 2)] else none } }
    endpoint := { protocol := .chat }
    model := ⟨"m", none⟩
    rank := ⟨false, 0, 0⟩ }]
  attempt_cap := 1
  max_upstream_calls := 0
  identity := none

/-- A request of its client. -/
def adjustable : Map := [("model", .string "m"), ("user", .string "u"), ("n", .nat 1), ("stop", .string "s")]

theorem overrides_compose_of_client :
    RouteExecutor.Overrides (adjusted.candidate (0 : Fin 1)) adjustable
      (sent_document Serde.compact
        (.post .chat {} ⟨""⟩ "m" .generate
          (.object [("model", .string "m"), ("stop", .string "s"), ("n", .nat 2)]))) :=
  (overrides_compose RouteExecutor.plain adjusted (fun _ => 0)).1 (.normalized (.object adjustable)) (0 : Fin 1) _ _
    (fun overrides h => by
      obtain rfl := Option.some.inj h
      refine ⟨by simp, fun protocol group hgroup => ?_⟩
      dsimp only at hgroup
      split at hgroup
      · obtain rfl := Option.some.inj hgroup
        simp
      · cases hgroup)
    rfl (by decide) (.inl ⟨([(0 : Fin 1)] : List adjusted.Place), [], List.mem_singleton.mpr rfl⟩)

end refract.router
