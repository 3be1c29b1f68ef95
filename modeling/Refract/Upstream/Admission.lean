import Refract.Upstream.Dispatch

open refract.core refract.json refract.machine refract.stream

namespace refract.core.Channel

variable {self : Channel} {ep : ChannelEndpoint}

/-- An accepted header is none of those that the gateway manages. -/
theorem validate_headers_unmanaged {headers : List (String × String)} (hvalid : validate_headers headers = .ok ()) :
    ∀ header ∈ headers, (trim header.1).toLower ∉ managed_headers := by
  induction headers with
  | nil => simp
  | cons header headers ih =>
    obtain ⟨name, value⟩ := header
    unfold validate_headers at hvalid
    dsimp only at hvalid
    split at hvalid
    · cases hvalid
    · split at hvalid
      · cases hvalid
      next hmanaged =>
        split at hvalid
        · cases hvalid
        · refine List.forall_mem_cons.mpr ⟨?_, ih hvalid⟩
          simpa using hmanaged

/-- Every key of a valid endpoint's pool says something. -/
theorem Valid.key_at_not_empty (hvalid : self.Valid) (hep : ep ∈ self.endpoints) (index : Nat) :
    ((self.key_pool ep).key_at index).is_empty = false := by
  have hpool (first : Credential) (rest : List Credential) (strategy : KeyStrategy)
      (hkeys : ∀ key ∈ first :: rest, key.is_empty = false) :
      ((KeyPool.pool first rest strategy).key_at index).is_empty = false := hkeys _ (List.get_mem _ _)
  have hcredential := (hvalid.each ep hep).credential
  unfold key_pool
  cases hown : ep.credential.filter (!·.is_empty) with
  | some own =>
    have hkept := (Option.filter_eq_some_iff.mp hown).2
    simpa [KeyPool.key_at] using hkept
  | none =>
    have hblank : ep.credential.any (!·.is_empty) = false := by
      cases hkey : ep.credential with
      | none => rfl
      | some key => simpa [hkey, Option.filter_eq_none_iff] using hown
    rw [hblank] at hcredential
    dsimp only
    cases hdefault : self.credential.is_empty with
    | true =>
      rw [if_pos rfl]
      cases hrest : self.credentials with
      | nil => simp [hdefault, hrest] at hcredential
      | cons first rest => exact hpool first rest _ (hrest ▸ hvalid.pool)
    | false =>
      rw [if_neg Bool.false_ne_true]
      split
      · exact hdefault
      · exact hpool _ _ _ (List.forall_mem_cons.mpr ⟨hdefault, hvalid.pool⟩)

/-- The address in effect has its base where it needs one. -/
theorem Valid.effective_base (hvalid : self.Valid) (hep : ep ∈ self.endpoints) :
    ((self.effective_address ep).unofficial && base_url_missing (self.effective_address ep)) = false := by
  unfold effective_address
  split
  · exact hvalid.address
  · exact (hvalid.each ep hep).address

end refract.core.Channel

namespace refract.upstream

section Channel

variable {Url : Type}

/-- The extra headers of a channel that go with a call. The lists of models are
    asked for without. -/
def sent_headers (channel : Channel) (action : Action) : List (String × String) :=
  if action = .listModels then [] else channel.extra_headers

/-- A call made through an endpoint of a channel. Headers of the client may go
    before those of the channel, as the client has sent them. -/
structure Made (http : Http) (channel : Channel) (ep : ChannelEndpoint) (req : UpstreamRequest) : Prop where
  endpoint : ep ∈ channel.endpoints
  enabled : ep.enabled = true
  protocol : req.protocol = ep.protocol
  address : req.address = channel.effective_address ep
  credential : ∃ index, req.credential = (channel.key_pool ep).key_at index
  action : req.action.supports ep.protocol = true
  model : req.action = .listModels ∨ ∃ entry ∈ ep.models, req.model = entry.upstream_name
  headers : ∃ forwarded, req.extra_headers = forwarded ++ sent_headers channel req.action ∧
    ∀ header ∈ forwarded, http.Takes header
  proxy : req.proxy = channel.proxy

/-- The request is built, and no header of the channel is one that the gateway
    sets in it. -/
def Dispatched (urls : Urls Url) (http : Http) (texts : Texts) (client : UpstreamClient) (channel : Channel)
    (req : UpstreamRequest) : Prop :=
  ∃ built, client.dispatch urls http texts req = .ok built ∧
    ∀ header ∈ sent_headers channel req.action, ∀ name, http.header_name header.1 = some name → name ∉ built.own_names

/-- The headers with the key of a protocol that the check of a channel lets pass. -/
def unchecked_headers : Protocol → List String
  | .chat | .responses => []
  | .messages => ["anthropic-version"]
  | .gemini => ["x-goog-api-key"]

/-- What a call needs besides a valid channel: a custom address that reads as one,
    a proxy to be reached, a key and headers that can be sent, and no header with
    the name of one that the protocol sends itself. -/
structure Sendable (urls : Urls Url) (http : Http) (client : UpstreamClient) (channel : Channel) (req : UpstreamRequest) :
    Prop where
  address : Reads urls req.address req.protocol req.action req.model
  proxy : client.Reaches http channel.proxy
  key : http.header_value (rendered_key req.protocol req.credential) = true
  headers : ∀ header ∈ sent_headers channel req.action, http.Takes header
  distinct : ∀ header ∈ sent_headers channel req.action, header.1.toLower ∉ unchecked_headers req.protocol

theorem auth_names_split (protocol : Protocol) {name : String} :
    name ∈ auth_names protocol → name ∈ Channel.managed_headers ∨ name ∈ unchecked_headers protocol := by
  cases protocol <;> simp [auth_names, Protocol.auth_scheme, Channel.managed_headers, unchecked_headers] <;> tauto

theorem unchecked_auth_names (protocol : Protocol) : unchecked_headers protocol ⊆ auth_names protocol := by
  cases protocol <;> decide

variable {urls : Urls Url} {http : Http} {texts : Texts} {client : UpstreamClient} {channel : Channel}
  {ep : ChannelEndpoint} {req : UpstreamRequest}

/-- A call through a valid channel is dispatched exactly when it is sendable. -/
theorem dispatched_iff_sendable (hurls : urls.Official) (hhttp : http.Lawful) (hvalid : channel.validate = .ok ())
    (hmade : Made http channel ep req) :
    Dispatched urls http texts client channel req ↔ Sendable urls http client channel req := by
  have hchannel := Channel.validate_ok_iff.mp hvalid
  obtain ⟨index, hkey⟩ := hmade.credential
  obtain ⟨forwarded, hextra, hforwarded⟩ := hmade.headers
  have hnonempty : req.credential.is_empty = false := hkey ▸ hchannel.key_at_not_empty hmade.endpoint index
  have hbase : (req.address.unofficial && base_url_missing req.address) = false :=
    hmade.address ▸ hchannel.effective_base hmade.endpoint
  have hbuilds : (∃ built, client.dispatch urls http texts req = .ok built) ↔
      Reads urls req.address req.protocol req.action req.model ∧ client.Reaches http channel.proxy ∧
        http.header_value (rendered_key req.protocol req.credential) = true ∧
        ∀ header ∈ sent_headers channel req.action, http.Takes header := by
    rw [dispatch_ok_iff, resolve_ok_iff _ _ _ _ hurls hbase, auth_headers_ok hnonempty, hmade.proxy, hextra,
      List.forall_mem_append, and_iff_right hforwarded]
  -- A name that the check has seen is none of the managed ones.
  have hunmanaged : ∀ header ∈ sent_headers channel req.action, ∀ name, http.header_name header.1 = some name →
      name ∉ Channel.managed_headers ∧ name = header.1.toLower := by
    intro header hheader name hname
    have hsent : header ∈ channel.extra_headers := by
      unfold sent_headers at hheader
      split at hheader
      · cases hheader
      · exact hheader
    have hlower := hhttp.lower_case _ _ hname
    have hchecked := Channel.validate_headers_unmanaged hchannel.headers header hsent
    rw [hhttp.trimmed _ _ hname, ← hlower] at hchecked
    exact ⟨hchecked, hlower⟩
  constructor
  · rintro ⟨built, hbuilt, hown⟩
    obtain ⟨haddress, hproxy, hvalue, htakes⟩ := hbuilds.mp ⟨built, hbuilt⟩
    refine ⟨haddress, hproxy, hvalue, htakes, ?_⟩
    intro header hheader hunchecked
    obtain ⟨name, hname⟩ := Option.isSome_iff_exists.mp (htakes header hheader).1
    obtain ⟨more, hnames, -⟩ := dispatch_own_names hbuilt
    apply hown header hheader name hname
    rw [hnames, (hunmanaged header hheader name hname).2]
    exact List.mem_append_left _ (unchecked_auth_names req.protocol hunchecked)
  · intro hsendable
    obtain ⟨built, hbuilt⟩ := hbuilds.mpr ⟨hsendable.address, hsendable.proxy, hsendable.key, hsendable.headers⟩
    refine ⟨built, hbuilt, ?_⟩
    intro header hheader name hname hmem
    obtain ⟨hmanaged, hlower⟩ := hunmanaged header hheader name hname
    obtain ⟨more, hnames, hmore⟩ := dispatch_own_names hbuilt
    rw [hnames] at hmem
    rcases List.mem_append.mp hmem with hauth | hrest
    · rcases auth_names_split req.protocol hauth with hseen | hunchecked
      · exact hmanaged hseen
      · exact hsendable.distinct header hheader (hlower ▸ hunchecked)
    · have hothers : ["content-type", "host", "content-length"] ⊆ Channel.managed_headers := by decide
      exact hmanaged (hothers (hmore name hrest))

end Channel

section Instances

/-- The characters of a token. -/
def is_token_char (c : Char) : Bool := c.isAlphanum || "!#$%&'*+-.^_\x60|~".toList.contains c

/-- Header names are tokens, and their values have no control characters. -/
def Http.plain : Http where
  header_name s := if s ≠ "" && s.toList.all is_token_char then some s.toLower else none
  header_value s := s.toList.all fun c => c = '\t' || (' ' ≤ c && c ≠ '\x7f')
  proxy s := if "http://".toList.isPrefixOf s.toList then .ok () else .error "builder error"
  build _ := .ok ()

theorem is_token_char_visible {c : Char} (hc : is_token_char c = true) : is_whitespace c = false := by
  rcases Bool.or_eq_true_iff.mp hc with hc | hc
  · delta Char.isAlphanum Char.isAlpha Char.isUpper Char.isLower Char.isDigit at hc
    simp only [Bool.or_eq_true, Bool.and_eq_true, decide_eq_true_eq, ge_iff_le, UInt32.le_iff_toNat_le] at hc
    have hcode : c.toNat = c.val.toNat := rfl
    simp only [is_whitespace, Bool.or_eq_false_iff, Bool.and_eq_false_iff, decide_eq_false_iff_not, beq_eq_false_iff_ne]
    simp at hc
    omega
  · have hall : ("!#$%&'*+-.^_\x60|~".toList.all fun c => is_whitespace c = false) = true := by decide
    exact of_decide_eq_true (List.all_eq_true.mp hall c (List.contains_iff_mem.mp hc))

theorem Http.plain_lawful : Http.plain.Lawful := by
  have haccepted (s name : String) (hname : Http.plain.header_name s = some name) :
      (∀ c ∈ s.toList, is_token_char c = true) ∧ name = s.toLower := by
    simp only [Http.plain, Option.ite_none_right_eq_some, Bool.and_eq_true, List.all_eq_true] at hname
    exact ⟨hname.1.2, (Option.some.inj hname.2).symm⟩
  refine ⟨fun s name hname => (haccepted s name hname).2, fun s name hname => ?_⟩
  have hvisible : ∀ c ∈ s.toList, is_whitespace c = false := fun c hc =>
    is_token_char_visible ((haccepted s name hname).1 c hc)
  rw [trim, trimChars_eq_self (fun c hc => hvisible c (List.mem_of_head? hc))
    (fun c hc => hvisible c (List.mem_of_getLast? hc)), String.ofList_toList]

/-- Addresses by their text, without a query. -/
def Urls.plain : Urls String where
  parse s := if "https://".toList.isPrefixOf s.toList then .ok s else .error "relative URL without a base"
  path s := String.ofList ((s.toList.drop 8).dropWhile (· ≠ '/'))
  query_pairs _ := []
  append_pair url key value := url ++ "?" ++ key ++ "=" ++ value

theorem Urls.plain_official : Urls.plain.Official := by
  intro protocol rest
  refine ⟨protocol.default_base_url ++ "/" ++ rest, if_pos ?_⟩
  rw [List.isPrefixOf_iff_prefix, String.toList_append, String.toList_append, List.append_assoc]
  have hhttps : "https://".toList <+: protocol.default_base_url.toList := by cases protocol <;> decide
  exact List.prefix_append_of_prefix hhttps

/-- A channel for Gemini that the check accepts, with its headers. -/
def gemini_channel (extra_headers : List (String × String)) : Channel :=
  { id := 1, owner_id := 1, tags := [], visibility := .shared, user_id := none, name := "relay", kind := .single .gemini,
    credential := ⟨"AIza"⟩, endpoints := [{ protocol := .gemini, models := [⟨"m", none⟩] }], extra_headers }

def gemini_call (channel : Channel) (ep : ChannelEndpoint) : UpstreamRequest :=
  { UpstreamRequest.post .gemini (channel.effective_address ep) ⟨"AIza"⟩ "m" .stream .null with
    extra_headers := channel.extra_headers }

theorem gemini_call_made (extra_headers : List (String × String)) (ep : ChannelEndpoint)
    (hep : ep ∈ (gemini_channel extra_headers).endpoints) :
    Made Http.plain (gemini_channel extra_headers) ep (gemini_call (gemini_channel extra_headers) ep) where
  endpoint := hep
  enabled := by rw [List.mem_singleton.mp hep]
  protocol := by rw [List.mem_singleton.mp hep]; rfl
  address := rfl
  credential := by
    have hkey : (⟨"AIza"⟩ : Credential).is_empty = false := by decide
    refine ⟨0, ?_⟩
    rw [List.mem_singleton.mp hep, Channel.key_pool]
    simp [gemini_channel, hkey, KeyPool.key_at, gemini_call, UpstreamRequest.post]
  action := rfl
  model := .inr ⟨⟨"m", none⟩, by rw [List.mem_singleton.mp hep]; exact List.mem_singleton_self _, rfl⟩
  headers := ⟨[], rfl, nofun⟩
  proxy := rfl

def plain_texts : Texts := { json_error := fun _ => "", from_utf8_lossy := fun _ => "", debug := fun s => "\"" ++ s ++ "\"" }

/-- A call with a header of the channel's own is dispatched. -/
theorem dispatched_iff_sendable_header :
    Dispatched Urls.plain Http.plain plain_texts {} (gemini_channel [("x-route", "a")])
      (gemini_call (gemini_channel [("x-route", "a")]) { protocol := .gemini, models := [⟨"m", none⟩] }) :=
  (dispatched_iff_sendable Urls.plain_official Http.plain_lawful (by decide +kernel)
    (gemini_call_made _ _ List.mem_cons_self)).mpr
    { address := nofun
      proxy := nofun
      key := by decide +kernel
      headers := List.forall_mem_singleton.mpr ⟨by decide +kernel, by decide +kernel⟩
      distinct := List.forall_mem_singleton.mpr (by decide +kernel) }

/-- The check trims the name of a header, which is then sent as it was written. -/
theorem not_every_valid_channel_dispatched :
    ¬ ∀ (channel : Channel) (ep : ChannelEndpoint) (req : UpstreamRequest), channel.validate = .ok () →
      Made Http.plain channel ep req → Dispatched Urls.plain Http.plain plain_texts {} channel req := by
  intro hall
  obtain ⟨built, hbuilt, -⟩ := hall (gemini_channel [(" x-route", "a")]) _ _ (by decide +kernel)
    (gemini_call_made _ _ List.mem_cons_self)
  have hfails : (UpstreamClient.dispatch Urls.plain Http.plain plain_texts {} (gemini_call (gemini_channel [(" x-route", "a")])
      { protocol := .gemini, models := [⟨"m", none⟩] })).toOption.isNone = true := by decide +kernel
  rw [hbuilt] at hfails
  cases hfails

end Instances

end refract.upstream
