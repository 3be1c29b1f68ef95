import Refract.Core.Address
import Refract.Core.Validation
import Refract.Upstream.Client

open refract.core refract.json refract.machine refract.stream

namespace refract.upstream

section Address

variable {Url : Type} {urls : Urls Url}

/-- Placeholders in what follows do not change what stands before them. -/
theorem substitute_append {front : String} (hfront : '\x7b' ∉ front.toList) (back : String) (action : Action)
    (model : String) : ∃ rest, substitute_placeholders (front ++ back) action model = front ++ rest := by
  have hreplace (back pattern text : String) {name : List Char} (hpattern : pattern.toList = '\x7b' :: name) :
      ∃ rest, replace (front ++ back) pattern text = front ++ rest := by
    refine ⟨String.ofList (replace_from pattern.toList text.toList 0 back.toList), ?_⟩
    rw [replace, hpattern, String.toList_append, replace_from_append hfront, String.ofList_append, String.ofList_toList]
  unfold substitute_placeholders
  split
  · obtain ⟨rest, hmodel⟩ := hreplace back "\x7bmodel\x7d" model rfl
    rw [hmodel]
    exact hreplace rest "\x7baction\x7d" action.gemini_verb rfl
  · exact ⟨back, rfl⟩

theorem official_joined (protocol : Protocol) (path : String) :
    ∃ rest, join_segments protocol.default_base_url [protocol.default_version_prefix, path] =
      protocol.default_base_url ++ "/" ++ rest := by
  have hbase : trim_slashes protocol.default_base_url = protocol.default_base_url := by cases protocol <;> decide
  have hversion : ∃ name, segment_text protocol.default_version_prefix = "/" ++ name := by
    cases protocol with
    | chat | responses | messages => exact ⟨"v1", by decide⟩
    | gemini => exact ⟨"v1beta", by decide⟩
  obtain ⟨name, hname⟩ := hversion
  refine ⟨name ++ segment_text path, ?_⟩
  rw [join_segments, hbase, List.map_cons, List.map_singleton, String.join_cons, hname]
  simp [String.append_assoc]

/-- The official addresses are always addresses. -/
theorem build_official_ok (hurls : urls.Official) (protocol : Protocol) (action : Action) (model : String) :
    ∃ url, UpstreamAddress.build_official urls protocol action model = .ok url := by
  obtain ⟨back, hjoined⟩ := official_joined protocol (default_path_for protocol action)
  have hplain : '\x7b' ∉ (protocol.default_base_url ++ "/").toList := by cases protocol <;> decide
  obtain ⟨rest, hrest⟩ := substitute_append hplain back action model
  obtain ⟨url, hurl⟩ := hurls protocol rest
  refine ⟨append_gemini_sse_query urls url protocol action, ?_⟩
  rw [UpstreamAddress.build_official, hjoined, hrest, parse_url, hurl]
  rfl

variable (self : UpstreamAddress) (protocol : Protocol) (action : Action) (model : String)

/-- What a custom address is read from. -/
def custom_text : String :=
  let base := (given self.base_url).getD ""
  let version := (given self.version_prefix).getD protocol.default_version_prefix
  let raw := if self.full_address then base else join_segments base [version, self.path_for protocol action]
  substitute_placeholders raw action model

variable (urls) in
/-- A custom address is one, and unless it is complete its path is for the call. -/
def Reads : Prop :=
  self.unofficial = true → ∃ url, urls.parse (custom_text self protocol action model) = .ok url ∧
    (self.full_address = true ∨ path_ok protocol action (urls.path url) = true)

theorem given_of_base {address : UpstreamAddress} (hbase : base_url_missing address = false) :
    ∃ base, given address.base_url = some base := by
  cases hurl : address.base_url with
  | none => simp [base_url_missing, hurl] at hbase
  | some base =>
    have hne : trim base ≠ "" := by simpa [base_url_missing, hurl] using hbase
    exact ⟨trim base, by simp [given, hne]⟩

theorem parse_url_ok {raw : String} {url : Url} : parse_url urls raw = .ok url ↔ urls.parse raw = .ok url := mapError_eq_ok

/-- An address with what the check asks for is resolved when it reads as one. -/
theorem resolve_ok_iff (hurls : urls.Official) (hbase : (self.unofficial && base_url_missing self) = false) :
    (∃ url, self.resolve urls protocol action model = .ok url) ↔ Reads urls self protocol action model := by
  unfold UpstreamAddress.resolve Reads
  cases hunofficial : self.unofficial with
  | false => exact iff_of_true (build_official_ok hurls protocol action model) nofun
  | true =>
    rw [hunofficial, Bool.true_and] at hbase
    rw [Bool.not_true, if_neg Bool.false_ne_true, imp_iff_right rfl]
    obtain ⟨base, hgiven⟩ := given_of_base hbase
    cases hfull : self.full_address with
    | true =>
      have htext : custom_text self protocol action model = substitute_placeholders base action model := by
        rw [custom_text, hgiven, hfull]
        rfl
      simp only [hgiven, htext, parse_url_ok, true_or, and_true]
    | false =>
      have htext : custom_text self protocol action model = substitute_placeholders (join_segments base
          [(given self.version_prefix).getD protocol.default_version_prefix, self.path_for protocol action]) action model := by
        rw [custom_text, hgiven, hfull]
        rfl
      simp only [hgiven, htext, bind_eq_ok, throw_if_eq_ok, parse_url_ok, Bool.false_eq_true, false_or,
        Bool.not_eq_true', Bool.not_eq_false]
      constructor
      · rintro ⟨_, url, hurl, hpath, -⟩
        exact ⟨url, hurl, hpath⟩
      · rintro ⟨url, hurl, hpath⟩
        exact ⟨_, url, hurl, hpath, rfl⟩

end Address

/-- What the program uses of the libraries that send requests: the names and the
    values of headers that they take, the proxies, and the connections. -/
structure Http where
  header_name : String → Option String
  header_value : String → Bool
  proxy : String → Except String Unit
  build : String → Except String Unit

/-- A name is a token, and is known by its lower case. -/
structure Http.Lawful (http : Http) : Prop where
  lower_case : ∀ s name, http.header_name s = some name → name = s.toLower
  trimmed : ∀ s name, http.header_name s = some name → trim s = s

/-- The client with the proxies that it holds connections for. -/
structure UpstreamClient where
  proxy : Option String := none
  proxy_clients : List String := []

inductive Method where
  | get
  | post
  deriving DecidableEq, Repr

/-- A request that is about to be sent, its headers by who set them. -/
structure HttpRequest (Url : Type) where
  method : Method
  url : Url
  auth : List (String × String)
  extra : List (String × String)
  content_type : Option String
  body : Option (Value ⊕ Bytes)

namespace HttpRequest

variable {Url : Type} (self : HttpRequest Url)

def headers : List (String × String) :=
  self.auth ++ self.extra ++ (self.content_type.map fun value => ("content-type", value)).toList

/-- The names of the headers that are the gateway's. The last two are set with
    the connection. -/
def own_names : List String :=
  self.auth.map Prod.fst ++ (self.content_type.map fun _ => "content-type").toList ++ ["host", "content-length"]

end HttpRequest

section Dispatch

variable {Url : Type} (urls : Urls Url) (http : Http) (texts : Texts)

def ANTHROPIC_VERSION : String := "2023-06-01"

/-- The key in the form in which it is sent. -/
def rendered_key (protocol : Protocol) (credential : Credential) : String :=
  match protocol.auth_scheme with
  | .bearer => "Bearer " ++ credential.value
  | .anthropicApiKey | .googleApiKey => credential.value

def auth_headers (protocol : Protocol) (credential : Credential) : Except GatewayError (List (String × String)) :=
  if credential.is_empty then
    .error ((GatewayError.new .configuration
      "upstream credential is empty; set an API key on the channel or endpoint").with_protocol protocol)
  else
    let secret := rendered_key protocol credential
    if !http.header_value secret then
      .error ((GatewayError.new .configuration
        "upstream credential contains characters that cannot be sent in a header").with_protocol protocol)
    else
      match protocol.auth_scheme with
      | .bearer => .ok [("authorization", secret)]
      | .anthropicApiKey => .ok [("x-api-key", secret), ("anthropic-version", ANTHROPIC_VERSION)]
      | .googleApiKey => .ok [("x-goog-api-key", secret)]

def build_http_client (proxy : String) : Except GatewayError Unit := do
  (http.proxy proxy).mapError fun error =>
    .new .configuration ("invalid upstream proxy " ++ texts.debug proxy ++ ": " ++ error)
  (http.build proxy).mapError fun error => .new .configuration ("failed to build upstream http client: " ++ error)

/-- The connections for a proxy: those at hand, or new ones. -/
def UpstreamClient.http_for (self : UpstreamClient) (proxy : Option String) : Except GatewayError Unit :=
  match given proxy with
  | none => .ok ()
  | some proxy =>
    if self.proxy.map trim = some proxy then .ok ()
    else if proxy ∈ self.proxy_clients then .ok ()
    else build_http_client http texts proxy

def extra_header (header : String × String) : Except GatewayError (String × String) :=
  match http.header_name header.1 with
  | none => .error (.new .configuration ("invalid upstream header name " ++ texts.debug header.1))
  | some name =>
    if http.header_value header.2 then .ok (name, header.2)
    else .error (.new .configuration ("invalid value for upstream header " ++ texts.debug name))

def extra_headers : List (String × String) → Except GatewayError (List (String × String))
  | [] => .ok []
  | header :: headers => do
    let first ← extra_header http texts header
    let rest ← extra_headers headers
    return first :: rest

/-- Builds the request that is sent. Extra headers are added to those that are
    there. The content type comes from a request that a client has made. -/
def UpstreamClient.dispatch (self : UpstreamClient) (req : UpstreamRequest) : Except GatewayError (HttpRequest Url) := do
  let url ← (req.address.resolve urls req.protocol req.action req.model).mapError fun error =>
    (GatewayError.new .configuration error.to_string).with_protocol req.protocol
  self.http_for http texts req.proxy
  let auth ← auth_headers http req.protocol req.credential
  let extra ← extra_headers http texts req.extra_headers
  let method := if req.body.isSome || req.raw_body.isSome then Method.post else .get
  match req.body, req.raw_body with
  | some body, _ =>
    let content_type := if extra.any (·.1 = "content-type") then none else some "application/json"
    return { method, url, auth, extra, content_type, body := some (.inl body) }
  | none, some body =>
    return { method, url, auth, extra, content_type := some (req.raw_content_type.getD "application/json"),
             body := some (.inr body) }
  | none, none => return { method, url, auth, extra, content_type := none, body := none }

variable {urls http texts}

theorem build_http_client_ok {proxy : String} :
    build_http_client http texts proxy = .ok () ↔ http.proxy proxy = .ok () ∧ http.build proxy = .ok () := by
  simp only [build_http_client, bind_eq_ok, mapError_eq_ok, exists_ok_unit]

/-- The proxy is one that requests can be sent through. -/
def UpstreamClient.Reaches (http : Http) (self : UpstreamClient) (proxy : Option String) : Prop :=
  ∀ address, given proxy = some address → self.proxy.map trim = some address ∨ address ∈ self.proxy_clients ∨
    (http.proxy address = .ok () ∧ http.build address = .ok ())

theorem UpstreamClient.http_for_ok {self : UpstreamClient} {proxy : Option String} :
    self.http_for http texts proxy = .ok () ↔ self.Reaches http proxy := by
  unfold http_for Reaches
  cases given proxy with
  | none => simp
  | some address =>
    simp only [Option.some.injEq, forall_eq']
    split
    next hown => exact iff_of_true rfl (.inl hown)
    next hown =>
      split
      next hheld => exact iff_of_true rfl (.inr (.inl hheld))
      next hheld => rw [build_http_client_ok, or_iff_right hown, or_iff_right hheld]

/-- The names of the headers that carry the key. -/
def auth_names (protocol : Protocol) : List String :=
  match protocol.auth_scheme with
  | .bearer => ["authorization"]
  | .anthropicApiKey => ["x-api-key", "anthropic-version"]
  | .googleApiKey => ["x-goog-api-key"]

theorem auth_headers_ok {protocol : Protocol} {credential : Credential} (hkey : credential.is_empty = false) :
    (∃ auth, auth_headers http protocol credential = .ok auth) ↔
      http.header_value (rendered_key protocol credential) = true := by
  unfold auth_headers
  dsimp only
  rw [hkey, if_neg Bool.false_ne_true]
  cases hvalue : http.header_value (rendered_key protocol credential) with
  | false => simp
  | true =>
    rw [Bool.not_true, if_neg Bool.false_ne_true]
    cases protocol.auth_scheme <;> simp

theorem auth_headers_names {protocol : Protocol} {credential : Credential} {auth : List (String × String)}
    (hauth : auth_headers http protocol credential = .ok auth) : auth.map Prod.fst = auth_names protocol := by
  unfold auth_headers at hauth
  dsimp only at hauth
  split at hauth
  · cases hauth
  · split at hauth
    · cases hauth
    · unfold auth_names
      cases hscheme : protocol.auth_scheme <;> rw [hscheme] at hauth <;> rw [← Except.ok.inj hauth] <;> rfl

theorem extra_header_ok {header : String × String} {sent : String × String} :
    extra_header http texts header = .ok sent ↔
      ∃ name, http.header_name header.1 = some name ∧ http.header_value header.2 = true ∧ sent = (name, header.2) := by
  unfold extra_header
  cases http.header_name header.1 with
  | none => simp
  | some name =>
    cases http.header_value header.2 with
    | false => simp
    | true => simp [eq_comm]

/-- The header is one that can be sent. -/
def Http.Takes (http : Http) (header : String × String) : Prop :=
  (http.header_name header.1).isSome = true ∧ http.header_value header.2 = true

theorem extra_headers_ok {headers : List (String × String)} :
    (∃ extra, extra_headers http texts headers = .ok extra) ↔ ∀ header ∈ headers, http.Takes header := by
  induction headers with
  | nil => simp [extra_headers]
  | cons header headers ih =>
    rw [List.forall_mem_cons, ← ih]
    simp only [extra_headers, bind_eq_ok, extra_header_ok, Http.Takes, Option.isSome_iff_exists]
    constructor
    · rintro ⟨_, _, ⟨name, hname, hvalue, -⟩, rest, hrest, -⟩
      exact ⟨⟨⟨name, hname⟩, hvalue⟩, rest, hrest⟩
    · rintro ⟨⟨⟨name, hname⟩, hvalue⟩, rest, hrest⟩
      exact ⟨_, _, ⟨name, hname, hvalue, rfl⟩, rest, hrest, rfl⟩

/-- What is needed to build a request, each part on its own. -/
theorem dispatch_ok_iff {self : UpstreamClient} {req : UpstreamRequest} :
    (∃ built, self.dispatch urls http texts req = .ok built) ↔
      (∃ url, req.address.resolve urls req.protocol req.action req.model = .ok url) ∧ self.Reaches http req.proxy ∧
        (∃ auth, auth_headers http req.protocol req.credential = .ok auth) ∧
        ∀ header ∈ req.extra_headers, http.Takes header := by
  rw [← @extra_headers_ok http texts, ← @UpstreamClient.http_for_ok http texts]
  unfold UpstreamClient.dispatch
  simp only [bind_eq_ok, mapError_eq_ok, exists_ok_unit]
  constructor
  · rintro ⟨built, url, hurl, hproxy, auth, hauth, extra, hextra, -⟩
    exact ⟨⟨url, hurl⟩, hproxy, ⟨auth, hauth⟩, extra, hextra⟩
  · rintro ⟨⟨url, hurl⟩, hproxy, ⟨auth, hauth⟩, extra, hextra⟩
    cases req.body with
    | some body => exact ⟨_, url, hurl, hproxy, auth, hauth, extra, hextra, rfl⟩
    | none =>
      cases req.raw_body with
      | some body => exact ⟨_, url, hurl, hproxy, auth, hauth, extra, hextra, rfl⟩
      | none => exact ⟨_, url, hurl, hproxy, auth, hauth, extra, hextra, rfl⟩

/-- The gateway's own headers are those of the key, the content type and those of
    the connection. -/
theorem dispatch_own_names {self : UpstreamClient} {req : UpstreamRequest} {built : HttpRequest Url}
    (hbuilt : self.dispatch urls http texts req = .ok built) :
    ∃ more, built.own_names = auth_names req.protocol ++ more ∧
      ∀ name ∈ more, name ∈ ["content-type", "host", "content-length"] := by
  unfold UpstreamClient.dispatch at hbuilt
  simp only [bind_eq_ok, mapError_eq_ok, exists_ok_unit] at hbuilt
  obtain ⟨url, -, -, auth, hauth, extra, -, hbuilt⟩ := hbuilt
  have hparts : built.auth = auth := by
    split at hbuilt <;> rw [← Except.ok.inj hbuilt]
  refine ⟨_, by rw [HttpRequest.own_names, hparts, auth_headers_names hauth, List.append_assoc], ?_⟩
  intro name hname
  rcases List.mem_append.mp hname with hname | hname
  · cases hcontent : built.content_type with
    | none => simp [hcontent] at hname
    | some value =>
      have heq : name = "content-type" := by simpa [hcontent] using hname
      rw [heq]
      decide
  · exact List.mem_cons_of_mem _ hname

end Dispatch

end refract.upstream
