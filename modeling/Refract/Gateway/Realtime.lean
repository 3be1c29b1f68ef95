import Refract.Core.Address

open refract.core refract.json

namespace refract.gateway

/-- What a realtime session uses of the library that reads addresses, above what
    every call does. The port is the scheme's own where an address names none. -/
structure UrlParts (Url : Type) extends Urls Url where
  scheme : Url → String
  host : Url → Option String
  port : Url → Option Nat
  set_path : Url → String → Url
  set_scheme : Url → String → Option Url
  clear_query : Url → Url
  to_string : Url → String

def strip_suffix (s suffix : String) : Option String :=
  if ends_with s suffix then some (String.ofList (s.toList.take (s.toList.length - suffix.toList.length))) else none

/-- The path of the sessions, beside that of the conversations or of the models. -/
def realtime_path (full_address : Bool) (path : String) : Option String :=
  let path := trim_slashes path
  if ends_with path "/realtime" then some path
  else
    match strip_suffix path "/chat/completions" with
    | some base => some (base ++ "/realtime")
    | none => if full_address then none else (strip_suffix path "/models").map (· ++ "/realtime")

def websocket_scheme (scheme : String) : Except GatewayError String :=
  if scheme = "https" then .ok "wss"
  else if scheme = "http" then .ok "ws"
  else if scheme = "wss" then .ok "wss"
  else if scheme = "ws" then .ok "ws"
  else .error (.new .configuration ("Realtime address uses unsupported URL scheme `" ++ scheme ++ "`"))

section Build

variable {Url : Type} (urls : UrlParts Url)

def append_pairs (url : Url) (pairs : List (String × String)) : Url :=
  pairs.foldl (fun url pair => urls.append_pair url pair.1 pair.2) url

/-- The address of a realtime session. The gateway alone says which model it is for. -/
def realtime_url (address : UpstreamAddress) (upstream_model : String) : Except GatewayError String := do
  let url ← (address.resolve urls.toUrls .chat .listModels "").mapError fun error => .new .configuration error.to_string
  let some path := realtime_path address.full_address (urls.path url)
    | throw (.new .configuration "a full Chat address used for Realtime must end in `/chat/completions` or `/realtime`")
  let url := urls.set_path url path
  let scheme ← websocket_scheme (urls.scheme url)
  let some url := urls.set_scheme url scheme
    | throw (.new .configuration "failed to convert the Realtime address to WebSocket")
  let existing := (urls.query_pairs url).filter (·.1 ≠ "model")
  let url := append_pairs urls (urls.clear_query url) existing
  return urls.to_string (urls.append_pair url "model" upstream_model)

end Build

section Documented

variable {Url : Type}

/-- Two addresses of one server. -/
structure UrlParts.Server (urls : UrlParts Url) (url other : Url) : Prop where
  host : urls.host other = urls.host url
  port : urls.port other = urls.port url

/-- The schemes of the web, with and without encryption. -/
def UrlParts.Web (urls : UrlParts Url) (url : Url) : Prop :=
  urls.scheme url = "https" ∨ urls.scheme url = "http" ∨ urls.scheme url = "wss" ∨ urls.scheme url = "ws"

/-- What the library says of the parts of an address. -/
structure UrlParts.Lawful (urls : UrlParts Url) : Prop where
  /-- A path that is cut at a slash and goes on with letters is taken as it is. -/
  set_path_path : ∀ {url : Url} {front tail name : String}, urls.Web url → urls.path url = front ++ "/" ++ tail →
    (∀ c ∈ name.toList, c.isAlpha) → urls.path (urls.set_path url (front ++ "/" ++ name)) = front ++ "/" ++ name
  set_path_scheme : ∀ url path, urls.scheme (urls.set_path url path) = urls.scheme url
  set_path_server : ∀ url path, urls.Server url (urls.set_path url path)
  set_path_query : ∀ url path, urls.query_pairs (urls.set_path url path) = urls.query_pairs url
  /-- A scheme gives way to that of its sockets, whose port is the same. -/
  set_scheme_eq : ∀ {url : Url} {scheme : String}, websocket_scheme (urls.scheme url) = .ok scheme →
    ∃ other, urls.set_scheme url scheme = some other ∧ urls.scheme other = scheme ∧ urls.Server url other ∧
      urls.path other = urls.path url ∧ urls.query_pairs other = urls.query_pairs url
  clear_query_scheme : ∀ url, urls.scheme (urls.clear_query url) = urls.scheme url
  clear_query_server : ∀ url, urls.Server url (urls.clear_query url)
  clear_query_path : ∀ url, urls.path (urls.clear_query url) = urls.path url
  clear_query_query : ∀ url, urls.query_pairs (urls.clear_query url) = []
  append_pair_scheme : ∀ url key value, urls.scheme (urls.append_pair url key value) = urls.scheme url
  append_pair_server : ∀ url key value, urls.Server url (urls.append_pair url key value)
  append_pair_path : ∀ url key value, urls.path (urls.append_pair url key value) = urls.path url
  append_pair_query : ∀ url key value,
    urls.query_pairs (urls.append_pair url key value) = urls.query_pairs url ++ [(key, value)]
  /-- Behind an address of the web that is whole there may stand another path. It is the
      end of the address's own, unless a query or a fragment has begun before it. -/
  parse_append : ∀ {front tail : String} {base url : Url}, urls.parse front = .ok base → urls.parse (front ++ tail) = .ok url →
    urls.Web url → tail.toList.head? = some '/' ∨ urls.path base ≠ "/" →
    ∃ other, urls.parse (front ++ "/models") = .ok other ∧ urls.scheme other = urls.scheme url ∧
      (urls.path other = urls.path url ∨ ends_with (trim_slashes (urls.path other)) "/models" = true)
  official_models : ∃ url, urls.parse "https://api.openai.com/v1/models" = .ok url ∧ urls.scheme url = "https" ∧
    urls.path url = "/v1/models"

end Documented

section Path

theorem eq_of_strip_suffix {s suffix base : String} (h : strip_suffix s suffix = some base) : s = base ++ suffix := by
  rw [strip_suffix, Option.ite_none_right_eq_some, ends_with, List.isSuffixOf_iff_suffix] at h
  obtain ⟨⟨front, hfront⟩, hbase⟩ := h
  rw [← Option.some.inj hbase, ← hfront, List.length_append, Nat.add_sub_cancel, List.take_left' rfl]
  rw [← String.toList_inj, String.toList_append, String.toList_ofList, hfront]

theorem strip_suffix_isSome {s suffix : String} (h : ends_with s suffix = true) : (strip_suffix s suffix).isSome := by
  rw [strip_suffix, if_pos h, Option.isSome_some]

/-- A path beside those that the sessions may stand next to. -/
def Beside (full_address : Bool) (path result : String) : Prop :=
  ∃ front suffix, trim_slashes path = front ++ suffix ∧ result = front ++ "/realtime" ∧
    (suffix = "/realtime" ∨ suffix = "/chat/completions" ∨ full_address = false ∧ suffix = "/models")

theorem beside_of_realtime_path {full_address : Bool} {path result : String}
    (h : realtime_path full_address path = some result) : Beside full_address path result := by
  rw [realtime_path] at h
  by_cases hown : ends_with (trim_slashes path) "/realtime" = true
  · rw [if_pos hown] at h
    obtain ⟨base, hbase⟩ := Option.isSome_iff_exists.mp (strip_suffix_isSome hown)
    exact ⟨base, "/realtime", eq_of_strip_suffix hbase, (Option.some.inj h).symm.trans (eq_of_strip_suffix hbase), .inl rfl⟩
  rw [if_neg hown] at h
  cases hchat : strip_suffix (trim_slashes path) "/chat/completions" with
  | some base =>
    rw [hchat] at h
    exact ⟨base, "/chat/completions", eq_of_strip_suffix hchat, (Option.some.inj h).symm, .inr (.inl rfl)⟩
  | none =>
    rw [hchat] at h
    dsimp only at h
    rw [Option.ite_none_left_eq_some, Option.map_eq_some_iff] at h
    obtain ⟨hfull, base, hbase, hresult⟩ := h
    exact ⟨base, "/models", eq_of_strip_suffix hbase, hresult.symm, .inr (.inr ⟨eq_false_of_ne_true hfull, rfl⟩)⟩

theorem realtime_path_isSome {path : String}
    (h : ends_with (trim_slashes path) "/chat/completions" = true ∨ ends_with (trim_slashes path) "/models" = true) :
    (realtime_path false path).isSome := by
  rw [realtime_path]
  by_cases hown : ends_with (trim_slashes path) "/realtime" = true
  · rw [if_pos hown, Option.isSome_some]
  rw [if_neg hown]
  cases hchat : strip_suffix (trim_slashes path) "/chat/completions" with
  | some base => rfl
  | none =>
    cases h with
    | inl hends =>
      have hsome := strip_suffix_isSome hends
      rw [hchat] at hsome
      cases hsome
    | inr hmodels =>
      dsimp only
      rw [if_neg Bool.false_ne_true, Option.isSome_map]
      exact strip_suffix_isSome hmodels

/-- The path that is cut goes on after a slash. -/
theorem Beside.cut {full_address : Bool} {path result : String} (h : Beside full_address path result) :
    ∃ front tail, path = front ++ "/" ++ tail ∧ result = front ++ "/" ++ "realtime" := by
  obtain ⟨front, suffix, htrimmed, hresult, hsuffix⟩ := h
  have hslash : ∃ name, suffix = "/" ++ name := by
    obtain rfl | rfl | ⟨-, rfl⟩ := hsuffix
    · exact ⟨"realtime", rfl⟩
    · exact ⟨"chat/completions", rfl⟩
    · exact ⟨"models", rfl⟩
  obtain ⟨name, hname⟩ := hslash
  obtain ⟨slashes, hslashes⟩ : ∃ slashes, path = trim_slashes path ++ slashes := by
    obtain ⟨slashes, hslashes⟩ := List.rdropWhile_prefix (· = '/') path.toList
    exact ⟨String.ofList slashes, by
      rw [← String.toList_inj, String.toList_append, trim_slashes, String.toList_ofList, String.toList_ofList, hslashes]⟩
  refine ⟨front, name ++ slashes, ?_, ?_⟩
  · rw [hslashes, htrimmed, hname]
    simp only [String.append_assoc]
  · rw [hresult, String.append_assoc]
    rfl

end Path

section Session

variable {Url : Type} {urls : UrlParts Url} {address : UpstreamAddress} {upstream_model : String}

theorem append_pairs_server (hlaws : urls.Lawful) (url : Url) (pairs : List (String × String)) :
    urls.Server url (append_pairs urls url pairs) := by
  induction pairs generalizing url with
  | nil => exact ⟨rfl, rfl⟩
  | cons pair pairs ih =>
    have hone := hlaws.append_pair_server url pair.1 pair.2
    exact ⟨(ih _).host.trans hone.host, (ih _).port.trans hone.port⟩

theorem append_pairs_scheme (hlaws : urls.Lawful) (url : Url) (pairs : List (String × String)) :
    urls.scheme (append_pairs urls url pairs) = urls.scheme url := by
  induction pairs generalizing url with
  | nil => rfl
  | cons pair pairs ih => exact (ih _).trans (hlaws.append_pair_scheme url pair.1 pair.2)

theorem append_pairs_path (hlaws : urls.Lawful) (url : Url) (pairs : List (String × String)) :
    urls.path (append_pairs urls url pairs) = urls.path url := by
  induction pairs generalizing url with
  | nil => rfl
  | cons pair pairs ih => exact (ih _).trans (hlaws.append_pair_path url pair.1 pair.2)

theorem append_pairs_query (hlaws : urls.Lawful) (url : Url) (pairs : List (String × String)) :
    urls.query_pairs (append_pairs urls url pairs) = urls.query_pairs url ++ pairs := by
  induction pairs generalizing url with
  | nil => exact (List.append_nil _).symm
  | cons pair pairs ih =>
    rw [append_pairs, List.foldl_cons]
    exact (ih _).trans (by rw [hlaws.append_pair_query, List.append_assoc, List.singleton_append])

theorem web_of_websocket_scheme {url : Url} {scheme : String} (h : websocket_scheme (urls.scheme url) = .ok scheme) :
    urls.Web url := by
  unfold websocket_scheme at h
  unfold UrlParts.Web
  split_ifs at h with hhttps hhttp hwss hws
  · exact .inl hhttps
  · exact .inr (.inl hhttp)
  · exact .inr (.inr (.inl hwss))
  · exact .inr (.inr (.inr hws))

theorem websocket_scheme_of_web {url : Url} (h : urls.Web url) : ∃ scheme, websocket_scheme (urls.scheme url) = .ok scheme := by
  obtain hhttps | hhttp | hwss | hws := h
  · exact ⟨"wss", by rw [hhttps]; rfl⟩
  · exact ⟨"ws", by rw [hhttp]; rfl⟩
  · exact ⟨"wss", by rw [hwss]; rfl⟩
  · exact ⟨"ws", by rw [hws]; rfl⟩

/-- The address of a session beside an address of a server: a socket of the server,
    with the parameters of the address and with the model. -/
structure Session (urls : UrlParts Url) (full_address : Bool) (url result : Url) (upstream_model : String) : Prop where
  scheme : websocket_scheme (urls.scheme url) = .ok (urls.scheme result)
  socket : urls.scheme result = "wss" ∨ urls.scheme result = "ws"
  server : urls.Server url result
  path : Beside full_address (urls.path url) (urls.path result)
  query : urls.query_pairs result = (urls.query_pairs url).filter (·.1 ≠ "model") ++ [("model", upstream_model)]

theorem websocket_scheme_ok {scheme result : String} (h : websocket_scheme scheme = .ok result) :
    result = "wss" ∨ result = "ws" := by
  unfold websocket_scheme at h
  split_ifs at h
  · exact .inl (Except.ok.inj h).symm
  · exact .inr (Except.ok.inj h).symm
  · exact .inl (Except.ok.inj h).symm
  · exact .inr (Except.ok.inj h).symm

/-- What is made of an address whose path and scheme are fit for it. -/
theorem realtime_url_of_parts (hlaws : urls.Lawful) {url : Url} {path scheme : String}
    (hurl : address.resolve urls.toUrls .chat .listModels "" = .ok url)
    (hpath : realtime_path address.full_address (urls.path url) = some path)
    (hscheme : websocket_scheme (urls.scheme url) = .ok scheme) :
    ∃ result, realtime_url urls address upstream_model = .ok (urls.to_string result) ∧
      Session urls address.full_address url result upstream_model := by
  have hscheme' : websocket_scheme (urls.scheme (urls.set_path url path)) = .ok scheme := by
    rw [hlaws.set_path_scheme, hscheme]
  obtain ⟨other, hother, hotherScheme, hserver, hotherPath, hquery⟩ := hlaws.set_scheme_eq hscheme'
  let kept := append_pairs urls (urls.clear_query other) ((urls.query_pairs other).filter (·.1 ≠ "model"))
  refine ⟨urls.append_pair kept "model" upstream_model, ?_, ?scheme, ?socket, ⟨?host, ?port⟩, ?beside, ?query⟩
  · rw [realtime_url, hurl]
    simp only [Except.mapError, bind, Except.bind, hpath, hscheme', hother, pure, Except.pure]
    rfl
  case scheme => rw [hlaws.append_pair_scheme, append_pairs_scheme hlaws, hlaws.clear_query_scheme, hotherScheme, hscheme]
  case socket =>
    rw [hlaws.append_pair_scheme, append_pairs_scheme hlaws, hlaws.clear_query_scheme, hotherScheme]
    exact websocket_scheme_ok hscheme
  case host =>
    rw [(hlaws.append_pair_server _ _ _).host, (append_pairs_server hlaws _ _).host, (hlaws.clear_query_server _).host,
      hserver.host, (hlaws.set_path_server _ _).host]
  case port =>
    rw [(hlaws.append_pair_server _ _ _).port, (append_pairs_server hlaws _ _).port, (hlaws.clear_query_server _).port,
      hserver.port, (hlaws.set_path_server _ _).port]
  case beside =>
    have hbeside := beside_of_realtime_path hpath
    obtain ⟨front, tail, hcut, hresult⟩ := hbeside.cut
    rw [hlaws.append_pair_path, append_pairs_path hlaws, hlaws.clear_query_path, hotherPath, hresult,
      hlaws.set_path_path (web_of_websocket_scheme hscheme) hcut (List.all_eq_true.mp (by decide)), ← hresult]
    exact hbeside
  case query =>
    rw [hlaws.append_pair_query, append_pairs_query hlaws, hlaws.clear_query_query, List.nil_append, hquery,
      hlaws.set_path_query]

theorem realtime_url_eq_ok (hlaws : urls.Lawful) {text : String} (h : realtime_url urls address upstream_model = .ok text) :
    ∃ url result, address.resolve urls.toUrls .chat .listModels "" = .ok url ∧ text = urls.to_string result ∧
      Session urls address.full_address url result upstream_model := by
  cases hurl : address.resolve urls.toUrls .chat .listModels "" with
  | error error => rw [realtime_url, hurl] at h; cases h
  | ok url =>
    cases hpath : realtime_path address.full_address (urls.path url) with
    | none =>
      rw [realtime_url, hurl] at h
      simp only [Except.mapError, bind, Except.bind, hpath] at h
      cases h
    | some path =>
      cases hscheme : websocket_scheme (urls.scheme url) with
      | error error =>
        rw [realtime_url, hurl] at h
        simp only [Except.mapError, bind, Except.bind, hpath, hlaws.set_path_scheme, hscheme] at h
        cases h
      | ok scheme =>
        obtain ⟨result, hresult, hsession⟩ := @realtime_url_of_parts _ _ _ upstream_model hlaws _ _ _ hurl hpath hscheme
        exact ⟨url, result, rfl, Except.ok.inj (h.symm.trans hresult), hsession⟩

end Session

section Joined

/-- A segment is nothing or stands behind a slash. -/
theorem segment_text_head (segment : String) :
    segment_text segment = "" ∨ (segment_text segment).toList.head? = some '/' := by
  rw [segment_text]
  by_cases hblank : trim segment = ""
  · exact .inl (if_pos hblank)
  rw [if_neg hblank]
  by_cases hslash : (trim segment).toList.head? = some '/'
  · obtain ⟨slashes, hslashes⟩ := List.rdropWhile_prefix (· = '/') (trim segment).toList
    cases htrimmed : (trim segment).toList.rdropWhile (· = '/') with
    | nil => exact .inl (by rw [if_pos hslash, trim_slashes, htrimmed]; rfl)
    | cons c cs =>
      rw [htrimmed] at hslashes
      rw [← hslashes, List.cons_append, List.head?_cons] at hslash
      refine .inr ?_
      rw [← hslashes, List.cons_append, List.head?_cons, if_pos hslash, String.empty_append, trim_slashes,
        String.toList_ofList, htrimmed]
      exact hslash
  · refine .inr ?_
    rw [if_neg hslash, String.toList_append]
    rfl

theorem join_segments_pair (base version path : String) :
    join_segments base [version, path] = join_segments base [version] ++ segment_text path := by
  simp only [join_segments, List.map_cons, List.map_nil, String.join_cons, String.join_nil, String.append_empty,
    String.append_assoc]

/-- Names are put in behind a front that has no place for one, and what begins there
    with a slash still does. -/
theorem substitute_front {front tail : String} (hfront : '\x7b' ∉ front.toList)
    (htail : tail = "" ∨ tail.toList.head? = some '/') (action : Action) (model : String) :
    ∃ rest, substitute_placeholders (front ++ tail) action model = front ++ rest ∧
      (rest = "" ∨ rest.toList.head? = some '/') := by
  by_cases hplace : '\x7b' ∈ (front ++ tail).toList
  · rw [substitute_placeholders, if_pos hplace, replace_append rfl hfront, replace_append rfl hfront]
    exact ⟨_, rfl, replace_head rfl (by decide) (replace_head rfl (by decide) htail)⟩
  · rw [substitute_placeholders, if_neg hplace]
    exact ⟨tail, rfl, htail⟩

/-- What the path of a Chat address is put behind. -/
def chat_front (address : UpstreamAddress) (base : String) : String :=
  join_segments base [(given address.version_prefix).getD Protocol.chat.default_version_prefix]

/-- The address is put together from its parts, and what comes before the path is
    an address of its own without places for names. -/
structure Extensible {Url : Type} (urls : UrlParts Url) (address : UpstreamAddress) : Prop where
  joined : address.full_address = false
  whole : address.unofficial = true → ∀ base, given address.base_url = some base →
    '\x7b' ∉ (chat_front address base).toList ∧ ∃ url, urls.parse (chat_front address base) = .ok url

variable {Url : Type} {urls : UrlParts Url} {address : UpstreamAddress}

theorem segment_models : segment_text "/models" = "/models" := by decide +kernel

theorem resolve_models {base : String} (hunofficial : address.unofficial = true) (hjoined : address.full_address = false)
    (hbase : given address.base_url = some base) (hfront : '\x7b' ∉ (chat_front address base).toList) :
    address.resolve urls.toUrls .chat .listModels "" = parse_url urls.toUrls (chat_front address base ++ "/models") := by
  have htext : join_segments base [(given address.version_prefix).getD Protocol.chat.default_version_prefix,
      address.path_for .chat .listModels] = chat_front address base ++ "/models" := by
    have hmodels : segment_text (address.path_for .chat .listModels) = "/models" := segment_models
    rw [join_segments_pair, hmodels, chat_front]
  have hplain : '\x7b' ∉ (chat_front address base ++ "/models").toList := by
    rw [String.toList_append, List.mem_append, not_or]
    exact ⟨hfront, by decide⟩
  simp only [UpstreamAddress.resolve, hunofficial, hjoined, hbase, htext, substitute_placeholders, if_neg hplain]
  cases parse_url urls.toUrls (chat_front address base ++ "/models") <;> rfl

/-- A conversation's address begins with what comes before the path, and ends like one. -/
theorem resolve_chat {base model : String} {action : Action} {url : Url} (haction : action = .generate ∨ action = .stream)
    (hunofficial : address.unofficial = true) (hjoined : address.full_address = false)
    (hbase : given address.base_url = some base) (hfront : '\x7b' ∉ (chat_front address base).toList)
    (h : address.resolve urls.toUrls .chat action model = .ok url) :
    ends_with (trim_slashes (urls.path url)) "/chat/completions" = true ∧
      ∃ rest, urls.parse (chat_front address base ++ rest) = .ok url ∧ (rest = "" ∨ rest.toList.head? = some '/') := by
  have htext := substitute_front hfront (segment_text_head (address.path_for .chat action)) action model
  obtain ⟨rest, hsubstituted, hrest⟩ := htext
  rw [UpstreamAddress.resolve, hunofficial, hjoined, hbase] at h
  simp only [Bool.not_true, Bool.false_eq_true, if_false, join_segments_pair] at h
  rw [← chat_front, hsubstituted, parse_url] at h
  cases hparsed : urls.parse (chat_front address base ++ rest) with
  | error source => rw [hparsed] at h; cases h
  | ok parsed =>
    rw [hparsed] at h
    simp only [Except.mapError, bind, Except.bind] at h
    have hnative : path_ok .chat action (urls.path parsed) = ends_with (trim_slashes (urls.path parsed)) "/chat/completions" := by
      cases haction with
      | inl hgenerate => rw [hgenerate]; rfl
      | inr hstream => rw [hstream]; rfl
    rw [hnative] at h
    cases hends : ends_with (trim_slashes (urls.path parsed)) "/chat/completions" with
    | false => rw [hends] at h; cases h
    | true =>
      rw [hends] at h
      have hkept : parsed = url := Except.ok.inj h
      rw [← hkept]
      exact ⟨hends, rest, hparsed, hrest⟩

/-- A conversation over a joined address may be held over a socket too. -/
theorem exists_realtime_url (hlaws : urls.Lawful) (haddress : Extensible urls address) {action : Action} {model : String}
    {url : Url} (haction : action = .generate ∨ action = .stream)
    (hresolved : address.resolve urls.toUrls .chat action model = .ok url) (hweb : urls.Web url) (upstream_model : String) :
    ∃ text, realtime_url urls address upstream_model = .ok text := by
  suffices hmodels : ∃ other, address.resolve urls.toUrls .chat .listModels "" = .ok other ∧ urls.Web other ∧
      (realtime_path false (urls.path other)).isSome by
    obtain ⟨other, hother, hotherWeb, hpath⟩ := hmodels
    obtain ⟨scheme, hscheme⟩ := websocket_scheme_of_web hotherWeb
    obtain ⟨path, hpath⟩ := Option.isSome_iff_exists.mp hpath
    rw [← haddress.joined] at hpath
    obtain ⟨result, hresult, -⟩ := @realtime_url_of_parts _ _ _ upstream_model hlaws _ _ _ hother hpath hscheme
    exact ⟨_, hresult⟩
  cases hunofficial : address.unofficial with
  | false =>
    obtain ⟨official, hparsed, hscheme, hpath⟩ := hlaws.official_models
    refine ⟨official, ?_, .inl hscheme, by rw [hpath]; decide +kernel⟩
    have htext : join_segments Protocol.chat.default_base_url
        [Protocol.chat.default_version_prefix, default_path_for .chat .listModels] = "https://api.openai.com/v1/models" := by
      decide +kernel
    have hplain : substitute_placeholders "https://api.openai.com/v1/models" .listModels "" =
        "https://api.openai.com/v1/models" := by decide +kernel
    rw [UpstreamAddress.resolve, hunofficial]
    simp only [Bool.not_false, if_true, UpstreamAddress.build_official, htext, hplain, parse_url, hparsed]
    rfl
  | true =>
    cases hbase : given address.base_url with
    | none =>
      rw [UpstreamAddress.resolve, hunofficial, haddress.joined, hbase] at hresolved
      cases hresolved
    | some base =>
      obtain ⟨hfront, front, hparsed⟩ := haddress.whole hunofficial base hbase
      obtain ⟨hnative, rest, hrest, hhead⟩ := resolve_chat haction hunofficial haddress.joined hbase hfront hresolved
      have hcut : rest.toList.head? = some '/' ∨ urls.path front ≠ "/" := by
        refine hhead.symm.imp_right fun hempty hroot => ?_
        -- Without a path of its own, the front is the address, whose path says what it is.
        rw [hempty, String.append_empty, hparsed] at hrest
        rw [← Except.ok.inj hrest, hroot] at hnative
        exact absurd hnative (by decide +kernel)
      obtain ⟨other, hother, hscheme, hpath⟩ := hlaws.parse_append hparsed hrest hweb hcut
      refine ⟨other, ?_, ?_, realtime_path_isSome (hpath.imp_left fun hsame => by rw [hsame]; exact hnative)⟩
      · rw [resolve_models hunofficial haddress.joined hbase hfront, parse_url, hother]
        rfl
      · rw [UrlParts.Web, hscheme]
        exact hweb

end Joined

/-- The address of a session keeps the server, the path up to its last part and the
    parameters of the address that a channel has for its models, and names one model.
    There is one wherever a joined address is good for a conversation. -/
theorem realtime_url_beside_models {Url : Type} {urls : UrlParts Url} (hlaws : urls.Lawful) (address : UpstreamAddress)
    (upstream_model : String) :
    (∀ text, realtime_url urls address upstream_model = .ok text →
      ∃ url result, address.resolve urls.toUrls .chat .listModels "" = .ok url ∧ text = urls.to_string result ∧
        Session urls address.full_address url result upstream_model) ∧
    (Extensible urls address → ∀ action, action = .generate ∨ action = .stream → ∀ model url,
      address.resolve urls.toUrls .chat action model = .ok url → urls.Web url →
        ∃ text, realtime_url urls address upstream_model = .ok text) :=
  ⟨fun _ htext => realtime_url_eq_ok hlaws htext,
    fun haddress _ haction _ _ hresolved hweb => exists_realtime_url hlaws haddress haction hresolved hweb upstream_model⟩

section Instances

/-- An address of plain characters, without a port. -/
structure PlainUrl where
  scheme : String
  host : String
  path : String
  query : List (String × String)
  deriving DecidableEq

namespace PlainUrl

/-- The scheme, the host and what comes behind. -/
def cut (text : List Char) : Option (List Char × List Char × List Char) :=
  match text.dropWhile (· ≠ ':') with
  | [] => none
  | _ :: rest =>
    let rest := rest.dropWhile (· = '/')
    let host := rest.takeWhile (fun c => c ≠ '/' && c ≠ '?')
    if host = [] then none
    else some (text.takeWhile (· ≠ ':'), host, rest.dropWhile (fun c => c ≠ '/' && c ≠ '?'))

def path_of (rest : List Char) : String :=
  if rest.takeWhile (· ≠ '?') = [] then "/" else String.ofList (rest.takeWhile (· ≠ '?'))

def pair_of (text : List Char) : String × String :=
  (String.ofList (text.takeWhile (· ≠ '=')), String.ofList ((text.dropWhile (· ≠ '=')).drop 1))

def query_of (rest : List Char) : List (String × String) :=
  match rest.dropWhile (· ≠ '?') with
  | [] => []
  | _ :: query => (query.splitOn '&').map pair_of

def parse (s : String) : Except String PlainUrl :=
  match cut s.toList with
  | none => .error "relative URL without a base"
  | some (scheme, host, rest) =>
    .ok { scheme := String.ofList scheme, host := String.ofList host, path := path_of rest, query := query_of rest }

def to_string (self : PlainUrl) : String :=
  self.scheme ++ "://" ++ self.host ++ self.path ++
    (if self.query = [] then "" else "?" ++ "&".intercalate (self.query.map fun pair => pair.1 ++ "=" ++ pair.2))

def urls : UrlParts PlainUrl where
  parse := parse
  path := PlainUrl.path
  query_pairs := PlainUrl.query
  append_pair url key value := { url with query := url.query ++ [(key, value)] }
  scheme := PlainUrl.scheme
  host url := some url.host
  port url := some (if url.scheme = "https" ∨ url.scheme = "wss" then 443 else 80)
  set_path url path := { url with path }
  set_scheme url scheme := some { url with scheme }
  clear_query url := { url with query := [] }
  to_string := to_string

/-- What comes behind a stop changes nothing before it. -/
theorem while_append {p : Char → Bool} {cs ds : List Char} (h : cs.dropWhile p ≠ [] ∨ ∃ d, ds.head? = some d ∧ p d = false) :
    (cs ++ ds).takeWhile p = cs.takeWhile p ∧ (cs ++ ds).dropWhile p = cs.dropWhile p ++ ds := by
  induction cs with
  | nil =>
    obtain hnone | ⟨d, hd, hstop⟩ := h
    · exact absurd rfl hnone
    · obtain ⟨rest, rfl⟩ := List.head?_eq_some_iff.mp hd
      simp [hstop]
  | cons c cs ih =>
    rw [List.cons_append, List.takeWhile_cons, List.dropWhile_cons, List.takeWhile_cons, List.dropWhile_cons]
    cases hc : p c with
    | false => simp
    | true =>
      rw [List.dropWhile_cons, hc, if_pos rfl] at h
      simpa using ih h

theorem cut_append {text scheme host rest : List Char} (h : cut text = some (scheme, host, rest)) {tail : List Char}
    (htail : rest ≠ [] ∨ tail.head? = some '/') : cut (text ++ tail) = some (scheme, host, rest ++ tail) := by
  rw [cut] at h
  cases hcolon : text.dropWhile (· ≠ ':') with
  | nil => rw [hcolon] at h; cases h
  | cons c behind =>
    rw [hcolon] at h
    dsimp only at h
    obtain ⟨hhost, hparts⟩ := Option.ite_none_left_eq_some.mp h
    obtain ⟨rfl, rfl, rfl⟩ : _ ∧ _ ∧ _ := by simpa only [Option.some.injEq, Prod.mk.injEq] using hparts
    have hscheme := @while_append (· ≠ ':') text tail (.inl (by rw [hcolon]; exact List.cons_ne_nil _ _))
    have hslashes := @while_append (· = '/') behind tail (.inl fun hnone => hhost (by rw [hnone]; rfl))
    have hrest := @while_append (fun c => c ≠ '/' && c ≠ '?') (behind.dropWhile (· = '/')) tail
      (htail.imp_right fun hhead => ⟨'/', hhead, rfl⟩)
    rw [cut, hscheme.2, hcolon, List.cons_append]
    dsimp only
    rw [hslashes.2, hrest.1, hrest.2, if_neg hhost, hscheme.1]

theorem parse_eq_ok {s : String} {url : PlainUrl} (h : parse s = .ok url) :
    ∃ scheme host rest, cut s.toList = some (scheme, host, rest) ∧
      url = { scheme := String.ofList scheme, host := String.ofList host, path := path_of rest, query := query_of rest } := by
  rw [parse] at h
  cases hcut : cut s.toList with
  | none => rw [hcut] at h; cases h
  | some parts =>
    rw [hcut] at h
    exact ⟨parts.1, parts.2.1, parts.2.2, rfl, (Except.ok.inj h).symm⟩

theorem path_of_append {rest : List Char} (tail : List Char) (h : rest.dropWhile (· ≠ '?') ≠ []) :
    path_of (rest ++ tail) = path_of rest := by
  rw [path_of, path_of, (while_append (.inl h)).1]

theorem models_end {rest : List Char} (h : rest.dropWhile (· ≠ '?') = []) :
    ends_with (trim_slashes (path_of (rest ++ "/models".toList))) "/models" = true := by
  have hplain : (rest ++ "/models".toList).takeWhile (· ≠ '?') = rest ++ "/models".toList := by
    rw [List.takeWhile_eq_self_iff]
    intro c hc
    cases List.mem_append.mp hc with
    | inl hrest => exact List.dropWhile_eq_nil_iff.mp h c hrest
    | inr hmodels => exact List.all_eq_true.mp (rfl : "/models".toList.all (· ≠ '?') = true) c hmodels
  have hlast : rest ++ "/models".toList = (rest ++ "/model".toList) ++ ['s'] := by
    rw [List.append_assoc]
    rfl
  have hnonempty : rest ++ "/models".toList ≠ [] := by rw [hlast]; exact List.concat_ne_nil _ _
  rw [path_of, hplain, if_neg hnonempty, trim_slashes, String.toList_ofList, hlast,
    List.rdropWhile_concat_neg _ _ _ (by decide), ← hlast, ends_with, String.toList_ofList,
    String.toList_ofList, List.isSuffixOf_iff_suffix]
  exact List.suffix_append rest _

theorem lawful : urls.Lawful where
  set_path_path := fun _ _ _ => rfl
  set_path_scheme := fun _ _ => rfl
  set_path_server := fun _ _ => ⟨rfl, rfl⟩
  set_path_query := fun _ _ => rfl
  set_scheme_eq := by
    intro url scheme h
    refine ⟨_, rfl, rfl, ⟨rfl, ?_⟩, rfl, rfl⟩
    change websocket_scheme url.scheme = _ at h
    unfold websocket_scheme at h
    split_ifs at h with hhttps hhttp hwss hws
    · rw [← Except.ok.inj h]; simp [urls, hhttps]
    · rw [← Except.ok.inj h]; simp [urls, hhttp]
    · rw [← Except.ok.inj h]; simp [urls, hwss]
    · rw [← Except.ok.inj h]; simp [urls, hws]
  clear_query_scheme := fun _ => rfl
  clear_query_server := fun _ => ⟨rfl, rfl⟩
  clear_query_path := fun _ => rfl
  clear_query_query := fun _ => rfl
  append_pair_scheme := fun _ _ _ => rfl
  append_pair_server := fun _ _ _ => ⟨rfl, rfl⟩
  append_pair_path := fun _ _ _ => rfl
  append_pair_query := fun _ _ _ => rfl
  parse_append := by
    intro front tail base url hbase hurl _ htail
    obtain ⟨scheme, host, rest, hcut, hparts⟩ := parse_eq_ok hbase
    have htail' : rest ≠ [] ∨ tail.toList.head? = some '/' := by
      refine htail.symm.imp_left fun hroot hrest => hroot ?_
      rw [hparts, hrest]
      rfl
    obtain ⟨scheme', host', rest', hcut', hparts'⟩ := parse_eq_ok hurl
    rw [String.toList_append, cut_append hcut htail'] at hcut'
    obtain ⟨rfl, rfl, rfl⟩ : _ ∧ _ ∧ _ := by simpa only [Option.some.injEq, Prod.mk.injEq] using hcut'
    have hmodels := @cut_append _ _ _ _ hcut "/models".toList (.inr rfl)
    refine ⟨_, by rw [show urls.parse = parse from rfl, parse, String.toList_append, hmodels], by rw [hparts']; rfl, ?_⟩
    by_cases hquery : rest.dropWhile (· ≠ '?') = []
    · exact .inr (models_end hquery)
    · exact .inl (by rw [hparts']; exact (path_of_append _ hquery).trans (path_of_append _ hquery).symm)
  official_models := ⟨_, rfl, by decide +kernel, by decide +kernel⟩

end PlainUrl

/-- A relay with a path of its own. -/
def relay : UpstreamAddress := { unofficial := true, base_url := some "https://relay.example/openai/", version_prefix := some "v1" }

/-- The whole address of a relay, with parameters. -/
def keyed_relay : UpstreamAddress :=
  { unofficial := true, full_address := true, base_url := some "https://relay.example/chat/completions?key=1&model=x&key=2" }

theorem keyed_relay_realtime_url :
    (∃ text, realtime_url PlainUrl.urls relay "gpt" = .ok text) ∧
    ∃ url result, keyed_relay.resolve PlainUrl.urls.toUrls .chat .listModels "" = .ok url ∧
      "wss://relay.example/realtime?key=1&key=2&model=gpt" = PlainUrl.urls.to_string result ∧
      Session PlainUrl.urls true url result "gpt" := by
  have hfront : chat_front relay "https://relay.example/openai/" = "https://relay.example/openai/v1" := by decide +kernel
  have hbase : given relay.base_url = some "https://relay.example/openai/" := by decide +kernel
  refine ⟨(realtime_url_beside_models PlainUrl.lawful relay "gpt").2 ⟨rfl, fun _ base h => ?_⟩ .generate (.inl rfl) "gpt"
    ⟨"https", "relay.example", "/openai/v1/chat/completions", []⟩ (by rfl) (.inl rfl),
    (realtime_url_beside_models PlainUrl.lawful keyed_relay "gpt").1 _ (by rfl)⟩
  rw [← Option.some.inj (hbase.symm.trans h), hfront]
  exact ⟨by decide +kernel, _, rfl⟩

/-- A conversation's path of a channel's own with a parameter. -/
def keyed_path : UpstreamAddress :=
  { unofficial := true, base_url := some "https://relay.example", path := some "/chat/completions?key=1" }

/-- Addresses that are good for a conversation and not for a session: of another scheme,
    with the name of the model in place of the server, and with the server in the path. -/
def unfit_addresses : List UpstreamAddress :=
  [{ unofficial := true, base_url := some "ftp://relay.example" },
   { unofficial := true, base_url := some "\x7bmodel\x7d" },
   { unofficial := true, base_url := some "https:", version_prefix := some "/", path := some "relay.example/chat/completions" }]

/-- The parameters of a conversation's own path are not those of a session, which not
    every address has. -/
theorem not_every_chat_address_kept :
    ((keyed_path.resolve PlainUrl.urls.toUrls .chat .generate "gpt").toOption.map (·.query) = some [("key", "1")] ∧
      (realtime_url PlainUrl.urls keyed_path "gpt").toOption = some "wss://relay.example/v1/realtime?model=gpt") ∧
    ∀ address ∈ unfit_addresses, address.full_address = false ∧
      (address.resolve PlainUrl.urls.toUrls .chat .generate "https://relay.example").toOption.isSome = true ∧
      (realtime_url PlainUrl.urls address "gpt").toOption = none := by
  decide +kernel

end Instances

end refract.gateway
