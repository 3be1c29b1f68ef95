import Refract.Core.Channel

open refract.json

namespace refract.core

/-- How a key is sent. -/
inductive AuthScheme where
  | bearer
  | anthropicApiKey
  | googleApiKey
  deriving DecidableEq, Repr

section Texts

/-- The text without the slashes at its end. -/
def trim_slashes (s : String) : String := String.ofList (s.toList.rdropWhile (· = '/'))

def ends_with (s suffix : String) : Bool := suffix.toList.isSuffixOf s.toList

def contains (s part : String) : Bool := s.toList.tails.any (part.toList.isPrefixOf ·)

/-- Replaces every occurrence of a pattern from left to right. The characters of
    one that has been replaced are skipped. -/
def replace_from (pattern text : List Char) : Nat → List Char → List Char
  | _, [] => []
  | skip + 1, _ :: cs => replace_from pattern text skip cs
  | 0, c :: cs =>
    if pattern.isPrefixOf (c :: cs) then text ++ replace_from pattern text (pattern.length - 1) cs
    else c :: replace_from pattern text 0 cs

def replace (s pattern text : String) : String := String.ofList (replace_from pattern.toList text.toList 0 s.toList)

/-- What holds no beginning of the pattern stays. -/
theorem replace_from_append {c : Char} {pattern text front : List Char} (hfront : c ∉ front) (back : List Char) :
    replace_from (c :: pattern) text 0 (front ++ back) = front ++ replace_from (c :: pattern) text 0 back := by
  induction front with
  | nil => rfl
  | cons d front ih =>
    rw [List.mem_cons, not_or] at hfront
    have hother : (c :: pattern).isPrefixOf (d :: (front ++ back)) = false := by
      rw [List.isPrefixOf, beq_false_of_ne hfront.1, Bool.false_and]
    rw [List.cons_append, replace_from, hother, if_neg Bool.false_ne_true, ih hfront.2, List.cons_append]

theorem replace_append {c : Char} {front pattern : String} {rest : List Char} (hpattern : pattern.toList = c :: rest)
    (hfront : c ∉ front.toList) (back text : String) :
    replace (front ++ back) pattern text = front ++ replace back pattern text := by
  rw [← String.toList_inj, String.toList_append, replace, replace, hpattern, String.toList_append,
    String.toList_ofList, String.toList_ofList, replace_from_append hfront]

/-- A first character that begins no pattern stays first. -/
theorem replace_head {c d : Char} {s pattern : String} {rest : List Char} (hpattern : pattern.toList = c :: rest)
    (hother : c ≠ d) (h : s = "" ∨ s.toList.head? = some d) {text : String} :
    replace s pattern text = "" ∨ (replace s pattern text).toList.head? = some d := by
  cases h with
  | inl hempty => rw [hempty]; exact .inl rfl
  | inr hhead =>
    obtain ⟨cs, hcs⟩ := List.head?_eq_some_iff.mp hhead
    have hkept := @replace_from_append c rest text.toList [d]
      (List.not_mem_cons_of_ne_of_not_mem hother List.not_mem_nil) cs
    rw [replace, hpattern, hcs, String.toList_ofList]
    rw [List.singleton_append] at hkept
    rw [hkept]
    exact .inr rfl

variable {pattern text : List Char}

theorem replace_from_drop (skip : Nat) (cs : List Char) :
    replace_from pattern text skip cs = replace_from pattern text 0 (cs.drop skip) := by
  induction skip generalizing cs with
  | zero => rfl
  | succ skip ih =>
    cases cs with
    | nil => rfl
    | cons c cs => exact ih cs

theorem replace_from_cons {c : Char} {cs : List Char} (h : ¬ pattern <+: c :: cs) :
    replace_from pattern text 0 (c :: cs) = c :: replace_from pattern text 0 cs := by
  rw [replace_from, if_neg (by rwa [List.isPrefixOf_iff_prefix])]

/-- What has been put in is not searched again. -/
theorem replace_from_pattern (hpattern : pattern ≠ []) (rest : List Char) :
    replace_from pattern text 0 (pattern ++ rest) = text ++ replace_from pattern text 0 rest := by
  obtain ⟨c, cs, rfl⟩ := List.exists_cons_of_ne_nil hpattern
  have hprefix : (c :: cs).isPrefixOf (c :: (cs ++ rest)) = true := List.isPrefixOf_iff_prefix.mpr ⟨rest, rfl⟩
  rw [List.cons_append, replace_from, if_pos hprefix, replace_from_drop, List.length_cons, Nat.add_sub_cancel,
    List.drop_left' rfl]

theorem prefix_of_prefix_append_cons {c : Char} {front back : List Char} (hc : c ∉ pattern) (h : pattern <+: front ++ c :: back) :
    pattern <+: front := by
  have hstop : front ++ [c] <+: front ++ c :: back := ⟨back, by rw [List.append_assoc, List.singleton_append]⟩
  obtain hshort | hlong := List.prefix_or_prefix_of_prefix h hstop
  · refine (List.prefix_concat_iff.mp hshort).resolve_left fun hwhole => hc ?_
    rw [hwhole]
    exact List.mem_append_right _ (List.mem_singleton_self c)
  · exact absurd (hlong.subset (List.mem_append_right _ (List.mem_singleton_self c))) hc

/-- A character that is not in the pattern parts what is searched. -/
theorem replace_from_append_cons {c : Char} (hpattern : pattern ≠ []) (hc : c ∉ pattern) (front back : List Char) :
    replace_from pattern text 0 (front ++ c :: back) =
      replace_from pattern text 0 front ++ c :: replace_from pattern text 0 back := by
  induction hlength : front.length using Nat.strong_induction_on generalizing front with
  | _ n ih =>
    by_cases hprefix : pattern <+: front
    · obtain ⟨rest, rfl⟩ := hprefix
      have hpos := List.length_pos_of_ne_nil hpattern
      rw [List.length_append] at hlength
      rw [List.append_assoc, replace_from_pattern hpattern, replace_from_pattern hpattern,
        ih rest.length (by omega) rest rfl, List.append_assoc]
    · have hother : ¬ pattern <+: front ++ c :: back := fun h => hprefix (prefix_of_prefix_append_cons hc h)
      cases front with
      | nil => rw [List.nil_append, replace_from_cons hother]; rfl
      | cons d front =>
        rw [List.cons_append] at hother
        rw [List.cons_append, replace_from_cons hother, replace_from_cons hprefix,
          ih front.length (by rw [← hlength, List.length_cons]; omega) front rfl, List.cons_append]

end Texts

namespace Protocol

def default_base_url : Protocol → String
  | .chat | .responses => "https://api.openai.com"
  | .messages => "https://api.anthropic.com"
  | .gemini => "https://generativelanguage.googleapis.com"

def default_version_prefix : Protocol → String
  | .chat | .responses | .messages => "/v1"
  | .gemini => "/v1beta"

/-- The path of the conversation, after the version. -/
def default_path : Protocol → String
  | .chat => "/chat/completions"
  | .responses => "/responses"
  | .messages => "/messages"
  | .gemini => "/models/\x7bmodel\x7d:\x7baction\x7d"

def default_models_path : Protocol → String
  | .chat | .responses | .messages | .gemini => "/models"

def auth_scheme : Protocol → AuthScheme
  | .chat | .responses => .bearer
  | .messages => .anthropicApiKey
  | .gemini => .googleApiKey

/-- The path ends like the protocol's own, whatever stands before. -/
def path_looks_native (self : Protocol) (path : String) : Bool :=
  let path := trim_slashes path
  match self with
  | .chat => ends_with path "/chat/completions"
  | .responses => ends_with path "/responses"
  | .messages => ends_with path "/messages"
  | .gemini => contains path ":generateContent" || contains path ":streamGenerateContent" || contains path "/models/"

end Protocol

namespace PassKind

/-- The protocol whose own endpoints take the call. -/
def protocol : PassKind → Protocol
  | .countTokens => .messages
  | .geminiCountTokens | .geminiEmbed | .geminiBatchEmbed => .gemini
  | _ => .chat

def default_path : PassKind → String
  | .embeddings => "/embeddings"
  | .completions => "/completions"
  | .images => "/images/generations"
  | .imageEdits => "/images/edits"
  | .audioSpeech => "/audio/speech"
  | .audioTranscriptions => "/audio/transcriptions"
  | .audioTranslations => "/audio/translations"
  | .moderations => "/moderations"
  | .rerank => "/rerank"
  | .countTokens => "/messages/count_tokens"
  | .geminiCountTokens | .geminiEmbed | .geminiBatchEmbed => "/models/\x7bmodel\x7d:\x7baction\x7d"

def path_suffix : PassKind → String
  | .geminiCountTokens => ":countTokens"
  | .geminiEmbed => ":embedContent"
  | .geminiBatchEmbed => ":batchEmbedContents"
  | kind => kind.default_path

def gemini_verb : PassKind → String
  | .geminiCountTokens => "countTokens"
  | .geminiEmbed => "embedContent"
  | .geminiBatchEmbed => "batchEmbedContents"
  | _ => ""

end PassKind

namespace Action

def gemini_verb : Action → String
  | .generate => "generateContent"
  | .stream => "streamGenerateContent"
  | .passthrough kind => kind.gemini_verb
  | .listModels => ""

/-- The endpoints of a protocol take the call. -/
def supports (protocol : Protocol) : Action → Bool
  | .passthrough kind => kind.protocol = protocol
  | .generate | .stream | .listModels => true

end Action

/-- What the program uses of the library that reads addresses. -/
structure Urls (Url : Type) where
  parse : String → Except String Url
  path : Url → String
  query_pairs : Url → List (String × String)
  append_pair : Url → String → String → Url

/-- The official hosts are followed by any path. -/
def Urls.Official {Url : Type} (urls : Urls Url) : Prop :=
  ∀ (protocol : Protocol) (rest : String), ∃ url, urls.parse (protocol.default_base_url ++ "/" ++ rest) = .ok url

inductive AddressError where
  | missing_base_url
  | missing_full_address
  | invalid_url (url source : String)
  | protocol_mismatch (path : String) (protocol : Protocol)
  deriving DecidableEq, Repr

def AddressError.to_string : AddressError → String
  | .missing_base_url => "unofficial address requires a base_url"
  | .missing_full_address => "full_address mode requires base_url to hold the complete URL"
  | .invalid_url url source => "invalid upstream url `" ++ url ++ "`: " ++ source
  | .protocol_mismatch path protocol =>
    "path `" ++ path ++ "` does not look like a " ++ protocol.as_str ++
      " endpoint; enable full_address to bypass this check"

def default_path_for (protocol : Protocol) : Action → String
  | .listModels => protocol.default_models_path
  | .passthrough kind => kind.default_path
  | .generate | .stream => protocol.default_path

/-- A segment with one slash before it and none behind. -/
def segment_text (segment : String) : String :=
  let segment := trim segment
  if segment = "" then ""
  else (if segment.toList.head? = some '/' then "" else "/") ++ trim_slashes segment

def join_segments (base : String) (segments : List String) : String :=
  trim_slashes base ++ String.join (segments.map segment_text)

def substitute_placeholders (raw : String) (action : Action) (model : String) : String :=
  if '\x7b' ∈ raw.toList then
    replace (replace raw "\x7bmodel\x7d" model) "\x7baction\x7d" action.gemini_verb
  else raw

/-- A field of an address, when it says something. -/
def given (field : Option String) : Option String := (field.map trim).filter (· ≠ "")

section Resolve

variable {Url : Type} (urls : Urls Url)

def parse_url (raw : String) : Except AddressError Url := (urls.parse raw).mapError (.invalid_url raw)

/-- A Gemini stream has to be asked for as an event stream. -/
def append_gemini_sse_query (url : Url) (protocol : Protocol) (action : Action) : Url :=
  if protocol ≠ .gemini ∨ action ≠ .stream then url
  else if (urls.query_pairs url).any (·.1 = "alt") then url
  else urls.append_pair url "alt" "sse"

/-- The path is one for the action. The lists of models are all alike. -/
def path_ok (protocol : Protocol) (action : Action) (path : String) : Bool :=
  match action with
  | .listModels => true
  | .passthrough kind => ends_with (trim_slashes path) kind.path_suffix
  | .generate | .stream => protocol.path_looks_native path

namespace UpstreamAddress

def build_official (protocol : Protocol) (action : Action) (model : String) : Except AddressError Url := do
  let joined := join_segments protocol.default_base_url [protocol.default_version_prefix, default_path_for protocol action]
  let url ← parse_url urls (substitute_placeholders joined action model)
  return append_gemini_sse_query urls url protocol action

variable (self : UpstreamAddress) (protocol : Protocol) (action : Action) (model : String)

/-- The path after the version. A path of one's own is that of the conversation. -/
def path_for : String :=
  match action with
  | .listModels | .passthrough _ => default_path_for protocol action
  | .generate | .stream => (given self.path).getD (default_path_for protocol action)

/-- The address that a call is sent to. A complete one is taken as it is. -/
def resolve : Except AddressError Url :=
  if !self.unofficial then build_official urls protocol action model
  else
    match self.full_address, given self.base_url with
    | true, none => .error .missing_full_address
    | true, some raw => parse_url urls (substitute_placeholders raw action model)
    | false, none => .error .missing_base_url
    | false, some base => do
      let version := (given self.version_prefix).getD protocol.default_version_prefix
      let joined := join_segments base [version, self.path_for protocol action]
      let url ← parse_url urls (substitute_placeholders joined action model)
      if !path_ok protocol action (urls.path url) then throw (.protocol_mismatch (urls.path url) protocol)
      return append_gemini_sse_query urls url protocol action

end UpstreamAddress

end Resolve

end refract.core
