import Refract.Codec.Gemini.Response
import Refract.Ir.Request
import Refract.Json.Object
import Refract.Machine.Replies

open refract.core refract.json refract.ir refract.machine

namespace refract.codec.gemini

def EXT : String := "gemini."

/-- The fields of a request that are read by name. -/
def KNOWN_REQUEST_FIELDS : List String :=
  ["model", "contents", "systemInstruction", "system_instruction", "tools", "toolConfig", "tool_config",
    "generationConfig", "generation_config", "safetySettings", "safety_settings", "cachedContent", "cached_content"]

/-- The fields of a generation configuration that are read by name. -/
def KNOWN_GENERATION_FIELDS : List String :=
  ["temperature", "topP", "top_p", "topK", "top_k", "maxOutputTokens", "max_output_tokens", "stopSequences",
    "stop_sequences", "candidateCount", "candidate_count", "seed", "responseMimeType", "response_mime_type",
    "responseSchema", "response_schema", "thinkingConfig", "thinking_config"]

/-- The low 32 bits of a count. -/
def as_u32 (v : Option Value) : Option Nat := (v.bind Value.as_u64).map fun n => n.val % (U32_MAX + 1)

/-- Reads one turn. One of results alone is a turn of the tools. -/
def decode_content (serde : Serde) (entry : Value) : Except GatewayError Message :=
  match entry with
  | .object obj =>
    let parts := decode_parts serde (((Map.get obj "parts").bind Value.as_array).getD [])
    let role := match entry.get_str "role" with
      | some "model" => Role.assistant
      | some "function" => .tool
      | _ => .user
    .ok
      { role := if role = .user ∧ ¬parts.isEmpty ∧ parts.all ContentPart.is_tool_result then .tool else role
        content := parts }
  | _ => .error (.invalid_request "each item in `contents` must be an object")

/-- Reads turns up to the first that cannot be read. -/
def decode_contents (serde : Serde) : List Value → Except GatewayError (List Message)
  | [] => .ok []
  | entry :: rest => (decode_content serde entry).bind fun msg => (decode_contents serde rest).map (msg :: ·)

/-- The conversation of a request. -/
def decode_conversation (serde : Serde) (raw : Option Value) : Except GatewayError (List Message) :=
  match raw with
  | none => .error (.invalid_request "missing required field `contents`")
  | some (.array contents) => decode_contents serde contents
  | some _ => .error (.invalid_request "field `contents` must be an array of Content objects")

/-- The instructions are a text or parts. -/
def decode_system (serde : Serde) (sys : Option Value) : List ContentPart :=
  match sys with
  | some (.string s) => [.text s]
  | some (.object o) => decode_parts serde (((Map.get o "parts").bind Value.as_array).getD [])
  | _ => []

/-- Reads the declaration of a function; what is no object declares none. -/
def decode_declaration (decl : Value) : Except GatewayError (List ToolDef) :=
  match decl with
  | .object _ =>
    match decl.get_str "name" with
    | some name =>
      .ok [{ name := name
             description := non_empty_str (decl.get "description")
             parameters := (decl.get "parameters").getD (.object [("type", .string "object")])
             strict := none }]
    | none => .error (.invalid_request "each functionDeclaration requires a `name`")
  | _ => .ok []

/-- Reads declarations up to the first that cannot be read. -/
def decode_declarations : List Value → Except GatewayError (List ToolDef)
  | [] => .ok []
  | decl :: rest => (decode_declaration decl).bind fun tool => (decode_declarations rest).map (tool ++ ·)

/-- The declarations of one tool. -/
def declarations (tool : Value) : List Value :=
  ((tool.as_object.bind (field · "functionDeclarations" "function_declarations")).bind Value.as_array).getD []

/-- What a tool holds besides declarations. -/
def builtin (tool : Value) : Map :=
  (tool.as_object.getD []).filter fun entry => entry.1 ≠ "functionDeclarations" ∧ entry.1 ≠ "function_declarations"

def builtin_tools (tools : List Value) : List Value :=
  (tools.map builtin).filterMap fun rest => if rest.isEmpty then none else some (.object rest)

/-- The configuration of calls. -/
def calling_config (obj : Map) : Option Map :=
  ((((field obj "toolConfig" "tool_config").bind Value.as_object).bind
    (field · "functionCallingConfig" "function_calling_config")).bind Value.as_object)

def allowed_names (fc : Map) : Option Value := field fc "allowedFunctionNames" "allowed_function_names"

/-- A single name that may be called is the one that has to be. -/
def decode_tool_choice (fc : Map) : ToolChoice :=
  match (Map.get fc "mode").bind Value.as_str with
  | some "AUTO" => .auto
  | some "ANY" =>
    match (allowed_names fc).bind Value.as_array with
    | some [.string name] => .tool name
    | _ => .required
  | some "NONE" => .none
  | _ => .unspecified

/-- The tokens to think with. A negative number leaves it to the model. -/
def thinking_budget (tc : Map) : Option Int := (field tc "thinkingBudget" "thinking_budget").bind Value.as_i64

def thinking_config (gen_cfg : Map) : Option Map :=
  (field gen_cfg "thinkingConfig" "thinking_config").bind Value.as_object

def decode_thinking (tc : Map) : Option ReasoningConfig :=
  let budget := ((thinking_budget tc).filter fun v : Int => 0 ≤ v ∧ v ≤ (U32_MAX : Int)).map Int.toNat
  let shown := (field tc "includeThoughts" "include_thoughts").bind Value.as_bool
  if budget.isSome ∨ shown.isSome then some { budget_tokens := budget, include_thoughts := shown } else none

def decode_sampling (gen_cfg : Map) : Sampling where
  temperature := (Map.get gen_cfg "temperature").bind as_f64
  top_p := (field gen_cfg "topP" "top_p").bind as_f64
  top_k := as_u32 (field gen_cfg "topK" "top_k")
  stop := (((field gen_cfg "stopSequences" "stop_sequences").bind Value.as_array).getD []).filterMap Value.as_str
  seed := (Map.get gen_cfg "seed").bind Value.as_i64
  candidate_count := as_u32 (field gen_cfg "candidateCount" "candidate_count")

def mime_type (gen_cfg : Map) : Option String := (field gen_cfg "responseMimeType" "response_mime_type").bind Value.as_str

def decode_response_format (gen_cfg : Map) : Option ResponseFormat :=
  match mime_type gen_cfg with
  | some "application/json" =>
    match field gen_cfg "responseSchema" "response_schema" with
    | some schema => some (.jsonSchema "response" schema true)
    | none => some .jsonObject
  | some "text/plain" => some .text
  | _ => none

/-- A type of answer that the representation does not name. -/
def other_mime_type (gen_cfg : Map) : Option String :=
  (mime_type gen_cfg).filter fun mime => mime ≠ "application/json" ∧ mime ≠ "text/plain"

def generation_config (obj : Map) : Option Map :=
  (field obj "generationConfig" "generation_config").bind Value.as_object

/-- What a generation configuration holds besides the known fields. -/
def other_generation (gen_cfg : Map) : Map := gen_cfg.filter fun entry => !KNOWN_GENERATION_FIELDS.contains entry.1

/-- Several names of which one has to be called. -/
def kept_names (obj : Map) : Option Value :=
  (calling_config obj).bind fun fc => if decode_tool_choice fc = .required then allowed_names fc else none

def is_dynamic (tc : Map) : Bool := thinking_budget tc = some (-1)

/-- What only this protocol has a place for. -/
def request_extensions (obj : Map) (tools : List Value) : Extensions :=
  let gen_cfg := generation_config obj
  let builtins := builtin_tools tools
  let other := (gen_cfg.map other_generation).getD []
  obj.foldl (fun ext (key, value) =>
    if KNOWN_REQUEST_FIELDS.contains key then ext else ext.insert (EXT ++ key) value) <|
  keep "gemini.cachedContent" (field obj "cachedContent" "cached_content") <|
  keep "gemini.safetySettings" (field obj "safetySettings" "safety_settings") <|
  keep "gemini.generationConfig" (if other.isEmpty then none else some (.object other)) <|
  keep "gemini.dynamicThinking"
    (if ((gen_cfg.bind thinking_config).map is_dynamic).getD false then some (.bool true) else none) <|
  keep "gemini.responseMimeType" ((gen_cfg.bind other_mime_type).map .string) <|
  keep "gemini.allowedFunctionNames" (kept_names obj) <|
  keep "gemini.builtinTools" (if builtins.isEmpty then none else some (.array builtins)) []

/-- Reads a request. Its model stands in its path. -/
def decode_request (serde : Serde) (raw : Value) : Except GatewayError UnifiedRequest :=
  match raw with
  | .object obj => do
    let messages ← decode_conversation serde (Map.get obj "contents")
    let raw_tools := ((Map.get obj "tools").bind Value.as_array).getD []
    let tools ← decode_declarations (raw_tools.flatMap declarations)
    let gen_cfg := generation_config obj
    pure
      { model := (non_empty_str (Map.get obj "model")).getD ""
        system := decode_system serde (field obj "systemInstruction" "system_instruction")
        messages := messages
        tools := tools
        tool_choice := ((calling_config obj).map decode_tool_choice).getD .unspecified
        sampling := (gen_cfg.map decode_sampling).getD {}
        max_output_tokens := gen_cfg.bind fun gen_cfg => as_u32 (field gen_cfg "maxOutputTokens" "max_output_tokens")
        stream_include_usage := true
        reasoning := (gen_cfg.bind thinking_config).bind decode_thinking
        response_format := gen_cfg.bind decode_response_format
        extensions := request_extensions obj raw_tools }
  | _ => .error (.invalid_request "request body must be a JSON object")

/-- The type of a medium. -/
def part_mime : ContentPart → Option String
  | .image _ mime _ | .file _ mime _ => mime
  | .audio _ format => format.map ("audio/" ++ ·)
  | _ => none

def media_json (source : MediaSource) (mime : Option String) : Value :=
  match source with
  | .base64 data =>
    .object [("inlineData",
      .object [("mimeType", .string (mime.getD "application/octet-stream")), ("data", .string data)])]
  | .text text =>
    .object [("inlineData", .object [("mimeType", .string (mime.getD "text/plain")),
      ("data", .string (String.ofList (base64.encode (stream.as_bytes text))))])]
  | .fileId uri | .url uri =>
    .object [("fileData",
      .object [("mimeType", .string (mime.getD "application/octet-stream")), ("fileUri", .string uri)])]

/-- The result of a call is an object: the one its text is, or one around it. -/
def response_payload (serde : Serde) (content : List ContentPart) (is_error : Bool) : Value :=
  let text := String.join (ContentPart.texts content)
  ((serde.from_str text).filter Value.is_object).getD (.object [(if is_error then "error" else "output", .string text)])

/-- An identifier, unless it was made up here. -/
def call_id (id name : String) : Map := if id ≠ "" ∧ ¬is_synthetic_call_id id name then [("id", .string id)] else []

/-- Writes one part. The names of the calls tell which call a result is of. -/
def encode_part (serde : Serde) (tool_names : List (String × String)) (part : ContentPart) : Option Value :=
  match part with
  | .text text => some (.object [("text", .string text)])
  | .thinking text signature =>
    some (.object ([("text", .string text), ("thought", .bool true)] ++
      member "thoughtSignature" (signature.map .string)))
  | .image source _ _ | .audio source _ | .file source _ _ => some (media_json source (part_mime part))
  | .toolUse id name input signature =>
    some (.object ([("functionCall", .object (call_id id name ++ [("name", .string name), ("args", input)]))] ++
      member "thoughtSignature" (signature.map .string)))
  | .toolResult id name content is_error =>
    let resolved := (name.or (tool_names.lookup id)).getD id
    some (.object [("functionResponse", .object (call_id id resolved ++
      [("name", .string resolved), ("response", response_payload serde content is_error)]))])
  | .opaqueBlock protocol value => if protocol = "gemini" then some value else none
  | .redactedThinking _ | .refusal _ => none

def role_to_gemini : Role → String
  | .assistant => "model"
  | .user | .tool | .system => "user"

/-- The names of the calls of a conversation, the last of an identifier first. -/
def tool_names (messages : List Message) : List (String × String) :=
  ((messages.flatMap (·.content)).filterMap fun part =>
    match part with
    | .toolUse id name _ _ => some (id, name)
    | _ => none).reverse

/-- The turns of a conversation. Instructions among them stand elsewhere. -/
def encode_turns (serde : Serde) (messages : List Message) : List (String × List Value) :=
  merge_turns ((messages.filter (·.role ≠ .system)).map fun msg =>
    (role_to_gemini msg.role, msg.content.filterMap (encode_part serde (tool_names messages))))

def encode_contents (serde : Serde) (messages : List Message) : List Value :=
  (encode_turns serde messages).map fun (role, parts) => .object [("role", .string role), ("parts", .array parts)]

/-- The instructions, with those among the messages. -/
def encode_system (serde : Serde) (ir : UnifiedRequest) : List Value :=
  (ir.system ++ (ir.messages.filter (·.role = .system)).flatMap (·.content)).filterMap
    (encode_part serde (tool_names ir.messages))

def encode_tool (tool : ToolDef) : Value :=
  .object ([("name", .string tool.name)] ++ member "description" (tool.description.map .string) ++
    [("parameters", tool.parameters)])

/-- All functions in one tool, and the tools of the upstream. -/
def encode_tools (ir : UnifiedRequest) : List Value :=
  let builtins := match ir.extension (EXT ++ "builtinTools") with
    | some (.array builtins) => builtins
    | _ => []
  (if ir.tools.isEmpty then [] else [.object [("functionDeclarations", .array (ir.tools.map encode_tool))]]) ++ builtins

def encode_tool_choice (ir : UnifiedRequest) : Option Value :=
  match ir.tool_choice with
  | .unspecified => none
  | .auto => some (.object [("mode", .string "AUTO")])
  | .none => some (.object [("mode", .string "NONE")])
  | .required =>
    some (.object ([("mode", .string "ANY")] ++
      member "allowedFunctionNames" (ir.extension (EXT ++ "allowedFunctionNames"))))
  | .tool name => some (.object [("mode", .string "ANY"), ("allowedFunctionNames", .array [.string name])])

def encode_response_format (ir : UnifiedRequest) : Map :=
  match ir.response_format with
  | some .jsonObject => [("responseMimeType", .string "application/json")]
  | some (.jsonSchema _ schema _) => [("responseMimeType", .string "application/json"), ("responseSchema", schema)]
  | some .text => [("responseMimeType", .string "text/plain")]
  | none => member "responseMimeType" (ir.extension (EXT ++ "responseMimeType"))

/-- Writes the tokens to think with, or that the model decides. -/
def encode_thinking (ir : UnifiedRequest) (r : ReasoningConfig) : Map :=
  let budget := if (ir.extension (EXT ++ "dynamicThinking")).bind Value.as_bool = some true then some (.number (.int (-1)))
    else (r.budget_or_from_effort ir.max_output_tokens).map Value.nat
  member "thinkingBudget" budget ++ member "includeThoughts" (r.include_thoughts.map .bool)

def encode_thinking_config (ir : UnifiedRequest) : Option Value :=
  ir.reasoning.bind fun r => if (encode_thinking ir r).isEmpty then none else some (.object (encode_thinking ir r))

/-- What the representation names is written over what it does not. -/
def encode_generation (ir : UnifiedRequest) : Map :=
  let extra := ((ir.extension (EXT ++ "generationConfig")).bind Value.as_object).getD []
  let s := ir.sampling
  (member "temperature" (s.temperature.map F64.to_json) ++
    member "topP" (s.top_p.map F64.to_json) ++
    member "topK" (s.top_k.map Value.nat) ++
    member "seed" (s.seed.map fun seed => .number (.int seed)) ++
    member "candidateCount" (s.candidate_count.map Value.nat) ++
    member "stopSequences" (if s.stop.isEmpty then none else some (.array (s.stop.map .string))) ++
    member "maxOutputTokens" (ir.max_output_tokens.map Value.nat) ++
    encode_response_format ir ++
    member "thinkingConfig" (encode_thinking_config ir)).foldl (fun out (key, value) => Map.insert out key value)
  (extra.foldl (fun out (key, value) => Map.insert out key value) [])

/-- Writes a request. -/
def encode_request (serde : Serde) (ir : UnifiedRequest) : Value :=
  .object <|
    [("contents", .array (encode_contents serde ir.messages))] ++
    member "systemInstruction"
      (if (encode_system serde ir).isEmpty then none else some (.object [("parts", .array (encode_system serde ir))])) ++
    member "tools" (if (encode_tools ir).isEmpty then none else some (.array (encode_tools ir))) ++
    member "toolConfig" ((encode_tool_choice ir).map fun fc => .object [("functionCallingConfig", fc)]) ++
    member "generationConfig" (if (encode_generation ir).isEmpty then none else some (.object (encode_generation ir))) ++
    member "safetySettings" (ir.extension (EXT ++ "safetySettings")) ++
    member "cachedContent" (ir.extension (EXT ++ "cachedContent"))

/-- The candidate of a response. A reason to stop that came from this protocol is
    written as it came. -/
def encode_candidate (serde : Serde) (ir : UnifiedResponse) : Value :=
  let finish := ((ir.extensions.get (EXT ++ "finishReason")).bind Value.as_str).or (ir.stop_reason.map stop_reason_to_gemini)
  .object <|
    [("content", .object [("parts", .array (ir.content.filterMap (encode_part serde []))), ("role", .string "model")])] ++
    member "finishReason" (finish.map .string) ++
    [("index", .nat 0)] ++
    member "safetyRatings" (ir.extensions.get (EXT ++ "safetyRatings")) ++
    member "citationMetadata" (ir.extensions.get (EXT ++ "citationMetadata"))

/-- Writes a response. -/
def encode_response (serde : Serde) (ir : UnifiedResponse) : Value :=
  let extra := match ir.extensions.get (EXT ++ "extraCandidates") with
    | some (.array extra) => extra
    | _ => []
  .object <|
    [("candidates", .array (encode_candidate serde ir :: extra)), ("usageMetadata", encode_usage ir.usage)] ++
    member "modelVersion" (if ir.model = "" then none else some (.string ir.model)) ++
    [("responseId", .string ir.id)] ++
    member "promptFeedback" (ir.extensions.get (EXT ++ "promptFeedback"))

end refract.codec.gemini
