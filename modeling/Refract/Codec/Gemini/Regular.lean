import Refract.Codec.Extensions
import Refract.Machine.Vec

open refract.core refract.json refract.ir refract.machine

namespace refract.codec.gemini

/-- An object has no other members. -/
def Only (keys : List String) (obj : Map) : Prop := ∀ entry ∈ obj, entry.1 ∈ keys

/-- The members of an object under the names of the protocol, which may stand there in either
    spelling. -/
def respell (names : List (String × String)) (obj : Map) : Map :=
  names.flatMap fun name => member name.1 (field obj name.1 name.2)

/-- Both spellings of some names. -/
def spellings (names : List (String × String)) : List String := names.map Prod.fst ++ names.map Prod.snd

section Parts

def MEDIUM_NAMES : List (String × String) := [("mimeType", "mime_type"), ("data", "data"), ("fileUri", "file_uri")]

def CALL_NAMES : List (String × String) := [("id", "id"), ("name", "name"), ("args", "args"), ("response", "response")]

/-- What is left of a member that is an object. -/
def camel_object (names : List (String × String)) (value : Value) : Value :=
  match value with
  | .object obj => .object (respell names obj)
  | other => other

/-- A part in the spelling of the protocol. One of a kind that is not known stays as it is. -/
def camel_part (obj : Map) : Map :=
  respell [("text", "text"), ("thought", "thought")] obj ++
    member "inlineData" ((field obj "inlineData" "inline_data").map (camel_object MEDIUM_NAMES)) ++
    member "fileData" ((field obj "fileData" "file_data").map (camel_object MEDIUM_NAMES)) ++
    member "functionCall" ((field obj "functionCall" "function_call").map (camel_object CALL_NAMES)) ++
    member "functionResponse" ((field obj "functionResponse" "function_response").map (camel_object CALL_NAMES)) ++
    respell [("thoughtSignature", "thought_signature")] obj

/-- A type of media that is written again as it was read. -/
def PlainMime (mime : String) : Prop :=
  mime ≠ "" ∧ (mime.startsWith "image/" = false → mime.startsWith "audio/" = true →
    ∃ format, (mime.splitOn "/")[1]? = some format ∧ mime = "audio/" ++ format)

/-- A call or its result has a name, and no identifier of the form that is made up. -/
structure PlainCall (call : Map) (name : String) : Prop where
  named : Map.get call "name" = some (.string name)
  id : Map.get call "id" = none ∨
    ∃ id, Map.get call "id" = some (.string id) ∧ id ≠ "" ∧ is_synthetic_call_id id name = false

/-- A signature is a text that is not empty. -/
def PlainSignature (obj : Map) : Prop :=
  field obj "thoughtSignature" "thought_signature" = none ∨
    ∃ signature, field obj "thoughtSignature" "thought_signature" = some (.string signature) ∧ signature ≠ ""

/-- A part of one of the known kinds, in either spelling. -/
inductive KnownPart (obj : Map) : Prop
  | text (text : String) (htext : Map.get obj "text" = some (.string text)) (honly : Only ["text"] obj)
  | thought (text : String) (htext : Map.get obj "text" = some (.string text)) (hthought : Map.get obj "thought" = some (.bool true))
      (hsignature : PlainSignature obj) (honly : Only ["text", "thought", "thoughtSignature", "thought_signature"] obj)
  | inline_data (inline : Map) (mime data : String) (hinline : field obj "inlineData" "inline_data" = some (.object inline))
      (hmime : field inline "mimeType" "mime_type" = some (.string mime)) (hplain : PlainMime mime)
      (hdata : Map.get inline "data" = some (.string data)) (honly : Only ["inlineData", "inline_data"] obj)
      (hinner : Only ["mimeType", "mime_type", "data"] inline)
  | file_data (file : Map) (mime uri : String) (hfile : field obj "fileData" "file_data" = some (.object file))
      (hmime : field file "mimeType" "mime_type" = some (.string mime)) (hplain : PlainMime mime)
      (huri : field file "fileUri" "file_uri" = some (.string uri)) (honly : Only ["fileData", "file_data"] obj)
      (hinner : Only ["mimeType", "mime_type", "fileUri", "file_uri"] file)
  | call (call : Map) (name : String) (args : Value) (hcall : field obj "functionCall" "function_call" = some (.object call))
      (hplain : PlainCall call name) (hargs : Map.get call "args" = some args) (hsignature : PlainSignature obj)
      (honly : Only ["functionCall", "function_call", "thoughtSignature", "thought_signature"] obj)
      (hinner : Only ["id", "name", "args"] call)
  | response (call : Map) (name : String) (response : Map)
      (hcall : field obj "functionResponse" "function_response" = some (.object call)) (hplain : PlainCall call name) (hname : name ≠ "")
      (hresponse : Map.get call "response" = some (.object response)) (honly : Only ["functionResponse", "function_response"] obj)
      (hinner : Only ["id", "name", "response"] call)

/-- A part of a kind that is not known. -/
structure StrangePart (obj : Map) : Prop where
  text : (Map.get obj "text").bind Value.as_str = none
  inline_data : (field obj "inlineData" "inline_data").bind Value.as_object = none
  file_data : (field obj "fileData" "file_data").bind Value.as_object = none
  call : (field obj "functionCall" "function_call").bind Value.as_object = none
  response : (field obj "functionResponse" "function_response").bind Value.as_object = none

/-- A part, and the part in the spelling of the protocol. -/
inductive PartSpelled : Value → Value → Prop
  | known {obj : Map} (h : KnownPart obj) : PartSpelled (.object obj) (.object (camel_part obj))
  | strange {obj : Map} (h : StrangePart obj) : PartSpelled (.object obj) (.object obj)

section Only

variable {keys : List String} {obj : Map}

theorem Only.get_eq_none (honly : Only keys obj) {key : String} (hkey : key ∉ keys) : Map.get obj key = none := by
  refine List.lookup_eq_none_iff.mpr fun entry hentry => ?_
  have hne : key ≠ entry.1 := fun heq => hkey (heq ▸ honly entry hentry)
  simpa using hne

theorem Only.field_eq_none (honly : Only keys obj) {camel snake : String} (hcamel : camel ∉ keys) (hsnake : snake ∉ keys) :
    field obj camel snake = none := by
  rw [field, honly.get_eq_none hcamel, honly.get_eq_none hsnake]
  rfl

theorem field_self (key : String) : field obj key key = Map.get obj key := by
  rw [field, Option.or_self]

theorem wellFormed_field {value : Value} {camel snake : String} (hobj : (Value.object obj).WellFormed)
    (hfield : field obj camel snake = some value) : value.WellFormed := by
  rcases Option.or_eq_some_iff.mp hfield with hcamel | ⟨-, hsnake⟩
  · exact Value.wellFormed_of_get hobj hcamel
  · exact Value.wellFormed_of_get hobj hsnake

end Only

variable {serde : Serde} {obj : Map} {tool_index : Nat} {names : List (String × String)}

theorem non_empty_str_some {text : String} (hvisible : text ≠ "") : non_empty_str (some (.string text)) = some text := by
  simp [non_empty_str, Option.filter_some, hvisible]

theorem plain_signature (hsignature : PlainSignature obj) :
    (non_empty_str (field obj "thoughtSignature" "thought_signature")).map .string = field obj "thoughtSignature" "thought_signature" := by
  rcases hsignature with hnone | ⟨signature, hsome, hvisible⟩
  · rw [hnone]
    rfl
  · rw [hsome, non_empty_str_some hvisible]
    rfl

/-- An identifier that is made up is recognized. -/
theorem is_synthetic_fallback (name : String) (index : Nat) : is_synthetic_call_id (name ++ "#" ++ toString index) name = true := by
  have hrepr : (toString index).toList = Nat.toDigits 10 index := Nat.toList_repr
  have hdigits : (Nat.toDigits 10 index).all Char.isDigit = true :=
    List.all_eq_true.mpr fun c hc => Nat.isDigit_of_mem_toDigits (by decide) (by decide) hc
  have hsome : (Nat.toDigits 10 index).isEmpty = false := by simp
  have hdrop : (name ++ "#" ++ toString index).toList.drop (name ++ "#").length = Nat.toDigits 10 index := by
    rw [String.toList_append, ← String.length_toList, List.drop_left, hrepr]
  unfold is_synthetic_call_id
  split
  · rfl
  · rw [if_pos]
    · dsimp only
      rw [hdrop, hsome, hdigits]
      rfl
    · rw [List.isPrefixOf_iff_prefix]
      exact ⟨(toString index).toList, String.toList_append.symm⟩

/-- The identifier of a call is written if it was there. -/
theorem plain_call_id {call : Map} {name : String} (hplain : PlainCall call name) :
    call_id (fallback_call_id (Map.get call "id") name tool_index) name = member "id" (Map.get call "id") := by
  rcases hplain.id with hnone | ⟨id, hsome, hvisible, hown⟩
  · rw [hnone, fallback_call_id, show non_empty_str none = none from rfl, Option.getD_none, call_id,
      if_neg fun h => h.2 (is_synthetic_fallback name tool_index)]
    rfl
  · rw [hsome, fallback_call_id, non_empty_str_some hvisible, Option.getD_some, call_id, if_pos ⟨hvisible, by simp [hown]⟩]
    rfl

/-- A medium is written with its type. -/
theorem encode_media {mime : String} (hplain : PlainMime mime) (source : MediaSource) :
    encode_part serde names (media_part source (some mime)) = some (media_json source (some mime)) := by
  unfold media_part
  dsimp only [Option.getD_some]
  split
  · rfl
  next himage =>
    split
    next haudio =>
      obtain ⟨format, hformat, hmime⟩ := hplain.2 (by simpa using himage) haudio
      rw [hformat, encode_part, part_mime, Option.map_some, ← hmime]
    · rfl

/-- A part that is read is written in the spelling of the protocol. -/
theorem decode_encode_part (hserde : serde.Lawful) {part out : Value} (hspelled : PartSpelled part out) (hpart : part.WellFormed) :
    ∃ read, decode_part serde part tool_index = some read ∧ encode_part serde names read = some out := by
  cases hspelled with
  | @strange obj h =>
    refine ⟨.opaqueBlock "gemini" (.object obj), ?_, rfl⟩
    rw [decode_part, h.text]
    dsimp only
    rw [h.inline_data]
    dsimp only
    rw [h.file_data]
    dsimp only
    rw [h.call]
    dsimp only
    rw [h.response]
  | @known obj h =>
    rw [camel_part]
    cases h with
    | text text htext honly =>
      have hthought : Map.get obj "thought" = none := honly.get_eq_none (by decide)
      have hinline : field obj "inlineData" "inline_data" = none := honly.field_eq_none (by decide) (by decide)
      have hfile : field obj "fileData" "file_data" = none := honly.field_eq_none (by decide) (by decide)
      have hcall : field obj "functionCall" "function_call" = none := honly.field_eq_none (by decide) (by decide)
      have hresponse : field obj "functionResponse" "function_response" = none := honly.field_eq_none (by decide) (by decide)
      have hsignature : field obj "thoughtSignature" "thought_signature" = none := honly.field_eq_none (by decide) (by decide)
      refine ⟨.text text, ?_, ?_⟩
      · simp [decode_part, htext, hthought]
      · simp [encode_part, respell, field_self, htext, hthought, hinline, hfile, hcall, hresponse, hsignature, member]
    | thought text htext hthought hsignature honly =>
      have hinline : field obj "inlineData" "inline_data" = none := honly.field_eq_none (by decide) (by decide)
      have hfile : field obj "fileData" "file_data" = none := honly.field_eq_none (by decide) (by decide)
      have hcall : field obj "functionCall" "function_call" = none := honly.field_eq_none (by decide) (by decide)
      have hresponse : field obj "functionResponse" "function_response" = none := honly.field_eq_none (by decide) (by decide)
      refine ⟨.thinking text (non_empty_str (field obj "thoughtSignature" "thought_signature")), ?_, ?_⟩
      · simp [decode_part, htext, hthought]
      · rw [encode_part, plain_signature hsignature]
        simp [respell, field_self, htext, hthought, hinline, hfile, hcall, hresponse, member]
    | inline_data inline mime data hinline hmime hplain hdata honly hinner =>
      have htext : Map.get obj "text" = none := honly.get_eq_none (by decide)
      have hthought : Map.get obj "thought" = none := honly.get_eq_none (by decide)
      have hfile : field obj "fileData" "file_data" = none := honly.field_eq_none (by decide) (by decide)
      have hcall : field obj "functionCall" "function_call" = none := honly.field_eq_none (by decide) (by decide)
      have hresponse : field obj "functionResponse" "function_response" = none := honly.field_eq_none (by decide) (by decide)
      have hsignature : field obj "thoughtSignature" "thought_signature" = none := honly.field_eq_none (by decide) (by decide)
      have huri : field inline "fileUri" "file_uri" = none := hinner.field_eq_none (by decide) (by decide)
      refine ⟨media_part (.base64 data) (some mime), ?_, ?_⟩
      · simp [decode_part, htext, hinline, hmime, non_empty_str_some hplain.1, hdata]
      · rw [encode_media hplain]
        simp [respell, field_self, htext, hthought, hinline, hfile, hcall, hresponse, hsignature, media_json, member, camel_object,
          MEDIUM_NAMES, hmime, hdata, huri]
    | file_data file mime uri hfile hmime hplain huri honly hinner =>
      have htext : Map.get obj "text" = none := honly.get_eq_none (by decide)
      have hthought : Map.get obj "thought" = none := honly.get_eq_none (by decide)
      have hinline : field obj "inlineData" "inline_data" = none := honly.field_eq_none (by decide) (by decide)
      have hcall : field obj "functionCall" "function_call" = none := honly.field_eq_none (by decide) (by decide)
      have hresponse : field obj "functionResponse" "function_response" = none := honly.field_eq_none (by decide) (by decide)
      have hsignature : field obj "thoughtSignature" "thought_signature" = none := honly.field_eq_none (by decide) (by decide)
      have hdata : Map.get file "data" = none := hinner.get_eq_none (by decide)
      refine ⟨media_part (.fileId uri) (some mime), ?_, ?_⟩
      · simp [decode_part, htext, hinline, hfile, hmime, non_empty_str_some hplain.1, huri]
      · rw [encode_media hplain]
        simp [respell, field_self, htext, hthought, hinline, hfile, hcall, hresponse, hsignature, media_json, member, camel_object,
          MEDIUM_NAMES, hmime, hdata, huri]
    | call call name args hcall hplain hargs hsignature honly hinner =>
      have htext : Map.get obj "text" = none := honly.get_eq_none (by decide)
      have hthought : Map.get obj "thought" = none := honly.get_eq_none (by decide)
      have hinline : field obj "inlineData" "inline_data" = none := honly.field_eq_none (by decide) (by decide)
      have hfile : field obj "fileData" "file_data" = none := honly.field_eq_none (by decide) (by decide)
      have hresult : field obj "functionResponse" "function_response" = none := honly.field_eq_none (by decide) (by decide)
      have hresponse : Map.get call "response" = none := hinner.get_eq_none (by decide)
      refine ⟨.toolUse (fallback_call_id (Map.get call "id") name tool_index) name args
        (non_empty_str (field obj "thoughtSignature" "thought_signature")), ?_, ?_⟩
      · simp [decode_part, htext, hinline, hfile, hcall, hplain.named, hargs]
      · rw [encode_part, plain_call_id hplain, plain_signature hsignature]
        simp [respell, field_self, htext, hthought, hinline, hfile, hcall, hresult, member, camel_object, CALL_NAMES, hplain.named, hargs,
          hresponse]
    | response call name response hcall hplain hname hresponse honly hinner =>
      have htext : Map.get obj "text" = none := honly.get_eq_none (by decide)
      have hthought : Map.get obj "thought" = none := honly.get_eq_none (by decide)
      have hinline : field obj "inlineData" "inline_data" = none := honly.field_eq_none (by decide) (by decide)
      have hfile : field obj "fileData" "file_data" = none := honly.field_eq_none (by decide) (by decide)
      have hother : field obj "functionCall" "function_call" = none := honly.field_eq_none (by decide) (by decide)
      have hsignature : field obj "thoughtSignature" "thought_signature" = none := honly.field_eq_none (by decide) (by decide)
      have hargs : Map.get call "args" = none := hinner.get_eq_none (by decide)
      have hpayload : (Value.object response).WellFormed := Value.wellFormed_of_get (wellFormed_field hpart hcall) hresponse
      have hread : response_payload serde [.text (serde.to_string (.object response))] (Map.contains_key response "error") =
          .object response := by
        simp [response_payload, ContentPart.texts, ContentPart.as_text, hserde.from_str_to_string _ hpayload, Option.filter_some, Value.is_object]
      refine ⟨.toolResult (fallback_call_id (Map.get call "id") name tool_index) (some name) [.text (serde.to_string (.object response))]
        (Map.contains_key response "error"), ?_, ?_⟩
      · simp [decode_part, htext, hinline, hfile, hother, hcall, hplain.named, hname, hresponse, Value.as_str]
      · rw [encode_part]
        dsimp only [Option.some_or, Option.getD_some]
        rw [hread, plain_call_id hplain]
        simp [respell, field_self, htext, hthought, hinline, hfile, hcall, hother, hsignature, member, camel_object, CALL_NAMES,
          hplain.named, hargs, hresponse]

theorem decode_encode_parts (hserde : serde.Lawful) {parts outs : List Value} (hall : List.Forall₂ PartSpelled parts outs)
    (hparts : ∀ part ∈ parts, part.WellFormed) :
    (decode_parts_from serde tool_index parts).filterMap (encode_part serde names) = outs := by
  induction hall generalizing tool_index with
  | nil => rfl
  | cons hfirst _ ih =>
    obtain ⟨hpart, hparts⟩ := List.forall_mem_cons.mp hparts
    obtain ⟨read, hread, hwritten⟩ := @decode_encode_part serde tool_index names hserde _ _ hfirst hpart
    rw [decode_parts_from, hread, List.filterMap_append, ih hparts, Option.toList_some, List.filterMap_cons_some hwritten]
    rfl

end Parts

section Turns

/-- A turn that is written. -/
def turn_json (turn : String × List Value) : Value := .object [("role", .string turn.1), ("parts", .array turn.2)]

/-- A turn of one of the two speakers, and what is written of it. -/
inductive TurnSpelled : Value → String × List Value → Prop
  | mk {obj : Map} {role : String} {parts outs : List Value} (hrole : Map.get obj "role" = some (.string role))
      (hspeaker : role = "user" ∨ role = "model") (hparts : Map.get obj "parts" = some (.array parts)) (hsome : parts ≠ [])
      (hall : List.Forall₂ PartSpelled parts outs) (honly : Only ["role", "parts"] obj) : TurnSpelled (.object obj) (role, outs)

variable {serde : Serde} {entry : Value} {turn : String × List Value}

theorem decode_encode_content (hserde : serde.Lawful) (hspelled : TurnSpelled entry turn) (hentry : entry.WellFormed) :
    ∃ message, decode_content serde entry = .ok message ∧ message.role ≠ .system ∧ role_to_gemini message.role = turn.1 ∧
      ∀ names, message.content.filterMap (encode_part serde names) = turn.2 := by
  cases hspelled with
  | @mk obj role parts outs hrole hspeaker hparts _ hall _ =>
    have hwell : ∀ part ∈ parts, part.WellFormed := (Value.wellFormed_array _).mp (Value.wellFormed_of_get hentry hparts)
    have hcontent : ∀ names, (decode_parts serde parts).filterMap (encode_part serde names) = outs := fun names =>
      @decode_encode_parts serde 0 names hserde _ _ hall hwell
    have hstr : (Value.object obj).get_str "role" = some role := by
      rw [Value.get_str, Value.get, hrole]
      rfl
    unfold decode_content
    dsimp only
    rw [hparts, hstr]
    have huser : ∀ (results : Prop) [Decidable results], (if results then Role.tool else .user) ≠ .system ∧
        role_to_gemini (if results then Role.tool else .user) = "user" := by
      intro results _
      split
      · exact ⟨by decide, rfl⟩
      · exact ⟨by decide, rfl⟩
    rcases hspeaker with rfl | rfl
    · exact ⟨{ role := if _ then .tool else .user, content := decode_parts serde parts }, rfl, (huser _).1, (huser _).2, hcontent⟩
    · exact ⟨_, rfl, by simp, by simp [role_to_gemini], hcontent⟩

theorem TurnSpelled.said (hspelled : TurnSpelled entry turn) : turn.2 ≠ [] := by
  cases hspelled with
  | @mk obj role parts outs _ _ _ hsome hall _ =>
    rintro rfl
    cases hall
    exact hsome rfl

/-- A dialogue in turns is written as it was read. -/
theorem decode_encode_contents (hserde : serde.Lawful) {contents : List Value} {turns : List (String × List Value)}
    (hall : List.Forall₂ TurnSpelled contents turns) (hcontents : ∀ entry ∈ contents, entry.WellFormed)
    (hchain : turns.IsChain fun a b => a.1 ≠ b.1) :
    ∃ messages, decode_contents serde contents = .ok messages ∧ (∀ message ∈ messages, message.role ≠ .system) ∧
      encode_contents serde messages = turns.map turn_json := by
  have hread : ∃ messages, decode_contents serde contents = .ok messages ∧ (∀ message ∈ messages, message.role ≠ .system) ∧
      ∀ names, messages.map (fun msg => (role_to_gemini msg.role, msg.content.filterMap (encode_part serde names))) = turns := by
    clear hchain
    induction hall with
    | nil => exact ⟨[], rfl, List.forall_mem_nil _, fun _ => rfl⟩
    | cons hfirst _ ih =>
      obtain ⟨hentry, hcontents⟩ := List.forall_mem_cons.mp hcontents
      obtain ⟨message, hmessage, hspeaker, hrole, hcontent⟩ := decode_encode_content hserde hfirst hentry
      obtain ⟨rest, hrest, hspeakers, hturns⟩ := ih hcontents
      refine ⟨message :: rest, ?_, List.forall_mem_cons.mpr ⟨hspeaker, hspeakers⟩, fun names => ?_⟩
      · rw [decode_contents, hmessage, Except.bind, hrest]
        rfl
      · rw [List.map_cons, hturns, hrole, hcontent]
  obtain ⟨messages, hmessages, hspeakers, hturns⟩ := hread
  refine ⟨messages, hmessages, hspeakers, ?_⟩
  have hsaid : ∀ turn ∈ turns, turn.2 ≠ [] := by
    intro turn hturn
    obtain ⟨entry, -, hspelled⟩ := exists_of_mem_forall₂ hall.flip hturn
    exact TurnSpelled.said hspelled
  rw [encode_contents, encode_turns, List.filter_eq_self.mpr fun message hmessage => by simpa using hspeakers message hmessage,
    hturns, merge_turns_of_isChain hchain hsaid]
  rfl

end Turns

end refract.codec.gemini
