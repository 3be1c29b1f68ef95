import Refract.Codec.Requests
import Refract.Json.RoundTrip

open refract.core refract.json refract.ir refract.machine

namespace refract.codec

/-- What the keys of a protocol's own fields start with. -/
def ext_start : Protocol → String
  | .chat => chat.EXT
  | .responses => responses.EXT
  | .messages => messages.EXT
  | .gemini => gemini.EXT

/-- The key is one of the protocol's own. -/
def Carries (protocol : Protocol) (key : String) : Prop := (ext_start protocol).toList <+: key.toList

/-- The key is another protocol's. -/
def Foreign (protocol : Protocol) (key : String) : Prop := ∃ other, other ≠ protocol ∧ Carries other key

theorem strip_start_eq_none {key : String} {protocol : Protocol} (hkey : ¬Carries protocol key) :
    strip_start key (ext_start protocol) = none := by
  rw [strip_start, if_neg]
  rwa [List.isPrefixOf_iff_prefix]

theorem carries_own (protocol : Protocol) (field : String) : Carries protocol (ext_start protocol ++ field) := by
  rw [Carries, String.toList_append]
  exact List.prefix_append _ _

/-- No key is of two protocols: no start is the start of another. -/
theorem Carries.unique {p q : Protocol} {key : String} (hp : Carries p key) (hq : Carries q key) : p = q := by
  have hstarts : ∀ p q : Protocol, (ext_start p).toList <+: (ext_start q).toList → p = q := by
    intro p q
    cases p <;> cases q <;> decide
  rcases List.prefix_or_prefix_of_prefix hp hq with h | h
  · exact hstarts p q h
  · exact (hstarts q p h).symm

theorem not_foreign_of_carries {protocol : Protocol} {key : String} (hkey : Carries protocol key) :
    ¬Foreign protocol key := by
  rintro ⟨other, hother, hforeign⟩
  exact hother (hforeign.unique hkey)

instance decidableCarries (protocol : Protocol) (key : String) : Decidable (Carries protocol key) :=
  inferInstanceAs (Decidable ((ext_start protocol).toList <+: key.toList))

instance decidableForeign (protocol : Protocol) (key : String) : Decidable (Foreign protocol key) :=
  decidable_of_iff ([Protocol.chat, .responses, .messages, .gemini].any (fun other => other ≠ protocol ∧ Carries other key) = true)
    (by
      rw [List.any_eq_true]
      constructor
      · rintro ⟨other, -, hother⟩
        exact ⟨other, of_decide_eq_true hother⟩
      · rintro ⟨other, hother⟩
        exact ⟨other, by cases other <;> decide, decide_eq_true hother⟩)

/-- The entries of no other protocol. -/
def home (protocol : Protocol) (ext : Extensions) : Extensions := ext.filter fun entry => ¬Foreign protocol entry.1

section Reading

variable (protocol : Protocol) (ext : Extensions)

/-- What is stored under a protocol's own key is found among its own entries. -/
theorem get_home (field : String) :
    Extensions.get (home protocol ext) (ext_start protocol ++ field) = ext.get (ext_start protocol ++ field) := by
  have hown := not_foreign_of_carries (carries_own protocol field)
  unfold Extensions.get home
  induction ext with
  | nil => rfl
  | cons entry ext ih =>
    obtain ⟨k, v⟩ := entry
    by_cases hk : ext_start protocol ++ field = k
    · subst hk
      rw [List.filter_cons_of_pos (by simpa using hown), List.lookup_cons_self, List.lookup_cons_self]
    · have hbeq : (ext_start protocol ++ field == k) = false := by simpa using hk
      rw [List.lookup_cons, hbeq]
      by_cases hforeign : Foreign protocol k
      · rw [List.filter_cons_of_neg (by simpa using hforeign)]
        exact ih
      · rw [List.filter_cons_of_pos (by simpa using hforeign), List.lookup_cons, hbeq]
        exact ih

/-- Writing back what belongs to a protocol passes over the entries of others. -/
theorem foldl_home {out : Map} {write : Map → String × Value → Map}
    (hwrite : ∀ out entry, strip_start entry.1 (ext_start protocol) = none → write out entry = out) :
    (home protocol ext).foldl write out = ext.foldl write out := by
  unfold home
  induction ext generalizing out with
  | nil => rfl
  | cons entry ext ih =>
    by_cases hforeign : Foreign protocol entry.1
    · rw [List.filter_cons_of_neg (by simpa using hforeign), List.foldl_cons, hwrite out entry, ih]
      exact strip_start_eq_none fun hcarries => not_foreign_of_carries hcarries hforeign
    · rw [List.filter_cons_of_pos (by simpa using hforeign), List.foldl_cons, List.foldl_cons, ih]

end Reading

end refract.codec

namespace refract.ir

open refract.codec

/-- The request without the entries of other protocols. -/
def UnifiedRequest.at_home (self : UnifiedRequest) (protocol : Protocol) : UnifiedRequest :=
  { self with extensions := home protocol self.extensions }

/-- The response without the entries of other protocols. -/
def UnifiedResponse.at_home (self : UnifiedResponse) (protocol : Protocol) : UnifiedResponse :=
  { self with extensions := home protocol self.extensions }

end refract.ir

namespace refract.codec

section Encoders

variable (serde : Serde) (ir : UnifiedRequest) (answer : UnifiedResponse)

theorem extension_at_home (protocol : Protocol) (field : String) :
    (ir.at_home protocol).extension (ext_start protocol ++ field) = ir.extension (ext_start protocol ++ field) :=
  get_home protocol ir.extensions field

theorem chat.restore_home (ext : Extensions) (body : Map) :
    chat.restore_extensions (home .chat ext) body = chat.restore_extensions ext body := by
  refine foldl_home .chat ext fun out entry hnone => ?_
  simp only [show strip_start entry.1 chat.EXT = none from hnone]

theorem chat.encode_request_at_home :
    chat.encode_request serde (ir.at_home .chat) = chat.encode_request serde ir := by
  have htools : chat.encode_tools (ir.at_home .chat) = chat.encode_tools ir := by
    unfold chat.encode_tools
    rw [show (ir.at_home .chat).extension (chat.EXT ++ "builtin_tools") = _ from extension_at_home ir .chat _]
    rfl
  have hfields : chat.request_fields serde (ir.at_home .chat) = chat.request_fields serde ir := by
    unfold chat.request_fields
    rw [htools]
    rfl
  unfold chat.encode_request
  rw [hfields, show (ir.at_home .chat).extensions = home .chat ir.extensions from rfl, chat.restore_home]

theorem chat.encode_response_at_home :
    chat.encode_response serde (answer.at_home .chat) = chat.encode_response serde answer :=
  congrArg Value.object (chat.restore_home answer.extensions _)

theorem responses.write_home (ext : Extensions) (out : Map) (skip : List String) :
    responses.write_extensions (home .responses ext) out skip = responses.write_extensions ext out skip := by
  refine foldl_home .responses ext fun out entry hnone => ?_
  simp only [show strip_start entry.1 responses.EXT = none from hnone]

theorem responses.encode_request_at_home :
    responses.encode_request serde (ir.at_home .responses) = responses.encode_request serde ir := by
  have htools : responses.encode_tools (ir.at_home .responses) = responses.encode_tools ir := by
    unfold responses.encode_tools
    rw [show (ir.at_home .responses).extension (responses.EXT ++ "builtin_tools") = _ from
      extension_at_home ir .responses _]
    rfl
  have hfields : responses.request_fields serde (ir.at_home .responses) = responses.request_fields serde ir := by
    unfold responses.request_fields
    rw [htools]
    rfl
  unfold responses.encode_request
  rw [hfields, show (ir.at_home .responses).extensions = home .responses ir.extensions from rfl, responses.write_home]

theorem responses.encode_response_at_home :
    responses.encode_response serde (answer.at_home .responses) = responses.encode_response serde answer :=
  congrArg Value.object (responses.write_home answer.extensions _ _)

theorem messages.restore_home (ext : Extensions) (out : Map) (skip : List String) :
    messages.restore_extensions (home .messages ext) out skip = messages.restore_extensions ext out skip := by
  refine foldl_home .messages ext fun out entry hnone => ?_
  simp only [show strip_start entry.1 messages.EXT = none from hnone]

theorem messages.encode_request_at_home :
    messages.encode_request (ir.at_home .messages) = messages.encode_request ir := by
  have hread := extension_at_home ir .messages
  have hinstructions : messages.encode_instructions (ir.at_home .messages) = messages.encode_instructions ir := by
    unfold messages.encode_instructions
    rw [show (ir.at_home .messages).extension (messages.EXT ++ "system_raw") = _ from hread _]
    rfl
  have htools : messages.encode_tools (ir.at_home .messages) = messages.encode_tools ir := by
    unfold messages.encode_tools
    rw [show (ir.at_home .messages).extension (messages.EXT ++ "tools_raw") = _ from hread _,
      show (ir.at_home .messages).extension (messages.EXT ++ "server_tools") = _ from hread _]
    rfl
  have hmetadata : messages.encode_metadata (ir.at_home .messages) = messages.encode_metadata ir := by
    unfold messages.encode_metadata
    rw [show (ir.at_home .messages).extension (messages.EXT ++ "metadata") = _ from hread _]
    rfl
  have hfields : messages.request_fields (ir.at_home .messages) = messages.request_fields ir := by
    unfold messages.request_fields
    rw [hinstructions, htools, hmetadata]
    rfl
  unfold messages.encode_request
  rw [hfields, show (ir.at_home .messages).extensions = home .messages ir.extensions from rfl, messages.restore_home]

theorem messages.encode_response_at_home :
    messages.encode_response (answer.at_home .messages) = messages.encode_response answer :=
  congrArg Value.object (messages.restore_home answer.extensions _ _)

theorem gemini.encode_request_at_home :
    gemini.encode_request serde (ir.at_home .gemini) = gemini.encode_request serde ir := by
  have hread := extension_at_home ir .gemini
  have htools : gemini.encode_tools (ir.at_home .gemini) = gemini.encode_tools ir := by
    unfold gemini.encode_tools
    rw [show (ir.at_home .gemini).extension (gemini.EXT ++ "builtinTools") = _ from hread _]
    rfl
  have hchoice : gemini.encode_tool_choice (ir.at_home .gemini) = gemini.encode_tool_choice ir := by
    unfold gemini.encode_tool_choice
    rw [show (ir.at_home .gemini).extension (gemini.EXT ++ "allowedFunctionNames") = _ from hread _]
    rfl
  have hformat : gemini.encode_response_format (ir.at_home .gemini) = gemini.encode_response_format ir := by
    unfold gemini.encode_response_format
    rw [show (ir.at_home .gemini).extension (gemini.EXT ++ "responseMimeType") = _ from hread _]
    rfl
  have hthinking : gemini.encode_thinking_config (ir.at_home .gemini) = gemini.encode_thinking_config ir := by
    unfold gemini.encode_thinking_config gemini.encode_thinking
    rw [show (ir.at_home .gemini).extension (gemini.EXT ++ "dynamicThinking") = _ from hread _]
    rfl
  have hgeneration : gemini.encode_generation (ir.at_home .gemini) = gemini.encode_generation ir := by
    unfold gemini.encode_generation
    rw [hformat, hthinking, show (ir.at_home .gemini).extension (gemini.EXT ++ "generationConfig") = _ from hread _]
    rfl
  unfold gemini.encode_request
  rw [htools, hchoice, hgeneration, show (ir.at_home .gemini).extension (gemini.EXT ++ "safetySettings") = _ from hread _,
    show (ir.at_home .gemini).extension (gemini.EXT ++ "cachedContent") = _ from hread _]
  rfl

theorem gemini.encode_response_at_home :
    gemini.encode_response serde (answer.at_home .gemini) = gemini.encode_response serde answer := by
  have hread := get_home .gemini answer.extensions
  have hcandidate : gemini.encode_candidate serde (answer.at_home .gemini) = gemini.encode_candidate serde answer := by
    unfold gemini.encode_candidate
    rw [show Extensions.get (answer.at_home .gemini).extensions (gemini.EXT ++ "finishReason") = _ from hread _,
      show Extensions.get (answer.at_home .gemini).extensions (gemini.EXT ++ "safetyRatings") = _ from hread _,
      show Extensions.get (answer.at_home .gemini).extensions (gemini.EXT ++ "citationMetadata") = _ from hread _]
    rfl
  unfold gemini.encode_response
  rw [hcandidate, show Extensions.get (answer.at_home .gemini).extensions (gemini.EXT ++ "extraCandidates") = _ from hread _,
    show Extensions.get (answer.at_home .gemini).extensions (gemini.EXT ++ "promptFeedback") = _ from hread _]
  rfl

/-- A request is written from its own protocol's entries alone. -/
theorem encode_request_at_home (protocol : Protocol) :
    encode_request serde protocol (ir.at_home protocol) = encode_request serde protocol ir := by
  cases protocol with
  | chat => exact chat.encode_request_at_home serde ir
  | responses => exact responses.encode_request_at_home serde ir
  | messages => exact messages.encode_request_at_home ir
  | gemini => exact gemini.encode_request_at_home serde ir

/-- So is a response. -/
theorem encode_response_at_home (protocol : Protocol) :
    encode_response serde protocol (answer.at_home protocol) = encode_response serde protocol answer := by
  cases protocol with
  | chat => exact chat.encode_response_at_home serde answer
  | responses => exact responses.encode_response_at_home serde answer
  | messages => exact messages.encode_response_at_home answer
  | gemini => exact gemini.encode_response_at_home serde answer

end Encoders

end refract.codec

namespace refract.ir.Extensions

/-- Every entry is as told. -/
def Every (ext : Extensions) (P : String → Value → Prop) : Prop := ∀ entry ∈ ext, P entry.1 entry.2

variable {P Q : String → Value → Prop} {ext : Extensions}

theorem Every.nil : Every [] P := fun _ hentry => absurd hentry List.not_mem_nil

theorem Every.mono (h : Every ext P) (hPQ : ∀ key value, P key value → Q key value) : Every ext Q :=
  fun entry hentry => hPQ entry.1 entry.2 (h entry hentry)

theorem Every.insert (h : Every ext P) {key : String} {value : Value} (hnew : P key value) :
    Every (Extensions.insert ext key value) P := by
  induction ext with
  | nil => exact fun entry hentry => List.mem_singleton.mp hentry ▸ hnew
  | cons first ext ih =>
    obtain ⟨k, v⟩ := first
    obtain ⟨hfirst, hrest⟩ := List.forall_mem_cons.mp h
    unfold Extensions.insert
    split
    · exact List.forall_mem_cons.mpr ⟨hnew, hrest⟩
    · split
      · exact List.forall_mem_cons.mpr ⟨hnew, h⟩
      · exact List.forall_mem_cons.mpr ⟨hfirst, ih hrest⟩

theorem Every.foldl {α : Type} {members : List α} {keep : Extensions → α → Extensions}
    (hkeep : ∀ ext m, Every ext P → Every (keep ext m) P) (h : Every ext P) : Every (members.foldl keep ext) P := by
  induction members generalizing ext with
  | nil => exact h
  | cons m members ih => exact ih (hkeep ext m h)

theorem Every.keep_unless (h : Every ext P) {p : Prop} [Decidable p] {key : String} {value : Value} (hnew : ¬p → P key value) :
    Every (if p then ext else Extensions.insert ext key value) P := by
  split
  · exact h
  next hp => exact h.insert (hnew hp)

theorem Every.keep (h : Every ext P) {key : String} {value : Option Value} (hnew : ∀ v, value = some v → P key v) :
    Every (codec.gemini.keep key value ext) P := by
  cases value with
  | none => exact h
  | some value => exact h.insert (hnew value rfl)

/-- What is stored under a key is as told. -/
theorem Every.get (h : Every ext P) {key : String} {value : Value} (hget : ext.get key = some value) : P key value := by
  obtain ⟨before, after, rfl, -⟩ := List.lookup_eq_some_iff.mp hget
  exact h (key, value) (by simp)

/-- Nothing is stored under a key that no entry has. -/
theorem get_eq_none {key : String} (h : ext.Every fun k _ => k ≠ key) : ext.get key = none := by
  cases hget : ext.get key with
  | none => rfl
  | some value => exact absurd rfl (h.get hget)

theorem get_insert_self (ext : Extensions) (key : String) (value : Value) :
    (Extensions.insert ext key value).get key = some value := by
  induction ext with
  | nil => exact List.lookup_cons_self
  | cons first ext ih =>
    obtain ⟨k, v⟩ := first
    unfold Extensions.insert
    split
    · exact List.lookup_cons_self
    next hk =>
      split
      · exact List.lookup_cons_self
      · have hbeq : (key == k) = false := by simpa using Ne.symm hk
        rw [Extensions.get, List.lookup_cons, hbeq]
        exact ih

theorem get_insert_of_ne (ext : Extensions) {key other : String} (value : Value) (hne : other ≠ key) :
    (Extensions.insert ext key value).get other = ext.get other := by
  have hbeq : (other == key) = false := by simpa using hne
  induction ext with
  | nil =>
    rw [Extensions.get, Extensions.insert, List.lookup_cons, hbeq]
    rfl
  | cons first ext ih =>
    obtain ⟨k, v⟩ := first
    unfold Extensions.insert
    split
    next hk =>
      subst hk
      rw [Extensions.get, Extensions.get, List.lookup_cons, List.lookup_cons, hbeq]
    · split
      · rw [Extensions.get, List.lookup_cons, hbeq]
        rfl
      · unfold Extensions.get at ih ⊢
        rw [List.lookup_cons, List.lookup_cons, ih]

/-- A field that is not known is found under its own key. -/
theorem get_foldl_unknown {known : List String} {front field : String} (hfield : known.contains field = false) {obj : Map}
    (hkeys : (obj.map Prod.fst).Nodup) (ext : Extensions) :
    Extensions.get (obj.foldl (fun ext (key, value) =>
      if known.contains key then ext else Extensions.insert ext (front ++ key) value) ext) (front ++ field) =
      (obj.lookup field).or (ext.get (front ++ field)) := by
  induction obj generalizing ext with
  | nil => rfl
  | cons entry obj ih =>
    obtain ⟨k, v⟩ := entry
    obtain ⟨hfresh, hrest⟩ := List.nodup_cons.mp hkeys
    rw [List.foldl_cons, ih hrest]
    by_cases hk : field = k
    · subst hk
      have hnone : obj.lookup field = none := by
        rw [List.lookup_eq_none_iff]
        rintro ⟨k, v⟩ hmem
        exact bne_iff_ne.mpr fun heq => hfresh (List.mem_map.mpr ⟨(k, v), hmem, heq.symm⟩)
      dsimp only
      rw [hnone, Option.none_or, List.lookup_cons_self, hfield, if_neg (by decide), get_insert_self]
      rfl
    · have hbeq : (field == k) = false := by simpa using hk
      have hkey : front ++ field ≠ front ++ k := by
        intro heq
        rw [← String.toList_inj, String.toList_append, String.toList_append] at heq
        exact hk (String.toList_inj.mp (List.append_cancel_left heq))
      have hsame : Extensions.get (if known.contains k then ext else Extensions.insert ext (front ++ k) v) (front ++ field) =
          ext.get (front ++ field) := by
        split
        · rfl
        · exact get_insert_of_ne ext v hkey
      rw [List.lookup_cons, hbeq, hsame]

end refract.ir.Extensions

namespace refract.codec

section Decoders

/-- The fields of a request that its decoder keeps: those it does not know, and
    some that it keeps by name. -/
def Stored : Protocol → String → Prop
  | .chat, field => field ∉ chat.KNOWN_REQUEST_FIELDS
  | .responses, field =>
    field ∉ responses.KNOWN_REQUEST_FIELDS ∨ field ∈ ["previous_response_id", "store", "include", "metadata"]
  | .messages, field => field ∉ messages.KNOWN_REQUEST_FIELDS ∨ field = "metadata"
  | .gemini, field =>
    field ∉ gemini.KNOWN_REQUEST_FIELDS ∨ field ∈ ["safetySettings", "cachedContent", "generationConfig"]

/-- The entry is a field of the protocol that its decoder keeps. -/
def Kept (protocol : Protocol) (key : String) (_ : Value) : Prop :=
  ∃ field, key = ext_start protocol ++ field ∧ Stored protocol field

/-- The entry is the protocol's own. -/
def Carried (protocol : Protocol) (key : String) (_ : Value) : Prop := Carries protocol key

theorem Kept.carried {protocol : Protocol} {key : String} {value : Value} (h : Kept protocol key value) :
    Carried protocol key value := by
  obtain ⟨field, rfl, -⟩ := h
  exact carries_own protocol field

variable {serde : Serde} {raw : Value} {uuid : String} {now : Int}

theorem chat.request_extensions_kept (obj : Map) (tools : List Value) :
    (chat.request_extensions obj tools).Every (Kept .chat) := by
  unfold chat.request_extensions chat.collect_unknown
  refine Extensions.Every.foldl (fun _ entry hext => hext.keep_unless fun hkey => ⟨entry.1, rfl, ?_⟩) ?_
  · exact fun hknown => hkey (List.contains_iff_mem.mpr hknown)
  · exact Extensions.Every.nil.keep_unless fun _ => ⟨"builtin_tools", rfl, by unfold Stored; decide⟩

theorem responses.request_extensions_kept (obj : Map) (builtins : List Value) :
    (responses.request_extensions obj builtins).Every (Kept .responses) := by
  have hnamed : ∀ key ∈ ["previous_response_id", "store", "include", "metadata"], Stored .responses key := fun _ => .inr
  unfold responses.request_extensions
  refine Extensions.Every.foldl (fun _ entry hext => hext.keep_unless fun hkey => ⟨entry.1, rfl, .inl ?_⟩) ?_
  · exact fun hknown => hkey (List.contains_iff_mem.mpr hknown)
  · have hbuiltin : Extensions.Every (if builtins.isEmpty then [] else [(responses.EXT ++ "builtin_tools", .array builtins)])
        (Kept .responses) :=
      Extensions.Every.nil.keep_unless fun _ => ⟨"builtin_tools", rfl, .inl (by decide)⟩
    have hprevious := hbuiltin.keep fun _ (_ : (Map.get obj "previous_response_id").filter (!·.is_null) = _) =>
      ⟨"previous_response_id", rfl, hnamed _ (by decide)⟩
    have hstore := hprevious.keep fun _ (_ : (Map.get obj "store").filter (!·.is_null) = _) =>
      ⟨"store", rfl, hnamed _ (by decide)⟩
    have hinclude := hstore.keep fun _ (_ : (Map.get obj "include").filter (!·.is_null) = _) =>
      ⟨"include", rfl, hnamed _ (by decide)⟩
    exact hinclude.keep fun _ (_ : (Map.get obj "metadata").filter (!·.is_null) = _) =>
      ⟨"metadata", rfl, hnamed _ (by decide)⟩

theorem messages.request_extensions_kept (obj : Map) (functions server : List Value) :
    (messages.request_extensions obj functions server).Every (Kept .messages) := by
  unfold messages.request_extensions messages.collect_unknown
  refine Extensions.Every.foldl (fun _ entry hext => hext.keep_unless fun hkey => ⟨entry.1, rfl, .inl ?_⟩) ?_
  · exact fun hknown => hkey (List.contains_iff_mem.mpr hknown)
  · refine Extensions.Every.keep ?_ fun _ _ => ⟨"metadata", rfl, .inr rfl⟩
    refine Extensions.Every.keep ?_ fun _ _ => ⟨"tools_raw", rfl, .inl (by decide)⟩
    refine Extensions.Every.keep ?_ fun _ _ => ⟨"server_tools", rfl, .inl (by decide)⟩
    exact Extensions.Every.nil.keep fun _ _ => ⟨"system_raw", rfl, .inl (by decide)⟩

theorem gemini.request_extensions_kept (obj : Map) (tools : List Value) :
    (gemini.request_extensions obj tools).Every (Kept .gemini) := by
  unfold gemini.request_extensions
  refine Extensions.Every.foldl (fun _ entry hext => hext.keep_unless fun hkey => ⟨entry.1, rfl, .inl ?_⟩) ?_
  · exact fun hknown => hkey (List.contains_iff_mem.mpr hknown)
  refine Extensions.Every.keep ?_ fun _ _ => ⟨"cachedContent", rfl, .inr (by decide)⟩
  refine Extensions.Every.keep ?_ fun _ _ => ⟨"safetySettings", rfl, .inr (by decide)⟩
  refine Extensions.Every.keep ?_ fun _ _ => ⟨"generationConfig", rfl, .inr (by decide)⟩
  refine Extensions.Every.keep ?_ fun _ _ => ⟨"dynamicThinking", rfl, .inl (by decide)⟩
  refine Extensions.Every.keep ?_ fun _ _ => ⟨"responseMimeType", rfl, .inl (by decide)⟩
  refine Extensions.Every.keep ?_ fun _ _ => ⟨"allowedFunctionNames", rfl, .inl (by decide)⟩
  exact Extensions.Every.nil.keep fun _ _ => ⟨"builtinTools", rfl, .inl (by decide)⟩

theorem chat.decode_request_kept {ir : UnifiedRequest} (h : chat.decode_request serde raw = .ok ir) :
    ir.extensions.Every (Kept .chat) := by
  obtain ⟨obj, -, hread⟩ := chat.decode_request_decodesTo h
  obtain ⟨tools, htools⟩ := hread.extensions
  exact htools ▸ chat.request_extensions_kept obj tools

theorem responses.decode_request_kept {ir : UnifiedRequest} (h : responses.decode_request serde raw = .ok ir) :
    ir.extensions.Every (Kept .responses) := by
  obtain ⟨obj, -, hread⟩ := responses.decode_request_decodesTo h
  obtain ⟨builtins, hbuiltins⟩ := hread.extensions
  exact hbuiltins ▸ responses.request_extensions_kept obj builtins

theorem messages.decode_request_kept {ir : UnifiedRequest} (h : messages.decode_request serde raw = .ok ir) :
    ir.extensions.Every (Kept .messages) := by
  obtain ⟨obj, -, hread⟩ := messages.decode_request_decodesTo h
  obtain ⟨functions, server, htools⟩ := hread.extensions
  exact htools ▸ messages.request_extensions_kept obj functions server

theorem gemini.decode_request_kept {ir : UnifiedRequest} (h : gemini.decode_request serde raw = .ok ir) :
    ir.extensions.Every (Kept .gemini) := by
  obtain ⟨obj, -, hread⟩ := gemini.decode_request_decodesTo h
  obtain ⟨tools, htools⟩ := hread.extensions
  exact htools ▸ gemini.request_extensions_kept obj tools

/-- A client's own fields are kept under its protocol. -/
theorem decode_request_kept {source : Protocol} {ir : UnifiedRequest} (h : decode_request serde source raw = .ok ir) :
    ir.extensions.Every (Kept source) := by
  cases source with
  | chat => exact chat.decode_request_kept h
  | responses => exact responses.decode_request_kept h
  | messages => exact messages.decode_request_kept h
  | gemini => exact gemini.decode_request_kept h

theorem responses.decode_response_carried {answer : UnifiedResponse} (h : responses.decode_response serde now raw = .ok answer) :
    answer.extensions.Every (Carried .responses) := by
  fun_induction responses.decode_response serde now raw with
  | case1 => cases h
  | case2 _ _ _ _ ih => exact ih h
  | case3 obj =>
    obtain rfl := Except.ok.inj h
    refine Extensions.Every.foldl (fun _ key hext => ?_) .nil
    split
    · exact hext.insert (carries_own .responses key)
    · exact hext
  | case4 => cases h

theorem chat.decode_response_carried {answer : UnifiedResponse} (h : chat.decode_response serde now raw = .ok answer) :
    answer.extensions.Every (Carried .chat) := by
  unfold chat.decode_response at h
  split at h
  · cases h
  · split at h
    · obtain rfl := Except.ok.inj h
      exact Extensions.Every.foldl (fun _ entry hext => hext.keep_unless fun _ => carries_own .chat entry.1) .nil
    · cases h

theorem messages.decode_response_carried {answer : UnifiedResponse}
    (h : messages.decode_response serde now raw = .ok answer) : answer.extensions.Every (Carried .messages) := by
  unfold messages.decode_response at h
  split at h
  · split at h
    · cases h
    · obtain ⟨-, -, rfl⟩ := map_eq_ok.mp h
      exact Extensions.Every.foldl (fun _ entry hext => hext.keep_unless fun _ => carries_own .messages entry.1) .nil
  · cases h

theorem gemini.response_extensions_carried (obj : Map) : (gemini.response_extensions obj).Every (Carried .gemini) := by
  refine Extensions.Every.keep ?_ fun _ _ => carries_own .gemini "promptFeedback"
  refine Extensions.Every.keep ?_ fun _ _ => carries_own .gemini "extraCandidates"
  refine Extensions.Every.keep ?_ fun _ _ => carries_own .gemini "citationMetadata"
  refine Extensions.Every.keep ?_ fun _ _ => carries_own .gemini "safetyRatings"
  exact Extensions.Every.nil.keep fun _ _ => carries_own .gemini "finishReason"

theorem gemini.decode_response_carried {answer : UnifiedResponse}
    (h : gemini.decode_response serde uuid now raw = .ok answer) : answer.extensions.Every (Carried .gemini) := by
  unfold gemini.decode_response at h
  split at h
  · split at h
    · cases h
    · obtain rfl := Except.ok.inj h
      exact gemini.response_extensions_carried _
  · cases h

/-- An upstream's own fields are kept under its protocol. -/
theorem decode_response_carried {source : Protocol} {answer : UnifiedResponse}
    (h : decode_response serde uuid now source raw = .ok answer) : answer.extensions.Every (Carried source) := by
  cases source with
  | chat => exact chat.decode_response_carried h
  | responses => exact responses.decode_response_carried h
  | messages => exact messages.decode_response_carried h
  | gemini => exact gemini.decode_response_carried h

/-- Nothing of another protocol's entries is a protocol's own. -/
theorem home_eq_nil {source target : Protocol} {ext : Extensions} (h : ext.Every (Carried source)) (hne : source ≠ target) :
    home target ext = [] := by
  rw [home, List.filter_eq_nil_iff]
  intro entry hentry
  have hforeign : Foreign target entry.1 := ⟨source, hne, h entry hentry⟩
  simpa using hforeign

end Decoders

/-- What is written for a protocol does not depend on what other protocols keep
    for themselves, and holds nothing that a client or an upstream of another
    protocol sent besides what the representation names. -/
theorem private_fields_stay (serde : Serde) (uuid : String) (now : Int) (protocol : Protocol) :
    (∀ r₁ r₂ : UnifiedRequest, r₁.at_home protocol = r₂.at_home protocol →
      encode_request serde protocol r₁ = encode_request serde protocol r₂) ∧
    (∀ r₁ r₂ : UnifiedResponse, r₁.at_home protocol = r₂.at_home protocol →
      encode_response serde protocol r₁ = encode_response serde protocol r₂) ∧
    (∀ source raw ir, source ≠ protocol → decode_request serde source raw = .ok ir →
      encode_request serde protocol ir = encode_request serde protocol { ir with extensions := [] }) ∧
    (∀ source raw ir, source ≠ protocol → decode_response serde uuid now source raw = .ok ir →
      encode_response serde protocol ir = encode_response serde protocol { ir with extensions := [] }) := by
  have hrequests : ∀ r₁ r₂ : UnifiedRequest, r₁.at_home protocol = r₂.at_home protocol →
      encode_request serde protocol r₁ = encode_request serde protocol r₂ := by
    intro r₁ r₂ heq
    rw [← encode_request_at_home serde r₁, heq, encode_request_at_home]
  have hresponses : ∀ r₁ r₂ : UnifiedResponse, r₁.at_home protocol = r₂.at_home protocol →
      encode_response serde protocol r₁ = encode_response serde protocol r₂ := by
    intro r₁ r₂ heq
    rw [← encode_response_at_home serde r₁, heq, encode_response_at_home]
  refine ⟨hrequests, hresponses, fun source raw ir hne hir => hrequests _ _ ?_, fun source raw ir hne hir => hresponses _ _ ?_⟩
  · unfold UnifiedRequest.at_home
    rw [home_eq_nil ((decode_request_kept hir).mono fun _ _ => Kept.carried) hne]
    rfl
  · unfold UnifiedResponse.at_home
    rw [home_eq_nil (decode_response_carried hir) hne]
    rfl

/-- A request that names only its model. -/
def bare (extensions : Extensions) : UnifiedRequest := { model := "m", messages := [], extensions := extensions }

/-- A request with a field of its own protocol. -/
def labelled : Value := .object [("contents", .array []), ("labels", .object [])]

theorem private_fields_stay_of_chat :
    encode_request Serde.compact .messages (bare [("chat.logprobs", .bool true), ("messages.container", .string "c")]) =
        encode_request Serde.compact .messages (bare [("messages.container", .string "c"), ("responses.store", .bool false)]) ∧
      encode_response Serde.compact .chat { id := "a", model := "m", created := 0, extensions := [("gemini.index", .nat 1)] } =
        encode_response Serde.compact .chat { id := "a", model := "m", created := 0 } ∧
      ∃ ir, decode_request Serde.compact .gemini labelled = .ok ir ∧
        encode_request Serde.compact .chat ir = encode_request Serde.compact .chat { ir with extensions := [] } :=
  ⟨(private_fields_stay Serde.compact "" 0 .messages).1 _ _ rfl, (private_fields_stay Serde.compact "" 0 .chat).2.1 _ _ rfl,
    _, rfl, (private_fields_stay Serde.compact "" 0 .chat).2.2.1 .gemini labelled _ (by decide) rfl⟩

end refract.codec
