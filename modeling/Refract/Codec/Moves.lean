import Refract.Codec.Chat.Answer
import Refract.Codec.Requests
import Refract.Json.RoundTrip

open refract.core refract.json refract.ir refract.machine

namespace refract.codec

/-- A call of the model and what it came to. -/
structure Errand where
  id : String
  name : String
  input : Map
  output : Map

/-- A move of a dialogue that every protocol has a place for. -/
inductive Move where
  | asked (text : String)
  | answered (text : String)
  | called (errands : List Errand)

namespace Move

def is_question : Move → Bool
  | .asked _ => true
  | _ => false

def is_answer : Move → Bool
  | .answered _ => true
  | _ => false

def errands : Move → List Errand
  | .called errands => errands
  | _ => []

end Move

/-- An errand that each protocol can send: its identifier is the model's own. -/
structure Errand.Sendable (errand : Errand) : Prop where
  id_ne : errand.id ≠ ""
  own_id : gemini.is_synthetic_call_id errand.id errand.name = false
  input : (Value.object errand.input).WellFormed

/-- An errand whose outcome is no failure. -/
structure Errand.Sound (errand : Errand) : Prop extends errand.Sendable where
  output : (Value.object errand.output).WellFormed
  no_error : Map.contains_key errand.output "error" = false

/-- A move that says something. -/
inductive Move.Sound : Move → Prop where
  | asked {text : String} (hne : text ≠ "") : Sound (.asked text)
  | answered {text : String} (hne : text ≠ "") : Sound (.answered text)
  | called {errands : List Errand} (hne : errands ≠ []) (hsound : ∀ errand ∈ errands, errand.Sound) : Sound (.called errands)

/-- A dialogue that the user opens, and in which the model works until it answers. -/
structure Sound (moves : List Move) : Prop where
  each : ∀ move ∈ moves, move.Sound
  opened : ∀ first ∈ moves.head?, first.is_question = true
  alternate : moves.IsChain fun before after => after.is_question = before.is_answer
  /-- An identifier stands for one function. -/
  one_name : ∀ first ∈ moves.flatMap Move.errands, ∀ second ∈ moves.flatMap Move.errands,
    first.id = second.id → first.name = second.name

section Conveys

variable (serde : Serde)

/-- A part that makes the call. -/
def Makes (errand : Errand) (part : ContentPart) : Prop :=
  ∃ signature, part = .toolUse errand.id errand.name (.object errand.input) signature

/-- A text, or nothing. -/
def Worded (content : List ContentPart) : Prop := content = [] ∨ ∃ text, content = [.text text]

/-- A part that reports what the call came to: the object its text is, or the one
    a text is put into. -/
def Reports (errand : Errand) (part : ContentPart) : Prop :=
  ∃ name content, part = .toolResult errand.id name content false ∧ (∀ other ∈ name, other = errand.name) ∧
    Worded content ∧ gemini.response_payload serde content false = .object errand.output

/-- Messages that hold a dialogue. The results of calls may stand together or in
    messages of their own. -/
inductive Conveys : List Move → List Message → Prop where
  | nil : Conveys [] []
  | asked (name : Option String) {text : String} {moves : List Move} {messages : List Message} (hrest : Conveys moves messages) :
    Conveys (.asked text :: moves) ({ role := .user, content := [.text text], name := name } :: messages)
  | answered (name : Option String) {text : String} {moves : List Move} {messages : List Message} (hrest : Conveys moves messages) :
    Conveys (.answered text :: moves) ({ role := .assistant, content := [.text text], name := name } :: messages)
  | called (name : Option String) {errands : List Errand} {calls : List ContentPart} {results : List (List ContentPart)}
    {moves : List Move} {messages : List Message} (hcalls : List.Forall₂ Makes errands calls)
    (hresults : List.Forall₂ (Reports serde) errands results.flatten) (hsome : ∀ result ∈ results, result ≠ [])
    (hrest : Conveys moves messages) :
    Conveys (.called errands :: moves) ({ role := .assistant, content := calls, name := name } ::
      (results.map fun result => { role := .tool, content := result }) ++ messages)

end Conveys

section Lists

variable {α β γ : Type}

theorem flatMap_flatten (f : α → List β) (groups : List (List α)) :
    groups.flatten.flatMap f = groups.flatMap fun group => group.flatMap f := by
  rw [← List.flatMap_id, List.flatMap_assoc]
  rfl

/-- What is written item by item and read back item by item stays related. -/
theorem forall_passed {R : α → β → Prop} {write : β → List γ} {Read : γ → β → Prop} {as : List α} {bs : List β}
    (h : List.Forall₂ R as bs) (hone : ∀ a ∈ as, ∀ b, R a b → ∃ c d, write b = [c] ∧ Read c d ∧ R a d) :
    ∃ ds, List.Forall₂ Read (bs.flatMap write) ds ∧ List.Forall₂ R as ds := by
  induction h with
  | nil => exact ⟨[], .nil, .nil⟩
  | cons hfirst _ ih =>
    obtain ⟨hhead, htail⟩ := List.forall_mem_cons.mp hone
    obtain ⟨c, d, hwrite, hread, hd⟩ := hhead _ hfirst
    obtain ⟨ds, hreads, hds⟩ := ih htail
    rw [List.flatMap_cons, hwrite]
    exact ⟨d :: ds, .cons hread hreads, .cons hd hds⟩

theorem forall_right {R : α → β → Prop} {P : β → Prop} {as : List α} {bs : List β} (h : List.Forall₂ R as bs)
    (himp : ∀ a b, R a b → P b) : ∀ b ∈ bs, P b := by
  induction h with
  | nil => exact List.forall_mem_nil _
  | cons hfirst _ ih => exact List.forall_mem_cons.mpr ⟨himp _ _ hfirst, ih⟩

theorem forall_ne_nil {R : α → β → Prop} {as : List α} {bs : List β} (h : List.Forall₂ R as bs) (hne : as ≠ []) : bs ≠ [] := by
  cases h with
  | nil => exact absurd rfl hne
  | cons => exact List.cons_ne_nil _ _

/-- The same for items in groups, which stay groups. -/
theorem groups_passed {R : α → β → Prop} {write : β → List γ} {Read : γ → β → Prop} {as : List α} {bss : List (List β)}
    (h : List.Forall₂ R as bss.flatten) (hsome : ∀ bs ∈ bss, bs ≠ [])
    (hone : ∀ a ∈ as, ∀ b, R a b → ∃ c d, write b = [c] ∧ Read c d ∧ R a d) :
    ∃ dss, List.Forall₂ (fun bs ds => List.Forall₂ Read (bs.flatMap write) ds ∧ ds ≠ []) bss dss ∧
      List.Forall₂ R as dss.flatten ∧ ∀ ds ∈ dss, ds ≠ [] := by
  induction bss generalizing as with
  | nil => exact ⟨[], .nil, h, List.forall_mem_nil _⟩
  | cons bs bss ih =>
    obtain ⟨hbs, hbss⟩ := List.forall_mem_cons.mp hsome
    rw [List.flatten_cons] at h
    have htake := List.forall₂_take_append as bs _ h
    have hdrop := List.forall₂_drop_append as bs _ h
    obtain ⟨ds, hreads, hds⟩ := forall_passed htake fun a ha => hone a (List.mem_of_mem_take ha)
    obtain ⟨dss, hgroups, hdss, hnonempty⟩ := ih hdrop hbss fun a ha => hone a (List.mem_of_mem_drop ha)
    have hlength : ds.length = bs.length := hds.length_eq.symm.trans htake.length_eq
    have hne : ds ≠ [] := by
      intro heq
      rw [heq] at hlength
      exact hbs (List.length_eq_zero_iff.mp hlength.symm)
    refine ⟨ds :: dss, .cons ⟨hreads, hne⟩ hgroups, ?_, List.forall_mem_cons.mpr ⟨hne, hnonempty⟩⟩
    rw [List.flatten_cons, ← List.take_append_drop bs.length as]
    exact List.rel_append hds hdss

/-- A key that stands for one value only is found under it. -/
theorem lookup_of_agree [DecidableEq α] {key : α} {value : β} {entries : List (α × β)} (hmem : (key, value) ∈ entries)
    (hagree : ∀ entry ∈ entries, entry.1 = key → entry.2 = value) : entries.lookup key = some value := by
  induction entries with
  | nil => cases hmem
  | cons entry entries ih =>
    obtain ⟨k, v⟩ := entry
    obtain ⟨hfirst, hrest⟩ := List.forall_mem_cons.mp hagree
    rw [List.lookup_cons]
    by_cases hk : key = k
    · obtain rfl := hfirst hk.symm
      simp [hk]
    · have hbeq : (key == k) = false := by simpa using hk
      rw [hbeq]
      apply ih _ hrest
      rcases List.mem_cons.mp hmem with heq | hmem
      · exact absurd (Prod.mk.inj heq).1 hk
      · exact hmem

end Lists

section Parts

variable {serde : Serde} {errand : Errand} {part : ContentPart}

/-- A text counts by the object it stands for. -/
theorem Reports.reworded {name : Option String} {content other : List ContentPart} (hname : ∀ n ∈ name, n = errand.name)
    (hpayload : gemini.response_payload serde content false = .object errand.output) (hother : Worded other)
    (hsame : String.join (ContentPart.texts other) = String.join (ContentPart.texts content)) :
    Reports serde errand (.toolResult errand.id name other false) := by
  refine ⟨name, other, rfl, hname, hother, ?_⟩
  rw [gemini.response_payload, hsame]
  exact hpayload

/-- The object itself counts as its text does. -/
theorem Reports.of_output (hserde : serde.Lawful) (herrand : errand.Sound) {name : Option String}
    (hname : ∀ n ∈ name, n = errand.name) :
    Reports serde errand (.toolResult errand.id name [.text (serde.to_string (.object errand.output))] false) := by
  refine ⟨name, _, rfl, hname, .inr ⟨_, rfl⟩, ?_⟩
  have htext : String.join (ContentPart.texts [.text (serde.to_string (.object errand.output))]) =
      serde.to_string (.object errand.output) := by
    simp [ContentPart.texts, ContentPart.as_text]
  rw [gemini.response_payload, htext, hserde.from_str_to_string _ herrand.output]
  rfl

theorem Worded.all_text {content : List ContentPart} (h : Worded content) : content.all ContentPart.is_text = true := by
  obtain rfl | ⟨text, rfl⟩ := h <;> rfl

/-- The one text of a content. -/
theorem Worded.joined {content : List ContentPart} (h : Worded content) :
    content = [] ∨ content = [.text (String.join (ContentPart.texts content))] := by
  obtain rfl | ⟨text, rfl⟩ := h
  · exact .inl rfl
  · right
    simp [ContentPart.texts, ContentPart.as_text]

end Parts

section Whole

variable {serde : Serde} {moves : List Move} {conversation : List Message}

/-- Nobody speaks for the system. -/
theorem Conveys.spoken (h : Conveys serde moves conversation) : ∀ message ∈ conversation, message.role ≠ .system := by
  induction h with
  | nil => exact List.forall_mem_nil _
  | asked _ _ ih => exact List.forall_mem_cons.mpr ⟨by simp, ih⟩
  | answered _ _ ih => exact List.forall_mem_cons.mpr ⟨by simp, ih⟩
  | called _ _ _ _ _ ih =>
    intro message hmessage
    rw [List.cons_append, List.mem_cons, List.mem_append, List.mem_map] at hmessage
    obtain rfl | ⟨result, -, rfl⟩ | hrest := hmessage
    · simp
    · simp
    · exact ih message hrest

/-- What is collected of the calls of a dialogue is theirs in order. -/
theorem Conveys.filterMap_calls (h : Conveys serde moves conversation) {α : Type} {f : ContentPart → Option α} {g : Errand → α}
    (hcall : ∀ errand part, Makes errand part → f part = some (g errand)) (htext : ∀ text, f (.text text) = none)
    (hresult : ∀ errand part, Reports serde errand part → f part = none) :
    (conversation.flatMap (·.content)).filterMap f = (moves.flatMap Move.errands).map g := by
  induction h with
  | nil => rfl
  | asked _ _ ih => simp [htext, Move.errands, ih]
  | answered _ _ ih => simp [htext, Move.errands, ih]
  | @called name errands calls results moves conversation hcalls hresults _ _ ih =>
    have hmade : calls.filterMap f = errands.map g := by
      clear ih hresults
      induction hcalls with
      | nil => rfl
      | cons hfirst _ ih => rw [List.filterMap_cons, hcall _ _ hfirst, ih, List.map_cons]
    have hreported : results.flatten.filterMap f = [] := by
      generalize results.flatten = parts at hresults
      clear ih hcalls hmade
      induction hresults with
      | nil => rfl
      | cons hfirst _ ih => rw [List.filterMap_cons, hresult _ _ hfirst, ih]
    have hcontents : (results.map fun result => ({ role := .tool, content := result } : Message)).flatMap (·.content) = results.flatten := by
      rw [List.flatMap_map]
      exact List.flatMap_id
    rw [List.cons_append, List.flatMap_cons, List.flatMap_append, hcontents, List.filterMap_append, List.filterMap_append, hmade,
      hreported, ih, List.flatMap_cons, List.map_append]
    rfl

end Whole

section Joined

variable {ρ β : Type} [DecidableEq ρ]

/-- How a protocol merges the messages of a dialogue into turns: results go to the
    user's, and every part of it is written. -/
structure Merges (serde : Serde) (speaker : Role → ρ) (write : ContentPart → List β) : Prop where
  tool : speaker .tool = speaker .user
  other : speaker .assistant ≠ speaker .user
  text : ∀ text, write (.text text) ≠ []
  call : ∀ errand part, Makes errand part → write part ≠ []
  result : ∀ errand part, Reports serde errand part → write part ≠ []

variable {serde : Serde} {speaker : Role → ρ} {write : ContentPart → List β}

/-- A message as a turn. -/
def spoken_turn (speaker : Role → ρ) (write : ContentPart → List β) (message : Message) : ρ × List β :=
  (speaker message.role, message.content.flatMap write)

theorem written_ne_nil {errands : List Errand} {parts : List ContentPart} {R : Errand → ContentPart → Prop}
    (h : List.Forall₂ R errands parts) (hne : errands ≠ []) (hwrite : ∀ errand part, R errand part → write part ≠ []) :
    parts.flatMap write ≠ [] := by
  cases h with
  | nil => exact absurd rfl hne
  | cons hfirst _ =>
    rw [List.flatMap_cons]
    exact List.append_ne_nil_of_left_ne_nil (hwrite _ _ hfirst) _

/-- Results in messages of their own are one turn. -/
theorem results_merged (hmerges : Merges serde speaker write) {errands : List Errand} {results : List (List ContentPart)}
    (hresults : List.Forall₂ (Reports serde) errands results.flatten) (hsome : ∀ result ∈ results, result ≠ [])
    (hfull : results.flatten ≠ []) {turns : List (ρ × List β)} (hlast : ∀ last ∈ turns.getLast?, last.1 ≠ speaker .user) :
    resume turns (results.map fun result => spoken_turn speaker write { role := .tool, content := result }) =
      turns ++ [(speaker .user, results.flatten.flatMap write)] := by
  cases results with
  | nil => exact absurd rfl hfull
  | cons result results =>
    obtain ⟨part, parts, rfl⟩ := List.exists_cons_of_ne_nil (hsome result List.mem_cons_self)
    have hpart : write part ≠ [] := by
      rw [List.flatten_cons, List.cons_append] at hresults
      cases hresults with
      | cons hfirst _ => exact hmerges.result _ _ hfirst
    have hfirst : (part :: parts).flatMap write ≠ [] := by
      rw [List.flatMap_cons]
      exact List.append_ne_nil_of_left_ne_nil hpart _
    have hturn : ∀ result : List ContentPart, spoken_turn speaker write { role := .tool, content := result } =
        (speaker .user, result.flatMap write) := fun result => by rw [spoken_turn, hmerges.tool]
    have hrest := @resume_same ρ β _ turns (speaker .user) ((part :: parts).flatMap write)
      (results.map fun result => result.flatMap write)
    simp only [hturn]
    rw [List.map_cons, resume_other hlast hfirst, List.flatten_cons, List.flatMap_append, flatMap_flatten,
      @List.flatMap_def _ _ results, ← hrest, List.map_map]
    rfl

/-- Merged, the results of calls stand together, and nothing else changes. -/
theorem Conveys.merged (hmerges : Merges serde speaker write) {moves : List Move} {messages : List Message}
    (h : Conveys serde moves messages) (hsound : ∀ move ∈ moves, move.Sound)
    (halternate : moves.IsChain fun before after => after.is_question = before.is_answer) :
    ∃ joined, Conveys serde moves joined ∧ ∀ turns : List (ρ × List β),
      (∀ last ∈ turns.getLast?, ∀ first ∈ moves.head?, last.1 ≠ if first.is_question then speaker .user else speaker .assistant) →
      resume turns (messages.map (spoken_turn speaker write)) = turns ++ joined.map (spoken_turn speaker write) := by
  induction h with
  | nil => exact ⟨[], .nil, fun turns _ => by simp [resume]⟩
  | @asked name text moves messages _ ih =>
    obtain ⟨hnext, hrest⟩ := List.isChain_cons.mp halternate
    obtain ⟨joined, htells, hjoined⟩ := ih (List.forall_mem_cons.mp hsound).2 hrest
    refine ⟨_, .asked name htells, fun turns hlast => ?_⟩
    have hturn : spoken_turn speaker write { role := .user, content := [.text text], name := name } = (speaker .user, write (.text text)) := by
      simp [spoken_turn]
    rw [List.map_cons, hturn, resume_other _ (hmerges.text text), hjoined, List.map_cons, hturn, List.append_assoc]
    · rfl
    · intro last hturns first hfirst
      obtain rfl := Option.some.inj ((List.getLast?_concat).symm.trans hturns)
      have hmodel : first.is_question = false := hnext first hfirst
      rw [hmodel]
      exact hmerges.other.symm
    · exact fun last hturns => hlast last hturns _ rfl
  | @answered name text moves messages _ ih =>
    obtain ⟨hnext, hrest⟩ := List.isChain_cons.mp halternate
    obtain ⟨joined, htells, hjoined⟩ := ih (List.forall_mem_cons.mp hsound).2 hrest
    refine ⟨_, .answered name htells, fun turns hlast => ?_⟩
    have hturn : spoken_turn speaker write { role := .assistant, content := [.text text], name := name } =
        (speaker .assistant, write (.text text)) := by
      simp [spoken_turn]
    rw [List.map_cons, hturn, resume_other _ (hmerges.text text), hjoined, List.map_cons, hturn, List.append_assoc]
    · rfl
    · intro last hturns first hfirst
      obtain rfl := Option.some.inj ((List.getLast?_concat).symm.trans hturns)
      have huser : first.is_question = true := hnext first hfirst
      rw [huser]
      exact hmerges.other
    · exact fun last hturns => hlast last hturns _ rfl
  | @called name errands calls results moves messages hcalls hresults hsome _ ih =>
    obtain ⟨hmove, hmoves⟩ := List.forall_mem_cons.mp hsound
    obtain ⟨hnext, hrest⟩ := List.isChain_cons.mp halternate
    obtain ⟨joined, htells, hjoined⟩ := ih hmoves hrest
    have hne : errands ≠ [] := by cases hmove with | called hne _ => exact hne
    have hwritten : calls.flatMap write ≠ [] := written_ne_nil hcalls hne hmerges.call
    have hreplied : results.flatten.flatMap write ≠ [] := written_ne_nil hresults hne hmerges.result
    have hfull : results.flatten ≠ [] := by
      intro heq
      rw [heq] at hreplied
      exact hreplied rfl
    have htogether : List.Forall₂ (Reports serde) errands [results.flatten].flatten := by simpa using hresults
    refine ⟨_, .called name hcalls htogether (by simpa using hfull) htells, fun turns hlast => ?_⟩
    have hturn : spoken_turn speaker write { role := .assistant, content := calls, name := name } =
        (speaker .assistant, calls.flatMap write) := rfl
    have hresult : spoken_turn speaker write { role := .tool, content := results.flatten } =
        (speaker .user, results.flatten.flatMap write) := by
      rw [spoken_turn, hmerges.tool]
    have hresume : resume (turns ++ [(speaker .assistant, calls.flatMap write)])
        (results.map fun result => spoken_turn speaker write { role := .tool, content := result }) =
          turns ++ [(speaker .assistant, calls.flatMap write)] ++ [(speaker .user, results.flatten.flatMap write)] :=
      results_merged hmerges hresults hsome hfull (by simpa using hmerges.other)
    rw [List.map_append, List.map_cons, hturn, List.map_map, List.cons_append, resume_other _ hwritten, resume_append,
      show (spoken_turn speaker write ∘ fun result => ({ role := .tool, content := result } : Message)) =
        fun result => spoken_turn speaker write { role := .tool, content := result } from rfl, hresume, hjoined]
    · simp [hturn, hresult]
    · intro last hturns first hfirst
      obtain rfl := Option.some.inj ((List.getLast?_concat).symm.trans hturns)
      have hmodel : first.is_question = false := hnext first hfirst
      rw [hmodel]
      exact hmerges.other.symm
    · exact fun last hturns => hlast last hturns _ rfl

end Joined

end refract.codec
