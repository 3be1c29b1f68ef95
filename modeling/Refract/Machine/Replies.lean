import Mathlib.Data.List.Chain
import Mathlib.Tactic.Common

namespace refract.machine

variable {ρ β : Type} [DecidableEq ρ]

/-- Appends to the last turn of a dialogue, or as a new turn where another speaks. -/
def push_turn (turns : List (ρ × List β)) (role : ρ) (said : List β) : List (ρ × List β) :=
  match turns.getLast? with
  | some (last, before) => if last = role then turns.dropLast ++ [(role, before ++ said)] else turns ++ [(role, said)]
  | none => [(role, said)]

/-- The turns of a dialogue: what one says without a break is one turn, and who
    says nothing has none. -/
def merge_turns (messages : List (ρ × List β)) : List (ρ × List β) :=
  messages.foldl (fun turns (role, said) => if said.isEmpty then turns else push_turn turns role said) []

section Push

variable (turns : List (ρ × List β)) (role : ρ) (said : List β)

/-- A push either goes on in the last turn or adds one of another role. -/
theorem push_turn_cases :
    (∃ init before, turns = init ++ [(role, before)] ∧ push_turn turns role said = init ++ [(role, before ++ said)]) ∨
      ((∀ last ∈ turns.getLast?, last.1 ≠ role) ∧ push_turn turns role said = turns ++ [(role, said)]) := by
  rcases List.eq_nil_or_concat turns with rfl | ⟨init, ⟨last, before⟩, rfl⟩
  · exact .inr ⟨by simp, rfl⟩
  · rw [List.concat_eq_append, push_turn, List.getLast?_concat]
    dsimp only
    by_cases hrole : last = role
    · subst hrole
      rw [if_pos rfl, List.dropLast_concat]
      exact .inl ⟨init, before, rfl, rfl⟩
    · rw [if_neg hrole]
      refine .inr ⟨?_, rfl⟩
      intro turn hturn
      obtain rfl := Option.mem_some.mp hturn
      exact hrole

theorem push_turn_flatMap : (push_turn turns role said).flatMap Prod.snd = turns.flatMap Prod.snd ++ said := by
  rcases push_turn_cases turns role said with ⟨init, before, rfl, hpush⟩ | ⟨-, hpush⟩
  · rw [hpush]
    simp
  · rw [hpush]
    simp

end Push

theorem merge_turns_concat (messages : List (ρ × List β)) (role : ρ) (said : List β) :
    merge_turns (messages ++ [(role, said)]) =
      if said.isEmpty then merge_turns messages else push_turn (merge_turns messages) role said := by
  rw [merge_turns, List.foldl_append]
  rfl

/-- Nothing that is said is lost, and its order stays. -/
theorem merge_turns_flatMap (messages : List (ρ × List β)) :
    (merge_turns messages).flatMap Prod.snd = messages.flatMap Prod.snd := by
  induction messages using List.reverseRecOn with
  | nil => rfl
  | append_singleton messages message ih =>
    obtain ⟨role, said⟩ := message
    rw [merge_turns_concat, List.flatMap_append, List.flatMap_singleton]
    split
    next hempty => rw [List.isEmpty_iff.mp hempty, List.append_nil, ih]
    · rw [push_turn_flatMap, ih]

/-- A dialogue in which everybody says something and nobody goes on is left as it is. -/
theorem merge_turns_of_isChain {messages : List (ρ × List β)} (hchain : messages.IsChain fun a b => a.1 ≠ b.1)
    (hsaid : ∀ message ∈ messages, message.2 ≠ []) : merge_turns messages = messages := by
  induction messages using List.reverseRecOn with
  | nil => rfl
  | append_singleton messages message ih =>
    obtain ⟨role, said⟩ := message
    obtain ⟨hinit, -, hlast⟩ := List.isChain_append.mp hchain
    have hsome : said.isEmpty = false := by simpa using hsaid (role, said) (by simp)
    rw [merge_turns_concat, ih hinit fun message hmessage => hsaid message (List.mem_append_left _ hmessage), hsome]
    rcases push_turn_cases messages role said with ⟨init, before, rfl, -⟩ | ⟨-, hpush⟩
    · exact absurd rfl (hlast (role, before) (by simp) (role, said) rfl)
    · exact hpush

section Resume

variable {turns : List (ρ × List β)} {role : ρ} {before said : List β}

/-- Goes on with a dialogue that has come as far as some turns. -/
def resume (turns messages : List (ρ × List β)) : List (ρ × List β) :=
  messages.foldl (fun turns (role, said) => if said.isEmpty then turns else push_turn turns role said) turns

theorem merge_turns_eq_resume (messages : List (ρ × List β)) : merge_turns messages = resume [] messages := rfl

theorem resume_append (messages more : List (ρ × List β)) : resume turns (messages ++ more) = resume (resume turns messages) more :=
  List.foldl_append

/-- Who speaks after another has a turn of its own. -/
theorem resume_other (hlast : ∀ last ∈ turns.getLast?, last.1 ≠ role) (hsaid : said ≠ []) (messages : List (ρ × List β)) :
    resume turns ((role, said) :: messages) = resume (turns ++ [(role, said)]) messages := by
  have hstep : (if said.isEmpty then turns else push_turn turns role said) = turns ++ [(role, said)] := by
    rw [if_neg (by simpa using hsaid)]
    rcases push_turn_cases turns role said with ⟨init, before, rfl, -⟩ | ⟨-, hpush⟩
    · exact absurd rfl (hlast (role, before) (by simp))
    · exact hpush
  rw [resume, List.foldl_cons]
  exact congrArg (List.foldl _ · messages) hstep

/-- Who goes on stays in the turn. -/
theorem resume_same (said : List (List β)) :
    resume (turns ++ [(role, before)]) (said.map (role, ·)) = turns ++ [(role, before ++ said.flatten)] := by
  induction said generalizing before with
  | nil => simp [resume]
  | cons first said ih =>
    rw [List.map_cons, List.flatten_cons, ← List.append_assoc, ← ih, resume, List.foldl_cons]
    cases first with
    | nil => simp [resume]
    | cons b first => simp [resume, push_turn]

end Resume

end refract.machine

namespace refract.machine

variable {ρ α β : Type} [DecidableEq ρ]

/-- A dialogue as a protocol may ask for it: no speaker has two turns in a row,
    and no turn says nothing. -/
structure Taken (turns : List (ρ × List β)) : Prop where
  alternating : turns.IsChain fun turn next => turn.1 ≠ next.1
  nonempty : ∀ turn ∈ turns, turn.2 ≠ []

section Taken

variable {turns : List (ρ × List β)} {role : ρ} {said : List β}

omit [DecidableEq ρ] in
theorem Taken.nil : Taken ([] : List (ρ × List β)) where
  alternating := .nil
  nonempty _ h := absurd h List.not_mem_nil

omit [DecidableEq ρ] in
theorem taken_concat : Taken (turns ++ [(role, said)]) ↔ Taken turns ∧ (∀ last ∈ turns.getLast?, last.1 ≠ role) ∧ said ≠ [] := by
  constructor
  · rintro ⟨alternating, nonempty⟩
    obtain ⟨hturns, -, hlast⟩ := List.isChain_append.mp alternating
    refine ⟨⟨hturns, fun turn hturn => nonempty turn (List.mem_append_left _ hturn)⟩, ?_, ?_⟩
    · intro last hmem
      exact hlast last hmem (role, said) rfl
    · exact nonempty (role, said) List.mem_concat_self
  · rintro ⟨⟨alternating, nonempty⟩, hlast, hsaid⟩
    constructor
    · refine alternating.append (.singleton _) ?_
      intro last hmem next hnext
      obtain rfl := Option.mem_some.mp hnext
      exact hlast last hmem
    · intro turn hturn
      rcases List.mem_append.mp hturn with hturn | hturn
      · exact nonempty turn hturn
      · rwa [List.mem_singleton.mp hturn]

theorem Taken.push (h : Taken turns) (hsaid : said ≠ []) : Taken (push_turn turns role said) := by
  rcases push_turn_cases turns role said with ⟨init, before, rfl, hpush⟩ | ⟨hlast, hpush⟩
  · obtain ⟨hinit, hlast, -⟩ := taken_concat.mp h
    rw [hpush]
    exact taken_concat.mpr ⟨hinit, hlast, List.append_ne_nil_of_right_ne_nil _ hsaid⟩
  · rw [hpush]
    exact taken_concat.mpr ⟨h, hlast, hsaid⟩

/-- What is merged is such a dialogue, whatever came in. -/
theorem merge_turns_taken (messages : List (ρ × List β)) : Taken (merge_turns messages) := by
  induction messages using List.reverseRecOn with
  | nil => exact .nil
  | append_singleton messages message ih =>
    rw [merge_turns_concat]
    split
    · exact ih
    next hsaid => exact ih.push fun hempty => hsaid (List.isEmpty_iff.mpr hempty)

/-- Only those speak that spoke before. -/
theorem merge_turns_role {messages : List (ρ × List β)} {P : ρ → Prop} (h : ∀ message ∈ messages, P message.1) :
    ∀ turn ∈ merge_turns messages, P turn.1 := by
  induction messages using List.reverseRecOn with
  | nil => exact fun _ hturn => absurd hturn List.not_mem_nil
  | append_singleton messages message ih =>
    have hbefore := ih fun earlier hearlier => h earlier (List.mem_append_left _ hearlier)
    have hrole := h message List.mem_concat_self
    rw [merge_turns_concat]
    split
    · exact hbefore
    · rcases push_turn_cases (merge_turns messages) message.1 message.2 with ⟨init, before, hturns, hpush⟩ | ⟨-, hpush⟩
      · rw [hpush]
        rw [hturns] at hbefore
        intro turn hturn
        rcases List.mem_append.mp hturn with hturn | hturn
        · exact hbefore turn (List.mem_append_left _ hturn)
        · rwa [List.mem_singleton.mp hturn]
      · rw [hpush]
        intro turn hturn
        rcases List.mem_append.mp hturn with hturn | hturn
        · exact hbefore turn hturn
        · rwa [List.mem_singleton.mp hturn]

end Taken

section Replies

variable (caller : ρ) (reply : β → Prop) (answers : β → β → Prop)

/-- Every reply stands in the turn directly after the caller's turn with the call
    that it answers. -/
def Answered (turns : List (ρ × List β)) : Prop :=
  ∀ before turn after, turns = before ++ turn :: after → ∀ part ∈ turn.2, reply part →
    turn.1 ≠ caller ∧ ∃ asked ∈ before.getLast?, asked.1 = caller ∧ ∃ call ∈ asked.2, answers part call

/-- Every reply among some messages follows the caller's last turn, which holds
    the call that it answers. A turn is what the caller said without a break: so
    far `calls`, after which others may have `replied`. -/
def Following : List β → Bool → List (ρ × List β) → Prop
  | _, _, [] => True
  | calls, replied, (role, said) :: rest =>
    if role = caller then
      (∀ part ∈ said, ¬reply part) ∧ Following (if replied then said else calls ++ said) false rest
    else (∀ part ∈ said, reply part → ∃ call ∈ calls, answers part call) ∧ Following calls true rest

/-- Whether replies follow can be decided. -/
instance Following.decidable [DecidablePred reply] [DecidableRel answers] :
    (calls : List β) → (replied : Bool) → (messages : List (ρ × List β)) →
      Decidable (Following caller reply answers calls replied messages)
  | _, _, [] => inferInstanceAs (Decidable True)
  | calls, replied, (role, said) :: rest =>
    haveI := Following.decidable (if replied then said else calls ++ said) false rest
    haveI := Following.decidable calls true rest
    inferInstanceAs (Decidable (if role = caller then
        (∀ part ∈ said, ¬reply part) ∧ Following caller reply answers (if replied then said else calls ++ said) false rest
      else (∀ part ∈ said, reply part → ∃ call ∈ calls, answers part call) ∧ Following caller reply answers calls true rest))

variable {caller reply answers}

omit [DecidableEq ρ] in
theorem answered_concat {turns : List (ρ × List β)} {turn : ρ × List β} :
    Answered caller reply answers (turns ++ [turn]) ↔ Answered caller reply answers turns ∧
      ∀ part ∈ turn.2, reply part →
        turn.1 ≠ caller ∧ ∃ asked ∈ turns.getLast?, asked.1 = caller ∧ ∃ call ∈ asked.2, answers part call := by
  constructor
  · intro h
    refine ⟨?_, h turns turn [] rfl⟩
    rintro before earlier after rfl
    exact h before earlier (after ++ [turn]) (by rw [List.append_assoc, List.cons_append])
  · rintro ⟨hturns, hturn⟩ before last after heq
    rcases List.eq_nil_or_concat after with rfl | ⟨after, final, rfl⟩
    · obtain ⟨rfl, hlast⟩ := List.append_inj' heq rfl
      obtain rfl := List.singleton_inj.mp hlast
      exact hturn
    · rw [List.concat_eq_append, ← List.cons_append, ← List.append_assoc] at heq
      exact hturns before last after (List.append_inj' heq rfl).1

omit [DecidableEq ρ] in
/-- One who says something before the dialogue does not disturb it. -/
theorem Answered.cons {turns : List (ρ × List β)} {turn : ρ × List β} (h : Answered caller reply answers turns)
    (hturn : ∀ part ∈ turn.2, ¬reply part) : Answered caller reply answers (turn :: turns) := by
  rintro before next after heq part hpart hreply
  cases before with
  | nil =>
    obtain ⟨rfl, -⟩ := List.cons.inj heq
    exact absurd hreply (hturn part hpart)
  | cons first before =>
    obtain ⟨rfl, hturns⟩ := List.cons.inj heq
    obtain ⟨hrole, asked, hasked, hcall⟩ := h before next after hturns part hpart hreply
    refine ⟨hrole, asked, ?_, hcall⟩
    rw [List.getLast?_cons, Option.mem_def.mp hasked]
    rfl

omit [DecidableEq ρ] in
/-- Turns in other words keep their replies, as long as no reply is added and no
    call that is answered is left out. -/
theorem Answered.reword {σ : Type} {turns : List (ρ × List β)} {name : ρ → σ} {reword : List β → List β}
    (hname : Function.Injective name) (hreword : ∀ turn ∈ turns, ∀ part ∈ reword turn.2, part ∈ turn.2)
    (hcalls : ∀ turn ∈ turns, ∀ call ∈ turn.2, ∀ part, answers part call → call ∈ reword turn.2)
    (h : Answered caller reply answers turns) :
    Answered (name caller) reply answers (turns.map fun turn => (name turn.1, reword turn.2)) := by
  intro before turn after heq part hpart hreply
  obtain ⟨first, rest, rfl, rfl, hrest⟩ := List.map_eq_append_iff.mp heq
  obtain ⟨said, later, rfl, rfl, rfl⟩ := List.map_eq_cons_iff.mp hrest
  have hsaid : said ∈ first ++ said :: later := List.mem_append_right _ List.mem_cons_self
  obtain ⟨hrole, asked, hasked, hcaller, call, hcall, hanswers⟩ :=
    h first said later rfl part (hreword said hsaid part hpart) hreply
  refine ⟨fun hsame => hrole (hname hsame), (name asked.1, reword asked.2), ?_, congrArg name hcaller, call, ?_, hanswers⟩
  · rw [List.getLast?_map, Option.mem_def.mp hasked]
    rfl
  · exact hcalls asked (List.mem_append_left _ (List.mem_of_getLast? hasked)) call hcall part hanswers

/-- The turn with some calls is the caller's last, and at most one has followed it. -/
def Holding (caller replier : ρ) (turns : List (ρ × List β)) (calls : List β) (replied : Bool) : Prop :=
  ∀ call ∈ calls, ∃ init asked rest, turns = init ++ (caller, asked) :: rest ∧ call ∈ asked ∧
    (rest = [] ∨ replied = true ∧ ∃ answer, rest = [(replier, answer)])

section Step

variable {replier : ρ} {turns : List (ρ × List β)} {calls said : List β} {replied : Bool}

/-- What the caller says next stands in the turn that is the last then. -/
theorem Holding.called (h : Holding caller replier turns calls replied) :
    Holding caller replier (push_turn turns caller said) (if replied then said else calls ++ said) false := by
  intro call hcall
  have hmem : call ∈ said ∨ replied = false ∧ call ∈ calls := by
    cases replied with
    | true => exact .inl hcall
    | false => exact (List.mem_append.mp hcall).symm.imp_right fun hcalls => ⟨rfl, hcalls⟩
  rcases push_turn_cases turns caller said with ⟨init, before, rfl, hpush⟩ | ⟨hlast, hpush⟩
  · refine ⟨init, before ++ said, [], hpush, ?_, .inl rfl⟩
    rcases hmem with hsaid | ⟨rfl, hcalls⟩
    · exact List.mem_append_right _ hsaid
    · obtain ⟨earlier, asked, rest, hturns, hasked, rfl | ⟨hreplied, -⟩⟩ := h call hcalls
      · have hsame := List.singleton_inj.mp (List.append_inj' hturns rfl).2
        obtain rfl : before = asked := congrArg Prod.snd hsame
        exact List.mem_append_left _ hasked
      · cases hreplied
  · refine ⟨turns, said, [], hpush, ?_, .inl rfl⟩
    rcases hmem with hsaid | ⟨rfl, hcalls⟩
    · exact hsaid
    · obtain ⟨earlier, asked, rest, rfl, -, rfl | ⟨hreplied, -⟩⟩ := h call hcalls
      · exact absurd rfl (hlast (caller, asked) (List.getLast?_concat ..))
      · cases hreplied

/-- Where another speaks, the caller's turn is the one before his. -/
theorem Holding.asked (h : Holding caller replier turns calls replied) (hne : replier ≠ caller) {call : β}
    (hcall : call ∈ calls) : ∃ before asked answer, call ∈ asked ∧
      push_turn turns replier said = before ++ [(caller, asked)] ++ [(replier, answer ++ said)] := by
  obtain ⟨before, asked, rest, rfl, hasked, hrest⟩ := h call hcall
  rcases hrest with rfl | ⟨-, answer, rfl⟩
  · refine ⟨before, asked, [], hasked, ?_⟩
    rw [push_turn, List.getLast?_concat]
    exact if_neg hne.symm
  · have hturns : before ++ (caller, asked) :: [(replier, answer)] = before ++ [(caller, asked)] ++ [(replier, answer)] := by
      rw [List.append_assoc, List.singleton_append]
    refine ⟨before, asked, answer, hasked, ?_⟩
    rw [hturns, push_turn, List.getLast?_concat]
    dsimp only
    rw [if_pos rfl, List.dropLast_concat]

theorem Holding.another (h : Holding caller replier turns calls replied) (hne : replier ≠ caller) :
    Holding caller replier (push_turn turns replier said) calls true := by
  intro call hcall
  obtain ⟨before, asked, answer, hasked, hpush⟩ := @Holding.asked _ _ _ _ _ _ _ said _ h hne _ hcall
  exact ⟨before, asked, [(replier, answer ++ said)], by rw [hpush, List.append_assoc, List.singleton_append], hasked,
    .inr ⟨rfl, _, rfl⟩⟩

/-- A turn that goes on or begins with replies to what the caller said last. -/
theorem Answered.push (h : Answered caller reply answers turns) (hsaid : ∀ part ∈ said, reply part →
      replier ≠ caller ∧ ∃ before asked answer, (∃ call ∈ asked, answers part call) ∧
        push_turn turns replier said = before ++ [(caller, asked)] ++ [(replier, answer ++ said)]) :
    Answered caller reply answers (push_turn turns replier said) := by
  have hlast : ∀ part ∈ said, reply part → ∀ init turn, push_turn turns replier said = init ++ [turn] →
      turn.1 ≠ caller ∧ ∃ asked ∈ init.getLast?, asked.1 = caller ∧ ∃ call ∈ asked.2, answers part call := by
    intro part hpart hreply init turn heq
    obtain ⟨hne, before, asked, answer, hcall, hpush⟩ := hsaid part hpart hreply
    obtain ⟨rfl, hturn⟩ := List.append_inj' (heq.symm.trans hpush) rfl
    obtain rfl := List.singleton_inj.mp hturn
    exact ⟨hne, (caller, asked), List.getLast?_concat .., rfl, hcall⟩
  rcases push_turn_cases turns replier said with ⟨init, before, rfl, hpush⟩ | ⟨-, hpush⟩
  · obtain ⟨hinit, hbefore⟩ := answered_concat.mp h
    rw [hpush]
    refine answered_concat.mpr ⟨hinit, fun part hpart hreply => ?_⟩
    rcases List.mem_append.mp hpart with hpart | hpart
    · exact hbefore part hpart hreply
    · exact hlast part hpart hreply init _ hpush
  · rw [hpush]
    exact answered_concat.mpr ⟨h, fun part hpart hreply => hlast part hpart hreply turns _ hpush⟩

end Step

variable {replier : ρ} (hne : replier ≠ caller)

include hne

/-- One message more keeps the replies in place. -/
theorem Following.fold {turns messages : List (ρ × List β)} {calls : List β} {replied : Bool}
    (hroles : ∀ message ∈ messages, message.1 = caller ∨ message.1 = replier)
    (hfollowing : Following caller reply answers calls replied messages)
    (hturns : Answered caller reply answers turns) (hholding : Holding caller replier turns calls replied) :
    Answered caller reply answers
      (messages.foldl (fun turns (role, said) => if said.isEmpty then turns else push_turn turns role said) turns) := by
  induction messages generalizing turns calls replied with
  | nil => exact hturns
  | cons message messages ih =>
    obtain ⟨role, said⟩ := message
    obtain ⟨hrole, hroles⟩ := List.forall_mem_cons.mp hroles
    rw [Following] at hfollowing
    rw [List.foldl_cons]
    dsimp only
    rcases hrole with rfl | rfl
    · rw [if_pos rfl] at hfollowing
      obtain ⟨hsaid, hrest⟩ := hfollowing
      split
      next hempty =>
        refine ih hroles hrest hturns ?_
        rw [List.isEmpty_iff.mp hempty]
        cases replied with
        | true => exact fun call hcall => absurd hcall List.not_mem_nil
        | false => simpa using hholding
      · exact ih hroles hrest (hturns.push fun part hpart hreply => absurd hreply (hsaid part hpart)) hholding.called
    · rw [if_neg hne] at hfollowing
      obtain ⟨hsaid, hrest⟩ := hfollowing
      split
      · refine ih hroles hrest hturns fun call hcall => ?_
        obtain ⟨init, asked, rest, heq, hasked, hrest⟩ := hholding call hcall
        exact ⟨init, asked, rest, heq, hasked, hrest.imp_right fun h => ⟨rfl, h.2⟩⟩
      · refine ih hroles hrest (hturns.push fun part hpart hreply => ?_) (hholding.another hne)
        obtain ⟨call, hcall, hanswers⟩ := hsaid part hpart hreply
        obtain ⟨before, asked, answer, hasked, hpush⟩ := hholding.asked hne hcall
        exact ⟨hne, before, asked, answer, ⟨call, hasked, hanswers⟩, hpush⟩

/-- Where replies follow the calls they answer, the merged turns have every reply
    directly after its call. -/
theorem merge_turns_answered {messages : List (ρ × List β)}
    (hroles : ∀ message ∈ messages, message.1 = caller ∨ message.1 = replier)
    (h : Following caller reply answers [] false messages) : Answered caller reply answers (merge_turns messages) := by
  refine Following.fold hne hroles h ?_ fun call hcall => absurd hcall List.not_mem_nil
  rintro before turn after heq
  exact absurd heq.symm (List.append_ne_nil_of_right_ne_nil _ (List.cons_ne_nil _ _))

omit hne

/-- Replies still follow their calls in a dialogue written in other words, where
    every written reply is one and a written reply finds its call written. -/
theorem Following.map {σ : Type} [DecidableEq σ] {caller' : σ} {reply' : α → Prop} {answers' : α → α → Prop}
    {messages : List (ρ × List β)} {calls : List β} {replied : Bool} {name : ρ → σ} {write : β → Option α} {P : β → Prop}
    (hname : ∀ message ∈ messages, name message.1 = caller' ↔ message.1 = caller)
    (hcalls : ∀ call ∈ calls, P call) (hmessages : ∀ message ∈ messages, ∀ part ∈ message.2, P part)
    (hreply : ∀ part written, P part → write part = some written → reply' written → reply part)
    (hanswers : ∀ part call written, P part → P call → answers part call → write part = some written →
      ∃ written_call, write call = some written_call ∧ answers' written written_call)
    (h : Following caller reply answers calls replied messages) :
    Following caller' reply' answers' (calls.filterMap write) replied
      (messages.map fun message => (name message.1, message.2.filterMap write)) := by
  induction messages generalizing calls replied with
  | nil => trivial
  | cons message messages ih =>
    obtain ⟨role, said⟩ := message
    obtain ⟨hrole, hname⟩ := List.forall_mem_cons.mp hname
    obtain ⟨hsaid, hmessages⟩ := List.forall_mem_cons.mp hmessages
    rw [Following] at h
    rw [List.map_cons, Following]
    dsimp only at hrole hsaid ⊢
    by_cases hcaller : role = caller
    · rw [if_pos hcaller] at h
      rw [if_pos (hrole.mpr hcaller)]
      constructor
      · intro written hwritten hreply'
        obtain ⟨part, hpart, hwrite⟩ := List.mem_filterMap.mp hwritten
        exact h.1 part hpart (hreply part written (hsaid part hpart) hwrite hreply')
      · have hnext : (if replied then said.filterMap write else calls.filterMap write ++ said.filterMap write) =
            (if replied then said else calls ++ said).filterMap write := by
          split
          · rfl
          · exact List.filterMap_append.symm
        rw [hnext]
        refine ih hname ?_ hmessages h.2
        split
        · exact hsaid
        · exact fun call hcall => (List.mem_append.mp hcall).elim (hcalls call) (hsaid call)
    · rw [if_neg hcaller] at h
      rw [if_neg (mt hrole.mp hcaller)]
      refine ⟨?_, ih hname hcalls hmessages h.2⟩
      intro written hwritten hreply'
      obtain ⟨part, hpart, hwrite⟩ := List.mem_filterMap.mp hwritten
      obtain ⟨call, hcall, hanswer⟩ := h.1 part hpart (hreply part written (hsaid part hpart) hwrite hreply')
      obtain ⟨written_call, hwritten_call, hanswer'⟩ :=
        hanswers part call written (hsaid part hpart) (hcalls call hcall) hanswer hwrite
      exact ⟨written_call, List.mem_filterMap.mpr ⟨call, hcall, hwritten_call⟩, hanswer'⟩

end Replies

section Marks

variable {marks rest : List (Option α)}

/-- The names of some marks come first exactly if no mark without one stands
    before a mark with one. -/
theorem names_first_iff :
    (∃ (names : List α) (later : List (Option α)), marks ++ rest = names.map some ++ later ∧ names.Perm (marks.filterMap id)) ↔
      marks.Pairwise fun mark later => mark = none → later = none := by
  constructor
  · rintro ⟨names, later, heq, hperm⟩
    have hlength : (names.map some).length ≤ marks.length := by
      rw [List.length_map, hperm.length_eq]
      exact List.length_filterMap_le id marks
    obtain ⟨others, rfl⟩ := List.prefix_of_prefix_length_le ⟨later, heq.symm⟩ ⟨rest, rfl⟩ hlength
    have hothers : others.filterMap id = [] := by
      have hcount := hperm.length_eq
      rw [List.filterMap_append, List.filterMap_map, List.length_append] at hcount
      simp only [Function.id_comp, List.filterMap_some] at hcount
      exact List.eq_nil_of_length_eq_zero (by omega)
    have hnone : ∀ mark ∈ others, mark = none := List.filterMap_eq_nil_iff.mp hothers
    refine List.pairwise_append.mpr ⟨?_, ?_, fun _ _ later hlater _ => hnone later hlater⟩
    · exact List.pairwise_map.mpr (List.pairwise_of_forall fun _ _ h => by cases h)
    · exact List.pairwise_of_forall_mem_list fun _ _ later hlater _ => hnone later hlater
  · intro h
    refine ⟨marks.filterMap id, ?_⟩
    suffices hsplit : ∃ others, marks = (marks.filterMap id).map some ++ others by
      obtain ⟨others, hothers⟩ := hsplit
      exact ⟨others ++ rest, by rw [← List.append_assoc, ← hothers], .refl _⟩
    induction h with
    | nil => exact ⟨[], rfl⟩
    | @cons mark marks hmark _ ih =>
      cases mark with
      | some name =>
        obtain ⟨others, hothers⟩ := ih
        exact ⟨others, congrArg (some name :: ·) hothers⟩
      | none =>
        have hnone : marks.filterMap id = [] := List.filterMap_eq_nil_iff.mpr fun later hlater => hmark later hlater rfl
        exact ⟨none :: marks, by rw [List.filterMap_cons_none rfl, hnone]; rfl⟩

end Marks

end refract.machine
