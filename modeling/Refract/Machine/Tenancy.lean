import Refract.Machine.Program

namespace refract.machine

theorem Interleaving.meets_of_mem {σ ω χ ε : Type} {system : Interleaving σ ω χ ε} {condition : World σ ω → Move ω χ ε → Prop}
    {world : World σ ω} {moves : List (Move ω χ ε)} (hall : ∀ world, ∀ move ∈ moves, condition world move) :
    system.Meets condition world moves := by
  induction moves generalizing world with
  | nil => trivial
  | cons move moves ih => exact ⟨hall world move (.head _), ih fun world later hlater => hall world later (.tail _ hlater)⟩

section Issues

variable {σ S : Type} {R : S → Type} {ε α β ρ : Type} (execute : Executor σ S R ε) (later : σ → σ → Prop) (may : σ → S → Prop)

/-- Whatever has become of the shared state meanwhile, a program issues nothing but
    what may be issued there. -/
def Program.Issues : Program S R ε α → σ → Prop
  | .done _, _ => True
  | .issue statement next, shared =>
    ∀ now, later shared now →
      may now statement ∧ ∀ reply after, execute now statement = .ok (reply, after) → (next reply).Issues after

def Course.Issues (handle : ρ → Program S R ε α) (shared : σ) : Course ρ S R ε α → Prop
  | .arrived request => (handle request).Issues execute later may shared
  | .running program => program.Issues execute later may shared

variable {execute later may} {program : Program S R ε α} {rest : α → Program S R ε β} {shared now : σ} {statement : S}

@[simp] theorem Program.issues_pure (a : α) : (pure a : Program S R ε α).Issues execute later may shared := trivial

@[simp] theorem Program.issues_check (result : Except ε α) : (check result : Program S R ε α).Issues execute later may shared := trivial

theorem Program.issues_call_bind {rest : R statement → Program S R ε β} :
    (call statement >>= rest).Issues execute later may shared ↔
      ∀ now, later shared now → may now statement ∧
        ∀ reply after, execute now statement = .ok (reply, after) → (rest reply).Issues execute later may after := Iff.rfl

theorem Program.issues_check_bind {result : Except ε α} (hrest : ∀ a, result = .ok a → (rest a).Issues execute later may shared) :
    (check result >>= rest).Issues execute later may shared := by
  cases result with
  | error error => trivial
  | ok a => exact hrest a rfl

theorem Program.Issues.onward (htrans : ∀ {first second third}, later first second → later second third → later first third)
    (hissues : program.Issues execute later may shared) (hlater : later shared now) : program.Issues execute later may now := by
  cases program with
  | done => trivial
  | issue statement next => exact fun last hlast => hissues last (htrans hlater hlast)

theorem Program.Issues.imp {must : σ → S → Prop} (himp : ∀ shared statement, may shared statement → must shared statement)
    (hissues : program.Issues execute later may shared) : program.Issues execute later must shared := by
  induction program generalizing shared with
  | done => trivial
  | issue statement next ih =>
    intro now hlater
    obtain ⟨hmay, hrest⟩ := hissues now hlater
    exact ⟨himp now statement hmay, fun reply after hok => ih reply (hrest reply after hok)⟩

end Issues

/-- What one of many sees of a world: its part of the state, and its own operations. -/
def World.seen {σ τ ω : Type} (view : σ → τ) (mine : Nat → Prop) [DecidablePred mine] (world : World σ ω) : World τ ω where
  shared := view world.shared
  pending id := if mine id then world.pending id else none

/-- A move as it is seen by one of many. Its own operations take the same steps, unless one
    clashes with what the others have, and the steps of the others are at most something
    that happens. -/
inductive Echo {ω χ ε δ : Type} (mine clashing : Nat → Prop) : Move ω χ ε → List (Move ω χ δ) → Prop
  | begun {id : Nat} {operation : ω} (hmine : mine id) : Echo mine clashing (.begin id operation) [.begin id operation]
  | advanced {id : Nat} {choice : χ} (hmine : mine id) : Echo mine clashing (.advance id choice) [.advance id choice]
  | clashed {id : Nat} {choice met : χ} (hmine : mine id) (hclashing : clashing id) :
    Echo mine clashing (.advance id choice) [.advance id met]
  | unseen {id : Nat} {operation : ω} (hother : ¬mine id) : Echo mine clashing (.begin id operation) []
  | still {id : Nat} {choice : χ} (hother : ¬mine id) : Echo mine clashing (.advance id choice) []
  | felt {id : Nat} {choice : χ} {event : δ} (hother : ¬mine id) : Echo mine clashing (.advance id choice) [.happen event]
  | happened {event : ε} {felt : δ} : Echo mine clashing (.happen event) [.happen felt]

section Tenancy

variable {σ τ S : Type} {R : S → Type} {ρ ε α χ δ : Type}

/-- A store that many share, and a store of the same kind that one has alone. What may be
    issued by the one is answered alike by both, and what the others do is felt in its own
    store only as something that happens there. -/
structure Tenancy (execute : Executor σ S R ε) (own : Executor τ S R ε) (happen : σ → χ → σ) (own_happen : τ → δ → τ)
    (view : σ → τ) (later : σ → σ → Prop) (sound : σ → Prop) (may others : σ → S → Prop) (clash : S → Prop) : Prop where
  refl : ∀ {shared}, sound shared → later shared shared
  trans : ∀ {first second third}, later first second → later second third → later first third
  goes_on : ∀ {shared statement reply after}, sound shared → execute shared statement = .ok (reply, after) →
    sound after ∧ later shared after
  served : ∀ {shared statement reply after}, sound shared → may shared statement →
    execute shared statement = .ok (reply, after) → own (view shared) statement = .ok (reply, view after)
  refused : ∀ {shared statement error}, sound shared → may shared statement → execute shared statement = .error error →
    own (view shared) statement = .error error ∨ clash statement
  apart : ∀ {shared statement reply after}, sound shared → others shared statement →
    execute shared statement = .ok (reply, after) → ∃ event, own_happen (view shared) event = view after
  happens : ∀ {shared} event, sound shared →
    sound (happen shared event) ∧ later shared (happen shared event) ∧
      ∃ felt, own_happen (view shared) felt = view (happen shared event)

variable {execute : Executor σ S R ε} {own : Executor τ S R ε} {happen : σ → χ → σ} {own_happen : τ → δ → τ} {view : σ → τ}
  {later : σ → σ → Prop} {sound : σ → Prop} {may others : σ → S → Prop} {clash : S → Prop} (handle : ρ → Program S R ε α)
  (mine clashing : Nat → Prop) [DecidablePred mine]

/-- What an operation of the one may issue. -/
def MayAs (may : σ → S → Prop) (clash : S → Prop) (clashing : Nat → Prop) (id : Nat) (shared : σ) (statement : S) : Prop :=
  may shared statement ∧ (clash statement → clashing id)

/-- Operations are in a world only if they issue what those may that they are from. -/
structure Placed (execute : Executor σ S R ε) (later : σ → σ → Prop) (sound : σ → Prop) (may others : σ → S → Prop) (clash : S → Prop)
    (world : World σ (Course ρ S R ε α)) : Prop where
  sound : sound world.shared
  own : ∀ id course, mine id → world.pending id = some course →
    course.Issues execute later (MayAs may clash clashing id) handle world.shared
  foreign : ∀ id course, ¬mine id → world.pending id = some course → course.Issues execute later others handle world.shared

/-- What is asked for issues what the one may that asks. -/
def Begins (execute : Executor σ S R ε) (later : σ → σ → Prop) (may others : σ → S → Prop) (clash : S → Prop)
    (world : World σ (Course ρ S R ε α)) : Move (Course ρ S R ε α) (Option ε) χ → Prop
  | .begin id (.arrived request) =>
    (mine id → (handle request).Issues execute later (MayAs may clash clashing id) world.shared) ∧
      (¬mine id → (handle request).Issues execute later others world.shared)
  | _ => True

variable {handle mine clashing} {world : World σ (Course ρ S R ε α)}

theorem Course.Issues.onward {kind : σ → S → Prop} {course : Course ρ S R ε α} {shared now : σ}
    (htrans : ∀ {first second third}, later first second → later second third → later first third)
    (hissues : course.Issues execute later kind handle shared) (hlater : later shared now) :
    course.Issues execute later kind handle now := by
  cases course with
  | arrived request => exact Program.Issues.onward htrans hissues hlater
  | running program => exact Program.Issues.onward htrans hissues hlater

/-- A step of an operation is a statement that it may issue, or leaves the state alone. -/
theorem Course.Issues.advance {kind : σ → S → Prop} {course : Course ρ S R ε α} {shared : σ} (hrefl : later shared shared)
    (hissues : course.Issues execute later kind handle shared) (fault : Option ε) :
    ((course.advance handle execute shared fault).1 = shared ∧
      ∀ next, (course.advance handle execute shared fault).2 = some next → next.Issues execute later kind handle shared) ∨
    ∃ statement next reply after, course = .running (.issue statement next) ∧ fault = none ∧ kind shared statement ∧
      execute shared statement = .ok (reply, after) ∧
      course.advance handle execute shared fault = (after, some (.running (next reply))) ∧
      (next reply).Issues execute later kind after := by
  rcases course with request | (result | ⟨statement, next⟩)
  · refine .inl ⟨rfl, fun next hnext => ?_⟩
    obtain rfl := Option.some.inj hnext
    exact hissues
  · exact .inl ⟨rfl, fun next hnext => by cases hnext⟩
  · cases fault with
    | some error => exact .inl ⟨rfl, fun next hnext => by cases hnext⟩
    | none =>
      obtain ⟨hkind, hrest⟩ := hissues shared hrefl
      cases hresult : execute shared statement with
      | error error =>
        left
        simp only [Course.advance, hresult]
        exact ⟨trivial, fun next hnext => by cases hnext⟩
      | ok pair =>
        obtain ⟨reply, after⟩ := pair
        exact .inr ⟨statement, next, reply, after, rfl, rfl, hkind, hresult, by simp only [Course.advance, hresult],
          hrest reply after hresult⟩

theorem seen_set_mine {ω : Type} {world : World σ ω} {id : Nat} (hmine : mine id) (shared : σ) (next : Option ω) :
    (world.set id shared next).seen view mine = (world.seen view mine).set id (view shared) next := by
  simp only [World.seen, World.set, World.mk.injEq, true_and]
  funext other
  by_cases hother : other = id
  · subst hother
    rw [Function.update_self, Function.update_self, if_pos hmine]
  · rw [Function.update_of_ne hother, Function.update_of_ne hother]

theorem seen_set_other {ω : Type} {world : World σ ω} {id : Nat} (hother : ¬mine id) (shared : σ) (next : Option ω) :
    (world.set id shared next).seen view mine = { world.seen view mine with shared := view shared } := by
  simp only [World.seen, World.set, World.mk.injEq, true_and]
  funext other
  by_cases hid : other = id
  · subst hid
    rw [if_neg hother, if_neg hother]
  · rw [Function.update_of_ne hid]

variable (tenancy : Tenancy execute own happen own_happen view later sound may others clash)

include tenancy in
theorem Tenancy.placed_step (hplaced : Placed handle mine clashing execute later sound may others clash world)
    (move : Move (Course ρ S R ε α) (Option ε) χ) (hbegins : Begins handle mine clashing execute later may others clash world move) :
    Placed handle mine clashing execute later sound may others clash ((courses handle execute happen).step world move) := by
  have honward : ∀ {kind : σ → S → Prop} {course : Course ρ S R ε α} {now : σ}, course.Issues execute later kind handle world.shared →
      later world.shared now → course.Issues execute later kind handle now := fun hissues => hissues.onward tenancy.trans
  rcases (courses handle execute happen).step_cases world move with
    hsame | ⟨id, course, rfl, -, hopens, hstep⟩ | ⟨id, course, fault, rfl, hpending, hstep⟩ | ⟨event, rfl, hstep⟩
  · rw [hsame]
    exact hplaced
  · rw [hstep]
    obtain ⟨request, rfl⟩ : ∃ request, course = .arrived request := by
      cases course with
      | arrived request => exact ⟨request, rfl⟩
      | running program => cases hopens
    refine ⟨hplaced.sound, fun other begun hmine hother => ?_, fun other begun hmine hother => ?_⟩
    · rcases World.set_pending_cases hother with ⟨rfl, hnext⟩ | ⟨-, hother⟩
      · obtain rfl := Option.some.inj hnext
        exact hbegins.1 hmine
      · exact hplaced.own other begun hmine hother
    · rcases World.set_pending_cases hother with ⟨rfl, hnext⟩ | ⟨-, hother⟩
      · obtain rfl := Option.some.inj hnext
        exact hbegins.2 hmine
      · exact hplaced.foreign other begun hmine hother
  · rw [hstep]
    -- Both kinds of operations step alike: what is issued keeps the state sound, and later.
    have hadvance : ∀ kind, course.Issues execute later kind handle world.shared →
        (sound (course.advance handle execute world.shared fault).1 ∧
          later world.shared (course.advance handle execute world.shared fault).1) ∧
        ∀ next, (course.advance handle execute world.shared fault).2 = some next →
          next.Issues execute later kind handle (course.advance handle execute world.shared fault).1 := by
      intro kind hissues
      rcases hissues.advance (tenancy.refl hplaced.sound) fault with
        ⟨hsame, hnext⟩ | ⟨statement, next, reply, after, rfl, rfl, -, hok, hadvance, hrest⟩
      · rw [hsame]
        exact ⟨⟨hplaced.sound, tenancy.refl hplaced.sound⟩, hnext⟩
      · rw [hadvance]
        refine ⟨tenancy.goes_on hplaced.sound hok, fun last hlast => ?_⟩
        obtain rfl := Option.some.inj hlast
        exact hrest
    have hgoes : sound (course.advance handle execute world.shared fault).1 ∧
        later world.shared (course.advance handle execute world.shared fault).1 := by
      by_cases hmine : mine id
      · exact (hadvance _ (hplaced.own id course hmine hpending)).1
      · exact (hadvance others (hplaced.foreign id course hmine hpending)).1
    refine ⟨hgoes.1, fun other begun hmine hother => ?_, fun other begun hmine hother => ?_⟩
    · rcases World.set_pending_cases hother with ⟨rfl, hnext⟩ | ⟨-, hother⟩
      · exact (hadvance _ (hplaced.own other course hmine hpending)).2 begun hnext
      · exact honward (hplaced.own other begun hmine hother) hgoes.2
    · rcases World.set_pending_cases hother with ⟨rfl, hnext⟩ | ⟨-, hother⟩
      · exact (hadvance others (hplaced.foreign other course hmine hpending)).2 begun hnext
      · exact honward (hplaced.foreign other begun hmine hother) hgoes.2
  · rw [hstep]
    obtain ⟨hsound, hlater, -⟩ := tenancy.happens event hplaced.sound
    exact ⟨hsound, fun id course hmine hpending => honward (hplaced.own id course hmine hpending) hlater,
      fun id course hmine hpending => honward (hplaced.foreign id course hmine hpending) hlater⟩

include tenancy in
/-- One move in the shared store is one in the own store, or is not seen there. -/
theorem Tenancy.seen_step (hplaced : Placed handle mine clashing execute later sound may others clash world)
    (move : Move (Course ρ S R ε α) (Option ε) χ) :
    ∃ seen, Echo mine clashing move seen ∧ (courses handle own own_happen).run (world.seen view mine) seen =
      ((courses handle execute happen).step world move).seen view mine := by
  cases move with
  | happen event =>
    obtain ⟨-, -, felt, hfelt⟩ := tenancy.happens event hplaced.sound
    refine ⟨[.happen felt], .happened, ?_⟩
    change { world.seen view mine with shared := own_happen (view world.shared) felt } = _
    rw [hfelt]
    rfl
  | begin id course =>
    by_cases hmine : mine id
    · refine ⟨[.begin id course], .begun hmine, ?_⟩
      have hpending : (world.seen view mine).pending id = world.pending id := if_pos hmine
      by_cases hopens : world.pending id = none ∧ (courses handle execute happen).opens course
      · have hown : (world.seen view mine).pending id = none ∧ (courses handle own own_happen).opens course := ⟨hpending.trans hopens.1, hopens.2⟩
        rw [Interleaving.run_cons, Interleaving.run_nil, show (courses handle execute happen).step world (.begin id course) = _ from if_pos hopens,
          seen_set_mine hmine]
        exact if_pos hown
      · have hown : ¬((world.seen view mine).pending id = none ∧ (courses handle own own_happen).opens course) := by
          rw [hpending]
          exact hopens
        rw [Interleaving.run_cons, Interleaving.run_nil, Interleaving.step_begin_of_not hopens, Interleaving.step_begin_of_not hown]
    · refine ⟨[], .unseen hmine, ?_⟩
      rw [Interleaving.run_nil]
      by_cases hopens : world.pending id = none ∧ (courses handle execute happen).opens course
      · rw [show (courses handle execute happen).step world (.begin id course) = _ from if_pos hopens, seen_set_other hmine]
        rfl
      · rw [Interleaving.step_begin_of_not hopens]
  | advance id fault =>
    cases hpending : world.pending id with
    | none =>
      have hstays : (courses handle execute happen).step world (.advance id fault) = world := by
        simp only [Interleaving.step, hpending]
      rw [hstays]
      by_cases hmine : mine id
      · have hidle : (world.seen view mine).pending id = none := (if_pos hmine).trans hpending
        refine ⟨[.advance id fault], .advanced hmine, ?_⟩
        simp only [Interleaving.run_cons, Interleaving.run_nil, Interleaving.step, hidle]
      · exact ⟨[], .still hmine, rfl⟩
    | some course =>
      rw [Interleaving.step_advance hpending]
      by_cases hmine : mine id
      · have hown : (world.seen view mine).pending id = some course := (if_pos hmine).trans hpending
        -- A clash that the shared store refuses ends the operation here by a fault.
        have hmet : ∃ met, (met = fault ∨ clashing id) ∧ course.advance handle own (view world.shared) met =
            (view (course.advance handle execute world.shared fault).1, (course.advance handle execute world.shared fault).2) := by
          have hissues := hplaced.own id course hmine hpending
          rcases course with request | (result | ⟨statement, next⟩)
          · exact ⟨fault, .inl rfl, rfl⟩
          · exact ⟨fault, .inl rfl, rfl⟩
          · cases fault with
            | some error => exact ⟨some error, .inl rfl, rfl⟩
            | none =>
              obtain ⟨⟨hmay, hclashing⟩, -⟩ := hissues world.shared (tenancy.refl hplaced.sound)
              cases hresult : execute world.shared statement with
              | error error =>
                rcases tenancy.refused hplaced.sound hmay hresult with hown | hclash
                · exact ⟨none, .inl rfl, by simp only [Course.advance, hresult, hown]⟩
                · exact ⟨some error, .inr (hclashing hclash), by simp only [Course.advance, hresult]⟩
              | ok pair =>
                obtain ⟨reply, after⟩ := pair
                exact ⟨none, .inl rfl, by simp only [Course.advance, hresult, tenancy.served hplaced.sound hmay hresult]⟩
        obtain ⟨met, hsame, hmet⟩ := hmet
        have hecho : Echo mine clashing (.advance id fault : Move (Course ρ S R ε α) (Option ε) χ)
            [(.advance id met : Move (Course ρ S R ε α) (Option ε) δ)] := by
          rcases hsame with rfl | hclashing
          · exact .advanced hmine
          · exact .clashed hmine hclashing
        refine ⟨[.advance id met], hecho, ?_⟩
        rw [Interleaving.run_cons, Interleaving.run_nil, Interleaving.step_advance hown]
        exact (seen_set_mine hmine _ _).symm ▸ congrArg (fun result => (world.seen view mine).set id result.1 result.2) hmet
      · have hissues := hplaced.foreign id course hmine hpending
        rcases hissues.advance (tenancy.refl hplaced.sound) fault with ⟨hsame, -⟩ | ⟨statement, next, reply, after, -, -, hother, hok, hadvance, -⟩
        · refine ⟨[], .still hmine, ?_⟩
          rw [seen_set_other hmine]
          exact congrArg (fun shared => { world.seen view mine with shared := view shared }) hsame.symm
        · obtain ⟨felt, hfelt⟩ := tenancy.apart hplaced.sound hother hok
          refine ⟨[.happen felt], .felt hmine, ?_⟩
          rw [seen_set_other hmine]
          refine congrArg (fun shared => { world.seen view mine with shared }) (hfelt.trans ?_)
          exact congrArg (fun result => view result.1) hadvance.symm

include tenancy in
/-- A run of all operations on the shared store is, for one of many, a run of its own
    operations on a store of its own. -/
theorem Tenancy.seen_run (hplaced : Placed handle mine clashing execute later sound may others clash world)
    {moves : List (Move (Course ρ S R ε α) (Option ε) χ)}
    (hbegins : (courses handle execute happen).Meets (Begins handle mine clashing execute later may others clash) world moves) :
    ∃ seen, List.Forall₂ (Echo mine clashing) moves seen ∧ (courses handle own own_happen).run (world.seen view mine) seen.flatten =
      ((courses handle execute happen).run world moves).seen view mine := by
  induction moves generalizing world with
  | nil => exact ⟨[], .nil, rfl⟩
  | cons move moves ih =>
    obtain ⟨first, hecho, hfirst⟩ := tenancy.seen_step hplaced move
    obtain ⟨rest, hechoes, hrest⟩ := ih (tenancy.placed_step hplaced move hbegins.1) hbegins.2
    refine ⟨first :: rest, .cons hecho hechoes, ?_⟩
    rw [List.flatten_cons, Interleaving.run_append, hfirst, hrest, Interleaving.run_cons]

end Tenancy

end refract.machine
