import Refract.Gateway.Session

open refract.machine refract.router refract.store refract.upstream

namespace refract.gateway

namespace UserChange

variable {second : Nat} {user : CachedUser} {change : UserChange}

/-- Nothing but a revocation dates the sessions of a user. -/
theorem apply_revoked_at (hchange : change ≠ .revoke_sessions) :
    (change.apply second user).session_revoked_at = user.session_revoked_at := by
  cases change with
  | set_role => rfl
  | set_status => rfl
  | mark_email_verified =>
    simp only [apply]
    split
    · rfl
    · rfl
  | revoke_sessions => exact absurd rfl hchange

end UserChange

/-- A ticket is turned away by a revocation in its second or later. -/
theorem CachedUser.rejects_iff {user : CachedUser} {ticket : Ticket} :
    user.rejects ticket = true ↔ ∃ second, user.session_revoked_at = some second ∧ ticket.iat ≤ second := by
  cases hrevoked : user.session_revoked_at <;> simp [CachedUser.rejects, hrevoked]

namespace Registry

/-- A row that was read once turns away the tickets that were issued before the
    revocations that it knows of, and no others. -/
structure Kept (registry : Registry) (user_id : Int) (user : Stamped CachedUser) : Prop where
  stamp_le : user.stamp ≤ registry.revocations user_id
  rejects : ∀ t ∈ registry.issued, t.value.user_id = user_id → (user.value.rejects t.value = true ↔ t.stamp < user.stamp)
  /-- The stored row is not dated before it. -/
  dated : ∀ second, user.value.session_revoked_at = some second →
    ∃ row last, registry.users user_id = some row ∧ row.session_revoked_at = some last ∧ second ≤ last

/-- What is stored is not dated after a second. -/
structure Dated (registry : Registry) (now : Nat) : Prop where
  users : ∀ user_id row second, registry.users user_id = some row → row.session_revoked_at = some second → second ≤ now
  issued : ∀ t ∈ registry.issued, t.stamp ≤ registry.revocations t.value.user_id ∧ t.value.iat ≤ now
  read : ∀ user_id user, registry.read user_id = some user → registry.Kept user_id user
  unknown : ∀ user_id, registry.users user_id = none → registry.revocations user_id = 0

variable {self : Registry} {now : Nat} {user_id other : Int} {user : CachedUser} {reading : Stamped CachedUser}

theorem Dated.mono (hdated : self.Dated now) {later : Nat} (hlater : now ≤ later) : self.Dated later where
  users id row second hrow hsecond := (hdated.users id row second hrow hsecond).trans hlater
  issued t ht := ⟨(hdated.issued t ht).1, (hdated.issued t ht).2.trans hlater⟩
  read := hdated.read
  unknown := hdated.unknown

/-- The row of a user is read with the revocations there were. -/
theorem read_eq_some_iff : self.read user_id = some reading ↔
    self.users user_id = some reading.value ∧ reading.stamp = self.revocations user_id := by
  obtain ⟨value, stamp⟩ := reading
  simp [read, eq_comm]

section Issue

variable (hsecond : ∀ row second, self.users user_id = some row → row.session_revoked_at = some second → second < now)

include hsecond

/-- A new ticket comes after all revocations, and after their seconds. -/
theorem Kept.issue (hkept : self.Kept other reading) : (self.create_user_session_ticket now user_id).Kept other reading where
  stamp_le := hkept.stamp_le
  rejects t ht huser := by
    rcases List.mem_append.mp ht with hold | hnew
    · exact hkept.rejects t hold huser
    · obtain rfl := List.mem_singleton.mp hnew
      obtain rfl : user_id = other := huser
      refine iff_of_false (fun hrejects => ?_) hkept.stamp_le.not_gt
      obtain ⟨second, hrevoked, hle⟩ := CachedUser.rejects_iff.mp hrejects
      obtain ⟨row, last, hrow, hlast, hdated⟩ := hkept.dated second hrevoked
      exact absurd (hsecond row last hrow hlast) (hle.trans hdated).not_gt
  dated := hkept.dated

theorem Dated.issue (hdated : self.Dated now) : (self.create_user_session_ticket now user_id).Dated now where
  users := hdated.users
  issued t ht := by
    rcases List.mem_append.mp ht with hold | hnew
    · exact hdated.issued t hold
    · obtain rfl := List.mem_singleton.mp hnew
      exact ⟨le_rfl, le_rfl⟩
  read other reading hread := (hdated.read other reading hread).issue hsecond
  unknown := hdated.unknown

end Issue

section Register

variable (hnew : self.users user_id = none) (hrevoked : user.session_revoked_at = none)

include hnew

theorem Kept.register (hkept : self.Kept other reading) : (self.register user_id user).Kept other reading where
  stamp_le := hkept.stamp_le
  rejects := hkept.rejects
  dated second hsecond := by
    obtain ⟨row, last, hrow, hlast, hle⟩ := hkept.dated second hsecond
    have hother : other ≠ user_id := by
      rintro rfl
      cases hnew.symm.trans hrow
    exact ⟨row, last, by rwa [users_register, if_neg hother], hlast, hle⟩

include hrevoked

/-- The sessions of a new user were never revoked. -/
theorem Dated.register (hdated : self.Dated now) : (self.register user_id user).Dated now where
  users other row second hrow hsecond := by
    rw [users_register] at hrow
    split at hrow
    · obtain rfl := Option.some.inj hrow
      cases hrevoked.symm.trans hsecond
    · exact hdated.users other row second hrow hsecond
  issued := hdated.issued
  read other reading hread := by
    obtain ⟨hrow, hstamp⟩ := read_eq_some_iff.mp hread
    rw [users_register] at hrow
    split at hrow
    next hother =>
      have hvalue : user = reading.value := Option.some.inj hrow
      have hstamp : reading.stamp = 0 := hstamp.trans (hdated.unknown other (hother ▸ hnew))
      refine ⟨hstamp ▸ Nat.zero_le _, fun t _ _ => iff_of_false (fun hrejects => ?_) (hstamp ▸ Nat.not_lt_zero _),
        fun second hsecond => ?_⟩
      · obtain ⟨second, hsecond, -⟩ := CachedUser.rejects_iff.mp hrejects
        cases hrevoked.symm.trans (hvalue ▸ hsecond)
      · cases hrevoked.symm.trans (hvalue ▸ hsecond)
    next => exact (hdated.read other reading (read_eq_some_iff.mpr ⟨hrow, hstamp⟩)).register hnew
  unknown other hnone := by
    rw [users_register] at hnone
    split at hnone
    · cases hnone
    · exact hdated.unknown other hnone

end Register

section Write

variable {change : UserChange} (hdated : self.Dated now) (huser : self.users user_id = some user)

include hdated huser

/-- A change of a user dates the row by now, or not anew. -/
theorem Kept.write (hkept : self.Kept other reading) : (self.write now user_id user change).Kept other reading where
  stamp_le := hkept.stamp_le.trans (by simp)
  rejects := hkept.rejects
  dated second hsecond := by
    obtain ⟨row, last, hrow, hlast, hle⟩ := hkept.dated second hsecond
    by_cases hother : other = user_id
    · obtain rfl := Option.some.inj (huser.symm.trans (hother ▸ hrow))
      refine ⟨change.apply now user, ?_⟩
      by_cases hchange : change = .revoke_sessions
      · exact ⟨now, by rw [users_write, if_pos hother], by rw [hchange, UserChange.apply],
          hle.trans (hdated.users user_id user last huser hlast)⟩
      · exact ⟨last, by rw [users_write, if_pos hother], by rw [UserChange.apply_revoked_at hchange, hlast], hle⟩
    · exact ⟨row, last, by rwa [users_write, if_neg hother], hlast, hle⟩

/-- A revocation turns away the tickets that were issued before. -/
theorem Dated.read_write (hread : (self.write now user_id user change).read user_id = some reading) :
    (self.write now user_id user change).Kept user_id reading := by
  obtain ⟨hrow, hstamp⟩ := read_eq_some_iff.mp hread
  rw [users_write, if_pos rfl] at hrow
  have hvalue : change.apply now user = reading.value := Option.some.inj hrow
  refine ⟨hstamp.le, fun t ht hid => ?_, fun second hsecond => ⟨reading.value, second, ?_, hsecond, le_rfl⟩⟩
  · rw [hstamp, revocations_write, ← hvalue, CachedUser.rejects_iff]
    have hissued := hdated.issued t ht
    by_cases hchange : change = .revoke_sessions
    · subst hchange
      refine iff_of_true ⟨now, rfl, hissued.2⟩ ?_
      rw [if_pos ⟨rfl, rfl⟩]
      exact Nat.lt_succ_of_le (hid ▸ hissued.1)
    · have hbefore := (hdated.read user_id ⟨user, self.revocations user_id⟩ (read_eq_some_iff.mpr ⟨huser, rfl⟩)).rejects t ht hid
      rw [UserChange.apply_revoked_at hchange, if_neg fun h => hchange h.1, Nat.add_zero]
      exact CachedUser.rejects_iff.symm.trans hbefore
  · rw [users_write, if_pos rfl, hvalue]

theorem Dated.write : (self.write now user_id user change).Dated now where
  users other row second hrow hsecond := by
    rw [users_write] at hrow
    split at hrow
    · obtain rfl := Option.some.inj hrow
      by_cases hchange : change = .revoke_sessions
      · subst hchange
        exact (Option.some.inj hsecond).ge
      · exact hdated.users user_id user second huser (UserChange.apply_revoked_at hchange ▸ hsecond)
    · exact hdated.users other row second hrow hsecond
  issued t ht := ⟨(hdated.issued t ht).1.trans (by simp), (hdated.issued t ht).2⟩
  read other reading hread := by
    by_cases hother : other = user_id
    · subst hother
      exact hdated.read_write huser hread
    · refine (hdated.read other reading (read_eq_some_iff.mpr ?_)).write hdated huser
      simpa [hother] using read_eq_some_iff.mp hread
  unknown other hnone := by
    rw [users_write] at hnone
    split at hnone
    · cases hnone
    next hother =>
      rw [revocations_write, if_neg fun h => hother h.2]
      exact hdated.unknown other hnone

end Write

end Registry

section Answers

variable {shared : Sessions} {ticket : Ticket}

theorem mem_issues {n : Nat} {verdict : Except Refusal AuthUser} :
    n ∈ (shared.answered ticket verdict).issues ↔ ∃ t ∈ shared.registry.issued, t.value = ticket ∧ t.stamp = n := by
  simp [Sessions.answered, and_assoc]

/-- An answer that does not blame the ticket and does not accept it. -/
theorem sound_of_not_blames {refusal : Refusal} (hblames : refusal.blames_ticket = false) :
    (shared.answered ticket (.error refusal)).Sound where
  revoked _ hverdict := nomatch hverdict
  accepted _ _ _ _ other hother := by
    obtain rfl := Except.error.inj hother
    exact hblames

/-- A ticket is invalid if it was not issued, or is expired. -/
theorem sound_of_invalid (hinvalid : shared.verify_session_ticket ticket = false) :
    (shared.answered ticket (.error .invalid_session)).Sound where
  revoked _ hverdict := nomatch hverdict
  accepted hexpired n hissue _ := by
    obtain ⟨t, ht, hticket, -⟩ := mem_issues.mp hissue
    have hvalid : shared.verify_session_ticket ticket = true := by
      have hunexpired : shared.second < ticket.expiry := not_le.mp (of_decide_eq_false hexpired)
      simpa [Sessions.verify_session_ticket, hunexpired] using ⟨t, ht, hticket⟩
    cases hinvalid.symm.trans hvalid

/-- A row judges well, if it was not read before a completed revocation. -/
theorem sound_of_judge {user : Stamped CachedUser} (hkept : shared.registry.Kept ticket.user_id user)
    (hknown : shared.known ticket.user_id ≤ user.stamp) : (shared.answered ticket (judge ticket user.value)).Sound where
  revoked accepted hverdict n hissue := by
    obtain ⟨t, ht, rfl, rfl⟩ := mem_issues.mp hissue
    have hrejects : user.value.rejects t.value ≠ true := by
      intro hrejects
      change judge t.value user.value = .ok accepted at hverdict
      rw [judge, if_pos hrejects] at hverdict
      cases hverdict
    exact hknown.trans (not_lt.mp (mt (hkept.rejects t ht rfl).mpr hrejects))
  accepted _ n hissue hlater refusal hverdict := by
    obtain ⟨t, ht, rfl, rfl⟩ := mem_issues.mp hissue
    have hrejects : user.value.rejects t.value ≠ true := fun hrejects =>
      ((hkept.rejects t ht rfl).mp hrejects).not_ge (hkept.stamp_le.trans hlater)
    change judge t.value user.value = .error refusal at hverdict
    rw [judge, if_neg hrejects] at hverdict
    split at hverdict
    · obtain rfl := Except.error.inj hverdict
      rfl
    · cases hverdict

end Answers

section Runs

/-- A row that is to be judged by was read once. -/
def SessionUse.Genuine (shared : Sessions) : SessionUse → Prop
  | .caching ticket user => shared.registry.Kept ticket.user_id user
  | _ => True

/-- All rows that are cached were read once, and none of them before a completed
    revocation. -/
def Sessions.Fresh (shared : Sessions) : Prop :=
  shared.user_cache.Forall fun user_id user => shared.registry.Kept user_id user ∧ shared.known user_id ≤ user.stamp

structure Sessions.Coherent (world : World Sessions SessionUse) : Prop where
  dated : world.shared.registry.Dated world.shared.second
  fresh : world.shared.Fresh
  answers : ∀ answer ∈ world.shared.answers, answer.Sound
  genuine : ∀ id use, world.pending id = some use → use.Genuine world.shared

namespace Sessions

variable {world : World Sessions SessionUse} {id : Nat} {after : Sessions} {next : Option SessionUse}

theorem Coherent.set (hcoherent : Coherent world)
    (hkept : ∀ user_id user, world.shared.registry.Kept user_id user → after.registry.Kept user_id user)
    (hdated : after.registry.Dated after.second) (hfresh : after.Fresh) (hanswers : ∀ answer ∈ after.answers, answer.Sound)
    (hnext : ∀ use, next = some use → use.Genuine after) : Coherent (world.set id after next) where
  dated := hdated
  fresh := hfresh
  answers := hanswers
  genuine other use hpending := by
    rcases World.set_pending_cases hpending with ⟨-, hsame⟩ | ⟨-, hother⟩
    · exact hnext use hsame
    · have hgenuine := hcoherent.genuine other use hother
      cases use with
      | caching ticket user => exact hkept _ _ hgenuine
      | _ => trivial

/-- Nothing changes but what is cached. -/
theorem Coherent.cache (hcoherent : Coherent world) {user_cache : TtlCache Int (Stamped CachedUser)}
    (hfresh : (world.shared.cache user_cache).Fresh) (hnext : ∀ use, next = some use → use.Genuine world.shared) :
    Coherent (world.set id (world.shared.cache user_cache) next) :=
  hcoherent.set (fun _ _ hkept => hkept) hcoherent.dated hfresh hcoherent.answers fun use huse => by
    have hgenuine := hnext use huse
    cases use with
    | caching => exact hgenuine
    | _ => trivial

/-- An answer is given, and nothing else changes but what is cached. -/
theorem Coherent.answer (hcoherent : Coherent world) {user_cache : TtlCache Int (Stamped CachedUser)} {ticket : Ticket}
    {verdict : Except Refusal AuthUser} (hfresh : (world.shared.cache user_cache).Fresh)
    (hsound : (world.shared.answered ticket verdict).Sound) :
    Coherent (world.set id ((world.shared.cache user_cache).answer ticket verdict) none) := by
  refine hcoherent.set (fun _ _ hkept => hkept) hcoherent.dated hfresh (fun answer hanswer => ?_) fun _ huse => nomatch huse
  rcases List.mem_append.mp hanswer with hold | hnew
  · exact hcoherent.answers answer hold
  · exact List.mem_singleton.mp hnew ▸ hsound

/-- The registry changes, and goes on keeping what was read. -/
theorem Coherent.enter (hcoherent : Coherent world) {registry : Registry}
    (hkept : ∀ user_id user, world.shared.registry.Kept user_id user → registry.Kept user_id user)
    (hdated : registry.Dated world.shared.second) (hnext : ∀ use, next = some use → use.Genuine (world.shared.enter registry)) :
    Coherent (world.set id (world.shared.enter registry) next) :=
  hcoherent.set hkept hdated (hcoherent.fresh.imp fun user_id user hcached => ⟨hkept user_id user hcached.1, hcached.2⟩)
    hcoherent.answers hnext

theorem Coherent.invalidate (hcoherent : Coherent world) (user_id : Int) (revocations : Nat)
    (hnext : ∀ use, next = some use → use.Genuine (world.shared.invalidate_user_cache user_id revocations)) :
    Coherent (world.set id (world.shared.invalidate_user_cache user_id revocations) next) := by
  refine hcoherent.set (fun _ _ hkept => hkept) hcoherent.dated ?_ hcoherent.answers hnext
  refine hcoherent.fresh.invalidate fun other user hother hcached => ⟨hcached.1, ?_⟩
  rw [known_invalidate_user_cache, if_neg hother]
  exact hcached.2

theorem Coherent.advance (hcoherent : Coherent world) {use : SessionUse} {fault : Bool} (hpending : world.pending id = some use)
    (hprudent : Prudent world (.advance id fault)) :
    Coherent (world.set id (use.advance world.shared fault).1 (use.advance world.shared fault).2) := by
  have hgenuine := hcoherent.genuine id use hpending
  simp only [Prudent, hpending] at hprudent
  have hsame {next : Option SessionUse} (hnext : ∀ use, next = some use → use.Genuine world.shared) :
      Coherent (world.set id world.shared next) := hcoherent.cache hcoherent.fresh hnext
  cases use with
  | arrived request =>
    refine hsame fun use huse => ?_
    obtain rfl := Option.some.inj huse
    cases request <;> trivial
  | checking ticket =>
    simp only [SessionUse.advance]
    split
    next hinvalid =>
      exact hcoherent.answer hcoherent.fresh (sound_of_invalid (Bool.not_eq_true' _ ▸ hinvalid))
    next =>
      split
      next user hfound =>
        have hcached := hcoherent.fresh.of_get hfound
        exact hcoherent.answer hcoherent.fresh.get (sound_of_judge hcached.1 hcached.2)
      next =>
        refine hcoherent.cache hcoherent.fresh.get fun use huse => ?_
        obtain rfl := Option.some.inj huse
        trivial
  | missed ticket =>
    simp only [SessionUse.advance]
    split
    · exact hcoherent.answer hcoherent.fresh (sound_of_not_blames rfl)
    · split
      next user hread =>
        refine hsame fun use huse => ?_
        obtain rfl := Option.some.inj huse
        exact hcoherent.dated.read _ _ hread
      next => exact hcoherent.answer hcoherent.fresh (sound_of_not_blames rfl)
  | caching ticket user =>
    refine hcoherent.answer ?_ (sound_of_judge hgenuine hprudent)
    exact hcoherent.fresh.insert (fun _ _ _ hcached => hcached) ⟨hgenuine, hprudent⟩
  | writing user_id changes revocations renews =>
    cases changes with
    | nil =>
      refine hcoherent.invalidate user_id revocations fun use huse => ?_
      cases renews with
      | false => cases huse
      | true =>
        obtain rfl := Option.some.inj huse
        trivial
    | cons change changes =>
      simp only [SessionUse.advance]
      split
      · exact hsame fun _ hnone => nomatch hnone
      · split
        next user huser =>
          refine hcoherent.enter (fun _ _ hkept => hkept.write hcoherent.dated huser) (hcoherent.dated.write huser)
            fun use huse => ?_
          obtain rfl := Option.some.inj huse
          trivial
        next => exact hsame fun _ hnone => nomatch hnone
  | issuing user_id =>
    exact hcoherent.enter (fun _ _ hkept => hkept.issue hprudent) (hcoherent.dated.issue hprudent) fun _ hnone => nomatch hnone

theorem Coherent.perform (hcoherent : Coherent world) (event : SessionEvent) :
    Coherent { world with shared := event.perform world.shared } := by
  cases event with
  | tick elapsed =>
    refine ⟨hcoherent.dated.mono (Nat.div_le_div_right (Nat.le_add_right _ _)), hcoherent.fresh, hcoherent.answers, ?_⟩
    intro id use hpending
    have hgenuine := hcoherent.genuine id use hpending
    cases use with
    | caching => exact hgenuine
    | _ => trivial
  | register user_id role status email =>
    simp only [SessionEvent.perform]
    split
    · exact hcoherent
    next hnew =>
      have hunknown : world.shared.registry.users user_id = none := by simpa using hnew
      refine ⟨hcoherent.dated.register hunknown rfl, hcoherent.fresh.imp fun id user hcached =>
        ⟨hcached.1.register hunknown, hcached.2⟩, hcoherent.answers, fun id use hpending => ?_⟩
      have hgenuine := hcoherent.genuine id use hpending
      cases use with
      | caching => exact hgenuine.register hunknown
      | _ => trivial

theorem Coherent.step (hcoherent : Coherent world) {move : Move SessionUse Bool SessionEvent} (hprudent : Prudent world move) :
    Coherent (session_uses.step world move) := by
  rcases session_uses.step_cases world move with
    hsame | ⟨id, use, rfl, -, hopens, hstep⟩ | ⟨id, use, fault, rfl, hpending, hstep⟩ | ⟨event, -, hstep⟩
  · rw [hsame]
    exact hcoherent
  · rw [hstep]
    refine hcoherent.cache hcoherent.fresh fun next hnext => ?_
    obtain rfl := Option.some.inj hnext
    cases use with
    | arrived => trivial
    | _ => cases hopens
  · rw [hstep]
    exact hcoherent.advance hpending hprudent
  · rw [hstep]
    exact hcoherent.perform event

end Sessions

end Runs

/-- Before any user has registered. -/
def Sessions.start (ttl : Nat) (now : Instant) : Sessions where
  registry := { users := fun _ => none }
  user_cache := { ttl }
  now := now

/-- Whatever operations overlap, every ticket is answered as the revocations of its
    user ask for. -/
theorem answers_sound (ttl : Nat) (now : Instant) (moves : List (Move SessionUse Bool SessionEvent))
    (hprudent : session_uses.Meets Prudent (.idle (.start ttl now)) moves) (answer : Answer)
    (hanswer : answer ∈ (session_uses.run (.idle (.start ttl now)) moves).shared.answers) : answer.Sound := by
  have hstart : Sessions.Coherent (.idle (.start ttl now)) := {
    dated := ⟨fun _ _ _ hrow => (nomatch hrow), fun _ ht => (nomatch ht), fun _ _ hread => (nomatch hread), fun _ _ => rfl⟩
    fresh := fun _ _ _ hentry => nomatch hentry
    answers := fun _ hnone => nomatch hnone
    genuine := fun _ _ hpending => nomatch hpending }
  exact (Interleaving.invariant_run Sessions.Coherent (fun _ _ hcoherent hprudent => hcoherent.step hprudent)
    hstart hprudent).answers answer hanswer

/-- A user registers and changes the password at once. -/
def changing : List (Move SessionUse Bool SessionEvent) :=
  [.happen (.register 1 .user .active "user@example.com"), .begin 0 (.arrived (.change_password 1)), .advance 0 false,
    .advance 0 false, .advance 0 false]

def renewed (second : Nat) : Ticket := { user_id := 1, iat := second, expiry := second + SESSION_MAX_AGE_SECS }

/-- The ticket is checked. -/
def checking (second : Nat) : List (Move SessionUse Bool SessionEvent) :=
  [.begin 1 (.arrived (.check (renewed second))), .advance 1 false, .advance 1 false, .advance 1 false, .advance 1 false]

/-- The new ticket is issued a second later. -/
def unhurried : List (Move SessionUse Bool SessionEvent) :=
  changing ++ .happen (.tick (Duration.from_secs 1)) :: .advance 0 false :: checking 1

/-- The new ticket is issued in the same second. -/
def hurried : List (Move SessionUse Bool SessionEvent) := changing ++ .advance 0 false :: checking 0

/-- The answer to the new ticket. -/
def welcomed : Answer where
  ticket := renewed 1
  verdict := .ok ⟨some 1, "user@example.com", .user, .active⟩
  issues := [1]
  expired := false
  known := 1
  revocations := 1

theorem unhurried_sound : welcomed.Sound :=
  answers_sound (Duration.from_secs 30) 0 unhurried
    ⟨trivial, trivial, trivial, trivial, trivial, trivial, fun user second huser hsecond => by
      obtain rfl := Option.some.inj huser
      obtain rfl := Option.some.inj hsecond
      decide, trivial, trivial, trivial, trivial, Nat.le_refl 1, trivial⟩ welcomed (.head _)

/-- The ticket that was issued for the new password is turned away as revoked. -/
theorem hurried_not_sound :
    ¬ ∀ answer ∈ (session_uses.run (.idle (.start (Duration.from_secs 30) 0)) hurried).shared.answers, answer.Sound := by
  intro hsound
  have hanswers : (session_uses.run (.idle (.start (Duration.from_secs 30) 0)) hurried).shared.answers =
      [{ ticket := renewed 0, verdict := .error .revoked, issues := [1], expired := false, known := 1, revocations := 1 }] := rfl
  rw [hanswers] at hsound
  cases (hsound _ (.head _)).accepted rfl 1 (.head _) le_rfl .revoked rfl

end refract.gateway
