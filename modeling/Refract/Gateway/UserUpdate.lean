import Refract.Gateway.Users

open refract.core refract.machine refract.store

namespace refract.gateway.users

section Rows

variable (users : Users) (id : Int) (change : User → User)

/-- The table with one row changed. -/
def Users.write : Users := { users with rows := users.rows.map fun user => if user.id = id then change user else user }

@[simp] theorem Users.user_cache_write : (users.write id change).user_cache = users.user_cache := rfl

@[simp] theorem Users.second_write : (users.write id change).second = users.second := rfl

@[simp] theorem Users.find_by_id_invalidate (other : Int) : (users.invalidate_user_cache id).find_by_id other = users.find_by_id other := rfl

@[simp] theorem Users.second_invalidate : (users.invalidate_user_cache id).second = users.second := rfl

variable {users id change} {user : User}

theorem Users.id_of_find (hfound : users.find_by_id id = some user) : user.id = id := by
  simpa using List.find?_some hfound

/-- The row of an id is the only one that is written. -/
theorem Users.find_by_id_write (change : User → User) (hid : ∀ user, (change user).id = user.id) (other : Int) :
    (users.write id change).find_by_id other = if other = id then (users.find_by_id id).map change else users.find_by_id other := by
  have hsame : ∀ user : User, decide ((if user.id = id then change user else user).id = other) = decide (user.id = other) := by
    intro user
    split <;> simp [hid]
  simp only [find_by_id, write, List.find?_map, Function.comp_def, hsame]
  by_cases hother : other = id
  · subst hother
    rw [if_pos rfl]
    cases hfound : users.rows.find? (·.id = other) with
    | none => rfl
    | some user =>
      have huser : user.id = other := id_of_find hfound
      simp [huser]
  · rw [if_neg hother]
    cases hfound : users.rows.find? (·.id = other) with
    | none => rfl
    | some user =>
      have huser : user.id = other := id_of_find hfound
      simp [huser, hother]

theorem Users.count_admins_write (hrole : ∀ user, (change user).role = user.role) :
    (users.write id change).count_admins = users.count_admins := by
  simp only [count_admins, write, List.countP_map, Function.comp_def]
  refine List.countP_congr fun user _ => ?_
  split <;> simp [hrole]

theorem Users.update_row_of_find (hfound : users.find_by_id id = some user) :
    users.update_row id change = .ok ((), users.write id change) := by
  refine if_pos (List.any_eq_true.mpr ⟨user, List.mem_of_find?_eq_some hfound, ?_⟩)
  simpa using id_of_find hfound

end Rows

section Update

/-- The row that a body asks for. Who is disabled loses his sessions. -/
def UpdateUserBody.apply (self : UpdateUserBody) (second : Nat) (user : User) : User :=
  { user with
    display_name := self.display_name.getD user.display_name
    role := self.role.getD user.role
    status := self.status.getD user.status
    session_revoked_at :=
      if self.status = some .disabled ∧ user.status ≠ .disabled then some second else user.session_revoked_at }

/-- The row of the only administrator would get another role. -/
def UpdateUserBody.demotes_last (self : UpdateUserBody) (users : Users) (user : User) : Prop :=
  user.role = .admin ∧ (∃ role, self.role = some role ∧ role ≠ .admin) ∧ users.count_admins ≤ 1

def UpdateUserBody.renames (self : UpdateUserBody) (user : User) : Prop :=
  ∃ name, self.display_name = some name ∧ name ≠ user.display_name

/-- Every row and all that is cached is as before. -/
structure Users.Same (before after : Users) : Prop where
  find_by_id : after.find_by_id = before.find_by_id
  user_cache : after.user_cache = before.user_cache

/-- A row is as a body asks for. Where the role or the status is another one,
    the cache has forgotten the user. -/
structure Users.Updated (before : Users) (id : Int) (body : UpdateUserBody) (user : User) (after : Users) : Prop where
  row : after.find_by_id id = some (body.apply before.second user)
  others : ∀ other, other ≠ id → after.find_by_id other = before.find_by_id other
  forgotten : body.role.getD user.role ≠ user.role ∨ body.status.getD user.status ≠ user.status →
    ∀ now, (after.user_cache.get id now).1 = none
  cached : ∀ other, other ≠ id → after.user_cache.entries other = before.user_cache.entries other

/-- An update that is refused changes nothing, and one that is made is made whole. -/
def UpdatesWhole (users : Users) (id : Int) (body : UpdateUserBody) : Prop :=
  match (update_user id body).run Users.execute users with
  | (.error _, after) => users.Same after
  | (.ok answer, after) => ∃ user, users.find_by_id id = some user ∧ answer = body.apply users.second user ∧
      users.Updated id body user after

end Update

section Carried

variable {users : Users} {id : Int} {user : User}

@[simp] theorem run_load_user : (load_user id).run Users.execute users =
    ((users.find_by_id id).elim (.error (user_not_found id)) .ok, users) := by
  have hread : (UserRepo.find_by_id id).run Users.execute users = (.ok (users.find_by_id id), users) := Program.run_call rfl
  rw [load_user, Program.run_bind_ok hread, Program.run_check]

/-- The table after a new name, if there is one. -/
def Users.renamed (users : Users) (id : Int) (name : Option String) : Users :=
  name.elim users fun display_name => users.write id ({ · with display_name })

theorem run_rename (hfound : users.find_by_id id = some user) (name : Option String) :
    (rename id name).run Users.execute users = (.ok (), users.renamed id name) := by
  cases name with
  | none => rfl
  | some name => exact Program.run_call (Users.update_row_of_find hfound)

theorem Users.find_by_id_renamed (name : Option String) (other : Int) : (users.renamed id name).find_by_id other =
    if other = id then (users.find_by_id id).map fun user => { user with display_name := name.getD user.display_name }
    else users.find_by_id other := by
  cases name with
  | none =>
    split
    · next hother => simp [renamed, hother]
    · rfl
  | some name => exact find_by_id_write ({ · with display_name := name }) (fun _ => rfl) other

@[simp] theorem Users.count_admins_renamed (name : Option String) : (users.renamed id name).count_admins = users.count_admins := by
  cases name with
  | none => rfl
  | some name => exact count_admins_write fun _ => rfl

@[simp] theorem Users.second_renamed (name : Option String) : (users.renamed id name).second = users.second := by
  cases name <;> rfl

@[simp] theorem Users.user_cache_renamed (name : Option String) : (users.renamed id name).user_cache = users.user_cache := by
  cases name <;> rfl

/-- The table after another role. -/
def Users.promoted (users : Users) (id : Int) (user : User) (role : UserRole) : Users :=
  if role = user.role then users else (users.write id ({ · with role })).invalidate_user_cache id

theorem run_check_demotion (role : UserRole) : (check_demotion user role).run Users.execute users =
    (if (user.role = .admin ∧ role ≠ .admin) ∧ users.count_admins ≤ 1 then
      .error (.invalid_request "cannot demote the last admin") else .ok (), users) := by
  unfold check_demotion
  by_cases hdemotes : user.role = .admin ∧ role ≠ .admin
  · rw [if_pos hdemotes, UserRepo.count_admins, Program.run_bind_ok (Program.run_call rfl), Program.run_check]
    by_cases hlast : users.count_admins ≤ 1
    · rw [if_pos hlast, if_pos ⟨hdemotes, hlast⟩]
    · rw [if_neg hlast, if_neg fun h => hlast h.2]
  · rw [if_neg hdemotes, Program.run_pure, if_neg fun h => hdemotes h.1]

theorem run_change_role_refused {role : UserRole} (hdemotes : user.role = .admin ∧ role ≠ .admin) (hlast : users.count_admins ≤ 1) :
    (change_role id user role).run Users.execute users = (.error (.invalid_request "cannot demote the last admin"), users) := by
  have hchanges : role ≠ user.role := fun hsame => hdemotes.2 (hsame.trans hdemotes.1)
  rw [change_role, if_neg hchanges]
  exact Program.run_bind_error (by rw [run_check_demotion, if_pos ⟨hdemotes, hlast⟩])

theorem run_change_role {row : User} (hfound : users.find_by_id id = some row) {role : UserRole}
    (hallowed : ¬((user.role = .admin ∧ role ≠ .admin) ∧ users.count_admins ≤ 1)) :
    (change_role id user role).run Users.execute users = (.ok (), users.promoted id user role) := by
  by_cases hsame : role = user.role
  · rw [change_role, if_pos hsame, Program.run_pure, Users.promoted, if_pos hsame]
  · have hchecked : (check_demotion user role).run Users.execute users = (.ok (), users) := by
      rw [run_check_demotion, if_neg hallowed]
    have hset : (UserRepo.set_role id role).run Users.execute users = (.ok (), users.write id ({ · with role })) :=
      Program.run_call (Users.update_row_of_find hfound)
    rw [change_role, if_neg hsame, Program.run_bind_ok hchecked, Program.run_bind_ok hset, Users.promoted, if_neg hsame]
    exact Program.run_call rfl

/-- The table after another status. -/
def Users.moved (users : Users) (id : Int) (user : User) (status : UserStatus) : Users :=
  if status = user.status then users
  else
    (users.write id fun user =>
      { user with status, session_revoked_at := if status = .disabled then some users.second else user.session_revoked_at }
        ).invalidate_user_cache id

/-- The row that was just written is written again. -/
theorem Users.write_write (change : User → User) {next : User → User} (hid : ∀ user, (change user).id = user.id) :
    (users.write id change).write id next = users.write id (next ∘ change) := by
  simp only [write, List.map_map, Users.mk.injEq, and_true]
  refine List.map_congr_left fun user _ => ?_
  by_cases huser : user.id = id <;> simp [huser, hid]

theorem run_change_status {row : User} (hfound : users.find_by_id id = some row) (status : UserStatus) :
    (change_status id user status).run Users.execute users = (.ok (), users.moved id user status) := by
  by_cases hsame : status = user.status
  · rw [change_status, if_pos hsame, Program.run_pure, Users.moved, if_pos hsame]
  · have hset : (UserRepo.set_status id status).run Users.execute users = (.ok (), users.write id ({ · with status })) :=
      Program.run_call (Users.update_row_of_find hfound)
    rw [change_status, if_neg hsame, Program.run_bind_ok hset, Users.moved, if_neg hsame]
    by_cases hdisabled : status = .disabled
    · have hwritten : (users.write id ({ · with status })).find_by_id id = some { row with status } := by
        rw [Users.find_by_id_write ({ · with status }) (fun _ => rfl), if_pos rfl, hfound, Option.map_some]
      have hrevoked : (UserRepo.revoke_sessions id).run Users.execute (users.write id ({ · with status })) =
          (.ok (), (users.write id ({ · with status })).write id ({ · with session_revoked_at := some users.second })) :=
        Program.run_call (Users.update_row_of_find hwritten)
      rw [revoke_disabled, if_pos hdisabled, Program.run_bind_ok hrevoked, Users.write_write ({ · with status }) fun _ => rfl]
      simp only [if_pos hdisabled]
      exact Program.run_call rfl
    · rw [revoke_disabled, if_neg hdisabled, Program.run_bind_ok (Program.run_pure ())]
      simp only [if_neg hdisabled]
      exact Program.run_call rfl

end Carried

/-- One row is another one, and the cache has forgotten its user under a
    condition. -/
structure Users.Becomes (before : Users) (id : Int) (row : User) (changed : Prop) (after : Users) : Prop where
  row : after.find_by_id id = some row
  others : ∀ other, other ≠ id → after.find_by_id other = before.find_by_id other
  second : after.second = before.second
  forgotten : changed ∨ before.user_cache.entries id = none → after.user_cache.entries id = none
  cached : ∀ other, other ≠ id → after.user_cache.entries other = before.user_cache.entries other

section Becomes

variable {users mid after : Users} {id : Int} {row next : User} {changed changes : Prop}

theorem Users.Becomes.trans (hfirst : users.Becomes id row changed mid) (hnext : mid.Becomes id next changes after) :
    users.Becomes id next (changed ∨ changes) after where
  row := hnext.row
  others other hother := (hnext.others other hother).trans (hfirst.others other hother)
  second := hnext.second.trans hfirst.second
  forgotten := by
    rintro ((hchanged | hchanges) | hnone)
    · exact hnext.forgotten (.inr (hfirst.forgotten (.inl hchanged)))
    · exact hnext.forgotten (.inl hchanges)
    · exact hnext.forgotten (.inr (hfirst.forgotten (.inr hnone)))
  cached other hother := (hnext.cached other hother).trans (hfirst.cached other hother)

theorem Users.becomes_self (hfound : users.find_by_id id = some row) : users.Becomes id row False users :=
  ⟨hfound, fun _ _ => rfl, rfl, fun hnone => hnone.resolve_left not_false, fun _ _ => rfl⟩

theorem Users.becomes_write (change : User → User) (hid : ∀ user, (change user).id = user.id) (hfound : users.find_by_id id = some row) :
    users.Becomes id (change row) False (users.write id change) where
  row := by rw [find_by_id_write change hid, if_pos rfl, hfound, Option.map_some]
  others other hother := by rw [find_by_id_write change hid, if_neg hother]
  second := rfl
  forgotten hnone := hnone.resolve_left not_false
  cached _ _ := rfl

theorem Users.Becomes.invalidate (hbecomes : users.Becomes id row changed after) :
    users.Becomes id row True (after.invalidate_user_cache id) where
  row := hbecomes.row
  others := hbecomes.others
  second := hbecomes.second
  forgotten _ := by simp [invalidate_user_cache]
  cached other hother := by simpa [invalidate_user_cache, hother] using hbecomes.cached other hother

theorem Users.becomes_renamed (hfound : users.find_by_id id = some row) (name : Option String) :
    users.Becomes id { row with display_name := name.getD row.display_name } False (users.renamed id name) := by
  cases name with
  | none => exact becomes_self hfound
  | some name => exact becomes_write ({ · with display_name := name }) (fun _ => rfl) hfound

/-- What a role that was asked for, if any, makes of the row that has the one
    of the user. -/
theorem Users.becomes_promoted (user : User) (hfound : users.find_by_id id = some row) (hrow : row.role = user.role) (role : Option UserRole) :
    users.Becomes id { row with role := role.getD row.role } (role.getD user.role ≠ user.role)
      (role.elim users (users.promoted id user)) := by
  cases role with
  | none =>
    have hself := becomes_self hfound
    exact { hself with forgotten := fun hnone => hself.forgotten (hnone.imp_left fun hne => hne rfl) }
  | some role =>
    simp only [Option.getD_some, Option.elim_some, promoted]
    by_cases hsame : role = user.role
    · have hself := becomes_self hfound
      rw [if_pos hsame, hsame, ← hrow]
      exact { hself with forgotten := fun hnone => hself.forgotten (hnone.imp_left fun hne => hne rfl) }
    · have hwrite := (becomes_write ({ · with role }) (fun _ => rfl) hfound).invalidate
      rw [if_neg hsame]
      exact { hwrite with forgotten := fun _ => hwrite.forgotten (.inl trivial) }

theorem Users.becomes_moved (user : User) (hfound : users.find_by_id id = some row) (hrow : row.status = user.status) (status : Option UserStatus) :
    users.Becomes id
      { row with
        status := status.getD row.status
        session_revoked_at :=
          if status = some .disabled ∧ row.status ≠ .disabled then some users.second else row.session_revoked_at }
      (status.getD user.status ≠ user.status) (status.elim users (users.moved id user)) := by
  cases status with
  | none =>
    have hself := becomes_self hfound
    simp only [Option.getD_none, Option.elim_none, reduceCtorEq, false_and, if_false]
    exact { hself with forgotten := fun hnone => hself.forgotten (hnone.imp_left fun hne => hne rfl) }
  | some status =>
    simp only [Option.getD_some, Option.elim_some, Option.some.injEq, moved]
    by_cases hsame : status = user.status
    · have hself := becomes_self hfound
      have hagain : ¬(status = .disabled ∧ row.status ≠ .disabled) := by
        rw [hrow, ← hsame]
        exact fun h => h.2 h.1
      rw [if_pos hsame, if_neg hagain, hsame, ← hrow]
      exact { hself with forgotten := fun hnone => hself.forgotten (hnone.imp_left fun hne => hne rfl) }
    · have hwrite := (becomes_write (fun user : User =>
        { user with status, session_revoked_at := if status = .disabled then some users.second else user.session_revoked_at })
        (fun _ => rfl) hfound).invalidate
      have hdisabled : (status = .disabled ∧ row.status ≠ .disabled) ↔ status = .disabled := by
        refine and_iff_left_of_imp fun hdisabled hrow' => hsame ?_
        rw [hdisabled, ← hrow, hrow']
      simp only [hdisabled, if_neg hsame]
      exact { hwrite with forgotten := fun _ => hwrite.forgotten (.inl trivial) }

end Becomes

section Whole

variable {users : Users} {id : Int} {body : UpdateUserBody} {user : User}

theorem run_update_user_unknown (hunknown : users.find_by_id id = none) :
    (update_user id body).run Users.execute users = (.error (user_not_found id), users) := by
  refine Program.run_bind_error ?_
  rw [run_load_user, hunknown, Option.elim_none]

/-- The role is refused when the name is written. -/
theorem run_update_user_refused (hfound : users.find_by_id id = some user) (hlast : body.demotes_last users user) :
    (update_user id body).run Users.execute users =
      (.error (.invalid_request "cannot demote the last admin"), users.renamed id body.display_name) := by
  obtain ⟨hadmin, ⟨role, hrole, hdemotes⟩, hcount⟩ := hlast
  have hload : (load_user id).run Users.execute users = (.ok user, users) := by rw [run_load_user, hfound, Option.elim_some]
  rw [update_user, Program.run_bind_ok hload, Program.run_bind_ok (run_rename hfound body.display_name), hrole]
  exact Program.run_bind_error (run_change_role_refused ⟨hadmin, hdemotes⟩ (by rwa [Users.count_admins_renamed]))

/-- Any other update of a user is made as its body says. -/
theorem run_update_user (hfound : users.find_by_id id = some user) (hallowed : ¬body.demotes_last users user) :
    ∃ after, (update_user id body).run Users.execute users = (.ok (body.apply users.second user), after) ∧
      users.Updated id body user after := by
  have hload : (load_user id).run Users.execute users = (.ok user, users) := by rw [run_load_user, hfound, Option.elim_some]
  have hrenamed := Users.becomes_renamed hfound body.display_name
  have hpromoted := Users.becomes_promoted user hrenamed.row rfl body.role
  have hmoved := Users.becomes_moved user hpromoted.row rfl body.status
  have hrole : (body.role.elim (pure ()) (change_role id user)).run Users.execute (users.renamed id body.display_name) =
      (.ok (), body.role.elim (users.renamed id body.display_name) ((users.renamed id body.display_name).promoted id user)) := by
    cases hbody : body.role with
    | none => rfl
    | some role =>
      refine run_change_role hrenamed.row fun hrefused => hallowed ?_
      rw [Users.count_admins_renamed] at hrefused
      exact ⟨hrefused.1.1, ⟨role, hbody, hrefused.1.2⟩, hrefused.2⟩
  have hstatus : ∀ changed : Users, changed.find_by_id id = some { user with
      display_name := body.display_name.getD user.display_name, role := body.role.getD user.role } →
      (body.status.elim (pure ()) (change_status id user)).run Users.execute changed =
        (.ok (), body.status.elim changed (changed.moved id user)) := by
    intro changed hchanged
    cases body.status with
    | none => rfl
    | some status => exact run_change_status hchanged status
  have hbecomes := (hrenamed.trans hpromoted).trans hmoved
  have hsecond : (body.role.elim (users.renamed id body.display_name)
      ((users.renamed id body.display_name).promoted id user)).second = users.second := (hrenamed.trans hpromoted).second
  rw [hsecond] at hbecomes
  have hrow := hbecomes.row
  refine ⟨_, ?_, hrow, hbecomes.others, fun hchanged now => ?_, hbecomes.cached⟩
  · rw [update_user, Program.run_bind_ok hload, Program.run_bind_ok (run_rename hfound body.display_name),
      Program.run_bind_ok hrole, Program.run_bind_ok (hstatus _ hpromoted.row), run_load_user, hrow]
    rfl
  · have hforgotten := hbecomes.forgotten (.inl (hchanged.imp_left .inr))
    simp only [TtlCache.get, hforgotten]

/-- An update is whole exactly when it does not both rename the last
    administrator and demote him. -/
theorem update_user_whole_iff :
    UpdatesWhole users id body ↔
      ∀ user, users.find_by_id id = some user → body.demotes_last users user → ¬body.renames user := by
  unfold UpdatesWhole
  cases hfound : users.find_by_id id with
  | none =>
    rw [run_update_user_unknown hfound]
    refine iff_of_true ⟨rfl, rfl⟩ ?_
    rintro user ⟨⟩
  | some user =>
    by_cases hlast : body.demotes_last users user
    · rw [run_update_user_refused hfound hlast]
      have hall : (∀ row, some user = some row → body.demotes_last users row → ¬body.renames row) ↔ ¬body.renames user := by
        constructor
        · exact fun h => h user rfl hlast
        · rintro h row ⟨⟩ -
          exact h
      have hrow : (users.renamed id body.display_name).find_by_id id =
          some { user with display_name := body.display_name.getD user.display_name } := (Users.becomes_renamed hfound _).row
      rw [hall]
      constructor
      · rintro ⟨hsame, -⟩ ⟨name, hname, hother⟩
        rw [hsame, hfound, hname] at hrow
        exact hother (congrArg User.display_name (Option.some.inj hrow)).symm
      · intro hkeeps
        have hname : body.display_name.getD user.display_name = user.display_name := by
          cases hname : body.display_name with
          | none => rfl
          | some name => exact not_not.mp fun hother => hkeeps ⟨name, hname, hother⟩
        refine ⟨funext fun other => ?_, Users.user_cache_renamed _⟩
        by_cases hother : other = id
        · rw [hother, hrow, hname, hfound]
        · exact (Users.becomes_renamed hfound _).others other hother
    · obtain ⟨after, hrun, hupdated⟩ := run_update_user hfound hlast
      rw [hrun]
      refine iff_of_true ⟨user, rfl, rfl, hupdated⟩ ?_
      rintro row ⟨⟩ hdemotes
      exact absurd hdemotes hlast

/-- The only administrator is to get a name and lose his role. He keeps the role,
    and has the name. -/
theorem refused_demotion_renames :
    ((update_user 1 ⟨some "Root", some .user, none⟩).run Users.execute (admins [1])).1 =
        .error (.invalid_request "cannot demote the last admin") ∧
      (((update_user 1 ⟨some "Root", some .user, none⟩).run Users.execute (admins [1])).2.find_by_id 1).map (·.display_name) =
        some "Root" ∧
      ((admins [1]).find_by_id 1).map (·.display_name) = some "Admin" ∧
      ¬UpdatesWhole (admins [1]) 1 ⟨some "Root", some .user, none⟩ := by
  refine ⟨rfl, rfl, rfl, ?_⟩
  rintro ⟨hsame, -⟩
  have hname := congrArg (Option.map (·.display_name)) (congrFun hsame 1)
  exact absurd hname (by decide)

end Whole

end refract.gateway.users
