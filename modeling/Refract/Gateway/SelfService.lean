import Refract.Gateway.Catalog
import Refract.Gateway.Isolation
import Refract.Machine.Rows
import Refract.Store.Marks

open refract.core refract.machine refract.store

namespace refract.gateway.self_service

/-- What a user asks for of its channels. -/
inductive ChannelAction where
  | create_channel (channel : Channel)
  | update_channel (id : Int) (channel : Channel)
  | delete_channel (id : Int)
  | toggle_channel (id : Int) (enabled : Bool)

/-- The request of a user that is logged in. An account that is not active creates nothing. -/
def ChannelAction.request (user_id : Int) (status : UserStatus) : ChannelAction → Option AdminRequest
  | .create_channel channel => if status = .active then some (.create_channel channel (some user_id)) else none
  | .update_channel id channel => some (.update_channel id channel (some user_id))
  | .delete_channel id => some (.delete_channel id (some user_id))
  | .toggle_channel id enabled => some (.toggle_channel id enabled (some user_id))

/-- Channels that none of some users owns. -/
def apart (users : List Int) (channel : Channel) : Bool := !users.any (channel.user_id = some ·)

/-- A change of channels of one user. -/
def Mine (user_id : Int) (repo : ChannelRepo) : ChannelChange → Prop
  | .create channel => channel.user_id = some user_id ∧ channel.visibility = .exclusive
  | .update channel => channel.user_id = some user_id ∧ channel.visibility = .exclusive ∧
    ∀ row ∈ repo.rows, ChannelRepo.owned channel.id row = true → row.user_id = some user_id
  | .delete id | .set_enabled id _ => ∀ row ∈ repo.rows, ChannelRepo.owned id row = true → row.user_id = some user_id
  | _ => False

/-- A later state of the table. Rows come with new numbers, and do not change hands. -/
structure Later (repo after : ChannelRepo) : Prop where
  numbered : after.Numbered
  le : repo.next_id ≤ after.next_id
  kept : ∀ row ∈ after.rows, row.id < repo.next_id → ∃ old ∈ repo.rows, old.id = row.id ∧ old.user_id = row.user_id

/-- Whatever other users do meanwhile, a piece of work changes channels of one user alone. -/
def Keeps (user_id : Int) : Work → ChannelRepo → Prop
  | .refuse, _ => True
  | .commit_channels, _ => True
  | .query next, repo => ∀ now, Later repo now → Keeps user_id (next now) now
  | .write change next, repo => ∀ now, Later repo now →
    Mine user_id now change ∧ ∀ after, change.commit now = some after → Keeps user_id (next after) after

section Rows

variable {users : List Int} {user_id : Int} {repo after mid : ChannelRepo} {change : ChannelChange}

theorem Later.refl (hnumbered : repo.Numbered) : Later repo repo := ⟨hnumbered, le_rfl, fun row hrow _ => ⟨row, hrow, rfl, rfl⟩⟩

theorem Later.trans (hfirst : Later repo mid) (hsecond : Later mid after) : Later repo after where
  numbered := hsecond.numbered
  le := hfirst.le.trans hsecond.le
  kept row hrow hlt := by
    obtain ⟨old, hold, hid, huser⟩ := hsecond.kept row hrow (hlt.trans_le hfirst.le)
    obtain ⟨older, holder, hid', huser'⟩ := hfirst.kept old hold (by omega)
    exact ⟨older, holder, hid'.trans hid, huser'.trans huser⟩

theorem Mine.meant (hmine : Mine user_id repo change) {row : Channel} (hrow : row ∈ repo.rows) (hmeant : change.meant row = true) :
    row.user_id = some user_id ∧ (change.rewrite row).user_id = some user_id := by
  cases change with
  | update channel => exact ⟨hmine.2.2 row hrow hmeant, hmine.1⟩
  | set_enabled id enabled => exact ⟨hmine row hrow hmeant, hmine row hrow hmeant⟩
  | create | delete => cases hmeant
  | replace_all | set_enabled_many | delete_many | set_balance | set_auto_disabled | restore_auto_disabled => exact hmine.elim

theorem Later.commit (hnumbered : repo.Numbered) (hmine : Mine user_id repo change) (hcommit : change.commit repo = some after) :
    Later repo after where
  numbered := hnumbered.commit hcommit
  le := ChannelRepo.next_id_le_commit hcommit
  kept row hrow hlt := by
    rcases ChannelChange.commit_rows hcommit hrow with ⟨old, hold, rfl⟩ | ⟨hnew, -⟩
    · refine ⟨old, hold, ?_⟩
      split
      next hmeant =>
        obtain ⟨hbefore, hafter⟩ := hmine.meant hold hmeant
        exact ⟨(ChannelChange.rewrite_id hmeant).symm, hbefore.trans hafter.symm⟩
      · exact ⟨rfl, rfl⟩
    · omega

theorem apart_of_user (huser : user_id ∈ users) {row : Channel} (hrow : row.user_id = some user_id) : apart users row = false := by
  rw [apart, Bool.not_eq_false', List.any_eq_true]
  exact ⟨user_id, huser, decide_eq_true hrow⟩

/-- Rows out of sight may be changed where they are. -/
theorem filter_map_apart {meant : Channel → Bool} {f : Channel → Channel} {rows : List Channel}
    (hout : ∀ row ∈ rows, meant row = true → apart users row = false ∧ apart users (f row) = false) :
    (rows.map fun row => if meant row then f row else row).filter (apart users) = rows.filter (apart users) := by
  induction rows with
  | nil => rfl
  | cons row rows ih =>
    have hrest := ih fun other hother => hout other (.tail row hother)
    rw [List.map_cons, List.filter_cons, List.filter_cons, hrest]
    cases hmeant : meant row with
    | false => rfl
    | true =>
      obtain ⟨hbefore, hafter⟩ := hout row (.head rows) hmeant
      rw [if_pos rfl, hafter, hbefore]
      rfl

theorem filter_filter_apart {meant : Channel → Bool} {rows : List Channel} (hout : ∀ row ∈ rows, meant row = true → apart users row = false) :
    (rows.filter (!meant ·)).filter (apart users) = rows.filter (apart users) := by
  rw [List.filter_filter]
  refine List.filter_congr fun row hrow => ?_
  cases hmeant : meant row with
  | false => rw [Bool.not_false, Bool.and_true]
  | true => rw [hout row hrow hmeant, Bool.false_and]

/-- What one user changes leaves the channels of all but the users as they are. -/
theorem commit_apart (huser : user_id ∈ users) (hmine : Mine user_id repo change) (hcommit : change.commit repo = some after) :
    after.rows.filter (apart users) = repo.rows.filter (apart users) := by
  have hmeant : ∀ row ∈ repo.rows, change.meant row = true → apart users row = false ∧ apart users (change.rewrite row) = false := by
    intro row hrow hmeant
    obtain ⟨hbefore, hafter⟩ := hmine.meant hrow hmeant
    exact ⟨apart_of_user huser hbefore, apart_of_user huser hafter⟩
  cases change with
  | create channel =>
    obtain rfl := Option.some.inj hcommit
    refine (List.filter_append _ _).trans ((congrArg (_ ++ ·) (List.filter_eq_nil_iff.mpr fun row hrow => ?_)).trans (List.append_nil _))
    obtain rfl := List.mem_singleton.mp hrow
    exact Bool.eq_false_iff.mp (apart_of_user huser hmine.1)
  | update channel =>
    obtain ⟨-, rfl⟩ := ChannelRepo.ensure_affected_eq_some.mp hcommit
    exact filter_map_apart hmeant
  | set_enabled id enabled =>
    obtain ⟨-, rfl⟩ := ChannelRepo.ensure_affected_eq_some.mp hcommit
    exact filter_map_apart hmeant
  | delete id =>
    obtain ⟨-, rfl⟩ := ChannelRepo.ensure_affected_eq_some.mp hcommit
    exact filter_filter_apart fun row hrow howned => apart_of_user huser (hmine row hrow howned)
  | replace_all | set_enabled_many | delete_many | set_balance | set_auto_disabled | restore_auto_disabled => exact hmine.elim

/-- The users keep their channels to themselves. -/
def Secluded (users : List Int) (repo : ChannelRepo) : Prop := ∀ row ∈ repo.rows, apart users row = false → row.visibility = .exclusive

theorem Secluded.commit (hsecluded : Secluded users repo) (hmine : Mine user_id repo change) (hcommit : change.commit repo = some after) :
    Secluded users after := by
  intro row hrow hout
  cases change with
  | create channel =>
    obtain rfl := Option.some.inj hcommit
    rcases ChannelRepo.mem_insert_channel.mp hrow with hold | rfl
    · exact hsecluded row hold hout
    · exact hmine.2
  | update channel =>
    obtain ⟨-, rfl⟩ := ChannelRepo.ensure_affected_eq_some.mp hcommit
    obtain ⟨old, hold, rfl⟩ := ChannelRepo.mem_set_rows.mp hrow
    by_cases howned : ChannelRepo.owned channel.id old = true
    · rw [if_pos howned]
      exact hmine.2.1
    · rw [if_neg howned] at hout ⊢
      exact hsecluded old hold hout
  | set_enabled id enabled =>
    obtain ⟨-, rfl⟩ := ChannelRepo.ensure_affected_eq_some.mp hcommit
    obtain ⟨old, hold, rfl⟩ := ChannelRepo.mem_set_rows.mp hrow
    by_cases howned : ChannelRepo.owned id old = true
    · rw [if_pos howned] at hout ⊢
      exact hsecluded old hold hout
    · rw [if_neg howned] at hout ⊢
      exact hsecluded old hold hout
  | delete id =>
    obtain ⟨-, rfl⟩ := ChannelRepo.ensure_affected_eq_some.mp hcommit
    exact hsecluded row (ChannelRepo.mem_delete_rows.mp hrow).1 hout
  | replace_all | set_enabled_many | delete_many | set_balance | set_auto_disabled | restore_auto_disabled => exact hmine.elim

end Rows

section Requests

variable {user_id : Int} {repo now : ChannelRepo} {work : Work}

theorem Keeps.onward (hkeeps : Keeps user_id work repo) (hlater : Later repo now) : Keeps user_id work now := by
  cases work with
  | refuse => trivial
  | commit_channels => trivial
  | query next => exact fun last hlast => hkeeps last (hlater.trans hlast)
  | write change next => exact fun last hlast => hkeeps last (hlater.trans hlast)

theorem keeps_get {id : Int} {next : Channel → Work}
    (hnext : ∀ now channel, Later repo now → now.get id = some channel → Keeps user_id (next channel) now) :
    Keeps user_id (.get id next) repo := by
  intro now hnow
  change Keeps user_id ((now.get id).elim .refuse next) now
  cases hget : now.get id with
  | none => trivial
  | some channel => exact hnext now channel hnow hget

/-- A channel that was found to be a user's is the user's when it is changed. -/
theorem owned_later {id : Int} {channel : Channel} {last : ChannelRepo} (hnumbered : now.Numbered) (hget : now.get id = some channel)
    (huser : channel.user_id = some user_id) (hlast : Later now last) :
    ∀ row ∈ last.rows, ChannelRepo.owned id row = true → row.user_id = some user_id := by
  intro row hrow howned
  have hid : row.id = id := by
    simp only [ChannelRepo.owned, Bool.and_eq_true, decide_eq_true_eq] at howned
    exact howned.1
  have hfound : channel.id = id := by
    have howned := List.find?_some hget
    simp only [ChannelRepo.owned, Bool.and_eq_true, decide_eq_true_eq] at howned
    exact howned.1
  have hlt : row.id < now.next_id := hid ▸ hnumbered.get_lt hget
  obtain ⟨old, hold, hold_id, hold_user⟩ := hlast.kept row hrow hlt
  have hsame : old = channel :=
    List.inj_on_of_nodup_map hnumbered.nodup hold (List.mem_of_find?_eq_some hget) (hold_id.trans (hid.trans hfound.symm))
  exact hold_user.symm.trans (hsame ▸ huser)

theorem keeps_require_owned {id : Int} {next : Channel → Work}
    (hnext : ∀ now channel, now.Numbered → now.get id = some channel → channel.user_id = some user_id → Keeps user_id (next channel) now) :
    Keeps user_id (require_owned_channel id (some user_id) next) repo := by
  refine keeps_get fun now channel hnow hget => ?_
  rw [Option.all_some]
  split
  next huser => exact hnext now channel hnow.numbered hget (of_decide_eq_true huser)
  · trivial

theorem keeps_reject_masked {channel : Channel} (hkeeps : Keeps user_id work repo) :
    Keeps user_id (reject_masked_credentials channel work) repo := by
  rw [reject_masked_credentials]
  split
  · trivial
  · exact hkeeps

theorem keeps_update {id : Int} (channel : Channel) (hid : channel.id = id) (huser : channel.user_id = some user_id)
    (hvisibility : channel.visibility = .exclusive)
    (howned : ∀ last, Later repo last → ∀ row ∈ last.rows, ChannelRepo.owned id row = true → row.user_id = some user_id) :
    Keeps user_id (reject_masked_credentials channel (.write (.update channel) fun _ => .get id fun _ => .commit_channels)) repo := by
  subst hid
  refine keeps_reject_masked fun last hlast => ⟨⟨huser, hvisibility, howned last hlast⟩, fun after _ => ?_⟩
  exact keeps_get fun _ _ _ _ => trivial

/-- Keys alone are put back. -/
theorem restored_place (existing incoming : Channel) :
    (restore_unchanged_credentials existing incoming).id = incoming.id ∧
      (restore_unchanged_credentials existing incoming).user_id = incoming.user_id ∧
      (restore_unchanged_credentials existing incoming).visibility = incoming.visibility := by
  simp only [restore_unchanged_credentials, and_self]

/-- What a user asks for changes channels of that user alone. -/
theorem keeps_request {status : UserStatus} {action : ChannelAction} {request : AdminRequest}
    (hrequest : action.request user_id status = some request) : Keeps user_id request.work repo := by
  cases action with
  | create_channel channel =>
    rw [ChannelAction.request] at hrequest
    split at hrequest
    · obtain rfl := Option.some.inj hrequest
      refine keeps_reject_masked fun now _ => ⟨⟨rfl, rfl⟩, fun after _ => ?_⟩
      exact keeps_get fun _ _ _ _ => trivial
    · cases hrequest
  | update_channel id channel =>
    obtain rfl := Option.some.inj hrequest
    rw [AdminRequest.work, update_channel_impl]
    refine keeps_require_owned fun now existing hnumbered hget huser => ?_
    dsimp only
    have hplace := restored_place existing (kept_private { channel with id, owner_id := DEFAULT_OWNER_ID } (some user_id))
    generalize restore_unchanged_credentials existing (kept_private { channel with id, owner_id := DEFAULT_OWNER_ID } (some user_id)) =
      saved at hplace ⊢
    exact keeps_update saved hplace.1 hplace.2.1 hplace.2.2 fun last hlast => owned_later hnumbered hget huser hlast
  | delete_channel id =>
    obtain rfl := Option.some.inj hrequest
    refine keeps_require_owned fun now existing hnumbered hget huser => ?_
    exact fun last hlast => ⟨owned_later hnumbered hget huser hlast, fun _ _ => trivial⟩
  | toggle_channel id enabled =>
    obtain rfl := Option.some.inj hrequest
    refine keeps_require_owned fun now existing hnumbered hget huser => ?_
    exact fun last hlast => ⟨owned_later hnumbered hget huser hlast, fun _ _ => trivial⟩

end Requests

section Runs

variable {users : List Int} {start repo after : ChannelRepo} {world : World Catalog Edit} {moves : List (Move Edit Bool Unit)}

/-- A state of the table that differs from another in channels that the users keep to themselves. -/
structure Spares (users : List Int) (start repo : ChannelRepo) : Prop where
  others : repo.rows.filter (apart users) = start.rows.filter (apart users)
  secluded : Secluded users repo

/-- An operation that was asked for by one of the users, and the channels that it is going to store. -/
def EditKeeps (users : List Int) (start repo : ChannelRepo) : Edit → Prop
  | .arrived request => ∃ user ∈ users, ∃ (status : UserStatus) (action : ChannelAction), action.request user status = some request
  | .working work _ => ∃ user ∈ users, Keeps user work repo
  | .storing channels => ∃ read, Spares users start read ∧ channels.value = read.list_all

/-- Every request is from one of the users. -/
def AskedBy (users : List Int) : Move Edit Bool Unit → Prop
  | .begin _ (.arrived request) => ∃ user ∈ users, ∃ (status : UserStatus) (action : ChannelAction), action.request user status = some request
  | _ => True

structure Kept (users : List Int) (start : ChannelRepo) (world : World Catalog Edit) : Prop where
  numbered : world.shared.repo.Numbered
  spares : Spares users start world.shared.repo
  snapshot : ∃ read, Spares users start read ∧ world.shared.snapshot.value = read.list_all
  pending : ∀ id edit, world.pending id = some edit → EditKeeps users start world.shared.repo edit

theorem EditKeeps.onward {edit : Edit} (hkeeps : EditKeeps users start repo edit) (hlater : Later repo after) :
    EditKeeps users start after edit := by
  cases edit with
  | arrived request => exact hkeeps
  | storing channels => exact hkeeps
  | working work changed =>
    obtain ⟨user, huser, hwork⟩ := hkeeps
    exact ⟨user, huser, hwork.onward hlater⟩

/-- One step of an operation of the users. -/
theorem Kept.advance {id : Nat} {edit : Edit} (hkept : Kept users start world) (hpending : world.pending id = some edit) (fault : Bool) :
    Kept users start (world.set id (edit.advance world.shared fault).1 (edit.advance world.shared fault).2) := by
  have hedit := hkept.pending id edit hpending
  -- Nothing is written by most steps.
  have hsame : ∀ {shared : Catalog} {next : Option Edit}, shared.repo = world.shared.repo →
      (∃ read, Spares users start read ∧ shared.snapshot.value = read.list_all) →
      (∀ edit, next = some edit → EditKeeps users start world.shared.repo edit) → Kept users start (world.set id shared next) := by
    intro shared next hrepo hsnapshot hnext
    refine ⟨?_, ?_, hsnapshot, fun other left hother => ?_⟩
    · rw [World.set_shared, hrepo]
      exact hkept.numbered
    · rw [World.set_shared, hrepo]
      exact hkept.spares
    · rw [World.set_shared, hrepo]
      rcases World.set_pending_cases hother with ⟨-, hleft⟩ | ⟨-, hother⟩
      · exact hnext left hleft
      · exact hkept.pending other left hother
  have hends : ∀ edit, (none : Option Edit) = some edit → EditKeeps users start world.shared.repo edit := fun _ hnone => by cases hnone
  cases edit with
  | arrived request =>
    obtain ⟨user, huser, status, action, hrequest⟩ := hedit
    refine hsame rfl hkept.snapshot fun next hnext => ?_
    obtain rfl := Option.some.inj hnext
    exact ⟨user, huser, keeps_request hrequest⟩
  | storing channels => exact hsame rfl hedit hends
  | working work changed =>
    obtain ⟨user, huser, hwork⟩ := hedit
    cases fault with
    | true => exact hsame rfl hkept.snapshot hends
    | false =>
      cases work with
      | refuse => exact hsame rfl hkept.snapshot hends
      | commit_channels =>
        refine hsame rfl hkept.snapshot fun next hnext => ?_
        obtain rfl := Option.some.inj hnext
        exact ⟨world.shared.repo, hkept.spares, rfl⟩
      | query next =>
        refine hsame rfl hkept.snapshot fun last hlast => ?_
        obtain rfl := Option.some.inj hlast
        exact ⟨user, huser, hwork world.shared.repo (.refl hkept.numbered)⟩
      | write change next =>
        obtain ⟨hmine, hrest⟩ := hwork world.shared.repo (.refl hkept.numbered)
        cases hcommit : change.commit world.shared.repo with
        | none =>
          simp only [Edit.advance, hcommit]
          exact hsame rfl hkept.snapshot hends
        | some after =>
          simp only [Edit.advance, hcommit, Bool.false_eq_true, if_false]
          have hlater : Later world.shared.repo after := .commit hkept.numbered hmine hcommit
          refine ⟨hlater.numbered, ⟨?_, hkept.spares.secluded.commit hmine hcommit⟩, hkept.snapshot, fun other left hother => ?_⟩
          · exact (commit_apart huser hmine hcommit).trans hkept.spares.others
          · rcases World.set_pending_cases hother with ⟨-, hleft⟩ | ⟨-, hother⟩
            · obtain rfl := Option.some.inj hleft
              exact ⟨user, huser, hrest after hcommit⟩
            · exact (hkept.pending other left hother).onward hlater

theorem Kept.step (hkept : Kept users start world) (move : Move Edit Bool Unit) (hasked : AskedBy users move) :
    Kept users start (catalog.step world move) := by
  rcases catalog.step_cases world move with
    hsame | ⟨id, edit, rfl, -, hopens, hstep⟩ | ⟨id, edit, fault, rfl, hpending, hstep⟩ | ⟨event, rfl, hstep⟩
  · rw [hsame]
    exact hkept
  · rw [hstep]
    refine ⟨hkept.numbered, hkept.spares, hkept.snapshot, fun other left hother => ?_⟩
    rcases World.set_pending_cases hother with ⟨-, hleft⟩ | ⟨-, hother⟩
    · obtain rfl := Option.some.inj hleft
      cases edit with
      | arrived request => exact hasked
      | working => cases hopens
      | storing => cases hopens
    · exact hkept.pending other left hother
  · rw [hstep]
    exact hkept.advance hpending fault
  · rw [hstep]
    exact ⟨hkept.numbered, hkept.spares, hkept.snapshot, hkept.pending⟩

/-- Channels that users keep to themselves make no difference to what another sees. -/
theorem Spares.channels_for (hspares : Spares users start repo) (hstart : Secluded users start) {user_id : Int} (hother : user_id ∉ users) :
    channels_for repo.list_all user_id = channels_for start.list_all user_id := by
  have hvisible : ∀ {rows : List Channel}, (∀ row ∈ rows, apart users row = false → row.visibility = .exclusive) →
      rows.filter (fun channel => channel.visibility = .shared || channel.user_id = some user_id) =
        (rows.filter (apart users)).filter (fun channel => channel.visibility = .shared || channel.user_id = some user_id) := by
    intro rows hsecluded
    rw [List.filter_filter]
    refine List.filter_congr fun row hrow => ?_
    cases hout : apart users row with
    | true => rw [Bool.and_true]
    | false =>
      rw [Bool.and_false, hsecluded row hrow hout]
      have hnot : row.user_id ≠ some user_id := by
        intro huser
        rw [apart, Bool.not_eq_false', List.any_eq_true] at hout
        obtain ⟨user, hmem, hsame⟩ := hout
        exact hother (Option.some.inj (huser.symm.trans (of_decide_eq_true hsame)) ▸ hmem)
      simp [hnot]
  rw [gateway.channels_for, gateway.channels_for, ChannelRepo.list_all, ChannelRepo.list_all, filter_sorted, filter_sorted,
    hvisible hspares.secluded, hspares.others, ← hvisible hstart]

/-- A private channel of the user 7, and a shared one. -/
def both_kinds : ChannelRepo where
  rows := [{ id := 1, owner_id := DEFAULT_OWNER_ID, tags := [], visibility := .exclusive, user_id := some 7 },
    { id := 2, owner_id := DEFAULT_OWNER_ID, tags := [], visibility := .shared, user_id := none }]
  next_id := 3

/-- The user 7 deletes its channel twice at once, and tries to disable the shared one. -/
def deleting_twice : List (Move Edit Bool Unit) :=
  [.begin 0 (.arrived (.delete_channel 1 (some 7))), .begin 1 (.arrived (.delete_channel 1 (some 7))),
    .begin 2 (.arrived (.toggle_channel 2 false (some 7)))] ++
    (List.range 15).map fun step => .advance (step % 3) false

end Runs

end refract.gateway.self_service
