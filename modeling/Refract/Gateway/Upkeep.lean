import Refract.Gateway.Admin
import Refract.Store.Assembly

open refract.core refract.machine refract.store

namespace refract.gateway

/-- No credential of a channel is masked. -/
abbrev Unmasked (channel : Channel) : Prop := Each (looks_masked · = false) channel

/-- No key of a channel without masks is one. -/
theorem any_unmasked {channel : Channel} (hunmasked : Unmasked channel) :
    channel.credentials.any (looks_masked ·.value) = false ∧
      channel.endpoints.any (·.credential.any (looks_masked ·.value)) = false := by
  refine ⟨List.any_eq_false.mpr fun c hc => by simp [hunmasked.pool c hc], List.any_eq_false.mpr fun ep hep => ?_⟩
  cases hown : ep.credential with
  | none => simp
  | some c => simp [hunmasked.endpoints ep hep c hown]

/-- A credential that neither looks encrypted nor is masked. -/
def Genuine (value : String) : Prop := is_encrypted value = false ∧ looks_masked value = false

/-- A row stands for a channel that passed the checks. -/
def Sound (cipher : Cipher) (row : Channel) : Prop :=
  ∃ channel, channel.Valid ∧ Each Genuine channel ∧ Stands cipher channel row

/-- The channels as an administrator sees them. -/
def view (cipher : Cipher) (self : SealedRepo) : ChannelRepo :=
  { self.repo with rows := self.repo.rows.map (assemble cipher self.master_key) }

namespace Work

/-- Does the work, as far as no transaction fails. -/
def run (cipher : Cipher) : Work → (Nat → Nat → Nonces) → SealedRepo → SealedRepo
  | .refuse, _, self | .commit_channels, _, self => self
  | .query next, nonces, self => (next (view cipher self)).run cipher nonces self
  | .write change next, nonces, self =>
    match self.commit cipher (nonces 0) change with
    | none => self
    | some repo => (next (view cipher { self with repo })).run cipher (fun idx => nonces (idx + 1)) { self with repo }

/-- Every channel that is written has a property, whatever is there. What is seen first has a
    property too. -/
def Saves (P : Channel → Prop) : Work → (ChannelRepo → Prop) → Prop
  | .refuse, _ | .commit_channels, _ => True
  | .query next, S => ∀ repo, S repo → (next repo).Saves P S
  | .write change next, _ => (∀ channel ∈ change.saved, P channel) ∧ ∀ repo, (next repo).Saves P fun _ => True

end Work

section Sound

variable {cipher : Cipher} {self : SealedRepo} {nonces : Nat → Nonces} {change : ChannelChange} {after : ChannelRepo} {row : Channel}

theorem sound_kept : Kept (Sound cipher) := by
  rintro row id owner_id enabled auto_disabled balance ⟨channel, hvalid, hgenuine, master_key, nonces, sealed, hseal, hrow⟩
  refine ⟨channel, hvalid, hgenuine, master_key, nonces, sealed, hseal, ?_⟩
  rw [hrow]

/-- The step: a transaction that writes genuine credentials leaves sound rows. -/
theorem commit_sound (hsound : ∀ row ∈ self.repo.rows, Sound cipher row) (hcommit : self.commit cipher nonces change = some after)
    (hsaved : ∀ channel ∈ change.saved, Each Genuine channel) : ∀ row ∈ after.rows, Sound cipher row := by
  obtain ⟨sealed, hseal, hcommit⟩ := SealedRepo.commit_eq_some.mp hcommit
  refine sealed.commit_forall sound_kept hcommit (fun row hrow => ?_) hsound
  obtain ⟨channel, hchannel, hvalid, drawn, hsealed⟩ := seal_change_saved hseal hrow
  exact ⟨channel, Channel.validate_ok_iff.mp hvalid, hsaved channel hchannel, self.master_key, drawn, row, hsealed, rfl⟩

theorem Work.run_master_key (work : Work) (nonces : Nat → Nat → Nonces) (self : SealedRepo) :
    (work.run cipher nonces self).master_key = self.master_key := by
  induction work generalizing nonces self with
  | refuse | commit_channels => rfl
  | query next ih => exact ih _ nonces self
  | write change next ih =>
    unfold run
    split
    · rfl
    · exact ih _ _ _

/-- The run: work that saves genuine credentials leaves sound rows. -/
theorem Work.run_sound {work : Work} {S : ChannelRepo → Prop} {nonces : Nat → Nat → Nonces} (hsaves : work.Saves (Each Genuine) S)
    (hview : S (view cipher self)) (hsound : ∀ row ∈ self.repo.rows, Sound cipher row) :
    ∀ row ∈ (work.run cipher nonces self).repo.rows, Sound cipher row := by
  induction work generalizing nonces self S with
  | refuse | commit_channels => exact hsound
  | query next ih => exact ih _ (hsaves _ hview) hview hsound
  | write change next ih =>
    unfold run
    split
    · exact hsound
    next repo hcommit => exact ih _ (hsaves.2 _) trivial (commit_sound hsound hcommit hsaves.1)

/-- What can be read of sound rows is genuine. -/
theorem view_genuine (hcipher : cipher.Correct) (hsound : ∀ row ∈ self.repo.rows, Sound cipher row)
    (hplain : ∀ channel ∈ (view cipher self).rows, Plain channel) : ∀ channel ∈ (view cipher self).rows, Each Genuine channel := by
  intro read hread
  obtain ⟨row, hrow, rfl⟩ := List.mem_map.mp hread
  obtain ⟨channel, hvalid, hgenuine, hstands⟩ := hsound row hrow
  rw [hstands.assembled hcipher hvalid.pool (hgenuine.imp fun _ h => h.1) (hplain _ hread)]
  exact hgenuine.reread

end Sound

section Requests

variable {P : Channel → Prop} {S : ChannelRepo → Prop}

theorem Work.saves_get {id : Int} {next : Channel → Work}
    (hnext : ∀ repo, S repo → ∀ channel ∈ repo.rows, (next channel).Saves P S) : (Work.get id next).Saves P S := by
  intro repo hrepo
  change ((repo.get id).elim .refuse next).Saves P S
  cases hget : repo.get id with
  | none => exact True.intro
  | some channel => exact hnext repo hrepo channel (List.mem_of_find?_eq_some hget)

theorem Work.saves_access {next : Work} (hnext : next.Saves P S) : (Work.access next).Saves P S := fun _ _ => hnext

theorem Work.saves_create {channel : Channel} {next : Work} (hchannel : P channel) (hnext : next.Saves P fun _ => True) :
    (Work.create channel next).Saves P S := by
  refine ⟨fun saved hsaved => ?_, fun repo => Work.saves_get fun _ _ _ _ => hnext⟩
  obtain rfl := List.mem_singleton.mp hsaved
  exact hchannel

/-- A change that writes no channel as it is given. -/
theorem Work.saves_write {change : ChannelChange} {next : ChannelRepo → Work} (hsaved : change.saved = [])
    (hnext : ∀ repo, (next repo).Saves P fun _ => True) : (Work.write change next).Saves P S :=
  ⟨hsaved ▸ List.forall_mem_nil _, hnext⟩

theorem Work.saves_update {channel : Channel} {next : ChannelRepo → Work} (hchannel : P channel)
    (hnext : ∀ repo, (next repo).Saves P fun _ => True) : (Work.write (.update channel) next).Saves P S := by
  refine ⟨fun saved hsaved => ?_, hnext⟩
  obtain rfl := List.mem_singleton.mp hsaved
  exact hchannel

theorem require_owned_channel_saves {id : Int} {user_id : Option Int} {next : Channel → Work}
    (hnext : ∀ repo, S repo → ∀ channel ∈ repo.rows, (next channel).Saves P S) : (require_owned_channel id user_id next).Saves P S := by
  refine Work.saves_get fun repo hrepo existing hexisting => ?_
  split
  · exact hnext repo hrepo existing hexisting
  · exact True.intro

theorem reject_masked_credentials_saves {channel : Channel} {next : Work} (hnext : Unmasked channel → next.Saves P S) :
    (reject_masked_credentials channel next).Saves P S := by
  unfold reject_masked_credentials
  split
  · exact True.intro
  next hunmasked =>
    simp only [Bool.or_eq_true, not_or, Bool.not_eq_true, List.any_eq_false] at hunmasked
    obtain ⟨⟨hcredential, hpool⟩, hendpoints⟩ := hunmasked
    refine hnext ⟨hcredential, fun c hc => by simpa using hpool c hc, fun ep hep c hc => ?_⟩
    have hown := hendpoints ep hep
    simpa [hc] using hown

theorem each_restored {Q : String → Prop} {existing incoming : Channel} (hexisting : Each Q existing) (hincoming : Each Q incoming) :
    Each Q (restore_unchanged_credentials existing incoming) := by
  constructor
  · change Q (if incoming.credential.value = existing.credential.masked then existing.credential else incoming.credential).value
    split
    · exact hexisting.credential
    · exact hincoming.credential
  · intro c hc
    obtain ⟨given, hgiven, rfl⟩ := List.mem_map.mp hc
    split
    · cases hfind : ((if existing.credential.is_empty then [] else [existing.credential]) ++ existing.credentials).find?
          (·.masked = given.value) with
      | none => exact hincoming.pool given hgiven
      | some old =>
        rcases List.mem_append.mp (List.mem_of_find?_eq_some hfind) with hold | hold
        · split at hold
          · cases hold
          · obtain rfl := List.mem_singleton.mp hold
            exact hexisting.credential
        · exact hexisting.pool old hold
    · exact hincoming.pool given hgiven
  · intro ep hep c hc
    obtain ⟨given, hgiven, rfl⟩ := List.mem_map.mp hep
    obtain ⟨own, hown, rfl⟩ := Option.map_eq_some_iff.mp hc
    split
    next old hold =>
      obtain ⟨kept, hkept, hcredential⟩ := Option.bind_eq_some_iff.mp hold
      split
      · exact hexisting.endpoints kept (List.mem_of_find?_eq_some hkept) old hcredential
      · exact hincoming.endpoints given hgiven own hown
    · exact hincoming.endpoints given hgiven own hown

/-- No submitted credential looks encrypted. -/
def AdminRequest.Plain : AdminRequest → Prop
  | .create_channel channel _ | .update_channel _ channel _ => store.Plain channel
  | .import_document _ _ _ exported _ => ∀ e ∈ exported, store.Plain e.channel
  | _ => True

theorem each_kept_private {Q : String → Prop} {channel : Channel} (heach : Each Q channel) (user_id : Option Int) :
    Each Q (kept_private channel user_id) := by
  cases user_id with
  | none => exact heach
  | some uid => exact ⟨heach.credential, heach.pool, heach.endpoints⟩

theorem each_prepared {Q : String → Prop} {exported : ExportedChannel} (heach : Each Q exported.channel) (v1 : Bool) (admin_id : Int) :
    Each Q (prepare_imported_channel v1 admin_id exported) := by
  unfold prepare_imported_channel
  dsimp only
  split
  · exact ⟨heach.credential, heach.pool, heach.endpoints⟩
  · split
    · exact ⟨heach.credential, heach.pool, heach.endpoints⟩
    · exact ⟨heach.credential, heach.pool, heach.endpoints⟩

theorem Each.genuine {channel : Channel} (hplain : Plain channel) (hunmasked : Unmasked channel) : Each Genuine channel where
  credential := ⟨hplain.credential, hunmasked.credential⟩
  pool c hc := ⟨hplain.pool c hc, hunmasked.pool c hc⟩
  endpoints ep hep c hc := ⟨hplain.endpoints ep hep c hc, hunmasked.endpoints ep hep c hc⟩

theorem reject_all_saves {channels : List Channel} {next : Work} (hnext : (∀ channel ∈ channels, Unmasked channel) → next.Saves P S) :
    (channels.foldr reject_masked_credentials next).Saves P S := by
  induction channels with
  | nil => exact hnext (List.forall_mem_nil _)
  | cons channel channels ih =>
    refine reject_masked_credentials_saves fun hchannel => ih fun hrest => ?_
    exact hnext (List.forall_mem_cons.mpr ⟨hchannel, hrest⟩)

theorem merge_channels_saves {existing_names : List String} {rest : Work} {channels : List Channel}
    (hchannels : ∀ channel ∈ channels, P channel) (hrest : ∀ S, rest.Saves P S) : (merge_channels existing_names rest channels).Saves P S := by
  induction channels generalizing S with
  | nil => exact hrest S
  | cons channel channels ih =>
    obtain ⟨hchannel, hchannels⟩ := List.forall_mem_cons.mp hchannels
    unfold merge_channels
    split
    · exact ih hchannels
    · exact Work.saves_create hchannel (ih hchannels)

/-- All channels that are seen have genuine credentials. -/
def SeesGenuine (repo : ChannelRepo) : Prop := ∀ channel ∈ repo.rows, Each Genuine channel

theorem create_channel_saves {channel : Channel} (hplain : Plain channel) (user_id : Option Int) :
    (create_channel_impl channel user_id).Saves (Each Genuine) SeesGenuine := by
  refine reject_masked_credentials_saves fun hunmasked => ?_
  have hgiven : Plain { channel with owner_id := DEFAULT_OWNER_ID, id := 0 } :=
    ⟨hplain.credential, hplain.pool, hplain.endpoints⟩
  exact Work.saves_create (Each.genuine (each_kept_private hgiven user_id) hunmasked) True.intro

theorem duplicate_channel_saves (id : Int) : (duplicate_channel id).Saves (Each Genuine) SeesGenuine := by
  refine Work.saves_get fun repo hrepo channel hchannel => ?_
  have hgenuine := hrepo channel hchannel
  have hcopy : Each Genuine { channel with id := 0, name := channel.name ++ " 副本", enabled := false } :=
    ⟨hgenuine.credential, hgenuine.pool, hgenuine.endpoints⟩
  exact Work.saves_create hcopy True.intro

theorem checked_update_saves {channel : Channel} (hplain : Plain channel) (id : Int) :
    (reject_masked_credentials channel (.write (.update channel) fun _ => .get id fun _ => .commit_channels)).Saves (Each Genuine) S := by
  refine reject_masked_credentials_saves fun hunmasked => ?_
  exact Work.saves_update (Each.genuine hplain hunmasked) fun _ => Work.saves_get fun _ _ _ _ => True.intro

theorem update_channel_saves {channel : Channel} (hplain : Plain channel) (id : Int) (user_id : Option Int) :
    (update_channel_impl id channel user_id).Saves (Each Genuine) SeesGenuine := by
  refine require_owned_channel_saves fun repo hrepo existing hexisting => ?_
  have hkept : Plain existing := (hrepo existing hexisting).imp fun _ h => h.1
  have hgiven : Plain { channel with id, owner_id := DEFAULT_OWNER_ID } := ⟨hplain.credential, hplain.pool, hplain.endpoints⟩
  have hrestored := each_restored hkept (each_kept_private hgiven user_id)
  dsimp only
  generalize restore_unchanged_credentials existing (kept_private { channel with id, owner_id := DEFAULT_OWNER_ID } user_id) =
    restored at hrestored ⊢
  exact checked_update_saves hrestored id

theorem import_document_saves {exported : List ExportedChannel} (hplain : ∀ e ∈ exported, Plain e.channel) (mode : ImportMode)
    (v1 : Bool) (admin_id : Int) (keys : Nat) :
    (import_document mode v1 admin_id exported keys).Saves (Each Genuine) SeesGenuine := by
  refine reject_all_saves fun hunmasked => ?_
  have hgenuine : ∀ channel ∈ exported.map (prepare_imported_channel v1 admin_id), Each Genuine channel := by
    intro channel hchannel
    obtain ⟨e, he, rfl⟩ := List.mem_map.mp hchannel
    exact Each.genuine (each_prepared (hplain e he) v1 admin_id) (hunmasked _ hchannel)
  cases mode with
  | replace => exact ⟨hgenuine, fun _ => Work.saves_access (Work.saves_access True.intro)⟩
  | merge =>
    refine fun repo _ => merge_channels_saves hgenuine fun S => ?_
    induction keys with
    | zero => exact Work.saves_access True.intro
    | succ keys ih => exact Work.saves_access ih

/-- Nothing that an administrator asks for writes other than genuine credentials, if none that is
    submitted looks encrypted and all that is there can be read. -/
theorem AdminRequest.saves (request : AdminRequest) (hplain : request.Plain) :
    request.work.Saves (Each Genuine) SeesGenuine := by
  cases request with
  | create_channel channel user_id => exact create_channel_saves hplain user_id
  | duplicate_channel id => exact duplicate_channel_saves id
  | update_channel id channel user_id => exact update_channel_saves hplain id user_id
  | delete_channel id user_id =>
    exact require_owned_channel_saves fun _ _ _ _ => Work.saves_write rfl fun _ => True.intro
  | toggle_channel id enabled user_id =>
    exact require_owned_channel_saves fun _ _ _ _ => Work.saves_write rfl fun _ => True.intro
  | get_channel_balance id amount =>
    refine Work.saves_get fun repo hrepo existing hexisting => ?_
    split
    · exact Work.saves_write rfl fun _ => True.intro
    · exact True.intro
  | bulk_channels action ids => exact Work.saves_write (by cases action <;> rfl) fun _ => True.intro
  | import_document mode v1 admin_id exported keys => exact import_document_saves hplain mode v1 admin_id keys
  | auto_disable channel_id => exact Work.saves_write rfl fun _ => True.intro
  | auto_retest channel_id => exact Work.saves_write rfl fun _ => True.intro
  | reload_master_key => exact Work.saves_access True.intro

end Requests

end refract.gateway
