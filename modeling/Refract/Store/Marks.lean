import Refract.Machine.Interleaving
import Refract.Store.Channels

open refract.core refract.machine

namespace refract.store

/-- The rows that a transaction changes where they are. -/
def ChannelChange.meant : ChannelChange → Channel → Bool
  | .set_enabled_many ids _ => fun row => ids.contains row.id && row.owner_id = DEFAULT_OWNER_ID
  | .update channel => ChannelRepo.owned channel.id
  | .set_enabled id _ | .set_balance id _ | .set_auto_disabled id => ChannelRepo.owned id
  | .restore_auto_disabled id => fun row => ChannelRepo.owned id row && row.auto_disabled
  | .create _ | .replace_all _ | .delete_many _ | .delete _ => fun _ => false

/-- What a transaction makes of a row that it means. -/
def ChannelChange.rewrite : ChannelChange → Channel → Channel
  | .set_enabled_many _ enabled | .set_enabled _ enabled => ({ · with enabled, auto_disabled := false })
  | .update channel => fun row =>
    { channel with owner_id := row.owner_id, auto_disabled := row.auto_disabled, balance := row.balance }
  | .set_balance _ balance => ({ · with balance := some balance })
  | .set_auto_disabled _ => ({ · with enabled := false, auto_disabled := true })
  | .restore_auto_disabled _ => ({ · with enabled := true, auto_disabled := false })
  | .create _ | .replace_all _ | .delete_many _ | .delete _ => id

namespace ChannelRepo

variable {self after : ChannelRepo} {channel row : Channel} {meant : Channel → Bool} {change : Channel → Channel}

theorem mem_set_rows :
    row ∈ (self.set_rows meant change).rows ↔ ∃ old ∈ self.rows, row = if meant old then change old else old := by
  simp only [set_rows, List.mem_map, eq_comm]

theorem mem_delete_rows : row ∈ (self.delete_rows meant).rows ↔ row ∈ self.rows ∧ meant row = false := by
  simp [delete_rows]

theorem ensure_affected_eq_some {changed : ChannelRepo} :
    self.ensure_affected meant changed = some after ↔ (∃ row ∈ self.rows, meant row = true) ∧ changed = after := by
  simp [ensure_affected]

/-- A new row is not marked, and has the next number. -/
theorem mem_insert_channel :
    row ∈ (self.insert_channel channel).rows ↔
      row ∈ self.rows ∨ row = { channel with id := self.next_id, auto_disabled := false, balance := none } := by
  simp [insert_channel]

/-- The rows after some were inserted. -/
theorem mem_foldl_insert_channel {channels : List Channel} (hrow : row ∈ (channels.foldl insert_channel self).rows) :
    row ∈ self.rows ∨ (self.next_id ≤ row.id ∧ row.auto_disabled = false) := by
  induction channels generalizing self with
  | nil => exact .inl hrow
  | cons channel channels ih =>
    rcases ih hrow with hinserted | ⟨hid, hmark⟩
    · rcases mem_insert_channel.mp hinserted with hold | rfl
      · exact .inl hold
      · exact .inr ⟨le_rfl, rfl⟩
    · have hnext : self.next_id < (self.insert_channel channel).next_id := Int.lt_succ self.next_id
      exact .inr ⟨(hnext.le).trans hid, hmark⟩

end ChannelRepo

/-- Where the rows come from that a transaction leaves. -/
theorem ChannelChange.commit_rows {repo after : ChannelRepo} {change : ChannelChange} {row : Channel}
    (hcommit : change.commit repo = some after) (hrow : row ∈ after.rows) :
    (∃ old ∈ repo.rows, row = if change.meant old then change.rewrite old else old) ∨
      (repo.next_id ≤ row.id ∧ row.auto_disabled = false) := by
  cases change with
  | create channel =>
    obtain rfl := Option.some.inj hcommit
    rcases ChannelRepo.mem_insert_channel.mp hrow with hold | rfl
    · exact .inl ⟨row, hold, rfl⟩
    · exact .inr ⟨le_rfl, rfl⟩
  | replace_all channels =>
    obtain rfl := Option.some.inj hcommit
    rcases ChannelRepo.mem_foldl_insert_channel hrow with hold | hnew
    · exact .inl ⟨row, (ChannelRepo.mem_delete_rows.mp hold).1, rfl⟩
    · exact .inr hnew
  | delete_many ids =>
    obtain rfl := Option.some.inj hcommit
    exact .inl ⟨row, (ChannelRepo.mem_delete_rows.mp hrow).1, rfl⟩
  | delete id =>
    obtain ⟨-, rfl⟩ := ChannelRepo.ensure_affected_eq_some.mp hcommit
    exact .inl ⟨row, (ChannelRepo.mem_delete_rows.mp hrow).1, rfl⟩
  | set_enabled_many ids enabled =>
    obtain rfl := Option.some.inj hcommit
    exact .inl (ChannelRepo.mem_set_rows.mp hrow)
  | update | set_enabled | set_balance | set_auto_disabled | restore_auto_disabled =>
    obtain ⟨-, rfl⟩ := ChannelRepo.ensure_affected_eq_some.mp hcommit
    exact .inl (ChannelRepo.mem_set_rows.mp hrow)

theorem ChannelChange.rewrite_id {change : ChannelChange} {row : Channel} (hmeant : change.meant row = true) :
    (change.rewrite row).id = row.id := by
  cases change with
  | update channel =>
    simp only [meant, ChannelRepo.owned, Bool.and_eq_true, decide_eq_true_eq] at hmeant
    exact hmeant.1.symm
  | _ => rfl

theorem ChannelChange.rewrite_owner_id (change : ChannelChange) (row : Channel) :
    (change.rewrite row).owner_id = row.owner_id := by
  cases change <;> rfl

namespace ChannelRepo

/-- Every channel has a number of its own, which was given to it. -/
structure Numbered (repo : ChannelRepo) : Prop where
  nodup : (repo.rows.map (·.id)).Nodup
  below : ∀ row ∈ repo.rows, row.id < repo.next_id

variable {repo after : ChannelRepo}

theorem Numbered.empty : Numbered {} where
  nodup := List.nodup_nil
  below _ hrow := nomatch hrow

theorem Numbered.insert_channel (hnumbered : repo.Numbered) (channel : Channel) : (repo.insert_channel channel).Numbered where
  nodup := by
    have hfresh : repo.next_id ∉ repo.rows.map (·.id) := by
      intro hmem
      obtain ⟨row, hrow, hid⟩ := List.mem_map.mp hmem
      exact (hid ▸ hnumbered.below row hrow).false
    have hids : (repo.insert_channel channel).rows.map (·.id) = repo.rows.map (·.id) ++ [repo.next_id] := List.map_append
    rw [hids, List.nodup_append_comm]
    exact List.nodup_cons.mpr ⟨hfresh, hnumbered.nodup⟩
  below row hrow := by
    have hnext : repo.next_id < (repo.insert_channel channel).next_id := Int.lt_succ repo.next_id
    rcases mem_insert_channel.mp hrow with hold | rfl
    · exact (hnumbered.below row hold).trans hnext
    · exact hnext

theorem Numbered.delete_rows (hnumbered : repo.Numbered) (meant : Channel → Bool) : (repo.delete_rows meant).Numbered where
  nodup := hnumbered.nodup.sublist (List.filter_sublist.map _)
  below row hrow := hnumbered.below row (mem_delete_rows.mp hrow).1

theorem Numbered.set_rows (hnumbered : repo.Numbered) {meant : Channel → Bool} {change : Channel → Channel}
    (hid : ∀ row, meant row = true → (change row).id = row.id) : (repo.set_rows meant change).Numbered := by
  have hkept : ∀ row, (if meant row then change row else row).id = row.id := by
    intro row
    split
    · exact hid row (by assumption)
    · rfl
  constructor
  · have hids : (repo.set_rows meant change).rows.map (·.id) = repo.rows.map (·.id) := by
      rw [ChannelRepo.set_rows, List.map_map]
      exact List.map_congr_left fun row _ => hkept row
    rw [hids]
    exact hnumbered.nodup
  · intro row hrow
    obtain ⟨old, hold, rfl⟩ := mem_set_rows.mp hrow
    rw [hkept]
    exact hnumbered.below old hold

theorem Numbered.commit (hnumbered : repo.Numbered) {change : ChannelChange} (hcommit : change.commit repo = some after) :
    after.Numbered := by
  cases change with
  | create channel =>
    obtain rfl := Option.some.inj hcommit
    exact hnumbered.insert_channel channel
  | replace_all channels =>
    obtain rfl := Option.some.inj hcommit
    exact List.foldlRecOn channels ChannelRepo.insert_channel (hnumbered.delete_rows _)
      fun _ hnumbered channel _ => hnumbered.insert_channel channel
  | delete_many ids =>
    obtain rfl := Option.some.inj hcommit
    exact hnumbered.delete_rows _
  | delete id =>
    obtain ⟨-, rfl⟩ := ensure_affected_eq_some.mp hcommit
    exact hnumbered.delete_rows _
  | set_enabled_many ids enabled =>
    obtain rfl := Option.some.inj hcommit
    exact hnumbered.set_rows fun _ _ => rfl
  | update channel =>
    obtain ⟨-, rfl⟩ := ensure_affected_eq_some.mp hcommit
    exact hnumbered.set_rows fun _ => @ChannelChange.rewrite_id (.update channel) _
  | set_enabled | set_balance | set_auto_disabled | restore_auto_disabled =>
    obtain ⟨-, rfl⟩ := ensure_affected_eq_some.mp hcommit
    exact hnumbered.set_rows fun _ _ => rfl

/-- A channel is found by its number. -/
theorem Numbered.get_eq_some (hnumbered : repo.Numbered) {id : Int} {row : Channel} (hrow : row ∈ repo.rows)
    (howned : owned id row = true) : repo.get id = some row := by
  obtain ⟨found, hfound⟩ := Option.isSome_iff_exists.mp (List.find?_isSome.mpr ⟨row, hrow, howned⟩)
  have hsame : found.id = row.id := by
    have hid := List.find?_some hfound
    simp only [owned, Bool.and_eq_true, decide_eq_true_eq] at hid howned
    exact hid.1.trans howned.1.symm
  rw [get, hfound, List.inj_on_of_nodup_map hnumbered.nodup (List.mem_of_find?_eq_some hfound) hrow hsame]

theorem Numbered.get_lt (hnumbered : repo.Numbered) {id : Int} {row : Channel} (hget : repo.get id = some row) :
    id < repo.next_id := by
  have howned := List.find?_some hget
  simp only [owned, Bool.and_eq_true, decide_eq_true_eq] at howned
  exact howned.1 ▸ hnumbered.below row (List.mem_of_find?_eq_some hget)

theorem next_id_le_foldl {channels : List Channel} : repo.next_id ≤ (channels.foldl insert_channel repo).next_id := by
  induction channels generalizing repo with
  | nil => exact le_rfl
  | cons channel channels ih =>
    have hnext : repo.next_id < (repo.insert_channel channel).next_id := Int.lt_succ repo.next_id
    exact hnext.le.trans ih

/-- No number is given back. -/
theorem next_id_le_commit {change : ChannelChange} (hcommit : change.commit repo = some after) : repo.next_id ≤ after.next_id := by
  cases change with
  | create channel =>
    obtain rfl := Option.some.inj hcommit
    exact (Int.lt_succ repo.next_id).le
  | replace_all channels =>
    obtain rfl := Option.some.inj hcommit
    exact next_id_le_foldl
  | delete_many | set_enabled_many =>
    obtain rfl := Option.some.inj hcommit
    exact le_rfl
  | delete | update | set_enabled | set_balance | set_auto_disabled | restore_auto_disabled =>
    obtain ⟨-, rfl⟩ := ensure_affected_eq_some.mp hcommit
    exact le_rfl

/-- The channels that are listed, in whatever order. -/
theorem mem_list {channel : Channel} : channel ∈ repo.list ↔ channel ∈ repo.rows ∧ channel.owner_id = DEFAULT_OWNER_ID := by
  rw [list, List.mem_filter, list_all, (sort_by_key_perm _ _).mem_iff, decide_eq_true_eq]

theorem list_of_singleton {channel : Channel} (hrows : repo.rows = [channel]) (howner : channel.owner_id = DEFAULT_OWNER_ID) :
    repo.list = [channel] := by
  have hall : repo.list_all = [channel] := List.perm_singleton.mp (hrows ▸ sort_by_key_perm _ repo.rows)
  rw [list, hall]
  simp [howner]

end ChannelRepo

/-- The table after a transaction, which may have failed. -/
def ChannelRepo.perform (repo : ChannelRepo) (change : ChannelChange) : ChannelRepo := (change.commit repo).getD repo

/-- A channel that the gateway took out of service is out of service. -/
def ChannelRepo.Marked (repo : ChannelRepo) : Prop := ∀ row ∈ repo.rows, row.auto_disabled = true → row.enabled = false

/-- No channel that is marked is put into service with the mark left. -/
def ChannelChange.Clean (repo : ChannelRepo) : ChannelChange → Prop
  | .update channel => channel.enabled = true → ∀ row ∈ repo.rows, ChannelRepo.owned channel.id row = true → row.auto_disabled = false
  | _ => True

theorem ChannelChange.Clean.rewrite {repo : ChannelRepo} {change : ChannelChange} {row : Channel} (hclean : change.Clean repo)
    (hrow : row ∈ repo.rows) (hmarked : row.auto_disabled = true → row.enabled = false) (hmeant : change.meant row = true)
    (hmark : (change.rewrite row).auto_disabled = true) : (change.rewrite row).enabled = false := by
  cases change with
  | update channel =>
    by_contra henabled
    have hunmarked := hclean (Bool.eq_true_of_not_eq_false henabled) row hrow hmeant
    cases hunmarked.symm.trans hmark
  | set_enabled_many | set_enabled | restore_auto_disabled => cases hmark
  | set_auto_disabled => rfl
  | set_balance => exact hmarked hmark
  | create | replace_all | delete_many | delete => cases hmeant

/-- The step: a transaction keeps the marks right just if it is clean. -/
theorem ChannelRepo.Marked.perform_iff {repo : ChannelRepo} (hmarked : repo.Marked) (change : ChannelChange) :
    (repo.perform change).Marked ↔ change.Clean repo := by
  constructor
  · intro hafter
    cases change with
    | update channel =>
      intro henabled row hrow howned
      by_contra hmark
      have hcommit : (ChannelChange.update channel).commit repo = some _ :=
        ensure_affected_eq_some.mpr ⟨⟨row, hrow, howned⟩, rfl⟩
      have hrewritten : (ChannelChange.update channel).rewrite row ∈ (repo.perform (.update channel)).rows := by
        rw [perform, hcommit]
        exact mem_set_rows.mpr ⟨row, hrow, by rw [howned]; rfl⟩
      have hdisabled := hafter _ hrewritten (Bool.eq_true_of_not_eq_false hmark)
      cases henabled.symm.trans hdisabled
    | _ => trivial
  · intro hclean row hrow hmark
    unfold perform at hrow
    cases hcommit : change.commit repo with
    | none =>
      rw [hcommit] at hrow
      exact hmarked row hrow hmark
    | some after =>
      rw [hcommit] at hrow
      rcases change.commit_rows hcommit hrow with ⟨old, hold, rfl⟩ | ⟨-, hunmarked⟩
      · by_cases hmeant : change.meant old = true
        · rw [if_pos hmeant] at hmark ⊢
          exact hclean.rewrite hold (hmarked old hold) hmeant hmark
        · rw [if_neg hmeant] at hmark ⊢
          exact hmarked old hold hmark
      · cases hunmarked.symm.trans hmark

/-- The marks stay right in a run just as long as no update puts a marked channel
    into service. -/
theorem marked_iff_clean (changes : List ChannelChange) :
    Throughout ChannelRepo.perform ChannelRepo.Marked {} changes ↔
      Along ChannelRepo.perform (fun repo change => change.Clean repo) {} changes :=
  throughout_iff_along (fun _ change hmarked => hmarked.perform_iff change) fun _ hrow => nomatch hrow

/-- A channel in service. -/
def lone : Channel where
  id := 1
  owner_id := DEFAULT_OWNER_ID
  tags := []
  visibility := .shared
  user_id := none

/-- The gateway takes a channel out of service, and its form is saved with the
    channel in service. -/
def resaved : List ChannelChange := [.create lone, .set_auto_disabled 1, .update lone]

theorem resaved_not_marked : ¬Throughout ChannelRepo.perform ChannelRepo.Marked {} resaved := by
  intro hall
  have hdisabled := hall.finish { lone with auto_disabled := true } (.head _) rfl
  cases hdisabled

end refract.store
