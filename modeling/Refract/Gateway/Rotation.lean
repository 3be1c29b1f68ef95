import Mathlib.Data.String.Basic
import Refract.Core.Address
import Refract.Machine.Interleaving
import Refract.Machine.Vec
import Refract.Machine.Word
import Refract.Router.Diagnosis
import Refract.Store.Wallet

open refract.core refract.json refract.machine

namespace refract.store

def default_backup_keep : Nat := 8

/-- No backups are taken by themselves at an interval of zero hours. -/
structure BackupSettings where
  directory : Option String := none
  interval_hours : Nat := 0
  keep : Nat := default_backup_keep
  deriving DecidableEq, Repr

def BackupSettings.validate (self : BackupSettings) : Except String Unit :=
  if 8760 < self.interval_hours then .error "backup interval must be at most 8760 hours (one year)"
  else if 1 ≤ self.keep && self.keep ≤ 100 then .ok ()
  else .error "backup keep must be between 1 and 100"

end refract.store

open refract.store

namespace refract.gateway.rotation

section Names

def byte_len (text : List Char) : Nat := (text.map Char.utf8Size).sum

def is_valid_backup_name (name : String) : Bool :=
  if byte_len name.toList ≠ byte_len "refract-YYYYmmdd-HHMMSS.db".toList then false
  else if !"refract-".toList.isPrefixOf name.toList || !ends_with name ".db" then false
  else
    let middle := (name.toList.drop "refract-".length).rdrop ".db".length
    match middle.splitOn '-' with
    | [date, time] => byte_len date = 8 && date.all (·.isDigit) && byte_len time = 6 && time.all (·.isDigit)
    | _ => false

/-- A time in the fields of a calendar. -/
structure Stamp where
  year : Nat
  month : Nat
  day : Nat
  hour : Nat
  minute : Nat
  second : Nat
  year_fits : year < 10 ^ 4
  month_fits : month < 10 ^ 2
  day_fits : day < 10 ^ 2
  hour_fits : hour < 10 ^ 2
  minute_fits : minute < 10 ^ 2
  second_fits : second < 10 ^ 2
  deriving DecidableEq

/-- The fields from the longest to the shortest. -/
def Stamp.fields (self : Stamp) : List Nat :=
  [self.year, self.month, self.day, self.hour, self.minute, self.second]

/-- The time as `%Y%m%d-%H%M%S`. -/
def Stamp.format (self : Stamp) : List Char :=
  decimal 4 self.year ++ (decimal 2 self.month ++ (decimal 2 self.day ++ ('-' ::
    (decimal 2 self.hour ++ (decimal 2 self.minute ++ (decimal 2 self.second ++ []))))))

def Stamp.filename (self : Stamp) : String :=
  String.ofList ("refract-".toList ++ (self.format ++ ".db".toList))

theorem append_lt_append (front : List Char) {as bs : List Char} : front ++ as < front ++ bs ↔ as < bs := by
  induction front with
  | nil => rfl
  | cons c front ih => simp [ih]

theorem filename_toList (self : Stamp) :
    self.filename.toList = "refract-".toList ++ (self.format ++ ".db".toList) := String.toList_ofList

/-- Backups are in the order of their times. -/
theorem filename_lt {a b : Stamp} : a.filename < b.filename ↔ a.fields < b.fields := by
  rw [String.lt_iff_toList_lt, filename_toList, filename_toList, append_lt_append]
  simp only [Stamp.format, List.append_assoc, List.cons_append, List.nil_append, decimal_append_lt a.year_fits b.year_fits,
    decimal_append_lt a.month_fits b.month_fits, decimal_append_lt a.day_fits b.day_fits, List.cons_lt_cons_self,
    decimal_append_lt a.hour_fits b.hour_fits, decimal_append_lt a.minute_fits b.minute_fits,
    decimal_append_lt a.second_fits b.second_fits, Stamp.fields, List.cons_lt_cons_iff, lt_self_iff_false]

theorem filename_le {a b : Stamp} (hle : ¬b.fields < a.fields) : a.filename ≤ b.filename :=
  not_lt.mp (mt filename_lt.mp hle)

theorem byte_len_append (a b : List Char) : byte_len (a ++ b) = byte_len a + byte_len b := by
  rw [byte_len, List.map_append, List.sum_append, byte_len, byte_len]

theorem utf8Size_of_isDigit {c : Char} (hdigit : c.isDigit) : c.utf8Size = 1 := by
  simp only [Char.isDigit, Bool.and_eq_true, decide_eq_true_eq] at hdigit
  have hsmall : c.val ≤ 0x7f := UInt32.le_trans hdigit.2 (by decide : (57 : UInt32) ≤ 0x7f)
  simp [Char.utf8Size, hsmall]

/-- Digits are as many bytes as characters. -/
theorem byte_len_of_digits {text : List Char} (hdigits : ∀ c ∈ text, c.isDigit) : byte_len text = text.length := by
  induction text with
  | nil => rfl
  | cons c text ih =>
    obtain ⟨hc, htext⟩ := List.forall_mem_cons.mp hdigits
    have hrest := ih htext
    rw [byte_len] at hrest ⊢
    rw [List.map_cons, List.sum_cons, utf8Size_of_isDigit hc, hrest, List.length_cons, Nat.add_comm]

theorem dash_not_mem {text : List Char} (hdigits : ∀ c ∈ text, c.isDigit) : '-' ∉ text :=
  fun hmem => absurd (hdigits '-' hmem) (by decide)

/-- A date and a time of the day between the fixed parts of a name. -/
theorem is_valid_of_digits {name : String} (date time : List Char) (hdate : ∀ c ∈ date, c.isDigit)
    (htime : ∀ c ∈ time, c.isDigit) (hlong : date.length = 8) (hshort : time.length = 6)
    (hname : name.toList = "refract-".toList ++ ((date ++ '-' :: time) ++ ".db".toList)) :
    is_valid_backup_name name = true := by
  have hbytes : byte_len name.toList = byte_len "refract-YYYYmmdd-HHMMSS.db".toList := by
    rw [hname, byte_len_append, byte_len_append, byte_len_append, ← List.singleton_append, byte_len_append,
      byte_len_of_digits hdate, byte_len_of_digits htime, hlong, hshort]
    decide
  have hstart : "refract-".toList.isPrefixOf name.toList = true := by
    rw [hname, List.isPrefixOf_iff_prefix]
    exact List.prefix_append _ _
  have hend : ends_with name ".db" = true := by
    rw [ends_with, hname, List.isSuffixOf_iff_suffix, ← List.append_assoc]
    exact List.suffix_append _ _
  have hmiddle : (name.toList.drop "refract-".length).rdrop ".db".length = date ++ '-' :: time := by
    have hdrop : name.toList.drop "refract-".length = (date ++ '-' :: time) ++ ".db".toList := by
      rw [hname]
      exact List.drop_left
    rw [hdrop, List.rdrop, List.length_append, String.length_toList, Nat.add_sub_cancel_right]
    exact List.take_left
  have hparts : (date ++ '-' :: time).splitOn '-' = [date, time] := by
    have hnone : ∀ part ∈ [date, time], '-' ∉ part := by simp [dash_not_mem hdate, dash_not_mem htime]
    have hsplit := List.splitOn_intercalate '-' hnone (by simp)
    simpa [List.intercalate] using hsplit
  simp only [is_valid_backup_name, hbytes, ne_eq, not_true_eq_false, if_false, hstart, hend, Bool.not_true, Bool.or_self,
    hmiddle, hparts, byte_len_of_digits hdate, byte_len_of_digits htime, hlong, hshort, List.all_eq_true.mpr hdate,
    List.all_eq_true.mpr htime, Bool.false_eq_true, decide_true, Bool.and_self]

theorem byte_len_le (text : List Char) : byte_len text ≤ 4 * text.length := by
  induction text with
  | nil => exact Nat.zero_le _
  | cons c text ih =>
    have hone := Char.utf8Size_le_four c
    rw [byte_len] at ih ⊢
    rw [List.map_cons, List.sum_cons, List.length_cons]
    omega

/-- Nothing else is the name of a backup. -/
theorem digits_of_is_valid {name : String} (hvalid : is_valid_backup_name name = true) :
    ∃ date time, (∀ c ∈ date, c.isDigit) ∧ (∀ c ∈ time, c.isDigit) ∧ date.length = 8 ∧ time.length = 6 ∧
      name.toList = "refract-".toList ++ ((date ++ '-' :: time) ++ ".db".toList) := by
  simp only [is_valid_backup_name] at hvalid
  split at hvalid
  next => contradiction
  next hbytes =>
    split at hvalid
    next => contradiction
    next hfixed =>
      simp only [Bool.or_eq_true, Bool.not_eq_true', not_or, Bool.not_eq_false, List.isPrefixOf_iff_prefix, ends_with,
        List.isSuffixOf_iff_suffix] at hfixed
      obtain ⟨⟨rest, hrest⟩, hend⟩ := hfixed
      have hlong : 3 ≤ rest.length := by
        rw [not_not, ← hrest, byte_len_append] at hbytes
        have hfront : byte_len "refract-".toList = 8 := by decide
        have hwhole : byte_len "refract-YYYYmmdd-HHMMSS.db".toList = 26 := by decide
        have hmost := byte_len_le rest
        omega
      obtain ⟨middle, rfl⟩ : ".db".toList <:+ rest :=
        List.suffix_of_suffix_length_le hend (hrest ▸ List.suffix_append _ _) hlong
      have hmiddle : (name.toList.drop "refract-".length).rdrop ".db".length = middle := by
        have hdrop : name.toList.drop "refract-".length = middle ++ ".db".toList := by
          rw [← hrest]
          exact List.drop_left
        rw [hdrop, List.rdrop, List.length_append, String.length_toList, Nat.add_sub_cancel_right]
        exact List.take_left
      rw [hmiddle] at hvalid
      split at hvalid
      next date time hparts =>
        simp only [Bool.and_eq_true, decide_eq_true_eq, List.all_eq_true] at hvalid
        obtain ⟨⟨⟨hlong, hdate⟩, hshort⟩, htime⟩ := hvalid
        rw [byte_len_of_digits hdate] at hlong
        rw [byte_len_of_digits htime] at hshort
        refine ⟨date, time, hdate, htime, hlong, hshort, ?_⟩
        have hjoined : middle = date ++ '-' :: time := by
          have hback : ['-'].intercalate (middle.splitOn '-') = middle := List.intercalate_splitOn '-'
          rw [← hback, hparts]
          simp [List.intercalate]
        rw [← hrest, hjoined]
      next => contradiction

/-- A backup is a file of its directory and of no other. -/
theorem slash_not_mem {name : String} (hvalid : is_valid_backup_name name = true) : '/' ∉ name.toList := by
  obtain ⟨date, time, hdate, htime, -, -, hname⟩ := digits_of_is_valid hvalid
  intro hmem
  rw [hname] at hmem
  simp only [List.mem_append, List.mem_cons] at hmem
  rcases hmem with hmem | ((hmem | hmem | hmem) | hmem)
  · exact absurd hmem (by decide)
  · exact absurd (hdate _ hmem) (by decide)
  · exact absurd hmem (by decide)
  · exact absurd (htime _ hmem) (by decide)
  · exact absurd hmem (by decide)

/-- The names that are given to backups are names of backups. -/
theorem is_valid_filename (self : Stamp) : is_valid_backup_name self.filename = true := by
  refine is_valid_of_digits (decimal 4 self.year ++ (decimal 2 self.month ++ decimal 2 self.day))
    (decimal 2 self.hour ++ (decimal 2 self.minute ++ decimal 2 self.second)) ?_ ?_ (by simp) (by simp) ?_
  · simp only [List.forall_mem_append]
    exact ⟨isDigit_decimal self.year_fits, isDigit_decimal self.month_fits, isDigit_decimal self.day_fits⟩
  · simp only [List.forall_mem_append]
    exact ⟨isDigit_decimal self.hour_fits, isDigit_decimal self.minute_fits, isDigit_decimal self.second_fits⟩
  · simp [filename_toList, Stamp.format]

end Names

section Directories

/-- What the file system knows of a file. -/
structure Metadata where
  len : Nat
  created : Option Int := none
  modified : Option Int := none
  deriving DecidableEq

structure Entry where
  name : String
  is_file : Bool := true
  metadata : Metadata
  deriving DecidableEq

/-- No two entries of a directory have one name. -/
structure Directory where
  entries : List Entry := []
  distinct : entries.Pairwise fun a b => a.name ≠ b.name := by exact .nil

def Directory.remove (self : Directory) (name : String) : Directory :=
  ⟨self.entries.filter (·.name ≠ name), self.distinct.filter _⟩

def Directory.put (self : Directory) (entry : Entry) : Directory :=
  ⟨entry :: self.entries.filter (·.name ≠ entry.name), by
    refine List.pairwise_cons.mpr ⟨fun other hother heq => ?_, self.distinct.filter _⟩
    exact of_decide_eq_true (List.mem_filter.mp hother).2 heq.symm⟩

structure BackupInfo where
  name : String
  size_bytes : Nat
  created_at : Int
  deriving DecidableEq

/-- What can be read of a directory while it is listed. -/
structure Listing where
  opened : Bool := true
  typed : String → Bool := fun _ => true
  known : String → Bool := fun _ => true
  now : Int := 0

def Listing.info (self : Listing) (entry : Entry) : BackupInfo :=
  if self.known entry.name then
    { name := entry.name
      size_bytes := entry.metadata.len
      created_at := (entry.metadata.created.or entry.metadata.modified).getD self.now }
  else { name := entry.name, size_bytes := 0, created_at := self.now }

/-- The latest backups come first. -/
def sorted (backups : List BackupInfo) : List BackupInfo := sort_by_key (fun info => OrderDual.toDual info.name) backups

/-- A directory that cannot be opened is listed as an empty one. -/
def list_backups (listing : Listing) (directory : Directory) : List BackupInfo :=
  if listing.opened then
    sorted ((directory.entries.filter fun entry =>
      listing.typed entry.name && entry.is_file && is_valid_backup_name entry.name).map listing.info)
  else []

/-- How a copy of the database ends. -/
inductive Vacuum where
  | done (file : Metadata) (whole : 0 < file.len)
  /-- A copy that fails may leave a part of the file. -/
  | failed (error : SqlError) (left : Option Metadata)

/-- A copy replaces nothing but an empty file. -/
def Directory.occupied (self : Directory) (name : String) : Bool :=
  self.entries.any fun entry => entry.name = name && (!entry.is_file || 0 < entry.metadata.len)

def Directory.vacuum_into (self : Directory) (name : String) (vacuum : Vacuum) : Except SqlError Unit × Directory :=
  if self.occupied name then (.error (.database "output file already exists"), self)
  else
    match vacuum with
    | .done file _ => (.ok (), self.put { name, metadata := file })
    | .failed error (some file) => (.error error, self.put { name, metadata := file })
    | .failed error none => (.error error, self)

/-- Removes the oldest backups. Those that are stuck stay. -/
def Directory.prune (self : Directory) (keep : Nat) (listing : Listing) (stuck : String → Bool) : Directory :=
  if 0 < keep then
    let backups := sorted (list_backups listing self)
    if keep < backups.length then
      (backups.drop keep).foldl (fun directory old => if stuck old.name then directory else directory.remove old.name) self
    else self
  else self

end Directories

section Pruning

variable {directory : Directory} {entry new : Entry} {name : String} {keep : Nat} {listing : Listing}

/-- How many backups of a directory are later than one of a name. -/
def Directory.newer (self : Directory) (name : String) : Nat :=
  self.entries.countP fun entry => is_valid_backup_name entry.name && name < entry.name

theorem mem_remove : entry ∈ (directory.remove name).entries ↔ entry ∈ directory.entries ∧ entry.name ≠ name := by
  simp [Directory.remove]

theorem mem_put : entry ∈ (directory.put new).entries ↔ entry = new ∨ entry ∈ directory.entries ∧ entry.name ≠ new.name := by
  simp [Directory.put]

theorem newer_le_of_sublist {less : Directory} (hless : less.entries.Sublist directory.entries) (name : String) :
    less.newer name ≤ directory.newer name := hless.countP_le

theorem newer_put_le (name : String) : (directory.put new).newer name ≤ directory.newer name + 1 := by
  have hrest : (directory.remove new.name).newer name ≤ directory.newer name := newer_le_of_sublist List.filter_sublist name
  simp only [Directory.newer, Directory.put, Directory.remove, List.countP_cons] at hrest ⊢
  split <;> omega

theorem newer_eq_zero (hlatest : ∀ entry ∈ directory.entries, is_valid_backup_name entry.name = true → entry.name ≤ name) :
    directory.newer name = 0 := by
  refine List.countP_eq_zero.mpr fun entry hentry hlater => ?_
  rw [Bool.and_eq_true, decide_eq_true_eq] at hlater
  exact absurd hlater.2 (not_lt.mpr (hlatest entry hentry hlater.1))

theorem sorted_perm (backups : List BackupInfo) : (sorted backups).Perm backups := sort_by_key_perm _ backups

theorem info_name (entry : Entry) : (listing.info entry).name = entry.name := by
  unfold Listing.info
  split <;> rfl

/-- What is listed is later than a backup no more often than what is there. -/
theorem countP_listed (listing : Listing) (directory : Directory) (name : String) :
    (list_backups listing directory).countP (fun info => name < info.name) ≤ directory.newer name := by
  unfold list_backups
  split
  · rw [(sorted_perm _).countP_eq, List.countP_map, List.countP_filter]
    refine List.countP_mono_left fun entry _ hentry => ?_
    simp only [Function.comp_apply, info_name, Bool.and_eq_true] at hentry ⊢
    exact ⟨hentry.2.2, hentry.1⟩
  · exact Nat.zero_le _

theorem listed_distinct (listing : Listing) (directory : Directory) :
    (list_backups listing directory).Pairwise fun a b => a.name ≠ b.name := by
  unfold list_backups
  split
  · refine ((sorted_perm _).pairwise_iff fun hne => hne.symm).mpr (List.pairwise_map.mpr ?_)
    simpa only [info_name] using directory.distinct.filter _
  · exact .nil

/-- A backup is too old if there are enough later ones. -/
theorem keep_le_newer {old : BackupInfo} (hold : old ∈ (sorted (list_backups listing directory)).drop keep) :
    keep ≤ directory.newer old.name := by
  have horder : (sorted (list_backups listing directory)).Pairwise fun a b => b.name < a.name := by
    have hle : (sorted (list_backups listing directory)).Pairwise fun a b => b.name ≤ a.name :=
      sort_by_key_sorted (fun info : BackupInfo => OrderDual.toDual info.name) _
    have hne := ((sorted_perm (list_backups listing directory)).pairwise_iff fun hne => hne.symm).mpr
      (listed_distinct listing directory)
    exact (hle.and hne).imp fun h => lt_of_le_of_ne h.1 h.2.symm
  rw [← List.take_append_drop keep (sorted _), List.pairwise_append] at horder
  have hlater : ∀ info ∈ (sorted (list_backups listing directory)).take keep, decide (old.name < info.name) = true :=
    fun info hinfo => decide_eq_true (horder.2.2 info hinfo old hold)
  have hlong : ((sorted (list_backups listing directory)).take keep).length = keep := by
    have hpos := List.length_pos_of_mem hold
    rw [List.length_drop] at hpos
    rw [List.length_take]
    omega
  calc keep = ((sorted (list_backups listing directory)).take keep).countP (fun info => old.name < info.name) := by
        rw [List.countP_eq_length.mpr hlater, hlong]
    _ ≤ (sorted (list_backups listing directory)).countP (fun info => old.name < info.name) := (List.take_sublist _ _).countP_le
    _ = (list_backups listing directory).countP (fun info => old.name < info.name) := (sorted_perm _).countP_eq _
    _ ≤ directory.newer old.name := countP_listed listing directory old.name

theorem prune_sublist (stuck : String → Bool) : (directory.prune keep listing stuck).entries.Sublist directory.entries := by
  simp only [Directory.prune]
  split
  · split
    · refine List.foldlRecOn (motive := fun less => (Directory.entries less).Sublist directory.entries) _ _ (.refl _)
        fun less hless old _ => ?_
      split
      · exact hless
      · exact List.filter_sublist.trans hless
    · exact .refl _
  · exact .refl _

/-- A backup stays as long as fewer later ones are there than are kept. -/
theorem mem_prune (stuck : String → Bool) (hentry : entry ∈ directory.entries)
    (hfew : keep = 0 ∨ directory.newer entry.name < keep) : entry ∈ (directory.prune keep listing stuck).entries := by
  simp only [Directory.prune]
  split
  next hpos =>
    split
    next =>
      refine List.foldlRecOn (motive := fun less => entry ∈ Directory.entries less) _ _ hentry fun less hless old hold => ?_
      split
      · exact hless
      · refine mem_remove.mpr ⟨hless, fun hname => ?_⟩
        have hmany : keep ≤ directory.newer entry.name := hname ▸ keep_le_newer hold
        omega
    next => exact hentry
  next => exact hentry

/-- The copy adds an entry to a directory. -/
def Directory.writes (self : Directory) (name : String) : Vacuum → Bool
  | .done _ _ | .failed _ (some _) => !self.occupied name
  | .failed _ none => false

/-- What a copy leaves of a directory. -/
theorem vacuum_into_cases (directory : Directory) (name : String) (vacuum : Vacuum) :
    directory.writes name vacuum = false ∧ (directory.vacuum_into name vacuum).2 = directory ∨
      directory.writes name vacuum = true ∧ directory.occupied name = false ∧
        ∃ file, (directory.vacuum_into name vacuum).2 = directory.put { name, metadata := file } := by
  rcases hoccupied : directory.occupied name with _ | _
  · rcases vacuum with ⟨file, whole⟩ | ⟨error, _ | file⟩
    · exact .inr ⟨by simp [Directory.writes, hoccupied], rfl, file, by simp [Directory.vacuum_into, hoccupied]⟩
    · exact .inl ⟨rfl, by simp [Directory.vacuum_into, hoccupied]⟩
    · exact .inr ⟨by simp [Directory.writes, hoccupied], rfl, file, by simp [Directory.vacuum_into, hoccupied]⟩
  · refine .inl ⟨?_, by simp [Directory.vacuum_into, hoccupied]⟩
    rcases vacuum with ⟨file, whole⟩ | ⟨error, _ | file⟩ <;> simp [Directory.writes, hoccupied]

/-- A whole backup is never written over. -/
theorem mem_vacuum_into (hentry : entry ∈ directory.entries) (hwhole : 0 < entry.metadata.len) (vacuum : Vacuum) :
    entry ∈ (directory.vacuum_into name vacuum).2.entries := by
  obtain ⟨-, hsame⟩ | ⟨-, hfree, file, hput⟩ := vacuum_into_cases directory name vacuum
  · rwa [hsame]
  · rw [hput]
    refine mem_put.mpr (.inr ⟨hentry, fun hname => ?_⟩)
    have hoccupied : directory.occupied name = true :=
      List.any_eq_true.mpr ⟨entry, hentry, by simp [show entry.name = name from hname, hwhole]⟩
    rw [hfree] at hoccupied
    contradiction

theorem newer_vacuum_into (vacuum : Vacuum) (later : String) :
    (directory.vacuum_into name vacuum).2.newer later ≤ directory.newer later + (directory.writes name vacuum).toNat := by
  obtain ⟨hwrites, hsame⟩ | ⟨hwrites, -, file, hput⟩ := vacuum_into_cases directory name vacuum
  · rw [hsame]
    exact Nat.le_add_right _ _
  · rw [hput, hwrites]
    exact newer_put_le later

end Pruning

section Service

/-- What the surroundings do while a backup is taken. -/
structure Attempt where
  time : Stamp
  /-- Why the directory cannot be created. -/
  creation : Option String := none
  vacuum : Vacuum
  listing : Listing := {}
  stuck : String → Bool := fun _ => false

/-- The directories that are there. -/
abbrev Disk : Type := String → Option Directory

def resolve_backup_dir (settings : BackupSettings) : String :=
  (settings.directory.filter (trim · ≠ "")).getD "backups"

def run_backup_once (settings : BackupSettings) (attempt : Attempt) (disk : Disk) : Except StoreError String × Disk :=
  let dir := resolve_backup_dir settings
  match disk dir, attempt.creation with
  | none, some error => (.error (.invalid ("failed to create backup dir: " ++ error)), disk)
  | found, _ =>
    let filename := attempt.time.filename
    match (found.getD {}).vacuum_into filename attempt.vacuum with
    | (.error error, directory) => (.error (.sql error), Function.update disk dir (some directory))
    | (.ok _, directory) =>
      (.ok filename, Function.update disk dir (some (directory.prune settings.keep attempt.listing attempt.stuck)))

structure Service where
  settings : BackupSettings := {}
  /-- When the last scheduled backup was taken, in seconds. -/
  last_backup : Nat := 0
  disk : Disk

def Service.run_backup (self : Service) (attempt : Attempt) : Except StoreError String × Service :=
  let (answer, disk) := run_backup_once self.settings attempt self.disk
  (answer, { self with disk })

/-- A scheduled backup is taken. -/
def Service.is_due (self : Service) (now : Nat) : Bool :=
  self.settings.interval_hours ≠ 0 && self.settings.interval_hours * 3600 ≤ now - self.last_backup

/-- A backup that failed is taken again with the next round. -/
def Service.auto_backup (self : Service) (now finished : Nat) (attempt : Attempt) : Service :=
  if self.is_due now then
    match self.run_backup attempt with
    | (.ok _, service) => { service with last_backup := finished }
    | (.error _, service) => service
  else self

def Service.set_backup_settings (self : Service) (settings : BackupSettings) : Except StoreError Service :=
  match settings.validate with
  | .error message => .error (.invalid message)
  | .ok () => .ok { self with settings }

/-- The file that a request names, in the directory of backups. -/
def Service.backup_file (self : Service) (name : String) : Except GatewayError Entry :=
  if !is_valid_backup_name name then .error (.invalid_request "invalid backup filename")
  else
    match (self.disk (resolve_backup_dir self.settings)).bind (·.entries.find? fun entry => entry.name = name && entry.is_file) with
    | none => .error (.not_found ("backup file `" ++ name ++ "` not found"))
    | some entry => .ok entry

def Service.download_backup (self : Service) (name : String) (failure : Option String) : Except GatewayError Entry :=
  (self.backup_file name).bind fun entry =>
    match failure with
    | some error => .error (.new .internal ("failed to read backup file: " ++ error))
    | none => .ok entry

def Service.delete_backup (self : Service) (name : String) (failure : Option String) : Except GatewayError Service :=
  (self.backup_file name).bind fun _ =>
    match failure with
    | some error => .error (.new .internal ("failed to remove backup file: " ++ error))
    | none =>
      let dir := resolve_backup_dir self.settings
      .ok { self with disk := Function.update self.disk dir ((self.disk dir).map (·.remove name)) }

/-- What happens around the backups. -/
inductive Event where
  | auto_backup (now finished : Nat) (attempt : Attempt)
  | run_backup (attempt : Attempt)
  | set_backup_settings (settings : BackupSettings)
  | delete_backup (name : String) (failure : Option String)
  /-- Another program writes or removes a file that is no backup by its name. -/
  | foreign (dir : String) (name : { name : String // is_valid_backup_name name = false }) (file : Option Metadata)

def Service.step (self : Service) : Event → Service
  | .auto_backup now finished attempt => self.auto_backup now finished attempt
  | .run_backup attempt => (self.run_backup attempt).2
  | .set_backup_settings settings => (self.set_backup_settings settings).toOption.getD self
  | .delete_backup name failure => (self.delete_backup name failure).toOption.getD self
  | .foreign dir name file =>
    { self with
      disk := Function.update self.disk dir ((self.disk dir).map fun directory =>
        match file with
        | some metadata => directory.put { name := name.val, metadata }
        | none => directory.remove name.val) }

/-- The backup that an event starts. -/
def Service.attempt (self : Service) : Event → Option Attempt
  | .auto_backup now _ attempt => if self.is_due now then some attempt else none
  | .run_backup attempt => some attempt
  | _ => none

end Service

section Retention

variable {settings : BackupSettings} {attempt : Attempt} {disk : Disk} {service : Service} {dir name : String}
  {entry : Entry} {n k : Nat} {event : Event} {events : List Event}

/-- An attempt adds an entry to a directory. -/
def writes (settings : BackupSettings) (attempt : Attempt) (disk : Disk) (dir : String) : Bool :=
  resolve_backup_dir settings = dir && ((disk dir).isSome || attempt.creation.isNone) &&
    ((disk dir).getD {}).writes attempt.time.filename attempt.vacuum

/-- An entry is in its directory, with no more than some later backups. -/
def Stores (disk : Disk) (dir : String) (entry : Entry) (n : Nat) : Prop :=
  ∃ directory, disk dir = some directory ∧ entry ∈ directory.entries ∧ directory.newer entry.name ≤ n

theorem Stores.update (hstores : Stores disk dir entry n) {other : String} {change : Directory → Directory}
    (hchange : other = dir → ∀ directory, entry ∈ directory.entries → entry ∈ (change directory).entries ∧
      (change directory).newer entry.name ≤ directory.newer entry.name) :
    Stores (Function.update disk other ((disk other).map change)) dir entry n := by
  obtain ⟨directory, hfound, hentry, hnewer⟩ := hstores
  by_cases hother : other = dir
  · obtain ⟨hkept, hle⟩ := hchange hother directory hentry
    refine ⟨change directory, ?_, hkept, hle.trans hnewer⟩
    rw [hother, Function.update_self, hfound, Option.map_some]
  · exact ⟨directory, by rwa [Function.update_of_ne (Ne.symm hother)], hentry, hnewer⟩

/-- Another backup is taken. -/
theorem stores_run_backup_once (hwhole : 0 < entry.metadata.len) (hstores : Stores disk dir entry n)
    (hkeep : settings.keep = 0 ∨ n + (writes settings attempt disk dir).toNat < settings.keep) :
    Stores (run_backup_once settings attempt disk).2 dir entry (n + (writes settings attempt disk dir).toNat) := by
  obtain ⟨directory, hfound, hentry, hnewer⟩ := hstores
  by_cases hdir : resolve_backup_dir settings = dir
  · have hwrites : writes settings attempt disk dir = directory.writes attempt.time.filename attempt.vacuum := by
      simp [writes, hdir, hfound]
    rw [hwrites] at hkeep ⊢
    have hmem : entry ∈ (directory.vacuum_into attempt.time.filename attempt.vacuum).2.entries :=
      mem_vacuum_into hentry hwhole attempt.vacuum
    have hlater : (directory.vacuum_into attempt.time.filename attempt.vacuum).2.newer entry.name ≤
        directory.newer entry.name + (directory.writes attempt.time.filename attempt.vacuum).toNat :=
      newer_vacuum_into attempt.vacuum entry.name
    simp only [run_backup_once, hdir, hfound, Option.getD_some]
    rcases hvacuum : directory.vacuum_into attempt.time.filename attempt.vacuum with ⟨_ | _, copied⟩ <;>
      simp only [hvacuum] at hmem hlater
    · exact ⟨copied, Function.update_self .., hmem, by omega⟩
    · refine ⟨_, Function.update_self .., mem_prune attempt.stuck hmem (by omega), ?_⟩
      have hpruned : (copied.prune settings.keep attempt.listing attempt.stuck).newer entry.name ≤ copied.newer entry.name :=
        newer_le_of_sublist (prune_sublist attempt.stuck) entry.name
      omega
  · have hsame : (run_backup_once settings attempt disk).2 dir = disk dir := by
      simp only [run_backup_once]
      split
      · rfl
      · split <;> exact Function.update_of_ne (Ne.symm hdir) ..
    exact ⟨directory, hsame.trans hfound, hentry, by omega⟩

/-- An event adds a backup to a directory. -/
def Service.writes (self : Service) (dir : String) (event : Event) : Bool :=
  (self.attempt event).any fun attempt => rotation.writes self.settings attempt self.disk dir

/-- How many backups a run adds to a directory. -/
def Service.written (dir : String) : Service → List Event → Nat
  | _, [] => 0
  | self, event :: events => (self.writes dir event).toNat + Service.written dir (self.step event) events

/-- At least `k` backups are kept, and the backup of a name is not deleted. -/
structure Spares (dir name : String) (k : Nat) (service : Service) (event : Event) : Prop where
  kept : service.settings.keep = 0 ∨ k ≤ service.settings.keep
  left : ∀ failure, event = .delete_backup name failure → resolve_backup_dir service.settings ≠ dir

theorem stores_step (hwhole : 0 < entry.metadata.len) (hvalid : is_valid_backup_name entry.name = true)
    (hstores : Stores service.disk dir entry n) (hspares : Spares dir entry.name k service event)
    (hfew : n + (service.writes dir event).toNat < k) :
    Stores (service.step event).disk dir entry (n + (service.writes dir event).toNat) := by
  have hmore := hspares.kept
  cases event with
  | auto_backup now finished attempt =>
    simp only [Service.step, Service.auto_backup, Service.writes, Service.attempt] at hfew ⊢
    split
    next hdue =>
      simp only [hdue, if_true, Option.any_some] at hfew ⊢
      have hstored : Stores (run_backup_once service.settings attempt service.disk).2 dir entry
          (n + (writes service.settings attempt service.disk dir).toNat) :=
        stores_run_backup_once hwhole hstores (by omega)
      simp only [Service.run_backup]
      rcases hrun : run_backup_once service.settings attempt service.disk with ⟨_ | _, disk⟩ <;>
        simpa only [hrun] using hstored
    next hdue => simpa [hdue] using hstores
  | run_backup attempt =>
    exact stores_run_backup_once hwhole hstores (by simp only [Service.writes, Service.attempt, Option.any_some] at hfew; omega)
  | set_backup_settings settings =>
    simp only [Service.step, Service.set_backup_settings, Service.writes, Service.attempt]
    split <;> exact hstores
  | delete_backup deleted failure =>
    simp only [Service.step, Service.delete_backup, Service.writes, Service.attempt]
    rcases service.backup_file deleted with _ | found
    · exact hstores
    · cases failure with
      | some error => exact hstores
      | none =>
        refine hstores.update fun hdir directory hentry => ⟨mem_remove.mpr ⟨hentry, fun hname => ?_⟩, ?_⟩
        · exact hspares.left none (by rw [hname]) hdir
        · exact newer_le_of_sublist List.filter_sublist _
  | foreign other foreign file =>
    have hne : entry.name ≠ foreign.val := fun hname => by
      have hinvalid := foreign.property
      rw [← hname, hvalid] at hinvalid
      contradiction
    refine hstores.update fun _ directory hentry => ?_
    cases file with
    | none => exact ⟨mem_remove.mpr ⟨hentry, hne⟩, newer_le_of_sublist List.filter_sublist _⟩
    | some metadata =>
      refine ⟨mem_put.mpr (.inr ⟨hentry, hne⟩), ?_⟩
      have hrest : (directory.remove foreign.val).newer entry.name ≤ directory.newer entry.name :=
        newer_le_of_sublist List.filter_sublist _
      simpa [Directory.newer, Directory.put, Directory.remove, foreign.property] using hrest

/-- A whole backup outlasts a run that adds too few others. -/
theorem stores_run (hwhole : 0 < entry.metadata.len) (hvalid : is_valid_backup_name entry.name = true)
    (hstores : Stores service.disk dir entry n) (hspared : Along Service.step (Spares dir entry.name k) service events)
    (hfew : n + service.written dir events < k) :
    Stores (events.foldl Service.step service).disk dir entry (n + service.written dir events) := by
  induction events generalizing service n with
  | nil => exact hstores
  | cons event events ih =>
    simp only [Service.written] at hfew ⊢
    have hnext := stores_step hwhole hvalid hstores hspared.1 (by omega)
    have hrest := ih hnext hspared.2 (by omega)
    rwa [Nat.add_assoc] at hrest

/-- No backup of a directory is later than a name. -/
def Behind (disk : Disk) (name : String) : Prop :=
  ∀ dir directory, disk dir = some directory →
    ∀ entry ∈ directory.entries, is_valid_backup_name entry.name = true → entry.name ≤ name

theorem Behind.update (hbehind : Behind disk name) {other : String} {changed : Option Directory}
    (hchanged : ∀ directory, changed = some directory →
      ∀ entry ∈ directory.entries, is_valid_backup_name entry.name = true → entry.name ≤ name) :
    Behind (Function.update disk other changed) name := by
  intro dir directory hfound
  by_cases hdir : dir = other
  · rw [hdir, Function.update_self] at hfound
    exact hchanged directory hfound
  · rw [Function.update_of_ne hdir] at hfound
    exact hbehind dir directory hfound

/-- A backup that is taken before. -/
theorem Behind.attempted (hbehind : Behind disk name) (hearlier : attempt.time.filename ≤ name) :
    Behind (run_backup_once settings attempt disk).2 name := by
  have hfound : ∀ entry ∈ ((disk (resolve_backup_dir settings)).getD {}).entries,
      is_valid_backup_name entry.name = true → entry.name ≤ name := by
    rcases hdisk : disk (resolve_backup_dir settings) with _ | directory
    · simp
    · exact hbehind _ directory hdisk
  have hcopied : ∀ entry ∈ (((disk (resolve_backup_dir settings)).getD {}).vacuum_into attempt.time.filename attempt.vacuum).2.entries,
      is_valid_backup_name entry.name = true → entry.name ≤ name := by
    obtain ⟨-, hsame⟩ | ⟨-, -, file, hput⟩ :=
      vacuum_into_cases ((disk (resolve_backup_dir settings)).getD {}) attempt.time.filename attempt.vacuum
    · rwa [hsame]
    · rw [hput]
      intro entry hentry hvalid
      rcases mem_put.mp hentry with rfl | ⟨hentry, -⟩
      · exact hearlier
      · exact hfound entry hentry hvalid
  simp only [run_backup_once]
  split
  · exact hbehind
  · split
    next hvacuum =>
      rw [hvacuum] at hcopied
      exact hbehind.update fun directory heq => Option.some.inj heq ▸ hcopied
    next hvacuum =>
      rw [hvacuum] at hcopied
      refine hbehind.update fun directory heq entry hentry => ?_
      rw [← Option.some.inj heq] at hentry
      exact hcopied entry ((prune_sublist attempt.stuck).subset hentry)

/-- When an event takes a backup. -/
def Event.time : Event → Option Stamp
  | .auto_backup _ _ attempt | .run_backup attempt => some attempt.time
  | _ => none

theorem Behind.step (hbehind : Behind service.disk name) (hearlier : ∀ time, event.time = some time → time.filename ≤ name) :
    Behind (service.step event).disk name := by
  have hmap : ∀ {dir : String} {change : Directory → Directory},
      (∀ directory, ∀ entry ∈ (change directory).entries, is_valid_backup_name entry.name = true → entry ∈ directory.entries) →
        Behind (Function.update service.disk dir ((service.disk dir).map change)) name := by
    intro dir change hchange
    refine hbehind.update fun directory heq entry hentry hvalid => ?_
    obtain ⟨before, hfound, rfl⟩ := Option.map_eq_some_iff.mp heq
    exact hbehind dir before hfound entry (hchange before entry hentry hvalid) hvalid
  cases event with
  | auto_backup now finished attempt =>
    simp only [Service.step, Service.auto_backup]
    split
    · have hafter : Behind (run_backup_once service.settings attempt service.disk).2 name :=
        hbehind.attempted (hearlier _ rfl)
      simp only [Service.run_backup]
      rcases hrun : run_backup_once service.settings attempt service.disk with ⟨_ | _, disk⟩ <;>
        simpa only [hrun] using hafter
    · exact hbehind
  | run_backup attempt => exact hbehind.attempted (hearlier _ rfl)
  | set_backup_settings settings =>
    simp only [Service.step, Service.set_backup_settings]
    split <;> exact hbehind
  | delete_backup deleted failure =>
    simp only [Service.step, Service.delete_backup]
    rcases service.backup_file deleted with _ | found
    · exact hbehind
    · cases failure with
      | some error => exact hbehind
      | none => exact hmap fun directory entry hentry _ => (mem_remove.mp hentry).1
  | foreign other foreign file =>
    refine hmap fun directory entry hentry hvalid => ?_
    cases file with
    | none => exact (mem_remove.mp hentry).1
    | some metadata =>
      rcases mem_put.mp hentry with rfl | ⟨hentry, -⟩
      · rw [foreign.property] at hvalid
        contradiction
      · exact hentry

theorem Behind.run (hbehind : Behind service.disk name)
    (hearlier : ∀ event ∈ events, ∀ time, event.time = some time → time.filename ≤ name) :
    Behind (events.foldl Service.step service).disk name :=
  List.foldlRecOn (motive := fun after => Behind (Service.disk after) name) events Service.step hbehind
    fun _ hafter event hevent => hafter.step (hearlier event hevent)

theorem vacuum_into_ok {directory after : Directory} {vacuum : Vacuum} {answer : Unit}
    (hcopied : directory.vacuum_into name vacuum = (.ok answer, after)) :
    ∃ file whole, vacuum = .done file whole ∧ after = directory.put { name, metadata := file } := by
  simp only [Directory.vacuum_into] at hcopied
  split at hcopied
  · cases hcopied
  · rcases vacuum with ⟨file, whole⟩ | ⟨error, _ | file⟩
    · exact ⟨file, whole, rfl, (Prod.mk.inj hcopied).2.symm⟩
    · cases hcopied
    · cases hcopied

/-- A backup that is the latest is not removed as soon as it is there. -/
theorem Behind.taken (hbehind : Behind disk attempt.time.filename)
    (htaken : (run_backup_once settings attempt disk).1 = .ok name) :
    name = attempt.time.filename ∧ ∃ file whole, attempt.vacuum = .done file whole ∧
      Stores (run_backup_once settings attempt disk).2 (resolve_backup_dir settings) { name, metadata := file } 0 := by
  simp only [run_backup_once] at htaken ⊢
  split at htaken
  · cases htaken
  · split at htaken
    next => cases htaken
    next hcopied =>
      cases htaken
      obtain ⟨file, whole, hdone, rfl⟩ := vacuum_into_ok hcopied
      have hlatest : ∀ entry ∈ (((disk (resolve_backup_dir settings)).getD {}).put ⟨attempt.time.filename, true, file⟩).entries,
          is_valid_backup_name entry.name = true → entry.name ≤ attempt.time.filename := by
        intro entry hentry hvalid
        rcases mem_put.mp hentry with rfl | ⟨hentry, -⟩
        · exact le_rfl
        · rcases hdisk : disk (resolve_backup_dir settings) with _ | directory
          · simp [hdisk] at hentry
          · rw [hdisk] at hentry
            exact hbehind _ directory hdisk entry hentry hvalid
      have hfirst := newer_eq_zero hlatest
      refine ⟨rfl, file, whole, hdone, _, Function.update_self .., mem_prune attempt.stuck (mem_put.mpr (.inl rfl)) ?_, ?_⟩
      · rw [hfirst]
        exact Nat.eq_zero_or_pos _
      · exact (newer_le_of_sublist (prune_sublist attempt.stuck) _).trans hfirst.le

theorem Service.step_attempt (hattempt : service.attempt event = some attempt) :
    (service.step event).disk = (run_backup_once service.settings attempt service.disk).2 := by
  cases event with
  | auto_backup now finished given =>
    simp only [Service.attempt] at hattempt
    split at hattempt
    next hdue =>
      cases hattempt
      simp only [Service.step, Service.auto_backup, hdue, if_true, Service.run_backup]
      rcases run_backup_once service.settings attempt service.disk with ⟨_ | _, disk⟩ <;> simp only
    next => cases hattempt
  | run_backup given =>
    cases hattempt
    rfl
  | set_backup_settings settings => cases hattempt
  | delete_backup deleted failure => cases hattempt
  | foreign other foreign file => cases hattempt

theorem backup_file_of_stores (entry : Entry) (hvalid : is_valid_backup_name entry.name = true) (hfile : entry.is_file = true)
    (hstores : Stores service.disk (resolve_backup_dir service.settings) entry n) : service.backup_file entry.name = .ok entry := by
  obtain ⟨directory, hfound, hentry, -⟩ := hstores
  have hfind : directory.entries.find? (fun other => other.name = entry.name && other.is_file) = some entry := by
    rcases hother : directory.entries.find? (fun other => other.name = entry.name && other.is_file) with _ | other
    · have hnone := List.find?_eq_none.mp hother entry hentry
      simp [hfile] at hnone
    · have hfound := List.find?_some hother
      rw [Bool.and_eq_true, decide_eq_true_eq] at hfound
      have hnames : (directory.entries.map (·.name)).Nodup := List.pairwise_map.mpr directory.distinct
      exact hother.trans (congrArg some (List.inj_on_of_nodup_map hnames (List.mem_of_find?_eq_some hother) hentry hfound.1))
  simp [Service.backup_file, hvalid, hfound, hfind]

/-- A run adds no more backups than it has steps. -/
theorem written_le_length : service.written dir events ≤ events.length := by
  induction events generalizing service with
  | nil => exact Nat.zero_le _
  | cons event events ih =>
    have hone := Bool.toNat_le (service.writes dir event)
    have hrest : (service.step event).written dir events ≤ events.length := ih
    simp only [Service.written, List.length_cons]
    omega

end Retention

section Example

/-- Noon of a day in August. -/
def noon (day : Fin 32) : Stamp where
  year := 2026
  month := 8
  day := day
  hour := 12
  minute := 0
  second := 0
  year_fits := by decide
  month_fits := by decide
  day_fits := by have := day.isLt; omega
  hour_fits := by decide
  minute_fits := by decide
  second_fits := by decide

def whole_copy (day : Fin 32) : Attempt := { time := noon day, vacuum := .done { len := 4096 } (by decide) }

/-- Backups are taken every day. -/
def daily : Service := Service.step { disk := fun _ => none } (.set_backup_settings { interval_hours := 24, keep := 2 })

end Example

end refract.gateway.rotation
