import Refract.Gateway.Guard

open refract.json refract.machine refract.router

namespace refract.gateway

section Extraction

def is_ascii_whitespace (c : Char) : Bool := c = ' ' || c = '\t' || c = '\n' || c = Char.ofNat 12 || c = '\r'

def is_visible_ascii (c : Char) : Bool := (32 ≤ c.toNat && c.toNat < 127) || c = '\t'

/-- The text of a header, if it is one. -/
def header_string (value : Option String) : Option String := value.filter (·.toList.all is_visible_ascii)

def eq_ignore_ascii_case (s t : List Char) : Bool := s.map Char.toLower = t.map Char.toLower

/-- The first word, and what follows the space after it. -/
def split_word (cs : List Char) : List Char × Option (List Char) :=
  match cs.dropWhile (!is_ascii_whitespace ·) with
  | [] => (cs, none)
  | _ :: rest => (cs.takeWhile (!is_ascii_whitespace ·), some rest)

def is_bearer (cs : List Char) : Bool := eq_ignore_ascii_case (split_word cs).1 "bearer".toList

/-- The token of an authorization header, with or without its scheme. -/
def authorization_token (raw : String) : Option String :=
  let trimmed := trimChars raw.toList
  if is_bearer trimmed then ((split_word trimmed).2.map trimChars).filter (· ≠ []) |>.map String.ofList
  else if trimmed ≠ [] then some (String.ofList trimmed)
  else none

def plain_token (value : Option String) : Option String := (value.map trim).filter (· ≠ "")

/-- The first of the protocols of a websocket that carries a token. -/
def websocket_token (protocols : String) : Option String :=
  (protocols.toList.splitOn ',').findSome? fun protocol =>
    ("openai-insecure-api-key.".toList.isPrefixOf? (trimChars protocol)).bind fun token =>
      if token = [] then none else some (String.ofList token)

def extract_token (authorization x_api_key x_goog_api_key query_key websocket_protocols : Option String) : Option String :=
  (authorization.bind authorization_token).or <| (plain_token x_api_key).or <| (plain_token x_goog_api_key).or <|
    (plain_token query_key).or (websocket_protocols.bind websocket_token)

end Extraction

section Tokens

variable (hash : String → String)

/-- What the settings hold after a request to set the token. Nothing clears it. -/
def set_admin_token (token : Option String) : Option String :=
  ((token.filter (trim · ≠ "")).map hash).filter (· ≠ "")

/-- How a token is carried by a request. -/
inductive Carriage where
  | login
  | bearer
  | bare
  | x_admin_token
  deriving DecidableEq, Repr

/-- The token that the gateway finds in a request. -/
def Carriage.found (token : String) : Carriage → Option String
  | .login => plain_token (some token)
  | .bearer => extract_token (header_string (some ("Bearer " ++ token))) (header_string none) none none none
  | .bare => extract_token (header_string (some token)) (header_string none) none none none
  | .x_admin_token => extract_token (header_string none) (header_string (some token)) none none none

/-- What becomes of a request that carries a token. -/
def Carriage.outcome (guard : AdminGuard) (ip : IpAddr) (stored : Option String) (moments : Moments) (token : String) (carriage : Carriage) :
    TokenOutcome :=
  match carriage with
  | .login => (auth_login hash guard ip (carriage.found token) stored moments).1
  | _ => (authenticate_admin_surface hash guard ip (carriage.found token) stored moments).1

/-- What a header carries is the token itself. A token that begins like a scheme
    is not told from one that follows it. -/
def Carriage.Carries (token : String) : Carriage → Prop
  | .bare => is_bearer (trimChars token.toList) = false
  | _ => True

/-- The token that was stored opens the door in every way, and no other one does
    that differs from it in more than the space around it. -/
structure Opens (guard : AdminGuard) (ip : IpAddr) (stored : Option String) (moments : Moments) (token : String) : Prop where
  opens : ∀ carriage : Carriage, carriage.outcome hash guard ip stored moments token = .accepted
  refuses : ∀ (carriage : Carriage) other, carriage.Carries other → trim other ≠ trim token →
    carriage.outcome hash guard ip stored moments other ≠ .accepted

/-- A token that is presented as it was stored: without space around it, of
    characters that a header may hold, and not one that begins like a scheme. -/
structure Presentable (token : String) : Prop where
  trimmed : trim token = token
  visible : token.toList.all is_visible_ascii
  no_scheme : is_bearer token.toList = false

variable {hash} {guard : AdminGuard} {ip : IpAddr} {moments : Moments} {token other : String} {stored : Option String}

theorem configured_stored (hstored : set_admin_token hash (some token) = stored) (htoken : trim token ≠ "")
    (hhash : trim (hash token) ≠ "") : configured stored = some (hash token) := by
  have hne : hash token ≠ "" := by
    intro hempty
    rw [hempty, trim_empty] at hhash
    exact hhash rfl
  rw [← hstored]
  simp [set_admin_token, configured, htoken, hne, hhash]

/-- A login is let in with the right token, unless the address is locked. -/
theorem login_accepted_iff {found : Option String} {expected : String} (hexpected : configured stored = some expected) :
    (auth_login hash guard ip found stored moments).1 = .accepted ↔
      (guard.check_locked ip moments.checked).1 = none ∧ ∃ token, found = some token ∧ hash token = expected := by
  unfold auth_login
  cases found with
  | none => simp
  | some token =>
    rcases hlock : guard.check_locked ip moments.checked with ⟨_ | wait_secs, unlocked⟩
    · simp only [hexpected]
      by_cases hright : hash token = expected <;> simp [hright]
    · simp

theorem surface_accepted_iff {found : Option String} {expected : String} (hexpected : configured stored = some expected) :
    (authenticate_admin_surface hash guard ip found stored moments).1 = .accepted ↔
      ∃ token, found = some token ∧ hash token = expected := by
  unfold authenticate_admin_surface
  cases found with
  | none => simp [hexpected]
  | some token =>
    simp only [hexpected]
    by_cases hright : hash token = expected <;> simp [hright]

/-- What a header with a text is found to carry. -/
def sent (token : String) : Option String := if token.toList.all is_visible_ascii then plain_token (some token) else none

theorem plain_token_eq_some {found : String} : plain_token (some token) = some found ↔ trim token = found ∧ trim token ≠ "" := by
  simp only [plain_token, Option.map_some, Option.filter_eq_some_iff, Option.some.injEq]
  constructor
  · rintro ⟨rfl, hne⟩
    exact ⟨rfl, by simpa using hne⟩
  · rintro ⟨rfl, hne⟩
    exact ⟨rfl, by simpa using hne⟩

theorem sent_eq_some {found : String} :
    sent token = some found ↔ token.toList.all is_visible_ascii = true ∧ trim token = found ∧ trim token ≠ "" := by
  unfold sent
  split
  next hvisible => simp [plain_token_eq_some, hvisible]
  next hvisible => simp [hvisible]

theorem ofList_eq_empty {cs : List Char} : String.ofList cs = "" ↔ cs = [] := by
  rw [← String.toList_inj, String.toList_ofList]
  rfl

/-- A text of characters is kept on the same terms as the text. -/
theorem filter_map_ofList (cs : List Char) :
    ((some cs).filter (· ≠ [])).map String.ofList = (some (String.ofList cs)).filter (· ≠ "") := by
  by_cases hcs : cs = []
  · subst hcs
    rfl
  · have htext : String.ofList cs ≠ "" := fun h => hcs (ofList_eq_empty.mp h)
    rw [Option.filter_some, if_pos (decide_eq_true hcs), Option.filter_some, if_pos (decide_eq_true htext), Option.map_some]

/-- The scheme is taken off. -/
theorem authorization_token_bearer (token : String) : authorization_token ("Bearer " ++ token) = plain_token (some token) := by
  have hraw : ("Bearer " ++ token).toList = 'B' :: ("earer ".toList ++ token.toList) := by
    rw [String.toList_append]
    rfl
  have htrim : trimChars ("Bearer " ++ token).toList = 'B' :: trimEnd ("earer ".toList ++ token.toList) := by
    rw [hraw, trimChars_eq_trimEnd (by decide), trimEnd_cons_of_visible (by decide)]
  unfold authorization_token
  rw [htrim]
  by_cases hblank : trimEnd token.toList = []
  · have hempty : trimChars token.toList = [] := by rw [← trimChars_trimEnd, hblank]; rfl
    have hscheme : trimEnd ("earer ".toList ++ token.toList) = "earer".toList := by
      have hall : token.toList.reverse.dropWhile is_whitespace = [] := by simpa [trimEnd] using hblank
      rw [trimEnd, List.reverse_append, List.dropWhile_append, hall]
      decide
    rw [hscheme]
    simp [plain_token, trim, hempty]
    decide
  · have hscheme : trimEnd ("earer ".toList ++ token.toList) = "earer ".toList ++ trimEnd token.toList := trimEnd_append _ hblank
    have hsplit : split_word ('B' :: ("earer ".toList ++ trimEnd token.toList)) = ("Bearer".toList, some (trimEnd token.toList)) := rfl
    have hbearer : is_bearer ('B' :: ("earer ".toList ++ trimEnd token.toList)) = true := by
      rw [is_bearer, hsplit]
      exact (by decide : eq_ignore_ascii_case "Bearer".toList "bearer".toList = true)
    rw [hscheme, if_pos hbearer, hsplit]
    change ((some (trimChars (trimEnd token.toList))).filter (· ≠ [])).map String.ofList = _
    rw [trimChars_trimEnd, filter_map_ofList]
    rfl

/-- Without a scheme the whole text is the token. -/
theorem authorization_token_bare (hbare : is_bearer (trimChars token.toList) = false) :
    authorization_token token = plain_token (some token) := by
  unfold authorization_token
  rw [if_neg (by simp [hbare])]
  change _ = (some (String.ofList (trimChars token.toList))).filter (· ≠ "")
  by_cases hblank : trimChars token.toList = []
  · rw [hblank]
    rfl
  · have htext : String.ofList (trimChars token.toList) ≠ "" := fun h => hblank (ofList_eq_empty.mp h)
    rw [if_pos hblank, Option.filter_some, if_pos (decide_eq_true htext)]

theorem trimChars_length_le (cs : List Char) : (trimChars cs).length ≤ cs.length := by
  unfold trimChars
  rw [List.length_reverse]
  refine le_trans (List.dropWhile_suffix _).length_le ?_
  rw [List.length_reverse]
  exact (List.dropWhile_suffix _).length_le

/-- What is found after a scheme is shorter than the whole. -/
theorem authorization_token_shorter {found : String} (hbearer : is_bearer (trimChars token.toList) = true)
    (hfound : authorization_token token = some found) : found.toList.length < token.toList.length := by
  unfold authorization_token at hfound
  rw [if_pos hbearer] at hfound
  obtain ⟨cs, hcs, rfl⟩ := Option.map_eq_some_iff.mp hfound
  obtain ⟨rest, hrest, rfl⟩ := Option.map_eq_some_iff.mp (Option.filter_eq_some_iff.mp hcs).1
  rw [String.toList_ofList]
  have hsplit : rest.length < (trimChars token.toList).length := by
    unfold split_word at hrest
    split at hrest
    · cases hrest
    next c tail hdrop =>
      obtain rfl := Option.some.inj hrest
      have hlen := (List.dropWhile_suffix (!is_ascii_whitespace ·) (l := trimChars token.toList)).length_le
      rw [hdrop, List.length_cons] at hlen
      omega
  have hrest_le := trimChars_length_le rest
  have htoken_le := trimChars_length_le token.toList
  omega

theorem header_string_some (value : String) :
    header_string (some value) = if value.toList.all is_visible_ascii then some value else none := Option.filter_some

/-- The first header counts that has a token. -/
theorem extract_token_first (authorization x_api_key : Option String) :
    extract_token authorization x_api_key none none none = (authorization.bind authorization_token).or (plain_token x_api_key) := by
  have hnone : plain_token none = none := rfl
  simp only [extract_token, hnone, Option.bind_none, Option.or_none]

theorem found_x_admin_token (token : String) : Carriage.found token .x_admin_token = sent token := by
  change extract_token (header_string none) (header_string (some token)) none none none = sent token
  rw [extract_token_first, header_string_some, sent]
  by_cases hvisible : token.toList.all is_visible_ascii = true
  · rw [if_pos hvisible, if_pos hvisible]
    rfl
  · rw [if_neg hvisible, if_neg hvisible]
    rfl

theorem found_bearer (token : String) : Carriage.found token .bearer = sent token := by
  have hscheme : ("Bearer " ++ token).toList.all is_visible_ascii = token.toList.all is_visible_ascii := by
    rw [String.toList_append, List.all_append]
    exact Bool.true_and _
  change extract_token (header_string (some ("Bearer " ++ token))) (header_string none) none none none = sent token
  rw [extract_token_first, header_string_some, hscheme, sent]
  by_cases hvisible : token.toList.all is_visible_ascii = true
  · rw [if_pos hvisible, if_pos hvisible]
    exact Option.or_none.trans (authorization_token_bearer token)
  · rw [if_neg hvisible, if_neg hvisible]
    rfl

theorem found_bare (token : String) :
    Carriage.found token .bare = if token.toList.all is_visible_ascii then authorization_token token else none := by
  change extract_token (header_string (some token)) (header_string none) none none none = _
  rw [extract_token_first, header_string_some]
  by_cases hvisible : token.toList.all is_visible_ascii = true
  · rw [if_pos hvisible, if_pos hvisible]
    exact Option.or_none
  · rw [if_neg hvisible, if_neg hvisible]
    rfl

theorem outcome_surface {expected : String} (hexpected : configured stored = some expected) {carriage : Carriage}
    (hcarriage : carriage ≠ .login) :
    carriage.outcome hash guard ip stored moments token = .accepted ↔ ∃ found, carriage.found token = some found ∧ hash found = expected := by
  cases carriage with
  | login => exact absurd rfl hcarriage
  | bearer => exact surface_accepted_iff hexpected
  | bare => exact surface_accepted_iff hexpected
  | x_admin_token => exact surface_accepted_iff hexpected

/-- Whatever a request carries as a token is found without the space around it. -/
theorem found_trimmed {carriage : Carriage} {found : String} (hcarries : carriage.Carries token)
    (hfound : carriage.found token = some found) : trim token = found := by
  cases carriage with
  | login => exact (plain_token_eq_some.mp hfound).1
  | bearer =>
    rw [found_bearer] at hfound
    exact (sent_eq_some.mp hfound).2.1
  | bare =>
    rw [found_bare] at hfound
    split at hfound
    · rw [authorization_token_bare hcarries] at hfound
      exact (plain_token_eq_some.mp hfound).1
    · cases hfound
  | x_admin_token =>
    rw [found_x_admin_token] at hfound
    exact (sent_eq_some.mp hfound).2.1

/-- The token that was accepted when it was set opens the door in every way, and
    no other token does, exactly if it can be presented as it was stored and the
    address is not locked. -/
theorem opens_iff_presentable (hcollision : ∀ other, hash other = hash token → other = token) (hhash : trim (hash token) ≠ "")
    (hset : set_admin_token hash (some token) = stored) (htoken : trim token ≠ "") :
    Opens hash guard ip stored moments token ↔ (guard.check_locked ip moments.checked).1 = none ∧ Presentable token := by
  have hexpected := configured_stored hset htoken hhash
  constructor
  · rintro ⟨hopens, -⟩
    obtain ⟨hunlocked, found, hfound, hright⟩ := (login_accepted_iff hexpected).mp (hopens .login)
    have htrimmed : trim token = token := (plain_token_eq_some.mp hfound).1.trans (hcollision found hright)
    refine ⟨hunlocked, htrimmed, ?_, ?_⟩
    · obtain ⟨found, hfound, -⟩ := (outcome_surface hexpected (by decide)).mp (hopens .x_admin_token)
      rw [found_x_admin_token] at hfound
      exact (sent_eq_some.mp hfound).1
    · obtain ⟨found, hfound, hright⟩ := (outcome_surface hexpected (by decide)).mp (hopens .bare)
      obtain rfl := hcollision found hright
      rw [found_bare] at hfound
      have hchars : trimChars found.toList = found.toList := by
        rw [← String.toList_ofList (l := trimChars found.toList)]
        exact congrArg String.toList htrimmed
      rw [Bool.eq_false_iff]
      intro hbearer
      rw [← hchars] at hbearer
      split at hfound
      · exact absurd (authorization_token_shorter hbearer hfound) (lt_irrefl _)
      · cases hfound
  · rintro ⟨hunlocked, htrimmed, hvisible, hscheme⟩
    have hplain : plain_token (some token) = some token := plain_token_eq_some.mpr ⟨htrimmed, htoken⟩
    have hsent : sent token = some token := sent_eq_some.mpr ⟨hvisible, htrimmed, htoken⟩
    have hchars : trimChars token.toList = token.toList := by
      rw [← String.toList_ofList (l := trimChars token.toList)]
      exact congrArg String.toList htrimmed
    refine ⟨fun carriage => ?_, fun carriage other hcarries hother haccepted => ?_⟩
    · cases carriage with
      | login => exact (login_accepted_iff hexpected).mpr ⟨hunlocked, token, hplain, rfl⟩
      | bearer => exact (surface_accepted_iff hexpected).mpr ⟨token, (found_bearer token).trans hsent, rfl⟩
      | bare =>
        refine (surface_accepted_iff hexpected).mpr ⟨token, ?_, rfl⟩
        rw [found_bare, if_pos hvisible, authorization_token_bare (by rw [hchars]; exact hscheme), hplain]
      | x_admin_token => exact (surface_accepted_iff hexpected).mpr ⟨token, (found_x_admin_token token).trans hsent, rfl⟩
    · have hfound : ∃ found, carriage.found other = some found ∧ hash found = hash token := by
        by_cases hlogin : carriage = .login
        · subst hlogin
          exact ((login_accepted_iff hexpected).mp haccepted).2
        · exact (outcome_surface hexpected hlogin).mp haccepted
      obtain ⟨found, hfound, hright⟩ := hfound
      obtain rfl := hcollision found hright
      refine hother ?_
      rw [← found_trimmed hcarries hfound, trim_trim]

/-- The hash of a sample token, and something else for other tokens. -/
def sample_hash (sample digest token : String) : String := if token = sample then digest else "-"

theorem sample_hash_collision {sample digest other : String} (hdigest : digest ≠ "-")
    (hsame : sample_hash sample digest other = sample_hash sample digest sample) : other = sample := by
  unfold sample_hash at hsame
  rw [if_pos rfl] at hsame
  split at hsame
  next hother => exact hother
  next => exact absurd hsame.symm hdigest

theorem opens_presentable_token :
    Opens (sample_hash "sk" "MrVu1TNIqFh_MMkOXGQG35XTuKsRMLHaYrz0kqjtimM") {} IpAddr.LOCALHOST
      (some "MrVu1TNIqFh_MMkOXGQG35XTuKsRMLHaYrz0kqjtimM") ⟨0, 0, 0⟩ "sk" :=
  (opens_iff_presentable (fun _ => sample_hash_collision (by decide)) (by decide +kernel) (by decide +kernel)
    (by decide +kernel)).mpr ⟨rfl, by decide +kernel, by decide +kernel, by decide +kernel⟩

/-- A token that was set with a space in front is turned away at the login. -/
theorem padded_token_refused :
    ¬∀ (hash : String → String) (token : String) (stored : Option String), (∀ other, hash other = hash token → other = token) →
      trim (hash token) ≠ "" → set_admin_token hash (some token) = stored → trim token ≠ "" →
      Opens hash {} IpAddr.LOCALHOST stored ⟨0, 0, 0⟩ token := by
  intro hall
  have hopens := hall (sample_hash " sk" "EQzvqenFua0vfvolYQPXrOw4dW0VhvvZ6eDgW9a2r40") " sk" _
    (fun _ => sample_hash_collision (by decide)) (by decide +kernel) rfl (by decide +kernel)
  exact absurd (hopens.opens .login) (by decide +kernel)

end Tokens

end refract.gateway
