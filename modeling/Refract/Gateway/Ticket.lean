import Mathlib.Tactic.Common
import Refract.Json.RoundTrip
import Refract.Stream.Utf8

open refract.json refract.stream

namespace refract.gateway.tickets

section Numerals

def parse_digits (cs : List Char) : Option Nat := if cs ≠ [] ∧ cs.all isDigit then some (ofDigits cs) else none

/-- A number of 64 bits, which may have a sign and zeros in front. -/
def parse_i64 : List Char → Option Int
  | '-' :: cs => ((parse_digits cs).filter (· ≤ 9223372036854775808)).map fun n : Nat => -(n : Int)
  | '+' :: cs => ((parse_digits cs).filter (· < 9223372036854775808)).map fun n : Nat => (n : Int)
  | cs => ((parse_digits cs).filter (· < 9223372036854775808)).map fun n : Nat => (n : Int)

def parse_u64 : List Char → Option Nat
  | '+' :: cs => (parse_digits cs).filter (· < 18446744073709551616)
  | cs => (parse_digits cs).filter (· < 18446744073709551616)

def hex_encode (bytes : Bytes) : List Char := bytes.flatMap fun b => [hexDigit (b.toNat / 16), hexDigit (b.toNat % 16)]

/-- Letters may be of either case. -/
def hex_decode : List Char → Option Bytes
  | [] => some []
  | [_] => none
  | a :: b :: cs => do
    let high ← hexValue a
    let low ← hexValue b
    let bytes ← hex_decode cs
    return .ofNat (high * 16 + low) :: bytes

/-- The range of a signed number of 64 bits. -/
def InI64 (i : Int) : Prop := -9223372036854775808 ≤ i ∧ i < 9223372036854775808

instance inI64Decidable (i : Int) : Decidable (InI64 i) := inferInstanceAs (Decidable (_ ∧ _))

abbrev I64 : Type := { i : Int // InI64 i }

/-- A text without colons that a number is read from. -/
def Plain (cs : List Char) : Prop := ':' ∉ cs

theorem parse_digits_plain {cs : List Char} {n : Nat} (hparse : parse_digits cs = some n) : Plain cs := by
  unfold parse_digits at hparse
  split at hparse
  next hdigits =>
    intro hcolon
    exact absurd (List.all_eq_true.mp hdigits.2 _ hcolon) (by decide)
  · cases hparse

theorem parse_u64_plain {cs : List Char} {n : Nat} (hparse : parse_u64 cs = some n) : Plain cs := by
  unfold parse_u64 at hparse
  split at hparse
  next cs =>
    have hplain := parse_digits_plain (Option.filter_eq_some_iff.mp hparse).1
    exact fun hcolon => hplain ((List.mem_cons.mp hcolon).resolve_left (by decide))
  next => exact parse_digits_plain (Option.filter_eq_some_iff.mp hparse).1

theorem parse_i64_plain {cs : List Char} {n : Int} (hparse : parse_i64 cs = some n) : Plain cs := by
  unfold parse_i64 at hparse
  split at hparse
  all_goals
    obtain ⟨m, hm, -⟩ := Option.map_eq_some_iff.mp hparse
    have hplain := parse_digits_plain (Option.filter_eq_some_iff.mp hm).1
  · exact fun hcolon => hplain ((List.mem_cons.mp hcolon).resolve_left (by decide))
  · exact fun hcolon => hplain ((List.mem_cons.mp hcolon).resolve_left (by decide))
  · exact hplain

theorem parse_i64_range {cs : List Char} {i : Int} (hparse : parse_i64 cs = some i) : InI64 i := by
  unfold parse_i64 at hparse
  unfold InI64
  split at hparse
  all_goals
    obtain ⟨m, hm, rfl⟩ := Option.map_eq_some_iff.mp hparse
    have hbound := of_decide_eq_true (Option.filter_eq_some_iff.mp hm).2
    omega

theorem digits_plain (n : Nat) : Plain (digits n) := fun hcolon => absurd (digits_isDigit n _ hcolon) (by decide)

theorem parse_digits_digits (n : Nat) : parse_digits (digits n) = some n := by
  rw [parse_digits, if_pos ⟨digits_ne_nil n, List.all_eq_true.mpr (digits_isDigit n)⟩, ofDigits_digits]

/-- A number that was written without a sign is not read with one. -/
theorem digits_ne_cons {n : Nat} {c : Char} {cs : List Char} (hc : isDigit c = false) : digits n ≠ c :: cs := by
  intro heq
  have hdigit := digits_isDigit n c (by rw [heq]; exact List.mem_cons_self)
  rw [hc] at hdigit
  cases hdigit

theorem parse_i64_digits {n : Nat} {i : Int} (hparse : parse_i64 (digits n) = some i) : i = n := by
  unfold parse_i64 at hparse
  split at hparse
  next heq => exact absurd heq (digits_ne_cons (by decide))
  next heq => exact absurd heq (digits_ne_cons (by decide))
  next =>
    rw [parse_digits_digits] at hparse
    obtain ⟨m, hm, rfl⟩ := Option.map_eq_some_iff.mp hparse
    rw [Option.some.inj (Option.filter_eq_some_iff.mp hm).1]

theorem parse_u64_digits {n m : Nat} (hparse : parse_u64 (digits n) = some m) : m = n := by
  unfold parse_u64 at hparse
  split at hparse
  next heq => exact absurd heq (digits_ne_cons (by decide))
  next =>
    rw [parse_digits_digits] at hparse
    exact (Option.some.inj (Option.filter_eq_some_iff.mp hparse).1).symm

theorem printInt_injective {i j : Int} (heq : printInt i = printInt j) : i = j := by
  have hdigits : ∀ {m n : Nat}, digits m = digits n → m = n := by
    intro m n h
    rw [← ofDigits_digits m, h, ofDigits_digits]
  cases i with
  | ofNat m =>
    cases j with
    | ofNat n => exact congrArg Int.ofNat (hdigits heq)
    | negSucc n => exact absurd heq (digits_ne_cons (by decide))
  | negSucc m =>
    cases j with
    | ofNat n => exact absurd heq.symm (digits_ne_cons (by decide))
    | negSucc n => exact congrArg Int.negSucc (Nat.succ.inj (hdigits (List.cons.inj heq).2))

/-- What was written with a sign or without is read back. -/
theorem parse_i64_printInt (i : I64) : parse_i64 (printInt i) = some i.val := by
  obtain ⟨i, hlow, hhigh⟩ := i
  cases i with
  | ofNat n =>
    have hbound : n < 9223372036854775808 := Int.ofNat_lt.mp hhigh
    change parse_i64 (digits n) = some (n : Int)
    unfold parse_i64
    split
    next heq => exact absurd heq (digits_ne_cons (by decide))
    next heq => exact absurd heq (digits_ne_cons (by decide))
    next => rw [parse_digits_digits, Option.filter_some, if_pos (decide_eq_true hbound), Option.map_some]
  | negSucc n =>
    have hbound : n + 1 ≤ 9223372036854775808 := by omega
    change parse_i64 ('-' :: digits (n + 1)) = some _
    rw [parse_i64, parse_digits_digits, Option.filter_some, if_pos (decide_eq_true hbound), Option.map_some]
    rfl

/-- A number below a power of ten has no more digits than that has zeros. -/
theorem digits_length_le {k n : Nat} (hk : 0 < k) (hn : n < Nat.pow 10 k) : (digits n).length ≤ k := by
  induction k generalizing n with
  | zero => omega
  | succ k ih =>
    rw [digits]
    split
    · simp
    next hbig =>
      have hpow : Nat.pow 10 (k + 1) = Nat.pow 10 k * 10 := rfl
      have hrest : n / 10 < Nat.pow 10 k := by omega
      have hpos : 0 < k := by
        rcases Nat.eq_zero_or_pos k with rfl | hpos
        · have hone : Nat.pow 10 0 = 1 := rfl
          omega
        · exact hpos
      have hlen := ih hpos hrest
      simp only [List.length_append, List.length_singleton]
      omega

/-- A number of 64 bits has at most twenty characters. -/
theorem printInt_length_le {i : Int} (hi : InI64 i) : (printInt i).length ≤ 20 := by
  obtain ⟨hlow, hhigh⟩ := hi
  have hpow : Nat.pow 10 19 = 10000000000000000000 := by decide
  cases i with
  | ofNat n =>
    have hbound : n < 9223372036854775808 := Int.ofNat_lt.mp hhigh
    have hlen := digits_length_le (k := 19) (n := n) (by decide) (by omega)
    exact le_trans hlen (by decide)
  | negSucc n =>
    have hlen := digits_length_le (k := 19) (n := n + 1) (by decide) (by omega)
    exact Nat.succ_le_succ hlen

theorem hexValue_hexDigit {n : Nat} (hn : n < 16) : hexValue (hexDigit n) = some n := by
  have hall : ∀ n < 16, hexValue (hexDigit n) = some n := by decide
  exact hall n hn

theorem hex_decode_encode (bytes : Bytes) : hex_decode (hex_encode bytes) = some bytes := by
  induction bytes with
  | nil => rfl
  | cons b bytes ih =>
    have hb : b.toNat < 256 := b.toNat_lt
    have hhigh := hexValue_hexDigit (n := b.toNat / 16) (by omega)
    have hlow := hexValue_hexDigit (n := b.toNat % 16) (by omega)
    have hsum : b.toNat / 16 * 16 + b.toNat % 16 = b.toNat := by omega
    change hex_decode (hexDigit (b.toNat / 16) :: hexDigit (b.toNat % 16) :: hex_encode bytes) = _
    rw [hex_decode, hhigh, hlow, ih]
    change some (UInt8.ofNat (b.toNat / 16 * 16 + b.toNat % 16) :: bytes) = _
    rw [hsum, UInt8.ofNat_toNat]

/-- The last of the texts between separators is not mistaken for a part of the
    one before. -/
theorem append_cons_inj_of_plain {front front' last last' : List Char} (hlast : Plain last) (hlast' : Plain last')
    (heq : front ++ ':' :: last = front' ++ ':' :: last') : front = front' ∧ last = last' := by
  rcases List.append_eq_append_iff.mp heq with ⟨mid, rfl, hmid⟩ | ⟨mid, rfl, hmid⟩
  · cases mid with
    | nil => exact ⟨(List.append_nil _).symm, (List.cons.inj hmid).2⟩
    | cons c mid =>
      refine absurd ?_ hlast
      rw [(List.cons.inj hmid).2]
      exact List.mem_append_right _ List.mem_cons_self
  · cases mid with
    | nil => exact ⟨List.append_nil _, (List.cons.inj hmid).2.symm⟩
    | cons c mid =>
      refine absurd ?_ hlast'
      rw [(List.cons.inj hmid).2]
      exact List.mem_append_right _ List.mem_cons_self

end Numerals

inductive SessionSubject where
  | legacy_admin
  | user (user_id : Int)
  deriving DecidableEq, Repr

structure VerifiedSession where
  subject : SessionSubject
  iat : Int
  deriving DecidableEq, Repr

/-- What is signed: whom a ticket is for, and its two times. -/
def message (subject issued_str expiry_str : List Char) : String :=
  String.ofList (subject ++ ':' :: issued_str ++ ':' :: expiry_str)

section Tickets

variable (hmac_sha256 : Bytes → String → Bytes) (session_secret : Bytes)

def ticket_expiry (ttl_secs now : Nat) : Nat := min (now + ttl_secs) 18446744073709551615

def create_user_session_ticket (user_id : I64) (ttl_secs now : Nat) : String :=
  let expiry := ticket_expiry ttl_secs now
  let sig := hmac_sha256 session_secret (message (printInt user_id) (digits now) (digits expiry))
  String.ofList (digits now ++ '.' :: digits expiry ++ '.' :: printInt user_id ++ '.' :: hex_encode sig)

/-- The last part of a ticket is the signature of a message. -/
def signed (sig_hex : List Char) (text : String) : Bool := hex_decode sig_hex = some (hmac_sha256 session_secret text)

def verify_session_ticket (ticket expected_legacy_hash : String) (now : Nat) : Option VerifiedSession :=
  match ticket.toList.splitOn '.' with
  | [issued_str, expiry_str, user_str, sig_hex] => do
    let iat ← parse_i64 issued_str
    let expiry ← parse_u64 expiry_str
    let user_id ← parse_i64 user_str
    if expiry ≤ now then none
    else if signed hmac_sha256 session_secret sig_hex (message (printInt user_id) issued_str expiry_str) then
      some { subject := .user user_id, iat }
    else none
  | [issued_str, expiry_str, sig_hex] => do
    let iat ← parse_i64 issued_str
    let expiry ← parse_u64 expiry_str
    if expiry ≤ now then none
    else if signed hmac_sha256 session_secret sig_hex (message expected_legacy_hash.toList issued_str expiry_str) then
      some { subject := .legacy_admin, iat }
    else none
  | _ => none

end Tickets

/-- The setting with the hash of the administrator's token. It is no number of a
    user. -/
structure LegacyHash where
  text : String
  not_user : ∀ user_id : I64, text.toList ≠ printInt user_id

/-- A hash is longer than any number of a user. -/
def LegacyHash.of_long (text : String) (hlong : 20 < text.toList.length) : LegacyHash where
  text := text
  not_user user_id heq := by
    have hlen := printInt_length_le user_id.property
    rw [← heq] at hlen
    omega

/-- Without a token the setting is empty. -/
def LegacyHash.unset : LegacyHash where
  text := ""
  not_user user_id heq := by
    obtain ⟨i, hi⟩ := user_id
    cases i with
    | ofNat n => exact digits_ne_nil n heq.symm
    | negSucc n => cases heq

/-- A ticket that the gateway issued. Those of the older form carry the hash of
    the administrator's token in their message. -/
inductive Issue where
  | user (user_id : I64) (now expiry : Nat)
  | legacy (hash : LegacyHash) (now expiry : Nat)

namespace Issue

def iat : Issue → Nat
  | .user _ now _ | .legacy _ now _ => now

def expiry : Issue → Nat
  | .user _ _ expiry | .legacy _ _ expiry => expiry

/-- Whom the message of a ticket names. -/
def holder : Issue → List Char
  | .user user_id _ _ => printInt user_id
  | .legacy hash _ _ => hash.text.toList

def subject : Issue → SessionSubject
  | .user user_id _ _ => .user user_id
  | .legacy _ _ _ => .legacy_admin

variable (self : Issue)

def text : String := message self.holder (digits self.iat) (digits self.expiry)

/-- The parts of a string that present a ticket: its times as they were written,
    the number of its user in any spelling, and its signature in any case. -/
def Presented (hmac_sha256 : Bytes → String → Bytes) (session_secret : Bytes) (ticket : String) : Prop :=
  ∃ user_part sig_hex, ticket.toList.splitOn '.' = [digits self.iat, digits self.expiry] ++ user_part ++ [sig_hex] ∧
    hex_decode sig_hex = some (hmac_sha256 session_secret self.text) ∧
    match self with
    | .user user_id _ _ => ∃ user_str, user_part = [user_str] ∧ parse_i64 user_str = some user_id
    | .legacy _ _ _ => user_part = []

end Issue

/-- A string ends in a signature of the gateway only if that is the signature of
    a ticket it issued. -/
def Unforgeable (hmac_sha256 : Bytes → String → Bytes) (session_secret : Bytes) (issued : List Issue) (ticket : String) : Prop :=
  ∀ sig_hex text, (ticket.toList.splitOn '.').getLast? = some sig_hex → hex_decode sig_hex = some (hmac_sha256 session_secret text) →
    ∃ issue ∈ issued, issue.text = text

section Verification

variable {hmac_sha256 : Bytes → String → Bytes} {session_secret : Bytes} {issued : List Issue} {ticket : String}
  {hash : LegacyHash} {now : Nat} {session : VerifiedSession}

/-- What is signed says whom it is for, and when it was issued and expires. -/
theorem message_inj {holder holder' issued_str issued_str' expiry_str expiry_str' : List Char} (hissued : Plain issued_str)
    (hissued' : Plain issued_str') (hexpiry : Plain expiry_str) (hexpiry' : Plain expiry_str')
    (heq : message holder issued_str expiry_str = message holder' issued_str' expiry_str') :
    holder = holder' ∧ issued_str = issued_str' ∧ expiry_str = expiry_str' := by
  have hchars : holder ++ ':' :: issued_str ++ ':' :: expiry_str = holder' ++ ':' :: issued_str' ++ ':' :: expiry_str' := by
    simpa [message] using congrArg String.toList heq
  obtain ⟨hfront, hlast⟩ := append_cons_inj_of_plain hexpiry hexpiry' hchars
  obtain ⟨hholder, htime⟩ := append_cons_inj_of_plain hissued hissued' hfront
  exact ⟨hholder, htime, hlast⟩

/-- A string that is accepted has the parts of a ticket, of one form or the
    other. -/
theorem verify_session_ticket_cases {expected_legacy_hash : String}
    (hverify : verify_session_ticket hmac_sha256 session_secret ticket expected_legacy_hash now = some session) :
    ∃ issued_str expiry_str sig_hex iat expiry holder, parse_i64 issued_str = some iat ∧ parse_u64 expiry_str = some expiry ∧
      now < expiry ∧ hex_decode sig_hex = some (hmac_sha256 session_secret (message holder issued_str expiry_str)) ∧
      ((∃ user_str user_id, ticket.toList.splitOn '.' = [issued_str, expiry_str, user_str, sig_hex] ∧
          parse_i64 user_str = some user_id ∧ holder = printInt user_id ∧ session = { subject := .user user_id, iat }) ∨
        (ticket.toList.splitOn '.' = [issued_str, expiry_str, sig_hex] ∧ holder = expected_legacy_hash.toList ∧
          session = { subject := .legacy_admin, iat })) := by
  unfold verify_session_ticket at hverify
  split at hverify
  next issued_str expiry_str user_str sig_hex hparts =>
    obtain ⟨iat, hiat, hverify⟩ := Option.bind_eq_some_iff.mp hverify
    obtain ⟨expiry, hexpiry, hverify⟩ := Option.bind_eq_some_iff.mp hverify
    obtain ⟨user_id, huser, hverify⟩ := Option.bind_eq_some_iff.mp hverify
    split at hverify
    · cases hverify
    next hnow =>
      split at hverify
      next hsigned =>
        exact ⟨issued_str, expiry_str, sig_hex, iat, expiry, printInt user_id, hiat, hexpiry, by omega, of_decide_eq_true hsigned,
          .inl ⟨user_str, user_id, hparts, huser, rfl, (Option.some.inj hverify).symm⟩⟩
      · cases hverify
  next issued_str expiry_str sig_hex hparts =>
    obtain ⟨iat, hiat, hverify⟩ := Option.bind_eq_some_iff.mp hverify
    obtain ⟨expiry, hexpiry, hverify⟩ := Option.bind_eq_some_iff.mp hverify
    split at hverify
    · cases hverify
    next hnow =>
      split at hverify
      next hsigned =>
        exact ⟨issued_str, expiry_str, sig_hex, iat, expiry, expected_legacy_hash.toList, hiat, hexpiry, by omega,
          of_decide_eq_true hsigned, .inr ⟨hparts, rfl, (Option.some.inj hverify).symm⟩⟩
      · cases hverify
  · cases hverify

theorem dot_not_mem_digits (n : Nat) : '.' ∉ digits n := fun hdot => absurd (digits_isDigit n _ hdot) (by decide)

theorem dot_not_mem_printInt (i : Int) : '.' ∉ printInt i := by
  cases i with
  | ofNat n => exact dot_not_mem_digits n
  | negSucc n => exact fun hdot => dot_not_mem_digits (n + 1) ((List.mem_cons.mp hdot).resolve_left (by decide))

theorem dot_not_mem_hex_encode (bytes : Bytes) : '.' ∉ hex_encode bytes := by
  have hall : ∀ n < 16, hexDigit n ≠ '.' := by decide
  intro hdot
  obtain ⟨b, -, hb⟩ := List.mem_flatMap.mp hdot
  have hbound : b.toNat < 256 := b.toNat_lt
  simp only [List.mem_cons, List.not_mem_nil, or_false] at hb
  rcases hb with hb | hb
  · exact hall _ (by omega) hb.symm
  · exact hall _ (by omega) hb.symm

/-- A ticket is a string that presents it. -/
theorem create_user_session_ticket_presented (user_id : I64) (ttl_secs now : Nat) :
    (Issue.user user_id now (ticket_expiry ttl_secs now)).Presented hmac_sha256 session_secret
      (create_user_session_ticket hmac_sha256 session_secret user_id ttl_secs now) := by
  refine ⟨[printInt user_id.val], _, ?_, hex_decode_encode _, _, rfl, parse_i64_printInt user_id⟩
  unfold create_user_session_ticket
  rw [String.toList_ofList, List.append_assoc, List.append_assoc]
  simp only [List.cons_append, List.splitOn_append_cons_self, List.splitOn_eq_singleton (dot_not_mem_digits _),
    List.splitOn_eq_singleton (dot_not_mem_printInt _), List.splitOn_eq_singleton (dot_not_mem_hex_encode _)]
  rfl

/-- Whatever string is accepted presents a ticket that was issued to the same
    subject at the same time and has not expired. -/
theorem verify_session_ticket_issued (hunforgeable : Unforgeable hmac_sha256 session_secret issued ticket)
    (hverify : verify_session_ticket hmac_sha256 session_secret ticket hash.text now = some session) :
    ∃ issue ∈ issued, session = { subject := issue.subject, iat := issue.iat } ∧ now < issue.expiry ∧
      (∀ other iat expiry, issue = .legacy other iat expiry → other = hash) ∧
      issue.Presented hmac_sha256 session_secret ticket := by
  obtain ⟨issued_str, expiry_str, sig_hex, iat, expiry, holder, hiat, hexpiry, hnow, hsig, hform⟩ :=
    verify_session_ticket_cases hverify
  have hlast : (ticket.toList.splitOn '.').getLast? = some sig_hex := by
    rcases hform with ⟨user_str, user_id, hparts, -⟩ | ⟨hparts, -⟩ <;> rw [hparts] <;> rfl
  obtain ⟨issue, hmem, htext⟩ := hunforgeable sig_hex _ hlast hsig
  obtain ⟨hholder, rfl, rfl⟩ := message_inj (digits_plain _) (parse_i64_plain hiat) (digits_plain _) (parse_u64_plain hexpiry) htext
  obtain rfl := parse_i64_digits hiat
  obtain rfl := parse_u64_digits hexpiry
  rw [← htext] at hsig
  refine ⟨issue, hmem, ?_⟩
  rcases hform with ⟨user_str, user_id, hparts, huser, rfl, rfl⟩ | ⟨hparts, rfl, rfl⟩
  · cases issue with
    | user issued_id since expires =>
      obtain rfl := printInt_injective hholder
      exact ⟨rfl, hnow, nofun, [user_str], sig_hex, hparts, hsig, user_str, rfl, huser⟩
    | legacy other since expires => exact absurd hholder (other.not_user ⟨user_id, parse_i64_range huser⟩)
  · cases issue with
    | user issued_id since expires => exact absurd hholder.symm (hash.not_user issued_id)
    | legacy other since expires =>
      have hsame : other = hash := by
        cases other
        cases hash
        congr
        exact String.toList_inj.mp hholder
      refine ⟨rfl, hnow, fun _ _ _ h => ?_, [], sig_hex, hparts, hsig, rfl⟩
      cases h
      exact hsame

/-- The bytes that HMAC-SHA256 signs a ticket of user 7 with under a secret of
    zeros, which was issued at second 100 for 100 seconds. -/
def sample_signature : Bytes :=
  [7, 152, 73, 169, 254, 109, 72, 18, 23, 68, 119, 1, 183, 182, 78, 251, 141, 225, 126, 114, 243, 172, 136, 83, 172, 109, 14, 122,
    193, 67, 159, 100]

def sample_hmac (_ : Bytes) (text : String) : Bytes := if text = "7:100:200" then sample_signature else []

def sample_issue : Issue := .user ⟨7, by decide⟩ 100 200

def sample_ticket (user_str : String) : String :=
  "100.200." ++ user_str ++ "079849a9fe6d481217447701b7b64efb8de17e72f3ac8853ac6d0e7ac1439f64"

theorem sample_unforgeable {ticket : String}
    (hsig : (ticket.toList.splitOn '.').getLast? = some (hex_encode sample_signature)) :
    Unforgeable sample_hmac [] [sample_issue] ticket := by
  intro sig_hex text hlast hdecode
  obtain rfl := Option.some.inj (hsig.symm.trans hlast)
  rw [hex_decode_encode, sample_hmac] at hdecode
  split at hdecode
  next htext => exact ⟨sample_issue, List.mem_singleton_self _, htext ▸ by decide +kernel⟩
  · cases hdecode

theorem spelled_ticket_issued :
    ∃ issue ∈ [sample_issue], ({ subject := .user 7, iat := 100 } : VerifiedSession) = { subject := issue.subject, iat := issue.iat } ∧
      150 < issue.expiry ∧ (∀ other iat expiry, issue = .legacy other iat expiry → other = .unset) ∧
      issue.Presented sample_hmac [] (sample_ticket "+07.") :=
  verify_session_ticket_issued (sample_unforgeable (by decide +kernel))
    (show verify_session_ticket sample_hmac [] (sample_ticket "+07.") LegacyHash.unset.text 150 = _ by decide +kernel)

/-- A string is accepted that was never issued, since its number is written in
    another way. And under a setting that is the number of a user, a part of his
    ticket is taken for that of an administrator. -/
theorem spelled_ticket_accepted :
    (¬∀ (hmac_sha256 : Bytes → String → Bytes) (session_secret : Bytes) (issued : List (I64 × Nat × Nat)) (ticket hash : String)
        (now : Nat) (session : VerifiedSession),
      Unforgeable hmac_sha256 session_secret (issued.map fun (user_id, now, ttl_secs) => .user user_id now (ticket_expiry ttl_secs now))
        ticket →
      verify_session_ticket hmac_sha256 session_secret ticket hash now = some session →
      ∃ issue ∈ issued, ticket = create_user_session_ticket hmac_sha256 session_secret issue.1 issue.2.2 issue.2.1 ∧
        session.subject = .user issue.1) ∧
      Unforgeable sample_hmac [] [sample_issue] (sample_ticket "") ∧
      verify_session_ticket sample_hmac [] (sample_ticket "") "7" 150 = some { subject := .legacy_admin, iat := 100 } := by
  refine ⟨fun hall => ?_, sample_unforgeable (by decide +kernel), by decide +kernel⟩
  have hplus := hall sample_hmac [] [(⟨7, by decide⟩, 100, 100)] (sample_ticket "+7.") "" 150 { subject := .user 7, iat := 100 }
    (sample_unforgeable (by decide +kernel)) (by decide +kernel)
  exact absurd hplus (by decide +kernel)

end Verification

end refract.gateway.tickets
