import Mathlib.Data.Fin.VecNotation
import Mathlib.Data.String.Basic
import Refract.Core.Override
import Refract.Gateway.Ticket
import Refract.Machine.Exposition
import Refract.Machine.OrderedMap
import Refract.Machine.Interleaving

open refract.core refract.json refract.machine refract.machine.exposition

namespace refract.gateway.metrics

/-- What is measured of a request. -/
structure NewRequestLog where
  user_id : Option Int := none
  channel_name : Option String := none
  inbound_protocol : Protocol
  upstream_protocol : Protocol
  stream : Bool := false
  status : UInt16
  ttfb_ms : Option UInt64 := none
  duration_ms : UInt64
  input_tokens : UInt64 := 0
  output_tokens : UInt64 := 0
  retries : UInt32 := 0

def NewRequestLog.transcoded (self : NewRequestLog) : Bool := self.inbound_protocol ≠ self.upstream_protocol

def NewRequestLog.failed (self : NewRequestLog) : Bool := 400 ≤ self.status

/-- What is done with numbers that are no integers: a time in milliseconds is counted in
    microseconds, and sums and balances are written out. -/
structure Floats where
  micros : UInt64 → UInt64
  seconds : UInt64 → String
  balance : Rat → String

/-- A bound of a histogram in milliseconds, and how it is written in seconds. -/
structure Bound where
  millis : Nat
  text : String

def DURATION_BUCKETS : Fin 10 → Bound :=
  ![⟨100, "0.1"⟩, ⟨250, "0.25"⟩, ⟨500, "0.5"⟩, ⟨1000, "1"⟩, ⟨2500, "2.5"⟩, ⟨5000, "5"⟩, ⟨10000, "10"⟩, ⟨30000, "30"⟩, ⟨60000, "60"⟩,
    ⟨120000, "120"⟩]

def TTFB_BUCKETS : Fin 9 → Bound :=
  ![⟨50, "0.05"⟩, ⟨100, "0.1"⟩, ⟨250, "0.25"⟩, ⟨500, "0.5"⟩, ⟨1000, "1"⟩, ⟨2000, "2"⟩, ⟨5000, "5"⟩, ⟨10000, "10"⟩, ⟨30000, "30"⟩]

/-- The count of a bucket is that of all values up to its bound. -/
structure Histogram (n : Nat) where
  buckets : Fin n → UInt64 := fun _ => 0
  count : UInt64 := 0
  sum_micros : UInt64 := 0

/-- A number as it is written. -/
def written (n : UInt64) : String := String.ofList (digits n.toNat)

def header (name help kind : String) : List String := ["# HELP " ++ name ++ " " ++ help, "# TYPE " ++ name ++ " " ++ kind]

namespace Histogram

variable {n : Nat}

def observe (floats : Floats) (bounds : Fin n → Bound) (self : Histogram n) (millis : UInt64) : Histogram n where
  buckets i := if millis.toNat ≤ (bounds i).millis then self.buckets i + 1 else self.buckets i
  count := self.count + 1
  sum_micros := self.sum_micros + floats.micros millis

def render (floats : Floats) (bounds : Fin n → Bound) (name help : String) (self : Histogram n) : List String :=
  header name help "histogram" ++
    (List.finRange n).map (fun i => labelled (name ++ "_bucket") "le" (bounds i).text (written (self.buckets i))) ++
      [labelled (name ++ "_bucket") "le" "+Inf" (written self.count), name ++ "_sum" ++ " " ++ floats.seconds self.sum_micros,
        name ++ "_count" ++ " " ++ written self.count]

end Histogram

structure GatewayMetrics where
  requests : Protocol → UInt64 := fun _ => 0
  failures : Protocol → UInt64 := fun _ => 0
  transcoded : UInt64 := 0
  streams : UInt64 := 0
  input_tokens : UInt64 := 0
  output_tokens : UInt64 := 0
  retries : UInt64 := 0
  wallet_charge_failures : UInt64 := 0
  duration : Histogram 10 := {}
  ttfb : Histogram 9 := {}
  /-- The requests and the failures. -/
  by_channel : SortedMap String (UInt64 × UInt64) := {}
  per_user_requests : SortedMap Int UInt64 := {}
  per_user_enabled : Bool := false
  wallet_balances : SortedMap Int Rat := {}

/-- Every occurrence of a character is replaced. -/
def replace (c : Char) (by_text : List Char) (text : List Char) : List Char := text.flatMap fun d => if d = c then by_text else [d]

def escape (channel : String) : String := String.ofList (replace '"' ['\\', '"'] (replace '\\' ['\\', '\\'] channel.toList))

namespace GatewayMetrics

variable (floats : Floats) (self : GatewayMetrics)

def note_wallet_charge_failure : GatewayMetrics := { self with wallet_charge_failures := self.wallet_charge_failures + 1 }

def set_per_user_enabled (enabled : Bool) : GatewayMetrics := { self with per_user_enabled := enabled }

/-- What is read of the wallets replaces what was read before. -/
def set_wallet_balances (balances : List (Int × Rat)) : GatewayMetrics :=
  { self with wallet_balances := balances.foldl (fun snapshot (user_id, balance) => snapshot.insert user_id balance) {} }

def observe_user (user_id : Option Int) : SortedMap Int UInt64 :=
  match user_id with
  | some uid =>
    if self.per_user_enabled then self.per_user_requests.insert uid ((self.per_user_requests.get uid).getD 0 + 1)
    else self.per_user_requests
  | none => self.per_user_requests

def observe_channel (channel_name : Option String) (failed : Bool) : SortedMap String (UInt64 × UInt64) :=
  match channel_name with
  | some channel =>
    let (requests, failures) := (self.by_channel.get channel).getD (0, 0)
    self.by_channel.insert channel (requests + 1, if failed then failures + 1 else failures)
  | none => self.by_channel

def observe (entry : NewRequestLog) : GatewayMetrics :=
  { self with
    requests := Function.update self.requests entry.inbound_protocol (self.requests entry.inbound_protocol + 1)
    per_user_requests := self.observe_user entry.user_id
    failures :=
      if entry.failed then Function.update self.failures entry.inbound_protocol (self.failures entry.inbound_protocol + 1)
      else self.failures
    transcoded := if entry.transcoded then self.transcoded + 1 else self.transcoded
    streams := if entry.stream then self.streams + 1 else self.streams
    input_tokens := self.input_tokens + entry.input_tokens
    output_tokens := self.output_tokens + entry.output_tokens
    retries := self.retries + entry.retries.toUInt64
    duration := self.duration.observe floats DURATION_BUCKETS entry.duration_ms
    ttfb :=
      match entry.ttfb_ms with
      | some ttfb => self.ttfb.observe floats TTFB_BUCKETS ttfb
      | none => self.ttfb
    by_channel := self.observe_channel entry.channel_name entry.failed }

def by_protocol (name : String) (values : Protocol → UInt64) : List String :=
  Protocol.ALL.map fun protocol => labelled name "protocol" protocol.as_str (written (values protocol))

def counter_lines (name help : String) (value : UInt64) : List String := header name help "counter" ++ [name ++ " " ++ written value]

def channel_lines (name : String) (value : UInt64 × UInt64 → UInt64) : List String :=
  self.by_channel.entries.map fun (channel, values) => labelled name "channel" (escape channel) (written (value values))

def user_lines : List String :=
  if self.per_user_enabled then
    header "refract_user_requests_total" "Gateway requests per user (opt-in high cardinality)." "counter" ++
      self.per_user_requests.entries.map (fun (user_id, requests) =>
        labelled "refract_user_requests_total" "user_id" (String.ofList (printInt user_id)) (written requests)) ++
      header "refract_wallet_balance" "Current prepaid wallet balance per user (opt-in high cardinality)." "gauge" ++
      self.wallet_balances.entries.map fun (user_id, balance) =>
        labelled "refract_wallet_balance" "user_id" (String.ofList (printInt user_id)) (floats.balance balance)
  else []

def lines (uptime : UInt64) : List String :=
  header "refract_requests_total" "Gateway requests by inbound protocol." "counter" ++
    by_protocol "refract_requests_total" self.requests ++
    header "refract_request_failures_total" "Failed gateway requests (HTTP >= 400) by inbound protocol." "counter" ++
    by_protocol "refract_request_failures_total" self.failures ++
    counter_lines "refract_transcoded_requests_total" "Requests that crossed protocols." self.transcoded ++
    counter_lines "refract_stream_requests_total" "Streaming requests." self.streams ++
    counter_lines "refract_input_tokens_total" "Input tokens across all requests." self.input_tokens ++
    counter_lines "refract_output_tokens_total" "Output tokens across all requests." self.output_tokens ++
    counter_lines "refract_upstream_retries_total" "Upstream retries performed by the router." self.retries ++
    counter_lines "refract_wallet_charge_failures_total" "Wallet charge failures (charging never rolls back a completed request)."
      self.wallet_charge_failures ++
    self.duration.render floats DURATION_BUCKETS "refract_request_duration_seconds" "End-to-end request duration." ++
    self.ttfb.render floats TTFB_BUCKETS "refract_ttfb_seconds" "Time to first byte from the upstream." ++
    header "refract_channel_requests_total" "Requests routed to each channel." "counter" ++
    self.channel_lines "refract_channel_requests_total" Prod.fst ++
    header "refract_channel_failures_total" "Failed requests (HTTP >= 400) per channel." "counter" ++
    self.channel_lines "refract_channel_failures_total" Prod.snd ++
    self.user_lines floats ++
    header "refract_uptime_seconds" "Seconds since the process started." "gauge" ++ ["refract_uptime_seconds" ++ " " ++ written uptime]

/-- The page, at a time since the gateway was started. -/
def render (uptime : UInt64) : String := page (self.lines floats uptime)

end GatewayMetrics

/-- The numbers that only grow. -/
inductive Counter where
  | requests (protocol : Protocol)
  | failures (protocol : Protocol)
  | transcoded
  | streams
  | input_tokens
  | output_tokens
  | retries
  | wallet_charge_failures
  | duration_bucket (i : Fin 10)
  | duration_count
  | duration_sum
  | ttfb_bucket (i : Fin 9)
  | ttfb_count
  | ttfb_sum
  | channel_requests (channel : String)
  | channel_failures (channel : String)
  | user_requests (user_id : Int)

def GatewayMetrics.counter (self : GatewayMetrics) : Counter → UInt64
  | .requests protocol => self.requests protocol
  | .failures protocol => self.failures protocol
  | .transcoded => self.transcoded
  | .streams => self.streams
  | .input_tokens => self.input_tokens
  | .output_tokens => self.output_tokens
  | .retries => self.retries
  | .wallet_charge_failures => self.wallet_charge_failures
  | .duration_bucket i => self.duration.buckets i
  | .duration_count => self.duration.count
  | .duration_sum => self.duration.sum_micros
  | .ttfb_bucket i => self.ttfb.buckets i
  | .ttfb_count => self.ttfb.count
  | .ttfb_sum => self.ttfb.sum_micros
  | .channel_requests channel => ((self.by_channel.get channel).getD (0, 0)).1
  | .channel_failures channel => ((self.by_channel.get channel).getD (0, 0)).2
  | .user_requests user_id => (self.per_user_requests.get user_id).getD 0

section Samples

/-- A metric with all its series, each with its labels and its value. -/
structure Family where
  name : String
  series : List (List (String × String) × String)

def Family.samples (self : Family) : List Sample := self.series.map fun (labels, value) => ⟨self.name, labels, value⟩

def buckets {n : Nat} (bounds : Fin n → Bound) (bucket : Fin n → UInt64) (count : UInt64) : List (List (String × String) × String) :=
  (List.finRange n).map (fun i => ([("le", (bounds i).text)], written (bucket i))) ++ [([("le", "+Inf")], written count)]

variable (floats : Floats) (self : GatewayMetrics)

/-- What is recorded of the users. -/
def GatewayMetrics.user_families : List Family :=
  if self.per_user_enabled then
    [⟨"refract_user_requests_total", self.per_user_requests.entries.map fun (user_id, _) =>
        ([("user_id", String.ofList (printInt user_id))], written (self.counter (.user_requests user_id)))⟩,
      ⟨"refract_wallet_balance", self.wallet_balances.entries.map fun (user_id, balance) =>
        ([("user_id", String.ofList (printInt user_id))], floats.balance balance)⟩]
  else []

/-- What is recorded. -/
def GatewayMetrics.families (uptime : UInt64) : List Family :=
  [⟨"refract_requests_total", Protocol.ALL.map fun p => ([("protocol", p.as_str)], written (self.counter (.requests p)))⟩,
    ⟨"refract_request_failures_total", Protocol.ALL.map fun p => ([("protocol", p.as_str)], written (self.counter (.failures p)))⟩,
    ⟨"refract_transcoded_requests_total", [([], written (self.counter .transcoded))]⟩,
    ⟨"refract_stream_requests_total", [([], written (self.counter .streams))]⟩,
    ⟨"refract_input_tokens_total", [([], written (self.counter .input_tokens))]⟩,
    ⟨"refract_output_tokens_total", [([], written (self.counter .output_tokens))]⟩,
    ⟨"refract_upstream_retries_total", [([], written (self.counter .retries))]⟩,
    ⟨"refract_wallet_charge_failures_total", [([], written (self.counter .wallet_charge_failures))]⟩,
    ⟨"refract_request_duration_seconds_bucket",
      buckets DURATION_BUCKETS (fun i => self.counter (.duration_bucket i)) (self.counter .duration_count)⟩,
    ⟨"refract_request_duration_seconds_sum", [([], floats.seconds (self.counter .duration_sum))]⟩,
    ⟨"refract_request_duration_seconds_count", [([], written (self.counter .duration_count))]⟩,
    ⟨"refract_ttfb_seconds_bucket", buckets TTFB_BUCKETS (fun i => self.counter (.ttfb_bucket i)) (self.counter .ttfb_count)⟩,
    ⟨"refract_ttfb_seconds_sum", [([], floats.seconds (self.counter .ttfb_sum))]⟩,
    ⟨"refract_ttfb_seconds_count", [([], written (self.counter .ttfb_count))]⟩,
    ⟨"refract_channel_requests_total", self.by_channel.entries.map fun (channel, _) =>
      ([("channel", channel)], written (self.counter (.channel_requests channel)))⟩,
    ⟨"refract_channel_failures_total", self.by_channel.entries.map fun (channel, _) =>
      ([("channel", channel)], written (self.counter (.channel_failures channel)))⟩] ++
    self.user_families floats ++ [⟨"refract_uptime_seconds", [([], written uptime)]⟩]

def GatewayMetrics.samples (uptime : UInt64) : List Sample := (self.families floats uptime).flatMap Family.samples

end Samples

/-- Numbers are written without blanks. -/
structure Floats.Printed (floats : Floats) : Prop where
  seconds : ∀ micros, IsWord (floats.seconds micros)
  balance : ∀ balance, IsWord (floats.balance balance)

section Reading

variable {floats : Floats} {self : GatewayMetrics} {name label : String}

theorem isWord_written (n : UInt64) : IsWord (written n) := by
  rw [IsWord, written, String.toList_ofList]
  refine ⟨digits_ne_nil _, fun c hc => ?_⟩
  have hdigit := digits_isDigit _ c hc
  constructor
  · cases hblank : is_blank c with
    | false => rfl
    | true =>
      simp only [is_blank, Bool.or_eq_true, decide_eq_true_eq] at hblank
      rcases hblank with rfl | rfl
      · exact absurd hdigit (by decide)
      · exact absurd hdigit (by decide)
  · rintro rfl
    exact absurd hdigit (by decide)

theorem reads_header (name help kind : String) (hname : '\n' ∉ name.toList) (hhelp : '\n' ∉ help.toList) (hkind : '\n' ∉ kind.toList) :
    reads (header name help kind) = some [] := by
  refine reads_cons_some (reads_comment ?_ ?_) (reads_comment ?_ ?_)
  · simp
  · simp [hname, hhelp]
  · simp
  · simp [hname, hkind]

/-- A label that needs no escapes. -/
theorem reads_unquoted (hname : IsName name) (hlabel : IsName label) {shown value : String}
    (hshown : ∀ c ∈ shown.toList, c ≠ '\\' ∧ c ≠ '"' ∧ c ≠ '\n') (hvalue : IsWord value) :
    reads [labelled name label shown value] = some [⟨name, [(label, shown)], value⟩] := by
  refine reads_labelled hname hlabel hvalue (quote_eq_self fun c hc => ?_).symm fun hbreak => (hshown _ hbreak).2.2 rfl
  exact ⟨(hshown c hc).1, (hshown c hc).2.1⟩

theorem unquoted_of_all {s : String} (h : s.toList.all (fun c => !(c == '\\' || c == '"' || c == '\n')) = true) :
    ∀ c ∈ s.toList, c ≠ '\\' ∧ c ≠ '"' ∧ c ≠ '\n' := by
  simpa only [List.all_eq_true, Bool.not_eq_true', Bool.or_eq_false_iff, beq_eq_false_iff_ne, and_assoc] using h

theorem reads_by_protocol (name : String) (hname : IsName name) (values : Protocol → UInt64) :
    reads (GatewayMetrics.by_protocol name values) =
      some (Family.samples ⟨name, Protocol.ALL.map fun p => ([("protocol", p.as_str)], written (values p))⟩) := by
  rw [Family.samples, List.map_map]
  refine reads_each fun p _ => reads_unquoted hname (.of_chars (by decide)) (unquoted_of_all ?_) (isWord_written _)
  cases p <;> rfl

theorem reads_counter (name help : String) (hname : IsName name) (hhelp : '\n' ∉ help.toList) (value : UInt64) :
    reads (GatewayMetrics.counter_lines name help value) = some (Family.samples ⟨name, [([], written value)]⟩) :=
  reads_append_some (reads_header name help "counter" hname.unbroken hhelp (unbroken_of_chars (by decide))) (reads_plain hname (isWord_written value))

theorem escape_toList (channel : String) : (escape channel).toList = quote channel.toList := by
  rw [escape, String.toList_ofList, replace, replace, quote, List.flatMap_assoc]
  refine List.flatMap_congr fun c _ => ?_
  by_cases hslash : c = '\\'
  · subst hslash
    rfl
  · by_cases hmark : c = '"'
    · subst hmark
      rfl
    · simp [hslash, hmark]

theorem reads_buckets {n : Nat} {bounds : Fin n → Bound} (hname : IsName name)
    (hbounds : ∀ i, ∀ c ∈ (bounds i).text.toList, c ≠ '\\' ∧ c ≠ '"' ∧ c ≠ '\n') (bucket : Fin n → UInt64) (count : UInt64) :
    reads ((List.finRange n).map (fun i => labelled name "le" (bounds i).text (written (bucket i))) ++
        [labelled name "le" "+Inf" (written count)]) =
      some (Family.samples ⟨name, buckets bounds bucket count⟩) := by
  rw [Family.samples, buckets, List.map_append, List.map_map]
  refine reads_append_some (reads_each fun i _ => ?_) ?_
  · exact reads_unquoted hname (.of_chars (by decide)) (hbounds i) (isWord_written _)
  · exact reads_unquoted hname (.of_chars (by decide)) (unquoted_of_all rfl) (isWord_written _)

theorem reads_histogram (hprinted : floats.Printed) {n : Nat} {bounds : Fin n → Bound} (name help : String) (hname : IsName name)
    (hhelp : '\n' ∉ help.toList) (hbounds : ∀ i, ∀ c ∈ (bounds i).text.toList, c ≠ '\\' ∧ c ≠ '"' ∧ c ≠ '\n') (hist : Histogram n) :
    reads (hist.render floats bounds name help) =
      some (Family.samples ⟨name ++ "_bucket", buckets bounds hist.buckets hist.count⟩ ++
        Family.samples ⟨name ++ "_sum", [([], floats.seconds hist.sum_micros)]⟩ ++
        Family.samples ⟨name ++ "_count", [([], written hist.count)]⟩) := by
  have hbucket : IsName (name ++ "_bucket") := hname.append (by decide)
  have hsum : IsName (name ++ "_sum") := hname.append (by decide)
  have hcount : IsName (name ++ "_count") := hname.append (by decide)
  have hbuckets := reads_buckets hbucket hbounds hist.buckets hist.count
  have htotal := reads_cons_some (reads_plain hsum (hprinted.seconds hist.sum_micros)) (reads_plain hcount (isWord_written hist.count))
  have hall := reads_append_some (reads_header name help "histogram" hname.unbroken hhelp (unbroken_of_chars (by decide))) (reads_append_some hbuckets htotal)
  rw [Histogram.render]
  simpa [Family.samples] using hall

theorem reads_channels (name : String) (hname : IsName name) (value : UInt64 × UInt64 → UInt64) (read : String → UInt64)
    (hread : ∀ channel, read channel = value ((self.by_channel.get channel).getD (0, 0)))
    (hplain : ∀ channel ∈ self.by_channel.entries.map Prod.fst, '\n' ∉ channel.toList) :
    reads (self.channel_lines name value) =
      some (Family.samples ⟨name, self.by_channel.entries.map fun (channel, _) => ([("channel", channel)], written (read channel))⟩) := by
  rw [Family.samples, List.map_map]
  refine reads_each fun (channel, values) hmem => ?_
  have hvalue : read channel = value values := by rw [hread, SortedMap.mem_entries_iff.mp hmem, Option.getD_some]
  simp only [Function.comp_apply, hvalue]
  exact reads_labelled hname (.of_chars (by decide)) (isWord_written _) (escape_toList channel) (hplain channel (List.mem_map_of_mem hmem))

theorem printInt_unquoted (i : Int) : ∀ c ∈ (String.ofList (printInt i)).toList, c ≠ '\\' ∧ c ≠ '"' ∧ c ≠ '\n' := by
  have hdigits : ∀ n, ∀ c ∈ digits n, c ≠ '\\' ∧ c ≠ '"' ∧ c ≠ '\n' := by
    intro n c hc
    have hdigit := digits_isDigit n c hc
    refine ⟨?_, ?_, ?_⟩
    all_goals
      rintro rfl
      exact absurd hdigit (by decide)
  intro c hc
  rw [String.toList_ofList] at hc
  cases i with
  | ofNat n => exact hdigits n c hc
  | negSucc n =>
    rcases List.mem_cons.mp hc with rfl | hc
    · decide
    · exact hdigits _ c hc

theorem reads_users (hprinted : floats.Printed) (self : GatewayMetrics) :
    reads (self.user_lines floats) = some ((self.user_families floats).flatMap Family.samples) := by
  rw [GatewayMetrics.user_lines, GatewayMetrics.user_families]
  split
  · have hrequests : reads (self.per_user_requests.entries.map fun (user_id, requests) =>
        labelled "refract_user_requests_total" "user_id" (String.ofList (printInt user_id)) (written requests)) =
        some (Family.samples ⟨"refract_user_requests_total", self.per_user_requests.entries.map fun (user_id, _) =>
          ([("user_id", String.ofList (printInt user_id))], written (self.counter (.user_requests user_id)))⟩) := by
      rw [Family.samples, List.map_map]
      refine reads_each fun (user_id, requests) hmem => ?_
      have hvalue : self.counter (.user_requests user_id) = requests := by
        rw [GatewayMetrics.counter, SortedMap.mem_entries_iff.mp hmem, Option.getD_some]
      simp only [Function.comp_apply, hvalue]
      exact reads_unquoted (.of_chars (by decide)) (.of_chars (by decide)) (printInt_unquoted user_id) (isWord_written _)
    have hwallets : reads (self.wallet_balances.entries.map fun (user_id, balance) =>
        labelled "refract_wallet_balance" "user_id" (String.ofList (printInt user_id)) (floats.balance balance)) =
        some (Family.samples ⟨"refract_wallet_balance", self.wallet_balances.entries.map fun (user_id, balance) =>
          ([("user_id", String.ofList (printInt user_id))], floats.balance balance)⟩) := by
      rw [Family.samples, List.map_map]
      refine reads_each fun (user_id, balance) _ => ?_
      exact reads_unquoted (.of_chars (by decide)) (.of_chars (by decide)) (printInt_unquoted user_id) (hprinted.balance balance)
    have hall := reads_append_some (reads_append_some (reads_append_some
      (reads_header "refract_user_requests_total" "Gateway requests per user (opt-in high cardinality)." "counter" (unbroken_of_chars (by decide)) (unbroken_of_chars (by decide)) (unbroken_of_chars (by decide))) hrequests)
      (reads_header "refract_wallet_balance" "Current prepaid wallet balance per user (opt-in high cardinality)." "gauge" (unbroken_of_chars (by decide)) (unbroken_of_chars (by decide)) (unbroken_of_chars (by decide)))) hwallets
    simpa using hall
  · rfl

/-- The page is read, if no channel has a line break in its name. -/
theorem reads_lines (hprinted : floats.Printed) (uptime : UInt64)
    (hplain : ∀ channel ∈ self.by_channel.entries.map Prod.fst, '\n' ∉ channel.toList) :
    reads (self.lines floats uptime) = some (self.samples floats uptime) := by
  have hbounds : ∀ i, ∀ c ∈ (DURATION_BUCKETS i).text.toList, c ≠ '\\' ∧ c ≠ '"' ∧ c ≠ '\n' := fun i =>
    unquoted_of_all (by revert i; decide)
  have hbounds' : ∀ i, ∀ c ∈ (TTFB_BUCKETS i).text.toList, c ≠ '\\' ∧ c ≠ '"' ∧ c ≠ '\n' := fun i =>
    unquoted_of_all (by revert i; decide)
  have h := reads_silent_append
    (reads_header "refract_requests_total" "Gateway requests by inbound protocol." "counter" (unbroken_of_chars (by decide)) (unbroken_of_chars (by decide)) (unbroken_of_chars (by decide)))
    (reads_by_protocol "refract_requests_total" (.of_chars (by decide)) self.requests)
  have h := reads_append_silent h (reads_header "refract_request_failures_total" "Failed gateway requests (HTTP >= 400) by inbound protocol." "counter" (unbroken_of_chars (by decide)) (unbroken_of_chars (by decide)) (unbroken_of_chars (by decide)))
  have h := reads_append_some h (reads_by_protocol "refract_request_failures_total" (.of_chars (by decide)) self.failures)
  have h := reads_append_some h (reads_counter "refract_transcoded_requests_total" "Requests that crossed protocols." (.of_chars (by decide)) (unbroken_of_chars (by decide)) self.transcoded)
  have h := reads_append_some h (reads_counter "refract_stream_requests_total" "Streaming requests." (.of_chars (by decide)) (unbroken_of_chars (by decide)) self.streams)
  have h := reads_append_some h (reads_counter "refract_input_tokens_total" "Input tokens across all requests." (.of_chars (by decide)) (unbroken_of_chars (by decide)) self.input_tokens)
  have h := reads_append_some h (reads_counter "refract_output_tokens_total" "Output tokens across all requests." (.of_chars (by decide)) (unbroken_of_chars (by decide)) self.output_tokens)
  have h := reads_append_some h (reads_counter "refract_upstream_retries_total" "Upstream retries performed by the router." (.of_chars (by decide)) (unbroken_of_chars (by decide)) self.retries)
  have h := reads_append_some h (reads_counter "refract_wallet_charge_failures_total" "Wallet charge failures (charging never rolls back a completed request)." (.of_chars (by decide)) (unbroken_of_chars (by decide)) self.wallet_charge_failures)
  have h := reads_append_some h (reads_histogram hprinted "refract_request_duration_seconds" "End-to-end request duration." (.of_chars (by decide)) (unbroken_of_chars (by decide)) hbounds self.duration)
  have h := reads_append_some h (reads_histogram hprinted "refract_ttfb_seconds" "Time to first byte from the upstream." (.of_chars (by decide)) (unbroken_of_chars (by decide)) hbounds' self.ttfb)
  have h := reads_append_silent h (reads_header "refract_channel_requests_total" "Requests routed to each channel." "counter" (unbroken_of_chars (by decide)) (unbroken_of_chars (by decide)) (unbroken_of_chars (by decide)))
  have h := reads_append_some h (reads_channels "refract_channel_requests_total" (.of_chars (by decide)) Prod.fst
    (fun channel => self.counter (.channel_requests channel)) (fun _ => rfl) hplain)
  have h := reads_append_silent h (reads_header "refract_channel_failures_total" "Failed requests (HTTP >= 400) per channel." "counter" (unbroken_of_chars (by decide)) (unbroken_of_chars (by decide)) (unbroken_of_chars (by decide)))
  have h := reads_append_some h (reads_channels "refract_channel_failures_total" (.of_chars (by decide)) Prod.snd
    (fun channel => self.counter (.channel_failures channel)) (fun _ => rfl) hplain)
  have h := reads_append_some h (reads_users hprinted self)
  have h := reads_append_silent h (reads_header "refract_uptime_seconds" "Seconds since the process started." "gauge" (unbroken_of_chars (by decide)) (unbroken_of_chars (by decide)) (unbroken_of_chars (by decide)))
  have h := reads_append_some h (@reads_plain "refract_uptime_seconds" _ (.of_chars (by decide)) (isWord_written uptime))
  -- The equation of so long a page is slow to make.
  delta GatewayMetrics.lines
  refine h.trans ?_
  rw [GatewayMetrics.samples, GatewayMetrics.families, List.flatMap_append, List.flatMap_append]
  simp only [List.flatMap_cons, List.flatMap_nil, List.append_nil, List.append_assoc]
  rfl

/-- A line break in the name of one channel breaks the page. -/
theorem reads_lines_broken {channel : String} (hmem : channel ∈ self.by_channel.entries.map Prod.fst) (hbreak : '\n' ∈ channel.toList) (uptime : UInt64) :
    reads (self.lines floats uptime) = none := by
  obtain ⟨⟨channel, values⟩, hvalues, rfl⟩ := List.mem_map.mp hmem
  have hline : labelled "refract_channel_requests_total" "channel" (escape channel) (written values.1) ∈
      self.channel_lines "refract_channel_requests_total" Prod.fst :=
    List.mem_map.mpr ⟨_, hvalues, rfl⟩
  have hbroken : reads [labelled "refract_channel_requests_total" "channel" (escape channel) (written values.1)] = none :=
    reads_labelled_broken (.of_chars (by decide)) (.of_chars (by decide)) (escape_toList channel) hbreak
  refine reads_eq_none ?_ hbroken
  delta GatewayMetrics.lines
  simp only [List.mem_append, hline, true_or, or_true]

end Reading

inductive Event where
  | observe (entry : NewRequestLog)
  | note_wallet_charge_failure
  | set_per_user_enabled (enabled : Bool)
  | set_wallet_balances (balances : List (Int × Rat))

def GatewayMetrics.step (floats : Floats) (self : GatewayMetrics) : Event → GatewayMetrics
  | .observe entry => self.observe floats entry
  | .note_wallet_charge_failure => self.note_wallet_charge_failure
  | .set_per_user_enabled enabled => self.set_per_user_enabled enabled
  | .set_wallet_balances balances => self.set_wallet_balances balances

section Runs

variable {floats : Floats} {self : GatewayMetrics} {event : Event} {events : List Event}

/-- The name of a channel that an event is about. -/
def Event.channel_name : Event → Option String
  | .observe entry => entry.channel_name
  | _ => none

theorem channels_step (event : Event) (channel : String) :
    channel ∈ (self.step floats event).by_channel.entries.map Prod.fst ↔
      event.channel_name = some channel ∨ channel ∈ self.by_channel.entries.map Prod.fst := by
  cases event with
  | observe entry =>
    change channel ∈ (self.observe_channel entry.channel_name entry.failed).entries.map Prod.fst ↔ entry.channel_name = some channel ∨ _
    unfold GatewayMetrics.observe_channel
    cases entry.channel_name with
    | none => simp
    | some name => exact (OrderedMap.mem_keys_insert _).trans (by rw [Option.some.injEq, eq_comm])
  | _ => exact (or_iff_right (by simp [Event.channel_name])).symm

/-- The channels of the page are those that were observed. -/
theorem channels_run (events : List Event) (channel : String) :
    channel ∈ (events.foldl (GatewayMetrics.step floats) self).by_channel.entries.map Prod.fst ↔
      (∃ event ∈ events, event.channel_name = some channel) ∨ channel ∈ self.by_channel.entries.map Prod.fst := by
  induction events generalizing self with
  | nil => simp
  | cons event events ih =>
    rw [List.foldl_cons, ih, channels_step, List.exists_mem_cons_iff, or_left_comm, or_assoc]

/-- What an event adds to a number. -/
def GatewayMetrics.amount (floats : Floats) (self : GatewayMetrics) : Event → Counter → UInt64
  | .observe entry, .requests protocol => if protocol = entry.inbound_protocol then 1 else 0
  | .observe entry, .failures protocol => if entry.failed ∧ protocol = entry.inbound_protocol then 1 else 0
  | .observe entry, .transcoded => if entry.transcoded then 1 else 0
  | .observe entry, .streams => if entry.stream then 1 else 0
  | .observe entry, .input_tokens => entry.input_tokens
  | .observe entry, .output_tokens => entry.output_tokens
  | .observe entry, .retries => entry.retries.toUInt64
  | .observe entry, .duration_bucket i => if entry.duration_ms.toNat ≤ (DURATION_BUCKETS i).millis then 1 else 0
  | .observe _, .duration_count => 1
  | .observe entry, .duration_sum => floats.micros entry.duration_ms
  | .observe entry, .ttfb_bucket i => if entry.ttfb_ms.any (·.toNat ≤ (TTFB_BUCKETS i).millis) then 1 else 0
  | .observe entry, .ttfb_count => if entry.ttfb_ms.isSome then 1 else 0
  | .observe entry, .ttfb_sum => (entry.ttfb_ms.map floats.micros).getD 0
  | .observe entry, .channel_requests channel => if entry.channel_name = some channel then 1 else 0
  | .observe entry, .channel_failures channel => if entry.failed ∧ entry.channel_name = some channel then 1 else 0
  | .observe entry, .user_requests user_id => if self.per_user_enabled ∧ entry.user_id = some user_id then 1 else 0
  | .note_wallet_charge_failure, .wallet_charge_failures => 1
  | _, _ => 0

theorem observe_channel_get (channel_name : Option String) (failed : Bool) (channel : String) :
    ((self.observe_channel channel_name failed).get channel).getD (0, 0) =
      (((self.by_channel.get channel).getD (0, 0)).1 + if channel_name = some channel then 1 else 0,
        ((self.by_channel.get channel).getD (0, 0)).2 + if failed ∧ channel_name = some channel then 1 else 0) := by
  unfold GatewayMetrics.observe_channel
  cases channel_name with
  | none => simp
  | some name =>
    simp only [SortedMap.get_insert, Option.some.injEq]
    by_cases hname : channel = name
    · subst hname
      cases failed <;> simp
    · simp [hname, Ne.symm hname]

theorem observe_user_get (user_id : Option Int) (uid : Int) :
    ((self.observe_user user_id).get uid).getD 0 =
      (self.per_user_requests.get uid).getD 0 + if self.per_user_enabled ∧ user_id = some uid then 1 else 0 := by
  unfold GatewayMetrics.observe_user
  cases user_id with
  | none => simp
  | some other =>
    cases henabled : self.per_user_enabled with
    | false => simp
    | true =>
      simp only [if_true, SortedMap.get_insert, Option.some.injEq, true_and]
      by_cases hother : uid = other
      · subst hother
        simp
      · simp [hother, Ne.symm hother]

theorem bump_eq (values : Protocol → UInt64) (bumped protocol : Protocol) :
    Function.update values bumped (values bumped + 1) protocol = values protocol + if protocol = bumped then 1 else 0 := by
  by_cases hprotocol : protocol = bumped
  · subst hprotocol
    simp
  · simp [hprotocol]

/-- The step: every number grows by what the event adds to it. -/
theorem counter_step (event : Event) (counter : Counter) :
    (self.step floats event).counter counter = self.counter counter + self.amount floats event counter := by
  cases event with
  | observe entry =>
    cases counter with
    | requests protocol => exact bump_eq self.requests entry.inbound_protocol protocol
    | failures protocol =>
      simp only [GatewayMetrics.step, GatewayMetrics.observe, GatewayMetrics.counter, GatewayMetrics.amount]
      cases entry.failed with
      | false => simp
      | true => simpa using bump_eq self.failures entry.inbound_protocol protocol
    | channel_requests channel => exact congrArg Prod.fst (observe_channel_get entry.channel_name entry.failed channel)
    | channel_failures channel => exact congrArg Prod.snd (observe_channel_get entry.channel_name entry.failed channel)
    | user_requests user_id => exact observe_user_get entry.user_id user_id
    | transcoded | streams =>
      simp only [GatewayMetrics.step, GatewayMetrics.observe, GatewayMetrics.counter, GatewayMetrics.amount]
      split <;> simp
    | duration_bucket i =>
      simp only [GatewayMetrics.step, GatewayMetrics.observe, GatewayMetrics.counter, GatewayMetrics.amount, Histogram.observe]
      split <;> simp
    | ttfb_bucket i =>
      simp only [GatewayMetrics.step, GatewayMetrics.observe, GatewayMetrics.counter, GatewayMetrics.amount]
      cases entry.ttfb_ms with
      | none => simp
      | some ttfb =>
        simp only [Histogram.observe, Option.any_some, decide_eq_true_eq]
        split <;> simp
    | ttfb_count | ttfb_sum =>
      simp only [GatewayMetrics.step, GatewayMetrics.observe, GatewayMetrics.counter, GatewayMetrics.amount]
      cases entry.ttfb_ms with
      | none => simp
      | some ttfb => simp [Histogram.observe]
    | wallet_charge_failures => simp [GatewayMetrics.step, GatewayMetrics.observe, GatewayMetrics.counter, GatewayMetrics.amount]
    | input_tokens | output_tokens | retries | duration_count | duration_sum => rfl
  | note_wallet_charge_failure =>
    cases counter <;>
      simp [GatewayMetrics.step, GatewayMetrics.note_wallet_charge_failure, GatewayMetrics.counter, GatewayMetrics.amount]
  | set_per_user_enabled enabled =>
    cases counter <;> simp [GatewayMetrics.step, GatewayMetrics.set_per_user_enabled, GatewayMetrics.counter, GatewayMetrics.amount]
  | set_wallet_balances balances =>
    cases counter <;> simp [GatewayMetrics.step, GatewayMetrics.set_wallet_balances, GatewayMetrics.counter, GatewayMetrics.amount]

/-- No number wraps around at an event. -/
def GatewayMetrics.Fits (floats : Floats) (self : GatewayMetrics) (event : Event) : Prop :=
  ∀ counter, (self.counter counter).toNat + (self.amount floats event counter).toNat < 2 ^ 64

theorem counter_step_toNat (hfits : self.Fits floats event) (counter : Counter) :
    ((self.step floats event).counter counter).toNat = (self.counter counter).toNat + (self.amount floats event counter).toNat := by
  rw [counter_step, UInt64.toNat_add, Nat.mod_eq_of_lt (hfits counter)]

/-- The run: numbers that do not wrap around only grow. -/
theorem counters_grow (halong : Along (GatewayMetrics.step floats) (GatewayMetrics.Fits floats) self events) (counter : Counter) :
    self.counter counter ≤ (events.foldl (GatewayMetrics.step floats) self).counter counter := by
  induction events generalizing self with
  | nil => exact UInt64.le_refl _
  | cons event events ih =>
    have hstep := counter_step_toNat halong.1 counter
    have hrest := ih halong.2
    rw [UInt64.le_iff_toNat_le] at hrest ⊢
    rw [List.foldl_cons]
    omega

/-- The buckets of a page are cumulative, and none has more than there is. -/
structure GatewayMetrics.Cumulative (metrics : GatewayMetrics) : Prop where
  duration : ∀ i j, i ≤ j → metrics.counter (.duration_bucket i) ≤ metrics.counter (.duration_bucket j)
  duration_all : ∀ i, metrics.counter (.duration_bucket i) ≤ metrics.counter .duration_count
  ttfb : ∀ i j, i ≤ j → metrics.counter (.ttfb_bucket i) ≤ metrics.counter (.ttfb_bucket j)
  ttfb_all : ∀ i, metrics.counter (.ttfb_bucket i) ≤ metrics.counter .ttfb_count

theorem le_step {first second : Counter} (hfits : self.Fits floats event) (hle : self.counter first ≤ self.counter second)
    (hamount : self.amount floats event first ≤ self.amount floats event second) :
    (self.step floats event).counter first ≤ (self.step floats event).counter second := by
  have hfirst := counter_step_toNat hfits first
  have hsecond := counter_step_toNat hfits second
  rw [UInt64.le_iff_toNat_le] at hle hamount ⊢
  omega

theorem tick_le {first second : Prop} [Decidable first] [Decidable second] (himp : first → second) :
    (if first then 1 else 0 : UInt64) ≤ if second then 1 else 0 := by
  by_cases hfirst : first
  · rw [if_pos hfirst, if_pos (himp hfirst)]
    exact UInt64.le_refl _
  · rw [if_neg hfirst]
    exact UInt64.zero_le

theorem amount_duration_le (event : Event) {i j : Fin 10} (hle : i ≤ j) :
    self.amount floats event (.duration_bucket i) ≤ self.amount floats event (.duration_bucket j) := by
  have hbounds : ∀ i j : Fin 10, i ≤ j → (DURATION_BUCKETS i).millis ≤ (DURATION_BUCKETS j).millis := by decide
  cases event with
  | observe entry => exact tick_le fun hmillis => hmillis.trans (hbounds i j hle)
  | _ => exact UInt64.le_refl _

theorem amount_duration_all (event : Event) (i : Fin 10) :
    self.amount floats event (.duration_bucket i) ≤ self.amount floats event .duration_count := by
  cases event with
  | observe entry => exact @tick_le _ True _ _ fun _ => trivial
  | _ => exact UInt64.le_refl _

theorem amount_ttfb_le (event : Event) {i j : Fin 9} (hle : i ≤ j) :
    self.amount floats event (.ttfb_bucket i) ≤ self.amount floats event (.ttfb_bucket j) := by
  have hbounds : ∀ i j : Fin 9, i ≤ j → (TTFB_BUCKETS i).millis ≤ (TTFB_BUCKETS j).millis := by decide
  cases event with
  | observe entry =>
    refine tick_le fun hmillis => ?_
    cases httfb : entry.ttfb_ms with
    | none =>
      rw [httfb] at hmillis
      cases hmillis
    | some ttfb =>
      rw [httfb, Option.any_some, decide_eq_true_eq] at hmillis
      rw [Option.any_some, decide_eq_true_eq]
      exact hmillis.trans (hbounds i j hle)
  | _ => exact UInt64.le_refl _

theorem amount_ttfb_all (event : Event) (i : Fin 9) :
    self.amount floats event (.ttfb_bucket i) ≤ self.amount floats event .ttfb_count := by
  cases event with
  | observe entry =>
    refine tick_le fun hmillis => ?_
    cases httfb : entry.ttfb_ms with
    | none =>
      rw [httfb] at hmillis
      cases hmillis
    | some ttfb => rfl
  | _ => exact UInt64.le_refl _

theorem GatewayMetrics.Cumulative.step (hcumulative : self.Cumulative) (hfits : self.Fits floats event) :
    (self.step floats event).Cumulative where
  duration i j hle := le_step hfits (hcumulative.duration i j hle) (amount_duration_le event hle)
  duration_all i := le_step hfits (hcumulative.duration_all i) (amount_duration_all event i)
  ttfb i j hle := le_step hfits (hcumulative.ttfb i j hle) (amount_ttfb_le event hle)
  ttfb_all i := le_step hfits (hcumulative.ttfb_all i) (amount_ttfb_all event i)

theorem cumulative_start : ({} : GatewayMetrics).Cumulative :=
  ⟨fun _ _ _ => UInt64.le_refl _, fun _ => UInt64.le_refl _, fun _ _ _ => UInt64.le_refl _, fun _ => UInt64.le_refl _⟩

end Runs

section Lines

variable (floats : Floats) (self : GatewayMetrics)

/-- The families have different names, and the series of a family different labels. -/
theorem families_names (uptime : UInt64) : ((self.families floats uptime).map Family.name).Nodup := by
  have hnames : (self.families floats uptime).map Family.name =
      ["refract_requests_total", "refract_request_failures_total", "refract_transcoded_requests_total", "refract_stream_requests_total",
        "refract_input_tokens_total", "refract_output_tokens_total", "refract_upstream_retries_total",
        "refract_wallet_charge_failures_total", "refract_request_duration_seconds_bucket", "refract_request_duration_seconds_sum",
        "refract_request_duration_seconds_count", "refract_ttfb_seconds_bucket", "refract_ttfb_seconds_sum", "refract_ttfb_seconds_count",
        "refract_channel_requests_total", "refract_channel_failures_total"] ++
        (if self.per_user_enabled then ["refract_user_requests_total", "refract_wallet_balance"] else []) ++ ["refract_uptime_seconds"] := by
    rw [GatewayMetrics.families, GatewayMetrics.user_families]
    cases self.per_user_enabled <;> rfl
  rw [hnames]
  cases self.per_user_enabled <;> decide +kernel

theorem keys_labels {κ β : Type} [LinearOrder κ] (map : SortedMap κ β) {label : κ → String} (hlabel : Function.Injective label)
    (name : String) (value : κ × β → String) :
    ((map.entries.map fun entry => ([(name, label entry.1)], value entry)).map Prod.fst).Nodup := by
  have hkeys : (map.entries.map Prod.fst).Nodup := map.sorted.imp fun hlt => hlt.ne
  rw [List.map_map]
  have hmap : (map.entries.map Prod.fst).map (fun key => [(name, label key)]) =
      map.entries.map (Prod.fst ∘ fun entry => ([(name, label entry.1)], value entry)) := by
    rw [List.map_map]
    rfl
  rw [← hmap]
  refine hkeys.map fun first second hsame => hlabel ?_
  simpa using hsame

theorem buckets_labels {n : Nat} (bounds : Fin n → Bound) (bucket : Fin n → UInt64) (count : UInt64) :
    (buckets bounds bucket count).map Prod.fst = (List.finRange n).map (fun i => [("le", (bounds i).text)]) ++ [[("le", "+Inf")]] := by
  rw [buckets, List.map_append, List.map_map]
  rfl

theorem families_labels (uptime : UInt64) : ∀ family ∈ self.families floats uptime, (family.series.map Prod.fst).Nodup := by
  have hprint : Function.Injective fun user_id : Int => String.ofList (printInt user_id) := by
    intro first second hsame
    exact tickets.printInt_injective (String.ofList_inj.mp hsame)
  have hone : ∀ value : String, ([(([] : List (String × String)), value)].map Prod.fst).Nodup := fun _ => List.nodup_singleton _
  have hprotocols : ∀ value : Protocol → String, ((Protocol.ALL.map fun p => ([("protocol", p.as_str)], value p)).map Prod.fst).Nodup := by
    intro value
    rw [List.map_map]
    exact (by decide : (Protocol.ALL.map fun p => [("protocol", p.as_str)]).Nodup)
  have husers : ∀ family ∈ self.user_families floats, (family.series.map Prod.fst).Nodup := by
    rw [GatewayMetrics.user_families]
    split
    · refine List.forall_mem_cons.mpr ⟨?_, List.forall_mem_singleton.mpr ?_⟩
      · exact keys_labels self.per_user_requests hprint "user_id" _
      · exact keys_labels self.wallet_balances hprint "user_id" _
    · exact List.forall_mem_nil _
  intro family hfamily
  rw [GatewayMetrics.families] at hfamily
  rcases List.mem_append.mp hfamily with hfamily | hfamily
  · rcases List.mem_append.mp hfamily with hfamily | hfamily
    · simp only [List.mem_cons, List.not_mem_nil, or_false] at hfamily
      rcases hfamily with rfl | rfl | rfl | rfl | rfl | rfl | rfl | rfl | rfl | rfl | rfl | rfl | rfl | rfl | rfl | rfl
      · exact hprotocols _
      · exact hprotocols _
      · exact hone _
      · exact hone _
      · exact hone _
      · exact hone _
      · exact hone _
      · exact hone _
      · rw [buckets_labels]
        decide +kernel
      · exact hone _
      · exact hone _
      · rw [buckets_labels]
        decide +kernel
      · exact hone _
      · exact hone _
      · exact keys_labels self.by_channel Function.injective_id "channel" _
      · exact keys_labels self.by_channel Function.injective_id "channel" _
    · exact husers family hfamily
  · obtain rfl := List.mem_singleton.mp hfamily
    exact hone _

/-- There is one line for each series. -/
theorem samples_distinct (uptime : UInt64) : ((self.samples floats uptime).map fun sample => (sample.name, sample.labels)).Nodup := by
  have hkeys : (self.samples floats uptime).map (fun sample => (sample.name, sample.labels)) =
      (self.families floats uptime).flatMap fun family => (family.series.map Prod.fst).map (family.name, ·) := by
    rw [GatewayMetrics.samples, List.map_flatMap]
    refine List.flatMap_congr fun family _ => ?_
    rw [Family.samples, List.map_map, List.map_map]
    rfl
  rw [hkeys, List.nodup_flatMap]
  constructor
  · intro family hfamily
    exact (families_labels floats self uptime family hfamily).map (Prod.mk_right_injective _)
  · refine (List.pairwise_map.mp (families_names floats self uptime)).imp fun hne => ?_
    intro key hfirst hsecond
    obtain ⟨_, -, rfl⟩ := List.mem_map.mp hfirst
    obtain ⟨_, -, hkey⟩ := List.mem_map.mp hsecond
    exact hne (congrArg Prod.fst hkey).symm

end Lines

/-- What the page is to be at a time of a run: it is read as what is recorded, one line for a
    series, and as far as no number wraps around, the buckets are cumulative and the numbers have
    only grown. -/
structure ReadBack (floats : Floats) (events : List Event) (uptime : UInt64) : Prop where
  read : parse ((events.foldl (GatewayMetrics.step floats) {}).render floats uptime) =
    some ((events.foldl (GatewayMetrics.step floats) {}).samples floats uptime)
  distinct : (((events.foldl (GatewayMetrics.step floats) {}).samples floats uptime).map fun sample => (sample.name, sample.labels)).Nodup
  cumulative : Along (GatewayMetrics.step floats) (GatewayMetrics.Fits floats) {} events →
    (events.foldl (GatewayMetrics.step floats) {}).Cumulative
  grown : Along (GatewayMetrics.step floats) (GatewayMetrics.Fits floats) {} events → ∀ before after, events = before ++ after →
    ∀ counter, (before.foldl (GatewayMetrics.step floats) {}).counter counter ≤ (events.foldl (GatewayMetrics.step floats) {}).counter counter

/-- The page is read back if no channel that was observed has a line break in its name, and in no
    other case. -/
theorem page_read_back_iff {floats : Floats} (hprinted : floats.Printed) (events : List Event) (uptime : UInt64) :
    ReadBack floats events uptime ↔ ∀ event ∈ events, ∀ channel, event.channel_name = some channel → '\n' ∉ channel.toList := by
  have hchannels : ∀ channel, channel ∈ (events.foldl (GatewayMetrics.step floats) {}).by_channel.entries.map Prod.fst ↔
      ∃ event ∈ events, event.channel_name = some channel := by
    intro channel
    rw [channels_run]
    exact or_iff_left List.not_mem_nil
  constructor
  · intro hback event hevent channel hchannel hbreak
    have hbroken := @reads_lines_broken floats _ _ ((hchannels channel).mpr ⟨event, hevent, hchannel⟩) hbreak uptime
    have hread := hback.read
    rw [GatewayMetrics.render, parse_page, hbroken] at hread
    cases hread
  · intro hplain
    refine ⟨?_, samples_distinct floats _ uptime, fun halong => ?_, fun halong before after hsplit counter => ?_⟩
    · rw [GatewayMetrics.render, parse_page]
      refine reads_lines hprinted uptime fun channel hmem => ?_
      obtain ⟨event, hevent, hchannel⟩ := (hchannels channel).mp hmem
      exact hplain event hevent channel hchannel
    · exact (halong.throughout (fun _ _ hcumulative hfits => hcumulative.step hfits) cumulative_start).finish
    · subst hsplit
      rw [List.foldl_append]
      exact counters_grow (along_append.mp halong).2 counter

/-- Seconds and balances that are written as whole numbers. -/
def whole_floats : Floats where
  micros millis := millis * 1000
  seconds micros := written (micros / 1000000)
  balance balance := written (.ofNat balance.floor.toNat)

theorem whole_floats_printed : whole_floats.Printed where
  seconds _ := isWord_written _
  balance _ := isWord_written _

/-- A request that a channel failed to answer for two seconds. -/
def observed (channel : String) : Event :=
  .observe { channel_name := some channel, inbound_protocol := .chat, upstream_protocol := .chat, status := 502, duration_ms := 2000 }

theorem quoted_name_read_back : ReadBack whole_floats [observed "main \\ \"spare\""] 60 := by
  refine (page_read_back_iff whole_floats_printed _ _).mpr fun event hevent channel hchannel => ?_
  obtain rfl := List.mem_singleton.mp hevent
  obtain rfl := Option.some.inj hchannel
  decide

/-- A line break in a name makes a page that cannot be read. -/
theorem broken_name_not_read : parse (([observed "main\nspare"].foldl (GatewayMetrics.step whole_floats) {}).render whole_floats 60) = none := by
  have hmem : "main\nspare" ∈ ([observed "main\nspare"].foldl (GatewayMetrics.step whole_floats) {}).by_channel.entries.map Prod.fst :=
    List.mem_singleton.mpr rfl
  rw [GatewayMetrics.render, parse_page]
  exact reads_lines_broken hmem (by decide) 60

end refract.gateway.metrics
