import Refract.Gateway.Delivery
import Refract.Router.Preflight

open refract.core refract.machine refract.router refract.stream refract.upstream

namespace refract.gateway

section Extent

variable {σ : Type} (decoder_of : Decoder σ)

/-- Looks into chunks one after another, up to the first error. -/
def inspect_chunks (self : Inspector σ) : List Bytes → Inspector σ × Except GatewayError Unit
  | [] => (self, .ok ())
  | bytes :: chunks =>
    match inspect_chunk decoder_of self bytes with
    | (self, .ok ()) => inspect_chunks self chunks
    | (self, .error error) => (self, .error error)

/-- How far a stream is passed on: to its end, to a failure of the upstream, or
    through the chunk in which an error is found. -/
inductive Extent (self : Inspector σ) : List (Except GatewayError Bytes) → List Bytes → Prop
  | whole {chunks : List Bytes} (hclean : (inspect_chunks decoder_of self chunks).2 = .ok ()) : Extent self (chunks.map .ok) chunks
  | failed {chunks : List Bytes} (hclean : (inspect_chunks decoder_of self chunks).2 = .ok ()) (error : GatewayError)
    (rest : List (Except GatewayError Bytes)) : Extent self (chunks.map .ok ++ .error error :: rest) chunks
  | found {chunks : List Bytes} (hclean : (inspect_chunks decoder_of self chunks).2 = .ok ()) {last : Bytes} {error : GatewayError}
    (hfound : (inspect_chunk decoder_of (inspect_chunks decoder_of self chunks).1 last).2 = .error error)
    (rest : List (Except GatewayError Bytes)) : Extent self ((chunks ++ [last]).map .ok ++ rest) (chunks ++ [last])

variable {decoder_of}

/-- A chunk without an error comes before what the rest extends to. -/
theorem Extent.cons {self after : Inspector σ} {bytes : Bytes} {upstream : List (Except GatewayError Bytes)} {chunks : List Bytes}
    (hinspect : inspect_chunk decoder_of self bytes = (after, .ok ())) (hextent : Extent decoder_of after upstream chunks) :
    Extent decoder_of self (.ok bytes :: upstream) (bytes :: chunks) := by
  have hinspected : ∀ chunks, inspect_chunks decoder_of self (bytes :: chunks) = inspect_chunks decoder_of after chunks := by
    intro chunks
    rw [inspect_chunks, hinspect]
  cases hextent with
  | whole hclean => exact .whole ((congrArg Prod.snd (hinspected chunks)).trans hclean)
  | failed hclean error rest => exact .failed ((congrArg Prod.snd (hinspected chunks)).trans hclean) error rest
  | @found chunks hclean last error hfound rest =>
    have hearlier := hinspected chunks
    exact @Extent.found _ _ _ (bytes :: chunks) (hearlier ▸ hclean) _ _ (hearlier ▸ hfound) rest

theorem relayed_extent (upstream_protocol : Protocol) (self : Inspector σ) (upstream : List (Except GatewayError Bytes)) :
    Extent decoder_of self upstream (relayed decoder_of upstream_protocol self upstream).chunks := by
  induction upstream generalizing self with
  | nil => exact @Extent.whole _ _ _ [] rfl
  | cons item upstream ih =>
    cases item with
    | error error => exact @Extent.failed _ _ _ [] rfl error upstream
    | ok bytes =>
      rcases hinspect : inspect_chunk decoder_of self bytes with ⟨after, error | _⟩
      · simp only [relayed, hinspect]
        exact @Extent.found _ _ _ [] rfl _ _ (congrArg Prod.snd hinspect) upstream
      · simp only [relayed, hinspect]
        exact (ih after).cons hinspect

end Extent

/-- The bytes of a stream, up to its failure. -/
def stream_bytes : List (Except GatewayError Bytes) → Bytes
  | .ok bytes :: stream => bytes ++ stream_bytes stream
  | .error _ :: _ | [] => []

theorem flatten_prefix {chunks : List Bytes} {stream : List (Except GatewayError Bytes)} (hchunks : chunks.map .ok <+: stream) :
    chunks.flatten <+: stream_bytes stream := by
  induction chunks generalizing stream with
  | nil => exact List.nil_prefix
  | cons bytes chunks ih =>
    cases stream with
    | nil => cases List.prefix_nil.mp hchunks
    | cons item stream =>
      obtain ⟨rfl, hrest⟩ := List.cons_prefix_cons.mp hchunks
      exact (List.prefix_append_right_inj bytes).mpr (ih hrest)

section Replay

variable {σ : Type} (decoder_of : Decoder σ) (texts : Texts) (upstream_protocol : Protocol) (empty_policy : EmptyResponseRetryPolicy)
  (reject_nonstandard_200 : Bool) (content_type : String) (waits : Nat → Wait) (upstream : List (Except GatewayError Bytes))

/-- A state of a native stream whose beginning was read to judge it. -/
def Replayed (state : Shared (NativeRelay σ) Unit Bytes CHANNEL_CAPACITY) : Prop :=
  ∃ preflighted,
    preflight_raw_stream decoder_of texts upstream_protocol empty_policy reject_nonstandard_200 content_type waits upstream =
      some (.ok preflighted) ∧
    (relay_native_stream decoder_of upstream_protocol).Run (native_stream_response decoder_of (prepend_stream preflighted)) state

/-- What a client receives of a native stream. -/
structure ByteForByte : Prop where
  /-- Reading the beginning does not panic. -/
  steady : preflight_raw_stream decoder_of texts upstream_protocol empty_policy reject_nonstandard_200 content_type waits upstream ≠ none
  received : ∀ state, Replayed decoder_of texts upstream_protocol empty_policy reject_nonstandard_200 content_type waits upstream state →
    state.delivered.map Except.ok <+: upstream ∧ state.delivered.flatten <+: stream_bytes upstream
  /-- A client that stays has received the whole extent of the stream when the relay is over. -/
  complete : ∀ state, Replayed decoder_of texts upstream_protocol empty_policy reject_nonstandard_200 content_type waits upstream state →
    state.channel.connected → (state.left.next decoder_of upstream_protocol).halts → state.channel.queue = [] →
      Extent decoder_of ⟨{}, decoder_of.init, false⟩ upstream state.delivered
  /-- As long as the client stays, the relay can come to its end. -/
  reaches : ∀ state, Replayed decoder_of texts upstream_protocol empty_policy reject_nonstandard_200 content_type waits upstream state →
    state.channel.connected → ∃ last, (relay_native_stream decoder_of upstream_protocol).Run state last ∧ last.channel.connected ∧
      (last.left.next decoder_of upstream_protocol).halts ∧ last.channel.queue = []

/-- The bytes of a native stream are passed on unchanged, in order and once. -/
theorem native_byte_for_byte :
    ByteForByte decoder_of texts upstream_protocol empty_policy reject_nonstandard_200 content_type waits upstream where
  steady := preflight_ne_none
  received := by
    rintro state ⟨preflighted, hready, hrun⟩
    rw [preflight_complete hready] at hrun
    have hdelivered := (Tasks.delivered_prefix (fun r => (r.rest decoder_of upstream_protocol).chunks)
      (fun r r' hleads => (native_next_rest r r' hleads).1) (fun _ => rfl) rfl hrun).1
    have hrelayed : (relayed decoder_of upstream_protocol ⟨{}, decoder_of.init, false⟩ upstream).chunks.map Except.ok <+: upstream :=
      relayed_prefix _ upstream
    have hwhole := (hdelivered.map Except.ok).trans hrelayed
    exact ⟨hwhole, flatten_prefix hwhole⟩
  complete := by
    rintro state ⟨preflighted, hready, hrun⟩ hconnected hhalts hqueue
    rw [preflight_complete hready] at hrun
    obtain ⟨-, haccepted⟩ := completed_native hrun hconnected hhalts
    rw [Tasks.accepted, hqueue, List.append_nil] at haccepted
    rw [haccepted]
    exact relayed_extent upstream_protocol _ upstream
  reaches := by
    rintro state ⟨preflighted, hready, hrun⟩ hconnected
    obtain ⟨halted, hhalted, hstays, hhalts⟩ := Tasks.exists_left_halts (T := relay_native_stream decoder_of upstream_protocol)
      (Nat.succ_pos _ : 0 < CHANNEL_CAPACITY) native_next_weight hconnected
    obtain ⟨last, hlast, hleft, -, hsame, hqueue, -⟩ := Tasks.exists_drained (T := relay_native_stream decoder_of upstream_protocol) halted
    exact ⟨last, hhalted.trans hlast, hsame ▸ hstays, hleft ▸ hhalts, hqueue⟩

end Replay

end refract.gateway
