import Refract.Gateway.Native
import Refract.Gateway.Response
import Refract.Gateway.Transcode

open refract.core refract.machine refract.stream

namespace refract.gateway

/-- The chunk was written by the codec task. -/
def Chunk.is_frame : Chunk → Bool
  | .frame _ => true
  | .keep_alive => false

section Transcoded

variable {σ τ : Type} {decoder_of : Decoder σ} {encoder_of : Encoder τ} {upstream_protocol : Protocol}

/-- Whether a codec task has met a client that left. -/
def Relay.client_closed : Relay σ τ → Bool
  | .finished _ client_closed => client_closed
  | _ => false

theorem report_client_closed (encoder : τ) (error : GatewayError) :
    (report (σ := σ) encoder_of encoder error).client_closed = false := by
  unfold report
  split <;> rfl

/-- While the client stays, no task finds it gone. -/
theorem next_client_closed (r s : Relay σ τ) (hleads : (r.next decoder_of encoder_of upstream_protocol).Leads s) :
    s.client_closed = r.client_closed := by
  cases Relay.moves_of_leads hleads with
  | pass decoder encoder saw_done upstream event events =>
    unfold pass
    split
    · exact report_client_closed encoder _
    · split
      · rfl
      · exact report_client_closed _ _
  | read decoder encoder saw_done item upstream =>
    unfold read
    split
    · exact report_client_closed encoder _
    · split
      · rfl
      · exact report_client_closed _ _
  | end_of_upstream decoder encoder saw_done =>
    unfold end_of_upstream
    split
    · exact report_client_closed encoder _
    · split
      · rfl
      · exact report_client_closed _ _
  | drain encoder event events =>
    unfold drain
    split
    · rfl
    · exact report_client_closed _ _
  | close encoder =>
    unfold close
    split
    · rfl
    · exact report_client_closed _ _
  | _ => rfl

/-- A codec task halts when it is finished. -/
theorem Relay.finished_of_halts {r : Relay σ τ} (h : (r.next decoder_of encoder_of upstream_protocol).halts) :
    ∃ stream_error client_closed, r = .finished stream_error client_closed := by
  match r with
  | .finished stream_error client_closed => exact ⟨stream_error, client_closed, rfl⟩
  | .reading _ _ _ _ _ (_ :: _) | .reading _ _ _ _ (_ :: _) [] | .reading _ _ _ (_ :: _) [] []
  | .reading _ _ _ [] [] [] | .draining _ _ (_ :: _) | .draining _ (_ :: _) [] | .draining _ [] []
  | .closing (_ :: _) | .closing [] | .reporting _ (_ :: _) | .reporting _ [] => cases h

/-- In every run of the tasks in which the client stays, the codec task has sent
    the frames of the stream and ends as the stream does. -/
theorem completed_transcoded {upstream : List (Except GatewayError Sse)} {s : Shared (Relay σ τ) KeepAlive Chunk CHANNEL_CAPACITY}
    (hrun : (transcoded_stream_response upstream_protocol decoder_of encoder_of).Run (respond decoder_of encoder_of upstream) s)
    (hdone : Completed upstream_protocol decoder_of encoder_of s) :
    s.left = .finished
        (transcoded decoder_of encoder_of upstream_protocol decoder_of.init encoder_of.init false upstream).stream_error false ∧
      (Tasks.accepted s).filter Chunk.is_frame =
        (transcoded decoder_of encoder_of upstream_protocol decoder_of.init encoder_of.init false upstream).frames.map .frame := by
  obtain ⟨hconnected, hhalts⟩ := hdone
  obtain ⟨error, closed, hleft⟩ := Relay.finished_of_halts hhalts
  have hclosed := Tasks.left_constant (f := Relay.client_closed) next_client_closed hrun hconnected
  have herror := Tasks.left_constant
    (f := fun r => (r.rest decoder_of encoder_of upstream_protocol).stream_error) (fun r r' h => (next_rest r r' h).2)
    hrun hconnected
  have hframes := Tasks.left_conserved (p := Chunk.is_frame)
    (fun r => (r.rest decoder_of encoder_of upstream_protocol).frames.map Chunk.frame)
    (fun r r' h => by
      have hwrites : (r.next decoder_of encoder_of upstream_protocol).writes.filter Chunk.is_frame =
          (r.next decoder_of encoder_of upstream_protocol).writes := by
        cases Relay.moves_of_leads h <;> rfl
      rw [(next_rest r r' h).1, ← hwrites]
      rfl)
    (fun k => by cases k <;> rfl) hrun hconnected
  rw [hleft] at hclosed herror hframes
  refine ⟨?_, ?_⟩
  · rw [hleft]
    congr 1
  · simpa [Relay.rest, respond, Tasks.accepted, Channel.empty, passed] using hframes

end Transcoded

section Native

variable {σ : Type} (decoder_of : Decoder σ) (upstream_protocol : Protocol)

/-- The task of a native stream was spawned and nothing has happened yet. -/
def native_stream_response (upstream : List (Except GatewayError Bytes)) :
    Shared (NativeRelay σ) Unit Bytes CHANNEL_CAPACITY where
  left := .relaying ⟨{}, decoder_of.init, false⟩ upstream
  right := ()
  channel := .empty
  delivered := []

variable {decoder_of upstream_protocol}

def NativeRelay.client_closed : NativeRelay σ → Bool
  | .finished _ client_closed => client_closed
  | .relaying _ _ => false

theorem native_next_client_closed (r s : NativeRelay σ) (hleads : (r.next decoder_of upstream_protocol).Leads s) :
    s.client_closed = r.client_closed := by
  match r with
  | .relaying inspector [] | .relaying inspector (.error _ :: _) =>
    obtain rfl := Next.leads_run.mp hleads
    rfl
  | .relaying inspector (.ok bytes :: upstream) =>
    obtain rfl := Next.leads_send.mp hleads
    obtain ⟨inspector, error | ok⟩ := inspect_chunk decoder_of inspector bytes <;> rfl
  | .finished stream_error client_closed => exact hleads.elim

/-- In every run in which the client stays, the relay has passed on the chunks of
    the stream and ends as the stream does. -/
theorem completed_native {upstream : List (Except GatewayError Bytes)} {s : Shared (NativeRelay σ) Unit Bytes CHANNEL_CAPACITY}
    (hrun : (relay_native_stream decoder_of upstream_protocol).Run (native_stream_response decoder_of upstream) s)
    (hconnected : s.channel.connected) (hhalts : (s.left.next decoder_of upstream_protocol).halts) :
    s.left = .finished
        (relayed decoder_of upstream_protocol ⟨{}, decoder_of.init, false⟩ upstream).stream_error false ∧
      Tasks.accepted s = (relayed decoder_of upstream_protocol ⟨{}, decoder_of.init, false⟩ upstream).chunks := by
  have hclosed := Tasks.left_constant (f := NativeRelay.client_closed) native_next_client_closed hrun hconnected
  have herror := Tasks.left_constant
    (f := fun r => (r.rest decoder_of upstream_protocol).stream_error) (fun r r' h => (native_next_rest r r' h).2)
    hrun hconnected
  have hchunks := Tasks.left_conserved (p := fun _ => true)
    (fun r => (r.rest decoder_of upstream_protocol).chunks)
    (fun r r' h => by
      rw [(native_next_rest r r' h).1, List.filter_true]
      rfl)
    (fun k => rfl) hrun hconnected
  match hleft : s.left with
  | .finished error closed =>
    rw [hleft] at hclosed herror hchunks
    refine ⟨?_, ?_⟩
    · congr 1
    · simpa [NativeRelay.rest, native_stream_response, Tasks.accepted, Channel.empty] using hchunks
  | .relaying inspector [] | .relaying inspector (.error _ :: _) | .relaying inspector (.ok _ :: _) =>
    rw [hleft] at hhalts
    cases hhalts

end Native

end refract.gateway
