import Refract.Codec.Protocols
import Refract.Gateway.Relay
import Refract.Json.Parse

open refract.core refract.json refract.machine refract.stream

namespace refract.gateway

/-- The task that keeps an idle connection open. It stops only when the receiver
    of its channel is gone. -/
inductive KeepAlive where
  | waiting
  | sending
  | stopped
  deriving DecidableEq, Repr

def KeepAlive.next : KeepAlive → Next KeepAlive Chunk
  | .waiting => .run .sending
  | .sending => .send .keep_alive .waiting .stopped
  | .stopped => .halt

/-- The slots of the channel between the tasks and the response. -/
def CHANNEL_CAPACITY : Nat := 32

section Response

variable {σ τ : Type} (upstream_protocol : Protocol) (decoder_of : Decoder σ) (encoder_of : Encoder τ)

/-- The codec task and the keep-alive task of a transcoded stream. -/
def transcoded_stream_response : Tasks (Relay σ τ) KeepAlive Chunk where
  left := Relay.next decoder_of encoder_of upstream_protocol
  right := KeepAlive.next

/-- Both tasks were spawned and nothing has happened yet. -/
def respond (upstream : List (Except GatewayError Sse)) : Shared (Relay σ τ) KeepAlive Chunk CHANNEL_CAPACITY where
  left := .reading decoder_of.init encoder_of.init false upstream [] []
  right := .waiting
  channel := .empty
  delivered := []

/-- The codec task has finished while the client is still there. -/
def Completed (s : Shared (Relay σ τ) KeepAlive Chunk CHANNEL_CAPACITY) : Prop :=
  s.channel.connected ∧ (Relay.next decoder_of encoder_of upstream_protocol s.left).halts

/-- No sender is left, and nothing comes after the last frame of the encoder. -/
def Ended (s : Shared (Relay σ τ) KeepAlive Chunk CHANNEL_CAPACITY) : Prop :=
  (transcoded_stream_response upstream_protocol decoder_of encoder_of).senders s = 0 ∧
    ∀ t, (transcoded_stream_response upstream_protocol decoder_of encoder_of).Run s t → t.channel.connected →
      ∀ before frame later, t.delivered = before ++ .frame frame :: later →
        (∀ chunk ∈ later ++ t.channel.queue, chunk = .keep_alive) → later = []

/-- The body of a transcoded stream ends when its codec task does. -/
def EndsWithProtocol (upstream : List (Except GatewayError Sse)) : Prop :=
  ∀ s, (transcoded_stream_response upstream_protocol decoder_of encoder_of).Run
    (respond decoder_of encoder_of upstream) s → Completed upstream_protocol decoder_of encoder_of s →
      Ended upstream_protocol decoder_of encoder_of s

variable {upstream_protocol decoder_of encoder_of} {s t : Shared (Relay σ τ) KeepAlive Chunk CHANNEL_CAPACITY}

/-- A keep-alive task that still runs has a sender. -/
theorem KeepAlive.leads_ne_stopped (k k' : KeepAlive) (hk : k ≠ .stopped) (hleads : k.next.Leads k') :
    k' ≠ .stopped := by
  cases k with
  | waiting =>
    obtain rfl := Next.leads_run.mp hleads
    simp
  | sending =>
    obtain rfl := Next.leads_send.mp hleads
    simp
  | stopped => exact absurd rfl hk

/-- As long as the client stays, the keep-alive task goes on. -/
theorem keep_alive_ne_stopped {upstream : List (Except GatewayError Sse)}
    (hrun : (transcoded_stream_response upstream_protocol decoder_of encoder_of).Run
      (respond decoder_of encoder_of upstream) s) (hconnected : s.channel.connected) : s.right ≠ .stopped :=
  Tasks.right_invariant (P := (· ≠ .stopped)) KeepAlive.leads_ne_stopped hrun hconnected (by simp [respond])

/-- A finished codec task leaves the sender of the keep-alive task. -/
theorem senders_of_completed (hkeep : s.right ≠ .stopped) (hdone : Completed upstream_protocol decoder_of encoder_of s) :
    (transcoded_stream_response upstream_protocol decoder_of encoder_of).senders s = 1 := by
  have hleft : ((transcoded_stream_response upstream_protocol decoder_of encoder_of).left s.left).halts = true := hdone.2
  have hright : ((transcoded_stream_response upstream_protocol decoder_of encoder_of).right s.right).halts = false := by
    unfold transcoded_stream_response
    cases hk : s.right with
    | waiting => rfl
    | sending => rfl
    | stopped => exact absurd hk hkeep
  rw [Tasks.senders, hleft, hright]
  rfl

/-- The keep-alive task can always reach the client once more. -/
theorem exists_keep_alive (hkeep : s.right ≠ .stopped) (hconnected : s.channel.connected) :
    ∃ t, (transcoded_stream_response upstream_protocol decoder_of encoder_of).Run s t ∧ t.channel.connected ∧
      t.delivered = s.delivered ++ s.channel.queue ++ [.keep_alive] := by
  cases hk : s.right with
  | waiting =>
    have htick : (transcoded_stream_response upstream_protocol decoder_of encoder_of).move s .right =
        some { s with right := .sending } := by
      simp only [Tasks.move, transcoded_stream_response, hk, KeepAlive.next, Channel.serve, Option.map_some]
    obtain ⟨t, hrun, -, ht, hdelivered⟩ := Tasks.exists_delivered
      (T := transcoded_stream_response upstream_protocol decoder_of encoder_of)
      (s := { s with right := .sending }) (by decide) hconnected rfl
    exact ⟨t, (Tasks.Run.of_move htick).trans hrun, ht, hdelivered⟩
  | sending =>
    have hnext : (transcoded_stream_response upstream_protocol decoder_of encoder_of).right s.right =
        .send .keep_alive .waiting .stopped := by
      rw [hk]
      rfl
    obtain ⟨t, hrun, -, ht, hdelivered⟩ := Tasks.exists_delivered (by decide) hconnected hnext
    exact ⟨t, hrun, ht, hdelivered⟩
  | stopped => exact absurd hk hkeep

variable (upstream_protocol decoder_of encoder_of) (upstream : List (Except GatewayError Sse))

/-- Every stream has runs in which its codec task finishes and its client stays. -/
theorem exists_completed :
    ∃ s, (transcoded_stream_response upstream_protocol decoder_of encoder_of).Run
      (respond decoder_of encoder_of upstream) s ∧ Completed upstream_protocol decoder_of encoder_of s :=
  Tasks.exists_left_halts (T := transcoded_stream_response upstream_protocol decoder_of encoder_of)
    (by decide) next_weight rfl

theorem not_endsWithProtocol : ¬ EndsWithProtocol upstream_protocol decoder_of encoder_of upstream := by
  intro hends
  obtain ⟨s, hrun, hdone⟩ := exists_completed upstream_protocol decoder_of encoder_of upstream
  have hsenders := senders_of_completed (keep_alive_ne_stopped hrun hdone.1) hdone
  have hnone := (hends s hrun hdone).1
  omega

/-- No transcoded stream ends with its protocol. Whenever its codec task has
    finished under a connected client, one sender is left, and a comment can
    still follow all that the encoder wrote. -/
theorem transcoded_stream_never_ends :
    ¬ EndsWithProtocol upstream_protocol decoder_of encoder_of upstream ∧
      ∀ s, (transcoded_stream_response upstream_protocol decoder_of encoder_of).Run
          (respond decoder_of encoder_of upstream) s → Completed upstream_protocol decoder_of encoder_of s →
        (transcoded_stream_response upstream_protocol decoder_of encoder_of).senders s = 1 ∧
          ∃ t, (transcoded_stream_response upstream_protocol decoder_of encoder_of).Run s t ∧ t.channel.connected ∧
            t.delivered = s.delivered ++ s.channel.queue ++ [.keep_alive] := by
  refine ⟨not_endsWithProtocol upstream_protocol decoder_of encoder_of upstream, ?_⟩
  intro s hrun hdone
  have hkeep := keep_alive_ne_stopped hrun hdone.1
  exact ⟨senders_of_completed hkeep hdone, exists_keep_alive hkeep hdone.1⟩

end Response

/-- A completed Chat stream, sent to a client of the Messages protocol. -/
theorem completed_chat_not_endsWithProtocol :
    ¬ EndsWithProtocol .chat (codec.chat.stream_decoder Serde.compact).fallible
      (codec.messages.stream_encoder Serde.compact fun _ => "0").fallible
      [.ok ⟨"message", Serde.compact.to_string
          (.object [("choices", .array [.object [("delta", .object [("content", .string "hello")])]])])⟩,
        .ok ⟨"message", "[DONE]"⟩] :=
  not_endsWithProtocol _ _ _ _

end refract.gateway
