/-
# What a client can make a worker keep

Two buffers of a connection grow with what its client does: the read buffer with
what it sends, the write buffer with what it does not read.  Both stay small
(`MiniRpc.Server.Backlog`), and a worker builds its connections with the default
options, so this bounds what each of them keeps (`connection_slim`).
-/

import MiniRpc.EndToEnd.Worker
import MiniRpc.Server.Backlog

namespace MiniRpc
namespace EndToEnd

open Protocol Splitter Server Transition

namespace ServerEnd

variable {env : LoopEnv} {s t : ServerEnd}

/-- **Every step of an end keeps it slim.** -/
theorem slim_step {a : Act} (h : Slim (baseEnv env) s.connection) (hs : s.step env a = some t) :
    Slim (baseEnv env) t.connection := by
  cases a with
  | round dispatch answers takes =>
    obtain ⟨turn, hturn, rfl⟩ := Option.map_eq_some_iff.1 hs
    obtain ⟨place, -, rfl⟩ := Option.map_eq_some_iff.1 hturn
    have hsocket : Slim (baseEnv env) (answering s.turn answers takes).connection :=
      h.same ⟨rfl, rfl, rfl, id⟩
    have hround : Slim (connectionEnv env dispatch) (answering s.turn answers takes).connection :=
      hsocket.congr rfl
    exact (hround.coRound place).congr rfl
  | complete i =>
    simp only [ServerEnd.step] at hs
    cases hq : s.connection.out.handed[i]? with
    | none => simp [hq] at hs
    | some request =>
      rw [hq] at hs
      dsimp only at hs
      split_ifs at hs
      obtain ⟨turn, hturn, rfl⟩ := Option.map_eq_some_iff.1 hs
      obtain ⟨-, rfl⟩ := Turn.called_cases hturn
      exact h.flushed rfl id (h.queued.enqueueResponse _)
  | notifyReadable => exact h.same (call_same (by simp) hs).1
  | notifyWritable => exact h.same (call_same (by simp) hs).1
  | tick now => exact h.same (call_same (by simp) hs).1
  | markClosing => exact h.same (call_same (by simp) hs).1
  | markClosed => exact h.same (call_same (by simp) hs).1

/-- Whatever an end comes to from its start. -/
theorem slim_reached {rc wc : List Time} (hr : Reaches (step env) (.start rc wc) s) :
    Slim (baseEnv env) s.connection :=
  hr.invariant (fun _ _ _ h hs => slim_step h hs) (Slim.new _ rc wc [] [])

end ServerEnd

variable {env : LoopEnv} {s₀ s : OwnedLoop}

/-- **What a connection of a worker keeps is bounded.**  In every run of a worker in
which at most `2 ^ 64` connections got a token, a connection of the table that is not
closing holds a strict prefix of one frame unread, less than 4 bytes and 4 MiB; and
whether it is closing or not, `pending_write_bytes_` is what its write buffer has
still to send, and at most 8 MiB. -/
theorem connection_slim (h₀ : s₀.Initial) {actions : List OwnedLoop.Action}
    (hrun : exec (OwnedLoop.act env) s₀ actions = some s) (hn : s.issued.length ≤ 2 ^ 64) {fd : ℤ}
    {state : ConnectionState} (hl : s.loop.connections.lookup fd = some state) :
    (state.connection.shouldClose = false →
      state.connection.readBuffer.readableBytes < 4 + 4 * 1024 * 1024 ∧
      ∃ body missing, missing ≠ [] ∧
        frame body = state.connection.readBuffer.readable ++ missing) ∧
    state.connection.out.pendingWriteBytes = (state.connection.out.writeBuffer.map fun chunk =>
      chunk.data.length - chunk.offset).sum ∧
    state.connection.out.pendingWriteBytes ≤ 8 * 1024 * 1024 := by
  obtain ⟨rc, wc, hr⟩ := (portrayed h₀ hrun hn).seen fd state hl
  have hslim := ServerEnd.slim_reached hr
  refine ⟨fun hopen => ⟨?_, prefix_of_cut_more (hslim.unread hopen)⟩, hslim.queued.count,
    hslim.queued.limit⟩
  rw [← Buffer.length_readable]
  exact length_of_cut_more (hslim.unread hopen)

/-- One connection, one request. -/
theorem connection_slim_sample : ∃ s state,
    exec (OwnedLoop.act OwnedLoop.poolEnv) OwnedLoop.beginning askedActions = some s ∧
      s.loop.connections.lookup 7 = some state ∧
      state.connection.out.emitted = frame Server.Connection.sampleReply ∧
      state.connection.out.pendingWriteBytes ≤ 8 * 1024 * 1024 := by
  obtain ⟨s, state, hs, hn, hl, -, hemitted⟩ := exists_askedActions
  exact ⟨s, state, hs, hl, hemitted,
    (connection_slim OwnedLoop.initial_beginning hs hn hl).2.2⟩

end EndToEnd
end MiniRpc
