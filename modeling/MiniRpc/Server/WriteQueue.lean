/-
# The write queue of a connection

`QueueResponse`, `EnqueueResponse` and `FlushWrites` of
`src/server/connection.cpp` keep a queue of encoded frames, `write_buffer_`, and
beside it a counter of the bytes in it, `pending_write_bytes_`, which the
backpressure check goes by.  `FlushWrites` sends the chunk in front as far as
the socket takes it and counts the bytes down as they go.

`Balanced` says that the two agree, and that no chunk is sent to its end and
still there.  It holds after every series of calls, whatever `send` answers, so
the counter is never counted down past zero: `send` is never offered more bytes
than the counter holds.
-/

import MiniRpc.Server.Responses

namespace MiniRpc
namespace Server

open Protocol Transition

/-- The bytes of a chunk that are still to be sent. -/
def PendingChunk.remaining (chunk : PendingChunk) : ℕ := chunk.data.length - chunk.offset

/-- The counter is the number of bytes left in the queue, within the limit, and
each chunk has some left. -/
structure Balanced (env : Env) (o : Outbound) : Prop where
  count : o.pendingWriteBytes = (o.writeBuffer.map PendingChunk.remaining).sum
  limit : o.pendingWriteBytes ≤ env.options.maxWriteBufferBytes
  offset : ∀ chunk ∈ o.writeBuffer, chunk.offset < chunk.data.length

/-- The bytes left in a chunk are counted. -/
theorem Balanced.remaining_le {env : Env} {o : Outbound} (h : Balanced env o)
    {chunk : PendingChunk} (hchunk : chunk ∈ o.writeBuffer) :
    chunk.remaining ≤ o.pendingWriteBytes := by
  obtain ⟨before, after, hsplit⟩ := List.append_of_mem hchunk
  rw [h.count, hsplit, List.map_append, List.sum_append, List.map_cons, List.sum_cons]
  omega

/-- A response that is not queued leaves everything as it is. -/
theorem enqueueResponse_rejected {env : Env} {o o' : Outbound} {response : RpcResponse}
    {e : String} (h : enqueueResponse env o response = (o', some e)) : o' = o := by
  unfold enqueueResponse at h
  split at h
  · cases (Prod.mk.inj h).2
  · exact (Prod.mk.inj h).1.symm

/-- **Queueing keeps the balance.** -/
theorem Balanced.enqueueResponse {env : Env} {o : Outbound} (h : Balanced env o)
    (response : RpcResponse) : Balanced env (enqueueResponse env o response).1 := by
  rcases hq : Server.enqueueResponse env o response with ⟨o', failure⟩
  cases failure with
  | some e =>
    obtain rfl := enqueueResponse_rejected hq
    exact h
  | none =>
    obtain ⟨hsize, hroom⟩ := enqueueResponse_ok hq
    rw [enqueueResponse_valid hsize hroom] at hq
    obtain ⟨rfl, -⟩ := Prod.mk.inj hq
    have hcount := h.count
    refine ⟨?_, hroom, ?_⟩
    · show o.pendingWriteBytes + (frame (env.response.serialize response)).length =
        ((o.writeBuffer ++ [responseChunk env response]).map PendingChunk.remaining).sum
      rw [List.map_append, List.sum_append, ← hcount]
      simp [PendingChunk.remaining, responseChunk]
    · intro chunk hchunk
      rcases List.mem_append.1 hchunk with hchunk | hchunk
      · exact h.offset chunk hchunk
      · obtain rfl := List.mem_singleton.1 hchunk
        show 0 < (frame (env.response.serialize response)).length
        simp [frame, encodeLength]

/-- A round of `FlushWrites` in which `send` took `k` bytes of the first chunk. -/
theorem Balanced.sent {env : Env} {o o' : Outbound} (h : Balanced env o) {chunk : PendingChunk}
    {chunks : List PendingChunk} (hbuf : o.writeBuffer = chunk :: chunks) {k : ℕ}
    (hk : k ≤ chunk.remaining) (hcount' : o'.pendingWriteBytes = o.pendingWriteBytes - k)
    (hbuf' : o'.writeBuffer = if chunk.offset + k = chunk.data.length then chunks
      else { chunk with offset := chunk.offset + k } :: chunks) : Balanced env o' := by
  obtain ⟨hcount, hlimit, hoffset⟩ := h
  rw [hbuf] at hcount hoffset
  rw [List.map_cons, List.sum_cons] at hcount
  obtain ⟨hchunk, hchunks⟩ := List.forall_mem_cons.1 hoffset
  unfold PendingChunk.remaining at hk
  by_cases hall : chunk.offset + k = chunk.data.length
  · rw [if_pos hall] at hbuf'
    refine ⟨?_, by omega, hbuf' ▸ hchunks⟩
    have hremaining : chunk.remaining = k := by
      unfold PendingChunk.remaining
      omega
    rw [hbuf']
    omega
  · rw [if_neg hall] at hbuf'
    refine ⟨?_, by omega, ?_⟩
    · have hremaining : chunk.remaining =
          k + PendingChunk.remaining { chunk with offset := chunk.offset + k } := by
        unfold PendingChunk.remaining
        dsimp only
        omega
      rw [hbuf', List.map_cons, List.sum_cons]
      omega
    · rw [hbuf']
      refine List.forall_mem_cons.2 ⟨?_, hchunks⟩
      show chunk.offset + k < chunk.data.length
      omega

/-- **Flushing keeps the balance**, whatever `send` answers. -/
theorem Balanced.flushWrites {env : Env} {o : Outbound} (h : Balanced env o) :
    Balanced env (flushWrites o).1 := by
  fun_induction Server.flushWrites o with
  | case1 => exact h
  | case2 => exact ⟨h.count, h.limit, h.offset⟩
  | case3 o chunk chunks hbuf n outbox hsend offset ih =>
    simp only [dite_eq_ite] at ih
    exact ih (h.sent hbuf (Outbox.send_sent hsend).1 rfl rfl)
  | case4 o chunk chunks hbuf outbox hsend ih => exact ih ⟨h.count, h.limit, h.offset⟩
  | case5 => exact ⟨h.count, h.limit, h.offset⟩
  | case6 => exact ⟨h.count, h.limit, h.offset⟩

/-- A call on the write queue. -/
inductive QueueCall where
  | queueResponse (response : RpcResponse)
  | enqueueResponse (response : RpcResponse)
  | flushWrites

/-- What a call leaves, and the error it returns. -/
def QueueCall.run (env : Env) (o : Outbound) : QueueCall → Outbound × Option String
  | .queueResponse response =>
    match Server.queueResponse env o response with
    | .ok o' => (o', none)
    | .error e => (o, some e)
  | .enqueueResponse response => Server.enqueueResponse env o response
  | .flushWrites => Server.flushWrites o

/-- The response a call is about. -/
def QueueCall.response : QueueCall → Option RpcResponse
  | .queueResponse response => some response
  | .enqueueResponse response => some response
  | .flushWrites => none

/-- The calls go on after one has failed. -/
def callStep (env : Env) (o : Outbound) (call : QueueCall) : Option Outbound :=
  some (call.run env o).1

/-- The frame that a call queues. -/
def acceptedFrame (env : Env) (o : Outbound) (call : QueueCall) : Option Bytes :=
  if (call.run env o).2 = none then
    call.response.map fun response => frame (env.response.serialize response)
  else none

/-- `EnqueueResponse` is `QueueResponse` with a deadline. -/
theorem run_queueResponse (env : Env) (o : Outbound) (response : RpcResponse) :
    ∃ o', (QueueCall.queueResponse response).run env o =
        (o', ((QueueCall.enqueueResponse response).run env o).2) ∧
      o'.writeBuffer = (enqueueResponse env o response).1.writeBuffer ∧
      o'.pendingWriteBytes = (enqueueResponse env o response).1.pendingWriteBytes ∧
      o'.wire = (enqueueResponse env o response).1.wire := by
  unfold QueueCall.run enqueueResponse
  dsimp only
  cases queueResponse env o response with
  | error e => exact ⟨o, rfl, rfl, rfl, rfl⟩
  | ok o' => exact ⟨o', rfl, rfl, rfl, rfl⟩

/-- The balance is about the queue and the counter. -/
theorem Balanced.congr {env : Env} {o o' : Outbound} (h : Balanced env o)
    (hbuffer : o'.writeBuffer = o.writeBuffer)
    (hcount : o'.pendingWriteBytes = o.pendingWriteBytes) : Balanced env o' := by
  refine ⟨?_, ?_, ?_⟩
  · rw [hbuffer, hcount]
    exact h.count
  · rw [hcount]
    exact h.limit
  · rw [hbuffer]
    exact h.offset

/-- **Every call keeps the balance.** -/
theorem Balanced.run {env : Env} {o : Outbound} (h : Balanced env o) (call : QueueCall) :
    Balanced env (call.run env o).1 := by
  cases call with
  | queueResponse response =>
    obtain ⟨o', hrun, hbuffer, hcount, -⟩ := run_queueResponse env o response
    rw [hrun]
    exact (h.enqueueResponse response).congr hbuffer hcount
  | enqueueResponse response => exact h.enqueueResponse response
  | flushWrites => exact h.flushWrites

/-- A call that is refused leaves the queue and the counter alone. -/
theorem run_rejected {env : Env} {o o' : Outbound} {call : QueueCall} {e : String}
    (hcall : call.response.isSome) (h : call.run env o = (o', some e)) : o' = o := by
  cases call with
  | queueResponse response =>
    unfold QueueCall.run at h
    dsimp only at h
    cases hq : queueResponse env o response <;> rw [hq] at h <;> cases h
    rfl
  | enqueueResponse response => exact enqueueResponse_rejected h
  | flushWrites => cases hcall

/-- What has been queued, sent or not, grows by the frame that a call queues. -/
theorem run_emitted (env : Env) (o : Outbound) (call : QueueCall) :
    (call.run env o).1.emitted = o.emitted ++ (acceptedFrame env o call).toList.flatten := by
  have henqueue : ∀ response, (enqueueResponse env o response).1.emitted = o.emitted ++
      (acceptedFrame env o (.enqueueResponse response)).toList.flatten := by
    intro response
    rcases hq : enqueueResponse env o response with ⟨o', failure⟩
    have hrun : (QueueCall.enqueueResponse response).run env o = (o', failure) := hq
    unfold acceptedFrame
    rw [hrun]
    cases failure with
    | none =>
      rw [enqueueResponse_emitted hq]
      simp [QueueCall.response]
    | some e =>
      obtain rfl := enqueueResponse_rejected hq
      simp
  cases call with
  | queueResponse response =>
    obtain ⟨o', hrun, hbuffer, -, hwire⟩ := run_queueResponse env o response
    have haccepted : acceptedFrame env o (.queueResponse response) =
        acceptedFrame env o (.enqueueResponse response) := by
      unfold acceptedFrame
      rw [hrun]
      rfl
    rw [haccepted, ← henqueue, hrun]
    simp only [Outbound.emitted, hbuffer, hwire]
  | enqueueResponse response => exact henqueue response
  | flushWrites =>
    have hnone : acceptedFrame env o .flushWrites = none := by
      simp [acceptedFrame, QueueCall.response]
    rw [hnone]
    simpa [QueueCall.run] using flushWrites_emitted o

theorem exec_callStep_isSome (env : Env) (calls : List QueueCall) (o : Outbound) :
    ∃ o', exec (callStep env) o calls = some o' := by
  induction calls generalizing o with
  | nil => exact ⟨o, rfl⟩
  | cons call calls ih => exact ih _

/-- **The counter, the queue and the socket agree.**  After any series of calls
on a new connection, with any answers of `send`, the counter is the number of
unsent bytes in the queue and within the limit; every chunk has unsent bytes,
and no more of them than the counter holds; a response that is refused leaves
the queue and the counter as they are; and the bytes `send` took, followed by
the unsent bytes of the queue, are the frames accepted so far, in order. -/
theorem writeQueue_balanced (env : Env) (clock : List Time) (outbox : Outbox)
    (calls : List QueueCall) :
    ∃ o, exec (callStep env) { clock, outbox } calls = some o ∧
      o.pendingWriteBytes =
        (o.writeBuffer.map fun chunk => chunk.data.length - chunk.offset).sum ∧
      o.pendingWriteBytes ≤ env.options.maxWriteBufferBytes ∧
      (∀ chunk ∈ o.writeBuffer, chunk.offset < chunk.data.length ∧
        chunk.data.length - chunk.offset ≤ o.pendingWriteBytes) ∧
      (∀ (call : QueueCall) o' e, call.response.isSome → call.run env o = (o', some e) →
        o'.writeBuffer = o.writeBuffer ∧ o'.pendingWriteBytes = o.pendingWriteBytes) ∧
      o.wire ++ (o.writeBuffer.map fun chunk => chunk.data.drop chunk.offset).flatten =
        (observe (callStep env) (acceptedFrame env) { clock, outbox } calls).flatten := by
  obtain ⟨o, ho⟩ := exec_callStep_isSome env calls { clock, outbox }
  have hinit : Balanced env { clock, outbox } := ⟨rfl, Nat.zero_le _, by simp⟩
  have hbalanced : Balanced env o :=
    exec_invariant hinit (fun s call t hs ht => Option.some.inj ht ▸ hs.run call) ho
  have hemitted : o.emitted =
      (observe (callStep env) (acceptedFrame env) { clock, outbox } calls).flatten := by
    refine (exec_history (I := fun calls o => exec (callStep env) { clock, outbox } calls = some o ∧
      o.emitted = (observe (callStep env) (acceptedFrame env) { clock, outbox } calls).flatten)
      ⟨rfl, rfl⟩ ?_ calls o ho).2
    rintro calls s call t ⟨hrun, hs⟩ ht
    refine ⟨exec_concat.2 ⟨s, hrun, ht⟩, ?_⟩
    rw [observe_concat hrun, List.flatten_append, ← hs, ← Option.some.inj ht]
    exact run_emitted env s call
  refine ⟨o, ho, hbalanced.count, hbalanced.limit, fun chunk hchunk =>
    ⟨hbalanced.offset chunk hchunk, hbalanced.remaining_le hchunk⟩, ?_, hemitted⟩
  intro call o' e hcall hrun
  obtain rfl := run_rejected hcall hrun
  exact ⟨rfl, rfl⟩

end Server
end MiniRpc
