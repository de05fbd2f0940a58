import Rpcmple.Cpp.Replies

namespace Rpcmple.Cpp

open Data MessageManager

/-! `stdInOutClient`, whose reads wait for a whole buffer or the end of the input. -/

namespace StdInOutClient

/-- `read` into a vector of `size` bytes: whether it returns true, the bytes it counts,
and what is left of the input.  The end is noticed when less than `size` was there. -/
def read (stdin : Bytes) (size : Nat) : Bool × Bytes × Bytes :=
  let bytes := stdin.take size
  let eof := decide (bytes.length < size)
  (!eof, bytes, stdin.drop size)

/-- What the reads of `dataFlow` deliver before the first that returns false, when at most
`reads` are made. -/
def deliver (stdin : Bytes) : Nat → List Bytes
  | 0 => []
  | reads + 1 =>
      let (success, bytes, stdin) := read stdin readBufferSize
      if success then bytes :: deliver stdin reads else []

def delivered (stdin : Bytes) : List Bytes := deliver stdin (stdin.length + 1)

theorem read_eq (stdin : Bytes) (size : Nat) :
    read stdin size = (decide (size ≤ stdin.length), stdin.take size, stdin.drop size) := by
  have hfull : (!decide ((stdin.take size).length < size)) = decide (size ≤ stdin.length) := by
    rw [← decide_not, decide_eq_decide, List.length_take]
    omega
  rw [read, hfull]

theorem deliver_spec {stdin : Bytes} {reads : Nat} (hreads : stdin.length < reads) :
    (∀ chunk ∈ deliver stdin reads, chunk.length ≤ readBufferSize) ∧
      (deliver stdin reads).flatten =
        stdin.take (stdin.length / readBufferSize * readBufferSize) := by
  induction reads generalizing stdin with
  | zero => omega
  | succ reads ih =>
      have hsize : 0 < readBufferSize := by decide
      rw [deliver, read_eq]
      by_cases hfull : readBufferSize ≤ stdin.length
      · obtain ⟨hchunks, hflatten⟩ := @ih (stdin.drop readBufferSize)
          (by rw [List.length_drop]; omega)
        have hblocks : stdin.length / readBufferSize * readBufferSize =
            readBufferSize +
              (stdin.drop readBufferSize).length / readBufferSize * readBufferSize := by
          rw [List.length_drop, Nat.div_eq_sub_div hsize hfull, Nat.add_mul, Nat.one_mul,
            Nat.add_comm]
        simp only [hfull, decide_true, if_true]
        constructor
        · rw [List.forall_mem_cons]
          exact ⟨List.length_take_le _ _, hchunks⟩
        · rw [List.flatten_cons, hflatten, hblocks, List.take_add]
      · simp only [hfull, decide_false, Bool.false_eq_true, if_false]
        refine ⟨by simp, ?_⟩
        rw [Nat.div_eq_of_lt (by omega), Nat.zero_mul, List.take_zero, List.flatten_nil]

end StdInOutClient

namespace RpcServer

variable {ω : Type}

def SectionsOf (host : Platform) (writeOk : List Bytes → Bytes → Bool)
    (localProcedures : List (LocalProcedureSignature ω)) (world : ω) (stdin : Bytes)
    (visited : List (Position (RpcServer ω) × Bytes)) : Prop :=
  ∃ final, (Position.sections (methods host) writeOk).Runs
    ⟨new localProcedures world, [], 4⟩ stdin visited final

end RpcServer

/-- A server behind `stdInOutClient` parses all the sections of its input exactly when
none of them ends behind the last whole read buffer. -/
theorem stdin_sections_iff {ω : Type} (host : Platform)
    (writeOk : List Bytes → Bytes → Bool)
    (localProcedures : List (LocalProcedureSignature ω)) (world : ω) (stdin : Bytes) :
    ∃ n visited,
      Rests (RpcServer.methods host)
        ((dataFlow (RpcServer.methods host) writeOk)^[n]
          (init (RpcServer.methods host) (RpcServer.new localProcedures world)
            (StdInOutClient.delivered stdin))) ∧
      RpcServer.SectionsOf host writeOk localProcedures world stdin visited ∧
      (((dataFlow (RpcServer.methods host) writeOk)^[n]
          (init (RpcServer.methods host) (RpcServer.new localProcedures world)
            (StdInOutClient.delivered stdin))).parsed = visits visited ↔
        Cutter.consumed visited ≤ stdin.length / readBufferSize * readBufferSize) := by
  have hsectional := RpcServer.serving_sectional host localProcedures
  have hstart : RpcServer.Serving localProcedures (RpcServer.new localProcedures world) :=
    ⟨RpcServer.sectionFramed_header, rfl⟩
  obtain ⟨hchunks, hdelivered⟩ :=
    StdInOutClient.deliver_spec (Nat.lt_succ_self stdin.length)
  have hprogress := hsectional.progresses writeOk
  obtain ⟨visited, final, hruns⟩ :=
    @Cutter.Progresses.exists_runs _ _ ⟨RpcServer.new localProcedures world, [], 4⟩ _
      hprogress hstart stdin
  obtain ⟨handled, last, hhandled⟩ :=
    @Cutter.Progresses.exists_runs _ _ ⟨RpcServer.new localProcedures world, [], 4⟩ _
      hprogress hstart (StdInOutClient.delivered stdin).flatten
  obtain ⟨-, n, hrests, hparsed, -⟩ := dataFlow_handlesAll hsectional hstart hchunks
    (Or.inr ⟨_, rfl, handled, last, hhandled, rfl, rfl⟩)
  refine ⟨n, visited, hrests, ⟨final, hruns⟩, ?_⟩
  refine Iff.trans (Eq.congr_left hparsed) ?_
  rw [show (StdInOutClient.delivered stdin).flatten = _ from hdelivered] at hhandled
  have hblocks : stdin.length / readBufferSize * readBufferSize ≤ stdin.length :=
    Nat.div_mul_le_self _ _
  have hlength : (stdin.take (stdin.length / readBufferSize * readBufferSize)).length =
      stdin.length / readBufferSize * readBufferSize := List.length_take_of_le hblocks
  constructor
  · intro hsame
    have hconsumed : Cutter.consumed visited = Cutter.consumed handled := by
      have hlengths := congrArg (List.map fun visit => visit.2.length) hsame
      simp only [visits, List.map_map] at hlengths
      exact congrArg List.sum hlengths.symm
    rw [hconsumed, ← hlength]
    exact hhandled.consumed_le
  · intro hconsumed
    rw [← List.take_append_drop (stdin.length / readBufferSize * readBufferSize) stdin]
      at hruns
    obtain ⟨other, hother⟩ := hruns.of_consumed (hconsumed.trans hlength.ge)
    rw [(hhandled.unique hother).1]

/-- A whole request behind which the input is closed is not parsed: the only read finds the
end and returns false, and the flow stops. -/
theorem stdin_request_lost :
    (∃ visited, RpcServer.SectionsOf plainPlatform RpcServer.takesAll [takesNumber] ()
        (Frame.bytes ⟨0, [7, 0, 0, 0, 0, 0, 0, 0]⟩) visited ∧ visited.length = 2) ∧
      Rests (RpcServer.methods plainPlatform)
        ((dataFlow (RpcServer.methods plainPlatform) RpcServer.takesAll)^[2]
          (init (RpcServer.methods plainPlatform) (RpcServer.new [takesNumber] ())
            (StdInOutClient.delivered (Frame.bytes ⟨0, [7, 0, 0, 0, 0, 0, 0, 0]⟩)))) ∧
      ((dataFlow (RpcServer.methods plainPlatform) RpcServer.takesAll)^[2]
        (init (RpcServer.methods plainPlatform) (RpcServer.new [takesNumber] ())
          (StdInOutClient.delivered (Frame.bytes ⟨0, [7, 0, 0, 0, 0, 0, 0, 0]⟩)))).parsed =
        [] := by
  have hruns : Cutter.Runs (Position.sections (RpcServer.methods plainPlatform)
      RpcServer.takesAll) ⟨RpcServer.new [takesNumber] (), [], 4⟩
      ([8, 0, 0, 0] ++ ([7, 0, 0, 0, 0, 0, 0, 0] ++ [])) _ _ :=
    .next rfl rfl (.next rfl rfl (.short (by decide)))
  exact ⟨⟨_, ⟨_, hruns⟩, rfl⟩, Or.inl rfl, rfl⟩

end Rpcmple.Cpp
