import Rpcmple.Cpp.Turns

namespace Rpcmple.Cpp

open Data MessageManager

namespace RpcClient

def queued (rc : RpcClient) (rpId : UInt32) (args : Bytes) : RpcClient :=
  { rc with args, procedureID := rpId, canCall := false, sendIsReady := true }

def freed (rc : RpcClient) : RpcClient := { rc with replIsReady := false, canCall := true }

variable {host : Platform} {rc client : RpcClient} {rpId : UInt32}
  {proc : RemoteProcedureSignature} {arguments returns : VariantVector}

theorem push_spec {success : Bool}
    (hpush : rc.push host rpId proc arguments = .returns (success, client)) :
    client = if success then rc.queued rpId client.args
      else { rc with args := client.args } := by
  unfold push at hpush
  split at hpush
  · split at hpush
    · cases hpush
      rfl
    · cases hpush
  · split at hpush
    · cases hpush
      rfl
    · cases hpush
  · cases hpush

theorem collect_spec {result : Bool × VariantVector}
    (hcollect : rc.collect host proc returns = .returns (result, client)) :
    client = rc.freed ∧ ∃ decoded,
      DataSignature.fromBinary host proc.rets rc.rets returns = .returns decoded ∧
        result = (decoded.success && decide (decoded.args.length = proc.rets.length),
          decoded.args) := by
  obtain ⟨decoded, hdecoded, hresult⟩ := Exec.bind_eq_returns.mp hcollect
  cases hresult
  exact ⟨rfl, decoded, hdecoded, rfl⟩

end RpcClient

namespace Calling

variable {host : Platform} {writeOk : List Bytes → Bytes → Bool} {state next : Calling}

def Action.isFlow : Action → Bool
  | .enter | .build | .check | .flow => true
  | _ => false

/-- The parts of `callSync`, those of the flow as `Flows` has them, and what comes from
outside. -/
inductive Moves (host : Platform) (state : Calling) : Action → Calling → Prop where
  | refuses {index : Nat} {rpId : UInt32} {arguments returns : VariantVector} :
      Moves host state (.call index rpId arguments returns) state
  | calls {index : Nat} {rpId : UInt32} {arguments returns : VariantVector}
      {proc : RemoteProcedureSignature} :
      state.callers[index]? = some .idle →
      state.client.remoteProcedures[rpId.toNat]? = some proc →
      arguments.length = proc.args.length →
      Moves host state (.call index rpId arguments returns)
        (state.goto index (.waiting ⟨rpId, proc, arguments, returns⟩))
  | givesUp {index : Nat} {call : Call} :
      state.callers[index]? = some (.waiting call) → state.client.stopWait = true →
      Moves host state (.wake index) (state.goto index .idle)
  | wakes {index : Nat} {call : Call} :
      state.callers[index]? = some (.waiting call) → state.client.canCall = true →
      state.client.stopWait = false →
      Moves host state (.wake index) (state.goto index (.pushing call))
  | pushes {index : Nat} {left args : Bytes} {call : Call} :
      state.callers[index]? = some (.pushing call) →
      state.client.push host call.rpId call.proc call.arguments =
        .returns (true, state.client.queued call.rpId args) →
      Moves host state (.push index left)
        { (state.meets (state.client.queued call.rpId args)).goto index
            (.collecting call args []) with
          pushed := state.pushed ++ [(call, args)] }
  | fails {index : Nat} {left args : Bytes} {call : Call} :
      state.callers[index]? = some (.pushing call) →
      Moves host state (.push index left)
        ((state.meets { state.client with args }).goto index .idle)
  | releases {index : Nat} {call : Call} {args : Bytes} {since : List Event} :
      state.callers[index]? = some (.collecting call args since) →
      state.client.mayCollect = true →
      Moves host state (.release index) (state.goto index (.released call args since))
  | collects {index : Nat} {call : Call} {args : Bytes} {since : List Event}
      {values : VariantVector} :
      state.callers[index]? = some (.released call args since) →
      state.client.collect host call.proc call.returns =
        .returns ((true, values), state.client.freed) →
      Moves host state (.collect index)
        { (state.meets state.client.freed).goto index .idle with
          returned := state.returned ++ [⟨call, args, since, state.client, values⟩] }
  | drops {index : Nat} {call : Call} {args : Bytes} {since : List Event} :
      state.callers[index]? = some (.released call args since) →
      (∀ values client, state.client.collect host call.proc call.returns ≠
        .returns ((true, values), client)) →
      Moves host state (.collect index) ((state.meets state.client.freed).goto index .idle)
  | flows {action : Action} {events : List Event} {next : Calling} :
      action.isFlow = true → state.Flows host events next → Moves host state action next
  | delivers {chunk : Bytes} :
      chunk.length ≤ readBufferSize →
      Moves host state (.deliver chunk)
        { state with mm := { state.mm with incoming := state.mm.incoming ++ [chunk] } }
  | requests :
      Moves host state .requestStop
        { state with mm := { state.mm with stopRequested := true } }
  | stops :
      Moves host state .stopParser (state.meets { state.client with stopWait := true })

theorem push_moves {index : Nat} {left : Bytes} (hpush : state.push host index left = some next) :
    Moves host state (.push index left) next := by
  unfold push at hpush
  split at hpush
  · rename_i call hcaller
    split at hpush
    · rename_i client hresult
      cases hpush
      have hclient : client = state.client.queued call.rpId client.args :=
        RpcClient.push_spec hresult
      have hmoves := @Moves.pushes host state index left client.args call hcaller
      rw [← hclient] at hmoves
      exact hmoves hresult
    · rename_i client hresult
      cases hpush
      have hclient : client = { state.client with args := client.args } :=
        RpcClient.push_spec hresult
      rw [hclient]
      exact .fails hcaller
    · cases hpush
      exact .fails hcaller
    · cases hpush
      exact .fails hcaller
    · cases hpush
  · cases hpush

theorem collect_moves {index : Nat} (hcollect : state.collect host index = some next) :
    Moves host state (.collect index) next := by
  unfold collect at hcollect
  split at hcollect
  · rename_i call args since hcaller
    split at hcollect
    · rename_i success values client hresult
      cases hcollect
      obtain ⟨rfl, -⟩ := RpcClient.collect_spec hresult
      cases success with
      | true => exact .collects hcaller hresult
      | false => exact .drops hcaller (by simp [hresult])
    · rename_i hresult
      cases hcollect
      exact .drops hcaller (by simp [hresult])
    · rename_i hresult
      cases hcollect
      exact .drops hcaller (by simp [hresult])
    · cases hcollect
  · cases hcollect

theorem wake_moves {index : Nat} (hwake : state.wake index = some next) :
    Moves host state (.wake index) next := by
  unfold wake at hwake
  split at hwake
  · rename_i call hcaller
    split at hwake
    · rename_i hmay
      split at hwake
      · rename_i hstop
        cases hwake
        exact .givesUp hcaller hstop
      · rename_i hstop
        cases hwake
        rw [Bool.not_eq_true] at hstop
        refine .wakes hcaller ?_ hstop
        simpa [RpcClient.mayCall, hstop] using hmay
    · cases hwake
  · cases hwake

theorem step_moves {action : Action} (hsteady : state.Steady host)
    (hstep : state.step host writeOk action = some next) : Moves host state action next := by
  cases action with
  | call index rpId arguments returns =>
      change state.call index rpId arguments returns = some next at hstep
      unfold call at hstep
      split at hstep
      · rename_i proc hidle hproc
        split at hstep
        · cases hstep
          exact .refuses
        · rename_i hcount
          cases hstep
          exact .calls hidle hproc (not_not.mp hcount)
      · cases hstep
  | wake index => exact wake_moves hstep
  | push index left => exact push_moves hstep
  | release index =>
      change state.release index = some next at hstep
      unfold release at hstep
      split at hstep
      · rename_i hcaller
        split at hstep
        · rename_i hmay
          cases hstep
          exact .releases hcaller hmay
        · cases hstep
      · cases hstep
  | collect index => exact collect_moves hstep
  | enter => exact .flows rfl (flows_enter hsteady hstep)
  | build => exact .flows rfl (flows_build hsteady hstep)
  | check => exact .flows rfl (flows_check hsteady hstep)
  | flow =>
      obtain ⟨events, hflows⟩ := flows_flow hsteady hstep
      exact .flows rfl hflows
  | deliver chunk =>
      change state.deliver chunk = some next at hstep
      unfold deliver at hstep
      split at hstep
      · rename_i hchunk
        cases hstep
        exact .delivers hchunk
      · cases hstep
  | requestStop =>
      cases hstep
      exact .requests
  | stopParser =>
      cases hstep
      exact .stops

theorem Moves.steady {action : Action} (hmoves : Moves host state action next)
    (hsteady : state.Steady host) : next.Steady host := by
  cases hmoves with
  | refuses => exact hsteady
  | calls | givesUp | wakes | releases =>
      exact ⟨hsteady.ready, hsteady.asked, hsteady.framed, hsteady.writes, hsteady.header,
        hsteady.quiet⟩
  | @pushes index left args call =>
      have hmeets := @Steady.meets host state (state.client.queued call.rpId args) hsteady rfl rfl
      exact ⟨hmeets.ready, hmeets.asked, hmeets.framed, hmeets.writes, hmeets.header,
        hmeets.quiet⟩
  | @fails index left args =>
      have hmeets := @Steady.meets host state { state.client with args } hsteady rfl rfl
      exact ⟨hmeets.ready, hmeets.asked, hmeets.framed, hmeets.writes, hmeets.header,
        hmeets.quiet⟩
  | collects | drops =>
      have hmeets := @Steady.meets host state state.client.freed hsteady rfl rfl
      exact ⟨hmeets.ready, hmeets.asked, hmeets.framed, hmeets.writes, hmeets.header,
        hmeets.quiet⟩
  | stops => exact @Steady.meets host state { state.client with stopWait := true } hsteady rfl rfl
  | flows _ hflows => exact hflows.steady
  | @delivers chunk hchunk =>
      have hchunks : ∀ other ∈ state.mm.incoming ++ [chunk], other.length ≤ readBufferSize :=
        List.forall_mem_append.mpr ⟨hsteady.ready.chunks, by simpa using hchunk⟩
      exact ⟨⟨hsteady.ready.counted, hsteady.ready.small, hchunks, hsteady.ready.placed⟩,
        hsteady.asked, hsteady.framed, hsteady.writes, hsteady.header, hsteady.quiet⟩
  | requests =>
      exact ⟨hsteady.ready, hsteady.asked, hsteady.framed, hsteady.writes, hsteady.header,
        hsteady.quiet⟩

end Calling

end Rpcmple.Cpp
