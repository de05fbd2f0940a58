import Rpcmple.Cpp.Closing
import Rpcmple.Go.Closing

namespace Rpcmple

open Data System

namespace Cleanup

/-- A flow cleans up along a run exactly when it returns behind a `StopDataFlow` that has
stopped the parser, and in Go not before `dataFlow`; a parser that was stopped keeps no
caller waiting. -/
theorem cleans_up_iff (writeOk : List Bytes → Bytes → Bool) (incoming : List Bytes) :
    (∀ (σ : Type) (methods : Cpp.Parser σ) (stopParser : σ → σ) (parser : σ)
      (actions : List (Cpp.Closing.Action σ)),
      Along (Cpp.Closing.step methods stopParser writeOk) Cpp.Closing.Clean
          (Cpp.Closing.start methods parser incoming) actions ↔
        Meets (Cpp.Closing.step methods stopParser writeOk) Cpp.Closing.Stopped
          (Cpp.Closing.start methods parser incoming) actions) ∧
    (∀ (σ : Type) (methods : Go.MessageParser σ) (requester : Bool) (Stop : σ → σ)
      (parser : σ) (actions : List (Go.Closing.Action σ)),
      Along (Go.Closing.step methods requester Stop writeOk) Go.Closing.Clean
          (Go.Closing.start methods parser incoming) actions ↔
        Meets (Go.Closing.step methods requester Stop writeOk)
          (Go.Closing.Stopped methods requester writeOk)
          (Go.Closing.start methods parser incoming) actions) ∧
    (∀ (host : Cpp.Platform) (state next later : Cpp.Calling) (index : Nat),
      Cpp.Calling.step host writeOk state .stopParser = some next →
      Reachable (Cpp.Calling.step host writeOk) next later → ¬ later.Blocked index) ∧
    ∀ (state next later : Go.Calling) (index : Nat),
      state.stopping = .requested → Go.Calling.step writeOk state .stop = some next →
      Reachable (Go.Calling.step writeOk) next later → ¬ later.Blocked index :=
  ⟨fun _ _ _ parser actions => Cpp.Closing.clean_iff parser incoming actions,
    fun _ _ _ _ parser actions => Go.Closing.clean_iff parser incoming actions,
    fun _ _ _ _ _ hstop hreaches => Cpp.Calling.not_blocked_of_stopParser hstop hreaches,
    fun _ _ _ _ hrequested hstop hreaches =>
      Go.Calling.not_blocked_of_stop hrequested hstop hreaches⟩

open Cpp (plainPlatform greets)
open Cpp.RpcServer (takesAll)

private def cppStops : List (Cpp.Closing.Action Cpp.DataSubscriber) :=
  List.replicate 4 .flow ++ [.stopDataFlow, .flow, .stopParser] ++ List.replicate 3 .flow

private def goStops : List (Go.Closing.Action Go.DataSubscriber) :=
  List.replicate 3 .flow ++ [.stopDataFlow, .flow, .stop] ++ List.replicate 3 .flow

theorem cleans_up_stopped :
    (∃ final, run (Cpp.Closing.step (Cpp.DataSubscriber.methods plainPlatform) id takesAll)
        (Cpp.Closing.start (Cpp.DataSubscriber.methods plainPlatform)
          (Cpp.DataSubscriber.new [DataType.u.char] true) [[8, 0, 0, 1], [5, 0]]) cppStops =
          some final ∧
      final.returned = true ∧ final.mm.parsed.length = 1 ∧
      Along (Cpp.Closing.step (Cpp.DataSubscriber.methods plainPlatform) id takesAll)
        Cpp.Closing.Clean (Cpp.Closing.start (Cpp.DataSubscriber.methods plainPlatform)
          (Cpp.DataSubscriber.new [DataType.u.char] true) [[8, 0, 0, 1], [5, 0]]) cppStops) ∧
    ∃ final, run (Go.Closing.step Go.DataSubscriber.methods false id takesAll)
        (Go.Closing.start Go.DataSubscriber.methods
          (Go.DataSubscriber.NewDataSubscriber [DataType.u.char] true) [[8, 0, 0, 1], [5, 0]])
        goStops = some final ∧
      final.place = .returned ∧ final.mm.parsed.length = 1 ∧
      Along (Go.Closing.step Go.DataSubscriber.methods false id takesAll) Go.Closing.Clean
        (Go.Closing.start Go.DataSubscriber.methods
          (Go.DataSubscriber.NewDataSubscriber [DataType.u.char] true) [[8, 0, 0, 1], [5, 0]])
        goStops := by
  have hlaw := cleans_up_iff takesAll [[8, 0, 0, 1], [5, 0]]
  constructor
  · obtain ⟨final, hrun, hreturned, hparsed⟩ : ∃ final,
        run (guarded (Cpp.Closing.step (Cpp.DataSubscriber.methods plainPlatform) id takesAll)
            Cpp.Closing.Stopped) (Cpp.Closing.start (Cpp.DataSubscriber.methods plainPlatform)
          (Cpp.DataSubscriber.new [DataType.u.char] true) [[8, 0, 0, 1], [5, 0]]) cppStops =
          some final ∧ final.returned = true ∧ final.mm.parsed.length = 1 := ⟨_, rfl, rfl, rfl⟩
    obtain ⟨hmeets, hfinal⟩ := meets_of_guarded hrun
    exact ⟨final, hfinal, hreturned, hparsed, (hlaw.1 _ _ _ _ _).mpr hmeets⟩
  · obtain ⟨final, hrun, hreturned, hparsed⟩ : ∃ final,
        run (guarded (Go.Closing.step Go.DataSubscriber.methods false id takesAll)
            (Go.Closing.Stopped Go.DataSubscriber.methods false takesAll))
          (Go.Closing.start Go.DataSubscriber.methods
            (Go.DataSubscriber.NewDataSubscriber [DataType.u.char] true) [[8, 0, 0, 1], [5, 0]])
          goStops = some final ∧ final.place = .returned ∧ final.mm.parsed.length = 1 :=
      ⟨_, rfl, rfl, rfl⟩
    obtain ⟨hmeets, hfinal⟩ := meets_of_guarded hrun
    exact ⟨final, hfinal, hreturned, hparsed, (hlaw.2.1 _ _ _ _ _ _).mpr hmeets⟩

/-- At the end of the stream the parser is not stopped, and the caller still waits for the
reply; without a first message the connection is not closed either. -/
theorem returns_unclean :
    ¬ Along (Cpp.Closing.step greets id takesAll) Cpp.Closing.Clean
        (Cpp.Closing.start greets true []) [.flow, .flow, .flow, .flow] ∧
      (∃ final, run (Cpp.Calling.step plainPlatform takesAll)
          (Cpp.Calling.start plainPlatform [⟨[], [], []⟩] 1)
          [.call 0 0 [] [], .wake 0, .push 0 [], .enter, .build, .check, .flow, .flow] =
            some final ∧
        final.mm.loop = .closed ∧ final.Blocked 0) ∧
      ∃ final, run (Go.Closing.step Go.DataSubscriber.methods true id takesAll)
          (Go.Closing.start Go.DataSubscriber.methods
            (Go.DataSubscriber.NewDataSubscriber [] true) []) [.flow] = some final ∧
        final.place = .returned ∧ final.connClosed = false ∧ final.stopCalled = false := by
  refine ⟨?_, ⟨_, rfl, rfl, Or.inr ⟨⟨_, _, _, rfl⟩, rfl⟩⟩, _, rfl, rfl, rfl, rfl⟩
  intro halong
  have hclean := ((((halong.2 _ rfl).2 _ rfl).2 _ rfl).2 _ rfl).head
  cases (hclean rfl).2

end Cleanup

end Rpcmple
